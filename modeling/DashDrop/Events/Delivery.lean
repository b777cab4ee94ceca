/- GID: DashDrop/Events/Delivery
   source: src-tauri/src/state.rs, src/ipc.ts
   anchors: []
   digest: When a poller is given every event of concurrent recorders, once and in order. -/

import DashDrop.Events.Concurrency
import DashDrop.Events.Replay

set_option autoImplicit false
set_option relaxedAutoImplicit false

namespace DashDrop.Events.Delivery

open DashDrop.Foundation.Tables DashDrop.Foundation.Numbering DashDrop.Foundation.Transitions
open DashDrop.Events.Journal DashDrop.Events.Compaction DashDrop.Events.Feed
open DashDrop.Events.Replay DashDrop.Events.Concurrency

variable {Value : Type} {h h' : Hub Value}

/-- Concurrent recording and polling starts in a state that calls one after the other have
left. -/
def Hub.of (s : Session Value) : Hub Value :=
  ⟨s.app, s.db, [], .watching 1, s.recorded.map fun event => (s.app.runtimeEventGeneration, event)⟩

/-- The poller asks from a cursor of at least 1 for at least one event. -/
def Asked : Work Value → Prop
  | .watch cursor => 1 ≤ cursor
  | .lockFeed limit => 1 ≤ limit
  | _ => True

/-- Numbers enter the feed in order; they enter the journal in order and none fails to; and when
the poller comes to read the journal, compaction has not passed its cursor. -/
def InOrder (h : Hub Value) : Work Value → Prop
  | .push i => ∀ call ∈ h.calls[i]?, ∀ other ∈ h.calls, other.pushed = false →
      call.envelope.seq ≤ other.envelope.seq
  | .persist i _ outcome => outcome = .ok ∧ ∀ call ∈ h.calls[i]?, ∀ other ∈ h.calls,
      call.envelope.seq ≤ other.envelope.seq
  | .readJournal _ => ∀ oldest ∈ h.db.oldestSeq h.app.runtimeEventGeneration,
      oldest ≤ h.poller.cursor + 1
  | _ => True

def Orderly (h : Hub Value) (work : Work Value) : Prop := Asked work ∧ InOrder h work

/-- Numbers enter the feed in order, and the poller is given nothing from the journal. Appends may
fail and overtake each other. -/
def FromFeed (h : Hub Value) : Work Value → Prop
  | .push i => InOrder h (.push i)
  | .readJournal answers => answers = false ∨ h.poller.resynced = true
  | _ => True

def Hot (h : Hub Value) (work : Work Value) : Prop := Asked work ∧ FromFeed h work

instance (work : Work Value) : Decidable (Asked work) := by
  cases work <;> unfold Asked <;> infer_instance

instance (h : Hub Value) (work : Work Value) : Decidable (InOrder h work) := by
  cases work <;> unfold InOrder <;> infer_instance

instance (h : Hub Value) (work : Work Value) : Decidable (Orderly h work) :=
  inferInstanceAs (Decidable (_ ∧ _))

instance (h : Hub Value) (work : Work Value) : Decidable (FromFeed h work) := by
  cases work <;> unfold FromFeed <;> infer_instance

instance (h : Hub Value) (work : Work Value) : Decidable (Hot h work) :=
  inferInstanceAs (Decidable (_ ∧ _))

/-- What the poller was given: everything after its start up to its cursor, once and in order,
unless it was told to resync. -/
def NoneLost [DecidableEq Value] (h : Hub Value) : Prop :=
  h.poller.resynced = true ∨
    (h.poller.delivered.Pairwise fun a b => a.seq < b.seq) ∧
    (∀ event ∈ h.poller.delivered, (h.app.runtimeEventGeneration, event) ∈ h.published ∧
      h.poller.start < event.seq ∧ event.seq ≤ h.poller.cursor) ∧
    ∀ event, (h.app.runtimeEventGeneration, event) ∈ h.published → h.poller.start < event.seq →
      event.seq ≤ h.poller.cursor → h.poller.delivered.count event = 1

structure Fed (generation : String) (published : List (String × RuntimeEventEnvelope Value))
    (poller : Poller Value) : Prop where
  delivered : poller.resynced = true ∨ (1 ≤ poller.start ∧ poller.start ≤ poller.cursor ∧
    Consecutive RuntimeEventEnvelope.seq (poller.start + 1) (poller.cursor + 1) poller.delivered ∧
    ∀ event ∈ poller.delivered, (generation, event) ∈ published)
  holding : ∀ limit, poller.phase = .holding limit → 1 ≤ limit
  marked : ∀ limit oldest, poller.phase = .marked limit oldest → 1 ≤ limit
  reading : ∀ request, poller.phase = .reading request →
    1 ≤ request.limit ∧ request.afterSeq = poller.cursor

/-- The tables that the numbers up to `a` have reached. -/
structure Stored (g : String) (published : List (String × RuntimeEventEnvelope Value)) (a lo : ℕ)
    (db : EventDb Value) : Prop where
  shape : Shape g a lo db
  generation : db.metaRow.generation = g
  journaled : Journaled (fun g' event => g' = g → (g', event) ∈ published) db

/-- The numbers up to `p` are in the feed, and calls under way hold the rest up to the counter. -/
structure Warm (g : String) (p : ℕ) (h : Hub Value) : Prop where
  current : h.app.runtimeEventGeneration = g
  pushing : p ≤ h.app.runtimeEventSeq
  ordered : h.calls.Pairwise fun a b => a.envelope.seq < b.envelope.seq
  drawn : ∀ call ∈ h.calls, call.envelope.seq ≤ h.app.runtimeEventSeq
  waiting : ∀ k, p < k → k ≤ h.app.runtimeEventSeq →
    ∃ call ∈ h.calls, call.pushed = false ∧ call.envelope.seq = k
  beyond : ∀ call ∈ h.calls, call.pushed = false → p < call.envelope.seq
  feed : Consecutive RuntimeEventEnvelope.seq (p + 1 - min p 1024) (p + 1) h.app.runtimeEventFeed
  hot : ∀ event ∈ h.app.runtimeEventFeed, (g, event) ∈ h.published
  published : Consecutive (fun q : String × RuntimeEventEnvelope Value => q.2.seq) 1 (p + 1)
    h.published
  poller : Fed g h.published h.poller

/-- The numbers up to `a` are in the journal as well. -/
structure Flow (g : String) (lo a p : ℕ) (h : Hub Value) : Prop where
  warm : Warm g p h
  behind : a ≤ p
  calls : Consecutive (fun call : RecordCall Value => call.envelope.seq) (a + 1)
    (h.app.runtimeEventSeq + 1) h.calls
  pushed : ∀ call ∈ h.calls, call.pushed = true ↔ call.envelope.seq ≤ p
  returning : ∀ call ∈ h.calls, call.pushed = true → (g, call.envelope) ∈ h.published
  stored : Stored g h.published a lo h.db
  bounded : Bounded runtimeEventPersistedJournalCapacity runtimeEventPersistedJournalMaxCapacity
    a lo
  oldest : h.app.runtimeEventPersistedOldestSeq = if a = 0 then 0 else lo

theorem Fed.watching (generation : String) (published : List (String × RuntimeEventEnvelope Value))
    {cursor : ℕ} (hcursor : 1 ≤ cursor) : Fed generation published (Poller.watching cursor) := by
  refine ⟨.inr ⟨hcursor, le_rfl, .nil le_rfl, by simp [Poller.watching]⟩, ?_, ?_, ?_⟩ <;>
    simp [Poller.watching]

theorem Flow.of_coherent {s : Session Value} {lo : ℕ} (hs : Coherent lo s) :
    Flow s.app.runtimeEventGeneration lo s.app.runtimeEventSeq s.app.runtimeEventSeq (Hub.of s) := by
  have hpublished : ∀ event ∈ s.recorded,
      (s.app.runtimeEventGeneration, event) ∈ (Hub.of s).published :=
    fun event hevent => List.mem_map.mpr ⟨event, hevent, rfl⟩
  have hwarm : Warm s.app.runtimeEventGeneration s.app.runtimeEventSeq (Hub.of s) := by
    refine ⟨rfl, le_rfl, .nil, by simp [Hub.of], ?_, by simp [Hub.of], hs.feed,
      fun event hevent => hpublished event (hs.hot event hevent), ?_, Fed.watching _ _ le_rfl⟩
    · intro k hafter hle
      exact absurd hle (Nat.not_le.mpr hafter)
    · exact hs.recorded.map fun _ _ => rfl
  refine ⟨hwarm, le_rfl, .nil le_rfl, by simp [Hub.of], by simp [Hub.of],
    ⟨hs.tidy.shape, hs.tidy.generation, ?_⟩, hs.bounded, hs.marked⟩
  intro row hrow hg
  rw [hg]
  exact hpublished _ (hs.tidy.journaled row hrow hg)

section Steps

variable {g : String} {lo a p : ℕ}

theorem Fed.grow {published : List (String × RuntimeEventEnvelope Value)} {poller : Poller Value}
    (hfed : Fed g published poller) (q : String × RuntimeEventEnvelope Value) :
    Fed g (published ++ [q]) poller := by
  obtain ⟨hdelivered, hholding, hmarked, hreading⟩ := hfed
  refine ⟨?_, hholding, hmarked, hreading⟩
  rcases hdelivered with hresynced | ⟨hstart, hcursor, hnumbers, hevents⟩
  · exact .inl hresynced
  · exact .inr ⟨hstart, hcursor, hnumbers, fun event hevent =>
      List.mem_append_left _ (hevents event hevent)⟩

theorem Warm.draw (hwarm : Warm g p h) {event : String} {payload : Value} {now : ℕ}
    (hstep : workStep h (.draw event payload now) = some h') : Warm g p h' := by
  obtain rfl := Option.some.inj hstep
  obtain ⟨hcurrent, hpushing, hordered, hdrawn, hwaiting, hbeyond, hfeed, hhot, hpublished,
    hpoller⟩ := hwarm
  refine ⟨hcurrent, hpushing.trans (Nat.le_succ _), ?_, ?_, ?_, ?_, hfeed, hhot, hpublished,
    hpoller⟩
  · refine List.pairwise_append.mpr ⟨hordered, List.pairwise_singleton _ _, ?_⟩
    intro old hold new hnew
    obtain rfl := List.mem_singleton.mp hnew
    exact Nat.lt_succ_of_le (hdrawn old hold)
  · intro call hcall
    rcases List.mem_append.mp hcall with hold | hnew
    · exact (hdrawn call hold).trans (Nat.le_succ _)
    · obtain rfl := List.mem_singleton.mp hnew
      exact le_rfl
  · intro k hafter hle
    have hle : k ≤ h.app.runtimeEventSeq + 1 := hle
    rcases Nat.le_succ_iff.mp hle with hle | rfl
    · obtain ⟨call, hcall, hunpushed, hseq⟩ := hwaiting k hafter hle
      exact ⟨call, List.mem_append_left _ hcall, hunpushed, hseq⟩
    · exact ⟨_, List.mem_append_right _ (List.mem_singleton.mpr rfl), rfl, rfl⟩
  · intro call hcall hunpushed
    rcases List.mem_append.mp hcall with hold | hnew
    · exact hbeyond call hold hunpushed
    · obtain rfl := List.mem_singleton.mp hnew
      exact Nat.lt_succ_of_le hpushing

theorem Flow.draw (hflow : Flow g lo a p h) {event : String} {payload : Value} {now : ℕ}
    (hstep : workStep h (.draw event payload now) = some h') : Flow g lo a p h' := by
  have hwarm := hflow.warm.draw hstep
  obtain rfl := Option.some.inj hstep
  obtain ⟨⟨-, hpushing, -⟩, hbehind, hcalls, hpushed, hreturning, hstored, hbounded, holdest⟩ :=
    hflow
  refine ⟨hwarm, hbehind, hcalls.push (by omega) rfl, ?_, ?_, hstored, hbounded, holdest⟩
  · intro call hcall
    rcases List.mem_append.mp hcall with hold | hnew
    · exact hpushed call hold
    · obtain rfl := List.mem_singleton.mp hnew
      have hbeyond : p < h.app.runtimeEventSeq + 1 := by omega
      simpa [EventState.draw] using hbeyond
  · intro call hcall hin
    rcases List.mem_append.mp hcall with hold | hnew
    · exact hreturning call hold hin
    · obtain rfl := List.mem_singleton.mp hnew
      simp at hin

theorem Warm.next (hwarm : Warm g p h) {i : ℕ} {call : RecordCall Value}
    (horder : InOrder h (.push i)) (hcall : h.calls[i]? = some call)
    (hunpushed : call.pushed = false) : call.envelope.seq = p + 1 := by
  have hmem : call ∈ h.calls := List.mem_of_getElem? hcall
  have hafter := hwarm.beyond call hmem hunpushed
  have hdrawn := hwarm.drawn call hmem
  obtain ⟨other, hother, hwaiting, hseq⟩ := hwarm.waiting (p + 1) (by omega) (by omega)
  have hle := horder call hcall other hother hwaiting
  omega

/-- After a push a call stands at the place of the push or is an old one elsewhere. -/
theorem Warm.places (hwarm : Warm g p h) {i : ℕ} {call : RecordCall Value}
    (hcall : h.calls[i]? = some call) (other : RecordCall Value)
    (hother : other ∈ h.calls.set i { call with pushed := true }) :
    other = { call with pushed := true } ∨
      other ∈ h.calls ∧ other.envelope.seq ≠ call.envelope.seq := by
  obtain ⟨j, hj⟩ := List.getElem?_of_mem hother
  by_cases hij : i = j
  · subst hij
    rw [List.getElem?_set_self (List.getElem?_eq_some_iff.mp hcall).1] at hj
    exact .inl (Option.some.inj hj).symm
  · rw [List.getElem?_set_ne hij] at hj
    refine .inr ⟨List.mem_of_getElem? hj, ?_⟩
    obtain ⟨hi, rfl⟩ := List.getElem?_eq_some_iff.mp hcall
    obtain ⟨hj', rfl⟩ := List.getElem?_eq_some_iff.mp hj
    have hordered := List.pairwise_iff_getElem.mp hwarm.ordered
    rcases Nat.lt_or_gt_of_ne hij with hlt | hlt
    · exact (hordered i j hi hj' hlt).ne'
    · exact (hordered j i hj' hi hlt).ne

theorem Warm.push (hwarm : Warm g p h) {i : ℕ} (horder : InOrder h (.push i))
    (hstep : workStep h (.push i) = some h') : Warm g (p + 1) h' := by
  simp only [workStep] at hstep
  split at hstep
  · rename_i call hcall
    split_ifs at hstep with hready
    obtain rfl := Option.some.inj hstep
    have hmem : call ∈ h.calls := List.mem_of_getElem? hcall
    have hnext := hwarm.next horder hcall hready.1
    have hplaces := hwarm.places hcall
    obtain ⟨hcurrent, hpushing, hordered, hdrawn, hwaiting, hbeyond, hfeed, hhot, hpublished,
      hpoller⟩ := hwarm
    have hbound := hdrawn call hmem
    refine ⟨hcurrent, hnext ▸ hbound, ?_, ?_, ?_, ?_, push_feed hfeed hnext, ?_,
      hpublished.push (by omega) hnext, hpoller.grow _⟩
    · have hnumbers : (h.calls.set i { call with pushed := true }).Pairwise
          (fun a b => a.envelope.seq < b.envelope.seq) := by
        rw [← List.pairwise_map (f := fun call : RecordCall Value => call.envelope.seq)
          (R := fun a b => a < b), seqs_set_pushed hcall, List.pairwise_map]
        exact hordered
      exact hnumbers
    · intro other hother
      rcases hplaces other hother with rfl | ⟨hold, -⟩
      · exact hbound
      · exact hdrawn other hold
    · intro k hafter hle
      obtain ⟨other, hother, hunpushed, hseq⟩ := hwaiting k (by omega) hle
      obtain ⟨j, hj⟩ := List.getElem?_of_mem hother
      have hij : i ≠ j := by
        rintro rfl
        cases hcall.symm.trans hj
        omega
      exact ⟨other, List.mem_of_getElem? ((List.getElem?_set_ne hij).trans hj), hunpushed, hseq⟩
    · intro other hother hunpushed
      rcases hplaces other hother with rfl | ⟨hold, hne⟩
      · cases hunpushed
      · have hold := hbeyond other hold hunpushed
        omega
    · intro event hevent
      rcases EventState.mem_push hevent with hold | rfl
      · exact List.mem_append_left _ (hhot event hold)
      · exact List.mem_append_right _ (by simp [hcurrent])
  · cases hstep

theorem Flow.push (hflow : Flow g lo a p h) {i : ℕ} (horder : InOrder h (.push i))
    (hstep : workStep h (.push i) = some h') : Flow g lo a (p + 1) h' := by
  have hwarm := hflow.warm.push horder hstep
  simp only [workStep] at hstep
  split at hstep
  · rename_i call hcall
    split_ifs at hstep with hready
    obtain rfl := Option.some.inj hstep
    have hnext := hflow.warm.next horder hcall hready.1
    have hplaces := hflow.warm.places hcall
    obtain ⟨⟨hcurrent, -⟩, hbehind, hcalls, hpushed, hreturning, hstored, hbounded, holdest⟩ :=
      hflow
    refine ⟨hwarm, by omega, (seqs_set_pushed hcall).trans hcalls, ?_, ?_,
      ⟨hstored.shape, hstored.generation, ?_⟩, hbounded, holdest⟩
    · intro other hother
      rcases hplaces other hother with rfl | ⟨hold, hne⟩
      · simp [hnext]
      · rw [hpushed other hold]
        omega
    · intro other hother hin
      rcases hplaces other hother with rfl | ⟨hold, -⟩
      · exact List.mem_append_right _ (by simp [hcurrent])
      · exact List.mem_append_left _ (hreturning other hold hin)
    · intro row hrow hg
      exact List.mem_append_left _ (hstored.journaled row hrow hg)
  · cases hstep

theorem Stored.checkpoints {published : List (String × RuntimeEventEnvelope Value)}
    (db : EventDb Value)
    (checkpoints : Table RuntimeEventCheckpoint RuntimeEventCheckpoint.consumerId)
    (hdb : Stored g published a lo db) :
    Stored g published a lo { ensureRuntimeEventTables db with checkpoints := checkpoints } :=
  ⟨hdb.shape.checkpoints _, hdb.generation, hdb.journaled.ensure⟩

/-- An append in order: the tables grow by the next number, and the mark is what they start
at. -/
theorem Stored.persist {published : List (String × RuntimeEventEnvelope Value)}
    {app : EventState Value} {db : EventDb Value} {envelope : RuntimeEventEnvelope Value} (now : ℕ)
    (hdb : Stored g published a lo db)
    (hbounded : Bounded runtimeEventPersistedJournalCapacity
      runtimeEventPersistedJournalMaxCapacity a lo)
    (hcurrent : app.runtimeEventGeneration = g) (hseq : envelope.seq = a + 1)
    (hevent : (g, envelope) ∈ published) :
    ∃ next, Stored g published (a + 1) next (app.persist envelope now db).2 ∧
      Bounded runtimeEventPersistedJournalCapacity runtimeEventPersistedJournalMaxCapacity
        (a + 1) next ∧
      (app.persist envelope now db).1 = { app with runtimeEventPersistedOldestSeq := next } := by
  subst hcurrent
  obtain ⟨hkeep, hcap, hmax⟩ := EventState.retention_keeps now
  have hpruned : Stored app.runtimeEventGeneration published a lo
      (EventState.pruneCheckpoints now db) := Stored.checkpoints db _ hdb
  have hnext := Bounded.next (EventState.pruneCheckpoints now db) app.runtimeEventGeneration
    (EventState.retention now) hbounded hkeep hcap
  have hkeeps : nextOldest app.runtimeEventGeneration (EventState.retention now) (a + 1) lo
      (EventState.pruneCheckpoints now db) ≤ max (a + 1 - 9999) 1 := hnext.keeps
  rw [← hseq] at hnext hkeeps
  have hshape := hpruned.shape.append envelope (EventState.retention now) hseq hmax (by omega)
  rw [← hseq] at hshape ⊢
  have happended : Stored app.runtimeEventGeneration published envelope.seq
      (nextOldest app.runtimeEventGeneration (EventState.retention now) envelope.seq lo
        (EventState.pruneCheckpoints now db))
      (appendRuntimeEvent app.runtimeEventGeneration envelope (EventState.retention now)
        (EventState.pruneCheckpoints now db)).1 :=
    ⟨hshape, append_meta.1, hpruned.journaled.append fun _ => hevent⟩
  have hpersist := app.persist_eq (hshape.oldestSeq (by omega))
  refine ⟨_, ?_, hnext, by rw [hpersist]⟩
  rw [hpersist]
  dsimp only
  split_ifs
  · exact EventState.keeps_refreshCheckpoints Stored.checkpoints happended none
  · exact happended

theorem persistCall_app (h : Hub Value) (envelope : RuntimeEventEnvelope Value) (now : ℕ)
    (outcome : AppendOutcome) :
    ∃ mark, (persistCall h envelope now outcome).1 =
      { h.app with runtimeEventPersistedOldestSeq := mark } := by
  cases outcome with
  | ok => exact ⟨_, rfl⟩
  | failed pruned done => exact ⟨h.app.runtimeEventPersistedOldestSeq, rfl⟩

theorem Warm.persist (hwarm : Warm g p h) {i now : ℕ} {outcome : AppendOutcome}
    (hstep : workStep h (.persist i now outcome) = some h') : Warm g p h' := by
  simp only [workStep] at hstep
  split at hstep
  · rename_i call hcall
    split_ifs at hstep with hready
    obtain rfl := Option.some.inj hstep
    obtain ⟨mark, happ⟩ := persistCall_app h call.envelope now outcome
    have hkept : ∀ other ∈ h.calls.eraseIdx i, other ∈ h.calls :=
      fun other hother => List.mem_of_mem_eraseIdx hother
    simp only [happ]
    refine ⟨hwarm.current, hwarm.pushing, hwarm.ordered.sublist (List.eraseIdx_sublist ..),
      fun other hother => hwarm.drawn other (hkept other hother), ?_,
      fun other hother => hwarm.beyond other (hkept other hother), hwarm.feed, hwarm.hot,
      hwarm.published, hwarm.poller⟩
    intro k hafter hle
    obtain ⟨other, hother, hunpushed, hseq⟩ := hwarm.waiting k hafter hle
    obtain ⟨j, hj⟩ := List.getElem?_of_mem hother
    have hij : j ≠ i := by
      rintro rfl
      cases hcall.symm.trans hj
      rw [hunpushed] at hready
      cases hready
    exact ⟨other, List.mem_eraseIdx_iff_getElem?.mpr ⟨j, hij, hj⟩, hunpushed, hseq⟩
  · cases hstep

theorem Flow.persist (hflow : Flow g lo a p h) {i now : ℕ} {outcome : AppendOutcome}
    (horder : InOrder h (.persist i now outcome))
    (hstep : workStep h (.persist i now outcome) = some h') :
    ∃ next, Flow g next (a + 1) p h' := by
  have hwarm := hflow.warm.persist hstep
  obtain ⟨hpre, hbehind, hcalls, hpushed, hreturning, hstored, hbounded, holdest⟩ := hflow
  obtain ⟨rfl, hfirst⟩ := horder
  simp only [workStep] at hstep
  split at hstep
  · rename_i call hcall
    split_ifs at hstep with hready
    obtain rfl := Option.some.inj hstep
    have hmem : call ∈ h.calls := List.mem_of_getElem? hcall
    have hbounds := hcalls.bounds hmem
    have hin := (hpushed call hmem).mp hready
    -- The guard: the call holds the first number that is not in the journal.
    have hseq : call.envelope.seq = a + 1 := by
      obtain ⟨other, hother, hother'⟩ := hcalls.holds (k := a + 1) le_rfl (by omega)
      have hle := hfirst call hcall other hother
      omega
    have hplace : i = 0 := by
      have hplace := hcalls.getElem? hcall
      omega
    subst hplace
    obtain ⟨next, hstored', hbounded', happ⟩ :=
      hstored.persist now hbounded hpre.current hseq (hreturning call hmem hready)
    have hkept : ∀ other ∈ h.calls.eraseIdx 0, other ∈ h.calls :=
      fun other hother => List.mem_of_mem_eraseIdx hother
    refine ⟨next, hwarm, by omega, ?_, fun other hother => hpushed other (hkept other hother),
      fun other hother => hreturning other (hkept other hother), hstored', hbounded', ?_⟩
    · show Consecutive _ (a + 1 + 1)
        ((h.app.persist call.envelope now h.db).1.runtimeEventSeq + 1) (h.calls.eraseIdx 0)
      rw [happ, List.eraseIdx_zero, ← List.drop_one]
      exact hcalls.drop 1
    · show (h.app.persist call.envelope now h.db).1.runtimeEventPersistedOldestSeq = _
      rw [happ, if_neg (Nat.succ_ne_zero a)]
  · cases hstep

end Steps

section Polling

variable {g : String} {lo a p : ℕ}

/-- An answer that goes on from the cursor, and that is not empty where the cursor is behind
`m`. -/
def GoesOn (g : String) (published : List (String × RuntimeEventEnvelope Value)) (cursor m : ℕ)
    (events : List (RuntimeEventEnvelope Value)) : Prop :=
  ∃ e, cursor ≤ e ∧ (cursor < m → cursor < e) ∧
    Consecutive RuntimeEventEnvelope.seq (cursor + 1) (e + 1) events ∧
    ∀ event ∈ events, (g, event) ∈ published

theorem Fed.receive {published : List (String × RuntimeEventEnvelope Value)}
    {poller : Poller Value} {snapshot : RuntimeEventFeedSnapshot Value} {m : ℕ}
    (hfed : Fed g published poller)
    (hsnapshot : snapshot.resyncRequired = false → poller.resynced = false →
      GoesOn g published poller.cursor m snapshot.events) :
    Fed g published (poller.receive snapshot) := by
  unfold Poller.receive
  split_ifs with hresync
  · exact ⟨.inl rfl, by simp, by simp, by simp⟩
  · refine ⟨?_, by simp, by simp, by simp⟩
    rcases hfed.delivered with hresynced | ⟨hstart, hcursor, hnumbers, hevents⟩
    · exact .inl hresynced
    · by_cases hresynced : poller.resynced = true
      · exact .inl hresynced
      obtain ⟨e, hle, -, hnext, hpublished⟩ :=
        hsnapshot (by simpa using hresync) (by simpa using hresynced)
      have hmax := hnext.foldl_max hle
      refine .inr ⟨hstart, ?_, ?_, ?_⟩
      · show poller.start ≤ _
        rw [hmax]
        exact hcursor.trans hle
      · show Consecutive _ _ (List.foldl _ _ _ + 1) (poller.delivered ++ snapshot.events)
        rw [hmax]
        exact hnumbers.append hnext (by omega) (by omega)
      · intro event hevent
        rcases List.mem_append.mp hevent with hold | hnew
        · exact hevents event hold
        · exact hpublished event hnew

theorem receive_progress (g : String) (published : List (String × RuntimeEventEnvelope Value))
    {poller : Poller Value} {snapshot : RuntimeEventFeedSnapshot Value} {m : ℕ}
    (hsnapshot : snapshot.resyncRequired = false → poller.resynced = false →
      GoesOn g published poller.cursor m snapshot.events) :
    (poller.receive snapshot).resynced = true ∨
      (poller.cursor ≤ (poller.receive snapshot).cursor ∧
        (poller.cursor < m → poller.cursor < (poller.receive snapshot).cursor)) := by
  unfold Poller.receive
  split_ifs with hresync
  · exact .inl rfl
  · by_cases hresynced : poller.resynced = true
    · exact .inl hresynced
    · obtain ⟨e, hle, hmore, hnext, -⟩ :=
        hsnapshot (by simpa using hresync) (by simpa using hresynced)
      refine .inr ?_
      show poller.cursor ≤ List.foldl _ _ _ ∧ (_ → poller.cursor < List.foldl _ _ _)
      rw [hnext.foldl_max hle]
      exact ⟨hle, hmore⟩

theorem goesOn_of_consecutive {published : List (String × RuntimeEventEnvelope Value)}
    {cursor limit m : ℕ} {events : List (RuntimeEventEnvelope Value)}
    (hevents : Consecutive RuntimeEventEnvelope.seq (cursor + 1)
      (min (cursor + 1 + limit) (m + 1)) events) (hlimit : 1 ≤ limit)
    (hpublished : ∀ event ∈ events, (g, event) ∈ published) :
    GoesOn g published cursor m events := by
  by_cases hbehind : cursor ≤ m
  · refine ⟨min (cursor + limit) m, by omega, by omega, ?_, hpublished⟩
    rwa [show min (cursor + limit) m + 1 = min (cursor + 1 + limit) (m + 1) by omega]
  · refine ⟨cursor, le_rfl, by omega, ?_, hpublished⟩
    have hnone : events = [] := by
      refine List.eq_nil_of_length_eq_zero ?_
      have hlength := hevents.length
      omega
    rw [hnone]
    exact .nil le_rfl

/-- A request that is not sent to the journal and not refused finds the successor of its cursor
in the feed, if it is anywhere. -/
theorem hot_of_serve {request : FeedRequest} (hwarm : Warm g p h)
    (hmemory : request.memoryOldest = h.app.memoryOldestSeq) (hafter : 1 ≤ request.afterSeq)
    (hreason : request.marksReason = none) (hneeds : request.needsPersistedCatchUp = false) :
    p + 1 - min p 1024 ≤ request.afterSeq + 1 := by
  by_cases hempty : p = 0
  · omega
  · have hhead : h.app.memoryOldestSeq = some (p + 1 - min p 1024) :=
      hwarm.feed.head? (by omega)
    by_contra hcold
    have htrue : request.needsPersistedCatchUp = true := by
      refine decide_eq_true ⟨by omega, hreason, ?_⟩
      rw [hmemory, hhead]
      simp only [Option.map_some, Option.getD_some, decide_eq_true_eq]
      omega
    rw [htrue] at hneeds
    cases hneeds

theorem serve_goesOn (request : FeedRequest) {snapshot : RuntimeEventFeedSnapshot Value}
    (hwarm : Warm g p h) (hmemory : request.memoryOldest = h.app.memoryOldestSeq)
    (hafter : 1 ≤ request.afterSeq) (hlimit : 1 ≤ request.limit)
    (hserve : request.serve h.app.runtimeEventFeed = some snapshot)
    (hresync : snapshot.resyncRequired = false) :
    GoesOn g h.published request.afterSeq p snapshot.events := by
  unfold FeedRequest.serve at hserve
  split_ifs at hserve with hrefused hneeds
  · obtain rfl := Option.some.inj hserve
    obtain ⟨-, hreason, -⟩ := FeedRequest.events_of_respond hresync
    rcases hrefused with hzero | hsome
    · omega
    · rw [hreason] at hsome
      simp at hsome
  · obtain rfl := Option.some.inj hserve
    obtain ⟨hevents, -, -⟩ := FeedRequest.events_of_respond hresync
    have hreason : request.marksReason = none := by
      by_contra hsome
      exact hrefused (.inr (Option.isSome_iff_ne_none.mpr hsome))
    have hhot := hot_of_serve hwarm hmemory hafter hreason (by simpa using hneeds)
    rw [hevents]
    refine goesOn_of_consecutive (feed_after hwarm.feed hhot request.limit) hlimit
      fun event hevent => ?_
    exact hwarm.hot event (List.mem_filter.mp (List.mem_of_mem_take hevent)).1

theorem Warm.with_poller (hwarm : Warm g p h) {poller : Poller Value}
    (hfed : Fed g h.published poller) : Warm g p { h with poller := poller } :=
  ⟨hwarm.current, hwarm.pushing, hwarm.ordered, hwarm.drawn, hwarm.waiting, hwarm.beyond,
    hwarm.feed, hwarm.hot, hwarm.published, hfed⟩

theorem Warm.with_db (hwarm : Warm g p h) (db : EventDb Value) : Warm g p { h with db := db } :=
  ⟨hwarm.current, hwarm.pushing, hwarm.ordered, hwarm.drawn, hwarm.waiting, hwarm.beyond,
    hwarm.feed, hwarm.hot, hwarm.published, hwarm.poller⟩

theorem Warm.lockFeed (hwarm : Warm g p h) {limit : ℕ} (hlimit : 1 ≤ limit)
    (hstep : workStep h (.lockFeed limit) = some h') : Warm g p h' := by
  simp only [workStep] at hstep
  split_ifs at hstep with hidle
  obtain rfl := Option.some.inj hstep
  refine hwarm.with_poller ⟨hwarm.poller.delivered, ?_, by simp, by simp⟩
  rintro _ ⟨rfl⟩
  exact hlimit

theorem Warm.loadOldest (hwarm : Warm g p h)
    (hstep : workStep h .loadOldest = some h') : Warm g p h' := by
  simp only [workStep] at hstep
  split at hstep
  · rename_i limit hphase
    obtain rfl := Option.some.inj hstep
    refine hwarm.with_poller ⟨hwarm.poller.delivered, by simp, ?_, by simp⟩
    rintro _ _ ⟨rfl⟩
    exact hwarm.poller.holding limit hphase
  · cases hstep

theorem Fed.cursor_pos {published : List (String × RuntimeEventEnvelope Value)}
    {poller : Poller Value} (hfed : Fed g published poller) (hresynced : poller.resynced = false) :
    1 ≤ poller.cursor := by
  rcases hfed.delivered with hyes | ⟨hstart, hcursor, -, -⟩
  · rw [hresynced] at hyes
    cases hyes
  · omega

theorem Warm.serve (hwarm : Warm g p h) (hstep : workStep h .serve = some h') :
    Warm g p h' := by
  simp only [workStep] at hstep
  split at hstep
  · rename_i limit oldest hphase
    have hlimit := hwarm.poller.marked limit oldest hphase
    split at hstep
    · rename_i snapshot hserve
      obtain rfl := Option.some.inj hstep
      refine hwarm.with_poller (hwarm.poller.receive (m := p) fun hresync hresynced => ?_)
      exact serve_goesOn _ hwarm rfl (hwarm.poller.cursor_pos hresynced) hlimit hserve hresync
    · obtain rfl := Option.some.inj hstep
      refine hwarm.with_poller ⟨hwarm.poller.delivered, by simp, by simp, ?_⟩
      rintro _ ⟨rfl⟩
      exact ⟨hlimit, rfl⟩
  · cases hstep

theorem Warm.readJournal (hwarm : Warm g p h) {answers : Bool}
    (hspared : answers = false ∨ h.poller.resynced = true)
    (hstep : workStep h (.readJournal answers) = some h') : Warm g p h' := by
  simp only [workStep] at hstep
  split at hstep
  · obtain rfl := Option.some.inj hstep
    refine (hwarm.with_db (ensureRuntimeEventTables h.db)).with_poller
      (hwarm.poller.receive (m := p) fun hresync hresynced => ?_)
    rcases hspared with rfl | hresynced'
    · obtain ⟨-, hreason, -⟩ := FeedRequest.events_of_respond hresync
      cases hreason
    · rw [hresynced] at hresynced'
      cases hresynced'
  · cases hstep

theorem Warm.watch (hwarm : Warm g p h) {cursor : ℕ} (hcursor : 1 ≤ cursor)
    (hstep : workStep h (.watch cursor) = some h') : Warm g p h' := by
  simp only [workStep] at hstep
  split_ifs at hstep
  obtain rfl := Option.some.inj hstep
  exact hwarm.with_poller (Fed.watching _ _ hcursor)

theorem Warm.step (hwarm : Warm g p h) {work : Work Value} (hallowed : Hot h work)
    (hstep : workStep h work = some h') : ∃ p', Warm g p' h' := by
  obtain ⟨hasked, hallowed⟩ := hallowed
  cases work with
  | draw event payload now => exact ⟨p, hwarm.draw hstep⟩
  | push i => exact ⟨p + 1, hwarm.push hallowed hstep⟩
  | persist i now outcome => exact ⟨p, hwarm.persist hstep⟩
  | save consumerId generation seq now =>
    obtain rfl := Option.some.inj hstep
    exact ⟨p, hwarm.with_db _⟩
  | get consumerId now =>
    obtain rfl := Option.some.inj hstep
    exact ⟨p, hwarm.with_db _⟩
  | list now =>
    obtain rfl := Option.some.inj hstep
    exact ⟨p, hwarm.with_db _⟩
  | watch cursor => exact ⟨p, hwarm.watch hasked hstep⟩
  | lockFeed limit => exact ⟨p, hwarm.lockFeed hasked hstep⟩
  | loadOldest => exact ⟨p, hwarm.loadOldest hstep⟩
  | serve => exact ⟨p, hwarm.serve hstep⟩
  | readJournal answers => exact ⟨p, hwarm.readJournal hallowed hstep⟩

theorem Flow.with_poller (hflow : Flow g lo a p h) {poller : Poller Value}
    (hwarm : Warm g p { h with poller := poller }) : Flow g lo a p { h with poller := poller } :=
  ⟨hwarm, hflow.behind, hflow.calls, hflow.pushed, hflow.returning, hflow.stored, hflow.bounded,
    hflow.oldest⟩

theorem Flow.with_db (hflow : Flow g lo a p h) {db : EventDb Value}
    (hdb : Stored g h.published a lo db) : Flow g lo a p { h with db := db } :=
  ⟨hflow.warm.with_db db, hflow.behind, hflow.calls, hflow.pushed, hflow.returning, hdb,
    hflow.bounded, hflow.oldest⟩

theorem Flow.lockFeed (hflow : Flow g lo a p h) {limit : ℕ} (hlimit : 1 ≤ limit)
    (hstep : workStep h (.lockFeed limit) = some h') : Flow g lo a p h' := by
  have hwarm := hflow.warm.lockFeed hlimit hstep
  simp only [workStep] at hstep
  split_ifs at hstep with hidle
  obtain rfl := Option.some.inj hstep
  exact hflow.with_poller hwarm

theorem Flow.loadOldest (hflow : Flow g lo a p h)
    (hstep : workStep h .loadOldest = some h') : Flow g lo a p h' := by
  have hwarm := hflow.warm.loadOldest hstep
  simp only [workStep] at hstep
  split at hstep
  · obtain rfl := Option.some.inj hstep
    exact hflow.with_poller hwarm
  · cases hstep

theorem Flow.serve (hflow : Flow g lo a p h) (hstep : workStep h .serve = some h') :
    Flow g lo a p h' := by
  have hwarm := hflow.warm.serve hstep
  simp only [workStep] at hstep
  split at hstep
  · split at hstep <;> obtain rfl := Option.some.inj hstep <;> exact hflow.with_poller hwarm
  · cases hstep

theorem catchUp_goesOn (request : FeedRequest) {answers : Bool} (hflow : Flow g lo a p h)
    (hlimit : 1 ≤ request.limit) (hlo : lo ≤ request.afterSeq + 1)
    (hresync : (request.catchUp (if answers then some (loadRuntimeEventsAfter
      (ensureRuntimeEventTables h.db) request.afterSeq request.limit) else none)).resyncRequired =
        false) :
    GoesOn g h.published request.afterSeq a (request.catchUp (if answers then
      some (loadRuntimeEventsAfter (ensureRuntimeEventTables h.db) request.afterSeq request.limit)
      else none)).events := by
  have hready : Stored g h.published a lo (ensureRuntimeEventTables h.db) :=
    Stored.checkpoints h.db _ hflow.stored
  cases answers with
  | false =>
    obtain ⟨-, hreason, -⟩ := FeedRequest.events_of_respond hresync
    cases hreason
  | true =>
    obtain ⟨hevents, -, -⟩ := FeedRequest.events_of_respond hresync
    have hloaded := hready.shape.journal.loadAfter hready.generation hlo request.limit
    show GoesOn g h.published request.afterSeq a (request.respond _ none).events
    rw [hevents]
    refine goesOn_of_consecutive hloaded hlimit fun event hevent => ?_
    obtain ⟨row, hrow, rfl⟩ := mem_loadRuntimeEventsAfter hevent
    obtain ⟨hjournal, hg⟩ := mem_rowsOf.mp hrow
    have hg' : row.generation = g := hg.trans hready.generation
    exact hg' ▸ hready.journaled row hjournal hg'

theorem Flow.readJournal (hflow : Flow g lo a p h) {answers : Bool}
    (horder : InOrder h (.readJournal answers))
    (hstep : workStep h (.readJournal answers) = some h') : Flow g lo a p h' := by
  simp only [workStep] at hstep
  split at hstep
  · rename_i request hphase
    obtain ⟨hlimit, hafter⟩ := hflow.warm.poller.reading request hphase
    obtain rfl := Option.some.inj hstep
    have hready : Stored g h.published a lo (ensureRuntimeEventTables h.db) :=
      Stored.checkpoints h.db _ hflow.stored
    refine (hflow.with_db hready).with_poller ((hflow.warm.with_db _).with_poller
      (hflow.warm.poller.receive (m := a) fun hresync hresynced => ?_))
    have hcursor := hflow.warm.poller.cursor_pos hresynced
    -- The guard: the journal starts at the successor of the cursor or before.
    have hlo : lo ≤ h.poller.cursor + 1 := by
      by_cases hzero : a = 0
      · have hnonempty := hflow.stored.shape.nonempty
        omega
      · refine horder lo ?_
        rw [hflow.warm.current]
        exact hflow.stored.shape.oldestSeq (Nat.pos_of_ne_zero hzero)
    rw [← hafter] at hlo ⊢
    exact catchUp_goesOn request hflow hlimit hlo hresync
  · cases hstep

theorem Flow.step (hflow : Flow g lo a p h) {work : Work Value} (horderly : Orderly h work)
    (hstep : workStep h work = some h') : ∃ lo' a' p', Flow g lo' a' p' h' := by
  obtain ⟨hasked, horder⟩ := horderly
  cases work with
  | draw event payload now => exact ⟨lo, a, p, hflow.draw hstep⟩
  | push i => exact ⟨lo, a, p + 1, hflow.push horder hstep⟩
  | persist i now outcome =>
    obtain ⟨next, hnext⟩ := hflow.persist horder hstep
    exact ⟨next, a + 1, p, hnext⟩
  | save consumerId generation seq now =>
    obtain rfl := Option.some.inj hstep
    exact ⟨lo, a, p, hflow.with_db
      (EventState.keeps_saveCheckpoint Stored.checkpoints hflow.stored _ _ _ _)⟩
  | get consumerId now =>
    obtain rfl := Option.some.inj hstep
    exact ⟨lo, a, p, hflow.with_db
      (EventState.keeps_getCheckpoint Stored.checkpoints hflow.stored _ _)⟩
  | list now =>
    obtain rfl := Option.some.inj hstep
    exact ⟨lo, a, p, hflow.with_db
      (EventState.keeps_listCheckpoints Stored.checkpoints hflow.stored now)⟩
  | watch cursor =>
    have hwarm := hflow.warm.watch hasked hstep
    simp only [workStep] at hstep
    split_ifs at hstep
    obtain rfl := Option.some.inj hstep
    exact ⟨lo, a, p, hflow.with_poller hwarm⟩
  | lockFeed limit => exact ⟨lo, a, p, hflow.lockFeed hasked hstep⟩
  | loadOldest => exact ⟨lo, a, p, hflow.loadOldest hstep⟩
  | serve => exact ⟨lo, a, p, hflow.serve hstep⟩
  | readJournal answers => exact ⟨lo, a, p, hflow.readJournal horder hstep⟩

theorem Warm.noneLost [DecidableEq Value] (hwarm : Warm g p h) : NoneLost h := by
  rcases hwarm.poller.delivered with hresynced | ⟨hstart, hcursor, hnumbers, hevents⟩
  · exact .inl hresynced
  · refine .inr ⟨hnumbers.ascending, fun event hevent => ?_, fun event hevent hafter hbefore => ?_⟩
    · have hbounds := hnumbers.bounds hevent
      rw [hwarm.current]
      exact ⟨hevents event hevent, by omega, by omega⟩
    · rw [hwarm.current] at hevent
      obtain ⟨other, hother, hseq⟩ := hnumbers.holds (k := event.seq) (by omega) (by omega)
      have hsame : (g, other) = (g, event) :=
        hwarm.published.named (hevents other hother) hevent hseq
      obtain rfl := (Prod.mk.inj hsame).2
      refine List.count_eq_one_of_mem ?_ hother
      exact hnumbers.ascending.imp fun hlt hsame => by
        rw [hsame] at hlt
        exact Nat.lt_irrefl _ hlt

end Polling

/-- One call of `runtime_events_since` with nothing else in between. -/
def poll (limit : ℕ) (h : Hub Value) : Option (Hub Value) :=
  (workStep h (.lockFeed limit)).bind fun h =>
    (workStep h .loadOldest).bind fun h =>
      (workStep h .serve).bind fun h =>
        match h.poller.phase with
        | .reading _ => workStep h (.readJournal true)
        | _ => some h

def pollTimes (limit : ℕ) : ℕ → Hub Value → Option (Hub Value)
  | 0, h => some h
  | k + 1, h => (poll limit h).bind (pollTimes limit k)

section Quiet

variable {g : String} {lo n : ℕ}

theorem Poller.receive_phase (poller : Poller Value) (snapshot : RuntimeEventFeedSnapshot Value) :
    (poller.receive snapshot).phase = .idle := by
  unfold Poller.receive
  split_ifs <;> rfl

theorem Poller.receive_resynced (poller : Poller Value)
    (snapshot : RuntimeEventFeedSnapshot Value) (h : poller.resynced = true) :
    (poller.receive snapshot).resynced = true := by
  unfold Poller.receive
  split_ifs
  · rfl
  · exact h

/-- Where every event has come to the journal, a poll that is sent there is in time. -/
theorem in_time (request : FeedRequest) (hflow : Flow g lo n n h)
    (hpersisted : request.persistedOldest =
      EventState.persistedOldestSeq h.app.runtimeEventPersistedOldestSeq)
    (hserve : request.serve h.app.runtimeEventFeed = none) : lo ≤ request.afterSeq + 1 := by
  unfold FeedRequest.serve at hserve
  split_ifs at hserve with hrefused hneeds
  obtain ⟨hafter, hreason, hcold⟩ := of_decide_eq_true hneeds
  by_cases hzero : n = 0
  · have hnonempty := hflow.stored.shape.nonempty
    omega
  · obtain ⟨k, hk⟩ := hflow.stored.shape.boundary
    have hmark : request.persistedOldest = some lo := by
      rw [hpersisted, hflow.oldest, if_neg hzero]
      exact if_neg (by omega)
    have holdest : request.oldestAvailable = some lo := by
      unfold FeedRequest.oldestAvailable
      rw [if_neg (by omega), hmark]
      rfl
    unfold FeedRequest.marksReason at hreason
    rw [if_neg (by omega), holdest] at hreason
    split_ifs at hreason with hlatest
    dsimp only at hreason
    split_ifs at hreason with hlate
    omega

theorem Flow.poll (hflow : Flow g lo n n h) (hidle : h.poller.phase = .idle) {limit : ℕ}
    (hlimit : 1 ≤ limit) :
    ∃ t, poll limit h = some t ∧ Flow g lo n n t ∧ t.poller.phase = .idle ∧
      (h.poller.resynced = true → t.poller.resynced = true) ∧
      (t.poller.resynced = true ∨ (h.poller.cursor ≤ t.poller.cursor ∧
        (h.poller.cursor < n → h.poller.cursor < t.poller.cursor))) := by
  let held : Hub Value := { h with poller := { h.poller with phase := .holding limit } }
  let marked : Hub Value := { h with
    poller := { h.poller with phase := .marked limit h.app.runtimeEventPersistedOldestSeq } }
  have hlock : workStep h (.lockFeed limit) = some held := if_pos hidle
  have hload : workStep held .loadOldest = some marked := rfl
  have hmarked : Flow g lo n n marked := (hflow.lockFeed hlimit hlock).loadOldest hload
  let request : FeedRequest :=
    ⟨h.app.runtimeEventGeneration, h.poller.cursor, limit, h.app.memoryOldestSeq,
      EventState.persistedOldestSeq h.app.runtimeEventPersistedOldestSeq, h.app.runtimeEventSeq⟩
  cases hserve : request.serve h.app.runtimeEventFeed with
  | some snapshot =>
    let t : Hub Value := { h with poller := marked.poller.receive snapshot }
    have hstep : workStep marked .serve = some t := by
      simp only [marked, workStep]
      rw [hserve]
    have hphase : t.poller.phase = .idle := Poller.receive_phase _ _
    refine ⟨t, ?_, hmarked.serve hstep, hphase, Poller.receive_resynced _ _, ?_⟩
    · unfold Delivery.poll
      simp only [hlock, hload, hstep, Option.bind_some, hphase]
    · refine receive_progress g h.published fun hresync hresynced => ?_
      exact serve_goesOn request hflow.warm rfl (hmarked.warm.poller.cursor_pos hresynced) hlimit
        hserve hresync
  | none =>
    let waiting : Hub Value := { h with poller := { h.poller with phase := .reading request } }
    have hstep : workStep marked .serve = some waiting := by
      simp only [marked, workStep]
      rw [hserve]
    have hwaiting : Flow g lo n n waiting := hmarked.serve hstep
    have hlo : lo ≤ h.poller.cursor + 1 := in_time request hflow rfl hserve
    have horder : InOrder waiting (.readJournal true) := by
      intro oldest holdest
      by_cases hzero : n = 0
      · have hseqs := hflow.stored.shape.journal.seqs
        obtain ⟨k, hk⟩ := hflow.stored.shape.boundary
        have hnone : h.db.rowsOf g = [] := by
          refine List.eq_nil_of_length_eq_zero ?_
          have hlength := hseqs.length
          omega
        have hmin : h.db.oldestSeq h.app.runtimeEventGeneration = some oldest := holdest
        rw [hflow.warm.current, EventDb.oldestSeq, hnone] at hmin
        cases hmin
      · have hmin := hflow.stored.shape.oldestSeq (Nat.pos_of_ne_zero hzero)
        have hsame : h.db.oldestSeq h.app.runtimeEventGeneration = some oldest := holdest
        rw [hflow.warm.current, hmin] at hsame
        obtain rfl := Option.some.inj hsame
        exact hlo
    let t : Hub Value := { h with
      db := ensureRuntimeEventTables h.db
      poller := waiting.poller.receive (request.catchUp (if true then some
        (loadRuntimeEventsAfter (ensureRuntimeEventTables h.db) request.afterSeq request.limit)
        else none)) }
    have hread : workStep waiting (.readJournal true) = some t := rfl
    refine ⟨t, ?_, hwaiting.readJournal horder hread, Poller.receive_phase _ _,
      Poller.receive_resynced _ _, ?_⟩
    · unfold Delivery.poll
      simp only [hlock, hload, hstep, Option.bind_some]
      exact hread
    · refine receive_progress g h.published fun hresync hresynced => ?_
      exact catchUp_goesOn request hflow hlimit hlo hresync

theorem Flow.pollTimes [DecidableEq Value] {limit : ℕ} (hlimit : 1 ≤ limit) (k : ℕ)
    (hflow : Flow g lo n n h) (hidle : h.poller.phase = .idle)
    (hnear : h.poller.resynced = true ∨ n ≤ h.poller.cursor + k) :
    ∃ t, pollTimes limit k h = some t ∧ NoneLost t ∧
      (t.poller.resynced = true ∨ n ≤ t.poller.cursor) := by
  induction k generalizing h with
  | zero => exact ⟨h, rfl, hflow.warm.noneLost, hnear⟩
  | succ k ih =>
    obtain ⟨t, hpoll, hflow', hidle', hstays, hprogress⟩ := hflow.poll hidle hlimit
    have hnear' : t.poller.resynced = true ∨ n ≤ t.poller.cursor + k := by
      rcases hnear with hresynced | hnear
      · exact .inl (hstays hresynced)
      · rcases hprogress with hresynced | ⟨hle, hmore⟩
        · exact .inl hresynced
        · exact .inr (by omega)
    obtain ⟨u, htimes, hu⟩ := ih hflow' hidle' hnear'
    refine ⟨u, ?_, hu⟩
    show (Delivery.poll limit h).bind (Delivery.pollTimes limit k) = some u
    rw [hpoll]
    exact htimes

end Quiet

/-- In every orderly run, and on from it as long as the poller is given nothing from the journal,
the poller has been given, once and in order, every event after its start up to its cursor, or it
was told to resync; and once the record calls of the orderly run have returned, as many polls as
the cursor is behind bring it to the latest event or to a resync. -/
theorem no_event_lost [DecidableEq Value] {first : String} {s : Session Value}
    (hs : Reaches sessionStep anyStep (Session.start first) s)
    (hrun : Reaches workStep Orderly (Hub.of s) h) (honward : Reaches workStep Hot h h') :
    NoneLost h' ∧
      (h.calls = [] → h.poller.phase = .idle → ∀ limit, 1 ≤ limit →
        ∃ t, pollTimes limit (h.app.runtimeEventSeq - h.poller.cursor) h = some t ∧ NoneLost t ∧
          (t.poller.resynced = true ∨ h.app.runtimeEventSeq ≤ t.poller.cursor)) := by
  obtain ⟨lo, hcoherent⟩ : ∃ lo, Coherent lo s :=
    hs.keeps (I := fun u => ∃ lo, Coherent lo u) ⟨1, coherent_start first⟩
      fun ⟨_, h⟩ _ hstep => h.step hstep
  obtain ⟨lo', a, p, hflow⟩ : ∃ lo' a p, Flow s.app.runtimeEventGeneration lo' a p h :=
    hrun.keeps (I := fun u => ∃ lo' a p, Flow s.app.runtimeEventGeneration lo' a p u)
      ⟨lo, _, _, Flow.of_coherent hcoherent⟩
      fun ⟨_, _, _, h⟩ horderly hstep => h.step horderly hstep
  obtain ⟨p', hwarm⟩ : ∃ p, Warm s.app.runtimeEventGeneration p h' :=
    honward.keeps (I := fun u => ∃ p, Warm s.app.runtimeEventGeneration p u) ⟨p, hflow.warm⟩
      fun ⟨_, h⟩ hallowed hstep => h.step hallowed hstep
  refine ⟨hwarm.noneLost, fun hcalls hidle limit hlimit => ?_⟩
  have hlength := hflow.calls.length
  rw [hcalls, List.length_nil] at hlength
  have hle := hflow.behind
  have hle' := hflow.warm.pushing
  obtain rfl : a = h.app.runtimeEventSeq := by omega
  obtain rfl : p = h.app.runtimeEventSeq := by omega
  exact hflow.pollTimes hlimit _ hidle (.inr (by omega))

/-- One event before the poller starts, a second one while it polls. -/
def sampleSession : Session Unit :=
  (play sessionStep anyStep (Session.start "g1") [.record "device_updated" () 5 5]).getD
    (Session.start "g1")

def orderlyWork : List (Work Unit) :=
  [.draw "device_lost" () 6, .push 0, .lockFeed 10, .loadOldest, .serve, .persist 0 6 .ok]

def sampleHub : Hub Unit :=
  (play workStep Orderly (Hub.of sampleSession) orderlyWork).getD (Hub.of sampleSession)

/-- A third event, which the journal does not take, and a fourth one, which it takes. -/
def failingWork : List (Work Unit) :=
  [.draw "device_updated" () 7, .push 0, .draw "device_lost" () 8, .persist 0 7 (.failed true 1),
    .push 0, .persist 0 8 .ok, .lockFeed 10, .loadOldest, .serve]

def failingHub : Hub Unit := (play workStep Hot sampleHub failingWork).getD sampleHub

theorem events_delivered :
    failingHub.poller.delivered = [⟨2, "device_lost", (), 6⟩, ⟨3, "device_updated", (), 7⟩,
      ⟨4, "device_lost", (), 8⟩] ∧ NoneLost failingHub := by
  have hs : Reaches sessionStep anyStep (Session.start "g1") sampleSession :=
    reaches_of_play (by rfl : play _ _ _ [.record "device_updated" () 5 5] = some sampleSession)
  have hrun : Reaches workStep Orderly (Hub.of sampleSession) sampleHub :=
    reaches_of_play (by decide +kernel : play _ _ _ orderlyWork = some sampleHub)
  have honward : Reaches workStep Hot sampleHub failingHub :=
    reaches_of_play (by decide +kernel : play _ _ _ failingWork = some failingHub)
  exact ⟨by decide +kernel, (no_event_lost hs hrun honward).1⟩

/-- Two calls draw 2 and 3; the second of them pushes first, and the poller asks in between and
once more at the end. -/
def overtakingWork : List (Work Unit) :=
  [.draw "device_updated" () 6, .draw "device_lost" () 7, .push 1, .lockFeed 10, .loadOldest,
    .serve, .push 0, .persist 0 8 .ok, .persist 0 8 .ok, .lockFeed 10, .loadOldest, .serve]

def overtakenHub : Hub Unit :=
  (play workStep (fun _ work => Asked work) (Hub.of sampleSession) overtakingWork).getD
    (Hub.of sampleSession)

theorem overtaken_event_lost :
    Reaches workStep (fun _ work => Asked work) (Hub.of sampleSession) overtakenHub ∧
      overtakenHub.calls = [] ∧ overtakenHub.poller.resynced = false ∧
      overtakenHub.poller.cursor = overtakenHub.app.runtimeEventSeq ∧ ¬ NoneLost overtakenHub := by
  have hcount : overtakenHub.poller.delivered.count ⟨2, "device_updated", (), 6⟩ = 0 := by
    decide +kernel
  have hresynced : overtakenHub.poller.resynced = false := by decide +kernel
  refine ⟨reaches_of_play (by decide +kernel : play _ _ _ overtakingWork = some overtakenHub),
    by decide +kernel, hresynced, by decide +kernel, ?_⟩
  rintro (hresynced' | ⟨-, -, hall⟩)
  · rw [hresynced] at hresynced'
    cases hresynced'
  · have hone := hall ⟨2, "device_updated", (), 6⟩ (by decide +kernel) (by decide +kernel)
      (by decide +kernel)
    omega

end DashDrop.Events.Delivery
