/- GID: DashDrop/Events/Replay
   source: src-tauri/src/state.rs, src-tauri/src/db.rs
   anchors: []
   digest: What a consumer with a live checkpoint is replayed, over sequential runs. -/

import DashDrop.Events.Compaction
import DashDrop.Events.Feed

set_option autoImplicit false
set_option relaxedAutoImplicit false

namespace DashDrop.Events.Replay

open DashDrop.Foundation.Tables DashDrop.Foundation.Numbering DashDrop.Foundation.Transitions
open DashDrop.Events.Journal DashDrop.Events.Compaction DashDrop.Events.Feed

variable {Value : Type}

/-- A process, its database and, for the statements, every event recorded so far. -/
structure Session (Value : Type) where
  app : EventState Value
  db : EventDb Value
  recorded : List (RuntimeEventEnvelope Value)

inductive SessionCall (Value : Type) where
  | record (event : String) (payload : Value) (emittedAt now : ℕ)
  | save (consumerId generation : String) (seq now : ℕ)
  | get (consumerId : String) (now : ℕ)
  | list (now : ℕ)
  | restart

/-- The calls one after the other, each of them without a failure. -/
def sessionStep (s : Session Value) : SessionCall Value → Option (Session Value)
  | .record event payload emittedAt now =>
      let (app, db) := s.app.record event payload emittedAt now s.db
      some ⟨app, db, s.recorded ++ [(s.app.draw event payload emittedAt).2]⟩
  | .save consumerId generation seq now =>
      some { s with db := (s.app.saveCheckpoint consumerId generation seq now s.db).2 }
  | .get consumerId now => some { s with db := (s.app.getCheckpoint consumerId now s.db).2 }
  | .list now => some { s with db := s.app.listCheckpoints now s.db }
  | .restart =>
      let db := ensureRuntimeEventTables s.db
      some ⟨.load db, db, s.recorded⟩

def Session.start (generation : String) : Session Value :=
  ⟨.load (.fresh generation), .fresh generation, []⟩

/-- The tables of a process whose journal starts at `lo`: no checkpoint that the journal still
serves is marked for a resync. -/
structure Tidy (app : EventState Value) (recorded : List (RuntimeEventEnvelope Value)) (lo : ℕ)
    (db : EventDb Value) : Prop where
  shape : Shape app.runtimeEventGeneration app.runtimeEventSeq lo db
  generation : db.metaRow.generation = app.runtimeEventGeneration
  lastSeq : db.metaRow.lastSeq = app.runtimeEventSeq
  journaled : Journaled (fun g event => g = app.runtimeEventGeneration → event ∈ recorded) db
  hints : ∀ row ∈ db.checkpoints.rows, row.generation = app.runtimeEventGeneration →
    row.recoveryHint = some .resyncRequired → row.seq + 1 < lo

def Marked (lo : ℕ) (app : EventState Value) : Prop :=
  app.runtimeEventPersistedOldestSeq = if app.runtimeEventSeq = 0 then 0 else lo

structure Coherent (lo : ℕ) (s : Session Value) : Prop where
  tidy : Tidy s.app s.recorded lo s.db
  marked : Marked lo s.app
  bounded : Bounded runtimeEventPersistedJournalCapacity runtimeEventPersistedJournalMaxCapacity
    s.app.runtimeEventSeq lo
  feed : Consecutive RuntimeEventEnvelope.seq
    (s.app.runtimeEventSeq + 1 - min s.app.runtimeEventSeq 1024) (s.app.runtimeEventSeq + 1)
    s.app.runtimeEventFeed
  recorded : Consecutive RuntimeEventEnvelope.seq 1 (s.app.runtimeEventSeq + 1) s.recorded
  hot : ∀ event ∈ s.app.runtimeEventFeed, event ∈ s.recorded

theorem coherent_start (generation : String) :
    Coherent 1 (Session.start generation : Session Value) := by
  have huntouched : Untouched generation (EventDb.fresh generation : EventDb Value) := by
    constructor <;> simp [EventDb.fresh]
  refine ⟨⟨huntouched.shape, rfl, rfl, ?_, ?_⟩, rfl, ⟨le_max_right _ _, ?_⟩, .nil le_rfl,
    .nil le_rfl, ?_⟩
  · intro row hrow
    simp [Session.start, EventDb.fresh] at hrow
  · intro row hrow
    simp [Session.start, EventDb.fresh] at hrow
  · show 0 + 1 ≤ _
    omega
  · intro event hevent
    simp [Session.start, EventState.load, loadRuntimeEventState, EventDb.rowsOf, EventDb.fresh,
      Table.select] at hevent

section Checkpoints

variable {app : EventState Value} {recorded : List (RuntimeEventEnvelope Value)} {lo : ℕ}
  {db : EventDb Value}

theorem enrichCheckpoint_hint (hmarked : Marked lo app) (base : EventDb Value)
    (readAt : Option ℕ) (checkpoint : RuntimeEventCheckpoint)
    (hgeneration : checkpoint.generation = app.runtimeEventGeneration)
    (hhint : (app.enrichCheckpoint base readAt checkpoint).recoveryHint = some .resyncRequired) :
    checkpoint.seq + 1 < lo := by
  have hhint' : app.recoveryHint checkpoint.generation checkpoint.seq app.runtimeEventSeq
      app.memoryOldestSeq (EventState.persistedOldestSeq app.runtimeEventPersistedOldestSeq) =
        .resyncRequired := Option.some.inj hhint
  unfold EventState.recoveryHint at hhint'
  rw [if_neg (not_not.mpr hgeneration)] at hhint'
  split_ifs at hhint' with hcurrent hhot hpersisted
  have hpositive : app.runtimeEventSeq ≠ 0 := fun hzero => hcurrent (.inl hzero)
  unfold Marked at hmarked
  rw [if_neg hpositive] at hmarked
  rw [hmarked, EventState.persistedOldestSeq] at hpersisted
  split_ifs at hpersisted with hzero
  · simp at hpersisted
  · simp only [Option.map_some, Option.getD_some, decide_eq_true_eq] at hpersisted
    omega

theorem Tidy.with_checkpoints (h : Tidy app recorded lo db)
    {checkpoints : Table RuntimeEventCheckpoint RuntimeEventCheckpoint.consumerId}
    (hhints : ∀ row ∈ checkpoints.rows, row.generation = app.runtimeEventGeneration →
      row.recoveryHint = some .resyncRequired → row.seq + 1 < lo) :
    Tidy app recorded lo { ensureRuntimeEventTables db with checkpoints := checkpoints } :=
  ⟨h.shape.checkpoints _, h.generation, h.lastSeq, h.journaled.ensure, hhints⟩

theorem Tidy.ensure (h : Tidy app recorded lo db) :
    Tidy app recorded lo (ensureRuntimeEventTables db) :=
  h.with_checkpoints h.hints

theorem Tidy.prune (h : Tidy app recorded lo db) (staleBefore : ℕ) :
    Tidy app recorded lo (pruneRuntimeEventCheckpoints staleBefore db) :=
  h.with_checkpoints fun row hrow => h.hints row (Table.mem_deleteWhere.mp hrow).1

theorem Tidy.delete (h : Tidy app recorded lo db) (consumerId : String) :
    Tidy app recorded lo (deleteRuntimeEventCheckpoint consumerId db) :=
  h.with_checkpoints fun row hrow => h.hints row (Table.mem_deleteWhere.mp hrow).1

theorem Tidy.saveEnriched (h : Tidy app recorded lo db) (hmarked : Marked lo app)
    (base : EventDb Value) (readAt : Option ℕ) (checkpoint : RuntimeEventCheckpoint) :
    Tidy app recorded lo
      (saveRuntimeEventCheckpoint (app.enrichCheckpoint base readAt checkpoint) db) := by
  refine h.with_checkpoints fun row hrow hgeneration hhint => ?_
  rcases Table.mem_insertOrReplace.mp hrow with ⟨hold, -⟩ | rfl
  · exact h.hints row hold hgeneration hhint
  · exact enrichCheckpoint_hint hmarked base readAt checkpoint hgeneration hhint

theorem Tidy.refreshOne (h : Tidy app recorded lo db) (hmarked : Marked lo app)
    (readAt : Option ℕ) (checkpoint : RuntimeEventCheckpoint) :
    Tidy app recorded lo (app.refreshOne readAt db checkpoint) := by
  simp only [EventState.refreshOne]
  split_ifs
  · exact h.saveEnriched hmarked _ _ _
  · exact h

theorem Tidy.refresh (h : Tidy app recorded lo db) (hmarked : Marked lo app)
    (readAt : Option ℕ) : Tidy app recorded lo (app.refreshCheckpoints readAt db) := by
  simp only [EventState.refreshCheckpoints]
  generalize (ensureRuntimeEventTables db).checkpoints.rows = rows
  have hready := h.ensure
  generalize ensureRuntimeEventTables db = ready at hready
  induction rows generalizing ready with
  | nil => exact hready
  | cons row rest ih => exact ih _ (hready.refreshOne hmarked readAt row)

theorem Tidy.saveCheckpoint (h : Tidy app recorded lo db) (hmarked : Marked lo app)
    (consumerId generation : String) (seq now : ℕ) :
    Tidy app recorded lo (app.saveCheckpoint consumerId generation seq now db).2 := by
  simp only [EventState.saveCheckpoint]
  split_ifs
  · exact h
  · exact h
  · exact (h.ensure.saveEnriched hmarked _ _ _).prune _

theorem Tidy.getCheckpoint (h : Tidy app recorded lo db) (hmarked : Marked lo app)
    (consumerId : String) (now : ℕ) :
    Tidy app recorded lo (app.getCheckpoint consumerId now db).2 := by
  simp only [EventState.getCheckpoint]
  split_ifs
  · exact h
  · split
    · exact h.ensure
    · split_ifs
      · exact h.ensure.delete _
      · exact h.ensure.refreshOne hmarked _ _

end Checkpoints

section Calls

variable {s : Session Value} {lo : ℕ}

theorem push_feed {app : EventState Value} {n : ℕ} {envelope : RuntimeEventEnvelope Value}
    (h : Consecutive RuntimeEventEnvelope.seq (n + 1 - min n 1024) (n + 1) app.runtimeEventFeed)
    (hseq : envelope.seq = n + 1) :
    Consecutive RuntimeEventEnvelope.seq (n + 1 + 1 - min (n + 1) 1024) (n + 1 + 1)
      (app.push envelope).runtimeEventFeed := by
  have hlength := h.length
  have hpush : (app.push envelope).runtimeEventFeed =
      (if app.runtimeEventFeed.length ≥ 1024 then app.runtimeEventFeed.tail
        else app.runtimeEventFeed) ++ [envelope] := rfl
  rw [hpush]
  split_ifs with hfull
  · have htail := h.drop 1
    rw [List.drop_one] at htail
    have hstart : n + 1 + 1 - min (n + 1) 1024 = n + 1 - min n 1024 + 1 := by omega
    rw [hstart]
    exact htail.push (by omega) hseq
  · have hstart : n + 1 + 1 - min (n + 1) 1024 = n + 1 - min n 1024 := by omega
    rw [hstart]
    exact h.push (by omega) hseq

/-- The oldest number that is kept when the next event is recorded at `now`. -/
def recordedOldest (s : Session Value) (lo now : ℕ) : ℕ :=
  nextOldest s.app.runtimeEventGeneration (EventState.retention now) (s.app.runtimeEventSeq + 1) lo
    (EventState.pruneCheckpoints now s.db)

theorem Coherent.record (h : Coherent lo s) {event : String} {payload : Value} {emittedAt now : ℕ}
    {t : Session Value} (hstep : sessionStep s (.record event payload emittedAt now) = some t) :
    Coherent (recordedOldest s lo now) t ∧
      t.app.runtimeEventGeneration = s.app.runtimeEventGeneration ∧
      t.app.runtimeEventSeq = s.app.runtimeEventSeq + 1 := by
  obtain ⟨htidy, hmarked, hbounded, hfeed, hrecorded, hhot⟩ := h
  obtain rfl := Option.some.inj hstep
  let envelope : RuntimeEventEnvelope Value :=
    ⟨s.app.runtimeEventSeq + 1, event, payload, emittedAt⟩
  let g := s.app.runtimeEventGeneration
  let pruned := EventState.pruneCheckpoints now s.db
  have hpruned : Tidy s.app s.recorded lo pruned := htidy.prune _
  obtain ⟨hkeep, hcap, hmax⟩ := EventState.retention_keeps now
  have hnext := Bounded.next pruned g (EventState.retention now) hbounded hkeep hcap
  have hkeeps : recordedOldest s lo now ≤ max (s.app.runtimeEventSeq + 1 - 9999) 1 := hnext.keeps
  have hle : lo ≤ recordedOldest s lo now := le_max_left _ _
  have hfits : nextOldest g (EventState.retention now) envelope.seq lo pruned ≤
      s.app.runtimeEventSeq + 1 := by
    change recordedOldest s lo now ≤ _
    omega
  have hshape := hpruned.shape.append envelope (EventState.retention now) rfl hmax hfits
  have holdest := hshape.oldestSeq (Nat.succ_pos _)
  -- The state after the call and the tables before the refresh.
  let app : EventState Value :=
    { (s.app.draw event payload emittedAt).1.push envelope with
      runtimeEventPersistedOldestSeq := recordedOldest s lo now }
  let appended := (appendRuntimeEvent g envelope (EventState.retention now) pruned).1
  have happ : s.app.record event payload emittedAt now s.db =
      (app, if recordedOldest s lo now ≠ s.app.runtimeEventPersistedOldestSeq
        then app.refreshCheckpoints none appended else appended) :=
    EventState.persist_eq _ holdest
  have hmarked' : Marked (recordedOldest s lo now) app := rfl
  have htidy' : Tidy app (s.recorded ++ [envelope]) (recordedOldest s lo now) appended := by
    refine ⟨hshape, append_meta.1, append_meta.2, ?_, ?_⟩
    · have hold : Journaled (fun g event => g = app.runtimeEventGeneration →
          event ∈ s.recorded ++ [envelope]) pruned := by
        intro row hrow hg
        exact List.mem_append_left _ (hpruned.journaled row hrow hg)
      exact hold.append fun _ => List.mem_append_right _ (List.mem_singleton.mpr rfl)
    · intro row hrow hg hhint
      have hsame : appended.checkpoints = pruned.checkpoints := append_checkpoints
      have hrow' : row ∈ pruned.checkpoints.rows := hsame ▸ hrow
      exact (hpruned.hints row hrow' hg hhint).trans_le hle
  show Coherent _ (Session.mk (s.app.record event payload emittedAt now s.db).1
    (s.app.record event payload emittedAt now s.db).2 (s.recorded ++ [envelope])) ∧ _
  rw [happ]
  refine ⟨⟨?_, hmarked', hnext, push_feed hfeed rfl, hrecorded.push (by omega) rfl, ?_⟩, rfl, rfl⟩
  · show Tidy app (s.recorded ++ [envelope]) (recordedOldest s lo now)
      (if recordedOldest s lo now ≠ s.app.runtimeEventPersistedOldestSeq
        then app.refreshCheckpoints none appended else appended)
    split_ifs
    · exact htidy'.refresh hmarked' none
    · exact htidy'
  · intro other hother
    rcases EventState.mem_push hother with hold | hnew
    · exact List.mem_append_left _ (hhot other hold)
    · exact List.mem_append_right _ (List.mem_singleton.mpr hnew)

theorem Coherent.restart (h : Coherent lo s) {t : Session Value}
    (hstep : sessionStep s .restart = some t) :
    Coherent lo t ∧ t.app.runtimeEventGeneration = s.app.runtimeEventGeneration ∧
      t.app.runtimeEventSeq = s.app.runtimeEventSeq := by
  obtain ⟨htidy, hmarked, hbounded, hfeed, hrecorded, hhot⟩ := h
  obtain rfl := Option.some.inj hstep
  have hready := htidy.ensure
  let app : EventState Value := .load (ensureRuntimeEventTables s.db)
  have hgeneration : app.runtimeEventGeneration = s.app.runtimeEventGeneration := htidy.generation
  have hseq : app.runtimeEventSeq = s.app.runtimeEventSeq := htidy.lastSeq
  have hrows : (ensureRuntimeEventTables s.db).rowsOf app.runtimeEventGeneration =
      (ensureRuntimeEventTables s.db).rowsOf s.app.runtimeEventGeneration := by rw [hgeneration]
  have hmarked' : Marked lo app := by
    show (EventDb.oldestSeq _ _).getD 0 = if _ = 0 then 0 else lo
    rw [hseq]
    split_ifs with hzero
    · have hseqs := hready.shape.journal.seqs
      rw [hzero] at hseqs
      have hnone : (ensureRuntimeEventTables s.db).rowsOf s.app.runtimeEventGeneration = [] := by
        refine List.eq_nil_of_length_eq_zero ?_
        obtain ⟨k, hk⟩ := hready.shape.boundary
        have hlength := hseqs.length
        omega
      show (List.map _ (EventDb.rowsOf _ app.runtimeEventGeneration)).min?.getD 0 = 0
      rw [hrows, hnone]
      rfl
    · have holdest := hready.shape.oldestSeq (Nat.pos_of_ne_zero hzero)
      show (EventDb.oldestSeq _ app.runtimeEventGeneration).getD 0 = lo
      rw [hgeneration, holdest]
      rfl
  have hfeed' : Consecutive RuntimeEventEnvelope.seq
      (s.app.runtimeEventSeq + 1 - min s.app.runtimeEventSeq 1024) (s.app.runtimeEventSeq + 1)
      app.runtimeEventFeed := by
    have hlatest := hready.shape.journal.seqs.latest 1024
    have hkeeps : lo ≤ max (s.app.runtimeEventSeq - 9999) 1 := hbounded.keeps
    obtain ⟨k, hk⟩ := hready.shape.boundary
    have hstart : max lo (s.app.runtimeEventSeq + 1 - 1024) =
        s.app.runtimeEventSeq + 1 - min s.app.runtimeEventSeq 1024 := by omega
    rw [hstart] at hlatest
    show Consecutive _ _ _ (List.map _ (List.take 1024 (List.reverse
      (EventDb.rowsOf _ app.runtimeEventGeneration)))).reverse
    rw [hrows, ← List.map_reverse]
    refine hlatest.map fun row hrow => hready.shape.journal.envelopes row ?_
    exact List.mem_reverse.mp (List.mem_of_mem_take (List.mem_reverse.mp hrow))
  have hhot' : ∀ event ∈ app.runtimeEventFeed, event ∈ s.recorded := by
    intro event hevent
    obtain ⟨row, hrow, rfl⟩ := List.mem_map.mp (List.mem_reverse.mp hevent)
    have hmem := List.mem_reverse.mp (List.mem_of_mem_take hrow)
    obtain ⟨hjournal, hg⟩ := mem_rowsOf.mp hmem
    exact hready.journaled row hjournal (hg.trans htidy.generation)
  refine ⟨⟨⟨?_, rfl, rfl, ?_, ?_⟩, hmarked', ?_, ?_, ?_, hhot'⟩, hgeneration, hseq⟩
  · show Shape app.runtimeEventGeneration app.runtimeEventSeq lo _
    rw [hgeneration, hseq]
    exact hready.shape
  · intro row hrow hg
    exact hready.journaled row hrow (hg.trans hgeneration)
  · intro row hrow hg
    exact hready.hints row hrow (hg.trans hgeneration)
  · show Bounded _ _ app.runtimeEventSeq lo
    rw [hseq]
    exact hbounded
  · show Consecutive _ (app.runtimeEventSeq + 1 - min app.runtimeEventSeq 1024)
      (app.runtimeEventSeq + 1) app.runtimeEventFeed
    rw [hseq]
    exact hfeed'
  · show Consecutive _ 1 (app.runtimeEventSeq + 1) s.recorded
    rw [hseq]
    exact hrecorded

end Calls

/-- At every append the consumer's checkpoint stands at `c`, it is newer than the threshold, and
the hard cap of the journal does not pass it. -/
def KeepsLive (consumerId generation : String) (c : ℕ) (s : Session Value) :
    SessionCall Value → Prop
  | .record _ _ _ now =>
      ∃ row ∈ s.db.checkpoints.rows, row.consumerId = consumerId ∧ row.generation = generation ∧
        row.seq = c ∧ row.updatedAtUnixMs > now - runtimeEventCheckpointStaleThresholdMs ∧
        c ≥ max 1 (s.app.runtimeEventSeq + 1 - (runtimeEventPersistedJournalMaxCapacity - 1)) - 1
  | _ => True

/-- The journal still has everything after `c`. -/
structure Serves (generation : String) (c : ℕ) (s : Session Value) : Prop where
  coherent : ∃ lo, Coherent lo s ∧ lo ≤ c + 1
  current : s.app.runtimeEventGeneration = generation
  reached : c ≤ s.app.runtimeEventSeq

section Live

variable {s t : Session Value} {consumerId generation : String} {c lo : ℕ}

theorem Coherent.with_tidy (h : Coherent lo s) {db : EventDb Value}
    (htidy : Tidy s.app s.recorded lo db) : Coherent lo { s with db := db } :=
  ⟨htidy, h.marked, h.bounded, h.feed, h.recorded, h.hot⟩

theorem Coherent.step (h : Coherent lo s) {call : SessionCall Value}
    (hstep : sessionStep s call = some t) : ∃ later, Coherent later t := by
  cases call with
  | record event payload emittedAt now => exact ⟨_, (h.record hstep).1⟩
  | restart => exact ⟨lo, (h.restart hstep).1⟩
  | save consumerId generation seq now =>
    obtain rfl := Option.some.inj hstep
    exact ⟨lo, h.with_tidy (h.tidy.saveCheckpoint h.marked _ _ _ _)⟩
  | get consumerId now =>
    obtain rfl := Option.some.inj hstep
    exact ⟨lo, h.with_tidy (h.tidy.getCheckpoint h.marked _ _)⟩
  | list now =>
    obtain rfl := Option.some.inj hstep
    exact ⟨lo, h.with_tidy ((h.tidy.prune _).refresh h.marked none)⟩

theorem Serves.step (h : Serves generation c s) {call : SessionCall Value}
    (hlive : KeepsLive consumerId generation c s call) (hstep : sessionStep s call = some t) :
    Serves generation c t := by
  obtain ⟨⟨lo, hcoherent, hlo⟩, hcurrent, hreached⟩ := h
  cases call with
  | record event payload emittedAt now =>
    obtain ⟨row, hrow, -, hgeneration, hseq, hfresh, hcap⟩ := hlive
    obtain ⟨hnext, hsame, hseq'⟩ := hcoherent.record hstep
    refine ⟨⟨_, hnext, ?_⟩, hsame.trans hcurrent, by omega⟩
    -- The row survives the pruning, and its hint is not stale: it pins the journal.
    have hkept : row ∈ (EventState.pruneCheckpoints now s.db).checkpoints.rows := by
      refine Table.mem_deleteWhere.mpr ⟨hrow, ?_⟩
      have hyoung : ¬ row.updatedAtUnixMs ≤ now - runtimeEventCheckpointTtlMs := by
        change row.updatedAtUnixMs > now - 3600000 at hfresh
        show ¬ row.updatedAtUnixMs ≤ now - 604800000
        omega
      simp [hyoung]
    have hhint : row.recoveryHint.getD .persistedCatchUp ≠ .resyncRequired := by
      intro hresync
      have hsome : row.recoveryHint = some .resyncRequired := by
        cases hrowhint : row.recoveryHint with
        | none => simp [hrowhint] at hresync
        | some hint => simpa [hrowhint] using hresync
      have hpast := hcoherent.tidy.hints row hrow (hgeneration.trans hcurrent.symm) hsome
      omega
    refine nextOldest_le_of_pin hlo hkept hseq (decide_eq_true ⟨?_, hfresh, ?_, hhint⟩)
    · exact hgeneration.trans hcurrent.symm
    · rw [hseq, maxRetainedFromSeq, max_comm]
      exact hcap
  | restart =>
    obtain ⟨hnext, hsame, hseq⟩ := hcoherent.restart hstep
    exact ⟨⟨lo, hnext, hlo⟩, hsame.trans hcurrent, by omega⟩
  | save consumerId generation seq now =>
    obtain rfl := Option.some.inj hstep
    have htidy := hcoherent.tidy.saveCheckpoint hcoherent.marked consumerId generation seq now
    exact ⟨⟨lo, hcoherent.with_tidy htidy, hlo⟩, hcurrent, hreached⟩
  | get consumerId now =>
    obtain rfl := Option.some.inj hstep
    have htidy := hcoherent.tidy.getCheckpoint hcoherent.marked consumerId now
    exact ⟨⟨lo, hcoherent.with_tidy htidy, hlo⟩, hcurrent, hreached⟩
  | list now =>
    obtain rfl := Option.some.inj hstep
    have htidy := (hcoherent.tidy.prune (now - runtimeEventCheckpointTtlMs)).refresh
      hcoherent.marked none
    exact ⟨⟨lo, hcoherent.with_tidy htidy, hlo⟩, hcurrent, hreached⟩

theorem Coherent.served (h : Coherent lo s) (hc : 1 ≤ c) (hreached : c ≤ s.app.runtimeEventSeq)
    (hhint : s.app.recoveryHint s.app.runtimeEventGeneration c s.app.runtimeEventSeq
      s.app.memoryOldestSeq
      (EventState.persistedOldestSeq s.app.runtimeEventPersistedOldestSeq) ≠ .resyncRequired) :
    lo ≤ c + 1 := by
  have hnonempty := h.tidy.shape.nonempty
  have hkeeps : lo ≤ max (s.app.runtimeEventSeq - 9999) 1 := h.bounded.keeps
  have hmemory : s.app.memoryOldestSeq =
      some (s.app.runtimeEventSeq + 1 - min s.app.runtimeEventSeq 1024) :=
    h.feed.head? (by omega)
  have hmarked : s.app.runtimeEventPersistedOldestSeq = lo :=
    h.marked.trans (if_neg (by omega))
  obtain ⟨k, hk⟩ := h.tidy.shape.boundary
  have hpersisted : EventState.persistedOldestSeq s.app.runtimeEventPersistedOldestSeq =
      some lo := by
    rw [hmarked]
    exact if_neg (by omega)
  rw [hmemory, hpersisted] at hhint
  unfold EventState.recoveryHint at hhint
  rw [if_neg (not_not.mpr rfl)] at hhint
  split_ifs at hhint with hcurrent hhot hcold
  · omega
  · simp only [Option.map_some, Option.getD_some, decide_eq_true_eq] at hhot
    omega
  · simp only [Option.map_some, Option.getD_some, decide_eq_true_eq] at hcold
    omega
  · exact absurd rfl hhint

/-- Where the journal still has everything after `c`, a request from `c` is answered with it. -/
theorem Serves.answer (h : Serves generation c s) (hc : 1 ≤ c) {limit : ℕ} (hlimit : 1 ≤ limit) :
    (s.app.runtimeEventsSince c limit s.db).resyncRequired = false ∧
      Consecutive RuntimeEventEnvelope.seq (c + 1)
        (min (c + limit) s.app.runtimeEventSeq + 1) (s.app.runtimeEventsSince c limit s.db).events ∧
      ∀ event ∈ (s.app.runtimeEventsSince c limit s.db).events, event ∈ s.recorded := by
  obtain ⟨⟨lo, hcoherent, hlo⟩, hcurrent, hreached⟩ := h
  obtain ⟨k, hk⟩ := hcoherent.tidy.shape.boundary
  have hmemory : s.app.memoryOldestSeq =
      some (s.app.runtimeEventSeq + 1 - min s.app.runtimeEventSeq 1024) :=
    hcoherent.feed.head? (by omega)
  have hpersisted : EventState.persistedOldestSeq s.app.runtimeEventPersistedOldestSeq =
      some lo := by
    rw [hcoherent.marked.trans (if_neg (by omega : ¬ s.app.runtimeEventSeq = 0))]
    exact if_neg (by omega)
  have hend : min (c + 1 + limit) (s.app.runtimeEventSeq + 1) =
      min (c + limit) s.app.runtimeEventSeq + 1 := by omega
  let request := s.app.request c limit
  have hafter : request.afterSeq = c := rfl
  have hlatest : request.latest = s.app.runtimeEventSeq := rfl
  have hreason : request.marksReason = none := by
    unfold FeedRequest.marksReason
    rw [if_neg (by omega), if_neg (by omega)]
    have holdest : request.oldestAvailable = some lo := by
      unfold FeedRequest.oldestAvailable
      rw [if_neg (by omega)]
      show (EventState.persistedOldestSeq s.app.runtimeEventPersistedOldestSeq <|> _) = _
      rw [hpersisted]
      rfl
    rw [holdest]
    exact if_neg (by omega)
  have hserve : request.serve s.app.runtimeEventFeed =
      if request.needsPersistedCatchUp then none
      else some (request.respond ((s.app.runtimeEventFeed.filter fun event => event.seq > c).take
        limit) none) := by
    refine if_neg ?_
    rintro (hzero | hsome)
    · change limit = 0 at hzero
      omega
    · rw [hreason] at hsome
      simp at hsome
  show ((request.serve s.app.runtimeEventFeed).getD _).resyncRequired = false ∧
    Consecutive _ _ _ ((request.serve s.app.runtimeEventFeed).getD _).events ∧
    ∀ event ∈ ((request.serve s.app.runtimeEventFeed).getD _).events, event ∈ s.recorded
  rw [hserve]
  by_cases hneeds : request.needsPersistedCatchUp = true
  · -- The cursor is behind the feed: the journal answers, and it has the successor.
    rw [if_pos hneeds, Option.getD_none]
    have hready := hcoherent.tidy.ensure
    have hloaded := hready.shape.journal.loadAfter hready.generation hlo limit
    rw [hend] at hloaded
    have hfound : request.needsPersistedCatchUp = true → request.afterSeq < request.latest →
        loadRuntimeEventsAfter (ensureRuntimeEventTables s.db) c limit ≠ [] := by
      intro _ hbehind hempty
      have hlength := hloaded.length
      rw [hempty, List.length_nil] at hlength
      omega
    obtain ⟨hresync, hevents⟩ := FeedRequest.respond_none hfound
    refine ⟨hresync, hevents.symm ▸ hloaded, fun event hevent => ?_⟩
    obtain ⟨row, hrow, rfl⟩ := mem_loadRuntimeEventsAfter (hevents ▸ hevent)
    obtain ⟨hjournal, hg⟩ := mem_rowsOf.mp hrow
    exact hready.journaled row hjournal (hg.trans hready.generation)
  · rw [if_neg hneeds, Option.getD_some]
    have hhot : s.app.runtimeEventSeq + 1 - min s.app.runtimeEventSeq 1024 ≤ c + 1 := by
      by_contra hcold
      refine hneeds (decide_eq_true ⟨by omega, hreason, ?_⟩)
      show (s.app.memoryOldestSeq.map _).getD false = true
      rw [hmemory]
      simp only [Option.map_some, Option.getD_some, decide_eq_true_eq]
      omega
    have hread := feed_after hcoherent.feed hhot limit
    rw [hend] at hread
    have hfound : request.needsPersistedCatchUp = true → request.afterSeq < request.latest →
        (s.app.runtimeEventFeed.filter fun event => event.seq > c).take limit ≠ [] :=
      fun hneeds' => absurd hneeds' hneeds
    obtain ⟨hresync, hevents⟩ := FeedRequest.respond_none hfound
    refine ⟨hresync, hevents.symm ▸ hread, fun event hevent => ?_⟩
    exact hcoherent.hot event (List.mem_filter.mp (List.mem_of_mem_take (hevents ▸ hevent))).1

/-- A consumer whose checkpoint was served when it was saved and that stays live at every later
append is replayed from it, in every state, exactly the events that follow. -/
theorem live_consumer_replays {seq now limit : ℕ} {checkpoint : RuntimeEventCheckpoint}
    {db : EventDb Value} {first : String}
    (hrun : Reaches sessionStep anyStep (Session.start first) s)
    (hsave : s.app.saveCheckpoint consumerId generation seq now s.db = (.ok checkpoint, db))
    (hcurrent : checkpoint.generation = s.app.runtimeEventGeneration)
    (hhint : checkpoint.recoveryHint ≠ some .resyncRequired) (hc : 1 ≤ checkpoint.seq)
    (hlater : Reaches sessionStep
      (KeepsLive checkpoint.consumerId checkpoint.generation checkpoint.seq)
      { s with db := db } t)
    (hlimit : 1 ≤ limit) :
    (t.app.runtimeEventsSince checkpoint.seq limit t.db).resyncRequired = false ∧
      (t.app.runtimeEventsSince checkpoint.seq limit t.db).events.map RuntimeEventEnvelope.seq =
        List.Ico (checkpoint.seq + 1) (min (checkpoint.seq + limit) t.app.runtimeEventSeq + 1) ∧
      (t.app.runtimeEventsSince checkpoint.seq limit t.db).events =
        (t.recorded.drop checkpoint.seq).take limit := by
  obtain ⟨lo, hcoherent⟩ : ∃ lo, Coherent lo s :=
    hrun.keeps (I := fun u => ∃ lo, Coherent lo u) ⟨1, coherent_start first⟩
      fun ⟨_, h⟩ _ hstep => h.step hstep
  -- The save: the checkpoint is clamped to the latest number and carries the hint of its time.
  have hsaved := hcoherent.tidy.saveCheckpoint hcoherent.marked consumerId generation seq now
  rw [hsave] at hsaved
  have hfields : checkpoint.seq = min seq s.app.runtimeEventSeq ∧ checkpoint.recoveryHint =
      some (s.app.recoveryHint checkpoint.generation checkpoint.seq s.app.runtimeEventSeq
        s.app.memoryOldestSeq
        (EventState.persistedOldestSeq s.app.runtimeEventPersistedOldestSeq)) := by
    simp only [EventState.saveCheckpoint] at hsave
    split_ifs at hsave
    · simp at hsave
    · simp at hsave
    · obtain ⟨hok, -⟩ := Prod.mk.inj hsave
      obtain rfl := Except.ok.inj hok
      exact ⟨rfl, rfl⟩
  obtain ⟨hseq, hrowhint⟩ := hfields
  have hserved : lo ≤ checkpoint.seq + 1 := by
    refine hcoherent.served hc (by omega) fun hresync => hhint ?_
    rw [hrowhint, hcurrent, hresync]
  have hserves : Serves checkpoint.generation checkpoint.seq { s with db := db } :=
    ⟨⟨lo, hcoherent.with_tidy hsaved, hserved⟩, hcurrent.symm, by
      show checkpoint.seq ≤ s.app.runtimeEventSeq
      omega⟩
  have hend : Serves checkpoint.generation checkpoint.seq t :=
    hlater.keeps hserves fun h hlive hstep => h.step hlive hstep
  obtain ⟨hresync, hevents, hrecorded⟩ := hend.answer hc hlimit
  refine ⟨hresync, hevents, ?_⟩
  obtain ⟨⟨_, hcoherent', -⟩, -, hreached⟩ := hend
  have htaken := (hcoherent'.recorded.drop checkpoint.seq).take limit
  rw [show min (1 + checkpoint.seq + limit) (t.app.runtimeEventSeq + 1) =
    min (checkpoint.seq + limit) t.app.runtimeEventSeq + 1 by omega,
    Nat.add_comm 1 checkpoint.seq] at htaken
  refine hevents.eq_of_named htaken fun a ha b hb hsame => ?_
  have hb' := List.mem_of_mem_drop (List.mem_of_mem_take hb)
  exact hcoherent'.recorded.named (hrecorded a ha) hb' hsame

end Live

def sampleBefore : Session Unit :=
  (play sessionStep anyStep (Session.start "g1") [.record "device_updated" () 10 10]).getD
    (Session.start "g1")

def sampleSaved : Except String RuntimeEventCheckpoint × EventDb Unit :=
  sampleBefore.app.saveCheckpoint "shared-ui" "g1" 1 11 sampleBefore.db

def sampleCheckpoint : RuntimeEventCheckpoint :=
  ⟨"shared-ui", "g1", 1, 11, some 11, none, some 300011, some 1, some .created, some .upToDate,
    some 1, some 1, some 0, some 0⟩

def sampleAfter : Session Unit :=
  (sessionStep { sampleBefore with db := sampleSaved.2 } (.record "device_lost" () 12 12)).getD
    sampleBefore

theorem shared_ui_replayed :
    sampleSaved = (.ok sampleCheckpoint, sampleSaved.2) ∧
    (sampleAfter.app.runtimeEventsSince 1 10 sampleAfter.db).resyncRequired = false ∧
      (sampleAfter.app.runtimeEventsSince 1 10 sampleAfter.db).events.map
        RuntimeEventEnvelope.seq = List.Ico (1 + 1) (min (1 + 10) 2 + 1) ∧
      (sampleAfter.app.runtimeEventsSince 1 10 sampleAfter.db).events =
        (sampleAfter.recorded.drop 1).take 10 := by
  have hsaved : sampleBefore.app.saveCheckpoint "shared-ui" "g1" 1 11 sampleBefore.db =
      (.ok sampleCheckpoint, sampleSaved.2) :=
    Prod.ext (by decide +kernel) rfl
  have hrun : Reaches sessionStep anyStep (Session.start "g1") sampleBefore :=
    reaches_of_play (by rfl : play _ _ _ [.record "device_updated" () 10 10] = some sampleBefore)
  have hlive : KeepsLive "shared-ui" "g1" 1 { sampleBefore with db := sampleSaved.2 }
      (.record "device_lost" () 12 12) :=
    ⟨sampleCheckpoint, by decide +kernel, rfl, rfl, rfl, by decide, by decide⟩
  exact ⟨hsaved, live_consumer_replays hrun hsaved (by decide +kernel) (by decide) (by decide)
    (.single ⟨_, hlive, rfl⟩) (by decide)⟩

end DashDrop.Events.Replay
