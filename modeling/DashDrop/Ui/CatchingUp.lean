/- GID: DashDrop/Ui/CatchingUp
   source: src/ipc.ts, src-tauri/src/state.rs
   anchors: []
   digest: While the daemon records nothing, the answers that arrive take the cursor to the end. -/

import DashDrop.Ui.EventChain

set_option autoImplicit false
set_option relaxedAutoImplicit false

namespace DashDrop.Ui.CatchingUp

open DashDrop.Foundation.Json (Value)
open DashDrop.Foundation.Transitions DashDrop.Foundation.Numbering DashDrop.Foundation.Followers
open DashDrop.Events.Journal DashDrop.Events.Feed DashDrop.Events.Replay DashDrop.Ui.SharedPoller
open DashDrop.Ui.Polling DashDrop.Ui.EventChain

/-- The events take a cursor to the end, or on by a whole answer. -/
def Reaching (latest asked : ℕ) (events : List (RuntimeEventEnvelope Value)) : Prop :=
  lastSeq asked events ≤ latest ∧
    (lastSeq asked events = latest ∨ asked + defaultDaemonEventLimit ≤ lastSeq asked events)

def Fresh (generation : String) (latest asked : ℕ) (feed : RuntimeEventFeedSnapshot Value) : Prop :=
  feed.generation = generation ∧ feed.latestAvailableSeq = latest ∧
    (feed.resyncRequired = true ∨ Reaching latest asked feed.events)

section Answer

variable {first e asked lo : ℕ} {events : List (RuntimeEventEnvelope Value)} {s : Session Value}

theorem lastSeq_consecutive (numbers : Consecutive RuntimeEventEnvelope.seq first (e + 1) events)
    (later : asked < first) (some_event : first ≤ e) : lastSeq asked events = e := by
  have length := numbers.length
  obtain ⟨last, found⟩ : ∃ last, events[events.length - 1]? = some last :=
    ⟨_, List.getElem?_eq_getElem (by omega)⟩
  have seq := numbers.getElem? found
  have ends : events.getLast? = some last := List.getLast?_eq_getElem?.trans found
  rw [lastSeq_eq numbers.ascending (fun event mem => later.trans_le (numbers.bounds mem).1) ends]
  omega

theorem fresh_of_coherent (coherent : Coherent lo s) (asked : ℕ) :
    Fresh s.app.runtimeEventGeneration s.app.runtimeEventSeq asked (getRuntimeEvents s asked).2 := by
  show Fresh _ _ asked (s.app.runtimeEventsSince asked defaultDaemonEventLimit s.db)
  rw [Ipc.Frames.runtimeEventsSince_eq coherent]
  refine ⟨rfl, rfl, ?_⟩
  by_cases resync : (Ipc.Frames.reasonOf (s.app.request asked defaultDaemonEventLimit)).isSome = true
  · exact .inl resync
  right
  have calm : (s.app.request asked defaultDaemonEventLimit).marksReason = none := by
    unfold Ipc.Frames.reasonOf at resync
    rw [if_neg] at resync
    · exact Option.not_isSome_iff_eq_none.mp resync
    · rintro ⟨none_wanted, -⟩
      cases none_wanted
  have limit : defaultDaemonEventLimit = 100 := rfl
  show Reaching _ _ (Ipc.Frames.owed s asked defaultDaemonEventLimit)
  unfold Ipc.Frames.owed
  rw [calm]
  by_cases zero : asked = 0
  · -- From the start the answer begins with the feed in memory.
    subst zero
    have numbers := (coherent.recorded.drop (s.app.runtimeEventSeq - runtimeEventFeedCapacity)).take
      defaultDaemonEventLimit
    have capacity : runtimeEventFeedCapacity = 1024 := rfl
    by_cases empty : s.app.runtimeEventSeq = 0
    · have none_left := numbers.length
      have nothing : (s.recorded.drop (s.app.runtimeEventSeq - runtimeEventFeedCapacity)).take
          defaultDaemonEventLimit = [] := List.eq_nil_of_length_eq_zero (by omega)
      simp only [Option.isSome_none, Bool.false_eq_true, if_false, if_true, nothing]
      exact ⟨Nat.zero_le _, .inl empty.symm⟩
    · obtain ⟨e, ends⟩ : ∃ e, min (1 + (s.app.runtimeEventSeq - runtimeEventFeedCapacity) +
          defaultDaemonEventLimit) (s.app.runtimeEventSeq + 1) = e + 1 :=
        ⟨min (s.app.runtimeEventSeq - runtimeEventFeedCapacity + defaultDaemonEventLimit)
          s.app.runtimeEventSeq, by omega⟩
      rw [ends] at numbers
      have moved : lastSeq 0 _ = e := lastSeq_consecutive numbers (by omega) (by omega)
      simp only [Option.isSome_none, Bool.false_eq_true, if_false, if_true]
      refine ⟨by omega, ?_⟩
      omega
  · have known : asked ≤ s.app.runtimeEventSeq := by
      by_contra past
      have refused : (s.app.request asked defaultDaemonEventLimit).marksReason =
          some .cursorAfterLatestAvailable := by
        unfold FeedRequest.marksReason
        have after : (s.app.request asked defaultDaemonEventLimit).afterSeq = asked := rfl
        have latest : (s.app.request asked defaultDaemonEventLimit).latest = s.app.runtimeEventSeq := rfl
        rw [after, latest, if_neg zero, if_pos (by omega)]
      cases refused.symm.trans calm
    have numbers := (coherent.recorded.drop asked).take defaultDaemonEventLimit
    simp only [Option.isSome_none, Bool.false_eq_true, if_false, if_neg zero]
    have shape : Consecutive RuntimeEventEnvelope.seq (asked + 1)
        (min (asked + defaultDaemonEventLimit) s.app.runtimeEventSeq + 1)
        ((s.recorded.drop asked).take defaultDaemonEventLimit) := by
      have same : min (1 + asked + defaultDaemonEventLimit) (s.app.runtimeEventSeq + 1) =
          min (asked + defaultDaemonEventLimit) s.app.runtimeEventSeq + 1 := by omega
      rw [same, Nat.add_comm 1 asked] at numbers
      exact numbers
    have moved : lastSeq asked ((s.recorded.drop asked).take defaultDaemonEventLimit) =
        min (asked + defaultDaemonEventLimit) s.app.runtimeEventSeq := shape.foldl_max (by omega)
    refine ⟨by omega, ?_⟩
    omega

end Answer

def isRecord : SessionCall Value → Bool
  | .record _ _ _ _ => true
  | _ => false

def Still (callback : ℕ) (c : Chain) (l : Turn) : Prop :=
  Stays callback c l ∧ (∀ call, l = .call call → isRecord call = false) ∧
    ∀ generation, l ≠ .renew generation

/-- A run in which so many answers arrive. -/
inductive Arrivals (callback : ℕ) (c : Chain) : ℕ → Chain → Prop where
  | start : Arrivals callback c 0 c
  | arrival {n : ℕ} {d e : Chain} {i now : ℕ} (before : Arrivals callback c n d)
      (step : turn d (.page (.arrive i now)) = some e) : Arrivals callback c (n + 1) e
  | other {n : ℕ} {d e : Chain} {l : Turn} (before : Arrivals callback c n d)
      (still : Still callback d l) (no_arrival : ∀ i now, l ≠ .page (.arrive i now))
      (step : turn d l = some e) : Arrivals callback c n e

/-- How far `n` arrivals have taken the cursor: what is on its way after the first of them is an
answer of the daemon as it is, and each of these moves the cursor on by a hundred or to the end. -/
structure Toward (generation : String) (latest n : ℕ) (d : Chain) : Prop where
  current : d.session.app.runtimeEventGeneration = generation
  recorded : d.session.app.runtimeEventSeq = latest
  fresh : 1 ≤ n → ∀ feed, .answered feed ∈ d.page.calls → Fresh generation latest d.page.afterSeq feed
  cursor : 2 ≤ n → d.page.generation = some generation ∧ d.page.afterSeq ≤ latest ∧
    (d.page.afterSeq = latest ∨ defaultDaemonEventLimit * (n - 1) ≤ d.page.afterSeq)

section Toward

variable {callback n : ℕ} {c d e : Chain} {generation : String} {latest : ℕ} {page next : Page Value}

theorem session_still {s t : Session Value} (coherent : ∃ lo, Coherent lo s) {call : SessionCall Value}
    (quiet : isRecord call = false) (step : sessionStep s call = some t) :
    t.app.runtimeEventGeneration = s.app.runtimeEventGeneration ∧
      t.app.runtimeEventSeq = s.app.runtimeEventSeq := by
  cases call with
  | record event payload emittedAt now => cases quiet
  | restart =>
    obtain ⟨lo, coherent⟩ := coherent
    exact (coherent.restart step).2
  | save consumerId generation seq now =>
    obtain rfl := Option.some.inj step
    exact ⟨rfl, rfl⟩
  | get consumerId now =>
    obtain rfl := Option.some.inj step
    exact ⟨rfl, rfl⟩
  | list now =>
    obtain rfl := Option.some.inj step
    exact ⟨rfl, rfl⟩

theorem cursor_of_fresh {feed : RuntimeEventFeedSnapshot Value}
    (fresh : Fresh generation latest page.afterSeq feed)
    (behind : 2 ≤ n → page.afterSeq ≤ latest ∧
      (page.afterSeq = latest ∨ defaultDaemonEventLimit * (n - 1) ≤ page.afterSeq))
    (moved : Moved feed page next) (one : 1 ≤ n) :
    next.generation = some generation ∧ next.afterSeq ≤ latest ∧
      (next.afterSeq = latest ∨ defaultDaemonEventLimit * n ≤ next.afterSeq) := by
  obtain ⟨of_it, at_end, events⟩ := fresh
  obtain ⟨named, place⟩ := moved
  refine ⟨of_it ▸ named, ?_⟩
  rcases place with skipped | ⟨served, passed⟩
  · rw [skipped, at_end]
    exact ⟨le_rfl, .inl rfl⟩
  · rcases events with resync | ⟨bound, reaching⟩
    · cases served.symm.trans resync
    rw [passed]
    refine ⟨bound, ?_⟩
    have limit : defaultDaemonEventLimit = 100 := rfl
    rw [limit] at reaching behind ⊢
    rcases reaching with done | further
    · exact .inl done
    · by_cases first : n = 1
      · omega
      · obtain ⟨-, at_latest | far⟩ := behind (by omega)
        · omega
        · omega

theorem toward_zero (c : Chain) :
    Toward c.session.app.runtimeEventGeneration c.session.app.runtimeEventSeq 0 c :=
  ⟨rfl, rfl, fun one => by omega, fun two => by omega⟩

theorem unanswered_of_arrival {feed : RuntimeEventFeedSnapshot Value} {i : ℕ}
    (alone : Alone i (.answered feed) page.calls) (now : ℕ) (other : RuntimeEventFeedSnapshot Value) :
    .answered other ∉ (page.takeFeed i now feed).calls := by
  have unanswered {point : Point Value} (rests : resting point = true)
      (feed : RuntimeEventFeedSnapshot Value) : point ≠ .answered feed := by
    rintro rfl
    cases rests
  cases taken_of_takeFeed i now feed page with
  | skipped point storage rests same =>
    rw [same]
    exact unanswered_of_set alone (unanswered rests) other
  | passed point storage rests current same =>
    rw [same]
    exact unanswered_of_set alone (unanswered rests) other

theorem Toward.arrival (h : Toward generation latest n d) (sound : Sound d) {i now : ℕ}
    (step : turn d (.page (.arrive i now)) = some e) : Toward generation latest (n + 1) e := by
  simp only [turn, ownStep, if_true] at step
  obtain ⟨next, moved, rfl⟩ := Option.map_eq_some_iff.mp step
  simp only [pageStep] at moved
  split at moved
  · rename_i feed found
    obtain rfl := Option.some.inj moved
    have alone := (sound.single.of_looping found rfl).1
    obtain ⟨heard, place⟩ := heard_arrive alone now
    refine ⟨h.current, h.recorded, fun _ other mem => ?_, fun two => ?_⟩
    · exact absurd mem (unanswered_of_arrival alone now other)
    · have fresh := h.fresh (by omega) feed (List.mem_of_getElem? found)
      exact cursor_of_fresh fresh (fun two => (h.cursor two).2) place (by omega)
  · cases moved

theorem Toward.other (h : Toward generation latest n d) (sound : Sound d) {l : Turn}
    (still : Still callback d l) (no_arrival : ∀ i now, l ≠ .page (.arrive i now))
    (step : turn d l = some e) : Toward generation latest n e := by
  obtain ⟨⟨allowed, -, no_reload⟩, quiet, no_renewal⟩ := still
  cases l with
  | call call =>
    obtain ⟨session, moved, rfl⟩ := Option.map_eq_some_iff.mp step
    obtain ⟨same, seq⟩ := session_still sound.coherent (quiet call rfl) moved
    exact ⟨same.trans h.current, seq.trans h.recorded, h.fresh, h.cursor⟩
  | renew generation => exact absurd rfl (no_renewal generation)
  | answer i =>
    simp only [turn] at step
    split at step
    · rename_i asked found
      obtain rfl := Option.some.inj step
      obtain ⟨db, same, -⟩ := asked_session d.session asked
      obtain ⟨lo, coherent⟩ := sound.coherent
      have alone := (sound.single.of_looping found rfl).1
      have cursor : asked = d.page.afterSeq := sound.numbers.flight _ (List.mem_of_getElem? found)
      have fresh := fresh_of_coherent coherent asked
      rw [h.current, h.recorded] at fresh
      refine ⟨?_, ?_, fun _ feed mem => ?_, h.cursor⟩
      · rw [same]
        exact h.current
      · rw [same]
        exact h.recorded
      · rcases mem_of_alone (alone.set (.answered (getRuntimeEvents d.session asked).2)) mem with here | ended
        · cases here
          show Fresh _ _ d.page.afterSeq _
          rw [← cursor]
          exact fresh
        · cases ended
    · cases step
  | page l =>
    simp only [turn] at step
    split_ifs at step with own
    obtain ⟨next, moved, rfl⟩ := Option.map_eq_some_iff.mp step
    have fewer : defaultDaemonEventLimit * (n - 1) ≤ defaultDaemonEventLimit * n :=
      Nat.mul_le_mul_left _ (Nat.sub_le n 1)
    cases heard_step sound.single sound.numbers own moved with
    | nothing _ _ _ of_it afterSeq _ waiting =>
      refine ⟨h.current, h.recorded, fun one feed mem => ?_, fun two => ?_⟩
      · show Fresh _ _ next.afterSeq feed
        rw [afterSeq]
        exact h.fresh one feed (waiting feed mem)
      · show next.generation = _ ∧ next.afterSeq ≤ _ ∧ (next.afterSeq = _ ∨ _ ≤ next.afterSeq)
        rw [of_it, afterSeq]
        exact h.cursor two
    | loaded _ unread _ _ waiting =>
      refine ⟨h.current, h.recorded, fun _ feed mem => absurd mem (waiting feed), fun two => ?_⟩
      cases unread.symm.trans (h.cursor two).1
    | skipped feed answered _ _ _ of_it afterSeq _ _ waiting =>
      refine ⟨h.current, h.recorded, fun _ feed mem => absurd mem (waiting feed), fun two => ?_⟩
      have further := cursor_of_fresh (h.fresh (by omega) feed answered)
        (fun two => (h.cursor two).2) (show Moved feed d.page next from ⟨of_it, .inl afterSeq⟩) (by omega)
      exact ⟨further.1, further.2.1, further.2.2.imp_right (le_trans fewer)⟩
    | passed feed answered served _ _ _ _ of_it afterSeq _ _ waiting =>
      refine ⟨h.current, h.recorded, fun _ feed mem => absurd mem (waiting feed), fun two => ?_⟩
      have further := cursor_of_fresh (h.fresh (by omega) feed answered)
        (fun two => (h.cursor two).2) (show Moved feed d.page next from ⟨of_it, .inr ⟨served, afterSeq⟩⟩) (by omega)
      exact ⟨further.1, further.2.1, further.2.2.imp_right (le_trans fewer)⟩
    | announced _ _ _ _ of_it afterSeq _ waiting =>
      refine ⟨h.current, h.recorded, fun _ feed mem => absurd mem (waiting feed), fun two => ?_⟩
      show next.generation = _ ∧ next.afterSeq ≤ _ ∧ (next.afterSeq = _ ∨ _ ≤ next.afterSeq)
      rw [of_it, afterSeq]
      exact h.cursor two
  | reload => exact absurd rfl no_reload

end Toward

section Main

variable {callback n : ℕ} {c c' : Chain}

theorem Arrivals.reaches (h : Arrivals callback c n c') : Reaches turn (Stays callback) c c' := by
  induction h with
  | start => exact .refl
  | @arrival n d e i now _ step ih =>
    have stays : Stays callback d (.page (.arrive i now)) := ⟨trivial, by simp, by simp⟩
    exact ih.tail ⟨_, stays, step⟩
  | other _ still _ step ih => exact ih.tail ⟨_, still.1, step⟩

theorem Arrivals.toward (h : Arrivals callback c n c') (sound : Sound c) :
    Sound c' ∧ Toward c.session.app.runtimeEventGeneration c.session.app.runtimeEventSeq n c' := by
  induction h with
  | start => exact ⟨sound, toward_zero c⟩
  | @arrival n d e i now _ step ih =>
    have allowed : Allowed d (.page (.arrive i now)) := trivial
    exact ⟨(ih.1.turn allowed step).1, ih.2.arrival ih.1 step⟩
  | other _ still no_arrival step ih =>
    exact ⟨(ih.1.turn still.1.1 step).1, ih.2.other ih.1 still no_arrival step⟩

/-- The daemon has recorded an event that the page has not asked for yet. -/
def recordedOnce : Chain :=
  (turn polling (.call (.record "device_updated" .null 10 10))).getD polling

def twoAnswers : List Turn :=
  [.answer 0, .page (.arrive 0 9), .page (.save 0 true), .page (.saved 0), .page (.wake 0), .answer 0,
    .page (.arrive 0 809)]

def stage (k : ℕ) : Chain :=
  (play turn (fun _ _ => True) recordedOnce (twoAnswers.take k)).getD recordedOnce

end Main

end DashDrop.Ui.CatchingUp
