/- GID: DashDrop/Events/Hints
   source: src-tauri/src/state.rs
   anchors: []
   digest: The recovery hint of a cursor names the source its replay comes from. -/

import DashDrop.Events.Replay

set_option autoImplicit false
set_option relaxedAutoImplicit false

namespace DashDrop.Events.Hints

open DashDrop.Foundation.Numbering DashDrop.Foundation.Transitions
open DashDrop.Events.Journal DashDrop.Events.Feed DashDrop.Events.Replay

variable {Value : Type}

def hintOf : ReplaySource → RecoveryHint
  | .empty => .upToDate
  | .memoryHotWindow => .hotWindow
  | .persistedCatchUp => .persistedCatchUp
  | .resyncRequired => .resyncRequired

theorem hintOf_injective : Function.Injective hintOf := by
  intro a b h
  cases a <;> cases b <;> first | rfl | cases h

def sourceOf (request : FeedRequest) (snapshot : RuntimeEventFeedSnapshot Value) : ReplaySource :=
  if snapshot.resyncRequired then .resyncRequired
  else if request.limit = 0 ∨ (request.afterSeq = 0 ∧ request.latest = 0) ∨
      snapshot.events.isEmpty then .empty
  else if request.needsPersistedCatchUp then .persistedCatchUp
  else .memoryHotWindow

theorem runtimeEventsSince_source (app : EventState Value) (afterSeq limit : ℕ)
    (db : EventDb Value) :
    (app.runtimeEventsSince afterSeq limit db).replaySource =
      sourceOf (app.request afterSeq limit) (app.runtimeEventsSince afterSeq limit db) := by
  unfold EventState.runtimeEventsSince FeedRequest.serve
  simp only
  split
  · rfl
  · split
    · rfl
    · rfl

def currentHint (app : EventState Value) (seq : ℕ) : RecoveryHint :=
  app.recoveryHint app.runtimeEventGeneration seq app.runtimeEventSeq app.memoryOldestSeq
    (EventState.persistedOldestSeq app.runtimeEventPersistedOldestSeq)

section Coherent

variable {s : Session Value} {lo c limit : ℕ}

/-- The three marks of a coherent state: the feed starts no earlier than the journal. -/
structure Marks (s : Session Value) (lo f : ℕ) : Prop where
  memory : s.app.memoryOldestSeq = some f
  persisted : EventState.persistedOldestSeq s.app.runtimeEventPersistedOldestSeq = some lo
  ordered : 1 ≤ lo ∧ lo ≤ f ∧ f ≤ s.app.runtimeEventSeq

theorem marks_of_coherent (h : Coherent lo s) (some_event : 1 ≤ s.app.runtimeEventSeq) :
    ∃ f, Marks s lo f := by
  have hkeeps : lo ≤ max (s.app.runtimeEventSeq - 9999) 1 := h.bounded.keeps
  obtain ⟨k, hk⟩ := h.tidy.shape.boundary
  have hmarked : s.app.runtimeEventPersistedOldestSeq = lo := h.marked.trans (if_neg (by omega))
  refine ⟨s.app.runtimeEventSeq + 1 - min s.app.runtimeEventSeq 1024, h.feed.head? (by omega), ?_,
    by omega, by omega, by omega⟩
  rw [hmarked]
  exact if_neg (by omega)

theorem currentHint_eq {f : ℕ} (marks : Marks s lo f) (known : c ≤ s.app.runtimeEventSeq) :
    currentHint s.app c =
      if c = s.app.runtimeEventSeq then .upToDate
      else if f ≤ c + 1 then .hotWindow
      else if lo ≤ c + 1 then .persistedCatchUp
      else .resyncRequired := by
  obtain ⟨hlo, hf, hlast⟩ := marks.ordered
  unfold currentHint EventState.recoveryHint
  rw [if_neg (not_not.mpr rfl), marks.memory, marks.persisted]
  simp only [Option.map_some, Option.getD_some, decide_eq_true_eq]
  split_ifs <;> first | rfl | omega

theorem needsPersistedCatchUp_iff {f : ℕ} (marks : Marks s lo f) (first : 1 ≤ c)
    (served : (s.app.request c limit).marksReason = none) :
    (s.app.request c limit).needsPersistedCatchUp = true ↔ c + 1 < f := by
  unfold FeedRequest.needsPersistedCatchUp
  rw [served]
  have memory : (s.app.request c limit).memoryOldest = some f := marks.memory
  have after : (s.app.request c limit).afterSeq = c := rfl
  rw [memory, after]
  simp only [Option.map_some, Option.getD_some, decide_eq_true_eq, true_and]
  omega

theorem marksReason_eq {f : ℕ} (marks : Marks s lo f) (first : 1 ≤ c)
    (known : c ≤ s.app.runtimeEventSeq) :
    (s.app.request c limit).marksReason =
      if c + 1 < lo then some .cursorBeforeOldestAvailable else none := by
  obtain ⟨hlo, hf, hlast⟩ := marks.ordered
  have oldest : (s.app.request c limit).oldestAvailable = some lo := by
    unfold FeedRequest.oldestAvailable
    have persisted : (s.app.request c limit).persistedOldest = some lo := marks.persisted
    have after : (s.app.request c limit).afterSeq = c := rfl
    rw [after, if_neg (by omega), persisted]
    rfl
  unfold FeedRequest.marksReason
  rw [oldest]
  have after : (s.app.request c limit).afterSeq = c := rfl
  have latest : (s.app.request c limit).latest = s.app.runtimeEventSeq := rfl
  rw [after, latest, if_neg (by omega), if_neg (by omega)]
  simp only
  split_ifs <;> first | rfl | omega

theorem resync_of_behind {f : ℕ} (marks : Marks s lo f) (first : 1 ≤ c)
    (known : c ≤ s.app.runtimeEventSeq) (behind : c + 1 < lo) :
    (s.app.runtimeEventsSince c limit s.db).replaySource = .resyncRequired := by
  have reason := @marksReason_eq _ _ _ _ limit _ marks first known
  rw [if_pos behind] at reason
  unfold EventState.runtimeEventsSince FeedRequest.serve
  simp only
  rw [if_pos (.inr (by rw [reason]; rfl)), Option.getD_some, reason]
  simp [FeedRequest.respond]

theorem hint_eq_source (h : Coherent lo s) (first : 1 ≤ c) (known : c ≤ s.app.runtimeEventSeq)
    (some_room : 1 ≤ limit) :
    currentHint s.app c = hintOf (s.app.runtimeEventsSince c limit s.db).replaySource := by
  obtain ⟨f, marks⟩ := marks_of_coherent h (by omega)
  obtain ⟨hlo, hf, hlast⟩ := marks.ordered
  rw [currentHint_eq marks known]
  by_cases behind : c + 1 < lo
  · rw [resync_of_behind marks first known behind]
    split_ifs <;> first | rfl | omega
  · have serves : Serves s.app.runtimeEventGeneration c s := ⟨⟨lo, h, by omega⟩, rfl, known⟩
    obtain ⟨calm, events, _⟩ := serves.answer first some_room
    have reason := @marksReason_eq _ _ _ _ limit _ marks first known
    rw [if_neg behind] at reason
    have needs := needsPersistedCatchUp_iff marks first reason
    have empty : (s.app.runtimeEventsSince c limit s.db).events.isEmpty = true ↔
        c = s.app.runtimeEventSeq := by
      rw [List.isEmpty_iff, ← List.length_eq_zero_iff, events.length]
      omega
    have room : (s.app.request c limit).limit ≠ 0 := by
      show limit ≠ 0
      omega
    have after : (s.app.request c limit).afterSeq ≠ 0 := by
      show c ≠ 0
      omega
    rw [runtimeEventsSince_source, sourceOf, calm]
    simp only [Bool.false_eq_true, if_false, room, after, false_and, false_or, empty, needs]
    split_ifs <;> first | rfl | omega

end Coherent

/-- In every state of every run without a failed append, the hint of a cursor tells which way a
replay from it goes. -/
theorem hint_tells_replay_source {generation : String} {s : Session Value}
    (reached : Reaches sessionStep anyStep (Session.start generation) s) {seq limit : ℕ}
    (first : 1 ≤ seq) (known : seq ≤ s.app.runtimeEventSeq) (some_room : 1 ≤ limit) :
    let hint := s.app.recoveryHint s.app.runtimeEventGeneration seq s.app.runtimeEventSeq
      s.app.memoryOldestSeq (EventState.persistedOldestSeq s.app.runtimeEventPersistedOldestSeq)
    let source := (s.app.runtimeEventsSince seq limit s.db).replaySource
    (hint = .upToDate ↔ source = .empty) ∧ (hint = .hotWindow ↔ source = .memoryHotWindow) ∧
      (hint = .persistedCatchUp ↔ source = .persistedCatchUp) ∧
      (hint = .resyncRequired ↔ source = .resyncRequired) := by
  obtain ⟨lo, coherent⟩ : ∃ lo, Coherent lo s :=
    reached.keeps (I := fun u => ∃ lo, Coherent lo u) ⟨1, coherent_start generation⟩
      fun ⟨_, h⟩ _ step => h.step step
  have agrees := hint_eq_source coherent first known some_room
  unfold currentHint at agrees
  intro hint source
  have each (a : ReplaySource) : hint = hintOf a ↔ source = a := by
    rw [show hint = hintOf source from agrees]
    exact hintOf_injective.eq_iff
  exact ⟨each .empty, each .memoryHotWindow, each .persistedCatchUp, each .resyncRequired⟩

/-- After the two events of the sample, a replay from the first comes from the feed. -/
theorem sample_hint_tells :
    1 ≤ sampleAfter.app.runtimeEventSeq ∧
    (let hint := sampleAfter.app.recoveryHint sampleAfter.app.runtimeEventGeneration 1
        sampleAfter.app.runtimeEventSeq sampleAfter.app.memoryOldestSeq
        (EventState.persistedOldestSeq sampleAfter.app.runtimeEventPersistedOldestSeq)
      let source := (sampleAfter.app.runtimeEventsSince 1 10 sampleAfter.db).replaySource
      (hint = .upToDate ↔ source = .empty) ∧ (hint = .hotWindow ↔ source = .memoryHotWindow) ∧
        (hint = .persistedCatchUp ↔ source = .persistedCatchUp) ∧
        (hint = .resyncRequired ↔ source = .resyncRequired)) := by
  have run : Reaches sessionStep anyStep (Session.start "g1") sampleAfter :=
    reaches_of_play (by rfl : play _ _ _ [.record "device_updated" () 10 10,
      .save "shared-ui" "g1" 1 11, .record "device_lost" () 12 12] = some sampleAfter)
  have known : 1 ≤ sampleAfter.app.runtimeEventSeq := by decide +kernel
  exact ⟨known, hint_tells_replay_source run (by decide) known (by decide)⟩

end DashDrop.Events.Hints
