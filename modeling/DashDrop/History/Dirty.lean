/- GID: DashDrop/History/Dirty
   source: src-tauri/src/persistence_progress.rs
   anchors: []
   digest: When progress that is not yet written keeps a deadline. -/

import DashDrop.Foundation.Transitions
import DashDrop.History.Progress

set_option autoImplicit false
set_option relaxedAutoImplicit false

namespace DashDrop.History.Dirty

open DashDrop.Foundation.Transitions
open DashDrop.Runtime.State DashDrop.History.Progress

/-- A command of the worker, or entries whose deadline has passed. Every write may fail. -/
inductive WorkerStep where
  | schedule (clock : Clock) (ok : Bool) (task : TransferTask)
  | flushNow (clock : Clock) (ok : Bool) (task : TransferTask)
  | expire (clock : Clock) (ok : String → Bool) (ids : List String)

def workerStep (policy : Policy) (worker : Worker) : WorkerStep → Option Worker
  | .schedule clock ok task => some (worker.schedule policy clock ok task)
  | .flushNow clock ok task => some (worker.flushNow clock ok task)
  | .expire clock ok ids =>
      if ids.all (worker.due clock.instant) then some (worker.flushEntries clock ok ids) else none

def writtenBytes (worker : Worker) (id : String) : ℕ :=
  ((worker.written id).map TransferTask.bytesTransferred).getD 0

/-- Every entry that is not written has a deadline and is less than the threshold ahead. -/
def NothingForgotten (policy : Policy) (worker : Worker) : Prop :=
  ∀ id entry, worker.pending id = some entry → worker.written id ≠ some entry.latest →
    entry.deadline.isSome = true ∧
      entry.latest.bytesTransferred < writtenBytes worker id + policy.flushThresholdBytes

/-- A snapshot that replaces an entry without a deadline brings more bytes than were written, or
is the one that was written. -/
def Advances (policy : Policy) (worker : Worker) (task : TransferTask) : Prop :=
  ∀ entry, worker.pending task.id = some entry → isNewerThan entry.latest task = true →
    entry.deadline.isSome = true ∨ entry.lastPersistedBytes < task.bytesTransferred ∨
      task = entry.latest ∨ policy.flushThresholdBytes = 0

/-- No write of a pending entry fails, and every snapshot advances its entry. -/
def Careful (policy : Policy) (worker : Worker) : WorkerStep → Prop
  | .schedule _ ok task =>
      task.status.isTerminal = true ∨ (ok = true ∧ Advances policy worker task)
  | .flushNow _ _ _ => True
  | .expire _ ok ids => ∀ id ∈ ids, ok id = true

/-- What holds of an entry, with the bytes that were written of its transfer. -/
structure Tracked (policy : Policy) (id : String) (written : Option TransferTask)
    (entry : PendingTransfer) : Prop where
  named : entry.latest.id = id
  moving : entry.latest.status.isTerminal = false
  persisted : entry.lastPersistedBytes ≤ (written.map TransferTask.bytesTransferred).getD 0
  tracked : written = some entry.latest ∨ (entry.deadline.isSome = true ∧
    entry.latest.bytesTransferred < entry.lastPersistedBytes + policy.flushThresholdBytes)

def AllTracked (policy : Policy) (worker : Worker) : Prop :=
  ∀ id entry, worker.pending id = some entry → Tracked policy id (worker.written id) entry

section Steps

variable {policy : Policy} {worker : Worker} {clock : Clock} {ok : Bool} {task : TransferTask}
  {id : String}

theorem forgets_nothing (h : AllTracked policy worker) : NothingForgotten policy worker := by
  intro id entry queued unwritten
  have tracked := h id entry queued
  rcases tracked.tracked with written | ⟨deadline, behind⟩
  · exact absurd written unwritten
  · refine ⟨deadline, ?_⟩
    have le := tracked.persisted
    show _ < (Option.map _ (worker.written id)).getD 0 + _
    omega

theorem tracked_dropped (h : AllTracked policy worker) :
    AllTracked policy ((worker.remove task.id).persistTask clock ok task) := by
  intro id entry queued
  rw [pending_persistTask] at queued
  by_cases same : id = task.id
  · subst same
    simp at queued
  · rw [pending_remove_of_ne same] at queued
    rw [written_persistTask_of_ne same]
    exact h id entry queued

theorem tracked_remove (h : AllTracked policy worker) : AllTracked policy (worker.remove id) := by
  intro other entry queued
  by_cases same : other = id
  · subst same
    simp at queued
  · rw [pending_remove_of_ne same] at queued
    exact h other entry queued

theorem tracked_flush {entry : PendingTransfer} (queued : worker.pending id = some entry)
    (named : entry.latest.id = id) (moving : entry.latest.status.isTerminal = false)
    (others : ∀ other e, other ≠ id → worker.pending other = some e →
      Tracked policy other (worker.written other) e) :
    AllTracked policy (worker.flushTransferById clock true id) := by
  rw [flushTransferById_open queued moving]
  intro other e listed
  by_cases same : other = id
  · subst same
    rw [pending_insert_self] at listed
    obtain rfl := Option.some.inj listed
    have written : (((worker.remove other).persistTask clock true entry.latest).insert other
        { entry with
          lastPersistedBytes := entry.latest.bytesTransferred
          deadline := none }).written other = some entry.latest := by
      show Function.update worker.written entry.latest.id (some entry.latest) other = _
      rw [named, Function.update_self]
    rw [written]
    exact ⟨named, moving, le_rfl, .inl rfl⟩
  · rw [pending_insert_of_ne same, pending_persistTask, pending_remove_of_ne same] at listed
    have written : (((worker.remove id).persistTask clock true entry.latest).insert id
        { entry with
          lastPersistedBytes := entry.latest.bytesTransferred
          deadline := none }).written other = worker.written other := by
      show ((worker.remove id).persistTask clock true entry.latest).written other = _
      exact written_persistTask_of_ne (named.symm ▸ same)
    rw [written]
    exact others other e same listed

theorem tracked_expire {ids : List String} {ok : String → Bool} (h : AllTracked policy worker)
    (succeed : ∀ id ∈ ids, ok id = true) : AllTracked policy (worker.flushEntries clock ok ids) := by
  induction ids generalizing worker with
  | nil => exact h
  | cons id rest ih =>
    refine ih ?_ fun other mem => succeed other (List.mem_cons_of_mem _ mem)
    show AllTracked policy (worker.flushTransferById clock (ok id) id)
    rw [succeed id List.mem_cons_self]
    cases queued : worker.pending id with
    | none =>
      have same : worker.flushTransferById clock true id = worker := by
        simp [Worker.flushTransferById, queued]
      rw [same]
      exact h
    | some entry =>
      have tracked := h id entry queued
      exact tracked_flush queued tracked.named tracked.moving fun other e _ listed =>
        h other e listed

theorem tracked_coalesce {next : PendingTransfer} (h : AllTracked policy worker)
    (moving : task.status.isTerminal = false) (advances : Advances policy worker task)
    (made : Worker.coalesce policy clock.instant task (worker.pending task.id) = some next)
    (below : ¬ next.latest.bytesTransferred - next.lastPersistedBytes ≥ policy.flushThresholdBytes) :
    Tracked policy task.id (worker.written task.id) next := by
  have latest := coalesce_latest made
  have ahead : next.latest.bytesTransferred <
      next.lastPersistedBytes + policy.flushThresholdBytes := by
    omega
  cases queued : worker.pending task.id with
  | none =>
    rw [queued] at made
    obtain rfl := Option.some.inj made
    exact ⟨rfl, moving, Nat.zero_le _, .inr ⟨rfl, ahead⟩⟩
  | some entry =>
    have tracked := h task.id entry queued
    rw [queued] at made
    simp only [Worker.coalesce, Option.ite_none_right_eq_some, Option.some.injEq] at made
    obtain ⟨newer, rfl⟩ := made
    refine ⟨rfl, moving, tracked.persisted, ?_⟩
    by_cases grown : task.bytesTransferred > entry.lastPersistedBytes
    · exact .inr ⟨by simp [grown], ahead⟩
    · simp only [if_neg grown]
      rcases advances entry queued newer with deadline | more | same | zero
      · exact .inr ⟨deadline, ahead⟩
      · exact absurd more grown
      · rcases tracked.tracked with written | ⟨deadline, _⟩
        · exact .inl (same ▸ written)
        · exact .inr ⟨deadline, ahead⟩
      · rw [zero] at below
        exact absurd (Nat.zero_le _) below

theorem tracked_schedule (h : AllTracked policy worker)
    (careful : Careful policy worker (.schedule clock ok task)) :
    AllTracked policy (worker.schedule policy clock ok task) := by
  cases closed : task.status.isTerminal with
  | true =>
    rw [schedule_terminal closed]
    exact tracked_remove (tracked_dropped h)
  | false =>
    obtain ⟨rfl, advances⟩ := careful.resolve_left (by simp [closed])
    cases made : Worker.coalesce policy clock.instant task (worker.pending task.id) with
    | none =>
      rw [schedule_behind closed made]
      exact h
    | some next =>
      have latest := coalesce_latest made
      rw [schedule_queued closed made]
      split_ifs with reached
      · refine tracked_flush pending_insert_self (by rw [latest]) (by rw [latest]; exact closed) ?_
        intro other e ne listed
        rw [pending_insert_of_ne ne] at listed
        exact h other e listed
      · intro other e listed
        by_cases same : other = task.id
        · subst same
          rw [pending_insert_self] at listed
          obtain rfl := Option.some.inj listed
          have tracked := tracked_coalesce h closed advances made reached
          exact tracked
        · rw [pending_insert_of_ne same] at listed
          exact h other e listed

theorem tracked_step {next : Worker} {l : WorkerStep} (h : AllTracked policy worker)
    (careful : Careful policy worker l) (step : workerStep policy worker l = some next) :
    AllTracked policy next := by
  cases l with
  | schedule clock ok task =>
    obtain rfl := Option.some.inj step
    exact tracked_schedule h careful
  | flushNow clock ok task =>
    obtain rfl := Option.some.inj step
    exact tracked_dropped h
  | expire clock ok ids =>
    simp only [workerStep] at step
    split_ifs at step
    obtain rfl := Option.some.inj step
    exact tracked_expire h careful

/-- In every run in which no write of a pending entry fails and every snapshot advances its
entry, nothing is forgotten. -/
theorem progress_not_forgotten {history : HistoryTable}
    (h : Reaches (workerStep policy) (Careful policy) (.start history) worker) :
    NothingForgotten policy worker := by
  have tracked : AllTracked policy worker := by
    refine h.keeps (I := AllTracked policy) ?_ fun holds careful step =>
      tracked_step holds careful step
    intro id entry queued
    cases queued
  exact forgets_nothing tracked

end Steps

def sampleProgress (revision bytes : ℕ) : TransferTask :=
  ⟨"t", .receive, "fp", "Laptop", [], .transferring, bytes, 1000, revision, 1, none, none, none,
    none, none, none, none⟩

theorem requeued_progress_kept :
    ∃ worker, Reaches (workerStep .standard) (Careful .standard) (.start fun _ => none) worker ∧
      worker.written "t" = some (sampleProgress 1 8) ∧
      worker.pending "t" = some ⟨sampleProgress 2 20, 8, some 7000⟩ ∧
      NothingForgotten .standard worker := by
  have queued : Reaches (workerStep .standard) (Careful .standard) (.start fun _ => none)
      ((Worker.start fun _ => none).schedule .standard ⟨5, 1⟩ true (sampleProgress 1 8)) :=
    .single ⟨.schedule ⟨5, 1⟩ true (sampleProgress 1 8),
      .inr ⟨rfl, fun entry queued => by cases queued⟩, rfl⟩
  have written := queued.tail ⟨.expire ⟨3005, 4⟩ (fun _ => true) ["t"], fun _ _ => rfl, rfl⟩
  have requeued := written.tail ⟨.schedule ⟨4000, 5⟩ true (sampleProgress 2 20),
    .inr ⟨rfl, fun entry listed newer => by
      cases listed
      exact .inr (.inl (by decide))⟩, rfl⟩
  exact ⟨_, requeued, rfl, rfl, progress_not_forgotten requeued⟩

/-- The write at the deadline fails: the entry stays, without a deadline, and nothing was ever
written of it. -/
theorem failed_write_forgets_progress :
    ∃ worker, Reaches (workerStep .standard) anyStep (.start fun _ => none) worker ∧
      worker.pending "t" = some ⟨sampleProgress 1 8, 8, none⟩ ∧ worker.written "t" = none ∧
      ¬ NothingForgotten .standard worker := by
  have queued : Reaches (workerStep .standard) anyStep (.start fun _ => none)
      ((Worker.start fun _ => none).schedule .standard ⟨5, 1⟩ true (sampleProgress 1 8)) :=
    .single ⟨.schedule ⟨5, 1⟩ true (sampleProgress 1 8), trivial, rfl⟩
  refine ⟨_, queued.tail ⟨.expire ⟨3005, 4⟩ (fun _ => false) ["t"], trivial, rfl⟩, rfl, rfl, ?_⟩
  intro kept
  have unwritten : (none : Option TransferTask) ≠ some (sampleProgress 1 8) := by simp
  have deadline := (kept "t" ⟨sampleProgress 1 8, 8, none⟩ rfl unwritten).1
  cases deadline

end DashDrop.History.Dirty
