/- GID: DashDrop/History/Progress
   source: src-tauri/src/db.rs, src-tauri/src/persistence_progress.rs
   anchors: []
   digest: The history table and the worker that coalesces the progress of transfers. -/

import Mathlib.Logic.Function.Basic
import DashDrop.Runtime.State

set_option autoImplicit false
set_option relaxedAutoImplicit false

namespace DashDrop.History.Progress

open DashDrop.Runtime.State

def statusText : TransferStatus → String
  | .draft => "Draft"
  | .pendingAccept => "PendingAccept"
  | .transferring => "Transferring"
  | .completed => "Completed"
  | .partialCompleted => "PartialCompleted"
  | .rejected => "Rejected"
  | .cancelledBySender => "CancelledBySender"
  | .cancelledByReceiver => "CancelledByReceiver"
  | .failed => "Failed"

def isTerminalStatusStr (status : String) : Bool :=
  status = "Completed" ∨ status = "PartialCompleted" ∨ status = "Rejected" ∨
    status = "CancelledBySender" ∨ status = "CancelledByReceiver" ∨ status = "Failed"

/-- A row of `transfers_history`. -/
structure HistoryRow where
  direction : TransferDirection
  peerFingerprint : String
  peerName : String
  items : List FileItemMeta
  status : String
  bytesTransferred : ℕ
  totalBytes : ℕ
  revision : ℕ
  startedAt : ℕ
  endedAt : ℕ
  reasonCode : Option String
  error : Option String
  deriving DecidableEq

abbrev HistoryTable := String → Option HistoryRow

def HistoryRow.ofTask (unixSecs : ℕ) (task : TransferTask) : HistoryRow where
  direction := task.direction
  peerFingerprint := task.peerFingerprint
  peerName := task.peerName
  items := task.items
  status := statusText task.status
  bytesTransferred := task.bytesTransferred
  totalBytes := task.totalBytes
  revision := task.revision
  startedAt := task.startedAtUnix
  endedAt := task.endedAtUnix.getD unixSecs
  reasonCode := task.terminalReasonCode
  error := task.error

def shouldPersistTransfer (history : HistoryTable) (task : TransferTask) : Bool :=
  match history task.id with
  | none => true
  | some existing =>
      if task.revision > existing.revision then true
      else if task.revision < existing.revision then false
      else if isTerminalStatusStr existing.status ∧ ¬ task.status.isTerminal then false
      else task.bytesTransferred ≥ existing.bytesTransferred

def saveTransfer (unixSecs : ℕ) (task : TransferTask) (history : HistoryTable) : HistoryTable :=
  if shouldPersistTransfer history task then
    Function.update history task.id (some (.ofTask unixSecs task))
  else history

structure Policy where
  flushInterval : ℕ
  flushThresholdBytes : ℕ
  deriving DecidableEq

/-- `TransferProgressPersistence::new`; times are in milliseconds. -/
def Policy.standard : Policy := ⟨3000, 32 * 1024 * 1024⟩

structure PendingTransfer where
  latest : TransferTask
  lastPersistedBytes : ℕ
  deadline : Option ℕ
  deriving DecidableEq

/-- The two clocks that a step reads. -/
structure Clock where
  instant : ℕ
  unixSecs : ℕ
  deriving DecidableEq

/-- The table, the pending map, and for each transfer the snapshot that the worker wrote last. -/
structure Worker where
  history : HistoryTable
  pending : String → Option PendingTransfer
  written : String → Option TransferTask

def progressSnapshot (task : TransferTask) : TransferTask :=
  { task with sourcePaths := none, sourcePathByFileId := none, conn := none }

def isNewerThan (current candidate : TransferTask) : Bool :=
  candidate.revision > current.revision ∨
    (candidate.revision = current.revision ∧
      candidate.bytesTransferred ≥ current.bytesTransferred)

namespace Worker

def start (history : HistoryTable) : Worker := ⟨history, fun _ => none, fun _ => none⟩

def remove (id : String) (worker : Worker) : Worker :=
  { worker with pending := Function.update worker.pending id none }

def insert (id : String) (entry : PendingTransfer) (worker : Worker) : Worker :=
  { worker with pending := Function.update worker.pending id (some entry) }

def persistTask (clock : Clock) (ok : Bool) (task : TransferTask) (worker : Worker) : Worker :=
  if ok then { worker with
    history := saveTransfer clock.unixSecs task worker.history
    written := Function.update worker.written task.id (some task) }
  else worker

def flushTransferById (clock : Clock) (ok : Bool) (id : String) (worker : Worker) : Worker :=
  match worker.pending id with
  | none => worker
  | some entry =>
      let flushed := (worker.remove id).persistTask clock ok entry.latest
      if entry.latest.status.isTerminal then flushed
      else flushed.insert id
        { entry with lastPersistedBytes := entry.latest.bytesTransferred, deadline := none }

/-- The entry after a snapshot that is not terminal; `none` where it is out of date. -/
def coalesce (policy : Policy) (now : ℕ) (task : TransferTask) (entry : Option PendingTransfer) :
    Option PendingTransfer :=
  match entry with
  | some entry =>
      if isNewerThan entry.latest task then some { entry with
        latest := task
        deadline := if task.bytesTransferred > entry.lastPersistedBytes then
          some (now + policy.flushInterval) else entry.deadline }
      else none
  | none => some ⟨task, 0, some (now + policy.flushInterval)⟩

/-- `Command::Schedule`. -/
def schedule (policy : Policy) (clock : Clock) (ok : Bool) (task : TransferTask) (worker : Worker) :
    Worker :=
  if task.status.isTerminal then
    ((worker.remove task.id).persistTask clock ok task).remove task.id
  else
    match coalesce policy clock.instant task (worker.pending task.id) with
    | none => worker
    | some entry =>
        let queued := worker.insert task.id entry
        if entry.latest.bytesTransferred - entry.lastPersistedBytes ≥ policy.flushThresholdBytes then
          queued.flushTransferById clock ok task.id
        else queued

/-- `Command::FlushNow`. -/
def flushNow (clock : Clock) (ok : Bool) (task : TransferTask) (worker : Worker) : Worker :=
  (worker.remove task.id).persistTask clock ok task

/-- The entries are flushed one after the other, each with its own write. -/
def flushEntries (clock : Clock) (ok : String → Bool) (ids : List String) (worker : Worker) :
    Worker :=
  ids.foldl (fun worker id => worker.flushTransferById clock (ok id) id) worker

def due (now : ℕ) (worker : Worker) (id : String) : Bool :=
  ((worker.pending id).bind PendingTransfer.deadline).any (· ≤ now)

end Worker

section Frame

variable {worker : Worker} {clock : Clock} {ok : Bool} {id other : String} {task : TransferTask}

theorem saveTransfer_of_ne {history : HistoryTable} {unixSecs : ℕ} (ne : id ≠ task.id) :
    saveTransfer unixSecs task history id = history id := by
  unfold saveTransfer
  split_ifs
  · exact Function.update_of_ne ne _ _
  · rfl

@[simp]
theorem pending_persistTask :
    (worker.persistTask clock ok task).pending = worker.pending := by
  unfold Worker.persistTask
  split_ifs <;> rfl

theorem history_persistTask_of_ne (ne : id ≠ task.id) :
    (worker.persistTask clock ok task).history id = worker.history id := by
  unfold Worker.persistTask
  split_ifs
  · exact saveTransfer_of_ne ne
  · rfl

theorem written_persistTask_of_ne (ne : id ≠ task.id) :
    (worker.persistTask clock ok task).written id = worker.written id := by
  unfold Worker.persistTask
  split_ifs
  · exact Function.update_of_ne ne _ _
  · rfl

theorem pending_remove_of_ne (ne : id ≠ other) :
    (worker.remove other).pending id = worker.pending id :=
  Function.update_of_ne ne _ _

theorem pending_insert_of_ne {entry : PendingTransfer} (ne : id ≠ other) :
    (worker.insert other entry).pending id = worker.pending id :=
  Function.update_of_ne ne _ _

@[simp]
theorem pending_remove_self : (worker.remove id).pending id = none := Function.update_self ..

@[simp]
theorem pending_insert_self {entry : PendingTransfer} :
    (worker.insert id entry).pending id = some entry := Function.update_self ..

variable {policy : Policy}

theorem schedule_terminal (closed : task.status.isTerminal = true) :
    worker.schedule policy clock ok task =
      ((worker.remove task.id).persistTask clock ok task).remove task.id :=
  if_pos closed

theorem coalesce_latest {now : ℕ} {entry : Option PendingTransfer} {next : PendingTransfer}
    (made : Worker.coalesce policy now task entry = some next) : next.latest = task := by
  unfold Worker.coalesce at made
  split at made
  · simp only [Option.ite_none_right_eq_some, Option.some.injEq] at made
    exact made.2 ▸ rfl
  · exact Option.some.inj made ▸ rfl

theorem schedule_behind (open_ : task.status.isTerminal = false)
    (behind : Worker.coalesce policy clock.instant task (worker.pending task.id) = none) :
    worker.schedule policy clock ok task = worker := by
  unfold Worker.schedule
  rw [if_neg (by simp [open_]), behind]

theorem schedule_queued {entry : PendingTransfer} (open_ : task.status.isTerminal = false)
    (queued : Worker.coalesce policy clock.instant task (worker.pending task.id) = some entry) :
    worker.schedule policy clock ok task =
      if entry.latest.bytesTransferred - entry.lastPersistedBytes ≥ policy.flushThresholdBytes then
        (worker.insert task.id entry).flushTransferById clock ok task.id
      else worker.insert task.id entry := by
  unfold Worker.schedule
  rw [if_neg (by simp [open_]), queued]

theorem flushTransferById_open {entry : PendingTransfer} (queued : worker.pending id = some entry)
    (open_ : entry.latest.status.isTerminal = false) :
    worker.flushTransferById clock ok id =
      ((worker.remove id).persistTask clock ok entry.latest).insert id
        { entry with
          lastPersistedBytes := entry.latest.bytesTransferred
          deadline := none } := by
  unfold Worker.flushTransferById
  simp [queued, open_]

end Frame

end DashDrop.History.Progress
