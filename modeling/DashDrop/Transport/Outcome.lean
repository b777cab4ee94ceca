/- GID: DashDrop/Transport/Outcome
   source: src-tauri/src/transport/sender.rs, src-tauri/src/transport/receiver.rs
   anchors: []
   digest: How both ends turn the results of their file tasks into a transfer outcome. -/

import DashDrop.Transport.Protocol

set_option autoImplicit false
set_option relaxedAutoImplicit false

namespace DashDrop.Transport.Outcome

open DashDrop.Transport.Protocol

/-- `(file_id, ok, reason)` as a file task returns it. -/
structure AckResult where
  fileId : ℕ
  ok : Bool
  reason : Option ErrorCode
  deriving DecidableEq

/-- What awaiting the handle of a file task yields. -/
inductive TaskResult where
  | returned (ack : AckResult)
  | errored (text : String)
  | panicked
  deriving DecidableEq

/-- Task errors and join errors are logged and leave nothing behind. -/
def TaskResult.ack? : TaskResult → Option AckResult
  | .returned ack => some ack
  | .errored _ | .panicked => none

def itemName (items : List FileItem) (fileId : ℕ) : String :=
  ((items.find? fun i => i.fileId == fileId).map FileItem.name).getD ""

def failedFile (items : List FileItem) (ack : AckResult) : FailedFile :=
  ⟨ack.fileId, itemName items ack.fileId, ack.reason.getD (.protocol "unknown")⟩

def tally (items : List FileItem) : List AckResult → ℕ × List FailedFile
  | [] => (0, [])
  | ack :: rest =>
      let (successes, failed) := tally items rest
      if ack.ok then (successes + 1, failed) else (successes, failedFile items ack :: failed)

theorem tally_eq (items : List FileItem) (acks : List AckResult) :
    tally items acks = ((acks.filter AckResult.ok).length,
      (acks.filter fun a => !a.ok).map (failedFile items)) := by
  induction acks with
  | nil => rfl
  | cons a acks ih =>
    cases h : a.ok <;> simp [tally, ih, h]

/-- `determine_outcome` of the sender. -/
def determineOutcome (cancelledByPeer : Bool) (ackResults : List AckResult)
    (items : List FileItem) (dispatchError : Option ErrorCode) : TransferOutcome :=
  match dispatchError with
  | some error => .failed error
  | none =>
      let (successes, failed) := tally items ackResults
      if cancelledByPeer then .cancelledByReceiver
      else if failed.isEmpty then .success
      else if successes > 0 then .partialSuccess failed
      else .failed (.protocol "all files failed")

/-- The end of the sender's `send_files`: join the tasks, then decide. -/
def sendOutcome (cancelledByPeer : Bool) (results : List TaskResult) (items : List FileItem)
    (dispatchError : Option ErrorCode) : TransferOutcome :=
  determineOutcome cancelledByPeer (results.filterMap TaskResult.ack?) items dispatchError

/-- The end of the receiver's `receive_files`. -/
def receiveOutcome (cancelledByPeer : Bool) (results : List TaskResult)
    (items : List FileItem) : TransferOutcome :=
  let (successes, failed) := tally items (results.filterMap TaskResult.ack?)
  if cancelledByPeer then .cancelledBySender
  else if failed.isEmpty then .success
  else if successes > 0 then .partialSuccess failed
  else .failed (.protocol "all files failed")

/-- How the work on one file ends: an acknowledgement, an error or a panic. -/
inductive FileEnd where
  | acked (ok : Bool) (reason : Option ErrorCode)
  | errored (text : String)
  | panicked
  deriving DecidableEq

/-- The sender's task hands on what `send_one_file` returns. -/
def FileEnd.sent (item : FileItem) : FileEnd → TaskResult
  | .acked ok reason => .returned ⟨item.fileId, ok, reason⟩
  | .errored text => .errored text
  | .panicked => .panicked

/-- The receiver's task turns an error of `receive_one_file` into a negative result. -/
def FileEnd.received (item : FileItem) : FileEnd → TaskResult
  | .acked ok reason => .returned ⟨item.fileId, ok, reason⟩
  | .errored text => .returned ⟨item.fileId, false, some (.protocol text)⟩
  | .panicked => .panicked

/-- `send_files` over the offered items, each with the end of its task. -/
def sendFilesOutcome (cancelledByPeer : Bool) (dispatchError : Option ErrorCode)
    (files : List (FileItem × FileEnd)) : TransferOutcome :=
  sendOutcome cancelledByPeer (files.map fun e => e.2.sent e.1) (files.map Prod.fst)
    dispatchError

/-- `receive_files` over the offered items, each with the end of its task. -/
def receiveFilesOutcome (cancelledByPeer : Bool) (files : List (FileItem × FileEnd)) :
    TransferOutcome :=
  receiveOutcome cancelledByPeer (files.map fun e => e.2.received e.1) (files.map Prod.fst)

end DashDrop.Transport.Outcome
