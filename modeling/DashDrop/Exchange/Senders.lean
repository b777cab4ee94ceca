/- GID: DashDrop/Exchange/Senders
   source: src-tauri/src/transport/sender.rs
   anchors: []
   digest: The file tasks of a sender, their permits and waiters, and the Ack dispatcher. -/

import DashDrop.Foundation.Slots
import DashDrop.Transport.Sender

set_option autoImplicit false
set_option relaxedAutoImplicit false

namespace DashDrop.Exchange.Senders

open DashDrop.Foundation.Oneshot DashDrop.Foundation.Slots
open DashDrop.Transport.Protocol DashDrop.Transport.Outcome
open DashDrop.Runtime.Machine (ReadFault)

/-- `max_parallel_streams.clamp(1, 32)`. -/
def maxStreams (configured : ℕ) : ℕ := max 1 (min configured 32)

/-- `routed_file_id`: the messages that may open the stream of a file. -/
def routedFileId : DashMessage → Option ℕ
  | .chunk chunk => some chunk.fileId
  | .complete complete => some complete.fileId
  | _ => none

inductive SendPhase where
  /-- Spawned, without a permit. -/
  | queued
  /-- With a permit, before the waiter is inserted. -/
  | granted
  /-- The waiter is inserted and nothing is written yet. -/
  | opening
  /-- The first message is on the wire. -/
  | writing
  /-- The stream is finished and the Ack is waited for. -/
  | awaiting
  | ended (result : TaskResult)
  deriving DecidableEq

def SendPhase.holds : SendPhase → Bool
  | .queued | .ended _ => false
  | .granted | .opening | .writing | .awaiting => true

def SendPhase.listens : SendPhase → Bool
  | .opening | .writing | .awaiting => true
  | .queued | .granted | .ended _ => false

structure SendTask where
  item : FileItem
  phase : SendPhase
  ack : Channel (Bool × Option ErrorCode)
  deriving DecidableEq

def SendTask.new (item : FileItem) : SendTask := ⟨item, .queued, .empty⟩

def SendTask.hear (v : Bool × Option ErrorCode) (task : SendTask) : SendTask :=
  { task with ack := task.ack.send v }

def SendTask.unhook (task : SendTask) : SendTask := { task with ack := task.ack.dropSender }

structure SendSide where
  permits : ℕ
  tasks : List SendTask
  ackWaiters : Owners
  dispatching : Bool
  cancelledByPeer : Bool
  dispatchError : Option ErrorCode

def SendSide.start (configured : ℕ) (items : List FileItem) : SendSide where
  permits := maxStreams configured
  tasks := items.map SendTask.new
  ackWaiters := ∅
  dispatching := true
  cancelledByPeer := false
  dispatchError := none

inductive SendMove where
  | acquire
  | register
  | write (m : DashMessage)
  | finish
  /-- The stream, the source file or a write fails. -/
  | fail (text : String)
  /-- The wait for the Ack ends; `timer` says that its 30 s have passed. -/
  | settle (timer : Bool)
  deriving DecidableEq

def SendSide.removeWaiter (s : SendSide) (fileId : ℕ) : SendSide :=
  { s with
    tasks := adjust (fun i => s.ackWaiters.lookup fileId = some i) SendTask.unhook s.tasks
    ackWaiters := s.ackWaiters.erase fileId }

def SendSide.insertWaiter (s : SendSide) (i : ℕ) (task : SendTask) : SendSide :=
  let s' := s.removeWaiter task.item.fileId
  { s' with
    tasks := s'.tasks.set i { task with phase := .opening, ack := .empty }
    ackWaiters := s'.ackWaiters.insert task.item.fileId i }

def SendSide.put (s : SendSide) (i : ℕ) (task : SendTask) : SendSide :=
  { s with tasks := s.tasks.set i task }

def SendSide.endTask (s : SendSide) (i : ℕ) (task : SendTask) (result : TaskResult) : SendSide :=
  { s.put i { task with phase := .ended result } with permits := s.permits + 1 }

def SendSide.settle (s : SendSide) (i : ℕ) (task : SendTask) (timer : Bool) : Option SendSide :=
  (task.ack.wait timer).map fun (ack, heard) =>
    let task' := { task with ack := ack }
    match heard with
    | .value (ok, reason) => s.endTask i task' (.returned ⟨task.item.fileId, ok, reason⟩)
    | .senderGone =>
        s.endTask i task' (.returned ⟨task.item.fileId, false,
          some (.protocol "ack channel closed")⟩)
    | .timedOut =>
        (s.removeWaiter task.item.fileId).endTask i task' (.returned ⟨task.item.fileId, false,
          some (.protocol "ack timeout")⟩)

/-- One step of task `i`, with the stream it opens towards the receiver. -/
def SendSide.advance (s : SendSide) (i : ℕ) (task : SendTask) :
    SendMove → Option (SendSide × List DashMessage)
  | .acquire =>
      if task.phase = .queued ∧ 0 < s.permits then
        some ({ s.put i { task with phase := .granted } with permits := s.permits - 1 }, [])
      else none
  | .register => if task.phase = .granted then some (s.insertWaiter i task, []) else none
  | .write m =>
      if task.phase = .opening ∧ routedFileId m = some task.item.fileId then
        some (s.put i { task with phase := .writing }, [m])
      else none
  | .finish =>
      if task.phase = .writing then some (s.put i { task with phase := .awaiting }, []) else none
  | .fail text =>
      if task.phase = .opening ∨ task.phase = .writing then
        some ((s.removeWaiter task.item.fileId).endTask i task (.errored text), [])
      else none
  | .settle timer =>
      if task.phase = .awaiting then (s.settle i task timer).map fun s' => (s', []) else none

def SendSide.step (s : SendSide) (i : ℕ) (move : SendMove) :
    Option (SendSide × List DashMessage) :=
  s.tasks[i]?.bind fun task => s.advance i task move

/-- `waiters.drain()` with one answer for all, and the end of the dispatcher. -/
def SendSide.drain (s : SendSide) (reason : ErrorCode) : SendSide :=
  { s with
    tasks := adjust s.ackWaiters.has (SendTask.hear (false, some reason)) s.tasks
    ackWaiters := ∅
    dispatching := false }

def SendSide.acknowledge (s : SendSide) (ack : AckPayload) : SendSide :=
  match s.ackWaiters.lookup ack.fileId with
  | some i =>
      { s with
        tasks := adjust (fun j => j = i) (SendTask.hear (ack.ok, ack.reason)) s.tasks
        ackWaiters := s.ackWaiters.erase ack.fileId }
  | none => s

def SendSide.dispatch (s : SendSide) : Except ReadFault DashMessage → SendSide
  | .ok (.ack ack) => s.acknowledge ack
  | .ok (.cancel cancel) =>
      match cancel.reason with
      | .userCancelled => { s.drain .cancelled with cancelledByPeer := true }
      | .error error => { s.drain error with cancelledByPeer := true, dispatchError := some error }
  | .ok _ => s
  | .error fault =>
      let reason := .protocol ("ack dispatcher read failed: " ++ fault.display)
      { s.drain reason with dispatchError := some reason }

/-- `accept_uni` fails once the connection is gone. -/
def SendSide.acceptFailed (s : SendSide) (cause : String) : SendSide :=
  let reason := .protocol ("ack dispatcher accept failed: " ++ cause)
  { s.drain reason with dispatchError := some reason }

end DashDrop.Exchange.Senders
