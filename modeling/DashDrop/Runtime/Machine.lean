/- GID: DashDrop/Runtime/Machine
   source: src-tauri/src/state.rs, src-tauri/src/transport/receiver.rs,
     src-tauri/src/transport/sender.rs, src-tauri/src/core_service.rs
   anchors: []
   digest: The shared state and the atomic sections that the transfer code runs on it. -/

import DashDrop.Foundation.Interleaving
import DashDrop.Foundation.Oneshot
import DashDrop.Runtime.State
import DashDrop.Transport.Outcome

set_option autoImplicit false
set_option relaxedAutoImplicit false

namespace DashDrop.Runtime.Machine

open DashDrop.Foundation.UnixPath DashDrop.Foundation.FileTree DashDrop.Foundation.Oneshot
open DashDrop.Foundation.Program DashDrop.Foundation.Interleaving
open DashDrop.Transport.Protocol DashDrop.Transport.Outcome DashDrop.Runtime.State

/-- The events handed to the host, with the fields of their payloads. -/
inductive HostEvent where
  | transferStarted (transferId peerFp peerName : String) (items : List FileItem)
      (totalSize revision : ℕ)
  | transferIncoming (transferId : String) (notificationId : Uuid) (senderName senderFp : String)
      (trusted : Bool) (items : List FileItem) (totalSize revision : ℕ)
  | transferAccepted (transferId : String) (revision : ℕ)
  | transferProgress (transferId : String) (bytesTransferred totalBytes revision : ℕ)
  | transferComplete (transferId : String) (revision : ℕ)
  | transferPartly (transferId : String) (succeededCount : ℕ) (failed : List FailedFile)
      (revision : ℕ)
  | transferTerminal (transferId : String) (status : TransferStatus)
      (reasonCode terminalCause : String) (revision : ℕ) (phase : Option String)
  | transferError (transferId : Option String) (reasonCode terminalCause phase : String)
      (revision : ℕ) (detail : Option String)
  | identityMismatch (expectedFp actualFp phase : String)
  deriving DecidableEq

/-- The history of a run, kept only to state properties of it. -/
inductive Event where
  /-- A task was put into `transfers`. -/
  | registered (thread : ℕ) (transferId : String)
  /-- A section decided that `record_transfer_terminal` will be called. -/
  | owes (thread : ℕ) (transferId : String)
  | recorded (thread : ℕ) (transferId : String)
  /-- `update_transfer_status` set the status. -/
  | moved (thread : ℕ) (transferId : String) (status : TransferStatus)
  /-- `cancel_transfer_inner` set the status of a task with this connection. -/
  | cancelled (thread : ℕ) (transferId : String) (status : TransferStatus) (conn : Option ℕ)
  | connected (thread : ℕ) (conn : ℕ)
  /-- The wait for Accept or Reject ended with a message or with the timer. -/
  | answered (thread : ℕ) (conn : ℕ)
  | wrote (thread : ℕ) (conn : ℕ) (transferId : String) (message : DashMessage)
  | emitted (thread : ℕ) (event : HostEvent)
  /-- The maintenance loop took its snapshot, or dropped the senders missing from it. -/
  | surveyed (thread : ℕ) (pendingIds : List String)
  | retained (thread : ℕ)
  /-- A sender was stored in `pending_accepts`. -/
  | opened (thread : ℕ) (transferId : String) (chan : ℕ)
  /-- A `pending_accepts` sender was taken out of the map. -/
  | took (thread : ℕ) (transferId : String) (chan : ℕ)
  | sent (thread : ℕ) (chan : ℕ) (value : Bool)
  | observed (thread : ℕ) (chan : ℕ) (result : Wait Bool)
  deriving DecidableEq

structure Connection where
  /-- The fingerprint of the certificate the peer presented, if any. -/
  peerFp : Option String
  closed : Bool
  deriving DecidableEq

structure Disk where
  mountPoint : String
  availableSpace : ℕ
  deriving DecidableEq

structure World where
  transfers : AList (fun _ : String => TransferTask)
  pendingAccepts : AList (fun _ : String => ℕ)
  notifications : AList (fun _ : String => IncomingRequestNotification)
  metrics : TransferMetrics
  config : AppConfig
  trustedPeers : AList (fun _ : String => TrustLevel)
  /-- `RuntimeHost::download_dir` and the `HOME` variable. -/
  hostDownloadDir : Option String
  home : Option String
  channels : List (Channel Bool)
  conns : List Connection
  fs : Tree
  /-- Every entry of the file tree that was created, written, renamed or removed. -/
  touched : List Key
  nextUuid : Uuid
  journal : List Event

def World.start (config : AppConfig) : World where
  transfers := ∅
  pendingAccepts := ∅
  notifications := ∅
  metrics := ⟨0, 0, 0, 0, 0, 0, 0, 0⟩
  config := config
  trustedPeers := ∅
  hostDownloadDir := none
  home := none
  channels := []
  conns := []
  fs := ∅
  touched := []
  nextUuid := 0
  journal := []

inductive WriteFault where
  | serialize (cause : String)
  | tooLarge (bytes : ℕ)
  | len (cause : String)
  | body (cause : String)
  deriving DecidableEq

/-- The error chain of `write_message`. -/
def WriteFault.display : WriteFault → String
  | .serialize c => "CBOR serialize: " ++ c
  | .tooLarge n => "message too large to send: " ++ toString n ++ " bytes"
  | .len c => "write len: " ++ c
  | .body c => "write body: " ++ c

inductive ReadFault where
  | len (cause : String)
  | tooLarge (bytes : ℕ)
  | body (cause : String)
  | decode (cause : String)
  deriving DecidableEq

/-- The error chain of `read_message`. -/
def ReadFault.display : ReadFault → String
  | .len c => "read len: " ++ c
  | .tooLarge n => "message too large: " ++ toString n ++ " bytes (max 16777216)"
  | .body c => "read body: " ++ c
  | .decode c => "CBOR deserialize: " ++ c

/-- Arguments of `record_transfer_terminal`. -/
structure TerminalRecord where
  direction : TransferDirection
  status : TransferStatus
  bytes : ℕ
  deriving DecidableEq

/-- What the locked part of `update_transfer_status` leaves to do. -/
structure StatusUpdate where
  revision : ℕ
  notify : Option (Option String)
  record : Option TerminalRecord
  deriving DecidableEq

/-- Sections under the lock of `state.transfers`, and `record_transfer_terminal`. -/
inductive TaskOp where
  | insert (task : TransferTask)
  | updateStatus (id : String) (status : TransferStatus) (reason : Option String)
  | setError (id : String) (text : String)
  | addBytes (id : String) (n : ℕ)
  | revision (id : String)
  | status (id : String)
  | cancel (id : String) (hasHost : Bool)
  | sendRejected (id : String) (reason : ErrorCode)
  | sendTimedOut (id : String)
  | sendTransferring (id : String)
  | sendFinished (id : String) (outcome : TransferOutcome) (itemCount : ℕ)
  | sendErrored (id : String) (reasonCode detail : String)
  | snapshot
  | cleanup
  | record (id : String) (r : TerminalRecord)
  deriving DecidableEq

abbrev TaskOp.Resp : TaskOp → Type
  | .updateStatus _ _ _ => Option StatusUpdate
  | .addBytes _ _ => Option (ℕ × ℕ × ℕ)
  | .revision _ | .sendTransferring _ => ℕ
  | .status _ => Option TransferStatus
  | .cancel _ _ => Option (TerminalRecord × Option ℕ)
  | .sendRejected _ _ | .sendTimedOut _ | .sendFinished _ _ _ => Option TerminalRecord
  | .snapshot => List (String × TransferStatus × Option String)
  | .insert _ | .setError _ _ | .sendErrored _ _ _ | .cleanup | .record _ _ => Unit

/-- Sections under the lock of `incoming_request_notifications`. -/
inductive NoteOp where
  | ensure (id : String)
  | markInactive (id : String) (reason : Option String)
  | read (id : String)
  deriving DecidableEq

abbrev NoteOp.Resp : NoteOp → Type
  | .ensure _ => Uuid
  | .markInactive _ _ => Unit
  | .read _ => Option IncomingRequestNotification

/-- Sections under the lock of `pending_accepts`, and the oneshots stored in it. -/
inductive GateOp where
  | register (id : String)
  | take (id : String)
  /-- Remove the sender and drop it. -/
  | discard (id : String)
  | contains (id : String)
  | retain (ids : List String)
  | send (chan : ℕ) (value : Bool)
  | wait (chan : ℕ)
  deriving DecidableEq

abbrev GateOp.Resp : GateOp → Type
  | .register _ => ℕ
  | .take _ => Option ℕ
  | .contains _ => Bool
  | .wait _ => Wait Bool
  | .discard _ | .retain _ | .send _ _ => Unit

inductive ControlRead where
  | message (m : DashMessage)
  | fault (f : ReadFault)
  | timedOut
  deriving DecidableEq

inductive NetOp where
  | dial (addr : String)
  | peerFp (conn : ℕ)
  | close (conn : ℕ)
  | openBi (conn : ℕ)
  | write (conn : ℕ) (id : String) (m : DashMessage)
  | read (conn : ℕ)
  | readWithTimeout (conn : ℕ)
  | closeReason (conn : ℕ)
  deriving DecidableEq

abbrev NetOp.Resp : NetOp → Type
  | .dial _ => Except String ℕ
  | .peerFp _ => Except String String
  | .close _ => Unit
  | .openBi _ => Except String Unit
  | .write _ _ _ => Except WriteFault Unit
  | .read _ => Except ReadFault DashMessage
  | .readWithTimeout _ => ControlRead
  | .closeReason _ => Option String

inductive EnvOp where
  | now
  | config
  | hostDirs
  | disks
  | isActiveTrust (fp : String)
  | trustLevel (fp : String)
  | freezeReason (fp : String)
  | emit (event : HostEvent)
  | bestAddrs (fp : String)
  | deviceName (fp : String)
  | missingPath (paths : List String)
  | buildFileItems (paths : List String)
  | joinReceive
  | joinSend
  deriving DecidableEq

abbrev EnvOp.Resp : EnvOp → Type
  | .now => ℕ
  | .config => AppConfig
  | .hostDirs => Option String × Option String
  | .disks => List Disk
  | .isActiveTrust _ => Bool
  | .trustLevel _ => Option TrustLevel
  | .freezeReason _ => Option String
  | .emit _ => Unit
  | .bestAddrs _ => Option (Option (List String))
  | .deviceName _ => Option String
  | .missingPath _ => Option String
  | .buildFileItems _ => Except String (List (FileItem × String))
  | .joinReceive => Bool × List TaskResult
  | .joinSend => Bool × List TaskResult × Option ErrorCode

inductive Op where
  | task (o : TaskOp)
  | note (o : NoteOp)
  | gate (o : GateOp)
  | net (o : NetOp)
  | env (o : EnvOp)
  | fs (o : FsOp)
  deriving DecidableEq

abbrev Op.Resp : Op → Type
  | .task o => o.Resp
  | .note o => o.Resp
  | .gate o => o.Resp
  | .net o => o.Resp
  | .env o => o.Resp
  | .fs o => o.Resp

inductive Reply where
  | unit
  | timer
  | fail (cause : String)
  | io (e : IoError)
  | writeFault (f : WriteFault)
  | readFault (f : ReadFault)
  | message (m : DashMessage)
  | dialled (peerFp : Option String)
  | disks (ds : List Disk)
  | addrs (r : Option (Option (List String)))
  | text (r : Option String)
  | items (r : Except String (List (FileItem × String)))
  | joined (cancelledByPeer : Bool) (results : List TaskResult) (dispatch : Option ErrorCode)

/-- The wall clock at the step and the reply to it. -/
structure Ans where
  now : ℕ
  reply : Reply

def setTask (w : World) (id : String) (t : TransferTask) : World :=
  { w with transfers := w.transfers.insert id t }

/-- `get_mut` and an update in place; the answer may look at the task before and after. -/
def modifyTask {α : Type} (w : World) (id : String) (absent : α)
    (update : TransferTask → TransferTask) (answer : TransferTask → TransferTask → α) :
    World × α :=
  match w.transfers.lookup id with
  | some t => (setTask w id (update t), answer t (update t))
  | none => (w, absent)

/-- The field updates of `update_transfer_status`. -/
def applyStatus (now : ℕ) (status : TransferStatus) (reason : Option String)
    (t : TransferTask) : TransferTask :=
  { t with
    status := status
    revision := if t.status = status then t.revision else t.revision + 1
    terminalReasonCode := reason.or t.terminalReasonCode
    endedAtUnix := if status.isTerminal then some now else t.endedAtUnix }

def terminalRecord (t : TransferTask) : TerminalRecord :=
  ⟨t.direction, t.status, t.bytesTransferred⟩

def statusUpdate (status : TransferStatus) (t t' : TransferTask) : StatusUpdate where
  revision := t'.revision
  notify := if status.isTerminal then some t'.terminalReasonCode else none
  record := if status.isTerminal && !t.status.isTerminal then some (terminalRecord t') else none

def cancelStatus : TransferDirection → TransferStatus
  | .send => .cancelledBySender
  | .receive => .cancelledByReceiver

def applyCancel (now : ℕ) (t : TransferTask) : TransferTask :=
  let next := cancelStatus t.direction
  { t with
    status := next
    revision := if t.status = next then t.revision else t.revision + 1
    terminalReasonCode := some "E_CANCELLED_BY_USER"
    failedFileIds := some t.itemIds
    endedAtUnix := some now }

/-- The sender's updates write the status whatever it was before. -/
def overwrite (now : ℕ) (status : TransferStatus) (reason : Option String)
    (failed : Option (List ℕ)) (error : Option String) (t : TransferTask) : TransferTask :=
  { t with
    status := status
    revision := t.revision + 1
    terminalReasonCode := reason
    failedFileIds := failed
    error := error
    endedAtUnix := some now }

def applyRejected (now : ℕ) (reason : ErrorCode) (t : TransferTask) : TransferTask :=
  overwrite now .rejected (some reason.reasonCode) (some t.itemIds) t.error t

def applyTimedOut (now : ℕ) (t : TransferTask) : TransferTask :=
  overwrite now .failed (some ErrorCode.timeout.reasonCode) (some t.itemIds)
    (some "Offer response timeout") t

def applyTransferring (t : TransferTask) : TransferTask :=
  { t with status := .transferring, revision := t.revision + 1 }

def outcomeStatus : TransferOutcome → TransferStatus
  | .success => .completed
  | .partialSuccess _ => .partialCompleted
  | .failed _ => .failed
  | .cancelledBySender => .cancelledBySender
  | .cancelledByReceiver => .cancelledByReceiver

def outcomeFailedIds (t : TransferTask) : TransferOutcome → Option (List ℕ)
  | .partialSuccess failed => some (failed.map FailedFile.fileId)
  | .success => none
  | .failed _ | .cancelledBySender | .cancelledByReceiver => some t.itemIds

def outcomeReason : TransferOutcome → Option String
  | .success => none
  | .partialSuccess failed => failed.head?.map fun entry => entry.reason.reasonCode
  | .failed code => some code.reasonCode
  | .cancelledByReceiver => some "E_CANCELLED_BY_RECEIVER"
  | .cancelledBySender => some "E_CANCELLED_BY_SENDER"

def applyFinished (now : ℕ) (outcome : TransferOutcome) (t : TransferTask) : TransferTask :=
  overwrite now (outcomeStatus outcome) (outcomeReason outcome) (outcomeFailedIds t outcome)
    t.error t

/-- The error path of the send task leaves a terminal status alone. -/
def applyErrored (now : ℕ) (reasonCode detail : String) (t : TransferTask) : TransferTask :=
  if t.status.isTerminal then t
  else overwrite now .failed (some reasonCode) (some t.itemIds) (some detail) t

/-- `retain` of a map. -/
def retainEntries {β : Type} (m : AList (fun _ : String => β)) (keep : String → β → Bool) :
    AList (fun _ : String => β) :=
  ⟨m.entries.filter fun e => keep e.1 e.2, (m.nodupKeys.sublist List.filter_sublist)⟩

def cleanupKeeps (now : ℕ) (t : TransferTask) : Bool :=
  match t.endedAtUnix with
  | some ended => now - ended < 60
  | none => true

def revisionOf (w : World) (id : String) : ℕ :=
  ((w.transfers.lookup id).map TransferTask.revision).getD 0

def execTask (now : ℕ) (w : World) : (o : TaskOp) → World × o.Resp
  | .insert t => (setTask w t.id t, ())
  | .updateStatus id status reason =>
      modifyTask w id none (applyStatus now status reason)
        fun t t' => some (statusUpdate status t t')
  | .setError id text =>
      modifyTask w id () (fun t => { t with error := some text }) fun _ _ => ()
  | .addBytes id n =>
      modifyTask w id none (fun t => { t with bytesTransferred := t.bytesTransferred + n })
        fun _ t' => some (t'.bytesTransferred, t'.totalBytes, t'.revision)
  | .revision id => (w, revisionOf w id)
  | .status id => (w, (w.transfers.lookup id).map TransferTask.status)
  -- the lock is held until the connection is closed; releasing it here only adds interleavings
  | .cancel id _ =>
      modifyTask w id none (applyCancel now) fun t t' => some (terminalRecord t', t.conn)
  | .sendRejected id reason =>
      modifyTask w id none (applyRejected now reason) fun _ t' => some (terminalRecord t')
  | .sendTimedOut id =>
      modifyTask w id none (applyTimedOut now) fun _ t' => some (terminalRecord t')
  | .sendTransferring id => modifyTask w id 0 applyTransferring fun _ t' => t'.revision
  | .sendFinished id outcome _ =>
      modifyTask w id none (applyFinished now outcome) fun _ t' => some (terminalRecord t')
  | .sendErrored id reasonCode detail =>
      modifyTask w id () (applyErrored now reasonCode detail) fun _ _ => ()
  | .snapshot => (w, w.transfers.entries.map fun e => (e.1, e.2.status, e.2.terminalReasonCode))
  | .cleanup =>
      ({ w with transfers := retainEntries w.transfers fun _ t => cleanupKeeps now t }, ())
  | .record _ r =>
      ({ w with metrics := recordTransferTerminal w.metrics r.direction r.status r.bytes }, ())

def execNote (now : ℕ) (w : World) : (o : NoteOp) → World × o.Resp
  | .ensure id =>
      match w.notifications.lookup id with
      | some n =>
          let n' := { n with active := true, updatedAtUnix := now }
          ({ w with notifications := w.notifications.insert id n' }, n.notificationId)
      | none =>
          ({ w with
              notifications := w.notifications.insert id ⟨w.nextUuid, true, none, now⟩
              nextUuid := w.nextUuid + 1 }, w.nextUuid)
  | .markInactive id reason =>
      match w.notifications.lookup id with
      | some n =>
          let n' := { n with
            active := false
            updatedAtUnix := now
            terminalReasonCode := reason.or n.terminalReasonCode }
          ({ w with notifications := w.notifications.insert id n' }, ())
      | none => (w, ())
  | .read id => (w, w.notifications.lookup id)

def dropSenders (channels : List (Channel Bool)) (gone : List ℕ) : List (Channel Bool) :=
  gone.foldl (fun cs c => cs.modify c Channel.dropSender) channels

/-- The senders that `retain` drops. -/
def missingSenders (w : World) (ids : List String) : List ℕ :=
  (w.pendingAccepts.entries.filter fun e => !ids.contains e.1).map fun e => e.2

def isTimer : Reply → Bool
  | .timer => true
  | _ => false

def execGate (x : Ans) (w : World) : (o : GateOp) → Option (World × o.Resp)
  | .register id =>
      some ({ w with
        channels := dropSenders w.channels (w.pendingAccepts.lookup id).toList ++ [.empty]
        pendingAccepts := w.pendingAccepts.insert id w.channels.length }, w.channels.length)
  | .take id =>
      some ({ w with pendingAccepts := w.pendingAccepts.erase id }, w.pendingAccepts.lookup id)
  | .discard id =>
      some ({ w with
        channels := dropSenders w.channels (w.pendingAccepts.lookup id).toList
        pendingAccepts := w.pendingAccepts.erase id }, ())
  | .contains id => some (w, (w.pendingAccepts.lookup id).isSome)
  | .retain ids =>
      some ({ w with
        channels := dropSenders w.channels (missingSenders w ids)
        pendingAccepts := retainEntries w.pendingAccepts fun id _ => ids.contains id }, ())
  | .send chan value =>
      some ({ w with channels := w.channels.modify chan (Channel.send · value) }, ())
  | .wait chan =>
      (w.channels[chan]?).bind fun c => (c.wait (isTimer x.reply)).map fun y =>
        ({ w with channels := w.channels.set chan y.1 }, y.2)

def connOpen (w : World) (c : ℕ) : Bool :=
  match w.conns[c]? with
  | some conn => !conn.closed
  | none => false

def closeConn (w : World) (c : ℕ) : World :=
  { w with conns := w.conns.modify c fun conn => { conn with closed := true } }

/-- A closed connection carries nothing; an open one may still fail. -/
def execNet (x : Ans) (w : World) : (o : NetOp) → Option (World × o.Resp)
  | .dial _ =>
      match x.reply with
      | .dialled fp => some ({ w with conns := w.conns ++ [⟨fp, false⟩] }, .ok w.conns.length)
      | .fail cause => some (w, .error cause)
      | _ => none
  | .peerFp c =>
      match (w.conns[c]?).bind Connection.peerFp with
      | some fp => some (w, .ok fp)
      | none => some (w, .error "no peer identity")
  | .close c => some (closeConn w c, ())
  | .openBi c =>
      match x.reply with
      | .unit => if connOpen w c then some (w, .ok ()) else none
      | .fail cause => some (w, .error cause)
      | _ => none
  | .write c _ _ =>
      match x.reply with
      | .unit => if connOpen w c then some (w, .ok ()) else none
      | .writeFault f => some (w, .error f)
      | _ => none
  | .read c =>
      match x.reply with
      | .message m => if connOpen w c then some (w, .ok m) else none
      | .readFault f => some (w, .error f)
      | _ => none
  | .readWithTimeout c =>
      match x.reply with
      | .message m => if connOpen w c then some (w, .message m) else none
      | .readFault f => some (w, .fault f)
      | .timer => some (w, .timedOut)
      | _ => none
  | .closeReason _ =>
      match x.reply with
      | .text r => some (w, r)
      | _ => none

def execEnv (x : Ans) (w : World) : (o : EnvOp) → Option o.Resp
  | .now => some x.now
  | .config => some w.config
  | .hostDirs => some (w.hostDownloadDir, w.home)
  | .disks => match x.reply with
      | .disks ds => some ds
      | _ => none
  | .isActiveTrust fp =>
      some (((w.trustedPeers.lookup fp).map TrustLevel.allowsSensitiveSend).getD false)
  | .trustLevel fp => some (w.trustedPeers.lookup fp)
  | .emit _ => some ()
  | .bestAddrs _ => match x.reply with
      | .addrs r => some r
      | _ => none
  | .freezeReason _ | .deviceName _ | .missingPath _ => match x.reply with
      | .text r => some r
      | _ => none
  | .buildFileItems _ => match x.reply with
      | .items r => some r
      | _ => none
  | .joinReceive => match x.reply with
      | .joined cancelled results _ => some (cancelled, results)
      | _ => none
  | .joinSend => match x.reply with
      | .joined cancelled results dispatch => some (cancelled, results, dispatch)
      | _ => none

def execFs (x : Ans) (w : World) (o : FsOp) : Option (World × o.Resp) :=
  match x.reply with
  | .io e => (o.refuse e).map fun r => (w, r)
  | _ =>
      let c := o.exec w.fs
      some ({ w with fs := c.tree, touched := w.touched ++ c.touched }, c.answer)

def execOp (x : Ans) (w : World) : (o : Op) → Option (World × o.Resp)
  | .task o => some (execTask x.now w o)
  | .note o => some (execNote x.now w o)
  | .gate o => execGate x w o
  | .net o => execNet x w o
  | .env o => (execEnv x w o).map fun r => (w, r)
  | .fs o => execFs x w o

def outcomeEvents (id : String) (status : TransferStatus) (revision itemCount : ℕ) :
    TransferOutcome → List HostEvent
  | .success => [.transferComplete id revision]
  | .partialSuccess failed => [.transferPartly id (itemCount - failed.length) failed revision]
  | .failed code =>
      [.transferTerminal id status code.reasonCode "TransferFailed" revision (some "send"),
        .transferError (some id) code.reasonCode "TransferFailed" "send" revision none]
  | .cancelledByReceiver =>
      [.transferTerminal id status "E_CANCELLED_BY_RECEIVER" "CancelledByReceiver" revision
        (some "send")]
  | .cancelledBySender =>
      [.transferTerminal id status "E_CANCELLED_BY_SENDER" "CancelledBySender" revision
        (some "send")]

def sectionEvents (revision : ℕ) : (o : TaskOp) → o.Resp → List HostEvent
  | .cancel id true, some (r, _) =>
      [.transferTerminal id r.status "E_CANCELLED_BY_USER" "UserCancelled" revision
        (some "cancel")]
  | .sendRejected id reason, some r =>
      [.transferTerminal id r.status reason.reasonCode "RejectedByReceiver" revision
        (some "offer")]
  | .sendTimedOut id, some r =>
      [.transferTerminal id r.status ErrorCode.timeout.reasonCode "Timeout" revision
        (some "offer"),
        .transferError (some id) ErrorCode.timeout.reasonCode "Timeout" "offer" revision none]
  | .sendFinished id outcome itemCount, some r =>
      outcomeEvents id r.status revision itemCount outcome
  | _, _ => []

def pendingOf (states : List (String × TransferStatus × Option String)) : List String :=
  (states.filter fun e => e.2.1 = .pendingAccept).map fun e => e.1

def taskHistory (i : ℕ) : (o : TaskOp) → o.Resp → List Event
  | .insert t, _ => [.registered i t.id]
  | .updateStatus id status _, some u =>
      .moved i id status :: (u.record.map fun _ => Event.owes i id).toList
  | .cancel id _, some (r, conn) => [.cancelled i id r.status conn, .owes i id]
  | .sendRejected id _, some _ => [.owes i id]
  | .sendTimedOut id, some _ => [.owes i id]
  | .sendFinished id _ _, some _ => [.owes i id]
  | .snapshot, states => [.surveyed i (pendingOf states)]
  | .record id _, _ => [.recorded i id]
  | _, _ => []

def gateHistory (i : ℕ) : (o : GateOp) → o.Resp → List Event
  | .register id, chan => [.opened i id chan]
  | .take id, some chan => [.took i id chan]
  | .retain _, _ => [.retained i]
  | .send chan value, _ => [.sent i chan value]
  | .wait chan, result => [.observed i chan result]
  | _, _ => []

def netHistory (i : ℕ) : (o : NetOp) → o.Resp → List Event
  | .dial _, .ok c => [.connected i c]
  | .write c id m, .ok () => [.wrote i c id m]
  | .readWithTimeout c, .message _ => [.answered i c]
  | .readWithTimeout c, .timedOut => [.answered i c]
  | _, _ => []

def TaskOp.id? : TaskOp → Option String
  | .insert t => some t.id
  | .updateStatus id _ _ | .setError id _ | .addBytes id _ | .revision id | .status id
  | .cancel id _ | .sendRejected id _ | .sendTimedOut id | .sendTransferring id
  | .sendFinished id _ _ | .sendErrored id _ _ | .record id _ => some id
  | .snapshot | .cleanup => none

/-- The sections that can decide that `record_transfer_terminal` will be called. -/
def TaskOp.counts : TaskOp → Bool
  | .updateStatus _ _ _ | .cancel _ _ | .sendRejected _ _ | .sendTimedOut _
  | .sendFinished _ _ _ => true
  | _ => false

/-- What thread `i` adds to the history by an operation that led to world `w`. -/
def history (i : ℕ) (w : World) : (o : Op) → o.Resp → List Event
  | .task o, r => taskHistory i o r ++
      (sectionEvents ((o.id?.map (revisionOf w)).getD 0) o r).map (Event.emitted i)
  | .gate o, r => gateHistory i o r
  | .net o, r => netHistory i o r
  | .env (.emit event), _ => [.emitted i event]
  | _, _ => []

def log (w : World) (es : List Event) : World := { w with journal := w.journal ++ es }

/-- One atomic section of thread `i`, with its history. -/
def exec : Exec Op Op.Resp World Ans := fun i o x w =>
  (execOp x w o).map fun y => (log y.1 (history i y.1 o y.2), y.2)

abbrev Code (α : Type) := Prog Op Op.Resp α

def task (o : TaskOp) : Code o.Resp := perform (Op.task o)
def note (o : NoteOp) : Code o.Resp := perform (Op.note o)
def gate (o : GateOp) : Code o.Resp := perform (Op.gate o)
def net (o : NetOp) : Code o.Resp := perform (Op.net o)
def env (o : EnvOp) : Code o.Resp := perform (Op.env o)
def fs (o : FsOp) : Code o.Resp := perform (Op.fs o)

def emit (event : HostEvent) : Code Unit := env (.emit event)

end DashDrop.Runtime.Machine
