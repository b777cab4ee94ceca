/- GID: DashDrop/Transport/Sender
   source: src-tauri/src/transport/sender.rs, src-tauri/src/transport/handshake.rs
   anchors: []
   digest: One attempt of the sending side: Hello, Offer, the answer, the streams, the outcome. -/

import DashDrop.Transport.Receiver

set_option autoImplicit false
set_option relaxedAutoImplicit false

namespace DashDrop.Transport.Sender

open DashDrop.Foundation.Program
open DashDrop.Transport.Protocol DashDrop.Transport.Outcome
open DashDrop.Transport.Receiver (addProgress recordIfSome)
open DashDrop.Runtime.State DashDrop.Runtime.Machine

/-- The arguments of `send_files` with the identifier drawn for the transfer. -/
structure SendRequest where
  transferId : String
  peerFp : String
  paths : List String
  hasHost : Bool
  ownFingerprint : String

/-- One step of one of the file tasks, which run side by side. -/
inductive StreamStep where
  /-- The part of a file before the resume offset was hashed and counted. -/
  | resumed (n : ℕ)
  /-- A chunk or a `Complete` is written to the stream of its file. -/
  | write (m : DashMessage)

section Attempt

-- The `Debug` text of a message.
variable (debug : DashMessage → String)

def doHelloAsInitiator (conn : ℕ) (id : String) : Code (Except String ℕ) := do
  match ← net (.openBi conn) with
  | .error cause => pure (.error ("open bi stream: " ++ cause))
  | .ok () =>
      match ← net (.write conn id (.hello ⟨wireVersion, supportedVersions⟩)) with
      | .error f => pure (.error f.display)
      | .ok () =>
          match ← net (.read conn) with
          | .error f => pure (.error f.display)
          | .ok (.hello peerHello) =>
              if peerHello.wireVersion ≠ 0 then
                pure (.error ("unknown peer wire_version: " ++ toString peerHello.wireVersion))
              else
                match negotiateVersion peerHello.supportedVersions with
                | none => pure (.error "no common protocol version")
                | some chosen => pure (.ok chosen)
          | .ok other => pure (.error ("expected Hello, got " ++ debug other))

def SendRequest.newTask (r : SendRequest) (itemsWithPaths : List (FileItem × String))
    (conn startedAtUnix : ℕ) (peerName : String) : TransferTask where
  id := r.transferId
  direction := .send
  peerFingerprint := r.peerFp
  peerName := peerName
  items := itemsWithPaths.map fun e => FileItemMeta.ofItem e.1
  status := .pendingAccept
  bytesTransferred := 0
  totalBytes := (itemsWithPaths.map fun e => e.1.size).sum
  revision := 0
  startedAtUnix := startedAtUnix
  endedAtUnix := none
  terminalReasonCode := none
  error := none
  sourcePaths := some r.paths
  sourcePathByFileId := some (itemsWithPaths.map fun e => (e.1.fileId, e.2))
  failedFileIds := none
  conn := some conn

def streamFiles (conn : ℕ) (id : String) : List StreamStep → Code Unit
  | [] => pure ()
  | .resumed n :: rest => do
      let (transferred, total, revision) := (← task (.addBytes id n)).getD (0, 0, 0)
      emit (.transferProgress id transferred total revision)
      streamFiles conn id rest
  | .write m :: rest => do
      match ← net (.write conn id m), m with
      | .ok (), .chunk p =>
          addProgress id p.data.length
          streamFiles conn id rest
      | _, _ => streamFiles conn id rest

def streamAndFinish (id : String) (conn : ℕ) (items : List FileItem)
    (steps : List StreamStep) : Code TransferOutcome := do
  let revision ← task (.sendTransferring id)
  emit (.transferAccepted id revision)
  streamFiles conn id steps
  let (cancelledByPeer, results, dispatchError) ← env .joinSend
  let outcome := sendOutcome cancelledByPeer results items dispatchError
  recordIfSome id (← task (.sendFinished id outcome items.length))
  pure outcome

def awaitAnswer (id : String) (conn chosenVersion : ℕ) (items : List FileItem)
    (steps : List StreamStep) : Code (Except String TransferOutcome) := do
  match ← net (.readWithTimeout conn) with
  | .message (.accept accept) =>
      if accept.chosenVersion ≠ chosenVersion then
        pure (.error "Peer chose a different protocol version after handshake")
      else
        let outcome ← streamAndFinish id conn items steps
        pure (.ok outcome)
  | .message (.reject reject) =>
      recordIfSome id (← task (.sendRejected id reject.reason))
      pure (.ok (.failed reject.reason))
  | .message other => pure (.error ("expected Accept/Reject, got " ++ debug other))
  | .fault f =>
      let closeReason := (← net (.closeReason conn)).getD "unknown"
      pure (.error ("read Accept/Reject failed: " ++ f.display ++
        "; connection close reason: " ++ closeReason))
  | .timedOut =>
      recordIfSome id (← task (.sendTimedOut id))
      pure (.ok (.failed .timeout))

def offerFiles (r : SendRequest) (conn : ℕ) (items : List FileItem) (peerName : String)
    (steps : List StreamStep) : Code (Except String TransferOutcome) := do
  match ← doHelloAsInitiator debug conn r.transferId with
  | .error e => pure (.error e)
  | .ok chosenVersion =>
      let config ← env .config
      let totalSize := (items.map FileItem.size).sum
      match ← net (.write conn r.transferId (.offer
          ⟨r.transferId, items, totalSize, config.deviceName, r.ownFingerprint⟩)) with
      | .error f => pure (.error f.display)
      | .ok () =>
          emit (.transferStarted r.transferId r.peerFp peerName items totalSize 0)
          awaitAnswer debug r.transferId conn chosenVersion items steps

/-- `send_files` of the transport. -/
def transportSendFiles (r : SendRequest) (conn : ℕ) (steps : List StreamStep) :
    Code (Except String TransferOutcome) := do
  match ← env (.buildFileItems r.paths) with
  | .error e => pure (.error e)
  | .ok [] => pure (.error "no sendable files found")
  | .ok itemsWithPaths =>
      let startedAtUnix ← env .now
      let peerName := (← env (.deviceName r.peerFp)).getD "Unknown"
      task (.insert (r.newTask itemsWithPaths conn startedAtUnix peerName))
      offerFiles debug r conn (itemsWithPaths.map fun e => e.1) peerName steps

end Attempt

end DashDrop.Transport.Sender
