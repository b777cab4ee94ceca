/- GID: DashDrop/CoreService
   source: src-tauri/src/core_service.rs
   anchors: []
   digest: The user's actions: accept, reject, cancel, and a send with its single retry. -/

import DashDrop.Transport.Sender

set_option autoImplicit false
set_option relaxedAutoImplicit false

namespace DashDrop.CoreService

open DashDrop.Foundation.Program DashDrop.Foundation.Text
open DashDrop.Transport.Protocol DashDrop.Transport.Receiver DashDrop.Transport.Sender
open DashDrop.Runtime.State DashDrop.Runtime.Machine

inductive IncomingRequestActionState where
  | pending
  | expired
  | staleNotification
  | missing
  deriving DecidableEq

def requestExpiredCode : String := "E_REQUEST_EXPIRED"

def alreadyHandled (id : String) : String :=
  "transfer " ++ id ++ " not found or already handled"

/-- The notification is read before the status, under different locks. -/
def incomingRequestActionState (id : String) (notificationId : Uuid) :
    Code IncomingRequestActionState := do
  let notification ← note (.read id)
  match ← task (.status id), notification with
  | some .pendingAccept, some entry =>
      if !entry.active then pure .expired
      else if entry.notificationId ≠ notificationId then pure .staleNotification
      else pure .pending
  | some .pendingAccept, none => pure .missing
  | some _, _ => pure .expired
  | none, some entry =>
      if !entry.active then pure .expired
      else if entry.notificationId ≠ notificationId then pure .staleNotification
      else if ← gate (.contains id) then pure .pending
      else pure .missing
  | none, none => if ← gate (.contains id) then pure .pending else pure .missing

/-- The common body of accept and reject: what is sent, and the answers where nothing is
left to decide at the first look and after a lost race for the sender. -/
def decidePendingTransfer (value : Bool) (missing lost : Except String Unit) (id : String)
    (notificationId : Uuid) : Code (Except String Unit) := do
  match ← incomingRequestActionState id notificationId with
  | .expired =>
      gate (.discard id)
      note (.markInactive id (some requestExpiredCode))
      pure (.error requestExpiredCode)
  | .staleNotification => pure (.error requestExpiredCode)
  | .missing => pure missing
  | .pending =>
      match ← gate (.take id) with
      | some chan =>
          note (.markInactive id none)
          gate (.send chan value)
          pure (.ok ())
      | none =>
          match ← incomingRequestActionState id notificationId with
          | .expired =>
              note (.markInactive id (some requestExpiredCode))
              pure (.error requestExpiredCode)
          | .staleNotification => pure (.error requestExpiredCode)
          | .pending | .missing => pure lost

def acceptPendingTransfer (id : String) (notificationId : Uuid) : Code (Except String Unit) :=
  decidePendingTransfer true (.error (alreadyHandled id)) (.error (alreadyHandled id)) id
    notificationId

def rejectPendingTransfer (id : String) (notificationId : Uuid) : Code (Except String Unit) :=
  decidePendingTransfer false (.ok ()) (.ok ()) id notificationId

/-- The part of `cancel_transfer_inner` on the task and its connection. -/
def cancelTask (id : String) (hasHost : Bool) : Code Bool := do
  match ← task (.cancel id hasHost) with
  | none => pure false
  | some (record, none) =>
      task (.record id record)
      pure true
  | some (record, some conn) =>
      let _ ← net (.write conn id (.cancel ⟨.userCancelled⟩))
      net (.close conn)
      task (.record id record)
      pure true

/-- A sender is released with `false` before the task itself is looked up. -/
def cancelTransferInner (id : String) (hasHost : Bool) : Code Bool := do
  match ← gate (.take id) with
  | some chan =>
      note (.markInactive id (some "E_CANCELLED_BY_USER"))
      gate (.send chan false)
      cancelTask id hasHost
  | none => cancelTask id hasHost

def cancelTransfer (id : String) (hasHost : Bool) : Code (Except String Unit) := do
  if ← cancelTransferInner id hasHost then pure (.ok ())
  else pure (.error ("transfer " ++ id ++ " not found"))

private def mentions (detail : String) (pattern : String) : Bool :=
  containsText pattern.toList (toAsciiLowercase detail.toList)

def classifyRuntimeSendError (detail : String) : String × String :=
  let contains := mentions detail
  if contains "timeout" || contains "timed out" then ("E_TIMEOUT", "Timeout")
  else if contains "message too large" then ("E_PROTOCOL", "OfferTooLarge")
  else if contains "expected offer" || contains "expected accept/reject" || contains "expected hello"
      || contains "read hello failed" || contains "read offer failed" then
    ("E_PROTOCOL", "ProtocolSequenceError")
  else if contains "identity mismatch" then ("E_IDENTITY_MISMATCH", "IdentityMismatch")
  else if contains "version" && contains "mismatch" then ("E_VERSION_MISMATCH", "VersionMismatch")
  else if contains "rate limit" then ("E_RATE_LIMITED", "RateLimited")
  else if contains "read len" || contains "read body" || contains "control stream"
      || contains "stream closed" then ("E_PROTOCOL", "ControlStreamClosed")
  else ("E_PROTOCOL", "SystemError")

def shouldRetrySendOnce (detail : String) : Bool :=
  let contains := mentions detail
  contains "read accept/reject failed" || contains "control stream" || contains "read len"
    || contains "read body" || contains "open bi stream" || contains "accept bi stream"

def connectFirst : List String → List String → Code (Except (List String) ℕ)
  | [], errors => pure (.error errors)
  | addr :: rest, errors => do
      match ← net (.dial addr) with
      | .ok conn => pure (.ok conn)
      | .error cause => connectFirst rest (errors ++ [addr ++ ": " ++ cause])

def reconnectToPeerByBestAddrs (peerFp : String) : Code (Except String ℕ) := do
  match ← env (.bestAddrs peerFp) with
  | none => pure (.error ("device " ++ peerFp ++ " not found for retry"))
  | some none => pure (.error "device has no reachable address for retry")
  | some (some addrs) =>
      match ← connectFirst addrs [] with
      | .ok conn => pure (.ok conn)
      | .error [] => pure (.error "retry connect failed without candidates")
      | .error errors =>
          pure (.error ("retry connect failed (" ++ " | ".intercalate errors ++ ")"))

section Send

-- The `Debug` text of a message.
variable (debug : DashMessage → String)

def giveUp (id : String) (detail : String) : Code Unit := do
  let (reasonCode, terminalCause) := classifyRuntimeSendError detail
  task (.sendErrored id reasonCode detail)
  let revision ← task (.revision id)
  emit (.transferTerminal id .failed reasonCode terminalCause revision (some "send"))
  emit (.transferError (some id) reasonCode terminalCause "send" revision (some detail))

/-- The spawned loop: one attempt and at most one more on a new connection. -/
def sendTask (r : SendRequest) (conn : ℕ) (steps retrySteps : List StreamStep) : Code Unit := do
  match ← transportSendFiles debug r conn steps with
  | .ok _ => pure ()
  | .error detail =>
      if shouldRetrySendOnce detail then
        match ← reconnectToPeerByBestAddrs r.peerFp with
        | .ok retryConn =>
            match ← transportSendFiles debug r retryConn retrySteps with
            | .ok _ => pure ()
            | .error retryDetail => giveUp r.transferId retryDetail
        | .error _ => giveUp r.transferId detail
      else giveUp r.transferId detail

/-- The identity check on the dialled connection, the spawned task after it. -/
def verifyAndSend (r : SendRequest) (conn : ℕ) (steps retrySteps : List StreamStep) :
    Code (Except String Unit) := do
  match ← net (.peerFp conn) with
  | .error cause => pure (.error ("failed to verify peer identity: " ++ cause))
  | .ok actualFp =>
      if r.peerFp ≠ actualFp then
        net (.close conn)
        if r.hasHost then emit (.identityMismatch r.peerFp actualFp "connect") else pure ()
        pure (.error "identity mismatch: peer certificate does not match selected device")
      else if !r.hasHost then pure (.error "transfer/send requires runtime host")
      else
        sendTask debug r conn steps retrySteps
        pure (.ok ())

def connectFailed (errors : List String) : String :=
  if errors.isEmpty then "All connection attempts failed"
  else "All connection attempts failed (" ++ " | ".intercalate errors ++ ")"

def dispatchSend (r : SendRequest) (steps retrySteps : List StreamStep) :
    Code (Except String Unit) := do
  match ← env (.bestAddrs r.peerFp) with
  | none => pure (.error ("device " ++ r.peerFp ++ " not found"))
  | some none => pure (.error "device has no reachable address")
  | some (some addrs) =>
      match ← env (.missingPath r.paths) with
      | some path => pure (.error ("Source path does not exist: " ++ path))
      | none =>
          match ← connectFirst addrs [] with
          | .error errors => pure (.error (connectFailed errors))
          | .ok conn => verifyAndSend debug r conn steps retrySteps

/-- `AppCoreService::send_files` together with the task it spawns. -/
def sendFiles (r : SendRequest) (steps retrySteps : List StreamStep) :
    Code (Except String Unit) := do
  match ← env (.trustLevel r.peerFp) with
  | some .frozen =>
      let reason := (← env (.freezeReason r.peerFp)).getD
        "This trusted peer is frozen and must be re-verified before sending."
      pure (.error ("trusted peer is frozen: " ++ reason ++
        ". Re-run signed pairing verification before sending."))
  | _ => dispatchSend debug r steps retrySteps

end Send

end DashDrop.CoreService
