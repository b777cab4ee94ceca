/- GID: DashDrop/Ipc/CoreCommands
   source: src-tauri/src/core_service.rs, src-tauri/src/runtime/host.rs,
     src-tauri/src/runtime/supervisor.rs, src-tauri/src/transport/events.rs
   anchors: []
   digest: The commands of the core service, with a host to tell of their events or without. -/

import DashDrop.CoreService
import DashDrop.Discovery.Jobs
import DashDrop.Ipc.Dispatch
import DashDrop.Sending.Retries

set_option autoImplicit false
set_option relaxedAutoImplicit false

namespace DashDrop.Ipc.CoreCommands

open DashDrop.Foundation.Json DashDrop.Foundation.Maps DashDrop.Foundation.Text
open DashDrop.Runtime.State
open DashDrop.Runtime.Machine (applyCancel)
open DashDrop.Trust.Peers
open DashDrop.Trust.Storage (PeerMap)
open DashDrop.Discovery.Devices
open DashDrop.Discovery.Jobs (ConnectByAddressResult SecurityEvent addTrust setTrusted)
open DashDrop.CoreService (IncomingRequestActionState requestExpiredCode alreadyHandled
  connectFailed)
open DashDrop.Sending.Retries (retryTransfer)
open DashDrop.Ipc.Commands

structure AppHandle where
  deriving DecidableEq

inductive RuntimeHost where
  | tauri
  | noop
  deriving DecidableEq

def RuntimeHost.appHandle : RuntimeHost → Option AppHandle
  | .tauri => some ⟨⟩
  | .noop => none

/-- The host of the service that `dispatch_request` makes: `supervisor::start` hands the server the
app handle of its own host. -/
def serviceHost (host : RuntimeHost) : Option RuntimeHost := host.appHandle.map fun _ => .tauri

/-- `trusted_peer_updated` has four payloads, by its action. -/
inductive RuntimeEvent where
  | deviceDiscovered (device : DeviceInfo)
  | deviceUpdated (device : DeviceInfo)
  | peerPaired (fingerprint : String) (trustLevel : TrustLevel)
  | peerUnpaired (fingerprint : String)
  | peerAliasUpdated (fingerprint : String) (trustLevel : TrustLevel) (peerAlias : Option String)
  | peerConfirmed (fingerprint : String) (trustLevel : TrustLevel)
      (lastVerificationMethod : TrustVerificationMethod) (mutualConfirmedAt : Option ℕ)
  | systemError (code subsystem message attemptedDeviceName rollbackDeviceName : String)
  | appConfigUpdated (config : AppConfig)
  | identityMismatch (expectedFp actualFp phase : String)
  | transferTerminal (name transferId reasonCode terminalCause : String) (revision : ℕ)
      (phase : String)
  | transferError (transferId reasonCode terminalCause phase : String) (revision : ℕ)
  | externalShareReceived (paths : List String) (source : String)
  | pairingLinkReceived (pairingLink source : String)
  | appWindowRevealed

/-- `if let Some(host) = &self.host`: both hosts record what they are told. -/
def tellHost (host : Option RuntimeHost) (event : RuntimeEvent) : List RuntimeEvent :=
  match host with
  | some _ => [event]
  | none => []

structure IncomingRequestNotification where
  notificationId : String
  active : Bool
  terminalReasonCode : Option String
  updatedAtUnix : ℕ

structure Stored where
  config : AppConfig
  trustedPeers : PeerMap
  transfers : AList fun _ : String => TransferTask
  securityEvents : List SecurityEvent

structure SpawnedSend where
  transferId : String
  peerFp : String
  paths : List String
  conn : ℕ

/-- `R` is what only commands without use for a host look at: beacons, checkpoints and the feed. -/
structure AppState (R : Type) where
  devices : DeviceMap
  trustedPeers : PeerMap
  config : AppConfig
  transfers : AList fun _ : String => TransferTask
  incomingRequestNotifications : AList fun _ : String => IncomingRequestNotification
  pendingAccepts : AList fun _ : String => ℕ
  /-- What was sent to those who wait for a decision. -/
  decided : List (ℕ × Bool)
  /-- The records of `record_sender_dispatch`. -/
  dispatched : List (String × String)
  metrics : TransferMetrics
  stored : Stored
  sending : List SpawnedSend
  rest : R

structure Outside (Capsule R : Type) where
  nowUnix : ℕ
  instant : ℕ
  toSocketAddrs : String → Except String (List SocketAddr)
  connectToPeer : SocketAddr → Except String ℕ
  extractPeerFp : ℕ → Except String String
  doHello : ℕ → Except String Unit
  createDirAll : String → Except String Unit
  openProbe : String → Except String Unit
  pathExists : String → Bool
  reregisterService : Except String Unit
  dbPoisoned : Bool
  saveAppConfig : Except String Unit
  replaceTrustedPeers : Except String Unit
  /-- The table of peers after a replacement that failed. -/
  halfReplaced : PeerMap → PeerMap
  /-- A transfer or a security event is written, where failing to is passed over. -/
  saveTransfer : Bool
  logSecurityEvent : Bool
  transferId : String
  collectExternalSharePaths : List String → List String
  validateCapsule : Capsule → Except String Unit
  recordObservation : Capsule → R → R
  observed : Capsule → String
  /-- The commands that read the state, or save a checkpoint, and return what they find. -/
  answer : LocalIpcCommand AppConfig Capsule → AppState R → R × Except String Value

/-- The outcome of a command, with the runtime events that it recorded. -/
structure Outcome (R α : Type) where
  state : AppState R
  told : List RuntimeEvent
  result : Except String α

def Outcome.map {R α β : Type} (f : α → β) (o : Outcome R α) : Outcome R β :=
  ⟨o.state, o.told, o.result.map f⟩

/-- `PendingIncomingRequestPayload` -/
structure PendingIncomingRequest where
  transferId : String
  notificationId : String
  senderName : String
  senderFp : String
  trusted : Bool
  items : List FileItemMeta
  totalSize : ℕ
  revision : ℕ

inductive Reply where
  | ack
  | devices (devices : List DeviceInfo)
  | connectByAddress (result : ConnectByAddressResult)
  | trustedPeers (trustedPeers : List TrustedPeer)
  | appConfig (config : AppConfig)
  | cancelledTransfers (count : ℕ)
  | transfers (transfers : List TransferTask)
  | transfer (transfer : Option TransferTask)
  | pendingIncomingRequests (requests : List PendingIncomingRequest)
  | answered (value : Value)

section Service

variable {Capsule R : Type} (host : Option RuntimeHost) (x : Outside Capsule R)

def logEvent (event : SecurityEvent) (s : AppState R) : AppState R :=
  if !x.dbPoisoned && x.logSecurityEvent then
    { s with stored := { s.stored with securityEvents := s.stored.securityEvents ++ [event] } }
  else s

def trustLevelFor (s : AppState R) (fp : String) : Option TrustLevel :=
  (s.trustedPeers.lookup fp).map TrustedPeer.trustLevel

def Outside.saved : Except String Unit :=
  if x.dbPoisoned then .error "DB lock poisoned"
  else do
    x.saveAppConfig
    x.replaceTrustedPeers

def persistRuntimeState (s : AppState R) : AppState R :=
  if x.dbPoisoned then s
  else match x.saveAppConfig with
    | .error _ => s
    | .ok () =>
        { s with stored := { s.stored with
            config := s.config
            trustedPeers := match x.replaceTrustedPeers with
              | .ok () => s.trustedPeers
              | .error _ => x.halfReplaced s.stored.trustedPeers } }

def saveAndTell (s : AppState R) (told : List RuntimeEvent) (event : RuntimeEvent) :
    Outcome R Unit :=
  match x.saved with
  | .error cause => ⟨persistRuntimeState x s, told, .error cause⟩
  | .ok () => ⟨persistRuntimeState x s, told ++ tellHost host event, .ok ()⟩

def dialFirst : List SocketAddr → List String → Except (List String) (SocketAddr × ℕ)
  | [], errors => .error errors
  | addr :: rest, errors =>
      match x.connectToPeer addr with
      | .ok conn => .ok (addr, conn)
      | .error e => dialFirst rest (errors ++ [addr.display ++ ": " ++ e])

def enterConnected (fp : String) (addr : SocketAddr) (s : AppState R) :
    Outcome R ConnectByAddressResult :=
  let trusted := (s.trustedPeers.lookup fp).isSome
  let (devices, isNew, device) := connectDevice fp addr trusted x.nowUnix x.instant s.devices
  ⟨{ s with devices := devices },
    tellHost host (if isNew then .deviceDiscovered device else .deviceUpdated device),
    .ok ⟨fp, device.name, trusted, addr.display⟩⟩

def connectByAddress (address : String) (s : AppState R) : Outcome R ConnectByAddressResult :=
  match x.toSocketAddrs address with
  | .error e => ⟨s, [], .error ("invalid address " ++ address ++ ": " ++ e)⟩
  | .ok resolved =>
      if resolved.isEmpty then
        ⟨s, [], .error ("address " ++ address ++ " resolved to no endpoints")⟩
      else match dialFirst x resolved [] with
        | .error errors =>
            ⟨s, [], .error (if errors.isEmpty then "all connection attempts failed"
              else "all connection attempts failed (" ++ " | ".intercalate errors ++ ")")⟩
        | .ok (addr, conn) =>
            match x.extractPeerFp conn with
            | .error e => ⟨s, [], .error ("failed to read peer fingerprint: " ++ e)⟩
            | .ok fp =>
                match x.doHello conn with
                | .error e =>
                    ⟨logEvent x ⟨"handshake_failed", "connect_by_address", some fp, e⟩ s, [],
                      .error ("peer handshake failed: " ++ e)⟩
                | .ok () => enterConnected host x fp addr s

def flagDevice (fp : String) (trusted : Bool) (s : AppState R) :
    AppState R × List RuntimeEvent × Option DeviceInfo :=
  let devices := modify fp (setTrusted trusted) s.devices
  let told := match devices.lookup fp with
    | some device => tellHost host (.deviceUpdated device)
    | none => []
  ({ s with devices := devices }, told, devices.lookup fp)

def pairDevice (fp : String) (s : AppState R) : Outcome R Unit :=
  let (s, told, device) := flagDevice host fp true s
  let name := (device.map DeviceInfo.name).getD "Unknown"
  let s := { s with trustedPeers := addTrust fp name x.nowUnix s.trustedPeers }
  saveAndTell host x s told (.peerPaired fp ((trustLevelFor s fp).getD .legacyPaired))

def unpairDevice (fp : String) (s : AppState R) : Outcome R Unit :=
  match s.trustedPeers.lookup fp with
  | none => ⟨s, [], .error (notFound fp)⟩
  | some _ =>
      let s := { s with trustedPeers := s.trustedPeers.erase fp }
      let (s, told, _) := flagDevice host fp false s
      saveAndTell host x s told (.peerUnpaired fp)

def setTrustedAlias (fp : String) (peerAlias : Option String) (s : AppState R) : Outcome R Unit :=
  match s.trustedPeers.lookup fp with
  | none => ⟨s, [], .error (notFound fp)⟩
  | some peer =>
      let peer := { peer with peerAlias := normalizedAlias peerAlias }
      saveAndTell host x { s with trustedPeers := s.trustedPeers.insert fp peer } []
        (.peerAliasUpdated fp peer.trustLevel peer.peerAlias)

/-- The security events of a confirmation; `transition` is the text on the levels and the method. -/
def confirmationEvents (transition : TrustLevel → TrustLevel → TrustVerificationMethod → String)
    (fp : String) (before after : TrustedPeer) (mutualConfirmation : Bool) : List SecurityEvent :=
  (if before.trustLevel ≠ after.trustLevel then
    [⟨"trust_level_transition", "pairing", some fp,
      transition before.trustLevel after.trustLevel after.lastVerificationMethod⟩]
  else []) ++
  (if mutualConfirmation then
    [⟨"mutual_confirmation_complete", "pairing", some fp,
      "mutual pairing confirmation recorded after shared pair code check"⟩]
  else []) ++
  (if before.trustLevel = .frozen ∧ after.trustLevel ≠ .frozen then
    [⟨"trust_freeze_cleared", "pairing", some fp,
      "frozen trust relationship cleared by explicit verification confirmation"⟩]
  else [])

def confirmTrustedPeerVerification
    (transition : TrustLevel → TrustLevel → TrustVerificationMethod → String) (fp : String)
    (method : TrustVerificationMethod) (mutualConfirmation : Bool) (s : AppState R) :
    Outcome R Unit :=
  if mutualConfirmation ∧ (method = .manualPairing ∨ method = .legacyUnsignedLink) then
    ⟨s, [], .error
      "Mutual confirmation requires a signed pairing link and matching shared pair code."⟩
  else match s.trustedPeers.lookup fp with
    | none => ⟨s, [], .error (notFound fp)⟩
    | some peer =>
        let after := confirmedPeer peer method mutualConfirmation x.nowUnix
        let o := saveAndTell host x { s with trustedPeers := s.trustedPeers.insert fp after } []
          (.peerConfirmed fp after.trustLevel after.lastVerificationMethod after.mutualConfirmedAt)
        match o.result with
        | .error _ => o
        | .ok () =>
            { o with state := (confirmationEvents transition fp peer after
                mutualConfirmation).foldl (fun s event => logEvent x event s) o.state }

def checkDownloadDir : Option String → Except String Unit
  | none => .ok ()
  | some dir =>
      match x.createDirAll dir, x.openProbe dir with
      | .error e, _ => .error ("download directory is not usable: " ++ e)
      | .ok (), .error e => .error ("download directory is not writable: " ++ e)
      | .ok (), .ok () => .ok ()

def setAppConfig (config : AppConfig) (s : AppState R) : Outcome R Unit :=
  let config := { config with deviceName := trimmed config.deviceName }
  if config.deviceName.isEmpty then ⟨s, [], .error "device_name cannot be empty"⟩
  else if config.maxParallelStreams = 0 ∨ config.maxParallelStreams > 32 then
    ⟨s, [], .error "max_parallel_streams must be between 1 and 32"⟩
  else match checkDownloadDir x config.downloadDir with
    | .error e => ⟨s, [], .error e⟩
    | .ok () =>
        if s.config.deviceName ≠ config.deviceName then
          match x.reregisterService with
          | .error e =>
              ⟨s, tellHost host (.systemError "MDNS_REREGISTER_FAILED" "mdns"
                ("Device name update rolled back because mDNS refresh failed: " ++ e)
                config.deviceName s.config.deviceName),
                .error ("device name update rolled back because mDNS refresh failed: " ++ e)⟩
          | .ok () => saveAndTell host x { s with config := config } [] (.appConfigUpdated config)
        else saveAndTell host x { s with config := config } [] (.appConfigUpdated config)

/-- Newest sessions first; a link-local address without a scope only where there is no other. -/
def bestAddrs (device : DeviceInfo) : Option (List SocketAddr) :=
  let sessions := (device.sessions.entries.map Sigma.snd).mergeSort
    fun a b => b.lastSeenUnix ≤ a.lastSeenUnix
  let addrs := (sessions.flatMap SessionInfo.addrs).eraseDups
  let connectable := addrs.filter isConnectableProbeAddr
  if addrs.isEmpty then none
  else if connectable.isEmpty then some addrs
  else some connectable

/-- The part of `send_files` on the connection. -/
def verifyAndSpawn (peerFp : String) (paths : List String) (conn : ℕ) (s : AppState R) :
    Outcome R Unit :=
  match x.extractPeerFp conn with
  | .error e => ⟨s, [], .error ("failed to verify peer identity: " ++ e)⟩
  | .ok actualFp =>
      if peerFp ≠ actualFp then
        ⟨logEvent x ⟨"identity_mismatch", "connect", some peerFp,
            "peer certificate fingerprint mismatch"⟩ s,
          tellHost host (.identityMismatch peerFp actualFp "connect"),
          .error "identity mismatch: peer certificate does not match selected device"⟩
      else match host with
        | none => ⟨s, [], .error "transfer/send requires runtime host"⟩
        | some _ =>
            ⟨{ s with sending := s.sending ++ [⟨x.transferId, peerFp, paths, conn⟩] }, [], .ok ()⟩

def sendFiles (peerFp : String) (paths : List String) (s : AppState R) : Outcome R Unit :=
  match (s.trustedPeers.lookup peerFp).filter fun peer => !peer.trustLevel.allowsSensitiveSend with
  | some peer =>
      let reason := peer.freezeReason.getD
        "This trusted peer is frozen and must be re-verified before sending."
      ⟨logEvent x ⟨"frozen_send_blocked", "outgoing", some peerFp, reason⟩ s, [],
        .error ("trusted peer is frozen: " ++ reason ++
          ". Re-run signed pairing verification before sending.")⟩
  | none =>
      let s := { s with dispatched := s.dispatched ++ [(x.transferId, peerFp)] }
      match (s.devices.lookup peerFp).map bestAddrs with
      | none => ⟨s, [], .error ("device " ++ peerFp ++ " not found")⟩
      | some none => ⟨s, [], .error "device has no reachable address"⟩
      | some (some addrs) =>
          match paths.find? fun path => !x.pathExists path with
          | some path => ⟨s, [], .error ("Source path does not exist: " ++ path)⟩
          | none =>
              match dialFirst x addrs [] with
              | .error errors => ⟨s, [], .error (connectFailed errors)⟩
              | .ok (_, conn) => verifyAndSpawn host x peerFp paths conn s

def retry (transferId : String) (s : AppState R) : Outcome R Unit :=
  match retryTransfer (fun id => s.transfers.lookup id) transferId with
  | .error e => ⟨s, [], .error e⟩
  | .ok (peerFp, paths) => sendFiles host x peerFp paths s

def markInactive (id : String) (reasonCode : Option String) (s : AppState R) : AppState R :=
  let close (entry : IncomingRequestNotification) : IncomingRequestNotification :=
    { entry with
      active := false
      updatedAtUnix := x.nowUnix
      terminalReasonCode := reasonCode.or entry.terminalReasonCode }
  { s with incomingRequestNotifications := modify id close s.incomingRequestNotifications }

def incomingRequestActionState (s : AppState R) (id notificationId : String) :
    IncomingRequestActionState :=
  match (s.transfers.lookup id).map TransferTask.status,
      s.incomingRequestNotifications.lookup id with
  | some .pendingAccept, some entry =>
      if !entry.active then .expired
      else if entry.notificationId ≠ notificationId then .staleNotification
      else .pending
  | some .pendingAccept, none => .missing
  | some _, _ => .expired
  | none, some entry =>
      if !entry.active then .expired
      else if entry.notificationId ≠ notificationId then .staleNotification
      else if (s.pendingAccepts.lookup id).isSome then .pending
      else .missing
  | none, none => if (s.pendingAccepts.lookup id).isSome then .pending else .missing

/-- The common body of accept and reject, with the answers where nothing is left to decide at the
first look and after the sender is gone. -/
def decidePendingTransfer (value : Bool) (missing lost : Except String Unit)
    (id notificationId : String) (s : AppState R) : AppState R × Except String Unit :=
  match incomingRequestActionState s id notificationId with
  | .expired =>
      (markInactive x id (some requestExpiredCode)
        { s with pendingAccepts := s.pendingAccepts.erase id }, .error requestExpiredCode)
  | .staleNotification => (s, .error requestExpiredCode)
  | .missing => (s, missing)
  | .pending =>
      match s.pendingAccepts.lookup id with
      | some chan =>
          (markInactive x id none { s with
            pendingAccepts := s.pendingAccepts.erase id
            decided := s.decided ++ [(chan, value)] }, .ok ())
      | none =>
          match incomingRequestActionState s id notificationId with
          | .expired =>
              (markInactive x id (some requestExpiredCode) s, .error requestExpiredCode)
          | .staleNotification => (s, .error requestExpiredCode)
          | .pending | .missing => (s, lost)

def tellExpired (id : String) (decided : AppState R × Except String Unit) : Outcome R Unit :=
  let revision := ((decided.1.transfers.lookup id).map TransferTask.revision).getD 0
  ⟨decided.1,
    if decided.2 = .error requestExpiredCode then
      tellHost host (.transferError id requestExpiredCode "NotificationExpired" "notification_action"
        revision)
    else [], decided.2⟩

def acceptTransfer (id notificationId : String) (s : AppState R) : Outcome R Unit :=
  tellExpired host id (decidePendingTransfer x true (.error (alreadyHandled id))
    (.error (alreadyHandled id)) id notificationId s)

def rejectTransfer (id notificationId : String) (s : AppState R) : Outcome R Unit :=
  tellExpired host id (decidePendingTransfer x false (.ok ()) (.ok ()) id notificationId s)

def terminalEventName : TransferStatus → Option String
  | .rejected => some "transfer_rejected"
  | .cancelledBySender => some "transfer_cancelled_by_sender"
  | .cancelledByReceiver => some "transfer_cancelled_by_receiver"
  | .failed => some "transfer_failed"
  | _ => none

/-- A sender is released with `false` before the task itself is looked up. -/
def releaseSender (id : String) (s : AppState R) : AppState R :=
  match s.pendingAccepts.lookup id with
  | some chan => markInactive x id (some "E_CANCELLED_BY_USER") { s with
      pendingAccepts := s.pendingAccepts.erase id
      decided := s.decided ++ [(chan, false)] }
  | none => s

def cancelTransferInner (id : String) (s : AppState R) : Outcome R Bool :=
  let s := releaseSender x id s
  match s.transfers.lookup id with
  | none => ⟨s, [], .ok false⟩
  | some t =>
      let t := applyCancel x.nowUnix t
      let told := match terminalEventName t.status with
        | some name => tellHost host (.transferTerminal name id "E_CANCELLED_BY_USER" "UserCancelled"
            t.revision "cancel")
        | none => []
      ⟨{ s with
          transfers := s.transfers.insert id t
          stored := if !x.dbPoisoned && x.saveTransfer then
              { s.stored with transfers := s.stored.transfers.insert t.id t }
            else s.stored
          metrics := recordTransferTerminal s.metrics t.direction t.status t.bytesTransferred },
        told, .ok true⟩

def cancelTransfer (id : String) (s : AppState R) : Outcome R Unit :=
  let o := cancelTransferInner host x id s
  { o with result := match o.result with
      | .ok true => .ok ()
      | .ok false => .error ("transfer " ++ id ++ " not found")
      | .error e => .error e }

def activeIds (s : AppState R) : List String :=
  ((s.transfers.entries.map Sigma.snd).filter fun t =>
    t.status = .pendingAccept ∨ t.status = .transferring).map TransferTask.id

def cancelEach : List String → ℕ → AppState R → Outcome R ℕ
  | [], count, s => ⟨s, [], .ok count⟩
  | id :: rest, count, s =>
      let o := cancelTransferInner host x id s
      let later := cancelEach rest (if o.result = .ok true then count + 1 else count) o.state
      { later with told := o.told ++ later.told }

def cancelAllTransfers (s : AppState R) : Outcome R ℕ := cancelEach host x (activeIds s) 0 s

def getPendingIncomingRequests (s : AppState R) : List PendingIncomingRequest :=
  let requests := (s.transfers.entries.map Sigma.snd).filterMap fun task =>
    if task.direction = .receive ∧ task.status = .pendingAccept then
      match s.incomingRequestNotifications.lookup task.id with
      | some notification =>
          if notification.active then
            some (⟨task.id, notification.notificationId, task.peerName, task.peerFingerprint,
              (s.trustedPeers.lookup task.peerFingerprint).isSome, task.items, task.totalBytes,
              task.revision⟩ : PendingIncomingRequest)
          else none
      | none => none
    else none
  requests.mergeSort fun left right => left.transferId ≤ right.transferId

def answerFrom (command : LocalIpcCommand AppConfig Capsule) (s : AppState R) : Outcome R Reply :=
  let (rest, result) := x.answer command s
  ⟨{ s with rest := rest }, [], result.map .answered⟩

def ingestBleAssistCapsule (capsule : Capsule) (source : Option String) (s : AppState R) :
    Outcome R Unit :=
  match x.validateCapsule capsule with
  | .error e => ⟨s, [], .error e⟩
  | .ok () =>
      ⟨logEvent x ⟨"ble_assist_capsule_seen", source.getD "ble_assist", none, x.observed capsule⟩
        { s with rest := x.recordObservation capsule s.rest }, [], .ok ()⟩

/-- Only the window shell has a window to show, and records that it was shown. -/
def revealMainWindow : RuntimeHost → List RuntimeEvent
  | .tauri => [.appWindowRevealed]
  | .noop => []

def queueExternalShare (paths : List String) (s : AppState R) : Outcome R Unit :=
  match host with
  | none => ⟨s, [], .error "app/queue_external_share requires runtime host"⟩
  | some shell =>
      match x.collectExternalSharePaths paths with
      | [] => ⟨s, [], .error "external share requires at least one valid path"⟩
      | shared => ⟨s, .externalShareReceived shared "local_ipc" :: revealMainWindow shell, .ok ()⟩

def activateApp (paths pairingLinks : List String) (s : AppState R) : Outcome R Unit :=
  match host with
  | none => ⟨s, [], .error "app/activate requires runtime host"⟩
  | some shell =>
      let shared := match x.collectExternalSharePaths paths with
        | [] => []
        | shared => [.externalShareReceived shared "app_activate"]
      let links := pairingLinks.map fun link => .pairingLinkReceived link "app_activate"
      ⟨s, shared ++ links ++ revealMainWindow shell, .ok ()⟩

-- The text of `trust_level_transition` on the levels and the method.
variable (transition : TrustLevel → TrustLevel → TrustVerificationMethod → String)

/-- `AppCoreService::dispatch` -/
def dispatch (command : LocalIpcCommand AppConfig Capsule) (s : AppState R) : Outcome R Reply :=
  let ack (o : Outcome R Unit) : Outcome R Reply := o.map fun _ => .ack
  match command with
  | .authRevoke => ⟨s, [], .error "auth/revoke must be handled by the local IPC server"⟩
  | .discoverList => ⟨s, [], .ok (.devices (s.devices.entries.map Sigma.snd))⟩
  | .discoverConnectByAddress address => (connectByAddress host x address s).map .connectByAddress
  | .trustList => ⟨s, [], .ok (.trustedPeers (s.trustedPeers.entries.map Sigma.snd))⟩
  | .trustPair fingerprint => ack (pairDevice host x fingerprint s)
  | .trustUnpair fingerprint => ack (unpairDevice host x fingerprint s)
  | .trustSetAlias fingerprint peerAlias => ack (setTrustedAlias host x fingerprint peerAlias s)
  | .trustConfirmVerification fingerprint method mutualConfirmation =>
      ack (confirmTrustedPeerVerification host x transition fingerprint method mutualConfirmation s)
  | .configGet => ⟨s, [], .ok (.appConfig s.config)⟩
  | .configSet config => ack (setAppConfig host x config s)
  | .transferSend peerFingerprint paths => ack (sendFiles host x peerFingerprint paths s)
  | .transferAccept transferId notificationId =>
      ack (acceptTransfer host x transferId notificationId s)
  | .transferReject transferId notificationId =>
      ack (rejectTransfer host x transferId notificationId s)
  | .transferCancel transferId => ack (cancelTransfer host x transferId s)
  | .transferCancelAll => (cancelAllTransfers host x s).map .cancelledTransfers
  | .transferRetry transferId => ack (retry host x transferId s)
  | .transferList => ⟨s, [], .ok (.transfers (s.transfers.entries.map Sigma.snd))⟩
  | .transferGet transferId => ⟨s, [], .ok (.transfer (s.transfers.lookup transferId))⟩
  | .transferPendingIncoming =>
      ⟨s, [], .ok (.pendingIncomingRequests (getPendingIncomingRequests s))⟩
  | .appActivate paths pairingLinks => ack (activateApp host x paths pairingLinks s)
  | .appQueueExternalShare paths => ack (queueExternalShare host x paths s)
  | .appIngestBleAssistCapsule capsule source => ack (ingestBleAssistCapsule x capsule source s)
  | .appSetEventCheckpoint _ _ _ => (answerFrom x command s).map fun _ => .ack
  | .authIssue | .transferHistory _ _ | .appGetLocalIdentity | .appGetBleAssistCapsule
  | .appGetRuntimeStatus | .appGetDiscoveryDiagnostics | .appGetEventCheckpoint _
  | .appGetEventFeed _ _ | .securityGetEvents _ _ | .transferGetMetrics | .securityGetPosture =>
      answerFrom x command s

end Service

end DashDrop.Ipc.CoreCommands
