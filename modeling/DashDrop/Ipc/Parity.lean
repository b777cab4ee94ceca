/- GID: DashDrop/Ipc/Parity
   source: src-tauri/src/daemon/server.rs, src-tauri/src/runtime/supervisor.rs,
     src-tauri/src/core_service.rs
   anchors: []
   digest: Which commands a daemon without a window serves as a service with its host does. -/

import DashDrop.Ipc.Authorization
import DashDrop.Ipc.CoreCommands

set_option autoImplicit false
set_option relaxedAutoImplicit false

namespace DashDrop.Ipc.Parity

open DashDrop.Foundation.Json DashDrop.Foundation.Maps DashDrop.Foundation.Text
open DashDrop.Foundation.Leases
open DashDrop.Runtime.State
open DashDrop.Runtime.Machine (applyCancel cancelStatus)
open DashDrop.Trust.Peers (TrustVerificationMethod)
open DashDrop.Discovery.Devices
open DashDrop.CoreService (IncomingRequestActionState requestExpiredCode alreadyHandled)
open DashDrop.Sending.Retries (retryTransfer)
open DashDrop.Ipc.Commands DashDrop.Ipc.Dispatch DashDrop.Ipc.CoreCommands
open DashDrop.Ipc.Authorization (Admitted validate_ok)

section Agreement

variable {R α β : Type}

/-- Whatever is read off the results, the outcomes agree exactly under the condition. -/
structure AgreeIff (o o' : Outcome R α) (condition : Prop) : Prop where
  alike : ∀ {β : Type} (read : α → β), o.map read = o'.map read ↔ condition

theorem AgreeIff.same (o : Outcome R α) : AgreeIff o o True := ⟨fun _ => by simp⟩

theorem AgreeIff.map {o o' : Outcome R α} {condition : Prop} (agree : AgreeIff o o' condition)
    (f : α → β) : AgreeIff (o.map f) (o'.map f) condition := by
  constructor
  intro γ read
  have joined (o : Outcome R α) : (o.map f).map read = o.map (read ∘ f) := by
    cases o with
    | mk state told result => cases result <;> rfl
  rw [joined, joined]
  exact agree.alike (read ∘ f)

theorem AgreeIff.of_iff {o o' : Outcome R α} {condition condition' : Prop}
    (agree : AgreeIff o o' condition) (same : condition ↔ condition') :
    AgreeIff o o' condition' := ⟨fun read => (agree.alike read).trans same⟩

theorem agree_told (state : AppState R) (told : List RuntimeEvent) (result : Except String α) :
    AgreeIff ⟨state, [], result⟩ ⟨state, told, result⟩ (told = []) := by
  constructor
  intro γ read
  simp [Outcome.map, eq_comm]

theorem agree_ok_error (state state' : AppState R) (told told' : List RuntimeEvent)
    (message : String) (value : α) :
    AgreeIff ⟨state, told, .error message⟩ ⟨state', told', .ok value⟩ False := by
  constructor
  intro γ read
  simp [Outcome.map, Except.map]

end Agreement

section Commands

variable {Capsule R : Type} (x : Outside Capsule R) (host : RuntimeHost) (s : AppState R)

def Saves : Prop :=
  x.dbPoisoned = false ∧ x.saveAppConfig = .ok () ∧ x.replaceTrustedPeers = .ok ()

theorem saved_cases :
    (x.saved = .ok () ∧ Saves x) ∨ ∃ cause, x.saved = .error cause ∧ ¬ Saves x := by
  unfold Outside.saved Saves
  rcases x.dbPoisoned with _ | _
  · rcases x.saveAppConfig with cause | _
    · exact .inr ⟨cause, rfl, by simp⟩
    · rcases x.replaceTrustedPeers with cause | _
      · exact .inr ⟨cause, rfl, by simp⟩
      · exact .inl ⟨rfl, rfl, rfl, rfl⟩
  · exact .inr ⟨_, rfl, by simp⟩

theorem saveAndTell_agree (told : List RuntimeEvent) (event : RuntimeEvent) :
    AgreeIff (saveAndTell none x s [] event) (saveAndTell (some host) x s told event)
      (told = [] ∧ ¬ Saves x) := by
  unfold saveAndTell
  rcases saved_cases x with ⟨saved, saves⟩ | ⟨cause, saved, refuses⟩
  · rw [saved]
    exact (agree_told _ (told ++ [event]) _).of_iff (by simp [saves])
  · rw [saved]
    exact (agree_told _ told _).of_iff (by simp [refuses])

def Answers (addrs : List SocketAddr) (addr : SocketAddr) (conn : ℕ) : Prop :=
  ∃ before after, addrs = before ++ addr :: after ∧ x.connectToPeer addr = .ok conn ∧
    ∀ a ∈ before, ∃ e, x.connectToPeer a = .error e

theorem dialFirst_ok (addrs : List SocketAddr) (errors : List String) (addr : SocketAddr)
    (conn : ℕ) : dialFirst x addrs errors = .ok (addr, conn) ↔ Answers x addrs addr conn := by
  induction addrs generalizing errors with
  | nil => simp [dialFirst, Answers]
  | cons a rest ih =>
    rw [dialFirst]
    cases answer : x.connectToPeer a with
    | ok c =>
      constructor
      · intro h
        cases h
        exact ⟨[], rest, rfl, answer, by simp⟩
      · intro ⟨before, after, split, found, silent⟩
        cases before with
        | nil =>
          cases split
          rw [found] at answer
          cases answer
          rfl
        | cons b before =>
          cases split
          obtain ⟨e, failed⟩ := silent a (by simp)
          rw [failed] at answer
          cases answer
    | error e =>
      rw [ih]
      constructor
      · intro ⟨before, after, split, found, silent⟩
        refine ⟨a :: before, after, by rw [split]; rfl, found, fun b mem => ?_⟩
        rcases List.mem_cons.mp mem with rfl | mem
        · exact ⟨e, answer⟩
        · exact silent b mem
      · intro ⟨before, after, split, found, silent⟩
        cases before with
        | nil =>
          cases split
          rw [found] at answer
          cases answer
        | cons b before =>
          cases split
          exact ⟨before, after, rfl, found, fun a mem => silent a (by simp [mem])⟩

/-- The peer under the address answers, shows a readable certificate and shakes hands. -/
def Connects (address : String) : Prop :=
  ∃ resolved addr conn fp, x.toSocketAddrs address = .ok resolved ∧ Answers x resolved addr conn ∧
    x.extractPeerFp conn = .ok fp ∧ x.doHello conn = .ok ()

theorem connectByAddress_agree (address : String) :
    AgreeIff (connectByAddress none x address s) (connectByAddress (some host) x address s)
      (¬ Connects x address) := by
  unfold connectByAddress Connects
  simp only [← dialFirst_ok x _ []]
  cases found : x.toSocketAddrs address with
  | error e => exact (AgreeIff.same _).of_iff (by simp)
  | ok resolved =>
    simp only
    split
    · rename_i empty
      have none_left : resolved = [] := by simpa using empty
      subst none_left
      exact (AgreeIff.same _).of_iff (by simp [dialFirst])
    · cases dialled : dialFirst x resolved [] with
      | error errors => exact (AgreeIff.same _).of_iff (by simp [dialled])
      | ok reached =>
        obtain ⟨addr, conn⟩ := reached
        simp only
        cases shown : x.extractPeerFp conn with
        | error e => exact (AgreeIff.same _).of_iff (by simp [dialled, shown])
        | ok fp =>
          simp only
          cases greeted : x.doHello conn with
          | error e => exact (AgreeIff.same _).of_iff (by simp [dialled, shown, greeted])
          | ok _ =>
            refine (agree_told _ _ _).of_iff ?_
            simp [dialled, shown, greeted, tellHost]

theorem flagDevice_none (fp : String) (trusted : Bool) :
    flagDevice none fp trusted s =
      ((flagDevice (some host) fp trusted s).1, [], (flagDevice (some host) fp trusted s).2.2) := by
  unfold flagDevice
  simp only
  split <;> rfl

theorem flagDevice_told (fp : String) (trusted : Bool) :
    (flagDevice (some host) fp trusted s).2.1 = [] ↔ s.devices.lookup fp = none := by
  simp only [flagDevice, lookup_modify, if_true]
  cases s.devices.lookup fp <;> simp [tellHost]

theorem pairDevice_agree (fp : String) :
    AgreeIff (pairDevice none x fp s) (pairDevice (some host) x fp s)
      (s.devices.lookup fp = none ∧ ¬ Saves x) := by
  rw [← flagDevice_told host s fp true]
  unfold pairDevice
  rw [flagDevice_none host]
  exact saveAndTell_agree x host _ _ _

theorem unpairDevice_agree (fp : String) :
    AgreeIff (unpairDevice none x fp s) (unpairDevice (some host) x fp s)
      (s.trustedPeers.lookup fp = none ∨ s.devices.lookup fp = none ∧ ¬ Saves x) := by
  unfold unpairDevice
  cases found : s.trustedPeers.lookup fp with
  | none => exact (AgreeIff.same _).of_iff (by simp)
  | some peer =>
    have told := flagDevice_told host { s with trustedPeers := s.trustedPeers.erase fp } fp false
    simp only [flagDevice_none host]
    exact (saveAndTell_agree x host _ _ _).of_iff (by simp [told])

theorem setTrustedAlias_agree (fp : String) (peerAlias : Option String) :
    AgreeIff (setTrustedAlias none x fp peerAlias s) (setTrustedAlias (some host) x fp peerAlias s)
      (s.trustedPeers.lookup fp = none ∨ ¬ Saves x) := by
  unfold setTrustedAlias
  cases s.trustedPeers.lookup fp with
  | none => exact (AgreeIff.same _).of_iff (by simp)
  | some peer => exact (saveAndTell_agree x host _ [] _).of_iff (by simp)

theorem confirm_agree (transition : TrustLevel → TrustLevel → TrustVerificationMethod → String)
    (fp : String) (method : TrustVerificationMethod) (mutualConfirmation : Bool) :
    AgreeIff (confirmTrustedPeerVerification none x transition fp method mutualConfirmation s)
      (confirmTrustedPeerVerification (some host) x transition fp method mutualConfirmation s)
      ((mutualConfirmation = true ∧ (method = .manualPairing ∨ method = .legacyUnsignedLink)) ∨
        s.trustedPeers.lookup fp = none ∨ ¬ Saves x) := by
  unfold confirmTrustedPeerVerification
  split
  · rename_i refused
    exact (AgreeIff.same _).of_iff (by simp [refused])
  · rename_i allowed
    cases s.trustedPeers.lookup fp with
    | none => exact (AgreeIff.same _).of_iff (by simp)
    | some peer =>
      simp only [saveAndTell]
      rcases saved_cases x with ⟨saved, saves⟩ | ⟨cause, saved, refuses⟩
      · simp only [saved]
        exact (agree_told _ _ _).of_iff (by simp [saves, allowed, tellHost])
      · simp only [saved]
        exact (AgreeIff.same _).of_iff (by simp [refuses])

def Unusable (downloadDir : Option String) : Prop :=
  ∃ dir, downloadDir = some dir ∧ (x.createDirAll dir ≠ .ok () ∨ x.openProbe dir ≠ .ok ())

def Refuses (config : AppConfig) : Prop :=
  trimmed config.deviceName = "" ∨ config.maxParallelStreams = 0 ∨ 32 < config.maxParallelStreams ∨
    Unusable x config.downloadDir

theorem checkDownloadDir_ok (dir : Option String) :
    checkDownloadDir x dir = .ok () ↔ ¬ Unusable x dir := by
  unfold checkDownloadDir Unusable
  cases dir with
  | none => simp
  | some d =>
    rcases made : x.createDirAll d with e | _
    · simp [made]
    · rcases opened : x.openProbe d with e | _
      · simp [made, opened]
      · simp [made, opened]

theorem setAppConfig_agree (config : AppConfig) :
    AgreeIff (setAppConfig none x config s) (setAppConfig (some host) x config s)
      (Refuses x config ∨ ¬ Saves x ∧
        (s.config.deviceName = trimmed config.deviceName ∨ x.reregisterService = .ok ())) := by
  unfold setAppConfig Refuses
  simp only [String.isEmpty_iff]
  split
  · rename_i blank
    exact (AgreeIff.same _).of_iff (by simp [blank])
  · rename_i named
    split
    · rename_i wide
      exact (AgreeIff.same _).of_iff (by rcases wide with h | h <;> simp [h])
    · rename_i within
      push Not at within
      have usable := checkDownloadDir_ok x config.downloadDir
      rcases checked : checkDownloadDir x config.downloadDir with e | _
      · rw [checked] at usable
        have unusable : Unusable x config.downloadDir := by simpa using usable
        exact (AgreeIff.same _).of_iff (by simp [unusable])
      · simp only [checked, true_iff] at usable
        simp only [named, usable, within.1, not_lt.mpr within.2, false_or]
        split
        · rename_i renamed
          rcases refreshed : x.reregisterService with e | _
          · exact (agree_told _ _ _).of_iff (by simp [tellHost, renamed])
          · exact (saveAndTell_agree x host _ [] _).of_iff (by simp)
        · rename_i same
          have same : s.config.deviceName = trimmed config.deviceName := not_not.mp same
          exact (saveAndTell_agree x host _ [] _).of_iff (by simp [same])

/-- The peer is not frozen and known under an address, the paths exist, and the first address that
answers shows a readable certificate. -/
def Reaches (peerFp : String) (paths : List String) : Prop :=
  (∀ peer, s.trustedPeers.lookup peerFp = some peer → peer.trustLevel ≠ .frozen) ∧
    (∀ path ∈ paths, x.pathExists path = true) ∧
    ∃ device addrs addr conn fp, s.devices.lookup peerFp = some device ∧
      bestAddrs device = some addrs ∧ Answers x addrs addr conn ∧ x.extractPeerFp conn = .ok fp

/-- A verified connection is told of as a mismatch, or given to a task, by a host alone. -/
theorem verifyAndSpawn_agree (peerFp : String) (paths : List String) (conn : ℕ) :
    AgreeIff (verifyAndSpawn none x peerFp paths conn s)
      (verifyAndSpawn (some host) x peerFp paths conn s)
      (¬ ∃ fp, x.extractPeerFp conn = .ok fp) := by
  unfold verifyAndSpawn
  cases x.extractPeerFp conn with
  | error e => exact (AgreeIff.same _).of_iff (by simp)
  | ok fp =>
    simp only
    split
    · exact (agree_told _ _ _).of_iff (by simp [tellHost])
    · exact (agree_ok_error _ _ _ _ _ _).of_iff (by simp)

theorem sendFiles_agree (peerFp : String) (paths : List String) :
    AgreeIff (sendFiles none x peerFp paths s) (sendFiles (some host) x peerFp paths s)
      (¬ Reaches x s peerFp paths) := by
  unfold sendFiles Reaches
  split
  · rename_i peer blocked
    obtain ⟨found, frozen⟩ := Option.filter_eq_some_iff.mp blocked
    have level : peer.trustLevel = .frozen := by
      cases known : peer.trustLevel <;> simp_all [TrustLevel.allowsSensitiveSend]
    exact (AgreeIff.same _).of_iff (by simp [found, level])
  · rename_i allowed
    have thawed : ∀ peer, s.trustedPeers.lookup peerFp = some peer → peer.trustLevel ≠ .frozen := by
      intro peer found level
      rw [found, Option.filter_some, level] at allowed
      cases allowed
    simp only [← dialFirst_ok x _ []]
    cases known : s.devices.lookup peerFp with
    | none => exact (AgreeIff.same _).of_iff (by simp)
    | some device =>
      simp only [Option.map_some]
      cases best : bestAddrs device with
      | none => exact (AgreeIff.same _).of_iff (by simp [best])
      | some addrs =>
        simp only
        split
        · rename_i path missing
          have absent := List.find?_some missing
          have mem := List.mem_of_find?_eq_some missing
          refine (AgreeIff.same _).of_iff ?_
          simp only [true_iff]
          intro ⟨_, present, _⟩
          simp [present path mem] at absent
        · rename_i present
          have present : ∀ path ∈ paths, x.pathExists path = true := by simpa using present
          cases dialled : dialFirst x addrs [] with
          | error errors => exact (AgreeIff.same _).of_iff (by simp [best, dialled])
          | ok reached =>
            obtain ⟨addr, conn⟩ := reached
            refine (verifyAndSpawn_agree x host _ peerFp paths conn).of_iff (not_congr ?_)
            constructor
            · intro ⟨fp, shown⟩
              exact ⟨thawed, present, device, addrs, addr, conn, fp, rfl, best, dialled, shown⟩
            · intro ⟨_, _, device', addrs', addr', conn', fp, known', best', dialled', shown⟩
              cases known'
              rw [best] at best'
              cases best'
              rw [dialled] at dialled'
              cases dialled'
              exact ⟨fp, shown⟩

theorem retry_agree (transferId : String) :
    AgreeIff (retry none x transferId s) (retry (some host) x transferId s)
      (∀ peerFp paths, retryTransfer (fun id => s.transfers.lookup id) transferId =
        .ok (peerFp, paths) → ¬ Reaches x s peerFp paths) := by
  unfold retry
  cases retryTransfer (fun id => s.transfers.lookup id) transferId with
  | error e => exact (AgreeIff.same _).of_iff (by simp)
  | ok task =>
    obtain ⟨peerFp, paths⟩ := task
    exact (sendFiles_agree x host s peerFp paths).of_iff (by simp)

/-- The request was decided or given up before, or the notification is not its own. -/
def Overtaken (transferId notificationId : String) : Prop :=
  incomingRequestActionState s transferId notificationId = .expired ∨
    incomingRequestActionState s transferId notificationId = .staleNotification

theorem decide_expired {value : Bool} {missing lost : Except String Unit}
    (id notificationId : String) (missing_ne : missing ≠ .error requestExpiredCode)
    (lost_ne : lost ≠ .error requestExpiredCode) :
    (decidePendingTransfer x value missing lost id notificationId s).2 =
        .error requestExpiredCode ↔ Overtaken s id notificationId := by
  unfold decidePendingTransfer Overtaken
  cases action : incomingRequestActionState s id notificationId with
  | expired => simp
  | staleNotification => simp
  | missing => simpa using missing_ne
  | pending =>
    cases s.pendingAccepts.lookup id with
    | some chan => simp
    | none => simpa [action] using lost_ne

theorem tellExpired_agree (id : String) (decided : AppState R × Except String Unit) :
    AgreeIff (tellExpired none id decided) (tellExpired (some host) id decided)
      (¬ decided.2 = .error requestExpiredCode) := by
  have silent : tellExpired none id decided = ⟨decided.1, [], decided.2⟩ := by
    simp [tellExpired, tellHost]
  rw [silent]
  exact (agree_told _ _ _).of_iff (by simp [tellHost])

theorem alreadyHandled_ne (id : String) :
    (.error (alreadyHandled id) : Except String Unit) ≠ .error requestExpiredCode := by
  intro same
  have texts := congrArg String.toList (Except.error.inj same)
  simp [alreadyHandled, requestExpiredCode] at texts

theorem acceptTransfer_agree (id notificationId : String) :
    AgreeIff (acceptTransfer none x id notificationId s)
      (acceptTransfer (some host) x id notificationId s) (¬ Overtaken s id notificationId) :=
  (tellExpired_agree host id _).of_iff
    (not_congr (decide_expired x s id notificationId (alreadyHandled_ne id) (alreadyHandled_ne id)))

theorem rejectTransfer_agree (id notificationId : String) :
    AgreeIff (rejectTransfer none x id notificationId s)
      (rejectTransfer (some host) x id notificationId s) (¬ Overtaken s id notificationId) :=
  (tellExpired_agree host id _).of_iff
    (not_congr (decide_expired x s id notificationId (by simp) (by simp)))

theorem releaseSender_transfers (id : String) :
    (releaseSender x id s).transfers = s.transfers := by
  unfold releaseSender
  split <;> rfl

theorem cancelTransferInner_none (id : String) :
    cancelTransferInner none x id s =
      { cancelTransferInner (some host) x id s with told := [] } := by
  unfold cancelTransferInner
  simp only [releaseSender_transfers]
  cases s.transfers.lookup id with
  | none => rfl
  | some task =>
    cases named : terminalEventName (applyCancel x.nowUnix task).status with
    | none => simp [named]
    | some name => simp [named, tellHost]

theorem cancelTransferInner_told (id : String) :
    (cancelTransferInner (some host) x id s).told = [] ↔ s.transfers.lookup id = none := by
  unfold cancelTransferInner
  simp only [releaseSender_transfers]
  cases s.transfers.lookup id with
  | none => simp
  | some task => cases known : task.direction <;> simp [applyCancel, cancelStatus, known,
      terminalEventName, tellHost]

theorem cancelTransferInner_transfers {id : String} (missing : s.transfers.lookup id = none) :
    (cancelTransferInner (some host) x id s).state.transfers = s.transfers := by
  simp [cancelTransferInner, releaseSender_transfers, missing]

theorem cancelTransfer_agree (id : String) :
    AgreeIff (cancelTransfer none x id s) (cancelTransfer (some host) x id s)
      (s.transfers.lookup id = none) := by
  unfold cancelTransfer
  rw [cancelTransferInner_none x host]
  exact (agree_told _ _ _).of_iff (cancelTransferInner_told x host s id)

theorem cancelEach_none (ids : List String) (count : ℕ) :
    cancelEach none x ids count s = { cancelEach (some host) x ids count s with told := [] } := by
  induction ids generalizing count s with
  | nil => rfl
  | cons id rest ih => simp [cancelEach, cancelTransferInner_none x host, ih]

theorem cancelEach_told (ids : List String) (count : ℕ) :
    (cancelEach (some host) x ids count s).told = [] ↔
      ∀ id ∈ ids, s.transfers.lookup id = none := by
  induction ids generalizing count s with
  | nil => simp [cancelEach]
  | cons id rest ih =>
    simp only [cancelEach, List.append_eq_nil_iff, cancelTransferInner_told, ih,
      List.forall_mem_cons]
    constructor
    · intro ⟨missing, later⟩
      rw [cancelTransferInner_transfers x host s missing] at later
      exact ⟨missing, later⟩
    · intro ⟨missing, later⟩
      rw [cancelTransferInner_transfers x host s missing]
      exact ⟨missing, later⟩

theorem cancelAllTransfers_agree :
    AgreeIff (cancelAllTransfers none x s) (cancelAllTransfers (some host) x s)
      (∀ id ∈ activeIds s, s.transfers.lookup id = none) := by
  unfold cancelAllTransfers
  rw [cancelEach_none x host]
  exact (agree_told _ _ _).of_iff (cancelEach_told x host s (activeIds s) 0)

/-- What a service without a host does as one with it. -/
def Quiet : LocalIpcCommand AppConfig Capsule → Prop
  | .discoverConnectByAddress address => ¬ Connects x address
  | .trustPair fp => s.devices.lookup fp = none ∧ ¬ Saves x
  | .trustUnpair fp => s.trustedPeers.lookup fp = none ∨ s.devices.lookup fp = none ∧ ¬ Saves x
  | .trustSetAlias fp _ => s.trustedPeers.lookup fp = none ∨ ¬ Saves x
  | .trustConfirmVerification fp method mutualConfirmation =>
      (mutualConfirmation = true ∧ (method = .manualPairing ∨ method = .legacyUnsignedLink)) ∨
        s.trustedPeers.lookup fp = none ∨ ¬ Saves x
  | .configSet config => Refuses x config ∨ ¬ Saves x ∧
      (s.config.deviceName = trimmed config.deviceName ∨ x.reregisterService = .ok ())
  | .transferSend peerFp paths => ¬ Reaches x s peerFp paths
  | .transferRetry transferId => ∀ peerFp paths,
      retryTransfer (fun id => s.transfers.lookup id) transferId = .ok (peerFp, paths) →
        ¬ Reaches x s peerFp paths
  | .transferAccept transferId notificationId | .transferReject transferId notificationId =>
      ¬ Overtaken s transferId notificationId
  | .transferCancel transferId => s.transfers.lookup transferId = none
  | .transferCancelAll => ∀ id ∈ activeIds s, s.transfers.lookup id = none
  | _ => True

variable (transition : TrustLevel → TrustLevel → TrustVerificationMethod → String)

theorem dispatch_agree (command : LocalIpcCommand AppConfig Capsule)
    (side : command.commandClass = .readSide ∨ command.commandClass = .writeSide) :
    AgreeIff (dispatch none x transition command s) (dispatch (some host) x transition command s)
      (Quiet x s command) := by
  cases command with
  | authIssue | authRevoke | appActivate _ _ | appQueueExternalShare _ =>
    simp [LocalIpcCommand.commandClass] at side
  | discoverConnectByAddress address => exact (connectByAddress_agree x host s address).map _
  | trustPair fp => exact (pairDevice_agree x host s fp).map _
  | trustUnpair fp => exact (unpairDevice_agree x host s fp).map _
  | trustSetAlias fp peerAlias => exact (setTrustedAlias_agree x host s fp peerAlias).map _
  | trustConfirmVerification fp method mutualConfirmation =>
    exact (confirm_agree x host s transition fp method mutualConfirmation).map _
  | configSet config => exact (setAppConfig_agree x host s config).map _
  | transferSend peerFp paths => exact (sendFiles_agree x host s peerFp paths).map _
  | transferAccept id notificationId =>
    exact (acceptTransfer_agree x host s id notificationId).map _
  | transferReject id notificationId =>
    exact (rejectTransfer_agree x host s id notificationId).map _
  | transferCancel id => exact (cancelTransfer_agree x host s id).map _
  | transferCancelAll => exact (cancelAllTransfers_agree x host s).map _
  | transferRetry id => exact (retry_agree x host s id).map _
  | _ => exact AgreeIff.same _

end Commands

section Server

variable {Capsule R : Type} (serde : FromValue AppConfig Capsule) (payload : Reply → Option Value)
  (currentUid : ℕ) (x : Outside Capsule R)
  (transition : TrustLevel → TrustLevel → TrustVerificationMethod → String)

/-- The service on the state and the journal of runtime events; `payload` is the view of a reply
that goes on the wire. -/
def coreService (host : Option RuntimeHost) :
    Service AppConfig Capsule (AppState R × List RuntimeEvent) :=
  fun (s, journal) command =>
    let o := dispatch host x transition command s
    ((o.state, journal ++ o.told), o.result.map payload)

/-- What the guards of the server ask of a request for the command. -/
structure Arrives (call : Call) (tokens : TokenMap)
    (command : LocalIpcCommand AppConfig Capsule) : Prop where
  read : LocalIpcCommand.fromWireRequest serde call.request = .ok command
  endpoint : call.endpointKind = .service
  peer : ∀ identity, call.peerIdentity = some identity → identity.uid = currentUid
  admitted : Admitted call tokens

def respond (call : Call) : Except String (Option Value) → LocalIpcWireResponse
  | .ok payload => .ok call.request.requestId call.request.protoVersion payload
  | .error message =>
      .err call.request.requestId call.request.protoVersion (.dispatchFailed message)

theorem respond_inj (call : Call) {outcome outcome' : Except String (Option Value)} :
    respond call outcome = respond call outcome' ↔ outcome = outcome' := by
  cases outcome <;> cases outcome' <;> simp [respond, LocalIpcError.dispatchFailed]

/-- The server that `supervisor::start` makes answers the request, and leaves state and journal, as
the service with the host itself does. -/
def ServesAlike (host : RuntimeHost) (call : Call) (d : Daemon (AppState R × List RuntimeEvent))
    (command : LocalIpcCommand AppConfig Capsule) : Prop :=
  let service := coreService payload x transition (serviceHost host)
  let served := dispatchRequest serde service currentUid call d
  let direct := dispatch (some host) x transition command d.rest.1
  served.response = respond call (direct.result.map payload) ∧
    served.daemon.rest = (direct.state, d.rest.2 ++ direct.told)

variable {serde currentUid}

theorem Arrives.served {S : Type} (service : Service AppConfig Capsule S) {call : Call}
    {d : Daemon S} {command : LocalIpcCommand AppConfig Capsule}
    (arrives : Arrives serde currentUid call d.tokens command)
    (guarded : command.requiresAuth = true) :
    (dispatchRequest serde service currentUid call d).response =
        respond call (service d.rest command).2 ∧
      (dispatchRequest serde service currentUid call d).daemon.rest =
        (service d.rest command).1 := by
  have own : dispatchRequest serde service currentUid call d =
      dispatchCommand service call d command := by
    unfold dispatchRequest
    simp only [arrives.read]
    split
    · rename_i identity known
      simp [arrives.peer identity known]
    · rfl
  have accepts : command.acceptsOnEndpoint call.endpointKind = true := by
    simp [LocalIpcCommand.acceptsOnEndpoint, Authorization.requiresAuth_endpoint guarded,
      arrives.endpoint]
  have carried : dispatchCommand service call d command = carryOut service call
      { d with tokens := (validateLocalIpcAccessToken call.now call.request.token d.tokens).2 }
      command := by
    unfold dispatchCommand
    simp only [accepts, Bool.not_true, Bool.false_eq_true, if_false,
      (validate_ok call d.tokens).mpr arrives.admitted]
    split
    · cases guarded
    · cases guarded
    · rw [if_pos guarded]
  rw [own, carried, carryOut]
  cases outcome : (service d.rest command).2 <;> simp [outcome, respond]

variable {host : RuntimeHost} {command : LocalIpcCommand AppConfig Capsule} {call : Call}
  {d : Daemon (AppState R × List RuntimeEvent)}

theorem guarded_of_side
    (side : command.commandClass = .readSide ∨ command.commandClass = .writeSide) :
    command.requiresAuth = true := by
  rcases side with kind | kind <;> simp [LocalIpcCommand.requiresAuth, kind]

theorem servesAlike_iff_map (headless : host.appHandle = none)
    (guarded : command.requiresAuth = true)
    (arrives : Arrives serde currentUid call d.tokens command) :
    ServesAlike serde payload currentUid x transition host call d command ↔
      (dispatch none x transition command d.rest.1).map payload =
        (dispatch (some host) x transition command d.rest.1).map payload := by
  obtain ⟨response, rest⟩ :=
    arrives.served (coreService payload x transition none) guarded
  unfold ServesAlike
  simp only [serviceHost, headless, Option.map_none, response, rest, respond_inj]
  simp [coreService, Outcome.map, and_assoc, and_comm, and_left_comm]

/-- A daemon without a window serves a command as its own host would exactly where the command does
not come to ask for a host. -/
theorem headless_parity_iff (headless : host.appHandle = none)
    (side : command.commandClass = .readSide ∨ command.commandClass = .writeSide)
    (arrives : Arrives serde currentUid call d.tokens command) :
    ServesAlike serde payload currentUid x transition host call d command ↔
      Quiet x d.rest.1 command := by
  rw [servesAlike_iff_map payload x transition headless (guarded_of_side side) arrives]
  exact (dispatch_agree x host d.rest.1 transition command side).alike payload

end Server

def plainSerde : FromValue AppConfig Unit :=
  ⟨fun _ => .error "", fun _ => .error "", fun _ => .error "", fun _ => .error "",
    fun _ => .error ""⟩

def calm : Outside Unit Unit where
  nowUnix := 1
  instant := 1
  toSocketAddrs _ := .ok []
  connectToPeer _ := .ok 0
  extractPeerFp _ := .ok "aa"
  doHello _ := .ok ()
  createDirAll _ := .ok ()
  openProbe _ := .ok ()
  pathExists _ := true
  reregisterService := .ok ()
  dbPoisoned := false
  saveAppConfig := .ok ()
  replaceTrustedPeers := .ok ()
  halfReplaced peers := peers
  saveTransfer := true
  logSecurityEvent := true
  transferId := "t"
  collectExternalSharePaths paths := paths
  validateCapsule _ := .ok ()
  recordObservation _ rest := rest
  observed _ := ""
  answer _ s := (s.rest, .ok .null)

def nearbyDevice : DeviceInfo :=
  reachDevice ⟨.v4 192 168 1 8, 9443, 0⟩ false 1 1
    (manualDevice "aa" ⟨.v4 192 168 1 8, 9443, 0⟩ false 1)

def nearbyState : AppState Unit where
  devices := (∅ : DeviceMap).insert "aa" nearbyDevice
  trustedPeers := ∅
  config := AppConfig.standard
  transfers := ∅
  incomingRequestNotifications := ∅
  pendingAccepts := ∅
  decided := []
  dispatched := []
  metrics := ⟨0, 0, 0, 0, 0, 0, 0, 0⟩
  stored := ⟨AppConfig.standard, ∅, ∅, []⟩
  sending := []
  rest := ()

def ask (command : String) (payload : List (String × Value)) : Call :=
  ⟨⟨1, "1", command, some (.object payload), some ⟨some "key"⟩⟩, .service, some ⟨501, none⟩, 1,
    Vector.replicate 32 0⟩

def nearbyDaemon : Daemon (AppState Unit × List RuntimeEvent) :=
  ⟨(∅ : TokenMap).insert "key" ⟨300000, 120000⟩, nearbyState, []⟩

def pairCall : Call := ask "trust/pair" [("fingerprint", .string "aa")]

def sendCall : Call :=
  ask "transfer/send" [("peer_fingerprint", .string "aa"), ("paths", .array [.string "/a"])]

theorem nearby_lookup : nearbyState.devices.lookup "aa" = some nearbyDevice := AList.lookup_insert _

theorem nearby_addrs : bestAddrs nearbyDevice = some [⟨.v4 192 168 1 8, 9443, 0⟩] := by
  simp [bestAddrs, nearbyDevice, reachDevice, manualDevice, isConnectableProbeAddr, IpAddr.isIpv4,
    List.eraseDups_cons]

theorem pair_arrives : Arrives plainSerde 501 pairCall nearbyDaemon.tokens (.trustPair "aa") := by
  refine ⟨rfl, rfl, fun identity known => ?_, "key", by decide, ⟨300000, 120000⟩, ?_, by decide⟩
  · cases known
    rfl
  · exact AList.lookup_insert _

theorem send_arrives :
    Arrives plainSerde 501 sendCall nearbyDaemon.tokens (.transferSend "aa" ["/a"]) := by
  refine ⟨rfl, rfl, fun identity known => ?_, "key", by decide, ⟨300000, 120000⟩, ?_, by decide⟩
  · cases known
    rfl
  · exact AList.lookup_insert _

def poisoned : Outside Unit Unit := { calm with dbPoisoned := true }

def lonelyDaemon : Daemon (AppState Unit × List RuntimeEvent) :=
  ⟨nearbyDaemon.tokens, { nearbyState with devices := ∅ }, []⟩

theorem unsaved_pairing_alike :
    ServesAlike plainSerde (fun _ => none) 501 poisoned (fun _ _ _ => "") .noop pairCall
      lonelyDaemon (.trustPair "aa") := by
  have arrives : Arrives plainSerde 501 pairCall lonelyDaemon.tokens (.trustPair "aa") :=
    pair_arrives
  rw [headless_parity_iff _ _ _ rfl (.inr rfl) arrives]
  exact ⟨AList.lookup_empty _, fun saves => Bool.noConfusion saves.1⟩

theorem pairing_and_sending_differ :
    (Arrives plainSerde 501 pairCall nearbyDaemon.tokens (.trustPair "aa") ∧
      ¬ ServesAlike plainSerde (fun _ => none) 501 calm (fun _ _ _ => "") .noop pairCall
        nearbyDaemon (.trustPair "aa")) ∧
    Arrives plainSerde 501 sendCall nearbyDaemon.tokens (.transferSend "aa" ["/a"]) ∧
      ¬ ServesAlike plainSerde (fun _ => none) 501 calm (fun _ _ _ => "") .noop sendCall
        nearbyDaemon (.transferSend "aa" ["/a"]) := by
  refine ⟨⟨pair_arrives, ?_⟩, send_arrives, ?_⟩
  · rw [servesAlike_iff_map _ _ _ rfl rfl pair_arrives,
      (dispatch_agree _ _ _ _ _ (.inr rfl)).alike]
    intro ⟨unknown, _⟩
    cases nearby_lookup.symm.trans unknown
  · rw [servesAlike_iff_map _ _ _ rfl rfl send_arrives,
      (dispatch_agree _ _ _ _ _ (.inr rfl)).alike]
    intro unreached
    have answers : Answers calm [⟨.v4 192 168 1 8, 9443, 0⟩] ⟨.v4 192 168 1 8, 9443, 0⟩ 0 :=
      ⟨[], [], rfl, rfl, by simp⟩
    exact unreached ⟨by simp [nearbyDaemon, nearbyState], by simp [calm], nearbyDevice, _, _, 0,
      "aa", nearby_lookup, nearby_addrs, answers, rfl⟩

end DashDrop.Ipc.Parity
