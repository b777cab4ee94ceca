/- GID: DashDrop/Ipc/Commands
   source: src-tauri/src/local_ipc.rs
   anchors: []
   digest: Requests on the local IPC endpoints, the commands they name, and their replies. -/

import DashDrop.Foundation.Json
import DashDrop.Trust.Peers

set_option autoImplicit false
set_option relaxedAutoImplicit false

namespace DashDrop.Ipc.Commands

open DashDrop.Foundation.Json
open DashDrop.Trust.Peers (TrustVerificationMethod)

def localIpcProtoVersion : ℕ := 1

def reservedPhaseACommands : List String := ["discover/diagnostics"]

structure LocalAuthContext where
  accessToken : Option String

structure LocalIpcWireRequest where
  protoVersion : ℕ
  requestId : String
  command : String
  payload : Option Value
  authContext : Option LocalAuthContext

/-- `auth_context.as_ref().and_then(|context| context.access_token.as_deref())` -/
def LocalIpcWireRequest.token (request : LocalIpcWireRequest) : Option String :=
  request.authContext.bind LocalAuthContext.accessToken

structure LocalIpcError where
  code : String
  message : String
  deriving DecidableEq

namespace LocalIpcError

def invalidRequest (message : String) : LocalIpcError := ⟨"invalid_request", message⟩

def protoMismatch (expected actual : ℕ) : LocalIpcError :=
  ⟨"proto_mismatch", "unsupported local IPC protocol version " ++ toString actual ++
    "; expected " ++ toString expected⟩

def dispatchFailed (message : String) : LocalIpcError := ⟨"dispatch_failed", message⟩

def unauthorized (message : String) : LocalIpcError := ⟨"unauthorized", message⟩

end LocalIpcError

inductive LocalIpcWireResponse where
  | ok (requestId : String) (protoVersion : ℕ) (payload : Option Value)
  | err (requestId : String) (protoVersion : ℕ) (error : LocalIpcError)

inductive LocalIpcEndpointKind where
  | service
  | uiActivation
  deriving DecidableEq

def LocalIpcEndpointKind.label : LocalIpcEndpointKind → String
  | .service => "service"
  | .uiActivation => "ui activation"

inductive LocalIpcCommandClass where
  | authBootstrap
  | readSide
  | writeSide
  | activationShareHandoff
  | runtimeEventReplay
  deriving DecidableEq

/-- `Config` and `Capsule` stand for `AppConfig` and `BleAssistCapsule`. -/
inductive LocalIpcCommand (Config Capsule : Type) where
  | authIssue
  | authRevoke
  | discoverList
  | discoverConnectByAddress (address : String)
  | trustList
  | trustPair (fingerprint : String)
  | trustUnpair (fingerprint : String)
  | trustSetAlias (fingerprint : String) (peerAlias : Option String)
  | trustConfirmVerification (fingerprint : String) (verificationMethod : TrustVerificationMethod)
      (mutualConfirmation : Bool)
  | configGet
  | configSet (config : Config)
  | transferSend (peerFingerprint : String) (paths : List String)
  | transferAccept (transferId notificationId : String)
  | transferReject (transferId notificationId : String)
  | transferCancel (transferId : String)
  | transferCancelAll
  | transferRetry (transferId : String)
  | transferList
  | transferGet (transferId : String)
  | transferHistory (limit offset : ℕ)
  | transferPendingIncoming
  | appActivate (paths pairingLinks : List String)
  | appGetLocalIdentity
  | appGetBleAssistCapsule
  | appIngestBleAssistCapsule (capsule : Capsule) (source : Option String)
  | appGetRuntimeStatus
  | appGetDiscoveryDiagnostics
  | appGetEventCheckpoint (consumerId : String)
  | appGetEventFeed (afterSeq limit : ℕ)
  | appSetEventCheckpoint (consumerId generation : String) (seq : ℕ)
  | appQueueExternalShare (paths : List String)
  | securityGetEvents (limit offset : ℕ)
  | transferGetMetrics
  | securityGetPosture

namespace LocalIpcCommand

variable {Config Capsule : Type}

/-- `class` -/
def commandClass : LocalIpcCommand Config Capsule → LocalIpcCommandClass
  | authIssue | authRevoke => .authBootstrap
  | discoverList | trustList | configGet | transferList | transferGet _ | transferHistory _ _
  | transferPendingIncoming | appGetLocalIdentity | appGetBleAssistCapsule | appGetRuntimeStatus
  | appGetDiscoveryDiagnostics | appGetEventCheckpoint _ | securityGetEvents _ _
  | transferGetMetrics | securityGetPosture => .readSide
  | appActivate _ _ | appQueueExternalShare _ => .activationShareHandoff
  | appGetEventFeed _ _ => .runtimeEventReplay
  | discoverConnectByAddress _ | trustPair _ | trustUnpair _ | trustSetAlias _ _
  | trustConfirmVerification _ _ _ | configSet _ | appIngestBleAssistCapsule _ _
  | appSetEventCheckpoint _ _ _ | transferSend _ _ | transferAccept _ _ | transferReject _ _
  | transferCancel _ | transferCancelAll | transferRetry _ => .writeSide

def endpointKind (command : LocalIpcCommand Config Capsule) : LocalIpcEndpointKind :=
  match command.commandClass with
  | .authBootstrap => .service
  | .activationShareHandoff => .uiActivation
  | .readSide | .writeSide | .runtimeEventReplay => .service

def requiresAuth (command : LocalIpcCommand Config Capsule) : Bool :=
  command.commandClass ∈
    [LocalIpcCommandClass.readSide, .writeSide, .runtimeEventReplay]

def acceptsOnEndpoint (command : LocalIpcCommand Config Capsule) (kind : LocalIpcEndpointKind) :
    Bool :=
  command.endpointKind = kind

def name : LocalIpcCommand Config Capsule → String
  | authIssue => "auth/issue"
  | authRevoke => "auth/revoke"
  | discoverList => "discover/list"
  | discoverConnectByAddress _ => "discover/connect_by_address"
  | trustList => "trust/list"
  | trustPair _ => "trust/pair"
  | trustUnpair _ => "trust/unpair"
  | trustSetAlias _ _ => "trust/set_alias"
  | trustConfirmVerification _ _ _ => "trust/confirm_verification"
  | configGet => "config/get"
  | configSet _ => "config/set"
  | transferSend _ _ => "transfer/send"
  | transferAccept _ _ => "transfer/accept"
  | transferReject _ _ => "transfer/reject"
  | transferCancel _ => "transfer/cancel"
  | transferCancelAll => "transfer/cancel_all"
  | transferRetry _ => "transfer/retry"
  | transferList => "transfer/list"
  | transferGet _ => "transfer/get"
  | transferHistory _ _ => "transfer/history"
  | transferPendingIncoming => "transfer/pending_incoming"
  | appActivate _ _ => "app/activate"
  | appGetLocalIdentity => "app/get_local_identity"
  | appGetBleAssistCapsule => "app/get_ble_assist_capsule"
  | appIngestBleAssistCapsule _ _ => "app/ingest_ble_assist_capsule"
  | appGetRuntimeStatus => "app/get_runtime_status"
  | appGetDiscoveryDiagnostics => "app/get_discovery_diagnostics"
  | appGetEventCheckpoint _ => "app/get_event_checkpoint"
  | appGetEventFeed _ _ => "app/get_event_feed"
  | appSetEventCheckpoint _ _ _ => "app/set_event_checkpoint"
  | appQueueExternalShare _ => "app/queue_external_share"
  | securityGetEvents _ _ => "security/get_events"
  | transferGetMetrics => "transfer/get_metrics"
  | securityGetPosture => "security/get_posture"

end LocalIpcCommand

def payloadObject (payload : Option Value) : Except LocalIpcError (List (String × Value)) :=
  match payload.bind Value.asObject with
  | some fields => .ok fields
  | none => .error (.invalidRequest "payload must be an object")

def requiredString (payload : Option Value) (field : String) : Except LocalIpcError String := do
  match ((← payloadObject payload).lookup field).bind Value.asStr with
  | some s => pure s
  | none => throw (.invalidRequest ("payload." ++ field ++ " must be a string"))

def optionalString (payload : Option Value) (field : String) :
    Except LocalIpcError (Option String) := do
  match (← payloadObject payload).lookup field with
  | some (.string s) => pure (some s)
  | some .null | none => pure none
  | some _ => throw (.invalidRequest ("payload." ++ field ++ " must be a string or null"))

def optionalBool (payload : Option Value) (field : String) :
    Except LocalIpcError (Option Bool) := do
  match (← payloadObject payload).lookup field with
  | some (.bool b) => pure (some b)
  | some .null | none => pure none
  | some _ => throw (.invalidRequest ("payload." ++ field ++ " must be a boolean or null"))

def notStrings (field : String) : LocalIpcError :=
  .invalidRequest ("payload." ++ field ++ " must be an array of strings")

def stringItems (field : String) (items : List Value) : Except LocalIpcError (List String) :=
  items.mapM fun item =>
    match item.asStr with
    | some s => pure s
    | none => throw (notStrings field)

def requiredStringVec (payload : Option Value) (field : String) :
    Except LocalIpcError (List String) := do
  match (← payloadObject payload).lookup field with
  | none => throw (.invalidRequest ("payload." ++ field ++ " is required"))
  | some value =>
      match value.asArray with
      | some items => stringItems field items
      | none => throw (notStrings field)

def optionalStringVec (payload : Option Value) (field : String) :
    Except LocalIpcError (List String) := do
  match (← payloadObject payload).lookup field with
  | some (.array items) => stringItems field items
  | some .null | none => pure []
  | some _ => throw (notStrings field)

/-- `from_value` is what `serde_json::from_value` makes of the field. -/
def requiredValue {T : Type} (fromValue : Value → Except String T) (payload : Option Value)
    (field : String) : Except LocalIpcError T := do
  match (← payloadObject payload).lookup field with
  | none => throw (.invalidRequest ("payload." ++ field ++ " is required"))
  | some value =>
      match fromValue value with
      | .ok t => pure t
      | .error cause =>
          throw (.invalidRequest ("payload." ++ field ++ " is invalid: " ++ cause))

/-- `serde_json::from_value` at the types that a command carries. -/
structure FromValue (Config Capsule : Type) where
  u32 : Value → Except String ℕ
  u64 : Value → Except String ℕ
  verificationMethod : Value → Except String TrustVerificationMethod
  appConfig : Value → Except String Config
  bleAssistCapsule : Value → Except String Capsule

namespace LocalIpcCommand

variable {Config Capsule : Type} (serde : FromValue Config Capsule)

def fromNameAndPayload (command : String) (payload : Option Value) :
    Except LocalIpcError (LocalIpcCommand Config Capsule) := do
  match command with
  | "auth/issue" => pure .authIssue
  | "auth/revoke" => pure .authRevoke
  | "discover/list" => pure .discoverList
  | "discover/connect_by_address" =>
      pure (.discoverConnectByAddress (← requiredString payload "address"))
  | "trust/list" => pure .trustList
  | "trust/pair" => pure (.trustPair (← requiredString payload "fingerprint"))
  | "trust/unpair" => pure (.trustUnpair (← requiredString payload "fingerprint"))
  | "trust/set_alias" =>
      let fingerprint ← requiredString payload "fingerprint"
      pure (.trustSetAlias fingerprint (← optionalString payload "alias"))
  | "trust/confirm_verification" =>
      let fingerprint ← requiredString payload "fingerprint"
      let method ← requiredValue serde.verificationMethod payload "verification_method"
      let mutualConfirmation ← optionalBool payload "mutual_confirmation"
      pure (.trustConfirmVerification fingerprint method (mutualConfirmation.getD false))
  | "config/get" => pure .configGet
  | "config/set" => pure (.configSet (← requiredValue serde.appConfig payload "config"))
  | "transfer/send" =>
      let peerFingerprint ← requiredString payload "peer_fingerprint"
      pure (.transferSend peerFingerprint (← requiredStringVec payload "paths"))
  | "transfer/accept" =>
      let transferId ← requiredString payload "transfer_id"
      pure (.transferAccept transferId (← requiredString payload "notification_id"))
  | "transfer/reject" =>
      let transferId ← requiredString payload "transfer_id"
      pure (.transferReject transferId (← requiredString payload "notification_id"))
  | "transfer/cancel" => pure (.transferCancel (← requiredString payload "transfer_id"))
  | "transfer/cancel_all" => pure .transferCancelAll
  | "transfer/retry" => pure (.transferRetry (← requiredString payload "transfer_id"))
  | "transfer/list" => pure .transferList
  | "transfer/get" => pure (.transferGet (← requiredString payload "transfer_id"))
  | "transfer/history" =>
      let limit ← requiredValue serde.u32 payload "limit"
      pure (.transferHistory limit (← requiredValue serde.u32 payload "offset"))
  | "transfer/pending_incoming" => pure .transferPendingIncoming
  | "app/activate" =>
      let paths ← requiredStringVec payload "paths"
      pure (.appActivate paths (← optionalStringVec payload "pairing_links"))
  | "app/get_local_identity" => pure .appGetLocalIdentity
  | "app/get_ble_assist_capsule" => pure .appGetBleAssistCapsule
  | "app/ingest_ble_assist_capsule" =>
      let capsule ← requiredValue serde.bleAssistCapsule payload "capsule"
      pure (.appIngestBleAssistCapsule capsule (← optionalString payload "source"))
  | "app/get_runtime_status" => pure .appGetRuntimeStatus
  | "app/get_discovery_diagnostics" => pure .appGetDiscoveryDiagnostics
  | "app/get_event_checkpoint" =>
      pure (.appGetEventCheckpoint (← requiredString payload "consumer_id"))
  | "app/get_event_feed" =>
      let afterSeq ← requiredValue serde.u64 payload "after_seq"
      pure (.appGetEventFeed afterSeq (← requiredValue serde.u32 payload "limit"))
  | "app/set_event_checkpoint" =>
      let consumerId ← requiredString payload "consumer_id"
      let generation ← requiredString payload "generation"
      pure (.appSetEventCheckpoint consumerId generation
        (← requiredValue serde.u64 payload "seq"))
  | "app/queue_external_share" =>
      pure (.appQueueExternalShare (← requiredStringVec payload "paths"))
  | "security/get_events" =>
      let limit ← requiredValue serde.u32 payload "limit"
      pure (.securityGetEvents limit (← requiredValue serde.u32 payload "offset"))
  | "transfer/get_metrics" => pure .transferGetMetrics
  | "security/get_posture" => pure .securityGetPosture
  | other =>
      if other ∈ reservedPhaseACommands then
        throw (.invalidRequest ("command " ++ other ++ " is reserved for the frozen Phase A IPC " ++
          "contract and is not implemented in the single-process baseline"))
      else throw (.invalidRequest ("unknown local IPC command " ++ other))

def fromWireRequest (request : LocalIpcWireRequest) :
    Except LocalIpcError (LocalIpcCommand Config Capsule) :=
  if request.protoVersion ≠ localIpcProtoVersion then
    .error (.protoMismatch localIpcProtoVersion request.protoVersion)
  else fromNameAndPayload serde request.command request.payload

end LocalIpcCommand

end DashDrop.Ipc.Commands
