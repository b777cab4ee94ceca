/- GID: DashDrop/Ipc/ResponseCodec
   source: src-tauri/src/local_ipc.rs, src-tauri/src/daemon/client.rs
   anchors: []
   digest: Current and legacy responses are told apart by the fields that they have. -/

import DashDrop.Ipc.RequestCodec

set_option autoImplicit false
set_option relaxedAutoImplicit false

namespace DashDrop.Ipc.ResponseCodec

open DashDrop.Foundation.Json
open DashDrop.Ipc.Commands DashDrop.Ipc.Frames DashDrop.Ipc.RequestCodec

/-- The structs that responses carry. -/
inductive Carried where
  | localIpcAccessGrant
  | deviceView
  | connectByAddressResult
  | trustedPeerView
  | appConfig
  | transferView
  | pendingIncomingRequestPayload
  | localIdentityView
  | bleAssistCapsule
  | runtimeStatus
  | runtimeEventFeedSnapshot
  | runtimeEventCheckpoint
  | securityEvent
  | transferMetrics

/-- `V c` is the type of the struct `c`. -/
inductive LocalIpcResponse (V : Carried → Type) where
  | accessGrant (auth : V .localIpcAccessGrant)
  | ack
  | devices (devices : List (V .deviceView))
  | connectByAddress (result : V .connectByAddressResult)
  | trustedPeers (trustedPeers : List (V .trustedPeerView))
  | appConfig (config : V .appConfig)
  | cancelledTransfers (count : ℕ)
  | transfers (transfers : List (V .transferView))
  | transfer (transfer : Option (V .transferView))
  | transferHistory (history : List (V .transferView))
  | pendingIncomingRequests (requests : List (V .pendingIncomingRequestPayload))
  | localIdentity (identity : V .localIdentityView)
  | bleAssistCapsule (capsule : V .bleAssistCapsule)
  | runtimeStatus (runtimeStatus : V .runtimeStatus)
  | discoveryDiagnostics (diagnostics : Value)
  | runtimeEvents (feed : V .runtimeEventFeedSnapshot)
  | runtimeEventCheckpoint (checkpoint : Option (V .runtimeEventCheckpoint))
  | securityEvents (events : List (V .securityEvent))
  | transferMetrics (metrics : V .transferMetrics)
  | securityPosture (posture : Value)

/-- What serde derives for the structs. -/
structure Serde (V : Carried → Type) where
  toValue : {c : Carried} → V c → Value
  fromValue : {c : Carried} → Value → Option (V c)

/-- A struct is written as an object and read back. -/
structure Serde.RoundTrips {V : Carried → Type} (serde : Serde V) : Prop where
  reads : ∀ {c : Carried} (v : V c), serde.fromValue (serde.toValue v) = some v
  object : ∀ {c : Carried} (v : V c), serde.toValue v ≠ .null

variable {V : Carried → Type}

def LocalIpcResponse.InRange : LocalIpcResponse V → Prop
  | .cancelledTransfers count => count < 2 ^ 32
  | _ => True

structure LocalIpcWireSuccess where
  protoVersion : ℕ
  requestId : String
  ok : Bool
  payload : Option Value

structure LocalIpcWireErrorResponse where
  protoVersion : ℕ
  requestId : String
  ok : Bool
  error : LocalIpcError

/-- `LocalIpcWireResponse` with every field that is read. -/
inductive WireResponse where
  | ok (success : LocalIpcWireSuccess)
  | err (error : LocalIpcWireErrorResponse)

inductive LocalIpcResult (V : Carried → Type) where
  | ok (response : LocalIpcResponse V)
  | err (error : LocalIpcError)

/-- `LocalResponseEnvelope` -/
structure LocalEnvelope (V : Carried → Type) where
  protoVersion : ℕ
  requestId : String
  command : LocalIpcResult V
  authContext : Option LocalAuthContext

section Write

variable (serde : Serde V)

def listValue {c : Carried} (items : List (V c)) : Value := .array (items.map serde.toValue)

namespace LocalIpcResponse

def payload : LocalIpcResponse V → Option Value
  | .accessGrant auth => some (.object [("auth", serde.toValue auth)])
  | .ack => none
  | .devices views => some (.object [("devices", listValue serde views)])
  | .connectByAddress result => some (.object [("result", serde.toValue result)])
  | .trustedPeers peers => some (.object [("trusted_peers", listValue serde peers)])
  | .appConfig config => some (.object [("config", serde.toValue config)])
  | .cancelledTransfers count => some (.object [("count", .nat count)])
  | .transfers views => some (.object [("transfers", listValue serde views)])
  | .transfer view => some (.object [("transfer", .opt serde.toValue view)])
  | .transferHistory history => some (.object [("history", listValue serde history)])
  | .pendingIncomingRequests requests => some (.object [("requests", listValue serde requests)])
  | .localIdentity identity => some (.object [("identity", serde.toValue identity)])
  | .bleAssistCapsule capsule => some (.object [("capsule", serde.toValue capsule)])
  | .runtimeStatus status => some (.object [("runtime_status", serde.toValue status)])
  | .discoveryDiagnostics diagnostics => some (.object [("diagnostics", diagnostics)])
  | .runtimeEvents feed => some (serde.toValue feed)
  | .runtimeEventCheckpoint checkpoint =>
      some (.object [("checkpoint", .opt serde.toValue checkpoint)])
  | .securityEvents events => some (.object [("events", listValue serde events)])
  | .transferMetrics metrics => some (.object [("metrics", serde.toValue metrics)])
  | .securityPosture posture => some (.object [("posture", posture)])

def intoWireResponse (response : LocalIpcResponse V) (requestId : String) (protoVersion : ℕ) :
    WireResponse :=
  .ok ⟨protoVersion, requestId, true, response.payload serde⟩

/-- The tag `type` and the fields of the variant. -/
def toFields : LocalIpcResponse V → String × List (String × Value)
  | .accessGrant auth => ("access_grant", [("auth", serde.toValue auth)])
  | .ack => ("ack", [])
  | .devices views => ("devices", [("devices", listValue serde views)])
  | .connectByAddress result => ("connect_by_address", [("result", serde.toValue result)])
  | .trustedPeers peers => ("trusted_peers", [("trusted_peers", listValue serde peers)])
  | .appConfig config => ("app_config", [("config", serde.toValue config)])
  | .cancelledTransfers count => ("cancelled_transfers", [("count", .nat count)])
  | .transfers views => ("transfers", [("transfers", listValue serde views)])
  | .transfer view => ("transfer", [("transfer", .opt serde.toValue view)])
  | .transferHistory history => ("transfer_history", [("history", listValue serde history)])
  | .pendingIncomingRequests requests =>
      ("pending_incoming_requests", [("requests", listValue serde requests)])
  | .localIdentity identity => ("local_identity", [("identity", serde.toValue identity)])
  | .bleAssistCapsule capsule => ("ble_assist_capsule", [("capsule", serde.toValue capsule)])
  | .runtimeStatus status =>
      ("runtime_status", [("runtime_status", serde.toValue status)])
  | .discoveryDiagnostics diagnostics => ("discovery_diagnostics", [("diagnostics", diagnostics)])
  | .runtimeEvents feed => ("runtime_events", [("feed", serde.toValue feed)])
  | .runtimeEventCheckpoint checkpoint =>
      ("runtime_event_checkpoint", [("checkpoint", .opt serde.toValue checkpoint)])
  | .securityEvents events => ("security_events", [("events", listValue serde events)])
  | .transferMetrics metrics => ("transfer_metrics", [("metrics", serde.toValue metrics)])
  | .securityPosture posture => ("security_posture", [("posture", posture)])

def toValue (response : LocalIpcResponse V) : Value :=
  let (tag, fields) := response.toFields serde
  .object (("type", .string tag) :: fields)

end LocalIpcResponse

def errorValue (error : LocalIpcError) : Value :=
  .object [("code", .string error.code), ("message", .string error.message)]

def LocalIpcResult.toValue : LocalIpcResult V → Value
  | ok response => .object [("status", .string "ok"), ("response", response.toValue serde)]
  | err error => .object [("status", .string "err"), ("error", errorValue error)]

def LocalEnvelope.toValue (envelope : LocalEnvelope V) : Value :=
  .object ([("proto_version", .nat envelope.protoVersion), ("request_id", .string envelope.requestId),
    ("command", envelope.command.toValue serde)] ++
    (envelope.authContext.map fun auth => ("auth_context", authContextValue auth)).toList)

end Write

def WireResponse.toValue : WireResponse → Value
  | ok success => .object ([("proto_version", .nat success.protoVersion),
      ("request_id", .string success.requestId), ("ok", .bool success.ok)] ++
      (success.payload.map fun payload => ("payload", payload)).toList)
  | err response => .object [("proto_version", .nat response.protoVersion),
      ("request_id", .string response.requestId), ("ok", .bool response.ok),
      ("error", errorValue response.error)]

/-- `LocalIpcWireResponse::error` and the success of `into_wire_response` as structs. -/
def wireResponseOf : LocalIpcWireResponse → WireResponse
  | .ok requestId protoVersion payload => .ok ⟨protoVersion, requestId, true, payload⟩
  | .err requestId protoVersion error => .err ⟨protoVersion, requestId, false, error⟩

def asBool : Value → Option Bool
  | .bool b => some b
  | _ => none

def asU32 : Value → Option ℕ
  | .number (.posInt n) => if n < 2 ^ 32 then some n else none
  | _ => none

/-- `deny_unknown_fields` -/
def onlyFields (known : List String) (fields : List (String × Value)) : Bool :=
  fields.all fun field => field.1 ∈ known

def errorFromValue (value : Value) : Option LocalIpcError := do
  let fields ← value.asObject
  let code ← (fields.lookup "code").bind Value.asStr
  let message ← (fields.lookup "message").bind Value.asStr
  pure ⟨code, message⟩

def successFromValue (value : Value) : Option LocalIpcWireSuccess := do
  let fields ← value.asObject
  guard (onlyFields ["proto_version", "request_id", "ok", "payload"] fields)
  let protoVersion ← (fields.lookup "proto_version").bind valueU16
  let requestId ← (fields.lookup "request_id").bind Value.asStr
  let ok ← (fields.lookup "ok").bind asBool
  let payload ← defaultedField some fields "payload"
  pure ⟨protoVersion, requestId, ok, payload⟩

def errorResponseFromValue (value : Value) : Option LocalIpcWireErrorResponse := do
  let fields ← value.asObject
  guard (onlyFields ["proto_version", "request_id", "ok", "error"] fields)
  let protoVersion ← (fields.lookup "proto_version").bind valueU16
  let requestId ← (fields.lookup "request_id").bind Value.asStr
  let ok ← (fields.lookup "ok").bind asBool
  let error ← (fields.lookup "error").bind errorFromValue
  pure ⟨protoVersion, requestId, ok, error⟩

def wireResponseFromValue (value : Value) : Option WireResponse :=
  ((successFromValue value).map .ok).orElse fun _ => (errorResponseFromValue value).map .err

section Read

variable (serde : Serde V)

def listFromValue {c : Carried} (value : Value) : Option (List (V c)) := do
  (← value.asArray).mapM serde.fromValue

def LocalIpcResponse.fromValue (value : Value) : Option (LocalIpcResponse V) := do
  let fields ← value.asObject
  let tag ← (fields.lookup "type").bind Value.asStr
  match tag with
  | "access_grant" => pure (.accessGrant (← (fields.lookup "auth").bind serde.fromValue))
  | "ack" => pure .ack
  | "devices" => pure (.devices (← (fields.lookup "devices").bind (listFromValue serde)))
  | "connect_by_address" =>
      pure (.connectByAddress (← (fields.lookup "result").bind serde.fromValue))
  | "trusted_peers" =>
      pure (.trustedPeers (← (fields.lookup "trusted_peers").bind (listFromValue serde)))
  | "app_config" => pure (.appConfig (← (fields.lookup "config").bind serde.fromValue))
  | "cancelled_transfers" => pure (.cancelledTransfers (← (fields.lookup "count").bind asU32))
  | "transfers" => pure (.transfers (← (fields.lookup "transfers").bind (listFromValue serde)))
  | "transfer" => pure (.transfer (← defaultedField serde.fromValue fields "transfer"))
  | "transfer_history" =>
      pure (.transferHistory (← (fields.lookup "history").bind (listFromValue serde)))
  | "pending_incoming_requests" =>
      pure (.pendingIncomingRequests (← (fields.lookup "requests").bind (listFromValue serde)))
  | "local_identity" => pure (.localIdentity (← (fields.lookup "identity").bind serde.fromValue))
  | "ble_assist_capsule" =>
      pure (.bleAssistCapsule (← (fields.lookup "capsule").bind serde.fromValue))
  | "runtime_status" =>
      pure (.runtimeStatus (← (fields.lookup "runtime_status").bind serde.fromValue))
  | "discovery_diagnostics" => pure (.discoveryDiagnostics (← fields.lookup "diagnostics"))
  | "runtime_events" => pure (.runtimeEvents (← (fields.lookup "feed").bind serde.fromValue))
  | "runtime_event_checkpoint" =>
      pure (.runtimeEventCheckpoint (← defaultedField serde.fromValue fields "checkpoint"))
  | "security_events" =>
      pure (.securityEvents (← (fields.lookup "events").bind (listFromValue serde)))
  | "transfer_metrics" => pure (.transferMetrics (← (fields.lookup "metrics").bind serde.fromValue))
  | "security_posture" => pure (.securityPosture (← fields.lookup "posture"))
  | _ => none

def LocalIpcResult.fromValue (value : Value) : Option (LocalIpcResult V) := do
  let fields ← value.asObject
  let status ← (fields.lookup "status").bind Value.asStr
  match status with
  | "ok" => pure (.ok (← (fields.lookup "response").bind (LocalIpcResponse.fromValue serde)))
  | "err" => pure (.err (← (fields.lookup "error").bind errorFromValue))
  | _ => none

def LocalEnvelope.fromValue (value : Value) : Option (LocalEnvelope V) := do
  let fields ← value.asObject
  let protoVersion ← (fields.lookup "proto_version").bind valueU16
  let requestId ← (fields.lookup "request_id").bind Value.asStr
  let command ← (fields.lookup "command").bind (LocalIpcResult.fromValue serde)
  let authContext ← defaultedField authContextFromValue fields "auth_context"
  pure ⟨protoVersion, requestId, command, authContext⟩

/-- `decode_response`; nothing stands for the error of a message that has none of the forms. -/
def decodeResponse (fromReader : List UInt8 → Option Value) (bytes : List UInt8) :
    Option WireResponse :=
  match decodeMessage fromReader wireResponseFromValue bytes with
  | some response => some response
  | none => do
    let envelope ← decodeMessage fromReader (LocalEnvelope.fromValue serde) bytes
    match envelope.command with
    | .ok response => pure (response.intoWireResponse serde envelope.requestId envelope.protoVersion)
    | .err error =>
        pure (wireResponseOf (.err envelope.requestId envelope.protoVersion error))

end Read

theorem wireResponseOf_toValue (response : LocalIpcWireResponse) :
    (wireResponseOf response).toValue = responseValue response := by
  cases response with
  | ok requestId protoVersion payload => rfl
  | err requestId protoVersion error => rfl

theorem success_read {success : LocalIpcWireSuccess} (version : success.protoVersion < 2 ^ 16)
    (some_payload : success.payload ≠ some .null) :
    wireResponseFromValue (WireResponse.ok success).toValue = some (.ok success) := by
  obtain ⟨protoVersion, requestId, ok, payload⟩ := success
  have read : successFromValue (WireResponse.ok ⟨protoVersion, requestId, ok, payload⟩).toValue =
      some ⟨protoVersion, requestId, ok, payload⟩ := by
    cases payload with
    | none =>
      exact some_bind rfl (some_bind rfl (some_bind (valueU16_nat version) (some_bind rfl
        (some_bind rfl (some_bind (defaultedField_none rfl) rfl)))))
    | some value =>
      have field : defaultedField some [("proto_version", .nat protoVersion),
          ("request_id", .string requestId), ("ok", .bool ok), ("payload", value)] "payload" =
            some (some value) := defaultedField_some rfl (fun null => some_payload (null ▸ rfl)) rfl
      exact some_bind rfl (some_bind rfl (some_bind (valueU16_nat version) (some_bind rfl
        (some_bind rfl (some_bind field rfl)))))
  rw [wireResponseFromValue, read]
  rfl

theorem error_read {response : LocalIpcWireErrorResponse} (version : response.protoVersion < 2 ^ 16) :
    wireResponseFromValue (WireResponse.err response).toValue = some (.err response) := by
  obtain ⟨protoVersion, requestId, ok, error⟩ := response
  have unread : successFromValue (WireResponse.err ⟨protoVersion, requestId, ok, error⟩).toValue =
      none := rfl
  have read : errorResponseFromValue
      (WireResponse.err ⟨protoVersion, requestId, ok, error⟩).toValue =
        some ⟨protoVersion, requestId, ok, error⟩ :=
    some_bind rfl (some_bind rfl (some_bind (valueU16_nat version) (some_bind rfl (some_bind rfl
      (some_bind rfl rfl)))))
  rw [wireResponseFromValue, unread, read]
  rfl

section Legacy

variable {serde : Serde V}

/-- The field `command` keeps a legacy envelope from being read as a current response. -/
theorem envelope_unread (envelope : LocalEnvelope V) :
    wireResponseFromValue (envelope.toValue serde) = none := by
  obtain ⟨protoVersion, requestId, command, authContext⟩ := envelope
  have success : successFromValue
      ((⟨protoVersion, requestId, command, authContext⟩ : LocalEnvelope V).toValue serde) = none := by
    cases authContext with
    | none => rfl
    | some auth => rfl
  have error : errorResponseFromValue
      ((⟨protoVersion, requestId, command, authContext⟩ : LocalEnvelope V).toValue serde) = none := by
    cases authContext with
    | none => rfl
    | some auth => rfl
  rw [wireResponseFromValue, success, error]
  rfl

theorem listFromValue_listValue (trips : serde.RoundTrips) {c : Carried} (items : List (V c)) :
    listFromValue serde (listValue serde items) = some items := by
  show (items.map serde.toValue).mapM serde.fromValue = some items
  induction items with
  | nil => rfl
  | cons item rest ih =>
    rw [List.map_cons, List.mapM_cons, trips.reads, ih]
    rfl

theorem optional_read (trips : serde.RoundTrips) {c : Carried} {fields : List (String × Value)}
    {field : String} {item : Option (V c)}
    (h : fields.lookup field = some (.opt serde.toValue item)) :
    defaultedField serde.fromValue fields field = some item := by
  cases item with
  | none => rw [defaultedField, h, Value.opt]
  | some v => exact defaultedField_some h (trips.object v) (trips.reads v)

theorem LocalIpcResponse.fromValue_toValue (trips : serde.RoundTrips) {response : LocalIpcResponse V}
    (range : response.InRange) :
    LocalIpcResponse.fromValue serde (response.toValue serde) = some response := by
  have reads {c : Carried} (v : V c) : (some (serde.toValue v)).bind serde.fromValue = some v :=
    trips.reads v
  have lists {c : Carried} (items : List (V c)) :
      (some (listValue serde items)).bind (listFromValue serde) = some items :=
    listFromValue_listValue trips items
  cases response with
  | accessGrant auth => exact some_bind rfl (some_bind rfl (some_bind (reads auth) rfl))
  | ack => rfl
  | devices devices => exact some_bind rfl (some_bind rfl (some_bind (lists devices) rfl))
  | connectByAddress result => exact some_bind rfl (some_bind rfl (some_bind (reads result) rfl))
  | trustedPeers peers => exact some_bind rfl (some_bind rfl (some_bind (lists peers) rfl))
  | appConfig config => exact some_bind rfl (some_bind rfl (some_bind (reads config) rfl))
  | cancelledTransfers count =>
    have read : asU32 (.nat count) = some count := if_pos range
    exact some_bind rfl (some_bind rfl (some_bind read rfl))
  | transfers transfers => exact some_bind rfl (some_bind rfl (some_bind (lists transfers) rfl))
  | transfer transfer =>
    exact some_bind rfl (some_bind rfl (some_bind (optional_read trips rfl) rfl))
  | transferHistory history => exact some_bind rfl (some_bind rfl (some_bind (lists history) rfl))
  | pendingIncomingRequests requests =>
    exact some_bind rfl (some_bind rfl (some_bind (lists requests) rfl))
  | localIdentity identity => exact some_bind rfl (some_bind rfl (some_bind (reads identity) rfl))
  | bleAssistCapsule capsule => exact some_bind rfl (some_bind rfl (some_bind (reads capsule) rfl))
  | runtimeStatus status => exact some_bind rfl (some_bind rfl (some_bind (reads status) rfl))
  | discoveryDiagnostics => rfl
  | runtimeEvents feed => exact some_bind rfl (some_bind rfl (some_bind (reads feed) rfl))
  | runtimeEventCheckpoint =>
    exact some_bind rfl (some_bind rfl (some_bind (optional_read trips rfl) rfl))
  | securityEvents events => exact some_bind rfl (some_bind rfl (some_bind (lists events) rfl))
  | transferMetrics metrics => exact some_bind rfl (some_bind rfl (some_bind (reads metrics) rfl))
  | securityPosture => rfl

theorem LocalIpcResult.fromValue_toValue (trips : serde.RoundTrips) {response : LocalIpcResponse V}
    (range : response.InRange) :
    LocalIpcResult.fromValue serde ((LocalIpcResult.ok response).toValue serde) =
      some (.ok response) :=
  some_bind rfl (some_bind rfl (some_bind (LocalIpcResponse.fromValue_toValue trips range) rfl))

theorem envelope_read {envelope : LocalEnvelope V} (version : envelope.protoVersion < 2 ^ 16)
    (command : LocalIpcResult.fromValue serde (envelope.command.toValue serde) =
      some envelope.command) :
    LocalEnvelope.fromValue serde (envelope.toValue serde) = some envelope := by
  obtain ⟨protoVersion, requestId, result, authContext⟩ := envelope
  cases authContext with
  | none =>
    exact some_bind rfl (some_bind (valueU16_nat version) (some_bind rfl (some_bind command
      (some_bind (defaultedField_none rfl) rfl))))
  | some auth =>
    have read : defaultedField authContextFromValue [("proto_version", .nat protoVersion),
        ("request_id", .string requestId), ("command", result.toValue serde),
        ("auth_context", authContextValue auth)] "auth_context" = some (some auth) :=
      defaultedField_some rfl Value.noConfusion (authContextFromValue_authContextValue auth)
    exact some_bind rfl (some_bind (valueU16_nat version) (some_bind rfl (some_bind command
      (some_bind read rfl))))

theorem payload_ne_null (trips : serde.RoundTrips) (response : LocalIpcResponse V) :
    response.payload serde ≠ some .null := by
  cases response with
  | runtimeEvents feed => exact fun null => trips.object feed (Option.some.inj null)
  | _ => exact fun null => by cases null

end Legacy

section Decode

variable {serde : Serde V} {cbor : Ciborium} {fromReader : List UInt8 → Option Value} {value : Value}
  {bytes : List UInt8}

theorem decodeResponse_current (encoded : encodeMessage cbor value = .ok bytes)
    (reads : fromReader (cbor.intoWriter value) = some value) {response : WireResponse}
    (derived : wireResponseFromValue value = some response) :
    decodeResponse serde fromReader bytes = some response := by
  obtain ⟨rfl, -⟩ := encodeMessage_ok.mp encoded
  simp only [decodeResponse, decodeMessage, reads, Option.bind_some, derived]

theorem decodeResponse_legacy {envelope : LocalEnvelope V}
    (encoded : encodeMessage cbor (envelope.toValue serde) = .ok bytes)
    (reads : fromReader (cbor.intoWriter (envelope.toValue serde)) =
      some (envelope.toValue serde))
    (derived : LocalEnvelope.fromValue serde (envelope.toValue serde) = some envelope) :
    decodeResponse serde fromReader bytes = some (match envelope.command with
      | .ok response => response.intoWireResponse serde envelope.requestId envelope.protoVersion
      | .err error => wireResponseOf (.err envelope.requestId envelope.protoVersion error)) := by
  obtain ⟨rfl, -⟩ := encodeMessage_ok.mp encoded
  have legacy : decodeMessage fromReader (LocalEnvelope.fromValue serde)
      (cbor.intoWriter (envelope.toValue serde)) = some envelope := by
    rw [decodeMessage, reads]
    exact derived
  have current : decodeMessage fromReader wireResponseFromValue
      (cbor.intoWriter (envelope.toValue serde)) = none := by
    rw [decodeMessage, reads]
    exact envelope_unread envelope
  rw [decodeResponse, current]
  apply some_bind legacy
  cases envelope.command with
  | ok response => rfl
  | err error => rfl

end Decode

/-- Read back by `fromReader` where it fits a frame. -/
def ReadsBack (cbor : Ciborium) (fromReader : List UInt8 → Option Value) (value : Value) : Prop :=
  fromReader (cbor.intoWriter value) = some value

/-- A current response is decoded as itself, and a legacy envelope as the current response that
stands for it. -/
theorem decode_response {serde : Serde V} (trips : serde.RoundTrips) {response : LocalIpcResponse V}
    (range : response.InRange) (error : LocalIpcError) (requestId : String) {protoVersion : ℕ}
    (version : protoVersion < 2 ^ 16) (authContext : Option LocalAuthContext) (cbor : Ciborium)
    (fromReader : List UInt8 → Option Value) :
    (ReadsBack cbor fromReader (response.intoWireResponse serde requestId protoVersion).toValue →
      ∀ bytes, encodeMessage cbor
        (response.intoWireResponse serde requestId protoVersion).toValue = .ok bytes →
          decodeResponse serde fromReader bytes =
            some (response.intoWireResponse serde requestId protoVersion)) ∧
    (ReadsBack cbor fromReader (wireResponseOf (.err requestId protoVersion error)).toValue →
      ∀ bytes, encodeMessage cbor
        (wireResponseOf (.err requestId protoVersion error)).toValue = .ok bytes →
          decodeResponse serde fromReader bytes =
            some (wireResponseOf (.err requestId protoVersion error))) ∧
    (ReadsBack cbor fromReader
        ((⟨protoVersion, requestId, .ok response, authContext⟩ : LocalEnvelope V).toValue serde) →
      ∀ bytes, encodeMessage cbor ((⟨protoVersion, requestId, .ok response, authContext⟩ :
        LocalEnvelope V).toValue serde) = .ok bytes →
          decodeResponse serde fromReader bytes =
            some (response.intoWireResponse serde requestId protoVersion)) ∧
    (ReadsBack cbor fromReader
        ((⟨protoVersion, requestId, .err error, authContext⟩ : LocalEnvelope V).toValue serde) →
      ∀ bytes, encodeMessage cbor ((⟨protoVersion, requestId, .err error, authContext⟩ :
        LocalEnvelope V).toValue serde) = .ok bytes →
          decodeResponse serde fromReader bytes =
            some (wireResponseOf (.err requestId protoVersion error))) := by
  refine ⟨?_, ?_, ?_, ?_⟩
  · intro reads bytes encoded
    exact decodeResponse_current encoded reads (success_read version (payload_ne_null trips response))
  · intro reads bytes encoded
    exact decodeResponse_current encoded reads (error_read version)
  · intro reads bytes encoded
    exact decodeResponse_legacy encoded reads
      (envelope_read version (LocalIpcResult.fromValue_toValue trips range))
  · intro reads bytes encoded
    exact decodeResponse_legacy encoded reads (envelope_read version rfl)

def plainStructs : Serde fun _ => String where
  toValue s := .object [("name", .string s)]
  fromValue value := (value.asObject.bind (·.lookup "name")).bind Value.asStr

theorem plainStructs_trips : plainStructs.RoundTrips where
  reads _ := rfl
  object _ := Value.noConfusion

def twoCancelled : LocalIpcResponse fun _ => String := .cancelledTransfers 2

def legacyCancelled : LocalEnvelope fun _ => String := ⟨1, "7", .ok twoCancelled, none⟩

theorem two_cancelled_decoded :
    (∃ bytes, encodeMessage standardCbor
        (twoCancelled.intoWireResponse plainStructs "7" 1).toValue = .ok bytes ∧
      decodeResponse plainStructs (readerOf standardCbor
        (twoCancelled.intoWireResponse plainStructs "7" 1).toValue) bytes =
          some (twoCancelled.intoWireResponse plainStructs "7" 1)) ∧
    ∃ bytes, encodeMessage standardCbor (legacyCancelled.toValue plainStructs) = .ok bytes ∧
      decodeResponse plainStructs (readerOf standardCbor (legacyCancelled.toValue plainStructs))
        bytes = some (twoCancelled.intoWireResponse plainStructs "7" 1) := by
  have range : twoCancelled.InRange := show 2 < 2 ^ 32 by decide
  have short : (standardCbor.intoWriter
      (twoCancelled.intoWireResponse plainStructs "7" 1).toValue).length ≤ localIpcMaxFrameLen := by
    decide +kernel
  have short' : (standardCbor.intoWriter (legacyCancelled.toValue plainStructs)).length ≤
      localIpcMaxFrameLen := by
    decide +kernel
  constructor
  · have encoded := encodeMessage_ok.mpr ⟨rfl, short⟩
    have decoded := decode_response plainStructs_trips range (.dispatchFailed "") "7"
      (show 1 < 2 ^ 16 by decide) none standardCbor (readerOf standardCbor
        (twoCancelled.intoWireResponse plainStructs "7" 1).toValue)
    exact ⟨_, encoded, decoded.1 (readerOf_self _ _) _ encoded⟩
  · have encoded := encodeMessage_ok.mpr ⟨rfl, short'⟩
    have decoded := decode_response plainStructs_trips range (.dispatchFailed "") "7"
      (show 1 < 2 ^ 16 by decide) none standardCbor
      (readerOf standardCbor (legacyCancelled.toValue plainStructs))
    exact ⟨_, encoded, decoded.2.2.1 (readerOf_self _ _) _ encoded⟩

end DashDrop.Ipc.ResponseCodec
