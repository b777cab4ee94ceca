/- GID: DashDrop/Ipc/RequestCodec
   source: src-tauri/src/local_ipc.rs
   anchors: []
   digest: A command comes back unchanged from its wire request and the frame on the stream. -/

import DashDrop.Foundation.Framing
import DashDrop.Ipc.Client
import DashDrop.Ipc.Frames

set_option autoImplicit false
set_option relaxedAutoImplicit false

namespace DashDrop.Ipc.RequestCodec

open DashDrop.Foundation.Json DashDrop.Foundation.Cbor DashDrop.Foundation.Framing
open DashDrop.Trust.Peers (TrustVerificationMethod)
open DashDrop.Ipc.Commands DashDrop.Ipc.Client DashDrop.Ipc.Frames

variable {Config Capsule : Type}

/-- The numbers of a command fit the fields that hold them. -/
def InRange : LocalIpcCommand Config Capsule → Prop
  | .transferHistory limit offset | .securityGetEvents limit offset =>
      limit < 2 ^ 32 ∧ offset < 2 ^ 32
  | .appGetEventFeed afterSeq limit => afterSeq < 2 ^ 64 ∧ limit < 2 ^ 32
  | .appSetEventCheckpoint _ _ seq => seq < 2 ^ 64
  | _ => True

/-- `serde_json::from_value` reads what `serde_json::to_value` wrote. -/
structure RoundTrips (json : ToValue Config Capsule) (serde : FromValue Config Capsule) : Prop where
  u32 : ∀ n < 2 ^ 32, serde.u32 (.nat n) = .ok n
  u64 : ∀ n < 2 ^ 64, serde.u64 (.nat n) = .ok n
  verificationMethod : ∀ method,
    serde.verificationMethod (json.verificationMethod method) = .ok method
  appConfig : ∀ config, serde.appConfig (json.appConfig config) = .ok config
  bleAssistCapsule : ∀ capsule, serde.bleAssistCapsule (json.bleAssistCapsule capsule) = .ok capsule

def authContextValue (auth : LocalAuthContext) : Value :=
  .object (auth.accessToken.map fun token => ("access_token", Value.string token)).toList

def requestFields (request : LocalIpcWireRequest) : List (String × Value) :=
  [("proto_version", .nat request.protoVersion), ("request_id", .string request.requestId),
    ("command", .string request.command)] ++
    (request.payload.map fun payload => ("payload", payload)).toList ++
    (request.authContext.map fun auth => ("auth_context", authContextValue auth)).toList

def requestValue (request : LocalIpcWireRequest) : Value := .object (requestFields request)

def valueU16 : Value → Option ℕ
  | .number (.posInt n) => if n < 2 ^ 16 then some n else none
  | _ => none

/-- A field that defaults to `None`; null is read as `None` too. -/
def defaultedField {T : Type} (fromValue : Value → Option T) (fields : List (String × Value))
    (field : String) : Option (Option T) :=
  match fields.lookup field with
  | none | some .null => some none
  | some value => (fromValue value).map some

def authContextFromValue (value : Value) : Option LocalAuthContext := do
  let fields ← value.asObject
  let accessToken ← defaultedField Value.asStr fields "access_token"
  pure ⟨accessToken⟩

def requestFromValue (value : Value) : Option LocalIpcWireRequest := do
  let fields ← value.asObject
  let protoVersion ← (fields.lookup "proto_version").bind valueU16
  let requestId ← (fields.lookup "request_id").bind Value.asStr
  let command ← (fields.lookup "command").bind Value.asStr
  let payload ← defaultedField some fields "payload"
  let authContext ← defaultedField authContextFromValue fields "auth_context"
  pure ⟨protoVersion, requestId, command, payload, authContext⟩

/-- Why `read_framed_message` fails. -/
inductive ReadFault where
  | frame (fault : FrameFault)
  | deserialize
  deriving DecidableEq

/-- `from_reader` is how `ciborium::from_reader` reads bytes as a value, and `from_value` what serde
derives for the type. -/
def decodeMessage {T : Type} (fromReader : List UInt8 → Option Value)
    (fromValue : Value → Option T) (bytes : List UInt8) : Option T :=
  (fromReader bytes).bind fromValue

def readFramedMessage {T : Type} (fromReader : List UInt8 → Option Value)
    (fromValue : Value → Option T) (stream : List UInt8) : Except ReadFault (T × List UInt8) :=
  match splitFrame 4 localIpcMaxFrameLen stream with
  | .error fault => .error (.frame fault)
  | .ok (bytes, rest) =>
    match decodeMessage fromReader fromValue bytes with
    | none => .error .deserialize
    | some message => .ok (message, rest)

section Fields

variable {fields : List (String × Value)} {field : String}

theorem payloadObject_object : payloadObject (some (.object fields)) = .ok fields := rfl

theorem ok_bind {S T : Type} (s : S) (next : S → Except LocalIpcError T) :
    (Except.ok s >>= next) = next s := rfl

theorem read_bind {S T : Type} {read : Except LocalIpcError S} {s : S} (first : read = .ok s)
    {next : S → Except LocalIpcError T} {outcome : Except LocalIpcError T}
    (rest : next s = outcome) : (read >>= next) = outcome := by
  rw [first, ok_bind, rest]

theorem requiredString_ok {s : String} (h : fields.lookup field = some (.string s)) :
    requiredString (some (.object fields)) field = .ok s := by
  rw [requiredString, payloadObject_object, ok_bind, h]
  rfl

theorem optionalString_ok {s : Option String} (h : fields.lookup field = some (.opt .string s)) :
    optionalString (some (.object fields)) field = .ok s := by
  rw [optionalString, payloadObject_object, ok_bind, h]
  cases s with
  | none => rfl
  | some s => rfl

theorem optionalBool_ok {b : Bool} (h : fields.lookup field = some (.bool b)) :
    optionalBool (some (.object fields)) field = .ok (some b) := by
  rw [optionalBool, payloadObject_object, ok_bind, h]
  rfl

theorem stringItems_strings (items : List String) :
    stringItems field (items.map .string) = .ok items := by
  induction items with
  | nil => rfl
  | cons item rest ih =>
    rw [stringItems] at ih ⊢
    rw [List.map_cons, List.mapM_cons, ih]
    rfl

theorem requiredStringVec_ok {items : List String} (h : fields.lookup field = some (strings items)) :
    requiredStringVec (some (.object fields)) field = .ok items := by
  rw [requiredStringVec, payloadObject_object, ok_bind, h]
  exact stringItems_strings items

theorem optionalStringVec_ok {items : List String} (h : fields.lookup field = some (strings items)) :
    optionalStringVec (some (.object fields)) field = .ok items := by
  rw [optionalStringVec, payloadObject_object, ok_bind, h]
  exact stringItems_strings items

theorem requiredValue_ok {T : Type} {fromValue : Value → Except String T} {value : Value} {t : T}
    (h : fields.lookup field = some value) (reads : fromValue value = .ok t) :
    requiredValue fromValue (some (.object fields)) field = .ok t := by
  rw [requiredValue, payloadObject_object, ok_bind, h]
  simp only [reads]
  rfl

theorem some_bind {S T : Type} {read : Option S} {s : S} (first : read = some s)
    {next : S → Option T} {outcome : Option T} (rest : next s = outcome) :
    (read >>= next) = outcome := by
  rw [first]
  exact rest

theorem valueU16_nat {n : ℕ} (short : n < 2 ^ 16) : valueU16 (.nat n) = some n := if_pos short

theorem defaultedField_none {T : Type} {fromValue : Value → Option T}
    (h : fields.lookup field = none) : defaultedField fromValue fields field = some none := by
  rw [defaultedField, h]

theorem defaultedField_some {T : Type} {fromValue : Value → Option T} {value : Value} {t : T}
    (h : fields.lookup field = some value) (some_value : value ≠ .null)
    (reads : fromValue value = some t) :
    defaultedField fromValue fields field = some (some t) := by
  rw [defaultedField, h]
  cases value with
  | null => exact absurd rfl some_value
  | bool | number | string | array | object => exact congrArg (Option.map some) reads

theorem authContextFromValue_authContextValue (auth : LocalAuthContext) :
    authContextFromValue (authContextValue auth) = some auth := by
  obtain ⟨token⟩ := auth
  cases token with
  | none => rfl
  | some token => rfl

end Fields

section Encode

variable {cbor : Ciborium} {value : Value}

theorem encodeMessage_ok {bytes : List UInt8} : encodeMessage cbor value = .ok bytes ↔
    bytes = cbor.intoWriter value ∧ (cbor.intoWriter value).length ≤ localIpcMaxFrameLen := by
  unfold encodeMessage
  simp only
  by_cases large : (cbor.intoWriter value).length > localIpcMaxFrameLen
  · rw [if_pos large]
    constructor
    · intro h
      cases h
    · rintro ⟨-, fits⟩
      omega
  · rw [if_neg large]
    constructor
    · intro h
      cases h
      exact ⟨rfl, Nat.not_lt.mp large⟩
    · rintro ⟨rfl, -⟩
      rfl

theorem encodeMessage_error {error : LocalIpcCodecError} (h : encodeMessage cbor value = .error error) :
    ∃ len > localIpcMaxFrameLen, error = .frameTooLarge len := by
  unfold encodeMessage at h
  simp only at h
  split_ifs at h with large
  cases h
  exact ⟨_, large, rfl⟩

end Encode

section RoundTrip

variable {json : ToValue Config Capsule} {serde : FromValue Config Capsule}
  {command : LocalIpcCommand Config Capsule}

theorem fromNameAndPayload_payload (trips : RoundTrips json serde) (inRange : InRange command) :
    LocalIpcCommand.fromNameAndPayload serde command.name (payload json command) =
      .ok command := by
  cases command with
  | authIssue | authRevoke | discoverList | trustList | configGet | transferCancelAll
  | transferList | transferPendingIncoming | appGetLocalIdentity | appGetBleAssistCapsule
  | appGetRuntimeStatus | appGetDiscoveryDiagnostics | transferGetMetrics | securityGetPosture
  | discoverConnectByAddress | trustPair | trustUnpair | transferAccept | transferReject
  | transferCancel | transferRetry | transferGet | appGetEventCheckpoint => rfl
  | trustSetAlias => exact read_bind (requiredString_ok rfl) (read_bind (optionalString_ok rfl) rfl)
  | trustConfirmVerification _ method =>
    exact read_bind (requiredString_ok rfl)
      (read_bind (requiredValue_ok rfl (trips.verificationMethod method))
        (read_bind (optionalBool_ok rfl) rfl))
  | configSet config => exact read_bind (requiredValue_ok rfl (trips.appConfig config)) rfl
  | transferSend => exact read_bind (requiredString_ok rfl) (read_bind (requiredStringVec_ok rfl) rfl)
  | transferHistory limit offset | securityGetEvents limit offset =>
    exact read_bind (requiredValue_ok rfl (trips.u32 limit inRange.1))
      (read_bind (requiredValue_ok rfl (trips.u32 offset inRange.2)) rfl)
  | appActivate =>
    exact read_bind (requiredStringVec_ok rfl) (read_bind (optionalStringVec_ok rfl) rfl)
  | appIngestBleAssistCapsule capsule =>
    exact read_bind (requiredValue_ok rfl (trips.bleAssistCapsule capsule))
      (read_bind (optionalString_ok rfl) rfl)
  | appGetEventFeed afterSeq limit =>
    exact read_bind (requiredValue_ok rfl (trips.u64 afterSeq inRange.1))
      (read_bind (requiredValue_ok rfl (trips.u32 limit inRange.2)) rfl)
  | appSetEventCheckpoint _ _ seq =>
    exact read_bind (requiredString_ok rfl)
      (read_bind (requiredString_ok rfl) (read_bind (requiredValue_ok rfl (trips.u64 seq inRange)) rfl))
  | appQueueExternalShare => exact read_bind (requiredStringVec_ok rfl) rfl

theorem payload_ne_null (json : ToValue Config Capsule) (command : LocalIpcCommand Config Capsule) :
    payload json command ≠ some .null := by
  cases command <;> exact fun null => by cases null

theorem requestFromValue_requestValue (request : LocalIpcWireRequest)
    (version : request.protoVersion < 2 ^ 16) (some_payload : request.payload ≠ some .null) :
    requestFromValue (requestValue request) = some request := by
  obtain ⟨protoVersion, requestId, command, payload, authContext⟩ := request
  have payload_read : defaultedField some (requestFields
      ⟨protoVersion, requestId, command, payload, authContext⟩) "payload" = some payload := by
    cases payload with
    | none =>
      apply defaultedField_none
      cases authContext with
      | none => rfl
      | some auth => rfl
    | some value => exact defaultedField_some rfl (fun null => some_payload (null ▸ rfl)) rfl
  have auth_read : defaultedField authContextFromValue (requestFields
      ⟨protoVersion, requestId, command, payload, authContext⟩) "auth_context" =
        some authContext := by
    cases authContext with
    | none =>
      apply defaultedField_none
      cases payload with
      | none => rfl
      | some value => rfl
    | some auth =>
      apply defaultedField_some _ Value.noConfusion (authContextFromValue_authContextValue auth)
      cases payload with
      | none => rfl
      | some value => rfl
  exact some_bind rfl (some_bind (valueU16_nat version) (some_bind rfl (some_bind rfl
    (some_bind payload_read (some_bind auth_read rfl)))))

section Main

variable (cbor : Ciborium) (fromReader : List UInt8 → Option Value)

theorem read_of_encoded {T : Type} {value : Value} {bytes : List UInt8}
    (encoded : encodeMessage cbor value = .ok bytes) (reads : fromReader (cbor.intoWriter value) =
      some value) {fromValue : Value → Option T} {t : T} (derived : fromValue value = some t) :
    ∃ frame, writeFrameBytes bytes = .ok frame ∧
      ∀ rest, readFramedMessage fromReader fromValue (frame ++ rest) = .ok (t, rest) := by
  obtain ⟨rfl, fits⟩ := encodeMessage_ok.mp encoded
  refine ⟨_, if_neg (Nat.not_lt.mpr fits), fun rest => ?_⟩
  have short : (cbor.intoWriter value).length < 256 ^ 4 :=
    lt_of_le_of_lt fits (by decide)
  rw [readFramedMessage, List.append_assoc, splitFrame_frame rest short fits]
  simp only [decodeMessage, reads, Option.bind_some, derived]

end Main

/-- Every command comes back from the frame of its request, with the request's id and auth context;
only a request above the limit has no frame, and no other command has its name and payload. -/
theorem request_codec (trips : RoundTrips json serde) (inRange : InRange command)
    (requestId : String) (authContext : Option LocalAuthContext) (cbor : Ciborium)
    {fromReader : List UInt8 → Option Value}
    (reads : fromReader (cbor.intoWriter (requestValue
      (toWireRequest json command requestId authContext))) =
        some (requestValue (toWireRequest json command requestId authContext))) :
    (∀ error, encodeMessage cbor (requestValue (toWireRequest json command requestId authContext)) =
      .error error → ∃ len > localIpcMaxFrameLen, error = .frameTooLarge len) ∧
    (∀ bytes, encodeMessage cbor (requestValue (toWireRequest json command requestId authContext)) =
      .ok bytes → ∃ frame, writeFrameBytes bytes = .ok frame ∧
        ∀ rest, ∃ request, readFramedMessage fromReader requestFromValue (frame ++ rest) =
          .ok (request, rest) ∧
            LocalIpcCommand.fromWireRequest serde request = .ok command ∧
            request.requestId = requestId ∧ request.authContext = authContext) ∧
    ∀ other : LocalIpcCommand Config Capsule, InRange other → other.name = command.name →
      payload json other = payload json command → other = command := by
  refine ⟨?_, ?_, ?_⟩
  · intro error failed
    exact encodeMessage_error failed
  · intro bytes encoded
    have derived := requestFromValue_requestValue
      (toWireRequest json command requestId authContext) (show 1 < 2 ^ 16 by decide)
      (payload_ne_null json command)
    obtain ⟨frame, framed, read⟩ := read_of_encoded cbor fromReader encoded reads derived
    refine ⟨frame, framed, fun rest => ⟨_, read rest, ?_, rfl, rfl⟩⟩
    have same : LocalIpcCommand.fromWireRequest serde
        (toWireRequest json command requestId authContext) =
          LocalIpcCommand.fromNameAndPayload serde command.name (payload json command) := if_neg (by
      simp [toWireRequest])
    rw [same]
    exact fromNameAndPayload_payload trips inRange
  · intro other range name same
    have first := fromNameAndPayload_payload trips range
    rw [name, same, fromNameAndPayload_payload trips inRange] at first
    exact (Except.ok.inj first).symm

end RoundTrip

def methodText : TrustVerificationMethod → String
  | .manualPairing => "manual_pairing"
  | .legacyUnsignedLink => "legacy_unsigned_link"
  | .signedPairingLink => "signed_pairing_link"
  | .mutualReceipt => "mutual_receipt"

def methodOfText : String → Except String TrustVerificationMethod
  | "manual_pairing" => .ok .manualPairing
  | "legacy_unsigned_link" => .ok .legacyUnsignedLink
  | "signed_pairing_link" => .ok .signedPairingLink
  | "mutual_receipt" => .ok .mutualReceipt
  | other => .error ("unknown variant " ++ other)

def uintBelow (bound : ℕ) : Value → Except String ℕ
  | .number (.posInt n) => if n < bound then .ok n else .error "invalid value"
  | _ => .error "invalid type"

def plainJson : ToValue String String :=
  ⟨fun method => .string (methodText method), .string, .string⟩

def plainText : Value → Except String String
  | .string s => .ok s
  | _ => .error "invalid type"

def plainSerde : FromValue String String where
  u32 := uintBelow (2 ^ 32)
  u64 := uintBelow (2 ^ 64)
  verificationMethod
    | .string s => methodOfText s
    | _ => .error "invalid type"
  appConfig := plainText
  bleAssistCapsule := plainText

theorem plain_roundTrips : RoundTrips plainJson plainSerde where
  u32 _ short := if_pos short
  u64 _ short := if_pos short
  verificationMethod method := by
    cases method with
    | manualPairing | legacyUnsignedLink | signedPairingLink | mutualReceipt => rfl
  appConfig _ := rfl
  bleAssistCapsule _ := rfl

def secondPage : LocalIpcWireRequest :=
  toWireRequest plainJson (.transferHistory 50 50) "7" (some ⟨some "token"⟩)

def readerOf (cbor : Ciborium) (value : Value) (bytes : List UInt8) : Option Value :=
  if bytes = cbor.intoWriter value then some value else none

theorem readerOf_self (cbor : Ciborium) (value : Value) :
    readerOf cbor value (cbor.intoWriter value) = some value := if_pos rfl

theorem second_page_read :
    ∃ bytes frame, encodeMessage standardCbor (requestValue secondPage) = .ok bytes ∧
      writeFrameBytes bytes = .ok frame ∧
      ∃ request, readFramedMessage (readerOf standardCbor (requestValue secondPage))
        requestFromValue (frame ++ []) = .ok (request, []) ∧
          LocalIpcCommand.fromWireRequest plainSerde request = .ok (.transferHistory 50 50) := by
  have short : (standardCbor.intoWriter (requestValue secondPage)).length ≤ localIpcMaxFrameLen := by
    decide +kernel
  have encoded := encodeMessage_ok.mpr ⟨rfl, short⟩
  have range : InRange (.transferHistory 50 50 : LocalIpcCommand String String) :=
    ⟨by decide, by decide⟩
  have codec := request_codec plain_roundTrips range "7" (some ⟨some "token"⟩) standardCbor
    (readerOf_self standardCbor (requestValue secondPage))
  obtain ⟨frame, framed, read⟩ := codec.2.1 _ encoded
  obtain ⟨request, stream, command, -, -⟩ := read []
  exact ⟨_, frame, encoded, framed, request, stream, command⟩

end DashDrop.Ipc.RequestCodec
