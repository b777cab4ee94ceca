/- GID: DashDrop/Ipc/Connection
   source: src-tauri/src/daemon/server.rs, src-tauri/src/daemon/client.rs
   anchors: []
   digest: A connection of the local IPC serves what arrived of its requests, in order. -/

import DashDrop.Foundation.FrameStreams
import DashDrop.Ipc.ResponseCodec

set_option autoImplicit false
set_option relaxedAutoImplicit false

namespace DashDrop.Ipc.Connection

open DashDrop.Foundation.Framing DashDrop.Foundation.FrameStreams DashDrop.Foundation.Json
open DashDrop.Ipc.Commands DashDrop.Ipc.Dispatch DashDrop.Ipc.Frames DashDrop.Ipc.RequestCodec
open DashDrop.Ipc.ResponseCodec

/-- The clock and the random bytes when a frame is served, and what other connections did to the
daemon since the frame before. -/
structure Moment (S : Type) where
  now : ℕ
  bytes : Vector UInt8 32
  meanwhile : Daemon S → Daemon S

/-- What a connection is served with. -/
structure Host (Config Capsule S : Type) where
  cbor : Ciborium
  fromReader : List UInt8 → Option Value
  /-- The text of the error for bytes that are no request. -/
  deserializeFault : List UInt8 → String
  serde : FromValue Config Capsule
  service : Service Config Capsule S
  currentUid : ℕ
  endpointKind : LocalIpcEndpointKind
  peerIdentity : Option LocalPeerIdentity
  moments : ℕ → Moment S

/-- The daemon after a connection, what was written to it, and how `handle_connection` returned. -/
structure Conduct (S : Type) where
  daemon : Daemon S
  written : List UInt8
  outcome : Except String Unit

/-- An answer, and the context of the error if it cannot be written. -/
structure Answer (S : Type) where
  daemon : Daemon S
  response : LocalIpcWireResponse
  context : String

structure Dispatched (S : Type) where
  daemon : Daemon S
  responses : List LocalIpcWireResponse
  outcome : Except String Unit

def frameTooLarge (len : ℕ) : String := "frame too large: " ++ toString len ++ " bytes"

variable {Config Capsule S : Type}

namespace Host

variable (host : Host Config Capsule S)

def answerRequest (n : ℕ) (d : Daemon S) (request : LocalIpcWireRequest) : Answer S :=
  let moment := host.moments n
  let served := dispatchRequest host.serde host.service host.currentUid
    ⟨request, host.endpointKind, host.peerIdentity, moment.now, moment.bytes⟩ (moment.meanwhile d)
  ⟨served.daemon, served.response, "write local IPC response"⟩

/-- The answer to the `n`-th frame. -/
def answer (n : ℕ) (d : Daemon S) (bytes : List UInt8) : Answer S :=
  match decodeMessage host.fromReader requestFromValue bytes with
  | some request => host.answerRequest n d request
  | none =>
      ⟨(host.moments n).meanwhile d, .err "decode-error" localIpcProtoVersion
        (.invalidRequest ("failed to deserialize cbor: " ++ host.deserializeFault bytes)),
        "write decode error response"⟩

/-- `handle_connection` from the `n`-th frame on. -/
def handleConnection (n : ℕ) (d : Daemon S) (stream : List UInt8) : Conduct S :=
  match _split : splitFrame 4 localIpcMaxFrameLen stream with
  | .error (.tooLong len) => ⟨d, [], .error (frameTooLarge len)⟩
  -- `UnexpectedEof`, also in the middle of a frame
  | .error _ => ⟨d, [], .ok ()⟩
  | .ok (bytes, rest) =>
    let answer := host.answer n d bytes
    match writeFramedMessage host.cbor (responseValue answer.response) with
    | .error (.frameTooLarge len) =>
        ⟨answer.daemon, [], .error (answer.context ++ ": " ++ frameTooLarge len)⟩
    | .ok out =>
        let later := handleConnection (n + 1) answer.daemon rest
        ⟨later.daemon, out ++ later.written, later.outcome⟩
termination_by stream.length
decreasing_by
  have taken := length_of_splitFrame _split
  omega

/-- The requests dispatched one after another, up to an answer that no frame can carry. -/
def direct (n : ℕ) (d : Daemon S) : List LocalIpcWireRequest → Dispatched S
  | [] => ⟨d, [], .ok ()⟩
  | request :: rest =>
    let answer := host.answerRequest n d request
    match encodeMessage host.cbor (responseValue answer.response) with
    | .error (.frameTooLarge len) =>
        ⟨answer.daemon, [], .error (answer.context ++ ": " ++ frameTooLarge len)⟩
    | .ok _ =>
        let later := direct (n + 1) answer.daemon rest
        ⟨later.daemon, answer.response :: later.responses, later.outcome⟩

end Host

section Client

def responseProtoVersion : WireResponse → ℕ
  | .ok success => success.protoVersion
  | .err response => response.protoVersion

def responseRequestId : WireResponse → String
  | .ok success => success.requestId
  | .err response => response.requestId

def validateResponse (request : LocalIpcWireRequest) (response : WireResponse) :
    Except String WireResponse :=
  if responseProtoVersion response ≠ localIpcProtoVersion then
    .error ("local IPC response proto mismatch: expected " ++ toString localIpcProtoVersion ++
      ", got " ++ toString (responseProtoVersion response))
  else if responseRequestId response ≠ request.requestId then
    .error ("local IPC response request id mismatch: expected " ++ request.requestId ++
      ", got " ++ responseRequestId response)
  else .ok response

variable {V : Carried → Type} (serde : Serde V) (fromReader : List UInt8 → Option Value)

/-- `send_envelope` once the request is written. -/
def receiveResponse (request : LocalIpcWireRequest) (stream : List UInt8) :
    Except String (WireResponse × List UInt8) :=
  match splitFrame 4 localIpcMaxFrameLen stream with
  | .error _ => .error "read local IPC response"
  | .ok (bytes, rest) =>
    match decodeResponse serde fromReader bytes with
    | none => .error "decode local IPC response"
    | some response => do
      let response ← validateResponse request response
      pure (response, rest)

/-- The responses to requests on one connection, up to the first that fails. -/
def receiveResponses : List LocalIpcWireRequest → List UInt8 → List WireResponse
  | [], _ => []
  | request :: later, stream =>
    match receiveResponse serde fromReader request stream with
    | .error _ => []
    | .ok (response, rest) => response :: receiveResponses later rest

end Client

structure Framable (cbor : Ciborium) (fromReader : List UInt8 → Option Value) (value : Value) :
    Prop where
  reads : ReadsBack cbor fromReader value
  fits : (cbor.intoWriter value).length ≤ localIpcMaxFrameLen

theorem short_of_fits {bytes : List UInt8} (fits : bytes.length ≤ localIpcMaxFrameLen) :
    bytes.length < 256 ^ 4 := lt_of_le_of_lt fits (by decide)

section Frame

variable (host : Host Config Capsule S) {n : ℕ} {d : Daemon S} {stream rest bytes : List UInt8}

theorem handleConnection_ended {fault : FrameFault}
    (split : splitFrame 4 localIpcMaxFrameLen stream = .error fault) (ended : Unfinished fault) :
    host.handleConnection n d stream = ⟨d, [], .ok ()⟩ := by
  rw [Host.handleConnection]
  split
  case h_1 _ found =>
    cases split.symm.trans found
    exact ended.elim
  case h_2 => rfl
  case h_3 _ _ found => cases split.symm.trans found

theorem handleConnection_answered {out : List UInt8}
    (split : splitFrame 4 localIpcMaxFrameLen stream = .ok (bytes, rest))
    (written : writeFramedMessage host.cbor (responseValue (host.answer n d bytes).response) =
      .ok out) :
    host.handleConnection n d stream =
      ⟨(host.handleConnection (n + 1) (host.answer n d bytes).daemon rest).daemon,
        out ++ (host.handleConnection (n + 1) (host.answer n d bytes).daemon rest).written,
        (host.handleConnection (n + 1) (host.answer n d bytes).daemon rest).outcome⟩ := by
  rw [Host.handleConnection]
  split
  case h_1 _ found => cases split.symm.trans found
  case h_2 _ _ found => cases split.symm.trans found
  case h_3 _ _ found =>
    cases split.symm.trans found
    simp only [written]

theorem handleConnection_unwritten {len : ℕ}
    (split : splitFrame 4 localIpcMaxFrameLen stream = .ok (bytes, rest))
    (long : writeFramedMessage host.cbor (responseValue (host.answer n d bytes).response) =
      .error (.frameTooLarge len)) :
    host.handleConnection n d stream = ⟨(host.answer n d bytes).daemon, [],
      .error ((host.answer n d bytes).context ++ ": " ++ frameTooLarge len)⟩ := by
  rw [Host.handleConnection]
  split
  case h_1 _ found => cases split.symm.trans found
  case h_2 _ _ found => cases split.symm.trans found
  case h_3 _ _ found =>
    cases split.symm.trans found
    simp only [long]

theorem writeFramedMessage_of_encoded {cbor : Ciborium} {value : Value}
    (encoded : encodeMessage cbor value = .ok bytes) :
    writeFramedMessage cbor value = .ok (frame 4 bytes) := by
  obtain ⟨rfl, fits⟩ := encodeMessage_ok.mp encoded
  rw [writeFramedMessage, encoded]
  exact if_neg (Nat.not_lt.mpr fits)

theorem writeFramedMessage_of_long {cbor : Ciborium} {value : Value} {fault : LocalIpcCodecError}
    (long : encodeMessage cbor value = .error fault) :
    writeFramedMessage cbor value = .error fault := by
  rw [writeFramedMessage, long]
  rfl

end Frame

/-- What a response has of its request, and that its payload is left out or not null. -/
def AnswerTo (request : LocalIpcWireRequest) : LocalIpcWireResponse → Prop
  | .ok requestId protoVersion payload =>
      requestId = request.requestId ∧ protoVersion = request.protoVersion ∧ payload ≠ some .null
  | .err requestId protoVersion _ =>
      requestId = request.requestId ∧ protoVersion = request.protoVersion

section Answers

variable {serde : FromValue Config Capsule} {service : Service Config Capsule S} {currentUid : ℕ}

theorem answerTo_carryOut (noNull : ∀ s command, (service s command).2 ≠ .ok (some .null))
    (call : Call) (d : Daemon S) (command : LocalIpcCommand Config Capsule) :
    AnswerTo call.request (carryOut service call d command).response := by
  have sound := noNull d.rest command
  unfold carryOut
  cases outcome : (service d.rest command).2 with
  | ok payload =>
    simp only [outcome]
    refine ⟨rfl, rfl, fun null => sound ?_⟩
    rw [outcome, null]
  | error message =>
    simp only [outcome]
    exact ⟨rfl, rfl⟩

theorem answerTo_command (noNull : ∀ s command, (service s command).2 ≠ .ok (some .null))
    (call : Call) (d : Daemon S) (command : LocalIpcCommand Config Capsule) :
    AnswerTo call.request (dispatchCommand service call d command).response := by
  unfold dispatchCommand
  simp only
  split_ifs
  · exact ⟨rfl, rfl⟩
  split
  · exact ⟨rfl, rfl, fun null => by cases null⟩
  · split
    · exact ⟨rfl, rfl, fun null => by cases null⟩
    · exact ⟨rfl, rfl⟩
  · split_ifs
    · split
      · exact answerTo_carryOut noNull _ _ _
      · exact ⟨rfl, rfl⟩
    · exact answerTo_carryOut noNull _ _ _

theorem answerTo_dispatch (noNull : ∀ s command, (service s command).2 ≠ .ok (some .null))
    (call : Call) (d : Daemon S) :
    AnswerTo call.request (dispatchRequest serde service currentUid call d).response := by
  unfold dispatchRequest
  simp only
  split
  · split_ifs
    · exact ⟨rfl, rfl⟩
    · split
      · exact answerTo_command noNull _ _ _
      · exact ⟨rfl, rfl⟩
  · split
    · exact answerTo_command noNull _ _ _
    · exact ⟨rfl, rfl⟩

end Answers

/-- What a client writes. -/
structure Host.Sendable (host : Host Config Capsule S) (request : LocalIpcWireRequest) : Prop where
  framable : Framable host.cbor host.fromReader (requestValue request)
  version : request.protoVersion = localIpcProtoVersion
  some_payload : request.payload ≠ some .null

section Connections

variable (host : Host Config Capsule S)

def Host.body (request : LocalIpcWireRequest) : List UInt8 :=
  host.cbor.intoWriter (requestValue request)

def Host.reply (response : LocalIpcWireResponse) : List UInt8 :=
  host.cbor.intoWriter (responseValue response)

variable {host}

theorem answer_body {n : ℕ} {d : Daemon S} {request : LocalIpcWireRequest}
    (sendable : host.Sendable request) :
    host.answer n d (host.body request) = host.answerRequest n d request := by
  have short : request.protoVersion < 2 ^ 16 := by
    rw [sendable.version]
    decide
  have read : decodeMessage host.fromReader requestFromValue (host.body request) = some request := by
    rw [decodeMessage, Host.body, sendable.framable.reads]
    exact requestFromValue_requestValue request short sendable.some_payload
  rw [Host.answer, read]

/-- The daemon answers the requests that arrived as if they had not come over a connection. -/
theorem handleConnection_direct {requests : List LocalIpcWireRequest}
    (sendable : ∀ request ∈ requests, host.Sendable request) (n k : ℕ) (d : Daemon S) :
    host.handleConnection n d ((frames 4 (requests.map host.body)).take k) =
      ⟨(host.direct n d (delivered 4 host.body k requests)).daemon,
        frames 4 ((host.direct n d (delivered 4 host.body k requests)).responses.map host.reply),
        (host.direct n d (delivered 4 host.body k requests)).outcome⟩ := by
  induction requests generalizing n k d with
  | nil =>
    have ended : splitFrame 4 localIpcMaxFrameLen [] = .error (.noLength 0) := rfl
    rw [List.map_nil, frames, List.map_nil, List.flatten_nil, List.take_nil,
      handleConnection_ended host ended trivial]
    rfl
  | cons request rest ih =>
    have first := sendable request List.mem_cons_self
    have later := ih fun request mem => sendable request (List.mem_cons_of_mem _ mem)
    have fits : (host.body request).length ≤ localIpcMaxFrameLen := first.framable.fits
    rw [List.map_cons, frames_cons, delivered]
    split_ifs with whole
    · rw [take_frames_whole whole]
      have split := splitFrame_whole (short_of_fits fits) fits
        ((frames 4 (rest.map host.body)).take (k - (4 + (host.body request).length)))
      rw [Host.direct]
      simp only
      cases encoded : encodeMessage host.cbor
          (responseValue (host.answerRequest n d request).response) with
      | error fault =>
        obtain ⟨len⟩ := fault
        rw [← answer_body first] at encoded
        rw [handleConnection_unwritten host split (writeFramedMessage_of_long encoded),
          answer_body first]
        rfl
      | ok bytes =>
        obtain ⟨rfl, -⟩ := encodeMessage_ok.mp encoded
        rw [← answer_body first] at encoded
        rw [handleConnection_answered host split (writeFramedMessage_of_encoded encoded),
          answer_body first, later]
        rfl
    · have few : k < 4 + (host.body request).length := Nat.lt_of_not_le whole
      obtain ⟨fault, split, ended⟩ := splitFrame_cut (short_of_fits fits) fits few
      rw [take_frames_cut few, handleConnection_ended host split ended]
      rfl

section Client

variable {V : Carried → Type} (client : Serde V)

theorem validateResponse_answer {request : LocalIpcWireRequest} {response : LocalIpcWireResponse}
    (answer : AnswerTo request response) (version : request.protoVersion = localIpcProtoVersion) :
    validateResponse request (wireResponseOf response) = .ok (wireResponseOf response) := by
  have same : responseProtoVersion (wireResponseOf response) = request.protoVersion ∧
      responseRequestId (wireResponseOf response) = request.requestId := by
    cases response with
    | ok requestId protoVersion payload => exact ⟨answer.2.1, answer.1⟩
    | err requestId protoVersion error => exact ⟨answer.2, answer.1⟩
  rw [validateResponse, if_neg (not_not.mpr (same.1.trans version)), if_neg (not_not.mpr same.2)]

theorem wireResponse_read {request : LocalIpcWireRequest} {response : LocalIpcWireResponse}
    (answer : AnswerTo request response) (version : request.protoVersion = localIpcProtoVersion) :
    wireResponseFromValue (responseValue response) = some (wireResponseOf response) := by
  have short : localIpcProtoVersion < 2 ^ 16 := by decide
  rw [← version] at short
  rw [← wireResponseOf_toValue]
  cases response with
  | ok requestId protoVersion payload =>
    obtain ⟨rfl, rfl, some_payload⟩ := answer
    exact success_read short some_payload
  | err requestId protoVersion error =>
    obtain ⟨rfl, rfl⟩ := answer
    exact error_read short

theorem receiveResponse_reply {request : LocalIpcWireRequest} {response : LocalIpcWireResponse}
    (answer : AnswerTo request response) (version : request.protoVersion = localIpcProtoVersion)
    (framable : Framable host.cbor host.fromReader (responseValue response)) (rest : List UInt8) :
    receiveResponse client host.fromReader request (frame 4 (host.reply response) ++ rest) =
      .ok (wireResponseOf response, rest) := by
  have fits : (host.reply response).length ≤ localIpcMaxFrameLen := framable.fits
  have decoded : decodeResponse client host.fromReader (host.reply response) =
      some (wireResponseOf response) :=
    decodeResponse_current (encodeMessage_ok.mpr ⟨rfl, fits⟩) framable.reads
      (wireResponse_read answer version)
  rw [receiveResponse, splitFrame_whole (short_of_fits fits) fits]
  simp only [decoded, validateResponse_answer answer version]
  rfl

theorem receiveResponses_ended {fault : FrameFault} {stream : List UInt8}
    (split : splitFrame 4 localIpcMaxFrameLen stream = .error fault)
    (requests : List LocalIpcWireRequest) :
    receiveResponses client host.fromReader requests stream = [] := by
  cases requests with
  | nil => rfl
  | cons request later =>
    rw [receiveResponses, receiveResponse, split]

theorem receiveResponses_direct
    (noNull : ∀ s command, (host.service s command).2 ≠ .ok (some .null))
    {served : List LocalIpcWireRequest} (sendable : ∀ request ∈ served, host.Sendable request)
    (more : List LocalIpcWireRequest) {n : ℕ} (j : ℕ) {d : Daemon S}
    (readable : ∀ response ∈ (host.direct n d served).responses,
      ReadsBack host.cbor host.fromReader (responseValue response)) :
    receiveResponses client host.fromReader (served ++ more)
        ((frames 4 ((host.direct n d served).responses.map host.reply)).take j) =
      (delivered 4 host.reply j (host.direct n d served).responses).map wireResponseOf := by
  have silent : splitFrame 4 localIpcMaxFrameLen [] = .error (.noLength 0) := rfl
  induction served generalizing n j d with
  | nil =>
    rw [Host.direct, List.map_nil, frames, List.map_nil, List.flatten_nil, List.take_nil,
      receiveResponses_ended client silent]
    rfl
  | cons request rest ih =>
    have first := sendable request List.mem_cons_self
    have answer : AnswerTo request (host.answerRequest n d request).response :=
      answerTo_dispatch noNull _ _
    rw [Host.direct] at readable ⊢
    simp only at readable ⊢
    cases encoded : encodeMessage host.cbor
        (responseValue (host.answerRequest n d request).response) with
    | error fault =>
      obtain ⟨len⟩ := fault
      simp only
      rw [List.map_nil, frames, List.map_nil, List.flatten_nil, List.take_nil,
        receiveResponses_ended client silent]
      rfl
    | ok bytes =>
      have fits : (host.reply (host.answerRequest n d request).response).length ≤
          localIpcMaxFrameLen := (encodeMessage_ok.mp encoded).2
      simp only [encoded] at readable ⊢
      have read := readable _ List.mem_cons_self
      have later := ih (fun request mem => sendable request (List.mem_cons_of_mem _ mem))
        (j - (4 + (host.reply (host.answerRequest n d request).response).length))
        fun response mem => readable response (List.mem_cons_of_mem _ mem)
      rw [List.map_cons, frames_cons, delivered]
      split_ifs with whole
      · rw [take_frames_whole whole, List.cons_append, receiveResponses,
          receiveResponse_reply client answer first.version ⟨read, fits⟩]
        simp only
        rw [later]
        rfl
      · have few : j < 4 + (host.reply (host.answerRequest n d request).response).length :=
          Nat.lt_of_not_le whole
        obtain ⟨fault, split, -⟩ := splitFrame_cut (short_of_fits fits) fits few
        rw [take_frames_cut few, receiveResponses_ended client split]
        rfl

end Client

end Connections

def issueRequest : LocalIpcWireRequest := ⟨localIpcProtoVersion, "7", "auth/issue", none, none⟩

def ones : Vector UInt8 32 := Vector.replicate 32 1

def issuedGrant : LocalIpcWireResponse :=
  .ok "7" localIpcProtoVersion (issueLocalIpcAccessGrant 1000 ones none ∅).1.payload

def issueReader (bytes : List UInt8) : Option Value :=
  (readerOf standardCbor (requestValue issueRequest) bytes).orElse fun _ =>
    readerOf standardCbor (responseValue issuedGrant) bytes

def issueHost : Host String String Unit where
  cbor := standardCbor
  fromReader := issueReader
  deserializeFault _ := ""
  serde := plainSerde
  service s _ := (s, .ok none)
  currentUid := 501
  endpointKind := .service
  peerIdentity := some ⟨501, none⟩
  moments _ := ⟨1000, ones, id⟩

theorem issueHost_sendable : issueHost.Sendable issueRequest where
  framable := ⟨rfl, by decide +kernel⟩
  version := rfl
  some_payload null := by cases null

end DashDrop.Ipc.Connection
