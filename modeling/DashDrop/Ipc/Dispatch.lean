/- GID: DashDrop/Ipc/Dispatch
   source: src-tauri/src/daemon/server.rs, src-tauri/src/state.rs
   anchors: []
   digest: Access tokens of the local IPC and the guards a request passes before its command. -/

import DashDrop.Foundation.Base64
import DashDrop.Foundation.Leases
import DashDrop.Ipc.Commands

set_option autoImplicit false
set_option relaxedAutoImplicit false

namespace DashDrop.Ipc.Dispatch

open DashDrop.Foundation.Json DashDrop.Foundation.Base64 DashDrop.Foundation.Text
open DashDrop.Foundation.Leases
open DashDrop.Runtime.State (saturatingAdd)
open DashDrop.Ipc.Commands

def tokenTtlMs : ℕ := 5 * 60 * 1000
def tokenRefreshAfterMs : ℕ := 2 * 60 * 1000

structure LocalIpcAccessTokenRecord where
  expiresAtUnixMs : ℕ
  refreshAfterUnixMs : ℕ
  deriving DecidableEq

abbrev TokenMap := AList fun _ : String => LocalIpcAccessTokenRecord

structure LocalIpcAccessGrant where
  accessToken : String
  expiresAtUnixMs : ℕ
  refreshAfterUnixMs : ℕ
  deriving DecidableEq

def LocalIpcAccessTokenRecord.live (now : ℕ) (record : LocalIpcAccessTokenRecord) : Bool :=
  record.expiresAtUnixMs > now

/-- `token.filter(|value| !value.trim().is_empty())` -/
def presented (token : Option String) : Option String :=
  token.filter fun value => !(trimmed value).isEmpty

def buildLocalIpcAccessToken (bytes : Vector UInt8 32) : String :=
  String.ofList (urlSafeNoPad.encode bytes.toList)

def removePrevious (previousToken : Option String) (tokens : TokenMap) : TokenMap :=
  match presented previousToken with
  | some previous => tokens.erase previous
  | none => tokens

/-- `bytes` are what the random generator fills in. -/
def issueLocalIpcAccessGrant (now : ℕ) (bytes : Vector UInt8 32) (previousToken : Option String)
    (tokens : TokenMap) : LocalIpcAccessGrant × TokenMap :=
  let expiresAtUnixMs := saturatingAdd now tokenTtlMs
  let refreshAfterUnixMs := saturatingAdd now tokenRefreshAfterMs
  let accessToken := buildLocalIpcAccessToken bytes
  let kept := removePrevious previousToken (retain (·.live now) tokens)
  (⟨accessToken, expiresAtUnixMs, refreshAfterUnixMs⟩,
    kept.insert accessToken ⟨expiresAtUnixMs, refreshAfterUnixMs⟩)

def tokenStatus (now : ℕ) (token : String) (tokens : TokenMap) : Except String Unit :=
  match tokens.lookup token with
  | some record => if record.live now then .ok () else .error "expired access token"
  | none => .error "unknown access token"

def validateLocalIpcAccessToken (now : ℕ) (token : Option String) (tokens : TokenMap) :
    Except String Unit × TokenMap :=
  match presented token with
  | none => (.error "missing access token", tokens)
  | some token => (tokenStatus now token tokens, retain (·.live now) tokens)

def revokeLocalIpcAccessToken (now : ℕ) (token : Option String) (tokens : TokenMap) :
    Except String Unit × TokenMap :=
  match presented token with
  | none => (.error "missing access token", tokens)
  | some token =>
      match tokenStatus now token tokens with
      | .ok () => (.ok (), (retain (·.live now) tokens).erase token)
      | .error reason => (.error reason, retain (·.live now) tokens)

def activeLocalIpcAccessGrantCount (now : ℕ) (tokens : TokenMap) : ℕ × TokenMap :=
  let kept := retain (·.live now) tokens
  (kept.entries.length, kept)

def LocalIpcAccessGrant.payload (grant : LocalIpcAccessGrant) : Value :=
  .object [("auth", .object [("access_token", .string grant.accessToken),
    ("expires_at_unix_ms", .nat grant.expiresAtUnixMs),
    ("refresh_after_unix_ms", .nat grant.refreshAfterUnixMs)])]

structure LocalPeerIdentity where
  uid : ℕ
  pid : Option ℤ

/-- A request as it comes in on a connection, with the reading of the clock and the random bytes
that serve it. -/
structure Call where
  request : LocalIpcWireRequest
  endpointKind : LocalIpcEndpointKind
  peerIdentity : Option LocalPeerIdentity
  now : ℕ
  bytes : Vector UInt8 32

/-- `AppCoreService::dispatch` on the rest of the daemon's state: the payload of its response. -/
abbrev Service (Config Capsule S : Type) :=
  S → LocalIpcCommand Config Capsule → S × Except String (Option Value)

structure Daemon (S : Type) where
  tokens : TokenMap
  rest : S

/-- The reply, the state it leaves, and the command that the service was handed, if any. -/
structure Served (Config Capsule S : Type) where
  daemon : Daemon S
  response : LocalIpcWireResponse
  executed : Option (LocalIpcCommand Config Capsule)

def peerUidMismatch (identity : LocalPeerIdentity) (currentUid : ℕ) : LocalIpcError :=
  let pidHint := match identity.pid with
    | some pid => " (pid " ++ toString pid ++ ")"
    | none => ""
  .unauthorized ("local IPC peer uid " ++ toString identity.uid ++ pidHint ++
    " does not match current uid " ++ toString currentUid)

section Serve

variable {Config Capsule S : Type} (serde : FromValue Config Capsule)
  (service : Service Config Capsule S) (currentUid : ℕ)

def wrongEndpoint (command : LocalIpcCommand Config Capsule) : LocalIpcError :=
  .invalidRequest ("command " ++ command.name ++ " must be sent to the " ++
    command.endpointKind.label ++ " endpoint")

/-- The service carries out the command and its outcome is put on the wire. -/
def carryOut (call : Call) (d : Daemon S) (command : LocalIpcCommand Config Capsule) :
    Served Config Capsule S :=
  let (rest, outcome) := service d.rest command
  match outcome with
  | .ok payload =>
      ⟨{ d with rest := rest }, .ok call.request.requestId call.request.protoVersion payload,
        some command⟩
  | .error message =>
      ⟨{ d with rest := rest }, .err call.request.requestId call.request.protoVersion
        (.dispatchFailed message), some command⟩

def dispatchCommand (call : Call) (d : Daemon S) (command : LocalIpcCommand Config Capsule) :
    Served Config Capsule S :=
  let reply (payload : Option Value) : LocalIpcWireResponse :=
    .ok call.request.requestId call.request.protoVersion payload
  let refuse (error : LocalIpcError) : LocalIpcWireResponse :=
    .err call.request.requestId call.request.protoVersion error
  if !command.acceptsOnEndpoint call.endpointKind then ⟨d, refuse (wrongEndpoint command), none⟩
  else match command with
    | .authIssue =>
        let (grant, tokens) :=
          issueLocalIpcAccessGrant call.now call.bytes call.request.token d.tokens
        ⟨{ d with tokens := tokens }, reply grant.payload, none⟩
    | .authRevoke =>
        let (outcome, tokens) := revokeLocalIpcAccessToken call.now call.request.token d.tokens
        match outcome with
        | .ok () => ⟨{ d with tokens := tokens }, reply none, none⟩
        | .error reason => ⟨{ d with tokens := tokens }, refuse (.unauthorized reason), none⟩
    | command =>
        if command.requiresAuth then
          let (outcome, tokens) := validateLocalIpcAccessToken call.now call.request.token d.tokens
          match outcome with
          | .ok () => carryOut service call { d with tokens := tokens } command
          | .error reason => ⟨{ d with tokens := tokens }, refuse (.unauthorized reason), none⟩
        else carryOut service call d command

def dispatchRequest (call : Call) (d : Daemon S) : Served Config Capsule S :=
  let refuse (error : LocalIpcError) : Served Config Capsule S :=
    ⟨d, .err call.request.requestId call.request.protoVersion error, none⟩
  let admitted : Served Config Capsule S :=
    match LocalIpcCommand.fromWireRequest serde call.request with
    | .ok command => dispatchCommand service call d command
    | .error error => refuse error
  match call.peerIdentity with
  | some identity =>
      if identity.uid ≠ currentUid then refuse (peerUidMismatch identity currentUid) else admitted
  | none => admitted

/-- A request, or a look of the idle monitor. -/
inductive Turn where
  | request (call : Call)
  | idle (now : ℕ)

def Turn.now : Turn → ℕ
  | .request call => call.now
  | .idle now => now

structure Entry where
  turn : Turn
  reply : Option LocalIpcWireResponse

def serve (d : Daemon S) : Turn → Daemon S × Entry
  | .request call =>
      let served := dispatchRequest serde service currentUid call d
      (served.daemon, ⟨.request call, some served.response⟩)
  | .idle now =>
      ({ d with tokens := (activeLocalIpcAccessGrantCount now d.tokens).2 }, ⟨.idle now, none⟩)

def attend (state : Daemon S × List Entry) (turn : Turn) : Daemon S × List Entry :=
  let (d, entry) := serve serde service currentUid state.1 turn
  (d, state.2 ++ [entry])

/-- The daemon starts without tokens; what follows is its state and the record of all turns. -/
def history (start : S) (turns : List Turn) : Daemon S × List Entry :=
  turns.foldl (attend serde service currentUid) (⟨∅, start⟩, [])

end Serve

end DashDrop.Ipc.Dispatch
