/- GID: DashDrop/Ipc/Client
   source: src-tauri/src/commands.rs, src-tauri/src/daemon/client.rs, src-tauri/src/local_ipc.rs
   anchors: []
   digest: Commands that the app proxies to the daemon under one cached access grant. -/

import DashDrop.Foundation.Interleaving
import DashDrop.Ipc.Dispatch

set_option autoImplicit false
set_option relaxedAutoImplicit false

namespace DashDrop.Ipc.Client

open DashDrop.Foundation.Json DashDrop.Foundation.Program DashDrop.Foundation.Interleaving
open DashDrop.Runtime.State (saturatingAdd)
open DashDrop.Trust.Peers (TrustVerificationMethod)
open DashDrop.Ipc.Commands DashDrop.Ipc.Dispatch

/-- `serde_json::to_value` at the types that a command carries. -/
structure ToValue (Config Capsule : Type) where
  verificationMethod : TrustVerificationMethod → Value
  appConfig : Config → Value
  bleAssistCapsule : Capsule → Value

variable {Config Capsule S : Type}

def strings (items : List String) : Value := .array (items.map .string)

def payload (json : ToValue Config Capsule) : LocalIpcCommand Config Capsule → Option Value
  | .authIssue | .authRevoke | .discoverList | .trustList | .configGet | .transferCancelAll
  | .transferList | .transferPendingIncoming | .appGetLocalIdentity | .appGetBleAssistCapsule
  | .appGetRuntimeStatus | .appGetDiscoveryDiagnostics | .transferGetMetrics
  | .securityGetPosture => none
  | .discoverConnectByAddress address => some (.object [("address", .string address)])
  | .trustPair fingerprint | .trustUnpair fingerprint =>
      some (.object [("fingerprint", .string fingerprint)])
  | .trustSetAlias fingerprint peerAlias => some (.object [
      ("fingerprint", .string fingerprint), ("alias", Value.opt .string peerAlias)])
  | .trustConfirmVerification fingerprint verificationMethod mutualConfirmation =>
      some (.object [("fingerprint", .string fingerprint),
        ("verification_method", json.verificationMethod verificationMethod),
        ("mutual_confirmation", .bool mutualConfirmation)])
  | .configSet config => some (.object [("config", json.appConfig config)])
  | .transferSend peerFingerprint paths => some (.object [
      ("peer_fingerprint", .string peerFingerprint), ("paths", strings paths)])
  | .transferAccept transferId notificationId | .transferReject transferId notificationId =>
      some (.object [("transfer_id", .string transferId),
        ("notification_id", .string notificationId)])
  | .transferCancel transferId | .transferRetry transferId | .transferGet transferId =>
      some (.object [("transfer_id", .string transferId)])
  | .transferHistory limit offset | .securityGetEvents limit offset =>
      some (.object [("limit", .nat limit), ("offset", .nat offset)])
  | .appGetEventFeed afterSeq limit =>
      some (.object [("after_seq", .nat afterSeq), ("limit", .nat limit)])
  | .appGetEventCheckpoint consumerId => some (.object [("consumer_id", .string consumerId)])
  | .appSetEventCheckpoint consumerId generation seq => some (.object [
      ("consumer_id", .string consumerId), ("generation", .string generation), ("seq", .nat seq)])
  | .appActivate paths pairingLinks => some (.object [
      ("paths", strings paths), ("pairing_links", strings pairingLinks)])
  | .appIngestBleAssistCapsule capsule source => some (.object [
      ("capsule", json.bleAssistCapsule capsule), ("source", Value.opt .string source)])
  | .appQueueExternalShare paths => some (.object [("paths", strings paths)])

def toWireRequest (json : ToValue Config Capsule) (command : LocalIpcCommand Config Capsule)
    (requestId : String) (authContext : Option LocalAuthContext) : LocalIpcWireRequest where
  protoVersion := localIpcProtoVersion
  requestId := requestId
  command := command.name
  payload := payload json command
  authContext := authContext

def daemonAccessGrantExpirySkewMs : ℕ := 5000

def daemonProxyReadRetryDelaysMs : List ℕ := [0, 100, 250, 500]
def daemonProxyWriteRetryDelaysMs : List ℕ := [0]

abbrev CachedDaemonAccessGrant := LocalIpcAccessGrant

def isUsableAt (grant : CachedDaemonAccessGrant) (nowUnixMs : ℕ) : Bool :=
  saturatingAdd nowUnixMs daemonAccessGrantExpirySkewMs < grant.expiresAtUnixMs

def shouldRefreshAt (grant : CachedDaemonAccessGrant) (nowUnixMs : ℕ) : Bool :=
  saturatingAdd nowUnixMs daemonAccessGrantExpirySkewMs ≥ grant.refreshAfterUnixMs

def authContext (grant : CachedDaemonAccessGrant) : LocalAuthContext := ⟨some grant.accessToken⟩

/-- What the proxied commands do, and what goes on around them. -/
inductive Op (Config Capsule : Type) where
  | shouldProxyViaDaemon
  | daemonClientForApp
  | sleep (ms : ℕ)
  | nowUnixMillis
  | cachedDaemonAccessGrant
  | setCachedDaemonAccessGrant (grant : Option CachedDaemonAccessGrant)
  /-- A round trip, which acts at the moment that the daemon serves the request. -/
  | sendEnvelope (command : LocalIpcCommand Config Capsule) (auth : Option LocalAuthContext)
  /-- The daemon ends and is started anew. -/
  | restart
  /-- A look of the daemon's idle monitor. -/
  | idle
  /-- The clock moves on. -/
  | tick (ms : ℕ)

def Op.Resp : Op Config Capsule → Type
  | .shouldProxyViaDaemon => Bool
  | .daemonClientForApp => Except String Unit
  | .sleep _ => Unit
  | .nowUnixMillis => ℕ
  | .cachedDaemonAccessGrant => Except String (Option CachedDaemonAccessGrant)
  | .setCachedDaemonAccessGrant _ => Except String Unit
  | .sendEnvelope _ _ => Except String LocalIpcWireResponse
  | .restart => Unit
  | .idle => Unit
  | .tick _ => Unit

abbrev ClientProg (Config Capsule α : Type) := Prog (Op Config Capsule) Op.Resp α

abbrev shouldProxyViaDaemon : ClientProg Config Capsule Bool := perform Op.shouldProxyViaDaemon

abbrev daemonClientForApp : ClientProg Config Capsule (Except String Unit) :=
  perform Op.daemonClientForApp

abbrev sleep (ms : ℕ) : ClientProg Config Capsule Unit := perform (Op.sleep ms)

abbrev nowUnixMillis : ClientProg Config Capsule ℕ := perform Op.nowUnixMillis

abbrev cachedDaemonAccessGrant :
    ClientProg Config Capsule (Except String (Option CachedDaemonAccessGrant)) :=
  perform Op.cachedDaemonAccessGrant

abbrev setCachedDaemonAccessGrant (grant : Option CachedDaemonAccessGrant) :
    ClientProg Config Capsule (Except String Unit) :=
  perform (Op.setCachedDaemonAccessGrant grant)

abbrev sendEnvelope (command : LocalIpcCommand Config Capsule) (auth : Option LocalAuthContext) :
    ClientProg Config Capsule (Except String LocalIpcWireResponse) :=
  perform (Op.sendEnvelope command auth)

/-- Why `issue_access_grant` fails. -/
inductive IssueFailure where
  | transport (detail : String)
  | malformed (detail : String)
  | refused (error : LocalIpcError)

def IssueFailure.text : IssueFailure → String
  | .transport detail => detail
  | .malformed detail => detail
  | .refused error => "daemon auth issue failed: " ++ error.message ++ " (" ++ error.code ++ ")"

inductive ProxyError where
  /-- The auth state or the client could not be had. -/
  | unavailable (message : String)
  | issue (failure : IssueFailure)
  | request (error : LocalIpcError)
  | connect (attempts : ℕ) (detail : String)

namespace ProxyError

def text : ProxyError → String
  | unavailable message => message
  | issue failure => "failed to issue daemon access token: " ++ failure.text
  | request error =>
      "daemon control-plane request failed: " ++ error.message ++ " (" ++ error.code ++ ")"
  | connect attempts detail =>
      "daemon control-plane connect failed after " ++ toString attempts ++ " attempt(s): " ++ detail

def isUnauthorized : ProxyError → Bool
  | request error => error.code = "unauthorized"
  | issue (.refused error) => error.code = "unauthorized"
  | _ => false

end ProxyError

def valueU64 : Value → Option ℕ
  | .number (.posInt n) => if n < 2 ^ 64 then some n else none
  | _ => none

/-- `serde_json::from_value` at `LocalIpcAccessGrant`. -/
def grantFromValue (auth : Value) : Option LocalIpcAccessGrant := do
  let fields ← auth.asObject
  let accessToken ← (fields.lookup "access_token").bind Value.asStr
  let expiresAtUnixMs ← (fields.lookup "expires_at_unix_ms").bind valueU64
  let refreshAfterUnixMs ← (fields.lookup "refresh_after_unix_ms").bind valueU64
  pure ⟨accessToken, expiresAtUnixMs, refreshAfterUnixMs⟩

def readGrant (payload : Option Value) : Except IssueFailure LocalIpcAccessGrant :=
  match payload with
  | none => .error (.malformed "missing auth issue payload")
  | some payload =>
      match payload.asObject.bind (List.lookup "auth") with
      | none => .error (.malformed "missing payload.auth")
      | some auth =>
          match grantFromValue auth with
          | some grant => .ok grant
          | none => .error (.malformed "decode local IPC auth grant")

def grantFromAnswer : Except String LocalIpcWireResponse → Except IssueFailure LocalIpcAccessGrant
  | .ok (.ok _ _ payload) => readGrant payload
  | .ok (.err _ _ error) => .error (.refused error)
  | .error detail => .error (.transport detail)

def issueAccessGrant (currentAccessToken : Option String) :
    ClientProg Config Capsule (Except IssueFailure LocalIpcAccessGrant) := do
  let answer ←
    sendEnvelope .authIssue (currentAccessToken.map fun token => ⟨some token⟩)
  pure (grantFromAnswer answer)

/-- The end of `issue_daemon_access_grant`. -/
def cacheGrant : Except IssueFailure LocalIpcAccessGrant →
    ClientProg Config Capsule (Except ProxyError CachedDaemonAccessGrant)
  | .error failure => pure (.error (.issue failure))
  | .ok grant => do
      match ← setCachedDaemonAccessGrant (some grant) with
      | .error message => pure (.error (.unavailable message))
      | .ok _ => pure (.ok grant)

def issueDaemonAccessGrant (currentAccessToken : Option String) :
    ClientProg Config Capsule (Except ProxyError CachedDaemonAccessGrant) := do
  match ← daemonClientForApp with
  | .error message => pure (.error (.unavailable message))
  | .ok _ => cacheGrant (← issueAccessGrant currentAccessToken)

/-- What `daemon_access_grant_for_command` does with a grant that it finds in the cache. -/
def useCachedGrant (forceRefresh : Bool) (nowUnixMs : ℕ) (grant : CachedDaemonAccessGrant) :
    ClientProg Config Capsule (Except ProxyError CachedDaemonAccessGrant) :=
  if !forceRefresh && isUsableAt grant nowUnixMs && !shouldRefreshAt grant nowUnixMs then
    pure (.ok grant)
  else if !forceRefresh && isUsableAt grant nowUnixMs then do
    match ← issueDaemonAccessGrant (some grant.accessToken) with
    | .ok fresh => pure (.ok fresh)
    | .error _ => pure (.ok grant)
  else issueDaemonAccessGrant none

def daemonAccessGrantForCommand (forceRefresh : Bool) :
    ClientProg Config Capsule (Except ProxyError CachedDaemonAccessGrant) := do
  let nowUnixMs ← nowUnixMillis
  match ← cachedDaemonAccessGrant with
  | .error message => pure (.error (.unavailable message))
  | .ok none => issueDaemonAccessGrant none
  | .ok (some grant) => useCachedGrant forceRefresh nowUnixMs grant

inductive Round where
  | returned (outcome : Except ProxyError (Option Value))
  | broke (lastError : String)

def authorize (command : LocalIpcCommand Config Capsule) (retriedAfterUnauthorized : Bool) :
    ClientProg Config Capsule (Except ProxyError (Option LocalAuthContext)) :=
  if command.requiresAuth then do
    match ← daemonAccessGrantForCommand retriedAfterUnauthorized with
    | .ok grant => pure (.ok (some (authContext grant)))
    | .error error => pure (.error error)
  else pure (.ok none)

def request (command : LocalIpcCommand Config Capsule) (retriedAfterUnauthorized : Bool)
    (again : ClientProg Config Capsule Round) (auth : Option LocalAuthContext) :
    ClientProg Config Capsule Round := do
  match ← sendEnvelope command auth with
  | .ok (.ok _ _ payload) => pure (.returned (.ok (some (payload.getD .null))))
  | .ok (.err _ _ error) =>
      if command.requiresAuth && error.code = "unauthorized" && !retriedAfterUnauthorized then
        match ← setCachedDaemonAccessGrant none with
        | .error message => pure (.returned (.error (.unavailable message)))
        | .ok _ => again
      else pure (.returned (.error (.request error)))
  | .error detail => pure (.broke detail)

/-- One turn of the inner loop, which goes on with `again`. -/
def round (command : LocalIpcCommand Config Capsule) (retriedAfterUnauthorized : Bool)
    (again : ClientProg Config Capsule Round) : ClientProg Config Capsule Round := do
  match ← authorize command retriedAfterUnauthorized with
  | .error error => pure (.returned (.error error))
  | .ok auth => request command retriedAfterUnauthorized again auth

/-- The inner loop: once the request was retried, no turn goes on. -/
def attempt (command : LocalIpcCommand Config Capsule) : ClientProg Config Capsule Round :=
  round command false (round command true (pure (.broke "")))

def proxyLoop (command : LocalIpcCommand Config Capsule) (attempts : ℕ) :
    List ℕ → Option String → ClientProg Config Capsule (Except ProxyError (Option Value))
  | [], lastError =>
      pure (.error (.connect attempts (lastError.getD "unknown local IPC error")))
  | delayMs :: rest, _ => do
      if delayMs > 0 then sleep delayMs
      match ← attempt command with
      | .returned outcome => pure outcome
      | .broke detail => proxyLoop command attempts rest (some detail)

def proxyCommandPayloadWithRetries (command : LocalIpcCommand Config Capsule)
    (retryDelaysMs : List ℕ) :
    ClientProg Config Capsule (Except ProxyError (Option Value)) := do
  if !(← shouldProxyViaDaemon) then pure (.ok none)
  else
    match ← daemonClientForApp with
    | .error message => pure (.error (.unavailable message))
    | .ok _ => proxyLoop command retryDelaysMs.length retryDelaysMs none

/-- The app's commands go through `proxy_ack` or `proxy_write_result` where the daemon's command
is of the write side, and else through `proxy_read` or straight with its delays. -/
def retryDelaysMs (command : LocalIpcCommand Config Capsule) : List ℕ :=
  if command.commandClass = .writeSide then daemonProxyWriteRetryDelaysMs
  else daemonProxyReadRetryDelaysMs

def revokeCachedDaemonAccessGrant :
    ClientProg Config Capsule (Except ProxyError (Option Value)) := do
  match ← cachedDaemonAccessGrant with
  | .error message => pure (.error (.unavailable message))
  | .ok none => pure (.ok none)
  | .ok (some grant) =>
      match ← setCachedDaemonAccessGrant none with
      | .error message => pure (.error (.unavailable message))
      | .ok _ =>
          if !(← shouldProxyViaDaemon) then pure (.ok none)
          else
            match ← daemonClientForApp with
            | .error message => pure (.error (.unavailable message))
            | .ok _ =>
                match ← sendEnvelope .authRevoke (some (authContext grant)) with
                | .ok (.ok _ _ _) => pure (.ok none)
                | .ok (.err _ _ error) => pure (.error (.request error))
                | .error detail => pure (.error (.unavailable detail))

/-- Those who take part: the app's commands and its shutdown, the daemon and the clock. -/
inductive Party (Config Capsule : Type) where
  | invoke (command : LocalIpcCommand Config Capsule) (guarded : command.requiresAuth = true)
  | revoke
  | restart
  | idle
  | tick (ms : ℕ)

def Party.program :
    Party Config Capsule → ClientProg Config Capsule (Except ProxyError (Option Value))
  | .invoke command _ => proxyCommandPayloadWithRetries command (retryDelaysMs command)
  | .revoke => revokeCachedDaemonAccessGrant
  | .restart => .op .restart fun _ => pure (.ok none)
  | .idle => .op .idle fun _ => pure (.ok none)
  | .tick ms => .op (.tick ms) fun _ => pure (.ok none)

structure World (Config Capsule S : Type) where
  now : ℕ
  cachedGrant : Option CachedDaemonAccessGrant
  daemon : Daemon S
  /-- All grants that the daemon has issued, delivered or not. -/
  issued : List LocalIpcAccessGrant
  /-- The commands that the daemon has carried out, each with the invocation it was for. -/
  executed : List (ℕ × LocalIpcCommand Config Capsule)

inductive Fate where
  | answered
  | requestLost (detail : String)
  | responseLost (detail : String)

structure Weather where
  proxying : Bool
  /-- A fault of the client, of the auth state or of its lock. -/
  fault : Option String
  fate : Fate
  requestId : String
  pid : Option ℤ
  bytes : Vector UInt8 32

section Exec

variable (json : ToValue Config Capsule) (serde : FromValue Config Capsule)
  (service : Service Config Capsule S) (currentUid : ℕ) (reload : S → S)

/-- The request as the daemon gets it, from a peer of its own user. -/
def callOf (command : LocalIpcCommand Config Capsule) (auth : Option LocalAuthContext)
    (x : Weather) (now : ℕ) : Call where
  request := toWireRequest json command x.requestId auth
  endpointKind := .service
  peerIdentity := some ⟨currentUid, x.pid⟩
  now := now
  bytes := x.bytes

/-- The grant that an `auth/issue` is answered with. -/
def grantOf (call : Call) (tokens : TokenMap) : LocalIpcAccessGrant :=
  (issueLocalIpcAccessGrant call.now call.bytes call.request.token tokens).1

/-- The daemon serves a request of invocation `i`. -/
def serveEnvelope (i : ℕ) (command : LocalIpcCommand Config Capsule)
    (auth : Option LocalAuthContext) (x : Weather) (w : World Config Capsule S) :
    World Config Capsule S × LocalIpcWireResponse :=
  let call := callOf json currentUid command auth x w.now
  let served := dispatchRequest serde service currentUid call w.daemon
  let granted := match command with
    | .authIssue => [grantOf call w.daemon.tokens]
    | _ => []
  ({ w with
      daemon := served.daemon
      issued := w.issued ++ granted
      executed := w.executed ++ (served.executed.map fun done => (i, done)).toList },
    served.response)

def unlessFault {α : Type} (x : Weather) (a : α) : Except String α :=
  match x.fault with
  | some message => .error message
  | none => .ok a

def exec : Exec (Op Config Capsule) Op.Resp (World Config Capsule S) Weather
  | _, .shouldProxyViaDaemon, x, w => some (w, x.proxying)
  | _, .daemonClientForApp, x, w => some (w, unlessFault x ())
  | _, .sleep _, _, w => some (w, ())
  | _, .nowUnixMillis, _, w => some (w, w.now)
  | _, .cachedDaemonAccessGrant, x, w => some (w, unlessFault x w.cachedGrant)
  | _, .setCachedDaemonAccessGrant grant, x, w =>
      match x.fault with
      | some message => some (w, .error message)
      | none => some ({ w with cachedGrant := grant }, .ok ())
  | i, .sendEnvelope command auth, x, w =>
      match x.fate with
      | .requestLost detail => some (w, .error detail)
      | .responseLost detail =>
          some ((serveEnvelope json serde service currentUid i command auth x w).1, .error detail)
      | .answered =>
          let (w', response) := serveEnvelope json serde service currentUid i command auth x w
          some (w', .ok response)
  | _, .restart, _, w => some ({ w with daemon := ⟨∅, reload w.daemon.rest⟩ }, ())
  | _, .idle, _, w => some ({ w with daemon :=
      { w.daemon with tokens := (activeLocalIpcAccessGrantCount w.now w.daemon.tokens).2 } }, ())
  | _, .tick ms, _, w => some ({ w with now := saturatingAdd w.now ms }, ())

end Exec

/-- No token is issued twice. -/
def Distinct : Guard (Op Config Capsule) (World Config Capsule S) Weather := fun _ o x w =>
  ∀ auth, o = .sendEnvelope .authIssue auth →
    buildLocalIpcAccessToken x.bytes ∉ w.issued.map LocalIpcAccessGrant.accessToken

def begin (now : UInt64) (rest : S) (parties : List (Party Config Capsule)) :
    Pool (Op Config Capsule) Op.Resp (World Config Capsule S) (Except ProxyError (Option Value)) :=
  ⟨⟨now.toNat, none, ⟨∅, rest⟩, [], []⟩, parties.map Party.program⟩

end DashDrop.Ipc.Client
