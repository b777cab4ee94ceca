/- GID: DashDrop/Transport/Handshake
   source: src-tauri/src/transport/handshake.rs
   anchors: []
   digest: An incoming connection from its certificate to the hand-off of its offer. -/

import DashDrop.Transport.Receiver

set_option autoImplicit false
set_option relaxedAutoImplicit false

namespace DashDrop.Transport.Handshake

open DashDrop.Foundation.Program DashDrop.Foundation.Interleaving DashDrop.Foundation.Text
open DashDrop.Transport.Protocol DashDrop.Transport.Receiver
open DashDrop.Runtime.State DashDrop.Runtime.Machine

def offerRateLimitTrustedPerMin : ℕ := 60
def offerRateLimitUntrustedPerMin : ℕ := 20
def connectionRateLimitTrustedPerMin : ℕ := 400
def connectionRateLimitUntrustedPerMin : ℕ := 120
def hardRejectKnownIdentityMismatch : Bool := false

inductive IncomingIdentityMismatchAction where
  | auditOnly
  | reject
  deriving DecidableEq

def isIdentityMismatch (expectedPeerFp actualPeerFp : String) : Bool :=
  expectedPeerFp ≠ actualPeerFp

def incomingIdentityMismatchAction (expectedPeerFp actualPeerFp : Option String)
    (hardReject : Bool) : IncomingIdentityMismatchAction :=
  match expectedPeerFp, actualPeerFp with
  | some expected, some actual =>
      if hardReject && isIdentityMismatch expected actual then .reject else .auditOnly
  | _, _ => .auditOnly

structure SocketAddr where
  ip : String
  port : ℕ
  deriving DecidableEq

def SocketAddr.display (a : SocketAddr) : String :=
  (if a.ip.toList.contains ':' then "[" ++ a.ip ++ "]" else a.ip) ++ ":" ++ toString a.port

structure SessionInfo where
  sessionId : String
  addrs : List SocketAddr

/-- A discovered device, with its sessions in the order in which the map yields them. -/
structure DeviceInfo where
  fingerprint : String
  sessions : List SessionInfo

/-- A rate limiter entry; the start of the window is in nanoseconds. -/
structure RateWindow where
  count : ℕ
  windowStart : ℕ

structure SecurityEvent where
  kind : String
  phase : String
  fingerprint : Option String
  detail : String

inductive IncomingNotice where
  | identityMismatch (remoteAddr mdnsFp certFp : String)
  | trustedPeerUpdated (fingerprint : String) (trustLevel : TrustLevel) (frozenAt : ℕ)
      (freezeReason : String)
  | fingerprintChanged (sessionId previousFp currentFp : String)
      (previousTrustLevel : Option TrustLevel) (remoteAddr : String)

structure Node where
  core : World
  devices : List DeviceInfo
  remoteAddress : ℕ → SocketAddr
  offerRateLimits : AList (fun _ : String => RateWindow)
  incomingConnRateLimits : AList (fun _ : String => RateWindow)
  fingerprintChangeAlerts : AList (fun _ : String => ℕ)
  /-- `frozen_at` and `freeze_reason` of the trusted peers. -/
  freezes : AList (fun _ : String => ℕ × String)
  /-- The table of trusted peers and the log in the database. -/
  storedPeers : AList (fun _ : String => TrustLevel)
  securityEvents : List SecurityEvent
  notices : List IncomingNotice

/-- The sections of the handshake, those of the transfers, and those in which other parts of
the application change the trusted peers and the configuration. -/
inductive IncomingOp where
  | core (o : Op)
  | acceptBi (conn : ℕ)
  | remoteAddress (conn : ℕ)
  | isTrusted (fp : String)
  | countConnection (fp : String) (limit : ℕ)
  | countOffer (fp : String) (limit : ℕ)
  | mismatchByIp (conn : ℕ) (certFp : String)
  | notify (notice : IncomingNotice)
  | logSecurityEvent (event : SecurityEvent)
  | freezeTrustedPeer (fp reason : String) (frozenAt : ℕ)
  | trustedSnapshot
  | replaceTrustedPeers (peers : AList (fun _ : String => TrustLevel))
  | alertDue (key : String) (now : ℕ)
  | trust (fp : String) (level : TrustLevel)
  | untrust (fp : String)
  | configure (config : AppConfig)

abbrev IncomingOp.Resp : IncomingOp → Type
  | .core o => o.Resp
  | .acceptBi _ => Except String Unit
  | .remoteAddress _ => SocketAddr
  | .isTrusted _ | .countConnection _ _ | .countOffer _ _ | .alertDue _ _ => Bool
  | .mismatchByIp _ _ => Option (String × String)
  | .freezeTrustedPeer _ _ _ => Option TrustLevel
  | .trustedSnapshot => AList (fun _ : String => TrustLevel)
  | .notify _ | .logSecurityEvent _ | .replaceTrustedPeers _ | .trust _ _ | .untrust _
  | .configure _ => Unit

abbrev Incoming (α : Type) := Prog IncomingOp IncomingOp.Resp α

def lift {α : Type} : Code α → Incoming α
  | .pure a => .pure a
  | .op o k => .op (.core o) fun r => lift (k r)

/-- The answer of the surroundings, and the monotonic clock in nanoseconds. -/
structure IncomingAns where
  core : Ans
  instant : ℕ

/-- Count one more in the window of `fp`; the answer is whether the limit is exceeded. -/
def countInWindow (limits : AList (fun _ : String => RateWindow)) (fp : String)
    (limit instant : ℕ) : AList (fun _ : String => RateWindow) × Bool :=
  let entry := (limits.lookup fp).getD ⟨0, instant⟩
  let entry := if instant - entry.windowStart > 60 * 10 ^ 9 then ⟨0, instant⟩ else entry
  let count := entry.count + 1
  (limits.insert fp ⟨count, entry.windowStart⟩, count > limit)

/-- The first session of a device with this address, if the fingerprint is another one. -/
def deviceMismatch (ip certFp : String) (device : DeviceInfo) : Option (String × String) :=
  (device.sessions.find? fun session => session.addrs.any fun a => a.ip = ip).bind fun session =>
    if device.fingerprint ≠ certFp then some (device.fingerprint, session.sessionId) else none

def execIncoming : Exec IncomingOp IncomingOp.Resp Node IncomingAns := fun i o x n =>
  match o with
  | .core o => (exec i o x.core n.core).map fun y => ({ n with core := y.1 }, y.2)
  | .acceptBi c =>
      match x.core.reply with
      | .unit => if connOpen n.core c then some (n, .ok ()) else none
      | .fail cause => some (n, .error cause)
      | _ => none
  | .remoteAddress c => some (n, n.remoteAddress c)
  | .isTrusted fp => some (n, (n.core.trustedPeers.lookup fp).isSome)
  | .countConnection fp limit =>
      let counted := countInWindow n.incomingConnRateLimits fp limit x.instant
      some ({ n with incomingConnRateLimits := counted.1 }, counted.2)
  | .countOffer fp limit =>
      let counted := countInWindow n.offerRateLimits fp limit x.instant
      some ({ n with offerRateLimits := counted.1 }, counted.2)
  | .mismatchByIp c certFp =>
      some (n, n.devices.findSome? (deviceMismatch (n.remoteAddress c).ip certFp))
  | .notify notice => some ({ n with notices := n.notices ++ [notice] }, ())
  | .logSecurityEvent event => some ({ n with securityEvents := n.securityEvents ++ [event] }, ())
  | .freezeTrustedPeer fp reason frozenAt =>
      match n.core.trustedPeers.lookup fp with
      | none => some (n, none)
      | some _ => some ({ n with
          core := { n.core with trustedPeers := n.core.trustedPeers.insert fp .frozen }
          freezes := n.freezes.insert fp (frozenAt, reason) }, some .frozen)
  | .trustedSnapshot => some (n, n.core.trustedPeers)
  | .replaceTrustedPeers peers => some ({ n with storedPeers := peers }, ())
  | .alertDue key now =>
      if now - (n.fingerprintChangeAlerts.lookup key).getD 0 ≥ 60 then
        some ({ n with fingerprintChangeAlerts := n.fingerprintChangeAlerts.insert key now }, true)
      else some (n, false)
  | .trust fp level =>
      some ({ n with core := { n.core with
        trustedPeers := n.core.trustedPeers.insert fp level } }, ())
  | .untrust fp =>
      some ({ n with core := { n.core with trustedPeers := n.core.trustedPeers.erase fp } }, ())
  | .configure config => some ({ n with core := { n.core with config := config } }, ())

def act (o : IncomingOp) : Incoming o.Resp := perform o

def rejectControlStream (conn : ℕ) (reason : ErrorCode) : Incoming (Except String Unit) := do
  let _ ← lift (net (.write conn "" (.reject ⟨reason⟩)))
  pure (.ok ())

def checkConnectionRateLimit (peerFp : String) : Incoming (Option ErrorCode) := do
  let trusted ← act (.isTrusted peerFp)
  let limit := if trusted then connectionRateLimitTrustedPerMin
    else connectionRateLimitUntrustedPerMin
  let exceeded ← act (.countConnection peerFp limit)
  pure (if exceeded then some .rateLimited else none)

def checkOfferRateLimit (peerFp : String) : Incoming (Option ErrorCode) := do
  let trusted ← act (.isTrusted peerFp)
  let limit := if trusted then offerRateLimitTrustedPerMin else offerRateLimitUntrustedPerMin
  let exceeded ← act (.countOffer peerFp limit)
  pure (if exceeded then some .rateLimited else none)

/-- Freeze the peer that discovery expected, and save the trusted peers. -/
def freezeChangedPeer (mdnsFp certFp sessionId : String) (nowUnix : ℕ) : Incoming Unit := do
  let freezeReason := "Fingerprint changed on session " ++ sessionId ++ ": expected " ++ mdnsFp ++
    ", saw " ++ certFp
  match ← act (.freezeTrustedPeer mdnsFp freezeReason nowUnix) with
  | none => pure ()
  | some level =>
      let trustedSnapshot ← act .trustedSnapshot
      act (.replaceTrustedPeers trustedSnapshot)
      act (.logSecurityEvent ⟨"trust_frozen", "incoming", some mdnsFp, freezeReason⟩)
      act (.notify (.trustedPeerUpdated mdnsFp level nowUnix freezeReason))

def handleFingerprintChange (remoteAddr mdnsFp certFp sessionId : String) : Incoming Unit := do
  let previousTrustLevel ← lift (env (.trustLevel mdnsFp))
  let nowUnix ← lift (env .now)
  if previousTrustLevel = some .signedLinkVerified ∨ previousTrustLevel = some .mutualConfirmed then
    freezeChangedPeer mdnsFp certFp sessionId nowUnix
  let dedupeKey := sessionId ++ "|" ++ mdnsFp ++ "|" ++ certFp
  if ← act (.alertDue dedupeKey nowUnix) then
    act (.notify (.fingerprintChanged sessionId mdnsFp certFp previousTrustLevel remoteAddr))
    act (.logSecurityEvent ⟨"fingerprint_changed", "incoming", some mdnsFp,
      "trusted fingerprint changed on session " ++ sessionId ++ ": previous=" ++ mdnsFp ++
        " current=" ++ certFp⟩)

/-- What follows when discovery knows the address under another fingerprint. -/
def auditMismatch (conn : ℕ) (certFp mdnsFp sessionId : String) :
    Incoming IncomingIdentityMismatchAction := do
  let remoteAddr := (← act (.remoteAddress conn)).display
  act (.notify (.identityMismatch remoteAddr mdnsFp certFp))
  act (.logSecurityEvent ⟨"identity_mismatch", "incoming", some mdnsFp,
    "mDNS identity does not match peer certificate fingerprint"⟩)
  let previousTrusted ← act (.isTrusted mdnsFp)
  let currentTrusted ← act (.isTrusted certFp)
  if previousTrusted && !currentTrusted then
    handleFingerprintChange remoteAddr mdnsFp certFp sessionId
  pure (incomingIdentityMismatchAction (some mdnsFp) (some certFp) hardRejectKnownIdentityMismatch)

/-- The rate limit and the address check of a peer with a certificate: may it go on? -/
def screenPeer (conn : ℕ) : Option String → Incoming Bool
  | none => pure true
  | some certFp => do
      match ← checkConnectionRateLimit certFp with
      | some _ => pure false
      | none =>
          match ← act (.mismatchByIp conn certFp) with
          | none => pure true
          | some (mdnsFp, sessionId) =>
              let action ← auditMismatch conn certFp mdnsFp sessionId
              pure (action ≠ .reject)

section Exchange

variable (debug : DashMessage → String)

def routeOffer (conn : ℕ) (progress : List ℕ) (peerCertFp : Option String) (chosenVersion : ℕ)
    (offer : OfferPayload) : Incoming (Except String Unit) := do
  if (trim offer.senderFingerprint.toList).isEmpty then
    rejectControlStream conn (.protocol "missing sender fingerprint in Offer")
  else if peerCertFp.any fun certFp => offer.senderFingerprint ≠ certFp then
    rejectControlStream conn .identityMismatch
  else
    let peerFp := offer.senderFingerprint
    match ← checkOfferRateLimit peerFp with
    | some reason => rejectControlStream conn reason
    | none => lift (handleOffer ⟨offer, conn, peerFp, peerCertFp.isSome, chosenVersion, progress⟩)

def awaitOffer (conn : ℕ) (progress : List ℕ) (peerCertFp : Option String) (chosenVersion : ℕ) :
    Incoming (Except String Unit) := do
  match ← lift (net (.read conn)) with
  | .ok (.offer offer) => routeOffer conn progress peerCertFp chosenVersion offer
  | .ok (.cancel _) => rejectControlStream conn .cancelled
  | .ok other => rejectControlStream conn (.protocol ("expected Offer, got " ++ debug other))
  | .error f => rejectControlStream conn (.protocol ("read Offer failed: " ++ f.display))

def answerHello (conn : ℕ) (progress : List ℕ) (peerCertFp : Option String)
    (peerHello : HelloPayload) : Incoming (Except String Unit) := do
  match ← lift (net (.write conn "" (.hello ⟨wireVersion, supportedVersions⟩))) with
  | .error f => pure (.error f.display)
  | .ok () =>
      match negotiateVersion peerHello.supportedVersions with
      | some chosenVersion => awaitOffer debug conn progress peerCertFp chosenVersion
      | none =>
          match ← lift (net (.write conn "" (.reject ⟨.versionMismatch⟩))) with
          | .error f => pure (.error f.display)
          | .ok () => pure (.error "no common protocol version")

def exchangeHello (conn : ℕ) (progress : List ℕ) (peerCertFp : Option String) :
    Incoming (Except String Unit) := do
  match ← act (.acceptBi conn) with
  | .error cause => pure (.error ("accept bi stream: " ++ cause))
  | .ok () =>
      match ← lift (net (.read conn)) with
      | .ok (.hello peerHello) =>
          if peerHello.wireVersion ≠ 0 then rejectControlStream conn .versionMismatch
          else answerHello debug conn progress peerCertFp peerHello
      | .ok other => rejectControlStream conn (.protocol ("expected Hello, got " ++ debug other))
      | .error f => rejectControlStream conn (.protocol ("read Hello failed: " ++ f.display))

/-- `handle_incoming`; the receive tasks of its offer will add the chunk lengths `progress`. -/
def handleIncoming (conn : ℕ) (progress : List ℕ) : Incoming (Except String Unit) := do
  let peerCertFp := (← lift (net (.peerFp conn))).toOption
  if ← screenPeer conn peerCertFp then exchangeHello debug conn progress peerCertFp
  else
    lift (net (.close conn))
    pure (.ok ())

end Exchange

end DashDrop.Transport.Handshake
