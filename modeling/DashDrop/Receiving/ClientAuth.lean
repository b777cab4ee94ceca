/- GID: DashDrop/Receiving/ClientAuth
   source: src-tauri/src/crypto/identity.rs, src-tauri/src/transport/handshake.rs,
     src-tauri/src/transport/receiver.rs
   anchors: []
   digest: The TLS configurations, and why no offer is accepted without the user over them. -/

import DashDrop.Pairing.Link
import DashDrop.Receiving.AutoAccept
import DashDrop.Runtime.Effects

set_option autoImplicit false
set_option relaxedAutoImplicit false

namespace DashDrop.Receiving.ClientAuth

open DashDrop.Foundation.Program DashDrop.Foundation.Interleaving DashDrop.Foundation.Moments
open DashDrop.Foundation.FileTree (Bytes)
open DashDrop.Transport.Protocol DashDrop.Transport.Receiver DashDrop.Transport.Handshake
open DashDrop.Runtime.State DashDrop.Runtime.Machine DashDrop.Runtime.Effects
open DashDrop.Pairing.Link DashDrop.Receiving.AutoAccept

/-- `with_no_client_auth` or `with_client_cert_verifier`. -/
inductive ClientCertPolicy where
  | noClientAuth
  | verifier
  deriving DecidableEq

structure ServerConfig where
  clientAuth : ClientCertPolicy
  certChain : List Bytes
  key : Bytes
  alpnProtocols : List String

structure ClientConfig where
  /-- The chain and the key of `with_client_auth_cert`. -/
  clientCert : Option (List Bytes × Bytes)
  /-- `SkipServerVerification` takes every certificate. -/
  verifiesServer : Bool

/-- `server_tls_config`, for a key that rustls takes. -/
def serverTlsConfig (identity : Identity) : ServerConfig where
  clientAuth := .noClientAuth
  certChain := [identity.certDer]
  key := identity.keyDer
  alpnProtocols := ["dashdrop-transfer/1", "dashdrop-probe/1"]

/-- `client_tls_config`. -/
def clientTlsConfig (_ : Identity) : ClientConfig where
  clientCert := none
  verifiesServer := false

/-- What `peer_identity` of a connection can be cast to. -/
inductive PeerIdentity where
  | certificates (chain : List Bytes)
  | other

def extractPeerFp (sha256 : Bytes → Vector UInt8 32) : Option PeerIdentity → Except String String
  | none => .error "no peer identity"
  | some .other => .error "peer identity is not a certificate chain"
  | some (.certificates []) => .error "empty certificate chain"
  | some (.certificates (endEntity :: _)) => .ok (computeFingerprint sha256 endEntity)

section Tls

variable (sha256 : Bytes → Vector UInt8 32)
  (peerIdentity : ServerConfig → ClientConfig → Option PeerIdentity)

/-- An incoming connection of a sender, as `peer_identity` describes it. -/
def incomingConnection (receiver sender : Identity) : Connection where
  peerFp := (extractPeerFp sha256
    (peerIdentity (serverTlsConfig receiver) (clientTlsConfig sender))).toOption
  closed := false

/-- Without client authentication there is no identity to see. -/
def Undisclosed : Prop :=
  ∀ server client, server.clientAuth = .noClientAuth → peerIdentity server client = none

theorem peerFp_incomingConnection (undisclosed : Undisclosed peerIdentity)
    (receiver sender : Identity) :
    (incomingConnection sha256 peerIdentity receiver sender).peerFp = none := by
  have unseen := undisclosed (serverTlsConfig receiver) (clientTlsConfig sender) rfl
  simp [incomingConnection, unseen, extractPeerFp, Except.toOption]

end Tls

/-- Thread `i` accepts the transfer before any user has said yes to it. -/
def AcceptedUnasked (i : ℕ) (id : String) (ms : List IncomingMoment) : Prop :=
  ∃ pre m post, ms = pre ++ m :: post ∧ m.thread = i ∧ acceptedId m.op = some id ∧
    ¬ UserAccepted (own i pre)

/-- Automatic acceptance is meant for this offer. -/
def Eligible (n : Node) (offer : OfferPayload) : Prop :=
  n.core.config.autoAcceptTrustedOnly = true ∧
  (∃ level, n.core.trustedPeers.lookup offer.senderFingerprint = some level ∧ level ≠ .frozen) ∧
  offer.totalSize ≤ trustedAutoAcceptMaxBytes ∧
  ∀ item ∈ offer.items, inferOfferRiskClass item ≠ .high

private def Anonymous (conn : ℕ) (n : Node) : Prop :=
  ∃ k, n.core.conns[conn]? = some k ∧ k.peerFp = none

private theorem anonymous_step {conn i : ℕ} {o : IncomingOp} {x : IncomingAns} {n n' : Node}
    {r : o.Resp} (h : Anonymous conn n) (done : execIncoming i o x n = some (n', r)) :
    Anonymous conn n' := by
  obtain ⟨k, found, unseen⟩ := h
  have same (kept : n'.core.conns = n.core.conns) : Anonymous conn n' :=
    ⟨k, by rw [kept]; exact found, unseen⟩
  cases o with
  | core o =>
    obtain ⟨⟨w, a⟩, ran, moved⟩ := Option.map_eq_some_iff.mp done
    cases moved
    obtain ⟨k', found', kept, -⟩ := exec_conns ran found
    exact ⟨k', found', kept.trans unseen⟩
  | acceptBi c =>
    simp only [execIncoming] at done
    split at done
    · split_ifs at done
      cases done
      exact same rfl
    · cases done
      exact same rfl
    · cases done
  | freezeTrustedPeer fp reason frozenAt =>
    simp only [execIncoming] at done
    split at done <;> cases done <;> exact same rfl
  | alertDue key now =>
    simp only [execIncoming] at done
    split_ifs at done <;> cases done <;> exact same rfl
  | remoteAddress | isTrusted | countConnection | countOffer | mismatchByIp | notify
  | logSecurityEvent | trustedSnapshot | replaceTrustedPeers | trust | untrust | configure =>
    cases done
    exact same rfl

/-- Over a connection between the two configurations no offer is accepted before the user has
said yes, whatever is trusted and configured and whatever the offer holds. -/
theorem no_offer_accepted_unasked (sha256 : Bytes → Vector UInt8 32)
    (peerIdentity : ServerConfig → ClientConfig → Option PeerIdentity)
    (undisclosed : Undisclosed peerIdentity) (receiver sender : Identity)
    (debug : DashMessage → String) (conn : ℕ) (progress : List ℕ)
    {s t : Pool IncomingOp IncomingOp.Resp Node (Except String Unit)} {ms : List IncomingMoment}
    {i : ℕ} (run : Chronicle execIncoming free s ms t)
    (here : s.threads[i]? = some (handleIncoming debug conn progress))
    (established : s.world.core.conns[conn]? =
      some (incomingConnection sha256 peerIdentity receiver sender)) (id : String) :
    ¬ AcceptedUnasked i id ms := by
  rintro ⟨pre, m, post, place, mine, accepts, unasked⟩
  have acted := (run.remembers here (handleIncoming_obeys debug progress)).2 pre m post place mine
  obtain ⟨f, offer, config, shown, -⟩ := (acted id accepts).resolve_left unasked
  obtain ⟨n, seen⟩ := moment_of_own shown
  have old : (⟨i, .core (.net (.peerFp conn)), .ok f, n⟩ : IncomingMoment) ∈ ms := by
    rw [place]
    exact List.mem_append_left _ seen
  have start : Anonymous conn s.world :=
    ⟨_, established, peerFp_incomingConnection sha256 peerIdentity undisclosed receiver sender⟩
  obtain ⟨k, found, unseen⟩ := (run.before_invariant (Anonymous conn) start
    fun _ _ _ _ _ _ h done => anonymous_step h done).2 _ old
  have certificate := certificate_shown run old
  simp [found, unseen] at certificate

/-- The server sees the chain of a client only if it asks for it. -/
def shownIdentity (server : ServerConfig) (client : ClientConfig) : Option PeerIdentity :=
  match server.clientAuth with
  | .noClientAuth => none
  | .verifier => client.clientCert.map fun cert => .certificates cert.1

theorem shownIdentity_undisclosed : Undisclosed shownIdentity := by
  intro server client open'
  simp only [shownIdentity, open']

def noHash : Bytes → Vector UInt8 32 := fun _ => Vector.replicate 32 0

/-- A node that accepts from trusted peers and has confirmed `alice`, who has connected. -/
def confirmedNode : Node where
  core := { World.start { AppConfig.standard with
      autoAcceptTrustedOnly := true, downloadDir := some "/drop" } with
    trustedPeers := (∅ : AList _).insert "alice" .mutualConfirmed
    conns := [incomingConnection noHash shownIdentity ⟨[1], [2]⟩ ⟨[3], [4]⟩] }
  devices := []
  remoteAddress := fun _ => ⟨"192.168.0.7", 4000⟩
  offerRateLimits := ∅
  incomingConnRateLimits := ∅
  fingerprintChangeAlerts := ∅
  freezes := ∅
  storedPeers := ∅
  securityEvents := []
  notices := []

def photoOffer : OfferPayload :=
  ⟨"t1", [⟨1, "photo.jpg", "photo.jpg", 4096, .regularFile, 0, none, none⟩], 4096, "Alice", "alice"⟩

def photoPool : Pool IncomingOp IncomingOp.Resp Node (Except String Unit) :=
  ⟨confirmedNode, [handleIncoming (fun _ => "") 0 []]⟩

private def photoSchedule : List (ℕ × IncomingAns) :=
  ([.unit, .unit, .message (.hello ⟨0, [1]⟩), .unit, .message (.offer photoOffer), .unit, .unit,
    .unit, .unit, .unit, .unit, .disks [], .unit, .unit, .unit, .unit, .unit, .unit, .unit,
    .timer, .unit, .unit, .unit, .unit, .unit, .unit] : List Reply).map
    fun reply => (0, ⟨⟨100, reply⟩, 0⟩)

private theorem photo_eligible : Eligible confirmedNode photoOffer := by
  refine ⟨rfl, ⟨.mutualConfirmed, rfl, by decide⟩, by decide, ?_⟩
  decide

/-- The photo is eligible; the user is asked all the same, and it ends rejected. -/
theorem eligible_photo_rejected :
    Eligible confirmedNode photoOffer ∧
    ∃ (ms : List IncomingMoment) (t : Pool IncomingOp IncomingOp.Resp Node (Except String Unit)),
      Chronicle execIncoming free photoPool ms t ∧ t.result 0 = some (.ok ()) ∧
      (∃ task, t.world.core.transfers.lookup "t1" = some task ∧ task.status = .rejected) ∧
      ∀ m ∈ ms, acceptedId m.op = none := by
  have played : ((recount execIncoming photoPool photoSchedule).any fun z =>
      (z.2.result 0 == some (.ok ())) &&
      ((z.2.world.core.transfers.lookup "t1").any fun task => task.status == .rejected) &&
      z.1.all fun m => acceptedId m.op == none) = true := by decide
  obtain ⟨⟨ms, t⟩, told, checked⟩ := (Option.any_eq_true _ _).mp played
  simp only [Bool.and_eq_true, beq_iff_eq, List.all_eq_true] at checked
  obtain ⟨⟨result, ended⟩, never⟩ := checked
  obtain ⟨task, found, rejected⟩ := (Option.any_eq_true _ _).mp ended
  exact ⟨photo_eligible, ms, t, chronicle_of_recount told, result,
    ⟨task, found, by simpa using rejected⟩, never⟩

theorem eligible_photo_never_accepted_unasked :
    Eligible confirmedNode photoOffer ∧
    ∀ (ms : List IncomingMoment) (t : Pool IncomingOp IncomingOp.Resp Node (Except String Unit)),
      Chronicle execIncoming free photoPool ms t → ¬ AcceptedUnasked 0 "t1" ms :=
  ⟨photo_eligible, fun _ _ run => no_offer_accepted_unasked noHash shownIdentity
    shownIdentity_undisclosed ⟨[1], [2]⟩ ⟨[3], [4]⟩ (fun _ => "") 0 [] run rfl rfl "t1"⟩

end DashDrop.Receiving.ClientAuth
