/- GID: DashDrop/Receiving/AutoAccept
   source: src-tauri/src/transport/handshake.rs, src-tauri/src/transport/receiver.rs
   anchors: []
   digest: An offer accepted without the user comes from an authenticated, trusted peer. -/

import DashDrop.Foundation.Moments
import DashDrop.Runtime.Footprint
import DashDrop.Transport.Handshake

set_option autoImplicit false
set_option relaxedAutoImplicit false

namespace DashDrop.Receiving.AutoAccept

open DashDrop.Foundation.Program DashDrop.Foundation.Interleaving DashDrop.Foundation.Discipline
open DashDrop.Foundation.Moments DashDrop.Foundation.Oneshot DashDrop.Foundation.UnixPath
open DashDrop.Foundation.Text
open DashDrop.Transport.Protocol DashDrop.Transport.Receiver DashDrop.Transport.Handshake
open DashDrop.Runtime.State DashDrop.Runtime.Machine DashDrop.Runtime.Footprint

theorem lift_bind {α β : Type} (x : Code α) (f : α → Code β) :
    lift (x.bind f) = (lift x).bind fun a => lift (f a) := by
  induction x with
  | pure a => rfl
  | op o k ih =>
    simp only [op_bind, lift]
    congr 1
    exact funext ih

theorem lift_within {α : Type} {x : Code α} {p : Op → Prop} {q : α → Prop} (h : x.Within p q)
    {p' : IncomingOp → Prop} (core : ∀ o, p o → p' (.core o)) : (lift x).Within p' q := by
  induction x with
  | pure a => exact h
  | op o k ih => exact ⟨core o h.1, fun r => ih r (h.2 r)⟩

/-- The transfer that an operation accepts: the status update or the message to the peer. -/
def acceptedId : IncomingOp → Option String
  | .core (.task (.updateStatus id .transferring _)) => some id
  | .core (.net (.write _ id (.accept _))) => some id
  | _ => none

abbrev Seen := Sightings IncomingOp IncomingOp.Resp

/-- The user has answered yes. -/
def UserAccepted (seen : Seen) : Prop :=
  ∃ chan, ⟨.core (.gate (.wait chan)), .value true⟩ ∈ seen

/-- The certificate, the offer, the trust lookup and the configuration all speak for it. -/
def Vouched (conn : ℕ) (id : String) (seen : Seen) : Prop :=
  ∃ (f : String) (offer : OfferPayload) (config : AppConfig),
    ⟨.core (.net (.peerFp conn)), .ok f⟩ ∈ seen ∧
    ⟨.core (.net (.read conn)), .ok (.offer offer)⟩ ∈ seen ∧
    ⟨.core (.env (.isActiveTrust f)), true⟩ ∈ seen ∧
    ⟨.core (.env .config), config⟩ ∈ seen ∧
    offer.transferId = id ∧ offer.senderFingerprint = f ∧ config.autoAcceptTrustedOnly = true

def Grounded (conn : ℕ) (seen : Seen) (o : IncomingOp) : Prop :=
  ∀ id, acceptedId o = some id → UserAccepted seen ∨ Vouched conn id seen

variable {conn : ℕ} {seen later : Seen}

theorem UserAccepted.mono (h : UserAccepted seen) (grown : seen <+: later) :
    UserAccepted later := by
  obtain ⟨chan, answered⟩ := h
  exact ⟨chan, grown.subset answered⟩

theorem Vouched.mono {id : String} (h : Vouched conn id seen) (grown : seen <+: later) :
    Vouched conn id later := by
  obtain ⟨f, offer, config, shown, read, trusted, enabled, facts⟩ := h
  exact ⟨f, offer, config, grown.subset shown, grown.subset read, grown.subset trusted,
    grown.subset enabled, facts⟩

section Rules

variable {α : Type}

private theorem plain {x : Incoming α} {q : α → Prop}
    (h : x.Within (fun o => acceptedId o = none) q) :
    Obeys (remembering (Grounded conn)) seen x fun later a => seen <+: later ∧ q a := by
  refine Obeys.roam h fun later o _ none id accepted => ?_
  rw [none] at accepted
  cases accepted

private theorem plain_end {x : Incoming α} {q : α → Prop}
    (h : x.Within (fun o => acceptedId o = none) q) :
    Obeys (remembering (Grounded conn)) seen x fun _ _ => True :=
  (plain h).mono fun _ _ _ => trivial

private theorem plain_op {o : IncomingOp} {k : o.Resp → Incoming α} {fin : Seen → α → Prop}
    (h : acceptedId o = none)
    (rest : ∀ r, Obeys (remembering (Grounded conn)) (seen ++ [⟨o, r⟩]) (k r) fin) :
    Obeys (remembering (Grounded conn)) seen (.op o k) fin := by
  refine Obeys.act (fun id accepted => ?_) rest
  rw [h] at accepted
  cases accepted

private theorem grounded {id : String} {x : Incoming α} {q : α → Prop}
    (h : x.Within (fun o => ∀ other, acceptedId o = some other → other = id) q)
    (grounds : UserAccepted seen ∨ Vouched conn id seen) :
    Obeys (remembering (Grounded conn)) seen x fun _ _ => True := by
  refine (Obeys.roam h ?_).mono fun _ _ _ => trivial
  intro later o grown own other accepted
  obtain rfl := own other accepted
  exact grounds.imp (fun h => h.mono grown) fun h => h.mono grown

end Rules

section Offer

variable (o : IncomingOffer)

private theorem updateTransferStatus_plain {status : TransferStatus} (h : status ≠ .transferring)
    (reason : Option String) :
    (lift (updateTransferStatus o.id status reason)).Within (fun o => acceptedId o = none)
      anything := by
  refine ⟨by cases status <;> first | rfl | exact absurd rfl h, fun r => ?_⟩
  cases r with
  | none => trivial
  | some u =>
    obtain ⟨revision, notify, record⟩ := u
    cases notify <;> cases record <;>
      simp [markIfSome, recordIfSome, note, task, lift, perform, acceptedId, anything]

private theorem emitTransferTerminal_plain (status : TransferStatus) (code cause phase : String) :
    (lift (emitTransferTerminal o.id status code cause phase)).Within
      (fun o => acceptedId o = none) anything :=
  ⟨rfl, fun _ => ⟨rfl, fun _ => trivial⟩⟩

private theorem rejectForSpace_plain :
    (lift (rejectForSpace o)).Within (fun o => acceptedId o = none) anything := by
  refine ⟨rfl, fun r => ?_⟩
  cases r with
  | error f => trivial
  | ok _ =>
    simp only [ret_bind, bind_def, lift_bind]
    refine (updateTransferStatus_plain o (by decide) _).bind fun _ _ => ⟨rfl, fun _ => ?_⟩
    exact (emitTransferTerminal_plain o ..).bind fun _ _ => trivial

private theorem rejectOffer_plain (isTimeout : Bool) :
    (lift (rejectOffer o isTimeout)).Within (fun o => acceptedId o = none) anything := by
  refine ⟨rfl, fun r => ?_⟩
  cases r with
  | error f => trivial
  | ok _ =>
    simp only [ret_bind, bind_def, lift_bind]
    refine (updateTransferStatus_plain o (by decide) _).bind fun _ _ => ?_
    exact (emitTransferTerminal_plain o ..).bind fun _ _ => trivial

private theorem own_of_offerOps {op : Op} (h : offerOps o op) :
    ∀ other, acceptedId (.core op) = some other → other = o.id := by
  intro other accepted
  unfold acceptedId at accepted
  split at accepted
  · obtain rfl := Option.some.inj accepted
    rcases h with ((h | h) | h) | h <;> simp_all [calmOps, fileOps]
  · obtain rfl := Option.some.inj accepted
    rcases h with ((h | h) | h) | h <;> simp_all [calmOps, fileOps]
  · cases accepted

/-- The decision is yes only if the user said so or everything speaks for the offer. -/
private theorem decideOffer_obeys
    (shown : o.peerAuthenticated = true → ⟨.core (.net (.peerFp conn)), .ok o.peerFp⟩ ∈ seen)
    (read : ⟨.core (.net (.read conn)), .ok (.offer o.offer)⟩ ∈ seen)
    (named : o.offer.senderFingerprint = o.peerFp) :
    Obeys (remembering (Grounded conn)) seen (lift (decideOffer o)) fun later decision =>
      decision.1 = true → UserAccepted later ∨ Vouched conn o.id later := by
  refine plain_op rfl fun trusted => plain_op rfl fun _ => plain_op rfl fun _ =>
    plain_op rfl fun _ => plain_op rfl fun config => ?_
  simp only [ret_bind]
  split_ifs with auto
  · intro _
    have facts : (trusted = true ∧ o.peerAuthenticated = true) ∧
        config.autoAcceptTrustedOnly = true := by
      unfold determineAutoAcceptDecision at auto
      split_ifs at auto with peer enabled
      all_goals simp_all
    obtain ⟨⟨rfl, authenticated⟩, enabled⟩ := facts
    refine .inr ⟨o.peerFp, o.offer, config, ?_, ?_, ?_, ?_, rfl, named, enabled⟩
    · simp [shown authenticated]
    · simp [read]
    · simp
    · simp
  · refine plain_op rfl fun _ => plain_op rfl fun chan => plain_op rfl fun answer => ?_
    cases answer with
    | value v =>
      rintro rfl
      exact .inl ⟨chan, by simp⟩
    | senderGone => exact fun no => Bool.noConfusion no
    | timedOut => exact fun no => Bool.noConfusion no

theorem handleOffer_obeys
    (shown : o.peerAuthenticated = true → ⟨.core (.net (.peerFp conn)), .ok o.peerFp⟩ ∈ seen)
    (read : ⟨.core (.net (.read conn)), .ok (.offer o.offer)⟩ ∈ seen)
    (named : o.offer.senderFingerprint = o.peerFp) :
    Obeys (remembering (Grounded conn)) seen (lift (handleOffer o)) fun _ _ => True := by
  rw [handleOffer_eq]
  refine plain_op rfl fun _ => plain_op rfl fun _ => ?_
  refine plain_op rfl fun _ => plain_op rfl fun _ => plain_op rfl fun disks => ?_
  simp only [ret_bind]
  split_ifs
  · rw [bind_def, lift_bind]
    refine (decideOffer_obeys o ?_ ?_ named).bind fun later decision grounds => ?_
    · intro authenticated
      simp [shown authenticated]
    · simp [read]
    · obtain ⟨userAccepted, isTimeout⟩ := decision
      cases userAccepted with
      | true =>
        exact grounded (lift_within (acceptOffer_within o _) fun _ h => own_of_offerOps o h)
          (grounds rfl)
      | false => exact plain_end (rejectOffer_plain o isTimeout)
  · exact plain_end (rejectForSpace_plain o)

end Offer

private theorem rejectControlStream_plain (reason : ErrorCode) :
    (rejectControlStream conn reason).Within (fun o => acceptedId o = none) anything :=
  ⟨rfl, fun _ => trivial⟩

private theorem freezeChangedPeer_plain (mdnsFp certFp sessionId : String) (nowUnix : ℕ) :
    (freezeChangedPeer mdnsFp certFp sessionId nowUnix).Within (fun o => acceptedId o = none)
      anything := by
  refine ⟨rfl, fun frozen => ?_⟩
  cases frozen with
  | none => trivial
  | some level => exact ⟨rfl, fun _ => ⟨rfl, fun _ => ⟨rfl, fun _ => ⟨rfl, fun _ => trivial⟩⟩⟩⟩

private theorem handleFingerprintChange_plain (remoteAddr mdnsFp certFp sessionId : String) :
    (handleFingerprintChange remoteAddr mdnsFp certFp sessionId).Within
      (fun o => acceptedId o = none) anything := by
  refine ⟨rfl, fun previous => ⟨rfl, fun nowUnix => ?_⟩⟩
  have alert (u : Unit) : (do
      if ← act (.alertDue (sessionId ++ "|" ++ mdnsFp ++ "|" ++ certFp) nowUnix) then
        act (.notify (.fingerprintChanged sessionId mdnsFp certFp previous remoteAddr))
        act (.logSecurityEvent ⟨"fingerprint_changed", "incoming", some mdnsFp,
          "trusted fingerprint changed on session " ++ sessionId ++ ": previous=" ++ mdnsFp ++
            " current=" ++ certFp⟩) : Incoming Unit).Within (fun o => acceptedId o = none)
      anything := by
    refine ⟨rfl, fun due => ?_⟩
    cases due with
    | false => trivial
    | true => exact ⟨rfl, fun _ => ⟨rfl, fun _ => trivial⟩⟩
  show Prog.Within _ anything (Prog.bind _ _)
  split_ifs
  · exact (freezeChangedPeer_plain ..).bind fun _ _ => alert ()
  · exact alert ()

private theorem auditMismatch_plain (certFp mdnsFp sessionId : String) :
    (auditMismatch conn certFp mdnsFp sessionId).Within (fun o => acceptedId o = none)
      anything := by
  refine ⟨rfl, fun _ => ⟨rfl, fun _ => ⟨rfl, fun _ => ⟨rfl, fun previous =>
    ⟨rfl, fun current => ?_⟩⟩⟩⟩⟩
  simp only [ret_bind]
  split_ifs
  · exact (handleFingerprintChange_plain ..).bind fun _ _ => trivial
  · trivial

private theorem screenPeer_plain (peerCertFp : Option String) :
    (screenPeer conn peerCertFp).Within (fun o => acceptedId o = none) anything := by
  cases peerCertFp with
  | none => trivial
  | some certFp =>
    refine ⟨rfl, fun trusted => ⟨rfl, fun exceeded => ?_⟩⟩
    cases exceeded with
    | true => trivial
    | false =>
      refine ⟨rfl, fun mismatch => ?_⟩
      cases mismatch with
      | none => trivial
      | some found => exact (auditMismatch_plain ..).bind fun _ _ => trivial

private def Noted (conn : ℕ) (peerCertFp : Option String) (seen : Seen) : Prop :=
  ∀ f, peerCertFp = some f → ⟨.core (.net (.peerFp conn)), .ok f⟩ ∈ seen

private theorem Noted.mono {peerCertFp : Option String} (h : Noted conn peerCertFp seen)
    (grown : seen <+: later) : Noted conn peerCertFp later :=
  fun f same => grown.subset (h f same)

section Exchange

variable (debug : DashMessage → String) (progress : List ℕ) {peerCertFp : Option String}

private theorem routeOffer_obeys (noted : Noted conn peerCertFp seen) (chosenVersion : ℕ)
    {offer : OfferPayload} (read : ⟨.core (.net (.read conn)), .ok (.offer offer)⟩ ∈ seen) :
    Obeys (remembering (Grounded conn)) seen
      (routeOffer conn progress peerCertFp chosenVersion offer) fun _ _ => True := by
  unfold routeOffer
  split_ifs with blank mismatch
  · exact plain_end (rejectControlStream_plain _)
  · exact plain_end (rejectControlStream_plain _)
  · refine plain_op rfl fun trusted => plain_op rfl fun exceeded => ?_
    simp only [ret_bind]
    cases exceeded with
    | true => exact plain_end (rejectControlStream_plain _)
    | false =>
      -- here the certificate, if there is one, is the sender's
      refine handleOffer_obeys _ ?_ (by simp [read]) rfl
      intro authenticated
      obtain ⟨f, rfl⟩ := Option.isSome_iff_exists.mp authenticated
      have same : offer.senderFingerprint = f := by simpa using mismatch
      simp [same, noted f rfl]

private theorem awaitOffer_obeys (noted : Noted conn peerCertFp seen) (chosenVersion : ℕ) :
    Obeys (remembering (Grounded conn)) seen
      (awaitOffer debug conn progress peerCertFp chosenVersion) fun _ _ => True := by
  refine plain_op rfl fun answer => ?_
  rcases answer with f | message
  · exact plain_end (rejectControlStream_plain _)
  · cases message with
    | offer offer =>
      exact routeOffer_obeys progress (noted.mono (List.prefix_append _ _)) chosenVersion (by simp)
    | _ => exact plain_end (rejectControlStream_plain _)

private theorem answerHello_obeys (noted : Noted conn peerCertFp seen) (peerHello : HelloPayload) :
    Obeys (remembering (Grounded conn)) seen
      (answerHello debug conn progress peerCertFp peerHello) fun _ _ => True := by
  refine plain_op rfl fun answer => ?_
  rcases answer with f | _
  · trivial
  · simp only [lift, ret_bind]
    split
    · exact awaitOffer_obeys debug progress (noted.mono (List.prefix_append _ _)) _
    · refine plain_op rfl fun refused => ?_
      rcases refused with f | _ <;> trivial

private theorem exchangeHello_obeys (noted : Noted conn peerCertFp seen) :
    Obeys (remembering (Grounded conn)) seen (exchangeHello debug conn progress peerCertFp)
      fun _ _ => True := by
  refine plain_op rfl fun opened => ?_
  rcases opened with cause | _
  · trivial
  · refine plain_op rfl fun answer => ?_
    rcases answer with f | message
    · exact plain_end (rejectControlStream_plain _)
    · cases message with
      | hello peerHello =>
        simp only [lift, ret_bind]
        split_ifs
        · exact plain_end (rejectControlStream_plain _)
        · exact answerHello_obeys debug progress
            (noted.mono ((List.prefix_append _ _).trans (List.prefix_append _ _))) peerHello
      | _ => exact plain_end (rejectControlStream_plain _)

theorem handleIncoming_obeys :
    Obeys (remembering (Grounded conn)) [] (handleIncoming debug conn progress)
      fun _ _ => True := by
  refine plain_op rfl fun answer => ?_
  have noted : Noted conn answer.toOption [⟨.core (.net (.peerFp conn)), answer⟩] := by
    intro f same
    rcases answer with cause | fp
    · cases same
    · obtain rfl := Option.some.inj same
      simp
  simp only [lift, ret_bind]
  refine (plain (screenPeer_plain _)).bind fun later goesOn grown => ?_
  cases goesOn with
  | true => exact exchangeHello_obeys debug progress (noted.mono grown.1)
  | false => exact plain_end (q := anything) ⟨rfl, fun _ => trivial⟩

end Exchange

abbrev IncomingMoment := Moment IncomingOp IncomingOp.Resp Node

/-- Thread `i` looked at the certificate of the connection, and it was that of `f`. -/
def SawCertificate (i conn : ℕ) (f : String) (ms : List IncomingMoment) : Prop :=
  ∃ n : Node, ⟨i, .core (.net (.peerFp conn)), .ok f, n⟩ ∈ ms ∧
    (n.core.conns[conn]?).bind Connection.peerFp = some f

/-- Thread `i` looked `f` up among the trusted peers, where it was and was not frozen. -/
def SawActiveTrust (i : ℕ) (f : String) (ms : List IncomingMoment) : Prop :=
  ∃ n : Node, ⟨i, .core (.env (.isActiveTrust f)), true, n⟩ ∈ ms ∧
    ∃ level, n.core.trustedPeers.lookup f = some level ∧ level ≠ .frozen

/-- Thread `i` read the configuration while `auto_accept_trusted_only` was enabled. -/
def SawAutoAccept (i : ℕ) (ms : List IncomingMoment) : Prop :=
  ∃ n : Node, ⟨i, .core (.env .config), n.core.config, n⟩ ∈ ms ∧
    n.core.config.autoAcceptTrustedOnly = true

section Executed

variable {s t : Pool IncomingOp IncomingOp.Resp Node (Except String Unit)}
variable {ms : List IncomingMoment} {i : ℕ} {f : String} {n : Node}

private theorem core_executed {o : Op} {r : o.Resp}
    (run : Chronicle execIncoming free s ms t) (h : ⟨i, .core o, r, n⟩ ∈ ms) :
    ∃ x w, exec i o x n.core = some (w, r) := by
  obtain ⟨x, n', -, done⟩ := run.executed h
  obtain ⟨y, done, same⟩ := Option.map_eq_some_iff.mp done
  obtain ⟨-, rfl⟩ := Prod.mk.inj same
  exact ⟨x.core, y.1, done⟩

theorem certificate_shown (run : Chronicle execIncoming free s ms t)
    (h : ⟨i, .core (.net (.peerFp conn)), .ok f, n⟩ ∈ ms) :
    (n.core.conns[conn]?).bind Connection.peerFp = some f := by
  obtain ⟨x, w, done⟩ := core_executed run h
  simp only [exec, execOp, execNet] at done
  split at done
  · simp_all
  · simp_all

private theorem trust_active (run : Chronicle execIncoming free s ms t)
    (h : ⟨i, .core (.env (.isActiveTrust f)), true, n⟩ ∈ ms) :
    ∃ level, n.core.trustedPeers.lookup f = some level ∧ level ≠ .frozen := by
  obtain ⟨x, w, done⟩ := core_executed run h
  have answered : ((n.core.trustedPeers.lookup f).map TrustLevel.allowsSensitiveSend).getD false =
      true := by simpa [exec, execOp, execEnv] using congrArg (Option.map Prod.snd) done
  cases found : n.core.trustedPeers.lookup f with
  | none => simp [found] at answered
  | some level =>
    refine ⟨level, rfl, ?_⟩
    rintro rfl
    simp [found, TrustLevel.allowsSensitiveSend] at answered

private theorem config_read {config : AppConfig} (run : Chronicle execIncoming free s ms t)
    (h : ⟨i, .core (.env .config), config, n⟩ ∈ ms) : config = n.core.config := by
  obtain ⟨x, w, done⟩ := core_executed run h
  have answered : n.core.config = config := by
    simpa [exec, execOp, execEnv] using congrArg (Option.map Prod.snd) done
  exact answered.symm

end Executed

/-- In every run in which a thread handles an incoming connection, whatever the other threads
do: if it accepts an offer and no user has said yes to it before, then it has read this offer
from the connection, the sender named in it is the one whose certificate the connection
presented, this peer was trusted and not frozen when it was looked up, and automatic
acceptance was enabled when the configuration was read. -/
theorem auto_accept_authenticated (debug : DashMessage → String) (conn : ℕ) (progress : List ℕ)
    {s t : Pool IncomingOp IncomingOp.Resp Node (Except String Unit)}
    {ms pre post : List IncomingMoment} {m : IncomingMoment} {i : ℕ} {id : String}
    (run : Chronicle execIncoming free s ms t)
    (here : s.threads[i]? = some (handleIncoming debug conn progress))
    (place : ms = pre ++ m :: post) (mine : m.thread = i) (accepts : acceptedId m.op = some id)
    (unasked : ¬ UserAccepted (own i pre)) :
    ∃ (f : String) (offer : OfferPayload) (n : Node),
      ⟨i, .core (.net (.read conn)), .ok (.offer offer), n⟩ ∈ pre ∧ offer.transferId = id ∧
      offer.senderFingerprint = f ∧ SawCertificate i conn f pre ∧ SawActiveTrust i f pre ∧
      SawAutoAccept i pre := by
  have acted := (run.remembers here (handleIncoming_obeys debug progress)).2 pre m post place mine
  obtain ⟨f, offer, config, shown, read, trusted, enabled, hid, hf, on⟩ :=
    (acted id accepts).resolve_left unasked
  have old {m' : IncomingMoment} (h : m' ∈ pre) : m' ∈ ms := by
    rw [place]
    exact List.mem_append_left _ h
  obtain ⟨n₁, hshown⟩ := moment_of_own shown
  obtain ⟨n₂, hread⟩ := moment_of_own read
  obtain ⟨n₃, htrusted⟩ := moment_of_own trusted
  obtain ⟨n₄, henabled⟩ := moment_of_own enabled
  obtain rfl := config_read run (old henabled)
  exact ⟨f, offer, n₂, hread, hid, hf, ⟨n₁, hshown, certificate_shown run (old hshown)⟩,
    ⟨n₃, htrusted, trust_active run (old htrusted)⟩, ⟨n₄, henabled, on⟩⟩

section Sample

/-- A node that trusts `alice`, who has connected. -/
private def trustingNode : Node where
  core := { World.start { AppConfig.standard with
      autoAcceptTrustedOnly := true, downloadDir := some "/drop" } with
    trustedPeers := (∅ : AList _).insert "alice" .mutualConfirmed
    conns := [⟨some "alice", false⟩] }
  devices := []
  remoteAddress := fun _ => ⟨"192.168.0.7", 4000⟩
  offerRateLimits := ∅
  incomingConnRateLimits := ∅
  fingerprintChangeAlerts := ∅
  freezes := ∅
  storedPeers := ∅
  securityEvents := []
  notices := []

private def alicePool : Pool IncomingOp IncomingOp.Resp Node (Except String Unit) :=
  ⟨trustingNode, [handleIncoming (fun _ => "") 0 []]⟩

/-- From the certificate to the status update that accepts the offer. -/
private def aliceSchedule : List (ℕ × IncomingAns) :=
  ([.unit, .unit, .unit, .unit, .unit, .message (.hello ⟨0, [1]⟩), .unit,
    .message (.offer ⟨"t1", [], 0, "Alice", "alice"⟩), .unit, .unit, .unit, .unit, .unit, .unit,
    .disks [], .unit, .unit, .unit, .unit, .unit, .unit] : List Reply).map
    fun reply => (0, ⟨⟨100, reply⟩, 0⟩)

private def waits : IncomingOp → Bool
  | .core (.gate (.wait _)) => true
  | _ => false

private theorem unasked_of_all {i : ℕ} {ms : List IncomingMoment}
    (h : (ms.all fun m => !waits m.op) = true) : ¬ UserAccepted (own i ms) := by
  rintro ⟨chan, asked⟩
  obtain ⟨n, waited⟩ := moment_of_own asked
  have refused := List.all_eq_true.mp h _ waited
  simp [waits] at refused

theorem alice_auto_accepted : ∃ (ms : List IncomingMoment)
    (t : Pool IncomingOp IncomingOp.Resp Node (Except String Unit)) (pre : List IncomingMoment)
    (m : IncomingMoment) (f : String) (offer : OfferPayload) (n : Node),
    Chronicle execIncoming free alicePool ms t ∧ ms = pre ++ [m] ∧
    acceptedId m.op = some "t1" ∧ ¬ UserAccepted (own 0 pre) ∧
    ⟨0, .core (.net (.read 0)), .ok (.offer offer), n⟩ ∈ pre ∧ offer.transferId = "t1" ∧
    offer.senderFingerprint = f ∧ SawCertificate 0 0 f pre ∧ SawActiveTrust 0 f pre ∧
    SawAutoAccept 0 pre := by
  have played : ((recount execIncoming alicePool aliceSchedule).any fun z =>
      (z.1.getLast?.any fun m => m.thread = 0 && acceptedId m.op = some "t1") &&
      z.1.dropLast.all fun m => !waits m.op) = true := by decide
  obtain ⟨⟨ms, t⟩, told, checked⟩ := (Option.any_eq_true _ _).mp played
  obtain ⟨last, calm⟩ := Bool.and_eq_true_iff.mp checked
  obtain ⟨m, ends, facts⟩ := (Option.any_eq_true _ _).mp last
  obtain ⟨mine, accepts⟩ : m.thread = 0 ∧ acceptedId m.op = some "t1" := by simpa using facts
  obtain ⟨pre, rfl⟩ := List.getLast?_eq_some_iff.mp ends
  rw [List.dropLast_concat] at calm
  have run := chronicle_of_recount told
  obtain ⟨f, offer, n, found⟩ := auto_accept_authenticated (fun _ => "") 0 [] run rfl rfl mine accepts
    (unasked_of_all calm)
  exact ⟨_, t, pre, m, f, offer, n, run, rfl, accepts, unasked_of_all calm, found⟩

end Sample

/-- The name under which an item is judged: the last component of its path. -/
def offeredName (item : FileItem) : List Char :=
  ((PathBuf.ofText item.relPath.toList).fileName.map Name.text).getD item.name.toList

/-- The name ends in one of the suffixes, in whatever case it is written. -/
def EndsInHighRisk (name : List Char) : Prop :=
  ∃ stem suffix, name = stem ++ suffix ∧ toAsciiLowercase suffix ∈ highRiskSuffixes

def offeredBytes (items : List FileItem) : ℕ := (items.map FileItem.size).sum

theorem endsInHighRisk_iff (name : List Char) :
    EndsInHighRisk name ↔ ∃ suffix ∈ highRiskSuffixes, suffix <:+ toAsciiLowercase name := by
  constructor
  · rintro ⟨stem, suffix, rfl, listed⟩
    exact ⟨_, listed, toAsciiLowercase stem, by simp [toAsciiLowercase]⟩
  · rintro ⟨suffix, listed, stem, whole⟩
    obtain ⟨front, back, rfl, -, rfl⟩ := List.map_eq_append_iff.mp whole.symm
    exact ⟨front, back, rfl, listed⟩

theorem inferOfferRiskClass_of_none {item : FileItem} (h : item.riskClass = none) :
    inferOfferRiskClass item = .high ↔ EndsInHighRisk (offeredName item) := by
  rw [endsInHighRisk_iff]
  simp only [inferOfferRiskClass, h, offeredName, ite_eq_left_iff, reduceCtorEq, imp_false,
    Classical.not_not, List.any_eq_true, List.isSuffixOf_iff_suffix]

/-- What is accepted automatically declares at most 500 MiB, so it has no more if it declares
all of its items; nothing in it is declared high risk, and an item with the name of a program
is in it only if its sender declared it normal. -/
theorem auto_accept_content_policy (trustedAndAuthenticated autoAcceptTrustedOnly : Bool)
    (totalSize : ℕ) (items : List FileItem)
    (auto : determineAutoAcceptDecision trustedAndAuthenticated autoAcceptTrustedOnly totalSize
      items = .autoAccept) :
    totalSize ≤ 500 * 2 ^ 20 ∧
    (offeredBytes items ≤ totalSize → offeredBytes items ≤ 500 * 2 ^ 20) ∧
    ∀ item ∈ items, item.riskClass ≠ some .high ∧
      (EndsInHighRisk (offeredName item) → item.riskClass = some .normal) := by
  unfold determineAutoAcceptDecision at auto
  split_ifs at auto with untrusted disabled large risky
  have small : totalSize ≤ 500 * 2 ^ 20 := by
    simp only [trustedAutoAcceptMaxBytes] at large
    omega
  refine ⟨small, fun declared => declared.trans small, fun item hitem => ?_⟩
  have calm : inferOfferRiskClass item ≠ .high := by
    intro high
    exact risky (List.any_eq_true.mpr ⟨item, hitem, by simpa using high⟩)
  constructor
  · intro declared
    exact calm (by simp [inferOfferRiskClass, declared])
  · intro named
    cases declared : item.riskClass with
    | none => exact absurd ((inferOfferRiskClass_of_none declared).mpr named) calm
    | some c =>
      cases c with
      | normal => rfl
      | high => exact absurd (by simp [inferOfferRiskClass, declared]) calm

private def photo : FileItem := ⟨1, "photo.jpg", "photo.jpg", 4096, .regularFile, 0, none, none⟩

theorem photo_auto_accepted :
    determineAutoAcceptDecision true true 4096 [photo] = .autoAccept ∧
    offeredBytes [photo] ≤ 500 * 2 ^ 20 ∧ ¬ EndsInHighRisk (offeredName photo) := by
  have auto : determineAutoAcceptDecision true true 4096 [photo] = .autoAccept := by decide
  obtain ⟨-, bytes, names⟩ := auto_accept_content_policy true true 4096 [photo] auto
  refine ⟨auto, bytes (by decide), fun risky => ?_⟩
  have declared := (names photo (by simp)).2 risky
  cases declared

private def disguised : FileItem :=
  ⟨1, "setup.exe", "setup.exe", 600 * 2 ^ 20, .regularFile, 0, some .normal, none⟩

/-- A program of 600 MiB passes as a normal item of an offer that declares no bytes. -/
theorem disguised_program_auto_accepted :
    determineAutoAcceptDecision true true 0 [disguised] = .autoAccept ∧
    500 * 2 ^ 20 < offeredBytes [disguised] ∧ EndsInHighRisk (offeredName disguised) := by
  refine ⟨by decide, by decide, "setup".toList, ".exe".toList, by decide, by decide⟩

end DashDrop.Receiving.AutoAccept
