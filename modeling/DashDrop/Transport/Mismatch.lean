/- GID: DashDrop/Transport/Mismatch
   source: src-tauri/src/transport/handshake.rs
   anchors: []
   digest: Which device a handshake blames for a changed fingerprint, in every order of the map. -/

import DashDrop.Foundation.Moments
import DashDrop.Transport.Handshake

set_option autoImplicit false
set_option relaxedAutoImplicit false

namespace DashDrop.Transport.Mismatch

open DashDrop.Foundation.Program DashDrop.Foundation.Interleaving DashDrop.Foundation.Discipline
open DashDrop.Foundation.Moments
open DashDrop.Transport.Protocol DashDrop.Transport.Receiver DashDrop.Transport.Handshake
open DashDrop.Runtime.State DashDrop.Runtime.Machine

/-- The device has a session at the address. -/
def At (ip : String) (device : DeviceInfo) : Prop :=
  ∃ session ∈ device.sessions, ∃ a ∈ session.addrs, a.ip = ip

/-- The device and the session that the scan finds in this order of the map. -/
def scan (ip certFp : String) (devices : List DeviceInfo) : Option (String × String) :=
  devices.findSome? (deviceMismatch ip certFp)

/-- Whatever the order of the map, a device is blamed only if it has a session at the address
and no known device there has the fingerprint; and the order makes no difference. -/
structure BlamesRight (ip certFp : String) (devices : List DeviceInfo) : Prop where
  blamed : ∀ order : List DeviceInfo, order.Perm devices → ∀ fp sessionId,
    scan ip certFp order = some (fp, sessionId) →
    (∃ device ∈ devices, device.fingerprint = fp ∧ At ip device) ∧
    ∀ device ∈ devices, At ip device → device.fingerprint ≠ certFp
  orderless : ∀ order : List DeviceInfo, order.Perm devices →
    scan ip certFp order = scan ip certFp devices

variable {ip certFp fp sessionId : String} {device : DeviceInfo} {devices : List DeviceInfo}

theorem deviceMismatch_isSome_iff : (deviceMismatch ip certFp device).isSome = true ↔
    At ip device ∧ device.fingerprint ≠ certFp := by
  unfold deviceMismatch At
  cases found : device.sessions.find? fun session => session.addrs.any fun a => a.ip = ip with
  | none =>
    refine iff_of_false (by simp) ?_
    rintro ⟨⟨session, here, a, there, same⟩, -⟩
    have missed := List.find?_eq_none.mp found session here
    simp only [List.any_eq_true, decide_eq_true_eq, not_exists, not_and] at missed
    exact missed a there same
  | some session =>
    have here := List.mem_of_find?_eq_some found
    have matched := List.find?_some found
    obtain ⟨a, there, same⟩ : ∃ a ∈ session.addrs, a.ip = ip := by simpa using matched
    by_cases other : device.fingerprint ≠ certFp
    · simp only [Option.bind_some, if_pos other, Option.isSome_some, true_iff]
      exact ⟨⟨session, here, a, there, same⟩, other⟩
    · simp [other]

theorem fingerprint_of_deviceMismatch
    (h : deviceMismatch ip certFp device = some (fp, sessionId)) : device.fingerprint = fp := by
  obtain ⟨session, -, shown⟩ := Option.bind_eq_some_iff.mp h
  split_ifs at shown
  cases shown
  rfl

theorem scan_eq_some (h : scan ip certFp devices = some (fp, sessionId)) :
    ∃ device ∈ devices, device.fingerprint = fp ∧ At ip device ∧ fp ≠ certFp := by
  obtain ⟨device, here, found⟩ := List.exists_of_findSome?_eq_some h
  obtain ⟨there, other⟩ := deviceMismatch_isSome_iff.mp (Option.isSome_of_eq_some found)
  obtain rfl := fingerprint_of_deviceMismatch found
  exact ⟨device, here, rfl, there, other⟩

theorem exists_scan (here : device ∈ devices) (there : At ip device)
    (other : device.fingerprint ≠ certFp) :
    ∃ fp sessionId, scan ip certFp devices = some (fp, sessionId) := by
  cases found : scan ip certFp devices with
  | some answer => exact ⟨answer.1, answer.2, rfl⟩
  | none =>
    have missed := List.findSome?_eq_none_iff.mp found device here
    have seen := deviceMismatch_isSome_iff.mpr ⟨there, other⟩
    simp [missed] at seen

theorem scan_cons (rest : List DeviceInfo) (there : At ip device)
    (other : device.fingerprint ≠ certFp) :
    ∃ sessionId, scan ip certFp (device :: rest) = some (device.fingerprint, sessionId) := by
  obtain ⟨⟨fp, sessionId⟩, found⟩ :=
    Option.isSome_iff_exists.mp (deviceMismatch_isSome_iff.mpr ⟨there, other⟩)
  obtain rfl := fingerprint_of_deviceMismatch found
  exact ⟨sessionId, by simp [scan, found]⟩

private theorem perm_cons_of_mem (here : device ∈ devices) :
    ∃ rest, (device :: rest).Perm devices := by
  obtain ⟨front, back, rfl⟩ := List.append_of_mem here
  exact ⟨front ++ back, List.perm_middle.symm⟩

private theorem scan_perm_of_single
    (single : ∀ d ∈ devices, ∀ d' ∈ devices, At ip d → At ip d' → d = d')
    {order : List DeviceInfo} (perm : order.Perm devices) :
    scan ip certFp order = scan ip certFp devices := by
  cases found : scan ip certFp devices with
  | none =>
    refine List.findSome?_eq_none_iff.mpr fun device here => ?_
    exact List.findSome?_eq_none_iff.mp found device (perm.mem_iff.mp here)
  | some answer =>
    obtain ⟨device, here, shown⟩ := List.exists_of_findSome?_eq_some found
    obtain ⟨there, other⟩ := deviceMismatch_isSome_iff.mp (Option.isSome_of_eq_some shown)
    obtain ⟨fp, sessionId, found'⟩ := exists_scan (perm.mem_iff.mpr here) there other
    rw [found', ← shown]
    obtain ⟨device', here', shown'⟩ := List.exists_of_findSome?_eq_some found'
    obtain ⟨there', -⟩ := deviceMismatch_isSome_iff.mp (Option.isSome_of_eq_some shown')
    rw [single device here device' (perm.mem_iff.mp here') there there', shown']

/-- The scan blames rightly if and only if at most one known device has a session at the
address. The map is keyed by fingerprint. -/
theorem blamesRight_iff (keyed : (devices.map DeviceInfo.fingerprint).Nodup) :
    BlamesRight ip certFp devices ↔
      ∀ d ∈ devices, ∀ d' ∈ devices, At ip d → At ip d' → d = d' := by
  constructor
  · intro right d here d' here' there there'
    by_contra apart
    have distinct : d.fingerprint ≠ d'.fingerprint :=
      fun same => apart (List.inj_on_of_nodup_map keyed here here' same)
    -- as soon as one of them is blamed, none may have the fingerprint of the connection
    have foreign {e : DeviceInfo} (inside : e ∈ devices) (near : At ip e)
        (other : e.fingerprint ≠ certFp) : ∀ f ∈ devices, At ip f → f.fingerprint ≠ certFp := by
      obtain ⟨fp, sessionId, found⟩ := exists_scan inside near other
      exact (right.blamed devices (List.Perm.refl _) fp sessionId found).2
    have both : d.fingerprint ≠ certFp ∧ d'.fingerprint ≠ certFp := by
      by_cases own : d.fingerprint = certFp
      · have other : d'.fingerprint ≠ certFp := fun same => distinct (own.trans same.symm)
        exact absurd own (foreign here' there' other d here there)
      · exact ⟨own, foreign here there own d' here' there'⟩
    obtain ⟨rest, perm⟩ := perm_cons_of_mem here
    obtain ⟨rest', perm'⟩ := perm_cons_of_mem here'
    obtain ⟨sessionId, first⟩ := scan_cons rest there both.1
    obtain ⟨sessionId', first'⟩ := scan_cons rest' there' both.2
    have same := (right.orderless _ perm).trans (right.orderless _ perm').symm
    rw [first, first'] at same
    exact distinct (Prod.mk.inj (Option.some.inj same)).1
  · intro single
    constructor
    · intro order perm fp sessionId found
      obtain ⟨device, here, rfl, there, other⟩ := scan_eq_some found
      have known := perm.mem_iff.mp here
      refine ⟨⟨device, known, rfl, there⟩, fun device' here' there' => ?_⟩
      rwa [← single device known device' here' there there']
    · exact fun order perm => scan_perm_of_single single perm

abbrev Seen := Sightings IncomingOp IncomingOp.Resp
abbrev IncomingMoment := Moment IncomingOp IncomingOp.Resp Node

def blames : IncomingOp → Option String
  | .notify (.identityMismatch _ mdnsFp _) => some mdnsFp
  | .notify (.trustedPeerUpdated fingerprint _ _ _) => some fingerprint
  | .notify (.fingerprintChanged _ previousFp _ _ _) => some previousFp
  | .logSecurityEvent event => event.fingerprint
  | .freezeTrustedPeer fp _ _ => some fp
  | _ => none

/-- The scan for the certificate of the connection has found the device. -/
def Scanned (conn : ℕ) (fp : String) (seen : Seen) : Prop :=
  ∃ certFp sessionId, ⟨.core (.net (.peerFp conn)), .ok certFp⟩ ∈ seen ∧
    ⟨.mismatchByIp conn certFp, some (fp, sessionId)⟩ ∈ seen

def Grounded (conn : ℕ) (seen : Seen) (o : IncomingOp) : Prop :=
  ∀ fp, blames o = some fp → Scanned conn fp seen

section Rules

variable {α : Type} {conn : ℕ} {seen later : Seen}

theorem Scanned.mono (h : Scanned conn fp seen) (grown : seen <+: later) :
    Scanned conn fp later := by
  obtain ⟨certFp, sessionId, shown, found⟩ := h
  exact ⟨certFp, sessionId, grown.subset shown, grown.subset found⟩

private theorem silent_end {x : Incoming α} {q : α → Prop}
    (h : x.Within (fun o => blames o = none) q) :
    Obeys (remembering (Grounded conn)) seen x fun _ _ => True := by
  refine (Obeys.roam h ?_).mono fun _ _ _ => trivial
  intro later o _ none fp blamed
  rw [none] at blamed
  cases blamed

private theorem silent_op {o : IncomingOp} {k : o.Resp → Incoming α} {fin : Seen → α → Prop}
    (h : blames o = none)
    (rest : ∀ r, Obeys (remembering (Grounded conn)) (seen ++ [⟨o, r⟩]) (k r) fin) :
    Obeys (remembering (Grounded conn)) seen (.op o k) fin := by
  refine Obeys.act (fun fp blamed => ?_) rest
  rw [h] at blamed
  cases blamed

private theorem founded {x : Incoming α} {q : α → Prop}
    (h : x.Within (fun o => ∀ other, blames o = some other → other = fp) q)
    (found : Scanned conn fp seen) :
    Obeys (remembering (Grounded conn)) seen x fun later _ => seen <+: later := by
  refine (Obeys.roam h ?_).mono fun _ _ grown => grown.1
  intro later o grown own other blamed
  obtain rfl := own other blamed
  exact found.mono grown

end Rules

section Audit

variable {conn : ℕ} (certFp mdnsFp sessionId : String)

private def names (fp : String) (o : IncomingOp) : Prop :=
  ∀ other, blames o = some other → other = fp

private theorem names_self {o : IncomingOp} (h : blames o = some mdnsFp) : names mdnsFp o := by
  intro other blamed
  rw [h] at blamed
  exact (Option.some.inj blamed).symm

private theorem names_none {o : IncomingOp} (h : blames o = none) : names mdnsFp o := by
  intro other blamed
  rw [h] at blamed
  cases blamed

private theorem freezeChangedPeer_names (nowUnix : ℕ) :
    (freezeChangedPeer mdnsFp certFp sessionId nowUnix).Within (names mdnsFp) fun _ => True := by
  refine ⟨names_self _ rfl, fun frozen => ?_⟩
  cases frozen with
  | none => trivial
  | some level =>
    refine ⟨names_none _ rfl, fun _ => ⟨names_none _ rfl, fun _ => ⟨names_self _ rfl, fun _ => ?_⟩⟩⟩
    exact ⟨names_self _ rfl, fun _ => trivial⟩

private theorem handleFingerprintChange_names (remoteAddr : String) :
    (handleFingerprintChange remoteAddr mdnsFp certFp sessionId).Within (names mdnsFp)
      fun _ => True := by
  refine ⟨names_none _ rfl, fun previous => ⟨names_none _ rfl, fun nowUnix => ?_⟩⟩
  have alert (u : Unit) : (do
      if ← act (.alertDue (sessionId ++ "|" ++ mdnsFp ++ "|" ++ certFp) nowUnix) then
        act (.notify (.fingerprintChanged sessionId mdnsFp certFp previous remoteAddr))
        act (.logSecurityEvent ⟨"fingerprint_changed", "incoming", some mdnsFp,
          "trusted fingerprint changed on session " ++ sessionId ++ ": previous=" ++ mdnsFp ++
            " current=" ++ certFp⟩) : Incoming Unit).Within (names mdnsFp) fun _ => True := by
    refine ⟨names_none _ rfl, fun due => ?_⟩
    cases due with
    | false => trivial
    | true => exact ⟨names_self _ rfl, fun _ => ⟨names_self _ rfl, fun _ => trivial⟩⟩
  show Prog.Within _ _ (Prog.bind _ _)
  split_ifs
  · exact (freezeChangedPeer_names ..).bind fun _ _ => alert ()
  · exact alert ()

private theorem auditMismatch_names :
    (auditMismatch conn certFp mdnsFp sessionId).Within (names mdnsFp) fun _ => True := by
  refine ⟨names_none _ rfl, fun _ => ⟨names_self _ rfl, fun _ => ⟨names_self _ rfl, fun _ => ?_⟩⟩⟩
  refine ⟨names_none _ rfl, fun previous => ⟨names_none _ rfl, fun current => ?_⟩⟩
  simp only [ret_bind]
  split_ifs
  · exact (handleFingerprintChange_names ..).bind fun _ _ => trivial
  · trivial

end Audit

section Exchange

variable (debug : DashMessage → String) (conn : ℕ) (progress : List ℕ)
  (peerCertFp : Option String)

private theorem lift_silent {α : Type} (x : Code α) :
    (lift x).Within (fun o => blames o = none) fun _ => True := by
  induction x with
  | pure a => trivial
  | op o k ih => exact ⟨rfl, ih⟩

private theorem rejectControlStream_silent (reason : ErrorCode) :
    (rejectControlStream conn reason).Within (fun o => blames o = none) fun _ => True :=
  ⟨rfl, fun _ => trivial⟩

private theorem awaitOffer_silent (chosenVersion : ℕ) :
    (awaitOffer debug conn progress peerCertFp chosenVersion).Within (fun o => blames o = none)
      fun _ => True := by
  refine ⟨rfl, fun answer => ?_⟩
  rcases answer with f | message
  · exact rejectControlStream_silent conn _
  · cases message with
    | offer offer =>
      show Prog.Within _ _ (routeOffer conn progress peerCertFp chosenVersion offer)
      unfold routeOffer
      split_ifs
      · exact rejectControlStream_silent conn _
      · exact rejectControlStream_silent conn _
      · refine ⟨rfl, fun trusted => ⟨rfl, fun exceeded => ?_⟩⟩
        cases exceeded with
        | true => exact rejectControlStream_silent conn _
        | false => exact lift_silent _
    | _ => exact rejectControlStream_silent conn _

private theorem exchangeHello_silent :
    (exchangeHello debug conn progress peerCertFp).Within (fun o => blames o = none)
      fun _ => True := by
  refine ⟨rfl, fun opened => ?_⟩
  rcases opened with cause | _
  · trivial
  refine ⟨rfl, fun answer => ?_⟩
  rcases answer with f | message
  · exact rejectControlStream_silent conn _
  cases message with
  | hello peerHello =>
    simp only [lift, ret_bind]
    split_ifs
    · exact rejectControlStream_silent conn _
    · refine ⟨rfl, fun wrote => ?_⟩
      rcases wrote with f | _
      · trivial
      simp only [lift, ret_bind]
      split
      · exact awaitOffer_silent debug conn progress peerCertFp _
      · refine ⟨rfl, fun refused => ?_⟩
        rcases refused with f | _ <;> trivial
  | _ => exact rejectControlStream_silent conn _

private theorem screenPeer_grounded {certFp : String} {seen : Seen}
    (shown : ⟨.core (.net (.peerFp conn)), .ok certFp⟩ ∈ seen) :
    Obeys (remembering (Grounded conn)) seen (screenPeer conn (some certFp)) fun _ _ => True := by
  refine silent_op rfl fun trusted => silent_op rfl fun exceeded => ?_
  cases exceeded with
  | true => trivial
  | false =>
    refine silent_op rfl fun found => ?_
    cases found with
    | none => trivial
    | some found =>
      obtain ⟨mdnsFp, sessionId⟩ := found
      show Obeys _ _ ((auditMismatch conn certFp mdnsFp sessionId).bind _) _
      refine (founded (auditMismatch_names certFp mdnsFp sessionId) ?_).bind fun _ _ _ => trivial
      exact ⟨certFp, sessionId, by simp [shown], by simp⟩

private theorem handleIncoming_grounded :
    Obeys (remembering (Grounded conn)) [] (handleIncoming debug conn progress)
      fun _ _ => True := by
  refine silent_op rfl fun answer => ?_
  simp only [lift, ret_bind]
  have screened : Obeys (remembering (Grounded conn)) [⟨.core (.net (.peerFp conn)), answer⟩]
      (screenPeer conn answer.toOption) fun _ _ => True := by
    rcases answer with cause | certFp
    · trivial
    · exact screenPeer_grounded conn (by simp)
  refine screened.bind fun later goesOn _ => ?_
  cases goesOn with
  | true => exact silent_end (exchangeHello_silent debug conn progress _)
  | false => exact silent_end (q := fun _ => True) ⟨rfl, fun _ => trivial⟩

end Exchange

private theorem scan_executed {s t : Pool IncomingOp IncomingOp.Resp Node (Except String Unit)}
    {ms : List IncomingMoment} {i conn : ℕ} {answer : Option (String × String)} {n : Node}
    (run : Chronicle execIncoming free s ms t)
    (h : ⟨i, .mismatchByIp conn certFp, answer, n⟩ ∈ ms) :
    answer = scan (n.remoteAddress conn).ip certFp n.devices := by
  obtain ⟨x, n', -, done⟩ := run.executed h
  exact (congrArg Prod.snd (Option.some.inj done)).symm

/-- In every run in which a thread handles an incoming connection: whatever it reports or
freezes is the device that its scan found in the map as it was then; and a scan blames rightly,
in every order of the map, if and only if at most one known device has a session at the address
of the connection. -/
theorem alarms_blame_right_device_iff (debug : DashMessage → String) (conn : ℕ)
    (progress : List ℕ) {s t : Pool IncomingOp IncomingOp.Resp Node (Except String Unit)}
    {ms : List IncomingMoment} {i : ℕ} (run : Chronicle execIncoming free s ms t)
    (here : s.threads[i]? = some (handleIncoming debug conn progress)) :
    (∀ m ∈ ms, m.thread = i → ∀ fp, blames m.op = some fp → ∃ certFp sessionId n,
      ⟨i, .mismatchByIp conn certFp, some (fp, sessionId), n⟩ ∈ ms ∧
      scan (n.remoteAddress conn).ip certFp n.devices = some (fp, sessionId)) ∧
    ∀ certFp answer n, ⟨i, .mismatchByIp conn certFp, answer, n⟩ ∈ ms →
      (n.devices.map DeviceInfo.fingerprint).Nodup →
      (BlamesRight (n.remoteAddress conn).ip certFp n.devices ↔
        ∀ d ∈ n.devices, ∀ d' ∈ n.devices,
          At (n.remoteAddress conn).ip d → At (n.remoteAddress conn).ip d' → d = d') := by
  refine ⟨fun m member mine fp blamed => ?_, fun certFp answer n _ keyed => blamesRight_iff keyed⟩
  obtain ⟨pre, post, place⟩ := List.append_of_mem member
  have grounded := handleIncoming_grounded debug conn progress
  have acted := (run.remembers here grounded).2 pre m post place mine
  obtain ⟨certFp, sessionId, -, found⟩ := acted fp blamed
  obtain ⟨n, scanned⟩ := moment_of_own found
  have old : (⟨i, .mismatchByIp conn certFp, some (fp, sessionId), n⟩ : IncomingMoment) ∈ ms := by
    rw [place]
    exact List.mem_append_left _ scanned
  exact ⟨certFp, sessionId, n, old, (scan_executed run old).symm⟩

def deviceAt (ip fingerprint : String) : DeviceInfo :=
  ⟨fingerprint, [⟨"session-" ++ fingerprint, [⟨ip, 4000⟩]⟩]⟩

/-- A node that has confirmed `alice`; `bob` connects from the address of these devices. -/
def nodeBehind (devices : List DeviceInfo) : Node where
  core := { World.start .standard with
    trustedPeers := (∅ : AList _).insert "alice" .mutualConfirmed
    conns := [⟨some "bob", false⟩] }
  devices := devices
  remoteAddress := fun _ => ⟨"192.168.0.7", 4000⟩
  offerRateLimits := ∅
  incomingConnRateLimits := ∅
  fingerprintChangeAlerts := ∅
  freezes := ∅
  storedPeers := ∅
  securityEvents := []
  notices := []

def poolBehind (devices : List DeviceInfo) :
    Pool IncomingOp IncomingOp.Resp Node (Except String Unit) :=
  ⟨nodeBehind devices, [handleIncoming (fun _ => "") 0 []]⟩

private def freezeSchedule : List (ℕ × IncomingAns) :=
  List.replicate 12 (0, ⟨⟨100, .unit⟩, 0⟩)

/-- The known device `bob` connects from the address it shares with `alice`, and `alice` is
frozen; for a third certificate the map's order decides who is blamed. -/
theorem neighbour_frozen :
    (∃ (ms : List IncomingMoment) (t : Pool IncomingOp IncomingOp.Resp Node (Except String Unit)),
      Chronicle execIncoming free
        (poolBehind [deviceAt "192.168.0.7" "alice", deviceAt "192.168.0.7" "bob"]) ms t ∧
      t.world.core.trustedPeers.lookup "alice" = some .frozen) ∧
    ¬ BlamesRight "192.168.0.7" "bob"
      [deviceAt "192.168.0.7" "alice", deviceAt "192.168.0.7" "bob"] ∧
    scan "192.168.0.7" "carol"
        [deviceAt "192.168.0.7" "alice", deviceAt "192.168.0.7" "bob"] ≠
      scan "192.168.0.7" "carol"
        [deviceAt "192.168.0.7" "bob", deviceAt "192.168.0.7" "alice"] := by
  refine ⟨?_, fun right => ?_, by decide⟩
  · have played : ((recount execIncoming
        (poolBehind [deviceAt "192.168.0.7" "alice", deviceAt "192.168.0.7" "bob"])
        freezeSchedule).any fun z =>
          z.2.world.core.trustedPeers.lookup "alice" == some .frozen) = true := by decide
    obtain ⟨⟨ms, t⟩, told, frozen⟩ := (Option.any_eq_true _ _).mp played
    exact ⟨ms, t, chronicle_of_recount told, by simpa using frozen⟩
  · have blamed := (right.blamed _ (List.Perm.refl _) "alice" "session-alice" (by decide)).2
    exact blamed (deviceAt "192.168.0.7" "bob") (by simp)
      ⟨_, List.mem_singleton_self _, _, List.mem_singleton_self _, rfl⟩ rfl

/-- A stranger at the address of `alice` alone: she is the one who is blamed, and rightly. -/
theorem stranger_blamed_on_alice :
    ∃ (ms : List IncomingMoment) (t : Pool IncomingOp IncomingOp.Resp Node (Except String Unit))
      (n : Node) (certFp sessionId : String),
      Chronicle execIncoming free (poolBehind [deviceAt "192.168.0.7" "alice"]) ms t ∧
      ⟨0, .mismatchByIp 0 certFp, some ("alice", sessionId), n⟩ ∈ ms ∧
      BlamesRight (n.remoteAddress 0).ip certFp n.devices := by
  have played : ((recount execIncoming (poolBehind [deviceAt "192.168.0.7" "alice"])
      freezeSchedule).any fun z =>
        (z.1.any fun m => m.thread == 0 && blames m.op == some "alice") &&
        z.1.all fun m => m.before.devices.map DeviceInfo.fingerprint == ["alice"]) = true := by
    decide
  obtain ⟨⟨ms, t⟩, told, checked⟩ := (Option.any_eq_true _ _).mp played
  simp only [Bool.and_eq_true, List.any_eq_true, List.all_eq_true, beq_iff_eq] at checked
  obtain ⟨⟨m, member, mine, blamed⟩, alone⟩ := checked
  have run := chronicle_of_recount told
  obtain ⟨reported, right⟩ := alarms_blame_right_device_iff (fun _ => "") 0 [] (i := 0) run rfl
  obtain ⟨certFp, sessionId, n, scanned, -⟩ := reported m member mine "alice" blamed
  have single : n.devices.map DeviceInfo.fingerprint = ["alice"] := alone _ scanned
  refine ⟨ms, t, n, certFp, sessionId, run, scanned, ?_⟩
  refine (right certFp _ n scanned (by simp [single])).mpr fun d here d' here' _ _ => ?_
  obtain ⟨device, only, -⟩ := List.map_eq_singleton_iff.mp single
  rw [only, List.mem_singleton] at here here'
  rw [here, here']

end DashDrop.Transport.Mismatch
