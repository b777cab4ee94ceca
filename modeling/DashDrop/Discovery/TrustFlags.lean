/- GID: DashDrop/Discovery/TrustFlags
   source: src-tauri/src/discovery/browser.rs, src-tauri/src/discovery/beacon.rs,
     src-tauri/src/core_service.rs
   anchors: []
   digest: When the trust flags of the known devices follow the trust list. -/

import DashDrop.Discovery.Answers

set_option autoImplicit false
set_option relaxedAutoImplicit false

namespace DashDrop.Discovery.TrustFlags

open DashDrop.Foundation.Program DashDrop.Foundation.Interleaving DashDrop.Foundation.Maps
open DashDrop.Foundation.Leases (lookup_retain)
open DashDrop.Foundation.Transitions
open DashDrop.Trust.Storage (PeerMap)
open DashDrop.Discovery.Devices DashDrop.Discovery.Jobs DashDrop.Discovery.Sessions
open DashDrop.Discovery.Answers

/-- Does `trusted_peers` contain the fingerprint? -/
def listed (w : World) (fp : String) : Bool := (w.trustedPeers.lookup fp).isSome

/-- A flag that may be written for the device: `true` where a pairing is between its two writes,
and else what the list says, unless an unpairing will still clear it. -/
def Fits (s : Session) (fp : String) (flag : Bool) : Prop :=
  owing s (.trust fp) = true ∧ flag = true ∨
    owing s (.trust fp) = false ∧ (flag = listed s.world fp ∨ owing s (.unmark fp) = true)

def discovered? : DiscoveryOp → Option (String × Bool)
  | .announce fp a => some (fp, a.trusted)
  | .connectDevice fp _ trusted => some (fp, trusted)
  | _ => none

def cleared? : DiscoveryOp → Option String
  | .unmark fp => some fp
  | _ => none

def Unpaired (s : Session) (fp : String) : Prop :=
  s.world.devices.lookup fp = none ∨ listed s.world fp = false ∧ owing s (.trust fp) = false

/-- A discovery update writes a flag that fits, and an unpairing clears the flag of a device that
has not been paired again. -/
def Careful (s : Session) : Event → Prop
  | .step i _ =>
      (∀ write ∈ (operation s i).bind discovered?, Fits s write.1 write.2) ∧
        ∀ fp ∈ (operation s i).bind cleared?, Unpaired s fp
  | _ => True

theorem recordProbe_trusted (nowUnix : ℕ) (attempted : List String) (report : ProbeReport)
    (d : DeviceInfo) : (recordProbe nowUnix attempted report d).trusted = d.trusted := by
  unfold recordProbe
  dsimp only
  split_ifs <;> rfl

theorem pruned_trusted (nowUnix instant : ℕ) (d : DeviceInfo) :
    (markOffline nowUnix (dropStale instant d)).trusted = d.trusted := by
  have dropped : (dropStale instant d).trusted = d.trusted := by
    unfold dropStale
    split_ifs <;> rfl
  unfold markOffline
  split_ifs
  · exact dropped
  · exact dropped

/-- Every device of the second map is one of the first, with its flag. -/
def FlagsKept (before after : DeviceMap) : Prop :=
  ∀ fp d', after.lookup fp = some d' → ∃ d, before.lookup fp = some d ∧ d'.trusted = d.trusted

theorem FlagsKept.refl (devices : DeviceMap) : FlagsKept devices devices :=
  fun _ d' found => ⟨d', found, rfl⟩

theorem flagsKept_modify {f : DeviceInfo → DeviceInfo} (same : ∀ d, (f d).trusted = d.trusted)
    (fp : String) (devices : DeviceMap) : FlagsKept devices (modify fp f devices) := by
  intro other d' found
  obtain ⟨d, known, rfl | ⟨-, rfl⟩⟩ := lookup_modify_cases found
  · exact ⟨d', known, rfl⟩
  · exact ⟨d, known, same d⟩

theorem flagsKept_applyRemoval (fp sessionId : String) (observed nowUnix : ℕ)
    (index : SessionIndex) (devices : DeviceMap) :
    FlagsKept devices (applyRemoval fp sessionId observed nowUnix index devices).2.1 := by
  obtain ⟨-, same⟩ | ⟨entry, -, -, dropped⟩ :=
    applyRemoval_cases fp sessionId observed nowUnix index devices
  · rw [same]
    exact .refl devices
  · have same (d : DeviceInfo) : (dropSession entry.sessionId d).trusted = d.trusted := rfl
    rw [dropped]
    exact flagsKept_modify same _ devices

theorem flagsKept_prune (nowUnix instant : ℕ) (devices : DeviceMap) :
    FlagsKept devices (prune nowUnix instant devices).1 := by
  intro fp d' found
  obtain ⟨d, known, rfl⟩ := lookup_prune found
  exact ⟨d, known, pruned_trusted nowUnix instant d⟩

theorem flagsKept_recordProbe (fp : String) (nowUnix : ℕ) (attempted : List String)
    (report : ProbeReport) (devices : DeviceMap) :
    FlagsKept devices (modify fp (recordProbe nowUnix attempted report) devices) :=
  flagsKept_modify (recordProbe_trusted nowUnix attempted report) fp devices

/-- A flag that does not agree with the list will be set right by a write that is due. -/
structure Following (s : Session) : Prop where
  paired : ∀ fp d, s.world.devices.lookup fp = some d → owing s (.trust fp) = true →
    d.trusted = true
  flags : ∀ fp d, s.world.devices.lookup fp = some d →
    d.trusted = listed s.world fp ∨ owing s (.trust fp) = true ∨ owing s (.unmark fp) = true

theorem following_boot (trustedPeers : PeerMap) : Following (boot trustedPeers) where
  paired := by simp [boot]
  flags := by simp [boot]

def flagDue : Due → Option (Bool × String)
  | .trust fp => some (true, fp)
  | .unmark fp => some (false, fp)
  | .nothing | .index _ | .sweep _ => none

def SameDebts (s t : Session) : Prop := ∀ i, flagDue (owes t i) = flagDue (owes s i)

variable {s t : Session}

theorem sameDebts {i : ℕ} {x : Ans} {o : DiscoveryOp} {r : o.Resp} (turn : Turn s t i x o r)
    (same : flagDue (incurred o r) = flagDue (owed (some o))) : SameDebts s t := by
  intro j
  by_cases own : j = i
  · subst own
    rw [turn.own, turn.owes_eq, same]
  · rw [turn.others j own]

theorem owing_trust_iff (s : Session) (fp : String) :
    owing s (.trust fp) = true ↔ ∃ i, flagDue (owes s i) = some (true, fp) := by
  constructor
  · intro h
    obtain ⟨i, owes⟩ := exists_owes h
    exact ⟨i, by rw [owes]; rfl⟩
  · rintro ⟨i, due⟩
    cases owes : owes s i with
    | trust fp' =>
      rw [owes] at due
      cases due
      exact owing_of_owes owes (by simp)
    | _ =>
      rw [owes] at due
      cases due

theorem owing_unmark_iff (s : Session) (fp : String) :
    owing s (.unmark fp) = true ↔ ∃ i, flagDue (owes s i) = some (false, fp) := by
  constructor
  · intro h
    obtain ⟨i, owes⟩ := exists_owes h
    exact ⟨i, by rw [owes]; rfl⟩
  · rintro ⟨i, due⟩
    cases owes : owes s i with
    | unmark fp' =>
      rw [owes] at due
      cases due
      exact owing_of_owes owes (by simp)
    | _ =>
      rw [owes] at due
      cases due

theorem SameDebts.owing_trust (h : SameDebts s t) (fp : String) :
    owing t (.trust fp) = owing s (.trust fp) := by
  rw [Bool.eq_iff_iff, owing_trust_iff, owing_trust_iff]
  exact exists_congr fun i => by rw [h i]

theorem SameDebts.owing_unmark (h : SameDebts s t) (fp : String) :
    owing t (.unmark fp) = owing s (.unmark fp) := by
  rw [Bool.eq_iff_iff, owing_unmark_iff, owing_unmark_iff]
  exact exists_congr fun i => by rw [h i]

theorem Following.kept (h : Following s)
    (devices : FlagsKept s.world.devices t.world.devices)
    (peers : t.world.trustedPeers = s.world.trustedPeers) (debts : SameDebts s t) :
    Following t := by
  have list (fp : String) : listed t.world fp = listed s.world fp := by rw [listed, listed, peers]
  constructor
  · intro fp d' found due
    obtain ⟨d, known, flag⟩ := devices fp d' found
    rw [debts.owing_trust] at due
    rw [flag, h.paired fp d known due]
  · intro fp d' found
    obtain ⟨d, known, flag⟩ := devices fp d' found
    rw [list, debts.owing_trust, debts.owing_unmark, flag]
    exact h.flags fp d known

theorem Following.entered (h : Following s) (fp : String) {entry : DeviceInfo}
    (devices : t.world.devices = s.world.devices.insert fp entry)
    (peers : t.world.trustedPeers = s.world.trustedPeers) (debts : SameDebts s t)
    (fits : Fits s fp entry.trusted) : Following t := by
  have list (fp : String) : listed t.world fp = listed s.world fp := by rw [listed, listed, peers]
  constructor
  · intro other d found due
    rw [debts.owing_trust] at due
    rw [devices, lookup_insert_ite] at found
    split_ifs at found with same
    · cases found
      subst same
      obtain ⟨-, flag⟩ | ⟨none, -⟩ := fits
      · exact flag
      · rw [due] at none
        cases none
    · exact h.paired other d found due
  · intro other d found
    rw [list, debts.owing_trust, debts.owing_unmark]
    rw [devices, lookup_insert_ite] at found
    split_ifs at found with same
    · cases found
      subst same
      obtain ⟨due, -⟩ | ⟨-, agrees | cleared⟩ := fits
      · exact .inr (.inl due)
      · exact .inl agrees
      · exact .inr (.inr cleared)
    · exact h.flags other d found

theorem lookup_flagged {fp other : String} {flag : Bool} {w : World} {d : DeviceInfo}
    (found : (flagDevice fp flag w).devices.lookup other = some d) :
    ∃ old, w.devices.lookup other = some old ∧
      d.trusted = if other = fp then flag else old.trusted := by
  simp only [flagDevice, lookup_modify] at found
  split_ifs at found with same
  · obtain ⟨old, known, rfl⟩ := Option.map_eq_some_iff.mp found
    exact ⟨old, by rw [same, known], by simp [same, setTrusted]⟩
  · exact ⟨d, found, by simp [same]⟩

theorem Following.marked (h : Following s) {i : ℕ} {x : Ans} {fp name : String}
    (turn : Turn s t i x (.markTrusted fp) name) : Following t := by
  obtain ⟨world, -⟩ : flagDevice fp true s.world = t.world ∧ _ = name := by
    simpa [exec] using turn.done
  have list (other : String) : listed t.world other = listed s.world other := by
    rw [← world]
    rfl
  have now : owing t (.trust fp) = true := owing_of_owes turn.own (by simp)
  constructor
  · intro other d found due
    rw [← world] at found
    obtain ⟨old, known, flag⟩ := lookup_flagged found
    rw [flag]
    split_ifs with same
    · rfl
    · have before := turn.was_owing due (by simp) (by simpa [incurred] using Ne.symm same)
      exact h.paired other old known before
  · intro other d found
    rw [← world] at found
    obtain ⟨old, known, flag⟩ := lookup_flagged found
    by_cases same : other = fp
    · rw [same]
      exact .inr (.inl now)
    · rw [flag, if_neg same, list]
      obtain agrees | due | due := h.flags other old known
      · exact .inl agrees
      · exact .inr (.inl (turn.still_owing due (by simp) (by simp [owed])))
      · exact .inr (.inr (turn.still_owing due (by simp) (by simp [owed])))

theorem lookup_addTrust (fp name other : String) (nowUnix : ℕ) (peers : PeerMap) :
    ((addTrust fp name nowUnix peers).lookup other).isSome =
      (decide (other = fp) || (peers.lookup other).isSome) := by
  unfold addTrust Trust.Peers.addTrust
  by_cases same : other = fp
  · subst same
    split
    · simp [Trust.Peers.setPeer]
    · simp [Trust.Peers.setPeer]
  · split
    · simp [Trust.Peers.setPeer, AList.lookup_insert_ne same, same]
    · simp [Trust.Peers.setPeer, AList.lookup_insert_ne same, same]

theorem Following.added (h : Following s) {i : ℕ} {x : Ans} {fp name : String}
    (turn : Turn s t i x (.addTrust fp name) ()) : Following t := by
  have world : { s.world with
      trustedPeers := addTrust fp name x.nowUnix s.world.trustedPeers } = t.world := by
    simpa [exec] using turn.done
  have devices : t.world.devices = s.world.devices := by rw [← world]
  have list (other : String) :
      listed t.world other = (decide (other = fp) || listed s.world other) := by
    rw [← world]
    exact lookup_addTrust fp name other _ _
  have was : owing s (.trust fp) = true := owing_of_owes turn.owes_eq (by simp)
  constructor
  · intro other d found due
    rw [devices] at found
    exact h.paired other d found (turn.was_owing due (by simp) (by simp [incurred]))
  · intro other d found
    rw [devices] at found
    rw [list]
    by_cases same : other = fp
    · subst same
      exact .inl (by simp [h.paired other d found was])
    · obtain agrees | due | due := h.flags other d found
      · exact .inl (by simp [agrees, same])
      · exact .inr (.inl (turn.still_owing due (by simp) (by simpa [owed] using Ne.symm same)))
      · exact .inr (.inr (turn.still_owing due (by simp) (by simp [owed])))

theorem Following.removed (h : Following s) {i : ℕ} {x : Ans} {fp : String} {found : Bool}
    (turn : Turn s t i x (.removeTrust fp) found) : Following t := by
  obtain ⟨world, known⟩ : { s.world with trustedPeers := s.world.trustedPeers.erase fp } = t.world ∧
      listed s.world fp = found := by
    simpa [exec, listed] using turn.done
  have devices : t.world.devices = s.world.devices := by rw [← world]
  have list (other : String) :
      listed t.world other = if other = fp then false else listed s.world other := by
    rw [← world, listed, lookup_erase_ite]
    split_ifs
    · rfl
    · rfl
  constructor
  · intro other d here due
    rw [devices] at here
    refine h.paired other d here (turn.was_owing due (by simp) ?_)
    cases found <;> simp [incurred]
  · intro other d here
    rw [devices] at here
    have stays {due : Due} (was : owing s due = true) (ne : due ≠ .nothing) :
        owing t due = true := turn.still_owing was ne (by simpa [owed] using Ne.symm ne)
    by_cases same : other = fp
    · subst same
      cases found with
      | true => exact .inr (.inr (owing_of_owes turn.own (by simp)))
      | false =>
        rw [list, if_pos rfl, ← known]
        exact (h.flags other d here).imp_right
          (Or.imp (fun due => stays due (by simp)) fun due => stays due (by simp))
    · rw [list, if_neg same]
      exact (h.flags other d here).imp_right
        (Or.imp (fun due => stays due (by simp)) fun due => stays due (by simp))

theorem Following.cleared (h : Following s) {i : ℕ} {x : Ans} {fp : String}
    (turn : Turn s t i x (.unmark fp) ()) (unpaired : Unpaired s fp) : Following t := by
  have world : flagDevice fp false s.world = t.world := by simpa [exec] using turn.done
  have list (other : String) : listed t.world other = listed s.world other := by
    rw [← world]
    rfl
  constructor
  · intro other d found due
    rw [← world] at found
    obtain ⟨old, known, flag⟩ := lookup_flagged found
    have before := turn.was_owing due (by simp) (by simp [incurred])
    by_cases same : other = fp
    · subst same
      obtain unknown | ⟨-, settled⟩ := unpaired
      · rw [unknown] at known
        cases known
      · rw [settled] at before
        cases before
    · rw [flag, if_neg same]
      exact h.paired other old known before
  · intro other d found
    rw [← world] at found
    obtain ⟨old, known, flag⟩ := lookup_flagged found
    rw [flag, list]
    by_cases same : other = fp
    · subst same
      obtain unknown | ⟨absent, -⟩ := unpaired
      · rw [unknown] at known
        cases known
      · exact .inl (by simp [absent])
    · rw [if_neg same]
      obtain agrees | due | due := h.flags other old known
      · exact .inl agrees
      · exact .inr (.inl (turn.still_owing due (by simp) (by simp [owed])))
      · exact .inr (.inr (turn.still_owing due (by simp) (by simpa [owed] using Ne.symm same)))

theorem Following.advance (h : Following s) (order : Ordered s) {e : Event}
    (careful : Careful s e) (next : advance s e = some t) : Following t := by
  obtain ⟨-, ⟨⟨spawned, world⟩, same⟩ | ⟨i, x, o, r, rfl, turn⟩⟩ := advance_turn order next
  · apply h.kept
    · rw [world]
      exact .refl _
    · rw [world]
    · intro j
      rw [same j]
  · have done := turn.done
    obtain ⟨fits, unpaired⟩ := careful
    rw [turn.operation] at fits unpaired
    cases o with
    | announce fp a =>
      simp only [exec, Option.some.injEq, Prod.mk.injEq] at done
      have devices : t.world.devices = s.world.devices.insert fp
          (refreshDevice a x.instant
            ((s.world.devices.lookup fp).getD (announcedDevice fp a))) := by
        rw [← done.1]
        rfl
      refine h.entered fp devices ?_ (sameDebts turn rfl) (fits _ rfl)
      rw [← done.1]
    | connectDevice fp addr trusted =>
      simp only [exec, Option.some.injEq, Prod.mk.injEq] at done
      have devices : t.world.devices = s.world.devices.insert fp
          (reachDevice addr trusted x.nowUnix x.instant
            ((s.world.devices.lookup fp).getD (manualDevice fp addr trusted x.nowUnix))) := by
        rw [← done.1]
        rfl
      refine h.entered fp devices ?_ (sameDebts turn rfl) (fits _ rfl)
      rw [← done.1]
    | applyRemoval fp sessionId observed nowUnix =>
      simp only [exec, Option.some.injEq, Prod.mk.injEq] at done
      refine h.kept ?_ ?_ (sameDebts turn rfl)
      · rw [← done.1]
        exact flagsKept_applyRemoval _ _ _ _ _ _
      · rw [← done.1]
    | prune nowUnix =>
      simp only [exec, Option.some.injEq, Prod.mk.injEq] at done
      refine h.kept ?_ ?_ (sameDebts turn ?_)
      · rw [← done.1]
        exact flagsKept_prune _ _ _
      · rw [← done.1]
      · simp only [incurred]
        split_ifs <;> rfl
    | recordProbe fp nowUnix attempted report =>
      simp only [exec, Option.some.injEq, Prod.mk.injEq] at done
      refine h.kept ?_ ?_ (sameDebts turn rfl)
      · rw [← done.1]
        exact flagsKept_recordProbe _ _ _ _ _
      · rw [← done.1]
    | indexSession entry fullname =>
      simp only [exec, Option.some.injEq, Prod.mk.injEq] at done
      refine h.kept ?_ ?_ (sameDebts turn rfl)
      · rw [← done.1]
        exact .refl _
      · rw [← done.1]
    | sweepIndex pruned =>
      simp only [exec, Option.some.injEq, Prod.mk.injEq] at done
      refine h.kept ?_ ?_ (sameDebts turn rfl)
      · rw [← done.1]
        exact .refl _
      · rw [← done.1]
    | markTrusted fp => exact h.marked turn
    | addTrust fp name => exact h.added turn
    | removeTrust fp => exact h.removed turn
    | unmark fp => exact h.cleared turn (unpaired fp rfl)
    | _ =>
      obtain ⟨devices, -, peers⟩ := exec_aside rfl done
      refine h.kept ?_ peers (sameDebts turn rfl)
      rw [devices]
      exact .refl _

/-- A discovery update of the device is between its question to the trust list and its write. -/
def discovering (s : Session) (fp : String) : Bool :=
  s.threads.any fun x => (carried x).any fun answer => answer.1 = fp

/-- The operations on one device that may not overlap: a change of the list with a discovery
update that has its answer and not yet written it, and a pairing between its two writes with such
a write or with an unpairing. -/
def Undisturbed (s : Session) : DiscoveryOp → Prop
  | .addTrust fp _ => listed s.world fp = true ∨ discovering s fp = false
  | .removeTrust fp =>
      listed s.world fp = false ∨ discovering s fp = false ∧ owing s (.trust fp) = false
  | .announce fp _ | .connectDevice fp _ _ =>
      listed s.world fp = true ∨ owing s (.trust fp) = false
  | .markTrusted fp => owing s (.unmark fp) = false
  | _ => True

instance (s : Session) (o : DiscoveryOp) : Decidable (Undisturbed s o) :=
  match o with
  | .addTrust _ _ | .announce _ _ | .connectDevice _ _ _ => inferInstanceAs (Decidable (_ ∨ _))
  | .removeTrust _ => inferInstanceAs (Decidable (_ ∨ _ ∧ _))
  | .markTrusted _ => inferInstanceAs (Decidable (_ = _))
  | .bumpEvent _ | .bumpFailure _ | .resolveHostname _ | .lookupHost _ | .isTrusted _ | .now
  | .indexSession _ _ | .recordVisibility _ | .emit _ | .spawn _ | .findEntry _ | .observe _ _
  | .schedule _ | .unschedule _ | .applyRemoval _ _ _ _ | .prune _ | .sweepIndex _ | .probeAddr _
  | .recordProbe _ _ _ _ | .dial _ | .peerFingerprint | .hello | .logSecurityEvent _ | .unmark _
  | .persist | .trustLevel _ => .isTrue trivial

def Spaced (s : Session) : Event → Prop
  | .step i _ => ∀ o ∈ operation s i, Undisturbed s o
  | _ => True

instance (s : Session) (e : Event) : Decidable (Spaced s e) :=
  match e with
  | .step _ _ => inferInstanceAs (Decidable (∀ o ∈ _, _))
  | .arrive _ => .isTrue trivial
  | .start _ => .isTrue trivial

/-- The answers that tasks carry are still those of the list, and no pairing is between its
writes while an unpairing is. -/
structure Current (s : Session) : Prop where
  answers : ∀ x ∈ s.threads, ∀ answer ∈ carried x, answer.2 = listed s.world answer.1
  unpairing : ∀ fp, owing s (.unmark fp) = true →
    listed s.world fp = false ∧ owing s (.trust fp) = false

theorem current_boot (trustedPeers : PeerMap) : Current (boot trustedPeers) where
  answers := by simp [boot]
  unpairing := by simp [boot, owing]

theorem discovering_of_carried {x : Code Unit} {answer : String × Bool} (inside : x ∈ s.threads)
    (carries : answer ∈ carried x) : discovering s answer.1 = true := by
  refine List.any_eq_true.mpr ⟨x, inside, ?_⟩
  rw [Option.mem_def.mp carries]
  simp

def changesList : DiscoveryOp → Bool
  | .addTrust _ _ | .removeTrust _ => true
  | _ => false

theorem exec_list {i : ℕ} {o : DiscoveryOp} {x : Ans} {w w' : World} {r : o.Resp}
    (h : changesList o = false) (done : exec i o x w = some (w', r)) :
    w'.trustedPeers = w.trustedPeers := by
  cases o <;> first
    | (cases done; rfl)
    | cases h

theorem listed_turn {i : ℕ} {x : Ans} {o : DiscoveryOp} {r : o.Resp}
    (done : exec i o x s.world = some (t.world, r)) (allowed : Undisturbed s o) (fp : String) :
    listed t.world fp = listed s.world fp ∨
      discovering s fp = false ∧
        ((∃ name, o = .addTrust fp name) ∨
          o = .removeTrust fp ∧ owing s (.trust fp) = false ∧ listed t.world fp = false) := by
  cases o with
  | addTrust fp' name =>
    have world : { s.world with
        trustedPeers := addTrust fp' name x.nowUnix s.world.trustedPeers } = t.world := by
      simpa [exec] using done
    have list : listed t.world fp = (decide (fp = fp') || listed s.world fp) := by
      rw [← world]
      exact lookup_addTrust fp' name fp _ _
    by_cases same : fp = fp'
    · subst same
      obtain already | apart := allowed
      · exact .inl (by simp [list, already])
      · exact .inr ⟨apart, .inl ⟨name, rfl⟩⟩
    · exact .inl (by simp [list, same])
  | removeTrust fp' =>
    obtain ⟨world, -⟩ : { s.world with trustedPeers := s.world.trustedPeers.erase fp' } = t.world ∧
        listed s.world fp' = r := by
      simpa [exec, listed] using done
    have list : listed t.world fp = if fp = fp' then false else listed s.world fp := by
      rw [← world, listed, lookup_erase_ite]
      split_ifs
      · rfl
      · rfl
    by_cases same : fp = fp'
    · subst same
      rw [if_pos rfl] at list
      obtain absent | ⟨apart, settled⟩ := allowed
      · exact .inl (by rw [list, absent])
      · exact .inr ⟨apart, .inr ⟨rfl, settled, list⟩⟩
    · rw [if_neg same] at list
      exact .inl list
  | _ => exact .inl (by rw [listed, listed, exec_list rfl done])

theorem carrying_some {i : ℕ} {x : Ans} {o : DiscoveryOp} {r : o.Resp} {c : Answer}
    {answer : String × Bool} (done : exec i o x s.world = some (t.world, r))
    (moved : carrying c o r = some (some answer)) :
    c = some answer ∨ t.world = s.world ∧ answer.2 = listed s.world answer.1 := by
  cases o with
  | isTrusted fp =>
    simp only [carrying] at moved
    split_ifs at moved
    cases moved
    simp only [exec, Option.some.injEq, Prod.mk.injEq] at done
    exact .inr ⟨done.1.symm, done.2.symm⟩
  | now =>
    cases moved
    exact .inl rfl
  | _ =>
    simp only [carrying] at moved
    split_ifs at moved
    cases moved

theorem Current.answers_advance (h : Current s) (carries : Carrying s) {e : Event}
    (spaced : Spaced s e) (next : advance s e = some t) :
    ∀ x ∈ t.threads, ∀ answer ∈ carried x, answer.2 = listed t.world answer.1 := by
  obtain ⟨-, ⟨peers, old⟩ | ⟨i, x, o, r, c, rfl, asks, before, done, after⟩⟩ :=
    carrying_advance carries next
  · intro y inside answer carried_now
    obtain was | none := old y inside
    · rw [listed, peers]
      exact h.answers y was answer carried_now
    · rw [none] at carried_now
      cases carried_now
  · have stays {y : Code Unit} (was : y ∈ s.threads) {answer : String × Bool}
        (carried_now : answer ∈ carried y) : answer.2 = listed t.world answer.1 := by
      obtain same | ⟨apart, -⟩ := listed_turn done (spaced o asks) answer.1
      · rw [same]
        exact h.answers y was answer carried_now
      · rw [discovering_of_carried was carried_now] at apart
        cases apart
    intro y inside answer carried_now
    obtain was | moved := after y inside
    · exact stays was carried_now
    · rw [Option.mem_def.mp carried_now] at moved
      obtain held | ⟨world, told⟩ := carrying_some done moved
      · obtain ⟨z, there, same⟩ := List.mem_map.mp before
        exact stays there (same.trans held)
      · rw [world]
        exact told

theorem Current.unpairing_advance (h : Current s) (order : Ordered s) {e : Event}
    (spaced : Spaced s e) (next : advance s e = some t) (fp : String)
    (due : owing t (.unmark fp) = true) :
    listed t.world fp = false ∧ owing t (.trust fp) = false := by
  obtain ⟨-, ⟨⟨spawned, world⟩, same⟩ | ⟨i, x, o, r, rfl, turn⟩⟩ := advance_turn order next
  · have debts : SameDebts s t := fun j => by rw [same j]
    rw [debts.owing_unmark] at due
    rw [debts.owing_trust, listed, world]
    exact h.unpairing fp due
  · have allowed := spaced o turn.operation
    by_cases incurs : incurred o r = .unmark fp
    · -- The list entry has just been taken out.
      cases o with
      | removeTrust fp' =>
        cases r with
        | false => cases incurs
        | true =>
          obtain rfl := Due.unmark.inj incurs
          have known : listed s.world fp' = true := (by simpa [exec, listed] using turn.done :
            _ ∧ listed s.world fp' = true).2
          obtain absent | ⟨-, settled⟩ := allowed
          · rw [absent] at known
            cases known
          · constructor
            · have world : { s.world with
                  trustedPeers := s.world.trustedPeers.erase fp' } = t.world :=
                (by simpa [exec, listed] using turn.done : _ ∧ listed s.world fp' = true).1
              rw [← world, listed, lookup_erase_ite, if_pos rfl]
              rfl
            · by_contra pairing
              have was := turn.was_owing (by simpa using pairing) (by simp) (by simp [incurred])
              rw [settled] at was
              cases was
      | prune nowUnix =>
        simp only [incurred] at incurs
        split_ifs at incurs
      | _ => cases incurs
    · have was := turn.was_owing due (by simp) incurs
      obtain ⟨absent, settled⟩ := h.unpairing fp was
      have none_due : incurred o r ≠ .trust fp := by
        intro pairs
        cases o with
        | markTrusted fp' =>
          obtain rfl := Due.trust.inj pairs
          have free : owing s (.unmark fp') = false := allowed
          rw [free] at was
          cases was
        | prune nowUnix =>
          simp only [incurred] at pairs
          split_ifs at pairs
        | removeTrust fp' => cases r <;> cases pairs
        | _ => cases pairs
      have settled' : owing t (.trust fp) = false := by
        by_contra pairing
        have before := turn.was_owing (by simpa using pairing) (by simp) none_due
        rw [settled] at before
        cases before
      refine ⟨?_, settled'⟩
      obtain same | ⟨-, ⟨name, rfl⟩ | ⟨-, -, gone⟩⟩ := listed_turn turn.done allowed fp
      · rw [same, absent]
      · have pairs : owing s (.trust fp) = true := owing_of_owes turn.owes_eq (by simp)
        rw [settled] at pairs
        cases pairs
      · exact gone

/-- Where nothing overlaps, a discovery update writes a flag that fits and an unpairing clears
that of a device that has not been paired again. -/
theorem Current.careful (h : Current s) {e : Event} (spaced : Spaced s e) : Careful s e := by
  cases e with
  | arrive job => trivial
  | start k => trivial
  | step i x =>
    cases asks : operation s i with
    | none => exact ⟨by simp [asks], by simp [asks]⟩
    | some o =>
      have allowed := spaced o asks
      obtain ⟨y, here, first⟩ := Option.bind_eq_some_iff.mp asks
      have inside := List.mem_of_getElem? here
      have fits {fp : String} {flag : Bool} (held : carried y = some (fp, flag))
          (apart : listed s.world fp = true ∨ owing s (.trust fp) = false) : Fits s fp flag := by
        have told : flag = listed s.world fp := h.answers y inside (fp, flag) held
        cases pairing : owing s (.trust fp) with
        | true =>
          obtain known | settled := apart
          · exact .inl ⟨pairing, told.trans known⟩
          · rw [pairing] at settled
            cases settled
        | false => exact .inr ⟨pairing, .inl told⟩
      constructor
      · rintro ⟨fp, flag⟩ writes
        rw [asks] at writes
        cases y with
        | pure a => cases first
        | op o' k =>
          cases first
          cases o with
          | announce fp' a =>
            cases writes
            exact fits rfl allowed
          | connectDevice fp' addr trusted =>
            cases writes
            exact fits rfl allowed
          | _ => cases writes
      · intro fp clears
        have due : owes s i = .unmark fp := by
          rw [asks] at clears
          rw [owes, asks]
          cases o with
          | unmark fp' =>
            cases clears
            rfl
          | _ => cases clears
        exact .inr (h.unpairing fp (owing_of_owes due (by simp)))

/-- No pairing and no unpairing is between its two writes. -/
def Settled (s : Session) : Prop :=
  ∀ fp, owing s (.trust fp) = false ∧ owing s (.unmark fp) = false

theorem settled_of_idle (h : idle s = true) : Settled s := by
  have none (due : Due) (ne : due ≠ .nothing) : owing s due = false := by
    by_contra some
    obtain ⟨i, owes⟩ := exists_owes (by simpa using some)
    exact ne (owes.symm.trans (owes_of_idle h i))
  exact fun fp => ⟨none _ (by simp), none _ (by simp)⟩

/-- After every run from the start of the process in which no two operations on one device overlap
as `Undisturbed` excludes, whatever is in progress besides pairings and unpairings. -/
theorem trust_flags_follow {trustedPeers : PeerMap}
    (run : Reaches advance Spaced (boot trustedPeers) s) (settled : Settled s) {fp : String}
    {d : DeviceInfo} (known : s.world.devices.lookup fp = some d) :
    d.trusted = listed s.world d.fingerprint := by
  have reached : Ordered s ∧ Keyed s.world.devices ∧ Carrying s ∧ Current s ∧ Following s := by
    refine run.keeps (I := fun s => Ordered s ∧ Keyed s.world.devices ∧ Carrying s ∧ Current s ∧
      Following s) ?_ ?_
    · exact ⟨ordered_boot trustedPeers, keyed_boot trustedPeers, carrying_boot trustedPeers,
        current_boot trustedPeers, following_boot trustedPeers⟩
    · rintro a b e ⟨order, keyed, carries, current, following⟩ spaced next
      exact ⟨(advance_turn order next).1, keyed_advance keyed next,
        (carrying_advance carries next).1,
        ⟨current.answers_advance carries spaced next, current.unpairing_advance order spaced next⟩,
        following.advance order (current.careful spaced) next⟩
  obtain ⟨-, keyed, -, -, following⟩ := reached
  rw [keyed fp d known]
  obtain agrees | due | due := following.flags fp d known
  · exact agrees
  · rw [(settled fp).1] at due
    cases due
  · rw [(settled fp).2] at due
    cases due

def orderlyEvents : List Event :=
  [.arrive phoneBeacon] ++ stepsAt 0 8 ++ [.arrive (.pair "f")] ++ stepsAt 1 5 ++
    [.arrive phoneBeacon] ++ stepsAt 2 8

def orderlySession : Session := (play advance Spaced (boot ∅) orderlyEvents).getD (boot ∅)

theorem heard_again_trusted :
    ∃ d, orderlySession.world.devices.lookup "f" = some d ∧
      d.trusted = listed orderlySession.world d.fingerprint := by
  have run : Reaches advance Spaced (boot ∅) orderlySession :=
    reaches_of_play (by rfl : play advance Spaced _ orderlyEvents = some orderlySession)
  have settled : Settled orderlySession := settled_of_idle (by decide +kernel)
  cases known : orderlySession.world.devices.lookup "f" with
  | none =>
    have found : (orderlySession.world.devices.lookup "f").isSome = true := by decide +kernel
    rw [known] at found
    cases found
  | some d => exact ⟨d, rfl, trust_flags_follow run settled known⟩

/-- The device is paired between the answer of the trust list and the write of the flag. -/
def overtakenEvents : List Event :=
  [.arrive phoneBeacon] ++ stepsAt 0 8 ++ [.arrive phoneBeacon] ++ stepsAt 1 3 ++
    [.arrive (.pair "f")] ++ stepsAt 2 5 ++ stepsAt 1 5

def overtakenSession : Session := (play advance anyStep (boot ∅) overtakenEvents).getD (boot ∅)

theorem paired_device_shown_untrusted :
    Reaches advance anyStep (boot ∅) overtakenSession ∧ idle overtakenSession = true ∧
      (overtakenSession.world.devices.lookup "f").map
        (fun d => (d.fingerprint, d.trusted, listed overtakenSession.world d.fingerprint)) =
          some ("f", false, true) := by
  have run : Reaches advance anyStep (boot ∅) overtakenSession :=
    reaches_of_play (by rfl : play advance anyStep _ overtakenEvents = some overtakenSession)
  exact ⟨run, by decide +kernel, by decide +kernel⟩

end DashDrop.Discovery.TrustFlags
