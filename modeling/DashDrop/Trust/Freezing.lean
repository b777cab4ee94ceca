/- GID: DashDrop/Trust/Freezing
   source: src-tauri/src/state.rs, src-tauri/src/core_service.rs,
     src-tauri/src/transport/handshake.rs
   anchors: []
   digest: What can make a frozen peer active again. -/

import DashDrop.Trust.Sessions

set_option autoImplicit false
set_option relaxedAutoImplicit false

namespace DashDrop.Trust.Freezing

open DashDrop.Foundation.Program DashDrop.Foundation.Interleaving
open DashDrop.Foundation.Transitions (Reaches play anyStep reaches_of_play)
open DashDrop.Runtime.State (TrustLevel AppConfig)
open DashDrop.Trust.Peers DashDrop.Trust.Storage DashDrop.Trust.Persistence DashDrop.Trust.Migration
open DashDrop.Trust.Sessions

def frozenIn (m : PeerMap) (fp : String) : Bool :=
  (m.lookup fp).any fun peer => peer.trustLevel = .frozen

def strong (method : TrustVerificationMethod) (mutualConfirmation : Bool) : Bool :=
  method = .signedPairingLink || mutualConfirmation

/-- `freeze_trusted_peer` finds the peer. -/
def freezes (fp : String) (s : Session) : Event → Bool
  | .step i _ =>
      match operation s i with
      | some (.freeze y _ _) => y = fp && (s.world.memory.trustedPeers.lookup fp).isSome
      | _ => false
  | _ => false

def unpairs (fp : String) (s : Session) : Event → Bool
  | .step i _ =>
      match operation s i with
      | some (.remove y) => y = fp
      | _ => false
  | _ => false

/-- `confirm_trusted_peer_verification` by a signed link or by both sides. -/
def verifies (fp : String) (s : Session) : Event → Bool
  | .step i _ =>
      match operation s i with
      | some (.confirm y method mutualConfirmation) => y = fp && strong method mutualConfirmation
      | _ => false
  | _ => false

/-- No weaker confirmation meets the frozen peer, and a start finds the freeze in the table. -/
def guarded (fp : String) (s : Session) : Event → Bool
  | .step i _ =>
      match operation s i with
      | some (.confirm y method mutualConfirmation) =>
          y ≠ fp || !frozenIn s.world.memory.trustedPeers fp || strong method mutualConfirmation
      | _ => true
  | .restart _ _ => !frozenIn s.world.memory.trustedPeers fp || frozenIn s.world.table.rows fp
  | _ => true

section Step

variable {fp : String} {i : ℕ} {o : TrustOp} {x : Ans} {w w' : World} {r : o.Resp} {s t : Session}

theorem frozenIn_iff {m : PeerMap} :
    frozenIn m fp = true ↔ ∃ peer, m.lookup fp = some peer ∧ peer.trustLevel = .frozen := by
  simp [frozenIn, Option.any_eq_true]

theorem not_active_of_frozenIn (h : frozenIn w.memory.trustedPeers fp = true) :
    isActiveTrust w.memory fp = false := by
  obtain ⟨peer, found, frozen⟩ := frozenIn_iff.mp h
  simp [isActiveTrust, found, frozen, TrustLevel.allowsSensitiveSend]

private theorem frozenIn_changePeer {f : TrustedPeer → TrustedPeer} {found : Bool}
    (h : frozenIn w.memory.trustedPeers fp = true)
    (keeps : ∀ peer, peer.trustLevel = .frozen → (f peer).trustLevel = .frozen)
    (done : changePeer w fp f = (w', found)) : frozenIn w'.memory.trustedPeers fp = true := by
  obtain ⟨peer, here, frozen⟩ := frozenIn_iff.mp h
  obtain ⟨other, there, -, rfl⟩ | ⟨-, rfl⟩ := changePeer_cases done
  · obtain rfl : peer = other := Option.some.inj (here.symm.trans there)
    exact frozenIn_iff.mpr ⟨f peer, AList.lookup_insert _, keeps peer frozen⟩
  · exact h

theorem frozenIn_exec (h : frozenIn w.memory.trustedPeers fp = true) (stays : o ≠ .remove fp)
    (unconfirmed : ∀ method mutualConfirmation, o ≠ .confirm fp method mutualConfirmation)
    (done : exec i o x w = some (w', r)) : frozenIn w'.memory.trustedPeers fp = true := by
  by_cases other : o.peer? = some fp
  · cases o with
    | addTrust y name =>
      obtain rfl := Option.some.inj other
      obtain ⟨peer, found, frozen⟩ := frozenIn_iff.mp h
      cases done
      apply frozenIn_iff.mpr
      simp only [World.wrote, addTrust, found]
      exact ⟨_, AList.lookup_insert _, frozen⟩
    | remove y =>
      obtain rfl := Option.some.inj other
      exact absurd rfl stays
    | setAlias y peerAlias =>
      obtain rfl := Option.some.inj other
      apply frozenIn_changePeer h _ (Option.some.inj done)
      exact fun peer frozen => frozen
    | confirm y method mutualConfirmation =>
      obtain rfl := Option.some.inj other
      exact absurd rfl (unconfirmed method mutualConfirmation)
    | freeze y reason frozenAt =>
      obtain rfl := Option.some.inj other
      exact frozenIn_changePeer h (fun _ _ => rfl) (Option.some.inj done)
    | _ => cases other
  · unfold frozenIn
    rw [exec_lookup_other other done]
    exact h

theorem frozenIn_restart (deviceName : String) (legacy : LegacyState)
    (h : frozenIn w.table.rows fp = true) :
    frozenIn (restart deviceName legacy w).memory.trustedPeers fp = true := by
  have filled : w.table.rows.entries ≠ [] := by
    intro empty
    obtain ⟨peer, found, -⟩ := frozenIn_iff.mp h
    simp [AList.lookup, empty] at found
  rw [restart, if_neg fun fresh => filled fresh.2]
  exact h

theorem frozenIn_freeze {e : Event} (h : freezes fp s e = true) (next : advance s e = some t) :
    frozenIn t.world.memory.trustedPeers fp = true := by
  cases e with
  | step i answer =>
    obtain ⟨o, k, w, r, -, asks, done, rfl⟩ := step_cases next
    simp only [freezes, asks] at h
    cases o with
    | freeze y reason frozenAt =>
      simp only [Bool.and_eq_true, decide_eq_true_eq] at h
      obtain ⟨rfl, known⟩ := h
      obtain ⟨peer, here⟩ := Option.isSome_iff_exists.mp known
      simp only [exec, changePeer, here] at done
      cases done
      exact frozenIn_iff.mpr ⟨_, AList.lookup_insert _, rfl⟩
    | _ => cases h
  | _ => cases h

theorem frozenIn_advance {e : Event} (h : frozenIn s.world.memory.trustedPeers fp = true)
    (stays : unpairs fp s e = false) (careful : guarded fp s e = true)
    (unverified : verifies fp s e = false) (next : advance s e = some t) :
    frozenIn t.world.memory.trustedPeers fp = true := by
  cases e with
  | request request =>
    obtain rfl := Option.some.inj next
    exact h
  | migrate previous fingerprint deviceName =>
    obtain rfl := Option.some.inj next
    exact h
  | restart deviceName legacy =>
    obtain rfl := Option.some.inj next
    apply frozenIn_restart
    simpa [guarded, h] using careful
  | step i answer =>
    obtain ⟨o, k, w, r, -, asks, done, rfl⟩ := step_cases next
    simp only [unpairs, verifies, guarded, asks] at stays unverified careful
    apply frozenIn_exec h _ _ done
    · rintro rfl
      simp at stays
    · rintro method mutualConfirmation rfl
      simp only [decide_true, Bool.true_and] at unverified
      simp [unverified, h] at careful

end Step

/-- Steps that do not unpair the peer, and meet the condition. -/
def Careful (fp : String) (s : Session) (e : Event) : Prop :=
  unpairs fp s e = false ∧ guarded fp s e = true

instance (fp : String) (s : Session) (e : Event) : Decidable (Careful fp s e) :=
  inferInstanceAs (Decidable (_ ∧ _))

/-- A peer that was frozen and is active later has been verified in between. -/
theorem active_only_after_verification {fp : String} {s t u : Session} {e : Event}
    (freeze : freezes fp s e = true) (frozen : advance s e = some t)
    (run : Reaches advance (Careful fp) t u) (active : isActiveTrust u.world.memory fp = true) :
    ∃ a l b, Reaches advance (Careful fp) t a ∧ verifies fp a l = true ∧ advance a l = some b ∧
      Reaches advance (Careful fp) b u := by
  have start := frozenIn_freeze freeze frozen
  obtain unverified | ⟨a, l, b, earlier, -, verified, next, later⟩ :=
    run.first fun s e => verifies fp s e = true
  · have still : frozenIn u.world.memory.trustedPeers fp = true :=
      unverified.keeps (I := fun s => frozenIn s.world.memory.trustedPeers fp = true) start (by
        intro a b l h allowed next
        obtain ⟨⟨stays, careful⟩, plain⟩ := allowed
        exact frozenIn_advance h stays careful (by simpa using plain) next)
    rw [not_active_of_frozenIn still] at active
    cases active
  · exact ⟨a, l, b, earlier.mono fun _ _ allowed => allowed.1, verified, next, later⟩

def untilFreeze : List Event := frozenHistory.dropLast.dropLast.dropLast

def beforeFreeze : Session :=
  (play advance anyStep ⟨emptyWorld, []⟩ untilFreeze).getD ⟨emptyWorld, []⟩

def freezeEvent : Event := .step 2 ⟨7, .fine, .ok ()⟩

def afterFreeze : Session := (advance beforeFreeze freezeEvent).getD beforeFreeze

/-- A restart, a pairing by fingerprint, an alias and a verified link. -/
def verifiedEvents : List Event :=
  stepsAt 2 2 ++ [.restart "Laptop" ⟨none, []⟩, .request (.pair "a")] ++ stepsAt 0 5 ++
    [.request (.setAlias "a" (some "Phone"))] ++ stepsAt 1 4 ++
    [.request (.confirm "a" .signedPairingLink false)] ++ stepsAt 2 4

def verifiedSession : Session :=
  (play advance (Careful "a") afterFreeze verifiedEvents).getD afterFreeze

theorem verification_found :
    ∃ a l b, Reaches advance (Careful "a") afterFreeze a ∧ verifies "a" a l = true ∧
      advance a l = some b ∧ Reaches advance (Careful "a") b verifiedSession := by
  have run : Reaches advance (Careful "a") afterFreeze verifiedSession :=
    reaches_of_play (by rfl : play advance (Careful "a") _ verifiedEvents = some verifiedSession)
  exact active_only_after_verification (by decide +kernel : freezes "a" beforeFreeze freezeEvent)
    (by rfl) run (by decide +kernel)

/-- Steps that neither unpair nor verify the peer. -/
def Unverified (fp : String) (s : Session) (e : Event) : Prop :=
  unpairs fp s e = false ∧ verifies fp s e = false

instance (fp : String) (s : Session) (e : Event) : Decidable (Unverified fp s e) :=
  inferInstanceAs (Decidable (_ ∧ _))

def manualEvents : List Event :=
  stepsAt 2 2 ++ [.request (.confirm "a" .manualPairing false)] ++ stepsAt 3 4

def manualSession : Session :=
  (play advance (Unverified "a") afterFreeze manualEvents).getD afterFreeze

/-- The table cannot be written after the freeze, and the process is started again. -/
def unsavedEvents : List Event :=
  stepsAt 2 1 ++ [.step 2 ⟨7, .poisoned, .ok ()⟩, .restart "Laptop" ⟨none, []⟩]

def unsavedSession : Session :=
  (play advance (Unverified "a") afterFreeze unsavedEvents).getD afterFreeze

theorem frozen_peer_reactivated :
    Reaches advance anyStep ⟨emptyWorld, []⟩ beforeFreeze ∧
      freezes "a" beforeFreeze freezeEvent = true ∧
      advance beforeFreeze freezeEvent = some afterFreeze ∧
      Reaches advance (Unverified "a") afterFreeze manualSession ∧
      isActiveTrust manualSession.world.memory "a" = true ∧
      Reaches advance (Unverified "a") afterFreeze unsavedSession ∧
      isActiveTrust unsavedSession.world.memory "a" = true := by
  have begun : Reaches advance anyStep ⟨emptyWorld, []⟩ beforeFreeze :=
    reaches_of_play (by rfl : play advance anyStep _ untilFreeze = some beforeFreeze)
  have byHand : Reaches advance (Unverified "a") afterFreeze manualSession :=
    reaches_of_play (by rfl : play advance (Unverified "a") _ manualEvents = some manualSession)
  have unsaved : Reaches advance (Unverified "a") afterFreeze unsavedSession :=
    reaches_of_play (by rfl : play advance (Unverified "a") _ unsavedEvents = some unsavedSession)
  exact ⟨begun, by decide +kernel, by rfl, byHand, by decide +kernel, unsaved, by decide +kernel⟩

end DashDrop.Trust.Freezing
