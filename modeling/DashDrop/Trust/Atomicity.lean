/- GID: DashDrop/Trust/Atomicity
   source: src-tauri/src/core_service.rs
   anchors: []
   digest: When a call that fails has left settings, trusted peers and devices as they were. -/

import DashDrop.Trust.Persistence

set_option autoImplicit false
set_option relaxedAutoImplicit false

namespace DashDrop.Trust.Atomicity

open DashDrop.Foundation.Program DashDrop.Foundation.Interleaving DashDrop.Foundation.Text
open DashDrop.Runtime.State (TrustLevel AppConfig)
open DashDrop.Trust.Peers (TrustedPeer TrustState TrustVerificationMethod KnownDevice)
open DashDrop.Trust.Peers (setPeer addTrust markTrusted newPeer confirmedPeer normalizedAlias)
open DashDrop.Trust.Peers (applyVerification requestedLevel markTrusted_trustedPeers notFound)
open DashDrop.Trust.Storage
open DashDrop.Trust.Persistence (emptyWorld)

/-- The same trusted peers, and the same devices marked as trusted. -/
structure SameTrust (s s' : TrustState) : Prop where
  peers : ∀ fp, s'.trustedPeers.lookup fp = s.trustedPeers.lookup fp
  flags : ∀ fp, (s'.devices.lookup fp).map KnownDevice.trusted =
    (s.devices.lookup fp).map KnownDevice.trusted

theorem SameTrust.refl (s : TrustState) : SameTrust s s := ⟨fun _ => rfl, fun _ => rfl⟩

structure Unchanged (w w' : World) : Prop where
  config : w'.config = w.config
  trust : SameTrust w.memory w'.memory

/-- The calls of the user: all requests but the freeze by a handshake. -/
def isCall : Request → Bool
  | .freeze _ _ _ => false
  | _ => true

/-- The settings that `set_app_config` stores. -/
def cleaned (given : AppConfig) : AppConfig := { given with deviceName := trimmed given.deviceName }

/-- The call is turned down before it comes to the database. -/
def Refused (answers : TrustOp → Ans) (w : World) : Request → Prop
  | .pair _ | .freeze _ _ _ => False
  | .unpair fp | .setAlias fp _ => w.memory.trustedPeers.lookup fp = none
  | .confirm fp method mutualConfirmation =>
      (mutualConfirmation ∧ (method = .manualPairing ∨ method = .legacyUnsignedLink)) ∨
        w.memory.trustedPeers.lookup fp = none
  | .setConfig given =>
      (trimmed given.deviceName).isEmpty ∨ given.maxParallelStreams = 0 ∨
        given.maxParallelStreams > 32 ∨
        (∃ dir, given.downloadDir = some dir ∧ (answers (.probe dir)).outcome ≠ .ok ()) ∨
        (w.config.deviceName ≠ trimmed given.deviceName ∧ (answers .reregister).outcome ≠ .ok ())

structure Confirmed (method : TrustVerificationMethod) (mutualConfirmation : Bool) (nowUnix : ℕ)
    (peer : TrustedPeer) : Prop where
  level : applyVerification peer.trustLevel (requestedLevel method mutualConfirmation) =
    peer.trustLevel
  last : peer.lastVerificationMethod = if mutualConfirmation then .mutualReceipt else method
  here : peer.localConfirmationAt = some nowUnix
  there : method = .signedPairingLink ∨ method = .mutualReceipt →
    peer.remoteConfirmationMaterialSeenAt = some nowUnix
  both : mutualConfirmation = true → peer.mutualConfirmedAt.isSome = true
  thawed : peer.trustLevel ≠ .frozen → peer.frozenAt = none ∧ peer.freezeReason = none

/-- The call has nothing to change: the peer is already paired under the name of the device, the
alias and the confirmation are those of its record, the settings are the current ones. -/
def Idle (answers : TrustOp → Ans) (w : World) : Request → Prop
  | .pair fp =>
      (∀ device, w.memory.devices.lookup fp = some device → device.trusted = true) ∧
        ∃ peer, w.memory.trustedPeers.lookup fp = some peer ∧
          peer.name = (markTrusted w.memory fp).2 ∧
          (peer.pairedAt ≠ 0 ∨ (answers (.addTrust fp peer.name)).now = 0) ∧
          peer.localConfirmationAt.isSome = true
  | .unpair _ | .freeze _ _ _ => False
  | .setAlias fp peerAlias =>
      (w.memory.trustedPeers.lookup fp).map TrustedPeer.peerAlias = some (normalizedAlias peerAlias)
  | .confirm fp method mutualConfirmation =>
      ∃ peer, w.memory.trustedPeers.lookup fp = some peer ∧ Confirmed method mutualConfirmation
        (answers (.confirm fp method mutualConfirmation)).now peer
  | .setConfig given => cleaned given = w.config

section Changes

variable {s : TrustState} {fp : String} {peer : TrustedPeer}

theorem sameTrust_setPeer_iff :
    SameTrust s (setPeer s fp peer) ↔ s.trustedPeers.lookup fp = some peer := by
  constructor
  · intro h
    rw [← h.peers fp]
    exact AList.lookup_insert _
  · intro found
    refine ⟨fun other => ?_, fun _ => rfl⟩
    by_cases same : other = fp
    · subst same
      rw [found]
      exact AList.lookup_insert _
    · exact AList.lookup_insert_ne same

theorem confirmedPeer_eq_iff {method : TrustVerificationMethod} {mutualConfirmation : Bool}
    {nowUnix : ℕ} : confirmedPeer peer method mutualConfirmation nowUnix = peer ↔
      Confirmed method mutualConfirmation nowUnix peer := by
  constructor
  · intro h
    have level := congrArg TrustedPeer.trustLevel h
    constructor
    · exact level
    · exact (congrArg TrustedPeer.lastVerificationMethod h).symm
    · exact (congrArg TrustedPeer.localConfirmationAt h).symm
    · intro seen
      have time := congrArg TrustedPeer.remoteConfirmationMaterialSeenAt h
      simp only [confirmedPeer, if_pos seen] at time
      exact time.symm
    · intro confirms
      have time := congrArg TrustedPeer.mutualConfirmedAt h
      by_contra missing
      have none_yet : peer.mutualConfirmedAt = none := by simpa using missing
      simp [confirmedPeer, confirms, none_yet] at time
    · intro plain
      simp only [confirmedPeer] at level
      have since := congrArg TrustedPeer.frozenAt h
      have reason := congrArg TrustedPeer.freezeReason h
      simp only [confirmedPeer, level, if_pos plain] at since reason
      exact ⟨since.symm, reason.symm⟩
  · intro h
    obtain ⟨level, last, here, there, both, thawed⟩ := h
    unfold confirmedPeer
    have seen : (if method = .signedPairingLink ∨ method = .mutualReceipt then some nowUnix
        else peer.remoteConfirmationMaterialSeenAt) = peer.remoteConfirmationMaterialSeenAt := by
      split_ifs with known
      · exact (there known).symm
      · rfl
    have confirmed : (if mutualConfirmation = true ∧ peer.mutualConfirmedAt = none then some nowUnix
        else peer.mutualConfirmedAt) = peer.mutualConfirmedAt := by
      split_ifs with first
      · have dated := both first.1
        rw [first.2] at dated
        cases dated
      · rfl
    have since : (if peer.trustLevel ≠ .frozen then none else peer.frozenAt) = peer.frozenAt := by
      split_ifs with plain
      · exact (thawed plain).1.symm
      · rfl
    have reason : (if peer.trustLevel ≠ .frozen then none else peer.freezeReason) =
        peer.freezeReason := by
      split_ifs with plain
      · exact (thawed plain).2.symm
      · rfl
    simp only [level, seen, confirmed, since, reason, ← last]
    rw [← here]

theorem sameTrust_addTrust_iff (s : TrustState) (fp name : String) (nowUnix : ℕ) :
    SameTrust s (addTrust s fp name nowUnix) ↔ ∃ peer, s.trustedPeers.lookup fp = some peer ∧
      peer.name = name ∧ (peer.pairedAt ≠ 0 ∨ nowUnix = 0) ∧
      peer.localConfirmationAt.isSome = true := by
  unfold addTrust
  split
  · rename_i existing found
    rw [sameTrust_setPeer_iff, found, Option.some.injEq]
    constructor
    · intro h
      refine ⟨existing, rfl, congrArg TrustedPeer.name h, ?_, ?_⟩
      · have paired := congrArg TrustedPeer.pairedAt h
        by_contra fresh
        push Not at fresh
        simp only [fresh.1, if_pos] at paired
        exact fresh.2 paired.symm
      · have dated := congrArg TrustedPeer.localConfirmationAt h
        by_contra missing
        have none_yet : existing.localConfirmationAt = none := by simpa using missing
        simp [none_yet] at dated
    · rintro ⟨peer, same, name, paired, dated⟩
      obtain rfl := Option.some.inj same
      obtain ⟨time, set⟩ := Option.isSome_iff_exists.mp dated
      have kept : (if existing.pairedAt = 0 then nowUnix else existing.pairedAt) =
          existing.pairedAt := by
        split_ifs <;> omega
      have first : existing.localConfirmationAt.or (some nowUnix) = existing.localConfirmationAt := by
        simp [set]
      rw [← name, kept, first]
  · rename_i missing
    rw [sameTrust_setPeer_iff, missing]
    simp

theorem flags_markTrusted_iff :
    (∀ other, ((markTrusted s fp).1.devices.lookup other).map KnownDevice.trusted =
      (s.devices.lookup other).map KnownDevice.trusted) ↔
      ∀ device, s.devices.lookup fp = some device → device.trusted = true := by
  unfold markTrusted
  split
  · rename_i device found
    constructor
    · intro h other same
      obtain rfl := Option.some.inj (found.symm.trans same)
      have flag := h fp
      rw [AList.lookup_insert, found] at flag
      simpa using flag.symm
    · intro h other
      by_cases same : other = fp
      · subst same
        rw [AList.lookup_insert, found]
        simp [h device found]
      · rw [AList.lookup_insert_ne same]
  · rename_i missing
    simp [missing]

theorem sameTrust_pair_iff {nowUnix : ℕ} :
    SameTrust s (addTrust (markTrusted s fp).1 fp (markTrusted s fp).2 nowUnix) ↔
      (∀ device, s.devices.lookup fp = some device → device.trusted = true) ∧
        ∃ peer, s.trustedPeers.lookup fp = some peer ∧ peer.name = (markTrusted s fp).2 ∧
          (peer.pairedAt ≠ 0 ∨ nowUnix = 0) ∧ peer.localConfirmationAt.isSome = true := by
  have marked := markTrusted_trustedPeers s fp
  have devices : (addTrust (markTrusted s fp).1 fp (markTrusted s fp).2 nowUnix).devices =
      (markTrusted s fp).1.devices := by
    unfold addTrust
    split <;> rfl
  rw [← flags_markTrusted_iff, ← marked, ← sameTrust_addTrust_iff]
  constructor
  · intro h
    refine ⟨fun other => ?_, ⟨fun other => ?_, fun other => ?_⟩⟩
    · rw [← devices]
      exact h.flags other
    · rw [marked]
      exact h.peers other
    · rw [devices]
  · rintro ⟨flags, same⟩
    refine ⟨fun other => ?_, fun other => ?_⟩
    · rw [← marked]
      exact same.peers other
    · rw [devices]
      exact flags other

end Changes

section Calls

-- The check of the device name is never evaluated here.
attribute [local irreducible] DashDrop.Foundation.Text.trimmed

variable {answers : TrustOp → Ans} {w w' : World} {outcome : Except String Unit} {cause : String}

private theorem persist_config {x : Ans} {config : AppConfig} {trusted : PeerMap}
    (done : exec 0 (.persist config trusted) x w = some (w', outcome)) : w'.config = w.config := by
  simp only [exec] at done
  split at done
  · cases done
    rfl
  · cases done
    rfl
  · simp only [World.replaced] at done
    split at done <;> (cases done; rfl)

theorem persistRuntimeState_alone
    (h : alone exec 0 answers persistRuntimeState w = some (w', outcome)) :
    w'.memory = w.memory ∧ w'.config = w.config := by
  obtain ⟨⟨v, r⟩, read, last⟩ := Option.bind_eq_some_iff.mp h
  obtain ⟨⟨u, trusted⟩, cloned, last⟩ := Option.bind_eq_some_iff.mp last
  obtain ⟨⟨y, saved⟩, persisted, last⟩ := Option.bind_eq_some_iff.mp last
  cases read
  cases cloned
  cases last
  have memory := persist_memory persisted
  have config := persist_config persisted
  exact ⟨memory, config⟩

theorem pairDevice_alone {fp : String}
    (h : alone exec 0 answers (Storage.pairDevice fp) w = some (w', outcome)) :
    w'.config = w.config ∧ w'.memory = addTrust (markTrusted w.memory fp).1 fp
      (markTrusted w.memory fp).2 (answers (.addTrust fp (markTrusted w.memory fp).2)).now := by
  obtain ⟨⟨v, name⟩, marked, last⟩ := Option.bind_eq_some_iff.mp h
  obtain ⟨⟨u, _⟩, added, last⟩ := Option.bind_eq_some_iff.mp last
  cases marked
  cases added
  obtain ⟨memory, config⟩ := persistRuntimeState_alone last
  exact ⟨config, memory⟩

theorem changing_alone {fp : String} {f : TrustedPeer → TrustedPeer} {found : Bool} {v : World}
    (changed : changePeer w fp f = (v, found))
    (h : alone exec 0 answers (if found = true then persistRuntimeState
      else pure (.error (notFound fp))) v = some (w', outcome)) :
    w'.config = w.config ∧ ((w.memory.trustedPeers.lookup fp = none ∧ w'.memory = w.memory) ∨
      ∃ peer, w.memory.trustedPeers.lookup fp = some peer ∧
        w'.memory = setPeer w.memory fp (f peer)) := by
  unfold changePeer at changed
  split at changed
  · rename_i peer here
    cases changed
    obtain ⟨memory, config⟩ := persistRuntimeState_alone h
    exact ⟨config, .inr ⟨peer, here, memory⟩⟩
  · rename_i missing
    cases changed
    cases h
    exact ⟨rfl, .inl ⟨missing, rfl⟩⟩

theorem unpairDevice_alone {fp : String}
    (h : alone exec 0 answers (unpairDevice fp) w = some (w', outcome)) :
    w'.config = w.config ∧ ((w.memory.trustedPeers.lookup fp = none ∧ w'.memory = w.memory) ∨
      (w.memory.trustedPeers.lookup fp).isSome = true ∧
        w'.memory.trustedPeers = w.memory.trustedPeers.erase fp) := by
  obtain ⟨⟨v, found⟩, removed, last⟩ := Option.bind_eq_some_iff.mp h
  simp only [exec] at removed
  split_ifs at removed with known
  · cases removed
    obtain ⟨⟨u, _⟩, unmarked, last⟩ := Option.bind_eq_some_iff.mp last
    cases unmarked
    obtain ⟨memory, config⟩ := persistRuntimeState_alone last
    exact ⟨config, .inr ⟨known, by rw [memory]; rfl⟩⟩
  · cases removed
    cases last
    exact ⟨rfl, .inl ⟨by simpa using known, rfl⟩⟩

/-- The settings are stored, or put back when the service cannot be registered again. -/
theorem applyConfig_alone {oldName : String} {config : AppConfig}
    (h : alone exec 0 answers (applyConfig oldName config) w = some (w', outcome)) :
    w'.memory = w.memory ∧ w'.config =
      if oldName ≠ config.deviceName ∧ (answers .reregister).outcome ≠ .ok () then
        w.config else config := by
  obtain ⟨⟨v, previous⟩, read, last⟩ := Option.bind_eq_some_iff.mp h
  obtain ⟨⟨u, _⟩, stored, last⟩ := Option.bind_eq_some_iff.mp last
  obtain ⟨⟨z, current⟩, again, last⟩ := Option.bind_eq_some_iff.mp last
  cases read
  cases stored
  cases again
  simp only [ret_bind] at last
  split_ifs at last with renamed
  · obtain ⟨⟨y, answer⟩, refreshed, last⟩ := Option.bind_eq_some_iff.mp last
    obtain ⟨rfl, rfl⟩ := Prod.mk.inj (Option.some.inj refreshed)
    cases registered : (answers .reregister).outcome with
    | error cause =>
      simp only [registered] at last
      obtain ⟨⟨z, _⟩, restored, last⟩ := Option.bind_eq_some_iff.mp last
      cases restored
      cases last
      exact ⟨rfl, by simp [renamed]⟩
    | ok done =>
      simp only [registered] at last
      obtain ⟨memory, kept⟩ := persistRuntimeState_alone last
      exact ⟨memory, kept.trans (by simp)⟩
  · obtain ⟨memory, kept⟩ := persistRuntimeState_alone last
    refine ⟨memory, kept.trans ?_⟩
    rw [if_neg fun both => renamed both.1]

theorem setAppConfig_alone {given : AppConfig}
    (h : alone exec 0 answers (setAppConfig given) w = some (w', outcome)) :
    w'.memory = w.memory ∧ (Refused answers w (.setConfig given) → w'.config = w.config) ∧
      (¬ Refused answers w (.setConfig given) → w'.config = cleaned given) := by
  -- where all checks pass, a refusal can only come from the registration
  have applied {v : World} (same : v = w)
      (named : (trimmed given.deviceName).isEmpty ≠ true)
      (streams : ¬ (given.maxParallelStreams = 0 ∨ given.maxParallelStreams > 32))
      (usable : ∀ dir, given.downloadDir = some dir → (answers (.probe dir)).outcome = .ok ())
      (ran : alone exec 0 answers (applyConfig w.config.deviceName (cleaned given)) v =
        some (w', outcome)) :
      w'.memory = w.memory ∧ (Refused answers w (.setConfig given) → w'.config = w.config) ∧
        (¬ Refused answers w (.setConfig given) → w'.config = cleaned given) := by
    subst same
    obtain ⟨memory, config⟩ := applyConfig_alone ran
    have only : Refused answers v (.setConfig given) ↔
        v.config.deviceName ≠ (cleaned given).deviceName ∧
          (answers .reregister).outcome ≠ .ok () := by
      constructor
      · rintro (empty | none | many | ⟨dir, chosen, fails⟩ | last)
        · exact absurd empty named
        · exact absurd (.inl none) streams
        · exact absurd (.inr many) streams
        · exact absurd (usable dir chosen) fails
        · exact last
      · intro last
        exact .inr (.inr (.inr (.inr last)))
    refine ⟨memory, fun refused => ?_, fun passed => ?_⟩
    · rw [config, if_pos (only.mp refused)]
    · rw [config, if_neg fun both => passed (only.mpr both)]
  have stopped (refused : Refused answers w (.setConfig given)) (same : w' = w) :
      w'.memory = w.memory ∧ (Refused answers w (.setConfig given) → w'.config = w.config) ∧
        (¬ Refused answers w (.setConfig given) → w'.config = cleaned given) := by
    subst same
    exact ⟨rfl, fun _ => rfl, fun passed => absurd refused passed⟩
  unfold setAppConfig at h
  simp only at h
  split_ifs at h with empty range
  · cases h
    exact stopped (.inl empty) rfl
  · cases h
    exact stopped (range.elim (fun none => .inr (.inl none)) fun many => .inr (.inr (.inl many))) rfl
  · obtain ⟨⟨v, old⟩, read, last⟩ := Option.bind_eq_some_iff.mp h
    cases read
    simp only [ret_bind] at last
    split at last
    · rename_i nowhere
      exact applied rfl empty range (fun dir chosen => by simp_all) last
    · rename_i dir chosen
      obtain ⟨⟨v, answer⟩, probed, last⟩ := Option.bind_eq_some_iff.mp last
      obtain ⟨rfl, rfl⟩ := Prod.mk.inj (Option.some.inj probed)
      cases tested : (answers (.probe dir)).outcome with
      | error cause =>
        simp only [tested] at last
        cases last
        exact stopped (.inr (.inr (.inr (.inl ⟨dir, chosen, by simp [tested]⟩)))) rfl
      | ok done =>
        simp only [tested] at last
        apply applied rfl empty range _ last
        intro other same
        obtain rfl : dir = other := Option.some.inj (chosen.symm.trans same)
        exact tested

private theorem unchanged_iff {m : TrustState} (config : w'.config = w.config)
    (memory : w'.memory = m) : Unchanged w w' ↔ SameTrust w.memory m := by
  subst memory
  exact ⟨fun h => h.trust, fun same => ⟨config, same⟩⟩

private theorem unchanged_of_changing {fp : String} {f : TrustedPeer → TrustedPeer}
    (done : w'.config = w.config ∧ ((w.memory.trustedPeers.lookup fp = none ∧
      w'.memory = w.memory) ∨ ∃ peer, w.memory.trustedPeers.lookup fp = some peer ∧
        w'.memory = setPeer w.memory fp (f peer))) :
    Unchanged w w' ↔ w.memory.trustedPeers.lookup fp = none ∨
      ∃ peer, w.memory.trustedPeers.lookup fp = some peer ∧ f peer = peer := by
  obtain ⟨config, ⟨missing, memory⟩ | ⟨peer, found, memory⟩⟩ := done
  · rw [unchanged_iff config memory]
    exact ⟨fun _ => .inl missing, fun _ => .refl _⟩
  · rw [unchanged_iff config memory, sameTrust_setPeer_iff]
    constructor
    · intro same
      have stays : peer = f peer := Option.some.inj (found.symm.trans same)
      exact .inr ⟨peer, found, stays.symm⟩
    · rintro (missing | ⟨other, here, stays⟩)
      · rw [found] at missing
        cases missing
      · obtain rfl : peer = other := Option.some.inj (found.symm.trans here)
        rw [stays]
        exact found

private theorem unchanged_pair_iff {fp : String}
    (h : alone exec 0 answers (Storage.pairDevice fp) w = some (w', outcome)) :
    Unchanged w w' ↔ Idle answers w (.pair fp) := by
  obtain ⟨config, memory⟩ := pairDevice_alone h
  rw [unchanged_iff config memory, sameTrust_pair_iff]
  constructor
  · rintro ⟨flagged, peer, found, name, paired, dated⟩
    rw [← name] at paired
    exact ⟨flagged, peer, found, name, paired, dated⟩
  · rintro ⟨flagged, peer, found, name, paired, dated⟩
    rw [name] at paired
    exact ⟨flagged, peer, found, name, paired, dated⟩

private theorem unchanged_unpair_iff {fp : String}
    (h : alone exec 0 answers (unpairDevice fp) w = some (w', outcome)) :
    Unchanged w w' ↔ w.memory.trustedPeers.lookup fp = none := by
  obtain ⟨config, ⟨missing, memory⟩ | ⟨known, erased⟩⟩ := unpairDevice_alone h
  · rw [unchanged_iff config memory]
    exact ⟨fun _ => missing, fun _ => .refl _⟩
  · constructor
    · intro same
      rw [← same.trust.peers fp, erased]
      exact AList.lookup_erase _ _
    · intro missing
      rw [missing] at known
      cases known

private theorem unchanged_setAlias_iff {fp : String} {peerAlias : Option String}
    (h : alone exec 0 answers (Storage.setTrustedAlias fp peerAlias) w = some (w', outcome)) :
    Unchanged w w' ↔ w.memory.trustedPeers.lookup fp = none ∨
      Idle answers w (.setAlias fp peerAlias) := by
  obtain ⟨⟨v, found⟩, changed, last⟩ := Option.bind_eq_some_iff.mp h
  rw [unchanged_of_changing (changing_alone (Option.some.inj changed) last)]
  apply or_congr_right
  constructor
  · rintro ⟨peer, here, stays⟩
    have named := congrArg TrustedPeer.peerAlias stays
    simp only [Idle, here, Option.map_some]
    exact congrArg some named.symm
  · intro idle
    obtain ⟨peer, here, named⟩ := Option.map_eq_some_iff.mp idle
    exact ⟨peer, here, by rw [← named]⟩

private theorem unchanged_confirm_iff {fp : String} {method : TrustVerificationMethod}
    {mutualConfirmation : Bool}
    (h : alone exec 0 answers
      (Storage.confirmTrustedPeerVerification fp method mutualConfirmation) w =
        some (w', outcome)) :
    Unchanged w w' ↔ Refused answers w (.confirm fp method mutualConfirmation) ∨
      Idle answers w (.confirm fp method mutualConfirmation) := by
  unfold Storage.confirmTrustedPeerVerification at h
  split_ifs at h with weak
  · cases h
    exact ⟨fun _ => .inl (.inl weak), fun _ => ⟨rfl, .refl _⟩⟩
  · obtain ⟨⟨v, found⟩, changed, last⟩ := Option.bind_eq_some_iff.mp h
    rw [unchanged_of_changing (changing_alone (Option.some.inj changed) last)]
    simp only [Refused, Idle, confirmedPeer_eq_iff, or_iff_right weak]

private theorem unchanged_setConfig_iff {given : AppConfig}
    (h : alone exec 0 answers (setAppConfig given) w = some (w', outcome)) :
    Unchanged w w' ↔ Refused answers w (.setConfig given) ∨ Idle answers w (.setConfig given) := by
  obtain ⟨memory, refused, stored⟩ := setAppConfig_alone h
  have same : SameTrust w.memory w'.memory := by
    rw [memory]
    exact .refl _
  by_cases stop : Refused answers w (.setConfig given)
  · exact ⟨fun _ => .inl stop, fun _ => ⟨refused stop, same⟩⟩
  · rw [or_iff_right stop]
    constructor
    · intro unchanged
      exact (stored stop).symm.trans unchanged.config
    · intro idle
      exact ⟨(stored stop).trans idle, same⟩

/-- A call that fails leaves everything as it was if and only if it was refused before it came to
the database, or had nothing to change. -/
theorem failed_call_unchanged_iff (answers : TrustOp → Ans) (w : World) (request : Request)
    (call : isCall request = true)
    (h : alone exec 0 answers request.prog w = some (w', .error cause)) :
    Unchanged w w' ↔ Refused answers w request ∨ Idle answers w request := by
  cases request with
  | pair fp =>
    rw [unchanged_pair_iff h]
    exact ⟨.inr, fun either => either.elim False.elim id⟩
  | unpair fp =>
    rw [unchanged_unpair_iff h]
    exact ⟨.inl, fun either => either.elim id False.elim⟩
  | setAlias fp peerAlias => exact unchanged_setAlias_iff h
  | confirm fp method mutualConfirmation => exact unchanged_confirm_iff h
  | freeze => cases call
  | setConfig given => exact unchanged_setConfig_iff h

end Calls

def unregistered : TrustOp → Ans
  | .reregister => ⟨7, .fine, .error "daemon gone"⟩
  | _ => ⟨7, .fine, .ok ()⟩

def renamed : AppConfig := { AppConfig.standard with deviceName := "Laptop" }

theorem rename_rolled_back :
    ∃ w' cause, alone exec 0 unregistered (Request.prog (.setConfig renamed)) emptyWorld =
      some (w', .error cause) ∧ Unchanged emptyWorld w' := by
  have failed : alone exec 0 unregistered (Request.prog (.setConfig renamed)) emptyWorld =
      some (emptyWorld, .error
        "device name update rolled back because mDNS refresh failed: daemon gone") := by rfl
  have refused : Refused unregistered emptyWorld (.setConfig renamed) :=
    .inr (.inr (.inr (.inr ⟨by decide, by decide⟩)))
  exact ⟨_, _, failed,
    (failed_call_unchanged_iff unregistered emptyWorld _ rfl failed).mpr (.inl refused)⟩

def unwritable : TrustOp → Ans := fun _ => ⟨7, .poisoned, .ok ()⟩

/-- The pairing fails and the peer is trusted. -/
theorem failed_pairing_trusts :
    ∃ w', alone exec 0 unwritable (Request.prog (.pair "a")) emptyWorld =
        some (w', .error "DB lock poisoned") ∧
      emptyWorld.memory.trustedPeers.lookup "a" = none ∧
      (w'.memory.trustedPeers.lookup "a").isSome = true ∧ ¬ Unchanged emptyWorld w' := by
  refine ⟨_, rfl, rfl, rfl, fun unchanged => ?_⟩
  have same := unchanged.trust.peers "a"
  cases same

end DashDrop.Trust.Atomicity
