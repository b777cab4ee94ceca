/- GID: DashDrop/Trust/Peers
   source: src-tauri/src/state.rs, src-tauri/src/core_service.rs
   anchors: []
   digest: Trusted peers: pairing, aliases and confirmations of a verification. -/

import DashDrop.Foundation.Text
import DashDrop.Runtime.State
import Mathlib.Data.List.AList

set_option autoImplicit false
set_option relaxedAutoImplicit false

namespace DashDrop.Trust.Peers

open DashDrop.Foundation.Text
open DashDrop.Runtime.State (TrustLevel)

inductive TrustVerificationMethod where
  | manualPairing
  | legacyUnsignedLink
  | signedPairingLink
  | mutualReceipt
  deriving DecidableEq

structure TrustedPeer where
  fingerprint : String
  name : String
  pairedAt : ℕ
  trustLevel : TrustLevel
  lastVerificationMethod : TrustVerificationMethod
  peerAlias : Option String
  lastUsedAt : Option ℕ
  remoteConfirmationMaterialSeenAt : Option ℕ
  localConfirmationAt : Option ℕ
  mutualConfirmedAt : Option ℕ
  frozenAt : Option ℕ
  freezeReason : Option String
  deriving DecidableEq

def rank : TrustLevel → ℕ
  | .legacyPaired => 0
  | .signedLinkVerified => 1
  | .mutualConfirmed => 2
  | .frozen => 3

def maxLevel (a b : TrustLevel) : TrustLevel := if rank a ≥ rank b then a else b

/-- A frozen level gives way to any other; else the higher level stays. -/
def applyVerification (current requested : TrustLevel) : TrustLevel :=
  if current = .frozen ∧ requested ≠ .frozen then requested else maxLevel current requested

structure KnownDevice where
  name : String
  trusted : Bool
  deriving DecidableEq

structure TrustState where
  devices : AList (fun _ : String => KnownDevice)
  trustedPeers : AList (fun _ : String => TrustedPeer)

def isActiveTrust (s : TrustState) (fp : String) : Bool :=
  ((s.trustedPeers.lookup fp).map fun peer => peer.trustLevel.allowsSensitiveSend).getD false

def setPeer (s : TrustState) (fp : String) (peer : TrustedPeer) : TrustState :=
  { s with trustedPeers := s.trustedPeers.insert fp peer }

/-- A peer that was paired by hand and is known by nothing else yet. -/
def newPeer (fp name : String) (nowUnix : ℕ) : TrustedPeer where
  fingerprint := fp
  name := name
  pairedAt := nowUnix
  trustLevel := .legacyPaired
  lastVerificationMethod := .manualPairing
  peerAlias := none
  lastUsedAt := none
  remoteConfirmationMaterialSeenAt := none
  localConfirmationAt := some nowUnix
  mutualConfirmedAt := none
  frozenAt := none
  freezeReason := none

def addTrust (s : TrustState) (fp name : String) (nowUnix : ℕ) : TrustState :=
  match s.trustedPeers.lookup fp with
  | some existing => setPeer s fp { existing with
      name := name
      pairedAt := if existing.pairedAt = 0 then nowUnix else existing.pairedAt
      localConfirmationAt := existing.localConfirmationAt.or (some nowUnix) }
  | none => setPeer s fp (newPeer fp name nowUnix)

def markTrusted (s : TrustState) (fp : String) : TrustState × String :=
  match s.devices.lookup fp with
  | some device =>
      ({ s with devices := s.devices.insert fp { device with trusted := true } }, device.name)
  | none => (s, "Unknown")

/-- `pair_device`; `saved` is what comes of `persist_runtime_state` at the end. -/
def pairDevice (s : TrustState) (fp : String) (nowUnix : ℕ) (saved : Except String Unit) :
    TrustState × Except String Unit :=
  let marked := markTrusted s fp
  (addTrust marked.1 fp marked.2 nowUnix, saved)

def notFound (fp : String) : String := "trusted device " ++ fp ++ " not found"

def normalizedAlias (peerAlias : Option String) : Option String :=
  peerAlias.bind fun value => if (trimmed value).isEmpty then none else some (trimmed value)

def setTrustedAlias (s : TrustState) (fp : String) (peerAlias : Option String)
    (saved : Except String Unit) : TrustState × Except String Unit :=
  match s.trustedPeers.lookup fp with
  | none => (s, .error (notFound fp))
  | some peer => (setPeer s fp { peer with peerAlias := normalizedAlias peerAlias }, saved)

def requestedLevel (method : TrustVerificationMethod) (mutualConfirmation : Bool) : TrustLevel :=
  if mutualConfirmation then .mutualConfirmed
  else if method = .signedPairingLink then .signedLinkVerified
  else .legacyPaired

def confirmedPeer (peer : TrustedPeer) (method : TrustVerificationMethod)
    (mutualConfirmation : Bool) (nowUnix : ℕ) : TrustedPeer :=
  let level := applyVerification peer.trustLevel (requestedLevel method mutualConfirmation)
  { peer with
    trustLevel := level
    lastVerificationMethod := if mutualConfirmation then .mutualReceipt else method
    localConfirmationAt := some nowUnix
    remoteConfirmationMaterialSeenAt :=
      if method = .signedPairingLink ∨ method = .mutualReceipt then some nowUnix
      else peer.remoteConfirmationMaterialSeenAt
    mutualConfirmedAt :=
      if mutualConfirmation ∧ peer.mutualConfirmedAt = none then some nowUnix
      else peer.mutualConfirmedAt
    frozenAt := if level ≠ .frozen then none else peer.frozenAt
    freezeReason := if level ≠ .frozen then none else peer.freezeReason }

def confirmTrustedPeerVerification (s : TrustState) (fp : String)
    (method : TrustVerificationMethod) (mutualConfirmation : Bool) (nowUnix : ℕ)
    (saved : Except String Unit) : TrustState × Except String Unit :=
  if mutualConfirmation ∧ (method = .manualPairing ∨ method = .legacyUnsignedLink) then
    (s, .error "Mutual confirmation requires a signed pairing link and matching shared pair code.")
  else
    match s.trustedPeers.lookup fp with
    | none => (s, .error (notFound fp))
    | some peer => (setPeer s fp (confirmedPeer peer method mutualConfirmation nowUnix), saved)

/-- Only the entry of `fp` may differ. -/
def OnlyAt (fp : String) (s s' : TrustState) : Prop :=
  ∀ other, other ≠ fp → s'.trustedPeers.lookup other = s.trustedPeers.lookup other

variable {s s' s'' : TrustState} {fp : String}

theorem OnlyAt.refl (fp : String) (s : TrustState) : OnlyAt fp s s := fun _ _ => rfl

theorem OnlyAt.trans (h : OnlyAt fp s s') (h' : OnlyAt fp s' s'') : OnlyAt fp s s'' :=
  fun other ne => (h' other ne).trans (h other ne)

theorem OnlyAt.isActiveTrust_eq (h : OnlyAt fp s s') {other : String} (ne : other ≠ fp) :
    isActiveTrust s' other = isActiveTrust s other := by
  rw [isActiveTrust, isActiveTrust, h other ne]

theorem setPeer_onlyAt (s : TrustState) (fp : String) (peer : TrustedPeer) :
    OnlyAt fp s (setPeer s fp peer) :=
  fun _ ne => AList.lookup_insert_ne ne

theorem addTrust_onlyAt (s : TrustState) (fp name : String) (nowUnix : ℕ) :
    OnlyAt fp s (addTrust s fp name nowUnix) := by
  unfold addTrust
  split
  · exact setPeer_onlyAt s fp _
  · exact setPeer_onlyAt s fp _

theorem markTrusted_trustedPeers (s : TrustState) (fp : String) :
    (markTrusted s fp).1.trustedPeers = s.trustedPeers := by
  unfold markTrusted
  split <;> rfl

theorem pairDevice_onlyAt (s : TrustState) (fp : String) (nowUnix : ℕ)
    (saved : Except String Unit) : OnlyAt fp s (pairDevice s fp nowUnix saved).1 := by
  intro other ne
  have marked := markTrusted_trustedPeers s fp
  exact (addTrust_onlyAt _ fp _ nowUnix other ne).trans (congrArg (AList.lookup other) marked)

theorem setTrustedAlias_onlyAt (s : TrustState) (fp : String) (peerAlias : Option String)
    (saved : Except String Unit) : OnlyAt fp s (setTrustedAlias s fp peerAlias saved).1 := by
  unfold setTrustedAlias
  split
  · exact .refl fp s
  · exact setPeer_onlyAt s fp _

theorem confirmTrustedPeerVerification_onlyAt (s : TrustState) (fp : String)
    (method : TrustVerificationMethod) (mutualConfirmation : Bool) (nowUnix : ℕ)
    (saved : Except String Unit) :
    OnlyAt fp s
      (confirmTrustedPeerVerification s fp method mutualConfirmation nowUnix saved).1 := by
  unfold confirmTrustedPeerVerification
  split_ifs
  · exact .refl fp s
  · split
    · exact .refl fp s
    · exact setPeer_onlyAt s fp _

end DashDrop.Trust.Peers
