/- GID: DashDrop/Discovery/BleAssist
   source: src-tauri/src/ble.rs, src-tauri/src/state.rs, src-tauri/src/core_service.rs
   anchors: []
   digest: The capsules that were observed are in force, however often they are pruned. -/

import DashDrop.Foundation.Cbor
import DashDrop.Foundation.Renewals
import DashDrop.Pairing.Link

set_option autoImplicit false
set_option relaxedAutoImplicit false

namespace DashDrop.Discovery.BleAssist

open DashDrop.Foundation.Base64 DashDrop.Foundation.Text DashDrop.Foundation.Cbor
open DashDrop.Foundation.Leases DashDrop.Foundation.Renewals
open DashDrop.Foundation.FileTree (Bytes)
open DashDrop.Runtime.State (saturatingAdd)
open DashDrop.Pairing.Link

def bleAssistCapsuleTtlMs : ℕ := 2 * 60 * 1000
def bleAssistRotationWindowMs : ℕ := 30 * 1000

structure BleAssistCapsule where
  version : ℕ
  issuedAtUnixMs : ℕ
  expiresAtUnixMs : ℕ
  rollingIdentifier : String
  integrityTag : String
  transportHint : String
  qrFallbackAvailable : Bool
  shortCodeFallbackAvailable : Bool
  rotationWindowMs : ℕ
  deriving DecidableEq

structure BleAssistCapsuleBody where
  version : ℕ
  issuedAtUnixMs : ℕ
  expiresAtUnixMs : ℕ
  rollingIdentifier : String
  transportHint : String
  qrFallbackAvailable : Bool
  shortCodeFallbackAvailable : Bool
  rotationWindowMs : ℕ

section Build

variable {SigningKey : Type} (ed : Ed25519 SigningKey) (sha256 : Bytes → Vector UInt8 32)
  (toVec : BleAssistCapsuleBody → Bytes)

def shortTag (bytes : Bytes) : String := String.ofList (urlSafeNoPad.encode (bytes.take 12))

def rollingIdentifier (identity : Identity) (rotationSlot : ℕ) : String :=
  let fingerprint := normalizeFingerprint (identity.fingerprint sha256)
  shortTag (sha256 (utf8 fingerprint ++ bigEndian 8 rotationSlot ++ identity.certDer)).toList

def capsuleBody (identity : Identity) (issuedAtUnixMs : ℕ) : BleAssistCapsuleBody where
  version := 1
  issuedAtUnixMs := issuedAtUnixMs
  expiresAtUnixMs := saturatingAdd issuedAtUnixMs bleAssistCapsuleTtlMs
  rollingIdentifier :=
    rollingIdentifier sha256 identity (issuedAtUnixMs / bleAssistRotationWindowMs)
  transportHint := "qr_or_short_code_fallback"
  qrFallbackAvailable := true
  shortCodeFallbackAvailable := true
  rotationWindowMs := bleAssistRotationWindowMs

def buildBleAssistCapsule (identity : Identity) (now : ℕ) : Except String BleAssistCapsule :=
  let fingerprint := normalizeFingerprint (identity.fingerprint sha256)
  if fingerprint.isEmpty then .error "Local BLE assist fingerprint is missing."
  else do
    let body := capsuleBody sha256 identity now
    let signingKey ← orFail "decode local identity key for BLE assist capsule"
      (ed.fromPkcs8Der identity.keyDer)
    let signature := ed.sign signingKey (toVec body)
    pure {
      version := body.version
      issuedAtUnixMs := body.issuedAtUnixMs
      expiresAtUnixMs := body.expiresAtUnixMs
      rollingIdentifier := body.rollingIdentifier
      integrityTag := shortTag signature.toList
      transportHint := body.transportHint
      qrFallbackAvailable := body.qrFallbackAvailable
      shortCodeFallbackAvailable := body.shortCodeFallbackAvailable
      rotationWindowMs := body.rotationWindowMs }

end Build

def validateBleAssistCapsule (capsule : BleAssistCapsule) (now : ℕ) : Except String Unit :=
  if capsule.version ≠ 1 then .error "Unsupported BLE assist capsule version."
  else if (trimmed capsule.rollingIdentifier).isEmpty then
    .error "BLE assist capsule rolling identifier is missing."
  else if (trimmed capsule.integrityTag).isEmpty then
    .error "BLE assist capsule integrity tag is missing."
  else if capsule.expiresAtUnixMs ≤ now then .error "BLE assist capsule expired."
  else if capsule.expiresAtUnixMs ≤ capsule.issuedAtUnixMs then
    .error "BLE assist capsule expiry is invalid."
  else .ok ()

structure BleAssistObservation where
  rollingIdentifier : String
  integrityTag : String
  firstSeenAtUnixMs : ℕ
  lastSeenAtUnixMs : ℕ
  expiresAtUnixMs : ℕ
  transportHint : String
  qrFallbackAvailable : Bool
  shortCodeFallbackAvailable : Bool
  deriving DecidableEq

/-- What the recordings and the snapshots write of `ble_runtime_status`. -/
structure BleRuntimeStatus where
  scannerState : String
  lastCapsuleIngestedAtUnixMs : Option ℕ
  lastObservationPruneAtUnixMs : Option ℕ

structure Observed where
  observations : AList fun _ : String => BleAssistObservation
  runtime : BleRuntimeStatus

def recordBleAssistObservation (capsule : BleAssistCapsule) (nowUnixMs : ℕ) (b : Observed) :
    Observed :=
  let observations := retain (fun observation => observation.expiresAtUnixMs > nowUnixMs)
    b.observations
  let entry : BleAssistObservation := (observations.lookup capsule.rollingIdentifier).getD {
    rollingIdentifier := capsule.rollingIdentifier
    integrityTag := capsule.integrityTag
    firstSeenAtUnixMs := nowUnixMs
    lastSeenAtUnixMs := nowUnixMs
    expiresAtUnixMs := capsule.expiresAtUnixMs
    transportHint := capsule.transportHint
    qrFallbackAvailable := capsule.qrFallbackAvailable
    shortCodeFallbackAvailable := capsule.shortCodeFallbackAvailable }
  let entry := { entry with
    integrityTag := capsule.integrityTag
    lastSeenAtUnixMs := nowUnixMs
    expiresAtUnixMs := capsule.expiresAtUnixMs
    transportHint := capsule.transportHint
    qrFallbackAvailable := capsule.qrFallbackAvailable
    shortCodeFallbackAvailable := capsule.shortCodeFallbackAvailable }
  { observations := observations.insert capsule.rollingIdentifier entry
    runtime := { b.runtime with
      lastCapsuleIngestedAtUnixMs := some nowUnixMs
      scannerState := "observing_capsules" } }

/-- `ble_assist_observations_snapshot` up to where it lets go of the map. -/
def pruneObservations (nowUnixMs : ℕ) (b : Observed) : Observed where
  observations := retain (fun observation => observation.expiresAtUnixMs > nowUnixMs) b.observations
  runtime := { b.runtime with lastObservationPruneAtUnixMs := some nowUnixMs }

/-- The end of `ble_assist_observations_snapshot`. -/
def Observed.values (b : Observed) : List BleAssistObservation :=
  b.observations.entries.map Sigma.snd

/-- A capsule that comes in over the bridge or the local IPC, or a snapshot. -/
inductive Event where
  | ingest (capsule : BleAssistCapsule) (validatedAt recordedAt : ℕ)
  | snapshot (now : ℕ)

def Observed.step (b : Observed) : Event → Observed
  | .ingest capsule validatedAt recordedAt =>
      match validateBleAssistCapsule capsule validatedAt with
      | .ok () => recordBleAssistObservation capsule recordedAt b
      | .error _ => b
  | .snapshot now => pruneObservations now b

def Observed.run (start : BleRuntimeStatus) (events : List Event) : Observed :=
  events.foldl Observed.step ⟨∅, start⟩

/-- A capsule and when it was recorded. -/
structure Sighting where
  capsule : BleAssistCapsule
  now : ℕ
  deriving DecidableEq

/-- The observation after sightings of which these are the first and the last. -/
def observationOf (first last : Sighting) : BleAssistObservation where
  rollingIdentifier := first.capsule.rollingIdentifier
  integrityTag := last.capsule.integrityTag
  firstSeenAtUnixMs := first.now
  lastSeenAtUnixMs := last.now
  expiresAtUnixMs := last.capsule.expiresAtUnixMs
  transportHint := last.capsule.transportHint
  qrFallbackAvailable := last.capsule.qrFallbackAvailable
  shortCodeFallbackAvailable := last.capsule.shortCodeFallbackAvailable

def register : Register String Sighting BleAssistObservation where
  key s := s.capsule.rollingIdentifier
  seen s := s.now
  ends s := s.capsule.expiresAtUnixMs
  fresh s := observationOf s s
  renew s entry := { entry with
    integrityTag := s.capsule.integrityTag
    lastSeenAtUnixMs := s.now
    expiresAtUnixMs := s.capsule.expiresAtUnixMs
    transportHint := s.capsule.transportHint
    qrFallbackAvailable := s.capsule.qrFallbackAvailable
    shortCodeFallbackAvailable := s.capsule.shortCodeFallbackAvailable }
  expires entry := entry.expiresAtUnixMs
  expires_renew _ _ := rfl

def Event.act : Event → Option (Act Sighting)
  | .ingest capsule validatedAt recordedAt =>
      match validateBleAssistCapsule capsule validatedAt with
      | .ok () => some (.sight ⟨capsule, recordedAt⟩)
      | .error _ => none
  | .snapshot now => some (.prune now)

def acts (events : List Event) : List (Act Sighting) := events.filterMap Event.act

def sightings (events : List Event) : List Sighting := (acts events).filterMap Act.sighting

section Runs

variable {start : BleRuntimeStatus} {events : List Event}

theorem run_observations :
    (Observed.run start events).observations = register.run (acts events) := by
  induction events using List.reverseRecOn with
  | nil => rfl
  | append_singleton events event ih =>
    rw [Observed.run, List.foldl_append, List.foldl_cons, List.foldl_nil, acts,
      List.filterMap_append]
    rw [Observed.run] at ih
    rw [acts] at ih
    cases event with
    | snapshot now =>
      have last : [Event.snapshot now].filterMap Event.act = [Act.prune now] := rfl
      rw [last, Register.run_snoc, ← ih]
      rfl
    | ingest capsule validatedAt recordedAt =>
      cases valid : validateBleAssistCapsule capsule validatedAt with
      | ok =>
        have last : [Event.ingest capsule validatedAt recordedAt].filterMap Event.act =
            [Act.sight ⟨capsule, recordedAt⟩] := by
          rw [List.filterMap_cons, Event.act, valid]
          rfl
        rw [last, Register.run_snoc, ← ih, Observed.step, valid]
        rfl
      | error fault =>
        have last : [Event.ingest capsule validatedAt recordedAt].filterMap Event.act = [] := by
          rw [List.filterMap_cons, Event.act, valid]
          rfl
        rw [last, List.append_nil, ← ih, Observed.step, valid]

theorem left_register {first last : Sighting} {rest : List Sighting}
    (final : (first :: rest).getLast? = some last) :
    Register.left register first rest = observationOf first last := by
  induction rest using List.reverseRecOn generalizing last with
  | nil =>
    obtain rfl := Option.some.inj final
    rfl
  | append_singleton rest s ih =>
    rw [← List.cons_append, List.getLast?_concat] at final
    obtain rfl := Option.some.inj final
    obtain ⟨last, before⟩ : ∃ last, (first :: rest).getLast? = some last := ⟨_, List.getLast?_cons⟩
    rw [Register.left_snoc, ih before]
    rfl

theorem mem_values {b : Observed} {o : BleAssistObservation} :
    o ∈ b.values ↔ ∃ k, b.observations.lookup k = some o := by
  constructor
  · intro mem
    obtain ⟨⟨k, o⟩, entry, rfl⟩ := List.mem_map.mp mem
    exact ⟨k, AList.mem_lookup_iff.mpr entry⟩
  · rintro ⟨k, found⟩
    exact List.mem_map.mpr ⟨⟨k, o⟩, AList.mem_lookup_iff.mp found, rfl⟩

end Runs

section Devices

variable {SigningKey : Type} {ed : Ed25519 SigningKey} {sha256 : Bytes → Vector UInt8 32}
  {toVec : BleAssistCapsuleBody → Bytes} {identity : Identity} {capsule : BleAssistCapsule}

theorem build_eq_ok {now : ℕ} (built : buildBleAssistCapsule ed sha256 toVec identity now =
      .ok capsule) :
    capsule.rollingIdentifier =
        rollingIdentifier sha256 identity (now / bleAssistRotationWindowMs) ∧
      capsule.expiresAtUnixMs = saturatingAdd now bleAssistCapsuleTtlMs := by
  unfold buildBleAssistCapsule at built
  simp only at built
  split_ifs at built
  cases key : ed.fromPkcs8Der identity.keyDer with
  | none =>
    rw [key] at built
    cases built
  | some key' =>
    rw [key] at built
    cases built
    exact ⟨rfl, rfl⟩

/-- The capsule was built by the device before it was seen. -/
def BuiltBy (ed : Ed25519 SigningKey) (sha256 : Bytes → Vector UInt8 32)
    (toVec : BleAssistCapsuleBody → Bytes) (identity : Identity) (s : Sighting) : Prop :=
  ∃ now ≤ s.now, buildBleAssistCapsule ed sha256 toVec identity now = .ok s.capsule

/-- The identifiers of the capsules that a device built within the last two minutes. -/
def recentIdentifiers (sha256 : Bytes → Vector UInt8 32) (now : ℕ) (identity : Identity) :
    List String :=
  (List.range 5).map fun age =>
    rollingIdentifier sha256 identity (now / bleAssistRotationWindowMs - age)

theorem mem_recentIdentifiers {s : Sighting} {now : ℕ} (own : BuiltBy ed sha256 toVec identity s)
    (before : s.now ≤ now) (fresh : now < s.capsule.expiresAtUnixMs) :
    s.capsule.rollingIdentifier ∈ recentIdentifiers sha256 now identity := by
  obtain ⟨issued, early, built⟩ := own
  obtain ⟨rolling, expires⟩ := build_eq_ok built
  rw [expires, saturatingAdd] at fresh
  simp only [bleAssistCapsuleTtlMs] at fresh
  rw [rolling, recentIdentifiers, List.mem_map]
  refine ⟨now / bleAssistRotationWindowMs - issued / bleAssistRotationWindowMs, ?_, ?_⟩
  · rw [List.mem_range]
    simp only [bleAssistRotationWindowMs]
    omega
  · have back : now / bleAssistRotationWindowMs - (now / bleAssistRotationWindowMs -
        issued / bleAssistRotationWindowMs) = issued / bleAssistRotationWindowMs := by
      simp only [bleAssistRotationWindowMs]
      omega
    rw [back]

end Devices

def capsuleUntil (expiresAtUnixMs : ℕ) : BleAssistCapsule :=
  ⟨1, 0, expiresAtUnixMs, "a", "tag", "qr_or_short_code_fallback", true, true, 30000⟩

def seenTwice : List Event :=
  [.ingest (capsuleUntil 120000) 10 10, .snapshot 50000, .ingest (capsuleUntil 180000) 60000 60000,
    .snapshot 130000]

def plainEd : Ed25519 Unit where
  fromPkcs8Der _ := some ()
  verifyingKey _ := Vector.replicate 32 0
  sign _ _ := Vector.replicate 64 0
  isKey _ := true
  verify _ _ _ := true

def sumDigest (bytes : Bytes) : Vector UInt8 32 := Vector.replicate 32 (bytes.foldl (· + ·) 0)

def desk : Identity := ⟨[1, 2, 3], [4]⟩

def builtAt (now : ℕ) : BleAssistCapsule :=
  { version := 1
    issuedAtUnixMs := now
    expiresAtUnixMs := now + 120000
    rollingIdentifier := rollingIdentifier sumDigest desk (now / 30000)
    integrityTag := shortTag (Vector.replicate 64 0).toList
    transportHint := "qr_or_short_code_fallback"
    qrFallbackAvailable := true
    shortCodeFallbackAvailable := true
    rotationWindowMs := 30000 }

theorem builtAt_built (toVec : BleAssistCapsuleBody → Bytes) (now : ℕ) (early : now < 2 ^ 63) :
    buildBleAssistCapsule plainEd sumDigest toVec desk now = .ok (builtAt now) := by
  have named : (normalizeFingerprint (desk.fingerprint sumDigest)).isEmpty = false := by
    decide +kernel
  have expires : saturatingAdd now bleAssistCapsuleTtlMs = now + 120000 := by
    simp only [saturatingAdd, bleAssistCapsuleTtlMs]
    omega
  simp only [buildBleAssistCapsule, named, capsuleBody, expires, builtAt]
  rfl

def deskSeen : List Event :=
  [.ingest (builtAt 0) 10 10, .ingest (builtAt 30000) 30010 30010, .snapshot 60000]

end DashDrop.Discovery.BleAssist
