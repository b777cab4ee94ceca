/- GID: DashDrop/Pairing/Import
   source: src/views/SettingsView.vue, src-tauri/src/core_service.rs, src-tauri/src/pairing.rs
   anchors: []
   digest: Importing a signed link trusts the normal form and never the fingerprint itself. -/

import DashDrop.Pairing.Link
import DashDrop.Trust.Peers

set_option autoImplicit false
set_option relaxedAutoImplicit false

namespace DashDrop.Pairing.Import

open DashDrop.Foundation.Base64 DashDrop.Foundation.Text
open DashDrop.Foundation.FileTree (Bytes)
open DashDrop.Pairing.Link DashDrop.Trust.Peers

def verificationMethod (payload : ValidatedPairingPayload) : TrustVerificationMethod :=
  if payload.trustModel = "signed_link" ∧ payload.signatureVerified then .signedPairingLink
  else .legacyUnsignedLink

/-- When the two timed steps of an import run, and what comes of saving after each step. -/
structure ImportRun where
  pairedAt : ℕ
  confirmedAt : ℕ
  pairSaved : Except String Unit
  aliasSaved : Except String Unit
  confirmSaved : Except String Unit

/-- `importPairingLink`: the first step that fails ends it. -/
def importPairingLink (s : TrustState) (payload : ValidatedPairingPayload)
    (mutualConfirmationRequested : Bool) (run : ImportRun) : TrustState × Except String Unit :=
  let fp := payload.fingerprint
  let paired := pairDevice s fp run.pairedAt run.pairSaved
  match paired.2 with
  | .error e => (paired.1, .error e)
  | .ok () =>
      let named := setTrustedAlias paired.1 fp (some payload.deviceName) run.aliasSaved
      match named.2 with
      | .error e => (named.1, .error e)
      | .ok () =>
          confirmTrustedPeerVerification named.1 fp (verificationMethod payload)
            mutualConfirmationRequested run.confirmedAt run.confirmSaved

theorem importPairingLink_onlyAt (s : TrustState) (payload : ValidatedPairingPayload)
    (mutualConfirmationRequested : Bool) (run : ImportRun) :
    OnlyAt payload.fingerprint s
      (importPairingLink s payload mutualConfirmationRequested run).1 := by
  have paired := pairDevice_onlyAt s payload.fingerprint run.pairedAt run.pairSaved
  have named := setTrustedAlias_onlyAt (pairDevice s payload.fingerprint run.pairedAt run.pairSaved).1
    payload.fingerprint (some payload.deviceName) run.aliasSaved
  simp only [importPairingLink]
  split
  · exact paired
  · split
    · exact paired.trans named
    · exact (paired.trans named).trans (confirmTrustedPeerVerification_onlyAt _ _ _ _ _ _)

section Crates

variable {SigningKey Value : Type} (ed : Ed25519 SigningKey) (json : SerdeJson Value)
variable (sha256 : Bytes → Vector UInt8 32)

def importInput (s : TrustState) (input : String) (now : ℕ) (mutualConfirmationRequested : Bool)
    (run : ImportRun) : TrustState :=
  match validatePairingInputValue ed json input now with
  | .error _ => s
  | .ok payload => (importPairingLink s payload mutualConfirmationRequested run).1

/-- A device builds its link at `builtAt` and another device imports it at `now`. -/
def importOwnLink (s : TrustState) (identity : Identity) (deviceName : String) (builtAt now : ℕ)
    (mutualConfirmationRequested : Bool) (run : ImportRun) : TrustState :=
  match buildSignedPairingLink ed json sha256 identity deviceName builtAt with
  | .error _ => s
  | .ok link => importInput ed json s link now mutualConfirmationRequested run

theorem importInput_isActiveTrust (s : TrustState) (input : String) (now : ℕ)
    (mutualConfirmationRequested : Bool) (run : ImportRun) (certDer : Bytes) :
    isActiveTrust (importInput ed json s input now mutualConfirmationRequested run)
      (computeFingerprint sha256 certDer) = isActiveTrust s (computeFingerprint sha256 certDer) := by
  unfold importInput
  split
  · rfl
  · rename_i payload accepted
    obtain ⟨fingerprint, normal⟩ := fingerprint_normal_of_ok ed json accepted
    have other : computeFingerprint sha256 certDer ≠ payload.fingerprint := by
      rw [normal]
      exact computeFingerprint_ne_normalizeFingerprint sha256 certDer fingerprint
    exact (importPairingLink_onlyAt s payload mutualConfirmationRequested run).isActiveTrust_eq other

/-- After the import of its own link an identity is trusted under the fingerprint of its
certificate exactly if it was before. -/
theorem import_trusts_identity_iff (s : TrustState) (identity : Identity) (deviceName : String)
    (builtAt now : ℕ) (mutualConfirmationRequested : Bool) (run : ImportRun) :
    isActiveTrust (importOwnLink ed json sha256 s identity deviceName builtAt now
      mutualConfirmationRequested run) (identity.fingerprint sha256) = true ↔
    isActiveTrust s (identity.fingerprint sha256) = true := by
  unfold importOwnLink
  split
  · rfl
  · rw [Identity.fingerprint, importInput_isActiveTrust]

end Crates

section Sample

def aliceSeed : Vector UInt8 32 :=
  #v[1, 2, 3, 4, 5, 6, 7, 8, 9, 10, 11, 12, 13, 14, 15, 16, 17, 18, 19, 20, 21, 22, 23, 24, 25, 26,
    27, 28, 29, 30, 31, 32]

def mallorySeed : Vector UInt8 32 :=
  #v[33, 34, 35, 36, 37, 38, 39, 40, 41, 42, 43, 44, 45, 46, 47, 48, 49, 50, 51, 52, 53, 54, 55, 56,
    57, 58, 59, 60, 61, 62, 63, 64]

def aliceKey : PublicKey :=
  #v[121, 181, 86, 46, 143, 230, 84, 249, 64, 120, 177, 18, 232, 169, 139, 167, 144, 31, 133, 58,
    230, 149, 190, 215, 224, 227, 145, 11, 173, 4, 150, 100]

def malloryKey : PublicKey :=
  #v[231, 241, 98, 161, 11, 236, 85, 154, 254, 161, 149, 228, 220, 232, 75, 105, 86, 141, 93, 44,
    176, 150, 62, 180, 70, 192, 104, 94, 43, 23, 242, 240]

def pkcs8Lead : Bytes := [48, 46, 2, 1, 0, 48, 5, 6, 3, 43, 101, 112, 4, 34, 4, 32]

def alice : Identity := ⟨[48, 0], pkcs8Lead ++ aliceSeed.toList⟩

def mallory : Identity := ⟨[5, 0], pkcs8Lead ++ mallorySeed.toList⟩

def sampleSha256 (bytes : Bytes) : Vector UInt8 32 :=
  if bytes = alice.certDer then
    #v[228, 246, 13, 10, 166, 215, 243, 211, 182, 166, 73, 75, 28, 134, 27, 153, 246, 73, 198, 249,
      236, 81, 171, 175, 32, 27, 32, 242, 151, 50, 124, 149]
  else
    #v[41, 33, 161, 31, 37, 218, 218, 162, 74, 167, 154, 84, 142, 78, 129, 80, 140, 46, 94, 86, 175,
      45, 131, 61, 101, 226, 188, 206, 68, 140, 226, 245]

def issuedAt : ℕ := 1700000000000

def aliceBody (key : PublicKey) : PairingPayloadV2Body where
  version := 2
  fingerprint := normalizeFingerprint (alice.fingerprint sampleSha256)
  deviceName := normalizeDeviceName "Desk Mac"
  verificationCode :=
    verificationCodeFromFingerprint (normalizeFingerprint (alice.fingerprint sampleSha256))
  issuedAtUnixMs := issuedAt
  signerPublicKey := String.ofList (standard.encode key.toList)
  migrationProof := none

/-- The members of the JSON object of a body without a migration proof and without characters
that are escaped. -/
def bodyText (b : PairingPayloadV2Body) : String :=
  "\"version\":" ++ toString b.version ++ ",\"fingerprint\":\"" ++ b.fingerprint ++
    "\",\"device_name\":\"" ++ b.deviceName ++ "\",\"verification_code\":\"" ++ b.verificationCode ++
    "\",\"issued_at_unix_ms\":" ++ toString b.issuedAtUnixMs ++ ",\"signer_public_key\":\"" ++
    b.signerPublicKey ++ "\""

def payloadText (p : PairingPayloadV2) : String :=
  "\x7b" ++ bodyText ⟨p.version, p.fingerprint, p.deviceName, p.verificationCode, p.issuedAtUnixMs,
    p.signerPublicKey, none⟩ ++ ",\"signature\":\"" ++ p.signature ++ "\"\x7d"

def bodyBytes (b : PairingPayloadV2Body) : Bytes := utf8 ("\x7b" ++ bodyText b ++ "\x7d")

/-- The signature of Alice under her own body, and the one of Mallory under a body that names
Alice. -/
def aliceSignature : Signature :=
  #v[252, 176, 181, 200, 32, 193, 188, 44, 142, 177, 32, 242, 106, 40, 16, 117, 96, 102, 156, 18,
    150, 6, 8, 44, 28, 8, 6, 237, 69, 4, 61, 243, 10, 148, 71, 77, 88, 95, 237, 134, 60, 210, 65,
    175, 249, 9, 43, 238, 197, 188, 192, 151, 175, 193, 193, 219, 162, 19, 146, 159, 201, 170, 75,
    12]

def mallorySignature : Signature :=
  #v[34, 219, 163, 135, 248, 238, 176, 160, 66, 204, 64, 212, 153, 13, 43, 29, 229, 81, 128, 242,
    100, 51, 31, 23, 239, 162, 186, 13, 82, 122, 181, 118, 183, 253, 96, 156, 199, 145, 253, 24, 59,
    247, 96, 108, 64, 113, 151, 209, 108, 159, 8, 195, 168, 64, 165, 199, 195, 197, 65, 217, 163,
    199, 220, 14]

def sampleEd : Ed25519 (Vector UInt8 32) where
  fromPkcs8Der der := if pkcs8Lead.isPrefixOf der then toVector 32 (der.drop 16) else none
  verifyingKey seed := if seed = aliceSeed then aliceKey else malloryKey
  sign seed _ := if seed = aliceSeed then aliceSignature else mallorySignature
  isKey key := key = aliceKey || key = malloryKey
  verify key message signature :=
    (key = aliceKey && message = bodyBytes (aliceBody aliceKey) && signature = aliceSignature) ||
    (key = malloryKey && message = bodyBytes (aliceBody malloryKey) &&
      signature = mallorySignature)

def alicePayload (key : PublicKey) (signature : Signature) : PairingPayloadV2 where
  version := 2
  fingerprint := (aliceBody key).fingerprint
  deviceName := (aliceBody key).deviceName
  verificationCode := (aliceBody key).verificationCode
  issuedAtUnixMs := issuedAt
  signerPublicKey := (aliceBody key).signerPublicKey
  signature := String.ofList (standard.encode signature.toList)
  migrationProof := none

/-- `serde_json` where it reads this one payload. -/
def sampleJson (payload : PairingPayloadV2) : SerdeJson PairingPayloadV2 where
  bodyToVec := bodyBytes
  payloadToVec p := utf8 (payloadText p)
  fromStr text := if text = payloadText payload then some payload else none
  version p := some p.version
  asV1 _ := none
  asV2 p := some p

theorem sampleJson_readsBack {payload : PairingPayloadV2} (h : payload.version = 2) :
    ReadsBack (sampleJson payload) payload := by
  refine ⟨payloadText payload, payload, fromUtf8_utf8 _, ?_, ?_, rfl⟩
  · simp only [sampleJson, if_true]
  · simp only [sampleJson, h]

theorem alice_named : (normalizeFingerprint (alice.fingerprint sampleSha256)).isEmpty = false := by
  decide

theorem alice_link_fresh : validatePayloadFreshness issuedAt issuedAt =
    .ok (issuedAt + pairingLinkTtlMs) := by decide

section Either

variable {s : Vector UInt8 32} {key : PublicKey} {signature : Signature}

theorem aliceBody_eq (hkey : sampleEd.verifyingKey s = key) : aliceBody key =
    bodyToSign sampleEd (normalizeFingerprint (alice.fingerprint sampleSha256))
      (normalizeDeviceName "Desk Mac") issuedAt s := by
  simp only [aliceBody, bodyToSign, hkey]

theorem alicePayload_eq (key : PublicKey)
    (hsign : ∀ message, sampleEd.sign s message = signature)
    (json : SerdeJson PairingPayloadV2) :
    signedPayload sampleEd json (aliceBody key) s = alicePayload key signature := by
  simp only [signedPayload, hsign, alicePayload, aliceBody]

theorem alicePayload_accepted (hkey : sampleEd.verifyingKey s = key)
    (hsign : ∀ message, sampleEd.sign s message = signature)
    (valid : sampleEd.isKey key = true)
    (verifies : sampleEd.verify key (bodyBytes (aliceBody key)) signature = true) :
    validatePairingInputValue sampleEd (sampleJson (alicePayload key signature))
      (linkOf (sampleJson (alicePayload key signature)) (alicePayload key signature)) issuedAt =
      .ok (validatedLink (normalizeFingerprint (alice.fingerprint sampleSha256))
        (normalizeDeviceName "Desk Mac") issuedAt (issuedAt + pairingLinkTtlMs)) := by
  have payload := alicePayload_eq key hsign (sampleJson (alicePayload key signature))
  have accepted := validate_signedPayload sampleEd (sampleJson (alicePayload key signature))
    (aliceBody_eq hkey) alice_named (by decide)
    (by rw [payload]; exact sampleJson_readsBack rfl)
    (by rw [hkey]; exact valid)
    (by rw [hkey, hsign]; exact verifies)
    alice_link_fresh
  rwa [payload] at accepted

end Either

theorem alice_signs (message : Bytes) :
    sampleEd.sign aliceSeed message = aliceSignature := by
  simp only [sampleEd, if_true]

theorem alice_verifies :
    sampleEd.verify aliceKey (bodyBytes (aliceBody aliceKey)) aliceSignature = true := by
  simp only [sampleEd, decide_true, Bool.and_true, Bool.true_or]

private def acceptedAlice : ValidatedPairingPayload :=
  validatedLink (normalizeFingerprint (alice.fingerprint sampleSha256))
    (normalizeDeviceName "Desk Mac") issuedAt (issuedAt + pairingLinkTtlMs)

private def smoothRun : ImportRun := ⟨1700000001, 1700000002, .ok (), .ok (), .ok ()⟩

/-- A device that knows nobody imports Alice's own link without an error; afterwards it trusts
the normal form of her fingerprint, and not the fingerprint of her certificate. -/
theorem own_link_not_trusted : ∃ link,
    buildSignedPairingLink sampleEd (sampleJson (alicePayload aliceKey aliceSignature)) sampleSha256
      alice "Desk Mac" issuedAt = .ok link ∧
    validatePairingInputValue sampleEd (sampleJson (alicePayload aliceKey aliceSignature)) link
      issuedAt = .ok acceptedAlice ∧
    (importPairingLink ⟨∅, ∅⟩ acceptedAlice false smoothRun).2 = .ok () ∧
    isActiveTrust (importPairingLink ⟨∅, ∅⟩ acceptedAlice false smoothRun).1
      (normalizeFingerprint (alice.fingerprint sampleSha256)) = true ∧
    isActiveTrust (importPairingLink ⟨∅, ∅⟩ acceptedAlice false smoothRun).1
      (alice.fingerprint sampleSha256) = false := by
  have built : buildSignedPairingLink sampleEd (sampleJson (alicePayload aliceKey aliceSignature))
      sampleSha256 alice "Desk Mac" issuedAt =
      .ok (linkOf (sampleJson (alicePayload aliceKey aliceSignature))
        (alicePayload aliceKey aliceSignature)) := by
    rw [buildSignedPairingLink_eq sampleEd _ alice_named (by decide)
      (show sampleEd.fromPkcs8Der alice.keyDer = some aliceSeed by decide),
      ← aliceBody_eq (if_pos rfl), alicePayload_eq aliceKey alice_signs]
  refine ⟨_, built, ?_, ?_, ?_, ?_⟩
  · exact alicePayload_accepted (if_pos rfl) alice_signs (by decide) alice_verifies
  · decide
  · decide
  · decide

end Sample

end DashDrop.Pairing.Import
