/- GID: DashDrop/Pairing/Authenticity
   source: src-tauri/src/pairing.rs, src-tauri/src/crypto/identity.rs
   anchors: []
   digest: A signed link speaks for the fingerprint in it if its key does, and only then. -/

import DashDrop.Pairing.Import
import Mathlib.Data.Set.Insert

set_option autoImplicit false
set_option relaxedAutoImplicit false

namespace DashDrop.Pairing.Authenticity

open DashDrop.Foundation.Base64 DashDrop.Foundation.Text
open DashDrop.Foundation.FileTree (Bytes)
open DashDrop.Pairing.Link DashDrop.Pairing.Import

section Crates

variable {SigningKey Value : Type} (ed : Ed25519 SigningKey) (json : SerdeJson Value)
variable (sha256 : Bytes → Vector UInt8 32)

def publicKey (identity : Identity) : Option PublicKey :=
  (ed.fromPkcs8Der identity.keyDer).map ed.verifyingKey

def payloadOf (input : String) : Option PairingPayloadV2 :=
  match decodePairingPayloadSource input with
  | .error _ => none
  | .ok source => (json.fromStr source).bind json.asV2

/-- `signer m s` is the key whose holder made the signature `s` of the message `m`. Ideally a
signature verifies under no other key. -/
def Ideal (signer : Bytes → Signature → Option PublicKey) : Prop :=
  ∀ key message signature, ed.verify key message signature = true →
    signer message signature = some key

variable (ids : Set Identity) (signer : Bytes → Signature → Option PublicKey)

/-- The signature was made with the private key of an identity that has this fingerprint. -/
def SignedByNamed (fingerprint : String) (message : Bytes) (signature : Signature) : Prop :=
  ∃ identity ∈ ids, normalizeFingerprint (identity.fingerprint sha256) = fingerprint ∧
    ∃ key, publicKey ed identity = some key ∧ signer message signature = some key

/-- The body was signed by the identity it names, and a returned migration proof by the
identity that it names as the previous one. -/
def Authentic (input : String) (v : ValidatedPairingPayload) : Prop :=
  ∃ payload signature, payloadOf json input = some payload ∧
    linkSignature payload = .ok signature ∧
    SignedByNamed ed sha256 ids signer v.fingerprint
      (json.bodyToVec (signedBody payload ⟨v.fingerprint, v.deviceName⟩)) signature ∧
    ∀ proof, v.migrationProof = some proof → ∃ previous, migrationSignature proof = .ok previous ∧
      SignedByNamed ed sha256 ids signer proof.previousFingerprint
        (migrationData v.fingerprint payload.issuedAtUnixMs) previous

/-- The key in a text is the one of an identity with this fingerprint. -/
def Belongs (fingerprint : String) (key : Except String PublicKey) : Prop :=
  ∃ identity ∈ ids, normalizeFingerprint (identity.fingerprint sha256) = fingerprint ∧
    ∃ k, publicKey ed identity = some k ∧ key = .ok k

/-- The keys in the payload belong to the fingerprints beside them. -/
def OwnKeys (input : String) : Prop :=
  ∃ payload, payloadOf json input = some payload ∧
    Belongs ed sha256 ids (normalizeFingerprint payload.fingerprint) (signerKey ed payload) ∧
    ∀ proof, payload.migrationProof = some proof →
      Belongs ed sha256 ids proof.previousFingerprint (previousKey ed proof)

variable {ed json sha256 ids signer} {fingerprint : String} {message : Bytes}
  {signature : Signature} {key : PublicKey} {read : Except String PublicKey}

theorem signedByNamed_iff_belongs (ideal : Ideal ed signer) (hread : read = .ok key)
    (verified : ed.verify key message signature = true) :
    SignedByNamed ed sha256 ids signer fingerprint message signature ↔
      Belongs ed sha256 ids fingerprint read := by
  have made := ideal key message signature verified
  constructor
  · rintro ⟨identity, known, named, k, hk, signed⟩
    obtain rfl : key = k := Option.some.inj (made.symm.trans signed)
    exact ⟨identity, known, named, key, hk, hread⟩
  · rintro ⟨identity, known, named, k, hk, same⟩
    obtain rfl : key = k := Except.ok.inj (hread.symm.trans same)
    exact ⟨identity, known, named, key, hk, made⟩

/-- A verified signature means that the input carries a signed payload that passed. -/
theorem accepted_payload {input : String} {now : ℕ} {v : ValidatedPairingPayload}
    (h : validatePairingInputValue ed json input now = .ok v) (verified : v.signatureVerified = true) :
    ∃ payload, payloadOf json input = some payload ∧ Accepted ed json payload v := by
  rcases validatePairingInputValue_ok ed json h with
    ⟨unsigned, -⟩ | ⟨source, parsed, payload, hsource, hparsed, hpayload, accepted⟩
  · simp [unsigned] at verified
  · refine ⟨payload, ?_, accepted⟩
    simp [payloadOf, hsource, hparsed, hpayload]

theorem payloadOf_linkOf {payload : PairingPayloadV2} (reads : ReadsBack json payload) :
    payloadOf json (linkOf json payload) = some payload := by
  obtain ⟨source, parsed, hsource, hparsed, -, hpayload⟩ := reads
  simp [payloadOf, decodePairingPayloadSource_linkOf, hsource, orFail, hparsed, hpayload]

theorem ownKeys_of_authentic (ideal : Ideal ed signer) {input : String}
    {v : ValidatedPairingPayload} {payload : PairingPayloadV2}
    (hpayload : payloadOf json input = some payload) (accepted : Accepted ed json payload v)
    (h : Authentic ed json sha256 ids signer input v) : OwnKeys ed json sha256 ids input := by
  obtain ⟨payload', signature, hpayload', hsignature, signed, migrated⟩ := h
  obtain rfl : payload = payload' := Option.some.inj (hpayload.symm.trans hpayload')
  obtain ⟨key, signature', hkey, hsignature', verified⟩ := accepted.signed
  obtain rfl : signature = signature' := Except.ok.inj (hsignature.symm.trans hsignature')
  refine ⟨payload, hpayload, ?_, fun proof carried => ?_⟩
  · rw [← accepted.fingerprint]
    exact (signedByNamed_iff_belongs ideal hkey verified).mp signed
  · have returned : v.migrationProof = some proof := accepted.migrationProof.trans carried
    obtain ⟨key, previous, hkey, hprevious, verified⟩ := accepted.migrated proof returned
    obtain ⟨previous', hprevious', signed⟩ := migrated proof returned
    obtain rfl : previous = previous' := Except.ok.inj (hprevious.symm.trans hprevious')
    exact (signedByNamed_iff_belongs ideal hkey verified).mp signed

theorem authentic_of_ownKeys (ideal : Ideal ed signer) {input : String}
    {v : ValidatedPairingPayload} {payload : PairingPayloadV2}
    (hpayload : payloadOf json input = some payload) (accepted : Accepted ed json payload v)
    (h : OwnKeys ed json sha256 ids input) : Authentic ed json sha256 ids signer input v := by
  obtain ⟨payload', hpayload', belongs, migrated⟩ := h
  obtain rfl : payload = payload' := Option.some.inj (hpayload.symm.trans hpayload')
  obtain ⟨key, signature, hkey, hsignature, verified⟩ := accepted.signed
  refine ⟨payload, signature, hpayload, hsignature, ?_, fun proof returned => ?_⟩
  · rw [← accepted.fingerprint] at belongs
    exact (signedByNamed_iff_belongs ideal hkey verified).mpr belongs
  · obtain ⟨key, previous, hkey, hprevious, verified⟩ := accepted.migrated proof returned
    have carried : payload.migrationProof = some proof := accepted.migrationProof.symm.trans returned
    exact ⟨previous, hprevious,
      (signedByNamed_iff_belongs ideal hkey verified).mpr (migrated proof carried)⟩

/-- Under an ideal Ed25519, and for any identities in the world: an accepted link with a
verified signature was signed by the identity that it names, and so was the migration proof in
it, exactly if the public keys in it belong to the fingerprints beside them. -/
theorem signed_link_authentic_iff (ideal : Ideal ed signer) {input : String} {now : ℕ}
    {v : ValidatedPairingPayload} (accepted : validatePairingInputValue ed json input now = .ok v)
    (verified : v.signatureVerified = true) :
    Authentic ed json sha256 ids signer input v ↔ OwnKeys ed json sha256 ids input := by
  obtain ⟨payload, hpayload, passed⟩ := accepted_payload accepted verified
  exact ⟨ownKeys_of_authentic ideal hpayload passed, authentic_of_ownKeys ideal hpayload passed⟩

end Crates

section Sample

def sampleSigner (_ : Bytes) (signature : Signature) : Option PublicKey :=
  if signature = aliceSignature then some aliceKey
  else if signature = mallorySignature then some malloryKey
  else none

theorem sampleSigner_ideal : Ideal sampleEd sampleSigner := by
  intro key message signature verified
  simp only [sampleEd, Bool.or_eq_true, Bool.and_eq_true, decide_eq_true_eq] at verified
  rcases verified with ⟨⟨rfl, -⟩, rfl⟩ | ⟨⟨rfl, -⟩, rfl⟩
  · exact if_pos rfl
  · exact (if_neg (by decide)).trans (if_pos rfl)

private def aliceJson : SerdeJson PairingPayloadV2 :=
  sampleJson (alicePayload aliceKey aliceSignature)

private def malloryJson : SerdeJson PairingPayloadV2 :=
  sampleJson (alicePayload malloryKey mallorySignature)

private def aliceLink : String := linkOf aliceJson (alicePayload aliceKey aliceSignature)

/-- A link with the fingerprint of Alice and the key and signature of Mallory. -/
private def malloryLink : String := linkOf malloryJson (alicePayload malloryKey mallorySignature)

private def aliceValidated : ValidatedPairingPayload :=
  validatedLink (normalizeFingerprint (alice.fingerprint sampleSha256))
    (normalizeDeviceName "Desk Mac") issuedAt (issuedAt + pairingLinkTtlMs)

private theorem alicePayload_reads (key : PublicKey) (signature : Signature) :
    payloadOf (sampleJson (alicePayload key signature))
      (linkOf (sampleJson (alicePayload key signature)) (alicePayload key signature)) =
      some (alicePayload key signature) :=
  payloadOf_linkOf (sampleJson_readsBack rfl)

private theorem alicePayload_signerKey {key : PublicKey} (valid : sampleEd.isKey key = true)
    (signature : Signature) : signerKey sampleEd (alicePayload key signature) = .ok key :=
  readKey_encoded sampleEd valid _ _ _

theorem alice_link_authentic :
    validatePairingInputValue sampleEd aliceJson aliceLink issuedAt = .ok aliceValidated ∧
    Authentic sampleEd aliceJson sampleSha256 {alice, mallory} sampleSigner aliceLink
      aliceValidated := by
  have accepted : validatePairingInputValue sampleEd aliceJson aliceLink issuedAt =
      .ok aliceValidated := by
    refine alicePayload_accepted (s := aliceSeed) (by decide) (fun _ => ?_) (by decide) ?_
    · simp only [sampleEd, if_true]
    · simp only [sampleEd, decide_true, Bool.and_true, Bool.true_or]
  refine ⟨accepted, (signed_link_authentic_iff sampleSigner_ideal accepted rfl).mpr ?_⟩
  refine ⟨_, alicePayload_reads aliceKey aliceSignature, ?_, fun proof none => ?_⟩
  · refine ⟨alice, by simp, ?_, aliceKey, by decide, alicePayload_signerKey (by decide) _⟩
    exact (normalizeFingerprint_idem _).symm
  · cases none

/-- Mallory's link is accepted as one of Alice, although Alice has signed nothing. -/
theorem forged_link_accepted :
    Ideal sampleEd sampleSigner ∧
    validatePairingInputValue sampleEd malloryJson malloryLink issuedAt = .ok aliceValidated ∧
    aliceValidated.signatureVerified = true ∧
    ¬ Authentic sampleEd malloryJson sampleSha256 {alice, mallory} sampleSigner malloryLink
      aliceValidated := by
  have accepted : validatePairingInputValue sampleEd malloryJson malloryLink issuedAt =
      .ok aliceValidated := by
    have other : ¬ mallorySeed = aliceSeed := by decide
    refine alicePayload_accepted (s := mallorySeed) (by decide) (fun _ => ?_) (by decide) ?_
    · simp only [sampleEd, other, if_false]
    · simp only [sampleEd, decide_true, Bool.and_true, Bool.or_true]
  refine ⟨sampleSigner_ideal, accepted, rfl, fun authentic => ?_⟩
  obtain ⟨payload, hpayload, passed⟩ := accepted_payload accepted rfl
  obtain ⟨payload', hpayload', ⟨identity, known, named, key, hkey, same⟩, -⟩ :=
    ownKeys_of_authentic sampleSigner_ideal hpayload passed authentic
  obtain rfl : alicePayload malloryKey mallorySignature = payload' :=
    Option.some.inj ((alicePayload_reads malloryKey mallorySignature).symm.trans hpayload')
  obtain rfl : malloryKey = key :=
    Except.ok.inj ((alicePayload_signerKey (by decide) _).symm.trans same)
  -- Alice has another key, and Mallory another fingerprint
  rcases known with rfl | rfl
  · exact absurd hkey (by decide)
  · exact absurd named (by decide)

end Sample

end DashDrop.Pairing.Authenticity
