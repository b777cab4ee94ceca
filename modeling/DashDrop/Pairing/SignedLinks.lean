/- GID: DashDrop/Pairing/SignedLinks
   source: src-tauri/src/pairing.rs
   anchors: []
   digest: When an own link is accepted, and what a signature says of an accepted one. -/

import DashDrop.Pairing.Authenticity

set_option autoImplicit false
set_option relaxedAutoImplicit false

namespace DashDrop.Pairing.SignedLinks

open DashDrop.Foundation.Base64 DashDrop.Foundation.Text
open DashDrop.Foundation.FileTree (Bytes)
open DashDrop.Runtime.State (saturatingAdd)
open DashDrop.Pairing.Link DashDrop.Pairing.Import DashDrop.Pairing.Authenticity

theorem freshness_ok {issuedAtUnixMs now : ℕ} (issued : 0 < issuedAtUnixMs) (u64 : now < 2 ^ 64)
    (early : issuedAtUnixMs ≤ now + pairingLinkFutureSkewMs)
    (late : now ≤ issuedAtUnixMs + pairingLinkTtlMs) :
    validatePayloadFreshness issuedAtUnixMs now =
      .ok (min (issuedAtUnixMs + pairingLinkTtlMs) (2 ^ 64 - 1)) := by
  have begun : ¬ issuedAtUnixMs = 0 := by omega
  have soon : ¬ issuedAtUnixMs - now > pairingLinkFutureSkewMs := by omega
  have unexpired : ¬ now > pairingPayloadExpiresAtUnixMs issuedAtUnixMs := by
    rw [pairingPayloadExpiresAtUnixMs, saturatingAdd]
    omega
  rw [validatePayloadFreshness, if_neg begun, if_neg soon]
  exact if_neg unexpired

theorem freshness_error {issuedAtUnixMs now : ℕ} (outside : issuedAtUnixMs + pairingLinkTtlMs < now ∨
    now + pairingLinkFutureSkewMs < issuedAtUnixMs) :
    ∃ cause, validatePayloadFreshness issuedAtUnixMs now = .error cause := by
  unfold validatePayloadFreshness
  split_ifs with missing future
  · exact ⟨_, rfl⟩
  · exact ⟨_, rfl⟩
  · have expired : now > pairingPayloadExpiresAtUnixMs issuedAtUnixMs := by
      rw [pairingPayloadExpiresAtUnixMs, saturatingAdd]
      omega
    exact ⟨_, if_pos expired⟩

section Crates

variable {SigningKey Value : Type} (ed : Ed25519 SigningKey) (json : SerdeJson Value)

section RoundTrip

variable (sha256 : Bytes → Vector UInt8 32) (identity : Identity) (deviceName : String)
  (issuedAtUnixMs : ℕ) (key : SigningKey)

def ownBody : PairingPayloadV2Body :=
  bodyToSign ed (normalizeFingerprint (identity.fingerprint sha256))
    (normalizeDeviceName deviceName) issuedAtUnixMs key

def ownPayload : PairingPayloadV2 :=
  signedPayload ed json (ownBody ed sha256 identity deviceName issuedAtUnixMs key) key

/-- A link is accepted in its window, and outside of it it is not. -/
theorem own_link_window (named : (normalizeFingerprint (identity.fingerprint sha256)).isEmpty = false)
    (called : (normalizeDeviceName deviceName).isEmpty = false)
    (decoded : ed.fromPkcs8Der identity.keyDer = some key)
    (valid : ed.isKey (ed.verifyingKey key) = true)
    (verifies : ed.verify (ed.verifyingKey key)
      (json.bodyToVec (ownBody ed sha256 identity deviceName issuedAtUnixMs key))
      (ed.sign key (json.bodyToVec (ownBody ed sha256 identity deviceName issuedAtUnixMs key))) =
        true)
    (reads : ReadsBack json (ownPayload ed json sha256 identity deviceName issuedAtUnixMs key))
    (issued : 0 < issuedAtUnixMs) :
    ∃ link, buildSignedPairingLink ed json sha256 identity deviceName issuedAtUnixMs = .ok link ∧
      (∀ now < 2 ^ 64, issuedAtUnixMs ≤ now + pairingLinkFutureSkewMs →
        now ≤ issuedAtUnixMs + pairingLinkTtlMs →
        validatePairingInputValue ed json link now = .ok (validatedLink
          (normalizeFingerprint (identity.fingerprint sha256)) (normalizeDeviceName deviceName)
          issuedAtUnixMs (min (issuedAtUnixMs + pairingLinkTtlMs) (2 ^ 64 - 1)))) ∧
      ∀ now, issuedAtUnixMs + pairingLinkTtlMs < now ∨
        now + pairingLinkFutureSkewMs < issuedAtUnixMs →
        ∃ cause, validatePairingInputValue ed json link now = .error cause := by
  have checked (now : ℕ) : validatePairingInputValue ed json
      (linkOf json (ownPayload ed json sha256 identity deviceName issuedAtUnixMs key)) now =
      (validatePayloadFreshness issuedAtUnixMs now).map (validatedLink
        (normalizeFingerprint (identity.fingerprint sha256)) (normalizeDeviceName deviceName)
        issuedAtUnixMs) :=
    validate_signedPayload_map ed json rfl named called reads valid verifies
  refine ⟨_, buildSignedPairingLink_eq ed json named called decoded, ?_, ?_⟩
  · intro now u64 early late
    have fresh := freshness_ok issued u64 early late
    exact (checked now).trans (by rw [fresh]; rfl)
  · intro now outside
    obtain ⟨cause, stale⟩ := freshness_error outside
    exact ⟨cause, (checked now).trans (by rw [stale]; rfl)⟩

end RoundTrip

def returned (body : PairingPayloadV2Body) : ValidatedPairingPayload where
  version := 2
  fingerprint := body.fingerprint
  deviceName := body.deviceName
  verificationCode := body.verificationCode
  issuedAtUnixMs := body.issuedAtUnixMs
  expiresAtUnixMs := pairingPayloadExpiresAtUnixMs body.issuedAtUnixMs
  trustModel := "signed_link"
  signatureVerified := true
  migrationProof := body.migrationProof

theorem expires_of_fresh {issuedAtUnixMs now expires : ℕ}
    (h : validatePayloadFreshness issuedAtUnixMs now = .ok expires) :
    expires = pairingPayloadExpiresAtUnixMs issuedAtUnixMs := by
  unfold validatePayloadFreshness at h
  split_ifs at h with missing future
  by_cases expired : now > pairingPayloadExpiresAtUnixMs issuedAtUnixMs
  · rw [if_pos expired] at h
    cases h
  · rw [if_neg expired] at h
    exact (Except.ok.inj h).symm

/-- The key and the signature of a payload, and the body that they are checked with. -/
structure Carries (payload : PairingPayloadV2) (key : PublicKey) (signature : Signature)
    (body : PairingPayloadV2Body) : Prop where
  keyRead : signerKey ed payload = .ok key
  signatureRead : linkSignature payload = .ok signature
  verified : ed.verify key (json.bodyToVec body) signature = true

theorem validateV2_carries {payload : PairingPayloadV2} {now : ℕ} {v : ValidatedPairingPayload}
    (h : validateV2 ed json payload now = .ok v) :
    ∃ key signature body, Carries ed json payload key signature body ∧ v = returned body := by
  obtain ⟨names, named, h⟩ := exists_ok_of_bind h
  obtain rfl := checkNames_ok named
  obtain ⟨key, hkey, h⟩ := exists_ok_of_bind h
  obtain ⟨signature, hsignature, h⟩ := exists_ok_of_bind h
  split_ifs at h with refused
  obtain ⟨_, -, h⟩ := exists_ok_of_bind h
  obtain ⟨expires, fresh, h⟩ := exists_ok_of_bind h
  obtain rfl := Except.ok.inj h
  refine ⟨key, signature, signedBody payload ⟨normalizeFingerprint payload.fingerprint,
    normalizeDeviceName payload.deviceName⟩, ⟨hkey, hsignature, by simpa using refused⟩, ?_⟩
  simp only [returned, signedBody, expires_of_fresh fresh]

theorem exists_payload {input : String} {now : ℕ} {v : ValidatedPairingPayload}
    (h : validatePairingInputValue ed json input now = .ok v) (second : v.version = 2) :
    ∃ payload, payloadOf json input = some payload ∧ validateV2 ed json payload now = .ok v := by
  obtain ⟨source, hsource, h⟩ := exists_ok_of_bind h
  obtain ⟨parsed, hparsed, h⟩ := exists_ok_of_bind h
  obtain ⟨version, hversion, h⟩ := exists_ok_of_bind h
  split at h
  · obtain ⟨payload, hpayload, h⟩ := exists_ok_of_bind h
    obtain ⟨names, named, h⟩ := exists_ok_of_bind h
    obtain ⟨expires, fresh, h⟩ := exists_ok_of_bind h
    obtain rfl := Except.ok.inj h
    cases second
  · obtain ⟨payload, hpayload, h⟩ := exists_ok_of_bind h
    refine ⟨payload, ?_, h⟩
    unfold payloadOf
    rw [hsource]
    show (json.fromStr source).bind json.asV2 = some payload
    rw [exists_some_of_orFail hparsed, Option.bind_some]
    exact exists_some_of_orFail hpayload
  · cases h

variable {ed json}

/-- Under an ideal Ed25519, where a signature under a key belongs to the one message that the
holder of the key has signed with it: what is returned for an accepted input of the second version
is the one body that was signed, and the signature determines it. -/
theorem signed_links_tamper_evident {signed : PublicKey → Signature → Option Bytes}
    (ideal : ∀ key message signature, ed.verify key message signature = true →
      signed key signature = some message)
    (injective : Function.Injective json.bodyToVec) :
    (∀ input now v, validatePairingInputValue ed json input now = .ok v → v.version = 2 →
      ∃ payload key signature body, payloadOf json input = some payload ∧
        signerKey ed payload = .ok key ∧ linkSignature payload = .ok signature ∧
        signed key signature = some (json.bodyToVec body) ∧ v = returned body ∧
        ∀ other, signed key signature = some (json.bodyToVec other) → other = body) ∧
    ∀ input input' now now' v v' payload payload' key signature,
      validatePairingInputValue ed json input now = .ok v → v.version = 2 →
      validatePairingInputValue ed json input' now' = .ok v' → v'.version = 2 →
      payloadOf json input = some payload → payloadOf json input' = some payload' →
      signerKey ed payload = .ok key → signerKey ed payload' = .ok key →
      linkSignature payload = .ok signature → linkSignature payload' = .ok signature → v = v' := by
  constructor
  · intro input now v accepted second
    obtain ⟨payload, carried, passed⟩ := exists_payload ed json accepted second
    obtain ⟨key, signature, body, carries, same⟩ := validateV2_carries ed json passed
    have made := ideal key _ signature carries.verified
    refine ⟨payload, key, signature, body, carried, carries.keyRead, carries.signatureRead, made,
      same, ?_⟩
    intro other again
    rw [made] at again
    exact (injective (Option.some.inj again)).symm
  · intro input input' now now' v v' payload payload' key signature accepted second accepted'
      second' carried carried' hkey hkey' hsignature hsignature'
    obtain ⟨_, found, passed⟩ := exists_payload ed json accepted second
    obtain ⟨_, found', passed'⟩ := exists_payload ed json accepted' second'
    obtain rfl := Option.some.inj (carried.symm.trans found)
    obtain rfl := Option.some.inj (carried'.symm.trans found')
    obtain ⟨_, _, body, carries, rfl⟩ := validateV2_carries ed json passed
    obtain ⟨_, _, body', carries', rfl⟩ := validateV2_carries ed json passed'
    obtain rfl := Except.ok.inj (hkey.symm.trans carries.keyRead)
    obtain rfl := Except.ok.inj (hkey'.symm.trans carries'.keyRead)
    obtain rfl := Except.ok.inj (hsignature.symm.trans carries.signatureRead)
    obtain rfl := Except.ok.inj (hsignature'.symm.trans carries'.signatureRead)
    have made := ideal key _ signature carries.verified
    rw [ideal key _ signature carries'.verified] at made
    rw [injective (Option.some.inj made)]

end Crates

section Sample

def aliceJson : SerdeJson PairingPayloadV2 := sampleJson (alicePayload aliceKey aliceSignature)

theorem alice_ownBody :
    ownBody sampleEd sampleSha256 alice "Desk Mac" issuedAt aliceSeed = aliceBody aliceKey :=
  (aliceBody_eq (if_pos rfl)).symm

theorem alice_ownPayload : ownPayload sampleEd aliceJson sampleSha256 alice "Desk Mac" issuedAt
    aliceSeed = alicePayload aliceKey aliceSignature := by
  rw [ownPayload, alice_ownBody, alicePayload_eq aliceKey alice_signs]

/-- Ten minutes after its issue the link of Alice is accepted, and a millisecond later it is not. -/
theorem alice_link_window : ∃ link,
    buildSignedPairingLink sampleEd aliceJson sampleSha256 alice "Desk Mac" issuedAt = .ok link ∧
    validatePairingInputValue sampleEd aliceJson link (issuedAt + pairingLinkTtlMs) =
      .ok (validatedLink (normalizeFingerprint (alice.fingerprint sampleSha256)) "Desk Mac" issuedAt
        (issuedAt + pairingLinkTtlMs)) ∧
    ∃ cause, validatePairingInputValue sampleEd aliceJson link (issuedAt + pairingLinkTtlMs + 1) =
      .error cause := by
  have verifies : sampleEd.verify (sampleEd.verifyingKey aliceSeed) (aliceJson.bodyToVec
      (ownBody sampleEd sampleSha256 alice "Desk Mac" issuedAt aliceSeed)) (sampleEd.sign aliceSeed
      (aliceJson.bodyToVec (ownBody sampleEd sampleSha256 alice "Desk Mac" issuedAt aliceSeed))) =
      true := by
    rw [alice_ownBody, alice_signs]
    exact alice_verifies
  have reads : ReadsBack aliceJson
      (ownPayload sampleEd aliceJson sampleSha256 alice "Desk Mac" issuedAt aliceSeed) := by
    rw [alice_ownPayload]
    exact sampleJson_readsBack rfl
  obtain ⟨link, built, accepted, rejected⟩ := own_link_window sampleEd aliceJson sampleSha256 alice
    "Desk Mac" issuedAt aliceSeed alice_named (by decide) (by decide) (by decide) verifies reads
    (by decide)
  exact ⟨link, built, accepted _ (by decide) (by decide) le_rfl,
    rejected _ (Or.inl (Nat.lt_succ_self _))⟩

def lastMoment : ℕ := 2 ^ 64 - 1

def lateBody : PairingPayloadV2Body := { aliceBody aliceKey with issuedAtUnixMs := lastMoment }

def lateSignature : Signature :=
  #v[78, 158, 232, 187, 137, 236, 229, 156, 48, 80, 207, 167, 102, 108, 36, 200, 182, 204, 160,
    199, 66, 129, 114, 249, 20, 200, 44, 216, 48, 190, 216, 238, 230, 234, 181, 12, 207, 65, 230,
    106, 27, 157, 70, 122, 190, 131, 213, 206, 10, 215, 157, 183, 161, 93, 6, 134, 244, 106, 251,
    161, 111, 20, 221, 13]

def lateEd : Ed25519 (Vector UInt8 32) where
  fromPkcs8Der := sampleEd.fromPkcs8Der
  verifyingKey := sampleEd.verifyingKey
  sign _ _ := lateSignature
  isKey := sampleEd.isKey
  verify key message signature :=
    key = aliceKey && message = bodyBytes lateBody && signature = lateSignature

def lateJson : SerdeJson PairingPayloadV2 :=
  sampleJson { alicePayload aliceKey lateSignature with issuedAtUnixMs := lastMoment }

/-- A link that is issued at the last moment expires at once, and not ten minutes later. -/
theorem last_moment_link : ∃ link v,
    buildSignedPairingLink lateEd lateJson sampleSha256 alice "Desk Mac" lastMoment = .ok link ∧
    validatePairingInputValue lateEd lateJson link lastMoment = .ok v ∧
    v.expiresAtUnixMs = lastMoment ∧ v.expiresAtUnixMs ≠ lastMoment + pairingLinkTtlMs := by
  have body : lateBody = bodyToSign lateEd (normalizeFingerprint (alice.fingerprint sampleSha256))
      (normalizeDeviceName "Desk Mac") lastMoment aliceSeed := by
    simp only [lateBody, aliceBody, bodyToSign, lateEd, sampleEd, if_true]
  have payload : signedPayload lateEd lateJson lateBody aliceSeed =
      { alicePayload aliceKey lateSignature with issuedAtUnixMs := lastMoment } := by
    simp only [signedPayload, lateEd, alicePayload, lateBody, aliceBody]
  have built : buildSignedPairingLink lateEd lateJson sampleSha256 alice "Desk Mac" lastMoment =
      .ok (linkOf lateJson (signedPayload lateEd lateJson lateBody aliceSeed)) := by
    have decoded : lateEd.fromPkcs8Der alice.keyDer = some aliceSeed := by decide
    rw [buildSignedPairingLink_eq lateEd lateJson alice_named (by decide) decoded, body]
  have reads : ReadsBack lateJson (signedPayload lateEd lateJson lateBody aliceSeed) := by
    rw [payload]
    exact sampleJson_readsBack rfl
  have verifies : lateEd.verify (lateEd.verifyingKey aliceSeed) (lateJson.bodyToVec lateBody)
      (lateEd.sign aliceSeed (lateJson.bodyToVec lateBody)) = true := by
    have key : lateEd.verifyingKey aliceSeed = aliceKey := by simp only [lateEd, sampleEd, if_true]
    rw [key]
    simp only [lateEd, lateJson, sampleJson, decide_true, Bool.and_true]
  have fresh := freshness_ok (by decide : 0 < lastMoment) (by decide) (Nat.le_add_right _ _)
    (Nat.le_add_right _ _)
  have accepted := validate_signedPayload lateEd lateJson body alice_named (by decide) reads
    (by decide) verifies fresh
  exact ⟨_, _, built, accepted, by decide, by decide⟩

def delimited (bytes : Bytes) : Bytes := bytes.flatMap (fun b => [1, b]) ++ [0]

theorem delimited_append {a b r r' : Bytes} (h : delimited a ++ r = delimited b ++ r') :
    a = b ∧ r = r' := by
  induction a generalizing b with
  | nil =>
    cases b with
    | nil => simpa [delimited] using h
    | cons y b => simp [delimited] at h
  | cons x a ih =>
    cases b with
    | nil => simp [delimited] at h
    | cons y b =>
      simp only [delimited, List.flatMap_cons, List.cons_append, List.nil_append,
        List.cons.injEq, true_and] at h
      obtain ⟨rfl, h⟩ := h
      obtain ⟨rfl, rfl⟩ := ih h
      exact ⟨rfl, rfl⟩

theorem flatMap_delimited_injective : Function.Injective (List.flatMap delimited) := by
  intro l l' h
  induction l generalizing l' with
  | nil =>
    cases l' with
    | nil => rfl
    | cons b l' => simp [delimited] at h
  | cons a l ih =>
    cases l' with
    | nil => simp [delimited] at h
    | cons b l' =>
      rw [List.flatMap_cons, List.flatMap_cons] at h
      obtain ⟨rfl, rest⟩ := delimited_append h
      rw [ih rest]

def proofParts : Option IdentityMigrationProof → List Bytes
  | none => []
  | some proof => [utf8 proof.previousFingerprint, utf8 proof.previousPublicKey,
      utf8 proof.signature]

def parts (b : PairingPayloadV2Body) : List Bytes :=
  [List.replicate b.version 0, utf8 b.fingerprint, utf8 b.deviceName, utf8 b.verificationCode,
    List.replicate b.issuedAtUnixMs 0, utf8 b.signerPublicKey] ++ proofParts b.migrationProof

theorem utf8_injective : Function.Injective utf8 := by
  intro s t h
  have same := congrArg fromUtf8 h
  rw [fromUtf8_utf8, fromUtf8_utf8] at same
  exact Option.some.inj same

theorem proofParts_injective : Function.Injective proofParts := by
  intro a b h
  cases a with
  | none =>
    cases b with
    | none => rfl
    | some q => cases h
  | some p =>
    cases b with
    | none => cases h
    | some q =>
      simp only [proofParts, List.cons.injEq, and_true] at h
      obtain ⟨h₁, h₂, h₃⟩ := h
      rw [Option.some_inj, IdentityMigrationProof.mk.injEq]
      exact ⟨utf8_injective h₁, utf8_injective h₂, utf8_injective h₃⟩

theorem parts_injective : Function.Injective parts := by
  intro a b h
  simp only [parts, List.cons_append, List.nil_append, List.cons.injEq] at h
  obtain ⟨h₁, h₂, h₃, h₄, h₅, h₆, h₇⟩ := h
  cases a
  cases b
  simp only [PairingPayloadV2Body.mk.injEq]
  exact ⟨by simpa using congrArg List.length h₁, utf8_injective h₂, utf8_injective h₃,
    utf8_injective h₄, by simpa using congrArg List.length h₅, utf8_injective h₆,
    proofParts_injective h₇⟩

/-- The JSON of the body of Alice, and other texts for other bodies. -/
def tellingBytes (b : PairingPayloadV2Body) : Bytes :=
  if b = aliceBody aliceKey then bodyBytes b else 0 :: (parts b).flatMap delimited

theorem tellingBytes_injective : Function.Injective tellingBytes := by
  have json (r : Bytes) : bodyBytes (aliceBody aliceKey) ≠ 0 :: r := by
    intro same
    have first := congrArg List.head? same
    rw [List.head?_cons] at first
    exact absurd first (by decide)
  intro a b h
  unfold tellingBytes at h
  split_ifs at h with ha hb hb
  · rw [ha, hb]
  · rw [ha] at h
    exact absurd h (json _)
  · rw [hb] at h
    exact absurd h.symm (json _)
  · exact parts_injective (flatMap_delimited_injective (List.cons.inj h).2)

def tellingJson : SerdeJson PairingPayloadV2 := { aliceJson with bodyToVec := tellingBytes }

def aliceSigned (key : PublicKey) (signature : Signature) : Option Bytes :=
  if key = aliceKey ∧ signature = aliceSignature then some (bodyBytes (aliceBody aliceKey))
  else if key = malloryKey ∧ signature = mallorySignature then
    some (bodyBytes (aliceBody malloryKey))
  else none

theorem aliceSigned_ideal (key : PublicKey) (message : Bytes) (signature : Signature)
    (verified : sampleEd.verify key message signature = true) :
    aliceSigned key signature = some message := by
  simp only [sampleEd, Bool.or_eq_true, Bool.and_eq_true, decide_eq_true_eq] at verified
  rcases verified with ⟨⟨rfl, rfl⟩, rfl⟩ | ⟨⟨rfl, rfl⟩, rfl⟩
  · exact if_pos ⟨rfl, rfl⟩
  · exact (if_neg (by decide)).trans (if_pos ⟨rfl, rfl⟩)

theorem alice_link_tamper_evident : ∃ key signature body,
    aliceSigned key signature = some (tellingBytes body) ∧
      validatedLink (normalizeFingerprint (alice.fingerprint sampleSha256))
        (normalizeDeviceName "Desk Mac") issuedAt (issuedAt + pairingLinkTtlMs) = returned body := by
  have payload : signedPayload sampleEd tellingJson (aliceBody aliceKey) aliceSeed =
      alicePayload aliceKey aliceSignature := alicePayload_eq aliceKey alice_signs tellingJson
  have reads : ReadsBack tellingJson
      (signedPayload sampleEd tellingJson (aliceBody aliceKey) aliceSeed) := by
    rw [payload]
    exact sampleJson_readsBack rfl
  have verifies : sampleEd.verify (sampleEd.verifyingKey aliceSeed)
      (tellingJson.bodyToVec (aliceBody aliceKey))
      (sampleEd.sign aliceSeed (tellingJson.bodyToVec (aliceBody aliceKey))) = true := by
    have same : tellingJson.bodyToVec (aliceBody aliceKey) = bodyBytes (aliceBody aliceKey) := by
      simp only [tellingJson, tellingBytes, if_true]
    rw [same, alice_signs]
    exact alice_verifies
  have accepted := validate_signedPayload sampleEd tellingJson (aliceBody_eq (if_pos rfl))
    alice_named (by decide) reads (by decide) verifies alice_link_fresh
  obtain ⟨_, key, signature, body, -, -, -, made, same, -⟩ :=
    (signed_links_tamper_evident aliceSigned_ideal tellingBytes_injective).1 _ issuedAt _ accepted
      rfl
  exact ⟨key, signature, body, made, same⟩

end Sample

end DashDrop.Pairing.SignedLinks
