/- GID: DashDrop/Pairing/Link
   source: src-tauri/src/pairing.rs, src-tauri/src/crypto/identity.rs
   anchors: []
   digest: Signed pairing links: how they are built, read and validated. -/

import DashDrop.Foundation.Base64
import DashDrop.Foundation.Text
import DashDrop.Runtime.State

set_option autoImplicit false
set_option relaxedAutoImplicit false

namespace DashDrop.Pairing.Link

open DashDrop.Foundation.Base64 DashDrop.Foundation.Text
open DashDrop.Foundation.FileTree (Bytes)
open DashDrop.Runtime.State (saturatingAdd)

def pairingLinkTtlMs : ℕ := 10 * 60 * 1000
def pairingLinkFutureSkewMs : ℕ := 2 * 60 * 1000
def dashdropPairingLead : List Char := "dashdrop://pair?".toList

structure IdentityMigrationProof where
  previousFingerprint : String
  previousPublicKey : String
  signature : String
  deriving DecidableEq

structure ValidatedPairingPayload where
  version : ℕ
  fingerprint : String
  deviceName : String
  verificationCode : String
  issuedAtUnixMs : ℕ
  expiresAtUnixMs : ℕ
  trustModel : String
  signatureVerified : Bool
  migrationProof : Option IdentityMigrationProof
  deriving DecidableEq

structure PairingPayloadV1 where
  version : ℕ
  fingerprint : String
  deviceName : String
  verificationCode : String
  issuedAtUnixMs : ℕ
  deriving DecidableEq

structure PairingPayloadV2Body where
  version : ℕ
  fingerprint : String
  deviceName : String
  verificationCode : String
  issuedAtUnixMs : ℕ
  signerPublicKey : String
  migrationProof : Option IdentityMigrationProof
  deriving DecidableEq

structure PairingPayloadV2 where
  version : ℕ
  fingerprint : String
  deviceName : String
  verificationCode : String
  issuedAtUnixMs : ℕ
  signerPublicKey : String
  signature : String
  migrationProof : Option IdentityMigrationProof
  deriving DecidableEq

abbrev PublicKey := Vector UInt8 32
abbrev Signature := Vector UInt8 64

/-- `ed25519_dalek`, with its private keys as they stand in a PKCS#8 document. -/
structure Ed25519 (SigningKey : Type) where
  fromPkcs8Der : Bytes → Option SigningKey
  verifyingKey : SigningKey → PublicKey
  sign : SigningKey → Bytes → Signature
  /-- `VerifyingKey::from_bytes` accepts the bytes. -/
  isKey : PublicKey → Bool
  verify : PublicKey → Bytes → Signature → Bool

/-- What `serde_json` makes of the payloads. -/
structure SerdeJson (Value : Type) where
  bodyToVec : PairingPayloadV2Body → Bytes
  payloadToVec : PairingPayloadV2 → Bytes
  fromStr : String → Option Value
  /-- `get("version")` and `as_u64`. -/
  version : Value → Option ℕ
  asV1 : Value → Option PairingPayloadV1
  asV2 : Value → Option PairingPayloadV2

structure Identity where
  certDer : Bytes
  keyDer : Bytes
  deriving DecidableEq

def computeFingerprint (sha256 : Bytes → Vector UInt8 32) (certDer : Bytes) : String :=
  String.ofList (standard.encode (sha256 certDer).toList)

def Identity.fingerprint (sha256 : Bytes → Vector UInt8 32) (identity : Identity) : String :=
  computeFingerprint sha256 identity.certDer

def normalizeFingerprint (fingerprint : String) : String :=
  String.ofList (toAsciiUppercase (fingerprint.toList.filter Char.isAlphanum))

def normalizeDeviceName (deviceName : String) : String := trimmed deviceName

/-- One byte goes into one of the three buckets; the arithmetic is that of `u32`. -/
def mixByte (buckets : ℕ × ℕ × ℕ) (entry : UInt8 × ℕ) : ℕ × ℕ × ℕ :=
  let mix (bucket : ℕ) := (bucket * 131 + entry.1.toNat + entry.2 * 17) % 2 ^ 32 % 10000
  match entry.2 % 3 with
  | 0 => (mix buckets.1, buckets.2)
  | 1 => (buckets.1, mix buckets.2.1, buckets.2.2)
  | _ => (buckets.1, buckets.2.1, mix buckets.2.2)

/-- `{part:04}` -/
def fourDigits (part : ℕ) : List Char :=
  List.replicate (4 - (toString part).toList.length) '0' ++ (toString part).toList

def codeFromValue (value : String) : String :=
  if value.isEmpty then "0000-0000-0000"
  else
    let (a, b, c) := (utf8 value).zipIdx.foldl mixByte (0x1357, 0x2468, 0x369c)
    String.ofList (fourDigits a ++ '-' :: fourDigits b ++ '-' :: fourDigits c)

def verificationCodeFromFingerprint (fingerprint : String) : String :=
  codeFromValue (normalizeFingerprint fingerprint)

def pairingPayloadExpiresAtUnixMs (issuedAtUnixMs : ℕ) : ℕ :=
  saturatingAdd issuedAtUnixMs pairingLinkTtlMs

def orFail {α : Type} (text : String) : Option α → Except String α
  | some a => .ok a
  | none => .error text

def decodeData (data : List Char) : Except String String := do
  let bytes ← orFail "Pairing link data is not valid base64url." (urlSafeNoPad.decode data)
  orFail "pairing payload is not valid UTF-8" (fromUtf8 bytes)

def decodePairingPayloadSource (input : String) : Except String String :=
  let raw := trim input.toList
  if raw.isEmpty then .error "Pairing link is empty."
  else
    match afterLead dashdropPairingLead raw with
    | some query => do
        let data ← orFail "Pairing link is missing data."
          ((query.splitOn '&').findSome? (afterLead "data=".toList))
        decodeData data
    | none => if raw.head? = some '{' then .ok (String.ofList raw) else decodeData raw

def validatePayloadFreshness (issuedAtUnixMs now : ℕ) : Except String ℕ :=
  if issuedAtUnixMs = 0 then .error "Pairing payload issue time is missing."
  else if issuedAtUnixMs - now > pairingLinkFutureSkewMs then
    .error "Pairing payload issue time is invalid."
  else
    let expiresAtUnixMs := pairingPayloadExpiresAtUnixMs issuedAtUnixMs
    if now > expiresAtUnixMs then
      .error ("Pairing link expired. Ask the other device to generate a new QR or pairing link.")
    else .ok expiresAtUnixMs

structure CheckedNames where
  fingerprint : String
  deviceName : String

def checkNames (fingerprint deviceName verificationCode : String) : Except String CheckedNames :=
  let names : CheckedNames := ⟨normalizeFingerprint fingerprint, normalizeDeviceName deviceName⟩
  if names.fingerprint.isEmpty then .error "Pairing payload fingerprint is missing."
  else if names.deviceName.isEmpty then .error "Pairing payload device name is missing."
  else if trimmed verificationCode ≠ verificationCodeFromFingerprint names.fingerprint then
    .error "Pairing payload verification code is invalid."
  else .ok names

def validateV1 (payload : PairingPayloadV1) (now : ℕ) : Except String ValidatedPairingPayload := do
  let names ← checkNames payload.fingerprint payload.deviceName payload.verificationCode
  let expiresAtUnixMs ← validatePayloadFreshness payload.issuedAtUnixMs now
  pure {
    version := 1
    fingerprint := names.fingerprint
    deviceName := names.deviceName
    verificationCode := verificationCodeFromFingerprint names.fingerprint
    issuedAtUnixMs := payload.issuedAtUnixMs
    expiresAtUnixMs := expiresAtUnixMs
    trustModel := "legacy_unsigned"
    signatureVerified := false
    migrationProof := none }

/-- `try_into` an array. -/
def toVector (n : ℕ) (bytes : Bytes) : Option (Vector UInt8 n) :=
  if h : bytes.length = n then some ⟨bytes.toArray, by simpa using h⟩ else none

section Crates

variable {SigningKey Value : Type} (ed : Ed25519 SigningKey) (json : SerdeJson Value)

/-- A public key in base64, with the texts for a bad encoding, a bad length and a bad key. -/
def readKey (badText badLength badKey text : String) : Except String PublicKey := do
  let bytes ← orFail badText (standard.decode (trim text.toList))
  let key ← orFail badLength (toVector 32 bytes)
  if ed.isKey key then .ok key else .error badKey

def readSignature (badText badLength text : String) : Except String Signature := do
  let bytes ← orFail badText (standard.decode (trim text.toList))
  orFail badLength (toVector 64 bytes)

def migrationData (newFingerprint : String) (issuedAtUnixMs : ℕ) : Bytes :=
  utf8 (newFingerprint ++ ":" ++ toString issuedAtUnixMs)

def verifyMigration (fingerprint : String) (issuedAtUnixMs : ℕ) :
    Option IdentityMigrationProof → Except String Unit
  | none => .ok ()
  | some proof => do
      let previousKey ← readKey ed "Previous public key in migration proof is invalid."
        "Previous public key length is invalid." "Previous public key is invalid."
        proof.previousPublicKey
      let signature ← readSignature "Migration proof signature encoding is invalid."
        "Migration proof signature length is invalid." proof.signature
      if ed.verify previousKey (migrationData fingerprint issuedAtUnixMs) signature then .ok ()
      else .error "Identity migration proof signature is invalid."

/-- The body whose signature is checked: the payload in its normal form. -/
def signedBody (payload : PairingPayloadV2) (names : CheckedNames) : PairingPayloadV2Body where
  version := 2
  fingerprint := names.fingerprint
  deviceName := names.deviceName
  verificationCode := verificationCodeFromFingerprint names.fingerprint
  issuedAtUnixMs := payload.issuedAtUnixMs
  signerPublicKey := trimmed payload.signerPublicKey
  migrationProof := payload.migrationProof

def validateV2 (payload : PairingPayloadV2) (now : ℕ) : Except String ValidatedPairingPayload := do
  let names ← checkNames payload.fingerprint payload.deviceName payload.verificationCode
  let verifyingKey ← readKey ed "Pairing signer public key is invalid."
    "Pairing signer public key length is invalid." "Pairing signer public key is invalid."
    payload.signerPublicKey
  let signature ← readSignature "Pairing link signature encoding is invalid."
    "Pairing link signature length is invalid." payload.signature
  if !ed.verify verifyingKey (json.bodyToVec (signedBody payload names)) signature then
    .error "Pairing link signature is invalid."
  else
    verifyMigration ed names.fingerprint payload.issuedAtUnixMs payload.migrationProof
    let expiresAtUnixMs ← validatePayloadFreshness payload.issuedAtUnixMs now
    pure {
      version := 2
      fingerprint := names.fingerprint
      deviceName := names.deviceName
      verificationCode := verificationCodeFromFingerprint names.fingerprint
      issuedAtUnixMs := payload.issuedAtUnixMs
      expiresAtUnixMs := expiresAtUnixMs
      trustModel := "signed_link"
      signatureVerified := true
      migrationProof := payload.migrationProof }

def validatePairingInputValue (input : String) (now : ℕ) :
    Except String ValidatedPairingPayload := do
  let payloadSource ← decodePairingPayloadSource input
  let parsed ← orFail "Pairing payload is not valid JSON." (json.fromStr payloadSource)
  let version ← orFail "Unsupported pairing payload version." (json.version parsed)
  match version with
  | 1 => do
      let payload ← orFail "decode legacy pairing payload" (json.asV1 parsed)
      validateV1 payload now
  | 2 => do
      let payload ← orFail "decode signed pairing payload" (json.asV2 parsed)
      validateV2 ed json payload now
  | _ => .error "Unsupported pairing payload version."

def linkOf (payload : PairingPayloadV2) : String :=
  "dashdrop://pair?data=" ++ String.ofList (urlSafeNoPad.encode (json.payloadToVec payload))

/-- The body that an identity signs, and the payload with its signature. -/
def bodyToSign (fingerprint deviceName : String) (issuedAtUnixMs : ℕ) (key : SigningKey) :
    PairingPayloadV2Body where
  version := 2
  fingerprint := fingerprint
  deviceName := deviceName
  verificationCode := verificationCodeFromFingerprint fingerprint
  issuedAtUnixMs := issuedAtUnixMs
  signerPublicKey := String.ofList (standard.encode (ed.verifyingKey key).toList)
  migrationProof := none

def signedPayload (body : PairingPayloadV2Body) (key : SigningKey) : PairingPayloadV2 where
  version := body.version
  fingerprint := body.fingerprint
  deviceName := body.deviceName
  verificationCode := body.verificationCode
  issuedAtUnixMs := body.issuedAtUnixMs
  signerPublicKey := body.signerPublicKey
  signature := String.ofList (standard.encode (ed.sign key (json.bodyToVec body)).toList)
  migrationProof := none

def buildSignedPairingLink (sha256 : Bytes → Vector UInt8 32) (identity : Identity)
    (deviceName : String) (now : ℕ) : Except String String :=
  let fingerprint := normalizeFingerprint (identity.fingerprint sha256)
  let deviceName := normalizeDeviceName deviceName
  if fingerprint.isEmpty then .error "Local pairing fingerprint is missing."
  else if deviceName.isEmpty then .error "Local pairing device name is missing."
  else do
    let key ← orFail "decode local identity key for pairing link" (ed.fromPkcs8Der identity.keyDer)
    let body := bodyToSign ed fingerprint deviceName now key
    pure (linkOf json (signedPayload ed json body key))

end Crates

theorem isAlphanum_of_mem_normalizeFingerprint {fingerprint : String} {c : Char}
    (h : c ∈ (normalizeFingerprint fingerprint).toList) : c.isAlphanum = true := by
  simp only [normalizeFingerprint, String.toList_ofList, toAsciiUppercase, List.mem_map,
    List.mem_filter] at h
  obtain ⟨d, ⟨-, hd⟩, rfl⟩ := h
  exact isAlphanum_toUpper hd

theorem computeFingerprint_ne_normalizeFingerprint (sha256 : Bytes → Vector UInt8 32)
    (certDer : Bytes) (fingerprint : String) :
    computeFingerprint sha256 certDer ≠ normalizeFingerprint fingerprint := by
  intro same
  have padded : '=' ∈ (computeFingerprint sha256 certDer).toList := by
    rw [computeFingerprint, String.toList_ofList]
    exact Variant.pad_mem_encode rfl _ (by simp)
  rw [same] at padded
  exact absurd (isAlphanum_of_mem_normalizeFingerprint padded) (by decide)

theorem normalizeFingerprint_idem (fingerprint : String) :
    normalizeFingerprint (normalizeFingerprint fingerprint) = normalizeFingerprint fingerprint := by
  have all : (normalizeFingerprint fingerprint).toList.filter Char.isAlphanum =
      (normalizeFingerprint fingerprint).toList :=
    List.filter_eq_self.mpr fun c hc => isAlphanum_of_mem_normalizeFingerprint hc
  conv_lhs => rw [normalizeFingerprint, all]
  simp only [normalizeFingerprint, toAsciiUppercase, String.toList_ofList, List.map_map,
    Function.comp_def, toUpper_toUpper]

private theorem fourDigits_solid (n : ℕ) : Solid (fourDigits n) := by
  intro c hc
  rcases List.mem_append.mp hc with hc | hc
  · obtain rfl := (List.mem_replicate.mp hc).2
    decide
  · have digit := isDigit_of_mem_toString hc
    exact isWhitespace_of_isAlphanum (Bool.or_eq_true_iff.mpr (.inr digit))

private theorem dash_solid : Solid ['-'] := by
  intro c hc
  obtain rfl := List.mem_singleton.mp hc
  decide

theorem codeFromValue_solid (value : String) : Solid (codeFromValue value).toList := by
  unfold codeFromValue
  split_ifs
  · exact solid_of_all (by decide)
  · rw [String.toList_ofList]
    have parts (a b c : ℕ) : Solid (fourDigits a ++ '-' :: fourDigits b ++ '-' :: fourDigits c) :=
      ((fourDigits_solid a).append (dash_solid.append (fourDigits_solid b))).append
        (dash_solid.append (fourDigits_solid c))
    exact parts _ _ _

theorem checkNames_normal {fingerprint deviceName : String}
    (hfp : (normalizeFingerprint fingerprint).isEmpty = false)
    (hname : (normalizeDeviceName deviceName).isEmpty = false) :
    checkNames (normalizeFingerprint fingerprint) (normalizeDeviceName deviceName)
      (verificationCodeFromFingerprint (normalizeFingerprint fingerprint)) =
      .ok ⟨normalizeFingerprint fingerprint, normalizeDeviceName deviceName⟩ := by
  have code : trimmed (verificationCodeFromFingerprint (normalizeFingerprint fingerprint)) =
      verificationCodeFromFingerprint (normalizeFingerprint fingerprint) :=
    trimmed_of_solid (codeFromValue_solid _)
  have name : normalizeDeviceName (normalizeDeviceName deviceName) =
      normalizeDeviceName deviceName := trimmed_trimmed deviceName
  simp only [checkNames, normalizeFingerprint_idem, name, hfp, hname, code, ne_eq,
    not_true_eq_false, if_false, Bool.false_eq_true]

theorem toVector_toList {n : ℕ} (bytes : Vector UInt8 n) : toVector n bytes.toList = some bytes := by
  rw [toVector, dif_pos (by simp)]
  rfl

section Crates

variable {SigningKey Value : Type} (ed : Ed25519 SigningKey) (json : SerdeJson Value)

theorem readKey_encoded {key : PublicKey} (valid : ed.isKey key = true)
    (badText badLength badKey : String) :
    readKey ed badText badLength badKey (String.ofList (standard.encode key.toList)) = .ok key := by
  rw [readKey, String.toList_ofList, trim_of_solid (standard_solid _),
    Variant.decode_encode standard_lawful]
  show (orFail badLength (toVector 32 key.toList)).bind _ = _
  rw [toVector_toList]
  show (if ed.isKey key = true then _ else _) = _
  rw [if_pos valid]

theorem readSignature_encoded (signature : Signature) (badText badLength : String) :
    readSignature badText badLength (String.ofList (standard.encode signature.toList)) =
      .ok signature := by
  rw [readSignature, String.toList_ofList, trim_of_solid (standard_solid _),
    Variant.decode_encode standard_lawful]
  show orFail badLength (toVector 64 signature.toList) = _
  rw [toVector_toList]
  rfl

private theorem toList_linkOf (payload : PairingPayloadV2) : (linkOf json payload).toList =
    dashdropPairingLead ++ ("data=".toList ++ urlSafeNoPad.encode (json.payloadToVec payload)) := by
  have start : "dashdrop://pair?data=".toList = dashdropPairingLead ++ "data=".toList := by decide
  have back (cs : List Char) : (String.ofList cs).toList = cs := String.toList_ofList
  refine (String.toList_append ..).trans ?_
  exact (congr_arg₂ (· ++ ·) start (back _)).trans (List.append_assoc _ _ _)

theorem decodePairingPayloadSource_linkOf (payload : PairingPayloadV2) :
    decodePairingPayloadSource (linkOf json payload) =
      orFail "pairing payload is not valid UTF-8" (fromUtf8 (json.payloadToVec payload)) := by
  have whole := toList_linkOf json payload
  obtain ⟨encoded, hencoded⟩ : ∃ encoded, encoded = urlSafeNoPad.encode (json.payloadToVec payload) :=
    ⟨_, rfl⟩
  rw [← hencoded] at whole
  have solid : Solid (linkOf json payload).toList := by
    have lead : Solid (dashdropPairingLead ++ "data=".toList) := solid_of_all (by decide)
    rw [whole, ← List.append_assoc, hencoded]
    exact lead.append (urlSafeNoPad_solid _)
  have joined : '&' ∉ "data=".toList ++ encoded := by
    intro h
    rcases List.mem_append.mp h with h | h
    · revert h
      decide
    · rw [hencoded] at h
      rcases Variant.mem_encode _ h with h | ⟨n, hn, h⟩
      · exact absurd h (by decide)
      · revert h
        revert n
        decide
  have single : ("data=".toList ++ encoded).splitOn '&' = ["data=".toList ++ encoded] :=
    List.splitOnP_eq_singleton fun c hc => by
      simp only [beq_eq_false_iff_ne, ne_eq]
      rintro rfl
      exact joined hc
  have query : afterLead dashdropPairingLead (dashdropPairingLead ++ ("data=".toList ++ encoded)) =
      some ("data=".toList ++ encoded) := by simp [afterLead]
  have data : afterLead "data=".toList ("data=".toList ++ encoded) = some encoded := by
    simp [afterLead]
  rw [decodePairingPayloadSource, trim_of_solid solid, whole]
  simp only [query, single, List.findSome?_cons, data]
  show decodeData encoded = _
  rw [decodeData, hencoded, Variant.decode_encode urlSafeNoPad_lawful]
  rfl

theorem exists_ok_of_bind {ε α β : Type} {x : Except ε α} {f : α → Except ε β} {b : β}
    (h : (x >>= f) = .ok b) : ∃ a, x = .ok a ∧ f a = .ok b := by
  cases x with
  | error e => cases h
  | ok a => exact ⟨a, rfl, h⟩

theorem exists_some_of_orFail {α : Type} {text : String} {o : Option α} {a : α}
    (h : orFail text o = .ok a) : o = some a := by
  cases o with
  | none => cases h
  | some b => exact congrArg some (Except.ok.inj h)

theorem checkNames_ok {fingerprint deviceName verificationCode : String} {names : CheckedNames}
    (h : checkNames fingerprint deviceName verificationCode = .ok names) :
    names = ⟨normalizeFingerprint fingerprint, normalizeDeviceName deviceName⟩ := by
  simp only [checkNames] at h
  split_ifs at h
  exact (Except.ok.inj h).symm

/-- The key that a payload of the second version is checked with, and its signature. -/
def signerKey (payload : PairingPayloadV2) : Except String PublicKey :=
  readKey ed "Pairing signer public key is invalid." "Pairing signer public key length is invalid."
    "Pairing signer public key is invalid." payload.signerPublicKey

def linkSignature (payload : PairingPayloadV2) : Except String Signature :=
  readSignature "Pairing link signature encoding is invalid."
    "Pairing link signature length is invalid." payload.signature

def previousKey (proof : IdentityMigrationProof) : Except String PublicKey :=
  readKey ed "Previous public key in migration proof is invalid."
    "Previous public key length is invalid." "Previous public key is invalid."
    proof.previousPublicKey

def migrationSignature (proof : IdentityMigrationProof) : Except String Signature :=
  readSignature "Migration proof signature encoding is invalid."
    "Migration proof signature length is invalid." proof.signature

structure Accepted (payload : PairingPayloadV2) (v : ValidatedPairingPayload) : Prop where
  fingerprint : v.fingerprint = normalizeFingerprint payload.fingerprint
  migrationProof : v.migrationProof = payload.migrationProof
  signed : ∃ key signature, signerKey ed payload = .ok key ∧ linkSignature payload = .ok signature ∧
    ed.verify key (json.bodyToVec (signedBody payload ⟨v.fingerprint, v.deviceName⟩)) signature = true
  migrated : ∀ proof, v.migrationProof = some proof → ∃ key signature,
    previousKey ed proof = .ok key ∧ migrationSignature proof = .ok signature ∧
    ed.verify key (migrationData v.fingerprint payload.issuedAtUnixMs) signature = true

theorem verifyMigration_ok {fingerprint : String} {issuedAtUnixMs : ℕ}
    {proof : IdentityMigrationProof}
    (h : verifyMigration ed fingerprint issuedAtUnixMs (some proof) = .ok ()) :
    ∃ key signature, previousKey ed proof = .ok key ∧ migrationSignature proof = .ok signature ∧
      ed.verify key (migrationData fingerprint issuedAtUnixMs) signature = true := by
  obtain ⟨key, hkey, h⟩ := exists_ok_of_bind h
  obtain ⟨signature, hsignature, h⟩ := exists_ok_of_bind h
  split_ifs at h with verified
  exact ⟨key, signature, hkey, hsignature, verified⟩

theorem validateV2_ok {payload : PairingPayloadV2} {now : ℕ} {v : ValidatedPairingPayload}
    (h : validateV2 ed json payload now = .ok v) : Accepted ed json payload v := by
  obtain ⟨names, named, h⟩ := exists_ok_of_bind h
  obtain rfl := checkNames_ok named
  obtain ⟨key, hkey, h⟩ := exists_ok_of_bind h
  obtain ⟨signature, hsignature, h⟩ := exists_ok_of_bind h
  split_ifs at h with refused
  obtain ⟨_, migrated, h⟩ := exists_ok_of_bind h
  obtain ⟨expires, fresh, h⟩ := exists_ok_of_bind h
  obtain rfl := Except.ok.inj h
  refine ⟨rfl, rfl, ⟨key, signature, hkey, hsignature, by simpa using refused⟩, ?_⟩
  intro proof carried
  have same : payload.migrationProof = some proof := carried
  rw [same] at migrated
  exact verifyMigration_ok ed migrated

/-- An accepted input is a payload of the first version, or a signed one that passed. -/
theorem validatePairingInputValue_ok {input : String} {now : ℕ} {v : ValidatedPairingPayload}
    (h : validatePairingInputValue ed json input now = .ok v) :
    (v.signatureVerified = false ∧ ∃ fingerprint, v.fingerprint = normalizeFingerprint fingerprint) ∨
    ∃ source parsed payload, decodePairingPayloadSource input = .ok source ∧
      json.fromStr source = some parsed ∧ json.asV2 parsed = some payload ∧
      Accepted ed json payload v := by
  obtain ⟨source, hsource, h⟩ := exists_ok_of_bind h
  obtain ⟨parsed, hparsed, h⟩ := exists_ok_of_bind h
  obtain ⟨version, hversion, h⟩ := exists_ok_of_bind h
  split at h
  · obtain ⟨payload, hpayload, h⟩ := exists_ok_of_bind h
    obtain ⟨names, named, h⟩ := exists_ok_of_bind h
    obtain rfl := checkNames_ok named
    obtain ⟨expires, fresh, h⟩ := exists_ok_of_bind h
    obtain rfl := Except.ok.inj h
    exact .inl ⟨rfl, _, rfl⟩
  · obtain ⟨payload, hpayload, h⟩ := exists_ok_of_bind h
    exact .inr ⟨source, parsed, payload, hsource, exists_some_of_orFail hparsed,
      exists_some_of_orFail hpayload, validateV2_ok ed json h⟩
  · cases h

theorem fingerprint_normal_of_ok {input : String} {now : ℕ} {v : ValidatedPairingPayload}
    (h : validatePairingInputValue ed json input now = .ok v) :
    ∃ fingerprint, v.fingerprint = normalizeFingerprint fingerprint := by
  rcases validatePairingInputValue_ok ed json h with ⟨-, normal⟩ | ⟨_, _, payload, _, _, _, accepted⟩
  · exact normal
  · exact ⟨payload.fingerprint, accepted.fingerprint⟩

/-- The payload is read back from its own bytes. -/
def ReadsBack (payload : PairingPayloadV2) : Prop :=
  ∃ source parsed, fromUtf8 (json.payloadToVec payload) = some source ∧
    json.fromStr source = some parsed ∧ json.version parsed = some 2 ∧
    json.asV2 parsed = some payload

/-- What the validator returns for a signed link without a migration proof. -/
def validatedLink (fingerprint deviceName : String) (issuedAtUnixMs expiresAtUnixMs : ℕ) :
    ValidatedPairingPayload where
  version := 2
  fingerprint := fingerprint
  deviceName := deviceName
  verificationCode := verificationCodeFromFingerprint fingerprint
  issuedAtUnixMs := issuedAtUnixMs
  expiresAtUnixMs := expiresAtUnixMs
  trustModel := "signed_link"
  signatureVerified := true
  migrationProof := none

/-- A body that some key has signed passes all checks but the one of its time, whatever fingerprint
it names. -/
theorem validate_signedPayload_map {fingerprint deviceName : String} {issuedAtUnixMs now : ℕ}
    {key : SigningKey} {body : PairingPayloadV2Body}
    (hbody : body = bodyToSign ed (normalizeFingerprint fingerprint)
      (normalizeDeviceName deviceName) issuedAtUnixMs key)
    (hfp : (normalizeFingerprint fingerprint).isEmpty = false)
    (hname : (normalizeDeviceName deviceName).isEmpty = false)
    (reads : ReadsBack json (signedPayload ed json body key))
    (valid : ed.isKey (ed.verifyingKey key) = true)
    (verifies : ed.verify (ed.verifyingKey key) (json.bodyToVec body)
      (ed.sign key (json.bodyToVec body)) = true) :
    validatePairingInputValue ed json (linkOf json (signedPayload ed json body key)) now =
      (validatePayloadFreshness issuedAtUnixMs now).map (validatedLink
        (normalizeFingerprint fingerprint) (normalizeDeviceName deviceName) issuedAtUnixMs) := by
  obtain ⟨source, parsed, hsource, hparsed, hversion, hpayload⟩ := reads
  have keyText : trimmed body.signerPublicKey = body.signerPublicKey := by
    simp only [hbody, bodyToSign]
    exact trimmed_of_solid (by simpa using standard_solid _)
  have rebuilt : signedBody (signedPayload ed json body key)
      ⟨normalizeFingerprint fingerprint, normalizeDeviceName deviceName⟩ = body := by
    simp only [signedBody, signedPayload, keyText]
    simp only [hbody, bodyToSign]
  have named : checkNames (signedPayload ed json body key).fingerprint
      (signedPayload ed json body key).deviceName
      (signedPayload ed json body key).verificationCode = .ok ⟨normalizeFingerprint fingerprint,
        normalizeDeviceName deviceName⟩ := by
    simp only [signedPayload, hbody, bodyToSign]
    exact checkNames_normal hfp hname
  have keyRead (a b c : String) : readKey ed a b c (signedPayload ed json body key).signerPublicKey =
      .ok (ed.verifyingKey key) := by
    simp only [signedPayload, hbody, bodyToSign]
    exact readKey_encoded ed valid a b c
  have signatureRead (a b : String) : readSignature a b (signedPayload ed json body key).signature =
      .ok (ed.sign key (json.bodyToVec body)) := readSignature_encoded _ a b
  have issued : (signedPayload ed json body key).issuedAtUnixMs = issuedAtUnixMs := by
    simp only [signedPayload, hbody, bodyToSign]
  have passed : validateV2 ed json (signedPayload ed json body key) now =
      (validatePayloadFreshness issuedAtUnixMs now).map (validatedLink
        (normalizeFingerprint fingerprint) (normalizeDeviceName deviceName) issuedAtUnixMs) := by
    simp only [validateV2, named, keyRead, signatureRead, rebuilt, verifies, issued, bind,
      Except.bind, Bool.not_true, Bool.false_eq_true, if_false]
    cases validatePayloadFreshness issuedAtUnixMs now with
    | error cause => rfl
    | ok expires => rfl
  simp only [validatePairingInputValue, decodePairingPayloadSource_linkOf, hsource, hparsed,
    hversion, hpayload, orFail, bind, Except.bind, passed]

theorem validate_signedPayload {fingerprint deviceName : String} {issuedAtUnixMs now expires : ℕ}
    {key : SigningKey} {body : PairingPayloadV2Body}
    (hbody : body = bodyToSign ed (normalizeFingerprint fingerprint)
      (normalizeDeviceName deviceName) issuedAtUnixMs key)
    (hfp : (normalizeFingerprint fingerprint).isEmpty = false)
    (hname : (normalizeDeviceName deviceName).isEmpty = false)
    (reads : ReadsBack json (signedPayload ed json body key))
    (valid : ed.isKey (ed.verifyingKey key) = true)
    (verifies : ed.verify (ed.verifyingKey key) (json.bodyToVec body)
      (ed.sign key (json.bodyToVec body)) = true)
    (fresh : validatePayloadFreshness issuedAtUnixMs now = .ok expires) :
    validatePairingInputValue ed json (linkOf json (signedPayload ed json body key)) now =
      .ok (validatedLink (normalizeFingerprint fingerprint) (normalizeDeviceName deviceName)
        issuedAtUnixMs expires) := by
  rw [validate_signedPayload_map ed json hbody hfp hname reads valid verifies, fresh]
  rfl

theorem buildSignedPairingLink_eq {sha256 : Bytes → Vector UInt8 32} {identity : Identity}
    {deviceName : String} {now : ℕ} {key : SigningKey}
    (hfp : (normalizeFingerprint (identity.fingerprint sha256)).isEmpty = false)
    (hname : (normalizeDeviceName deviceName).isEmpty = false)
    (hkey : ed.fromPkcs8Der identity.keyDer = some key) :
    buildSignedPairingLink ed json sha256 identity deviceName now =
      .ok (linkOf json (signedPayload ed json (bodyToSign ed
        (normalizeFingerprint (identity.fingerprint sha256)) (normalizeDeviceName deviceName) now
        key) key)) := by
  simp only [buildSignedPairingLink, hfp, hname, hkey, orFail, bind, Except.bind,
    Bool.false_eq_true, if_false]
  rfl

end Crates

end DashDrop.Pairing.Link
