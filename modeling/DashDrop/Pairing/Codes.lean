/- GID: DashDrop/Pairing/Codes
   source: src-tauri/src/pairing.rs, src/security.ts
   anchors: []
   digest: The verification codes of the application and of its user interface. -/

import DashDrop.Pairing.Link
import Mathlib.Data.List.Lex

set_option autoImplicit false
set_option relaxedAutoImplicit false

namespace DashDrop.Pairing.Codes

open DashDrop.Foundation.Text
open DashDrop.Pairing.Link

/-- A string as its UTF-16 code units. -/
abbrev JsString := List ℕ

/-- The code units of a character; above the first plane it takes two. -/
def codeUnits (c : Char) : JsString :=
  if c.toNat < 0x10000 then [c.toNat]
  else [0xD800 + (c.toNat - 0x10000) / 0x400, 0xDC00 + (c.toNat - 0x10000) % 0x400]

def utf16 (s : String) : JsString := s.toList.flatMap codeUnits

/-- The double next to a natural number; of two the one with an even significand. -/
def toDouble (n : ℕ) : ℕ :=
  if n < 2 ^ 53 then n
  else
    let unit := 2 ^ (Nat.log2 n - 52)
    if 2 * (n % unit) < unit ∨ (2 * (n % unit) = unit ∧ n / unit % 2 = 0) then n / unit * unit
    else (n / unit + 1) * unit

section Security

-- `toUpperCase` where a string is not ASCII
variable (unicodeUpperCase : JsString → JsString)

def upperUnit (u : ℕ) : ℕ := if 97 ≤ u ∧ u ≤ 122 then u - 32 else u

def toUpperCase (s : JsString) : JsString :=
  if s.all (· < 128) then s.map upperUnit else unicodeUpperCase s

/-- What `/[^A-Z0-9]/g` leaves. -/
def isCodeUnit (u : ℕ) : Bool := (65 ≤ u ∧ u ≤ 90) ∨ (48 ≤ u ∧ u ≤ 57)

def normalizedFingerprint (fingerprint : JsString) : JsString :=
  (toUpperCase unicodeUpperCase fingerprint).filter isCodeUnit

/-- One code unit goes into one of the three buckets; the arithmetic is that of doubles. -/
def mixUnit (buckets : ℕ × ℕ × ℕ) (entry : ℕ × ℕ) : ℕ × ℕ × ℕ :=
  let mix (bucket : ℕ) :=
    toDouble (toDouble (toDouble (bucket * 131) + entry.1) + toDouble (entry.2 * 17)) % 10000
  match entry.2 % 3 with
  | 0 => (mix buckets.1, buckets.2)
  | 1 => (buckets.1, mix buckets.2.1, buckets.2.2)
  | _ => (buckets.1, buckets.2.1, mix buckets.2.2)

/-- `padStart(4, "0")` -/
def padStart (s : JsString) : JsString := List.replicate (4 - s.length) 48 ++ s

def jsCodeFromValue (value : JsString) : JsString :=
  if value = [] then utf16 "0000-0000-0000"
  else
    let (a, b, c) := value.zipIdx.foldl mixUnit (0x1357, 0x2468, 0x369c)
    [45].intercalate ([a, b, c].map fun part => padStart (utf16 (toString part)))

def jsVerificationCodeFromFingerprint (fingerprint : JsString) : JsString :=
  jsCodeFromValue (normalizedFingerprint unicodeUpperCase fingerprint)

/-- `sort()`: by code units. -/
def sortStrings (l : List JsString) : List JsString := l.mergeSort fun a b => decide (a ≤ b)

def sharedVerificationCode (localFingerprint peerFingerprint : JsString) : JsString :=
  let pair := [normalizedFingerprint unicodeUpperCase localFingerprint,
    normalizedFingerprint unicodeUpperCase peerFingerprint]
  jsCodeFromValue ([124].intercalate (sortStrings (pair.filter fun s => s ≠ [])))

end Security

theorem toNat_lt_of_ascii {c : Char} (one : c.utf8Size = 1) : c.toNat < 128 := by
  rw [Char.utf8Size_eq_one_iff, UInt32.le_iff_toNat_le] at one
  exact Nat.lt_succ_of_le one

theorem flatMap_codeUnits {l : List Char} (ascii : Ascii l) :
    l.flatMap codeUnits = l.map Char.toNat := by
  induction l with
  | nil => rfl
  | cons c l ih =>
    obtain ⟨one, rest⟩ := Ascii.cons.mp ascii
    have small := toNat_lt_of_ascii one
    rw [List.flatMap_cons, List.map_cons, ih rest, codeUnits, if_pos (by omega)]
    rfl

theorem utf8Bytes_toNat {l : List Char} (ascii : Ascii l) :
    (utf8Bytes l).map UInt8.toNat = l.map Char.toNat := by
  induction l with
  | nil => rfl
  | cons c l ih =>
    obtain ⟨one, rest⟩ := Ascii.cons.mp ascii
    have small := toNat_lt_of_ascii one
    have byte : c.val.toUInt8.toNat = c.toNat := by
      rw [UInt32.toNat_toUInt8]
      exact Nat.mod_eq_of_lt (Nat.lt_trans small (by decide))
    have front : utf8Bytes (c :: l) = c.val.toUInt8 :: utf8Bytes l := by
      simp [utf8Bytes, String.utf8EncodeChar_eq_singleton one]
    rw [front, List.map_cons, List.map_cons, ih rest, byte]

theorem ascii_of_isAlphanum {c : Char} (h : c.isAlphanum = true) : c.utf8Size = 1 := by
  have code := (isAlphanum_iff c).mp h
  rw [Char.utf8Size_eq_one_iff, UInt32.le_iff_toNat_le]
  show c.toNat ≤ 127
  omega

theorem ascii_normalizeFingerprint (fingerprint : String) :
    Ascii (normalizeFingerprint fingerprint).toList := by
  intro c hc
  exact ascii_of_isAlphanum (isAlphanum_of_mem_normalizeFingerprint hc)

theorem isCodeUnit_upperUnit (c : Char) : isCodeUnit (upperUnit c.toNat) = c.isAlphanum := by
  rw [Bool.eq_iff_iff, isAlphanum_iff]
  unfold isCodeUnit upperUnit
  rw [decide_eq_true_iff]
  split_ifs
  · omega
  · omega

theorem filter_upperUnit (l : List Char) :
    ((l.map Char.toNat).map upperUnit).filter isCodeUnit =
      (toAsciiUppercase (l.filter Char.isAlphanum)).map Char.toNat := by
  induction l with
  | nil => rfl
  | cons c l ih =>
    rw [List.map_cons, List.map_cons]
    by_cases letter : c.isAlphanum = true
    · rw [List.filter_cons_of_pos (by rw [isCodeUnit_upperUnit]; exact letter), ih,
        List.filter_cons_of_pos letter]
      show upperUnit c.toNat :: _ = c.toUpper.toNat :: _
      rw [toNat_toUpper]
      rfl
    · rw [List.filter_cons_of_neg (by rw [isCodeUnit_upperUnit]; exact letter), ih,
        List.filter_cons_of_neg letter]

theorem normalizedFingerprint_utf16 (unicodeUpperCase : JsString → JsString) {fingerprint : String}
    (ascii : Ascii fingerprint.toList) :
    normalizedFingerprint unicodeUpperCase (utf16 fingerprint) =
      utf16 (normalizeFingerprint fingerprint) := by
  have all : (fingerprint.toList.map Char.toNat).all (· < 128) = true := by
    rw [List.all_map, List.all_eq_true]
    intro c hc
    simpa using toNat_lt_of_ascii (ascii c hc)
  rw [utf16, utf16, flatMap_codeUnits ascii,
    flatMap_codeUnits (ascii_normalizeFingerprint fingerprint), normalizedFingerprint, toUpperCase,
    if_pos all, filter_upperUnit, normalizeFingerprint, String.toList_ofList]

def Small (buckets : ℕ × ℕ × ℕ) : Prop :=
  buckets.1 < 2 ^ 14 ∧ buckets.2.1 < 2 ^ 14 ∧ buckets.2.2 < 2 ^ 14

theorem toDouble_of_lt {n : ℕ} (h : n < 2 ^ 53) : toDouble n = n := if_pos h

/-- No sum of a short text leaves the range of a `u32`, nor the one of exact doubles. -/
theorem mix_eq {bucket code index : ℕ} (small : bucket < 2 ^ 14) (byte : code < 2 ^ 8)
    (near : index < 2 ^ 27) :
    (bucket * 131 + code + index * 17) % 2 ^ 32 % 10000 =
      toDouble (toDouble (toDouble (bucket * 131) + code) + toDouble (index * 17)) % 10000 := by
  rw [Nat.mod_eq_of_lt (by omega : bucket * 131 + code + index * 17 < 2 ^ 32),
    toDouble_of_lt (by omega : bucket * 131 < 2 ^ 53),
    toDouble_of_lt (by omega : bucket * 131 + code < 2 ^ 53),
    toDouble_of_lt (by omega : index * 17 < 2 ^ 53),
    toDouble_of_lt (by omega : bucket * 131 + code + index * 17 < 2 ^ 53)]

theorem mixByte_eq_mixUnit {buckets : ℕ × ℕ × ℕ} (small : Small buckets) (byte : UInt8)
    {index : ℕ} (near : index < 2 ^ 27) :
    mixByte buckets (byte, index) = mixUnit buckets (byte.toNat, index) ∧
      Small (mixByte buckets (byte, index)) := by
  obtain ⟨a, b, c⟩ := buckets
  obtain ⟨ha, hb, hc⟩ := small
  have code := byte.toNat_lt
  have bound (n : ℕ) : n % 2 ^ 32 % 10000 < 2 ^ 14 :=
    Nat.lt_trans (Nat.mod_lt _ (by decide)) (by decide)
  have place : index % 3 = 0 ∨ index % 3 = 1 ∨ index % 3 = 2 := by omega
  rcases place with h | h | h
  · constructor
    · simp only [mixByte, mixUnit, h, mix_eq ha code near]
    · simp only [mixByte, h]
      exact ⟨bound _, hb, hc⟩
  · constructor
    · simp only [mixByte, mixUnit, h, mix_eq hb code near]
    · simp only [mixByte, h]
      exact ⟨ha, bound _, hc⟩
  · constructor
    · simp only [mixByte, mixUnit, h, mix_eq hc code near]
    · simp only [mixByte, h]
      exact ⟨ha, hb, bound _⟩

theorem foldl_mixByte {bytes : List UInt8} {start : ℕ} (near : start + bytes.length ≤ 2 ^ 27)
    {buckets : ℕ × ℕ × ℕ} (small : Small buckets) :
    (bytes.zipIdx start).foldl mixByte buckets =
      ((bytes.map UInt8.toNat).zipIdx start).foldl mixUnit buckets := by
  induction bytes generalizing start buckets with
  | nil => rfl
  | cons byte bytes ih =>
    rw [List.length_cons] at near
    obtain ⟨same, small'⟩ := mixByte_eq_mixUnit small byte (by omega : start < 2 ^ 27)
    rw [List.zipIdx_cons, List.map_cons, List.zipIdx_cons, List.foldl_cons, List.foldl_cons, ← same]
    exact ih (by omega) small'

theorem ascii_toString (n : ℕ) : Ascii (toString n).toList := by
  intro c hc
  exact ascii_of_isAlphanum (Bool.or_eq_true_iff.mpr (Or.inr (isDigit_of_mem_toString hc)))

theorem padStart_utf16 (n : ℕ) : padStart (utf16 (toString n)) = (fourDigits n).map Char.toNat := by
  rw [padStart, utf16, flatMap_codeUnits (ascii_toString n), fourDigits, List.map_append,
    List.map_replicate, List.length_map]
  rfl

theorem intercalate_groups (a b c : ℕ) :
    [45].intercalate ([a, b, c].map fun part => padStart (utf16 (toString part))) =
      (fourDigits a ++ '-' :: fourDigits b ++ '-' :: fourDigits c).map Char.toNat := by
  simp only [List.map_cons, List.map_nil, padStart_utf16, List.intercalate, List.intersperse,
    List.flatten_cons, List.flatten_nil, List.map_append, List.append_nil, List.append_assoc]
  rfl

theorem ascii_fourDigits (n : ℕ) : Ascii (fourDigits n) := by
  apply Ascii.append.mpr
  constructor
  · intro c hc
    rw [(List.mem_replicate.mp hc).2]
    decide
  · exact ascii_toString n

theorem jsCodeFromValue_utf16 {value : String} (ascii : Ascii value.toList)
    (short : value.toList.length ≤ 2 ^ 27) :
    jsCodeFromValue (utf16 value) = utf16 (codeFromValue value) := by
  have units : utf16 value = (utf8 value).map UInt8.toNat := by
    rw [utf16, flatMap_codeUnits ascii, utf8_eq_utf8Bytes, utf8Bytes_toNat ascii]
  have length : (utf8 value).length ≤ 2 ^ 27 := by
    have same := congrArg List.length (utf8Bytes_toNat ascii)
    rw [List.length_map, List.length_map] at same
    rw [utf8_eq_utf8Bytes]
    omega
  unfold jsCodeFromValue codeFromValue
  by_cases empty : value = ""
  · subst empty
    rfl
  · have some_units : utf16 value ≠ [] := by
      rw [utf16, flatMap_codeUnits ascii]
      simpa using empty
    have some_text : ¬ value.isEmpty = true := by simpa using empty
    have start : Small (0x1357, 0x2468, 0x369c) := ⟨by decide, by decide, by decide⟩
    rw [if_neg some_units, if_neg some_text, units, ← foldl_mixByte (by omega) start]
    generalize (utf8 value).zipIdx.foldl mixByte (0x1357, 0x2468, 0x369c) = buckets
    obtain ⟨a, b, c⟩ := buckets
    have text : Ascii (fourDigits a ++ '-' :: fourDigits b ++ '-' :: fourDigits c) := by
      apply Ascii.append.mpr
      refine ⟨Ascii.append.mpr ⟨ascii_fourDigits a, ?_⟩, ?_⟩
      · exact Ascii.cons.mpr ⟨by decide, ascii_fourDigits b⟩
      · exact Ascii.cons.mpr ⟨by decide, ascii_fourDigits c⟩
    show [45].intercalate ([a, b, c].map fun part => padStart (utf16 (toString part))) =
      utf16 (String.ofList (fourDigits a ++ '-' :: fourDigits b ++ '-' :: fourDigits c))
    rw [intercalate_groups, utf16, String.toList_ofList, flatMap_codeUnits text]

theorem sortStrings_perm {l l' : List JsString} (same : l.Perm l') :
    sortStrings l = sortStrings l' := by
  have sorted (m : List JsString) : (sortStrings m).Pairwise (· ≤ ·) := by
    have trans (a b c : JsString) (hab : decide (a ≤ b) = true) (hbc : decide (b ≤ c) = true) :
        decide (a ≤ c) = true :=
      decide_eq_true (le_trans (of_decide_eq_true hab) (of_decide_eq_true hbc))
    have total (a b : JsString) : (decide (a ≤ b) || decide (b ≤ a)) = true := by
      simpa using le_total a b
    exact (List.pairwise_mergeSort trans total m).imp of_decide_eq_true
  have perm : (sortStrings l).Perm (sortStrings l') :=
    ((List.mergeSort_perm l _).trans same).trans (List.mergeSort_perm l' _).symm
  exact perm.eq_of_pairwise (fun a b _ _ hab hba => le_antisymm hab hba) (sorted l) (sorted l')

/-- Both implementations give the same code, and both ends of a pairing the same shared code. -/
theorem codes_agree (unicodeUpperCase : JsString → JsString) :
    (∀ fingerprint : String, Ascii fingerprint.toList → fingerprint.toList.length < 2 ^ 27 →
      utf16 (verificationCodeFromFingerprint fingerprint) =
        jsVerificationCodeFromFingerprint unicodeUpperCase (utf16 fingerprint)) ∧
    ∀ a b : String, Ascii a.toList → Ascii b.toList →
      sharedVerificationCode unicodeUpperCase (utf16 a) (utf16 (normalizeFingerprint b)) =
        sharedVerificationCode unicodeUpperCase (utf16 b) (utf16 (normalizeFingerprint a)) := by
  constructor
  · intro fingerprint ascii short
    have shorter : (normalizeFingerprint fingerprint).toList.length ≤ 2 ^ 27 := by
      have kept := List.length_filter_le Char.isAlphanum fingerprint.toList
      rw [normalizeFingerprint, String.toList_ofList, toAsciiUppercase, List.length_map]
      omega
    rw [jsVerificationCodeFromFingerprint, normalizedFingerprint_utf16 unicodeUpperCase ascii,
      jsCodeFromValue_utf16 (ascii_normalizeFingerprint fingerprint) shorter]
    rfl
  · intro a b asciiA asciiB
    have normal (s : String) : normalizedFingerprint unicodeUpperCase
        (utf16 (normalizeFingerprint s)) = utf16 (normalizeFingerprint s) := by
      rw [normalizedFingerprint_utf16 unicodeUpperCase (ascii_normalizeFingerprint s),
        normalizeFingerprint_idem]
    unfold sharedVerificationCode
    simp only [normal, normalizedFingerprint_utf16 unicodeUpperCase asciiA,
      normalizedFingerprint_utf16 unicodeUpperCase asciiB]
    rw [sortStrings_perm ((List.Perm.swap _ _ []).filter _)]

theorem padded_fingerprints_agree :
    utf16 (verificationCodeFromFingerprint "ab+c=") =
        jsVerificationCodeFromFingerprint id (utf16 "ab+c=") ∧
      sharedVerificationCode id (utf16 "ab+c=") (utf16 (normalizeFingerprint "q/9")) =
        sharedVerificationCode id (utf16 "q/9") (utf16 (normalizeFingerprint "ab+c=")) := by
  have first : Ascii "ab+c=".toList := by decide
  have second : Ascii "q/9".toList := by decide
  exact ⟨(codes_agree id).1 _ first (by decide), (codes_agree id).2 _ _ first second⟩

end DashDrop.Pairing.Codes
