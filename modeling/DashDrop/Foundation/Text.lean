/- GID: DashDrop/Foundation/Text
   generality: G
   anchors: []
   digest: Substring search, white space and ASCII case on character lists. -/

import Mathlib.Data.List.DropRight
import Mathlib.Data.List.TakeWhile

set_option autoImplicit false
set_option relaxedAutoImplicit false

namespace DashDrop.Foundation.Text

/-- Does `pattern` occur in the text? -/
def containsText (pattern : List Char) : List Char → Bool
  | [] => pattern.isEmpty
  | c :: cs => pattern.isPrefixOf (c :: cs) || containsText pattern cs

def toAsciiLowercase (s : List Char) : List Char := s.map Char.toLower

def toAsciiUppercase (s : List Char) : List Char := s.map Char.toUpper

/-- The Unicode property `White_Space`. -/
def isWhitespace (c : Char) : Bool :=
  let n := c.toNat
  (9 ≤ n && n ≤ 13) || n = 0x20 || n = 0x85 || n = 0xA0 || n = 0x1680 ||
    (0x2000 ≤ n && n ≤ 0x200A) || n = 0x2028 || n = 0x2029 || n = 0x202F || n = 0x205F ||
    n = 0x3000

/-- `trim`: without the white space at both ends. -/
def trim (s : List Char) : List Char :=
  ((s.dropWhile isWhitespace).reverse.dropWhile isWhitespace).reverse

/-- `trim_matches`: without the characters at both ends that match. -/
def trimMatches (p : Char → Bool) (s : List Char) : List Char := (s.dropWhile p).rdropWhile p

def Solid (s : List Char) : Prop := ∀ c ∈ s, isWhitespace c = false

theorem solid_of_all {s : List Char} (h : (s.all fun c => !isWhitespace c) = true) : Solid s := by
  intro c hc
  simpa using List.all_eq_true.mp h c hc

theorem Solid.append {s t : List Char} (hs : Solid s) (ht : Solid t) : Solid (s ++ t) :=
  fun c hc => (List.mem_append.mp hc).elim (hs c) (ht c)

private theorem dropWhile_of_solid {s : List Char} (h : Solid s) :
    s.dropWhile isWhitespace = s := by
  cases s with
  | nil => rfl
  | cons c cs => rw [List.dropWhile_cons_of_neg (by simp [h c (by simp)])]

theorem trim_of_solid {s : List Char} (h : Solid s) : trim s = s := by
  have back : Solid s.reverse := fun c hc => h c (List.mem_reverse.mp hc)
  rw [trim, dropWhile_of_solid h, dropWhile_of_solid back, List.reverse_reverse]

theorem trim_trim (s : List Char) : trim (trim s) = trim s := by
  have outer (l : List Char) : trim l = (l.dropWhile isWhitespace).rdropWhile isWhitespace := rfl
  have front : (trim s).dropWhile isWhitespace = trim s := by
    rw [outer]
    have lead := List.rdropWhile_prefix isWhitespace (l := s.dropWhile isWhitespace)
    rw [List.dropWhile_eq_self_iff]
    intro nonempty
    rw [lead.getElem nonempty]
    exact List.dropWhile_get_zero_not _ _ _
  rw [outer (trim s), front, outer s, List.rdropWhile_idempotent]

theorem isAlphanum_iff (c : Char) : c.isAlphanum = true ↔
    (48 ≤ c.toNat ∧ c.toNat ≤ 57) ∨ (65 ≤ c.toNat ∧ c.toNat ≤ 90) ∨
      (97 ≤ c.toNat ∧ c.toNat ≤ 122) := by
  have letters : 'A'.val.toNat = 65 ∧ 'Z'.val.toNat = 90 ∧ 'a'.val.toNat = 97 ∧
      'z'.val.toNat = 122 ∧ '0'.val.toNat = 48 ∧ '9'.val.toNat = 57 := by decide
  have code : c.val.toNat = c.toNat := rfl
  delta Char.isAlphanum Char.isAlpha Char.isUpper Char.isLower Char.isDigit
  simp only [Bool.or_eq_true, Bool.and_eq_true, decide_eq_true_eq, UInt32.le_iff_toNat_le, ge_iff_le,
    code, letters]
  omega

theorem toNat_toUpper (c : Char) :
    c.toUpper.toNat = if 97 ≤ c.toNat ∧ c.toNat ≤ 122 then c.toNat - 32 else c.toNat := by
  have letters : 'a'.val.toNat = 97 ∧ 'z'.val.toNat = 122 ∧
      ('A'.val - 'a'.val).toNat = 2 ^ 32 - 32 := by decide
  have code : c.val.toNat = c.toNat := rfl
  unfold Char.toUpper
  split
  · rename_i lower
    simp only [UInt32.le_iff_toNat_le, letters.1, letters.2.1, code] at lower
    rw [if_pos lower]
    show (c.val + ('A'.val - 'a'.val)).toNat = _
    rw [UInt32.toNat_add, letters.2.2, code]
    omega
  · rename_i lower
    simp only [UInt32.le_iff_toNat_le, letters.1, letters.2.1, code] at lower
    rw [if_neg lower]

theorem isAlphanum_toUpper {c : Char} (h : c.isAlphanum = true) : c.toUpper.isAlphanum = true := by
  rw [isAlphanum_iff] at h ⊢
  rw [toNat_toUpper]
  split <;> omega

theorem toUpper_toUpper (c : Char) : c.toUpper.toUpper = c.toUpper := by
  apply Char.toNat_inj.mp
  rw [toNat_toUpper c.toUpper, if_neg]
  rw [toNat_toUpper c]
  split <;> omega

theorem isWhitespace_of_isAlphanum {c : Char} (h : c.isAlphanum = true) :
    isWhitespace c = false := by
  rw [isAlphanum_iff] at h
  simp only [isWhitespace, Bool.or_eq_false_iff, Bool.and_eq_false_iff, decide_eq_false_iff_not]
  omega

/-- The rest of a text that starts with `lead`. -/
def afterLead (lead s : List Char) : Option (List Char) :=
  if lead.isPrefixOf s then some (s.drop lead.length) else none

def trimmed (s : String) : String := String.ofList (trim s.toList)

theorem trimmed_trimmed (s : String) : trimmed (trimmed s) = trimmed s := by
  simp [trimmed, trim_trim]

theorem trimmed_of_solid {s : String} (h : Solid s.toList) : trimmed s = s := by
  rw [trimmed, trim_of_solid h, String.ofList_toList]

def utf8 (s : String) : List UInt8 := s.toByteArray.data.toList

def fromUtf8 (bytes : List UInt8) : Option String := String.fromUTF8? ⟨bytes.toArray⟩

@[simp] theorem fromUtf8_utf8 (s : String) : fromUtf8 (utf8 s) = some s := by
  have same : (⟨s.toByteArray.data.toList.toArray⟩ : ByteArray) = s.toByteArray := rfl
  simp only [fromUtf8, utf8, same, String.fromUTF8?, s.isValidUTF8, dite_true]
  rfl

theorem isDigit_of_mem_toString {n : ℕ} {c : Char} (h : c ∈ (toString n).toList) :
    c.isDigit = true := by
  rw [show (toString n).toList = Nat.toDigits 10 n by simp [toString, Nat.repr]] at h
  exact Nat.isDigit_of_mem_toDigits (by decide) (by decide) h

theorem toString_injective {m n : ℕ} (h : (toString m).toList = (toString n).toList) : m = n := by
  have hdigits : Nat.toDigits 10 m = Nat.toDigits 10 n := by
    simpa [toString, Nat.repr] using h
  have hvalue := congrArg (fun cs => Nat.ofDigitChars 10 cs 0) hdigits
  simpa only [Nat.ofDigitChars_ten_toDigits] using hvalue

theorem append_cons_unique {α : Type} {c : α} {x y a b : List α} (ha : c ∉ a) (hb : c ∉ b)
    (h : x ++ c :: a = y ++ c :: b) : x = y ∧ a = b := by
  rcases List.append_eq_append_iff.mp h with ⟨d, rfl, hd⟩ | ⟨d, rfl, hd⟩
  · cases d with
    | nil => simpa using hd
    | cons e d =>
      obtain ⟨rfl, rfl⟩ : c = e ∧ a = d ++ c :: b := by simpa using hd
      simp at ha
  · cases d with
    | nil => simpa [eq_comm] using hd
    | cons e d =>
      obtain ⟨rfl, rfl⟩ : c = e ∧ b = d ++ c :: a := by simpa using hd
      simp at hb

theorem containsText_iff {p s : List Char} (hp : p ≠ []) : containsText p s = true ↔ p <:+: s := by
  induction s with
  | nil => simp [containsText, hp]
  | cons c cs ih =>
    rw [containsText, Bool.or_eq_true, List.isPrefixOf_iff_prefix, ih, List.infix_cons_iff]

def utf8Bytes (s : List Char) : List UInt8 := s.flatMap String.utf8EncodeChar

theorem utf8_eq_utf8Bytes (s : String) : utf8 s = utf8Bytes s.toList := by
  rw [utf8, ← String.utf8Encode_toList, List.utf8Encode]
  simp [utf8Bytes]

theorem utf8Bytes_append (s t : List Char) : utf8Bytes (s ++ t) = utf8Bytes s ++ utf8Bytes t :=
  List.flatMap_append

def byteLen (s : List Char) : ℕ := (utf8Bytes s).length

@[simp] theorem byteLen_nil : byteLen [] = 0 := rfl

@[simp] theorem byteLen_cons (c : Char) (s : List Char) :
    byteLen (c :: s) = c.utf8Size + byteLen s := by
  simp [byteLen, utf8Bytes]

theorem byteLen_append (s t : List Char) : byteLen (s ++ t) = byteLen s + byteLen t := by
  rw [byteLen, utf8Bytes_append, List.length_append, byteLen, byteLen]

/-- A text cut at a byte; nothing where the cut is inside a character or behind the end. -/
def splitBytes : ℕ → List Char → Option (List Char × List Char)
  | 0, s => some ([], s)
  | _ + 1, [] => none
  | n + 1, c :: s =>
    if c.utf8Size ≤ n + 1 then
      (splitBytes (n + 1 - c.utf8Size) s).map fun parts => (c :: parts.1, parts.2)
    else none

theorem splitBytes_eq_some {n : ℕ} {s front rest : List Char} :
    splitBytes n s = some (front, rest) ↔ s = front ++ rest ∧ byteLen front = n := by
  induction s generalizing n front with
  | nil =>
    cases n with
    | zero =>
      cases front with
      | nil => simp [splitBytes, eq_comm]
      | cons c front =>
        have some_bytes := c.utf8Size_pos
        simp [splitBytes]
    | succ n =>
      cases front with
      | nil => simp [splitBytes]
      | cons c front => simp [splitBytes]
  | cons c s ih =>
    have some_bytes := c.utf8Size_pos
    cases n with
    | zero =>
      cases front with
      | nil => simp [splitBytes, eq_comm]
      | cons d front =>
        have more := d.utf8Size_pos
        simp only [splitBytes, Option.some.injEq, Prod.mk.injEq, reduceCtorEq, false_and,
          byteLen_cons, false_iff, not_and]
        intro _
        omega
    | succ n =>
      rw [splitBytes]
      cases front with
      | nil =>
        simp only [List.nil_append, byteLen_nil, Nat.right_eq_add, reduceCtorEq, and_false,
          iff_false]
        split_ifs
        · simp
        · simp
      | cons d front =>
        split_ifs with fits
        · rw [Option.map_eq_some_iff]
          constructor
          · rintro ⟨⟨a, b⟩, found, same⟩
            cases same
            obtain ⟨rfl, length⟩ := ih.mp found
            refine ⟨rfl, ?_⟩
            rw [byteLen_cons, length]
            omega
          · rintro ⟨same, length⟩
            cases same
            rw [byteLen_cons] at length
            exact ⟨(front, rest), ih.mpr ⟨rfl, by omega⟩, rfl⟩
        · simp only [false_iff, not_and]
          intro same
          cases same
          rw [byteLen_cons]
          omega

/-- Every character takes one byte. -/
def Ascii (s : List Char) : Prop := ∀ c ∈ s, c.utf8Size = 1

instance (s : List Char) : Decidable (Ascii s) :=
  List.decidableBAll _ s

theorem Ascii.append {s t : List Char} : Ascii (s ++ t) ↔ Ascii s ∧ Ascii t :=
  List.forall_mem_append

theorem Ascii.cons {c : Char} {s : List Char} : Ascii (c :: s) ↔ c.utf8Size = 1 ∧ Ascii s :=
  List.forall_mem_cons

theorem byteLen_of_ascii {s : List Char} (h : Ascii s) : byteLen s = s.length := by
  induction s with
  | nil => rfl
  | cons c s ih =>
    obtain ⟨one, rest⟩ := Ascii.cons.mp h
    rw [byteLen_cons, one, ih rest, List.length_cons, Nat.add_comm]

theorem splitBytes_of_ascii {s : List Char} (h : Ascii s) {n : ℕ} (long : n ≤ s.length) :
    splitBytes n s = some (s.take n, s.drop n) := by
  have all := h
  rw [← List.take_append_drop n s] at all
  have size := byteLen_of_ascii (Ascii.append.mp all).1
  rw [List.length_take, Nat.min_eq_left long] at size
  exact splitBytes_eq_some.mpr ⟨(List.take_append_drop n s).symm, size⟩

theorem eq_of_toUInt8_eq {c d : Char} (hc : c.utf8Size = 1) (hd : d.utf8Size = 1)
    (h : c.val.toUInt8 = d.val.toUInt8) : c = d := by
  rw [Char.utf8Size_eq_one_iff, UInt32.le_iff_toNat_le] at hc hd
  have hn := congrArg UInt8.toNat h
  simp only [UInt32.toNat_toUInt8] at hn
  apply Char.ext
  apply UInt32.toNat_inj.mp
  have limit : (0x7f : UInt32).toNat = 127 := rfl
  omega

theorem utf8EncodeChar_high {c : Char} (h : c.utf8Size ≠ 1) : ∃ a b rest,
    String.utf8EncodeChar c = a :: b :: rest ∧ 128 ≤ a.toNat ∧ 128 ≤ b.toNat := by
  have high (x m : UInt8) (h : 128 ≤ m.toNat) : 128 ≤ (x ||| m).toNat := by
    rw [UInt8.toNat_or]
    exact h.trans Nat.right_le_or
  rcases c.utf8Size_eq with e | e | e | e
  · exact absurd e h
  · have bytes := String.utf8EncodeChar_eq_cons_cons e
    exact ⟨_, _, _, bytes, high _ _ (by decide), high _ _ (by decide)⟩
  · have bytes := String.utf8EncodeChar_eq_cons_cons_cons e
    exact ⟨_, _, _, bytes, high _ _ (by decide), high _ _ (by decide)⟩
  · have bytes := String.utf8EncodeChar_eq_cons_cons_cons_cons e
    exact ⟨_, _, _, bytes, high _ _ (by decide), high _ _ (by decide)⟩

end DashDrop.Foundation.Text
