/- GID: DashDrop/Pairing/CodeShape
   source: src-tauri/src/pairing.rs, src/security.ts
   anchors: []
   digest: When a verification code has three groups of four digits. -/

import DashDrop.Pairing.Codes

set_option autoImplicit false
set_option relaxedAutoImplicit false

namespace DashDrop.Pairing.CodeShape

open DashDrop.Foundation.Text
open DashDrop.Pairing.Codes DashDrop.Pairing.Link

def IsGroup (group : List ℕ) : Prop := group.length = 4 ∧ ∀ u ∈ group, 48 ≤ u ∧ u ≤ 57

/-- Three groups with a dash between each two. -/
def IsCode (code : List ℕ) : Prop :=
  ∃ a b c, code = a ++ 45 :: b ++ 45 :: c ∧ IsGroup a ∧ IsGroup b ∧ IsGroup c

def codeText (buckets : ℕ × ℕ × ℕ) : List Char :=
  fourDigits buckets.1 ++ '-' :: fourDigits buckets.2.1 ++ '-' :: fourDigits buckets.2.2

theorem length_fourDigits (part : ℕ) :
    (fourDigits part).length = max 4 (Nat.toDigits 10 part).length := by
  have text : (toString part).toList = Nat.toDigits 10 part := Nat.toList_repr
  rw [fourDigits, List.length_append, List.length_replicate, text]
  omega

theorem length_fourDigits_le_iff (part : ℕ) : (fourDigits part).length ≤ 4 ↔ part < 10000 := by
  have digits := Nat.length_toDigits_le_iff (n := part) (k := 4) (b := 10) (by decide) (by decide)
  rw [length_fourDigits]
  omega

theorem digit_of_mem_fourDigits {part u : ℕ} (h : u ∈ (fourDigits part).map Char.toNat) :
    48 ≤ u ∧ u ≤ 57 := by
  obtain ⟨c, hc, rfl⟩ := List.mem_map.mp h
  rcases List.mem_append.mp hc with hc | hc
  · rw [(List.mem_replicate.mp hc).2]
    decide
  · have digit := isDigit_of_mem_toString hc
    simp only [Char.isDigit, Bool.and_eq_true, decide_eq_true_eq, UInt32.le_iff_toNat_le] at digit
    exact digit

theorem isGroup_fourDigits {part : ℕ} (small : part < 10000) :
    IsGroup ((fourDigits part).map Char.toNat) := by
  constructor
  · have short := (length_fourDigits_le_iff part).mpr small
    have long := length_fourDigits part
    rw [List.length_map]
    omega
  · intro u hu
    exact digit_of_mem_fourDigits hu

/-- The text has the shape of a code if and only if no number takes more than four digits. -/
theorem isCode_codeText (buckets : ℕ × ℕ × ℕ) : IsCode ((codeText buckets).map Char.toNat) ↔
    buckets.1 < 10000 ∧ buckets.2.1 < 10000 ∧ buckets.2.2 < 10000 := by
  constructor
  · rintro ⟨a, b, c, same, ⟨lengthA, -⟩, ⟨lengthB, -⟩, ⟨lengthC, -⟩⟩
    have lengths := congrArg List.length same
    simp only [codeText, List.length_map, List.length_append, List.length_cons, lengthA, lengthB,
      lengthC] at lengths
    have first := length_fourDigits buckets.1
    have second := length_fourDigits buckets.2.1
    have third := length_fourDigits buckets.2.2
    refine ⟨?_, ?_, ?_⟩
    · apply (length_fourDigits_le_iff _).mp
      omega
    · apply (length_fourDigits_le_iff _).mp
      omega
    · apply (length_fourDigits_le_iff _).mp
      omega
  · rintro ⟨first, second, third⟩
    refine ⟨_, _, _, ?_, isGroup_fourDigits first, isGroup_fourDigits second,
      isGroup_fourDigits third⟩
    simp [codeText]

def start : ℕ × ℕ × ℕ := (0x1357, 0x2468, 0x369c)

def bucketAt (index : ℕ) (buckets : ℕ × ℕ × ℕ) : ℕ :=
  match index % 3 with
  | 0 => buckets.1
  | 1 => buckets.2.1
  | _ => buckets.2.2

def setBucket (index value : ℕ) (buckets : ℕ × ℕ × ℕ) : ℕ × ℕ × ℕ :=
  match index % 3 with
  | 0 => (value, buckets.2)
  | 1 => (buckets.1, value, buckets.2.2)
  | _ => (buckets.1, buckets.2.1, value)

/-- The products and the sums of a step, before the remainder is taken. -/
def intermediates (bucket code index : ℕ) : List ℕ :=
  [bucket * 131, bucket * 131 + code, index * 17, bucket * 131 + code + index * 17]

section Loop

variable {α : Type} (mix : ℕ × ℕ × ℕ → α × ℕ → ℕ × ℕ × ℕ) (code : α → ℕ)

/-- No product and no sum of the loop exceeds the range of `u32`. -/
def StaysInRange (value : List α) : Prop :=
  ∀ front entry rest, value.zipIdx = front ++ entry :: rest →
    ∀ t ∈ intermediates (bucketAt entry.2 (front.foldl mix start)) (code entry.1) entry.2,
      t < 2 ^ 32

def Reduces : Prop :=
  ∀ buckets entry, ∃ r, r < 10000 ∧ mix buckets entry = setBucket entry.2 r buckets

/-- A bucket is as it was at the start until an index falls on it, and reduced from then on. -/
def Reduced (n : ℕ) (buckets : ℕ × ℕ × ℕ) : Prop :=
  (buckets.1 < 10000 ∨ n = 0 ∧ buckets.1 = 0x1357) ∧
    (buckets.2.1 < 10000 ∨ n ≤ 1 ∧ buckets.2.1 = 0x2468) ∧
    (2 < n → buckets.2.2 < 10000) ∧ (n ≤ 2 → buckets.2.2 = 0x369c)

theorem reduced_start : Reduced 0 start := by
  simp [Reduced, start]

theorem Reduced.setBucket {n r : ℕ} {buckets : ℕ × ℕ × ℕ} (h : Reduced n buckets)
    (small : r < 10000) : Reduced (n + 1) (setBucket n r buckets) := by
  obtain ⟨a, b, c⟩ := buckets
  obtain ⟨first, second, third, untouched⟩ := h
  have place : n % 3 = 0 ∨ n % 3 = 1 ∨ n % 3 = 2 := by omega
  rcases place with here | here | here
  · simp only [CodeShape.setBucket, Reduced, here] at first second third untouched ⊢
    omega
  · simp only [CodeShape.setBucket, Reduced, here] at first second third untouched ⊢
    omega
  · simp only [CodeShape.setBucket, Reduced, here] at first second third untouched ⊢
    omega

theorem Reduced.bucketAt_lt {n : ℕ} {buckets : ℕ × ℕ × ℕ} (h : Reduced n buckets) :
    bucketAt n buckets < 2 ^ 14 := by
  obtain ⟨a, b, c⟩ := buckets
  obtain ⟨first, second, third, untouched⟩ := h
  have place : n % 3 = 0 ∨ n % 3 = 1 ∨ n % 3 = 2 := by omega
  rcases place with here | here | here
  · simp only [bucketAt, here] at first second third untouched ⊢
    omega
  · simp only [bucketAt, here] at first second third untouched ⊢
    omega
  · simp only [bucketAt, here] at first second third untouched ⊢
    omega

variable {mix code}

theorem Reduces.foldl (reduces : Reduces mix) {value : List α} {n : ℕ} {buckets : ℕ × ℕ × ℕ}
    (h : Reduced n buckets) : Reduced (n + value.length) ((value.zipIdx n).foldl mix buckets) := by
  induction value generalizing n buckets with
  | nil => exact h
  | cons u value ih =>
    obtain ⟨r, small, same⟩ := reduces buckets (u, n)
    have later := ih (h.setBucket small)
    rw [List.zipIdx_cons, List.foldl_cons, same, List.length_cons, Nat.add_comm value.length,
      ← Nat.add_assoc]
    exact later

theorem Reduces.isCode_iff (reduces : Reduces mix) (value : List α) :
    IsCode ((codeText (value.zipIdx.foldl mix start)).map Char.toNat) ↔ 3 ≤ value.length := by
  have reduced : Reduced (0 + value.length) (value.zipIdx.foldl mix start) :=
    reduces.foldl reduced_start
  rw [Nat.zero_add] at reduced
  obtain ⟨first, second, third, untouched⟩ := reduced
  rw [isCode_codeText]
  omega

theorem Reduces.staysInRange (reduces : Reduces mix) {value : List α}
    (units : ∀ u ∈ value, code u < 2 ^ 16) (short : value.length < 2 ^ 27) :
    StaysInRange mix code value := by
  intro front entry rest split
  obtain ⟨before, later, rfl, rfl, tail⟩ := List.zipIdx_eq_append_iff.mp split
  obtain ⟨u, later, rfl, rfl, -⟩ := List.zipIdx_eq_cons_iff.mp tail.symm
  have reduced : Reduced (0 + before.length) (before.zipIdx.foldl mix start) :=
    reduces.foldl reduced_start
  have bucket := reduced.bucketAt_lt
  have unit := units u (List.mem_append_right _ List.mem_cons_self)
  rw [List.length_append, List.length_cons] at short
  intro t ht
  simp only [intermediates, List.mem_cons, List.not_mem_nil, or_false] at ht
  rcases ht with rfl | rfl | rfl | rfl
  · omega
  · omega
  · omega
  · omega

end Loop

theorem mixByte_reduces : Reduces mixByte := by
  rintro ⟨a, b, c⟩ ⟨byte, index⟩
  refine ⟨(bucketAt index (a, b, c) * 131 + byte.toNat + index * 17) % 2 ^ 32 % 10000,
    Nat.mod_lt _ (by decide), ?_⟩
  have place : index % 3 = 0 ∨ index % 3 = 1 ∨ index % 3 = 2 := by omega
  rcases place with here | here | here
  · simp only [mixByte, setBucket, bucketAt, here]
  · simp only [mixByte, setBucket, bucketAt, here]
  · simp only [mixByte, setBucket, bucketAt, here]

theorem mixUnit_reduces : Reduces mixUnit := by
  rintro ⟨a, b, c⟩ ⟨unit, index⟩
  refine ⟨toDouble (toDouble (toDouble (bucketAt index (a, b, c) * 131) + unit) +
    toDouble (index * 17)) % 10000, Nat.mod_lt _ (by decide), ?_⟩
  have place : index % 3 = 0 ∨ index % 3 = 1 ∨ index % 3 = 2 := by omega
  rcases place with here | here | here
  · simp only [mixUnit, setBucket, bucketAt, here]
  · simp only [mixUnit, setBucket, bucketAt, here]
  · simp only [mixUnit, setBucket, bucketAt, here]

theorem isCode_zeros : IsCode ("0000-0000-0000".toList.map Char.toNat) := by
  have zeros : IsGroup [48, 48, 48, 48] := by
    refine ⟨rfl, ?_⟩
    intro u hu
    simp only [List.mem_cons, List.not_mem_nil, or_false, or_self] at hu
    omega
  exact ⟨_, _, _, rfl, zeros, zeros, zeros⟩

theorem isCode_codeFromValue (value : String) :
    IsCode ((codeFromValue value).toList.map Char.toNat) ↔
      value = "" ∨ 3 ≤ (utf8 value).length := by
  unfold codeFromValue
  by_cases empty : value = ""
  · subst empty
    exact iff_of_true isCode_zeros (Or.inl rfl)
  · have filled : ¬ value.isEmpty = true := by simpa using empty
    have text : (String.ofList (codeText ((utf8 value).zipIdx.foldl mixByte start))).toList =
        codeText ((utf8 value).zipIdx.foldl mixByte start) := String.toList_ofList
    have shape := mixByte_reduces.isCode_iff (utf8 value)
    rw [← text] at shape
    rw [if_neg filled, or_iff_right empty]
    exact shape

theorem isCode_jsCodeFromValue (value : JsString) :
    IsCode (jsCodeFromValue value) ↔ value = [] ∨ 3 ≤ value.length := by
  unfold jsCodeFromValue
  by_cases empty : value = []
  · subst empty
    exact iff_of_true isCode_zeros (Or.inl rfl)
  · have shape := mixUnit_reduces.isCode_iff value
    rw [if_neg empty, or_iff_right empty, ← shape]
    show IsCode ([45].intercalate ([(value.zipIdx.foldl mixUnit start).1,
      (value.zipIdx.foldl mixUnit start).2.1, (value.zipIdx.foldl mixUnit start).2.2].map
        fun part => padStart (utf16 (toString part)))) ↔ _
    rw [intercalate_groups]
    rfl

/-- The third bucket starts above four digits, and an index falls on it only in the third step. -/
theorem code_shape_iff (value : String) {jsValue : JsString} (units : ∀ u ∈ jsValue, u < 2 ^ 16) :
    ((IsCode ((codeFromValue value).toList.map Char.toNat) ∧
        ((utf8 value).length < 2 ^ 27 → StaysInRange mixByte UInt8.toNat (utf8 value))) ↔
      value = "" ∨ 3 ≤ (utf8 value).length) ∧
    ((IsCode (jsCodeFromValue jsValue) ∧
        (jsValue.length < 2 ^ 27 → StaysInRange mixUnit id jsValue)) ↔
      jsValue = [] ∨ 3 ≤ jsValue.length) := by
  constructor
  · have range (short : (utf8 value).length < 2 ^ 27) :
        StaysInRange mixByte UInt8.toNat (utf8 value) :=
      mixByte_reduces.staysInRange (fun byte _ => Nat.lt_trans byte.toNat_lt (by decide)) short
    rw [← isCode_codeFromValue, and_iff_left range]
  · have range (short : jsValue.length < 2 ^ 27) : StaysInRange mixUnit id jsValue :=
      mixUnit_reduces.staysInRange units short
    rw [← isCode_jsCodeFromValue, and_iff_left range]

theorem three_letters_in_shape :
    IsCode (jsCodeFromValue (utf16 "ABC")) ∧ StaysInRange mixUnit id (utf16 "ABC") := by
  have units : ∀ u ∈ utf16 "ABC", u < 2 ^ 16 := by decide
  have shape := (code_shape_iff "ABC" units).2.mpr (Or.inr (by decide))
  exact ⟨shape.1, shape.2 (by decide)⟩

/-- A single letter leaves the start value in the third group. -/
theorem one_letter_out_of_shape :
    codeFromValue "A" = "8646-9320-13980" ∧
      jsCodeFromValue (utf16 "A") = utf16 "8646-9320-13980" ∧
      ¬ IsCode ((codeFromValue "A").toList.map Char.toNat) ∧
      ¬ IsCode (jsCodeFromValue (utf16 "A")) := by
  refine ⟨by decide, by decide, ?_, ?_⟩
  · rw [isCode_codeFromValue]
    decide
  · rw [isCode_jsCodeFromValue]
    decide

end DashDrop.Pairing.CodeShape
