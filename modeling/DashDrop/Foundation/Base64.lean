/- GID: DashDrop/Foundation/Base64
   generality: G
   anchors: []
   digest: Base64 over two alphabets, with and without padding, and its round trip. -/

import DashDrop.Foundation.Text

set_option autoImplicit false
set_option relaxedAutoImplicit false

namespace DashDrop.Foundation.Base64

/-- The two variants: their last two symbols, and whether the text is padded. -/
structure Variant where
  plus : Char
  slash : Char
  padded : Bool
  deriving DecidableEq

def standard : Variant := ⟨'+', '/', true⟩
def urlSafeNoPad : Variant := ⟨'-', '_', false⟩

namespace Variant

variable (v : Variant)

def symbol (n : ℕ) : Char :=
  if n < 26 then Char.ofNat (65 + n)
  else if n < 52 then Char.ofNat (97 + (n - 26))
  else if n < 62 then Char.ofNat (48 + (n - 52))
  else if n = 62 then v.plus
  else v.slash

def value (c : Char) : Option ℕ :=
  if 'A' ≤ c ∧ c ≤ 'Z' then some (c.toNat - 65)
  else if 'a' ≤ c ∧ c ≤ 'z' then some (c.toNat - 97 + 26)
  else if '0' ≤ c ∧ c ≤ '9' then some (c.toNat - 48 + 52)
  else if c = v.plus then some 62
  else if c = v.slash then some 63
  else none

def pad (n : ℕ) : List Char := if v.padded then List.replicate n '=' else []

def encode : List UInt8 → List Char
  | [] => []
  | [a] => [v.symbol (a.toNat / 4), v.symbol (a.toNat % 4 * 16)] ++ v.pad 2
  | [a, b] =>
      [v.symbol (a.toNat / 4), v.symbol (a.toNat % 4 * 16 + b.toNat / 16),
        v.symbol (b.toNat % 16 * 4)] ++ v.pad 1
  | a :: b :: c :: rest =>
      [v.symbol (a.toNat / 4), v.symbol (a.toNat % 4 * 16 + b.toNat / 16),
        v.symbol (b.toNat % 16 * 4 + c.toNat / 64), v.symbol (c.toNat % 64)] ++ encode rest

/-- Two symbols that close the text; the bits they leave over must be zero. -/
def lastOne (c d : Char) : Option (List UInt8) := do
  let x ← v.value c
  let y ← v.value d
  if y % 16 = 0 then some [UInt8.ofNat (x * 4 + y / 16)] else none

def lastTwo (c d e : Char) : Option (List UInt8) := do
  let x ← v.value c
  let y ← v.value d
  let z ← v.value e
  if z % 4 = 0 then some [UInt8.ofNat (x * 4 + y / 16), UInt8.ofNat (y % 16 * 16 + z / 4)]
  else none

def quantum (c d e f : Char) : Option (List UInt8) := do
  let x ← v.value c
  let y ← v.value d
  let z ← v.value e
  let u ← v.value f
  some [UInt8.ofNat (x * 4 + y / 16), UInt8.ofNat (y % 16 * 16 + z / 4),
    UInt8.ofNat (z % 4 * 64 + u)]

/-- Padding, where it is used, is required; where it is not, it is no symbol. -/
def decode : List Char → Option (List UInt8)
  | [] => some []
  | [_] => none
  | [c, d] => if v.padded then none else v.lastOne c d
  | [c, d, e] => if v.padded then none else v.lastTwo c d e
  | c :: d :: e :: f :: rest =>
      if v.padded ∧ rest = [] ∧ f = '=' then
        if e = '=' then v.lastOne c d else v.lastTwo c d e
      else (v.quantum c d e f).bind fun front => (decode rest).map fun back => front ++ back

/-- The text is read back symbol by symbol, and the padding is no symbol. -/
structure Lawful : Prop where
  value_symbol : ∀ n < 64, v.value (v.symbol n) = some n
  symbol_ne_pad : ∀ n < 64, v.symbol n ≠ '='

end Variant

theorem standard_lawful : standard.Lawful := ⟨by decide, by decide⟩

theorem urlSafeNoPad_lawful : urlSafeNoPad.Lawful := ⟨by decide, by decide⟩

namespace Variant

variable {v : Variant}

private theorem ofNat_of_eq {a : UInt8} {n : ℕ} (h : n = a.toNat) : UInt8.ofNat n = a := by
  rw [h]
  exact UInt8.ofNat_toNat

section Groups

variable (a b c : UInt8)

theorem lastOne_encoded (hv : v.Lawful) :
    v.lastOne (v.symbol (a.toNat / 4)) (v.symbol (a.toNat % 4 * 16)) = some [a] := by
  have ha := a.toNat_lt
  simp only [lastOne, hv.value_symbol _ (show a.toNat / 4 < 64 by omega),
    hv.value_symbol _ (show a.toNat % 4 * 16 < 64 by omega), Option.bind_eq_bind,
    Option.bind_some]
  rw [if_pos (by omega), ofNat_of_eq (a := a) (by omega)]

theorem lastTwo_encoded (hv : v.Lawful) :
    v.lastTwo (v.symbol (a.toNat / 4)) (v.symbol (a.toNat % 4 * 16 + b.toNat / 16))
      (v.symbol (b.toNat % 16 * 4)) = some [a, b] := by
  have ha := a.toNat_lt
  have hb := b.toNat_lt
  simp only [lastTwo, hv.value_symbol _ (show a.toNat / 4 < 64 by omega),
    hv.value_symbol _ (show a.toNat % 4 * 16 + b.toNat / 16 < 64 by omega),
    hv.value_symbol _ (show b.toNat % 16 * 4 < 64 by omega), Option.bind_eq_bind,
    Option.bind_some]
  rw [if_pos (by omega), ofNat_of_eq (a := a) (by omega), ofNat_of_eq (a := b) (by omega)]

theorem quantum_encoded (hv : v.Lawful) :
    v.quantum (v.symbol (a.toNat / 4)) (v.symbol (a.toNat % 4 * 16 + b.toNat / 16))
      (v.symbol (b.toNat % 16 * 4 + c.toNat / 64)) (v.symbol (c.toNat % 64)) =
      some [a, b, c] := by
  have ha := a.toNat_lt
  have hb := b.toNat_lt
  have hc := c.toNat_lt
  simp only [quantum, hv.value_symbol _ (show a.toNat / 4 < 64 by omega),
    hv.value_symbol _ (show a.toNat % 4 * 16 + b.toNat / 16 < 64 by omega),
    hv.value_symbol _ (show b.toNat % 16 * 4 + c.toNat / 64 < 64 by omega),
    hv.value_symbol _ (show c.toNat % 64 < 64 by omega), Option.bind_eq_bind, Option.bind_some]
  rw [ofNat_of_eq (a := a) (by omega), ofNat_of_eq (a := b) (by omega),
    ofNat_of_eq (a := c) (by omega)]

end Groups

theorem decode_encode (hv : v.Lawful) (bytes : List UInt8) :
    v.decode (v.encode bytes) = some bytes := by
  induction bytes using encode.induct with
  | case1 => rfl
  | case2 a =>
    cases hp : v.padded with
    | true => simp [encode, decode, pad, hp, lastOne_encoded a hv]
    | false => simp [encode, decode, pad, hp, lastOne_encoded a hv]
  | case3 a b =>
    have hb := b.toNat_lt
    have plain := hv.symbol_ne_pad _ (show b.toNat % 16 * 4 < 64 by omega)
    cases hp : v.padded with
    | true => simp [encode, decode, pad, hp, lastTwo_encoded a b hv, plain]
    | false => simp [encode, decode, pad, hp, lastTwo_encoded a b hv]
  | case4 a b c rest ih =>
    have plain := hv.symbol_ne_pad _ (Nat.mod_lt c.toNat (show 64 > 0 by omega))
    simp only [encode, List.cons_append, List.nil_append, decode]
    rw [if_neg (fun h => plain h.2.2), quantum_encoded a b c hv, ih]
    rfl

theorem mem_encode {c : Char} (bytes : List UInt8) (h : c ∈ v.encode bytes) :
    c = '=' ∨ ∃ n < 64, c = v.symbol n := by
  have padding {n : ℕ} (hc : c ∈ v.pad n) : c = '=' := by
    unfold pad at hc
    split at hc
    · exact (List.mem_replicate.mp hc).2
    · simp at hc
  induction bytes using encode.induct with
  | case1 => simp [encode] at h
  | case2 a =>
    have ha := a.toNat_lt
    simp only [encode, List.cons_append, List.nil_append, List.mem_cons] at h
    rcases h with rfl | rfl | h
    · exact .inr ⟨_, by omega, rfl⟩
    · exact .inr ⟨_, by omega, rfl⟩
    · exact .inl (padding h)
  | case3 a b =>
    have ha := a.toNat_lt
    have hb := b.toNat_lt
    simp only [encode, List.cons_append, List.nil_append, List.mem_cons] at h
    rcases h with rfl | rfl | rfl | h
    · exact .inr ⟨_, by omega, rfl⟩
    · exact .inr ⟨_, by omega, rfl⟩
    · exact .inr ⟨_, by omega, rfl⟩
    · exact .inl (padding h)
  | case4 a b c rest ih =>
    have ha := a.toNat_lt
    have hb := b.toNat_lt
    have hc := c.toNat_lt
    simp only [encode, List.cons_append, List.nil_append, List.mem_cons] at h
    rcases h with rfl | rfl | rfl | rfl | h
    · exact .inr ⟨_, by omega, rfl⟩
    · exact .inr ⟨_, by omega, rfl⟩
    · exact .inr ⟨_, by omega, rfl⟩
    · exact .inr ⟨_, by omega, rfl⟩
    · exact ih h

theorem pad_mem_encode (hp : v.padded = true) (bytes : List UInt8) (h : bytes.length % 3 = 2) :
    '=' ∈ v.encode bytes := by
  induction bytes using encode.induct with
  | case1 => simp at h
  | case2 a => simp at h
  | case3 a b => simp [encode, pad, hp]
  | case4 a b c rest ih =>
    simp only [List.length_cons] at h
    exact List.mem_append_right _ (ih (by omega))

end Variant

open DashDrop.Foundation.Text

private theorem symbols_solid (v : Variant) (plain : ∀ n < 64, isWhitespace (v.symbol n) = false)
    (bytes : List UInt8) : Solid (v.encode bytes) := by
  intro c hc
  rcases Variant.mem_encode bytes hc with rfl | ⟨n, hn, rfl⟩
  · decide
  · exact plain n hn

theorem standard_solid (bytes : List UInt8) : Solid (standard.encode bytes) :=
  symbols_solid standard (by decide) bytes

theorem urlSafeNoPad_solid (bytes : List UInt8) : Solid (urlSafeNoPad.encode bytes) :=
  symbols_solid urlSafeNoPad (by decide) bytes

end DashDrop.Foundation.Base64
