/- GID: DashDrop/Foundation/Cbor
   generality: G
   anchors: []
   digest: The CBOR encoding of JSON values with definite and shortest heads, and its length. -/

import DashDrop.Foundation.Json
import DashDrop.Foundation.Text
import Mathlib.Algebra.Ring.Nat

set_option autoImplicit false
set_option relaxedAutoImplicit false

namespace DashDrop.Foundation.Cbor

open DashDrop.Foundation.Json DashDrop.Foundation.Text

/-- The `width` low bytes of a number, the highest first. -/
def bigEndian : ℕ → ℕ → List UInt8
  | 0, _ => []
  | width + 1, n => UInt8.ofNat (n / 256 ^ width) :: bigEndian width n

/-- A head: the major type and its argument in the shortest form. -/
def head (major n : ℕ) : List UInt8 :=
  if n < 24 then [UInt8.ofNat (major * 32 + n)]
  else if n < 2 ^ 8 then UInt8.ofNat (major * 32 + 24) :: bigEndian 1 n
  else if n < 2 ^ 16 then UInt8.ofNat (major * 32 + 25) :: bigEndian 2 n
  else if n < 2 ^ 32 then UInt8.ofNat (major * 32 + 26) :: bigEndian 4 n
  else UInt8.ofNat (major * 32 + 27) :: bigEndian 8 n

def text (s : String) : List UInt8 := head 3 (utf8 s).length ++ utf8 s

mutual

/-- `float` writes a floating point number; encoders differ in how they shorten these. -/
def encode (float : BitVec 64 → List UInt8) : Value → List UInt8
  | .null => [0xf6]
  | .bool b => [if b then 0xf5 else 0xf4]
  | .number (.posInt n) => head 0 n
  | .number (.negInt n) => head 1 n
  | .number (.float bits) => float bits
  | .string s => text s
  | .array items => head 4 items.length ++ encodeItems float items
  | .object fields => head 5 fields.length ++ encodeFields float fields

def encodeItems (float : BitVec 64 → List UInt8) : List Value → List UInt8
  | [] => []
  | item :: rest => encode float item ++ encodeItems float rest

def encodeFields (float : BitVec 64 → List UInt8) : List (String × Value) → List UInt8
  | [] => []
  | (key, value) :: rest => text key ++ encode float value ++ encodeFields float rest

end

variable (float : BitVec 64 → List UInt8)

theorem length_encodeItems (items : List Value) :
    (encodeItems float items).length = (items.map fun item => (encode float item).length).sum := by
  induction items with
  | nil => rfl
  | cons item rest ih => simp [encodeItems, ih]

theorem length_encodeFields (fields : List (String × Value)) :
    (encodeFields float fields).length =
      (fields.map fun field => (text field.1).length + (encode float field.2).length).sum := by
  induction fields with
  | nil => rfl
  | cons field rest ih =>
    obtain ⟨key, value⟩ := field
    simp [encodeFields, ih, Nat.add_assoc]

theorem length_encode_array (items : List Value) :
    (encode float (.array items)).length =
      (head 4 items.length).length + (items.map fun item => (encode float item).length).sum := by
  rw [encode, List.length_append, length_encodeItems]

theorem length_encode_object (fields : List (String × Value)) :
    (encode float (.object fields)).length = (head 5 fields.length).length +
      (fields.map fun field => (text field.1).length + (encode float field.2).length).sum := by
  rw [encode, List.length_append, length_encodeFields]

theorem length_encode_replicate (n : ℕ) (item : Value) :
    (encode float (.array (List.replicate n item))).length =
      (head 4 n).length + n * (encode float item).length := by
  rw [length_encode_array]
  simp

end DashDrop.Foundation.Cbor
