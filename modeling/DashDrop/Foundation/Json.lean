/- GID: DashDrop/Foundation/Json
   generality: G
   anchors: []
   digest: JSON values as a parsed document holds them, and how fields are read from them. -/

import Mathlib.Data.List.Basic

set_option autoImplicit false
set_option relaxedAutoImplicit false

namespace DashDrop.Foundation.Json

/-- A number is kept as the narrowest of the three that it was written as. -/
inductive Number where
  /-- Below `2 ^ 64`. -/
  | posInt (n : ℕ)
  /-- `-(n + 1)`, not below `-2 ^ 63`. -/
  | negInt (n : ℕ)
  | float (bits : BitVec 64)
  deriving DecidableEq

/-- The fields of an object stand in the order in which the map yields them. -/
inductive Value where
  | null
  | bool (b : Bool)
  | number (n : Number)
  | string (s : String)
  | array (items : List Value)
  | object (fields : List (String × Value))

namespace Value

def asObject : Value → Option (List (String × Value))
  | .object fields => some fields
  | _ => none

def asStr : Value → Option String
  | .string s => some s
  | _ => none

def asArray : Value → Option (List Value)
  | .array items => some items
  | _ => none

def nat (n : ℕ) : Value := .number (.posInt n)

def opt {α : Type} (write : α → Value) : Option α → Value
  | none => .null
  | some a => write a

end Value

end DashDrop.Foundation.Json
