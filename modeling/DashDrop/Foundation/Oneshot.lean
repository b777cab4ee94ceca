/- GID: DashDrop/Foundation/Oneshot
   generality: G
   anchors: []
   digest: A one-value channel whose receiver may give up and whose sender may be dropped. -/

import Mathlib.Data.Nat.Notation

set_option autoImplicit false
set_option relaxedAutoImplicit false

namespace DashDrop.Foundation.Oneshot

inductive Channel (α : Type) where
  /-- No value yet, both ends alive. -/
  | empty
  /-- A value waits for the receiver. -/
  | sent (v : α)
  /-- The receiver has the value. -/
  | received (v : α)
  /-- The sender went away without a value. -/
  | dropped
  /-- The receiver gave up first. -/
  | closed
  deriving DecidableEq

inductive Wait (α : Type) where
  | value (v : α)
  | senderGone
  | timedOut
  deriving DecidableEq

variable {α : Type}

def Channel.send : Channel α → α → Channel α
  | .empty, v => .sent v
  | c, _ => c

def Channel.dropSender : Channel α → Channel α
  | .empty => .dropped
  | c => c

/-- A waiting value or a lost sender is noticed before the timer. -/
def Channel.wait (timer : Bool) : Channel α → Option (Channel α × Wait α)
  | .sent v => some (.received v, .value v)
  | .dropped => some (.dropped, .senderGone)
  | .empty => if timer then some (.closed, .timedOut) else none
  | .received _ | .closed => none

def Channel.value? : Channel α → Option α
  | .sent v | .received v => some v
  | .empty | .dropped | .closed => none

theorem value?_wait {c c' : Channel α} {timer : Bool} {heard : Wait α}
    (h : c.wait timer = some (c', heard)) : c'.value? = c.value? := by
  cases c with
  | empty =>
    cases timer with
    | true => cases h; rfl
    | false => cases h
  | sent v => cases h; rfl
  | dropped => cases h; rfl
  | received v => cases h
  | closed => cases h

theorem value?_dropSender (c : Channel α) : c.dropSender.value? = c.value? := by
  cases c <;> rfl

theorem value?_send {c : Channel α} {v v' : α} (h : (c.send v).value? = some v') :
    c.value? = some v' ∨ v = v' := by
  cases c with
  | empty => exact .inr (Option.some.inj h)
  | _ => exact .inl h

theorem value?_of_wait {c c' : Channel α} {timer : Bool} {v : α}
    (h : c.wait timer = some (c', .value v)) : c.value? = some v := by
  cases c with
  | empty =>
    cases timer with
    | true => cases h
    | false => cases h
  | sent w => cases h; rfl
  | dropped => cases h
  | received w => cases h
  | closed => cases h

end DashDrop.Foundation.Oneshot
