/- GID: DashDrop/Foundation/Program
   generality: G
   anchors: []
   digest: Programs as trees of atomic operations and the operations they can ask for. -/

import Mathlib.Logic.Relation

set_option autoImplicit false
set_option relaxedAutoImplicit false

namespace DashDrop.Foundation.Program

/-- A program asks for atomic operations and continues with their answers. -/
inductive Prog (Op : Type) (Resp : Op → Type) (α : Type) where
  | pure (a : α)
  | op (o : Op) (k : Resp o → Prog Op Resp α)

variable {Op : Type} {Resp : Op → Type} {α β γ : Type}

def Prog.bind : Prog Op Resp α → (α → Prog Op Resp β) → Prog Op Resp β
  | .pure a, f => f a
  | .op o k, f => .op o fun r => (k r).bind f

instance : Monad (Prog Op Resp) where
  pure := .pure
  bind := .bind

def perform (o : Op) : Prog Op Resp (Resp o) := .op o .pure

@[simp] theorem bind_def (x : Prog Op Resp α) (f : α → Prog Op Resp β) :
    (x >>= f) = x.bind f := rfl

@[simp] theorem pure_def (a : α) : (Pure.pure a : Prog Op Resp α) = .pure a := rfl

@[simp] theorem ret_bind (a : α) (f : α → Prog Op Resp β) :
    (Prog.pure a : Prog Op Resp α).bind f = f a := rfl

@[simp] theorem op_bind (o : Op) (k : Resp o → Prog Op Resp α) (f : α → Prog Op Resp β) :
    (Prog.op o k).bind f = .op o fun r => (k r).bind f := rfl

@[simp] theorem perform_bind (o : Op) (f : Resp o → Prog Op Resp β) :
    (perform o).bind f = .op o f := rfl

theorem bind_assoc (x : Prog Op Resp α) (f : α → Prog Op Resp β) (g : β → Prog Op Resp γ) :
    (x.bind f).bind g = x.bind fun a => (f a).bind g := by
  induction x with
  | pure a => rfl
  | op o k ih =>
    simp only [op_bind]
    congr 1
    exact funext ih

@[simp] theorem map_def (f : α → β) (x : Prog Op Resp α) :
    f <$> x = x.bind fun a => .pure (f a) := rfl

/-- Every operation the program can ask for, whatever the answers, satisfies `p`,
and every result it can return satisfies `q`. -/
def Prog.Within (p : Op → Prop) (q : α → Prop) : Prog Op Resp α → Prop
  | .pure a => q a
  | .op o k => p o ∧ ∀ r, (k r).Within p q

variable {p p' : Op → Prop} {q q' : α → Prop} {s : β → Prop}

@[simp] theorem within_pure (a : α) : (Prog.pure a : Prog Op Resp α).Within p q ↔ q a := Iff.rfl

@[simp] theorem within_op (o : Op) (k : Resp o → Prog Op Resp α) :
    (Prog.op o k).Within p q ↔ p o ∧ ∀ r, (k r).Within p q := Iff.rfl

theorem within_bind (x : Prog Op Resp α) (f : α → Prog Op Resp β) :
    (x.bind f).Within p s ↔ x.Within p fun a => (f a).Within p s := by
  induction x with
  | pure a => rfl
  | op o k ih =>
    simp only [op_bind, within_op]
    exact and_congr_right fun _ => forall_congr' fun r => ih r

theorem Prog.Within.mono {x : Prog Op Resp α} (h : x.Within p q)
    (hp : ∀ o, p o → p' o) (hq : ∀ a, q a → q' a) : x.Within p' q' := by
  induction x with
  | pure a => exact hq a h
  | op o k ih => exact ⟨hp o h.1, fun r => ih r (h.2 r)⟩

/-- The rule for a call: the callee's own bound, then the caller's on every result. -/
theorem Prog.Within.bind {x : Prog Op Resp α} {f : α → Prog Op Resp β}
    (h : x.Within p q) (hf : ∀ a, q a → (f a).Within p s) : (x.bind f).Within p s :=
  (within_bind x f).mpr (h.mono (fun _ ho => ho) hf)

theorem within_trivial (x : Prog Op Resp α) : x.Within (fun _ => True) (fun _ => True) := by
  induction x with
  | pure a => trivial
  | op o k ih => exact ⟨trivial, ih⟩

/-- Whatever the program continues with after an operation answered as `e` says, satisfies `P`. -/
def Prog.After (e : (o : Op) → Resp o → Prop) (P : Prog Op Resp α → Prop) :
    Prog Op Resp α → Prop
  | .pure _ => True
  | .op o k => ∀ r, (e o r → P (k r)) ∧ (k r).After e P

section After

variable {e : (o : Op) → Resp o → Prop} {P : Prog Op Resp β → Prop}

theorem Prog.Within.after_bind {x : Prog Op Resp α} {f : α → Prog Op Resp β} (h : x.Within p q)
    (never : ∀ o, p o → ∀ r, ¬ e o r) (later : ∀ a, q a → (f a).After e P) :
    (x.bind f).After e P := by
  induction x with
  | pure a => exact later a h
  | op o k ih => exact fun r => ⟨fun here => absurd here (never o h.1 r), ih r (h.2 r)⟩

theorem Prog.Within.after {x : Prog Op Resp β} {q : β → Prop} (h : x.Within p q)
    (never : ∀ o, p o → ∀ r, ¬ e o r) : x.After e P := by
  induction x with
  | pure a => trivial
  | op o k ih => exact fun r => ⟨fun here => absurd here (never o h.1 r), ih r (h.2 r)⟩

end After

end DashDrop.Foundation.Program
