/- GID: DashDrop/Foundation/Transitions
   generality: G
   anchors: []
   digest: Runs of a labelled transition function, under a guard on each step. -/

import Mathlib.Logic.Relation
import Mathlib.Tactic.Common

set_option autoImplicit false
set_option relaxedAutoImplicit false

namespace DashDrop.Foundation.Transitions

variable {σ ℓ : Type} {step : σ → ℓ → Option σ} {guard : σ → ℓ → Prop} {s t u : σ}

def Move (step : σ → ℓ → Option σ) (guard : σ → ℓ → Prop) (s t : σ) : Prop :=
  ∃ l, guard s l ∧ step s l = some t

/-- Any number of steps, each of them allowed. -/
abbrev Reaches (step : σ → ℓ → Option σ) (guard : σ → ℓ → Prop) : σ → σ → Prop :=
  Relation.ReflTransGen (Move step guard)

abbrev anyStep : σ → ℓ → Prop := fun _ _ => True

theorem Reaches.keeps {I : σ → Prop} (h : Reaches step guard s t) (hstart : I s)
    (hkept : ∀ {a b l}, I a → guard a l → step a l = some b → I b) : I t := by
  induction h with
  | refl => exact hstart
  | tail _ hmove ih =>
    obtain ⟨l, hallowed, hstep⟩ := hmove
    exact hkept ih hallowed hstep

theorem Reaches.mono {guard' : σ → ℓ → Prop} (h : Reaches step guard s t)
    (weaken : ∀ a l, guard a l → guard' a l) : Reaches step guard' s t :=
  h.keeps .refl fun hreached hallowed hstep => hreached.tail ⟨_, weaken _ _ hallowed, hstep⟩

/-- Take the steps of a list of labels where the guard allows each of them. -/
def play (step : σ → ℓ → Option σ) (guard : σ → ℓ → Prop) [∀ s l, Decidable (guard s l)] (s : σ) :
    List ℓ → Option σ
  | [] => some s
  | l :: ls => if guard s l then (step s l).bind fun t => play step guard t ls else none

theorem reaches_of_play [∀ s l, Decidable (guard s l)] {ls : List ℓ}
    (h : play step guard s ls = some t) : Reaches step guard s t := by
  induction ls generalizing s with
  | nil =>
    obtain rfl : s = t := by simpa [play] using h
    exact .refl
  | cons l ls ih =>
    unfold play at h
    split_ifs at h with hallowed
    obtain ⟨u, hstep, hrest⟩ := Option.bind_eq_some_iff.mp h
    exact .head ⟨l, hallowed, hstep⟩ (ih hrest)

theorem Reaches.first (h : Reaches step guard s t) (kind : σ → ℓ → Prop) :
    Reaches step (fun a l => guard a l ∧ ¬ kind a l) s t ∨
      ∃ a l b, Reaches step (fun a l => guard a l ∧ ¬ kind a l) s a ∧ guard a l ∧ kind a l ∧
        step a l = some b ∧ Reaches step guard b t := by
  induction h with
  | refl => exact .inl .refl
  | @tail a b _ hmove ih =>
    obtain ⟨l, hallowed, hstep⟩ := hmove
    obtain hnone | ⟨c, m, d, hbefore, hm, hkind, hcd, hafter⟩ := ih
    · by_cases hkind : kind a l
      · exact .inr ⟨a, l, b, hnone, hallowed, hkind, hstep, .refl⟩
      · exact .inl (hnone.tail ⟨l, ⟨hallowed, hkind⟩, hstep⟩)
    · exact .inr ⟨c, m, d, hbefore, hm, hkind, hcd, hafter.tail ⟨l, hallowed, hstep⟩⟩

end DashDrop.Foundation.Transitions
