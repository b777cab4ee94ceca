/- GID: DashDrop/Foundation/Cost
   generality: G
   anchors: []
   digest: Runs with a running cost, and the budgets of programs that bound it. -/

import DashDrop.Foundation.Interleaving
import Mathlib.Algebra.BigOperators.Group.List.Basic
import Mathlib.Algebra.Ring.Nat

set_option autoImplicit false
set_option relaxedAutoImplicit false

namespace DashDrop.Foundation.Cost

open DashDrop.Foundation.Program DashDrop.Foundation.Interleaving

variable {Op : Type} {Resp : Op → Type} {World Ans α β : Type}

section Runs

variable (exec : Exec Op Resp World Ans) (guard : Guard Op World Ans)
variable (cost : (o : Op) → Resp o → ℕ)

/-- Any interleaving of guarded steps, with the sum of what its operations cost. -/
inductive Tally (s : Pool Op Resp World α) : Pool Op Resp World α → ℕ → Prop where
  | refl : Tally s s 0
  | tail {w w' : World} {ts : List (Prog Op Resp α)} {n i : ℕ} {o : Op}
      {k : Resp o → Prog Op Resp α} {x : Ans} {r : Resp o} (before : Tally s ⟨w, ts⟩ n)
      (next : ts[i]? = some (.op o k)) (allowed : guard i o x w)
      (done : exec i o x w = some (w', r)) : Tally s ⟨w', ts.set i (k r)⟩ (n + cost o r)

/-- Whatever it is answered, the program spends at most this much. -/
def Budget : Prog Op Resp α → ℕ → Prop
  | .pure _, _ => True
  | .op o k, b => ∀ r, ∃ b', cost o r + b' ≤ b ∧ Budget (k r) b'

end Runs

variable {exec : Exec Op Resp World Ans} {guard : Guard Op World Ans}
variable {cost : (o : Op) → Resp o → ℕ}

theorem Budget.mono {x : Prog Op Resp α} {b c : ℕ} (h : Budget cost x b) (le : b ≤ c) :
    Budget cost x c := by
  cases x with
  | pure a => trivial
  | op o k =>
    intro r
    obtain ⟨b', within, rest⟩ := h r
    exact ⟨b', by omega, rest⟩

theorem Budget.bind {x : Prog Op Resp α} {f : α → Prog Op Resp β} {b c : ℕ}
    (h : Budget cost x b) (rest : ∀ a, Budget cost (f a) c) : Budget cost (x.bind f) (b + c) := by
  induction x generalizing b with
  | pure a => exact (rest a).mono (Nat.le_add_left c b)
  | op o k ih =>
    intro r
    obtain ⟨b', within, later⟩ := h r
    exact ⟨b' + c, by omega, ih r later⟩

theorem Budget.op {o : Op} {k : Resp o → Prog Op Resp α} {b : ℕ} (costless : ∀ r, cost o r = 0)
    (rest : ∀ r, Budget cost (k r) b) : Budget cost (.op o k) b := by
  intro r
  have hzero := costless r
  exact ⟨b, by omega, rest r⟩

theorem Budget.of_within {x : Prog Op Resp α} {p : Op → Prop} {q : α → Prop} (within : x.Within p q)
    (costless : ∀ o, p o → ∀ r, cost o r = 0) : Budget cost x 0 := by
  induction x with
  | pure a => trivial
  | op o k ih =>
    intro r
    have hzero := costless o within.1 r
    exact ⟨0, by omega, ih r (within.2 r)⟩

private theorem spend {ts : List (Prog Op Resp α)} {bs : List ℕ}
    (h : List.Forall₂ (Budget cost) ts bs) {i : ℕ} {o : Op} {k : Resp o → Prog Op Resp α}
    (here : ts[i]? = some (.op o k)) (r : Resp o) :
    ∃ bs', List.Forall₂ (Budget cost) (ts.set i (k r)) bs' ∧ cost o r + bs'.sum ≤ bs.sum := by
  induction h generalizing i with
  | nil => cases here
  | @cons x b xs bs first rest ih =>
    cases i with
    | zero =>
      obtain rfl := Option.some.inj here
      obtain ⟨b', within, later⟩ := first r
      refine ⟨b' :: bs, .cons later rest, ?_⟩
      rw [List.sum_cons, List.sum_cons]
      omega
    | succ i =>
      obtain ⟨bs', later, within⟩ := ih here
      refine ⟨b :: bs', .cons first later, ?_⟩
      rw [List.sum_cons, List.sum_cons]
      omega

theorem Tally.le_sum {s t : Pool Op Resp World α} {n : ℕ} (tally : Tally exec guard cost s t n)
    {bs : List ℕ} (budgets : List.Forall₂ (Budget cost) s.threads bs) : n ≤ bs.sum := by
  have kept : ∃ bs', List.Forall₂ (Budget cost) t.threads bs' ∧ n + bs'.sum ≤ bs.sum := by
    induction tally with
    | refl => exact ⟨bs, budgets, by omega⟩
    | tail _ next allowed done ih =>
      obtain ⟨bs', left, within⟩ := ih
      obtain ⟨bs'', later, spent⟩ := spend left next _
      exact ⟨bs'', later, by omega⟩
  obtain ⟨bs', -, within⟩ := kept
  omega

/-- Perform the scheduled steps in order and add up what they cost. -/
def bill (exec : Exec Op Resp World Ans) (cost : (o : Op) → Resp o → ℕ)
    (s : Pool Op Resp World α) : List (ℕ × Ans) → ℕ → Option (Pool Op Resp World α × ℕ)
  | [], n => some (s, n)
  | (i, x) :: rest, n =>
      match s.threads[i]? with
      | some (.op o k) => (exec i o x s.world).bind fun y =>
          bill exec cost ⟨y.1, s.threads.set i (k y.2)⟩ rest (n + cost o y.2)
      | _ => none

private theorem tally_of_bill {s t u : Pool Op Resp World α} {schedule : List (ℕ × Ans)} {n m : ℕ}
    (before : Tally exec free cost s t n) (h : bill exec cost t schedule n = some (u, m)) :
    Tally exec free cost s u m := by
  induction schedule generalizing t n with
  | nil =>
    cases h
    exact before
  | cons a rest ih =>
    obtain ⟨i, x⟩ := a
    simp only [bill] at h
    split at h
    · rename_i o k next
      obtain ⟨⟨w', r⟩, done, later⟩ := Option.bind_eq_some_iff.mp h
      exact ih (.tail before next trivial done) later
    · cases h

theorem exists_tally_of_bill (exec : Exec Op Resp World Ans) (cost : (o : Op) → Resp o → ℕ)
    (s : Pool Op Resp World α) (schedule : List (ℕ × Ans))
    (P : Pool Op Resp World α → ℕ → Bool)
    (h : (bill exec cost s schedule 0).any (fun y => P y.1 y.2) = true) :
    ∃ t n, Tally exec free cost s t n ∧ P t n = true := by
  cases billed : bill exec cost s schedule 0 with
  | none => simp [billed] at h
  | some y => exact ⟨y.1, y.2, tally_of_bill .refl billed, by simpa [billed] using h⟩

theorem Tally.run {s t : Pool Op Resp World α} {n : ℕ} (tally : Tally exec guard cost s t n) :
    Run exec guard s t := by
  induction tally with
  | refl => exact .refl _
  | tail _ next allowed done ih => exact ih.tail (.mk next allowed done)

end DashDrop.Foundation.Cost
