/- GID: DashDrop/Foundation/Vows
   generality: G
   anchors: []
   digest: Threads that keep a vow at each of their operations, whatever the others do. -/

import DashDrop.Foundation.Interleaving

set_option autoImplicit false
set_option relaxedAutoImplicit false

namespace DashDrop.Foundation.Vows

open DashDrop.Foundation.Program DashDrop.Foundation.Interleaving

variable {Op : Type} {Resp : Op → Type} {World Ans α β : Type}

/-- The promise of a thread that takes only guarded steps and keeps the vow at each. -/
def Vowed (exec : Exec Op Resp World Ans) (guard vow : Guard Op World Ans) (i : ℕ)
    (w w' : World) : Prop :=
  ∃ o x r, guard i o x w ∧ vow i o x w ∧ exec i o x w = some (w', r)

variable {exec : Exec Op Resp World Ans} {guard vow : Guard Op World Ans} {i : ℕ}
variable {P : World → Prop}

theorem stable_of_steps (keep : ∀ {j o x w w'} {r : Resp o}, j ≠ i → P w → guard j o x w →
      vow j o x w → exec j o x w = some (w', r) → P w') :
    Stable (Vowed exec guard vow) i P := by
  rintro w w' hw ⟨j, apart, o, x, r, allowed, kept, done⟩
  exact keep apart hw allowed kept done

theorem Stable.and {G : ℕ → World → World → Prop} {P' : World → Prop} (h : Stable G i P)
    (h' : Stable G i P') : Stable G i fun w => P w ∧ P' w :=
  fun w w' hw e => ⟨h w w' hw.1 e, h' w w' hw.2 e⟩

theorem stable_true {G : ℕ → World → World → Prop} : Stable G i fun _ => True :=
  fun _ _ _ _ => trivial

theorem vow_op {o : Op} {k : Resp o → Prog Op Resp α} {Q : α → World → Prop}
    (M : Resp o → World → Prop) (stable : Stable (Vowed exec guard vow) i P)
    (step : ∀ x w w' r, P w → guard i o x w → exec i o x w = some (w', r) →
      vow i o x w ∧ M r w')
    (rest : ∀ r, Triple exec guard (Vowed exec guard vow) i (M r) (k r) Q) :
    Triple exec guard (Vowed exec guard vow) i P (.op o k) Q := by
  refine Triple.op M stable (fun x w w' r hw allowed done => ?_) rest
  obtain ⟨kept, mid⟩ := step x w w' r hw allowed done
  exact ⟨⟨o, x, r, allowed, kept, done⟩, mid⟩

/-- An assertion that the other threads leave alone and that the operations of a kind keep. -/
structure Carried (exec : Exec Op Resp World Ans) (guard vow : Guard Op World Ans) (i : ℕ)
    (p : Op → Prop) (P : World → Prop) : Prop where
  stable : Stable (Vowed exec guard vow) i P
  step : ∀ {o x w w'} {r : Resp o}, p o → P w → guard i o x w → exec i o x w = some (w', r) →
    vow i o x w ∧ P w'

section Carried

variable {p : Op → Prop} {Q : α → World → Prop}

theorem Carried.within {y : Prog Op Resp α} {q : α → Prop}
    (carried : Carried exec guard vow i p P) (within : y.Within p q) :
    Triple exec guard (Vowed exec guard vow) i P y fun _ => P := by
  refine (Triple.of_within carried.stable within fun o x w w' r ho hw allowed done => ?_).conseq
    (fun _ hw => hw) fun _ _ h => h.2
  obtain ⟨kept, after⟩ := carried.step ho hw allowed done
  exact ⟨⟨o, x, r, allowed, kept, done⟩, after⟩

theorem Carried.op {o : Op} {k : Resp o → Prog Op Resp α} (carried : Carried exec guard vow i p P)
    (ho : p o) (rest : ∀ r, Triple exec guard (Vowed exec guard vow) i P (k r) Q) :
    Triple exec guard (Vowed exec guard vow) i P (.op o k) Q :=
  vow_op (fun _ => P) carried.stable (fun _ _ _ _ => carried.step ho) rest

theorem Carried.pure {a : α} (carried : Carried exec guard vow i p P) (h : ∀ w, P w → Q a w) :
    Triple exec guard (Vowed exec guard vow) i P (.pure a) Q :=
  Triple.pure carried.stable h

end Carried

theorem vowed_invariant {s t : Pool Op Resp World α} (run : Run exec guard s t)
    {Q : ℕ → α → World → Prop}
    (start : ∀ i y, s.threads[i]? = some y →
      Safe exec guard (Vowed exec guard vow) i y (Q i) s.world)
    (I : World → Prop) (base : I s.world)
    (keep : ∀ i o x w w' r, I w → guard i o x w → vow i o x w → exec i o x w = some (w', r) →
      I w') : I t.world := by
  refine run.promised_invariant start I base ?_
  rintro i w w' holds ⟨o, x, r, allowed, kept, done⟩
  exact keep i o x w w' r holds allowed kept done

end DashDrop.Foundation.Vows
