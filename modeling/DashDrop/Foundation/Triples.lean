/- GID: DashDrop/Foundation/Triples
   generality: G
   anchors: []
   digest: Derived rules for programs that look at a shared world and for facts that cannot change. -/

import DashDrop.Foundation.Interleaving

set_option autoImplicit false
set_option relaxedAutoImplicit false

namespace DashDrop.Foundation.Interleaving

open DashDrop.Foundation.Program

variable {Op : Type} {Resp : Op → Type} {World Ans α β : Type}
variable {exec : Exec Op Resp World Ans} {guard : Guard Op World Ans}
variable {G : ℕ → World → World → Prop} {i : ℕ} {P : World → Prop}

theorem Triple.given {x : Prog Op Resp α} {c : Prop} {Q : α → World → Prop}
    (h : c → Triple exec guard G i P x Q) : Triple exec guard G i (fun w => c ∧ P w) x Q :=
  fun w hw => h hw.1 w hw.2

theorem Triple.look {o : Op} {k : Resp o → Prog Op Resp β} {Q : β → World → Prop}
    (M : Resp o → World → Prop) (stable : Stable G i P) (still : ∀ w, G i w w)
    (look : ∀ x w, P w → guard i o x w → ∃ r, exec i o x w = some (w, r) ∧ M r w)
    (rest : ∀ r, Triple exec guard G i (M r) (k r) Q) : Triple exec guard G i P (.op o k) Q := by
  refine Triple.op M stable ?_ rest
  intro x w w' r hw allowed done
  obtain ⟨r', found, holds⟩ := look x w hw allowed
  cases found.symm.trans done
  exact ⟨still w, holds⟩

theorem Triple.always {a : α} {Q : α → World → Prop} (h : ∀ w, Q a w) :
    Triple exec guard G i P (.pure a) Q := fun _ _ w' _ => h w'

theorem Stable.given {c : Prop} (h : Stable G i P) : Stable G i fun w => c ∧ P w :=
  fun w w' hw e => ⟨hw.1, h w w' hw.2 e⟩

theorem Stable.trivial : Stable G i fun _ => True := fun _ _ _ _ => True.intro

end DashDrop.Foundation.Interleaving
