/- GID: DashDrop/Foundation/Interleaving
   generality: G
   anchors: []
   digest: Pools of programs over one shared world, guarded runs and rely-guarantee rules. -/

import DashDrop.Foundation.Program
import Mathlib.Data.List.Basic

set_option autoImplicit false
set_option relaxedAutoImplicit false

namespace DashDrop.Foundation.Interleaving

open DashDrop.Foundation.Program

variable {Op : Type} {Resp : Op → Type} {World Ans α β : Type}

/-- Programs that run side by side over one world. -/
structure Pool (Op : Type) (Resp : Op → Type) (World α : Type) where
  world : World
  threads : List (Prog Op Resp α)

/-- What the world does with an operation of one thread; `none` when the
operation is not enabled under that answer of the environment. -/
abbrev Exec (Op : Type) (Resp : Op → Type) (World Ans : Type) :=
  ℕ → (o : Op) → Ans → World → Option (World × Resp o)

abbrev Guard (Op World Ans : Type) := ℕ → Op → Ans → World → Prop

section Steps

variable (exec : Exec Op Resp World Ans) (guard : Guard Op World Ans)

/-- Thread `i` performs its next operation. -/
def Pool.step (s : Pool Op Resp World α) (i : ℕ) (x : Ans) : Option (Pool Op Resp World α) :=
  match s.threads[i]? with
  | some (.op o k) => (exec i o x s.world).map fun y => ⟨y.1, s.threads.set i (k y.2)⟩
  | _ => none

def Pool.play (s : Pool Op Resp World α) : List (ℕ × Ans) → Option (Pool Op Resp World α)
  | [] => some s
  | (i, x) :: rest => (s.step exec i x).bind fun t => t.play rest

/-- What thread `i` has returned. -/
def Pool.result (s : Pool Op Resp World α) (i : ℕ) : Option α :=
  match s.threads[i]? with
  | some (.pure a) => some a
  | _ => none

theorem Pool.thread_of_result {s : Pool Op Resp World α} {i : ℕ} {a : α}
    (h : s.result i = some a) : s.threads[i]? = some (.pure a) := by
  unfold Pool.result at h
  split at h
  · cases h
    assumption
  · cases h

/-- One guarded step of thread `i`. -/
inductive Step (i : ℕ) : Pool Op Resp World α → Pool Op Resp World α → Prop where
  | mk {w w' : World} {ts : List (Prog Op Resp α)} {o : Op} {k : Resp o → Prog Op Resp α}
      {x : Ans} {r : Resp o} (next : ts[i]? = some (.op o k)) (allowed : guard i o x w)
      (done : exec i o x w = some (w', r)) : Step i ⟨w, ts⟩ ⟨w', ts.set i (k r)⟩

/-- Any interleaving of guarded steps. -/
def Run (s t : Pool Op Resp World α) : Prop :=
  Relation.ReflTransGen (fun a b => ∃ i, Step exec guard i a b) s t

end Steps

variable {exec : Exec Op Resp World Ans} {guard guard' : Guard Op World Ans}

def free : Guard Op World Ans := fun _ _ _ _ => True

theorem Run.refl (s : Pool Op Resp World α) : Run exec guard s s := Relation.ReflTransGen.refl

theorem Run.tail {s t u : Pool Op Resp World α} {i : ℕ} (h : Run exec guard s t)
    (e : Step exec guard i t u) : Run exec guard s u :=
  Relation.ReflTransGen.tail h ⟨i, e⟩

theorem Run.trans {s t u : Pool Op Resp World α} (h : Run exec guard s t)
    (g : Run exec guard t u) : Run exec guard s u :=
  Relation.ReflTransGen.trans h g

theorem Run.preserves {s t : Pool Op Resp World α} (h : Run exec guard s t)
    (I : Pool Op Resp World α → Prop) (base : I s)
    (keep : ∀ a b i, I a → Step exec guard i a b → I b) : I t := by
  induction h with
  | refl => exact base
  | tail _ e ih =>
    obtain ⟨i, e⟩ := e
    exact keep _ _ i ih e

/-- A property of the world that every guarded operation keeps holds along every run. -/
theorem Run.world_invariant {s t : Pool Op Resp World α} (h : Run exec guard s t)
    (I : World → Prop) (base : I s.world)
    (keep : ∀ i o x w w' r, I w → guard i o x w → exec i o x w = some (w', r) → I w') :
    I t.world := by
  refine h.preserves (fun a => I a.world) base ?_
  intro a b i ha e
  cases e with
  | mk next allowed done => exact keep i _ _ _ _ _ ha allowed done

theorem Run.length_threads {s t : Pool Op Resp World α} (h : Run exec guard s t) :
    t.threads.length = s.threads.length := by
  refine h.preserves (fun a => a.threads.length = s.threads.length) rfl ?_
  intro a b i ha e
  cases e with
  | mk next allowed done => simpa using ha

theorem Run.mono {s t : Pool Op Resp World α} (h : Run exec guard s t)
    (weaken : ∀ i o x w, guard i o x w → guard' i o x w) : Run exec guard' s t := by
  induction h with
  | refl => exact .refl _
  | tail _ e ih =>
    obtain ⟨i, e⟩ := e
    cases e with
    | mk next allowed done => exact ih.tail (.mk next (weaken _ _ _ _ allowed) done)

def restrict (exec : Exec Op Resp World Ans) (check : ℕ → Op → Ans → World → Bool) :
    Exec Op Resp World Ans :=
  fun i o x w => if check i o x w then exec i o x w else none

section Play

variable {check : ℕ → Op → Ans → World → Bool}

theorem step_of_pool_step (sound : ∀ i o x w, check i o x w = true → guard i o x w)
    {s t : Pool Op Resp World α} {i : ℕ} {x : Ans}
    (h : s.step (restrict exec check) i x = some t) : Step exec guard i s t := by
  obtain ⟨w, ts⟩ := s
  simp only [Pool.step] at h
  split at h
  · rename_i o k next
    obtain ⟨⟨w', r⟩, done, rfl⟩ := Option.map_eq_some_iff.mp h
    simp only [restrict] at done
    split_ifs at done with allowed
    exact .mk next (sound _ _ _ _ allowed) done
  · cases h

theorem run_of_play (sound : ∀ i o x w, check i o x w = true → guard i o x w)
    {s t : Pool Op Resp World α} {schedule : List (ℕ × Ans)}
    (h : s.play (restrict exec check) schedule = some t) : Run exec guard s t := by
  induction schedule generalizing s with
  | nil =>
    cases h
    exact .refl _
  | cons a rest ih =>
    obtain ⟨i, x⟩ := a
    obtain ⟨u, first, later⟩ := Option.bind_eq_some_iff.mp h
    exact (Run.tail (.refl s) (step_of_pool_step sound first)).trans (ih later)

/-- A checked schedule that can be played to a state with property `P` is a guarded run to
such a state. -/
theorem exists_run_of_play (exec : Exec Op Resp World Ans)
    (sound : ∀ i o x w, check i o x w = true → guard i o x w)
    (s : Pool Op Resp World α) (schedule : List (ℕ × Ans)) (P : Pool Op Resp World α → Bool)
    (h : (s.play (restrict exec check) schedule).any P = true) :
    ∃ t, Run exec guard s t ∧ P t = true := by
  cases played : s.play (restrict exec check) schedule with
  | none => simp [played] at h
  | some t => exact ⟨t, run_of_play sound played, by simpa [played] using h⟩

def unchecked : ℕ → Op → Ans → World → Bool := fun _ _ _ _ => true

theorem unchecked_sound (i : ℕ) (o : Op) (x : Ans) (w : World)
    (_ : unchecked i o x w = true) : free i o x w := trivial

end Play

/-- Along a run every thread keeps asking only for operations that satisfy its bound. -/
theorem Run.within {s t : Pool Op Resp World α} (h : Run exec guard s t)
    (p : ℕ → Op → Prop) (q : ℕ → α → Prop)
    (start : ∀ i (x : Prog Op Resp α), s.threads[i]? = some x → x.Within (p i) (q i)) :
    ∀ i (x : Prog Op Resp α), t.threads[i]? = some x → x.Within (p i) (q i) := by
  refine h.preserves (fun a => ∀ i (x : Prog Op Resp α),
    a.threads[i]? = some x → x.Within (p i) (q i)) start ?_
  intro a b j ha e i x hx
  cases e with
  | mk next allowed done =>
    by_cases hij : j = i
    · subst hij
      have hlt := (List.getElem?_eq_some_iff.mp next).1
      simp only [List.getElem?_set, hlt] at hx
      obtain rfl := Option.some.inj hx
      exact (ha j _ next).2 _
    · rw [List.getElem?_set_ne hij] at hx
      exact ha i x hx

theorem Run.bounded {s t : Pool Op Resp World α} (h : Run exec guard s t) (p : ℕ → Op → Prop)
    (start : ∀ i (x : Prog Op Resp α), s.threads[i]? = some x → x.Within (p i) fun _ => True) :
    Run exec (fun i o x w => guard i o x w ∧ p i o) s t := by
  induction h with
  | refl => exact .refl _
  | tail before e ih =>
    obtain ⟨i, e⟩ := e
    have earlier : Run exec guard s _ := before
    have within := earlier.within p (fun _ _ => True) start
    cases e with
    | mk next allowed done => exact ih.tail (.mk next ⟨allowed, (within i _ next).1⟩ done)

theorem Run.assuming {s t : Pool Op Resp World α} (h : Run exec guard s t) (I : World → Prop)
    (base : I s.world)
    (keep : ∀ i o x w w' r, I w → guard i o x w → exec i o x w = some (w', r) → I w') :
    Run exec (fun i o x w => guard i o x w ∧ I w) s t := by
  induction h with
  | refl => exact .refl _
  | tail before e ih =>
    obtain ⟨i, e⟩ := e
    have earlier : Run exec guard s _ := before
    have holds := earlier.world_invariant I base keep
    cases e with
    | mk next allowed done => exact ih.tail (.mk next ⟨allowed, holds⟩ done)

section Alone

variable (exec : Exec Op Resp World Ans) (guard : Guard Op World Ans)

/-- Some run of the program as thread `i`, alone from `w` on, comes to a point with `P`. -/
def Reaches (i : ℕ) (P : Prog Op Resp α → World → Prop) : Prog Op Resp α → World → Prop
  | .pure a, w => P (.pure a) w
  | .op o k, w => P (.op o k) w ∨
      ∃ x w' r, guard i o x w ∧ exec i o x w = some (w', r) ∧ Reaches i P (k r) w'

/-- Every run of the program as thread `i`, alone from `w` on, that returns does so with `Q`. -/
def Delivers (i : ℕ) (Q : α → World → Prop) : Prog Op Resp α → World → Prop
  | .pure a, w => Q a w
  | .op o k, w => ∀ x w' r, guard i o x w → exec i o x w = some (w', r) → Delivers i Q (k r) w'

/-- The run of the program as thread `i`, alone, when each operation is answered as `answers` says. -/
def alone (i : ℕ) (answers : Op → Ans) : Prog Op Resp α → World → Option (World × α)
  | .pure a, w => some (w, a)
  | .op o k, w => (exec i o (answers o) w).bind fun y => alone i answers (k y.2) y.1

end Alone

theorem Reaches.now {i : ℕ} {P : Prog Op Resp α → World → Prop} {x : Prog Op Resp α} {w : World}
    (h : P x w) : Reaches exec guard i P x w := by
  cases x with
  | pure a => exact h
  | op o k => exact .inl h

theorem Reaches.mono {i : ℕ} {P P' : Prog Op Resp α → World → Prop} {x : Prog Op Resp α}
    {w : World} (h : Reaches exec guard i P x w) (weaken : ∀ x w, P x w → P' x w) :
    Reaches exec guard i P' x w := by
  induction x generalizing w with
  | pure a => exact weaken _ w h
  | op o k ih =>
    obtain now | ⟨y, w', r, allowed, done, later⟩ := h
    · exact .inl (weaken _ w now)
    · exact .inr ⟨y, w', r, allowed, done, ih r later⟩

theorem Reaches.exists_run {i : ℕ} {P : Prog Op Resp α → World → Prop} {x : Prog Op Resp α}
    {w : World} (h : Reaches exec guard i P x w) {ts : List (Prog Op Resp α)}
    (here : ts[i]? = some x) :
    ∃ x' w', Run exec guard ⟨w, ts⟩ ⟨w', ts.set i x'⟩ ∧ P x' w' := by
  have stay {x : Prog Op Resp α} {w : World} {ts : List (Prog Op Resp α)}
      (here : ts[i]? = some x) : Run exec guard ⟨w, ts⟩ ⟨w, ts.set i x⟩ := by
    obtain ⟨hlt, rfl⟩ := List.getElem?_eq_some_iff.mp here
    rw [List.set_getElem_self]
    exact .refl _
  induction x generalizing w ts with
  | pure a => exact ⟨_, _, stay here, h⟩
  | op o k ih =>
    obtain now | ⟨y, w', r, allowed, done, later⟩ := h
    · exact ⟨_, _, stay here, now⟩
    · have hlt := (List.getElem?_eq_some_iff.mp here).1
      have next : (ts.set i (k r))[i]? = some (k r) := by simp [hlt]
      obtain ⟨x', w'', run, holds⟩ := ih r later next
      rw [List.set_set] at run
      exact ⟨x', w'', (Run.tail (.refl _) (.mk here allowed done)).trans run, holds⟩

theorem Delivers.bind {i : ℕ} {Q : β → World → Prop} {x : Prog Op Resp α}
    {f : α → Prog Op Resp β} {w : World}
    (h : Delivers exec guard i (fun a => Delivers exec guard i Q (f a)) x w) :
    Delivers exec guard i Q (x.bind f) w := by
  induction x generalizing w with
  | pure a => exact h
  | op o k ih => exact fun y w' r allowed done => ih r (h y w' r allowed done)

theorem Delivers.mono {i : ℕ} {Q Q' : α → World → Prop} {x : Prog Op Resp α} {w : World}
    (h : Delivers exec guard i Q x w) (weaken : ∀ a w, Q a w → Q' a w) :
    Delivers exec guard i Q' x w := by
  induction x generalizing w with
  | pure a => exact weaken a w h
  | op o k ih => exact fun y w' r allowed done => ih r (h y w' r allowed done)

theorem Delivers.both {i : ℕ} {Q Q' : α → World → Prop} {x : Prog Op Resp α} {w : World}
    (h : Delivers exec guard i Q x w) (h' : Delivers exec guard i Q' x w) :
    Delivers exec guard i (fun a w => Q a w ∧ Q' a w) x w := by
  induction x generalizing w with
  | pure a => exact ⟨h, h'⟩
  | op o k ih =>
    exact fun y w' r allowed done => ih r (h y w' r allowed done) (h' y w' r allowed done)

/-- Where the answers are determined, what some run returns with is what every run returns with. -/
theorem Reaches.delivers {i : ℕ} {x : Prog Op Resp α} {w : World} {p : Op → Prop} {q : α → Prop}
    {Q : α → World → Prop} (within : x.Within p q)
    (determined : ∀ o, p o → ∀ y z w, guard i o y w → guard i o z w →
      exec i o y w = exec i o z w)
    (reaches : Reaches exec guard i (fun x w => ∃ a, x = .pure a ∧ Q a w) x w) :
    Delivers exec guard i Q x w := by
  induction x generalizing w with
  | pure a =>
    obtain ⟨b, same, holds⟩ := reaches
    cases same
    exact holds
  | op o k ih =>
    obtain ⟨b, same, -⟩ | ⟨y, w', r, allowed, done, later⟩ := reaches
    · cases same
    · intro z w'' r' allowed' done'
      have same := (determined o within.1 y z w allowed allowed').symm.trans done
      cases done'.symm.trans same
      exact ih r (within.2 r) later

theorem Run.delivers {w : World} {x : Prog Op Resp α} {t : Pool Op Resp World α}
    (run : Run exec guard ⟨w, [x]⟩ t) {Q : α → World → Prop} (h : Delivers exec guard 0 Q x w)
    {a : α} (returned : t.result 0 = some a) : Q a t.world := by
  have kept : ∃ y, t.threads = [y] ∧ Delivers exec guard 0 Q y t.world := by
    refine run.preserves (fun s => ∃ y, s.threads = [y] ∧ Delivers exec guard 0 Q y s.world)
      ⟨x, rfl, h⟩ ?_
    rintro s u j ⟨y, single, later⟩ e
    cases e with
    | mk next allowed done =>
      obtain rfl : _ = [y] := single
      cases j with
      | zero =>
        obtain rfl := Option.some.inj next
        exact ⟨_, rfl, later _ _ _ allowed done⟩
      | succ j => cases next
  obtain ⟨y, single, later⟩ := kept
  have here := Pool.thread_of_result returned
  rw [single] at here
  obtain rfl := Option.some.inj here
  exact later

/-- A step of thread `i` that is answered as `e` says. -/
inductive Answered (exec : Exec Op Resp World Ans) (guard : Guard Op World Ans)
    (e : (o : Op) → Resp o → Prop) (i : ℕ) : Pool Op Resp World α → Pool Op Resp World α → Prop where
  | mk {w w' : World} {ts : List (Prog Op Resp α)} {o : Op} {k : Resp o → Prog Op Resp α}
      {x : Ans} {r : Resp o} (next : ts[i]? = some (.op o k)) (allowed : guard i o x w)
      (done : exec i o x w = some (w', r)) (here : e o r) :
      Answered exec guard e i ⟨w, ts⟩ ⟨w', ts.set i (k r)⟩

theorem Run.after {w : World} {x : Prog Op Resp α} {e : (o : Op) → Resp o → Prop}
    {P : Prog Op Resp α → Prop} {s t : Pool Op Resp World α} (run : Run exec guard ⟨w, [x]⟩ s)
    (h : x.After e P) (step : Answered exec guard e 0 s t) :
    ∃ o y w' r z, exec 0 o y s.world = some (w', r) ∧ e o r ∧ t = ⟨w', [z]⟩ ∧ P z := by
  have kept : ∃ y, s.threads = [y] ∧ y.After e P := by
    refine run.preserves (fun s => ∃ y, s.threads = [y] ∧ y.After e P) ⟨x, rfl, h⟩ ?_
    rintro a b j ⟨y, single, later⟩ step
    cases step with
    | mk next allowed done =>
      obtain rfl : _ = [y] := single
      cases j with
      | zero =>
        obtain rfl := Option.some.inj next
        exact ⟨_, rfl, (later _).2⟩
      | succ j => cases next
  obtain ⟨y, single, later⟩ := kept
  cases step with
  | mk next allowed done here =>
    obtain rfl : _ = [y] := single
    obtain rfl := Option.some.inj next
    exact ⟨_, _, _, _, _, done, here, rfl, (later _).1 here⟩

/-- A thread at such a step, from which it can come to `Q`. -/
def Ahead (exec : Exec Op Resp World Ans) (guard : Guard Op World Ans)
    (e : (o : Op) → Resp o → Prop) (i : ℕ) (Q : Prog Op Resp α → World → Prop)
    (x : Prog Op Resp α) (w : World) : Prop :=
  ∃ o k y w' r, x = .op o k ∧ guard i o y w ∧ exec i o y w = some (w', r) ∧ e o r ∧
    Reaches exec guard i Q (k r) w'

theorem Reaches.exists_answered {e : (o : Op) → Resp o → Prop} {Q : Prog Op Resp α → World → Prop}
    {x : Prog Op Resp α} {w : World} (h : Reaches exec guard 0 (Ahead exec guard e 0 Q) x w) :
    ∃ a b y w', Run exec guard ⟨w, [x]⟩ a ∧ Answered exec guard e 0 a b ∧
      Run exec guard b ⟨w', [y]⟩ ∧ Q y w' := by
  obtain ⟨-, w', run, o, k, y, w'', r, rfl, allowed, done, here, later⟩ :=
    h.exists_run (show ([x] : List (Prog Op Resp α))[0]? = some x from rfl)
  obtain ⟨z, w₃, run', holds⟩ := later.exists_run
    (show ([k r] : List (Prog Op Resp α))[0]? = some (k r) from rfl)
  exact ⟨_, _, z, w₃, run, .mk rfl allowed done here, run', holds⟩

section RelyGuarantee

variable (exec : Exec Op Resp World Ans) (guard : Guard Op World Ans)
variable (G : ℕ → World → World → Prop)

def Rely (i : ℕ) (w w' : World) : Prop := ∃ j, j ≠ i ∧ G j w w'

/-- From `w` on, with other threads stepping in at any point, every step of the
program keeps `G i` and every result meets `Q`. -/
def Safe (i : ℕ) : Prog Op Resp α → (α → World → Prop) → World → Prop
  | .pure a, Q, w => ∀ w', Relation.ReflTransGen (Rely G i) w w' → Q a w'
  | .op o k, Q, w => ∀ w', Relation.ReflTransGen (Rely G i) w w' →
      ∀ x w'' r, guard i o x w' → exec i o x w' = some (w'', r) →
        G i w' w'' ∧ Safe i (k r) Q w''

def Stable (i : ℕ) (P : World → Prop) : Prop := ∀ w w', P w → Rely G i w w' → P w'

/-- From every world with `P`, the program is safe and ends with `Q`. -/
def Triple (i : ℕ) (P : World → Prop) (x : Prog Op Resp α) (Q : α → World → Prop) : Prop :=
  ∀ w, P w → Safe exec guard G i x Q w

end RelyGuarantee

variable {G : ℕ → World → World → Prop} {i : ℕ} {P P' : World → Prop}

theorem Stable.many (h : Stable G i P) {w w' : World} (hw : P w)
    (e : Relation.ReflTransGen (Rely G i) w w') : P w' := by
  induction e with
  | refl => exact hw
  | tail _ e ih => exact h _ _ ih e

theorem Safe.interfered {x : Prog Op Resp α} {Q : α → World → Prop} {w w' : World}
    (h : Safe exec guard G i x Q w) (e : Rely G i w w') : Safe exec guard G i x Q w' := by
  cases x with
  | pure a => exact fun w'' later => h w'' (.head e later)
  | op o k => exact fun w'' later => h w'' (.head e later)

theorem Safe.bind {x : Prog Op Resp α} {f : α → Prog Op Resp β} {Q : β → World → Prop}
    {w : World} (h : Safe exec guard G i x (fun a => Safe exec guard G i (f a) Q) w) :
    Safe exec guard G i (x.bind f) Q w := by
  induction x generalizing w with
  | pure a => exact h w .refl
  | op o k ih =>
    intro w' e y w'' r allowed done
    obtain ⟨promise, rest⟩ := h w' e y w'' r allowed done
    exact ⟨promise, ih r rest⟩

theorem Safe.conseq {x : Prog Op Resp α} {Q Q' : α → World → Prop} {w : World}
    (h : Safe exec guard G i x Q w) (weaken : ∀ a w, Q a w → Q' a w) :
    Safe exec guard G i x Q' w := by
  induction x generalizing w with
  | pure a => exact fun w' e => weaken a w' (h w' e)
  | op o k ih =>
    intro w' e y w'' r allowed done
    obtain ⟨promise, rest⟩ := h w' e y w'' r allowed done
    exact ⟨promise, ih r rest⟩

theorem Triple.pure {a : α} {Q : α → World → Prop} (stable : Stable G i P)
    (h : ∀ w, P w → Q a w) : Triple exec guard G i P (.pure a) Q :=
  fun _ hw w' e => h w' (stable.many hw e)

/-- The rule for one operation: its assertion is stable, the step keeps the
promise and establishes the assertion of the continuation. -/
theorem Triple.op {o : Op} {k : Resp o → Prog Op Resp α} {Q : α → World → Prop}
    (M : Resp o → World → Prop) (stable : Stable G i P)
    (step : ∀ x w w' r, P w → guard i o x w → exec i o x w = some (w', r) →
      G i w w' ∧ M r w')
    (rest : ∀ r, Triple exec guard G i (M r) (k r) Q) :
    Triple exec guard G i P (.op o k) Q := by
  intro w hw w' e x w'' r allowed done
  obtain ⟨promise, mid⟩ := step x w' w'' r (stable.many hw e) allowed done
  exact ⟨promise, rest r w'' mid⟩

theorem Triple.bind {x : Prog Op Resp α} {f : α → Prog Op Resp β} {Q : β → World → Prop}
    {M : α → World → Prop} (h : Triple exec guard G i P x M)
    (rest : ∀ a, Triple exec guard G i (M a) (f a) Q) :
    Triple exec guard G i P (x.bind f) Q :=
  fun w hw => Safe.bind ((h w hw).conseq fun a w' ha => rest a w' ha)

theorem Triple.conseq {x : Prog Op Resp α} {Q Q' : α → World → Prop}
    (h : Triple exec guard G i P x Q) (before : ∀ w, P' w → P w)
    (after : ∀ a w, Q a w → Q' a w) : Triple exec guard G i P' x Q' :=
  fun w hw => (h w (before w hw)).conseq after

theorem Triple.of_within {x : Prog Op Resp α} {p : Op → Prop} {q : α → Prop}
    (stable : Stable G i P) (within : x.Within p q)
    (step : ∀ o y w w' r, p o → P w → guard i o y w → exec i o y w = some (w', r) →
      G i w w' ∧ P w') :
    Triple exec guard G i P x fun a w => q a ∧ P w := by
  induction x with
  | pure a => exact Triple.pure stable fun _ hw => ⟨within, hw⟩
  | op o k ih =>
    refine Triple.op (fun _ => P) stable ?_ fun r => ih r (within.2 r)
    intro y w w' r hw allowed done
    exact step o y w w' r within.1 hw allowed done

theorem Run.safe {s t : Pool Op Resp World α} (h : Run exec guard s t)
    {Q : ℕ → α → World → Prop}
    (start : ∀ i x, s.threads[i]? = some x → Safe exec guard G i x (Q i) s.world) :
    ∀ i x, t.threads[i]? = some x → Safe exec guard G i x (Q i) t.world := by
  refine h.preserves
    (fun a => ∀ i x, a.threads[i]? = some x → Safe exec guard G i x (Q i) a.world) start ?_
  intro a b j ha e i x hx
  cases e with
  | mk next allowed done =>
    have moved := ha j _ next _ .refl _ _ _ allowed done
    by_cases hij : j = i
    · subst hij
      have hlt := (List.getElem?_eq_some_iff.mp next).1
      simp only [List.getElem?_set, hlt] at hx
      obtain rfl := Option.some.inj hx
      exact moved.2
    · rw [List.getElem?_set_ne hij] at hx
      exact (ha i x hx).interfered ⟨j, hij, moved.1⟩

/-- Every step of a run of safe threads keeps the promise of the thread that takes it. -/
theorem Run.promise {s t u : Pool Op Resp World α} (h : Run exec guard s t)
    {Q : ℕ → α → World → Prop} {j : ℕ}
    (start : ∀ i x, s.threads[i]? = some x → Safe exec guard G i x (Q i) s.world)
    (e : Step exec guard j t u) : G j t.world u.world := by
  have safe := h.safe start
  cases e with
  | mk next allowed done => exact (safe j _ next _ .refl _ _ _ allowed done).1

theorem Run.returned {s t : Pool Op Resp World α} (h : Run exec guard s t)
    {Q : ℕ → α → World → Prop}
    (start : ∀ i x, s.threads[i]? = some x → Safe exec guard G i x (Q i) s.world)
    {a : α} (done : t.threads[i]? = some (.pure a)) : Q i a t.world :=
  h.safe start i _ done t.world .refl

/-- A property of the world that every kept promise preserves holds along a safe run. -/
theorem Run.promised_invariant {s t : Pool Op Resp World α} (h : Run exec guard s t)
    {Q : ℕ → α → World → Prop}
    (start : ∀ i x, s.threads[i]? = some x → Safe exec guard G i x (Q i) s.world)
    (I : World → Prop) (base : I s.world) (keep : ∀ i w w', I w → G i w w' → I w') :
    I t.world := by
  induction h with
  | refl => exact base
  | tail before e ih =>
    obtain ⟨i, e⟩ := e
    have earlier : Run exec guard s _ := before
    exact keep i _ _ ih (earlier.promise start e)

end DashDrop.Foundation.Interleaving
