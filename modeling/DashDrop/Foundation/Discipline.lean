/- GID: DashDrop/Foundation/Discipline
   generality: G
   anchors: []
   digest: Programs that follow an automaton, and joint invariants of their phases. -/

import DashDrop.Foundation.Interleaving

set_option autoImplicit false
set_option relaxedAutoImplicit false

namespace DashDrop.Foundation.Discipline

open DashDrop.Foundation.Program DashDrop.Foundation.Interleaving

variable {Op : Type} {Resp : Op → Type} {World Ans σ τ α β : Type}

/-- An automaton over operations and their answers; `none` forbids the operation. -/
abbrev Automaton (Op : Type) (Resp : Op → Type) (σ : Type) :=
  σ → (o : Op) → Resp o → Option σ

/-- From phase `s` the program makes only moves of the automaton, whatever it is answered,
and every result meets `fin` in the phase it is returned in. -/
def Obeys (next : Automaton Op Resp σ) : σ → Prog Op Resp α → (σ → α → Prop) → Prop
  | s, .pure a, fin => fin s a
  | s, .op o k, fin => ∀ r, ∃ s', next s o r = some s' ∧ Obeys next s' (k r) fin

variable {next : Automaton Op Resp σ} {s : σ} {fin fin' : σ → α → Prop}

theorem Obeys.mono {x : Prog Op Resp α} (h : Obeys next s x fin)
    (weaken : ∀ s a, fin s a → fin' s a) : Obeys next s x fin' := by
  induction x generalizing s with
  | pure a => exact weaken s a h
  | op o k ih =>
    intro r
    obtain ⟨s', moved, rest⟩ := h r
    exact ⟨s', moved, ih r rest⟩

theorem Obeys.bind {x : Prog Op Resp α} {f : α → Prog Op Resp β} {last : σ → β → Prop}
    (h : Obeys next s x fin) (rest : ∀ s a, fin s a → Obeys next s (f a) last) :
    Obeys next s (x.bind f) last := by
  induction x generalizing s with
  | pure a => exact rest s a h
  | op o k ih =>
    intro r
    obtain ⟨s', moved, later⟩ := h r
    exact ⟨s', moved, ih r later⟩

theorem Obeys.stay {x : Prog Op Resp α} {p : Op → Prop} {q : α → Prop} (within : x.Within p q)
    (calm : ∀ o, p o → ∀ r, next s o r = some s) : Obeys next s x fun s' a => s' = s ∧ q a := by
  induction x with
  | pure a => exact ⟨rfl, within⟩
  | op o k ih => exact fun r => ⟨s, calm o within.1 r, ih r (within.2 r)⟩

theorem Obeys.simulated {other : Automaton Op Resp τ} {x : Prog Op Resp α} {last : τ → α → Prop}
    (h : Obeys next s x fin) (view : σ → τ)
    (follows : ∀ s s' o r, next s o r = some s' → other (view s) o r = some (view s'))
    (ends : ∀ s a, fin s a → last (view s) a) : Obeys other (view s) x last := by
  induction x generalizing s with
  | pure a => exact ends s a h
  | op o k ih =>
    intro r
    obtain ⟨s', moved, rest⟩ := h r
    exact ⟨view s', follows s s' o r moved, ih r rest⟩

def pair (next : Automaton Op Resp σ) (other : Automaton Op Resp τ) : Automaton Op Resp (σ × τ) :=
  fun s o r => (next s.1 o r).bind fun a => (other s.2 o r).map fun b => (a, b)

theorem pair_eq_some {other : Automaton Op Resp τ} {s q : σ × τ} {o : Op} {r : Resp o} :
    pair next other s o r = some q ↔ next s.1 o r = some q.1 ∧ other s.2 o r = some q.2 := by
  obtain ⟨a, b⟩ := q
  simp only [pair, Option.bind_eq_some_iff, Option.map_eq_some_iff, Prod.mk.injEq]
  constructor
  · rintro ⟨a, ha, b, hb, rfl, rfl⟩
    exact ⟨ha, hb⟩
  · rintro ⟨ha, hb⟩
    exact ⟨a, ha, b, hb, rfl, rfl⟩

theorem Obeys.pair {other : Automaton Op Resp τ} {t : τ} {last : τ → α → Prop}
    {x : Prog Op Resp α} (h : Obeys next s x fin) (h' : Obeys other t x last) :
    Obeys (pair next other) (s, t) x fun q a => fin q.1 a ∧ last q.2 a := by
  induction x generalizing s t with
  | pure a => exact ⟨h, h'⟩
  | op o k ih =>
    intro r
    obtain ⟨s', moved, rest⟩ := h r
    obtain ⟨t', moved', rest'⟩ := h' r
    exact ⟨(s', t'), pair_eq_some.mpr ⟨moved, moved'⟩, ih r rest rest'⟩

section Runs

variable {exec : Exec Op Resp World Ans} {guard : Guard Op World Ans}
variable {moves : ℕ → Automaton Op Resp σ} {final : ℕ → σ → α → Prop}

/-- Every thread obeys its automaton from the phase that is noted for it. -/
def Tracked (moves : ℕ → Automaton Op Resp σ) (final : ℕ → σ → α → Prop) (phases : ℕ → σ)
    (threads : List (Prog Op Resp α)) : Prop :=
  ∀ i x, threads[i]? = some x → Obeys (moves i) (phases i) x (final i)

theorem Tracked.step {phases : ℕ → σ} {threads : List (Prog Op Resp α)}
    (h : Tracked moves final phases threads) {i : ℕ} {o : Op} {k : Resp o → Prog Op Resp α}
    (here : threads[i]? = some (.op o k)) (r : Resp o) :
    ∃ s, moves i (phases i) o r = some s ∧
      Tracked moves final (Function.update phases i s) (threads.set i (k r)) := by
  obtain ⟨s, moved, rest⟩ := h i _ here r
  refine ⟨s, moved, fun j x hx => ?_⟩
  by_cases hij : i = j
  · subst hij
    have hlt := (List.getElem?_eq_some_iff.mp here).1
    simp only [List.getElem?_set, hlt] at hx
    obtain rfl := Option.some.inj hx
    simpa using rest
  · rw [List.getElem?_set_ne hij] at hx
    rw [Function.update_of_ne (Ne.symm hij)]
    exact h j x hx

theorem Tracked.append {phases : ℕ → σ} {threads : List (Prog Op Resp α)} {x : Prog Op Resp α}
    {s : σ} (h : Tracked moves final phases threads)
    (obeys : Obeys (moves threads.length) s x (final threads.length)) :
    Tracked moves final (Function.update phases threads.length s) (threads ++ [x]) := by
  intro i y here
  by_cases last : i = threads.length
  · subst last
    obtain rfl : x = y := by simpa using here
    simpa using obeys
  · have inside : i < threads.length := by
      have bound := (List.getElem?_eq_some_iff.mp here).1
      simp only [List.length_append, List.length_singleton] at bound
      omega
    rw [List.getElem?_append_left inside] at here
    rw [Function.update_of_ne last]
    exact h i y here

/-- A joint invariant of phases and world that every guarded move keeps holds along every run
of threads that obey their automata. -/
theorem Run.tracked {a b : Pool Op Resp World α} (run : Run exec guard a b)
    (K : (ℕ → σ) → World → Prop) {phases : ℕ → σ}
    (start : Tracked moves final phases a.threads) (base : K phases a.world)
    (keep : ∀ φ i o x w w' r s, K φ w → guard i o x w → exec i o x w = some (w', r) →
      moves i (φ i) o r = some s → K (Function.update φ i s) w') :
    ∃ φ, Tracked moves final φ b.threads ∧ K φ b.world := by
  refine run.preserves (fun c => ∃ φ, Tracked moves final φ c.threads ∧ K φ c.world)
    ⟨phases, start, base⟩ ?_
  rintro c d i ⟨φ, tracked, holds⟩ e
  cases e with
  | mk here allowed done =>
    obtain ⟨s, moved, onward⟩ := tracked.step here _
    exact ⟨_, onward, keep φ i _ _ _ _ _ s holds allowed done moved⟩

end Runs

end DashDrop.Foundation.Discipline
