/- GID: DashDrop/Foundation/QuietPeriods
   generality: G
   anchors: []
   digest: A meter of quiet periods over looks is due when a period of the asked width is over. -/

import Mathlib.Data.List.Basic
import Mathlib.Data.List.Induction
import Mathlib.Order.Lattice

set_option autoImplicit false
set_option relaxedAutoImplicit false

namespace DashDrop.Foundation.QuietPeriods

/-- A look reads the clock where a quiet period would begin and where its length is checked. -/
structure Meter (L : Type) where
  began : L → ℕ
  checked : L → ℕ
  quiet : L → Bool

namespace Meter

variable {L : Type} (m : Meter L) {width : ℕ} {looks : List L} {look : L}

def since (started : Option ℕ) (look : L) : Option ℕ :=
  if m.quiet look then some (started.getD (m.began look)) else none

def due (width : ℕ) (started : Option ℕ) (look : L) : Bool :=
  (m.since started look).any fun start => width ≤ m.checked look - start

/-- Looks from the first to the last of which nothing stirred for the width. -/
def Lasted (width : ℕ) (period : List L) : Prop :=
  ∃ first last, period.head? = some first ∧ period.getLast? = some last ∧
    (∀ look ∈ period, m.quiet look = true) ∧ width ≤ m.checked last - m.began first

/-- Each look is over before the next begins. -/
def InOrder (looks : List L) : Prop :=
  (∀ look ∈ looks, m.began look ≤ m.checked look) ∧
    looks.Pairwise fun look later => m.checked look ≤ m.began later

theorem since_looks {start : ℕ} (kept : looks.foldl m.since none = some start) :
    ∃ first rest, first :: rest <:+ looks ∧ m.began first = start ∧
      ∀ look ∈ first :: rest, m.quiet look = true := by
  induction looks using List.reverseRecOn generalizing start with
  | nil => cases kept
  | append_singleton looks look ih =>
    rw [List.foldl_append, List.foldl_cons, List.foldl_nil, since] at kept
    split_ifs at kept with quiet
    cases earlier : looks.foldl m.since none with
    | none =>
      rw [earlier] at kept
      refine ⟨look, [], ⟨looks, rfl⟩, Option.some.inj kept, fun other mem => ?_⟩
      rw [List.mem_singleton.mp mem]
      exact quiet
    | some s =>
      rw [earlier] at kept
      obtain rfl : s = start := Option.some.inj kept
      obtain ⟨first, rest, ⟨before, split⟩, begins, all⟩ := ih earlier
      refine ⟨first, rest ++ [look], ⟨before, ?_⟩, begins, fun other mem => ?_⟩
      · rw [← split, List.append_assoc, List.cons_append]
      · rw [← List.cons_append] at mem
        rcases List.mem_append.mp mem with old | new
        · exact all other old
        · rw [List.mem_singleton.mp new]
          exact quiet

/-- A start is kept from no later than the beginning of any quiet looks at the end. -/
theorem since_of_suffix (ordered : m.InOrder looks) {first : L} {rest : List L}
    (suffix : first :: rest <:+ looks) (quiet : ∀ look ∈ first :: rest, m.quiet look = true) :
    ∃ start, looks.foldl m.since none = some start ∧ start ≤ m.began first := by
  induction rest using List.reverseRecOn generalizing looks with
  | nil =>
    obtain ⟨before, rfl⟩ := suffix
    rw [List.foldl_append, List.foldl_cons, List.foldl_nil, since,
      if_pos (quiet first List.mem_cons_self)]
    refine ⟨_, rfl, ?_⟩
    cases earlier : before.foldl m.since none with
    | none => exact le_rfl
    | some start =>
      -- An earlier start belongs to a look before the first.
      obtain ⟨look, _, old, begins, -⟩ := m.since_looks earlier
      have mem : look ∈ before := old.subset List.mem_cons_self
      have ended := (List.pairwise_append.mp ordered.2).2.2 look mem first List.mem_cons_self
      have short := ordered.1 look (List.mem_append_left _ mem)
      rw [Option.getD_some, ← begins]
      exact short.trans ended
  | append_singleton rest look ih =>
    obtain ⟨before, rfl⟩ := suffix
    have split : before ++ first :: (rest ++ [look]) = (before ++ first :: rest) ++ [look] := by
      rw [List.append_assoc, List.cons_append]
    have ordered' : m.InOrder (before ++ first :: rest) := by
      rw [split] at ordered
      exact ⟨fun look mem => ordered.1 look (List.mem_append_left _ mem),
        (List.pairwise_append.mp ordered.2).1⟩
    have quiet' : ∀ look ∈ first :: rest, m.quiet look = true := by
      intro other mem
      rw [← List.cons_append] at quiet
      exact quiet other (List.mem_append_left _ mem)
    obtain ⟨start, kept, early⟩ := ih ordered' ⟨before, rfl⟩ quiet'
    have last : m.quiet look = true := quiet look (by simp)
    rw [split, List.foldl_append, List.foldl_cons, List.foldl_nil, since, if_pos last, kept]
    exact ⟨start, rfl, early⟩

theorem due_iff (ordered : m.InOrder (looks ++ [look])) :
    m.due width (looks.foldl m.since none) look = true ↔
      ∃ period, period <:+ looks ++ [look] ∧ m.Lasted width period := by
  have same : m.since (looks.foldl m.since none) look =
      (looks ++ [look]).foldl m.since none := by
    rw [List.foldl_append, List.foldl_cons, List.foldl_nil]
  rw [due, same]
  constructor
  · intro due
    cases kept : (looks ++ [look]).foldl m.since none with
    | none =>
      rw [kept] at due
      cases due
    | some start =>
      rw [kept] at due
      obtain ⟨first, rest, suffix, rfl, quiet⟩ := m.since_looks kept
      refine ⟨first :: rest, suffix, first, look, rfl, ?_, quiet, decide_eq_true_eq.mp due⟩
      obtain ⟨before, split⟩ := suffix
      have final := congrArg List.getLast? split
      rwa [List.getLast?_append_of_ne_nil _ (List.cons_ne_nil first rest),
        List.getLast?_concat] at final
  · rintro ⟨period, suffix, first, last, head, final, quiet, long⟩
    obtain ⟨rest, rfl⟩ := List.head?_eq_some_iff.mp head
    obtain ⟨start, kept, early⟩ := m.since_of_suffix ordered suffix quiet
    obtain ⟨before, split⟩ := suffix
    have ends := congrArg List.getLast? split
    rw [List.getLast?_append_of_ne_nil _ (List.cons_ne_nil first rest), List.getLast?_concat,
      final] at ends
    obtain rfl := Option.some.inj ends
    rw [kept, Option.any_some, decide_eq_true_eq]
    omega

end Meter

end DashDrop.Foundation.QuietPeriods
