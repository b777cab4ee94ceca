/- GID: DashDrop/Foundation/Renewals
   generality: G
   anchors: []
   digest: Entries that sightings renew until they run out, pruned early or late. -/

import DashDrop.Foundation.Leases
import DashDrop.Foundation.Maps
import Mathlib.Data.List.Chain
import Mathlib.Data.List.Induction
import Mathlib.Order.Lattice

set_option autoImplicit false
set_option relaxedAutoImplicit false

namespace DashDrop.Foundation.Renewals

open DashDrop.Foundation.Leases DashDrop.Foundation.Maps

/-- What a sighting of a key makes of its entry. -/
structure Register (κ σ α : Type) where
  key : σ → κ
  seen : σ → ℕ
  ends : σ → ℕ
  fresh : σ → α
  renew : σ → α → α
  expires : α → ℕ
  expires_renew : ∀ s a, expires (renew s a) = ends s

/-- A sighting, or a look that drops what has run out. -/
inductive Act (σ : Type) where
  | sight (s : σ)
  | prune (now : ℕ)
  deriving DecidableEq

def Act.sighting {σ : Type} : Act σ → Option σ
  | .sight s => some s
  | .prune _ => none

namespace Register

variable {κ σ α : Type} [DecidableEq κ] (r : Register κ σ α)

def live (now : ℕ) (a : α) : Bool := r.expires a > now

def time : Act σ → ℕ
  | .sight s => r.seen s
  | .prune now => now

def act (m : AList fun _ : κ => α) : Act σ → AList fun _ : κ => α
  | .sight s =>
      let kept := retain (r.live (r.seen s)) m
      kept.insert (r.key s) (r.renew s ((kept.lookup (r.key s)).getD (r.fresh s)))
  | .prune now => retain (r.live now) m

def run (acts : List (Act σ)) : AList fun _ : κ => α := acts.foldl r.act ∅

def again (entry : Option α) (s : σ) : Option α :=
  some (r.renew s ((entry.filter (r.live (r.seen s))).getD (r.fresh s)))

def current (k : κ) (sightings : List σ) : Option α :=
  (sightings.filter fun s => r.key s = k).foldl r.again none

variable {r} {k : κ} {acts : List (Act σ)}

theorem current_seen {sightings : List σ} {s : σ} (same : r.key s = k) :
    r.current k (sightings ++ [s]) = r.again (r.current k sightings) s := by
  have mine : [s].filter (fun s => r.key s = k) = [s] := by simp [same]
  rw [current, List.filter_append, mine, List.foldl_append]
  rfl

theorem current_unseen {sightings : List σ} {s : σ} (other : r.key s ≠ k) :
    r.current k (sightings ++ [s]) = r.current k sightings := by
  have none_mine : [s].filter (fun s => r.key s = k) = [] := by simp [other]
  rw [current, List.filter_append, none_mine, List.append_nil, current]

section Act

variable {m : AList fun _ : κ => α} {s : σ} {now later : ℕ} {entry entry' : Option α}

omit [DecidableEq κ] in
theorem filter_live_live (le : now ≤ later) :
    (entry.filter (r.live now)).filter (r.live later) = entry.filter (r.live later) := by
  cases entry with
  | none => rfl
  | some a =>
    by_cases fresh : r.live later a = true
    · have before : r.live now a = true := by
        simp only [live, decide_eq_true_eq] at fresh ⊢
        omega
      rw [Option.filter_some, if_pos before]
    · rw [Option.filter_some]
      split_ifs
      · rfl
      · rw [Option.filter_some, if_neg fresh, Option.filter_none]

theorem lookup_prune : (r.act m (.prune now)).lookup k = (m.lookup k).filter (r.live now) :=
  lookup_retain _ _ _

theorem lookup_seen (same : r.key s = k) :
    (r.act m (.sight s)).lookup k = r.again (m.lookup k) s := by
  rw [act, lookup_insert_ite, if_pos same.symm, lookup_retain, same, again]

theorem lookup_unseen (other : r.key s ≠ k) :
    (r.act m (.sight s)).lookup k = (m.lookup k).filter (r.live (r.seen s)) := by
  rw [act, lookup_insert_ite, if_neg (Ne.symm other), lookup_retain]

omit [DecidableEq κ] in
theorem again_congr (h : entry.filter (r.live (r.seen s)) = entry'.filter (r.live (r.seen s))) :
    r.again entry s = r.again entry' s := by
  rw [again, h, again]

end Act

theorem run_snoc (a : Act σ) : r.run (acts ++ [a]) = r.act (r.run acts) a := by
  rw [run, List.foldl_append, List.foldl_cons, List.foldl_nil, run]

omit [DecidableEq κ] in
theorem before_snoc {a : Act σ} (clock : ((acts ++ [a]).map r.time).Pairwise (· ≤ ·)) :
    (acts.map r.time).Pairwise (· ≤ ·) ∧ ∀ b ∈ acts, r.time b ≤ r.time a := by
  rw [List.map_append, List.pairwise_append] at clock
  exact ⟨clock.1, fun b mem => clock.2.2 _ (List.mem_map_of_mem mem) _ (by simp)⟩

/-- Whatever is pruned in between, the entries in force are those of the sightings. -/
theorem lookup_run {now : ℕ} (clock : (acts.map r.time).Pairwise (· ≤ ·))
    (later : ∀ a ∈ acts, r.time a ≤ now) :
    ((r.run acts).lookup k).filter (r.live now) =
      (r.current k (acts.filterMap Act.sighting)).filter (r.live now) := by
  induction acts using List.reverseRecOn generalizing now with
  | nil => rfl
  | append_singleton acts a ih =>
    obtain ⟨earlier, before⟩ := before_snoc clock
    have due : r.time a ≤ now := later a (by simp)
    have sofar := ih earlier fun b mem => later b (by simp [mem])
    have known := ih earlier before
    rw [run_snoc, List.filterMap_append]
    cases a with
    | prune t =>
      have same : [Act.prune t].filterMap Act.sighting = ([] : List σ) := rfl
      rw [same, List.append_nil, ← sofar, lookup_prune]
      exact filter_live_live due
    | sight s =>
      have same : [Act.sight s].filterMap Act.sighting = [s] := rfl
      rw [same]
      by_cases key : r.key s = k
      · rw [lookup_seen key, current_seen key, again_congr known]
      · rw [lookup_unseen key, current_unseen key, ← sofar]
        exact filter_live_live due

theorem lookup_run_snoc {a : Act σ} (clock : ((acts ++ [a]).map r.time).Pairwise (· ≤ ·))
    {entry : α} : (r.run (acts ++ [a])).lookup k = some entry ↔
      r.current k ((acts ++ [a]).filterMap Act.sighting) = some entry ∧
        (r.time a < r.expires entry ∨ ∃ s, a = .sight s ∧ r.key s = k) := by
  obtain ⟨earlier, before⟩ := before_snoc clock
  have known := lookup_run (k := k) earlier before
  rw [run_snoc, List.filterMap_append]
  cases a with
  | prune t =>
    have same : [Act.prune t].filterMap Act.sighting = ([] : List σ) := rfl
    have kept : ((r.run acts).lookup k).filter (r.live t) =
        (r.current k (acts.filterMap Act.sighting)).filter (r.live t) := known
    rw [same, List.append_nil, lookup_prune, kept, Option.filter_eq_some_iff]
    simp [live, time]
  | sight s =>
    have same : [Act.sight s].filterMap Act.sighting = [s] := rfl
    have kept : ((r.run acts).lookup k).filter (r.live (r.seen s)) =
        (r.current k (acts.filterMap Act.sighting)).filter (r.live (r.seen s)) := known
    rw [same]
    by_cases key : r.key s = k
    · rw [lookup_seen key, current_seen key, again_congr kept]
      simp [key]
    · rw [lookup_unseen key, current_unseen key, kept, Option.filter_eq_some_iff]
      simp [live, time, key]

/-- Sightings each of which came while the one before was in force. -/
def Unbroken (r : Register κ σ α) (sightings : List σ) : Prop :=
  sightings.IsChain fun s later => r.seen later < r.ends s

/-- What a life leaves: the entry of its first sighting, renewed by the others. -/
def left (r : Register κ σ α) (first : σ) (rest : List σ) : α :=
  rest.foldl (fun entry s => r.renew s entry) (r.renew first (r.fresh first))

/-- The sightings of a key, the life it is in split off. -/
structure Life (r : Register κ σ α) (k : κ) (sightings before : List σ) (first : σ)
    (rest : List σ) : Prop where
  split : sightings.filter (fun s => r.key s = k) = before ++ first :: rest
  ended : ∀ s ∈ before.getLast?, r.ends s ≤ r.seen first
  unbroken : Unbroken r (first :: rest)

section Lives

omit [DecidableEq κ]

variable {first s last : σ} {rest before sightings : List σ}

theorem unbroken_snoc : Unbroken r (first :: (rest ++ [s])) ↔
    Unbroken r (first :: rest) ∧ ∀ last ∈ (first :: rest).getLast?, r.seen s < r.ends last := by
  rw [Unbroken, ← List.cons_append, List.isChain_append]
  simp [Unbroken]

theorem left_snoc : left r first (rest ++ [s]) = r.renew s (left r first rest) := by
  rw [left, List.foldl_append, List.foldl_cons, List.foldl_nil, left]

theorem expires_left (final : (first :: rest).getLast? = some last) :
    r.expires (left r first rest) = r.ends last := by
  induction rest using List.reverseRecOn with
  | nil =>
    obtain rfl := Option.some.inj final
    exact r.expires_renew _ _
  | append_singleton rest s _ =>
    rw [← List.cons_append, List.getLast?_concat] at final
    obtain rfl := Option.some.inj final
    rw [left_snoc, r.expires_renew]

theorem again_ended {entry : Option α} (late : ∀ a ∈ entry, r.expires a ≤ r.seen s) :
    r.again entry s = some (left r s []) := by
  cases entry with
  | none => rfl
  | some a =>
    have ended : ¬ r.live (r.seen s) a = true := by
      simp only [live, decide_eq_true_eq]
      have := late a rfl
      omega
    rw [again, Option.filter_some, if_neg ended]
    rfl

theorem again_left (rest_ends : ∀ last ∈ (first :: rest).getLast?, r.seen s < r.ends last) :
    r.again (some (left r first rest)) s = some (left r first (rest ++ [s])) := by
  obtain ⟨last, final⟩ : ∃ last, (first :: rest).getLast? = some last := ⟨_, List.getLast?_cons⟩
  have inForce : r.live (r.seen s) (left r first rest) = true := by
    simp only [live, decide_eq_true_eq, expires_left final]
    exact rest_ends last final
  rw [again, Option.filter_some, if_pos inForce, left_snoc]
  rfl

theorem exists_parts {entry : α} (h : sightings.foldl r.again none = some entry) :
    ∃ before first rest, sightings = before ++ first :: rest ∧
      (∀ s ∈ before.getLast?, r.ends s ≤ r.seen first) ∧ Unbroken r (first :: rest) ∧
      entry = left r first rest := by
  induction sightings using List.reverseRecOn generalizing entry with
  | nil => cases h
  | append_singleton sightings s ih =>
    rw [List.foldl_append, List.foldl_cons, List.foldl_nil] at h
    cases earlier : sightings.foldl r.again none with
    | none =>
      rw [earlier] at h
      cases sightings using List.reverseRecOn with
      | nil =>
        refine ⟨[], s, [], rfl, ?_, List.isChain_singleton s, (Option.some.inj h).symm⟩
        intro s mem
        cases mem
      | append_singleton sightings s _ =>
        rw [List.foldl_append] at earlier
        cases earlier
    | some old =>
      obtain ⟨before, first, rest, rfl, ended, unbroken, rfl⟩ := ih earlier
      rw [earlier] at h
      obtain ⟨last, final⟩ : ∃ last, (first :: rest).getLast? = some last := ⟨_, List.getLast?_cons⟩
      by_cases inForce : r.seen s < r.ends last
      · have every : ∀ last ∈ (first :: rest).getLast?, r.seen s < r.ends last := by
          intro other mem
          obtain rfl := Option.some.inj (final.symm.trans mem)
          exact inForce
        refine ⟨before, first, rest ++ [s], by simp, ended, unbroken_snoc.mpr ⟨unbroken, every⟩, ?_⟩
        rw [again_left every] at h
        exact (Option.some.inj h).symm
      · have ended : ∀ a ∈ some (left r first rest), r.expires a ≤ r.seen s := by
          intro a mem
          rw [← Option.some.inj mem, expires_left final]
          omega
        refine ⟨before ++ first :: rest, s, [], rfl, fun other mem => ?_,
          List.isChain_singleton s, ?_⟩
        · rw [List.getLast?_append_of_ne_nil _ (List.cons_ne_nil first rest), final] at mem
          obtain rfl := Option.some.inj mem
          omega
        · rw [again_ended ended] at h
          exact (Option.some.inj h).symm

theorem foldl_parts (ended : ∀ s ∈ before.getLast?, r.ends s ≤ r.seen first)
    (unbroken : Unbroken r (first :: rest)) :
    (before ++ first :: rest).foldl r.again none = some (left r first rest) := by
  induction rest using List.reverseRecOn with
  | nil =>
    rw [List.foldl_append, List.foldl_cons, List.foldl_nil]
    apply again_ended
    intro a mem
    obtain ⟨before', first', rest', rfl, -, -, rfl⟩ := exists_parts mem
    obtain ⟨last, final⟩ : ∃ last, (first' :: rest').getLast? = some last := ⟨_, List.getLast?_cons⟩
    rw [expires_left final]
    exact ended last (by
      rwa [List.getLast?_append_of_ne_nil _ (List.cons_ne_nil first' rest')])
  | append_singleton rest s ih =>
    obtain ⟨unbroken, inForce⟩ := unbroken_snoc.mp unbroken
    have split : before ++ first :: (rest ++ [s]) = (before ++ first :: rest) ++ [s] := by simp
    rw [split, List.foldl_append, ih unbroken, List.foldl_cons, List.foldl_nil, again_left inForce]

end Lives

section Life

variable {sightings before : List σ} {first last s : σ} {rest : List σ}

theorem Life.key_last (h : Life r k sightings before first rest)
    (final : (first :: rest).getLast? = some last) : r.key last = k := by
  have mem : last ∈ sightings.filter fun s => r.key s = k := by
    rw [h.split]
    exact List.mem_append_right _ (List.mem_of_getLast? final)
  exact of_decide_eq_true (List.mem_filter.mp mem).2

theorem Life.mem_last (h : Life r k sightings before first rest)
    (final : (first :: rest).getLast? = some last) : last ∈ sightings := by
  have mem : last ∈ sightings.filter fun s => r.key s = k := by
    rw [h.split]
    exact List.mem_append_right _ (List.mem_of_getLast? final)
  exact (List.mem_filter.mp mem).1

theorem Life.last_seen (h : Life r k (sightings ++ [s]) before first rest) (same : r.key s = k) :
    (first :: rest).getLast? = some s := by
  have mine : [s].filter (fun s => r.key s = k) = [s] := by simp [same]
  have split := h.split
  rw [List.filter_append, mine] at split
  have ends := congrArg List.getLast? split
  rwa [List.getLast?_concat, List.getLast?_append_of_ne_nil _ (List.cons_ne_nil first rest),
    eq_comm] at ends

end Life

theorem current_eq_some {sightings : List σ} {entry : α} :
    r.current k sightings = some entry ↔
      ∃ before first rest, Life r k sightings before first rest ∧ entry = left r first rest := by
  constructor
  · intro h
    obtain ⟨before, first, rest, split, ended, unbroken, same⟩ := exists_parts h
    exact ⟨before, first, rest, ⟨split, ended, unbroken⟩, same⟩
  · rintro ⟨before, first, rest, ⟨split, ended, unbroken⟩, rfl⟩
    rw [current, split]
    exact foldl_parts ended unbroken

end Register

end DashDrop.Foundation.Renewals
