/- GID: DashDrop/Foundation/Followers
   generality: G
   anchors: []
   digest: What a follower of numbered sources is told, and the slices that it is told without a gap. -/

import DashDrop.Foundation.Numbering
import Mathlib.Data.List.Chain

set_option autoImplicit false
set_option relaxedAutoImplicit false

namespace DashDrop.Foundation.Followers

open DashDrop.Foundation.Numbering

variable {σ α : Type}

/-- An item of a source, or that the source is to be followed from after a number. -/
inductive Told (σ α : Type) where
  | item (source : σ) (a : α)
  | reset (source : σ) (n : ℕ)
  deriving DecidableEq

namespace Told

def source : Told σ α → σ
  | item source _ => source
  | reset source _ => source

def number (num : α → ℕ) : Told σ α → ℕ
  | item _ a => num a
  | reset _ n => n

def isItem : Told σ α → Bool
  | item _ _ => true
  | reset _ _ => false

end Told

/-- An item goes on with the number after what was told before it. After a reset to 0 the source
decides where it starts. -/
def Follows (num : α → ℕ) (before : Told σ α) : Told σ α → Prop
  | .item source a => before.source = source ∧ (num a = before.number num + 1 ∨ before.number num = 0)
  | .reset _ _ => True

variable {num : α → ℕ} {told before stretch after : List (Told σ α)} {source : σ} {xs : List α}

theorem chain_items {lo hi : ℕ} (h : Consecutive num lo hi xs) (source : σ) :
    (xs.map (Told.item source)).IsChain (Follows num) := by
  rw [List.isChain_map]
  induction xs generalizing lo with
  | nil => exact .nil
  | cons a rest ih =>
    have tail : Consecutive num (lo + 1) hi rest := h.drop 1
    cases rest with
    | nil => exact .singleton a
    | cons b rest =>
      have first : num a = lo := (h.getElem? (i := 0) rfl).trans (Nat.add_zero lo)
      have second : num b = lo + 1 := (h.getElem? (i := 1) rfl)
      refine List.isChain_cons_cons.mpr ⟨⟨rfl, .inl ?_⟩, ih tail⟩
      show num b = num a + 1
      omega

theorem stretch_consecutive (chain : stretch.IsChain (Follows num))
    (items : ∀ x ∈ stretch, x.isItem = true) (positive : ∀ source a, .item source a ∈ stretch → 1 ≤ num a)
    (some_item : stretch ≠ []) :
    ∃ source a rest, stretch = (a :: rest).map (Told.item source) ∧
      Consecutive num (num a) (num a + (rest.length + 1)) (a :: rest) := by
  induction stretch with
  | nil => exact absurd rfl some_item
  | cons x rest ih =>
    cases x with
    | reset source n => exact absurd (items _ List.mem_cons_self) (by simp [Told.isItem])
    | item source a =>
      cases rest with
      | nil => exact ⟨source, a, [], rfl, by simp [Consecutive, List.Ico]⟩
      | cons y rest =>
        obtain ⟨follows, chain⟩ := List.isChain_cons_cons.mp chain
        obtain ⟨other, b, bs, same, numbers⟩ := ih chain
          (fun z mem => items z (List.mem_cons_of_mem _ mem))
          (fun source a mem => positive source a (List.mem_cons_of_mem _ mem)) (by simp)
        obtain ⟨rfl, -⟩ := List.cons.inj same
        obtain ⟨of_one, next⟩ := follows
        have here := positive source a List.mem_cons_self
        have up : num b = num a + 1 := by
          rcases next with next | zero
          · exact next
          · exact absurd zero (by show num a ≠ 0; omega)
        obtain rfl : source = other := of_one
        refine ⟨source, a, b :: bs, by rw [same]; rfl, ?_⟩
        have one : Consecutive num (num a) (num a + 1) [a] := by simp [Consecutive, List.Ico]
        rw [up] at numbers
        have joined := one.append numbers (by omega) (by omega)
        have same_end : num a + ((b :: bs).length + 1) = num a + 1 + (bs.length + 1) := by
          rw [List.length_cons]
          omega
        rw [same_end]
        exact joined

theorem slice_of_consecutive {record : List α} {lo hi : ℕ}
    (numbered : Consecutive num 1 (record.length + 1) record) (h : Consecutive num lo hi xs)
    (first : 1 ≤ lo) (recorded : ∀ a ∈ xs, a ∈ record) :
    xs = (record.drop (lo - 1)).take xs.length := by
  have slice := (numbered.drop (lo - 1)).take xs.length
  have length := h.length
  by_cases empty : xs = []
  · simp [empty]
  · have inside : hi ≤ record.length + 1 := by
      obtain ⟨a, mem, last⟩ := h.holds (k := hi - 1) (by
        have := List.length_pos_of_ne_nil empty
        omega) (by
        have := List.length_pos_of_ne_nil empty
        omega)
      have bound := (numbered.bounds (recorded a mem)).2
      omega
    rw [show 1 + (lo - 1) = lo by omega, length,
      show min (lo + (hi - lo)) (record.length + 1) = hi by
        have := List.length_pos_of_ne_nil empty
        omega] at slice
    rw [length]
    refine h.eq_of_named slice fun a ha b hb named => ?_
    exact numbered.named (recorded a ha) (List.mem_of_mem_drop (List.mem_of_mem_take hb)) named

/-- What a follower is told of records: items of the records, each after the one before it. -/
structure Account (num : α → ℕ) (record : σ → List α) (told : List (Told σ α)) : Prop where
  chain : told.IsChain (Follows num)
  recorded : ∀ source a, .item source a ∈ told → a ∈ record source

section Account

variable {record later : σ → List α}

theorem Account.nil : Account num record [] := ⟨.nil, fun _ _ mem => absurd mem List.not_mem_nil⟩

theorem Account.mono (h : Account num record told) (grown : ∀ source, record source <+: later source) :
    Account num later told :=
  ⟨h.chain, fun source a mem => (grown source).subset (h.recorded source a mem)⟩

theorem Account.reset (h : Account num record told) (source : σ) (n : ℕ) :
    Account num record (told ++ [.reset source n]) := by
  constructor
  · refine List.isChain_append.mpr ⟨h.chain, .singleton _, ?_⟩
    intro x _ y first
    obtain rfl := Option.some.inj first
    trivial
  · intro other a mem
    rcases List.mem_append.mp mem with old | new
    · exact h.recorded other a old
    · simp at new

theorem Account.items {lo hi : ℕ} (h : Account num record told) (numbers : Consecutive num lo hi xs)
    (recorded : ∀ a ∈ xs, a ∈ record source)
    (joint : ∀ last ∈ told.getLast?, last.source = source ∧
      (lo = last.number num + 1 ∨ last.number num = 0)) :
    Account num record (told ++ xs.map (.item source)) := by
  constructor
  · refine List.isChain_append.mpr ⟨h.chain, chain_items numbers source, ?_⟩
    intro last ends y first
    rw [List.head?_map] at first
    obtain ⟨a, head, rfl⟩ := Option.map_eq_some_iff.mp first
    obtain ⟨of_one, next⟩ := joint last ends
    have starts : num a = lo := by
      rw [List.head?_eq_getElem?] at head
      exact (numbers.getElem? head).trans (Nat.add_zero lo)
    exact ⟨of_one, by omega⟩
  · intro other a mem
    rcases List.mem_append.mp mem with old | new
    · exact h.recorded other a old
    · obtain ⟨b, inside, same⟩ := List.mem_map.mp new
      cases same
      exact recorded _ inside

/-- Between two resets a follower is told a slice of one source's record, which starts right after
the number of the reset before it. -/
theorem Account.slice (h : Account num record told)
    (numbered : ∀ source, Consecutive num 1 ((record source).length + 1) (record source))
    (split : told = before ++ stretch ++ after) (items : ∀ x ∈ stretch, x.isItem = true)
    (some_item : stretch ≠ []) :
    ∃ source k, stretch = (((record source).drop k).take stretch.length).map (Told.item source) ∧
      ∀ other n, before.getLast? = some (.reset other n) → other = source ∧ (k = n ∨ n = 0) := by
  have mem {x : Told σ α} (inside : x ∈ stretch) : x ∈ told := by
    rw [split]
    exact List.mem_append_left _ (List.mem_append_right _ inside)
  have positive (source : σ) (a : α) (inside : .item source a ∈ stretch) : 1 ≤ num a :=
    ((numbered source).bounds (h.recorded source a (mem inside))).1
  have chain := h.chain
  rw [split, List.isChain_append, List.isChain_append] at chain
  obtain ⟨⟨-, inner, joint⟩, -, -⟩ := chain
  obtain ⟨source, a, rest, same, numbers⟩ := stretch_consecutive inner items positive some_item
  have recorded : ∀ b ∈ a :: rest, b ∈ record source := by
    intro b inside
    refine h.recorded source b (mem ?_)
    rw [same]
    exact List.mem_map_of_mem inside
  have first : 1 ≤ num a := ((numbered source).bounds (recorded a List.mem_cons_self)).1
  refine ⟨source, num a - 1, ?_, ?_⟩
  · have slice := slice_of_consecutive (numbered source) numbers first recorded
    have length : stretch.length = (a :: rest).length := by rw [same, List.length_map]
    rw [length, ← slice]
    exact same
  · intro other n last
    have follows : Follows num (.reset other n) (.item source a) :=
      joint _ last _ (by rw [same]; rfl)
    obtain ⟨of_one, next⟩ := follows
    refine ⟨of_one, ?_⟩
    rcases next with next | zero
    · left
      change num a = n + 1 at next
      omega
    · exact .inr zero

end Account

end DashDrop.Foundation.Followers
