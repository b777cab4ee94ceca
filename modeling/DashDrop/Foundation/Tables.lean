/- GID: DashDrop/Foundation/Tables
   generality: G
   anchors: []
   digest: Tables with a primary key, the rows in the order of their keys. -/

import Mathlib.Data.List.Basic
import Mathlib.Order.Lattice
import Mathlib.Tactic.Common

set_option autoImplicit false
set_option relaxedAutoImplicit false

namespace DashDrop.Foundation.Tables

variable {α κ : Type} [LinearOrder κ]

/-- A table with the primary key `key`: one row a key, in the order of the keys. -/
structure Table (α : Type) {κ : Type} [LinearOrder κ] (key : α → κ) where
  rows : List α
  ordered : rows.Pairwise fun a b => key a < key b

/-- Insert a row at its place, or let `merge` change the row that has its key. -/
def upsertRows (key : α → κ) (a : α) (merge : α → α) : List α → List α
  | [] => [a]
  | b :: bs =>
      if key b = key a then merge b :: bs
      else if key a < key b then a :: b :: bs
      else b :: upsertRows key a merge bs

section Rows

variable {key : α → κ} {a x : α} {merge : α → α} {rows : List α}

theorem mem_upsertRows_cases (h : x ∈ upsertRows key a merge rows) :
    x = a ∨ x ∈ rows ∨ ∃ b ∈ rows, key b = key a ∧ x = merge b := by
  induction rows with
  | nil => simpa [upsertRows] using h
  | cons b bs ih =>
    unfold upsertRows at h
    split_ifs at h with hsame hless
    · rcases List.mem_cons.mp h with rfl | hmem
      · exact .inr (.inr ⟨b, List.mem_cons_self, hsame, rfl⟩)
      · exact .inr (.inl (List.mem_cons_of_mem b hmem))
    · rcases List.mem_cons.mp h with rfl | hmem
      · exact .inl rfl
      · exact .inr (.inl hmem)
    · rcases List.mem_cons.mp h with rfl | hmem
      · exact .inr (.inl List.mem_cons_self)
      · rcases ih hmem with hnew | hold | ⟨c, hc, hkey, hmerge⟩
        · exact .inl hnew
        · exact .inr (.inl (List.mem_cons_of_mem b hold))
        · exact .inr (.inr ⟨c, List.mem_cons_of_mem b hc, hkey, hmerge⟩)

/-- In a table in key order a row of the outcome is a row with another key, the merged row, or
the new row where the key was free. -/
theorem mem_upsertRows (hordered : rows.Pairwise fun b c => key b < key c) :
    x ∈ upsertRows key a merge rows ↔
      (x ∈ rows ∧ key x ≠ key a) ∨ (∃ b ∈ rows, key b = key a ∧ x = merge b) ∨
        ((∀ b ∈ rows, key b ≠ key a) ∧ x = a) := by
  induction rows with
  | nil => simp [upsertRows]
  | cons b bs ih =>
    obtain ⟨hahead, hrest⟩ := List.pairwise_cons.mp hordered
    unfold upsertRows
    split_ifs with hsame hless
    · have hother : ∀ c ∈ bs, key c ≠ key a := fun c hc => hsame ▸ (hahead c hc).ne'
      constructor
      · intro h
        rcases List.mem_cons.mp h with rfl | hmem
        · exact .inr (.inl ⟨b, List.mem_cons_self, hsame, rfl⟩)
        · exact .inl ⟨List.mem_cons_of_mem b hmem, hother x hmem⟩
      · rintro (⟨hmem, hne⟩ | ⟨c, hc, hkey, rfl⟩ | ⟨hfree, -⟩)
        · rcases List.mem_cons.mp hmem with rfl | hmem
          · exact absurd hsame hne
          · exact List.mem_cons_of_mem _ hmem
        · rcases List.mem_cons.mp hc with rfl | hc
          · exact List.mem_cons_self
          · exact absurd hkey (hother c hc)
        · exact absurd hsame (hfree b List.mem_cons_self)
    · have hother : ∀ c ∈ b :: bs, key c ≠ key a := by
        intro c hc
        rcases List.mem_cons.mp hc with rfl | hc
        · exact hless.ne'
        · exact (hless.trans (hahead c hc)).ne'
      constructor
      · intro h
        rcases List.mem_cons.mp h with rfl | hmem
        · exact .inr (.inr ⟨hother, rfl⟩)
        · exact .inl ⟨hmem, hother x hmem⟩
      · rintro (⟨hmem, -⟩ | ⟨c, hc, hkey, -⟩ | ⟨-, rfl⟩)
        · exact List.mem_cons_of_mem _ hmem
        · exact absurd hkey (hother c hc)
        · exact List.mem_cons_self
    · rw [List.mem_cons, ih hrest]
      constructor
      · rintro (rfl | ⟨hmem, hne⟩ | ⟨c, hc, hkey, rfl⟩ | ⟨hfree, rfl⟩)
        · exact .inl ⟨List.mem_cons_self, hsame⟩
        · exact .inl ⟨List.mem_cons_of_mem b hmem, hne⟩
        · exact .inr (.inl ⟨c, List.mem_cons_of_mem b hc, hkey, rfl⟩)
        · exact .inr (.inr ⟨by simpa using ⟨hsame, hfree⟩, rfl⟩)
      · rintro (⟨hmem, hne⟩ | ⟨c, hc, hkey, rfl⟩ | ⟨hfree, rfl⟩)
        · rcases List.mem_cons.mp hmem with rfl | hmem
          · exact .inl rfl
          · exact .inr (.inl ⟨hmem, hne⟩)
        · rcases List.mem_cons.mp hc with rfl | hc
          · exact absurd hkey hsame
          · exact .inr (.inr (.inl ⟨c, hc, hkey, rfl⟩))
        · exact .inr (.inr (.inr ⟨fun c hc => hfree c (List.mem_cons_of_mem b hc), rfl⟩))

theorem upsertRows_ordered (hordered : rows.Pairwise fun b c => key b < key c)
    (hmerge : ∀ b, key b = key a → key (merge b) = key a) :
    (upsertRows key a merge rows).Pairwise fun b c => key b < key c := by
  induction rows with
  | nil => simp [upsertRows]
  | cons b bs ih =>
    obtain ⟨hahead, hrest⟩ := List.pairwise_cons.mp hordered
    unfold upsertRows
    split_ifs with hsame hless
    · refine List.pairwise_cons.mpr ⟨fun c hc => ?_, hrest⟩
      rw [hmerge b hsame, ← hsame]
      exact hahead c hc
    · refine List.pairwise_cons.mpr ⟨fun c hc => ?_, hordered⟩
      rcases List.mem_cons.mp hc with rfl | hc
      · exact hless
      · exact hless.trans (hahead c hc)
    · have hbelow : key b < key a := lt_of_le_of_ne (not_lt.mp hless) hsame
      refine List.pairwise_cons.mpr ⟨fun c hc => ?_, ih hrest⟩
      rcases mem_upsertRows_cases hc with rfl | hold | ⟨d, hd, hkey, rfl⟩
      · exact hbelow
      · exact hahead c hold
      · rw [hmerge d hkey]
        exact hbelow

/-- A row whose key lies above the keys of all rows of a selection is the last of it. -/
theorem filter_upsertRows_last {p : α → Bool} (hordered : rows.Pairwise fun b c => key b < key c)
    (ha : p a = true) (habove : ∀ b ∈ rows, p b = true → key b < key a) :
    (upsertRows key a (fun _ => a) rows).filter p = rows.filter p ++ [a] := by
  induction rows with
  | nil => simp [upsertRows, ha]
  | cons b bs ih =>
    obtain ⟨hahead, hrest⟩ := List.pairwise_cons.mp hordered
    have hpast : ∀ c ∈ bs, key a ≤ key b → ¬ p c = true := by
      intro c hc hle hpc
      exact absurd (habove c (List.mem_cons_of_mem b hc) hpc) (not_lt.mpr (hle.trans (hahead c hc).le))
    have hself : key a ≤ key b → ¬ p b = true := by
      intro hle hpb
      exact absurd (habove b List.mem_cons_self hpb) (not_lt.mpr hle)
    unfold upsertRows
    split_ifs with hsame hless
    · have hnone : bs.filter p = [] := List.filter_eq_nil_iff.mpr fun c hc => hpast c hc hsame.ge
      simp [ha, hnone, hself hsame.ge]
    · have hnone : bs.filter p = [] := List.filter_eq_nil_iff.mpr fun c hc => hpast c hc hless.le
      simp [ha, hnone, hself hless.le]
    · rw [List.filter_cons, List.filter_cons,
        ih hrest fun c hc => habove c (List.mem_cons_of_mem b hc)]
      split_ifs <;> simp

end Rows

namespace Table

variable {key : α → κ}

def empty : Table α key := ⟨[], .nil⟩

instance : Inhabited (Table α key) := ⟨empty⟩

instance [DecidableEq α] : DecidableEq (Table α key) := fun s t =>
  decidable_of_iff (s.rows = t.rows) (by cases s; cases t; simp)

/-- `INSERT .. ON CONFLICT(key) DO UPDATE`. -/
def upsert (t : Table α key) (a : α) (merge : α → α)
    (h : ∀ b, key b = key a → key (merge b) = key a) : Table α key :=
  ⟨upsertRows key a merge t.rows, upsertRows_ordered t.ordered h⟩

/-- `INSERT OR REPLACE`. -/
def insertOrReplace (t : Table α key) (a : α) : Table α key :=
  t.upsert a (fun _ => a) fun _ _ => rfl

/-- `DELETE .. WHERE`. -/
def deleteWhere (t : Table α key) (p : α → Bool) : Table α key :=
  ⟨t.rows.filter fun a => !p a, t.ordered.filter _⟩

/-- `UPDATE .. SET .. WHERE`, for columns outside the key. -/
def updateWhere (t : Table α key) (p : α → Bool) (set : α → α) (h : ∀ a, key (set a) = key a) :
    Table α key :=
  ⟨t.rows.map fun a => if p a then set a else a, by
    refine List.pairwise_map.mpr (t.ordered.imp fun {a b} hab => ?_)
    have hkey : ∀ c, key (if p c then set c else c) = key c := fun c => by split_ifs <;> simp [h]
    rw [hkey, hkey]
    exact hab⟩

/-- `SELECT .. WHERE`, in the order of the key. -/
def select (t : Table α key) (p : α → Bool) : List α := t.rows.filter p

def find? (t : Table α key) (k : κ) : Option α := t.rows.find? fun a => key a = k

variable {t : Table α key} {a x : α}

@[simp] theorem empty_rows : (empty : Table α key).rows = [] := rfl

@[simp] theorem mem_select {p : α → Bool} : x ∈ t.select p ↔ x ∈ t.rows ∧ p x = true :=
  List.mem_filter

@[simp] theorem mem_deleteWhere {p : α → Bool} :
    x ∈ (t.deleteWhere p).rows ↔ x ∈ t.rows ∧ p x = false := by
  simp [deleteWhere]

theorem mem_updateWhere {p : α → Bool} {set : α → α} (h : ∀ a, key (set a) = key a) :
    x ∈ (t.updateWhere p set h).rows ↔
      (x ∈ t.rows ∧ p x = false) ∨ ∃ b ∈ t.rows, p b = true ∧ x = set b := by
  simp only [updateWhere, List.mem_map]
  constructor
  · rintro ⟨b, hb, rfl⟩
    split_ifs with hp
    · exact .inr ⟨b, hb, hp, rfl⟩
    · exact .inl ⟨hb, by simpa using hp⟩
  · rintro (⟨hx, hp⟩ | ⟨b, hb, hp, rfl⟩)
    · exact ⟨x, hx, by simp [hp]⟩
    · exact ⟨b, hb, by simp [hp]⟩

theorem mem_upsert {merge : α → α} {h : ∀ b, key b = key a → key (merge b) = key a} :
    x ∈ (t.upsert a merge h).rows ↔
      (x ∈ t.rows ∧ key x ≠ key a) ∨ (∃ b ∈ t.rows, key b = key a ∧ x = merge b) ∨
        ((∀ b ∈ t.rows, key b ≠ key a) ∧ x = a) :=
  mem_upsertRows t.ordered

@[simp] theorem mem_insertOrReplace :
    x ∈ (t.insertOrReplace a).rows ↔ (x ∈ t.rows ∧ key x ≠ key a) ∨ x = a := by
  unfold insertOrReplace
  rw [mem_upsert]
  constructor
  · rintro (hold | ⟨_, _, _, rfl⟩ | ⟨-, rfl⟩)
    · exact .inl hold
    · exact .inr rfl
    · exact .inr rfl
  · rintro (hold | rfl)
    · exact .inl hold
    · by_cases hfree : ∀ b ∈ t.rows, key b ≠ key x
      · exact .inr (.inr ⟨hfree, rfl⟩)
      · obtain ⟨b, hb, hkey⟩ := by simpa using hfree
        exact .inr (.inl ⟨b, hb, hkey, rfl⟩)

/-- A replacing insert above all keys of a selection adds its row at the end of it. -/
theorem select_insertOrReplace {p : α → Bool} (ha : p a = true)
    (habove : ∀ b ∈ t.select p, key b < key a) :
    (t.insertOrReplace a).select p = t.select p ++ [a] :=
  filter_upsertRows_last t.ordered ha fun b hb hp => habove b (mem_select.mpr ⟨hb, hp⟩)

theorem select_deleteWhere (p q : α → Bool) :
    (t.deleteWhere q).select p = (t.select p).filter fun a => !q a := by
  simp only [select, deleteWhere, List.filter_filter, Bool.and_comm]

end Table

end DashDrop.Foundation.Tables
