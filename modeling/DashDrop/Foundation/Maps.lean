/- GID: DashDrop/Foundation/Maps
   generality: G
   anchors: []
   digest: Updates of the values of a map in place. -/

import Mathlib.Data.List.AList

set_option autoImplicit false
set_option relaxedAutoImplicit false

namespace DashDrop.Foundation.Maps

variable {κ α : Type} [DecidableEq κ]

def modify (k : κ) (f : α → α) (m : AList fun _ : κ => α) : AList fun _ : κ => α :=
  match m.lookup k with
  | some v => m.insert k (f v)
  | none => m

theorem lookup_modify (k k' : κ) (f : α → α) (m : AList fun _ : κ => α) :
    (modify k f m).lookup k' = if k' = k then (m.lookup k).map f else m.lookup k' := by
  unfold modify
  split
  · rename_i v found
    by_cases same : k' = k
    · subst same
      simp [found]
    · simp [same, AList.lookup_insert_ne same]
  · rename_i missing
    by_cases same : k' = k
    · subst same
      simp [missing]
    · simp [same]

theorem lookup_modify_cases {k k' : κ} {f : α → α} {m : AList fun _ : κ => α} {v : α}
    (h : (modify k f m).lookup k' = some v) :
    ∃ old, m.lookup k' = some old ∧ (v = old ∨ k' = k ∧ v = f old) := by
  rw [lookup_modify] at h
  split_ifs at h with same
  · obtain ⟨old, found, rfl⟩ := Option.map_eq_some_iff.mp h
    subst same
    exact ⟨old, found, .inr ⟨rfl, rfl⟩⟩
  · exact ⟨v, h, .inl rfl⟩

theorem lookup_insert_ite (k k' : κ) (v : α) (m : AList fun _ : κ => α) :
    (m.insert k v).lookup k' = if k' = k then some v else m.lookup k' := by
  by_cases same : k' = k
  · subst same
    simp
  · simp [same, AList.lookup_insert_ne same]

theorem lookup_erase_ite (k k' : κ) (m : AList fun _ : κ => α) :
    (m.erase k).lookup k' = if k' = k then none else m.lookup k' := by
  by_cases same : k' = k
  · subst same
    simp
  · simp [same, AList.lookup_erase_ne same]

def mapValues (f : α → α) (m : AList fun _ : κ => α) : AList fun _ : κ => α where
  entries := m.entries.map fun e => ⟨e.1, f e.2⟩
  nodupKeys := by
    have keys : (m.entries.map fun e => (⟨e.1, f e.2⟩ : Sigma fun _ : κ => α)).keys =
        m.entries.keys := by
      simp [List.keys, Function.comp_def]
    rw [List.NodupKeys, keys]
    exact m.nodupKeys

private theorem dlookup_map (f : α → α) (k : κ) (entries : List (Sigma fun _ : κ => α)) :
    List.dlookup k (entries.map fun e => (⟨e.1, f e.2⟩ : Sigma fun _ : κ => α)) =
      (List.dlookup k entries).map f := by
  induction entries with
  | nil => rfl
  | cons e rest ih =>
    obtain ⟨k', v⟩ := e
    by_cases same : k = k'
    · subst same
      simp
    · rw [List.map_cons, List.dlookup_cons_ne _ _ same, List.dlookup_cons_ne _ _ same, ih]

@[simp] theorem lookup_mapValues (f : α → α) (k : κ) (m : AList fun _ : κ => α) :
    (mapValues f m).lookup k = (m.lookup k).map f :=
  dlookup_map f k m.entries

end DashDrop.Foundation.Maps
