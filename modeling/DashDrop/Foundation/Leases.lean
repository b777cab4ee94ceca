/- GID: DashDrop/Foundation/Leases
   generality: G
   anchors: []
   digest: Maps whose entries run out, and what has held since a moment of a history. -/

import Mathlib.Data.List.AList

set_option autoImplicit false
set_option relaxedAutoImplicit false

namespace DashDrop.Foundation.Leases

section Retain

variable {κ α : Type} [DecidableEq κ]

def retain (keep : α → Bool) (m : AList fun _ : κ => α) : AList fun _ : κ => α :=
  ⟨m.entries.filter fun entry => keep entry.2,
    List.NodupKeys.sublist List.filter_sublist m.nodupKeys⟩

private theorem dlookup_filter (keep : α → Bool) (k : κ) (entries : List (Sigma fun _ : κ => α))
    (nodup : entries.NodupKeys) :
    (entries.filter fun entry => keep entry.2).dlookup k =
      (entries.dlookup k).filter keep := by
  induction entries with
  | nil => rfl
  | cons entry rest ih =>
    obtain ⟨k', a⟩ := entry
    have hrest := ih (List.nodupKeys_of_nodupKeys_cons nodup)
    have hfresh : k' ∉ rest.keys := List.notMem_keys_of_nodupKeys_cons nodup
    by_cases hkey : k = k'
    · subst hkey
      have hnone : rest.dlookup k = none := List.dlookup_eq_none.mpr hfresh
      by_cases hkeep : keep a = true
      · simp [hkeep, Option.filter]
      · simp [hkeep, hrest, hnone, Option.filter]
    · have hskip (tail : List (Sigma fun _ : κ => α)) :
          List.dlookup k (⟨k', a⟩ :: tail) = tail.dlookup k := List.dlookup_cons_ne tail _ hkey
      by_cases hkeep : keep a = true
      · simp [hkeep, hrest, hskip]
      · simp [hkeep, hrest, hskip]

@[simp] theorem lookup_retain (keep : α → Bool) (k : κ) (m : AList fun _ : κ => α) :
    (retain keep m).lookup k = (m.lookup k).filter keep :=
  dlookup_filter keep k m.entries m.nodupKeys

end Retain

section Since

variable {ε : Type} {starts stops : ε → Prop}

/-- Some entry of the history starts it, and no later entry stops it. -/
def Since (starts stops : ε → Prop) (history : List ε) : Prop :=
  ∃ before start after, history = before ++ start :: after ∧ starts start ∧
    ∀ later ∈ after, ¬ stops later

theorem not_since_nil : ¬ Since starts stops [] := by
  intro ⟨before, start, after, split, _⟩
  simp at split

theorem since_snoc (history : List ε) (entry : ε) :
    Since starts stops (history ++ [entry]) ↔
      starts entry ∨ (Since starts stops history ∧ ¬ stops entry) := by
  constructor
  · intro ⟨before, start, after, split, started, kept⟩
    -- The new entry is the start when nothing follows the start.
    rcases List.eq_nil_or_concat after with rfl | ⟨earlier, last, rfl⟩
    · obtain ⟨_, same⟩ := List.append_inj' split rfl
      left
      cases same
      exact started
    · rw [List.concat_eq_append, ← List.cons_append, ← List.append_assoc] at split
      obtain ⟨rfl, same⟩ := List.append_inj' split rfl
      cases same
      right
      constructor
      · exact ⟨before, start, earlier, rfl, started, fun later mem => kept later (by simp [mem])⟩
      · exact kept entry (by simp)
  · intro h
    rcases h with started | ⟨⟨before, start, after, rfl, started, kept⟩, running⟩
    · exact ⟨history, entry, [], rfl, started, by simp⟩
    · refine ⟨before, start, after ++ [entry], by simp, started, ?_⟩
      intro later mem
      rcases List.mem_append.mp mem with earlier | last
      · exact kept later earlier
      · rw [List.mem_singleton.mp last]
        exact running

end Since

end DashDrop.Foundation.Leases
