/- GID: DashDrop/Foundation/Slots
   generality: G
   anchors: []
   digest: Numbered tasks and the maps of channel ends that belong to them. -/

import Mathlib.Data.List.AList
import Mathlib.Tactic.Common

set_option autoImplicit false
set_option relaxedAutoImplicit false

namespace DashDrop.Foundation.Slots

variable {α β : Type} {P : ℕ → α → Prop} {l : List α}

def Each (P : ℕ → α → Prop) (l : List α) : Prop := ∀ i a, l[i]? = some a → P i a

instance [∀ i a, Decidable (P i a)] : Decidable (Each P l) :=
  decidable_of_iff (∀ e ∈ l.zipIdx, P e.2 e.1)
    ⟨fun h i a hi => h (a, i) (List.mem_zipIdx_iff_getElem?.mpr hi),
      fun h _ he => h _ _ (List.mem_zipIdx_iff_getElem?.mp he)⟩

/-- Apply `f` at every place that the test picks. -/
def adjust (here : ℕ → Bool) (f : α → α) (l : List α) : List α :=
  l.mapIdx fun i a => if here i then f a else a

@[simp] theorem length_adjust (here : ℕ → Bool) (f : α → α) (l : List α) :
    (adjust here f l).length = l.length := by
  simp [adjust]

theorem getElem?_adjust (here : ℕ → Bool) (f : α → α) (l : List α) (i : ℕ) :
    (adjust here f l)[i]? = l[i]?.map fun a => if here i then f a else a := by
  simp [adjust, List.getElem?_mapIdx]

theorem map_adjust {g : α → β} {f : α → α} (h : ∀ a, g (f a) = g a) (here : ℕ → Bool)
    (l : List α) : (adjust here f l).map g = l.map g := by
  apply List.ext_getElem?
  intro i
  simp only [List.getElem?_map, getElem?_adjust, Option.map_map]
  congr 1
  funext a
  by_cases hi : here i <;> simp [hi, h]

theorem map_set_of_eq {g : α → β} {i : ℕ} {a b : α} (hi : l[i]? = some a) (h : g b = g a) :
    (l.set i b).map g = l.map g := by
  apply List.ext_getElem?
  intro j
  by_cases hj : i = j
  · subst hj
    obtain ⟨hlt, hget⟩ := List.getElem?_eq_some_iff.mp hi
    simp [hlt, hget, h]
  · simp [List.getElem?_set_ne hj]

theorem getElem?_set_cases {i j : ℕ} {a b : α} (h : (l.set i b)[j]? = some a) :
    (i = j ∧ a = b) ∨ (i ≠ j ∧ l[j]? = some a) := by
  by_cases hj : i = j
  · subst hj
    have hlt : i < l.length := by
      have := (List.getElem?_eq_some_iff.mp h).1
      simpa using this
    refine .inl ⟨rfl, ?_⟩
    simpa [hlt] using h.symm
  · exact .inr ⟨hj, by rwa [List.getElem?_set_ne hj] at h⟩

theorem place_unique {g : α → β} (h : (l.map g).Nodup) {i j : ℕ} {a b : α} (hi : l[i]? = some a)
    (hj : l[j]? = some b) (hkey : g a = g b) : i = j := by
  have hlt : i < (l.map g).length := by
    simpa using (List.getElem?_eq_some_iff.mp hi).1
  apply (List.getElem?_inj hlt h).mp
  simp [hi, hj, hkey]

theorem Each.set {Q : ℕ → α → Prop} {i : ℕ} {b : α} (h : Each P l) (hb : Q i b)
    (hrest : ∀ j a, i ≠ j → l[j]? = some a → P j a → Q j a) : Each Q (l.set i b) := by
  intro j a hj
  obtain ⟨rfl, rfl⟩ | ⟨hne, hold⟩ := getElem?_set_cases hj
  · exact hb
  · exact hrest j a hne hold (h j a hold)

theorem Each.mono {Q : ℕ → α → Prop} (h : Each P l) (hPQ : ∀ i a, l[i]? = some a → P i a → Q i a) :
    Each Q l :=
  fun i a hi => hPQ i a hi (h i a hi)

theorem Each.adjust {Q : ℕ → α → Prop} {here : ℕ → Bool} {f : α → α} (h : Each P l)
    (hhere : ∀ i a, here i = true → l[i]? = some a → P i a → Q i (f a))
    (hrest : ∀ i a, here i = false → l[i]? = some a → P i a → Q i a) :
    Each Q (Slots.adjust here f l) := by
  intro i a hi
  rw [getElem?_adjust] at hi
  obtain ⟨b, hb, rfl⟩ := Option.map_eq_some_iff.mp hi
  cases hpick : here i with
  | true => simpa using hhere i b hpick hb (h i b hb)
  | false => simpa using hrest i b hpick hb (h i b hb)

abbrev Owners := AList (fun _ : ℕ => ℕ)

def Owners.has (m : Owners) (i : ℕ) : Bool := m.entries.any fun e => e.2 = i

theorem lookup_insert_cases {m : Owners} {k k' i j : ℕ}
    (h : AList.lookup k' (m.insert k i) = some j) :
    (k' = k ∧ j = i) ∨ (k' ≠ k ∧ m.lookup k' = some j) := by
  by_cases hk : k' = k
  · subst hk
    rw [AList.lookup_insert] at h
    exact .inl ⟨rfl, (Option.some.inj h).symm⟩
  · rw [AList.lookup_insert_ne hk] at h
    exact .inr ⟨hk, h⟩

theorem lookup_erase_cases {m : Owners} {k k' j : ℕ}
    (h : AList.lookup k' (m.erase k) = some j) : k' ≠ k ∧ m.lookup k' = some j := by
  by_cases hk : k' = k
  · subst hk
    rw [AList.lookup_erase] at h
    cases h
  · rw [AList.lookup_erase_ne hk] at h
    exact ⟨hk, h⟩

end DashDrop.Foundation.Slots
