/- GID: DashDrop/Foundation/Numbering
   generality: G
   anchors: []
   digest: Lists of items that carry consecutive numbers. -/

import Mathlib.Data.List.Intervals
import Mathlib.Data.List.Nodup
import Mathlib.Tactic.Common

set_option autoImplicit false
set_option relaxedAutoImplicit false

namespace DashDrop.Foundation.Numbering

variable {α β : Type} {num : α → ℕ} {lo hi : ℕ} {xs : List α} {x : α}

/-- The items carry the numbers from `lo` to before `hi`, in order. -/
def Consecutive (num : α → ℕ) (lo hi : ℕ) (xs : List α) : Prop := xs.map num = List.Ico lo hi

theorem Consecutive.nil (h : hi ≤ lo) : Consecutive num lo hi [] := by
  rw [Consecutive, List.Ico.eq_nil_of_le h]
  rfl

theorem Consecutive.length (h : Consecutive num lo hi xs) : xs.length = hi - lo := by
  rw [← List.Ico.length lo hi, ← h, List.length_map]

theorem Consecutive.bounds (h : Consecutive num lo hi xs) (hx : x ∈ xs) :
    lo ≤ num x ∧ num x < hi := by
  rw [← List.Ico.mem, ← h]
  exact List.mem_map_of_mem hx

theorem Consecutive.holds (h : Consecutive num lo hi xs) {k : ℕ} (hlo : lo ≤ k) (hhi : k < hi) :
    ∃ x ∈ xs, num x = k := by
  have hmem : k ∈ xs.map num := h ▸ List.Ico.mem.mpr ⟨hlo, hhi⟩
  exact List.mem_map.mp hmem

theorem Consecutive.ascending (h : Consecutive num lo hi xs) :
    xs.Pairwise fun a b => num a < num b :=
  List.pairwise_map.mp (h ▸ List.Ico.pairwise_lt lo hi)

theorem Consecutive.named (h : Consecutive num lo hi xs) {y : α} (hx : x ∈ xs) (hy : y ∈ xs)
    (hsame : num x = num y) : x = y :=
  List.inj_on_of_nodup_map (h ▸ List.Ico.nodup lo hi) hx hy hsame

theorem Consecutive.head? (h : Consecutive num lo hi xs) (hne : lo < hi) :
    xs.head?.map num = some lo := by
  rw [← List.head?_map, h, List.Ico.eq_cons hne]
  rfl

theorem Consecutive.min? (h : Consecutive num lo hi xs) (hne : lo < hi) :
    (xs.map num).min? = some lo := by
  rw [h, List.min?_eq_some_iff]
  exact ⟨List.Ico.mem.mpr ⟨le_rfl, hne⟩, fun b hb => (List.Ico.mem.mp hb).1⟩

theorem Consecutive.push (h : Consecutive num lo hi xs) (hle : lo ≤ hi) (hx : num x = hi) :
    Consecutive num lo (hi + 1) (xs ++ [x]) := by
  rw [Consecutive, List.map_append, h, List.Ico.succ_top hle]
  simp [hx]

theorem Consecutive.append {mid : ℕ} {ys : List α} (hx : Consecutive num lo mid xs)
    (hy : Consecutive num mid hi ys) (hlo : lo ≤ mid) (hhi : mid ≤ hi) :
    Consecutive num lo hi (xs ++ ys) := by
  rw [Consecutive, List.map_append, hx, hy, List.Ico.append_consecutive hlo hhi]

theorem Consecutive.drop (h : Consecutive num lo hi xs) (k : ℕ) :
    Consecutive num (lo + k) hi (xs.drop k) := by
  rw [Consecutive, List.map_drop, h, List.Ico, List.drop_range', List.Ico]
  congr 1 <;> omega

theorem Consecutive.getElem? (h : Consecutive num lo hi xs) {i : ℕ} (hx : xs[i]? = some x) :
    num x = lo + i := by
  have hget : (List.Ico lo hi)[i]? = some (num x) := by
    rw [← h, List.getElem?_map, hx]
    rfl
  obtain ⟨_, hsame⟩ := List.getElem?_eq_some_iff.mp hget
  simpa [List.Ico] using hsame.symm

theorem Consecutive.foldl_max {c e : ℕ} (h : Consecutive num (c + 1) (e + 1) xs) (hle : c ≤ e) :
    xs.foldl (fun k a => max k (num a)) c = e := by
  induction xs generalizing c with
  | nil =>
    have hlength := h.length
    rw [List.length_nil] at hlength
    show c = e
    omega
  | cons a as ih =>
    have hlength := h.length
    rw [List.length_cons] at hlength
    have hfirst : num a = c + 1 := (h.getElem? rfl).trans (Nat.add_zero _)
    have hrest : Consecutive num (c + 1 + 1) (e + 1) as := h.drop 1
    rw [List.foldl_cons, hfirst, max_eq_right (Nat.le_succ c)]
    exact ih hrest (by omega)

theorem Consecutive.take (h : Consecutive num lo hi xs) (k : ℕ) :
    Consecutive num lo (min (lo + k) hi) (xs.take k) := by
  rw [Consecutive, List.map_take, h, List.Ico, List.Ico]
  rcases le_total (hi - lo) k with hall | hcut
  · rw [List.take_range'_of_length_le hall]
    congr 1
    omega
  · rw [List.take_range'_of_length_ge hcut]
    congr 1
    omega

theorem Consecutive.since {p : α → Bool} (h : Consecutive num lo hi xs) (k : ℕ)
    (hp : ∀ a ∈ xs, p a = decide (k ≤ num a)) :
    Consecutive num (max lo k) hi (xs.filter p) := by
  have hsame : xs.filter p = xs.filter ((fun n => decide (k ≤ n)) ∘ num) :=
    List.filter_congr hp
  rw [Consecutive, hsame, ← List.filter_map, h, List.Ico.filter_le]

theorem Consecutive.latest (h : Consecutive num lo hi xs) (k : ℕ) :
    Consecutive num (max lo (hi - k)) hi ((xs.reverse.take k).reverse) := by
  have hlen := h.length
  have hdrop : (xs.reverse.take k).reverse = xs.drop (xs.length - k) := by
    rw [List.take_reverse, List.reverse_reverse]
  rw [hdrop]
  by_cases hshort : hi - lo ≤ k
  · have hzero : xs.length - k = 0 := by omega
    rw [hzero, List.drop_zero]
    by_cases hempty : hi ≤ lo
    · have hnil : xs = [] := List.eq_nil_of_length_eq_zero (by omega)
      rw [hnil]
      exact .nil (by omega)
    · have hmax : max lo (hi - k) = lo := by omega
      rwa [hmax]
  · have hmax : max lo (hi - k) = lo + (xs.length - k) := by omega
    rw [hmax]
    exact h.drop _

theorem Consecutive.map {num' : β → ℕ} {f : α → β} (h : Consecutive num lo hi xs)
    (hf : ∀ a ∈ xs, num' (f a) = num a) : Consecutive num' lo hi (xs.map f) := by
  rw [Consecutive, List.map_map, ← h]
  exact List.map_congr_left hf

/-- Two lists with the same numbers are the same where the numbers name their items. -/
theorem Consecutive.eq_of_named {ys : List α} (hx : Consecutive num lo hi xs)
    (hy : Consecutive num lo hi ys) (hnames : ∀ a ∈ xs, ∀ b ∈ ys, num a = num b → a = b) :
    xs = ys := by
  have hsame : xs.map num = ys.map num := hx.trans hy.symm
  clear hx hy
  induction xs generalizing ys with
  | nil => simpa [eq_comm] using hsame
  | cons a as ih =>
    cases ys with
    | nil => simp at hsame
    | cons b bs =>
      obtain ⟨hfirst, hrest⟩ := List.cons.inj hsame
      have hhead : a = b := hnames a List.mem_cons_self b List.mem_cons_self hfirst
      have htail : as = bs := by
        refine ih (fun c hc d hd => ?_) hrest
        exact hnames c (List.mem_cons_of_mem a hc) d (List.mem_cons_of_mem b hd)
      rw [hhead, htail]

end DashDrop.Foundation.Numbering
