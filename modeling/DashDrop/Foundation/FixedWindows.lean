/- GID: DashDrop/Foundation/FixedWindows
   generality: G
   anchors: []
   digest: Counters that admit the first visits of each window of a fixed width. -/

import DashDrop.Foundation.Maps

set_option autoImplicit false
set_option relaxedAutoImplicit false

namespace DashDrop.Foundation.FixedWindows

open DashDrop.Foundation.Maps

/-- The moments at which one visit reads the clock: for a new entry, to see how old the window is,
and to start another. -/
structure Reads where
  entered : ℕ
  measured : ℕ
  restarted : ℕ
  ordered : entered ≤ measured ∧ measured ≤ restarted

def Reads.begins (width : ℕ) (reads : Reads) : ℕ :=
  if reads.measured - reads.entered > width then reads.restarted else reads.entered

def Reads.once (now : ℕ) : Reads := ⟨now, now, now, le_rfl, le_rfl⟩

structure Slot where
  count : ℕ
  start : ℕ
  deriving DecidableEq

def visit (width : ℕ) (increment : ℕ → ℕ) (slot : Option Slot) (clock : Reads) : Slot :=
  let slot := slot.getD ⟨0, clock.entered⟩
  let slot := if clock.measured - slot.start > width then ⟨0, clock.restarted⟩ else slot
  ⟨increment slot.count, slot.start⟩

section Windows

variable {V : Type} (width : ℕ) (clock : V → Reads)

/-- The visits of the window that has begun, and the windows after it. A window begins with the
first visit that is more than the width behind the start of the window before it. -/
def windowsFrom (start : ℕ) : List V → List V × List (List V)
  | [] => ([], [])
  | v :: rest =>
    if (clock v).measured - start > width then
      let later := windowsFrom (clock v).restarted rest
      ([], (v :: later.1) :: later.2)
    else
      let later := windowsFrom start rest
      (v :: later.1, later.2)

def windows : List V → List (List V)
  | [] => []
  | v :: rest =>
    let later := windowsFrom width clock ((clock v).begins width) rest
    (v :: later.1) :: later.2

/-- The visits of a window with what is said of each: the first ones are admitted. -/
def firstAdmitted (limit : ℕ) (window : List V) : List (V × Bool) :=
  (window.take limit).map (·, true) ++ (window.drop limit).map (·, false)

/-- Each visit is over before the next begins. -/
def InOrder (visits : List V) : Prop :=
  visits.Pairwise fun v u => (clock v).restarted ≤ (clock u).entered

theorem firstAdmitted_nil (limit : ℕ) : firstAdmitted limit ([] : List V) = [] := by
  simp [firstAdmitted]

theorem firstAdmitted_cons (limit count : ℕ) (v : V) (window : List V) :
    firstAdmitted (limit - count) (v :: window) =
      (v, decide (count + 1 ≤ limit)) :: firstAdmitted (limit - (count + 1)) window := by
  unfold firstAdmitted
  by_cases room : count + 1 ≤ limit
  · have left : limit - count = limit - (count + 1) + 1 := by omega
    rw [left, List.take_succ_cons, List.drop_succ_cons]
    simp [room]
  · have full : limit - count = 0 := by omega
    have full' : limit - (count + 1) = 0 := by omega
    simp [full, full', room]

variable {width clock}

theorem windowsFrom_flatten (start : ℕ) (visits : List V) :
    (windowsFrom width clock start visits).1 ++ (windowsFrom width clock start visits).2.flatten =
      visits := by
  induction visits generalizing start with
  | nil => rfl
  | cons v rest ih =>
    unfold windowsFrom
    split_ifs
    · simpa using ih (clock v).restarted
    · simpa using ih start

theorem behind_start {start : ℕ} {visits : List V} (ordered : InOrder clock visits) :
    ∀ v ∈ (windowsFrom width clock start visits).2.flatten, start + width < (clock v).measured := by
  induction visits with
  | nil => exact fun v hv => absurd hv List.not_mem_nil
  | cons v rest ih =>
    obtain ⟨after, ordered⟩ := List.pairwise_cons.mp ordered
    unfold windowsFrom
    split_ifs with old
    · intro u hu
      rw [List.flatten_cons, List.cons_append, windowsFrom_flatten] at hu
      rcases List.mem_cons.mp hu with rfl | hu
      · omega
      · have later := after u hu
        have := (clock v).ordered
        have := (clock u).ordered
        omega
    · exact ih ordered

theorem behind_moment {start moment : ℕ} {visits : List V} (ordered : InOrder clock visits)
    (earlier : ∀ v ∈ visits, moment ≤ (clock v).measured) :
    ∀ v ∈ (windowsFrom width clock start visits).2.tail.flatten,
      moment + width < (clock v).measured := by
  induction visits with
  | nil => exact fun v hv => absurd hv List.not_mem_nil
  | cons v rest ih =>
    obtain ⟨after, ordered⟩ := List.pairwise_cons.mp ordered
    unfold windowsFrom
    split_ifs with old
    · intro u hu
      have later := behind_start ordered u hu
      have now := earlier v List.mem_cons_self
      have := (clock v).ordered
      omega
    · exact ih ordered fun u hu => earlier u (List.mem_cons_of_mem v hu)

variable (width clock) in
/-- Visits with a window between them are more than the width apart. -/
def TwoApart : List (List V) → Prop
  | [] => True
  | window :: rest => (∀ v ∈ window, ∀ u ∈ rest.tail.flatten,
      (clock v).measured + width < (clock u).measured) ∧ TwoApart rest

theorem twoApart_cons (start : ℕ) {v : V} {rest : List V} (ordered : InOrder clock (v :: rest))
    (h : TwoApart width clock
      ((windowsFrom width clock start rest).1 :: (windowsFrom width clock start rest).2)) :
    TwoApart width clock
      ((v :: (windowsFrom width clock start rest).1) ::
        (windowsFrom width clock start rest).2) := by
  obtain ⟨after, behind⟩ := List.pairwise_cons.mp ordered
  obtain ⟨apart, later⟩ := h
  refine ⟨fun u hu => ?_, later⟩
  rcases List.mem_cons.mp hu with here | hu
  · apply behind_moment behind
    intro x hx
    have next := after x hx
    have := (clock v).ordered
    have := (clock x).ordered
    rw [here]
    omega
  · exact apart u hu

theorem twoApart_windowsFrom (start : ℕ) {visits : List V} (ordered : InOrder clock visits) :
    TwoApart width clock
      ((windowsFrom width clock start visits).1 :: (windowsFrom width clock start visits).2) := by
  induction visits generalizing start with
  | nil => exact ⟨fun v hv => absurd hv List.not_mem_nil, trivial⟩
  | cons v rest ih =>
    have behind := (List.pairwise_cons.mp ordered).2
    unfold windowsFrom
    split_ifs
    · exact ⟨fun u hu => absurd hu List.not_mem_nil, twoApart_cons _ ordered (ih _ behind)⟩
    · exact twoApart_cons start ordered (ih start behind)

theorem twoApart_windows {visits : List V} (ordered : InOrder clock visits) :
    TwoApart width clock (windows width clock visits) := by
  cases visits with
  | nil => trivial
  | cons v rest =>
    have behind := (List.pairwise_cons.mp ordered).2
    exact twoApart_cons _ ordered (twoApart_windowsFrom _ behind)

variable (width clock) in
def Caught (moment : ℕ) (answer : V × Bool) : Prop :=
  answer.2 = true ∧ moment ≤ (clock answer.1).measured ∧
    (clock answer.1).measured ≤ moment + width

instance (moment : ℕ) (answer : V × Bool) : Decidable (Caught width clock moment answer) :=
  inferInstanceAs (Decidable (_ ∧ _ ∧ _))

variable (width clock) in
theorem caught_le_limit (moment limit : ℕ) (window : List V) :
    (firstAdmitted limit window).countP (Caught width clock moment ·) ≤ limit := by
  have refused : ((window.drop limit).map (·, false)).countP (Caught width clock moment ·) = 0 := by
    rw [List.countP_eq_zero]
    intro answer h
    obtain ⟨v, -, rfl⟩ := List.mem_map.mp h
    simp [Caught]
  rw [firstAdmitted, List.countP_append, refused, Nat.add_zero]
  apply le_trans List.countP_le_length
  rw [List.length_map, List.length_take]
  omega

theorem fst_mem_of_firstAdmitted {limit : ℕ} {window : List V} {answer : V × Bool}
    (h : answer ∈ firstAdmitted limit window) : answer.1 ∈ window := by
  rcases List.mem_append.mp h with h | h
  · obtain ⟨v, hv, rfl⟩ := List.mem_map.mp h
    exact List.mem_of_mem_take hv
  · obtain ⟨v, hv, rfl⟩ := List.mem_map.mp h
    exact List.mem_of_mem_drop hv

theorem caught_eq_zero {moment limit : ℕ} {later : List (List V)}
    (outside : ∀ v ∈ later.flatten, moment + width < (clock v).measured) :
    (later.flatMap (firstAdmitted limit)).countP (Caught width clock moment ·) = 0 := by
  rw [List.countP_eq_zero]
  intro answer h
  obtain ⟨window, hw, mem⟩ := List.mem_flatMap.mp h
  have late := outside answer.1 (List.mem_flatten.mpr ⟨window, hw, fst_mem_of_firstAdmitted mem⟩)
  simp only [decide_eq_true_eq]
  rintro ⟨-, -, early⟩
  omega

theorem caught_le_twice (moment limit : ℕ) {all : List (List V)}
    (apart : TwoApart width clock all) :
    (all.flatMap (firstAdmitted limit)).countP (Caught width clock moment ·) ≤ 2 * limit := by
  induction all with
  | nil => simp
  | cons window later ih =>
    obtain ⟨far, apart⟩ := apart
    rw [List.flatMap_cons, List.countP_append]
    by_cases touched : ∃ answer ∈ firstAdmitted limit window, Caught width clock moment answer
    · obtain ⟨answer, mem, -, begun, -⟩ := touched
      have first := caught_le_limit width clock moment limit window
      have outside : ∀ u ∈ later.tail.flatten, moment + width < (clock u).measured := by
        intro u hu
        have apart := far answer.1 (fst_mem_of_firstAdmitted mem) u hu
        omega
      cases later with
      | nil =>
        rw [List.flatMap_nil, List.countP_nil]
        omega
      | cons next rest =>
        rw [List.tail_cons] at outside
        have second := caught_le_limit width clock moment limit next
        rw [List.flatMap_cons, List.countP_append, caught_eq_zero outside]
        omega
    · have none : (firstAdmitted limit window).countP (Caught width clock moment ·) = 0 := by
        rw [List.countP_eq_zero]
        intro answer mem caught
        exact touched ⟨answer, mem, by simpa using caught⟩
      rw [none, Nat.zero_add]
      exact ih apart

end Windows

section Runs

variable {S V : Type}

def answers (step : S → V → S × Bool) : S → List V → List (V × Bool)
  | _, [] => []
  | s, v :: rest => (v, (step s v).2) :: answers step (step s v).1 rest

end Runs

section Counters

variable {K V : Type} [DecidableEq K]

abbrev Table (K : Type) := AList fun _ : K => Slot

/-- What a table of counters promises: the windows of a key are counted from its visits alone, of
each window the first visits are admitted and no others, and a refused visit does not move the
window. -/
structure Windowed (width capacity : ℕ) (key : V → K) (clock : V → Reads) (limit : V → ℕ)
    (step : Table K → V → Table K × Bool) : Prop where
  first_admitted : ∀ (visits : List V) (k : K) (n : ℕ), (∀ v ∈ visits, key v = k → limit v = n) →
    (∀ w ∈ windows width clock (visits.filter (key · = k)), w.length < capacity) →
    (answers step ∅ visits).filter (key ·.1 = k) =
      (windows width clock (visits.filter (key · = k))).flatMap (firstAdmitted n)
  twice_at_most : ∀ (visits : List V) (k : K) (n : ℕ), (∀ v ∈ visits, key v = k → limit v = n) →
    (∀ w ∈ windows width clock (visits.filter (key · = k)), w.length < capacity) →
    InOrder clock (visits.filter (key · = k)) →
    ∀ moment, ((answers step ∅ visits).filter (key ·.1 = k)).countP
      (Caught width clock moment ·) ≤ 2 * n
  refused_keeps_start : ∀ (table : Table K) (v : V), (step table v).2 = false →
    ((step table v).1.lookup (key v)).map Slot.start = (table.lookup (key v)).map Slot.start
  others_kept : ∀ (table : Table K) (v : V) (k : K), k ≠ key v →
    (step table v).1.lookup k = table.lookup k

def slotAnswers (width : ℕ) (increment : ℕ → ℕ) (clock : V → Reads) (limit : ℕ) :
    Option Slot → List V → List (V × Bool)
  | _, [] => []
  | slot, v :: rest =>
    let slot := visit width increment slot (clock v)
    (v, decide (slot.count ≤ limit)) :: slotAnswers width increment clock limit (some slot) rest

section Counted

variable {width capacity : ℕ} {increment : ℕ → ℕ} {key : V → K} {clock : V → Reads}
  {limit : V → ℕ} {step : Table K → V → Table K × Bool}

theorem visit_old {slot : Slot} {reads : Reads} (old : reads.measured - slot.start > width) :
    visit width increment (some slot) reads = ⟨increment 0, reads.restarted⟩ := by
  simp only [visit, Option.getD_some, if_pos old]

theorem visit_young {slot : Slot} {reads : Reads} (young : ¬ reads.measured - slot.start > width) :
    visit width increment (some slot) reads = ⟨increment slot.count, slot.start⟩ := by
  simp only [visit, Option.getD_some, if_neg young]

theorem visit_none (reads : Reads) :
    visit width increment none reads = ⟨increment 0, reads.begins width⟩ := by
  simp only [visit, Option.getD_none, Reads.begins]
  split_ifs
  · rfl
  · rfl

section Slots

variable (counts : ∀ c, c + 1 < capacity → increment c = c + 1)

include counts

theorem slotAnswers_begun (n count start : ℕ) (visits : List V)
    (now : count + (windowsFrom width clock start visits).1.length < capacity)
    (later : ∀ w ∈ (windowsFrom width clock start visits).2, w.length < capacity) :
    slotAnswers width increment clock n (some ⟨count, start⟩) visits =
      firstAdmitted (n - count) (windowsFrom width clock start visits).1 ++
        (windowsFrom width clock start visits).2.flatMap (firstAdmitted n) := by
  induction visits generalizing count start with
  | nil => simp [slotAnswers, windowsFrom, firstAdmitted_nil]
  | cons v rest ih =>
    unfold windowsFrom at now later ⊢
    rw [slotAnswers]
    by_cases old : (clock v).measured - start > width
    · rw [if_pos old] at now later ⊢
      obtain ⟨room, later⟩ := List.forall_mem_cons.mp later
      rw [List.length_cons] at room
      have one : increment 0 = 0 + 1 := counts 0 (by omega)
      rw [visit_old old, one, List.flatMap_cons, firstAdmitted_nil, List.nil_append,
        ih _ _ (by omega) later]
      exact congrArg (· ++ _) (firstAdmitted_cons n 0 v _).symm
    · rw [if_neg old] at now later ⊢
      rw [List.length_cons] at now
      have more : increment count = count + 1 := counts count (by omega)
      rw [visit_young old, more, ih _ _ (by omega) later]
      exact congrArg (· ++ _) (firstAdmitted_cons n count v _).symm

theorem slotAnswers_none (n : ℕ) (visits : List V)
    (room : ∀ w ∈ windows width clock visits, w.length < capacity) :
    slotAnswers width increment clock n none visits =
      (windows width clock visits).flatMap (firstAdmitted n) := by
  cases visits with
  | nil => rfl
  | cons v rest =>
    unfold windows at room ⊢
    obtain ⟨room, later⟩ := List.forall_mem_cons.mp room
    rw [List.length_cons] at room
    have one : increment 0 = 0 + 1 := counts 0 (by omega)
    rw [slotAnswers, visit_none, one, List.flatMap_cons,
      slotAnswers_begun counts n _ _ rest (by omega) later]
    exact congrArg (· ++ _) (firstAdmitted_cons n 0 v _).symm

end Slots

section Steps

variable (counted : ∀ table v, step table v =
  (table.insert (key v) (visit width increment (table.lookup (key v)) (clock v)),
    decide ((visit width increment (table.lookup (key v)) (clock v)).count ≤ limit v)))

include counted

theorem answers_filter (table : Table K) (visits : List V) (k : K) (n : ℕ)
    (same : ∀ v ∈ visits, key v = k → limit v = n) :
    (answers step table visits).filter (key ·.1 = k) =
      slotAnswers width increment clock n (table.lookup k) (visits.filter (key · = k)) := by
  induction visits generalizing table with
  | nil => rfl
  | cons v rest ih =>
    have later := ih (step table v).1 fun u hu => same u (List.mem_cons_of_mem v hu)
    rw [answers]
    by_cases own : key v = k
    · have limited := same v List.mem_cons_self own
      rw [List.filter_cons_of_pos (by simpa using own), later,
        List.filter_cons_of_pos (by simpa using own), counted, limited]
      subst own
      rw [AList.lookup_insert]
      rfl
    · rw [List.filter_cons_of_neg (by simpa using own), later,
        List.filter_cons_of_neg (by simpa using own), counted, lookup_insert_ite,
        if_neg fun h => own h.symm]

/-- Every step that counts visits in slots keeps the promise, if the limits are positive and the
capacity is never reached. -/
theorem windowed_of_counted (counts : ∀ c, c + 1 < capacity → increment c = c + 1)
    (first : increment 0 = 1) (positive : ∀ v, 0 < limit v) :
    Windowed width capacity key clock limit step := by
  have admitted (visits : List V) (k : K) (n : ℕ) (same : ∀ v ∈ visits, key v = k → limit v = n)
      (room : ∀ w ∈ windows width clock (visits.filter (key · = k)), w.length < capacity) :
      (answers step ∅ visits).filter (key ·.1 = k) =
        (windows width clock (visits.filter (key · = k))).flatMap (firstAdmitted n) := by
    rw [answers_filter counted ∅ visits k n same, AList.lookup_empty]
    exact slotAnswers_none counts n _ room
  constructor
  · exact admitted
  · intro visits k n same room ordered moment
    rw [admitted visits k n same room]
    exact caught_le_twice moment n (twoApart_windows ordered)
  · intro table v refused
    rw [counted] at refused ⊢
    rw [AList.lookup_insert, Option.map_some]
    simp only [decide_eq_false_iff_not, not_le] at refused
    have one := positive v
    cases found : table.lookup (key v) with
    | none =>
      rw [found, visit_none, first] at refused
      exact absurd refused (Nat.not_lt.mpr one)
    | some slot =>
      rw [found] at refused
      by_cases old : (clock v).measured - slot.start > width
      · rw [visit_old old, first] at refused
        exact absurd refused (Nat.not_lt.mpr one)
      · rw [visit_young old]
        rfl
  · intro table v k other
    rw [counted, lookup_insert_ite, if_neg other]

end Steps

end Counted

end Counters

end DashDrop.Foundation.FixedWindows
