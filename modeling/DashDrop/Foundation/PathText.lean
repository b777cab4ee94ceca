/- GID: DashDrop/Foundation/PathText
   generality: G
   anchors: []
   digest: The texts that stand for paths: names joined to them and prefixes stripped from them. -/

import DashDrop.Foundation.UnixPath
import Mathlib.Data.List.DropRight

set_option autoImplicit false
set_option relaxedAutoImplicit false

namespace DashDrop.Foundation.PathText

open DashDrop.Foundation.UnixPath

def joinSegments : List (List Char) → List Char
  | [] => []
  | [seg] => seg
  | seg :: rest => seg ++ '/' :: joinSegments rest

theorem segments_append_slash (s t : List Char) :
    segments (s ++ '/' :: t) = segments s ++ segments t := by
  induction s with
  | nil => simp [segments]
  | cons c s ih =>
    by_cases hc : c = '/'
    · simp [segments, hc, ih]
    · obtain ⟨first, rest, here, split⟩ := segments_cons_ne hc s
      rw [here] at ih
      simp [segments, hc, ih, here]

theorem segments_joinSegments {segs : List (List Char)} (nonempty : segs ≠ [])
    (bare : ∀ seg ∈ segs, '/' ∉ seg) : segments (joinSegments segs) = segs := by
  induction segs with
  | nil => exact absurd rfl nonempty
  | cons seg rest ih =>
    have one := segments_of_notMem (bare seg List.mem_cons_self)
    cases rest with
    | nil => exact one
    | cons next rest =>
      have later := ih (List.cons_ne_nil _ _) fun s hs => bare s (List.mem_cons_of_mem _ hs)
      rw [joinSegments, segments_append_slash, one, later, List.singleton_append]
      exact List.cons_ne_nil _ _

theorem joinSegments_segments (s : List Char) : joinSegments (segments s) = s := by
  induction s with
  | nil => rfl
  | cons c s ih =>
    cases hs : segments s with
    | nil => exact absurd hs (segments_ne_nil s)
    | cons first rest =>
      rw [hs] at ih
      by_cases hc : c = '/'
      · subst hc
        rw [segments, if_pos rfl, hs, joinSegments, ih, List.nil_append]
        exact List.cons_ne_nil _ _
      · rw [segments, if_neg hc, hs]
        cases rest with
        | nil => exact congrArg (c :: ·) ih
        | cons next rest => exact congrArg (c :: ·) ih

theorem segments_injective {s t : List Char} (h : segments s = segments t) : s = t := by
  rw [← joinSegments_segments s, h, joinSegments_segments]

theorem nil_last_segment {s : List Char} :
    (segments s).getLast? = some [] ↔ s = [] ∨ s.getLast? = some '/' := by
  induction s with
  | nil => simp [segments]
  | cons c s ih =>
    cases hs : segments s with
    | nil => exact absurd hs (segments_ne_nil s)
    | cons first rest =>
      rw [hs] at ih
      have last : (c :: s).getLast? = some '/' ↔ (s = [] ∧ c = '/') ∨ s.getLast? = some '/' := by
        cases s with
        | nil => simp
        | cons d s => simp [List.getLast?_cons_cons]
      have empty : s = [] ↔ first = [] ∧ rest = [] := by
        constructor
        · rintro rfl
          cases hs
          exact ⟨rfl, rfl⟩
        · rintro ⟨rfl, rfl⟩
          exact segments_injective hs
      rw [last]
      by_cases hc : c = '/'
      · rw [segments, if_pos hc, hs, List.getLast?_cons_cons, ih]
        simp [hc]
      · rw [segments, if_neg hc, hs]
        cases rest with
        | nil =>
          simp only [List.getLast?_singleton, Option.some.injEq, and_true] at ih empty ⊢
          simp only [reduceCtorEq, hc, and_false, false_or, false_iff]
          intro ends
          obtain rfl := empty.mpr (ih.mpr (Or.inr ends))
          cases ends
        | cons next rest =>
          have full : s ≠ [] := fun none => List.cons_ne_nil _ _ (empty.mp none).2
          simp only [List.getLast?_cons_cons] at ih ⊢
          rw [ih]
          simp [hc, full]

/-- `path.join(name)` -/
def joinName (path : List Char) (n : Name) : List Char :=
  if path = [] ∨ path.getLast? = some '/' then path ++ n.text else path ++ '/' :: n.text

def below (path : List Char) (names : List Name) : List Char := names.foldl joinName path

@[simp] theorem below_nil (path : List Char) : below path [] = path := rfl

@[simp] theorem below_cons (path : List Char) (n : Name) (names : List Name) :
    below path (n :: names) = below (joinName path n) names := rfl

def stem (segs : List (List Char)) : List (List Char) :=
  if segs.getLast? = some [] then segs.dropLast else segs

theorem segments_joinName (path : List Char) (n : Name) :
    segments (joinName path n) = stem (segments path) ++ [n.text] := by
  have one := segments_of_notMem n.plain.1
  unfold joinName stem
  simp only [nil_last_segment]
  split_ifs with ends
  · rcases ends with rfl | ends
    · exact one
    · obtain ⟨front, rfl⟩ := List.getLast?_eq_some_iff.mp ends
      have split : segments (front ++ ['/']) = segments front ++ [[]] :=
        segments_append_slash front []
      rw [split, List.dropLast_concat, List.append_assoc, List.singleton_append,
        segments_append_slash, one]
  · rw [segments_append_slash, one]

theorem stem_append_name (segs : List (List Char)) (n : Name) :
    stem (segs ++ [n.text]) = segs ++ [n.text] := by
  rw [stem, if_neg]
  rw [List.getLast?_concat, Option.some.injEq]
  exact n.plain.2.1

theorem segments_below {path : List Char} {names : List Name} (some_names : names ≠ []) :
    segments (below path names) = stem (segments path) ++ names.map Name.text := by
  induction names generalizing path with
  | nil => exact absurd rfl some_names
  | cons n names ih =>
    rw [below_cons]
    cases names with
    | nil => exact segments_joinName path n
    | cons next names =>
      rw [ih (List.cons_ne_nil _ _), segments_joinName, stem_append_name]
      simp

def skipped (seg : List Char) : Bool := seg.isEmpty || seg == ['.']

theorem bodyComponent_eq_none {seg : List Char} (bare : '/' ∉ seg) :
    bodyComponent seg = none ↔ skipped seg = true := by
  unfold bodyComponent skipped
  split_ifs with plain up
  · simp [plain.2.1, plain.2.2.1]
  · simp [up]
  · simp only [Plain, not_and, not_not] at plain
    simp only [true_iff, Bool.or_eq_true, List.isEmpty_iff, beq_iff_eq]
    by_contra other
    rw [not_or] at other
    exact up (plain bare other.1 other.2)

/-- The component that a first segment stands for; an empty one is the root if more follows. -/
def firstComponent (first : List Char) (more : Bool) : Option Component :=
  if first = [] then (if more then some .rootDir else none)
  else if first = ['.'] then some .curDir
  else bodyComponent first

theorem components_eq {path first : List Char} {rest : List (List Char)}
    (split : segments path = first :: rest) : components path =
      (firstComponent first (!rest.isEmpty)).toList ++ rest.filterMap bodyComponent := by
  unfold components firstComponent
  rw [split]
  cases rest with
  | nil => split_ifs <;> simp_all
  | cons next rest => split_ifs <;> simp_all

theorem filterMap_stem (segs : List (List Char)) :
    (stem segs).filterMap bodyComponent = segs.filterMap bodyComponent := by
  unfold stem
  split_ifs with ends
  · obtain ⟨front, rfl⟩ := List.getLast?_eq_some_iff.mp ends
    have none : bodyComponent [] = none := rfl
    simp [none]
  · rfl

theorem stem_cons {first : List Char} {rest : List (List Char)} (more : rest ≠ []) :
    stem (first :: rest) = first :: stem rest := by
  obtain ⟨next, rest, rfl⟩ := List.exists_cons_of_ne_nil more
  unfold stem
  rw [List.getLast?_cons_cons]
  split_ifs
  · rfl
  · rfl

theorem components_joinName (path : List Char) (n : Name) :
    components (joinName path n) = components path ++ [.normal n] := by
  have name : [n.text].filterMap bodyComponent = [.normal n] := by
    simp [bodyComponent, n.plain]
  have split := segments_joinName path n
  cases here : segments path with
  | nil => exact absurd here (segments_ne_nil path)
  | cons first rest =>
    rw [here] at split
    rw [components_eq here]
    cases rest with
    | nil =>
      by_cases empty : first = []
      · subst empty
        rw [components_eq (show segments (joinName path n) = n.text :: [] from split)]
        simp [firstComponent, n.plain.2.1, n.plain.2.2.1, bodyComponent, n.plain]
      · have kept : stem [first] = [first] := by
          rw [stem, if_neg]
          simpa using empty
        rw [kept] at split
        rw [components_eq split]
        simp [firstComponent, empty, name]
    | cons next rest =>
      rw [stem_cons (List.cons_ne_nil _ _), List.cons_append] at split
      have more : (stem (next :: rest) ++ [n.text]).isEmpty = false := by simp
      rw [components_eq split, List.filterMap_append, filterMap_stem, name, List.append_assoc, more]
      rfl

theorem components_below (path : List Char) (names : List Name) :
    components (below path names) = components path ++ names.map .normal := by
  induction names generalizing path with
  | nil => simp
  | cons n names ih => simp [ih, components_joinName]

/-- The segments left behind the given components of a path's body. -/
def behind : List (List Char) → List Component → Option (List (List Char))
  | segs, [] => some segs
  | [], _ :: _ => none
  | seg :: segs, c :: cs =>
      match bodyComponent seg with
      | none => behind segs (c :: cs)
      | some d => if d = c then behind segs cs else none

/-- `as_path` in the body: nothing that is passed over stays at the ends. -/
def bodyText (segs : List (List Char)) : List Char :=
  joinSegments ((segs.dropWhile skipped).rdropWhile skipped)

/-- `as_path` before the first component is taken. -/
def wholeText (path : List Char) : List Char :=
  match segments path with
  | [] => []
  | [] :: next :: rest => '/' :: joinSegments ((next :: rest).rdropWhile skipped)
  | first :: rest => joinSegments (first :: rest.rdropWhile skipped)

/-- `path.strip_prefix(prefix)` for a prefix of the given components. -/
def stripPrefix (path : List Char) (front : List Component) : Option (List Char) :=
  match front with
  | [] => some (wholeText path)
  | c :: cs =>
    match segments path with
    | [] => none
    | first :: rest =>
      match firstComponent first (!rest.isEmpty) with
      | none => (behind rest (c :: cs)).map bodyText
      | some d => if d = c then (behind rest cs).map bodyText else none

/-- Behind the components of some segments stand the others; segments passed over may be left. -/
theorem behind_append (front rest : List (List Char)) :
    ∃ left, (∀ seg ∈ left, bodyComponent seg = none) ∧ left ⊆ front ∧
      behind (front ++ rest) (front.filterMap bodyComponent) = some (left ++ rest) := by
  induction front with
  | nil => exact ⟨[], by simp, List.nil_subset _, by cases rest <;> rfl⟩
  | cons seg front ih =>
    obtain ⟨left, blank, subset, found⟩ := ih
    have later : left ⊆ seg :: front := fun s hs => List.mem_cons_of_mem _ (subset hs)
    cases here : bodyComponent seg with
    | some c =>
      refine ⟨left, blank, later, ?_⟩
      rw [List.filterMap_cons, here, List.cons_append, behind, here]
      simpa using found
    | none =>
      rw [List.filterMap_cons, here]
      cases comps : front.filterMap bodyComponent with
      | nil =>
        refine ⟨seg :: front, ?_, List.Subset.refl _, rfl⟩
        intro s hs
        rcases List.mem_cons.mp hs with rfl | hs
        · exact here
        · exact List.filterMap_eq_nil_iff.mp comps s hs
      | cons c cs =>
        refine ⟨left, blank, later, ?_⟩
        rw [comps] at found
        rw [List.cons_append, behind, here]
        exact found

theorem bodyText_eq {left mid right : List (List Char)} {first last : List Char}
    (blank : ∀ seg ∈ left ++ right, skipped seg = true)
    (starts : mid.head? = some first) (kept : skipped first = false)
    (ends : mid.getLast? = some last) (keeps : skipped last = false) :
    bodyText (left ++ mid ++ right) = joinSegments mid := by
  have lead : (left ++ mid ++ right).dropWhile skipped = mid ++ right := by
    obtain ⟨rest, rfl⟩ : ∃ rest, mid = first :: rest := List.head?_eq_some_iff.mp starts
    rw [List.append_assoc, List.dropWhile_append_of_pos
      fun seg hs => blank seg (List.mem_append_left _ hs)]
    exact List.dropWhile_cons_of_neg (by simp [kept])
  have trail : (mid ++ right).rdropWhile skipped = mid := by
    obtain ⟨front, rfl⟩ := List.getLast?_eq_some_iff.mp ends
    rw [List.rdropWhile, List.reverse_append, List.dropWhile_append_of_pos
      fun seg hs => blank seg (List.mem_append_right _ (List.mem_reverse.mp hs)),
      List.reverse_concat, List.dropWhile_cons_of_neg (by simp [keeps]),
      List.reverse_cons, List.reverse_reverse]
  rw [bodyText, lead, trail]

/-- An absolute path without `.` and `..`. -/
structure Direct (path : List Char) : Prop where
  absolute : path.head? = some '/'
  dotless : ∀ seg ∈ segments path, seg ≠ ['.'] ∧ seg ≠ ['.', '.']

theorem Direct.plain {path seg : List Char} (h : Direct path) (hs : seg ∈ segments path) :
    seg = [] ∨ Plain seg := by
  by_cases empty : seg = []
  · exact Or.inl empty
  · exact Or.inr ⟨slash_notMem hs, empty, h.dotless seg hs⟩

theorem exists_last_name {segs : List (List Char)} (plain : ∀ seg ∈ segs, seg = [] ∨ Plain seg)
    (some_name : segs.filterMap bodyComponent ≠ []) : ∃ front, ∃ top : Name, ∃ k,
    segs = front ++ top.text :: List.replicate k [] ∧
      segs.filterMap bodyComponent = front.filterMap bodyComponent ++ [.normal top] := by
  induction segs using List.reverseRecOn with
  | nil => exact absurd rfl some_name
  | append_singleton segs seg ih =>
    have earlier := ih fun s hs => plain s (List.mem_append_left _ hs)
    rw [List.filterMap_append] at some_name ⊢
    rcases plain seg (List.mem_append_right _ List.mem_cons_self) with rfl | hseg
    · have none : [([] : List Char)].filterMap bodyComponent = [] := rfl
      rw [none, List.append_nil] at some_name ⊢
      obtain ⟨front, top, k, rfl, comps⟩ := earlier some_name
      refine ⟨front, top, k + 1, ?_, comps⟩
      rw [List.replicate_succ', List.append_assoc, List.cons_append]
    · refine ⟨segs, ⟨seg, hseg⟩, 0, by simp, ?_⟩
      have here : [seg].filterMap bodyComponent = [.normal ⟨seg, hseg⟩] := by
        simp [bodyComponent, hseg]
      rw [here]

/-- The components that some segments stand for where more follows. -/
def compsOf : List (List Char) → List Component
  | [] => []
  | first :: rest => (firstComponent first true).toList ++ rest.filterMap bodyComponent

/-- A path that ends in a name, with `k` separators behind it. -/
structure Cut (path : List Char) (front : List (List Char)) (top : Name) (k : ℕ) : Prop where
  segs : segments path = front ++ top.text :: List.replicate k []

section Cut

variable {path : List Char} {front : List (List Char)} {top : Name} {k : ℕ}

theorem Cut.comps (h : Cut path front top k) :
    components path = compsOf front ++ [.normal top] := by
  have blank : (List.replicate k ([] : List Char)).filterMap bodyComponent = [] := by
    rw [List.filterMap_eq_nil_iff]
    intro seg hs
    rw [List.eq_of_mem_replicate hs]
    rfl
  have name : bodyComponent top.text = some (.normal top) := by simp [bodyComponent, top.plain]
  have split := h.segs
  cases front with
  | nil =>
    rw [components_eq split, blank, firstComponent, if_neg top.plain.2.1, if_neg top.plain.2.2.1,
      name]
    rfl
  | cons first rest =>
    rw [List.cons_append] at split
    have more : (rest ++ top.text :: List.replicate k []).isEmpty = false := by simp
    rw [components_eq split, more, List.filterMap_append, List.filterMap_cons, name, blank]
    simp [compsOf]

theorem Direct.cut (h : Direct path) (proper : components path ≠ [.rootDir]) :
    ∃ front top k, Cut path front top k := by
  obtain ⟨rest, rfl⟩ := List.head?_eq_some_iff.mp h.absolute
  have segs : segments ('/' :: rest) = [] :: segments rest := by simp [segments]
  have comps : components ('/' :: rest) = .rootDir :: (segments rest).filterMap bodyComponent := by
    rw [components_eq segs]
    cases here : segments rest with
    | nil => exact absurd here (segments_ne_nil rest)
    | cons => rfl
  have plain : ∀ seg ∈ segments rest, seg = [] ∨ Plain seg := by
    intro seg hs
    exact h.plain (by rw [segs]; exact List.mem_cons_of_mem _ hs)
  obtain ⟨front, top, k, split, -⟩ := exists_last_name plain fun none => by
    rw [comps, none] at proper
    exact proper rfl
  exact ⟨[] :: front, top, k, ⟨by rw [segs, split, List.cons_append]⟩⟩

theorem Cut.stem (h : Cut path front top k) :
    stem (segments path) = front ++ top.text :: List.replicate (k - 1) [] := by
  rw [h.segs]
  cases k with
  | zero => exact stem_append_name front top
  | succ k =>
    have form : front ++ top.text :: List.replicate (k + 1) [] =
        (front ++ top.text :: List.replicate k []) ++ [[]] := by
      rw [List.replicate_succ']
      simp
    rw [form, PathText.stem, if_pos (List.getLast?_concat), List.dropLast_concat]
    rfl

theorem Cut.segments_below (h : Cut path front top k) {names : List Name}
    (some_names : names ≠ []) : segments (below path names) =
      front ++ (top.text :: (List.replicate (k - 1) [] ++ names.map Name.text)) := by
  rw [PathText.segments_below some_names, h.stem]
  simp

theorem Cut.two_le_iff (h : Cut path front top k) : 2 ≤ k ↔ ['/', '/'] <:+ path := by
  constructor
  · intro two
    obtain ⟨j, rfl⟩ := Nat.exists_eq_add_of_le' two
    refine ⟨joinSegments (front ++ top.text :: List.replicate j []), ?_⟩
    apply segments_injective
    have bare : ∀ seg ∈ front ++ top.text :: List.replicate j [], '/' ∉ seg := by
      intro seg hs
      apply slash_notMem (s := path)
      rw [h.segs, List.replicate_add]
      simp only [List.mem_cons, List.mem_append] at hs ⊢
      tauto
    have two_more : joinSegments (front ++ top.text :: List.replicate j []) ++ ['/', '/'] =
        (joinSegments (front ++ top.text :: List.replicate j []) ++ '/' :: []) ++
          '/' :: [] := by simp
    rw [two_more, segments_append_slash, segments_append_slash,
      segments_joinSegments (by simp) bare, h.segs, List.replicate_add]
    simp [segments, List.replicate]
  · rintro ⟨start, rfl⟩
    have two_more : start ++ ['/', '/'] = (start ++ '/' :: []) ++ '/' :: [] := by simp
    have ends := h.segs
    rw [two_more, segments_append_slash, segments_append_slash] at ends
    by_contra few
    have last := congrArg List.reverse ends
    have small : k = 0 ∨ k = 1 := by omega
    rcases small with rfl | rfl
    · simp only [segments, List.reverse_append, List.reverse_cons, List.reverse_nil,
        List.nil_append, List.cons_append, List.replicate, List.cons.injEq] at last
      exact top.plain.2.1 last.1.symm
    · simp only [segments, List.reverse_append, List.reverse_cons, List.reverse_nil,
        List.nil_append, List.cons_append, List.replicate, List.cons.injEq, true_and] at last
      exact top.plain.2.1 last.1.symm

end Cut

/-- What is left behind the parent directory of a name, with nothing but separators cut off. -/
theorem stripPrefix_front {path first last : List Char} {front mid right : List (List Char)}
    (split : segments path = front ++ (mid ++ right))
    (blank : ∀ seg ∈ right, skipped seg = true)
    (starts : mid.head? = some first) (kept : skipped first = false)
    (ends : mid.getLast? = some last) (keeps : skipped last = false) :
    stripPrefix path (compsOf front) = some (joinSegments mid) := by
  cases front with
  | nil =>
    -- Nothing is stripped, but separators behind the last name are cut off.
    obtain ⟨rest, rfl⟩ := List.head?_eq_some_iff.mp starts
    have trimmed : (rest ++ right).rdropWhile skipped = rest := by
      rw [List.rdropWhile, List.reverse_append, List.dropWhile_append_of_pos
        fun seg hs => blank seg (List.mem_reverse.mp hs)]
      cases reversed : rest.reverse with
      | nil => simpa using reversed.symm
      | cons seg others =>
        have final : last = seg := by
          have tail : (first :: rest).getLast? = some seg := by
            rw [List.reverse_eq_cons_iff.mp reversed, ← List.cons_append, List.getLast?_concat]
          exact Option.some.inj (ends.symm.trans tail)
        rw [List.dropWhile_cons_of_neg (by simp [← final, keeps]), ← reversed,
          List.reverse_reverse]
    have nonempty : first ≠ [] := by
      rintro rfl
      cases kept
    rw [compsOf, stripPrefix, wholeText, split, List.nil_append, List.cons_append]
    split
    · simp_all
    · simp_all
    · rename_i same
      obtain ⟨rfl, rfl⟩ := List.cons.inj same
      rw [trimmed]
  | cons seg front =>
    have more : (front ++ (mid ++ right)).isEmpty = false := by
      obtain ⟨rest, rfl⟩ := List.head?_eq_some_iff.mp starts
      simp
    have bare : ∀ seg ∈ front, '/' ∉ seg := by
      intro seg hs
      apply slash_notMem (s := path)
      rw [split]
      exact List.mem_cons_of_mem _ (List.mem_append_left _ hs)
    have begun : ∃ c, firstComponent seg true = some c := by
      by_cases empty : seg = []
      · exact ⟨.rootDir, by simp [firstComponent, empty]⟩
      by_cases dot : seg = ['.']
      · exact ⟨.curDir, by simp [firstComponent, dot]⟩
      have bare : '/' ∉ seg := by
        apply slash_notMem (s := path)
        rw [split]
        exact List.mem_cons_self
      rw [firstComponent, if_neg empty, if_neg dot]
      apply Option.ne_none_iff_exists'.mp
      intro none
      have passed := (bodyComponent_eq_none bare).mp none
      simp [skipped, empty, dot] at passed
    obtain ⟨c, begun⟩ := begun
    obtain ⟨left, passed, subset, found⟩ := behind_append front (mid ++ right)
    have all : ∀ seg ∈ left ++ right, skipped seg = true := by
      intro seg hs
      rcases List.mem_append.mp hs with hs | hs
      · exact (bodyComponent_eq_none (bare seg (subset hs))).mp (passed seg hs)
      · exact blank seg hs
    rw [List.cons_append] at split
    rw [compsOf, begun, Option.toList_some, List.singleton_append, stripPrefix]
    simp only [split, more, Bool.not_false, begun, if_true]
    rw [found, Option.map_some, ← List.append_assoc, bodyText_eq all starts kept ends keeps]

theorem notMem_joinSegments {c : Char} (hc : c ≠ '/') {segs : List (List Char)}
    (free : ∀ seg ∈ segs, c ∉ seg) : c ∉ joinSegments segs := by
  induction segs with
  | nil => simp [joinSegments]
  | cons seg rest ih =>
    have first := free seg List.mem_cons_self
    have later := ih fun s hs => free s (List.mem_cons_of_mem _ hs)
    cases rest with
    | nil => exact first
    | cons next rest =>
      rw [joinSegments, List.mem_append, List.mem_cons, not_or, not_or]
      · exact ⟨first, hc, later⟩
      · exact List.cons_ne_nil _ _

theorem notMem_of_names {c : Char} (slash : c ≠ '/') (dot : c ≠ '.') {path : List Char}
    (free : ∀ n, .normal n ∈ components path → c ∉ n.text) : c ∉ path := by
  rw [← joinSegments_segments path]
  apply notMem_joinSegments slash
  intro seg hs inside
  by_cases plain : Plain seg
  · apply free ⟨seg, plain⟩ _ inside
    have named : bodyComponent seg = some (.normal ⟨seg, plain⟩) := dif_pos plain
    cases split : segments path with
    | nil => exact absurd split (segments_ne_nil path)
    | cons first rest =>
      rw [components_eq split]
      rw [split] at hs
      rcases List.mem_cons.mp hs with rfl | hs
      · have here : firstComponent seg (!rest.isEmpty) = some (.normal ⟨seg, plain⟩) := by
          rw [firstComponent, if_neg plain.2.1, if_neg plain.2.2.1, named]
        rw [here]
        exact List.mem_append_left _ (List.mem_singleton.mpr rfl)
      · exact List.mem_append_right _ (List.mem_filterMap.mpr ⟨seg, hs, named⟩)
  · have bare := slash_notMem hs
    have odd : seg = [] ∨ seg = ['.'] ∨ seg = ['.', '.'] := by
      by_contra other
      rw [not_or, not_or] at other
      exact plain ⟨bare, other⟩
    rcases odd with rfl | rfl | rfl
    · cases inside
    · exact dot (List.mem_singleton.mp inside)
    · rcases List.mem_cons.mp inside with same | inside
      · exact dot same
      · exact dot (List.mem_singleton.mp inside)

theorem exists_behind {segs : List (List Char)} {cs more : List Component}
    (h : segs.filterMap bodyComponent = cs ++ more) :
    ∃ left, behind segs cs = some left ∧ left ⊆ segs ∧ left.filterMap bodyComponent = more := by
  induction segs generalizing cs with
  | nil =>
    obtain ⟨rfl, rfl⟩ := List.append_eq_nil_iff.mp h.symm
    exact ⟨[], rfl, List.Subset.refl _, rfl⟩
  | cons seg segs ih =>
    cases cs with
    | nil => exact ⟨seg :: segs, rfl, List.Subset.refl _, h⟩
    | cons c cs =>
      cases here : bodyComponent seg with
      | none =>
        rw [List.filterMap_cons, here] at h
        obtain ⟨left, found, subset, comps⟩ := ih h
        refine ⟨left, ?_, List.subset_cons_of_subset _ subset, comps⟩
        rw [behind, here]
        exact found
      | some d =>
        rw [List.filterMap_cons, here] at h
        obtain ⟨rfl, later⟩ := List.cons.inj h
        obtain ⟨left, found, subset, comps⟩ := ih later
        refine ⟨left, ?_, List.subset_cons_of_subset _ subset, comps⟩
        rw [behind, here]
        simpa using found

theorem text_of_bodyComponent {seg : List Char} {n : Name}
    (h : bodyComponent seg = some (.normal n)) : seg = n.text := by
  unfold bodyComponent at h
  split_ifs at h
  · cases h
    rfl
  · cases h

section Trimmed

variable {segs : List (List Char)}

theorem filterMap_dropWhile_skipped (bare : ∀ seg ∈ segs, '/' ∉ seg) :
    (segs.dropWhile skipped).filterMap bodyComponent = segs.filterMap bodyComponent := by
  induction segs with
  | nil => rfl
  | cons seg segs ih =>
    by_cases blank : skipped seg = true
    · have none := (bodyComponent_eq_none (bare seg List.mem_cons_self)).mpr blank
      rw [List.dropWhile_cons_of_pos blank, ih fun s hs => bare s (List.mem_cons_of_mem _ hs),
        List.filterMap_cons, none]
    · rw [List.dropWhile_cons_of_neg blank]

theorem filterMap_rdropWhile_skipped (bare : ∀ seg ∈ segs, '/' ∉ seg) :
    (segs.rdropWhile skipped).filterMap bodyComponent = segs.filterMap bodyComponent := by
  rw [List.rdropWhile, List.filterMap_reverse, filterMap_dropWhile_skipped (by simpa using bare),
    List.filterMap_reverse, List.reverse_reverse]

theorem not_skipped_getLast? {last : List Char} (h : (segs.rdropWhile skipped).getLast? = some last) :
    skipped last = false := by
  obtain ⟨front, same⟩ := List.getLast?_eq_some_iff.mp h
  have some_left : segs.rdropWhile skipped ≠ [] := by
    rw [same]
    exact List.append_ne_nil_of_right_ne_nil _ (List.cons_ne_nil _ _)
  have kept := List.rdropWhile_last_not skipped segs some_left
  simpa [same] using kept

theorem not_skipped_head? {first : List Char}
    (h : ((segs.dropWhile skipped).rdropWhile skipped).head? = some first) :
    skipped first = false := by
  obtain ⟨tail, same⟩ := List.rdropWhile_prefix skipped (segs.dropWhile skipped)
  obtain ⟨rest, front⟩ := List.head?_eq_some_iff.mp h
  have here : (segs.dropWhile skipped).head? = some first := by
    rw [← same, front]
    rfl
  have kept := List.head?_dropWhile_not skipped segs
  rw [here] at kept
  exact kept

theorem components_joinSegments (bare : ∀ seg ∈ segs, '/' ∉ seg)
    (starts : ∀ first ∈ segs.head?, skipped first = false) :
    components (joinSegments segs) = segs.filterMap bodyComponent := by
  cases segs with
  | nil => rfl
  | cons first rest =>
    have kept := starts first rfl
    simp only [skipped, Bool.or_eq_false_iff, List.isEmpty_eq_false_iff, beq_eq_false_iff_ne,
      ne_eq] at kept
    have split := segments_joinSegments (List.cons_ne_nil first rest) bare
    rw [components_eq split, firstComponent, if_neg kept.1, if_neg kept.2, List.filterMap_cons]
    cases bodyComponent first with
    | none => rfl
    | some c => rfl

theorem eq_name_of_one {n : Name} (bare : ∀ seg ∈ segs, '/' ∉ seg)
    (one : segs.filterMap bodyComponent = [.normal n])
    (starts : ∀ first ∈ segs.head?, skipped first = false)
    (ends : ∀ last ∈ segs.getLast?, skipped last = false) : segs = [n.text] := by
  cases segs with
  | nil => cases one
  | cons first rest =>
    have kept := starts first rfl
    cases here : bodyComponent first with
    | none =>
      rw [(bodyComponent_eq_none (bare first List.mem_cons_self)).mp here] at kept
      cases kept
    | some c =>
      rw [List.filterMap_cons, here] at one
      obtain ⟨rfl, blank⟩ := List.cons.inj one
      rcases List.eq_nil_or_concat' rest with rfl | ⟨front, last, rfl⟩
      · rw [text_of_bodyComponent here]
      · have none := List.filterMap_eq_nil_iff.mp blank last
          (List.mem_append_right _ (List.mem_singleton.mpr rfl))
        have blank_last := (bodyComponent_eq_none (bare last (by simp))).mp none
        have kept_last := ends last (by rw [← List.cons_append]; exact List.getLast?_concat)
        rw [blank_last] at kept_last
        cases kept_last

theorem bare_trimmed (bare : ∀ seg ∈ segs, '/' ∉ seg) :
    ∀ seg ∈ (segs.dropWhile skipped).rdropWhile skipped, '/' ∉ seg :=
  fun seg hs => bare seg
    ((List.dropWhile_sublist _).subset ((List.rdropWhile_prefix _ _).subset hs))

theorem components_bodyText (bare : ∀ seg ∈ segs, '/' ∉ seg) :
    components (bodyText segs) = segs.filterMap bodyComponent := by
  have lead : ∀ seg ∈ segs.dropWhile skipped, '/' ∉ seg :=
    fun seg hs => bare seg ((List.dropWhile_sublist _).subset hs)
  rw [bodyText, components_joinSegments (bare_trimmed bare) fun _ => not_skipped_head?,
    filterMap_rdropWhile_skipped lead, filterMap_dropWhile_skipped bare]

theorem bodyText_name {n : Name} (bare : ∀ seg ∈ segs, '/' ∉ seg)
    (one : segs.filterMap bodyComponent = [.normal n]) : bodyText segs = n.text := by
  have lead : ∀ seg ∈ segs.dropWhile skipped, '/' ∉ seg :=
    fun seg hs => bare seg ((List.dropWhile_sublist _).subset hs)
  have alone : (segs.dropWhile skipped).rdropWhile skipped = [n.text] := by
    apply eq_name_of_one (bare_trimmed bare) _ (fun _ => not_skipped_head?)
      fun _ => not_skipped_getLast?
    rw [filterMap_rdropWhile_skipped lead, filterMap_dropWhile_skipped bare, one]
  rw [bodyText, alone]
  rfl

end Trimmed

/-- Behind a first segment that is not the root, only what is passed over is cut from the end. -/
theorem wholeText_eq {path first : List Char} {rest : List (List Char)}
    (split : segments path = first :: rest) (unrooted : first = [] → rest = []) :
    wholeText path = joinSegments (first :: rest.rdropWhile skipped) := by
  unfold wholeText
  rw [split]
  split
  · rename_i none
    cases none
  · rename_i both
    obtain ⟨rfl, rfl⟩ := List.cons.inj both
    cases unrooted rfl
  · rename_i both
    obtain ⟨rfl, rfl⟩ := List.cons.inj both
    rfl

theorem components_wholeText (path : List Char) :
    components (wholeText path) = components path := by
  cases split : segments path with
  | nil => exact absurd split (segments_ne_nil path)
  | cons first rest =>
    have bare : ∀ seg ∈ first :: rest, '/' ∉ seg := fun seg hs =>
      slash_notMem (s := path) (by rw [split]; exact hs)
    have bare_cut : ∀ seg ∈ first :: rest.rdropWhile skipped, '/' ∉ seg := fun seg hs =>
      bare seg ((List.cons_subset_cons _ (List.rdropWhile_prefix _ _).subset) hs)
    have cut := filterMap_rdropWhile_skipped fun seg hs => bare seg (List.mem_cons_of_mem _ hs)
    rw [components_eq split, ← cut]
    by_cases unrooted : first = [] → rest = []
    · have joined := segments_joinSegments (List.cons_ne_nil first _) bare_cut
      rw [wholeText_eq split unrooted, components_eq joined]
      by_cases empty : first = []
      · rw [unrooted empty]
        rfl
      · rw [firstComponent, firstComponent, if_neg empty, if_neg empty]
    · obtain ⟨rfl, some_rest⟩ := Classical.not_imp.mp unrooted
      obtain ⟨next, rest, rfl⟩ := List.exists_cons_of_ne_nil some_rest
      have text : wholeText path = '/' :: joinSegments ((next :: rest).rdropWhile skipped) := by
        rw [wholeText, split]
      rw [text]
      cases trimmed : (next :: rest).rdropWhile skipped with
      | nil => rfl
      | cons one more =>
        rw [trimmed] at bare_cut
        have segs : segments ('/' :: joinSegments (one :: more)) = [] :: one :: more := by
          have joined := segments_joinSegments (List.cons_ne_nil one more) fun seg hs =>
            bare_cut seg (List.mem_cons_of_mem _ hs)
          rw [segments, if_pos rfl, joined]
        rw [components_eq segs]
        rfl

theorem wholeText_name {path : List Char} {n : Name} (one : components path = [.normal n]) :
    wholeText path = n.text := by
  cases split : segments path with
  | nil => exact absurd split (segments_ne_nil path)
  | cons first rest =>
    rw [components_eq split] at one
    have unrooted : first = [] → rest = [] := by
      rintro rfl
      by_contra some_rest
      obtain ⟨next, rest, rfl⟩ := List.exists_cons_of_ne_nil some_rest
      cases one
    have bare : ∀ seg ∈ rest, '/' ∉ seg := fun seg hs =>
      slash_notMem (s := path) (by rw [split]; exact List.mem_cons_of_mem _ hs)
    rw [wholeText_eq split unrooted]
    cases start : firstComponent first (!rest.isEmpty) with
    | none =>
      rw [start] at one
      have empty : first = [] := by
        by_contra some_first
        unfold firstComponent at start
        rw [if_neg some_first] at start
        split_ifs at start with dot
        have blank := (bodyComponent_eq_none
          (slash_notMem (s := path) (by rw [split]; exact List.mem_cons_self))).mp start
        simp [skipped, some_first, dot] at blank
      rw [unrooted empty] at one
      cases one
    | some c =>
      rw [start] at one
      obtain ⟨rfl, blank⟩ := List.cons.inj one
      have named : bodyComponent first = some (.normal n) := by
        unfold firstComponent at start
        by_cases empty : first = []
        · rw [if_pos empty, unrooted empty] at start
          cases start
        · rw [if_neg empty] at start
          by_cases dot : first = ['.']
          · rw [if_pos dot] at start
            cases start
          · rwa [if_neg dot] at start
      have nothing : rest.rdropWhile skipped = [] := by
        rcases List.eq_nil_or_concat' (rest.rdropWhile skipped) with none | ⟨front, last, some_left⟩
        · exact none
        · have ends : (rest.rdropWhile skipped).getLast? = some last := by
            rw [some_left]
            exact List.getLast?_concat
          have kept := not_skipped_getLast? ends
          have inside : last ∈ rest := by
            apply (List.rdropWhile_prefix skipped rest).subset
            rw [some_left]
            exact List.mem_append_right _ (List.mem_singleton.mpr rfl)
          have none := List.filterMap_eq_nil_iff.mp blank last inside
          rw [(bodyComponent_eq_none (bare last inside)).mp none] at kept
          cases kept
      rw [nothing, ← text_of_bodyComponent named]
      rfl

/-- What is stripped of a path in front of its last components; a name alone is left as it is. -/
theorem exists_stripPrefix {path : List Char} {front more : List Component}
    (h : components path = front ++ more) : ∃ rel, stripPrefix path front = some rel ∧
      components rel = more ∧ ∀ n, more = [.normal n] → rel = n.text := by
  cases front with
  | nil =>
    have whole := components_wholeText path
    exact ⟨wholeText path, rfl, whole.trans h, fun n one => wholeText_name (h.trans one)⟩
  | cons c cs =>
    cases split : segments path with
    | nil => exact absurd split (segments_ne_nil path)
    | cons first rest =>
      have bare : ∀ seg ∈ rest, '/' ∉ seg := fun seg hs =>
        slash_notMem (s := path) (by rw [split]; exact List.mem_cons_of_mem _ hs)
      have text {cs' : List Component} (h' : rest.filterMap bodyComponent = cs' ++ more) :
          ∃ rel, (behind rest cs').map bodyText = some rel ∧ components rel = more ∧
            ∀ n, more = [.normal n] → rel = n.text := by
        obtain ⟨left, found, subset, comps⟩ := exists_behind h'
        have bare_left : ∀ seg ∈ left, '/' ∉ seg := fun seg hs => bare seg (subset hs)
        refine ⟨bodyText left, by rw [found]; rfl, ?_, fun n one => ?_⟩
        · rw [components_bodyText bare_left, comps]
        · exact bodyText_name bare_left (comps.trans one)
      rw [components_eq split] at h
      unfold stripPrefix
      simp only [split]
      cases start : firstComponent first (!rest.isEmpty) with
      | none =>
        rw [start] at h
        exact text h
      | some d =>
        rw [start] at h
        obtain ⟨rfl, later⟩ := List.cons.inj h
        simpa using text later

end DashDrop.Foundation.PathText
