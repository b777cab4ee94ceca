/- GID: DashDrop/Foundation/UnixPath
   generality: G
   anchors: []
   digest: Unix paths as component lists, with the joins, parents and names of a path library. -/

import Mathlib.Data.List.Basic
import Mathlib.Data.List.Infix

set_option autoImplicit false
set_option relaxedAutoImplicit false

namespace DashDrop.Foundation.UnixPath

def Plain (s : List Char) : Prop := '/' ∉ s ∧ s ≠ [] ∧ s ≠ ['.'] ∧ s ≠ ['.', '.']

instance (s : List Char) : Decidable (Plain s) := by unfold Plain; infer_instance

structure Name where
  text : List Char
  plain : Plain text
  deriving DecidableEq

inductive Component where
  | rootDir
  | curDir
  | parentDir
  | normal (name : Name)
  deriving DecidableEq

def segments : List Char → List (List Char)
  | [] => [[]]
  | c :: cs =>
      if c = '/' then [] :: segments cs
      else match segments cs with
        | [] => [[c]]
        | s :: ss => (c :: s) :: ss

/-- Empty segments and `.` vanish, `..` is the parent, anything else is a name. -/
def bodyComponent (s : List Char) : Option Component :=
  if h : Plain s then some (.normal ⟨s, h⟩)
  else if s = ['.', '.'] then some .parentDir
  else none

/-- The components of a path text. A leading `.` is kept, a leading separator is the root. -/
def components (text : List Char) : List Component :=
  match segments text with
  | [] => []
  | first :: rest =>
      (if first = [] then (if rest = [] then [] else [.rootDir])
        else if first = ['.'] then [.curDir]
        else (bodyComponent first).toList) ++ rest.filterMap bodyComponent

/-- A path up to the component-wise equality that paths are compared with. -/
structure PathBuf where
  comps : List Component
  deriving DecidableEq

namespace PathBuf

def ofText (t : List Char) : PathBuf := ⟨components t⟩

def isAbsolute (p : PathBuf) : Bool := p.comps.head? == some .rootDir

def join (p q : PathBuf) : PathBuf :=
  if q.isAbsolute then q
  else if p.comps = [] then q
  else ⟨p.comps ++ q.comps.filter (· ≠ .curDir)⟩

def parent (p : PathBuf) : Option PathBuf :=
  match p.comps.getLast? with
  | none | some .rootDir => none
  | some _ => some ⟨p.comps.dropLast⟩

def pop (p : PathBuf) : PathBuf := p.parent.getD p

def fileName (p : PathBuf) : Option Name :=
  match p.comps.getLast? with
  | some (.normal n) => some n
  | _ => none

def withFileName (p : PathBuf) (name : List Char) : PathBuf :=
  (if p.fileName.isSome then p.pop else p).join (ofText name)

def startsWith (p q : PathBuf) : Bool := q.comps.isPrefixOf p.comps

def display (p : PathBuf) : List Char :=
  let piece : Component → List Char
    | .rootDir => []
    | .curDir => ['.']
    | .parentDir => ['.', '.']
    | .normal n => n.text
  if p.comps = [.rootDir] then ['/'] else ['/'].intercalate (p.comps.map piece)

def child (p : PathBuf) (n : Name) : PathBuf := ⟨p.comps ++ [.normal n]⟩

def ancestors (p : PathBuf) : List PathBuf := (p.comps.inits.drop 1).map mk

end PathBuf

def splitLastDot : List Char → Option (List Char × List Char)
  | [] => none
  | c :: cs =>
      match splitLastDot cs with
      | some (before, after) => some (c :: before, after)
      | none => if c = '.' then some ([], cs) else none

def rsplitFileAtDot (file : List Char) : Option (List Char) × Option (List Char) :=
  match splitLastDot file with
  | none => (none, some file)
  | some ([], _) => (some file, none)
  | some (before, after) => (some before, some after)

def PathBuf.fileStem (p : PathBuf) : Option (List Char) :=
  p.fileName.bind fun n =>
    let (before, after) := rsplitFileAtDot n.text
    before.or after

def PathBuf.extension (p : PathBuf) : Option (List Char) :=
  p.fileName.bind fun n =>
    let (before, after) := rsplitFileAtDot n.text
    before.bind fun _ => after

/-- The directory reached from `here` by one component, without looking at the disk. -/
def walk (here : List Name) : Component → List Name
  | .rootDir => []
  | .curDir => here
  | .parentDir => here.dropLast
  | .normal n => here ++ [n]

/-- Where a path leads after `.` and `..` are folded. -/
def PathBuf.resolve (p : PathBuf) : List Name := p.comps.foldl walk []

def PathBuf.absolute (names : List Name) : PathBuf := ⟨.rootDir :: names.map .normal⟩

theorem foldl_walk_normal (here names : List Name) :
    (names.map Component.normal).foldl walk here = here ++ names := by
  induction names generalizing here with
  | nil => simp
  | cons n names ih => simp [walk, ih]

theorem foldl_walk_filter_curDir (here : List Name) (cs : List Component) :
    (cs.filter (· ≠ .curDir)).foldl walk here = cs.foldl walk here := by
  induction cs generalizing here with
  | nil => rfl
  | cons c cs ih =>
    by_cases h : c = .curDir
    · subst h
      simpa [walk] using ih here
    · rw [List.filter_cons_of_pos (by simpa using h), List.foldl_cons, List.foldl_cons, ih]

@[simp] theorem resolve_absolute (names : List Name) :
    (PathBuf.absolute names).resolve = names := by
  simp [PathBuf.absolute, PathBuf.resolve, walk, foldl_walk_normal]

@[simp] theorem isAbsolute_absolute (names : List Name) :
    (PathBuf.absolute names).isAbsolute = true := rfl

theorem resolve_join {p q : PathBuf} (h : q.isAbsolute = false) :
    (p.join q).resolve = q.comps.foldl walk p.resolve := by
  by_cases hp : p.comps = []
  · simp [PathBuf.join, h, hp, PathBuf.resolve]
  · simp only [PathBuf.join, h, hp, PathBuf.resolve, if_false, Bool.false_eq_true,
      List.foldl_append]
    exact foldl_walk_filter_curDir _ _

theorem segments_of_notMem {s : List Char} (h : '/' ∉ s) : segments s = [s] := by
  induction s with
  | nil => rfl
  | cons c s ih =>
    simp only [List.mem_cons, not_or] at h
    simp [segments, Ne.symm h.1, ih h.2]

theorem components_of_plain {s : List Char} (h : Plain s) :
    components s = [.normal ⟨s, h⟩] := by
  simp [components, segments_of_notMem h.1, h.2.1, h.2.2.1, bodyComponent, h]

theorem absolute_append (names : List Name) (n : Name) :
    PathBuf.absolute (names ++ [n]) = (PathBuf.absolute names).child n := by
  simp [PathBuf.absolute, PathBuf.child]

@[simp] theorem resolve_child (p : PathBuf) (n : Name) : (p.child n).resolve = p.resolve ++ [n] := by
  simp [PathBuf.child, PathBuf.resolve, walk]

@[simp] theorem fileName_child (p : PathBuf) (n : Name) : (p.child n).fileName = some n := by
  simp [PathBuf.fileName, PathBuf.child]

@[simp] theorem parent_child (p : PathBuf) (n : Name) : (p.child n).parent = some p := by
  simp [PathBuf.parent, PathBuf.child]

theorem join_plain (p : PathBuf) {s : List Char} (h : Plain s) :
    p.join (.ofText s) = p.child ⟨s, h⟩ := by
  by_cases hp : p.comps = []
  · simp [PathBuf.join, PathBuf.ofText, components_of_plain h, PathBuf.isAbsolute, PathBuf.child,
      hp]
  · simp [PathBuf.join, PathBuf.ofText, components_of_plain h, PathBuf.isAbsolute, PathBuf.child,
      hp]

theorem withFileName_child (p : PathBuf) (n : Name) {s : List Char} (h : Plain s) :
    (p.child n).withFileName s = p.child ⟨s, h⟩ := by
  simp [PathBuf.withFileName, PathBuf.pop, join_plain p h]

theorem join_absolute_plain (names : List Name) {s : List Char} (h : Plain s) :
    (PathBuf.absolute names).join (.ofText s) = .absolute (names ++ [⟨s, h⟩]) := by
  rw [join_plain _ h, absolute_append]

@[simp] theorem parent_absolute_append (names : List Name) (n : Name) :
    (PathBuf.absolute (names ++ [n])).parent = some (.absolute names) := by
  rw [absolute_append, parent_child]

theorem not_mem_of_splitLastDot {s : List Char} (h : splitLastDot s = none) : '.' ∉ s := by
  induction s with
  | nil => simp
  | cons c s ih =>
    simp only [splitLastDot] at h
    split at h
    · cases h
    · rename_i none
      split_ifs at h with dot
      rw [List.mem_cons, not_or]
      exact ⟨fun hc => dot hc.symm, ih none⟩

theorem splitLastDot_eq {s before after : List Char} (h : splitLastDot s = some (before, after)) :
    s = before ++ '.' :: after := by
  induction s generalizing before with
  | nil => cases h
  | cons c s ih =>
    simp only [splitLastDot] at h
    split at h
    · rename_i b a split
      cases h
      simpa using ih split
    · split at h
      · rename_i dot
        cases h
        simp [dot]
      · cases h

theorem splitLastDot_after {s before after : List Char}
    (h : splitLastDot s = some (before, after)) : '.' ∉ after := by
  induction s generalizing before with
  | nil => cases h
  | cons c s ih =>
    simp only [splitLastDot] at h
    split at h
    · rename_i b a split
      cases h
      exact ih split
    · rename_i none
      split_ifs at h
      cases h
      exact not_mem_of_splitLastDot none

theorem rsplitFileAtDot_subset {file part : List Char}
    (h : (rsplitFileAtDot file).1 = some part ∨ (rsplitFileAtDot file).2 = some part) :
    part ⊆ file := by
  simp only [rsplitFileAtDot] at h
  split at h
  · simp only [reduceCtorEq, Option.some.injEq, false_or] at h
    simp [h]
  · simp only [reduceCtorEq, Option.some.injEq, or_false] at h
    simp [h]
  · rename_i before after _ split
    rw [splitLastDot_eq split]
    simp only [Option.some.injEq] at h
    rcases h with rfl | rfl
    · exact List.subset_append_left _ _
    · exact fun x hx => List.mem_append_right _ (List.mem_cons_of_mem _ hx)

theorem resolve_of_mem_ancestors_absolute {names : List Name} {q : PathBuf}
    (h : q ∈ (PathBuf.absolute names).ancestors) : q.resolve <+: names := by
  simp only [PathBuf.ancestors, PathBuf.absolute, List.inits_cons, List.drop_succ_cons,
    List.drop_zero, List.map_map, List.mem_map, List.mem_inits, Function.comp_apply] at h
  obtain ⟨cs, pre, rfl⟩ := h
  obtain ⟨front, short, rfl⟩ := List.prefix_map_iff.mp pre
  change (PathBuf.absolute front).resolve <+: names
  simpa using short

theorem mem_ancestors {p q : PathBuf} : q ∈ p.ancestors ↔ q.comps ≠ [] ∧ q.comps <+: p.comps := by
  obtain ⟨comps⟩ := p
  obtain ⟨front⟩ := q
  cases comps with
  | nil => simp [PathBuf.ancestors]
  | cons c cs =>
    simp only [PathBuf.ancestors, List.inits_cons, List.drop_succ_cons, List.drop_zero,
      List.map_map, List.mem_map, List.mem_inits, Function.comp_apply, PathBuf.mk.injEq]
    cases front with
    | nil => simp
    | cons d ds => simp [List.cons_prefix_cons, and_comm, eq_comm]

private theorem exists_prefix_walk {cs : List Component} {k : List Name}
    (h : k <+: cs.foldl walk []) : ∃ front, front <+: cs ∧ front.foldl walk [] = k := by
  induction cs using List.reverseRecOn generalizing k with
  | nil => exact ⟨[], List.nil_prefix, (List.prefix_nil.mp h).symm⟩
  | append_singleton cs c ih =>
    have earlier {k : List Name} (h : k <+: cs.foldl walk []) :
        ∃ front, front <+: cs ++ [c] ∧ front.foldl walk [] = k := by
      obtain ⟨front, pre, same⟩ := ih h
      exact ⟨front, pre.trans (List.prefix_append _ _), same⟩
    have whole : (cs ++ [c]).foldl walk [] = walk (cs.foldl walk []) c := by simp
    rw [whole] at h
    cases c with
    | rootDir => exact ⟨_, List.prefix_rfl, whole.trans (List.prefix_nil.mp h).symm⟩
    | curDir => exact earlier h
    | parentDir => exact earlier (h.trans (List.dropLast_prefix _))
    | normal n =>
      obtain rfl | h := List.prefix_concat_iff.mp h
      · exact ⟨_, List.prefix_rfl, whole⟩
      · exact earlier h

theorem exists_ancestor_of_prefix {p : PathBuf} (abs : p.isAbsolute = true) {k : List Name}
    (h : k <+: p.resolve) : ∃ q ∈ p.ancestors, q.resolve = k := by
  obtain ⟨comps⟩ := p
  cases comps with
  | nil => cases abs
  | cons c cs =>
    obtain rfl : c = .rootDir := by simpa [PathBuf.isAbsolute] using abs
    have below : k <+: cs.foldl walk [] := h
    obtain ⟨front, pre, same⟩ := exists_prefix_walk below
    exact ⟨⟨.rootDir :: front⟩, mem_ancestors.mpr ⟨by simp, by simpa using pre⟩, same⟩

def PathBuf.Onward (p : PathBuf) : Prop := ∀ q ∈ p.ancestors, q.resolve <+: p.resolve

theorem onward_absolute (names : List Name) : (PathBuf.absolute names).Onward := by
  intro q hq
  rw [resolve_absolute]
  exact resolve_of_mem_ancestors_absolute hq

theorem onward_relative (names : List Name) : (PathBuf.mk (names.map .normal)).Onward := by
  intro q hq
  obtain ⟨-, pre⟩ := mem_ancestors.mp hq
  obtain ⟨front, short, same⟩ := List.prefix_map_iff.mp pre
  have hfront : q.resolve = front := by
    simp [PathBuf.resolve, same, foldl_walk_normal]
  have hwhole : (PathBuf.mk (names.map .normal)).resolve = names := by
    simp [PathBuf.resolve, foldl_walk_normal]
  rw [hfront, hwhole]
  exact short

theorem segments_ne_nil (s : List Char) : segments s ≠ [] := by
  cases s with
  | nil => simp [segments]
  | cons c s =>
    unfold segments
    split_ifs
    · simp
    · split <;> simp

theorem slash_notMem {s seg : List Char} (h : seg ∈ segments s) : '/' ∉ seg := by
  induction s generalizing seg with
  | nil =>
    obtain rfl := List.mem_singleton.mp h
    simp
  | cons c s ih =>
    unfold segments at h
    split_ifs at h with hc
    · rcases List.mem_cons.mp h with rfl | h
      · simp
      · exact ih h
    · cases hs : segments s with
      | nil => exact absurd hs (segments_ne_nil s)
      | cons first rest =>
        rw [hs] at h ih
        rcases List.mem_cons.mp h with rfl | h
        · rw [List.mem_cons, not_or]
          exact ⟨fun e => hc e.symm, ih List.mem_cons_self⟩
        · exact ih (List.mem_cons_of_mem _ h)

theorem segments_cons_ne {c : Char} (hc : c ≠ '/') (s : List Char) : ∃ first rest,
    segments s = first :: rest ∧ segments (c :: s) = (c :: first) :: rest := by
  cases hs : segments s with
  | nil => exact absurd hs (segments_ne_nil s)
  | cons first rest => exact ⟨first, rest, rfl, by simp [segments, hc, hs]⟩

theorem nil_first_segment {s : List Char} :
    (segments s).head? = some [] ↔ s = [] ∨ s.head? = some '/' := by
  cases s with
  | nil => simp [segments]
  | cons c s =>
    by_cases hc : c = '/'
    · simp [segments, hc]
    · obtain ⟨first, rest, -, split⟩ := segments_cons_ne hc s
      simp [split, hc]

theorem nil_mem_later_segments {s : List Char} :
    [] ∈ (segments s).tail ↔ s.getLast? = some '/' ∨ ['/', '/'] <:+: s := by
  induction s with
  | nil => simp [segments]
  | cons c s ih =>
    have last : (c :: s).getLast? = some '/' ↔
        (s = [] ∧ c = '/') ∨ s.getLast? = some '/' := by
      cases s with
      | nil => simp
      | cons d s => simp [List.getLast?_cons_cons]
    have pair : ['/', '/'] <:+: c :: s ↔ (c = '/' ∧ s.head? = some '/') ∨ ['/', '/'] <:+: s := by
      rw [List.infix_cons_iff, List.cons_prefix_cons]
      cases s with
      | nil => simp
      | cons d s => simp [eq_comm]
    rw [last, pair]
    by_cases hc : c = '/'
    · have split : (segments (c :: s)).tail = segments s := by simp [segments, hc]
      have first := nil_first_segment (s := s)
      rw [split]
      cases hs : segments s with
      | nil => exact absurd hs (segments_ne_nil s)
      | cons seg rest =>
        rw [hs] at first ih
        simp only [List.head?_cons, Option.some.injEq, List.tail_cons] at first ih
        rw [List.mem_cons, ih, eq_comm, first]
        simp only [hc, and_true, true_and]
        exact or_or_or_comm
    · obtain ⟨first, rest, here, split⟩ := segments_cons_ne hc s
      rw [here] at ih
      rw [split, List.tail_cons]
      simp only [List.tail_cons] at ih
      simp [ih, hc]

/-- An empty segment lies before a leading separator, behind a trailing one or between two. -/
theorem nil_mem_segments {s : List Char} : [] ∈ segments s ↔
    (s = [] ∨ s.head? = some '/') ∨ s.getLast? = some '/' ∨ ['/', '/'] <:+: s := by
  rw [← nil_first_segment, ← nil_mem_later_segments]
  cases hs : segments s with
  | nil => exact absurd hs (segments_ne_nil s)
  | cons seg rest => simp [eq_comm]

/-- Segments without `..` and without empty ones lead down by the names among them. -/
theorem filterMap_bodyComponent {segs : List (List Char)}
    (plain : ∀ seg ∈ segs, '/' ∉ seg ∧ seg ≠ [] ∧ seg ≠ ['.', '.']) : ∃ names : List Name,
    names.map Name.text = segs.filter (· ≠ ['.']) ∧
      segs.filterMap bodyComponent = names.map .normal := by
  induction segs with
  | nil => exact ⟨[], rfl, rfl⟩
  | cons seg segs ih =>
    obtain ⟨names, texts, comps⟩ := ih fun s hs => plain s (List.mem_cons_of_mem _ hs)
    obtain ⟨slash, nonempty, up⟩ := plain seg List.mem_cons_self
    by_cases dot : seg = ['.']
    · subst dot
      have here : bodyComponent ['.'] = none := by decide
      exact ⟨names, by simpa using texts, by rw [List.filterMap_cons, here]; exact comps⟩
    · have hseg : Plain seg := ⟨slash, nonempty, dot, up⟩
      refine ⟨⟨seg, hseg⟩ :: names, by simp [dot, texts], ?_⟩
      have here : bodyComponent seg = some (.normal ⟨seg, hseg⟩) := by simp [bodyComponent, hseg]
      rw [List.filterMap_cons, here, comps, List.map_cons]

theorem walk_components {t : List Char}
    (plain : ∀ seg ∈ segments t, seg ≠ [] ∧ seg ≠ ['.', '.']) : ∃ names : List Name,
    names.map Name.text = (segments t).filter (· ≠ ['.']) ∧
      (PathBuf.ofText t).isAbsolute = false ∧
      ∀ here, (components t).foldl walk here = here ++ names := by
  have whole : ∀ seg ∈ segments t, '/' ∉ seg ∧ seg ≠ [] ∧ seg ≠ ['.', '.'] :=
    fun seg h => ⟨slash_notMem h, plain seg h⟩
  obtain ⟨names, texts, comps⟩ := filterMap_bodyComponent whole
  cases hs : segments t with
  | nil => exact absurd hs (segments_ne_nil t)
  | cons first rest =>
    rw [hs] at whole comps texts
    obtain ⟨slash, nonempty, up⟩ := whole first List.mem_cons_self
    by_cases dot : first = ['.']
    · subst dot
      have none : bodyComponent ['.'] = none := by decide
      rw [List.filterMap_cons, none] at comps
      have form : components t = .curDir :: names.map .normal := by
        simp [components, hs, comps]
      refine ⟨names, texts, by simp [PathBuf.isAbsolute, PathBuf.ofText, form], fun here => ?_⟩
      rw [form, List.foldl_cons]
      exact foldl_walk_normal here names
    · have hfirst : Plain first := ⟨slash, nonempty, dot, up⟩
      have form : components t = names.map .normal := by
        rw [← comps]
        simp [components, hs, nonempty, dot, bodyComponent, hfirst]
      refine ⟨names, texts, ?_, fun here => by rw [form, foldl_walk_normal]⟩
      cases names with
      | nil => simp [PathBuf.isAbsolute, PathBuf.ofText, form]
      | cons n names => simp [PathBuf.isAbsolute, PathBuf.ofText, form]

end DashDrop.Foundation.UnixPath
