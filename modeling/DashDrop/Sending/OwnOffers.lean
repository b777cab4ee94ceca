/- GID: DashDrop/Sending/OwnOffers
   source: src-tauri/src/transport/sender.rs, src-tauri/src/transport/path_validation.rs
   anchors: []
   digest: The items a sender lists, held against the receiver's validation of their paths. -/

import DashDrop.Sending.SourceWalk
import Mathlib.Tactic.FinCases
import DashDrop.Transport.PathGrammar

set_option autoImplicit false
set_option relaxedAutoImplicit false

namespace DashDrop.Sending.OwnOffers

open DashDrop.Foundation.FileTree (Bytes)
open DashDrop.Foundation.PathText DashDrop.Foundation.Text DashDrop.Foundation.UnixPath
open DashDrop.Sending.SourceWalk
open DashDrop.Transport.PathGrammar DashDrop.Transport.PathValidation
open DashDrop.Transport.Protocol

def PortableName (n : Name) : Prop := '\\' ∉ n.text ∧ ¬ Reserved n.text

instance (n : Name) : Decidable (PortableName n) :=
  inferInstanceAs (Decidable ('\\' ∉ n.text ∧
    ¬ toAsciiUppercase (n.text.takeWhile (· ≠ '.')) ∈ windowsReserved))

def DriveName (n : Name) : Prop := ∃ c : Char, c.utf8Size = 1 ∧ n.text = [c, ':']

theorem slashed_of_notMem {s : List Char} (free : '\\' ∉ s) : slashed s = s := by
  unfold slashed
  apply (List.map_congr_left fun c hc => ?_).trans (List.map_id s)
  rw [if_neg]
  · rfl
  · rintro rfl
    exact free hc

theorem normalizePath_append (front : List Component) (names : List Name) :
    normalizePath ⟨front ++ names.map .normal⟩ =
      ⟨(normalizePath ⟨front⟩).comps ++ names.map .normal⟩ := by
  have fold (result : PathBuf) : (names.map Component.normal).foldl normalizeStep result =
      ⟨result.comps ++ names.map .normal⟩ := by
    induction names generalizing result with
    | nil => simp
    | cons n names ih =>
      rw [List.map_cons, List.foldl_cons, ih, normalizeStep, join_plain _ n.plain, PathBuf.child]
      simp
  rw [normalizePath, List.foldl_append, fold]
  rfl

theorem destination_names (saveRoot : PathBuf) {normalized : List Char} {n : Name}
    {names : List Name} (comps : components normalized = (n :: names).map .normal) :
    destination normalized saveRoot =
      .ok ⟨(normalizePath saveRoot).comps ++ (n :: names).map .normal⟩ := by
  have relative : (PathBuf.ofText normalized).isAbsolute = false := by
    simp [PathBuf.isAbsolute, PathBuf.ofText, comps]
  have joined : saveRoot.join (.ofText normalized) =
      ⟨saveRoot.comps ++ (n :: names).map .normal⟩ := by
    rw [PathBuf.join, relative]
    by_cases empty : saveRoot.comps = []
    · simp [empty, PathBuf.ofText, comps]
    · have kept : (PathBuf.ofText normalized).comps.filter (· ≠ .curDir) =
          (n :: names).map .normal := by
        rw [PathBuf.ofText, comps, List.filter_eq_self]
        intro c hc
        obtain ⟨m, -, rfl⟩ := List.mem_map.mp hc
        rfl
      simp only [Bool.false_eq_true, if_false, if_neg empty, kept]
  have inside : (normalizePath saveRoot).comps.isPrefixOf
      ((normalizePath saveRoot).comps ++ (n :: names).map .normal) = true :=
    List.isPrefixOf_iff_prefix.mpr (List.prefix_append _ _)
  have form := normalizePath_append saveRoot.comps (n :: names)
  simp only [destination, joined, form, PathBuf.startsWith, inside, if_true]

theorem segments_names (n : Name) (names : List Name) :
    segments (joinSegments ((n :: names).map Name.text)) = (n :: names).map Name.text := by
  have bare : ∀ seg ∈ (n :: names).map Name.text, '/' ∉ seg := by
    intro seg hs
    obtain ⟨m, -, rfl⟩ := List.mem_map.mp hs
    exact m.plain.1
  exact segments_joinSegments (List.cons_ne_nil _ _) bare

theorem components_names (n : Name) (names : List Name) :
    components (joinSegments ((n :: names).map Name.text)) = (n :: names).map .normal := by
  have part (m : Name) : bodyComponent m.text = some (.normal m) := by
    simp [bodyComponent, m.plain]
  have all : (names.map Name.text).filterMap bodyComponent = names.map .normal := by
    rw [List.filterMap_map]
    simp [part]
  rw [components_eq (segments_names n names), all]
  simp [firstComponent, n.plain.2.1, n.plain.2.2.1, part]

theorem validateRelPath_names {n : Name} {names : List Name}
    (portable : ∀ m ∈ n :: names, PortableName m) (driveless : ¬ DriveName n)
    (saveRoot : PathBuf) :
    validateRelPath (joinSegments ((n :: names).map Name.text)) saveRoot =
      .ok ⟨(normalizePath saveRoot).comps ++ (n :: names).map .normal⟩ := by
  have split := segments_names n names
  have comps := components_names n names
  have free : '\\' ∉ joinSegments ((n :: names).map Name.text) := by
    apply notMem_joinSegments (by decide)
    intro seg hs
    obtain ⟨m, hm, rfl⟩ := List.mem_map.mp hs
    exact (portable m hm).1
  have full : [] ∉ segments (joinSegments ((n :: names).map Name.text)) := by
    rw [split]
    intro empty
    obtain ⟨m, -, same⟩ := List.mem_map.mp empty
    exact m.plain.2.1 same
  have same := slashed_of_notMem free
  have here := destination_names saveRoot comps
  generalize joinSegments ((n :: names).map Name.text) = s at split free full same here
  rw [nil_mem_segments, not_or, not_or, not_or] at full
  obtain ⟨⟨-, start⟩, finish, pair⟩ := full
  have infix_free (a b : Char) (back : a = '\\' ∨ b = '\\') :
      ¬ containsText [a, b] s = true := by
    intro found
    have subset := ((containsText_iff (by simp)).mp found).subset
    rcases back with rfl | rfl
    · exact free (subset (by simp))
    · exact free (subset (by simp))
  rw [validateRelPath_ok_iff, same]
  refine ⟨⟨?_, ?_, ?_, ?_⟩, here⟩
  · rintro (h | h)
    · exact start h
    · exact free (List.mem_of_mem_head? h)
  · intro drive
    unfold driveAbsolute at drive
    split at drive
    case h_2 => cases drive
    case h_1 c d rest =>
      simp only [Bool.and_eq_true, beq_iff_eq, Bool.or_eq_true] at drive
      obtain ⟨one, rfl | rfl⟩ := drive
      · exact free (by simp)
      · have bare : '/' ∉ [c, ':'] := by
          rintro hc
          rcases List.mem_cons.mp hc with rfl | hc
          · exact start rfl
          · exact absurd hc (by decide)
        have cut := segments_append_slash [c, ':'] rest
        rw [segments_of_notMem bare, show [c, ':'] ++ '/' :: rest = c :: ':' :: '/' :: rest from rfl,
          split, List.map_cons, List.singleton_append, List.cons.injEq] at cut
        exact driveless ⟨c, one, cut.1⟩
  · rintro (h | h | h | h | h | h | h | h)
    · exact start h
    · exact free (List.mem_of_mem_head? h)
    · exact finish h
    · exact free (List.mem_of_getLast? h)
    · exact pair ((containsText_iff (by simp)).mp h)
    · exact infix_free _ _ (Or.inl rfl) h
    · exact infix_free _ _ (Or.inr rfl) h
    · exact infix_free _ _ (Or.inl rfl) h
  · rw [same, split, validateSegments_ok]
    intro seg hs
    obtain ⟨m, hm, rfl⟩ := List.mem_map.mp hs
    exact (validateSegment_ok _).mpr ⟨m.plain.2.2.2, m.plain.2.1, (portable m hm).2⟩

section Relative

variable {path : List Char} {front : List (List Char)} {top : Name} {k : ℕ}

theorem fileName_cut (cut : Cut path front top k) : fileName path = some top := by
  have form : (PathBuf.ofText path).comps = compsOf front ++ [.normal top] := cut.comps
  rw [fileName, PathBuf.fileName, form, List.getLast?_concat]

theorem walkParent_cut (cut : Cut path front top k) :
    walkParent path = some ⟨compsOf front⟩ := by
  have parent : (PathBuf.ofText path).parent = some ⟨compsOf front⟩ := by
    have form : (PathBuf.ofText path).comps = compsOf front ++ [.normal top] := cut.comps
    rw [PathBuf.parent, form, List.getLast?_concat, List.dropLast_concat]
  have apart : (⟨compsOf front⟩ : PathBuf) ≠ PathBuf.ofText path := by
    intro same
    have lengths := congrArg (fun p : PathBuf => p.comps.length) same
    simp [PathBuf.ofText, cut.comps] at lengths
  rw [walkParent, parent]
  simpa using apart

theorem skipped_name (n : Name) : skipped n.text = false := by
  simp [skipped, n.plain.2.1, n.plain.2.2.1]

/-- The directory that the relative paths below a source path start from. -/
def startOf (base : List Char) : List Component :=
  match walkParent base with
  | some parent => parent.comps
  | none => components base

theorem relPath_of_start {walked rel : List Char}
    (stripped : stripPrefix walked (startOf path) = some rel) (free : '\\' ∉ rel)
    (nonempty : rel ≠ []) (start : rel.head? ≠ some '/') : relPath walked path = rel := by
  have slashes : rel.map (fun c => if c = '\\' then '/' else c) = rel := slashed_of_notMem free
  have kept : rel.dropWhile (· = '/') = rel := by
    obtain ⟨c, rest, rfl⟩ := List.exists_cons_of_ne_nil nonempty
    apply List.dropWhile_cons_of_neg
    simpa using start
  have form : relPath walked path =
      let rel := (((stripPrefix walked (startOf path)).getD walked).map
        fun c => if c = '\\' then '/' else c).dropWhile (· = '/')
      if rel = [] then ((fileName walked).map Name.text).getD [] else rel := rfl
  rw [form, stripped]
  simp only [Option.getD_some, slashes, kept, if_neg nonempty]

theorem relPath_of_strip {walked rel : List Char} {parent : PathBuf}
    (found : walkParent path = some parent) (stripped : stripPrefix walked parent.comps = some rel)
    (free : '\\' ∉ rel) (nonempty : rel ≠ []) (start : rel.head? ≠ some '/') :
    relPath walked path = rel := by
  have same : startOf path = parent.comps := by rw [startOf, found]
  rw [← same] at stripped
  exact relPath_of_start stripped free nonempty start

theorem start_joinSegments (n : Name) (segs : List (List Char)) :
    joinSegments (n.text :: segs) ≠ [] ∧ (joinSegments (n.text :: segs)).head? ≠ some '/' := by
  obtain ⟨c, rest, text⟩ := List.exists_cons_of_ne_nil n.plain.2.1
  have first : c ≠ '/' := by
    rintro rfl
    exact n.plain.1 (by rw [text]; exact List.mem_cons_self)
  rw [text]
  cases segs with
  | nil => simpa [joinSegments] using first
  | cons => simpa [joinSegments] using first

theorem relPath_self (cut : Cut path front top k) (free : '\\' ∉ top.text) :
    relPath path path = top.text := by
  obtain ⟨nonempty, start⟩ := start_joinSegments top []
  have segs : segments path = front ++ ([top.text] ++ List.replicate k []) := cut.segs
  have stripped := stripPrefix_front segs
    (fun seg hs => by rw [List.eq_of_mem_replicate hs]; rfl) rfl (skipped_name top) rfl
    (skipped_name top)
  exact relPath_of_strip (walkParent_cut cut) stripped free nonempty start

theorem relPath_below (cut : Cut path front top k) {names : List Name} (some_names : names ≠ [])
    (free : ∀ n ∈ top :: names, '\\' ∉ n.text) : relPath (below path names) path =
      joinSegments (top.text :: (List.replicate (k - 1) [] ++ names.map Name.text)) := by
  obtain ⟨nonempty, start⟩ :=
    start_joinSegments top (List.replicate (k - 1) [] ++ names.map Name.text)
  obtain ⟨init, last, rfl⟩ := (List.eq_nil_or_concat' names).resolve_left some_names
  have segs := cut.segments_below some_names
  have ends : (top.text :: (List.replicate (k - 1) [] ++ (init ++ [last]).map Name.text)).getLast? =
      some last.text := by
    rw [List.map_append, ← List.append_assoc, ← List.cons_append, List.map_singleton,
      List.getLast?_concat]
  have whole : segments (below path (init ++ [last])) = front ++
      ((top.text :: (List.replicate (k - 1) [] ++ (init ++ [last]).map Name.text)) ++ []) := by
    rw [segs, List.append_nil]
  have stripped := stripPrefix_front whole (by simp) rfl (skipped_name top) ends
    (skipped_name last)
  refine relPath_of_strip (walkParent_cut cut) stripped ?_ nonempty start
  apply notMem_joinSegments (by decide)
  intro seg hs
  rcases List.mem_cons.mp hs with rfl | hs
  · exact free top List.mem_cons_self
  rcases List.mem_append.mp hs with hs | hs
  · rw [List.eq_of_mem_replicate hs]
    exact List.not_mem_nil
  · obtain ⟨n, hn, rfl⟩ := List.mem_map.mp hs
    exact free n (List.mem_cons_of_mem _ hn)

theorem rejected_of_two {names : List Name} (two : 2 ≤ k) (saveRoot p : PathBuf) :
    validateRelPath
      (joinSegments (top.text :: (List.replicate (k - 1) [] ++ names.map Name.text))) saveRoot ≠
        .ok p := by
  intro accepted
  have passed := (validateRelPath_ok_iff.mp accepted).1.grammatical
  have bare : ∀ seg ∈ top.text :: (List.replicate (k - 1) [] ++ names.map Name.text),
      '/' ∉ seg := by
    intro seg hs
    rcases List.mem_cons.mp hs with rfl | hs
    · exact top.plain.1
    rcases List.mem_append.mp hs with hs | hs
    · rw [List.eq_of_mem_replicate hs]
      exact List.not_mem_nil
    · obtain ⟨n, -, rfl⟩ := List.mem_map.mp hs
      exact n.plain.1
  have empty : [] ∈ (segments (joinSegments
      (top.text :: (List.replicate (k - 1) [] ++ names.map Name.text)))).tail := by
    rw [segments_joinSegments (List.cons_ne_nil _ _) bare]
    exact List.mem_append_left _ (List.mem_replicate.mpr ⟨by omega, rfl⟩)
  rcases nil_mem_later_segments.mp empty with ends | pair
  · exact passed.finish _ ends (Or.inl rfl)
  · exact passed.apart _ _ pair (Or.inl rfl) (Or.inl rfl)

end Relative

def kindAt (entry : Entry) (names : List Name) : Option FileType := (entry.at names).bind Entry.kind

/-- Every regular file and directory of a tree once, each directory before its contents, and
nothing else. -/
structure ListsTree (entry : Entry) (path : List Char) (part : List Listed) : Prop where
  complete : ∀ (names : List Name) (fileType : FileType),
    (∃ item ∈ part, components item.2 = components path ++ names.map .normal ∧
      item.1.fileType = fileType) ↔ kindAt entry names = some fileType
  within : ∀ item ∈ part, ∃ names : List Name,
    components item.2 = components path ++ names.map .normal
  ordered : part.Pairwise fun a b => ¬ components b.2 <+: components a.2

/-- The relative path is accepted and leads to where the path from the parent of `path` on leads
below the save root. -/
def Resolves (path : List Char) (item : Listed) : Prop :=
  ∀ saveRoot, validateRelPath item.1.relPath.toList saveRoot =
    .ok ⟨(normalizePath saveRoot).comps ++ (components item.2).drop ((components path).length - 1)⟩

structure GoodOffer (disk : Disk) (paths : List (List Char)) (items : List Listed) : Prop where
  ids : items.map (fun item => item.1.fileId) = List.range items.length
  listed : ∃ parts : List (List Listed), items = parts.flatten ∧
    List.Forall₂ (fun part path => ListsTree (disk.entryAt path) path part ∧
      ∀ item ∈ part, Resolves path item) parts paths

/-- An absolute path other than `/`, without `.` and `..`, to something with portable names. -/
structure Source (disk : Disk) (path : List Char) : Prop where
  direct : Direct path
  proper : components path ≠ [.rootDir]
  present : ∀ cause, disk.entryAt path ≠ .denied cause
  name : ∀ n, fileName path = some n → PortableName n ∧ ¬ DriveName n
  names : ∀ names x, (disk.entryAt path).at names = some x → ∀ n ∈ names, PortableName n

/-- At most 2^32 files and directories, and no more than one separator behind a source path that
has any of them below it. -/
structure Fits (disk : Disk) (paths : List (List Char)) : Prop where
  few : (paths.map fun path => (disk.entryAt path).spots.length).sum ≤ 2 ^ 32
  tight : ∀ path ∈ paths, ['/', '/'] <:+ path →
    ∀ names, names ≠ [] → kindAt (disk.entryAt path) names = none

theorem kindAt_eq_some {entry : Entry} (tidy : Tidy entry) {names : List Name}
    {fileType : FileType} : kindAt entry names = some fileType ↔
      ∃ x, (names, x) ∈ entry.spots ∧ x.kind = some fileType := by
  rw [kindAt, Option.bind_eq_some_iff]
  constructor
  · rintro ⟨x, there, kind⟩
    exact ⟨x, (mem_spots tidy).mpr ⟨there, by rw [kind]; rfl⟩, kind⟩
  · rintro ⟨x, inside, kind⟩
    exact ⟨x, ((mem_spots tidy).mp inside).1, kind⟩

theorem normal_injective : Function.Injective Component.normal := fun _ _ h => by
  cases h
  rfl

theorem components_append_injective {path : List Char} {a b : List Name}
    (h : components path ++ a.map .normal = components path ++ b.map .normal) : a = b :=
  List.map_injective_iff.mpr normal_injective (List.append_cancel_left h)

theorem listsTree_of_shown {entry : Entry} (tidy : Tidy entry) {path : List Char}
    {part : List Listed} (shown : List.Forall₂ (Shows path path) part entry.spots) :
    ListsTree entry path part where
  complete := by
    intro names fileType
    rw [kindAt_eq_some tidy]
    constructor
    · rintro ⟨item, inside, there, kind⟩
      obtain ⟨⟨names', x⟩, spot, shows_spot⟩ := exists_partner shown inside
      rw [shows_spot.components] at there
      obtain rfl := components_append_injective there
      exact ⟨x, spot, by rw [← kind, shows_spot.2.2]⟩
    · rintro ⟨x, spot, kind⟩
      obtain ⟨item, inside, partner⟩ := exists_partner shown.flip spot
      have shows_spot : Shows path path item (names, x) := partner
      have same := shows_spot.2.2
      rw [kind, Option.some.injEq] at same
      exact ⟨item, inside, shows_spot.components, same⟩
  within := by
    intro item inside
    obtain ⟨spot, -, shows_spot⟩ := exists_partner shown inside
    exact ⟨spot.1, shows_spot.components⟩
  ordered := by
    have ordered := pairwise_spots tidy
    generalize entry.spots = spots at shown ordered
    induction shown with
    | nil => exact List.Pairwise.nil
    | cons first rest ih =>
      rw [List.pairwise_cons] at ordered ⊢
      refine ⟨fun item inside pre => ?_, ih ordered.2⟩
      obtain ⟨spot, later, shows_spot⟩ := exists_partner rest inside
      rw [shows_spot.components, first.components, List.prefix_append_right_inj,
        List.prefix_map_iff_of_injective normal_injective] at pre
      exact ordered.1 spot later pre

theorem ids_iff {items : List Listed} (h : Numbered 0 items) :
    items.map (fun item => item.1.fileId) = List.range items.length ↔ items.length ≤ 2 ^ 32 := by
  rw [h, List.range_eq_range']
  constructor
  · intro same
    by_contra many
    rw [Nat.not_le] at many
    have here := congrArg (fun ids => ids[2 ^ 32]?) same
    simp only [List.getElem?_map, List.getElem?_range' many] at here
    simp at here
  · intro few
    apply (List.map_congr_left fun i hi => ?_).trans (List.map_id _)
    obtain ⟨_, small⟩ := List.mem_range'_1.mp hi
    exact Nat.mod_eq_of_lt (by omega)

section Offers

variable {disk : Disk} {path : List Char}

/-- The items of a source path are accepted if no two separators stand before a name. -/
theorem accepted_of_cut {front : List (List Char)} {top : Name} {k : ℕ} (cut : Cut path front top k)
    (portable : PortableName top) (driveless : ¬ DriveName top)
    (names : ∀ names x, (disk.entryAt path).at names = some x → ∀ n ∈ names, PortableName n)
    (tight : ['/', '/'] <:+ path → ∀ names, names ≠ [] → kindAt (disk.entryAt path) names = none)
    {item : Listed} {spot : List Name × Entry} (hs : spot ∈ (disk.entryAt path).spots)
    (shown : Shows path path item spot) (saveRoot : PathBuf) :
    validateRelPath item.1.relPath.toList saveRoot =
      .ok ⟨(normalizePath saveRoot).comps ++ (top :: spot.1).map .normal⟩ := by
  obtain ⟨there, kind⟩ := (mem_spots (disk.tidy path)).mp hs
  have all : ∀ n ∈ top :: spot.1, PortableName n := by
    intro n hn
    rcases List.mem_cons.mp hn with rfl | hn
    · exact portable
    · exact names _ _ there n hn
  have rel : relPath item.2 path = joinSegments ((top :: spot.1).map Name.text) := by
    rw [shown.1]
    by_cases here : spot.1 = []
    · rw [here]
      exact relPath_self cut portable.1
    · have single : k < 2 := by
        by_contra two
        have none := tight (cut.two_le_iff.mp (Nat.not_lt.mp two)) spot.1 here
        rw [kindAt, there, Option.bind_some] at none
        rw [none] at kind
        cases kind
      have no_more : k - 1 = 0 := by omega
      rw [relPath_below cut here fun n hn => (all n hn).1, no_more]
      rfl
  rw [shown.2.1, String.toList_ofList, rel]
  exact validateRelPath_names all driveless saveRoot

theorem resolves_of_shown (source : Source disk path)
    (tight : ['/', '/'] <:+ path → ∀ names, names ≠ [] → kindAt (disk.entryAt path) names = none)
    {item : Listed} {spot : List Name × Entry} (hs : spot ∈ (disk.entryAt path).spots)
    (shown : Shows path path item spot) : Resolves path item := by
  obtain ⟨front, top, k, cut⟩ := source.direct.cut source.proper
  have below_parent : (components item.2).drop ((components path).length - 1) =
      (top :: spot.1).map .normal := by
    have form : components item.2 = compsOf front ++ (top :: spot.1).map .normal := by
      rw [shown.components, cut.comps]
      simp
    have length : (components path).length - 1 = (compsOf front).length := by
      rw [cut.comps]
      simp
    rw [form, length, List.drop_left]
  intro saveRoot
  rw [below_parent]
  obtain ⟨portable, driveless⟩ := source.name top (fileName_cut cut)
  exact accepted_of_cut cut portable driveless source.names tight hs shown saveRoot

theorem unlisted_of_accepted (source : Source disk path) (two : ['/', '/'] <:+ path)
    {part : List Listed}
    (shown : List.Forall₂ (Shows path path) part (disk.entryAt path).spots)
    (accepted : ∀ item ∈ part, ∃ saveRoot p,
      validateRelPath item.1.relPath.toList saveRoot = .ok p)
    (names : List Name) (some_names : names ≠ []) : kindAt (disk.entryAt path) names = none := by
  by_contra listed
  obtain ⟨fileType, kind⟩ := Option.ne_none_iff_exists'.mp listed
  obtain ⟨x, spot, -⟩ := (kindAt_eq_some (disk.tidy path)).mp kind
  obtain ⟨item, inside, shows_spot⟩ := exists_partner shown.flip spot
  obtain ⟨saveRoot, p, ok⟩ := accepted item inside
  obtain ⟨front, top, k, cut⟩ := source.direct.cut source.proper
  obtain ⟨portable, -⟩ := source.name top (fileName_cut cut)
  have free : ∀ n ∈ top :: names, '\\' ∉ n.text := by
    intro n hn
    rcases List.mem_cons.mp hn with rfl | hn
    · exact portable.1
    · exact (source.names _ _ ((mem_spots (disk.tidy path)).mp spot).1 n hn).1
  rw [shows_spot.2.1, String.toList_ofList, shows_spot.1, relPath_below cut some_names free] at ok
  exact rejected_of_two (cut.two_le_iff.mpr two) saveRoot p ok

end Offers

theorem length_parts {disk : Disk} {parts : List (List Listed)} {paths : List (List Char)}
    (shown : List.Forall₂ (fun part path =>
      List.Forall₂ (Shows path path) part (disk.entryAt path).spots) parts paths) :
    parts.flatten.length = (paths.map fun path => (disk.entryAt path).spots.length).sum := by
  induction shown with
  | nil => rfl
  | cons first _ ih =>
    rw [List.flatten_cons, List.length_append, ih, List.map_cons, List.sum_cons, first.length_eq]

theorem portable_dir {modified : Option ℤ} {entries : List (Name × Entry)} {fault : Option String}
    (distinct : (entries.map Prod.fst).Nodup)
    (children : ∀ child ∈ entries, PortableName child.1 ∧
      ∀ names x, child.2.at names = some x → ∀ n ∈ names, PortableName n) :
    ∀ names x, (Entry.dir modified entries fault).at names = some x →
      ∀ n ∈ names, PortableName n := by
  intro names x there n hn
  cases names with
  | nil => cases hn
  | cons m rest =>
    obtain ⟨entry, listed, there⟩ := (at_dir distinct).mp there
    obtain ⟨portable, below⟩ := children _ listed
    rcases List.mem_cons.mp hn with rfl | hn
    · exact portable
    · exact below rest x there n hn

theorem portable_leaf {entry : Entry} (leaf : ∀ m es f, entry ≠ .dir m es f) :
    ∀ names x, entry.at names = some x → ∀ n ∈ names, PortableName n := by
  intro names x there n hn
  cases names with
  | nil => cases hn
  | cons m rest =>
    cases entry with
    | dir modified entries fault => exact absurd rfl (leaf _ _ _)
    | file | symlink | special | denied => cases there

def sampleName (c : Char) (h : Plain [c]) : Name := ⟨[c], h⟩

def sampleFile : SourceFile := ⟨[104, 105], some 0, 0o644, none⟩

/-- `/x` with the file `a` and the link `l`, and `/y` with the file `a`. -/
def sampleRoot : Entry :=
  .dir none
    [(sampleName 'x' (by decide), .dir none [(sampleName 'a' (by decide), .file sampleFile),
        (sampleName 'l' (by decide), .symlink)] none),
      (sampleName 'y' (by decide), .dir none [(sampleName 'a' (by decide), .file sampleFile)]
        none)] none

theorem sampleRoot_tidy : Tidy sampleRoot := by
  apply tidy_dir (by decide)
  intro child hc
  fin_cases hc
  · apply tidy_dir (by decide)
    intro child hc
    fin_cases hc
    · exact tidy_file _
    · exact tidy_symlink
  · apply tidy_dir (by decide)
    intro child hc
    fin_cases hc
    exact tidy_file _

def sampleDisk : Disk := .ofTree sampleRoot sampleRoot_tidy

def sampleX : Entry := sampleDisk.entryAt "/x".toList

theorem sample_source {path : List Char} (direct : Direct path)
    (proper : components path ≠ [.rootDir])
    (name : fileName path = some (sampleName 'x' (by decide)))
    (there : sampleDisk.entryAt path = sampleX) : Source sampleDisk path where
  direct := direct
  proper := proper
  present := by
    intro cause
    rw [there]
    exact Entry.noConfusion
  name := by
    rw [name]
    rintro n ⟨⟩
    refine ⟨by decide, ?_⟩
    rintro ⟨c, -, same⟩
    cases same
  names := by
    rw [there]
    apply portable_dir (by decide)
    intro child hc
    fin_cases hc
    · exact ⟨by decide, portable_leaf fun _ _ _ => Entry.noConfusion⟩
    · exact ⟨by decide, portable_leaf fun _ _ _ => Entry.noConfusion⟩

theorem sampleX_readable : Readable sampleX := by
  intro x inside
  cases inside with
  | here => exact rfl
  | inner listed inside =>
    fin_cases listed
    · cases inside
      exact rfl
    · cases inside
      exact trivial

def zeroDigest : Bytes → Digest := fun _ => ⟨Vector.replicate 32 0⟩

/-- Trees that can be read are listed; the offer is good if and only if it fits. -/
theorem own_offers_pass (blake3 : Bytes → Digest) {disk : Disk} {paths : List (List Char)}
    (sources : ∀ path ∈ paths, Source disk path) :
    ((∀ path ∈ paths, Readable (disk.entryAt path)) →
      ∃ items, buildFileItems blake3 disk paths = .ok items) ∧
    ∀ items, buildFileItems blake3 disk paths = .ok items →
      (GoodOffer disk paths items ↔ Fits disk paths) := by
  refine ⟨buildFileItems_ok blake3, fun items built => ?_⟩
  obtain ⟨parts, rfl, shown, numbered⟩ := buildFileItems_walked built
  have count := length_parts shown
  constructor
  · intro good
    refine ⟨by rw [← count]; exact (ids_iff numbered).mp good.ids, ?_⟩
    intro path hp two names some_names
    obtain ⟨part, inside, here⟩ := exists_partner shown.flip hp
    apply unlisted_of_accepted (sources path hp) two here (fun item hi => ?_) names some_names
    obtain ⟨parts', same, listed⟩ := good.listed
    have everywhere : item ∈ parts'.flatten := by
      rw [← same]
      exact List.mem_flatten.mpr ⟨part, inside, hi⟩
    obtain ⟨part', inside', hi'⟩ := List.mem_flatten.mp everywhere
    obtain ⟨path', -, -, resolves⟩ := exists_partner listed inside'
    exact ⟨⟨[]⟩, _, resolves item hi' ⟨[]⟩⟩
  · intro fits
    refine ⟨(ids_iff numbered).mpr (by rw [count]; exact fits.few), parts, rfl, ?_⟩
    apply forall₂_of_mem shown
    intro part path hp here
    refine ⟨listsTree_of_shown (disk.tidy path) here, fun item hi => ?_⟩
    obtain ⟨spot, hs, shows_spot⟩ := exists_partner here hi
    exact resolves_of_shown (sources path hp) (fits.tight path hp) hs shows_spot

theorem own_offer_single_slash :
    (∀ path ∈ ["/x/".toList], Source sampleDisk path) ∧
      ∃ items, buildFileItems zeroDigest sampleDisk ["/x/".toList] = .ok items ∧
        items.map (fun item => item.1.relPath) = ["x", "x/a"] ∧
        GoodOffer sampleDisk ["/x/".toList] items := by
  have source : ∀ path ∈ ["/x/".toList], Source sampleDisk path := by
    intro path hp
    rw [List.mem_singleton] at hp
    subst hp
    exact sample_source ⟨by decide, by decide⟩ (by decide) (by decide) rfl
  refine ⟨source, _, rfl, by decide, ?_⟩
  apply ((own_offers_pass zeroDigest source).2 _ rfl).mpr
  refine ⟨by decide, fun path hp two => ?_⟩
  rw [List.mem_singleton] at hp
  subst hp
  exact absurd two (by decide)

/-- With two separators behind the source path, the offer names `x//a`. -/
theorem two_slashes_rejected :
    (∀ path ∈ ["/x//".toList], Source sampleDisk path ∧ Readable (sampleDisk.entryAt path)) ∧
      ∃ items, buildFileItems zeroDigest sampleDisk ["/x//".toList] = .ok items ∧
        items.map (fun item => item.1.relPath) = ["x", "x//a"] ∧
        validateRelPath "x//a".toList (.ofText "/save".toList) = .error .emptySegment ∧
        ¬ GoodOffer sampleDisk ["/x//".toList] items := by
  refine ⟨fun path hp => ?_, _, rfl, by decide, by decide, ?_⟩
  · rw [List.mem_singleton] at hp
    subst hp
    exact ⟨sample_source ⟨by decide, by decide⟩ (by decide) (by decide) rfl, sampleX_readable⟩
  · intro good
    obtain ⟨parts, same, listed⟩ := good.listed
    obtain ⟨part, rfl⟩ : ∃ part, parts = [part] := by
      cases listed with
      | cons _ rest =>
        cases rest
        exact ⟨_, rfl⟩
    rw [List.flatten_singleton] at same
    cases listed with
    | cons first _ =>
      rw [← same] at first
      have resolves := first.2 _ (List.mem_cons_of_mem _ List.mem_cons_self)
      have accepted := resolves (.ofText "/save".toList)
      revert accepted
      decide

end DashDrop.Sending.OwnOffers
