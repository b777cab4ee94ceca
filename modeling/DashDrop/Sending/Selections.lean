/- GID: DashDrop/Sending/Selections
   source: src-tauri/src/transport/sender.rs, src-tauri/src/transport/receiver.rs
   anchors: []
   digest: Which selections of source paths are offered without two items for one destination. -/

import DashDrop.Receiving.Separation
import DashDrop.Sending.OwnOffers

set_option autoImplicit false
set_option relaxedAutoImplicit false

namespace DashDrop.Sending.Selections

open DashDrop.Foundation.FileTree (Bytes)
open DashDrop.Foundation.PathText DashDrop.Foundation.UnixPath
open DashDrop.Receiving.Separation (dispatch)
open DashDrop.Sending.SourceWalk DashDrop.Sending.OwnOffers
open DashDrop.Transport.PathValidation DashDrop.Transport.Protocol

/-- What `receive_files` answers each item before it starts a task: an invalid path, and one that
an earlier item has, is refused at once. -/
def answers (saveRoot : PathBuf) : List PathBuf → List FileItem → List (Option ErrorCode)
  | _, [] => []
  | seenPaths, item :: rest =>
      match validateRelPath item.relPath.toList saveRoot with
      | .error _ => some .invalidPath :: answers saveRoot seenPaths rest
      | .ok finalPath =>
          if finalPath ∈ seenPaths then some .pathConflict :: answers saveRoot seenPaths rest
          else none :: answers saveRoot (finalPath :: seenPaths) rest

theorem dispatch_eq_unrefused (saveRoot : PathBuf) (seenPaths : List PathBuf)
    (items : List FileItem) : (dispatch saveRoot seenPaths items).map Prod.fst =
      ((items.zip (answers saveRoot seenPaths items)).filter (·.2.isNone)).map Prod.fst := by
  induction items generalizing seenPaths with
  | nil => rfl
  | cons item rest ih =>
    cases valid : validateRelPath item.relPath.toList saveRoot with
    | error cause => simp [dispatch, answers, valid, ih]
    | ok path =>
      by_cases seen : path ∈ seenPaths
      · simp [dispatch, answers, valid, seen, ih]
      · simp [dispatch, answers, valid, seen, ih]

theorem length_answers (saveRoot : PathBuf) (seenPaths : List PathBuf) (items : List FileItem) :
    (answers saveRoot seenPaths items).length = items.length := by
  induction items generalizing seenPaths with
  | nil => rfl
  | cons item rest ih =>
    unfold answers
    split
    · simp [ih]
    · split_ifs <;> simp [ih]

def destinationOf (saveRoot : PathBuf) (item : Listed) : Except PathError PathBuf :=
  validateRelPath item.1.relPath.toList saveRoot

/-- Every item has a destination of its own, none is refused, and each gets a task. -/
structure Undisturbed (saveRoot : PathBuf) (items : List Listed) : Prop where
  valid : ∀ item ∈ items, ∃ p, destinationOf saveRoot item = .ok p
  distinct : (items.map (destinationOf saveRoot)).Nodup
  unrefused : ∀ answer ∈ answers saveRoot [] (items.map Prod.fst), answer = none
  started : (dispatch saveRoot [] (items.map Prod.fst)).map Prod.fst = items.map Prod.fst

def topNames (disk : Disk) (paths : List (List Char)) : List Name :=
  paths.filterMap fun path => if (disk.entryAt path).kind.isSome then fileName path else none

theorem unrefused_of_distinct {saveRoot : PathBuf} {items : List Listed}
    (valid : ∀ item ∈ items, ∃ p, destinationOf saveRoot item = .ok p)
    (distinct : (items.map (destinationOf saveRoot)).Nodup) {seenPaths : List PathBuf}
    (fresh : ∀ p ∈ seenPaths, .ok p ∉ items.map (destinationOf saveRoot)) :
    ∀ answer ∈ answers saveRoot seenPaths (items.map Prod.fst), answer = none := by
  induction items generalizing seenPaths with
  | nil =>
    intro answer h
    cases h
  | cons item rest ih =>
    rw [List.map_cons, List.nodup_cons] at distinct
    obtain ⟨p, here⟩ := valid item List.mem_cons_self
    have first : validateRelPath item.1.relPath.toList saveRoot = .ok p := here
    have unseen : p ∉ seenPaths := by
      intro seen
      apply fresh p seen
      rw [List.map_cons, here]
      exact List.mem_cons_self
    have stays : ∀ q ∈ p :: seenPaths, .ok q ∉ rest.map (destinationOf saveRoot) := by
      intro q hq again
      rcases List.mem_cons.mp hq with rfl | hq
      · rw [← here] at again
        exact distinct.1 again
      · exact fresh q hq (List.mem_cons_of_mem _ again)
    have later := ih (fun i hi => valid i (List.mem_cons_of_mem _ hi)) distinct.2 stays
    intro answer h
    rw [List.map_cons, answers, first] at h
    simp only [if_neg unseen] at h
    rcases List.mem_cons.mp h with rfl | h
    · rfl
    · exact later answer h

theorem started_of_unrefused {saveRoot : PathBuf} {items : List FileItem}
    (unrefused : ∀ answer ∈ answers saveRoot [] items, answer = none) :
    (dispatch saveRoot [] items).map Prod.fst = items := by
  have all : (items.zip (answers saveRoot [] items)).filter (·.2.isNone) =
      items.zip (answers saveRoot [] items) := by
    rw [List.filter_eq_self]
    intro pair inside
    rw [unrefused pair.2 (List.of_mem_zip inside).2]
    rfl
  rw [dispatch_eq_unrefused, all, List.map_fst_zip (length_answers saveRoot [] items).ge]

section Tops

variable {disk : Disk} {saveRoot : PathBuf}

/-- The destination of a spot below a source path with the file name `top`. -/
def placeOf (saveRoot : PathBuf) (top : Name) (spot : List Name × Entry) :
    Except PathError PathBuf :=
  .ok ⟨(normalizePath saveRoot).comps ++ (top :: spot.1).map .normal⟩

theorem placeOf_injective {top top' : Name} {spot spot' : List Name × Entry}
    (h : placeOf saveRoot top spot = placeOf saveRoot top' spot') : top = top' ∧ spot.1 = spot'.1 := by
  rw [placeOf, placeOf, Except.ok.injEq, PathBuf.mk.injEq, List.append_cancel_left_eq] at h
  exact List.cons.inj (List.map_injective_iff.mpr normal_injective h)

/-- A source path that ends in a name, with portable names, and at most one separator behind it if
anything is listed below it. -/
structure Selected (disk : Disk) (path : List Char) : Prop where
  cut : ∃ front top k, Cut path front top k
  name : ∀ n, fileName path = some n → PortableName n ∧ ¬ DriveName n
  names : ∀ names x, (disk.entryAt path).at names = some x → ∀ n ∈ names, PortableName n
  tight : ['/', '/'] <:+ path → ∀ names, names ≠ [] → kindAt (disk.entryAt path) names = none

theorem destinations_of_spots {path : List Char} {top : Name} (selected : Selected disk path)
    (named : fileName path = some top) {part : List Listed} {spots : List (List Name × Entry)}
    (shown : List.Forall₂ (Shows path path) part spots) (inside : spots ⊆ (disk.entryAt path).spots) :
    part.map (destinationOf saveRoot) = spots.map (placeOf saveRoot top) := by
  induction shown with
  | nil => rfl
  | cons first _ ih =>
    have later := ih fun spot h => inside (List.mem_cons_of_mem _ h)
    obtain ⟨front, top', k, cut⟩ := selected.cut
    obtain rfl : top' = top := Option.some.inj ((fileName_cut cut).symm.trans named)
    obtain ⟨portable, driveless⟩ := selected.name top' named
    have here : destinationOf saveRoot _ = placeOf saveRoot top' _ :=
      accepted_of_cut cut portable driveless selected.names selected.tight
        (inside List.mem_cons_self) first saveRoot
    rw [List.map_cons, List.map_cons, later, here]

theorem nodup_places (disk : Disk) (path : List Char) (top : Name) :
    ((disk.entryAt path).spots.map (placeOf saveRoot top)).Nodup := by
  rw [List.Nodup, List.pairwise_map]
  apply (pairwise_spots (disk.tidy path)).imp
  intro a b apart same
  apply apart
  rw [(placeOf_injective same).2]

theorem spots_eq_nil {entry : Entry} (unlisted : ¬ entry.kind.isSome = true) :
    entry.spots = [] := by
  cases entry with
  | file | dir => exact absurd rfl unlisted
  | symlink | special | denied => rw [Entry.spots]

theorem mem_topNames {paths : List (List Char)} {top : Name} : top ∈ topNames disk paths ↔
    ∃ path ∈ paths, (disk.entryAt path).kind.isSome = true ∧ fileName path = some top := by
  rw [topNames, List.mem_filterMap]
  constructor
  · rintro ⟨path, hp, found⟩
    split_ifs at found with listed
    exact ⟨path, hp, listed, found⟩
  · rintro ⟨path, hp, listed, named⟩
    exact ⟨path, hp, by rw [if_pos listed, named]⟩

theorem Selected.part {path : List Char} (selected : Selected disk path) {part : List Listed}
    (shown : List.Forall₂ (Shows path path) part (disk.entryAt path).spots) :
    ∃ top, fileName path = some top ∧ ∀ saveRoot,
      part.map (destinationOf saveRoot) = (disk.entryAt path).spots.map (placeOf saveRoot top) := by
  obtain ⟨front, top, k, cut⟩ := selected.cut
  have named := fileName_cut cut
  exact ⟨top, named, fun saveRoot => destinations_of_spots selected named shown
    (List.Subset.refl _)⟩

/-- The destinations are those of the spots below the file names of the source paths. -/
theorem mem_destinations {paths : List (List Char)} {parts : List (List Listed)}
    (selected : ∀ path ∈ paths, Selected disk path)
    (shown : List.Forall₂ (fun part path =>
      List.Forall₂ (Shows path path) part (disk.entryAt path).spots) parts paths)
    {place : Except PathError PathBuf} :
    place ∈ parts.flatten.map (destinationOf saveRoot) ↔ ∃ path ∈ paths, ∃ top,
      fileName path = some top ∧
        place ∈ (disk.entryAt path).spots.map (placeOf saveRoot top) := by
  induction shown with
  | nil => simp
  | @cons part path parts paths first _ ih =>
    obtain ⟨top, named, places⟩ := (selected path List.mem_cons_self).part first
    rw [List.flatten_cons, List.map_append, List.mem_append, places saveRoot,
      ih fun path hp => selected path (List.mem_cons_of_mem _ hp)]
    constructor
    · rintro (here | ⟨path', hp, later⟩)
      · exact ⟨path, List.mem_cons_self, top, named, here⟩
      · exact ⟨path', List.mem_cons_of_mem _ hp, later⟩
    · rintro ⟨path', hp, top', named', here⟩
      rcases List.mem_cons.mp hp with rfl | hp
      · rw [named, Option.some.injEq] at named'
        subst named'
        exact Or.inl here
      · exact Or.inr ⟨path', hp, top', named', here⟩

/-- All destinations differ if and only if the file names of the listed source paths do. -/
theorem nodup_destinations_iff {paths : List (List Char)} {parts : List (List Listed)}
    (selected : ∀ path ∈ paths, Selected disk path)
    (shown : List.Forall₂ (fun part path =>
      List.Forall₂ (Shows path path) part (disk.entryAt path).spots) parts paths) :
    (parts.flatten.map (destinationOf saveRoot)).Nodup ↔ (topNames disk paths).Nodup := by
  induction shown with
  | nil => simp [topNames]
  | @cons part path parts paths first rest ih =>
    have others : ∀ path ∈ paths, Selected disk path :=
      fun path hp => selected path (List.mem_cons_of_mem _ hp)
    obtain ⟨top, named, places⟩ := (selected path List.mem_cons_self).part first
    rw [List.flatten_cons, List.map_append, List.nodup_append, ih others, places saveRoot]
    by_cases listed : (disk.entryAt path).kind.isSome = true
    · have tops : topNames disk (path :: paths) = top :: topNames disk paths := by
        simp [topNames, listed, named]
      rw [tops, List.nodup_cons]
      have root := root_mem_spots listed
      constructor
      · rintro ⟨-, distinct, disjoint⟩
        refine ⟨fun again => ?_, distinct⟩
        obtain ⟨path', hp, listed', named'⟩ := mem_topNames.mp again
        have twice : placeOf saveRoot top ([], disk.entryAt path) ∈
            parts.flatten.map (destinationOf saveRoot) :=
          (mem_destinations others rest).mpr ⟨path', hp, top, named',
            List.mem_map.mpr ⟨([], disk.entryAt path'), root_mem_spots listed', rfl⟩⟩
        exact disjoint _ (List.mem_map.mpr ⟨_, root, rfl⟩) _ twice rfl
      · rintro ⟨alone, distinct⟩
        refine ⟨nodup_places disk path top, distinct, fun place here place' there same => ?_⟩
        subst same
        obtain ⟨path', hp, top', named', there⟩ := (mem_destinations others rest).mp there
        obtain ⟨spot, -, rfl⟩ := List.mem_map.mp here
        obtain ⟨spot', hspot', same⟩ := List.mem_map.mp there
        obtain ⟨rfl, -⟩ := placeOf_injective same
        apply alone
        apply mem_topNames.mpr
        refine ⟨path', hp, ?_, named'⟩
        by_contra unlisted
        rw [spots_eq_nil unlisted] at hspot'
        cases hspot'
    · have tops : topNames disk (path :: paths) = topNames disk paths := by
        simp [topNames, listed]
      rw [tops, spots_eq_nil listed]
      simp

end Tops

/-- Every item has a destination of its own and none is refused, if and only if the source paths
that list anything have different file names. -/
theorem undisturbed_iff_names_differ (blake3 : Bytes → Digest) {disk : Disk}
    {paths : List (List Char)} (selected : ∀ path ∈ paths, Selected disk path)
    {items : List Listed} (built : buildFileItems blake3 disk paths = .ok items)
    (saveRoot : PathBuf) : Undisturbed saveRoot items ↔ (topNames disk paths).Nodup := by
  obtain ⟨parts, rfl, shown, -⟩ := buildFileItems_walked built
  have same : (parts.flatten.map (destinationOf saveRoot)).Nodup ↔ (topNames disk paths).Nodup :=
    nodup_destinations_iff selected shown
  rw [← same]
  constructor
  · exact Undisturbed.distinct
  · intro distinct
    have valid : ∀ item ∈ parts.flatten, ∃ p, destinationOf saveRoot item = .ok p := by
      intro item hi
      obtain ⟨path, -, top, -, here⟩ := (mem_destinations selected shown).mp
        (List.mem_map_of_mem (f := destinationOf saveRoot) hi)
      obtain ⟨spot, -, same⟩ := List.mem_map.mp here
      exact ⟨_, same.symm⟩
    have unrefused : ∀ answer ∈ answers saveRoot [] (parts.flatten.map Prod.fst), answer = none :=
      unrefused_of_distinct valid distinct fun p hp => by cases hp
    exact ⟨valid, distinct, unrefused, started_of_unrefused unrefused⟩

/-- An absolute spelling of a path that is looked up from the root. -/
def rooted (path : List Char) : List Char := if path.head? = some '/' then path else '/' :: path

theorem rooted_joinName (path : List Char) (n : Name) :
    rooted (joinName path n) = joinName (rooted path) n := by
  cases path with
  | nil =>
    obtain ⟨c, rest, text⟩ := List.exists_cons_of_ne_nil n.plain.2.1
    have relative : c ≠ '/' := by
      rintro rfl
      exact n.plain.1 (by rw [text]; exact List.mem_cons_self)
    simp [rooted, joinName, text, relative]
  | cons c rest =>
    have start : (joinName (c :: rest) n).head? = some c := by
      unfold joinName
      split_ifs <;> rfl
    by_cases absolute : c = '/'
    · have here : rooted (c :: rest) = c :: rest := if_pos (congrArg some absolute)
      have there : rooted (joinName (c :: rest) n) = joinName (c :: rest) n :=
        if_pos (start.trans (congrArg some absolute))
      rw [here, there]
    · have here : rooted (c :: rest) = '/' :: c :: rest := if_neg (by simpa using absolute)
      have there : rooted (joinName (c :: rest) n) = '/' :: joinName (c :: rest) n :=
        if_neg (by simpa [start] using absolute)
      rw [here, there]
      unfold joinName
      rw [List.getLast?_cons_cons]
      simp only [reduceCtorEq, false_or]
      split_ifs <;> rfl

def fromRoot (disk : Disk) : Disk where
  entryAt path := disk.entryAt (rooted path)
  distinct _ _ _ _ h := disk.distinct _ _ _ _ h
  coherent := by
    intro path modified entries fault h n entry listed
    rw [rooted_joinName]
    exact disk.coherent _ _ _ _ h n entry listed

theorem selected_x : Selected (fromRoot sampleDisk) "x".toList where
  cut := ⟨[], sampleName 'x' (by decide), 0, ⟨by decide⟩⟩
  name := by
    rintro n ⟨⟩
    refine ⟨by decide, ?_⟩
    rintro ⟨c, -, same⟩
    cases same
  names := by
    have source : Source sampleDisk "/x".toList :=
      sample_source ⟨by decide, by decide⟩ (by decide) (by decide) rfl
    exact source.names
  tight := fun two => absurd two (by decide)

theorem selected_y_a : Selected (fromRoot sampleDisk) "./y/a".toList where
  cut := ⟨[['.'], ['y']], sampleName 'a' (by decide), 0, ⟨by decide⟩⟩
  name := by
    rintro n ⟨⟩
    refine ⟨by decide, ?_⟩
    rintro ⟨c, -, same⟩
    cases same
  names := portable_leaf fun _ _ _ => Entry.noConfusion
  tight := fun two => absurd two (by decide)

theorem undisturbed_x_and_a :
    (∀ path ∈ ["x".toList, "./y/a".toList], Selected (fromRoot sampleDisk) path) ∧
      ∃ items, buildFileItems zeroDigest (fromRoot sampleDisk)
          ["x".toList, "./y/a".toList] = .ok items ∧
        items.map (fun item => item.1.relPath) = ["x", "x/a", "a"] ∧
        Undisturbed (.ofText "/save".toList) items := by
  have selected : ∀ path ∈ ["x".toList, "./y/a".toList],
      Selected (fromRoot sampleDisk) path := by
    intro path hp
    fin_cases hp
    · exact selected_x
    · exact selected_y_a
  refine ⟨selected, _, rfl, by decide, ?_⟩
  exact (undisturbed_iff_names_differ zeroDigest selected rfl _).mpr (by decide)

/-- `/p` with the file `q`, and the files `/p\q` and `/CON`. -/
def oddRoot : Entry :=
  .dir none
    [(sampleName 'p' (by decide), .dir none [(sampleName 'q' (by decide), .file sampleFile)] none),
      (⟨"p\\q".toList, by decide⟩, .file sampleFile), (⟨"CON".toList, by decide⟩, .file sampleFile)]
    none

def oddDisk : Disk := .ofTree oddRoot <| by
  apply tidy_dir (by decide)
  intro child hc
  fin_cases hc
  · apply tidy_dir (by decide)
    intro child hc
    fin_cases hc
    exact tidy_file _
  · exact tidy_file _
  · exact tidy_file _

/-- The second of two files with one name is refused because of the first; so is a file whose name
spells the path of another, and a reserved name is refused by itself. -/
theorem same_name_refused :
    ¬ components "/x/a".toList <+: components "/y/a".toList ∧
      ¬ components "/y/a".toList <+: components "/x/a".toList ∧
      (∃ items, buildFileItems zeroDigest sampleDisk ["/x/a".toList, "/y/a".toList] = .ok items ∧
        answers (.ofText "/save".toList) [] (items.map Prod.fst) = [none, some .pathConflict] ∧
        ¬ Undisturbed (.ofText "/save".toList) items) ∧
      (∃ items, buildFileItems zeroDigest oddDisk
          ["/p".toList, "/p\\q".toList, "/CON".toList] = .ok items ∧
        answers (.ofText "/save".toList) [] (items.map Prod.fst) =
          [none, none, some .pathConflict, some .invalidPath]) := by
  refine ⟨by decide, by decide, ⟨_, rfl, by decide, fun calm => ?_⟩, _, rfl, by decide⟩
  have refused := calm.unrefused (some .pathConflict) (by decide)
  cases refused

end DashDrop.Sending.Selections
