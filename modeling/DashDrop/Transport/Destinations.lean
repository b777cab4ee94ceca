/- GID: DashDrop/Transport/Destinations
   source: src-tauri/src/transport/receiver.rs
   anchors: []
   digest: The final path and the part file of an accepted item, below the save root. -/

import DashDrop.Transport.DiskNames
import DashDrop.Transport.PathGrammar
import DashDrop.Runtime.Solo

set_option autoImplicit false
set_option relaxedAutoImplicit false

namespace DashDrop.Transport.Destinations

open DashDrop.Foundation.UnixPath DashDrop.Foundation.FileTree DashDrop.Foundation.Program
open DashDrop.Transport.PathValidation DashDrop.Transport.PathGrammar
open DashDrop.Transport.Receiver DashDrop.Transport.DiskNames
open DashDrop.Runtime.State DashDrop.Runtime.Machine DashDrop.Runtime.Solo

def StrictlyBelow (root path : PathBuf) : Prop :=
  ∃ names : List Name, names ≠ [] ∧ path = ⟨root.comps ++ names.map .normal⟩

/-- Whatever the strategy and the files on the disk, the file and its part file lie strictly
below the root. -/
def StaysInside (saveRoot validated : PathBuf) : Prop :=
  ∀ (strategy : FileConflictStrategy) (t : Tree) (final : PathBuf),
    survey t (resolveConflictPath validated strategy) = some (.ok (some final)) →
    StrictlyBelow saveRoot final ∧ StrictlyBelow saveRoot (tempPathFor final)

theorem not_strictlyBelow_self (root : PathBuf) : ¬ StrictlyBelow root root := by
  rintro ⟨names, nonempty, same⟩
  have hcomps := congrArg PathBuf.comps same
  have hnames : names.map Component.normal = [] := by simpa using hcomps
  exact nonempty (List.map_eq_nil_iff.mp hnames)

theorem strictlyBelow_child {root : PathBuf} (front : List Name) (n : Name) :
    StrictlyBelow root (PathBuf.child ⟨root.comps ++ front.map .normal⟩ n) := by
  refine ⟨front ++ [n], by simp, ?_⟩
  simp [PathBuf.child]

/-- A path with a name below the root keeps its directory under every choice of a final name. -/
theorem finals_child {strategy : FileConflictStrategy} {p final : PathBuf} {n : Name}
    (h : final ∈ finals strategy (p.child n)) : ∃ m, final = p.child m := by
  obtain rfl | ⟨-, idx, -, -, rfl⟩ := mem_finals.mp h
  · exact ⟨n, rfl⟩
  · exact ⟨renamed n idx, candidate_child p n idx⟩

theorem survey_mem_finals {t : Tree} {desired final : PathBuf} {strategy : FileConflictStrategy}
    (h : survey t (resolveConflictPath desired strategy) = some (.ok (some final))) :
    final ∈ finals strategy desired := by
  obtain ⟨answer, surveyed, chosen⟩ :=
    exists_survey (resolveConflictPath_spec desired strategy) looks_metadata t
  obtain rfl := Option.some.inj (surveyed.symm.trans h)
  exact chosen final rfl

theorem survey_overwrite (t : Tree) (desired : PathBuf) :
    survey t (resolveConflictPath desired .overwrite) = some (.ok (some desired)) := by
  simp only [resolveConflictPath, fs, bind_def, perform_bind, survey]
  cases (look t desired.resolve).map Node.metadata with
  | none => rfl
  | some _ => rfl

/-- An accepted path lies inside with all the names derived from it exactly when one of its
segments is not `.`. -/
theorem destinations_inside {saveRoot validated : PathBuf} {relPath : List Char}
    (abs : saveRoot.isAbsolute = true) (normal : normalizePath saveRoot = saveRoot)
    (accepted : validateRelPath relPath saveRoot = .ok validated) :
    StaysInside saveRoot validated ↔ ∃ segment ∈ segments (slashed relPath), segment ≠ ['.'] := by
  obtain ⟨checked, there⟩ := validateRelPath_ok_iff.mp accepted
  obtain ⟨names, spelled, here⟩ := destination_eq abs checked.passed
  rw [normal, there, Except.ok.injEq] at here
  subst here
  have named : names ≠ [] ↔ ∃ segment ∈ segments (slashed relPath), segment ≠ ['.'] := by
    have hempty : names.map Name.text ≠ [] ↔ names ≠ [] := List.map_eq_nil_iff.not
    rw [← hempty, spelled, Ne, List.filter_eq_nil_iff]
    push Not
    simp only [decide_eq_true_eq]
  rw [← named]
  constructor
  · rintro inside rfl
    have root := (inside .overwrite ∅ _ (survey_overwrite ∅ _)).1
    simp only [List.map_nil, List.append_nil] at root
    exact not_strictlyBelow_self saveRoot root
  · intro nonempty strategy t final surveyed
    obtain ⟨front, n, rfl⟩ := (List.eq_nil_or_concat names).resolve_left nonempty
    have split : PathBuf.mk (saveRoot.comps ++ (front.concat n).map .normal) =
        PathBuf.child ⟨saveRoot.comps ++ front.map .normal⟩ n := by
      simp [PathBuf.child]
    rw [split] at surveyed
    obtain ⟨m, rfl⟩ := finals_child (survey_mem_finals surveyed)
    rw [tempPathFor_child]
    exact ⟨strictlyBelow_child front m, strictlyBelow_child front (tempName m)⟩

private def transferRoot : PathBuf := .ofText "/home/u/Downloads/DashDrop/t1".toList

theorem destinations_inside_nested :
    transferRoot.isAbsolute = true ∧ normalizePath transferRoot = transferRoot ∧
      ∃ validated, validateRelPath "docs/./a.txt".toList transferRoot = .ok validated ∧
        StaysInside transferRoot validated := by
  have abs : transferRoot.isAbsolute = true := by decide
  have normal : normalizePath transferRoot = transferRoot := by decide
  have accepted : validateRelPath "docs/./a.txt".toList transferRoot =
      .ok (transferRoot.join (.ofText "docs/a.txt".toList)) := by decide
  exact ⟨abs, normal, _, accepted, (destinations_inside abs normal accepted).mpr (by decide)⟩

/-- The path `.` is accepted; its file is the save root and its part file a sibling of it. -/
theorem dot_beside_root :
    transferRoot.isAbsolute = true ∧ normalizePath transferRoot = transferRoot ∧
      validateRelPath ['.'] transferRoot = .ok transferRoot ∧
      tempPathFor transferRoot = .ofText "/home/u/Downloads/DashDrop/t1.dashdrop.part".toList ∧
      ¬ StaysInside transferRoot transferRoot := by
  refine ⟨by decide, by decide, by decide, by decide, fun inside => ?_⟩
  exact not_strictlyBelow_self transferRoot (inside .overwrite ∅ _ (survey_overwrite ∅ _)).1

end DashDrop.Transport.Destinations
