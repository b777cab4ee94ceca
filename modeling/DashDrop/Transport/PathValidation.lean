/- GID: DashDrop/Transport/PathValidation
   source: src-tauri/src/transport/path_validation.rs
   anchors: []
   digest: Validation of relative paths and the normal form of the destination. -/

import DashDrop.Foundation.Text
import DashDrop.Foundation.UnixPath

set_option autoImplicit false
set_option relaxedAutoImplicit false

namespace DashDrop.Transport.PathValidation

open DashDrop.Foundation.Text DashDrop.Foundation.UnixPath

def windowsReserved : List (List Char) :=
  ["CON", "PRN", "AUX", "NUL", "COM1", "COM2", "COM3", "COM4", "COM5", "COM6", "COM7", "COM8",
    "COM9", "LPT1", "LPT2", "LPT3", "LPT4", "LPT5", "LPT6", "LPT7", "LPT8", "LPT9"].map
    String.toList

inductive PathError where
  | absolutePath
  | pathTraversal
  | emptySegment
  | windowsReserved
  deriving DecidableEq

/-- `C:\` and `C:/`: the second and third bytes decide, so the first character is one byte. -/
def driveAbsolute : List Char → Bool
  | c :: ':' :: d :: _ => c.utf8Size == 1 && (d == '\\' || d == '/')
  | _ => false

/-- The table is ASCII, and no other character has an upper case made of its letters,
so the ASCII upper case decides membership as the full mapping does. -/
def validateSegment (segment : List Char) : Except PathError Unit :=
  if segment = ['.', '.'] then .error .pathTraversal
  else if segment = [] then .error .emptySegment
  else
    let base := (toAsciiUppercase segment).takeWhile (· ≠ '.')
    if windowsReserved.contains base then .error .windowsReserved else .ok ()

def validateSegments : List (List Char) → Except PathError Unit
  | [] => .ok ()
  | s :: rest =>
      match validateSegment s with
      | .error e => .error e
      | .ok () => validateSegments rest

/-- One component pushed onto, or popped from, the path built so far. -/
def normalizeStep (result : PathBuf) : Component → PathBuf
  | .rootDir => result.join (.ofText ['/'])
  | .curDir => result
  | .parentDir => result.pop
  | .normal c => result.join (.ofText c.text)

def normalizePath (path : PathBuf) : PathBuf := path.comps.foldl normalizeStep ⟨[]⟩

/-- The candidate below the save root and the prefix assertion on its normal form. -/
def destination (normalized : List Char) (saveRoot : PathBuf) : Except PathError PathBuf :=
  let candidate := normalizePath (saveRoot.join (.ofText normalized))
  if candidate.startsWith (normalizePath saveRoot) then .ok candidate else .error .pathTraversal

def validateRelPath (relPath : List Char) (saveRoot : PathBuf) : Except PathError PathBuf :=
  if relPath.head? = some '/' ∨ relPath.head? = some '\\' then .error .absolutePath
  else if driveAbsolute relPath then .error .absolutePath
  else if relPath.head? = some '/' ∨ relPath.head? = some '\\' ∨ relPath.getLast? = some '/'
      ∨ relPath.getLast? = some '\\' ∨ containsText ['/', '/'] relPath
      ∨ containsText ['\\', '\\'] relPath ∨ containsText ['/', '\\'] relPath
      ∨ containsText ['\\', '/'] relPath then .error .emptySegment
  else
    let normalized := relPath.map fun c => if c = '\\' then '/' else c
    match validateSegments (segments normalized) with
    | .error e => .error e
    | .ok () => destination normalized saveRoot

private theorem normalizeStep_absolute (names : List Name) (c : Component) :
    normalizeStep (.absolute names) c = .absolute (walk names c) := by
  cases c with
  | rootDir => rfl
  | curDir => rfl
  | parentDir =>
    rcases List.eq_nil_or_concat names with rfl | ⟨front, n, rfl⟩
    · rfl
    · simp [normalizeStep, walk, PathBuf.pop]
  | normal n => exact join_absolute_plain names n.plain

private theorem normalizeStep_relative (names : List Name) (c : Component) :
    ∃ names', normalizeStep ⟨names.map .normal⟩ c = .absolute names' ∨
      normalizeStep ⟨names.map .normal⟩ c = ⟨names'.map .normal⟩ := by
  cases c with
  | rootDir => exact ⟨[], .inl rfl⟩
  | curDir => exact ⟨names, .inr rfl⟩
  | parentDir =>
    rcases List.eq_nil_or_concat names with rfl | ⟨front, n, rfl⟩
    · exact ⟨[], .inr rfl⟩
    · refine ⟨front, .inr ?_⟩
      have hparent := parent_child ⟨front.map .normal⟩ n
      simp only [PathBuf.child] at hparent
      simp [normalizeStep, PathBuf.pop, hparent]
  | normal n =>
    refine ⟨names ++ [n], .inr ?_⟩
    simp [normalizeStep, join_plain _ n.plain, PathBuf.child]

theorem normalizePath_of_isAbsolute {p : PathBuf} (h : p.isAbsolute = true) :
    normalizePath p = .absolute p.resolve := by
  have fold (names : List Name) (cs : List Component) :
      cs.foldl normalizeStep (.absolute names) = .absolute (cs.foldl walk names) := by
    induction cs generalizing names with
    | nil => rfl
    | cons c cs ih => rw [List.foldl_cons, normalizeStep_absolute, ih, List.foldl_cons]
  obtain ⟨comps⟩ := p
  cases comps with
  | nil => cases h
  | cons c cs =>
    obtain rfl : c = .rootDir := by simpa [PathBuf.isAbsolute] using h
    exact fold [] cs

theorem normalizePath_settled (p : PathBuf) :
    ∃ names, normalizePath p = .absolute names ∨ normalizePath p = ⟨names.map .normal⟩ := by
  have fold (cs : List Component) (q : PathBuf)
      (hq : ∃ names, q = .absolute names ∨ q = ⟨names.map .normal⟩) :
      ∃ names, cs.foldl normalizeStep q = .absolute names ∨
        cs.foldl normalizeStep q = ⟨names.map .normal⟩ := by
    induction cs generalizing q with
    | nil => exact hq
    | cons c cs ih =>
      refine ih _ ?_
      obtain ⟨names, rfl | rfl⟩ := hq
      · exact ⟨_, .inl (normalizeStep_absolute names c)⟩
      · exact normalizeStep_relative names c
  exact fold p.comps ⟨[]⟩ ⟨[], .inr rfl⟩

theorem isAbsolute_join {p : PathBuf} (h : p.isAbsolute = true) (q : PathBuf) :
    (p.join q).isAbsolute = true := by
  obtain ⟨comps⟩ := p
  cases comps with
  | nil => cases h
  | cons c cs =>
    unfold PathBuf.join
    split_ifs with hq
    · exact hq
    · contradiction
    · exact h

private theorem destination_ok {normalized : List Char} {saveRoot p : PathBuf}
    (abs : saveRoot.isAbsolute = true) (h : destination normalized saveRoot = .ok p) :
    ∃ names, p = .absolute (saveRoot.resolve ++ names) := by
  simp only [destination, normalizePath_of_isAbsolute abs,
    normalizePath_of_isAbsolute (isAbsolute_join abs _)] at h
  split_ifs at h with inside
  cases h
  have pre : saveRoot.resolve.map Component.normal <+:
      (saveRoot.join (.ofText normalized)).resolve.map Component.normal := by
    simpa [PathBuf.startsWith, PathBuf.absolute, List.cons_prefix_cons] using inside
  have inj : Function.Injective Component.normal := fun a b e => by
    cases e
    rfl
  obtain ⟨names, hn⟩ := (List.prefix_map_iff_of_injective inj).mp pre
  exact ⟨names, by rw [hn]⟩

theorem validateRelPath_ok {relPath : List Char} {saveRoot p : PathBuf}
    (abs : saveRoot.isAbsolute = true) (h : validateRelPath relPath saveRoot = .ok p) :
    ∃ names, p = .absolute (saveRoot.resolve ++ names) := by
  simp only [validateRelPath] at h
  split_ifs at h
  split at h
  · cases h
  · exact destination_ok abs h

theorem validateRelPath_settled {relPath : List Char} {saveRoot p : PathBuf}
    (h : validateRelPath relPath saveRoot = .ok p) :
    ∃ names, p = .absolute names ∨ p = ⟨names.map .normal⟩ := by
  simp only [validateRelPath] at h
  split_ifs at h
  split at h
  · cases h
  · simp only [destination] at h
    split_ifs at h
    cases h
    exact normalizePath_settled _

theorem destination_of_prefix (normalized : List Char) {saveRoot : PathBuf}
    (abs : saveRoot.isAbsolute = true)
    (h : saveRoot.resolve <+: (saveRoot.join (.ofText normalized)).resolve) :
    destination normalized saveRoot =
      .ok (.absolute (saveRoot.join (.ofText normalized)).resolve) := by
  have hstarts : (PathBuf.absolute (saveRoot.join (.ofText normalized)).resolve).startsWith
      (.absolute saveRoot.resolve) = true := by
    simpa [PathBuf.startsWith, PathBuf.absolute, List.cons_prefix_cons] using
      h.map Component.normal
  simp only [destination, normalizePath_of_isAbsolute abs,
    normalizePath_of_isAbsolute (isAbsolute_join abs _), hstarts, if_true]

theorem validateRelPath_dot {saveRoot : PathBuf} (abs : saveRoot.isAbsolute = true) :
    validateRelPath ['.'] saveRoot = .ok (.absolute saveRoot.resolve) := by
  have here : (saveRoot.join (.ofText ['.'])).resolve = saveRoot.resolve := resolve_join rfl
  have hdest := destination_of_prefix ['.'] abs (by rw [here])
  rw [here] at hdest
  exact hdest

theorem validateRelPath_letter {saveRoot : PathBuf} (abs : saveRoot.isAbsolute = true) (n : Name)
    (letter : n.text = ['a'] ∨ n.text = ['b']) :
    validateRelPath n.text saveRoot = .ok (.absolute (saveRoot.resolve ++ [n])) := by
  have below : (saveRoot.join (.ofText n.text)).resolve = saveRoot.resolve ++ [n] := by
    have hcomps : (PathBuf.ofText n.text).comps = [.normal n] := components_of_plain n.plain
    have hrel : (PathBuf.ofText n.text).isAbsolute = false := by
      simp only [PathBuf.isAbsolute, hcomps]
      rfl
    rw [resolve_join hrel, hcomps]
    rfl
  have hdest := destination_of_prefix _ abs (by rw [below]; exact List.prefix_append _ _)
  rw [below] at hdest
  rcases letter with h | h
  · rw [h] at hdest ⊢
    exact hdest
  · rw [h] at hdest ⊢
    exact hdest

end DashDrop.Transport.PathValidation
