/- GID: DashDrop/Foundation/FileTree
   generality: G
   anchors: []
   digest: A file tree without links, its operations and the entries each of them changes. -/

import DashDrop.Foundation.UnixPath
import Mathlib.Data.List.AList

set_option autoImplicit false
set_option relaxedAutoImplicit false

namespace DashDrop.Foundation.FileTree

open DashDrop.Foundation.UnixPath

abbrev Key := List Name

abbrev Bytes := List UInt8

inductive Node where
  | file (content : Bytes)
  | dir (len : ℕ)
  deriving DecidableEq

/-- Every entry below the root; the root itself is always a directory. -/
abbrev Tree := AList (fun _ : Key => Node)

def freshDirLen : ℕ := 4096

def look (t : Tree) (k : Key) : Option Node :=
  if k = [] then some (.dir freshDirLen) else t.lookup k

def isDir (t : Tree) (k : Key) : Bool :=
  match look t k with
  | some (.dir _) => true
  | _ => false

def content (t : Tree) (k : Key) : Option Bytes :=
  match look t k with
  | some (.file c) => some c
  | _ => none

inductive IoErrorKind where
  | notFound
  | alreadyExists
  | notADirectory
  | isADirectory
  | storageFull
  | other
  deriving DecidableEq

structure IoError where
  rawOsError : Option ℕ
  kind : IoErrorKind
  text : String
  deriving DecidableEq

def notFound : IoError := ⟨some 2, .notFound, "No such file or directory (os error 2)"⟩
def alreadyExists : IoError := ⟨some 17, .alreadyExists, "File exists (os error 17)"⟩
def notADirectory : IoError := ⟨some 20, .notADirectory, "Not a directory (os error 20)"⟩
def isADirectory : IoError := ⟨some 21, .isADirectory, "Is a directory (os error 21)"⟩

structure Metadata where
  isFile : Bool
  len : ℕ
  deriving DecidableEq

def Node.metadata : Node → Metadata
  | .file c => ⟨true, c.length⟩
  | .dir len => ⟨false, len⟩

/-- The operations on files. Writing goes to the end of an open file. -/
inductive FsOp where
  | metadata (p : PathBuf)
  | createDirAll (p : PathBuf)
  | createFile (p : PathBuf)
  | openAppend (p : PathBuf)
  | writeAll (p : PathBuf) (data : Bytes)
  | flush (p : PathBuf)
  | removeFile (p : PathBuf)
  | rename (p q : PathBuf)
  deriving DecidableEq

abbrev FsOp.Resp : FsOp → Type
  | .metadata _ => Option Metadata
  | _ => Except IoError Unit

/-- The outcome of an operation: the tree after it, its answer and the changed entries. -/
structure Change (α : Type) where
  tree : Tree
  answer : α
  touched : List Key

def Change.failed (t : Tree) (e : IoError) : Change (Except IoError Unit) := ⟨t, .error e, []⟩

def makeDirs : List Key → Tree → Change (Except IoError Unit)
  | [], t => ⟨t, .ok (), []⟩
  | k :: ks, t =>
      match look t k with
      | some (.dir _) => makeDirs ks t
      | some (.file _) => .failed t (if ks.isEmpty then alreadyExists else notADirectory)
      | none =>
          let rest := makeDirs ks (t.insert k (.dir freshDirLen))
          ⟨rest.tree, rest.answer, k :: rest.touched⟩

def createAt (t : Tree) (k : Key) : Change (Except IoError Unit) :=
  match look t k with
  | some (.dir _) => .failed t isADirectory
  | _ => if isDir t k.dropLast then ⟨t.insert k (.file []), .ok (), [k]⟩ else .failed t notFound

def appendAt (t : Tree) (k : Key) (data : Bytes) : Change (Except IoError Unit) :=
  match content t k with
  | some c => ⟨t.insert k (.file (c ++ data)), .ok (), [k]⟩
  | none => .failed t notFound

def removeAt (t : Tree) (k : Key) : Change (Except IoError Unit) :=
  match look t k with
  | some (.file _) => ⟨t.erase k, .ok (), [k]⟩
  | some (.dir _) => .failed t isADirectory
  | none => .failed t notFound

/-- A regular file takes the place of whatever file was at the target. -/
def renameAt (t : Tree) (k l : Key) : Change (Except IoError Unit) :=
  match content t k with
  | none => .failed t notFound
  | some c =>
      if isDir t l then .failed t isADirectory
      else if isDir t l.dropLast then ⟨(t.erase k).insert l (.file c), .ok (), [k, l]⟩
      else .failed t notFound

def FsOp.exec (t : Tree) : (o : FsOp) → Change o.Resp
  | .metadata p => ⟨t, (look t p.resolve).map Node.metadata, []⟩
  | .createDirAll p => makeDirs (p.ancestors.map PathBuf.resolve) t
  | .createFile p => createAt t p.resolve
  | .openAppend p =>
      match content t p.resolve with
      | some _ => ⟨t, .ok (), []⟩
      | none => .failed t notFound
  | .writeAll p data => appendAt t p.resolve data
  | .flush _ => ⟨t, .ok (), []⟩
  | .removeFile p => removeAt t p.resolve
  | .rename p q => renameAt t p.resolve q.resolve

/-- The answer of an operation that the system refuses, with nothing changed. -/
def FsOp.refuse (e : IoError) : (o : FsOp) → Option o.Resp
  | .metadata _ => none
  | .createDirAll _ | .createFile _ | .openAppend _ | .writeAll _ _ | .flush _
  | .removeFile _ | .rename _ _ => some (.error e)

/-- The paths an operation can change; a chain of directories may be created on the way. -/
def FsOp.paths : FsOp → List PathBuf
  | .metadata _ | .openAppend _ | .flush _ => []
  | .createDirAll p => p.ancestors
  | .createFile p | .writeAll p _ | .removeFile p => [p]
  | .rename p q => [p, q]

theorem look_insert (t : Tree) (k l : Key) (n : Node) (hk : k ≠ []) :
    look (t.insert k n) l = if l = k then some n else look t l := by
  by_cases h : l = k
  · subst h
    simp [look, hk]
  · by_cases hl : l = []
    · simp [look, hl, Ne.symm hk]
    · simp [look, h, hl]

theorem look_erase (t : Tree) (k l : Key) (hk : k ≠ []) :
    look (t.erase k) l = if l = k then none else look t l := by
  by_cases h : l = k
  · subst h
    simp [look, hk]
  · by_cases hl : l = []
    · simp [look, hl, Ne.symm hk]
    · simp [look, h, hl]

theorem isDir_iff {t : Tree} {k : Key} : isDir t k = true ↔ ∃ len, look t k = some (.dir len) := by
  unfold isDir
  split
  · rename_i len found
    exact ⟨fun _ => ⟨len, found⟩, fun _ => rfl⟩
  · rename_i other
    exact ⟨fun h => (Bool.false_ne_true h).elim, fun ⟨len, found⟩ => absurd found (other len)⟩

theorem content_eq_some {t : Tree} {k : Key} {c : Bytes} :
    content t k = some c ↔ look t k = some (.file c) := by
  unfold content
  split
  · rename_i c' found
    simp [found]
  · rename_i other
    constructor
    · intro h
      cases h
    · intro found
      exact absurd found (other c)

theorem ne_nil_of_look {t : Tree} {k : Key} (h : isDir t k = false) : k ≠ [] := by
  rintro rfl
  cases h

theorem isDir_insert_dir {t : Tree} {k l : Key} {len : ℕ} (missing : isDir t k = false) :
    isDir (t.insert k (.dir len)) l = true ↔ l = k ∨ isDir t l = true := by
  simp only [isDir_iff, look_insert t k l _ (ne_nil_of_look missing)]
  split_ifs with h <;> simp [h]

theorem isDir_insert_file {t : Tree} {k l : Key} {c : Bytes} (missing : isDir t k = false)
    (h : isDir t l = true) : isDir (t.insert k (.file c)) l = true := by
  have apart : l ≠ k := by
    rintro rfl
    rw [h] at missing
    cases missing
  obtain ⟨len, found⟩ := isDir_iff.mp h
  exact isDir_iff.mpr ⟨len, by rw [look_insert t k l _ (ne_nil_of_look missing), if_neg apart, found]⟩

theorem isDir_erase {t : Tree} {k l : Key} (missing : isDir t k = false) (h : isDir t l = true) :
    isDir (t.erase k) l = true := by
  have apart : l ≠ k := by
    rintro rfl
    rw [h] at missing
    cases missing
  obtain ⟨len, found⟩ := isDir_iff.mp h
  exact isDir_iff.mpr ⟨len, by rw [look_erase t k l (ne_nil_of_look missing), if_neg apart, found]⟩

private theorem isDir_of_file {t : Tree} {k : Key} {c : Bytes} (h : look t k = some (.file c)) :
    isDir t k = false := by
  simp [isDir, h]

private theorem isDir_of_none {t : Tree} {k : Key} (h : look t k = none) : isDir t k = false := by
  simp [isDir, h]

private theorem isDir_makeDirs {k : Key} (ks : List Key) {t : Tree} (h : isDir t k = true) :
    isDir (makeDirs ks t).tree k = true := by
  induction ks generalizing t with
  | nil => exact h
  | cons l ks ih =>
    unfold makeDirs
    split
    · exact ih h
    · exact h
    · rename_i missing
      exact ih ((isDir_insert_dir (isDir_of_none missing)).mpr (.inr h))

theorem isDir_exec (o : FsOp) {t : Tree} {k : Key} (h : isDir t k = true) :
    isDir (o.exec t).tree k = true := by
  cases o with
  | metadata | flush => exact h
  | createDirAll p => exact isDir_makeDirs _ h
  | createFile p =>
    simp only [FsOp.exec, createAt]
    split
    · exact h
    · rename_i other
      split_ifs
      · refine isDir_insert_file ?_ h
        rw [← Bool.not_eq_true, isDir_iff]
        exact fun ⟨len, found⟩ => other len found
      · exact h
  | openAppend p =>
    simp only [FsOp.exec]
    split <;> exact h
  | writeAll p data =>
    simp only [FsOp.exec, appendAt]
    split
    · rename_i found
      exact isDir_insert_file (isDir_of_file (content_eq_some.mp found)) h
    · exact h
  | removeFile p =>
    simp only [FsOp.exec, removeAt]
    split
    · rename_i found
      exact isDir_erase (isDir_of_file found) h
    · exact h
    · exact h
  | rename p q =>
    simp only [FsOp.exec, renameAt]
    split
    · exact h
    · rename_i found
      split_ifs with occupied
      · exact h
      · have source := isDir_of_file (content_eq_some.mp found)
        refine isDir_insert_file ?_ (isDir_erase source h)
        rw [← Bool.not_eq_true, isDir_iff]
        rintro ⟨len, there⟩
        rw [look_erase t _ _ (ne_nil_of_look source)] at there
        split_ifs at there
        exact occupied (isDir_iff.mpr ⟨len, there⟩)
      · exact h

theorem isDir_of_insert_file {t : Tree} {k l : Key} {c : Bytes}
    (h : isDir (t.insert k (.file c)) l = true) : isDir t l = true := by
  by_cases hl : l = []
  · rw [hl]
    rfl
  · by_cases same : l = k
    · subst same
      simp [isDir, look, hl] at h
    · simpa [isDir, look, hl, same] using h

theorem isDir_of_erase {t : Tree} {k l : Key} (h : isDir (t.erase k) l = true) :
    isDir t l = true := by
  by_cases hl : l = []
  · rw [hl]
    rfl
  · by_cases same : l = k
    · subst same
      simp [isDir, look, hl] at h
    · simpa [isDir, look, hl, same] using h

theorem isDir_of_exec {o : FsOp} (makes : ∀ p, o ≠ .createDirAll p) {t : Tree} {k : Key}
    (h : isDir (o.exec t).tree k = true) : isDir t k = true := by
  cases o with
  | metadata | flush => exact h
  | createDirAll p => exact absurd rfl (makes p)
  | createFile p =>
    simp only [FsOp.exec, createAt] at h
    split at h
    · exact h
    · split_ifs at h
      · exact isDir_of_insert_file h
      · exact h
  | openAppend p =>
    simp only [FsOp.exec] at h
    split at h <;> exact h
  | writeAll p data =>
    simp only [FsOp.exec, appendAt] at h
    split at h
    · exact isDir_of_insert_file h
    · exact h
  | removeFile p =>
    simp only [FsOp.exec, removeAt] at h
    split at h
    · exact isDir_of_erase h
    · exact h
    · exact h
  | rename p q =>
    simp only [FsOp.exec, renameAt] at h
    split at h
    · exact h
    · split_ifs at h
      · exact h
      · exact isDir_of_erase (isDir_of_insert_file h)
      · exact h

theorem look_removeAt {t : Tree} {k : Key} (vacant : isDir t k = false) :
    look (removeAt t k).tree k = none := by
  unfold removeAt
  split
  · rw [look_erase t k k (ne_nil_of_look vacant), if_pos rfl]
  · rename_i found
    rw [isDir_iff.mpr ⟨_, found⟩] at vacant
    cases vacant
  · assumption

theorem mem_touched_makeDirs {k : Key} {ks : List Key} {t : Tree}
    (h : k ∈ (makeDirs ks t).touched) : k ∈ ks ∧ isDir t k = false := by
  induction ks generalizing t with
  | nil => cases h
  | cons l ks ih =>
    unfold makeDirs at h
    split at h
    · obtain ⟨member, missing⟩ := ih h
      exact ⟨List.mem_cons_of_mem l member, missing⟩
    · cases h
    · rename_i absent
      obtain rfl | later := List.mem_cons.mp h
      · exact ⟨List.mem_cons_self, isDir_of_none absent⟩
      · obtain ⟨member, missing⟩ := ih later
        refine ⟨List.mem_cons_of_mem l member, ?_⟩
        rw [← Bool.not_eq_true, isDir_insert_dir (isDir_of_none absent), not_or] at missing
        exact Bool.not_eq_true _ ▸ missing.2

/-- Only the paths of an operation are touched, and directories only if they are missing. -/
theorem mem_touched {o : FsOp} {t : Tree} {k : Key} (h : k ∈ (o.exec t).touched) :
    (∃ p ∈ o.paths, p.resolve = k) ∧ ∀ p, o = .createDirAll p → isDir t k = false := by
  cases o with
  | metadata | flush => cases h
  | createDirAll p =>
    obtain ⟨member, missing⟩ := mem_touched_makeDirs h
    exact ⟨List.mem_map.mp member, fun _ _ => missing⟩
  | createFile p =>
    refine ⟨⟨p, List.mem_singleton_self p, ?_⟩, by simp⟩
    simp only [FsOp.exec, createAt] at h
    split at h
    · cases h
    · split_ifs at h
      · exact (List.mem_singleton.mp h).symm
      · cases h
  | openAppend p =>
    simp only [FsOp.exec] at h
    split at h <;> cases h
  | writeAll p data =>
    refine ⟨⟨p, List.mem_singleton_self p, ?_⟩, by simp⟩
    simp only [FsOp.exec, appendAt] at h
    split at h
    · exact (List.mem_singleton.mp h).symm
    · cases h
  | removeFile p =>
    refine ⟨⟨p, List.mem_singleton_self p, ?_⟩, by simp⟩
    simp only [FsOp.exec, removeAt] at h
    split at h
    · exact (List.mem_singleton.mp h).symm
    · cases h
    · cases h
  | rename p q =>
    simp only [FsOp.exec, renameAt] at h
    split at h
    · cases h
    · split_ifs at h
      · cases h
      · refine ⟨?_, by simp⟩
        obtain rfl | rfl : k = p.resolve ∨ k = q.resolve := by simpa using h
        · exact ⟨p, by simp [FsOp.paths], rfl⟩
        · exact ⟨q, by simp [FsOp.paths], rfl⟩
      · cases h

theorem makeDirs_of_isDir {ks : List Key} {t : Tree} (h : ∀ k ∈ ks, isDir t k = true) :
    makeDirs ks t = ⟨t, .ok (), []⟩ := by
  induction ks with
  | nil => rfl
  | cons k ks ih =>
    obtain ⟨len, found⟩ := isDir_iff.mp (h k List.mem_cons_self)
    simp only [makeDirs, found]
    exact ih fun l hl => h l (List.mem_cons_of_mem k hl)

theorem touched_makeDirs {k : Key} {ks : List Key} {t : Tree}
    (clear : ∀ l c, look t l ≠ some (.file c)) (member : k ∈ ks) (missing : isDir t k = false) :
    k ∈ (makeDirs ks t).touched := by
  induction ks generalizing t with
  | nil => cases member
  | cons l ks ih =>
    unfold makeDirs
    split
    · rename_i len found
      obtain rfl | later := List.mem_cons.mp member
      · simp [isDir, found] at missing
      · exact ih clear later missing
    · rename_i c found
      exact absurd found (clear l c)
    · rename_i absent
      by_cases same : k = l
      · exact List.mem_cons.mpr (.inl same)
      · refine List.mem_cons_of_mem l (ih ?_ ((List.mem_cons.mp member).resolve_left same) ?_)
        · intro j c
          rw [look_insert t l j _ (ne_nil_of_look (isDir_of_none absent))]
          split_ifs
          · simp
          · exact clear j c
        · rw [← Bool.not_eq_true, isDir_insert_dir (isDir_of_none absent), not_or]
          exact ⟨same, by simp [missing]⟩

def dirTree : List Key → Tree
  | [] => ∅
  | k :: ks => (dirTree ks).insert k (.dir freshDirLen)

theorem look_dirTree (ks : List Key) (k : Key) :
    look (dirTree ks) k = if k = [] ∨ k ∈ ks then some (.dir freshDirLen) else none := by
  induction ks with
  | nil =>
    by_cases hk : k = []
    · simp [look, hk]
    · simp [look, hk, dirTree]
  | cons l ks ih =>
    by_cases hk : k = []
    · simp [look, hk]
    · by_cases same : k = l
      · subst same
        simp [look, hk, dirTree]
      · have htail : look (dirTree (l :: ks)) k = look (dirTree ks) k := by
          simp [look, hk, dirTree, same]
        rw [htail, ih]
        simp [same]

theorem isDir_dirTree {ks : List Key} {k : Key} :
    isDir (dirTree ks) k = true ↔ k = [] ∨ k ∈ ks := by
  rw [isDir_iff, look_dirTree]
  split_ifs with h <;> simp [h]

theorem content_insert_file {t : Tree} {k l : Key} {c : Bytes} (hk : k ≠ []) :
    content (t.insert k (.file c)) l = if l = k then some c else content t l := by
  unfold content
  rw [look_insert t k l _ hk]
  split_ifs <;> rfl

theorem content_erase {t : Tree} {k l : Key} (hk : k ≠ []) :
    content (t.erase k) l = if l = k then none else content t l := by
  unfold content
  rw [look_erase t k l hk]
  split_ifs <;> rfl

theorem isDir_of_content {t : Tree} {k : Key} {c : Bytes} (h : content t k = some c) :
    isDir t k = false := isDir_of_file (content_eq_some.mp h)

theorem look_eq_none {t : Tree} {k : Key} (dir : isDir t k = false) (file : content t k = none) :
    look t k = none := by
  cases found : look t k with
  | none => rfl
  | some node =>
    cases node with
    | file c =>
      rw [content_eq_some.mpr found] at file
      cases file
    | dir len =>
      rw [isDir_iff.mpr ⟨len, found⟩] at dir
      cases dir

theorem content_makeDirs (ks : List Key) (t : Tree) (k : Key) :
    content (makeDirs ks t).tree k = content t k := by
  induction ks generalizing t with
  | nil => rfl
  | cons l ks ih =>
    unfold makeDirs
    split
    · exact ih t
    · rfl
    · rename_i absent
      have hl := ne_nil_of_look (isDir_of_none absent)
      refine (ih _).trans ?_
      unfold content
      rw [look_insert t l k _ hl]
      split_ifs with same
      · rw [same, absent]
      · rfl

theorem content_createAt {t : Tree} {k : Key} (ok : (createAt t k).answer = .ok ()) :
    content (createAt t k).tree k = some [] := by
  unfold createAt at ok ⊢
  split at ok
  · cases ok
  · rename_i other
    split_ifs at ok ⊢
    · have hk : k ≠ [] := by
        rintro rfl
        exact other freshDirLen rfl
      rw [content_insert_file hk, if_pos rfl]
    · cases ok

theorem content_appendAt {t : Tree} {k : Key} {data : Bytes}
    (ok : (appendAt t k data).answer = .ok ()) :
    ∃ c, content t k = some c ∧ content (appendAt t k data).tree k = some (c ++ data) := by
  unfold appendAt at ok ⊢
  split at ok
  · rename_i c found
    have hk := ne_nil_of_look (isDir_of_content found)
    exact ⟨c, found, by simp only [content_insert_file hk, if_true]⟩
  · cases ok

theorem content_renameAt {t : Tree} {k l : Key} (ok : (renameAt t k l).answer = .ok ()) :
    ∃ c, content t k = some c ∧ isDir t l = false ∧
      content (renameAt t k l).tree l = some c := by
  unfold renameAt at ok ⊢
  split at ok
  · cases ok
  · rename_i c found
    split_ifs at ok ⊢ with occupied parent
    · cases ok
    · have free : isDir t l = false := by simpa using occupied
      have hl := ne_nil_of_look free
      exact ⟨c, found, free, by simp only [content_insert_file hl, if_true]⟩
    · cases ok

theorem look_makeDirs {ks : List Key} {t : Tree} {k : Key} (other : k ∉ ks) :
    look (makeDirs ks t).tree k = look t k := by
  induction ks generalizing t with
  | nil => rfl
  | cons l ks ih =>
    rw [List.mem_cons, not_or] at other
    unfold makeDirs
    split
    · exact ih other.2
    · rfl
    · rename_i absent
      refine (ih other.2).trans ?_
      rw [look_insert t l k _ (ne_nil_of_look (isDir_of_none absent)), if_neg other.1]

theorem look_exec {o : FsOp} {t : Tree} {k : Key} (other : ∀ p ∈ o.paths, p.resolve ≠ k) :
    look (o.exec t).tree k = look t k := by
  have inserted {l : Key} {c : Bytes} (free : isDir t l = false) (apart : l ≠ k) :
      look (t.insert l (.file c)) k = look t k := by
    rw [look_insert t l k _ (ne_nil_of_look free), if_neg (Ne.symm apart)]
  cases o with
  | metadata | flush => rfl
  | createDirAll p =>
    refine look_makeDirs fun member => ?_
    obtain ⟨q, hq, same⟩ := List.mem_map.mp member
    exact other q hq same
  | createFile p =>
    have apart := other p (List.mem_singleton_self p)
    simp only [FsOp.exec, createAt]
    split
    · rfl
    · rename_i node
      split_ifs
      · refine inserted ?_ apart
        rw [← Bool.not_eq_true, isDir_iff]
        exact fun ⟨len, found⟩ => node len found
      · rfl
  | openAppend p =>
    simp only [FsOp.exec]
    split <;> rfl
  | writeAll p data =>
    have apart := other p (List.mem_singleton_self p)
    simp only [FsOp.exec, appendAt]
    split
    · rename_i found
      exact inserted (isDir_of_content found) apart
    · rfl
  | removeFile p =>
    have apart := other p (List.mem_singleton_self p)
    simp only [FsOp.exec, removeAt]
    split
    · rename_i found
      rw [look_erase t _ k (ne_nil_of_look (isDir_of_file found)), if_neg (Ne.symm apart)]
    · rfl
    · rfl
  | rename p q =>
    have source := other p (by simp [FsOp.paths])
    have target := other q (by simp [FsOp.paths])
    simp only [FsOp.exec, renameAt]
    split
    · rfl
    · rename_i found
      split_ifs with occupied
      · rfl
      · have free : isDir t q.resolve = false := by simpa using occupied
        rw [look_insert _ q.resolve k _ (ne_nil_of_look free), if_neg (Ne.symm target),
          look_erase t _ k (ne_nil_of_look (isDir_of_content found)), if_neg (Ne.symm source)]
      · rfl

/-- Only files at the paths of an operation change, and those of directories never do. -/
theorem content_exec {o : FsOp} {t : Tree} {k : Key}
    (other : (∃ p, o = .createDirAll p) ∨ ∀ p ∈ o.paths, p.resolve ≠ k) :
    content (o.exec t).tree k = content t k := by
  rcases other with ⟨p, rfl⟩ | other
  · exact content_makeDirs _ _ _
  · unfold content
    rw [look_exec other]

theorem makeDirs_ok_iff {ks : List Key} {t : Tree} :
    (makeDirs ks t).answer = .ok () ↔ ∀ k ∈ ks, content t k = none := by
  induction ks generalizing t with
  | nil => simp [makeDirs]
  | cons k ks ih =>
    rw [List.forall_mem_cons]
    unfold makeDirs
    split
    · rename_i len found
      have free : content t k = none := by simp [content, found]
      rw [ih]
      exact ⟨fun rest => ⟨free, rest⟩, fun all => all.2⟩
    · rename_i c found
      have taken := content_eq_some.mpr found
      constructor
      · rintro ⟨⟩
      · rintro ⟨free, -⟩
        rw [taken] at free
        cases free
    · rename_i absent
      have free : content t k = none := by simp [content, absent]
      have files (l : Key) : content (t.insert k (.dir freshDirLen)) l = content t l := by
        unfold content
        rw [look_insert t k l _ (ne_nil_of_look (isDir_of_none absent))]
        split_ifs with same
        · rw [same, absent]
        · rfl
      simp only [ih, files]
      exact ⟨fun rest => ⟨free, rest⟩, fun all => all.2⟩

theorem makeDirs_answer {ks : List Key} {t : Tree} (clear : ∀ l c, look t l ≠ some (.file c)) :
    (makeDirs ks t).answer = .ok () := by
  refine makeDirs_ok_iff.mpr fun k _ => ?_
  by_contra taken
  obtain ⟨c, found⟩ := Option.ne_none_iff_exists'.mp taken
  exact clear k c (content_eq_some.mp found)

theorem tree_of_rename_error {t : Tree} {p q : PathBuf} {e : IoError}
    (h : ((FsOp.rename p q).exec t).answer = .error e) : ((FsOp.rename p q).exec t).tree = t := by
  simp only [FsOp.exec, renameAt] at h ⊢
  split at h
  · rfl
  · split_ifs at h ⊢
    · rfl
    · rfl

section Success

variable {t : Tree} {p q : PathBuf} {c : Bytes}

theorem exec_openAppend (h : content t p.resolve = some c) :
    (FsOp.openAppend p).exec t = ⟨t, .ok (), []⟩ := by
  simp only [FsOp.exec, h]

theorem exec_openAppend_none (h : content t p.resolve = none) :
    (FsOp.openAppend p).exec t = .failed t notFound := by
  simp only [FsOp.exec, h]

theorem exec_createFile (free : isDir t p.resolve = false)
    (parent : isDir t p.resolve.dropLast = true) :
    (FsOp.createFile p).exec t = ⟨t.insert p.resolve (.file []), .ok (), [p.resolve]⟩ := by
  simp only [FsOp.exec, createAt]
  split
  · rename_i found
    rw [isDir_iff.mpr ⟨_, found⟩] at free
    cases free
  · rw [if_pos parent]

theorem exec_writeAll (h : content t p.resolve = some c) (data : Bytes) :
    (FsOp.writeAll p data).exec t =
      ⟨t.insert p.resolve (.file (c ++ data)), .ok (), [p.resolve]⟩ := by
  simp only [FsOp.exec, appendAt, h]

theorem exec_removeFile (h : content t p.resolve = some c) :
    (FsOp.removeFile p).exec t = ⟨t.erase p.resolve, .ok (), [p.resolve]⟩ := by
  simp only [FsOp.exec, removeAt, content_eq_some.mp h]

theorem exec_rename (h : content t p.resolve = some c) (free : isDir t q.resolve = false)
    (parent : isDir t q.resolve.dropLast = true) :
    (FsOp.rename p q).exec t =
      ⟨(t.erase p.resolve).insert q.resolve (.file c), .ok (), [p.resolve, q.resolve]⟩ := by
  simp only [FsOp.exec, renameAt, h, free, parent, if_true, if_false, Bool.false_eq_true]

end Success

theorem isDir_insert_file_eq {t : Tree} {k l : Key} {c : Bytes} (missing : isDir t k = false) :
    isDir (t.insert k (.file c)) l = isDir t l := by
  unfold isDir
  rw [look_insert t k l _ (ne_nil_of_look missing)]
  split_ifs with same
  · subst same
    unfold isDir at missing
    exact missing.symm
  · rfl

theorem isDir_erase_eq {t : Tree} {k l : Key} (missing : isDir t k = false) :
    isDir (t.erase k) l = isDir t l := by
  unfold isDir
  rw [look_erase t k l (ne_nil_of_look missing)]
  split_ifs with same
  · subst same
    unfold isDir at missing
    exact missing.symm
  · rfl

theorem isDir_of_makeDirs_ok {ks : List Key} {t : Tree} (ok : (makeDirs ks t).answer = .ok ())
    {k : Key} (member : k ∈ ks) : isDir (makeDirs ks t).tree k = true := by
  induction ks generalizing t with
  | nil => cases member
  | cons l ks ih =>
    unfold makeDirs at ok ⊢
    split at ok
    · rename_i len found
      rcases List.mem_cons.mp member with rfl | later
      · exact isDir_makeDirs ks (isDir_iff.mpr ⟨len, found⟩)
      · exact ih ok later
    · cases ok
    · rename_i absent
      rcases List.mem_cons.mp member with rfl | later
      · exact isDir_makeDirs ks ((isDir_insert_dir (isDir_of_none absent)).mpr (.inl rfl))
      · exact ih ok later

theorem isDir_makeDirs_of_not_mem {ks : List Key} {t : Tree} {k : Key} (other : k ∉ ks) :
    isDir (makeDirs ks t).tree k = isDir t k := by
  unfold isDir
  rw [look_makeDirs other]

theorem prepared_dir {p : PathBuf} (onward : p.Onward) {t : Tree}
    (ok : ((FsOp.createDirAll p).exec t).answer = .ok ()) :
    isDir ((FsOp.createDirAll p).exec t).tree p.resolve = true ∧
      ∀ m : Name, isDir ((FsOp.createDirAll p).exec t).tree (p.resolve ++ [m]) =
        isDir t (p.resolve ++ [m]) := by
  refine ⟨?_, fun m => isDir_makeDirs_of_not_mem ?_⟩
  · by_cases hp : p.comps = []
    · have htop : p.resolve = [] := by simp [PathBuf.resolve, hp]
      rw [htop]
      rfl
    · have hself : p ∈ p.ancestors := mem_ancestors.mpr ⟨hp, List.prefix_rfl⟩
      exact isDir_of_makeDirs_ok ok (List.mem_map_of_mem hself)
  · intro member
    obtain ⟨q, hq, same⟩ := List.mem_map.mp member
    have hlen := (onward q hq).length_le
    rw [same, List.length_append, List.length_singleton] at hlen
    omega

end DashDrop.Foundation.FileTree
