/- GID: DashDrop/Sending/SourceWalk
   source: src-tauri/src/transport/sender.rs
   anchors: []
   digest: The walk over the source paths of a transfer and the items it lists. -/

import DashDrop.Foundation.PathText
import DashDrop.Foundation.Text
import DashDrop.Transport.Protocol
import Mathlib.Algebra.Ring.Nat

set_option autoImplicit false
set_option relaxedAutoImplicit false

namespace DashDrop.Sending.SourceWalk

open DashDrop.Foundation.FileTree (Bytes)
open DashDrop.Foundation.PathText DashDrop.Foundation.Text DashDrop.Foundation.UnixPath
open DashDrop.Transport.Protocol

inductive FileFault where
  | open (cause : String)
  | read (cause : String)

structure SourceFile where
  content : Bytes
  /-- Nanoseconds since the epoch, where the platform tells them. -/
  modified : Option ℤ
  mode : ℕ
  fault : Option FileFault

/-- What `symlink_metadata` finds at a path, with everything below it. -/
inductive Entry where
  | file (f : SourceFile)
  /-- The entries in the order of `read_dir`, and the fault that the listing ends with. -/
  | dir (modified : Option ℤ) (entries : List (Name × Entry)) (fault : Option String)
  | symlink
  /-- A socket, a device or a pipe. -/
  | special
  /-- Nothing is there, or it cannot be looked at. -/
  | denied (cause : String)

/-- A disk that does not change during a walk. -/
structure Disk where
  entryAt : List Char → Entry
  /-- A directory lists each name once. -/
  distinct : ∀ p modified entries fault, entryAt p = .dir modified entries fault →
    (entries.map Prod.fst).Nodup
  /-- What a directory lists is what stands at the joined path. -/
  coherent : ∀ p modified entries fault, entryAt p = .dir modified entries fault →
    ∀ n entry, (n, entry) ∈ entries → entryAt (joinName p n) = entry

def Entry.kind : Entry → Option FileType
  | .file _ => some .regularFile
  | .dir _ _ _ => some .directory
  | _ => none

def sourceSnapshotHeadBytes : ℕ := 1024 * 1024

def shebangProbeBytes : ℕ := 256

def highRiskSuffixes : List (List Char) :=
  [".app", ".bat", ".bash", ".cmd", ".deb", ".exe", ".msi", ".pkg", ".ps1", ".rpm", ".sh",
    ".zsh"].map String.toList

/-- Both branches of the source, for directories and for files, compare in the same way. -/
def inferRiskClassFromName (name : List Char) (_fileType : FileType) : RiskClass :=
  if highRiskSuffixes.any fun suffix => suffix.isSuffixOf (toAsciiLowercase name) then .high
  else .normal

def hasExecutableBit (f : SourceFile) : Bool := f.mode &&& 0o111 != 0

/-- `context: cause` -/
def FileFault.chain (opening reading : String) (path : List Char) : FileFault → String
  | .open cause => opening ++ String.ofList path ++ ": " ++ cause
  | .read cause => reading ++ String.ofList path ++ ": " ++ cause

def hasShebang (path : List Char) (f : SourceFile) : Except String Bool :=
  match f.fault with
  | some fault => .error (fault.chain "open risk probe file " "read risk probe head " path)
  | none =>
    let head := f.content.take shebangProbeBytes
    .ok (decide (2 ≤ head.length) && head.take 2 == [35, 33])

/-- `path.file_name()` -/
def fileName (path : List Char) : Option Name := (PathBuf.ofText path).fileName

def detectRiskClass (path : List Char) (f : SourceFile) (fileType : FileType) :
    Except String RiskClass :=
  let inferred := inferRiskClassFromName (((fileName path).map Name.text).getD []) fileType
  if inferred = .high ∨ fileType = .directory then .ok inferred
  else if hasExecutableBit f then .ok .high
  else match hasShebang path f with
    | .error cause => .error cause
    | .ok shebang => .ok (if shebang then .high else .normal)

def sinceEpoch (modified : Option ℤ) : ℕ := (modified.getD 0).toNat

def unixSeconds (modified : Option ℤ) : ℕ := sinceEpoch modified / 10 ^ 9

/-- `as_millis() as u64` -/
def unixMillis (modified : Option ℤ) : ℕ := sinceEpoch modified / 10 ^ 6 % 2 ^ 64

section Walk

variable (blake3 : Bytes → Digest)

def buildSourceSnapshot (path : List Char) (f : SourceFile) : Except String SourceSnapshot :=
  match f.fault with
  | some fault =>
    .error (fault.chain "open source snapshot file " "read source snapshot head " path)
  | none => .ok
      { size := f.content.length
        mtimeUnixMs := unixMillis f.modified
        headHash := blake3 (f.content.take (min sourceSnapshotHeadBytes f.content.length)) }

/-- `base.parent().filter(|p| p != base)` -/
def walkParent (base : List Char) : Option PathBuf :=
  (PathBuf.ofText base).parent.filter (· ≠ PathBuf.ofText base)

/-- `path.strip_prefix(..).unwrap_or(path)` and the texts made of it. -/
def relPath (path base : List Char) : List Char :=
  let front := match walkParent base with
    | some parent => parent.comps
    | none => components base
  let rel := (((stripPrefix path front).getD path).map fun c => if c = '\\' then '/' else c).dropWhile
    (· = '/')
  if rel = [] then ((fileName path).map Name.text).getD [] else rel

def itemName (path base : List Char) : List Char :=
  ((fileName path).map Name.text).getD (relPath path base)

abbrev Listed := FileItem × List Char

def directoryItem (path base : List Char) (fileId : ℕ) (modified : Option ℤ) : FileItem :=
  { fileId
    name := String.ofList (itemName path base)
    relPath := String.ofList (relPath path base)
    size := 0
    fileType := .directory
    modified := unixSeconds modified
    riskClass := some (inferRiskClassFromName (itemName path base) .directory)
    sourceSnapshot := none }

def regularItem (path base : List Char) (fileId : ℕ) (f : SourceFile) (riskClass : RiskClass)
    (sourceSnapshot : SourceSnapshot) : FileItem :=
  { fileId
    name := String.ofList (itemName path base)
    relPath := String.ofList (relPath path base)
    size := f.content.length
    fileType := .regularFile
    modified := unixSeconds f.modified
    riskClass := some riskClass
    sourceSnapshot := some sourceSnapshot }

mutual

/-- The items so far and `next_id`, before and after an entry. -/
def collectItems (base : List Char) :
    Entry → List Char → List Listed × ℕ → Except String (List Listed × ℕ)
  | .denied cause, _, _ => .error ("stat path: " ++ cause)
  | .symlink, _, sofar => .ok sofar
  | .special, _, sofar => .ok sofar
  | .dir modified entries fault, path, (items, nextId) => do
    let found ← collectEntries base entries path
      (items ++ [(directoryItem path base nextId modified, path)], (nextId + 1) % 2 ^ 32)
    match fault with
    | some cause => .error cause
    | none => .ok found
  | .file f, path, (items, nextId) => do
    let sourceSnapshot ← buildSourceSnapshot blake3 path f
    let riskClass ← detectRiskClass path f .regularFile
    .ok (items ++ [(regularItem path base nextId f riskClass sourceSnapshot, path)],
      (nextId + 1) % 2 ^ 32)

def collectEntries (base : List Char) :
    List (Name × Entry) → List Char → List Listed × ℕ → Except String (List Listed × ℕ)
  | [], _, sofar => .ok sofar
  | (n, entry) :: rest, path, sofar => do
    let sofar ← collectItems base entry (joinName path n) sofar
    collectEntries base rest path sofar

end

def collectPaths (disk : Disk) :
    List (List Char) → List Listed × ℕ → Except String (List Listed × ℕ)
  | [], sofar => .ok sofar
  | path :: rest, sofar => do
    let sofar ← collectItems blake3 path (disk.entryAt path) path sofar
    collectPaths disk rest sofar

def buildFileItems (disk : Disk) (paths : List (List Char)) : Except String (List Listed) := do
  let (items, _) ← collectPaths blake3 disk paths ([], 0)
  .ok items

end Walk

mutual

/-- The regular files and directories of a tree, with the names that lead to them, each directory
before its contents. -/
def Entry.spots : Entry → List (List Name × Entry)
  | .file f => [([], .file f)]
  | .dir modified entries fault => ([], .dir modified entries fault) :: spotsOf entries
  | .symlink | .special | .denied _ => []

def spotsOf : List (Name × Entry) → List (List Name × Entry)
  | [] => []
  | (n, entry) :: rest => (entry.spots.map fun spot => (n :: spot.1, spot.2)) ++ spotsOf rest

end

def Entry.at : Entry → List Name → Option Entry
  | entry, [] => some entry
  | .dir _ entries _, n :: names =>
    match entries.find? fun child => child.1 = n with
    | some child => child.2.at names
    | none => none
  | _, _ :: _ => none

inductive Within (x : Entry) : Entry → Prop where
  | here : Within x x
  | inner {modified : Option ℤ} {entries : List (Name × Entry)} {fault : Option String} {n : Name}
      {entry : Entry} (listed : (n, entry) ∈ entries) (inside : Within x entry) :
      Within x (.dir modified entries fault)

theorem Within.trans {x y z : Entry} (h : Within x y) (h' : Within y z) : Within x z := by
  induction h' with
  | here => exact h
  | inner listed _ ih => exact .inner listed ih

@[elab_as_elim]
theorem Entry.tree {P : Entry → Prop} (file : ∀ f, P (.file f))
    (dir : ∀ modified entries fault, (∀ n entry, (n, entry) ∈ entries → P entry) →
      P (.dir modified entries fault))
    (symlink : P .symlink) (special : P .special) (denied : ∀ cause, P (.denied cause))
    (entry : Entry) : P entry :=
  @Entry.rec P (fun entries => ∀ n entry, (n, entry) ∈ entries → P entry) (fun child => P child.2)
    file (fun modified entries fault => dir modified entries fault) symlink special denied
    (fun n entry h => absurd h List.not_mem_nil)
    (fun child rest first later n entry h => by
      rcases List.mem_cons.mp h with rfl | h
      · exact first
      · exact later n entry h)
    (fun n entry h => h) entry

theorem Disk.exists_at_of_within (disk : Disk) {x entry : Entry} (inside : Within x entry) :
    ∀ path, disk.entryAt path = entry → ∃ names, x = disk.entryAt (below path names) := by
  induction inside with
  | here => exact fun path there => ⟨[], there.symm⟩
  | inner listed _ ih =>
    intro path there
    obtain ⟨names, same⟩ := ih _ (disk.coherent path _ _ _ there _ _ listed)
    exact ⟨_ :: names, same⟩

def Tidy (entry : Entry) : Prop :=
  ∀ modified entries fault, Within (.dir modified entries fault) entry →
    (entries.map Prod.fst).Nodup

theorem Disk.tidy (disk : Disk) (path : List Char) : Tidy (disk.entryAt path) := by
  intro modified entries fault inside
  obtain ⟨names, there⟩ := disk.exists_at_of_within inside path rfl
  exact disk.distinct _ _ _ _ there.symm

theorem Tidy.child {modified : Option ℤ} {entries : List (Name × Entry)} {fault : Option String}
    (h : Tidy (.dir modified entries fault)) {n : Name} {entry : Entry}
    (listed : (n, entry) ∈ entries) : Tidy entry :=
  fun _ _ _ inside => h _ _ _ (.inner listed inside)

theorem tidy_dir {modified : Option ℤ} {entries : List (Name × Entry)} {fault : Option String}
    (distinct : (entries.map Prod.fst).Nodup) (children : ∀ child ∈ entries, Tidy child.2) :
    Tidy (.dir modified entries fault) := by
  intro m es f inside
  cases inside with
  | here => exact distinct
  | inner listed inside => exact children _ listed m es f inside

theorem tidy_file (f : SourceFile) : Tidy (.file f) := by
  intro m es fault inside
  cases inside

theorem tidy_symlink : Tidy .symlink := by
  intro m es fault inside
  cases inside

theorem mem_spotsOf {entries : List (Name × Entry)} {names : List Name} {x : Entry} :
    (names, x) ∈ spotsOf entries ↔ ∃ n entry rest, (n, entry) ∈ entries ∧ names = n :: rest ∧
      (rest, x) ∈ entry.spots := by
  induction entries with
  | nil => simp [spotsOf]
  | cons child later ih =>
    obtain ⟨m, first⟩ := child
    rw [spotsOf, List.mem_append, ih]
    constructor
    · rintro (here | ⟨n, entry, rest, listed, same, inside⟩)
      · obtain ⟨⟨rest, x'⟩, inside, same⟩ := List.mem_map.mp here
        cases same
        exact ⟨m, first, rest, List.mem_cons_self, rfl, inside⟩
      · exact ⟨n, entry, rest, List.mem_cons_of_mem _ listed, same, inside⟩
    · rintro ⟨n, entry, rest, listed, rfl, inside⟩
      rcases List.mem_cons.mp listed with same | listed
      · cases same
        exact Or.inl (List.mem_map.mpr ⟨(rest, x), inside, rfl⟩)
      · exact Or.inr ⟨n, entry, rest, listed, rfl, inside⟩

theorem find_entry {entries : List (Name × Entry)} (distinct : (entries.map Prod.fst).Nodup)
    {n : Name} {entry : Entry} :
    entries.find? (fun child => child.1 = n) = some (n, entry) ↔ (n, entry) ∈ entries := by
  constructor
  · exact List.mem_of_find?_eq_some
  · intro listed
    induction entries with
    | nil => cases listed
    | cons child rest ih =>
      rw [List.map_cons, List.nodup_cons] at distinct
      rcases List.mem_cons.mp listed with rfl | listed
      · simp
      · have other : ¬ child.1 = n := by
          rintro rfl
          exact distinct.1 (List.mem_map.mpr ⟨_, listed, rfl⟩)
        rw [List.find?_cons_of_neg (by simpa using other)]
        exact ih distinct.2 listed

theorem at_dir {modified : Option ℤ} {entries : List (Name × Entry)} {fault : Option String}
    (distinct : (entries.map Prod.fst).Nodup) {n : Name} {rest : List Name} {x : Entry} :
    (Entry.dir modified entries fault).at (n :: rest) = some x ↔
      ∃ entry, (n, entry) ∈ entries ∧ entry.at rest = some x := by
  rw [Entry.at]
  cases found : entries.find? fun child => child.1 = n with
  | none =>
    simp only [reduceCtorEq, false_iff, not_exists, not_and]
    intro entry listed
    rw [(find_entry distinct).mpr listed] at found
    cases found
  | some child =>
    obtain ⟨m, entry⟩ := child
    obtain rfl : m = n := by simpa using List.find?_some found
    constructor
    · intro there
      exact ⟨entry, (find_entry distinct).mp found, there⟩
    · rintro ⟨entry', listed, there⟩
      rw [(find_entry distinct).mpr listed] at found
      cases found
      exact there

theorem root_mem_spots {entry : Entry} (listed : entry.kind.isSome = true) :
    ([], entry) ∈ entry.spots := by
  cases entry with
  | file f => exact List.mem_singleton.mpr rfl
  | dir modified entries fault =>
    rw [Entry.spots]
    exact List.mem_cons_self
  | symlink | special | denied => cases listed

theorem mem_spots {entry : Entry} (tidy : Tidy entry) {names : List Name} {x : Entry} :
    (names, x) ∈ entry.spots ↔ entry.at names = some x ∧ x.kind.isSome = true := by
  induction entry using Entry.tree generalizing names with
  | file f =>
    cases names with
    | nil =>
      simp only [Entry.spots, Entry.at, List.mem_singleton, Prod.mk.injEq, true_and,
        Option.some.injEq]
      constructor
      · rintro rfl
        exact ⟨rfl, rfl⟩
      · rintro ⟨rfl, -⟩
        rfl
    | cons n rest => simp [Entry.spots, Entry.at]
  | symlink | special | denied =>
    cases names with
    | nil =>
      simp only [Entry.spots, Entry.at, List.not_mem_nil, Option.some.injEq, false_iff, not_and]
      rintro rfl
      exact Bool.false_ne_true
    | cons n rest => simp [Entry.spots, Entry.at]
  | dir modified entries fault ih =>
    have distinct := tidy _ _ _ .here
    rw [Entry.spots, List.mem_cons, mem_spotsOf]
    cases names with
    | nil =>
      simp only [Entry.at, Prod.mk.injEq, true_and, reduceCtorEq, false_and, and_false, exists_false,
        or_false, Option.some.injEq]
      constructor
      · rintro rfl
        exact ⟨rfl, rfl⟩
      · rintro ⟨rfl, -⟩
        rfl
    | cons n rest =>
      rw [at_dir distinct]
      constructor
      · rintro (same | ⟨m, entry, rest', listed, same, inside⟩)
        · cases same
        · cases same
          obtain ⟨there, listable⟩ := (ih _ entry listed (tidy.child listed)).mp inside
          exact ⟨⟨entry, listed, there⟩, listable⟩
      · rintro ⟨⟨entry, listed, there⟩, listable⟩
        exact Or.inr ⟨n, entry, rest, listed, rfl,
          (ih n entry listed (tidy.child listed)).mpr ⟨there, listable⟩⟩

theorem pairwise_spots {entry : Entry} (tidy : Tidy entry) :
    entry.spots.Pairwise fun a b => ¬ b.1 <+: a.1 := by
  induction entry using Entry.tree with
  | file f => exact List.pairwise_singleton _ _
  | symlink | special | denied => exact List.Pairwise.nil
  | dir modified entries fault ih =>
    have distinct := tidy _ _ _ .here
    have ordered : ∀ n entry, (n, entry) ∈ entries →
        entry.spots.Pairwise fun a b => ¬ b.1 <+: a.1 :=
      fun n entry listed => ih n entry listed (tidy.child listed)
    rw [Entry.spots, List.pairwise_cons]
    constructor
    · rintro ⟨names, x⟩ inside
      obtain ⟨n, entry, rest, -, rfl, -⟩ := mem_spotsOf.mp inside
      exact fun pre => absurd (List.prefix_nil.mp pre) (List.cons_ne_nil _ _)
    · clear ih tidy
      induction entries with
      | nil => exact List.Pairwise.nil
      | cons child rest later =>
        obtain ⟨n, entry⟩ := child
        rw [List.map_cons, List.nodup_cons] at distinct
        rw [spotsOf, List.pairwise_append]
        refine ⟨?_, later distinct.2 fun n entry listed =>
          ordered n entry (List.mem_cons_of_mem _ listed), ?_⟩
        · rw [List.pairwise_map]
          apply (ordered n entry List.mem_cons_self).imp
          intro a b apart pre
          exact apart (List.cons_prefix_cons.mp pre).2
        · rintro a ha ⟨names, x⟩ hb pre
          obtain ⟨spot, -, rfl⟩ := List.mem_map.mp ha
          obtain ⟨m, other, names', listed, rfl, -⟩ := mem_spotsOf.mp hb
          obtain ⟨rfl, -⟩ := List.cons_prefix_cons.mp pre
          exact distinct.1 (List.mem_map.mpr ⟨_, listed, rfl⟩)

section InStep

variable {α β : Type} {R S : α → β → Prop} {as : List α} {bs : List β}

theorem exists_partner (h : List.Forall₂ R as bs) {a : α} (ha : a ∈ as) : ∃ b ∈ bs, R a b := by
  induction h with
  | nil => cases ha
  | cons first _ ih =>
    rcases List.mem_cons.mp ha with rfl | ha
    · exact ⟨_, List.mem_cons_self, first⟩
    · obtain ⟨b, inside, found⟩ := ih ha
      exact ⟨b, List.mem_cons_of_mem _ inside, found⟩

theorem forall₂_of_mem (h : List.Forall₂ R as bs) (imp : ∀ a b, b ∈ bs → R a b → S a b) :
    List.Forall₂ S as bs := by
  induction h with
  | nil => exact List.Forall₂.nil
  | cons first _ ih =>
    exact List.Forall₂.cons (imp _ _ List.mem_cons_self first)
      (ih fun a b hb => imp a b (List.mem_cons_of_mem _ hb))

end InStep

/-- An item is what the walk from `base` makes of a spot of the tree at `path`. -/
def Shows (base path : List Char) (item : Listed) (spot : List Name × Entry) : Prop :=
  item.2 = below path spot.1 ∧ item.1.relPath = String.ofList (relPath item.2 base) ∧
    some item.1.fileType = spot.2.kind

theorem Shows.components {base path : List Char} {item : Listed} {spot : List Name × Entry}
    (h : Shows base path item spot) :
    components item.2 = components path ++ spot.1.map .normal := by
  rw [h.1, components_below]

/-- The ids from `start` on, as far as they fit 32 bits. -/
def Numbered (start : ℕ) (items : List Listed) : Prop :=
  items.map (fun item => item.1.fileId) =
    (List.range' start items.length).map (· % 2 ^ 32)

theorem Numbered.append {start : ℕ} {front items : List Listed} (hfront : Numbered start front)
    (hitems : Numbered (start + front.length) items) : Numbered start (front ++ items) := by
  unfold Numbered at *
  rw [List.map_append, hfront, hitems, ← List.map_append, List.range'_append_1, List.length_append]

/-- The result of a walk that began with some items and the id `start`. -/
def Walked (base path : List Char) (spots : List (List Name × Entry)) (items : List Listed)
    (start : ℕ) (later : List Listed × ℕ) : Prop :=
  ∃ fresh, later = (items ++ fresh, (start + fresh.length) % 2 ^ 32) ∧
    List.Forall₂ (Shows base path) fresh spots ∧ Numbered start fresh

theorem Walked.nil (base path : List Char) (items : List Listed) (start : ℕ) :
    Walked base path [] items start (items, start % 2 ^ 32) :=
  ⟨[], by simp, List.Forall₂.nil, rfl⟩

theorem Walked.one {base path : List Char} {spot : List Name × Entry} {item : Listed}
    (items : List Listed) (start : ℕ) (shows_spot : Shows base path item spot)
    (numbered : item.1.fileId = start % 2 ^ 32) :
    Walked base path [spot] items start (items ++ [item], (start % 2 ^ 32 + 1) % 2 ^ 32) := by
  refine ⟨[item], ?_, List.Forall₂.cons shows_spot List.Forall₂.nil, ?_⟩
  · rw [List.length_singleton, Nat.mod_add_mod]
  · simp [Numbered, numbered]

theorem Walked.append {base path : List Char} {spots more : List (List Name × Entry)}
    {items : List Listed} {start : ℕ} {mid later : List Listed × ℕ}
    (first : Walked base path spots items start mid)
    (next : ∀ items start, mid = (items, start % 2 ^ 32) → Walked base path more items start later) :
    Walked base path (spots ++ more) items start later := by
  obtain ⟨fresh, rfl, shown, numbered⟩ := first
  obtain ⟨rest, rfl, shown', numbered'⟩ := next _ _ rfl
  refine ⟨fresh ++ rest, ?_, List.rel_append shown shown', numbered.append numbered'⟩
  rw [List.append_assoc, List.length_append, Nat.add_assoc]

theorem Walked.within {base path : List Char} {spots : List (List Name × Entry)}
    {items : List Listed} {start : ℕ} {later : List Listed × ℕ} {n : Name}
    (h : Walked base (joinName path n) spots items start later) :
    Walked base path (spots.map fun spot => (n :: spot.1, spot.2)) items start later := by
  obtain ⟨fresh, same, shown, numbered⟩ := h
  exact ⟨fresh, same, List.forall₂_map_right_iff.mpr shown, numbered⟩

section Lists

variable {blake3 : Bytes → Digest} {base : List Char}

def Walks (blake3 : Bytes → Digest) (base : List Char) (entry : Entry) : Prop :=
  ∀ path items start later,
    collectItems blake3 base entry path (items, start % 2 ^ 32) = .ok later →
      Walked base path entry.spots items start later

theorem collectEntries_walked {entries : List (Name × Entry)}
    (walks : ∀ n entry, (n, entry) ∈ entries → Walks blake3 base entry) {path : List Char}
    {items : List Listed} {start : ℕ} {later : List Listed × ℕ}
    (h : collectEntries blake3 base entries path (items, start % 2 ^ 32) = .ok later) :
    Walked base path (spotsOf entries) items start later := by
  induction entries generalizing items start with
  | nil =>
    cases h
    exact Walked.nil base path items start
  | cons child rest ih =>
    obtain ⟨n, entry⟩ := child
    rw [collectEntries] at h
    match found : collectItems blake3 base entry (joinName path n) (items, start % 2 ^ 32) with
    | .error _ =>
      rw [found] at h
      cases h
    | .ok mid =>
      rw [found] at h
      have first := walks n entry List.mem_cons_self _ _ _ _ found
      apply first.within.append
      rintro items start rfl
      exact ih (fun n entry hm => walks n entry (List.mem_cons_of_mem _ hm)) h

theorem collectItems_walked (entry : Entry) : Walks blake3 base entry := by
  induction entry using Entry.tree with
  | denied cause =>
    intro path items start later h
    cases h
  | symlink | special =>
    intro path items start later h
    cases h
    exact Walked.nil base path items start
  | file f =>
    intro path items start later h
    rw [collectItems] at h
    match snapshot : buildSourceSnapshot blake3 path f, risk : detectRiskClass path f .regularFile with
    | .error _, _ =>
      rw [snapshot] at h
      cases h
    | .ok _, .error _ =>
      rw [snapshot, risk] at h
      cases h
    | .ok _, .ok _ =>
      rw [snapshot, risk] at h
      cases h
      exact Walked.one items start ⟨rfl, rfl, rfl⟩ rfl
  | dir modified entries fault ih =>
    intro path items start later h
    rw [collectItems] at h
    match found : collectEntries blake3 base entries path
        (items ++ [(directoryItem path base (start % 2 ^ 32) modified, path)],
          (start % 2 ^ 32 + 1) % 2 ^ 32) with
    | .error _ =>
      rw [found] at h
      cases h
    | .ok mid =>
      rw [found] at h
      cases fault with
      | some cause => cases h
      | none =>
        cases h
        have shown : Shows base path (directoryItem path base (start % 2 ^ 32) modified, path)
            ([], .dir modified entries none) := ⟨rfl, rfl, rfl⟩
        apply (Walked.one items start shown rfl).append
        intro items start same
        apply collectEntries_walked ih
        rw [← same]
        exact found

/-- Each source path contributes the spots of its tree, and the ids go on through all of them. -/
theorem collectPaths_walked {disk : Disk} {paths : List (List Char)} {items : List Listed}
    {start : ℕ} {later : List Listed × ℕ}
    (h : collectPaths blake3 disk paths (items, start % 2 ^ 32) = .ok later) :
    ∃ parts : List (List Listed), later.1 = items ++ parts.flatten ∧
      List.Forall₂ (fun part path =>
        List.Forall₂ (Shows path path) part (disk.entryAt path).spots) parts paths ∧
      Numbered start parts.flatten := by
  induction paths generalizing items start with
  | nil =>
    cases h
    exact ⟨[], by simp, List.Forall₂.nil, rfl⟩
  | cons path rest ih =>
    rw [collectPaths] at h
    match found : collectItems blake3 path (disk.entryAt path) path (items, start % 2 ^ 32) with
    | .error _ =>
      rw [found] at h
      cases h
    | .ok mid =>
      rw [found] at h
      obtain ⟨fresh, rfl, shown, numbered⟩ := collectItems_walked _ _ _ _ _ found
      obtain ⟨parts, same, more, numbered'⟩ := ih h
      refine ⟨fresh :: parts, ?_, List.Forall₂.cons shown more, ?_⟩
      · rw [same, List.flatten_cons, List.append_assoc]
      · exact numbered.append numbered'

theorem buildFileItems_walked {disk : Disk} {paths : List (List Char)} {items : List Listed}
    (h : buildFileItems blake3 disk paths = .ok items) :
    ∃ parts : List (List Listed), items = parts.flatten ∧
      List.Forall₂ (fun part path =>
        List.Forall₂ (Shows path path) part (disk.entryAt path).spots) parts paths ∧
      Numbered 0 items := by
  rw [buildFileItems] at h
  match found : collectPaths blake3 disk paths ([], 0) with
  | .error _ =>
    rw [found] at h
    cases h
  | .ok later =>
    rw [found] at h
    cases h
    have walked : collectPaths blake3 disk paths ([], 0 % 2 ^ 32) = .ok later := found
    obtain ⟨parts, same, shown, numbered⟩ := collectPaths_walked walked
    rw [List.nil_append] at same
    exact ⟨parts, same, shown, same ▸ numbered⟩

end Lists

def missing : Entry := .denied "No such file or directory (os error 2)"

def descend : Entry → Component → Entry
  | .dir _ entries _, .normal n =>
    match entries.find? fun child => child.1 = n with
    | some child => child.2
    | none => missing
  | _, _ => missing

/-- What stands at a path below `root`; paths through `.` or `..` are left out. -/
def lookUp (root : Entry) (path : List Char) : Entry :=
  match components path with
  | .rootDir :: comps => comps.foldl descend root
  | _ => missing

theorem within_descend {root entry : Entry} (h : Within entry root ∨ entry = missing)
    (comps : List Component) :
    Within (comps.foldl descend entry) root ∨ comps.foldl descend entry = missing := by
  induction comps generalizing entry with
  | nil => exact h
  | cons c comps ih =>
    apply ih
    unfold descend
    split
    · rename_i modified entries fault n
      split
      · rename_i child found
        have inside := h.resolve_right (by simp [missing])
        have step : Within child.2 (.dir modified entries fault) :=
          .inner (List.mem_of_find?_eq_some found) .here
        exact Or.inl (step.trans inside)
      · exact Or.inr rfl
    · exact Or.inr rfl

theorem within_lookUp {root : Entry} {path : List Char} {modified : Option ℤ}
    {entries : List (Name × Entry)} {fault : Option String}
    (h : lookUp root path = .dir modified entries fault) :
    Within (.dir modified entries fault) root := by
  unfold lookUp at h
  split at h
  · rename_i comps _
    have inside := within_descend (Or.inl (Within.here (x := root))) comps
    rw [h] at inside
    exact inside.resolve_right (by simp [missing])
  · cases h

def Disk.ofTree (root : Entry) (tidy : Tidy root) : Disk where
  entryAt := lookUp root
  distinct := fun _ _ _ _ h => tidy _ _ _ (within_lookUp h)
  coherent := by
    intro p modified entries fault h n entry listed
    have distinct := tidy _ _ _ (within_lookUp h)
    unfold lookUp at h ⊢
    rw [components_joinName]
    split at h
    · rename_i comps here
      rw [here, List.cons_append]
      simp only [List.foldl_append, List.foldl_cons, List.foldl_nil, h, descend]
      rw [(find_entry distinct).mpr listed]
    · cases h

def Entry.Sound : Entry → Prop
  | .file f => f.fault = none
  | .dir _ _ fault => fault = none
  | .symlink | .special => True
  | .denied _ => False

/-- Everything in the tree can be looked at and read. -/
def Readable (entry : Entry) : Prop := ∀ x, Within x entry → x.Sound

theorem Readable.child {modified : Option ℤ} {entries : List (Name × Entry)}
    {fault : Option String} (h : Readable (.dir modified entries fault)) {n : Name} {entry : Entry}
    (listed : (n, entry) ∈ entries) : Readable entry :=
  fun x inside => h x (.inner listed inside)

section Succeeds

variable (blake3 : Bytes → Digest) (base : List Char)

theorem detectRiskClass_ok (path : List Char) {f : SourceFile} (sound : f.fault = none)
    (fileType : FileType) : ∃ risk, detectRiskClass path f fileType = .ok risk := by
  have probed : ∃ shebang, hasShebang path f = .ok shebang := by
    rw [hasShebang, sound]
    exact ⟨_, rfl⟩
  obtain ⟨shebang, probed⟩ := probed
  unfold detectRiskClass
  simp only [probed]
  by_cases named : inferRiskClassFromName (((fileName path).map Name.text).getD []) fileType =
      .high ∨ fileType = .directory
  · exact ⟨_, if_pos named⟩
  · rw [if_neg named]
    by_cases executable : hasExecutableBit f = true
    · exact ⟨_, if_pos executable⟩
    · exact ⟨_, if_neg executable⟩

theorem collectEntries_ok {entries : List (Name × Entry)}
    (walks : ∀ n entry, (n, entry) ∈ entries → ∀ path sofar,
      ∃ later, collectItems blake3 base entry path sofar = .ok later)
    (path : List Char) (sofar : List Listed × ℕ) :
    ∃ later, collectEntries blake3 base entries path sofar = .ok later := by
  induction entries generalizing sofar with
  | nil => exact ⟨sofar, rfl⟩
  | cons child rest ih =>
    obtain ⟨n, entry⟩ := child
    obtain ⟨mid, found⟩ := walks n entry List.mem_cons_self (joinName path n) sofar
    obtain ⟨later, rest_found⟩ :=
      ih (fun n entry hm => walks n entry (List.mem_cons_of_mem _ hm)) mid
    refine ⟨later, ?_⟩
    rw [collectEntries, found]
    exact rest_found

theorem collectItems_ok {entry : Entry} (readable : Readable entry) (path : List Char)
    (sofar : List Listed × ℕ) : ∃ later, collectItems blake3 base entry path sofar = .ok later := by
  induction entry using Entry.tree generalizing path sofar with
  | denied cause => exact (readable _ .here).elim
  | symlink => exact ⟨sofar, by rw [collectItems]⟩
  | special => exact ⟨sofar, by rw [collectItems]⟩
  | file f =>
    have sound : f.fault = none := readable _ .here
    obtain ⟨risk, detected⟩ := detectRiskClass_ok path sound .regularFile
    obtain ⟨items, nextId⟩ := sofar
    rw [collectItems, buildSourceSnapshot, sound, detected]
    exact ⟨_, rfl⟩
  | dir modified entries fault ih =>
    have sound : fault = none := readable _ .here
    obtain ⟨items, nextId⟩ := sofar
    obtain ⟨later, found⟩ := collectEntries_ok blake3 base
      (fun n entry listed path sofar => ih n entry listed (readable.child listed) path sofar) path
      (items ++ [(directoryItem path base nextId modified, path)], (nextId + 1) % 2 ^ 32)
    refine ⟨later, ?_⟩
    rw [collectItems, found, sound]
    rfl

theorem buildFileItems_ok {disk : Disk} {paths : List (List Char)}
    (readable : ∀ path ∈ paths, Readable (disk.entryAt path)) :
    ∃ items, buildFileItems blake3 disk paths = .ok items := by
  have all : ∀ sofar, ∃ later, collectPaths blake3 disk paths sofar = .ok later := by
    induction paths with
    | nil => exact fun sofar => ⟨sofar, rfl⟩
    | cons path rest ih =>
      intro sofar
      obtain ⟨mid, found⟩ :=
        collectItems_ok blake3 path (readable path List.mem_cons_self) path sofar
      obtain ⟨later, rest_found⟩ := ih (fun p hp => readable p (List.mem_cons_of_mem _ hp)) mid
      refine ⟨later, ?_⟩
      rw [collectPaths, found]
      exact rest_found
  obtain ⟨later, found⟩ := all ([], 0)
  refine ⟨later.1, ?_⟩
  rw [buildFileItems, found]
  rfl

end Succeeds

end DashDrop.Sending.SourceWalk
