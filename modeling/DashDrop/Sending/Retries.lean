/- GID: DashDrop/Sending/Retries
   source: src-tauri/src/core_service.rs, src-tauri/src/transport/sender.rs
   anchors: []
   digest: When a retry resends what failed under its old relative paths, and nothing else. -/

import DashDrop.Sending.OwnOffers
import DashDrop.Transport.Sender

set_option autoImplicit false
set_option relaxedAutoImplicit false

namespace DashDrop.Sending.Retries

open DashDrop.Foundation.FileTree (Bytes)
open DashDrop.Foundation.PathText DashDrop.Foundation.UnixPath
open DashDrop.Runtime.State
open DashDrop.Sending.OwnOffers DashDrop.Sending.SourceWalk
open DashDrop.Transport.Protocol
open DashDrop.Transport.Sender (SendRequest)

/-- `mapping.get(&file_id)`: the map was collected from the items, and a later one replaces an
earlier one with the same id. -/
def sourcePathOf (mapping : List (ℕ × String)) (fileId : ℕ) : Option String :=
  (mapping.reverse.find? fun e => e.1 = fileId).map Prod.snd

/-- `if unique.insert(path.clone()) { subset_paths.push(path) }` -/
def pushUnique (mapping : List (ℕ × String)) (subsetPaths : List String) (fileId : ℕ) :
    List String :=
  match sourcePathOf mapping fileId with
  | some path => if path ∈ subsetPaths then subsetPaths else subsetPaths ++ [path]
  | none => subsetPaths

def selectRetryPaths (task : TransferTask) : Except String (List String) :=
  match task.sourcePaths with
  | none => .error "retry source paths unavailable for this transfer"
  | some allPaths =>
    let failedIds := task.failedFileIds.getD []
    if failedIds = [] then .ok allPaths
    else
      let subsetPaths := match task.sourcePathByFileId with
        | some mapping => failedIds.foldl (pushUnique mapping) []
        | none => []
      if subsetPaths = [] then .ok allPaths else .ok subsetPaths

/-- The peer and the paths that `retry_transfer` hands to `send_files`. -/
def retryTransfer (transfers : String → Option TransferTask) (transferId : String) :
    Except String (String × List String) :=
  match transfers transferId with
  | none => .error ("transfer " ++ transferId ++ " not found in active cache")
  | some task =>
    if task.direction ≠ .send then .error "retry is only supported for outgoing transfers"
    else if task.status = .draft ∨ task.status = .pendingAccept ∨ task.status = .transferring then
      .error "retry is only available after transfer reaches a terminal state"
    else match selectRetryPaths task with
      | .error cause => .error cause
      | .ok paths => .ok (task.peerFingerprint, paths)

def retriedItems (blake3 : Bytes → Digest) (disk : Disk) (transfers : String → Option TransferTask)
    (transferId : String) : Except String (List Listed) :=
  match retryTransfer transfers transferId with
  | .error cause => .error cause
  | .ok (_, paths) => buildFileItems blake3 disk (paths.map String.toList)

/-- A send that ended, with the files that failed on record. -/
structure Ended (blake3 : Bytes → Digest) (disk : Disk) (paths : List (List Char))
    (items : List Listed) (failedIds : List ℕ) (task : TransferTask) : Prop where
  direction : task.direction = .send
  terminal : task.status.isTerminal = true
  built : buildFileItems blake3 disk paths = .ok items
  sourcePaths : task.sourcePaths = some (paths.map String.ofList)
  mapping : task.sourcePathByFileId =
    some (items.map fun item => (item.1.fileId, String.ofList item.2))
  recorded : task.failedFileIds = some failedIds

def failedItems (items : List Listed) (failedIds : List ℕ) : List Listed :=
  items.filter fun item => item.1.fileId ∈ failedIds

def lastWithId (items : List Listed) (fileId : ℕ) : Option Listed :=
  items.reverse.find? fun item => item.1.fileId = fileId

/-- The failed items whose id no later item has: all of them, unless the ids wrapped. -/
def lastFailed (items : List Listed) (failedIds : List ℕ) : List Listed :=
  (failedItems items failedIds).filter fun item => lastWithId items item.1.fileId = some item

/-- Every failed item again with its relative path, no item that did not fail, and one relative
path only where it was one before. -/
structure ResendsFailed (failed retried : List Listed) : Prop where
  kept : ∀ item ∈ failed, ∃ again ∈ retried,
    again.2 = item.2 ∧ again.1.relPath = item.1.relPath
  only : ∀ again ∈ retried, ∃ item ∈ failed, item.2 = again.2
  apart : ∀ again ∈ retried, ∀ other ∈ retried, again.1.relPath = other.1.relPath →
    ∃ item ∈ failed, ∃ item' ∈ failed,
      item.2 = again.2 ∧ item'.2 = other.2 ∧ item.1.relPath = item'.1.relPath

def RetryResends (blake3 : Bytes → Digest) (disk : Disk) (transfers : String → Option TransferTask)
    (transferId : String) (failed : List Listed) : Prop :=
  ∃ retried, retriedItems blake3 disk transfers transferId = .ok retried ∧
    ResendsFailed failed retried

def sourcesOf (disk : Disk) (paths : List (List Char)) : List (List Char) :=
  paths.flatMap fun path => List.replicate (disk.entryAt path).spots.length path

/-- A regular file or a directory of the tree at `base`. -/
def InTree (disk : Disk) (base path : List Char) : Prop :=
  ∃ names, (kindAt (disk.entryAt base) names).isSome = true ∧ path = below base names

/-- Each failed item stands in the tree of one of `tops` and has from there the relative path that
it had, all that stands in such a tree failed, and what has one relative path from there had one
before. -/
structure ShownAsBefore (disk : Disk) (paths : List (List Char)) (items failed tops : List Listed) :
    Prop where
  some_failed : failed = [] → items = []
  source : ∀ item ∈ failed, ∀ path, (item, path) ∈ items.zip (sourcesOf disk paths) →
    ∃ top ∈ tops, InTree disk top.2 item.2 ∧ relPath item.2 top.2 = relPath item.2 path
  inside : ∀ top ∈ tops, ∀ path, InTree disk top.2 path → ∃ item ∈ failed, item.2 = path
  texts : ∀ top ∈ tops, ∀ path, InTree disk top.2 path → ∀ top' ∈ tops, ∀ path',
    InTree disk top'.2 path' → relPath path top.2 = relPath path' top'.2 →
      ∃ item ∈ failed, ∃ item' ∈ failed,
        item.2 = path ∧ item'.2 = path' ∧ item.1.relPath = item'.1.relPath

/-- What a failed item stands in failed with it, up to the source path, and so did everything in a
failed directory; failed items with one file name had one relative path. -/
structure FailedWhole (disk : Disk) (paths : List (List Char)) (items failed : List Listed) :
    Prop where
  some_failed : failed = [] → items = []
  source : ∀ item ∈ failed, ∀ path, (item, path) ∈ items.zip (sourcesOf disk paths) →
    ∃ top ∈ failed, startOf top.2 = startOf path ∧ InTree disk top.2 item.2
  inside : ∀ item ∈ failed, ∀ path, InTree disk item.2 path → ∃ item' ∈ failed, item'.2 = path
  names : ∀ item ∈ failed, ∀ other ∈ failed, ∀ n,
    fileName item.2 = some n → fileName other.2 = some n →
      ∃ item' ∈ failed, ∃ other' ∈ failed,
        item'.2 = item.2 ∧ other'.2 = other.2 ∧ item'.1.relPath = other'.1.relPath

/-- No backslash, which `replace('\\', "/")` takes for a separator, in the name of a source path
or in a name below it. -/
def Unslashed (disk : Disk) (path : List Char) : Prop :=
  (∀ n, fileName path = some n → '\\' ∉ n.text) ∧
    ∀ spot ∈ (disk.entryAt path).spots, ∀ n ∈ spot.1, '\\' ∉ n.text

theorem mem_pushUnique {mapping : List (ℕ × String)} {subsetPaths : List String} {fileId : ℕ}
    {path : String} : path ∈ pushUnique mapping subsetPaths fileId ↔
      path ∈ subsetPaths ∨ sourcePathOf mapping fileId = some path := by
  unfold pushUnique
  cases found : sourcePathOf mapping fileId with
  | none => simp
  | some path' =>
    by_cases known : path' ∈ subsetPaths
    · simp only [if_pos known, Option.some.injEq]
      constructor
      · exact Or.inl
      · rintro (inside | rfl)
        · exact inside
        · exact known
    · simp [if_neg known, eq_comm]

theorem mem_foldl_pushUnique {mapping : List (ℕ × String)} {failedIds : List ℕ}
    {subsetPaths : List String} {path : String} :
    path ∈ failedIds.foldl (pushUnique mapping) subsetPaths ↔
      path ∈ subsetPaths ∨ ∃ fileId ∈ failedIds, sourcePathOf mapping fileId = some path := by
  induction failedIds generalizing subsetPaths with
  | nil => simp
  | cons fileId failedIds ih =>
    rw [List.foldl_cons, ih, mem_pushUnique, or_assoc]
    simp

theorem sourcePathOf_eq (items : List Listed) (fileId : ℕ) :
    sourcePathOf (items.map fun item => (item.1.fileId, String.ofList item.2)) fileId =
      (lastWithId items fileId).map fun item => String.ofList item.2 := by
  rw [sourcePathOf, lastWithId, ← List.map_reverse, List.find?_map, Option.map_map]
  rfl

theorem lastWithId_id {items : List Listed} {fileId : ℕ} {item : Listed}
    (found : lastWithId items fileId = some item) : item ∈ items ∧ item.1.fileId = fileId := by
  constructor
  · exact List.mem_reverse.mp (List.mem_of_find?_eq_some found)
  · simpa using List.find?_some found

theorem lastWithId_isSome {items : List Listed} {item : Listed} (inside : item ∈ items) :
    ∃ last, lastWithId items item.1.fileId = some last := by
  apply Option.isSome_iff_exists.mp
  apply List.find?_isSome.mpr
  exact ⟨item, List.mem_reverse.mpr inside, by simp⟩

theorem mem_lastFailed {items : List Listed} {failedIds : List ℕ} {item : Listed} :
    item ∈ lastFailed items failedIds ↔
      item.1.fileId ∈ failedIds ∧ lastWithId items item.1.fileId = some item := by
  rw [lastFailed, List.mem_filter, failedItems, List.mem_filter]
  constructor
  · rintro ⟨⟨-, recorded⟩, last⟩
    exact ⟨by simpa using recorded, by simpa using last⟩
  · rintro ⟨recorded, last⟩
    exact ⟨⟨(lastWithId_id last).1, by simpa using recorded⟩, by simpa using last⟩

theorem lastFailed_subset {items : List Listed} {failedIds : List ℕ} {item : Listed}
    (h : item ∈ lastFailed items failedIds) : item ∈ failedItems items failedIds :=
  (List.mem_filter.mp h).1

theorem lastFailed_eq_nil {items : List Listed} {failedIds : List ℕ} :
    lastFailed items failedIds = [] ↔ failedItems items failedIds = [] := by
  constructor
  · intro none
    apply List.eq_nil_iff_forall_not_mem.mpr
    intro item failed
    obtain ⟨inside, recorded⟩ := List.mem_filter.mp failed
    obtain ⟨last, found⟩ := lastWithId_isSome inside
    have same := (lastWithId_id found).2
    have listed : last ∈ lastFailed items failedIds :=
      mem_lastFailed.mpr ⟨by simpa [same] using recorded, by rw [same, found]⟩
    rw [none] at listed
    cases listed
  · intro none
    rw [lastFailed, none]
    rfl

theorem lastFailed_eq {items : List Listed} {failedIds : List ℕ}
    (distinct : (items.map fun item => item.1.fileId).Nodup) :
    lastFailed items failedIds = failedItems items failedIds := by
  apply List.filter_eq_self.mpr
  intro item failed
  have inside := (List.mem_filter.mp failed).1
  obtain ⟨last, found⟩ := lastWithId_isSome inside
  obtain ⟨inside', same⟩ := lastWithId_id found
  have equal := List.inj_on_of_nodup_map distinct inside' inside same
  simpa [← equal] using found

section Selected

variable {blake3 : Bytes → Digest} {disk : Disk} {paths : List (List Char)} {items : List Listed}
  {failedIds : List ℕ} {task : TransferTask}

theorem Ended.retryTransfer (ended : Ended blake3 disk paths items failedIds task)
    {transfers : String → Option TransferTask} {transferId : String}
    (found : transfers transferId = some task) {retryPaths : List String}
    (selected : selectRetryPaths task = .ok retryPaths) :
    retryTransfer transfers transferId = .ok (task.peerFingerprint, retryPaths) := by
  have ended_now : ¬ (task.status = .draft ∨ task.status = .pendingAccept ∨
      task.status = .transferring) := by
    have terminal := ended.terminal
    rintro (status | status | status)
    · rw [status] at terminal
      cases terminal
    · rw [status] at terminal
      cases terminal
    · rw [status] at terminal
      cases terminal
  unfold Retries.retryTransfer
  simp only [found, ended.direction, ne_eq, not_true_eq_false, if_false, if_neg ended_now, selected]

theorem Ended.distinct (ended : Ended blake3 disk paths items failedIds task)
    (few : items.length ≤ 2 ^ 32) : (items.map fun item => item.1.fileId).Nodup := by
  obtain ⟨parts, rfl, -, numbered⟩ := buildFileItems_walked ended.built
  rw [(ids_iff numbered).mpr few]
  exact List.nodup_range

theorem mem_selected {path : String} :
    path ∈ failedIds.foldl (pushUnique (items.map fun item => (item.1.fileId, String.ofList item.2)))
      [] ↔ ∃ item ∈ lastFailed items failedIds, String.ofList item.2 = path := by
  rw [mem_foldl_pushUnique]
  constructor
  · rintro (none | ⟨fileId, recorded, found⟩)
    · cases none
    · rw [sourcePathOf_eq] at found
      obtain ⟨item, last, same⟩ := Option.map_eq_some_iff.mp found
      obtain rfl := (lastWithId_id last).2
      exact ⟨item, mem_lastFailed.mpr ⟨recorded, last⟩, same⟩
  · rintro ⟨item, failed, same⟩
    obtain ⟨recorded, last⟩ := mem_lastFailed.mp failed
    refine Or.inr ⟨item.1.fileId, recorded, ?_⟩
    rw [sourcePathOf_eq, last, ← same]
    rfl

theorem Ended.select_all (ended : Ended blake3 disk paths items failedIds task)
    (none_failed : failedItems items failedIds = []) :
    selectRetryPaths task = .ok (paths.map String.ofList) := by
  have nothing : failedIds.foldl (pushUnique
      (items.map fun item => (item.1.fileId, String.ofList item.2))) [] = [] := by
    apply List.eq_nil_iff_forall_not_mem.mpr
    intro path inside
    obtain ⟨item, failed, -⟩ := mem_selected.mp inside
    rw [lastFailed_eq_nil.mpr none_failed] at failed
    cases failed
  unfold selectRetryPaths
  simp only [ended.sourcePaths, ended.recorded, ended.mapping, Option.getD_some, nothing, if_true,
    ite_self]

theorem Ended.select_failed (ended : Ended blake3 disk paths items failedIds task)
    (some_failed : failedItems items failedIds ≠ []) :
    ∃ retryPaths, selectRetryPaths task = .ok retryPaths ∧
      ∀ path, path ∈ retryPaths.map String.toList ↔
        ∃ item ∈ lastFailed items failedIds, item.2 = path := by
  obtain ⟨item, rest, split⟩ := List.exists_cons_of_ne_nil
    fun none => some_failed (lastFailed_eq_nil.mp none)
  have failed : item ∈ lastFailed items failedIds := by
    rw [split]
    exact List.mem_cons_self
  have recorded : failedIds ≠ [] := List.ne_nil_of_mem (mem_lastFailed.mp failed).1
  have selected : failedIds.foldl (pushUnique
      (items.map fun item => (item.1.fileId, String.ofList item.2))) [] ≠ [] :=
    List.ne_nil_of_mem (mem_selected.mpr ⟨item, failed, rfl⟩)
  refine ⟨failedIds.foldl (pushUnique
    (items.map fun item => (item.1.fileId, String.ofList item.2))) [], ?_, fun path => ?_⟩
  · unfold selectRetryPaths
    simp only [ended.sourcePaths, ended.recorded, ended.mapping, Option.getD_some,
      if_neg recorded, if_neg selected]
  · rw [List.mem_map]
    constructor
    · rintro ⟨text, inside, rfl⟩
      obtain ⟨item, failed, rfl⟩ := mem_selected.mp inside
      exact ⟨item, failed, String.toList_ofList.symm⟩
    · rintro ⟨item, failed, rfl⟩
      exact ⟨_, mem_selected.mpr ⟨item, failed, rfl⟩, String.toList_ofList⟩

theorem Ended.of_newTask (built : buildFileItems blake3 disk paths = .ok items) (r : SendRequest)
    (listed : r.paths = paths.map String.ofList) (conn startedAtUnix : ℕ) (peerName : String)
    {status : TransferStatus} (terminal : status.isTerminal = true) :
    Ended blake3 disk paths items failedIds
      { r.newTask (items.map fun item => (item.1, String.ofList item.2)) conn startedAtUnix peerName
        with status := status, failedFileIds := some failedIds } where
  direction := rfl
  terminal := terminal
  built := built
  sourcePaths := congrArg some listed
  mapping := by simp [SendRequest.newTask, List.map_map, Function.comp_def]
  recorded := rfl

end Selected

theorem relPath_congr {a b : List Char} (same : startOf a = startOf b) (path : List Char) :
    relPath path a = relPath path b := by
  have form (base : List Char) : relPath path base =
      let rel := (((stripPrefix path (startOf base)).getD path).map
        fun c => if c = '\\' then '/' else c).dropWhile (· = '/')
      if rel = [] then ((fileName path).map Name.text).getD [] else rel := rfl
  rw [form a, form b, same]

/-- A source path ends, behind the directory that relative paths start from, in its file name or
in `.` or `..`, unless it is `/` or empty. -/
theorem exists_own (base : List Char) : ∃ own, components base = startOf base ++ own ∧
    .rootDir ∉ own ∧ (∀ n, fileName base = some n → own = [.normal n]) ∧
      ∀ n, .normal n ∈ own → fileName base = some n := by
  have form : (PathBuf.ofText base).comps = components base := rfl
  by_cases bare : (components base).getLast? = none ∨ (components base).getLast? = some .rootDir
  · have parentless : walkParent base = none := by
      have orphan : (PathBuf.ofText base).parent = none := by
        rcases bare with last | last
        · rw [PathBuf.parent, form, last]
        · rw [PathBuf.parent, form, last]
      rw [walkParent, orphan]
      rfl
    have nameless : fileName base = none := by
      rcases bare with last | last
      · rw [fileName, PathBuf.fileName, form, last]
      · rw [fileName, PathBuf.fileName, form, last]
    refine ⟨[], ?_, List.not_mem_nil, ?_, fun n hn => absurd hn List.not_mem_nil⟩
    · rw [startOf, parentless, List.append_nil]
    · intro n named
      rw [nameless] at named
      cases named
  · rw [not_or] at bare
    obtain ⟨c, last⟩ := Option.ne_none_iff_exists'.mp bare.1
    obtain ⟨front, split⟩ := List.getLast?_eq_some_iff.mp last
    have below_root : c ≠ .rootDir := by
      rintro rfl
      exact bare.2 last
    have parent : (PathBuf.ofText base).parent = some ⟨front⟩ := by
      rw [PathBuf.parent, form, last, split, List.dropLast_concat]
      cases c with
      | rootDir => exact absurd rfl below_root
      | curDir | parentDir | normal => rfl
    have apart : (⟨front⟩ : PathBuf) ≠ PathBuf.ofText base := by
      intro same
      have lengths := congrArg (fun p : PathBuf => p.comps.length) same
      simp [form, split] at lengths
    have found : walkParent base = some ⟨front⟩ := by
      rw [walkParent, parent]
      simpa using apart
    have name (n : Name) : fileName base = some n ↔ c = .normal n := by
      rw [fileName, PathBuf.fileName, form, last]
      cases c with
      | rootDir | curDir | parentDir => simp
      | normal m => simp
    refine ⟨[c], ?_, ?_, ?_, ?_⟩
    · rw [startOf, found, split]
    · intro root
      exact below_root (List.mem_singleton.mp root).symm
    · intro n named
      rw [(name n).mp named]
    · intro n inside
      exact (name n).mpr (List.mem_singleton.mp inside).symm

theorem components_relPath {path base : List Char} {more : List Component}
    (h : components path = startOf base ++ more) (some_more : more ≠ [])
    (rootless : .rootDir ∉ more) (free : ∀ n, .normal n ∈ more → '\\' ∉ n.text) :
    components (relPath path base) = more ∧ ∀ n, more = [.normal n] → relPath path base = n.text := by
  obtain ⟨rel, stripped, comps, one⟩ := exists_stripPrefix h
  have clean : '\\' ∉ rel := by
    apply notMem_of_names (by decide) (by decide)
    rw [comps]
    exact free
  have nonempty : rel ≠ [] := by
    rintro rfl
    exact some_more comps.symm
  have start : rel.head? ≠ some '/' := by
    intro head
    obtain ⟨tail, rfl⟩ := List.head?_eq_some_iff.mp head
    apply rootless
    have split : segments ('/' :: tail) = [] :: segments tail := by simp [segments]
    have follows : (segments tail).isEmpty = false := by
      cases here : segments tail with
      | nil => exact absurd here (segments_ne_nil tail)
      | cons => rfl
    rw [← comps, components_eq split, follows]
    exact List.mem_append_left _ (List.mem_singleton.mpr rfl)
  have same : relPath path base = rel := relPath_of_start stripped clean nonempty start
  rw [same]
  exact ⟨comps, one⟩

theorem at_append (entry : Entry) (front names : List Name) :
    entry.at (front ++ names) = (entry.at front).bind fun x => x.at names := by
  induction front generalizing entry with
  | nil => simp [Entry.at]
  | cons n front ih =>
    cases entry with
    | dir modified entries fault =>
      rw [List.cons_append, Entry.at, Entry.at]
      cases entries.find? fun child => child.1 = n with
      | none => rfl
      | some child => exact ih child.2
    | file | symlink | special | denied => rfl

theorem entryAt_below {disk : Disk} {path : List Char} {names : List Name} {x : Entry}
    (there : (disk.entryAt path).at names = some x) : disk.entryAt (below path names) = x := by
  induction names generalizing path with
  | nil => simpa [Entry.at] using there
  | cons n names ih =>
    cases here : disk.entryAt path with
    | dir modified entries fault =>
      rw [here] at there
      obtain ⟨entry, listed, later⟩ := (at_dir (disk.distinct _ _ _ _ here)).mp there
      rw [below_cons]
      apply ih
      rw [disk.coherent _ _ _ _ here _ _ listed]
      exact later
    | file | symlink | special | denied =>
      rw [here] at there
      cases there

theorem within_of_at {entry x : Entry} {names : List Name} (tidy : Tidy entry)
    (there : entry.at names = some x) : Within x entry := by
  induction names generalizing entry with
  | nil =>
    obtain rfl : entry = x := by simpa [Entry.at] using there
    exact .here
  | cons n names ih =>
    cases entry with
    | dir modified entries fault =>
      obtain ⟨child, listed, later⟩ := (at_dir (tidy _ _ _ .here)).mp there
      exact .inner listed (ih (tidy.child listed) later)
    | file | symlink | special | denied => cases there

section Trees

variable {disk : Disk} {base path : List Char}

theorem inTree_iff : InTree disk base path ↔
    ∃ spot ∈ (disk.entryAt base).spots, path = below base spot.1 := by
  constructor
  · rintro ⟨names, listed, rfl⟩
    obtain ⟨fileType, kind⟩ := Option.isSome_iff_exists.mp listed
    obtain ⟨x, inside, -⟩ := (kindAt_eq_some (disk.tidy base)).mp kind
    exact ⟨(names, x), inside, rfl⟩
  · rintro ⟨⟨names, x⟩, inside, rfl⟩
    obtain ⟨fileType, kind⟩ := Option.isSome_iff_exists.mp ((mem_spots (disk.tidy base)).mp inside).2
    have here := (kindAt_eq_some (disk.tidy base)).mpr ⟨x, inside, kind⟩
    exact ⟨names, Option.isSome_iff_exists.mpr ⟨_, here⟩, rfl⟩

theorem entryAt_spot {spot : List Name × Entry} (inside : spot ∈ (disk.entryAt base).spots) :
    disk.entryAt (below base spot.1) = spot.2 :=
  entryAt_below ((mem_spots (disk.tidy base)).mp inside).1

theorem spot_below {spot later : List Name × Entry} (inside : spot ∈ (disk.entryAt base).spots)
    (further : later ∈ (disk.entryAt (below base spot.1)).spots) :
    (spot.1 ++ later.1, later.2) ∈ (disk.entryAt base).spots := by
  have first := (mem_spots (disk.tidy base)).mp inside
  have second := (mem_spots (disk.tidy _)).mp further
  rw [entryAt_spot inside] at second
  apply (mem_spots (disk.tidy base)).mpr
  rw [at_append, first.1]
  exact second

theorem inTree_self (inside : InTree disk base path) : InTree disk path path := by
  obtain ⟨spot, listed, rfl⟩ := inTree_iff.mp inside
  have kind := ((mem_spots (disk.tidy base)).mp listed).2
  rw [← entryAt_spot listed] at kind
  exact inTree_iff.mpr ⟨([], disk.entryAt (below base spot.1)), root_mem_spots kind, rfl⟩

theorem fileName_below {names : List Name} {n : Name} (last : names.getLast? = some n) :
    fileName (below base names) = some n := by
  obtain ⟨front, rfl⟩ := List.getLast?_eq_some_iff.mp last
  have form : (PathBuf.ofText (below base (front ++ [n]))).comps =
      components base ++ front.map .normal ++ [.normal n] := by
    show components (below base (front ++ [n])) = _
    rw [components_below, List.map_append, List.append_assoc]
    rfl
  rw [fileName, PathBuf.fileName, form, List.getLast?_concat]

theorem Unslashed.inTree (clean : Unslashed disk base) (inside : InTree disk base path) :
    Unslashed disk path := by
  obtain ⟨spot, listed, rfl⟩ := inTree_iff.mp inside
  constructor
  · intro n named
    rcases List.eq_nil_or_concat' spot.1 with none | ⟨front, last, some_names⟩
    · rw [none, below_nil] at named
      exact clean.1 n named
    · have ends : spot.1.getLast? = some last := by
        rw [some_names]
        exact List.getLast?_concat
      rw [fileName_below ends] at named
      cases named
      apply clean.2 spot listed
      exact List.mem_of_getLast? ends
  · intro later further n hn
    exact clean.2 _ (spot_below listed further) n (List.mem_append_right _ hn)

theorem exists_relPath (clean : Unslashed disk base) {spot : List Name × Entry}
    (inside : spot ∈ (disk.entryAt base).spots) {n : Name}
    (named : fileName (below base spot.1) = some n) :
    ∃ more, components (below base spot.1) = startOf base ++ more ∧
      components (relPath (below base spot.1) base) = more ∧ more.getLast? = some (.normal n) ∧
        (spot.1 = [] → relPath (below base spot.1) base = n.text) := by
  obtain ⟨own, split, rootless, name, named_own⟩ := exists_own base
  have comps : components (below base spot.1) = startOf base ++ (own ++ spot.1.map .normal) := by
    rw [components_below, split, List.append_assoc]
  have ends : (own ++ spot.1.map Component.normal).getLast? = some (.normal n) := by
    rcases List.eq_nil_or_concat' spot.1 with none | ⟨front, last, some_names⟩
    · rw [none, below_nil] at named
      rw [none, name n named]
      rfl
    · have final : spot.1.getLast? = some last := by
        rw [some_names]
        exact List.getLast?_concat
      rw [fileName_below final] at named
      cases named
      rw [some_names, List.map_append, ← List.append_assoc]
      exact List.getLast?_concat
  have free : ∀ m, .normal m ∈ own ++ spot.1.map Component.normal → '\\' ∉ m.text := by
    intro m hm
    rcases List.mem_append.mp hm with hm | hm
    · exact clean.1 m (named_own m hm)
    · obtain ⟨m', hm', same⟩ := List.mem_map.mp hm
      cases same
      exact clean.2 spot inside m hm'
  have below_root : .rootDir ∉ own ++ spot.1.map Component.normal := by
    intro root
    rcases List.mem_append.mp root with root | root
    · exact rootless root
    · obtain ⟨m, -, same⟩ := List.mem_map.mp root
      cases same
  have some_more : own ++ spot.1.map Component.normal ≠ [] := by
    intro none
    rw [none] at ends
    cases ends
  obtain ⟨whole, one⟩ := components_relPath comps some_more below_root free
  refine ⟨_, comps, whole, ends, fun none => ?_⟩
  apply one
  rw [none, below_nil] at named
  rw [none, name n named]
  rfl

theorem eq_nil_of_nameless {names : List Name} (nameless : fileName (below base names) = none) :
    names = [] := by
  rcases List.eq_nil_or_concat' names with none | ⟨front, last, some_names⟩
  · exact none
  · have ends : names.getLast? = some last := by
      rw [some_names]
      exact List.getLast?_concat
    rw [fileName_below ends] at nameless
    cases nameless

end Trees

section Readable

variable {blake3 : Bytes → Digest} {base : List Char}

theorem exists_child_walk {entries : List (Name × Entry)} {path : List Char}
    {sofar later : List Listed × ℕ}
    (h : collectEntries blake3 base entries path sofar = .ok later) {n : Name} {entry : Entry}
    (listed : (n, entry) ∈ entries) :
    ∃ path sofar later, collectItems blake3 base entry path sofar = .ok later := by
  induction entries generalizing sofar with
  | nil => cases listed
  | cons child rest ih =>
    obtain ⟨m, first⟩ := child
    rw [collectEntries] at h
    cases found : collectItems blake3 base first (joinName path m) sofar with
    | error _ =>
      rw [found] at h
      cases h
    | ok mid =>
      rw [found] at h
      rcases List.mem_cons.mp listed with same | listed
      · cases same
        exact ⟨_, _, _, found⟩
      · exact ih h listed

theorem readable_of_walk {entry : Entry} {path : List Char} {sofar later : List Listed × ℕ}
    (h : collectItems blake3 base entry path sofar = .ok later) : Readable entry := by
  induction entry using Entry.tree generalizing path sofar later with
  | denied cause =>
    rw [collectItems] at h
    cases h
  | symlink | special =>
    intro x inside
    cases inside
    exact trivial
  | file f =>
    obtain ⟨items, nextId⟩ := sofar
    intro x inside
    cases inside
    show f.fault = none
    cases fault : f.fault with
    | none => rfl
    | some cause =>
      rw [collectItems, buildSourceSnapshot, fault] at h
      cases h
  | dir modified entries fault ih =>
    obtain ⟨items, nextId⟩ := sofar
    rw [collectItems] at h
    cases found : collectEntries blake3 base entries path
        (items ++ [(directoryItem path base nextId modified, path)], (nextId + 1) % 2 ^ 32) with
    | error _ =>
      rw [found] at h
      cases h
    | ok mid =>
      rw [found] at h
      intro x inside
      cases inside with
      | here =>
        show fault = none
        cases fault with
        | none => rfl
        | some cause => cases h
      | inner listed inside =>
        obtain ⟨_, _, _, walked⟩ := exists_child_walk found listed
        exact ih _ _ listed walked x inside

theorem readable_of_built {disk : Disk} {paths : List (List Char)} {items : List Listed}
    (h : buildFileItems blake3 disk paths = .ok items) :
    ∀ path ∈ paths, Readable (disk.entryAt path) := by
  have all : ∀ {paths : List (List Char)} {sofar later : List Listed × ℕ},
      collectPaths blake3 disk paths sofar = .ok later →
        ∀ path ∈ paths, Readable (disk.entryAt path) := by
    intro paths
    induction paths with
    | nil => exact fun _ path hp => absurd hp List.not_mem_nil
    | cons first rest ih =>
      intro sofar later h path hp
      rw [collectPaths] at h
      cases found : collectItems blake3 first (disk.entryAt first) first sofar with
      | error _ =>
        rw [found] at h
        cases h
      | ok mid =>
        rw [found] at h
        rcases List.mem_cons.mp hp with rfl | hp
        · exact readable_of_walk found
        · exact ih h path hp
  rw [buildFileItems] at h
  cases found : collectPaths blake3 disk paths ([], 0) with
  | error _ =>
    rw [found] at h
    cases h
  | ok later => exact all found

end Readable

section Listings

variable {disk : Disk}

/-- An item is what the walk from a source path lists of its tree. -/
def ListedFor (disk : Disk) (item : Listed) (path : List Char) : Prop :=
  ∃ spot ∈ (disk.entryAt path).spots, Shows path path item spot

theorem forall₂_replicate {α β γ : Type} {S : α → β → Prop} {R : α → γ → Prop} {as : List α}
    {bs : List β} {c : γ} (h : List.Forall₂ S as bs) (imp : ∀ a b, b ∈ bs → S a b → R a c) :
    List.Forall₂ R as (List.replicate bs.length c) := by
  induction h with
  | nil => exact .nil
  | cons first _ ih =>
    exact .cons (imp _ _ List.mem_cons_self first)
      (ih fun a b hb => imp a b (List.mem_cons_of_mem _ hb))

theorem exists_zip {α β : Type} {R : α → β → Prop} {as : List α} {bs : List β}
    (h : List.Forall₂ R as bs) {a : α} (ha : a ∈ as) : ∃ b, (a, b) ∈ as.zip bs := by
  induction h with
  | nil => cases ha
  | cons first _ ih =>
    rcases List.mem_cons.mp ha with rfl | ha
    · exact ⟨_, List.mem_cons_self⟩
    · obtain ⟨b, inside⟩ := ih ha
      exact ⟨b, List.mem_cons_of_mem _ inside⟩

variable {blake3 : Bytes → Digest} {paths : List (List Char)} {items : List Listed}

theorem listed_sources (built : buildFileItems blake3 disk paths = .ok items) :
    List.Forall₂ (ListedFor disk) items (sourcesOf disk paths) := by
  obtain ⟨parts, rfl, shown, -⟩ := buildFileItems_walked built
  clear built
  induction shown with
  | nil => exact .nil
  | cons first _ ih =>
    rw [List.flatten_cons, sourcesOf, List.flatMap_cons]
    apply List.rel_append _ ih
    exact forall₂_replicate first fun item spot hs shows_spot => ⟨spot, hs, shows_spot⟩

theorem mem_sourcesOf {path : List Char} (h : path ∈ sourcesOf disk paths) : path ∈ paths := by
  obtain ⟨path', hp, inside⟩ := List.mem_flatMap.mp h
  rw [List.eq_of_mem_replicate inside]
  exact hp

theorem exists_listed (built : buildFileItems blake3 disk paths = .ok items) {path : List Char}
    (hp : path ∈ paths) {spot : List Name × Entry} (hs : spot ∈ (disk.entryAt path).spots) :
    ∃ item ∈ items, Shows path path item spot := by
  obtain ⟨parts, rfl, shown, -⟩ := buildFileItems_walked built
  obtain ⟨part, inside, here⟩ := exists_partner shown.flip hp
  obtain ⟨item, hi, shows_spot⟩ := exists_partner here.flip hs
  exact ⟨item, List.mem_flatten.mpr ⟨part, inside, hi⟩, shows_spot⟩

theorem source_of_item (built : buildFileItems blake3 disk paths = .ok items) {item : Listed}
    (hi : item ∈ items) : ∃ path ∈ paths, (item, path) ∈ items.zip (sourcesOf disk paths) ∧
      ListedFor disk item path := by
  have listed := listed_sources built
  obtain ⟨path, zipped⟩ := exists_zip listed hi
  have inside := mem_sourcesOf (List.of_mem_zip zipped).2
  exact ⟨path, inside, zipped, (List.forall₂_iff_zip.mp listed).2 zipped⟩

theorem ListedFor.inTree {item : Listed} {path : List Char} (h : ListedFor disk item path) :
    InTree disk path item.2 := by
  obtain ⟨spot, hs, shows_spot⟩ := h
  exact inTree_iff.mpr ⟨spot, hs, shows_spot.1⟩

theorem ListedFor.shown {item : Listed} {path : List Char} (h : ListedFor disk item path) :
    item.1.relPath = String.ofList (relPath item.2 path) := by
  obtain ⟨spot, hs, shows_spot⟩ := h
  exact shows_spot.2.1

/-- Listed under one relative path from two source paths, an item is reached from one start. -/
theorem start_of_relPath {item again : Listed} {path path' : List Char}
    (first : ListedFor disk item path) (second : ListedFor disk again path')
    (clean : Unslashed disk path) (clean' : Unslashed disk path') (there : again.2 = item.2)
    (same : again.1.relPath = item.1.relPath) : startOf path' = startOf path := by
  have texts : relPath item.2 path' = relPath item.2 path := by
    have rels := same
    rw [first.shown, second.shown, there] at rels
    exact String.ofList_injective rels
  obtain ⟨spot, hs, shows_spot⟩ := first
  obtain ⟨spot', hs', shows_spot'⟩ := second
  have here : item.2 = below path spot.1 := shows_spot.1
  have here' : item.2 = below path' spot'.1 := there.symm.trans shows_spot'.1
  cases named : fileName item.2 with
  | none =>
    have first := eq_nil_of_nameless (here ▸ named)
    have second := eq_nil_of_nameless (here' ▸ named)
    rw [first, below_nil] at here
    rw [second, below_nil] at here'
    rw [← here, ← here']
  | some n =>
    obtain ⟨more, comps, rel, -, -⟩ := exists_relPath clean hs (here ▸ named)
    obtain ⟨more', comps', rel', -, -⟩ := exists_relPath clean' hs' (here' ▸ named)
    rw [← here] at comps rel
    rw [← here'] at comps' rel'
    have agree : more' = more := by rw [← rel, ← rel', texts]
    rw [agree, comps] at comps'
    exact (List.append_cancel_right comps').symm

end Listings

theorem eq_nil_of_components {path : List Char} (none : components path = []) : path = [] := by
  cases split : segments path with
  | nil => exact absurd split (segments_ne_nil path)
  | cons first rest =>
    rw [components_eq split] at none
    obtain ⟨start, -⟩ := List.append_eq_nil_iff.mp none
    have empty : first = [] ∧ rest = [] := by
      by_cases empty : first = []
      · refine ⟨empty, ?_⟩
        cases rest with
        | nil => rfl
        | cons next rest =>
          rw [empty] at start
          cases start
      · have bare := slash_notMem (s := path) (by rw [split]; exact List.mem_cons_self)
        by_cases dot : first = ['.']
        · rw [dot] at start
          cases start
        · rw [firstComponent, if_neg empty, if_neg dot] at start
          have blank := (bodyComponent_eq_none bare).mp (Option.toList_eq_nil_iff.mp start)
          simp [skipped, empty, dot] at blank
    rw [← joinSegments_segments path, split, empty.1, empty.2]
    rfl

theorem nameless_relPath {path : List Char} (nameless : fileName path = none) (n : Name) :
    (components (relPath path path)).getLast? ≠ some (.normal n) := by
  obtain ⟨own, split, rootless, -, named⟩ := exists_own path
  have unnamed : ∀ m, .normal m ∉ own := by
    intro m inside
    rw [named m inside] at nameless
    cases nameless
  by_cases some_own : own = []
  · obtain ⟨rel, stripped, comps, -⟩ := exists_stripPrefix split
    obtain rfl := eq_nil_of_components (comps.trans some_own)
    have empty : relPath path path = [] := by
      have form : relPath path path =
          let rel := (((stripPrefix path (startOf path)).getD path).map
            fun c => if c = '\\' then '/' else c).dropWhile (· = '/')
          if rel = [] then ((fileName path).map Name.text).getD [] else rel := rfl
      rw [form, stripped, nameless]
      rfl
    rw [empty]
    intro last
    cases last
  · have comps := (components_relPath split some_own rootless
      fun m inside => absurd inside (unnamed m)).1
    rw [comps]
    intro last
    exact unnamed n (List.mem_of_getLast? last)

/-- The failed items and the items of the retry, which walks the paths of `tops`. -/
structure Retried (disk : Disk) (paths : List (List Char)) (items failed tops retried : List Listed) :
    Prop where
  original : ∀ item ∈ failed, ∃ path ∈ paths, (item, path) ∈ items.zip (sourcesOf disk paths)
  listed : List.Forall₂ (ListedFor disk) items (sourcesOf disk paths)
  sources : ∀ again ∈ retried, ∃ top ∈ tops, ListedFor disk again top.2
  whole : ∀ top ∈ tops, ∀ spot ∈ (disk.entryAt top.2).spots,
    ∃ again ∈ retried, Shows top.2 top.2 again spot

namespace Retried

section Walked

variable {disk : Disk} {paths : List (List Char)} {items failed tops retried : List Listed}

theorem listedFor (h : Retried disk paths items failed tops retried) {item : Listed}
    {path : List Char} (zipped : (item, path) ∈ items.zip (sourcesOf disk paths)) :
    path ∈ paths ∧ ListedFor disk item path :=
  ⟨mem_sourcesOf (List.of_mem_zip zipped).2, (List.forall₂_iff_zip.mp h.listed).2 zipped⟩

/-- The walk from a top sends what stands in its tree, with the text that it has from there. -/
theorem exists_again (h : Retried disk paths items failed tops retried) {top : Listed}
    (ht : top ∈ tops) {path : List Char} (inside : InTree disk top.2 path) :
    ∃ again ∈ retried, again.2 = path ∧ again.1.relPath = String.ofList (relPath path top.2) := by
  obtain ⟨spot, hs, rfl⟩ := inTree_iff.mp inside
  obtain ⟨again, ha, shows_spot⟩ := h.whole top ht spot hs
  refine ⟨again, ha, shows_spot.1, ?_⟩
  rw [shows_spot.2.1, shows_spot.1]

theorem kept_iff (h : Retried disk paths items failed tops retried) :
    (∀ item ∈ failed, ∃ again ∈ retried, again.2 = item.2 ∧
      again.1.relPath = item.1.relPath) ↔
    ∀ item ∈ failed, ∀ path, (item, path) ∈ items.zip (sourcesOf disk paths) →
      ∃ top ∈ tops, InTree disk top.2 item.2 ∧ relPath item.2 top.2 = relPath item.2 path := by
  constructor
  · intro kept item hi path zipped
    obtain ⟨again, ha, there, same⟩ := kept item hi
    obtain ⟨top, ht, from_top⟩ := h.sources again ha
    refine ⟨top, ht, there ▸ from_top.inTree, ?_⟩
    rw [from_top.shown, (h.listedFor zipped).2.shown, there] at same
    exact String.ofList_injective same
  · intro source item hi
    obtain ⟨path, -, zipped⟩ := h.original item hi
    obtain ⟨top, ht, inside, same⟩ := source item hi path zipped
    obtain ⟨again, ha, there, rel⟩ := h.exists_again ht inside
    refine ⟨again, ha, there, ?_⟩
    rw [rel, same, (h.listedFor zipped).2.shown]

theorem only_iff (h : Retried disk paths items failed tops retried) :
    (∀ again ∈ retried, ∃ item ∈ failed, item.2 = again.2) ↔
    ∀ top ∈ tops, ∀ path, InTree disk top.2 path → ∃ item ∈ failed, item.2 = path := by
  constructor
  · intro only top ht path inside
    obtain ⟨again, ha, rfl, -⟩ := h.exists_again ht inside
    exact only again ha
  · intro inside again ha
    obtain ⟨top, ht, from_top⟩ := h.sources again ha
    exact inside top ht again.2 from_top.inTree

theorem apart_iff (h : Retried disk paths items failed tops retried) :
    (∀ again ∈ retried, ∀ other ∈ retried, again.1.relPath = other.1.relPath →
      ∃ item ∈ failed, ∃ item' ∈ failed,
        item.2 = again.2 ∧ item'.2 = other.2 ∧ item.1.relPath = item'.1.relPath) ↔
    ∀ top ∈ tops, ∀ path, InTree disk top.2 path → ∀ top' ∈ tops, ∀ path',
      InTree disk top'.2 path' → relPath path top.2 = relPath path' top'.2 →
        ∃ item ∈ failed, ∃ item' ∈ failed,
          item.2 = path ∧ item'.2 = path' ∧ item.1.relPath = item'.1.relPath := by
  constructor
  · intro apart top ht path inside top' ht' path' inside' same
    obtain ⟨again, ha, rfl, rel⟩ := h.exists_again ht inside
    obtain ⟨other, ho, rfl, rel'⟩ := h.exists_again ht' inside'
    exact apart again ha other ho (by rw [rel, rel', same])
  · intro texts again ha other ho same
    obtain ⟨top, ht, from_top⟩ := h.sources again ha
    obtain ⟨top', ht', from_top'⟩ := h.sources other ho
    rw [from_top.shown, from_top'.shown] at same
    exact texts top ht _ from_top.inTree top' ht' _ from_top'.inTree (String.ofList_injective same)

theorem resends_iff (h : Retried disk paths items failed tops retried) (some_failed : failed ≠ []) :
    ResendsFailed failed retried ↔ ShownAsBefore disk paths items failed tops := by
  constructor
  · intro resends
    exact ⟨fun none => absurd none some_failed, h.kept_iff.mp resends.kept,
      h.only_iff.mp resends.only, h.apart_iff.mp resends.apart⟩
  · intro shown
    exact ⟨h.kept_iff.mpr shown.source, h.only_iff.mpr shown.inside, h.apart_iff.mpr shown.texts⟩

end Walked

section Names

variable {disk : Disk} {paths : List (List Char)} {items failed retried : List Listed}

theorem unslashed_failed (h : Retried disk paths items failed failed retried)
    (clean : ∀ path ∈ paths, Unslashed disk path) {item : Listed} (hi : item ∈ failed) :
    Unslashed disk item.2 := by
  obtain ⟨path, hp, zipped⟩ := h.original item hi
  exact (clean path hp).inTree (h.listedFor zipped).2.inTree

theorem alone (h : Retried disk paths items failed failed retried) {item : Listed}
    (hi : item ∈ failed) : ∃ again ∈ retried, again.2 = item.2 ∧
      again.1.relPath = String.ofList (relPath item.2 item.2) := by
  obtain ⟨path, -, zipped⟩ := h.original item hi
  exact h.exists_again hi (inTree_self (h.listedFor zipped).2.inTree)

/-- Without backslashes one text of an item means one directory that it starts from. -/
theorem starts_iff (h : Retried disk paths items failed failed retried)
    (clean : ∀ path ∈ paths, Unslashed disk path) :
    (∀ item ∈ failed, ∀ path, (item, path) ∈ items.zip (sourcesOf disk paths) →
      ∃ top ∈ failed, InTree disk top.2 item.2 ∧ relPath item.2 top.2 = relPath item.2 path) ↔
    ∀ item ∈ failed, ∀ path, (item, path) ∈ items.zip (sourcesOf disk paths) →
      ∃ top ∈ failed, startOf top.2 = startOf path ∧ InTree disk top.2 item.2 := by
  constructor
  · intro source item hi path zipped
    obtain ⟨top, ht, inside, same⟩ := source item hi path zipped
    obtain ⟨hp, listed⟩ := h.listedFor zipped
    obtain ⟨spot, hs, there⟩ := inTree_iff.mp inside
    refine ⟨top, ht, ?_, inside⟩
    obtain ⟨again, ha, shows_spot⟩ := h.whole top ht spot hs
    have found : again.2 = item.2 := shows_spot.1.trans there.symm
    apply start_of_relPath listed ⟨spot, hs, shows_spot⟩ (clean path hp)
      (h.unslashed_failed clean ht) found
    rw [shows_spot.2.1, found, same, listed.shown]
  · intro source item hi path zipped
    obtain ⟨top, ht, start, inside⟩ := source item hi path zipped
    exact ⟨top, ht, inside, relPath_congr start item.2⟩

theorem nameless (h : Retried disk paths items failed failed retried) {again : Listed}
    (ha : again ∈ retried) (none : fileName again.2 = none) : ∃ item ∈ failed,
      item.2 = again.2 ∧ item.1.relPath = again.1.relPath ∧
        again.1.relPath = String.ofList (relPath again.2 again.2) := by
  obtain ⟨top, ht, spot, hs, shows_spot⟩ := h.sources again ha
  have root := eq_nil_of_nameless (shows_spot.1 ▸ none)
  have same : top.2 = again.2 := by
    rw [shows_spot.1, root]
    rfl
  obtain ⟨path, -, zipped⟩ := h.original top ht
  obtain ⟨-, spot', hs', shows_top⟩ := h.listedFor zipped
  have root' := eq_nil_of_nameless (shows_top.1 ▸ same ▸ none)
  have source : top.2 = path := by
    rw [shows_top.1, root']
    rfl
  have rel : again.1.relPath = String.ofList (relPath again.2 again.2) := by
    rw [shows_spot.2.1, same]
  refine ⟨top, ht, same, ?_, rel⟩
  rw [rel, shows_top.2.1, ← source, same]

theorem apart_of_names (h : Retried disk paths items failed failed retried)
    (clean : ∀ path ∈ paths, Unslashed disk path)
    (only : ∀ again ∈ retried, ∃ item ∈ failed, item.2 = again.2)
    (names : ∀ item ∈ failed, ∀ other ∈ failed, ∀ n,
      fileName item.2 = some n → fileName other.2 = some n →
        ∃ item' ∈ failed, ∃ other' ∈ failed,
          item'.2 = item.2 ∧ other'.2 = other.2 ∧ item'.1.relPath = other'.1.relPath) :
    ∀ again ∈ retried, ∀ other ∈ retried, again.1.relPath = other.1.relPath →
      ∃ item ∈ failed, ∃ item' ∈ failed,
        item.2 = again.2 ∧ item'.2 = other.2 ∧ item.1.relPath = item'.1.relPath := by
  -- A relative path ends in the file name, if there is one.
  have ends {again : Listed} (ha : again ∈ retried) {n : Name}
      (named : fileName again.2 = some n) :
      (components again.1.relPath.toList).getLast? = some (.normal n) := by
    obtain ⟨top, ht, spot, hs, shows_spot⟩ := h.sources again ha
    obtain ⟨more, -, rel, last, -⟩ :=
      exists_relPath (h.unslashed_failed clean ht) hs (shows_spot.1 ▸ named)
    rw [shows_spot.2.1, String.toList_ofList, shows_spot.1, rel, last]
  have endless {again : Listed} (ha : again ∈ retried) (none : fileName again.2 = none) (n : Name) :
      (components again.1.relPath.toList).getLast? ≠ some (.normal n) := by
    obtain ⟨-, -, -, -, rel⟩ := h.nameless ha none
    rw [rel, String.toList_ofList]
    exact nameless_relPath none n
  intro again ha other ho same
  cases named : fileName again.2 with
  | none =>
    cases named' : fileName other.2 with
    | none =>
      obtain ⟨item, hi, there, rel, -⟩ := h.nameless ha named
      obtain ⟨item', hi', there', rel', -⟩ := h.nameless ho named'
      exact ⟨item, hi, item', hi', there, there', by rw [rel, rel', same]⟩
    | some m => exact absurd (same ▸ ends ho named') (endless ha named m)
  | some n =>
    cases named' : fileName other.2 with
    | none => exact absurd (same ▸ ends ha named) (endless ho named' n)
    | some m =>
      have last := ends ha named
      rw [same, ends ho named'] at last
      cases last
      obtain ⟨item, hi, there⟩ := only again ha
      obtain ⟨item', hi', there'⟩ := only other ho
      rw [← there] at named ⊢
      rw [← there'] at named' ⊢
      exact names item hi item' hi' n named named'

theorem names_of_apart (h : Retried disk paths items failed failed retried)
    (clean : ∀ path ∈ paths, Unslashed disk path)
    (apart : ∀ again ∈ retried, ∀ other ∈ retried, again.1.relPath = other.1.relPath →
      ∃ item ∈ failed, ∃ item' ∈ failed,
        item.2 = again.2 ∧ item'.2 = other.2 ∧ item.1.relPath = item'.1.relPath) :
    ∀ item ∈ failed, ∀ other ∈ failed, ∀ n,
      fileName item.2 = some n → fileName other.2 = some n →
        ∃ item' ∈ failed, ∃ other' ∈ failed,
          item'.2 = item.2 ∧ other'.2 = other.2 ∧ item'.1.relPath = other'.1.relPath := by
  have text {item : Listed} (hi : item ∈ failed) {n : Name} (named : fileName item.2 = some n) :
      relPath item.2 item.2 = n.text := by
    obtain ⟨path, -, zipped⟩ := h.original item hi
    have self := inTree_self (h.listedFor zipped).2.inTree
    have kind : (disk.entryAt item.2).kind.isSome = true := by
      obtain ⟨spot, hs, same⟩ := inTree_iff.mp (h.listedFor zipped).2.inTree
      rw [same, entryAt_spot hs]
      exact ((mem_spots (disk.tidy path)).mp hs).2
    have root : ([], disk.entryAt item.2) ∈ (disk.entryAt item.2).spots := root_mem_spots kind
    obtain ⟨-, -, -, -, alone⟩ := exists_relPath (h.unslashed_failed clean hi) root (n := n) named
    exact alone rfl
  intro item hi other ho n named named'
  obtain ⟨again, ha, there, rel⟩ := h.alone hi
  obtain ⟨again', ha', there', rel'⟩ := h.alone ho
  have same : again.1.relPath = again'.1.relPath := by
    rw [rel, rel', text hi named, text ho named']
  obtain ⟨item', hi', other', ho', found, found', equal⟩ := apart again ha again' ha' same
  exact ⟨item', hi', other', ho', found.trans there, found'.trans there', equal⟩

theorem whole_iff (h : Retried disk paths items failed failed retried) (some_failed : failed ≠ [])
    (clean : ∀ path ∈ paths, Unslashed disk path) :
    ResendsFailed failed retried ↔ FailedWhole disk paths items failed := by
  constructor
  · intro resends
    exact ⟨fun none => absurd none some_failed, (h.starts_iff clean).mp (h.kept_iff.mp resends.kept),
      h.only_iff.mp resends.only, h.names_of_apart clean resends.apart⟩
  · intro whole
    have only := h.only_iff.mpr whole.inside
    exact ⟨h.kept_iff.mpr ((h.starts_iff clean).mpr whole.source), only,
      h.apart_of_names clean only whole.names⟩

end Names

end Retried

section Main

variable {blake3 : Bytes → Digest} {disk : Disk} {paths : List (List Char)} {items : List Listed}
  {failedIds : List ℕ} {task : TransferTask} {transfers : String → Option TransferTask}
  {transferId : String}

theorem Ended.exists_retried (ended : Ended blake3 disk paths items failedIds task)
    (found : transfers transferId = some task) (some_failed : failedItems items failedIds ≠ []) :
    ∃ retried, retriedItems blake3 disk transfers transferId = .ok retried ∧
      Retried disk paths items (failedItems items failedIds) (lastFailed items failedIds)
        retried := by
  obtain ⟨retryPaths, selected, mem⟩ := ended.select_failed some_failed
  have original : ∀ item ∈ failedItems items failedIds, ∃ path ∈ paths,
      (item, path) ∈ items.zip (sourcesOf disk paths) ∧ ListedFor disk item path :=
    fun item hi => source_of_item ended.built (List.mem_filter.mp hi).1
  have readable : ∀ path ∈ retryPaths.map String.toList, Readable (disk.entryAt path) := by
    intro path hp
    obtain ⟨item, hi, rfl⟩ := (mem path).mp hp
    obtain ⟨source, hs, -, spot, inside, shows_spot⟩ := original item (lastFailed_subset hi)
    have whole := readable_of_built ended.built source hs
    have here := ((mem_spots (disk.tidy source)).mp inside).1
    rw [shows_spot.1, entryAt_spot inside]
    intro x within
    exact whole x (within.trans (within_of_at (disk.tidy source) here))
  obtain ⟨retried, built⟩ := buildFileItems_ok blake3 readable
  refine ⟨retried, ?_, ?_⟩
  · unfold retriedItems
    rw [ended.retryTransfer found selected]
    exact built
  · constructor
    · intro item hi
      obtain ⟨path, hp, zipped, -⟩ := original item hi
      exact ⟨path, hp, zipped⟩
    · exact listed_sources ended.built
    · intro again ha
      obtain ⟨path, hp, -, listed⟩ := source_of_item built ha
      obtain ⟨top, ht, rfl⟩ := (mem path).mp hp
      exact ⟨top, ht, listed⟩
    · intro top ht spot hs
      exact exists_listed built ((mem top.2).mpr ⟨top, ht, rfl⟩) hs

theorem Ended.resends_none (ended : Ended blake3 disk paths items failedIds task)
    (found : transfers transferId = some task) (none_failed : failedItems items failedIds = []) :
    RetryResends blake3 disk transfers transferId [] ↔ items = [] := by
  have again : retriedItems blake3 disk transfers transferId = .ok items := by
    have texts : (paths.map String.ofList).map String.toList = paths := by
      simp [List.map_map, Function.comp_def]
    unfold retriedItems
    rw [ended.retryTransfer found (ended.select_all none_failed)]
    show buildFileItems blake3 disk ((paths.map String.ofList).map String.toList) = .ok items
    rw [texts]
    exact ended.built
  constructor
  · rintro ⟨retried, built, resends⟩
    cases again.symm.trans built
    apply List.eq_nil_iff_forall_not_mem.mpr
    intro item hi
    obtain ⟨item', failed, -⟩ := resends.only item hi
    cases failed
  · rintro rfl
    exact ⟨[], again, by simp, by simp, by simp⟩

end Main

/-- The offer of `/x`: the directory and its file. -/
def sampleItems : List Listed :=
  match buildFileItems zeroDigest sampleDisk ["/x".toList] with
  | .ok items => items
  | .error _ => []

def sampleRequest : SendRequest := ⟨"t", "fp", ["/x"], true, "own"⟩

def sampleTask (failedIds : List ℕ) : TransferTask :=
  { sampleRequest.newTask (sampleItems.map fun item => (item.1, String.ofList item.2)) 0 0 "Phone"
    with status := .partialCompleted, failedFileIds := some failedIds }

def sampleTransfers (failedIds : List ℕ) : String → Option TransferTask :=
  fun _ => some (sampleTask failedIds)

theorem sample_ended (failedIds : List ℕ) :
    Ended zeroDigest sampleDisk ["/x".toList] sampleItems failedIds (sampleTask failedIds) :=
  .of_newTask rfl sampleRequest rfl 0 0 "Phone" rfl

theorem sample_unslashed : ∀ path ∈ ["/x".toList], Unslashed sampleDisk path := by
  intro path hp
  rw [List.mem_singleton] at hp
  subst hp
  exact ⟨by decide, by decide⟩

end DashDrop.Sending.Retries
