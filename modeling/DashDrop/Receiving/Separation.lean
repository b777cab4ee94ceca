/- GID: DashDrop/Receiving/Separation
   source: src-tauri/src/transport/receiver.rs
   anchors: []
   digest: Which lists of items can be received side by side without sharing a file. -/

import DashDrop.Foundation.Discipline
import DashDrop.Receiving.Bounds
import DashDrop.Runtime.Effects

set_option autoImplicit false
set_option relaxedAutoImplicit false

namespace DashDrop.Receiving.Separation

open DashDrop.Foundation.UnixPath DashDrop.Foundation.FileTree
open DashDrop.Foundation.Program DashDrop.Foundation.Interleaving DashDrop.Foundation.Discipline
open DashDrop.Transport.Protocol DashDrop.Transport.Outcome DashDrop.Transport.PathValidation
open DashDrop.Transport.Receiver DashDrop.Transport.DiskNames
open DashDrop.Runtime.State DashDrop.Runtime.Machine DashDrop.Runtime.Effects
open DashDrop.Runtime.Footprint DashDrop.Runtime.Solo
open DashDrop.Receiving.Integrity DashDrop.Receiving.Bounds

/-- The items for which `receive_files` starts a task, with their paths: an invalid path, and one
that an earlier item has, is refused at once. -/
def dispatch (saveRoot : PathBuf) : List PathBuf → List FileItem → List (FileItem × PathBuf)
  | _, [] => []
  | seenPaths, item :: rest =>
      match validateRelPath item.relPath.toList saveRoot with
      | .error _ => dispatch saveRoot seenPaths rest
      | .ok path =>
          if path ∈ seenPaths then dispatch saveRoot seenPaths rest
          else (item, path) :: dispatch saveRoot (path :: seenPaths) rest

/-- The part files, final files and directories that an operation of an item's task works on.
Directories made on the way to a file do not count. -/
def works (item : FileItem) : FsOp → List PathBuf
  | .metadata _ => []
  | .createDirAll p => if item.fileType = .directory then [p] else []
  | .createFile p | .openAppend p | .writeAll p _ | .flush p | .removeFile p => [p]
  | .rename p q => [p, q]

def uses (item : FileItem) : Option (Code TaskResult) → List Key
  | some (.op (.fs g) _) => (works item g).map PathBuf.resolve
  | _ => []

/-- In no run do two tasks work on the same entry, at whatever times. -/
def Apart (blake3 : Bytes → Digest) (saveRoot : PathBuf) (id : String) (w : World)
    (receipts : List Receipt) : Prop :=
  ∀ t u, Run exec free ⟨w, receipts.map (Receipt.prog blake3 saveRoot id)⟩ t →
    Run exec free t u → ∀ (i j : ℕ) (r s : Receipt), i ≠ j → receipts[i]? = some r →
      receipts[j]? = some s →
      ∀ k ∈ uses r.item (t.threads[i]?), k ∉ uses s.item (u.threads[j]?)

def places (strategy : FileConflictStrategy) (task : FileItem × PathBuf) : List PathBuf :=
  match task.1.fileType with
  | .directory => [task.2]
  | .regularFile => finals strategy task.2 ++ (finals strategy task.2).map tempPathFor

/-- No two items may work on the same entry. -/
def Separate (strategy : FileConflictStrategy) (tasks : List (FileItem × PathBuf)) : Prop :=
  ∀ (i j : ℕ) (a b : FileItem × PathBuf), i ≠ j → tasks[i]? = some a → tasks[j]? = some b →
    ∀ q ∈ places strategy a, ∀ q' ∈ places strategy b, q.resolve ≠ q'.resolve

/-- The operations of a task that keeps to these paths and to the strategy it has read. -/
private def keepsTo (item : FileItem) (ps : List PathBuf) : Op → Prop
  | .fs g => ∀ q ∈ works item g, q ∈ ps
  | .env .config => False
  | _ => True

private theorem receiveRegular_keeps (blake3 : Bytes → Digest) (item : FileItem) (id : String)
    (strategy : FileConflictStrategy) {ps : List PathBuf} {final : PathBuf}
    (regular : item.fileType = .regularFile) (hfinal : final ∈ ps) (htemp : tempPathFor final ∈ ps)
    (messages : Stream) :
    (receiveRegular blake3 item id strategy final messages).Within (keepsTo item ps) anything := by
  refine (receiveRegular_within item id strategy final blake3 messages).mono (fun o ho => ?_)
    fun _ h => h
  cases o with
  | fs g =>
    intro q hq
    cases g with
    | metadata => cases hq
    | createDirAll p => simp [works, regular] at hq
    | createFile p | openAppend p | writeAll p | flush p =>
      obtain rfl : p = _ := ho
      rw [List.mem_singleton.mp hq]
      exact htemp
    | removeFile p =>
      rw [List.mem_singleton.mp hq]
      rcases ho with rfl | rfl
      · exact htemp
      · exact hfinal
    | rename p p' =>
      obtain ⟨rfl, rfl⟩ := ho
      rcases List.mem_cons.mp hq with rfl | hq
      · exact htemp
      · rw [List.mem_singleton.mp hq]
        exact hfinal
  | env e =>
    cases e with
    | config => exact ho
    | _ => trivial
  | _ => trivial

private theorem receiveDirectory_keeps (blake3 : Bytes → Digest) (item : FileItem)
    {ps : List PathBuf} {path : PathBuf} (hpath : path ∈ ps) (message : DashMessage) :
    (receiveDirectory blake3 item path message).Within (keepsTo item ps) anything := by
  cases message with
  | complete complete =>
    simp only [receiveDirectory]
    split_ifs
    · trivial
    · trivial
    · refine ⟨fun q hq => ?_, fun made => ?_⟩
      · simp only [works] at hq
        split_ifs at hq
        · rw [List.mem_singleton.mp hq]
          exact hpath
        · cases hq
      · cases made <;> trivial
  | _ => trivial

/-- The task reads the strategy once; after that it keeps to the paths of that strategy. The
phase is `false` when it has read another strategy than the one that is configured. -/
private def follow (strategy : FileConflictStrategy) (item : FileItem) (ps : List PathBuf) :
    Automaton Op Op.Resp Bool
  | false, _, _ => some false
  | true, .env .config, config => some (decide (config.fileConflictStrategy = strategy))
  | true, .fs g, _ => if ∀ q ∈ works item g, q ∈ ps then some true else none
  | true, _, _ => some true

private theorem follow_stray {strategy : FileConflictStrategy} {item : FileItem}
    {ps : List PathBuf} (x : Code TaskResult) :
    Obeys (follow strategy item ps) false x fun _ _ => True := by
  induction x with
  | pure a => trivial
  | op o k ih => exact fun r => ⟨false, rfl, ih r⟩

private theorem follow_keeps {strategy : FileConflictStrategy} {item : FileItem}
    {ps : List PathBuf} {x : Code TaskResult} (within : x.Within (keepsTo item ps) anything) :
    Obeys (follow strategy item ps) true x fun _ _ => True := by
  have calm (o : Op) (ho : keepsTo item ps o) (r : o.Resp) :
      follow strategy item ps true o r = some true := by
    cases o with
    | fs g => exact if_pos ho
    | env e =>
      cases e with
      | config => exact ho.elim
      | _ => rfl
    | _ => rfl
  exact (Obeys.stay within calm).mono fun _ _ _ => trivial

private theorem receipt_follows (blake3 : Bytes → Digest) {saveRoot path : PathBuf} (id : String)
    (strategy : FileConflictStrategy) (r : Receipt)
    (valid : validateRelPath r.item.relPath.toList saveRoot = .ok path) :
    Obeys (follow strategy r.item (places strategy (r.item, path))) true
      (r.prog blake3 saveRoot id) fun _ _ => True := by
  unfold Receipt.prog receiveOneFile
  rw [valid]
  intro config
  by_cases hconfig : config.fileConflictStrategy = strategy
  · refine ⟨true, by rw [follow, decide_eq_true hconfig], ?_⟩
    subst hconfig
    refine follow_keeps ?_
    simp only [ret_bind]
    cases htype : r.item.fileType with
    | directory => exact receiveDirectory_keeps blake3 r.item (by simp [places, htype]) _
    | regularFile =>
      have looked := (resolveConflictPath_spec path config.fileConflictStrategy).mono
        (fun o ho => show keepsTo r.item (places config.fileConflictStrategy (r.item, path)) o by
          obtain ⟨p, rfl⟩ := looks_metadata o ho
          exact fun q hq => absurd hq List.not_mem_nil) fun _ h => h
      refine looked.bind fun found hfound => ?_
      rcases found with e | (_ | final)
      · trivial
      · trivial
      · have hmem := hfound final rfl
        refine receiveRegular_keeps blake3 r.item id _ htype ?_ ?_ _
        · simp only [places, htype]
          exact List.mem_append_left _ hmem
        · simp only [places, htype]
          exact List.mem_append_right _ (List.mem_map_of_mem hmem)
  · exact ⟨false, by rw [follow, decide_eq_false hconfig], follow_stray _⟩

private def taskMoves (strategy : FileConflictStrategy) (path : Receipt → PathBuf)
    (receipts : List Receipt) (i : ℕ) : Automaton Op Op.Resp Bool :=
  match receipts[i]? with
  | some r => follow strategy r.item (places strategy (r.item, path r))
  | none => fun phase _ _ => some phase

private theorem taskMoves_step {path : Receipt → PathBuf} {receipts : List Receipt} {i : ℕ} {o : Op}
    {x : Ans} {w w' : World} {r : o.Resp} {phase : Bool}
    (done : exec i o x w = some (w', r))
    (moved : taskMoves w.config.fileConflictStrategy path receipts i true o r = some phase) :
    phase = true := by
  cases found : receipts[i]? with
  | none =>
    simp only [taskMoves, found] at moved
    exact (Option.some.inj moved).symm
  | some s =>
    simp only [taskMoves, found] at moved
    cases o with
    | env e =>
      cases e with
      | config =>
        obtain ⟨w₁, ran, -⟩ := exec_inv done
        obtain rfl : w.config = r := congrArg Prod.snd (Option.some.inj ran)
        simpa [follow] using moved.symm
      | _ => exact (Option.some.inj moved).symm
    | fs g =>
      simp only [follow] at moved
      split_ifs at moved
      exact (Option.some.inj moved).symm
    | _ => exact (Option.some.inj moved).symm

private theorem mem_places_of_run (blake3 : Bytes → Digest) {saveRoot : PathBuf} {id : String}
    {w : World} {receipts : List Receipt} {path : Receipt → PathBuf}
    (valid : ∀ r ∈ receipts, validateRelPath r.item.relPath.toList saveRoot = .ok (path r))
    {t : Pool Op Op.Resp World TaskResult}
    (run : Run exec free ⟨w, receipts.map (Receipt.prog blake3 saveRoot id)⟩ t) {i : ℕ} {r : Receipt}
    (here : receipts[i]? = some r) {k : Key} (hk : k ∈ uses r.item (t.threads[i]?)) :
    ∃ q ∈ places w.config.fileConflictStrategy (r.item, path r), q.resolve = k := by
  have start : Tracked (taskMoves w.config.fileConflictStrategy path receipts) (fun _ _ _ => True)
      (fun _ => true) (receipts.map (Receipt.prog blake3 saveRoot id)) := by
    intro j x hx
    rw [List.getElem?_map] at hx
    obtain ⟨s, found, rfl⟩ := Option.map_eq_some_iff.mp hx
    rw [taskMoves, found]
    exact receipt_follows blake3 id _ s (valid s (List.mem_of_getElem? found))
  obtain ⟨φ, tracked, -, known⟩ := Run.tracked run
    (fun φ w' => w'.config = w.config ∧ ∀ j, φ j = true) start ⟨rfl, fun _ => rfl⟩ (by
      intro φ j o x w₁ w₂ a phase hK _ done moved
      obtain ⟨hconfig, known⟩ := hK
      rw [known j, ← hconfig] at moved
      obtain ⟨w₃, ran, logged⟩ := exec_inv done
      refine ⟨?_, fun l => ?_⟩
      · rw [logged]
        exact (frame_execOp ran).config.trans hconfig
      · by_cases hl : l = j
        · subst hl
          rw [Function.update_self]
          exact taskMoves_step done moved
        · rw [Function.update_of_ne hl]
          exact known l)
  cases hthread : t.threads[i]? with
  | none => simp [hthread, uses] at hk
  | some y =>
    have obeys := tracked i y hthread
    rw [known i, taskMoves, here] at obeys
    cases y with
    | pure a => simp [hthread, uses] at hk
    | op o cont =>
      cases o with
      | fs g =>
        obtain ⟨phase, moved, -⟩ := obeys (g.exec ∅).answer
        simp only [follow] at moved
        split_ifs at moved with keeps
        rw [hthread] at hk
        obtain ⟨q, hq, rfl⟩ := List.mem_map.mp hk
        exact ⟨q, keeps q hq, rfl⟩
      | _ => simp [hthread, uses] at hk

theorem valid_of_mem_dispatch {saveRoot : PathBuf} {seen : List PathBuf}
    {items : List FileItem} {task : FileItem × PathBuf} (h : task ∈ dispatch saveRoot seen items) :
    validateRelPath task.1.relPath.toList saveRoot = .ok task.2 ∧ task.2 ∉ seen := by
  induction items generalizing seen with
  | nil => cases h
  | cons item rest ih =>
    unfold dispatch at h
    split at h
    · exact ih h
    · rename_i path valid
      split_ifs at h with taken
      · exact ih h
      · rcases List.mem_cons.mp h with rfl | later
        · exact ⟨valid, taken⟩
        · obtain ⟨hvalid, hnew⟩ := ih later
          exact ⟨hvalid, fun hseen => hnew (List.mem_cons_of_mem path hseen)⟩

private theorem nodup_dispatch (saveRoot : PathBuf) (seen : List PathBuf) (items : List FileItem) :
    ((dispatch saveRoot seen items).map Prod.snd).Nodup := by
  induction items generalizing seen with
  | nil => exact List.nodup_nil
  | cons item rest ih =>
    unfold dispatch
    split
    · exact ih seen
    · rename_i path _
      split_ifs
      · exact ih seen
      · rw [List.map_cons, List.nodup_cons]
        refine ⟨fun member => ?_, ih (path :: seen)⟩
        obtain ⟨task, htask, same⟩ := List.mem_map.mp member
        have hnew := (valid_of_mem_dispatch htask).2
        rw [same] at hnew
        exact hnew List.mem_cons_self

def pathOf (saveRoot : PathBuf) (item : FileItem) : PathBuf :=
  match validateRelPath item.relPath.toList saveRoot with
  | .ok path => path
  | .error _ => saveRoot

theorem task_of_receipt {saveRoot : PathBuf} {items : List FileItem}
    {receipts : List Receipt}
    (offered : receipts.map Receipt.item = (dispatch saveRoot [] items).map Prod.fst) {i : ℕ}
    {r : Receipt} (here : receipts[i]? = some r) :
    (dispatch saveRoot [] items)[i]? = some (r.item, pathOf saveRoot r.item) ∧
      validateRelPath r.item.relPath.toList saveRoot = .ok (pathOf saveRoot r.item) := by
  have hitem : ((dispatch saveRoot [] items).map Prod.fst)[i]? = some r.item := by
    rw [← offered, List.getElem?_map, here, Option.map_some]
  rw [List.getElem?_map] at hitem
  obtain ⟨task, found, same⟩ := Option.map_eq_some_iff.mp hitem
  obtain ⟨valid, -⟩ := valid_of_mem_dispatch (List.mem_of_getElem? found)
  obtain ⟨item, path⟩ := task
  obtain rfl : item = r.item := same
  have hpath : pathOf saveRoot r.item = path := by
    unfold pathOf
    simp only at valid
    rw [valid]
  rw [hpath]
  exact ⟨found, valid⟩

private theorem apart_of_separate (blake3 : Bytes → Digest) {saveRoot : PathBuf} (id : String)
    {items : List FileItem} {w : World}
    (separate : Separate w.config.fileConflictStrategy (dispatch saveRoot [] items))
    {receipts : List Receipt}
    (offered : receipts.map Receipt.item = (dispatch saveRoot [] items).map Prod.fst) :
    Apart blake3 saveRoot id w receipts := by
  intro t u before after i j r s hij hr hs k hk hk'
  have valid : ∀ r ∈ receipts, validateRelPath r.item.relPath.toList saveRoot =
      .ok (pathOf saveRoot r.item) := by
    intro r hr
    obtain ⟨l, hl⟩ := List.mem_iff_getElem?.mp hr
    exact (task_of_receipt offered hl).2
  obtain ⟨q, hq, rfl⟩ := mem_places_of_run blake3 valid before hr hk
  obtain ⟨q', hq', same⟩ := mem_places_of_run blake3 valid (before.trans after) hs hk'
  exact separate i j _ _ hij (task_of_receipt offered hr).1 (task_of_receipt offered hs).1 q hq q'
    hq' same.symm

section Colliding

/-- A directory with these files in it, below directories that lead to it. -/
private def crowd (front : List Name) : List Name → Tree
  | [] => dirTree front.inits
  | n :: names => (crowd front names).insert (front ++ [n]) (.file [])

private theorem look_crowd (front names : List Name) (n : Name) :
    look (crowd front names) (front ++ [n]) = if n ∈ names then some (.file []) else none := by
  induction names with
  | nil =>
    have hlong : front ++ [n] ∉ front.inits := by
      rw [List.mem_inits]
      intro pre
      have hlen := pre.length_le
      rw [List.length_append, List.length_singleton] at hlen
      omega
    simp [crowd, look_dirTree, hlong]
  | cons m names ih =>
    rw [crowd, look_insert _ _ _ _ (by simp), ih]
    by_cases same : n = m
    · simp [same]
    · simp [same]

private theorem isDir_crowd {front : List Name} (names : List Name) {k : Key} (h : k <+: front) :
    isDir (crowd front names) k = true := by
  induction names with
  | nil => exact isDir_dirTree.mpr (.inr ((List.mem_inits k front).mpr h))
  | cons m names ih =>
    have hnew : isDir (crowd front names) (front ++ [m]) = false := by
      unfold isDir
      rw [look_crowd]
      split_ifs <;> rfl
    rw [crowd, isDir_insert_file_eq hnew]
    exact ih

private theorem survey_absent {t : Tree} {desired : PathBuf} (strategy : FileConflictStrategy)
    (absent : look t desired.resolve = none) :
    survey t (resolveConflictPath desired strategy) = some (.ok (some desired)) := by
  simp only [resolveConflictPath, fs, bind_def, perform_bind, survey, absent, Option.map_none]
  rfl

private theorem survey_allocate {t : Tree} {desired : PathBuf} {x : ℕ}
    (absent : look t (candidate desired x).resolve = none) (left idx : ℕ) (hle : idx ≤ x)
    (hlt : x < idx + left)
    (present : ∀ y, idx ≤ y → y < x → (look t (candidate desired y).resolve).isSome = true) :
    survey t (allocateRenamed desired (desired.parent.getD (.ofText ['.']))
      (splitFileName desired).1 (splitFileName desired).2 left idx) =
        some (.ok (some (candidate desired x))) := by
  induction left generalizing idx with
  | zero => omega
  | succ left ih =>
    simp only [allocateRenamed, fs, bind_def, perform_bind, survey]
    rw [← candidate]
    by_cases here : idx = x
    · subst here
      rw [absent]
      rfl
    · obtain ⟨node, found⟩ := Option.isSome_iff_exists.mp (present idx le_rfl (by omega))
      rw [found]
      exact ih (idx + 1) (by omega) (by omega) fun y hy => present y (by omega)

private theorem survey_renamed {t : Tree} {desired : PathBuf} {x : ℕ} (hpos : 1 ≤ x)
    (hle : x ≤ 9999) (taken : (look t desired.resolve).isSome = true)
    (absent : look t (candidate desired x).resolve = none)
    (present : ∀ y, 1 ≤ y → y < x → (look t (candidate desired y).resolve).isSome = true) :
    survey t (resolveConflictPath desired .rename) = some (.ok (some (candidate desired x))) := by
  obtain ⟨node, found⟩ := Option.isSome_iff_exists.mp taken
  simp only [resolveConflictPath, fs, bind_def, perform_bind, survey, found, Option.map_some]
  exact survey_allocate absent 9999 1 hpos (by omega) present

variable {blake3 : Bytes → Digest} {saveRoot : PathBuf} {id : String} {i : ℕ} {w : World}
variable {front : List Name} {n m : Name}

private def brief (blake3 : Bytes → Digest) (item : FileItem) : Receipt :=
  ⟨item, .complete ⟨item.fileId, blake3 []⟩, []⟩

private theorem reaches_create {P : Code TaskResult → World → Prop} {item : FileItem}
    (regular : item.fileType = .regularFile)
    (valid : validateRelPath item.relPath.toList saveRoot = .ok ((PathBuf.absolute front).child n))
    (surveyed : survey w.fs (resolveConflictPath ((PathBuf.absolute front).child n)
      w.config.fileConflictStrategy) = some (.ok (some ((PathBuf.absolute front).child m))))
    (dirs : ∀ k, k <+: front → isDir w.fs k = true)
    (absent : look w.fs (front ++ [tempName m]) = none)
    (later : ∀ w', w'.fs = w.fs → w'.config = w.config → Reaches exec free i P
      (.op (.fs (.createFile ((PathBuf.absolute front).child (tempName m)))) fun r =>
        match (some r : Option (Except IoError Unit)) with
        | none => pure .panicked
        | some (.error e) => failWith item (ioErrorCode e)
        | some (.ok ()) => receiveLoop blake3 item id w.config.fileConflictStrategy
            ((PathBuf.absolute front).child m) ((PathBuf.absolute front).child (tempName m)) []
            (brief blake3 item).messages) w') :
    Reaches exec free i P ((brief blake3 item).prog blake3 saveRoot id) w := by
  have hmade : (FsOp.createDirAll (.absolute front)).exec w.fs = ⟨w.fs, .ok (), []⟩ := by
    refine makeDirs_of_isDir fun k hk => dirs k ?_
    obtain ⟨q, hq, rfl⟩ := List.mem_map.mp hk
    exact resolve_of_mem_ancestors_absolute hq
  simp only [brief, Receipt.prog, receiveOneFile, valid, regular]
  refine reaches_env ⟨0, .unit⟩ rfl fun w₁ h₁ => ?_
  rw [← h₁.fs] at surveyed
  refine reaches_survey surveyed fun w₂ h₂ => ?_
  have h₂ := h₁.trans h₂
  simp only [receiveRegular, parent_child, tempPathFor_child]
  refine reaches_fs fun w₃ h₃ hfs₃ _ => ?_
  rw [h₂.fs, hmade] at hfs₃ ⊢
  refine reaches_fs fun w₄ h₄ hfs₄ _ => ?_
  have hfs₄ : w₄.fs = w.fs := hfs₄.trans hfs₃
  refine reaches_fs fun w₅ h₅ hfs₅ _ => ?_
  have hfs₅ : w₅.fs = w.fs := hfs₅.trans hfs₄
  have hnone : ((FsOp.metadata ((PathBuf.absolute front).child (tempName m))).exec w₄.fs).answer =
      none := by
    simp only [FsOp.exec, hfs₄, resolve_child, resolve_absolute, absent, Option.map_none]
  rw [hnone]
  have hconfig := ((h₂.toAlike.trans h₃).trans h₄).trans h₅
  exact later w₅ hfs₅ hconfig.config

/-- The task of a regular file comes to the point where it moves its part file into place. -/
private theorem reaches_rename {item : FileItem} (regular : item.fileType = .regularFile)
    (valid : validateRelPath item.relPath.toList saveRoot = .ok ((PathBuf.absolute front).child n))
    (surveyed : survey w.fs (resolveConflictPath ((PathBuf.absolute front).child n)
      w.config.fileConflictStrategy) = some (.ok (some ((PathBuf.absolute front).child m))))
    (dirs : ∀ k, k <+: front → isDir w.fs k = true)
    (absent : look w.fs (front ++ [m]) = none)
    (absentTemp : look w.fs (front ++ [tempName m]) = none) :
    Reaches exec free i (fun x _ => front ++ [m] ∈ uses item (some x))
      ((brief blake3 item).prog blake3 saveRoot id) w := by
  refine reaches_create regular valid surveyed dirs absentTemp fun w₁ hfs₁ _ => ?_
  have member : front ++ [m] ∈ (works item (.rename ((PathBuf.absolute front).child (tempName m))
      ((PathBuf.absolute front).child m))).map PathBuf.resolve := by
    simp [works]
  have vacant : isDir w₁.fs ((PathBuf.absolute front).child (tempName m)).resolve = false := by
    rw [resolve_child, resolve_absolute, isDir, hfs₁, absentTemp]
  have parent : isDir w₁.fs
      ((PathBuf.absolute front).child (tempName m)).resolve.dropLast = true := by
    rw [resolve_child, resolve_absolute, List.dropLast_concat, hfs₁]
    exact dirs front List.prefix_rfl
  refine reaches_fs fun w₂ _ hfs₂ _ => ?_
  rw [exec_createFile vacant parent] at hfs₂ ⊢
  simp only [brief, Receipt.messages, receiveLoop, ne_eq, not_true_eq_false, if_false]
  refine reaches_fs fun w₃ _ hfs₃ _ => ?_
  change Reaches exec free i _ (placeFile item w.config.fileConflictStrategy
    ((PathBuf.absolute front).child m) ((PathBuf.absolute front).child (tempName m))) w₃
  unfold placeFile
  by_cases hover : w.config.fileConflictStrategy = .overwrite
  · rw [if_pos hover]
    refine reaches_fs fun w₄ _ _ _ => ?_
    have hfs₃ : w₃.fs = w₂.fs := hfs₃
    have hnone : ((FsOp.metadata ((PathBuf.absolute front).child m)).exec w₃.fs).answer = none := by
      have hname : m ≠ tempName m := by
        intro same
        have hlen := tempName_length m
        rw [← same] at hlen
        omega
      simp only [FsOp.exec, hfs₃, hfs₂, resolve_child, resolve_absolute]
      rw [look_insert _ _ _ _ (by simp), if_neg (by simpa using hname), hfs₁, absent,
        Option.map_none]
    rw [hnone]
    exact .now member
  · rw [if_neg hover]
    exact .now member

private theorem reaches_mkdir {item : FileItem} {path : PathBuf}
    (directory : item.fileType = .directory)
    (valid : validateRelPath item.relPath.toList saveRoot = .ok path) :
    Reaches exec free i
      (fun x w' => (w'.fs = w.fs ∧ w'.config = w.config) ∧ path.resolve ∈ uses item (some x))
      ((brief blake3 item).prog blake3 saveRoot id) w := by
  simp only [brief, Receipt.prog, receiveOneFile, valid, directory]
  refine reaches_env ⟨0, .unit⟩ rfl fun w₁ h₁ => ?_
  simp only [ret_bind, receiveDirectory, ne_eq, not_true_eq_false, if_false]
  refine .now ⟨⟨h₁.fs, h₁.config⟩, ?_⟩
  simp [uses, works, fs, perform, directory]

private theorem not_apart {receipts : List Receipt} {j : ℕ} {r s : Receipt} {k : Key} (hij : i ≠ j)
    (hr : receipts[i]? = some r) (hs : receipts[j]? = some s)
    (first : Reaches exec free i
      (fun x w' => (w'.fs = w.fs ∧ w'.config = w.config) ∧ k ∈ uses r.item (some x))
      (r.prog blake3 saveRoot id) w)
    (second : ∀ w', w'.fs = w.fs → w'.config = w.config → Reaches exec free j
      (fun x _ => k ∈ uses s.item (some x)) (s.prog blake3 saveRoot id) w') :
    ¬ Apart blake3 saveRoot id w receipts := by
  intro apart
  have hri : (receipts.map (Receipt.prog blake3 saveRoot id))[i]? =
      some (r.prog blake3 saveRoot id) := by
    rw [List.getElem?_map, hr, Option.map_some]
  have hsj : (receipts.map (Receipt.prog blake3 saveRoot id))[j]? =
      some (s.prog blake3 saveRoot id) := by
    rw [List.getElem?_map, hs, Option.map_some]
  obtain ⟨x, w₁, run₁, ⟨hfs, hconfig⟩, hk⟩ := first.exists_run hri
  have hsj' : ((receipts.map (Receipt.prog blake3 saveRoot id)).set i x)[j]? =
      some (s.prog blake3 saveRoot id) := by
    rw [List.getElem?_set_ne hij, hsj]
  obtain ⟨y, w₂, run₂, hk'⟩ := (second w₁ hfs hconfig).exists_run hsj'
  have hi := (List.getElem?_eq_some_iff.mp hri).1
  have hj := (List.getElem?_eq_some_iff.mp hsj').1
  refine apart _ _ run₁ run₂ i j r s hij hr hs k ?_ ?_
  · rw [List.getElem?_set_self hi]
    exact hk
  · rw [List.getElem?_set_self hj]
    exact hk'

private def Choice (strategy : FileConflictStrategy) (n m : Name) : Prop :=
  m = n ∨ strategy = .rename ∧ ∃ x, 1 ≤ x ∧ x ≤ 9999 ∧ m = renamed n x

/-- A directory in which the strategy makes that choice, and neither the chosen name nor the names
of part files made from it are taken. -/
private theorem Choice.exists_crowd {strategy : FileConflictStrategy} (choice : Choice strategy n m)
    (front : List Name) :
    ∃ names, survey (crowd front names)
        (resolveConflictPath ((PathBuf.absolute front).child n) strategy) =
          some (.ok (some ((PathBuf.absolute front).child m))) ∧
      m ∉ names ∧ ∀ l, tempName l ∉ names ∨ tempName l = n := by
  rcases choice with rfl | ⟨rfl, x, hpos, hle, rfl⟩
  · refine ⟨[], survey_absent _ ?_, List.not_mem_nil, fun _ => .inl List.not_mem_nil⟩
    rw [resolve_child, resolve_absolute, look_crowd, if_neg List.not_mem_nil]
  · have fresh : renamed n x ∉ n :: (List.range (x - 1)).map fun y => renamed n (y + 1) := by
      intro member
      rcases List.mem_cons.mp member with same | member
      · have hlen := renamed_length n x
        rw [same] at hlen
        omega
      · obtain ⟨y, hy, same⟩ := List.mem_map.mp member
        have hxy := (renamed_injective same).2
        have hlt := List.mem_range.mp hy
        omega
    refine ⟨n :: (List.range (x - 1)).map fun y => renamed n (y + 1), ?_, fresh, fun l => ?_⟩
    · rw [← candidate_child]
      refine survey_renamed hpos hle ?_ ?_ fun y hy hlt => ?_
      · rw [resolve_child, resolve_absolute, look_crowd, if_pos List.mem_cons_self]
        rfl
      · rw [candidate_child, resolve_child, resolve_absolute, look_crowd, if_neg fresh]
      · have member : renamed n y ∈ (List.range (x - 1)).map fun y => renamed n (y + 1) := by
          refine List.mem_map.mpr ⟨y - 1, List.mem_range.mpr (by omega), ?_⟩
          rw [Nat.sub_add_cancel hy]
        rw [candidate_child, resolve_child, resolve_absolute, look_crowd,
          if_pos (List.mem_cons_of_mem n member)]
        rfl
    · by_cases hl : tempName l = n
      · exact .inr hl
      · refine .inl fun member => ?_
        rcases List.mem_cons.mp member with same | member
        · exact hl same
        · obtain ⟨y, -, same⟩ := List.mem_map.mp member
          exact renamed_ne_tempName n l (y + 1) same

private def crowded (strategy : FileConflictStrategy) (front names : List Name) : World :=
  { World.start { AppConfig.standard with fileConflictStrategy := strategy } with
    fs := crowd front names }

private theorem Choice.length_le {strategy : FileConflictStrategy} (choice : Choice strategy n m) :
    n.text.length ≤ m.text.length := by
  rcases choice with rfl | ⟨-, x, -, -, rfl⟩
  · exact le_rfl
  · exact (renamed_length n x).le

/-- A regular file that may be given the name of another item, or a part file of that name, is
not apart from it. -/
private theorem collision {strategy : FileConflictStrategy} {receipts : List Receipt} {j : ℕ}
    {a b : FileItem} {n' : Name} (hij : i ≠ j) (ha : receipts[i]? = some (brief blake3 a))
    (hb : receipts[j]? = some (brief blake3 b)) (regular : a.fileType = .regularFile)
    (validA : validateRelPath a.relPath.toList saveRoot = .ok ((PathBuf.absolute front).child n))
    (validB : validateRelPath b.relPath.toList saveRoot = .ok ((PathBuf.absolute front).child n'))
    (choice : Choice strategy n m) (clash : n' = m ∨ n' = tempName m) :
    ∃ w, w.config.fileConflictStrategy = strategy ∧ ¬ Apart blake3 saveRoot id w receipts := by
  obtain ⟨names, surveyed, fresh, freshTemp⟩ := choice.exists_crowd front
  refine ⟨crowded strategy front names, rfl, ?_⟩
  have dirs (k : Key) (hk : k <+: front) : isDir (crowded strategy front names).fs k = true :=
    isDir_crowd names hk
  have absent {l : Name} (hl : l ∉ names) :
      look (crowded strategy front names).fs (front ++ [l]) = none := by
    exact (look_crowd front names l).trans (if_neg hl)
  have hlen := choice.length_le
  have hm := tempName_length m
  have hmm := tempName_length (tempName m)
  have fresh₁ : tempName m ∉ names := (freshTemp m).resolve_right fun same => by
    rw [same] at hm
    omega
  have fresh₂ : tempName (tempName m) ∉ names := (freshTemp (tempName m)).resolve_right
    fun same => by
      rw [same] at hmm
      omega
  have freshB : n' ∉ names ∧ tempName n' ∉ names := by
    rcases clash with rfl | rfl
    · exact ⟨fresh, fresh₁⟩
    · exact ⟨fresh₁, fresh₂⟩
  have surveyedB : survey (crowded strategy front names).fs
      (resolveConflictPath ((PathBuf.absolute front).child n') strategy) =
        some (.ok (some ((PathBuf.absolute front).child n'))) := by
    refine survey_absent strategy ?_
    rw [resolve_child, resolve_absolute]
    exact absent freshB.1
  have creates : Reaches exec free i (fun x w' => (w'.fs = (crowded strategy front names).fs ∧
      w'.config = (crowded strategy front names).config) ∧
        front ++ [tempName m] ∈ uses (brief blake3 a).item (some x))
      ((brief blake3 a).prog blake3 saveRoot id) (crowded strategy front names) := by
    refine reaches_create regular validA surveyed dirs (absent fresh₁) fun w' hfs hconfig => ?_
    refine .now ⟨⟨hfs, hconfig⟩, ?_⟩
    simp [uses, works]
  have mkdirs (w : World) (directory : b.fileType = .directory) : Reaches exec free j
      (fun x w' => (w'.fs = w.fs ∧ w'.config = w.config) ∧
        front ++ [n'] ∈ uses (brief blake3 b).item (some x))
      ((brief blake3 b).prog blake3 saveRoot id) w := by
    refine (reaches_mkdir directory validB).mono fun x w' h => ?_
    rwa [resolve_child, resolve_absolute] at h
  rcases clash with rfl | rfl
  · cases htype : b.fileType with
    | regularFile =>
      refine not_apart hij ha hb creates fun w' hfs hconfig => ?_
      refine reaches_create htype validB (by rw [hfs, hconfig]; exact surveyedB)
        (by rw [hfs]; exact dirs) (by rw [hfs]; exact absent fresh₁) fun w'' _ _ => .now ?_
      simp [uses, works]
    | directory =>
      refine not_apart (Ne.symm hij) hb ha (mkdirs _ htype) fun w' hfs hconfig => ?_
      exact reaches_rename regular validA (by rw [hfs, hconfig]; exact surveyed)
        (by rw [hfs]; exact dirs) (by rw [hfs]; exact absent fresh)
        (by rw [hfs]; exact absent fresh₁)
  · refine not_apart hij ha hb creates fun w' hfs hconfig => ?_
    cases htype : b.fileType with
    | regularFile =>
      exact reaches_rename htype validB (by rw [hfs, hconfig]; exact surveyedB)
        (by rw [hfs]; exact dirs) (by rw [hfs]; exact absent fresh₁)
        (by rw [hfs]; exact absent fresh₂)
    | directory => exact (mkdirs w' htype).mono fun x w'' h => h.2

/-- A place of an item is a name that may be chosen for it, or the part file of one. -/
private theorem mem_places_child {strategy : FileConflictStrategy} {item : FileItem} {p q : PathBuf}
    (h : q ∈ places strategy (item, p.child n)) :
    ∃ m, Choice strategy n m ∧ (item.fileType = .regularFile ∨ m = n) ∧
      (q = p.child m ∨ item.fileType = .regularFile ∧ q = p.child (tempName m)) := by
  have choose {f : PathBuf} (hf : f ∈ finals strategy (p.child n)) :
      ∃ m, Choice strategy n m ∧ f = p.child m := by
    rcases mem_finals.mp hf with rfl | ⟨hrename, x, hpos, hle, rfl⟩
    · exact ⟨n, .inl rfl, rfl⟩
    · exact ⟨renamed n x, .inr ⟨hrename, x, hpos, hle, rfl⟩, candidate_child p n x⟩
  unfold places at h
  cases htype : item.fileType with
  | directory =>
    rw [htype] at h
    exact ⟨n, .inl rfl, .inr rfl, .inl (List.mem_singleton.mp h)⟩
  | regularFile =>
    rw [htype] at h
    rcases List.mem_append.mp h with final | temp
    · obtain ⟨m, choice, rfl⟩ := choose final
      exact ⟨m, choice, .inl rfl, .inl rfl⟩
    · obtain ⟨f, hf, rfl⟩ := List.mem_map.mp temp
      obtain ⟨m, choice, rfl⟩ := choose hf
      exact ⟨m, choice, .inl rfl, .inr ⟨rfl, tempPathFor_child p m⟩⟩

/-- Two items with different names that may share an entry: one of them is a regular file that
may be given the other's name or make a part file of it. -/
private theorem clash_of_shared {strategy : FileConflictStrategy} {a b : FileItem} {n n' : Name}
    {p q q' : PathBuf} (hq : q ∈ places strategy (a, p.child n))
    (hq' : q' ∈ places strategy (b, p.child n')) (same : q.resolve = q'.resolve)
    (apart : n ≠ n') :
    (a.fileType = .regularFile ∧ ∃ m, Choice strategy n m ∧ (n' = m ∨ n' = tempName m)) ∨
      (b.fileType = .regularFile ∧ ∃ m, Choice strategy n' m ∧ (n = m ∨ n = tempName m)) := by
  obtain ⟨m, choice, typeA, hm⟩ := mem_places_child hq
  obtain ⟨m', choice', typeB, hm'⟩ := mem_places_child hq'
  have agree (hsame : m = m') : (a.fileType = .regularFile ∧ ∃ m, Choice strategy n m ∧
      (n' = m ∨ n' = tempName m)) ∨ (b.fileType = .regularFile ∧ ∃ m, Choice strategy n' m ∧
      (n = m ∨ n = tempName m)) := by
    subst hsame
    by_cases hn' : m = n'
    · rcases typeA with regular | hn
      · exact .inl ⟨regular, m, choice, .inl hn'.symm⟩
      · exact absurd (hn.symm.trans hn') apart
    · by_cases hn : m = n
      · exact .inr ⟨typeB.resolve_right hn', m, choice', .inl hn.symm⟩
      · obtain ⟨-, x, -, -, hx⟩ := choice.resolve_left hn
        obtain ⟨-, y, -, -, hy⟩ := choice'.resolve_left hn'
        exact absurd (renamed_injective (hx.symm.trans hy)).1 apart
  rcases hm with rfl | ⟨regular, rfl⟩ <;> rcases hm' with rfl | ⟨regular', rfl⟩
  · exact agree (by simpa using same)
  · have hname : m = tempName m' := by simpa using same
    rcases choice with rfl | ⟨-, x, -, -, rfl⟩
    · exact .inr ⟨regular', m', choice', .inr hname⟩
    · exact absurd hname (renamed_ne_tempName n m' x)
  · have hname : tempName m = m' := by simpa using same
    rcases choice' with rfl | ⟨-, x, -, -, rfl⟩
    · exact .inl ⟨regular, m, choice, .inr hname.symm⟩
    · exact absurd hname.symm (renamed_ne_tempName n' m x)
  · have hname : tempName m = tempName m' := by simpa using same
    exact agree (tempName_injective hname)

private theorem exists_child {saveRoot : PathBuf} (abs : saveRoot.isAbsolute = true)
    (below : saveRoot.resolve ≠ []) {relPath : List Char} {path : PathBuf}
    (valid : validateRelPath relPath saveRoot = .ok path) :
    ∃ front n, path = (PathBuf.absolute front).child n := by
  obtain ⟨names, rfl⟩ := validateRelPath_ok abs valid
  rcases List.eq_nil_or_concat' (saveRoot.resolve ++ names) with nil | ⟨front, n, hf⟩
  · exact absurd (List.append_eq_nil_iff.mp nil).1 below
  · exact ⟨front, n, by rw [hf, absolute_append]⟩

private theorem separate_of_apart (blake3 : Bytes → Digest) {saveRoot : PathBuf} (id : String)
    (abs : saveRoot.isAbsolute = true) (below : saveRoot.resolve ≠ []) {items : List FileItem}
    {strategy : FileConflictStrategy}
    (apart : ∀ (w : World) (receipts : List Receipt), w.config.fileConflictStrategy = strategy →
      receipts.map Receipt.item = (dispatch saveRoot [] items).map Prod.fst →
      Apart blake3 saveRoot id w receipts) :
    Separate strategy (dispatch saveRoot [] items) := by
  rintro i j ⟨a, va⟩ ⟨b, vb⟩ hij ha hb q hq q' hq' same
  have offered : (((dispatch saveRoot [] items).map fun task => brief blake3 task.1).map
      Receipt.item) = (dispatch saveRoot [] items).map Prod.fst := by
    rw [List.map_map]
    rfl
  have here {l : ℕ} {task : FileItem × PathBuf}
      (htask : (dispatch saveRoot [] items)[l]? = some task) :
      ((dispatch saveRoot [] items).map fun task => brief blake3 task.1)[l]? =
        some (brief blake3 task.1) := by
    rw [List.getElem?_map, htask, Option.map_some]
  obtain ⟨validA, -⟩ := valid_of_mem_dispatch (List.mem_of_getElem? ha)
  obtain ⟨validB, -⟩ := valid_of_mem_dispatch (List.mem_of_getElem? hb)
  have paths : va ≠ vb := by
    intro hv
    have hi : ((dispatch saveRoot [] items).map Prod.snd)[i]? = some va := by
      rw [List.getElem?_map, ha, Option.map_some]
    have hj : ((dispatch saveRoot [] items).map Prod.snd)[j]? = some va := by
      rw [List.getElem?_map, hb, Option.map_some, hv]
    have hlt := (List.getElem?_eq_some_iff.mp hi).1
    exact hij ((List.getElem?_inj hlt (nodup_dispatch saveRoot [] items)).mp (hi.trans hj.symm))
  obtain ⟨front, n, rfl⟩ := exists_child abs below validA
  obtain ⟨front', n', rfl⟩ := exists_child abs below validB
  have hfront : front = front' := by
    obtain ⟨m, -, -, hm⟩ := mem_places_child hq
    obtain ⟨m', -, -, hm'⟩ := mem_places_child hq'
    have hdrop := congrArg List.dropLast same
    rcases hm with rfl | ⟨-, rfl⟩ <;> rcases hm' with rfl | ⟨-, rfl⟩ <;>
      simpa using hdrop
  subst hfront
  have names : n ≠ n' := fun hn => paths (by rw [hn])
  suffices collides : ∃ w : World, w.config.fileConflictStrategy = strategy ∧
      ¬ Apart blake3 saveRoot id w ((dispatch saveRoot [] items).map fun task =>
        brief blake3 task.1) by
    obtain ⟨w, hw, hnot⟩ := collides
    exact hnot (apart w _ hw offered)
  rcases clash_of_shared hq hq' same names with ⟨regular, m, choice, clash⟩ |
    ⟨regular, m, choice, clash⟩
  · exact collision hij (here ha) (here hb) regular validA validB choice clash
  · exact collision (Ne.symm hij) (here hb) (here ha) regular validB validA choice clash

end Colliding

/-- Under a strategy, the tasks of a list of items never work on the same entry, whatever the
disk holds and whatever the streams bring, exactly when no two of them may. A save root that is
the top directory, or is not absolute, is covered in one direction only. -/
theorem receive_tasks_apart (blake3 : Bytes → Digest) (saveRoot : PathBuf) (id : String)
    (items : List FileItem) (strategy : FileConflictStrategy) :
    (Separate strategy (dispatch saveRoot [] items) →
      ∀ (w : World) (receipts : List Receipt), w.config.fileConflictStrategy = strategy →
        receipts.map Receipt.item = (dispatch saveRoot [] items).map Prod.fst →
        Apart blake3 saveRoot id w receipts) ∧
    (saveRoot.isAbsolute = true → saveRoot.resolve ≠ [] →
      (∀ (w : World) (receipts : List Receipt), w.config.fileConflictStrategy = strategy →
        receipts.map Receipt.item = (dispatch saveRoot [] items).map Prod.fst →
        Apart blake3 saveRoot id w receipts) →
      Separate strategy (dispatch saveRoot [] items)) := by
  refine ⟨?_, fun abs below apart => separate_of_apart blake3 id abs below apart⟩
  rintro separate w receipts rfl offered
  exact apart_of_separate blake3 id separate offered

private def named (fileId : ℕ) (relPath : String) : FileItem :=
  ⟨fileId, relPath, relPath, 0, .regularFile, 0, none, none⟩

private def twoPlain : List FileItem := [named 1 "a", named 2 "b"]

theorem receive_tasks_apart_plain :
    Separate .overwrite (dispatch sampleRoot [] twoPlain) ∧
      ∀ receipts : List Receipt,
        receipts.map Receipt.item = (dispatch sampleRoot [] twoPlain).map Prod.fst →
        Apart sampleHash sampleRoot "t1"
          (World.start { AppConfig.standard with fileConflictStrategy := .overwrite })
          receipts := by
  have separate : Separate .overwrite (dispatch sampleRoot [] twoPlain) := by
    intro i j a b hij ha hb
    have started : dispatch sampleRoot [] twoPlain =
        [(named 1 "a", sampleRoot.join (.ofText ['a'])),
          (named 2 "b", sampleRoot.join (.ofText ['b']))] := by decide
    rw [started] at ha hb
    have hi := (List.getElem?_eq_some_iff.mp ha).1
    have hj := (List.getElem?_eq_some_iff.mp hb).1
    simp only [List.length_cons, List.length_nil] at hi hj
    obtain ⟨rfl, rfl⟩ | ⟨rfl, rfl⟩ : (i = 0 ∧ j = 1) ∨ (i = 1 ∧ j = 0) := by omega
    · cases ha
      cases hb
      decide
    · cases ha
      cases hb
      decide
  refine ⟨separate, fun receipts offered => ?_⟩
  exact (receive_tasks_apart sampleHash sampleRoot "t1" twoPlain .overwrite).1 separate _ receipts
    rfl offered

/-- `a` is received into `a.dashdrop.part` while another item is put there. -/
theorem part_name_shared :
    ∃ t u, Run exec free ⟨World.start AppConfig.standard,
        [brief sampleHash (named 1 "a"), brief sampleHash (named 2 "a.dashdrop.part")].map
          (Receipt.prog sampleHash sampleRoot "t1")⟩ t ∧
      Run exec free t u ∧
      (sampleRoot.join (.ofText "a.dashdrop.part".toList)).resolve ∈
        uses (named 1 "a") (t.threads[0]?) ∧
      (sampleRoot.join (.ofText "a.dashdrop.part".toList)).resolve ∈
        uses (named 2 "a.dashdrop.part") (u.threads[1]?) ∧
      (dispatch sampleRoot [] [named 1 "a", named 2 "a.dashdrop.part"]).length = 2 ∧
      ¬ Apart sampleHash sampleRoot "t1" (World.start AppConfig.standard)
        [brief sampleHash (named 1 "a"), brief sampleHash (named 2 "a.dashdrop.part")] := by
  obtain ⟨t, before, usedA⟩ := exists_run_of_play exec unchecked_sound
    (⟨World.start AppConfig.standard,
      [brief sampleHash (named 1 "a"), brief sampleHash (named 2 "a.dashdrop.part")].map
        (Receipt.prog sampleHash sampleRoot "t1")⟩ : Pool Op Op.Resp World TaskResult)
    (List.replicate 5 (0, ⟨0, .unit⟩))
    (fun t => decide ((sampleRoot.join (.ofText "a.dashdrop.part".toList)).resolve ∈
      uses (named 1 "a") (t.threads[0]?)) && (t.play (restrict exec unchecked)
        (List.replicate 7 (1, ⟨0, .unit⟩))).any fun u =>
          decide ((sampleRoot.join (.ofText "a.dashdrop.part".toList)).resolve ∈
            uses (named 2 "a.dashdrop.part") (u.threads[1]?))) (by decide)
  obtain ⟨usedA, played⟩ := Bool.and_eq_true_iff.mp usedA
  obtain ⟨u, after, usedB⟩ := exists_run_of_play exec unchecked_sound t _ _ played
  have usedA := of_decide_eq_true usedA
  have usedB := of_decide_eq_true usedB
  refine ⟨t, u, before, after, usedA, usedB, by decide, fun apart => ?_⟩
  exact apart t u before after 0 1 _ _ (by decide) rfl rfl _ usedA usedB

end DashDrop.Receiving.Separation
