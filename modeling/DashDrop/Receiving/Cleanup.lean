/- GID: DashDrop/Receiving/Cleanup
   source: src-tauri/src/transport/receiver.rs
   anchors: []
   digest: When a failed receive takes its part file away. -/

import DashDrop.Receiving.Integrity
import DashDrop.Transport.Destinations

set_option autoImplicit false
set_option relaxedAutoImplicit false

namespace DashDrop.Receiving.Cleanup

open DashDrop.Foundation.UnixPath DashDrop.Foundation.FileTree
open DashDrop.Foundation.Program DashDrop.Foundation.Interleaving
open DashDrop.Transport.Protocol DashDrop.Transport.Outcome DashDrop.Transport.PathValidation
open DashDrop.Transport.Receiver DashDrop.Transport.DiskNames
open DashDrop.Transport.Destinations (survey_overwrite)
open DashDrop.Runtime.State DashDrop.Runtime.Machine DashDrop.Runtime.Footprint
open DashDrop.Runtime.Effects DashDrop.Runtime.Solo DashDrop.Receiving.Integrity

/-- Chunks of the item are followed by a chunk or a `Complete` of another one. -/
def Misaddressed (item : FileItem) : Stream → Prop
  | .ok (.chunk chunk) :: rest => chunk.fileId ≠ item.fileId ∨ Misaddressed item rest
  | .ok (.complete complete) :: _ => complete.fileId ≠ item.fileId
  | _ => False

def opens (temp : PathBuf) : (o : Op) → o.Resp → Prop
  | .fs (.createFile p), r => p = temp ∧ r = .ok ()
  | .fs (.openAppend p), r => p = temp ∧ r = .ok ()
  | _, _ => False

def removes (temp : PathBuf) : Guard Op World Ans :=
  fun _ o x _ => o = .fs (.removeFile temp) → ∀ e, x.reply ≠ .io e

instance (temp : PathBuf) : Plain (removes temp) := ⟨fun _ _ _ _ _ h => by cases h⟩

/-- Whatever is on the disk and whatever fails on the way, once the part file was open a failed
task leaves nothing in its place. -/
def LeavesNoPart (blake3 : Bytes → Digest) (item : FileItem) (saveRoot : PathBuf) (id : String)
    (firstMsg : DashMessage) (rest : Stream) : Prop :=
  ∀ (w : World) (temp : PathBuf) (a b t : Pool Op Op.Resp World TaskResult)
    (reason : Option ErrorCode),
    Run exec (removes temp) ⟨w, [receiveOneFile blake3 item firstMsg rest saveRoot id]⟩ a →
    Answered exec (removes temp) (opens temp) 0 a b → Run exec (removes temp) b t →
    t.result 0 = some (ackOf item false reason) → look t.world.fs temp.resolve = none

private theorem vacant_of_opened {temp : PathBuf} {i : ℕ} {o : Op} {x : Ans} {w w' : World}
    {r : o.Resp} (done : exec i o x w = some (w', r)) (here : opens temp o r) :
    isDir w'.fs temp.resolve = false := by
  obtain ⟨w₁, ran, logged⟩ := exec_inv done
  have same : w'.fs = w₁.fs := by rw [logged, log]
  rw [same]
  have performed {g : FsOp} {r : g.Resp} (ran : execOp x w (.fs g) = some (w₁, r))
      (open_ : ∀ e, g.refuse e ≠ some r) :
      w₁.fs = (g.exec w.fs).tree ∧ (g.exec w.fs).answer = r := by
    simp only [execOp, execFs] at ran
    split at ran
    · rename_i e _
      obtain ⟨r', refused, same⟩ := Option.map_eq_some_iff.mp ran
      cases same
      exact absurd refused (open_ e)
    · cases ran
      exact ⟨rfl, rfl⟩
  cases o with
  | fs g =>
    cases g with
    | createFile p =>
      obtain ⟨rfl, rfl⟩ := here
      obtain ⟨tree, answer⟩ := performed ran (by rintro e ⟨⟩)
      exact isDir_of_content ((congrArg (content · p.resolve) tree).trans (content_createAt answer))
    | openAppend p =>
      obtain ⟨rfl, rfl⟩ := here
      obtain ⟨tree, answer⟩ := performed ran (by rintro e ⟨⟩)
      cases held : content w.fs p.resolve with
      | none =>
        rw [exec_openAppend_none held] at answer
        cases answer
      | some c =>
        rw [exec_openAppend held] at tree
        exact isDir_of_content ((congrArg (content · p.resolve) tree).trans held)
    | _ => exact here.elim
  | _ => exact here.elim

variable {w : World} {item : FileItem}

private def Swept (item : FileItem) (temp : PathBuf) (r : TaskResult) (w : World) : Prop :=
  ∀ reason, r = ackOf item false reason → look w.fs temp.resolve = none

private theorem swept_ok {temp : PathBuf} : Swept item temp (ackOf item true none) w := by
  intro reason h
  cases h

private theorem vacant_exec {g : FsOp} {temp : PathBuf} (makes : ∀ p, g ≠ .createDirAll p) {w' : World}
    (hfs : w'.fs = (g.exec w.fs).tree) (vacant : isDir w.fs temp.resolve = false) :
    isDir w'.fs temp.resolve = false := by
  rw [← Bool.not_eq_true] at vacant ⊢
  rw [hfs]
  exact fun h => vacant (isDir_of_exec makes h)

private theorem abandon_swept {temp : PathBuf} (reason : ErrorCode)
    (vacant : isDir w.fs temp.resolve = false) :
    Delivers exec (removes temp) 0 (Swept item temp) (abandon item temp reason) w := by
  refine delivers_granted (fun x allowed => allowed rfl) fun w' _ hfs => ?_
  intro _ _
  rw [hfs]
  exact look_removeAt vacant

private theorem rename_swept {final temp : PathBuf} (vacant : isDir w.fs temp.resolve = false) :
    Delivers exec (removes temp) 0 (Swept item temp) (do
      match ← fs (.rename temp final) with
      | .error e => abandon item temp (ioErrorCode e)
      | .ok () => pure (ackOf item true none)) w := by
  refine delivers_fs (fun w' _ hfs => ?_) fun e r w' refused same => ?_
  · have vacant' := vacant_exec (by simp) hfs vacant
    cases ((FsOp.rename temp final).exec w.fs).answer with
    | error e => exact abandon_swept _ vacant'
    | ok _ => exact swept_ok
  · cases refused
    exact abandon_swept _ (by rwa [same.fs])

private theorem placeFile_swept (strategy : FileConflictStrategy) (final : PathBuf) {temp : PathBuf}
    (vacant : isDir w.fs temp.resolve = false) :
    Delivers exec (removes temp) 0 (Swept item temp) (placeFile item strategy final temp) w := by
  unfold placeFile
  by_cases hover : strategy = .overwrite
  · rw [if_pos hover]
    refine delivers_fs (fun w₁ _ hfs => ?_) fun e r w₁ refused _ => ?_
    · have vacant₁ := vacant_exec (by simp) hfs vacant
      cases ((FsOp.metadata final).exec w.fs).answer with
      | none => exact rename_swept vacant₁
      | some _ =>
        refine delivers_fs (fun w₂ _ hfs₂ => ?_) fun e r w₂ refused same => ?_
        · have vacant₂ := vacant_exec (by simp) hfs₂ vacant₁
          cases ((FsOp.removeFile final).exec w₁.fs).answer with
          | error e => exact abandon_swept _ vacant₂
          | ok _ => exact rename_swept vacant₂
        · cases refused
          exact abandon_swept _ (by rwa [same.fs])
    · cases refused
  · rw [if_neg hover]
    exact rename_swept vacant

/-- The loop, by induction on the stream: what is in the place of the part file is no directory. -/
private theorem receiveLoop_swept (blake3 : Bytes → Digest) (id : String)
    (strategy : FileConflictStrategy) (final : PathBuf) {temp : PathBuf} (messages : Stream)
    (hashed : Bytes) (addressed : ¬ Misaddressed item messages)
    (vacant : isDir w.fs temp.resolve = false) :
    Delivers exec (removes temp) 0 (Swept item temp)
      (receiveLoop blake3 item id strategy final temp hashed messages) w := by
  induction messages generalizing hashed w with
  | nil => exact abandon_swept _ vacant
  | cons m rest ih =>
    cases m with
    | error f => exact abandon_swept _ vacant
    | ok message =>
      cases message with
      | chunk chunk =>
        simp only [Misaddressed, not_or, not_not] at addressed
        simp only [receiveLoop, addressed.1, ne_eq, not_true_eq_false, if_false]
        refine delivers_fs (fun w₁ _ hfs => ?_) fun e r w₁ refused same => ?_
        · have vacant₁ := vacant_exec (by simp) hfs vacant
          cases ((FsOp.writeAll temp chunk.data).exec w.fs).answer with
          | error e => exact abandon_swept _ vacant₁
          | ok _ =>
            refine delivers_quiet (addProgress_quiet id _) fun _ w₂ same => ?_
            exact ih _ addressed.2 (by rwa [same.fs])
        · cases refused
          exact abandon_swept _ (by rwa [same.fs])
      | complete complete =>
        simp only [Misaddressed, not_not] at addressed
        simp only [receiveLoop, addressed, ne_eq, not_true_eq_false, if_false]
        refine delivers_fs (fun w₁ _ hfs => ?_) fun e r w₁ refused same => ?_
        · have vacant₁ := vacant_exec (by simp) hfs vacant
          by_cases matched : blake3 hashed = complete.fileHash
          · simp only [FsOp.exec, ret_bind, matched, not_true_eq_false, if_false]
            exact placeFile_swept strategy final vacant₁
          · simp only [FsOp.exec, ret_bind, matched, not_false_eq_true, if_true]
            exact abandon_swept _ vacant₁
        · cases refused
          exact abandon_swept _ (by rwa [same.fs])
      | _ => exact abandon_swept _ vacant

private def Sweeps (item : FileItem) (temp : PathBuf) (x : Code TaskResult) : Prop :=
  ∀ w : World, isDir w.fs temp.resolve = false →
    Delivers exec (removes temp) 0 (Swept item temp) x w

private theorem not_opens_of_filling {final p temp : PathBuf} (o : Op)
    (h : fillingOps final p o) (r : o.Resp) : ¬ opens temp o r := by
  cases o with
  | fs g =>
    cases g with
    | createFile | openAppend => exact h.elim
    | _ => exact id
  | _ => exact id

private theorem not_opens_of_looking {temp : PathBuf} (o : Op) (h : looksOnly o) (r : o.Resp) :
    ¬ opens temp o r := by
  obtain ⟨path, rfl⟩ := looks_metadata o h
  exact id

private theorem filled_after (blake3 : Bytes → Digest) (id : String)
    (strategy : FileConflictStrategy) (final temp : PathBuf) (messages : Stream)
    (addressed : ¬ Misaddressed item messages) :
    (receiveLoop blake3 item id strategy final (tempPathFor final) [] messages).After (opens temp)
        (Sweeps item temp) ∧
      (tempPathFor final = temp → Sweeps item temp
        (receiveLoop blake3 item id strategy final (tempPathFor final) [] messages)) := by
  constructor
  · have within := receiveLoop_within item id strategy final (tempPathFor final) blake3 [] messages
    exact within.after not_opens_of_filling
  · rintro rfl w vacant
    exact receiveLoop_swept blake3 id strategy final messages [] addressed vacant

private theorem receiveRegular_after (blake3 : Bytes → Digest) (id : String)
    (strategy : FileConflictStrategy) (final temp : PathBuf) (messages : Stream)
    (addressed : ¬ Misaddressed item messages) :
    (receiveRegular blake3 item id strategy final messages).After (opens temp)
      (Sweeps item temp) := by
  obtain ⟨quiet, sweeps⟩ := filled_after blake3 id strategy final temp messages addressed
  have filled : (fillPart item id strategy final blake3 messages).After (opens temp)
      (Sweeps item temp) := by
    refine fun _ => ⟨fun h => h.elim, ?_⟩
    have leftover := leftoverLength_within item final (tempPathFor final)
    refine leftover.after_bind not_opens_of_filling fun offset _ => ?_
    unfold openTemp
    split_ifs
    · intro r
      cases r with
      | ok u => exact ⟨fun here => sweeps here.1, quiet⟩
      | error e =>
        refine ⟨fun here => (by cases here.2), fun _ => ⟨fun h => h.elim, fun r => ?_⟩⟩
        cases r with
        | ok u => exact ⟨fun here => sweeps here.1, quiet⟩
        | error e => exact ⟨fun here => (by cases here.2), trivial⟩
    · intro r
      cases r with
      | ok u => exact ⟨fun here => sweeps here.1, quiet⟩
      | error e => exact ⟨fun here => (by cases here.2), trivial⟩
  unfold receiveRegular
  split
  · refine fun r => ⟨fun h => h.elim, ?_⟩
    cases r with
    | error e => trivial
    | ok u => exact filled
  · exact filled

private theorem receiveDirectory_after (blake3 : Bytes → Digest) (path temp : PathBuf)
    (firstMsg : DashMessage) (P : Code TaskResult → Prop) :
    (receiveDirectory blake3 item path firstMsg).After (opens temp) P := by
  cases firstMsg with
  | complete complete =>
    simp only [receiveDirectory]
    split_ifs
    · trivial
    · trivial
    · refine fun r => ⟨fun h => h.elim, ?_⟩
      cases r with
      | error e => trivial
      | ok u => trivial
  | _ => trivial

private theorem receiveOneFile_after (blake3 : Bytes → Digest) (saveRoot : PathBuf) (id : String)
    (firstMsg : DashMessage) (rest : Stream) (temp : PathBuf)
    (clean : ¬ (Misaddressed item (.ok firstMsg :: rest) ∧ item.fileType = .regularFile ∧
      ∃ path, validateRelPath item.relPath.toList saveRoot = .ok path)) :
    (receiveOneFile blake3 item firstMsg rest saveRoot id).After (opens temp)
      (Sweeps item temp) := by
  unfold receiveOneFile
  split
  · trivial
  · rename_i path valid
    refine fun config => ⟨fun h => h.elim, ?_⟩
    simp only [ret_bind]
    split
    · exact receiveDirectory_after blake3 path temp firstMsg _
    · rename_i regular
      have addressed : ¬ Misaddressed item (.ok firstMsg :: rest) := fun h =>
        clean ⟨h, regular, path, valid⟩
      have search := resolveConflictPath_spec path config.fileConflictStrategy
      refine search.after_bind not_opens_of_looking fun found _ => ?_
      rcases found with e | (_ | final)
      · trivial
      · trivial
      · exact receiveRegular_after blake3 id _ final temp _ addressed

private def Stray (item : FileItem) (temp : PathBuf) (x : Code TaskResult) (w : World) : Prop :=
  (∃ reason, x = .pure (ackOf item false reason)) ∧ ∃ c, content w.fs temp.resolve = some c

variable {guard : Guard Op World Ans} [Plain guard]

private theorem receiveLoop_strays (blake3 : Bytes → Digest) (id : String)
    (strategy : FileConflictStrategy) (final : PathBuf) {temp : PathBuf} (messages : Stream)
    (hashed : Bytes) (strays : Misaddressed item messages) {c : Bytes}
    (held : content w.fs temp.resolve = some c) :
    Reaches exec guard 0 (Stray item temp)
      (receiveLoop blake3 item id strategy final temp hashed messages) w := by
  induction messages generalizing hashed w c with
  | nil => exact strays.elim
  | cons m rest ih =>
    cases m with
    | error f => exact strays.elim
    | ok message =>
      cases message with
      | chunk chunk =>
        simp only [receiveLoop]
        split_ifs with hid
        · exact ⟨⟨_, rfl⟩, c, held⟩
        · refine reaches_fs fun w₁ _ hfs _ => ?_
          rw [exec_writeAll held] at hfs ⊢
          refine reaches_quiet (addProgress_quiet id _) fun _ w₂ same => ?_
          refine ih (w := w₂) (c := c ++ chunk.data) _ (strays.resolve_left hid) ?_
          rw [same.fs, hfs, content_insert_file (ne_nil_of_look (isDir_of_content held)), if_pos rfl]
      | complete complete =>
        have hid : complete.fileId ≠ item.fileId := strays
        simp only [receiveLoop, hid, ne_eq, not_false_eq_true, if_true]
        exact ⟨⟨_, rfl⟩, c, held⟩
      | _ => exact strays.elim

private theorem temp_child {relPath : List Char} {saveRoot path : PathBuf}
    (valid : validateRelPath relPath saveRoot = .ok path) :
    ∃ (p : PathBuf) (n : Name), tempPathFor path = p.child n ∧ p.Onward ∧
      (path.parent = some p ∨ path.parent = none ∧ p.resolve = []) := by
  obtain ⟨names, shape⟩ := validateRelPath_settled valid
  rcases List.eq_nil_or_concat names with rfl | ⟨front, n, rfl⟩
  · have plain : Plain ("file".toList ++ ".dashdrop.part".toList) := by decide
    rcases shape with rfl | rfl
    · refine ⟨.absolute [], ⟨_, plain⟩, ?_, onward_absolute [], .inr ⟨rfl, rfl⟩⟩
      exact join_plain (.absolute []) plain
    · refine ⟨⟨[]⟩, ⟨_, plain⟩, ?_, onward_relative [], .inr ⟨rfl, rfl⟩⟩
      exact join_plain ⟨[]⟩ plain
  · rcases shape with rfl | rfl
    · rw [List.concat_eq_append, absolute_append]
      exact ⟨_, _, tempPathFor_child _ n, onward_absolute front, .inl (parent_child _ n)⟩
    · have split : PathBuf.mk ((front.concat n).map .normal) =
          PathBuf.child ⟨front.map .normal⟩ n := by simp [PathBuf.child]
      rw [split]
      exact ⟨_, _, tempPathFor_child _ n, onward_relative front, .inl (parent_child _ n)⟩

private theorem opening_strays (blake3 : Bytes → Digest) (id : String)
    (strategy : FileConflictStrategy) (final : PathBuf) (messages : Stream)
    (strays : Misaddressed item messages) (absent : look w.fs (tempPathFor final).resolve = none)
    (parent : isDir w.fs (tempPathFor final).resolve.dropLast = true) :
    Reaches exec guard 0
      (Ahead exec guard (opens (tempPathFor final)) 0 (Stray item (tempPathFor final)))
      (do
        let _ ← fs (.metadata final)
        let currentOffset ← leftoverLength item (tempPathFor final)
        match ← openTemp (tempPathFor final) currentOffset with
        | none => pure .panicked
        | some (.error e) => failWith item (ioErrorCode e)
        | some (.ok ()) =>
            receiveLoop blake3 item id strategy final (tempPathFor final) [] messages) w := by
  refine reaches_fs fun w₁ _ hfs _ => ?_
  have hfs : w₁.fs = w.fs := hfs
  simp only [ret_bind, bind_def, leftoverLength]
  refine reaches_fs fun w₂ _ hfs₂ _ => ?_
  have hfs₂ : w₂.fs = w.fs := hfs₂.trans hfs
  have missing : ((FsOp.metadata (tempPathFor final)).exec w₁.fs).answer = none := by
    simp only [FsOp.exec, hfs, absent, Option.map_none]
  rw [missing]
  have vacant : isDir w₂.fs (tempPathFor final).resolve = false := by
    simp [isDir, hfs₂, absent]
  rw [← hfs₂] at parent
  have made := exec_createFile vacant parent
  refine .now (ahead_fs (by rw [made]; exact ⟨rfl, rfl⟩) fun w₃ _ hfs₃ => ?_)
  rw [made] at hfs₃ ⊢
  refine receiveLoop_strays (w := w₃) (c := []) blake3 id strategy final messages [] strays ?_
  rw [hfs₃, content_insert_file (ne_nil_of_look vacant), if_pos rfl]

private theorem receiveRegular_strays (blake3 : Bytes → Digest) (id : String)
    (strategy : FileConflictStrategy) {path p : PathBuf} {n : Name} (messages : Stream)
    (strays : Misaddressed item messages) (shape : tempPathFor path = p.child n)
    (onward : p.Onward) (lies : path.parent = some p ∨ path.parent = none ∧ p.resolve = [])
    (blank : w.fs = ∅) :
    Reaches exec guard 0
      (Ahead exec guard (opens (tempPathFor path)) 0 (Stray item (tempPathFor path)))
      (receiveRegular blake3 item id strategy path messages) w := by
  have clear (l : Key) (c : Bytes) : look w.fs l ≠ some (.file c) := by
    rw [blank]
    unfold look
    split_ifs <;> simp
  rcases lies with hparent | ⟨hparent, top⟩
  · have made : ((FsOp.createDirAll p).exec w.fs).answer = .ok () := makeDirs_answer clear
    obtain ⟨dir, entries⟩ := prepared_dir onward made
    simp only [receiveRegular, hparent]
    refine reaches_fs fun w₁ _ hfs _ => ?_
    rw [made]
    refine opening_strays (w := w₁) blake3 id strategy path messages strays ?_ ?_
    · rw [hfs, shape, resolve_child]
      refine look_eq_none ?_ ?_
      · rw [entries, blank]
        simp [isDir, look]
      · refine (content_makeDirs _ _ _).trans ?_
        rw [blank]
        simp [content, look]
    · rw [hfs, shape, resolve_child, List.dropLast_concat]
      exact dir
  · simp only [receiveRegular, hparent]
    refine opening_strays blake3 id strategy path messages strays ?_ ?_
    · rw [blank, shape, resolve_child]
      simp [look]
    · rw [shape, resolve_child, List.dropLast_concat, top]
      rfl

private def blankWorld : World :=
  World.start { AppConfig.standard with fileConflictStrategy := .overwrite }

private theorem receiveOneFile_strays (blake3 : Bytes → Digest) (id : String)
    {saveRoot path : PathBuf} {firstMsg : DashMessage} {rest : Stream}
    (strays : Misaddressed item (.ok firstMsg :: rest)) (regular : item.fileType = .regularFile)
    (valid : validateRelPath item.relPath.toList saveRoot = .ok path) :
    Reaches exec guard 0
      (Ahead exec guard (opens (tempPathFor path)) 0 (Stray item (tempPathFor path)))
      (receiveOneFile blake3 item firstMsg rest saveRoot id) blankWorld := by
  obtain ⟨p, n, shape, onward, lies⟩ := temp_child valid
  simp only [receiveOneFile, valid, regular]
  refine reaches_env_of ⟨0, .unit⟩ (Plain.allows _ _ _) rfl fun w₁ same => ?_
  refine reaches_survey (survey_overwrite _ _) fun w₂ same₂ => ?_
  have blank : w₂.fs = ∅ := same₂.fs.trans same.fs
  exact receiveRegular_strays blake3 id _ _ strays shape onward lies blank

private theorem not_leavesNoPart (blake3 : Bytes → Digest) (id : String)
    {saveRoot path : PathBuf} {firstMsg : DashMessage} {rest : Stream}
    (strays : Misaddressed item (.ok firstMsg :: rest)) (regular : item.fileType = .regularFile)
    (valid : validateRelPath item.relPath.toList saveRoot = .ok path) :
    ¬ LeavesNoPart blake3 item saveRoot id firstMsg rest := by
  intro clean
  have reaches : Reaches exec (removes (tempPathFor path)) 0 _ _ _ :=
    receiveOneFile_strays blake3 id strays regular valid
  obtain ⟨a, b, x, w, before, opened, later, ⟨reason, rfl⟩, c, held⟩ := reaches.exists_answered
  have gone := clean blankWorld _ a b _ reason before opened later rfl
  rw [content_eq_some, gone] at held
  cases held

/-- A failed task leaves its part file exactly when its stream goes over to another item. -/
theorem failed_receive_leaves_no_part (blake3 : Bytes → Digest) (item : FileItem)
    (saveRoot : PathBuf) (id : String) (firstMsg : DashMessage) (rest : Stream) :
    LeavesNoPart blake3 item saveRoot id firstMsg rest ↔
      ¬ (Misaddressed item (.ok firstMsg :: rest) ∧ item.fileType = .regularFile ∧
        ∃ path, validateRelPath item.relPath.toList saveRoot = .ok path) := by
  constructor
  · rintro clean ⟨strays, regular, path, valid⟩
    exact not_leavesNoPart blake3 id strays regular valid clean
  · intro clean w temp a b t reason before opened later returned
    obtain ⟨o, y, w', r, x, done, here, rfl, sweeps⟩ :=
      before.after (receiveOneFile_after blake3 saveRoot id firstMsg rest temp clean) opened
    exact later.delivers (sweeps w' (vacant_of_opened done here)) returned reason rfl

/-- A chunk of item 7 and then one of item 8: the byte of the first one stays on the disk. -/
theorem foreign_chunk_leaves_part :
    validateRelPath sampleItem.relPath.toList sampleRoot = .ok (sampleRoot.join (.ofText ['a'])) ∧
      ¬ LeavesNoPart sampleHash sampleItem sampleRoot "t1" (.chunk ⟨7, 0, 0, [1]⟩)
        [.ok (.chunk ⟨8, 0, 0, [2]⟩)] := by
  have valid : validateRelPath sampleItem.relPath.toList sampleRoot =
      .ok (sampleRoot.join (.ofText ['a'])) := by decide
  have strays : Misaddressed sampleItem
      [.ok (.chunk ⟨7, 0, 0, [1]⟩), .ok (.chunk ⟨8, 0, 0, [2]⟩)] :=
    .inr (.inl (by decide))
  exact ⟨valid, not_leavesNoPart sampleHash "t1" strays rfl valid⟩

end DashDrop.Receiving.Cleanup
