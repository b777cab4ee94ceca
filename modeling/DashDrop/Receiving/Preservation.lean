/- GID: DashDrop/Receiving/Preservation
   source: src-tauri/src/transport/receiver.rs
   anchors: []
   digest: When a failed receive keeps the file that was there before. -/

import DashDrop.Receiving.Integrity
import DashDrop.Transport.Destinations

set_option autoImplicit false
set_option relaxedAutoImplicit false

namespace DashDrop.Receiving.Preservation

open DashDrop.Foundation.UnixPath DashDrop.Foundation.FileTree
open DashDrop.Foundation.Program DashDrop.Foundation.Interleaving
open DashDrop.Transport.Protocol DashDrop.Transport.Outcome DashDrop.Transport.PathValidation
open DashDrop.Transport.Receiver DashDrop.Transport.DiskNames
open DashDrop.Transport.Destinations (survey_overwrite)
open DashDrop.Runtime.State DashDrop.Runtime.Machine DashDrop.Runtime.Footprint
open DashDrop.Runtime.Solo DashDrop.Receiving.Integrity

def Target (w : World) (item : FileItem) (saveRoot p : PathBuf) : Prop :=
  validateRelPath item.relPath.toList saveRoot = .ok p ∨
    Chosen w.fs w.config.fileConflictStrategy item saveRoot p

/-- Whatever fails on the way, a task that does not succeed leaves the files that were there. -/
def SparesFiles (blake3 : Bytes → Digest) (w : World) (item : FileItem) (saveRoot : PathBuf)
    (id : String) (firstMsg : DashMessage) (rest : Stream) : Prop :=
  ∀ t r, Run exec free ⟨w, [receiveOneFile blake3 item firstMsg rest saveRoot id]⟩ t →
    t.result 0 = some r → r ≠ ackOf item true none →
    ∀ p c, Target w item saveRoot p → content w.fs p.resolve = some c →
      content t.world.fs p.resolve = some c

/-- The stream brings a whole file for the item, under the hash of its bytes. -/
def Whole (blake3 : Bytes → Digest) (item : FileItem) (hashed : Bytes) (messages : Stream) : Prop :=
  Addressed item messages ∧ ∃ complete, closing messages = some complete ∧
    blake3 (hashed ++ payload messages) = complete.fileHash

/-- A whole file arrives that is to replace an existing one. -/
structure Replaces (blake3 : Bytes → Digest) (w : World) (item : FileItem) (saveRoot : PathBuf)
    (messages : Stream) (final : PathBuf) : Prop where
  regular : item.fileType = .regularFile
  strategy : w.config.fileConflictStrategy = .overwrite
  valid : validateRelPath item.relPath.toList saveRoot = .ok final
  present : ∃ c, content w.fs final.resolve = some c
  placeable : Placeable w.fs final
  whole : Whole blake3 item [] messages

variable {w : World} {item : FileItem} {k : Key} {c : Bytes}

private def Spared (item : FileItem) (k : Key) (c : Bytes) (r : TaskResult) (w : World) : Prop :=
  r ≠ ackOf item true none → content w.fs k = some c

private theorem kept_exec {g : FsOp} {w' : World}
    (other : (∃ p, g = .createDirAll p) ∨ ∀ p ∈ g.paths, p.resolve ≠ k)
    (hfs : w'.fs = (g.exec w.fs).tree) (held : content w.fs k = some c) :
    content w'.fs k = some c := by
  rw [hfs, content_exec other]
  exact held

private theorem kept_same {w' : World} (same : Same w w') (held : content w.fs k = some c) :
    content w'.fs k = some c := by
  rwa [same.fs]

private theorem abandon_spares {temp : PathBuf} (reason : ErrorCode) (apart : temp.resolve ≠ k)
    (held : content w.fs k = some c) :
    Delivers exec free 0 (Spared item k c) (abandon item temp reason) w := by
  refine delivers_fs (fun w' _ hfs _ => ?_) fun e r w' _ same _ => kept_same same held
  exact kept_exec (.inr (by simpa [FsOp.paths] using apart)) hfs held

private theorem rename_spares {final temp : PathBuf} (apart : temp.resolve ≠ k)
    (held : content w.fs k = some c) :
    Delivers exec free 0 (Spared item k c) (do
      match ← fs (.rename temp final) with
      | .error e => abandon item temp (ioErrorCode e)
      | .ok () => pure (ackOf item true none)) w := by
  refine delivers_fs (fun w' _ hfs => ?_) fun e r w' refused same => ?_
  · cases hanswer : ((FsOp.rename temp final).exec w.fs).answer with
    | error e => exact abandon_spares _ apart (by rwa [hfs, tree_of_rename_error hanswer])
    | ok _ => exact fun failed => absurd rfl failed
  · cases refused
    exact abandon_spares _ apart (kept_same same held)

private theorem placeFile_spares (strategy : FileConflictStrategy) {final temp : PathBuf}
    (apart : temp.resolve ≠ k) (safe : strategy = .overwrite → final.resolve ≠ k)
    (held : content w.fs k = some c) :
    Delivers exec free 0 (Spared item k c) (placeFile item strategy final temp) w := by
  unfold placeFile
  by_cases hover : strategy = .overwrite
  · rw [if_pos hover]
    refine delivers_fs (fun w₁ _ hfs => ?_) fun e r w₁ refused _ => ?_
    · have held₁ := kept_exec (.inr (by simp [FsOp.paths])) hfs held
      cases ((FsOp.metadata final).exec w.fs).answer with
      | none => exact rename_spares apart held₁
      | some _ =>
        have other := safe hover
        refine delivers_fs (fun w₂ _ hfs₂ => ?_) fun e r w₂ refused same => ?_
        · have held₂ := kept_exec (.inr (by simpa [FsOp.paths] using other)) hfs₂ held₁
          cases ((FsOp.removeFile final).exec w₁.fs).answer with
          | error e => exact abandon_spares _ apart held₂
          | ok _ => exact rename_spares apart held₂
        · cases refused
          exact abandon_spares _ apart (kept_same same held₁)
    · cases refused
  · rw [if_neg hover]
    exact rename_spares apart held

private theorem receiveLoop_spares (blake3 : Bytes → Digest) (id : String)
    (strategy : FileConflictStrategy) {final temp : PathBuf} (messages : Stream) (hashed : Bytes)
    (apart : temp.resolve ≠ k)
    (safe : strategy = .overwrite → Whole blake3 item hashed messages → final.resolve ≠ k)
    (held : content w.fs k = some c) :
    Delivers exec free 0 (Spared item k c)
      (receiveLoop blake3 item id strategy final temp hashed messages) w := by
  induction messages generalizing hashed w with
  | nil => exact abandon_spares _ apart held
  | cons m rest ih =>
    cases m with
    | error f => exact abandon_spares _ apart held
    | ok message =>
      cases message with
      | chunk chunk =>
        simp only [receiveLoop]
        split_ifs with hid
        · exact fun _ => held
        · refine delivers_fs (fun w₁ _ hfs => ?_) fun e r w₁ refused same => ?_
          · have held₁ := kept_exec (.inr (by simpa [FsOp.paths] using apart)) hfs held
            cases ((FsOp.writeAll temp chunk.data).exec w.fs).answer with
            | error e => exact abandon_spares _ apart held₁
            | ok _ =>
              refine delivers_quiet (addProgress_quiet id _) fun _ w₂ same => ?_
              refine ih _ (fun hover whole => safe hover ?_) (kept_same same held₁)
              obtain ⟨addressed, complete, ended, hash⟩ := whole
              rw [List.append_assoc] at hash
              exact ⟨⟨not_not.mp hid, addressed⟩, complete, ended, hash⟩
          · cases refused
            exact abandon_spares _ apart (kept_same same held)
      | complete complete =>
        simp only [receiveLoop]
        split_ifs with hid matched
        · exact fun _ => held
        · refine delivers_fs (fun w₁ _ hfs => ?_) fun e r w₁ refused same => ?_
          · exact abandon_spares _ apart (kept_exec (.inr (by simp [FsOp.paths])) hfs held)
          · cases refused
            exact abandon_spares _ apart (kept_same same held)
        · refine delivers_fs (fun w₁ _ hfs => ?_) fun e r w₁ refused same => ?_
          · have held₁ := kept_exec (.inr (by simp [FsOp.paths])) hfs held
            refine placeFile_spares strategy apart (fun hover => safe hover ?_) held₁
            refine ⟨not_not.mp hid, complete, rfl, ?_⟩
            simpa only [payload, List.append_nil] using not_not.mp matched
          · cases refused
            exact abandon_spares _ apart (kept_same same held)
      | _ => exact abandon_spares _ apart held

private theorem open_keeps {temp : PathBuf} (apart : temp.resolve ≠ k)
    (held : content w.fs k = some c) :
    Delivers exec free 0 (fun _ w' => content w'.fs k = some c)
      ((leftoverLength item temp).bind (openTemp temp)) w := by
  have leftover := (leftoverLength_within item temp temp).mono placing_of_filling fun _ h => h
  have within : ((leftoverLength item temp).bind (openTemp temp)).Within (placingOps temp temp)
      anything := leftover.bind fun offset _ => openTemp_within temp temp offset
  refine (delivers_within (I := fun t => content t k = some c) within ?_ held).mono fun _ _ h => h.2
  intro g placing t kept
  have other : (∃ p, g = .createDirAll p) ∨ ∀ p ∈ g.paths, p.resolve ≠ k := by
    cases g with
    | createDirAll p => exact .inl ⟨p, rfl⟩
    | metadata | flush | openAppend => exact .inr (by simp [FsOp.paths])
    | createFile p | writeAll p =>
      obtain rfl : p = temp := placing
      exact .inr (by simpa [FsOp.paths] using apart)
    | removeFile p =>
      obtain rfl : p = temp := placing.elim id id
      exact .inr (by simpa [FsOp.paths] using apart)
    | rename p q =>
      obtain ⟨rfl, rfl⟩ := placing
      exact .inr (by simpa [FsOp.paths] using apart)
  rw [content_exec other]
  exact kept

private theorem filled_spares (blake3 : Bytes → Digest) (id : String)
    (strategy : FileConflictStrategy) {final : PathBuf} (messages : Stream)
    (apart : (tempPathFor final).resolve ≠ k)
    (safe : strategy = .overwrite → isDir w.fs (tempPathFor final).resolve = false →
      Whole blake3 item [] messages → final.resolve ≠ k)
    (held : content w.fs k = some c) :
    Delivers exec free 0 (Spared item k c)
      (do
        let _ ← fs (.metadata final)
        let currentOffset ← leftoverLength item (tempPathFor final)
        match ← openTemp (tempPathFor final) currentOffset with
        | none => pure .panicked
        | some (.error e) => failWith item (ioErrorCode e)
        | some (.ok ()) =>
            receiveLoop blake3 item id strategy final (tempPathFor final) [] messages) w := by
  refine delivers_fs (fun w₁ _ hfs => ?_) fun e r w₁ refused _ => ?_
  · have hfs : w₁.fs = w.fs := hfs
    rw [← hfs] at safe held
    simp only [ret_bind, bind_def]
    rw [← bind_assoc]
    refine Delivers.bind (Delivers.mono
      ((open_delivers (tempPathFor final)).both (open_keeps apart held)) ?_)
    rintro (_ | (e | u)) w₂ ⟨opened, held₂⟩
    · exact fun _ => held₂
    · exact fun _ => held₂
    · obtain ⟨-, -, freeTemp, -⟩ := opened rfl
      exact receiveLoop_spares blake3 id strategy messages [] apart
        (fun hover whole => safe hover freeTemp whole) held₂
  · cases refused

private theorem receiveRegular_spares (blake3 : Bytes → Digest) (id : String)
    (strategy : FileConflictStrategy) {final : PathBuf} (messages : Stream)
    (apart : (tempPathFor final).resolve ≠ k)
    (safe : strategy = .overwrite →
      (∀ parent, final.parent = some parent →
        ((FsOp.createDirAll parent).exec w.fs).answer = .ok ()) →
      isDir w.fs (tempPathFor final).resolve = false → Whole blake3 item [] messages →
      final.resolve ≠ k)
    (held : content w.fs k = some c) :
    Delivers exec free 0 (Spared item k c)
      (receiveRegular blake3 item id strategy final messages) w := by
  unfold receiveRegular
  cases hparent : final.parent with
  | none =>
    refine filled_spares blake3 id strategy messages apart (fun hover => safe hover ?_) held
    intro parent h
    rw [hparent] at h
    cases h
  | some parent =>
    refine delivers_fs (fun w₁ _ hfs => ?_) fun e r w₁ refused same => ?_
    · have held₁ := kept_exec (.inl ⟨parent, rfl⟩) hfs held
      cases hanswer : ((FsOp.createDirAll parent).exec w.fs).answer with
      | error e => exact fun _ => held₁
      | ok u =>
        refine filled_spares blake3 id strategy messages apart ?_ held₁
        intro hover freeTemp
        refine safe hover ?_ ?_
        · intro q hq
          obtain rfl := Option.some.inj (hparent.symm.trans hq)
          exact hanswer
        · rw [← Bool.not_eq_true] at freeTemp ⊢
          intro dir
          rw [hfs] at freeTemp
          exact freeTemp (isDir_exec _ dir)
    · cases refused
      exact fun _ => kept_same same held

private theorem temp_apart {strategy : FileConflictStrategy} {relPath : List Char}
    {saveRoot path final p : PathBuf} (valid : validateRelPath relPath saveRoot = .ok path)
    (found : final ∈ finals strategy path) (target : p = path ∨ p = final) :
    (tempPathFor final).resolve ≠ p.resolve := by
  refine temp_ne_final valid found ?_
  rcases target with rfl | rfl
  · exact mem_finals_self strategy p
  · exact found

private theorem receiveDirectory_spares (blake3 : Bytes → Digest) (path : PathBuf)
    (firstMsg : DashMessage) (held : content w.fs k = some c) :
    Delivers exec free 0 (Spared item k c) (receiveDirectory blake3 item path firstMsg) w := by
  cases firstMsg with
  | complete complete =>
    simp only [receiveDirectory]
    split_ifs
    · exact fun _ => held
    · exact fun _ => held
    · refine delivers_fs (fun w₁ _ hfs => ?_) fun e r w₁ refused same => ?_
      · have held₁ := kept_exec (.inl ⟨path, rfl⟩) hfs held
        cases ((FsOp.createDirAll path).exec w.fs).answer with
        | error e => exact fun _ => held₁
        | ok u => exact fun _ => held₁
      · cases refused
        exact fun _ => kept_same same held
  | _ => exact fun _ => held

private theorem receiveOneFile_spares (blake3 : Bytes → Digest) (saveRoot : PathBuf) (id : String)
    (firstMsg : DashMessage) (rest : Stream) {p : PathBuf} (target : Target w item saveRoot p)
    (held : content w.fs p.resolve = some c)
    (safe : ∀ final, ¬ Replaces blake3 w item saveRoot (.ok firstMsg :: rest) final) :
    Delivers exec free 0 (Spared item p.resolve c)
      (receiveOneFile blake3 item firstMsg rest saveRoot id) w := by
  unfold receiveOneFile
  split
  · exact fun _ => held
  · rename_i path valid
    refine delivers_env fun x config w₁ answered same => ?_
    have hconfig : config = w.config := (Option.some.inj answered).symm
    subst hconfig
    have held₁ := kept_same same held
    simp only [ret_bind]
    split
    · exact receiveDirectory_spares blake3 path firstMsg held₁
    · rename_i regular
      obtain ⟨found, surveyed, chosen⟩ := exists_survey
        (resolveConflictPath_spec path w.config.fileConflictStrategy) looks_metadata w.fs
      rw [← same.fs] at surveyed
      refine delivers_survey surveyed fun w₂ _ hfs => ?_
      have held₂ : content w₂.fs p.resolve = some c := by rwa [hfs]
      rcases found with e | (_ | final)
      · exact fun _ => held₂
      · exact fun _ => held₂
      · rw [same.fs] at surveyed
        have hp : p = path ∨ p = final := by
          rcases target with here | there
          · exact .inl (Except.ok.inj (here.symm.trans valid))
          · exact .inr (there.unique ⟨path, valid, surveyed⟩)
        refine receiveRegular_spares blake3 id _ _ (temp_apart valid (chosen final rfl) hp) ?_
          held₂
        intro hover reached freeTemp whole hit
        rw [hfs, same.fs] at reached freeTemp
        rw [hover, survey_overwrite] at surveyed
        obtain rfl : path = final := by
          cases surveyed
          rfl
        rw [← hit] at held
        exact safe path ⟨regular, hover, valid, ⟨c, held⟩,
          ⟨reached, isDir_of_content held, freeTemp⟩, whole⟩

private def Lost (item : FileItem) (final : PathBuf) (x : Code TaskResult) (w : World) : Prop :=
  (∃ reason, x = .pure (ackOf item false reason)) ∧ content w.fs final.resolve = none

private theorem placeFile_loses {final temp : PathBuf} (apart : temp.resolve ≠ final.resolve)
    (held : content w.fs final.resolve = some c) :
    Reaches exec free 0 (Lost item final) (placeFile item .overwrite final temp) w := by
  have present : ((FsOp.metadata final).exec w.fs).answer = some ⟨true, c.length⟩ := by
    simp only [FsOp.exec, content_eq_some.mp held, Option.map_some, Node.metadata]
  unfold placeFile
  rw [if_pos rfl]
  refine reaches_fs fun w₁ _ hfs₁ _ => ?_
  have hfs₁ : w₁.fs = w.fs := hfs₁
  rw [present]
  refine reaches_fs fun w₂ _ hfs₂ _ => ?_
  rw [← hfs₁] at held
  rw [exec_removeFile held] at hfs₂ ⊢
  refine reaches_refused (g := .rename temp final) (e := notFound) trivial rfl fun w₃ same => ?_
  refine reaches_fs fun w₄ _ hfs₄ _ => ⟨⟨_, rfl⟩, ?_⟩
  rw [hfs₄, content_exec (.inr (by simpa [FsOp.paths] using apart)), same.fs, hfs₂,
    content_erase (ne_nil_of_look (isDir_of_content held)), if_pos rfl]

private theorem Replaces.loses {blake3 : Bytes → Digest} {saveRoot final : PathBuf}
    {firstMsg : DashMessage} {rest : Stream}
    (h : Replaces blake3 w item saveRoot (.ok firstMsg :: rest) final) (id : String) :
    ¬ SparesFiles blake3 w item saveRoot id firstMsg rest := by
  obtain ⟨regular, hover, valid, ⟨c, held⟩, placeable, addressed, complete, ended, hash⟩ := h
  have chosen : Chosen w.fs w.config.fileConflictStrategy item saveRoot final :=
    ⟨final, valid, by rw [hover]; exact survey_overwrite _ _⟩
  have matched (complete' : CompletePayload) (h : closing (.ok firstMsg :: rest) = some complete') :
      blake3 (payload (.ok firstMsg :: rest)) = complete'.fileHash := by
    obtain rfl := Option.some.inj (ended.symm.trans h)
    exact hash
  have reaches : Reaches exec free 0 (Lost item final)
      (receiveOneFile blake3 item firstMsg rest saveRoot id) w := by
    refine receiveOneFile_arrives blake3 id regular chosen placeable addressed matched (.inl rfl) ?_
    rintro p n w' rfl - - - others
    have apart : p.resolve ++ [n] ≠ p.resolve ++ [tempName n] := fun same =>
      tempName_ne n (by simpa using same.symm)
    have kept : content w'.fs (p.child n).resolve = some c := by
      rw [resolve_child, others _ apart, ← resolve_child]
      exact held
    rw [hover]
    refine placeFile_loses ?_ kept
    rw [resolve_child, resolve_child]
    exact Ne.symm apart
  intro spares
  have here : [receiveOneFile blake3 item firstMsg rest saveRoot id][0]? =
      some (receiveOneFile blake3 item firstMsg rest saveRoot id) := rfl
  obtain ⟨x, w', run, ⟨reason, rfl⟩, lost⟩ := reaches.exists_run here
  have kept := spares _ _ run rfl (fun h => nomatch h) final c (.inl valid) held
  rw [lost] at kept
  cases kept

/-- A task that fails can lose an existing file exactly when it was about to replace it. -/
theorem failed_receive_keeps_files (blake3 : Bytes → Digest) (w : World) (item : FileItem)
    (saveRoot : PathBuf) (id : String) (firstMsg : DashMessage) (rest : Stream) :
    SparesFiles blake3 w item saveRoot id firstMsg rest ↔
      ∀ final, ¬ Replaces blake3 w item saveRoot (.ok firstMsg :: rest) final := by
  constructor
  · intro spares final replaces
    exact replaces.loses id spares
  · intro safe t r run returned failed p c target held
    have spared := receiveOneFile_spares blake3 saveRoot id firstMsg rest target held safe
    exact run.delivers spared returned failed

private def oldFile : PathBuf := sampleRoot.join (.ofText ['a'])

/-- A file of one byte lies where the item leads, and names in use are overwritten. -/
private def oldWorld : World :=
  { World.start { AppConfig.standard with fileConflictStrategy := .overwrite } with
    fs := (dirTree [sampleRoot.resolve, sampleRoot.resolve.dropLast,
      sampleRoot.resolve.dropLast.dropLast]).insert oldFile.resolve (.file [9]) }

/-- The new file arrives whole; its rename is refused when the old file is already gone. -/
theorem refused_rename_loses_file :
    validateRelPath sampleItem.relPath.toList sampleRoot = .ok oldFile ∧
      content oldWorld.fs oldFile.resolve = some [9] ∧
      ¬ SparesFiles sampleHash oldWorld sampleItem sampleRoot "t1" (.chunk ⟨7, 0, 0, [0]⟩)
        [.ok (.complete ⟨7, sampleHash [0]⟩)] := by
  have valid : validateRelPath sampleItem.relPath.toList sampleRoot = .ok oldFile := by decide
  have held : content oldWorld.fs oldFile.resolve = some [9] := by decide
  have placeable : Placeable oldWorld.fs oldFile := by
    refine ⟨fun parent h => ?_, by decide, by decide⟩
    have hparent : parent = sampleRoot := Option.some.inj (h.symm.trans (by decide))
    subst hparent
    decide
  have replaces : Replaces sampleHash oldWorld sampleItem sampleRoot
      [.ok (.chunk ⟨7, 0, 0, [0]⟩), .ok (.complete ⟨7, sampleHash [0]⟩)] oldFile :=
    ⟨rfl, rfl, valid, ⟨_, held⟩, placeable, ⟨rfl, rfl⟩, _, rfl, rfl⟩
  exact ⟨valid, held, replaces.loses "t1"⟩

end DashDrop.Receiving.Preservation
