/- GID: DashDrop/Receiving/Integrity
   source: src-tauri/src/transport/receiver.rs
   anchors: []
   digest: What an acknowledged file holds: the bytes kept of a leftover and the bytes sent. -/

import DashDrop.Runtime.Footprint
import DashDrop.Runtime.Solo
import DashDrop.Transport.DiskNames

set_option autoImplicit false
set_option relaxedAutoImplicit false

namespace DashDrop.Receiving.Integrity

open DashDrop.Foundation.UnixPath DashDrop.Foundation.FileTree
open DashDrop.Foundation.Program DashDrop.Foundation.Interleaving
open DashDrop.Transport.Protocol DashDrop.Transport.Outcome DashDrop.Transport.PathValidation
open DashDrop.Transport.Receiver DashDrop.Transport.DiskNames
open DashDrop.Runtime.State DashDrop.Runtime.Machine DashDrop.Runtime.Footprint
open DashDrop.Runtime.Solo

/-- What a stream yields. -/
abbrev Stream := List (Except ReadFault DashMessage)

def payload : Stream → Bytes
  | .ok (.chunk chunk) :: rest => chunk.data ++ payload rest
  | _ => []

/-- The `Complete` that follows the chunks. -/
def closing : Stream → Option CompletePayload
  | .ok (.chunk _) :: rest => closing rest
  | .ok (.complete complete) :: _ => some complete
  | _ => none

/-- The chunks and the `Complete` that follows them are for this item. -/
def Addressed (item : FileItem) : Stream → Prop
  | .ok (.chunk chunk) :: rest => chunk.fileId = item.fileId ∧ Addressed item rest
  | .ok (.complete complete) :: _ => complete.fileId = item.fileId
  | _ => False

def Chosen (t : Tree) (strategy : FileConflictStrategy) (item : FileItem) (saveRoot final : PathBuf) :
    Prop :=
  ∃ path, validateRelPath item.relPath.toList saveRoot = .ok path ∧
    survey t (resolveConflictPath path strategy) = some (.ok (some final))

def kept (t : Tree) (item : FileItem) (final : PathBuf) : Bytes :=
  match content t (tempPathFor final).resolve with
  | some c => if c.length > item.size then [] else c
  | none => []

/-- The directories of the path can be made, and nothing but a file is in its place or in that
of its part file. -/
structure Placeable (t : Tree) (final : PathBuf) : Prop where
  reached : ∀ parent, final.parent = some parent →
    ((FsOp.createDirAll parent).exec t).answer = .ok ()
  freeFinal : isDir t final.resolve = false
  freeTemp : isDir t (tempPathFor final).resolve = false

variable {w : World} {item : FileItem}

def Grows (t t' : Tree) : Prop := ∀ k, isDir t k = true → isDir t' k = true

theorem Grows.trans {t t' t'' : Tree} (h : Grows t t') (h' : Grows t' t'') : Grows t t'' :=
  fun k hk => h' k (h k hk)

theorem Grows.missing {t t' : Tree} (h : Grows t t') {k : Key}
    (hk : isDir t' k = false) : isDir t k = false := by
  rw [← Bool.not_eq_true] at hk ⊢
  exact fun hdir => hk (h k hdir)

theorem grows_exec (g : FsOp) {t t' : Tree} (h : t' = (g.exec t).tree) : Grows t t' := by
  intro k hk
  rw [h]
  exact isDir_exec g hk

def Opened (w : World) (temp : PathBuf) (item : FileItem) (opened : Option (Except IoError Unit))
    (w' : World) : Prop :=
  opened = some (.ok ()) → Alike w w' ∧ Grows w.fs w'.fs ∧ isDir w.fs temp.resolve = false ∧
    (content w'.fs temp.resolve = some [] ∨
      ∃ c, content w.fs temp.resolve = some c ∧ c.length ≤ item.size ∧
        content w'.fs temp.resolve = some c)

private theorem create_delivers {α : Type} {temp : PathBuf} {k : Except IoError Unit → Code α}
    {Q : α → World → Prop}
    (made : ∀ w', Alike w w' → Grows w.fs w'.fs → isDir w.fs temp.resolve = false →
      content w'.fs temp.resolve = some [] → Delivers exec free 0 Q (k (.ok ())) w')
    (failed : ∀ e w', Delivers exec free 0 Q (k (.error e)) w') :
    Delivers exec free 0 Q (.op (.fs (.createFile temp)) k) w := by
  refine delivers_fs (fun w' alike hfs => ?_) fun e r w' refused _ => ?_
  · have grows := grows_exec (.createFile temp) hfs
    cases hanswer : ((FsOp.createFile temp).exec w.fs).answer with
    | error e => exact failed e w'
    | ok u =>
      have hempty : content w'.fs temp.resolve = some [] := by
        rw [hfs]
        exact content_createAt hanswer
      exact made w' alike grows (grows.missing (isDir_of_content hempty)) hempty
  · cases refused
    exact failed e w'

private theorem remove_delivers {α : Type} {temp : PathBuf} {k : Except IoError Unit → Code α}
    {Q : α → World → Prop}
    (later : ∀ r w', Alike w w' → Grows w.fs w'.fs → Delivers exec free 0 Q (k r) w') :
    Delivers exec free 0 Q (.op (.fs (.removeFile temp)) k) w := by
  refine delivers_fs (fun w' alike hfs => ?_) fun e r w' _ same => ?_
  · exact later _ w' alike (grows_exec (.removeFile temp) hfs)
  · refine later r w' same.toAlike fun k hk => ?_
    rw [same.fs]
    exact hk

private theorem openTemp_zero {temp : PathBuf} {w₁ : World} (alike : Alike w w₁)
    (grows : Grows w.fs w₁.fs) :
    Delivers exec free 0 (Opened w temp item) (openTemp temp 0) w₁ := by
  refine create_delivers ?_ ?_
  · intro w₂ alike₂ grows₂ free empty _
    exact ⟨alike.trans alike₂, grows.trans grows₂, grows.missing free, .inl empty⟩
  · intro e w₂ h
    cases h

private theorem restart_delivers {temp : PathBuf} {w₁ : World} (alike : Alike w w₁)
    (grows : Grows w.fs w₁.fs) :
    Delivers exec free 0 (Opened w temp item) (do
      let _ ← fs (.removeFile temp)
      match ← fs (.createFile temp) with
      | .ok () => pure (some (.ok ()))
      | .error _ => pure none) w₁ := by
  refine remove_delivers fun _ w₂ alike₂ grows₂ => create_delivers ?_ ?_
  · intro w₃ alike₃ grows₃ free empty _
    have hgrows := grows.trans grows₂
    exact ⟨(alike.trans alike₂).trans alike₃, hgrows.trans grows₃, hgrows.missing free,
      .inl empty⟩
  · intro e w₃ h
    cases h

private theorem openTemp_delivers {temp : PathBuf} {offset : ℕ} {w₁ : World} (alike : Alike w w₁)
    (hfs : w₁.fs = w.fs) (positive : 0 < offset)
    (fits : ∀ c, content w.fs temp.resolve = some c → c.length ≤ item.size) :
    Delivers exec free 0 (Opened w temp item) (openTemp temp offset) w₁ := by
  have grows : Grows w.fs w₁.fs := fun k hk => by rwa [hfs]
  unfold openTemp
  rw [if_pos positive]
  refine delivers_fs (fun w₂ alike₂ hfs₂ => ?_) fun e r w₂ refused same => ?_
  · rw [hfs] at hfs₂ ⊢
    cases hc : content w.fs temp.resolve with
    | some c =>
      rw [exec_openAppend hc] at hfs₂ ⊢
      intro _
      refine ⟨alike.trans alike₂, fun k hk => by rwa [hfs₂], isDir_of_content hc, .inr ?_⟩
      exact ⟨c, hc, fits c hc, by rw [hfs₂]; exact hc⟩
    | none =>
      rw [exec_openAppend_none hc] at hfs₂ ⊢
      exact restart_delivers (alike.trans alike₂) fun k hk => by rwa [hfs₂]
  · cases refused
    exact restart_delivers (alike.trans same.toAlike) fun k hk => by rwa [same.fs, hfs]

theorem open_delivers (temp : PathBuf) :
    Delivers exec free 0 (Opened w temp item) ((leftoverLength item temp).bind (openTemp temp)) w := by
  unfold leftoverLength
  refine delivers_fs (fun w₁ alike hfs => ?_) fun e r w₁ refused _ => ?_
  · have hfs : w₁.fs = w.fs := hfs
    have grows : Grows w.fs w₁.fs := fun k hk => by rwa [hfs]
    cases found : ((FsOp.metadata temp).exec w.fs).answer with
    | none => exact openTemp_zero alike grows
    | some info =>
      simp only [ret_bind]
      split_ifs with tooLong
      · refine remove_delivers fun _ w₂ alike₂ grows₂ => ?_
        exact openTemp_zero (alike.trans alike₂) (grows.trans grows₂)
      · have fits (c : Bytes) (hc : content w.fs temp.resolve = some c) : c.length ≤ item.size := by
          have hmeta : some (Node.metadata (.file c)) = some info := by
            rw [← found]
            simp only [FsOp.exec, content_eq_some.mp hc, Option.map_some]
          cases hmeta
          exact Nat.le_of_not_lt tooLong
        rcases Nat.eq_zero_or_pos info.len with zero | positive
        · rw [zero]
          exact openTemp_zero alike grows
        · exact openTemp_delivers alike hfs positive fits
  · cases refused

private theorem failed_delivers {P : World → Prop} (reason : ErrorCode) :
    Delivers exec free 0 (fun r w' => r = ackOf item true none → P w') (failWith item reason) w := by
  intro h
  cases h

private theorem abandon_delivers {P : World → Prop} (temp : PathBuf) (reason : ErrorCode) :
    Delivers exec free 0 (fun r w' => r = ackOf item true none → P w') (abandon item temp reason)
      w :=
  remove_delivers fun _ _ _ _ => failed_delivers reason

private def Moved (w : World) (item : FileItem) (final : PathBuf) (c : Bytes) (r : TaskResult)
    (w' : World) : Prop :=
  r = ackOf item true none → isDir w.fs final.resolve = false ∧ content w'.fs final.resolve = some c

private theorem rename_delivers {final temp : PathBuf} {c : Bytes} {w₁ : World}
    (grows : Grows w.fs w₁.fs)
    (held : content w₁.fs temp.resolve = some c ∨ content w₁.fs temp.resolve = none) :
    Delivers exec free 0 (Moved w item final c) (do
      match ← fs (.rename temp final) with
      | .error e => abandon item temp (ioErrorCode e)
      | .ok () => pure (ackOf item true none)) w₁ := by
  refine delivers_fs (fun w₂ _ hfs => ?_) fun e r w₂ refused _ => ?_
  · cases hanswer : ((FsOp.rename temp final).exec w₁.fs).answer with
    | error e => exact abandon_delivers temp _
    | ok u =>
      intro _
      obtain ⟨c', found, free, moved⟩ := content_renameAt hanswer
      have hc : c' = c := by
        rcases held with held | held
        · exact Option.some.inj (found.symm.trans held)
        · rw [found] at held
          cases held
      subst hc
      exact ⟨grows.missing free, by rw [hfs]; exact moved⟩
  · cases refused
    exact abandon_delivers temp _

/-- Removing a file leaves the bytes of another one alone, or takes the file itself away. -/
private theorem content_removeAt {t : Tree} {k l : Key} {c : Bytes} (h : content t l = some c) :
    content (removeAt t k).tree l = some c ∨ content (removeAt t k).tree l = none := by
  unfold removeAt
  split
  · rename_i found
    have hk := ne_nil_of_look (isDir_of_content (content_eq_some.mpr found))
    simp only [content_erase hk]
    split_ifs
    · exact .inr rfl
    · exact .inl h
  · exact .inl h
  · exact .inl h

private theorem placeFile_delivers (strategy : FileConflictStrategy) {final temp : PathBuf}
    {c : Bytes} (held : content w.fs temp.resolve = some c) :
    Delivers exec free 0 (Moved w item final c) (placeFile item strategy final temp) w := by
  unfold placeFile
  by_cases hover : strategy = .overwrite
  · rw [if_pos hover]
    refine delivers_fs (fun w₁ _ hfs => ?_) fun e r w₁ refused _ => ?_
    · have hfs : w₁.fs = w.fs := hfs
      have held : content w₁.fs temp.resolve = some c := by rwa [hfs]
      have grows : Grows w.fs w₁.fs := fun k hk => by rwa [hfs]
      cases ((FsOp.metadata final).exec w.fs).answer with
      | none => exact rename_delivers grows (.inl held)
      | some _ =>
        refine delivers_fs (fun w₂ _ hfs₂ => ?_) fun e r w₂ refused _ => ?_
        · cases ((FsOp.removeFile final).exec w₁.fs).answer with
          | error e => exact abandon_delivers temp _
          | ok u =>
            refine rename_delivers (grows.trans (grows_exec (.removeFile final) hfs₂)) ?_
            rw [hfs₂]
            exact content_removeAt held
        · cases refused
          exact abandon_delivers temp _
    · cases refused
  · rw [if_neg hover]
    exact rename_delivers (fun k hk => hk) (.inl held)

theorem addProgress_quiet (id : String) (n : ℕ) :
    (addProgress id n).Within quietOps anything := by
  refine ⟨trivial, fun r => ?_⟩
  cases r with
  | none => trivial
  | some p => exact ⟨trivial, fun _ => trivial⟩

private theorem receiveLoop_delivers (blake3 : Bytes → Digest) (id : String)
    (strategy : FileConflictStrategy) {final temp : PathBuf} (front : Bytes) {t : Tree}
    (messages : Stream) (hashed : Bytes) (grows : Grows t w.fs)
    (held : content w.fs temp.resolve = some (front ++ hashed)) :
    Delivers exec free 0
      (fun r w' => r = ackOf item true none →
        (Addressed item messages ∧ ∃ complete, closing messages = some complete ∧
          blake3 (hashed ++ payload messages) = complete.fileHash) ∧
        isDir t final.resolve = false ∧
        content w'.fs final.resolve = some (front ++ (hashed ++ payload messages)))
      (receiveLoop blake3 item id strategy final temp hashed messages) w := by
  induction messages generalizing hashed w with
  | nil => exact abandon_delivers temp _
  | cons m rest ih =>
    cases m with
    | error f => exact abandon_delivers temp _
    | ok message =>
      cases message with
      | chunk chunk =>
        simp only [receiveLoop]
        split_ifs with hid
        · exact failed_delivers _
        · refine delivers_fs (fun w₁ _ hfs => ?_) fun e r w₁ refused _ => ?_
          · cases hanswer : ((FsOp.writeAll temp chunk.data).exec w.fs).answer with
            | error e => exact abandon_delivers temp _
            | ok u =>
              obtain ⟨c, found, grown⟩ := content_appendAt hanswer
              obtain rfl := Option.some.inj (found.symm.trans held)
              refine delivers_quiet (addProgress_quiet id _) fun _ w₂ same => ?_
              have grows₂ : Grows t w₂.fs := by
                rw [same.fs]
                exact grows.trans (grows_exec (.writeAll temp chunk.data) hfs)
              have held₂ : content w₂.fs temp.resolve =
                  some (front ++ (hashed ++ chunk.data)) := by
                rw [same.fs, hfs, ← List.append_assoc]
                exact grown
              refine Delivers.mono (ih _ grows₂ held₂) fun r w' arrived ok => ?_
              obtain ⟨⟨addressed, ended⟩, placed⟩ := arrived ok
              simp only [payload, closing, ← List.append_assoc] at ended placed ⊢
              exact ⟨⟨⟨not_not.mp hid, addressed⟩, ended⟩, placed⟩
          · cases refused
            exact abandon_delivers temp _
      | complete complete =>
        simp only [receiveLoop]
        split_ifs with hid matched
        · exact failed_delivers _
        · refine delivers_fs (fun w₁ _ hfs => ?_) fun e r w₁ refused _ => ?_
          · exact abandon_delivers temp _
          · cases refused
            exact abandon_delivers temp _
        · refine delivers_fs (fun w₁ _ hfs => ?_) fun e r w₁ refused _ => ?_
          · have hfs : w₁.fs = w.fs := hfs
            have grows₁ : Grows t w₁.fs := by rwa [hfs]
            refine Delivers.mono (placeFile_delivers strategy (by rw [hfs]; exact held)) ?_
            intro r w' moved ok
            obtain ⟨free, placed⟩ := moved ok
            simp only [payload, closing, List.append_nil]
            exact ⟨⟨not_not.mp hid, complete, rfl, not_not.mp matched⟩, grows₁.missing free, placed⟩
          · cases refused
            exact abandon_delivers temp _
      | _ => exact abandon_delivers temp _

def Accounted (blake3 : Bytes → Digest) (t : Tree) (item : FileItem) (messages : Stream)
    (final : PathBuf) (t' : Tree) : Prop :=
  Placeable t final ∧
  (Addressed item messages ∧ ∃ complete, closing messages = some complete ∧
    blake3 (payload messages) = complete.fileHash) ∧
  ∃ front, (front = [] ∨ front = kept t item final) ∧
    content t' final.resolve = some (front ++ payload messages)

theorem kept_of_content {t : Tree} {final : PathBuf} {c : Bytes}
    (found : content t (tempPathFor final).resolve = some c) (fits : c.length ≤ item.size) :
    kept t item final = c := by
  simp only [kept, found, Nat.not_lt.mpr fits, if_false]

private theorem filled_delivers (blake3 : Bytes → Digest) (id : String)
    (strategy : FileConflictStrategy) {t : Tree} {final : PathBuf} (messages : Stream)
    (reached : ∀ parent, final.parent = some parent →
      ((FsOp.createDirAll parent).exec t).answer = .ok ())
    (grows : Grows t w.fs) (same : ∀ k, content w.fs k = content t k) :
    Delivers exec free 0
      (fun r w' => r = ackOf item true none → Accounted blake3 t item messages final w'.fs)
      (do
        let _ ← fs (.metadata final)
        let currentOffset ← leftoverLength item (tempPathFor final)
        match ← openTemp (tempPathFor final) currentOffset with
        | none => pure .panicked
        | some (.error e) => failWith item (ioErrorCode e)
        | some (.ok ()) =>
            receiveLoop blake3 item id strategy final (tempPathFor final) [] messages) w := by
  refine delivers_fs (fun w₁ _ hfs => ?_) fun e r w₁ refused _ => ?_
  · have hfs : w₁.fs = w.fs := hfs
    simp only [ret_bind, bind_def]
    rw [← bind_assoc]
    refine Delivers.bind (Delivers.mono (open_delivers (tempPathFor final)) ?_)
    rintro (_ | (e | u)) w₂ opened
    · intro h
      cases h
    · exact failed_delivers _
    · obtain ⟨-, grows₂, freeTemp, held⟩ := opened rfl
      rw [hfs] at grows₂ freeTemp held
      have hgrows := grows.trans grows₂
      have hfront : ∃ front, (front = [] ∨ front = kept t item final) ∧
          content w₂.fs (tempPathFor final).resolve = some (front ++ []) := by
        rcases held with empty | ⟨c, found, fits, held⟩
        · exact ⟨[], .inl rfl, empty⟩
        · rw [same] at found
          exact ⟨c, .inr (kept_of_content found fits).symm, by rwa [List.append_nil]⟩
      obtain ⟨front, hkept, hheld⟩ := hfront
      refine Delivers.mono (receiveLoop_delivers blake3 id strategy front messages [] hgrows hheld)
        ?_
      intro r w' arrived ok
      obtain ⟨ended, freeFinal, holds⟩ := arrived ok
      rw [List.nil_append] at ended holds
      exact ⟨⟨reached, freeFinal, grows.missing freeTemp⟩, ended, front, hkept, holds⟩
  · cases refused

private theorem receiveRegular_delivers (blake3 : Bytes → Digest) (id : String)
    (strategy : FileConflictStrategy) (final : PathBuf) (messages : Stream) :
    Delivers exec free 0
      (fun r w' => r = ackOf item true none → Accounted blake3 w.fs item messages final w'.fs)
      (receiveRegular blake3 item id strategy final messages) w := by
  unfold receiveRegular
  cases hparent : final.parent with
  | none =>
    refine filled_delivers blake3 id strategy messages ?_ (fun k hk => hk) fun _ => rfl
    intro parent h
    rw [hparent] at h
    cases h
  | some parent =>
    refine delivers_fs (fun w₁ _ hfs => ?_) fun e r w₁ refused _ => ?_
    · cases hanswer : ((FsOp.createDirAll parent).exec w.fs).answer with
      | error e => exact failed_delivers _
      | ok u =>
        refine filled_delivers blake3 id strategy messages ?_
          (grows_exec (.createDirAll parent) hfs) fun k => ?_
        · intro q hq
          obtain rfl := Option.some.inj (hparent.symm.trans hq)
          exact hanswer
        · rw [hfs]
          exact content_makeDirs _ _ k
    · cases refused
      exact failed_delivers _

/-- A file that is acknowledged was placed where the conflict strategy put it, and holds the
bytes of its stream after what was kept of a leftover. -/
theorem receiveOneFile_delivers (blake3 : Bytes → Digest) (saveRoot : PathBuf) (id : String)
    (firstMsg : DashMessage) (rest : Stream) (regular : item.fileType = .regularFile) :
    Delivers exec free 0
      (fun r w' => r = ackOf item true none →
        ∃ final, Chosen w.fs w.config.fileConflictStrategy item saveRoot final ∧
          Accounted blake3 w.fs item (.ok firstMsg :: rest) final w'.fs)
      (receiveOneFile blake3 item firstMsg rest saveRoot id) w := by
  unfold receiveOneFile
  split
  · exact failed_delivers _
  · rename_i path valid
    refine delivers_env fun x config w₁ answered same => ?_
    have hconfig : config = w.config := (Option.some.inj answered).symm
    subst hconfig
    simp only [ret_bind, regular]
    obtain ⟨found, surveyed, -⟩ := exists_survey
      (resolveConflictPath_within path w.config.fileConflictStrategy) looks_metadata w.fs
    rw [← same.fs] at surveyed
    refine delivers_survey surveyed fun w₂ _ hfs => ?_
    rcases found with e | (_ | final)
    · exact failed_delivers _
    · exact failed_delivers _
    · refine Delivers.mono
        (receiveRegular_delivers blake3 id w.config.fileConflictStrategy final _) ?_
      intro r w' accounted ok
      have haccounted := accounted ok
      rw [hfs, same.fs] at haccounted
      rw [same.fs] at surveyed
      exact ⟨final, ⟨path, valid, surveyed⟩, haccounted⟩

private theorem Chosen.child {t : Tree} {strategy : FileConflictStrategy}
    {saveRoot final : PathBuf} (chosen : Chosen t strategy item saveRoot final)
    (vacant : isDir t final.resolve = false) :
    ∃ (p : PathBuf) (n : Name), final = p.child n ∧ p.Onward := by
  obtain ⟨path, valid, surveyed⟩ := chosen
  obtain ⟨a, found, spec⟩ := exists_survey (resolveConflictPath_spec path strategy) looks_metadata t
  obtain rfl := Option.some.inj (found.symm.trans surveyed)
  refine (final_shape valid (spec final rfl)).resolve_left fun nameless => ?_
  exact ne_nil_of_look vacant nameless.top

def Placed (item : FileItem) (final : PathBuf) (c : Bytes) (x : Code TaskResult)
    (w' : World) : Prop :=
  x = .pure (ackOf item true none) ∧ content w'.fs final.resolve = some c

def Refuses (guard : Guard Op World Ans) : Prop := ∀ i o w, guard i o ⟨0, .io notFound⟩ w

section Guarded

variable {guard : Guard Op World Ans} [Plain guard] {i : ℕ}

private theorem rename_reaches {final temp : PathBuf} {c : Bytes}
    (held : content w.fs temp.resolve = some c) (vacant : isDir w.fs final.resolve = false)
    (parent : isDir w.fs final.resolve.dropLast = true) :
    Reaches exec guard i (Placed item final c) (do
      match ← fs (.rename temp final) with
      | .error e => abandon item temp (ioErrorCode e)
      | .ok () => pure (ackOf item true none)) w := by
  refine reaches_fs fun w₁ _ hfs _ => ?_
  rw [exec_rename held vacant parent] at hfs ⊢
  refine ⟨rfl, ?_⟩
  rw [hfs, content_insert_file (ne_nil_of_look vacant), if_pos rfl]

private theorem placeFile_reaches (strategy : FileConflictStrategy) {final temp : PathBuf}
    {c : Bytes} (apart : temp.resolve ≠ final.resolve)
    (held : content w.fs temp.resolve = some c) (vacant : isDir w.fs final.resolve = false)
    (parent : isDir w.fs final.resolve.dropLast = true) :
    Reaches exec guard i (Placed item final c) (placeFile item strategy final temp)
      w := by
  unfold placeFile
  by_cases hover : strategy = .overwrite
  · rw [if_pos hover]
    refine reaches_fs fun w₁ _ hfs _ => ?_
    have hfs : w₁.fs = w.fs := hfs
    rw [← hfs] at held vacant parent
    rw [← hfs]
    cases occupied : ((FsOp.metadata final).exec w₁.fs).answer with
    | none => exact rename_reaches held vacant parent
    | some info =>
      obtain ⟨old, hold⟩ : ∃ old, content w₁.fs final.resolve = some old := by
        obtain ⟨node, found, -⟩ := Option.map_eq_some_iff.mp occupied
        cases node with
        | file old => exact ⟨old, content_eq_some.mpr found⟩
        | dir len =>
          rw [isDir_iff.mpr ⟨len, found⟩] at vacant
          cases vacant
      refine reaches_fs fun w₂ _ hfs₂ _ => ?_
      rw [exec_removeFile hold] at hfs₂ ⊢
      refine rename_reaches ?_ ?_ ?_
      · rw [hfs₂, content_erase (ne_nil_of_look vacant), if_neg apart]
        exact held
      · rw [hfs₂, isDir_erase_eq vacant]
        exact vacant
      · rw [hfs₂, isDir_erase_eq vacant]
        exact parent
  · rw [if_neg hover]
    exact rename_reaches held vacant parent

structure Beside (w : World) (temp : PathBuf) (w' : World) : Prop where
  dirs : ∀ k, isDir w'.fs k = isDir w.fs k
  others : ∀ k, k ≠ temp.resolve → content w'.fs k = content w.fs k

theorem Beside.of_fs {temp : PathBuf} {w' : World} (h : w'.fs = w.fs) : Beside w temp w' :=
  ⟨fun k => by rw [h], fun k _ => by rw [h]⟩

theorem Beside.trans {temp : PathBuf} {w' w'' : World} (h : Beside w temp w')
    (h' : Beside w' temp w'') : Beside w temp w'' :=
  ⟨fun k => (h'.dirs k).trans (h.dirs k), fun k hk => (h'.others k hk).trans (h.others k hk)⟩

theorem Beside.insert {temp : PathBuf} {c : Bytes} {w' : World}
    (vacant : isDir w.fs temp.resolve = false)
    (hfs : w'.fs = w.fs.insert temp.resolve (.file c)) : Beside w temp w' := by
  refine ⟨fun k => ?_, fun k hk => ?_⟩
  · rw [hfs, isDir_insert_file_eq vacant]
  · rw [hfs, content_insert_file (ne_nil_of_look vacant), if_neg hk]

theorem Beside.erase {temp : PathBuf} {w' : World} (vacant : isDir w.fs temp.resolve = false)
    (hfs : w'.fs = w.fs.erase temp.resolve) : Beside w temp w' := by
  refine ⟨fun k => ?_, fun k hk => ?_⟩
  · rw [hfs, isDir_erase_eq vacant]
  · rw [hfs, content_erase (ne_nil_of_look vacant), if_neg hk]

section Arriving

variable {P : Code TaskResult → World → Prop}

private theorem receiveLoop_reaches (blake3 : Bytes → Digest) (id : String)
    (strategy : FileConflictStrategy) {final temp : PathBuf} (front : Bytes)
    (messages : Stream) (hashed : Bytes) (addressed : Addressed item messages)
    (matched : ∀ complete, closing messages = some complete →
      blake3 (hashed ++ payload messages) = complete.fileHash)
    (held : content w.fs temp.resolve = some (front ++ hashed))
    (place : ∀ w', Beside w temp w' →
      content w'.fs temp.resolve = some (front ++ (hashed ++ payload messages)) →
      Reaches exec guard i P (placeFile item strategy final temp) w') :
    Reaches exec guard i P (receiveLoop blake3 item id strategy final temp hashed messages) w := by
  induction messages generalizing hashed w with
  | nil => exact addressed.elim
  | cons m rest ih =>
    cases m with
    | error f => exact addressed.elim
    | ok message =>
      cases message with
      | chunk chunk =>
        obtain ⟨hid, later⟩ := addressed
        simp only [receiveLoop, hid, ne_eq, not_true_eq_false, if_false]
        refine reaches_fs fun w₁ _ hfs _ => ?_
        rw [exec_writeAll held] at hfs ⊢
        have hfile := isDir_of_content held
        refine reaches_quiet (addProgress_quiet id _) fun _ w₂ same => ?_
        have hfs₂ : w₂.fs = w.fs.insert temp.resolve (.file (front ++ hashed ++ chunk.data)) :=
          same.fs.trans hfs
        refine ih (w := w₂) (hashed ++ chunk.data) later ?_ ?_ fun w' beside holds => ?_
        · intro complete hclosing
          rw [List.append_assoc]
          exact matched complete hclosing
        · rw [hfs₂, content_insert_file (ne_nil_of_look hfile), if_pos rfl, List.append_assoc]
        · refine place w' ((Beside.insert hfile hfs₂).trans beside) ?_
          simpa only [payload, List.append_assoc] using holds
      | complete complete =>
        have hid : complete.fileId = item.fileId := addressed
        have hhash := matched complete rfl
        simp only [payload, List.append_nil] at hhash place
        simp only [receiveLoop, hid, ne_eq, not_true_eq_false, if_false]
        refine reaches_fs fun w₁ _ hfs _ => ?_
        have hfs : w₁.fs = w.fs := hfs
        simp only [ret_bind, hhash, not_true_eq_false, if_false]
        exact place w₁ (.of_fs hfs) (by rwa [hfs])
      | _ => exact addressed.elim

section Opening

variable {α : Type} {P : Code α → World → Prop} {temp : PathBuf}

private theorem create_reaches {w₁ : World} {k : Except IoError Unit → Code α}
    (beside : Beside w temp w₁) (vacant : isDir w.fs temp.resolve = false)
    (parent : isDir w.fs temp.resolve.dropLast = true)
    (later : ∀ w', Beside w temp w' → content w'.fs temp.resolve = some [] →
      Reaches exec guard i P (k (.ok ())) w') :
    Reaches exec guard i P (.op (.fs (.createFile temp)) k) w₁ := by
  rw [← beside.dirs] at vacant parent
  refine reaches_fs fun w₂ _ hfs _ => ?_
  rw [exec_createFile vacant parent] at hfs ⊢
  refine later w₂ (beside.trans (.insert vacant hfs)) ?_
  rw [hfs, content_insert_file (ne_nil_of_look vacant), if_pos rfl]

private theorem remove_reaches {k : Except IoError Unit → Code α} {c : Bytes} {w₁ : World}
    (beside : Beside w temp w₁) (held : content w₁.fs temp.resolve = some c)
    (later : ∀ r w', Beside w temp w' → Reaches exec guard i P (k r) w') :
    Reaches exec guard i P (.op (.fs (.removeFile temp)) k) w₁ := by
  refine reaches_fs fun w₂ _ hfs _ => later _ w₂ (beside.trans ?_)
  rw [exec_removeFile held] at hfs
  exact .erase (isDir_of_content held) hfs

private theorem open_reaches {front : Bytes}
    (hfront : front = [] ∧ (Refuses guard ∨
        ∀ c, content w.fs temp.resolve = some c → c = [] ∨ item.size < c.length) ∨
      content w.fs temp.resolve = some front ∧ front.length ≤ item.size)
    (vacant : isDir w.fs temp.resolve = false) (parent : isDir w.fs temp.resolve.dropLast = true)
    {f : Option (Except IoError Unit) → Code α}
    (later : ∀ w', Beside w temp w' → content w'.fs temp.resolve = some front →
      Reaches exec guard i P (f (some (.ok ()))) w') :
    Reaches exec guard i P
      ((leftoverLength item temp).bind fun offset => (openTemp temp offset).bind f) w := by
  unfold leftoverLength
  refine reaches_fs fun w₁ _ hfs _ => ?_
  have hfs : w₁.fs = w.fs := hfs
  have beside : Beside w temp w₁ := .of_fs hfs
  cases hc : content w.fs temp.resolve with
  | none =>
    have hnone := look_eq_none vacant hc
    obtain rfl : front = [] := by
      rcases hfront with ⟨h, -⟩ | ⟨h, -⟩
      · exact h
      · rw [hc] at h
        cases h
    have hanswer : ((FsOp.metadata temp).exec w.fs).answer = none := by
      simp only [FsOp.exec, hnone, Option.map_none]
    rw [hanswer]
    exact create_reaches beside vacant parent later
  | some c =>
    have hanswer : ((FsOp.metadata temp).exec w.fs).answer = some ⟨true, c.length⟩ := by
      simp only [FsOp.exec, content_eq_some.mp hc, Option.map_some, Node.metadata]
    have held : content w₁.fs temp.resolve = some c := by rwa [hfs]
    rw [hanswer]
    simp only [ret_bind]
    split_ifs with tooLong
    · obtain rfl : front = [] := by
        rcases hfront with ⟨h, -⟩ | ⟨h, fits⟩
        · exact h
        · obtain rfl := Option.some.inj (h.symm.trans hc)
          omega
      exact remove_reaches beside held fun _ w₂ beside₂ =>
        create_reaches beside₂ vacant parent later
    · rcases Nat.eq_zero_or_pos c.length with zero | positive
      · have hempty : front = [] := by
          rcases hfront with ⟨h, -⟩ | ⟨h, -⟩
          · exact h
          · obtain rfl := Option.some.inj (h.symm.trans hc)
            exact List.length_eq_zero_iff.mp zero
        subst hempty
        rw [zero]
        exact create_reaches beside vacant parent later
      · simp only [pure_def, ret_bind, openTemp, gt_iff_lt, positive, if_true]
        by_cases hsame : front = c
        · subst hsame
          refine reaches_fs fun w₂ _ hfs₂ _ => ?_
          rw [exec_openAppend held] at hfs₂ ⊢
          have hfs₂ : w₂.fs = w.fs := hfs₂.trans hfs
          exact later w₂ (.of_fs hfs₂) (by rwa [hfs₂])
        · obtain ⟨rfl, refuses⟩ : front = [] ∧ Refuses guard := by
            rcases hfront with ⟨h, refuses | useless⟩ | ⟨h, -⟩
            · exact ⟨h, refuses⟩
            · obtain rfl | long := useless c hc
              · cases positive
              · exact absurd long tooLong
            · exact absurd (Option.some.inj (h.symm.trans hc)) hsame
          refine reaches_refused (g := .openAppend temp) (e := notFound) (refuses _ _ _) rfl
            fun w₂ same => ?_
          have beside₂ : Beside w temp w₂ := .of_fs (same.fs.trans hfs)
          refine remove_reaches beside₂ (by rw [same.fs]; exact held) fun _ w₃ beside₃ => ?_
          exact create_reaches beside₃ vacant parent later

end Opening

private theorem receiveRegular_reaches (blake3 : Bytes → Digest) (id : String)
    (strategy : FileConflictStrategy) {p : PathBuf} {n : Name} (onward : p.Onward)
    (placeable : Placeable w.fs (p.child n)) {messages : Stream}
    (addressed : Addressed item messages)
    (matched : ∀ complete, closing messages = some complete →
      blake3 (payload messages) = complete.fileHash)
    {front : Bytes} (hfront : front = kept w.fs item (p.child n) ∨ front = [] ∧ Refuses guard)
    (place : ∀ w', content w'.fs (p.resolve ++ [tempName n]) = some (front ++ payload messages) →
      isDir w'.fs (p.resolve ++ [n]) = false → isDir w'.fs p.resolve = true →
      (∀ k, k ≠ p.resolve ++ [tempName n] → content w'.fs k = content w.fs k) →
      Reaches exec guard i P (placeFile item strategy (p.child n) (p.child (tempName n))) w') :
    Reaches exec guard i P (receiveRegular blake3 item id strategy (p.child n) messages) w := by
  obtain ⟨reached, vacantFinal, vacantTemp⟩ := placeable
  have made := reached p (parent_child p n)
  obtain ⟨hparent, hdirs⟩ := prepared_dir onward made
  rw [tempPathFor_child, resolve_child] at vacantTemp
  rw [resolve_child] at vacantFinal
  simp only [receiveRegular, parent_child, tempPathFor_child]
  refine reaches_fs fun w₁ _ hfs _ => ?_
  rw [made]
  refine reaches_fs fun w₂ _ hfs₂ _ => ?_
  have hfs : w₂.fs = ((FsOp.createDirAll p).exec w.fs).tree := hfs₂.trans hfs
  have files (k : Key) : content w₂.fs k = content w.fs k := by
    rw [hfs]
    exact content_makeDirs _ _ _
  have hheld : front = [] ∧ (Refuses guard ∨
        ∀ c, content w₂.fs (p.child (tempName n)).resolve = some c → c = [] ∨ item.size < c.length) ∨
      content w₂.fs (p.child (tempName n)).resolve = some front ∧ front.length ≤ item.size := by
    rcases hfront with h | ⟨h, refuses⟩
    · simp only [kept, tempPathFor_child] at h
      rw [files]
      split at h
      · rename_i c found
        split_ifs at h with tooLong
        · refine .inl ⟨h, .inr fun c' found' => .inr ?_⟩
          obtain rfl := Option.some.inj (found'.symm.trans found)
          exact tooLong
        · rw [h]
          exact .inr ⟨found, Nat.le_of_not_lt tooLong⟩
      · rename_i missing
        refine .inl ⟨h, .inr fun c' found' => ?_⟩
        rw [missing] at found'
        cases found'
    · exact .inl ⟨h, .inl refuses⟩
  refine open_reaches hheld ?_ ?_ ?_
  · rw [hfs, resolve_child, hdirs]
    exact vacantTemp
  · rw [hfs, resolve_child, List.dropLast_concat]
    exact hparent
  · intro w₃ beside holds
    refine receiveLoop_reaches (w := w₃) blake3 id strategy front messages [] addressed matched
      (by rwa [List.append_nil]) fun w₄ beside₄ holds₄ => ?_
    have whole := beside.trans beside₄
    rw [resolve_child, List.nil_append] at holds₄
    refine place w₄ holds₄ ?_ ?_ fun k hk => ?_
    · rw [whole.dirs, hfs, hdirs]
      exact vacantFinal
    · rw [whole.dirs, hfs]
      exact hparent
    · rw [whole.others k (by rwa [resolve_child]), files]

theorem receiveOneFile_arrives (blake3 : Bytes → Digest) {saveRoot final : PathBuf}
    (id : String) (regular : item.fileType = .regularFile)
    (chosen : Chosen w.fs w.config.fileConflictStrategy item saveRoot final)
    (placeable : Placeable w.fs final) {firstMsg : DashMessage} {rest : Stream}
    (addressed : Addressed item (.ok firstMsg :: rest))
    (matched : ∀ complete, closing (.ok firstMsg :: rest) = some complete →
      blake3 (payload (.ok firstMsg :: rest)) = complete.fileHash)
    {front : Bytes} (hfront : front = kept w.fs item final ∨ front = [] ∧ Refuses guard)
    (place : ∀ (p : PathBuf) (n : Name) (w' : World), final = p.child n →
      content w'.fs (p.resolve ++ [tempName n]) = some (front ++ payload (.ok firstMsg :: rest)) →
      isDir w'.fs (p.resolve ++ [n]) = false → isDir w'.fs p.resolve = true →
      (∀ k, k ≠ p.resolve ++ [tempName n] → content w'.fs k = content w.fs k) →
      Reaches exec guard i P
        (placeFile item w.config.fileConflictStrategy (p.child n) (p.child (tempName n))) w') :
    Reaches exec guard i P (receiveOneFile blake3 item firstMsg rest saveRoot id) w := by
  obtain ⟨p, n, rfl, onward⟩ := chosen.child placeable.freeFinal
  obtain ⟨path, valid, surveyed⟩ := chosen
  simp only [receiveOneFile, valid, regular]
  refine reaches_env_of ⟨0, .unit⟩ (Plain.allows _ _ _) rfl fun w₁ same => ?_
  rw [← same.fs] at surveyed placeable hfront
  refine reaches_survey surveyed fun w₂ same₂ => ?_
  rw [← same₂.fs] at placeable hfront
  refine receiveRegular_reaches blake3 id _ onward placeable addressed matched hfront ?_
  intro w' holds vacant parent others
  refine place p n w' rfl holds vacant parent fun k hk => ?_
  rw [others k hk, same₂.fs, same.fs]

end Arriving

theorem receiveOneFile_reaches (blake3 : Bytes → Digest) {saveRoot final : PathBuf}
    (id : String) (regular : item.fileType = .regularFile)
    (chosen : Chosen w.fs w.config.fileConflictStrategy item saveRoot final)
    (placeable : Placeable w.fs final) {firstMsg : DashMessage} {rest : Stream}
    (addressed : Addressed item (.ok firstMsg :: rest))
    (matched : ∀ complete, closing (.ok firstMsg :: rest) = some complete →
      blake3 (payload (.ok firstMsg :: rest)) = complete.fileHash)
    {front : Bytes} (hfront : front = kept w.fs item final ∨ front = [] ∧ Refuses guard) :
    Reaches exec guard i (Placed item final (front ++ payload (.ok firstMsg :: rest)))
      (receiveOneFile blake3 item firstMsg rest saveRoot id) w := by
  refine receiveOneFile_arrives blake3 id regular chosen placeable addressed matched hfront ?_
  rintro p n w' rfl holds vacant parent -
  refine placeFile_reaches _ ?_ ?_ ?_ ?_
  · rw [resolve_child, resolve_child]
    intro same
    exact tempName_ne n (by simpa using same)
  · rwa [resolve_child]
  · rwa [resolve_child]
  · rwa [resolve_child, List.dropLast_concat]

end Guarded

/-- Whatever its stream brings and whatever fails on the way, an acknowledged file has the hash
that the `Complete` announced. -/
def Intact (blake3 : Bytes → Digest) (w : World) (item : FileItem) (saveRoot : PathBuf)
    (id : String) : Prop :=
  ∀ (firstMsg : DashMessage) (rest : Stream) t,
    Run exec free ⟨w, [receiveOneFile blake3 item firstMsg rest saveRoot id]⟩ t →
    t.result 0 = some (ackOf item true none) →
    ∃ final c complete, Chosen w.fs w.config.fileConflictStrategy item saveRoot final ∧
      content t.world.fs final.resolve = some c ∧
      closing (.ok firstMsg :: rest) = some complete ∧ blake3 c = complete.fileHash

/-- The file can be placed, and a part file that is neither empty nor too long lies beside it. -/
def Resumes (w : World) (item : FileItem) (saveRoot : PathBuf) : Prop :=
  ∃ final, Chosen w.fs w.config.fileConflictStrategy item saveRoot final ∧
    Placeable w.fs final ∧ kept w.fs item final ≠ []

theorem Chosen.unique {t : Tree} {strategy : FileConflictStrategy}
    {saveRoot final final' : PathBuf} (h : Chosen t strategy item saveRoot final)
    (h' : Chosen t strategy item saveRoot final') : final = final' := by
  obtain ⟨path, valid, surveyed⟩ := h
  obtain ⟨path', valid', surveyed'⟩ := h'
  obtain rfl : path = path' := by
    have same := valid.symm.trans valid'
    cases same
    rfl
  have same := surveyed.symm.trans surveyed'
  cases same
  rfl

theorem exists_placed {i : ℕ} {ts : List (Code TaskResult)} {x : Code TaskResult}
    {final : PathBuf} {c : Bytes} (here : ts[i]? = some x)
    (reaches : Reaches exec free i (Placed item final c) x w) :
    ∃ t, Run exec free ⟨w, ts⟩ t ∧ t.result i = some (ackOf item true none) ∧
      content t.world.fs final.resolve = some c := by
  obtain ⟨y, w', run, rfl, holds⟩ := reaches.exists_run here
  refine ⟨_, run, ?_, holds⟩
  have short := (List.getElem?_eq_some_iff.mp here).1
  simp [Pool.result, short]

theorem acknowledged_file_intact (blake3 : Bytes → Digest)
    (collisionFree : ∀ c, blake3 c = blake3 [] → c = []) (w : World) (item : FileItem)
    (regular : item.fileType = .regularFile) (saveRoot : PathBuf) (id : String) :
    Intact blake3 w item saveRoot id ↔ ¬ Resumes w item saveRoot := by
  constructor
  · rintro intact ⟨final, chosen, placeable, leftover⟩
    -- a stream without data, whose `Complete` carries the hash of no data
    have addressed : Addressed item [.ok (.complete ⟨item.fileId, blake3 []⟩)] := rfl
    have matched (complete : CompletePayload)
        (h : closing [.ok (.complete ⟨item.fileId, blake3 []⟩)] = some complete) :
        blake3 (payload [.ok (.complete ⟨item.fileId, blake3 []⟩)]) = complete.fileHash := by
      cases h
      rfl
    obtain ⟨t, run, returned, holds⟩ := exists_placed (show [_][0]? = some _ from rfl)
      (receiveOneFile_reaches blake3 id regular chosen placeable addressed matched (.inl rfl))
    obtain ⟨final', c, complete, chosen', found, ended, hash⟩ := intact _ _ t run returned
    obtain rfl := chosen.unique chosen'
    cases ended
    obtain rfl := Option.some.inj (found.symm.trans holds)
    exact leftover (by simpa [payload] using collisionFree _ hash)
  · intro clean firstMsg rest t run returned
    obtain ⟨final, chosen, placeable, ⟨-, complete, ended, hash⟩, front, hfront, holds⟩ :=
      run.delivers (receiveOneFile_delivers blake3 saveRoot id firstMsg rest regular) returned rfl
    have hempty : front = [] := by
      rcases hfront with h | h
      · exact h
      · by_contra leftover
        exact clean ⟨final, chosen, placeable, fun hkept => leftover (h.trans hkept)⟩
    subst hempty
    exact ⟨final, _, complete, chosen, holds, ended, hash⟩

/-- The published digests of the empty input and of a zero byte, and the latter for any other
input. -/
def sampleHash : Bytes → Digest
  | [] => ⟨#v[0xaf, 0x13, 0x49, 0xb9, 0xf5, 0xf9, 0xa1, 0xa6, 0xa0, 0x40, 0x4d, 0xea, 0x36, 0xdc,
      0xc9, 0x49, 0x9b, 0xcb, 0x25, 0xc9, 0xad, 0xc1, 0x12, 0xb7, 0xcc, 0x9a, 0x93, 0xca, 0xe4, 0x1f,
      0x32, 0x62]⟩
  | _ => ⟨#v[0x2d, 0x3a, 0xde, 0xdf, 0xf1, 0x1b, 0x61, 0xf1, 0x4c, 0x88, 0x6e, 0x35, 0xaf, 0xa0,
      0x36, 0x73, 0x6d, 0xcd, 0x87, 0xa7, 0x4d, 0x27, 0xb5, 0xc1, 0x51, 0x02, 0x25, 0xd0, 0xf5, 0x92,
      0xe2, 0x13]⟩

private theorem sampleHash_collisionFree (c : Bytes) (h : sampleHash c = sampleHash []) : c = [] := by
  cases c with
  | nil => rfl
  | cons b bs => exact absurd h (by simp only [sampleHash]; decide)

def sampleRoot : PathBuf := .ofText "/dl/DashDrop/t1".toList

def sampleItem : FileItem := ⟨7, "a", "a", 1, .regularFile, 0, none, none⟩

private theorem content_empty (k : Key) : content ∅ k = none := by
  unfold content look
  split_ifs with h
  · rfl
  · rfl

theorem kept_fresh (final : PathBuf) :
    kept (World.start AppConfig.standard).fs sampleItem final = [] := by
  rw [kept, show (World.start AppConfig.standard).fs = ∅ from rfl, content_empty]

theorem acknowledged_file_intact_fresh :
    sampleItem.fileType = .regularFile ∧
      Intact sampleHash (World.start AppConfig.standard) sampleItem sampleRoot "t1" := by
  refine ⟨rfl, (acknowledged_file_intact sampleHash sampleHash_collisionFree _ sampleItem rfl
    sampleRoot "t1").mpr ?_⟩
  rintro ⟨final, -, -, leftover⟩
  exact leftover (kept_fresh final)

private def leftoverKey : Key := (tempPathFor (sampleRoot.join (.ofText ['a']))).resolve

private def finalKey : Key := (sampleRoot.join (.ofText ['a'])).resolve

private def leftoverWorld : World :=
  { World.start AppConfig.standard with
    fs := (dirTree [sampleRoot.resolve, sampleRoot.resolve.dropLast,
      sampleRoot.resolve.dropLast.dropLast]).insert leftoverKey (.file [0]) }

/-- The stream brings no data: the leftover is acknowledged under the hash of the empty file. -/
theorem leftover_acknowledged_unhashed :
    ∃ t, Run exec free ⟨leftoverWorld,
        [receiveOneFile sampleHash sampleItem (.complete ⟨7, sampleHash []⟩) [] sampleRoot "t1"]⟩ t ∧
      t.result 0 = some (ackOf sampleItem true none) ∧
      content t.world.fs finalKey = some [0] ∧ sampleHash [0] ≠ sampleHash [] ∧
      ¬ Intact sampleHash leftoverWorld sampleItem sampleRoot "t1" := by
  have apart : sampleHash [0] ≠ sampleHash [] := by
    simp only [sampleHash]
    decide
  have chosen : Chosen leftoverWorld.fs leftoverWorld.config.fileConflictStrategy sampleItem
      sampleRoot (.absolute finalKey) := ⟨.absolute finalKey, by decide, by decide⟩
  obtain ⟨t, run, found⟩ := exists_run_of_play exec unchecked_sound
    (⟨leftoverWorld,
        [receiveOneFile sampleHash sampleItem (.complete ⟨7, sampleHash []⟩) [] sampleRoot "t1"]⟩ :
      Pool Op Op.Resp World TaskResult)
    (List.replicate 8 (0, ⟨0, .unit⟩))
    (fun t => decide (t.result 0 = some (ackOf sampleItem true none) ∧
      content t.world.fs finalKey = some [0])) (by decide)
  obtain ⟨returned, holds⟩ := of_decide_eq_true found
  refine ⟨t, run, returned, holds, apart, fun intact => ?_⟩
  obtain ⟨final, c, complete, chosen', held, ended, hash⟩ := intact _ _ t run returned
  obtain rfl := chosen.unique chosen'
  rw [resolve_absolute] at held
  obtain rfl := Option.some.inj (held.symm.trans holds)
  cases ended
  exact apart hash

end DashDrop.Receiving.Integrity
