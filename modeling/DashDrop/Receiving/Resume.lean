/- GID: DashDrop/Receiving/Resume
   source: src-tauri/src/transport/receiver.rs, src-tauri/src/transport/sender.rs
   anchors: []
   digest: What becomes of a part file that is the beginning of the source it is resumed from. -/

import DashDrop.Receiving.Integrity
import DashDrop.Transport.FileStream

set_option autoImplicit false
set_option relaxedAutoImplicit false

namespace DashDrop.Receiving.Resume

open DashDrop.Foundation.UnixPath DashDrop.Foundation.FileTree
open DashDrop.Foundation.Program DashDrop.Foundation.Interleaving
open DashDrop.Transport.Protocol DashDrop.Transport.Outcome DashDrop.Transport.PathValidation
open DashDrop.Transport.Receiver DashDrop.Transport.DiskNames DashDrop.Transport.FileStream
open DashDrop.Runtime.State DashDrop.Runtime.Machine DashDrop.Runtime.Footprint
open DashDrop.Runtime.Solo DashDrop.Receiving.Integrity

/-- The offset that the sender takes from an `Accept` for a file. -/
def resumeOffsetOf (fileId : ℕ) (accept : AcceptPayload) : ℕ :=
  ((accept.resumeOffsets.getD []).lookup fileId).getD 0

/-- The sender writes the stream of its unchanged source, and the receiver takes it. -/
def resume (blake3 : Bytes → Digest) (item : FileItem) (source : Bytes) (reads : ℕ → ℕ)
    (saveRoot : PathBuf) (id : String) (resumeOffset : ℕ) : Code TaskResult :=
  let messages := sendOneFile blake3 item.fileId source reads resumeOffset
  receiveOneFile blake3 item messages.1 (messages.2.map .ok) saveRoot id

/-- One file between an honest sender and the receiver, which advertises what it has of the file
in its `Accept`. -/
def exchange (blake3 : Bytes → Digest) (item : FileItem) (source : Bytes) (reads : ℕ → ℕ)
    (saveRoot : PathBuf) (id : String) (chosenVersion : ℕ) : Code TaskResult := do
  let config ← env .config
  let offsets ← resumeOffsets config.fileConflictStrategy saveRoot [item]
  resume blake3 item source reads saveRoot id (resumeOffsetOf item.fileId
    ⟨chosenVersion, if offsets.isEmpty then none else some offsets⟩)

def Calm : Guard Op World Ans := fun _ _ x _ => ∀ e, x.reply ≠ .io e

instance : Plain Calm := ⟨fun _ _ _ e => by simp⟩

/-- The exchange comes to an end, and always to the one with the file acknowledged and the source
at its final path. -/
def Reconstructs (blake3 : Bytes → Digest) (w : World) (item : FileItem) (source : Bytes)
    (reads : ℕ → ℕ) (saveRoot final : PathBuf) (id : String) (chosenVersion : ℕ) : Prop :=
  let start : Pool Op Op.Resp World TaskResult :=
    ⟨w, [exchange blake3 item source reads saveRoot id chosenVersion]⟩
  (∃ t a, Run exec Calm start t ∧ t.result 0 = some a) ∧
  ∀ t a, Run exec Calm start t → t.result 0 = some a →
    a = ackOf item true none ∧ content t.world.fs final.resolve = some source

/-- The part file of the item is a beginning of its source, and not empty. -/
structure Begun (w : World) (item : FileItem) (source part : Bytes) (saveRoot final : PathBuf) :
    Prop where
  regular : item.fileType = .regularFile
  size : item.size = source.length
  chosen : Chosen w.fs w.config.fileConflictStrategy item saveRoot final
  leftover : content w.fs (tempPathFor final).resolve = some part
  begins : part <+: source
  nonempty : part ≠ []

section Messages

variable (blake3 : Bytes → Digest) (item : FileItem) (source : Bytes) (reads : ℕ → ℕ)

/-- Chunks and their `Complete`. -/
private def streamOf (chunks : List ChunkPayload) (complete : CompletePayload) : Stream :=
  (chunks.map fun chunk => .ok (.chunk chunk)) ++ [.ok (.complete complete)]

private theorem payload_streamOf (chunks : List ChunkPayload) (complete : CompletePayload) :
    payload (streamOf chunks complete) = (chunks.map ChunkPayload.data).flatten := by
  induction chunks with
  | nil => rfl
  | cons chunk chunks ih => exact congrArg (chunk.data ++ ·) ih

private theorem closing_streamOf (chunks : List ChunkPayload) (complete : CompletePayload) :
    closing (streamOf chunks complete) = some complete := by
  induction chunks with
  | nil => rfl
  | cons chunk chunks ih => exact ih

private theorem addressed_streamOf {chunks : List ChunkPayload} {complete : CompletePayload}
    (ids : ∀ chunk ∈ chunks, chunk.fileId = item.fileId) (last : complete.fileId = item.fileId) :
    Addressed item (streamOf chunks complete) := by
  induction chunks with
  | nil => exact last
  | cons chunk chunks ih =>
    exact ⟨ids chunk List.mem_cons_self, ih fun c mem => ids c (List.mem_cons_of_mem _ mem)⟩

/-- The stream from an offset on brings the rest of the source and the hash of all of it. -/
theorem sendOneFile_spec (offset : ℕ) :
    let messages := sendOneFile blake3 item.fileId source reads offset
    let stream : Stream := .ok messages.1 :: messages.2.map .ok
    payload stream = source.drop offset ∧
      closing stream = some ⟨item.fileId, blake3 source⟩ ∧ Addressed item stream := by
  obtain ⟨hrest, hskipped⟩ := skipPrefix_spec reads offset (.start source)
  obtain ⟨hdata, hhashed, hids⟩ :=
    sendChunks_spec item.fileId reads (skipPrefix reads offset (.start source))
  rw [hrest] at hdata hhashed
  rw [hskipped, List.append_assoc, List.take_append_drop] at hhashed
  have hhashed : (sendChunks item.fileId reads (skipPrefix reads offset (.start source))).2 =
      source := hhashed
  intro messages stream
  have hstream : stream = streamOf (sendChunks item.fileId reads
      (skipPrefix reads offset (.start source))).1 ⟨item.fileId, blake3 source⟩ := by
    simp only [stream, messages, sendOneFile, hhashed]
    cases (sendChunks item.fileId reads (skipPrefix reads offset (.start source))).1 <;>
      simp [streamOf]
  rw [hstream, payload_streamOf, closing_streamOf]
  exact ⟨hdata, rfl, addressed_streamOf item hids rfl⟩

end Messages

section Receiver

variable {blake3 : Bytes → Digest} {w : World} {item : FileItem} {source part : Bytes}
variable {reads : ℕ → ℕ} {saveRoot final : PathBuf} {id : String} {chosenVersion : ℕ}

private theorem survey_bind {α β : Type} (t : Tree) (x : Code α) (f : α → Code β) :
    survey t (x.bind f) = (survey t x).bind fun a => survey t (f a) := by
  induction x with
  | pure a => rfl
  | op o k ih =>
    cases o with
    | fs g =>
      cases g with
      | metadata p => exact ih _
      | _ => rfl
    | _ => rfl

private theorem resumeOffsetOf_single (fileId n : ℕ) :
    resumeOffsetOf fileId ⟨chosenVersion,
      if [(fileId, n)].isEmpty then none else some [(fileId, n)]⟩ = n := by
  simp [resumeOffsetOf]

private theorem Begun.advertised (begun : Begun w item source part saveRoot final) :
    survey w.fs (resumeOffsets w.config.fileConflictStrategy saveRoot [item]) =
      some [(item.fileId, part.length)] := by
  obtain ⟨path, valid, surveyed⟩ := begun.chosen
  have positive : 0 < part.length := List.length_pos_iff.mpr begun.nonempty
  have fits : part.length ≤ item.size := begun.size ▸ begun.begins.length_le
  have found : look w.fs (tempPathFor final).resolve = some (.file part) :=
    content_eq_some.mp begun.leftover
  simp only [resumeOffsets, valid]
  rw [bind_def, survey_bind, surveyed]
  simp [fs, Prog.bind, survey, found, Node.metadata, positive, fits]

private theorem Begun.kept_eq (begun : Begun w item source part saveRoot final) :
    kept w.fs item final = part := by
  have fits : part.length ≤ item.size := begun.size ▸ begun.begins.length_le
  simp [kept, begun.leftover, Nat.not_lt.mpr fits]

private theorem Begun.rejoined (begun : Begun w item source part saveRoot final) :
    part ++ source.drop part.length = source :=
  List.prefix_append_drop begun.begins |>.symm

private theorem Begun.delivers (begun : Begun w item source part saveRoot final) :
    Delivers exec free 0 (fun a _ => a = ackOf item true none →
      Placeable w.fs final ∧ blake3 (source.drop part.length) = blake3 source)
      (exchange blake3 item source reads saveRoot id chosenVersion) w := by
  refine delivers_env fun x config w₁ answered same => ?_
  obtain rfl : config = w.config := (Option.some.inj answered).symm
  have advertised := begun.advertised
  rw [← same.fs] at advertised
  refine delivers_survey advertised fun w₂ alike hfs => ?_
  rw [resumeOffsetOf_single]
  obtain ⟨hpayload, hclosing, -⟩ :=
    sendOneFile_spec blake3 item source reads _
  refine Delivers.mono (receiveOneFile_delivers blake3 saveRoot id _ _ begun.regular) ?_
  intro a w' accounted ok
  obtain ⟨final', chosen', placeable, ⟨-, complete, ended, hash⟩, -⟩ := accounted ok
  rw [hfs, same.fs, alike.config, same.config] at chosen'
  rw [hfs, same.fs] at placeable
  obtain rfl := begun.chosen.unique chosen'
  rw [hclosing] at ended
  cases ended
  rw [hpayload] at hash
  exact ⟨placeable, hash⟩

private theorem Begun.reaches (begun : Begun w item source part saveRoot final)
    (placeable : Placeable w.fs final) (hash : blake3 (source.drop part.length) = blake3 source) :
    Reaches exec Calm 0 (Placed item final source)
      (exchange blake3 item source reads saveRoot id chosenVersion) w := by
  refine reaches_env_of ⟨0, .unit⟩ (Plain.allows _ _ _) rfl fun w₁ same => ?_
  have advertised := begun.advertised
  rw [← same.fs] at advertised
  refine reaches_survey advertised fun w₂ same₂ => ?_
  have hfs : w₂.fs = w.fs := same₂.fs.trans same.fs
  rw [resumeOffsetOf_single]
  obtain ⟨hpayload, hclosing, addressed⟩ :=
    sendOneFile_spec blake3 item source reads _
  have chosen : Chosen w₂.fs w₂.config.fileConflictStrategy item saveRoot final := by
    rw [hfs, same₂.config, same.config]
    exact begun.chosen
  have matched {stream : Stream} (brings : payload stream = source.drop part.length)
      (ends : closing stream = some ⟨item.fileId, blake3 source⟩) (complete : CompletePayload)
      (ended : closing stream = some complete) : blake3 (payload stream) = complete.fileHash := by
    cases ends.symm.trans ended
    rw [brings]
    exact hash
  refine Reaches.mono (receiveOneFile_reaches blake3 id begun.regular chosen (by rwa [hfs])
    addressed (matched hpayload hclosing) (.inl rfl)) ?_
  rintro x w' ⟨returned, holds⟩
  rw [hpayload, hfs, begun.kept_eq, begun.rejoined] at holds
  exact ⟨returned, holds⟩

/-- The operations of the exchange have one answer each if no operation on files fails. -/
private def steadyOps : Op → Prop
  | .fs _ | .task (.addBytes _ _) | .env (.emit _) | .env .config => True
  | _ => False

private theorem steady_of_files {o : Op} (h : fileOps o) : steadyOps o := by
  cases o with
  | fs g => trivial
  | _ => exact h.elim

private theorem determined (i : ℕ) (o : Op) (steady : steadyOps o) (x y : Ans) (w : World)
    (calm : Calm i o x w) (calm' : Calm i o y w) : exec i o x w = exec i o y w := by
  have same : execOp x w o = execOp y w o := by
    cases o with
    | fs g =>
      have plain {x : Ans} (calm : ∀ e, x.reply ≠ .io e) : execFs x w g =
          some ({ w with fs := (g.exec w.fs).tree, touched := w.touched ++ (g.exec w.fs).touched },
            (g.exec w.fs).answer) := by
        unfold execFs
        split
        · rename_i e refused
          exact absurd refused (calm e)
        · rfl
      exact (plain calm).trans (plain calm').symm
    | task u =>
      cases u with
      | addBytes => rfl
      | _ => exact steady.elim
    | env u =>
      cases u with
      | emit | config => rfl
      | _ => exact steady.elim
    | _ => exact steady.elim
  simp only [exec, same]

private theorem receiveDirectory_steady (path : PathBuf) (message : DashMessage) :
    (receiveDirectory blake3 item path message).Within steadyOps anything := by
  cases message with
  | complete complete =>
    simp only [receiveDirectory]
    split_ifs
    · trivial
    · trivial
    · refine ⟨trivial, fun made => ?_⟩
      cases made <;> trivial
  | _ => trivial

private theorem receiveOneFile_steady (firstMsg : DashMessage) (rest : Stream) :
    (receiveOneFile blake3 item firstMsg rest saveRoot id).Within steadyOps anything := by
  unfold receiveOneFile
  split
  · trivial
  · refine ⟨trivial, fun config => ?_⟩
    simp only [ret_bind]
    split
    · exact receiveDirectory_steady _ _
    · refine ((resolveConflictPath_within _ _).mono (fun o ho => ?_) fun _ h => h).bind
        fun found _ => ?_
      · cases o with
        | fs g => trivial
        | _ => exact ho.elim
      · rcases found with e | (_ | path)
        · trivial
        · trivial
        · refine (receiveRegular_within item id _ path blake3 _).mono (fun o ho => ?_) fun _ h => h
          cases o with
          | fs g => trivial
          | task u =>
            cases u with
            | addBytes => trivial
            | _ => exact ho.elim
          | env u =>
            cases u with
            | emit => trivial
            | _ => exact ho.elim
          | _ => exact ho.elim

private theorem exchange_steady :
    (exchange blake3 item source reads saveRoot id chosenVersion).Within steadyOps anything := by
  refine ⟨trivial, fun config => ?_⟩
  refine ((resumeOffsets_within _ saveRoot [item]).mono (fun _ => steady_of_files)
    fun _ h => h).bind fun offsets _ => ?_
  exact receiveOneFile_steady _ _

private theorem Begun.hash_of_reconstructs (begun : Begun w item source part saveRoot final)
    (h : Reconstructs blake3 w item source reads saveRoot final id chosenVersion) :
    Placeable w.fs final ∧ blake3 (source.drop part.length) = blake3 source := by
  obtain ⟨⟨t, a, run, returned⟩, always⟩ := h
  obtain ⟨ok, -⟩ := always t a run returned
  have unguarded : Run exec free _ t := run.mono fun _ _ _ _ _ => trivial
  exact unguarded.delivers begun.delivers returned ok

private theorem reconstructs_of_reaches
    (reaches : Reaches exec Calm 0 (Placed item final source)
      (exchange blake3 item source reads saveRoot id chosenVersion) w) :
    Reconstructs blake3 w item source reads saveRoot final id chosenVersion := by
  constructor
  · have here : [exchange blake3 item source reads saveRoot id chosenVersion][0]? =
        some (exchange blake3 item source reads saveRoot id chosenVersion) := rfl
    obtain ⟨y, w', run, rfl, -⟩ := reaches.exists_run here
    exact ⟨_, _, run, rfl⟩
  · intro t a run returned
    have delivers := Reaches.delivers
      (Q := fun a w' => a = ackOf item true none ∧ content w'.fs final.resolve = some source)
      exchange_steady (determined 0) (reaches.mono fun x w' placed => ⟨_, placed.1, rfl, placed.2⟩)
    exact run.delivers delivers returned

private theorem Begun.reconstructs (begun : Begun w item source part saveRoot final)
    (placeable : Placeable w.fs final) (hash : blake3 (source.drop part.length) = blake3 source) :
    Reconstructs blake3 w item source reads saveRoot final id chosenVersion :=
  reconstructs_of_reaches (begun.reaches placeable hash)

end Receiver

/-- A part file that is a beginning of the source is completed to the source if and only if the
bytes after it have the digest of the whole source, which is what the sender announces. -/
theorem resume_reconstructs_iff (blake3 : Bytes → Digest) (w : World) (item : FileItem)
    (source part : Bytes) (reads : ℕ → ℕ) (saveRoot final : PathBuf) (id : String)
    (chosenVersion : ℕ) (begun : Begun w item source part saveRoot final) :
    Reconstructs blake3 w item source reads saveRoot final id chosenVersion ↔
      Placeable w.fs final ∧ blake3 (source.drop part.length) = blake3 source :=
  ⟨begun.hash_of_reconstructs, fun ⟨placeable, hash⟩ => begun.reconstructs placeable hash⟩

private def partKey : Key := (tempPathFor (sampleRoot.join (.ofText ['a']))).resolve

private def targetKey : Key := (sampleRoot.join (.ofText ['a'])).resolve

def begunWorld : World :=
  { World.start AppConfig.standard with
    fs := (dirTree [sampleRoot.resolve, sampleRoot.resolve.dropLast,
      sampleRoot.resolve.dropLast.dropLast]).insert partKey (.file [0]) }

private theorem begun_sample :
    Begun begunWorld sampleItem [0] [0] sampleRoot (.absolute targetKey) where
  regular := rfl
  size := rfl
  chosen := ⟨.absolute targetKey, by decide, by decide⟩
  leftover := by decide
  begins := List.prefix_rfl
  nonempty := by simp

theorem resume_of_sample :
    Begun begunWorld sampleItem [0] [0] sampleRoot (.absolute targetKey) ∧
      (Reconstructs sampleHash begunWorld sampleItem [0] (fun _ => 1) sampleRoot
          (.absolute targetKey) "t1" 1 ↔
        Placeable begunWorld.fs (.absolute targetKey) ∧ sampleHash [] = sampleHash [0]) :=
  ⟨begun_sample, resume_reconstructs_iff sampleHash begunWorld sampleItem [0] [0] (fun _ => 1)
    sampleRoot (.absolute targetKey) "t1" 1 begun_sample⟩

/-- The whole file was there, and the exchange does not acknowledge it. -/
theorem complete_part_not_reconstructed :
    Begun begunWorld sampleItem [0] [0] sampleRoot (.absolute targetKey) ∧
      ¬ Reconstructs sampleHash begunWorld sampleItem [0] (fun _ => 1) sampleRoot
          (.absolute targetKey) "t1" 1 := by
  refine ⟨begun_sample, fun reconstructs => ?_⟩
  have same : sampleHash [] = sampleHash [0] := (begun_sample.hash_of_reconstructs reconstructs).2
  exact absurd same (by simp only [sampleHash]; decide)

/-- There is no part file of the item, or an empty one. -/
structure Unbegun (w : World) (item : FileItem) (saveRoot final : PathBuf) : Prop where
  regular : item.fileType = .regularFile
  chosen : Chosen w.fs w.config.fileConflictStrategy item saveRoot final
  leftover : look w.fs (tempPathFor final).resolve = none ∨
    look w.fs (tempPathFor final).resolve = some (.file [])

section Fresh

variable {blake3 : Bytes → Digest} {w : World} {item : FileItem} {source : Bytes}
variable {reads : ℕ → ℕ} {saveRoot final : PathBuf} {id : String} {chosenVersion : ℕ}

private theorem Unbegun.advertised (unbegun : Unbegun w item saveRoot final) :
    survey w.fs (resumeOffsets w.config.fileConflictStrategy saveRoot [item]) = some [] := by
  obtain ⟨path, valid, surveyed⟩ := unbegun.chosen
  simp only [resumeOffsets, valid]
  rw [bind_def, survey_bind, surveyed]
  rcases unbegun.leftover with none | empty
  · simp [fs, Prog.bind, survey, none]
  · simp [fs, Prog.bind, survey, empty, Node.metadata]

private theorem Unbegun.kept_eq (unbegun : Unbegun w item saveRoot final) :
    kept w.fs item final = [] := by
  unfold kept content
  rcases unbegun.leftover with none | empty
  · rw [none]
  · rw [empty]
    exact ite_self _

private theorem Unbegun.delivers (unbegun : Unbegun w item saveRoot final) :
    Delivers exec free 0 (fun a _ => a = ackOf item true none → Placeable w.fs final)
      (exchange blake3 item source reads saveRoot id chosenVersion) w := by
  refine delivers_env fun x config w₁ answered same => ?_
  obtain rfl : config = w.config := (Option.some.inj answered).symm
  have advertised := unbegun.advertised
  rw [← same.fs] at advertised
  refine delivers_survey advertised fun w₂ alike hfs => ?_
  refine Delivers.mono (receiveOneFile_delivers blake3 saveRoot id _ _ unbegun.regular) ?_
  intro a w' accounted ok
  obtain ⟨final', chosen', placeable, -⟩ := accounted ok
  rw [hfs, same.fs, alike.config, same.config] at chosen'
  rw [hfs, same.fs] at placeable
  obtain rfl := unbegun.chosen.unique chosen'
  exact placeable

private theorem Unbegun.reaches (unbegun : Unbegun w item saveRoot final)
    (placeable : Placeable w.fs final) :
    Reaches exec Calm 0 (Placed item final source)
      (exchange blake3 item source reads saveRoot id chosenVersion) w := by
  refine reaches_env_of ⟨0, .unit⟩ (Plain.allows _ _ _) rfl fun w₁ same => ?_
  have advertised := unbegun.advertised
  rw [← same.fs] at advertised
  refine reaches_survey advertised fun w₂ same₂ => ?_
  have hfs : w₂.fs = w.fs := same₂.fs.trans same.fs
  have chosen : Chosen w₂.fs w₂.config.fileConflictStrategy item saveRoot final := by
    rw [hfs, same₂.config, same.config]
    exact unbegun.chosen
  obtain ⟨hpayload, hclosing, addressed⟩ := sendOneFile_spec blake3 item source reads 0
  rw [List.drop_zero] at hpayload
  have matched {stream : Stream} (brings : payload stream = source)
      (ends : closing stream = some ⟨item.fileId, blake3 source⟩) (complete : CompletePayload)
      (ended : closing stream = some complete) : blake3 (payload stream) = complete.fileHash := by
    cases ends.symm.trans ended
    rw [brings]
  refine Reaches.mono (receiveOneFile_reaches blake3 id unbegun.regular chosen (by rwa [hfs])
    addressed (matched hpayload hclosing) (.inl rfl)) ?_
  rintro x w' ⟨returned, holds⟩
  rw [hpayload, hfs, unbegun.kept_eq] at holds
  exact ⟨returned, holds⟩

end Fresh

end DashDrop.Receiving.Resume
