/- GID: DashDrop/Receiving/Containment
   source: src-tauri/src/transport/receiver.rs, src-tauri/src/transport/path_validation.rs
   anchors: []
   digest: Which transfer identifiers keep the receiver inside the download directory. -/

import DashDrop.Runtime.Footprint
import DashDrop.Runtime.Solo
import DashDrop.Transport.Destinations

set_option autoImplicit false
set_option relaxedAutoImplicit false

namespace DashDrop.Receiving.Containment

open DashDrop.Foundation.UnixPath DashDrop.Foundation.FileTree
open DashDrop.Foundation.Program DashDrop.Foundation.Interleaving
open DashDrop.Transport.Protocol DashDrop.Transport.Outcome DashDrop.Transport.PathValidation
open DashDrop.Transport.Receiver DashDrop.Transport.DiskNames
open DashDrop.Transport.Destinations (survey_overwrite)
open DashDrop.Runtime.State DashDrop.Runtime.Machine DashDrop.Runtime.Effects
open DashDrop.Runtime.Footprint DashDrop.Runtime.Solo

/-- `<base>/DashDrop/<transfer_id>`. -/
def saveRootOf (base : PathBuf) (transferId : String) : PathBuf :=
  (dropDir base).join (.ofText transferId.toList)

/-- The entries below `<base>/DashDrop`, after `.` and `..` are folded. -/
def Below (base : PathBuf) (k : Key) : Prop :=
  (dropDir base).resolve <+: k ∧ k ≠ (dropDir base).resolve

instance (base : PathBuf) (k : Key) : Decidable (Below base k) := instDecidableAnd

/-- The directories on the way to `<base>/DashDrop`, with itself at the end. -/
def leading (base : PathBuf) : List Key := (dropDir base).ancestors.map PathBuf.resolve

/-- The save root lies below `<base>/DashDrop`, and the way to it, as it is spelled, leads
nowhere else. -/
def Inside (base : PathBuf) (transferId : String) : Prop :=
  Below base (saveRootOf base transferId).resolve ∧
    ∀ q ∈ (saveRootOf base transferId).ancestors, Below base q.resolve ∨ q.resolve ∈ leading base

instance (base : PathBuf) (transferId : String) : Decidable (Inside base transferId) :=
  instDecidableAnd

def Based (base : PathBuf) (w : World) : Prop :=
  baseDir w.config.downloadDir w.hostDownloadDir w.home = base

/-- What runs for an offer: `handle_offer`, and a task for each file that comes in. -/
inductive Part where
  | offer (o : IncomingOffer)
  | file (item : FileItem) (firstMsg : DashMessage) (rest : List (Except ReadFault DashMessage))

def Part.prog (blake3 : Bytes → Digest) (base : PathBuf) (transferId : String) :
    Part → Code (Except String Unit)
  | .offer o => handleOffer o
  | .file item firstMsg rest => do
      let _ ← receiveOneFile blake3 item firstMsg rest (saveRootOf base transferId) transferId
      pure (.ok ())

/-- Whatever the offers with this identifier and their file tasks do, side by side and from any
state of the disk, every entry they create, write, rename or remove lies below
`<base>/DashDrop`, but for the missing directories that lead to it. -/
def Contained (blake3 : Bytes → Digest) (base : PathBuf) (transferId : String) : Prop :=
  ∀ (w : World) (parts : List Part), Based base w → w.touched = [] →
    (∀ o, Part.offer o ∈ parts → o.id = transferId) →
    ∀ t, Run exec free ⟨w, parts.map (Part.prog blake3 base transferId)⟩ t →
      ∀ k ∈ t.world.touched, Below base k ∨ (k ∈ leading base ∧ isDir w.fs k = false)

variable {base : PathBuf} {transferId : String}

/-- The operation changes only entries below, or makes directories on the way. -/
def Sound (base : PathBuf) : FsOp → Prop
  | .createDirAll p => ∀ q ∈ p.ancestors, Below base q.resolve ∨ q.resolve ∈ leading base
  | g => ∀ p ∈ g.paths, Below base p.resolve

def soundOps (base : PathBuf) : Op → Prop
  | .fs g => Sound base g
  | _ => True

private def Promise (base : PathBuf) (_ : ℕ) (w w' : World) : Prop :=
  (w'.config = w.config ∧ w'.hostDownloadDir = w.hostDownloadDir ∧ w'.home = w.home) ∧
  (∀ k, isDir w.fs k = true → isDir w'.fs k = true) ∧
  ∀ k ∈ w'.touched, k ∈ w.touched ∨ Below base k ∨ (k ∈ leading base ∧ isDir w.fs k = false)

private theorem allowed_of_sound {g : FsOp} {t : Tree} {k : Key} (sound : Sound base g)
    (h : k ∈ (g.exec t).touched) : Below base k ∨ (k ∈ leading base ∧ isDir t k = false) := by
  obtain ⟨⟨p, hp, rfl⟩, missing⟩ := mem_touched h
  cases g with
  | createDirAll q =>
    have hq := sound p hp
    exact hq.imp_right fun hlead => ⟨hlead, missing q rfl⟩
  | _ => exact .inl (sound p hp)

private theorem promise_of_sound {i : ℕ} {o : Op} {x : Ans} {w w' : World} {r : o.Resp}
    (sound : soundOps base o) (done : exec i o x w = some (w', r)) : Promise base i w w' := by
  obtain ⟨w₁, ran, logged⟩ := exec_inv done
  have frame := frame_execOp ran
  have hfs : w'.fs = w₁.fs := by rw [logged, log]
  have htouched : w'.touched = w₁.touched := by rw [logged, log]
  refine ⟨⟨?_, ?_, ?_⟩, ?_⟩
  · rw [logged]
    exact frame.config
  · rw [logged]
    exact frame.dirs.1
  · rw [logged]
    exact frame.dirs.2
  rw [hfs, htouched]
  cases o with
  | fs g =>
    simp only [execOp, execFs] at ran
    split at ran
    · obtain ⟨r', -, same⟩ := Option.map_eq_some_iff.mp ran
      cases same
      exact ⟨fun k hk => hk, fun k hk => .inl hk⟩
    · cases ran
      refine ⟨fun k hk => isDir_exec g hk, fun k hk => ?_⟩
      rcases List.mem_append.mp hk with old | new
      · exact .inl old
      · exact .inr (allowed_of_sound sound new)
  | task | note | gate | net | env =>
    have same := frame.fs (by simp)
    rw [same.1, same.2]
    exact ⟨fun k hk => hk, fun k hk => .inl hk⟩

private theorem based_stable (i : ℕ) : Stable (Promise base) i (Based base) := by
  rintro w w' hw ⟨j, -, ⟨hc, hd, hh⟩, -⟩
  simpa only [Based, hc, hd, hh] using hw

private theorem based_of_promise {i : ℕ} {w w' : World} (hw : Based base w)
    (h : Promise base i w w') : Based base w' := by
  obtain ⟨⟨hc, hd, hh⟩, -⟩ := h
  simpa only [Based, hc, hd, hh] using hw

private theorem safe_of_within {α : Type} {x : Code α} {i : ℕ} {q : α → Prop}
    (within : x.Within (soundOps base) q) :
    Triple exec free (Promise base) i (Based base) x fun a w => q a ∧ Based base w := by
  refine Triple.of_within (based_stable i) within ?_
  intro o y w w' r sound hw _ done
  have promise := promise_of_sound sound done
  exact ⟨promise, based_of_promise hw promise⟩

/-- A normal path whose parent lies at or below `<base>/DashDrop`. -/
private def Placed (base : PathBuf) (p : PathBuf) : Prop :=
  ∃ front n, p = .absolute (front ++ [n]) ∧ (dropDir base).resolve <+: front

private theorem Placed.below {p : PathBuf} (h : Placed base p) : Below base p.resolve := by
  obtain ⟨front, n, rfl, pre⟩ := h
  rw [resolve_absolute]
  refine ⟨pre.trans (List.prefix_append _ _), fun same => ?_⟩
  have hlen := pre.length_le
  have hsame := congrArg List.length same
  simp only [List.length_append, List.length_singleton] at hsame
  omega

private theorem isAbsolute_dropDir (abs : base.isAbsolute = true) :
    (dropDir base).isAbsolute = true := isAbsolute_join abs _

private theorem sound_chain (abs : base.isAbsolute = true) {names : List Name}
    (pre : (dropDir base).resolve <+: names) : Sound base (.createDirAll (.absolute names)) := by
  intro q hq
  have hqn := resolve_of_mem_ancestors_absolute hq
  rcases List.prefix_or_prefix_of_prefix pre hqn with above | below
  · by_cases same : q.resolve = (dropDir base).resolve
    · obtain ⟨a, ha, hres⟩ := exists_ancestor_of_prefix (isAbsolute_dropDir abs)
        (List.prefix_refl (dropDir base).resolve)
      exact .inr (List.mem_map.mpr ⟨a, ha, hres.trans same.symm⟩)
    · exact .inl ⟨above, same⟩
  · obtain ⟨a, ha, hres⟩ := exists_ancestor_of_prefix (isAbsolute_dropDir abs) below
    exact .inr (List.mem_map.mpr ⟨a, ha, hres⟩)

private theorem placed_of_validated (abs : base.isAbsolute = true) (inside : Inside base transferId)
    {relPath : List Char} {p : PathBuf}
    (h : validateRelPath relPath (saveRootOf base transferId) = .ok p) : Placed base p := by
  have hroot : (saveRootOf base transferId).isAbsolute = true :=
    isAbsolute_join (isAbsolute_dropDir abs) _
  obtain ⟨names, rfl⟩ := validateRelPath_ok hroot h
  obtain ⟨⟨pre, apart⟩, -⟩ := inside
  rcases List.eq_nil_or_concat' ((saveRootOf base transferId).resolve ++ names) with
    nil | ⟨front, n, hf⟩
  · obtain ⟨hnil, -⟩ := List.append_eq_nil_iff.mp nil
    rw [hnil] at pre apart
    exact absurd (List.prefix_nil.mp pre).symm apart
  · refine ⟨front, n, by rw [hf], ?_⟩
    have whole : (dropDir base).resolve <+: front ++ [n] := by
      rw [← hf]
      exact pre.trans (List.prefix_append _ _)
    rcases List.prefix_concat_iff.mp whole with same | shorter
    · exfalso
      have hlen := pre.length_le
      have hne : (dropDir base).resolve.length ≠ (saveRootOf base transferId).resolve.length :=
        fun hl => apart (pre.eq_of_length hl).symm
      have htotal := congrArg List.length (hf.trans same.symm)
      simp only [List.length_append] at htotal
      omega
    · exact shorter

private theorem Placed.temp {p : PathBuf} (h : Placed base p) : Placed base (tempPathFor p) := by
  obtain ⟨front, n, rfl, pre⟩ := h
  exact ⟨front, tempName n, tempPathFor_absolute front n, pre⟩

private theorem Placed.resolved {p : PathBuf} (h : Placed base p) (strategy : FileConflictStrategy) :
    (resolveConflictPath p strategy).Within (soundOps base)
      fun r => ∀ q, r = .ok (some q) → Placed base q := by
  obtain ⟨front, n, rfl, pre⟩ := h
  rw [absolute_append]
  refine (resolveConflictPath_spec ((PathBuf.absolute front).child n) strategy).mono
    (fun o ho => ?_) fun r hr q hq => ?_
  · obtain ⟨p, rfl⟩ := looks_metadata o ho
    exact fun _ hp => absurd hp List.not_mem_nil
  · rcases mem_finals.mp (hr q hq) with rfl | ⟨-, idx, -, -, rfl⟩
    · exact ⟨front, n, (absolute_append front n).symm, pre⟩
    · rw [candidate_child]
      exact ⟨front, renamed n idx, (absolute_append front _).symm, pre⟩

private theorem Placed.sound_remove {p : PathBuf} (h : Placed base p) :
    soundOps base (.fs (.removeFile p)) := by
  intro q hq
  rw [List.mem_singleton.mp hq]
  exact h.below

private theorem receiveRegular_sound (blake3 : Bytes → Digest) (abs : base.isAbsolute = true)
    (item : FileItem) (id : String) (strategy : FileConflictStrategy) {final : PathBuf}
    (hfinal : Placed base final) (messages : List (Except ReadFault DashMessage)) :
    (receiveRegular blake3 item id strategy final messages).Within (soundOps base) anything := by
  refine (receiveRegular_within item id strategy final blake3 messages).mono (fun o ho => ?_)
    fun _ h => h
  have htemp := hfinal.temp
  cases o with
  | fs g =>
    cases g with
    | metadata | openAppend | flush => exact fun q hq => absurd hq List.not_mem_nil
    | createDirAll p =>
      obtain ⟨front, n, rfl, pre⟩ := hfinal
      obtain rfl : .absolute front = p := by simpa [placingOps] using ho
      exact sound_chain abs pre
    | createFile p | writeAll p =>
      obtain rfl : p = _ := ho
      intro q hq
      rw [List.mem_singleton.mp hq]
      exact htemp.below
    | removeFile p =>
      rcases ho with rfl | rfl
      · exact htemp.sound_remove
      · exact hfinal.sound_remove
    | rename p q =>
      obtain ⟨rfl, rfl⟩ := ho
      intro r hr
      rcases List.mem_cons.mp hr with rfl | hr
      · exact htemp.below
      · rw [List.mem_singleton.mp hr]
        exact hfinal.below
  | _ => trivial

private theorem receiveOneFile_sound (blake3 : Bytes → Digest) (abs : base.isAbsolute = true)
    (inside : Inside base transferId) (item : FileItem) (firstMsg : DashMessage)
    (rest : List (Except ReadFault DashMessage)) :
    (receiveOneFile blake3 item firstMsg rest (saveRootOf base transferId) transferId).Within
      (soundOps base) anything := by
  unfold receiveOneFile
  split
  · trivial
  · rename_i path valid
    have placed := placed_of_validated abs inside valid
    refine ⟨trivial, fun config => ?_⟩
    simp only [ret_bind]
    split
    · cases firstMsg with
      | complete complete =>
        simp only [receiveDirectory]
        split_ifs
        · trivial
        · trivial
        · obtain ⟨front, n, rfl, pre⟩ := placed
          refine ⟨sound_chain abs (pre.trans (List.prefix_append _ _)), fun made => ?_⟩
          cases made <;> trivial
      | _ => trivial
    · refine (placed.resolved config.fileConflictStrategy).bind fun found hfound => ?_
      rcases found with e | (_ | final)
      · trivial
      · trivial
      · exact receiveRegular_sound blake3 abs item transferId _ (hfound final rfl) _

private theorem sound_of_answer {o : IncomingOffer} {α : Type} {x : Code α}
    (within : x.Within (answerOps o) anything) : x.Within (soundOps base) anything := by
  refine within.mono (fun op hop => ?_) fun _ h => h
  cases op with
  | fs g => rcases hop with (h | h) | h <;> exact h.elim
  | _ => trivial

private theorem sound_of_calm {o : IncomingOffer} {α : Type} {x : Code α}
    (within : x.Within (calmOps o) anything) : x.Within (soundOps base) anything :=
  sound_of_answer (within.mono (fun _ hop => .inl (.inl hop)) fun _ h => h)

private theorem placed_choice {path : PathBuf} (placed : Placed base path)
    (found : Except String (Option PathBuf)) :
    (∀ q, found = .ok (some q) → Placed base q) →
      Placed base (match found with
        | .ok (some path) => path
        | _ => path) := by
  intro hfound
  rcases found with e | (_ | final)
  · exact placed
  · exact placed
  · exact hfound final rfl

private theorem resumeOffsets_sound (abs : base.isAbsolute = true) (inside : Inside base transferId)
    (strategy : FileConflictStrategy) (items : List FileItem) :
    (resumeOffsets strategy (saveRootOf base transferId) items).Within (soundOps base)
      anything := by
  induction items with
  | nil => trivial
  | cons item rest ih =>
    unfold resumeOffsets
    split
    · exact ih
    · rename_i path valid
      have placed := placed_of_validated abs inside valid
      refine (placed.resolved strategy).bind fun found hfound => ?_
      have hfinal := placed_choice placed found hfound
      refine ⟨fun q hq => absurd hq List.not_mem_nil, fun r => ?_⟩
      cases r with
      | none => exact ih
      | some found =>
        simp only [ret_bind]
        split_ifs
        · exact ih.bind fun _ _ => trivial
        · exact ⟨hfinal.temp.sound_remove, fun _ => ih⟩
        · exact ih

private theorem acceptOffer_sound (abs : base.isAbsolute = true) (o : IncomingOffer)
    (inside : Inside base o.id) :
    (acceptOffer o (saveRootOf base o.id)).Within (soundOps base) anything := by
  have updated : (updateTransferStatus o.id .transferring none).Within (soundOps base) anything :=
    sound_of_answer (updateTransferStatus_within o (by decide) _)
  refine updated.bind fun _ _ => ⟨trivial, fun _ => ⟨trivial, fun config => ?_⟩⟩
  refine (resumeOffsets_sound abs inside _ _).bind fun _ _ => ⟨trivial, fun wrote => ?_⟩
  cases wrote with
  | error f => trivial
  | ok _ =>
    refine ⟨inside.2, fun made => ?_⟩
    cases made with
    | error e =>
      have failed : (failSetup o e).Within (soundOps base) anything :=
        sound_of_answer (failSetup_within o e)
      exact failed.bind fun _ _ => trivial
    | ok _ =>
      have received : (receiveFiles o).Within (soundOps base) anything :=
        sound_of_calm (receiveFiles_within o)
      have finished (outcome : TransferOutcome) :
          (finishReceive o outcome).Within (soundOps base) anything :=
        sound_of_answer (finishReceive_within o outcome)
      exact received.bind fun outcome _ => (finished outcome).bind fun _ _ => trivial

private theorem env_same {i : ℕ} {e : EnvOp} {x : Ans} {w w' : World} {r : e.Resp}
    (done : exec i (.env e) x w = some (w', r)) :
    execEnv x w e = some r ∧ w'.config = w.config ∧ w'.hostDownloadDir = w.hostDownloadDir ∧
      w'.home = w.home := by
  obtain ⟨w₁, ran, logged⟩ := exec_inv done
  obtain ⟨r', answered, same⟩ := Option.map_eq_some_iff.mp ran
  cases same
  refine ⟨answered, ?_, ?_, ?_⟩
  all_goals rw [logged, log]

private theorem handleOffer_safe (abs : base.isAbsolute = true) (o : IncomingOffer)
    (inside : Inside base o.id) (i : ℕ) :
    Triple exec free (Promise base) i (Based base) (handleOffer o) fun _ _ => True := by
  have stable : Stable (Promise base) i (Based base) := based_stable i
  have quiet {op : Op} {x : Ans} {w w' : World} {r : op.Resp} (hw : Based base w)
      (done : exec i op x w = some (w', r)) (hop : soundOps base op) :
      Promise base i w w' ∧ Based base w' := by
    have promise := promise_of_sound hop done
    exact ⟨promise, based_of_promise hw promise⟩
  refine Triple.op (fun _ => Based base) stable (fun x w w' r hw _ done => quiet hw done trivial)
    fun now => ?_
  refine Triple.op (fun _ => Based base) stable (fun x w w' r hw _ done => quiet hw done trivial)
    fun _ => ?_
  -- the base is put together from two reads; no step in between changes what they read
  refine Triple.op (fun config w => Based base w ∧ w.config = config) stable ?_ fun config => ?_
  · intro x w w' config hw _ done
    obtain ⟨answered, hconfig, -⟩ := env_same done
    obtain ⟨promise, based⟩ := quiet hw done trivial
    exact ⟨promise, based, hconfig.trans (Option.some.inj answered)⟩
  refine Triple.op (fun dirs w => Based base w ∧ baseDir config.downloadDir dirs.1 dirs.2 = base)
    ?_ ?_ fun dirs => ?_
  · rintro w w' ⟨hw, hc⟩ ⟨j, hj, promise⟩
    exact ⟨based_of_promise hw promise, promise.1.1.trans hc⟩
  · rintro x w w' dirs ⟨hw, rfl⟩ _ done
    obtain ⟨answered, -⟩ := env_same done
    obtain ⟨promise, based⟩ := quiet hw done trivial
    obtain rfl := Option.some.inj answered
    exact ⟨promise, based, hw⟩
  refine Triple.op (fun _ w => Based base w ∧ baseDir config.downloadDir dirs.1 dirs.2 = base)
    ?_ ?_ fun disks => ?_
  · rintro w w' ⟨hw, hb⟩ ⟨j, hj, promise⟩
    exact ⟨based_of_promise hw promise, hb⟩
  · rintro x w w' r ⟨hw, hb⟩ _ done
    obtain ⟨promise, based⟩ := quiet hw done trivial
    exact ⟨promise, based, hb⟩
  rintro w ⟨hw, hb⟩
  refine (safe_of_within (q := anything) ?_ w hw).conseq fun _ _ _ => trivial
  simp only [ret_bind, hb]
  split_ifs
  · have decided : (decideOffer o).Within (soundOps base) anything :=
      sound_of_answer ((decideOffer_within o).mono (fun _ hop => .inl hop) fun _ h => h)
    refine decided.bind fun decision _ => ?_
    obtain ⟨userAccepted, isTimeout⟩ := decision
    cases userAccepted with
    | true => exact acceptOffer_sound abs o inside
    | false => exact sound_of_answer (rejectOffer_within o isTimeout)
  · exact sound_of_answer (rejectForSpace_within o)

private theorem part_safe (blake3 : Bytes → Digest) (abs : base.isAbsolute = true)
    (inside : Inside base transferId) {part : Part}
    (same : ∀ o, part = .offer o → o.id = transferId) (i : ℕ) :
    Triple exec free (Promise base) i (Based base) (part.prog blake3 base transferId)
      fun _ _ => True := by
  cases part with
  | offer o =>
    obtain rfl := same o rfl
    exact handleOffer_safe abs o inside i
  | file item firstMsg rest =>
    have within := (receiveOneFile_sound blake3 abs inside item firstMsg rest).bind
      (f := fun _ => (Prog.pure (.ok ()) : Code (Except String Unit))) (s := anything)
      fun _ _ => trivial
    exact fun w hw => (safe_of_within within w hw).conseq fun _ _ _ => trivial

private theorem contained_of_inside (blake3 : Bytes → Digest) (abs : base.isAbsolute = true)
    (inside : Inside base transferId) : Contained blake3 base transferId := by
  intro w parts based clean same t run
  have safe (i : ℕ) (x : Code (Except String Unit))
      (here : (parts.map (Part.prog blake3 base transferId))[i]? = some x) :
      Safe exec free (Promise base) i x (fun _ _ => True) w := by
    obtain ⟨part, found, rfl⟩ : ∃ part, parts[i]? = some part ∧
        part.prog blake3 base transferId = x := by simpa using here
    refine part_safe blake3 abs inside (fun o ho => same o ?_) i w based
    rw [← ho]
    exact List.mem_of_getElem? found
  have kept := run.promised_invariant safe
    (fun w' => (∀ k, isDir w.fs k = true → isDir w'.fs k = true) ∧
      ∀ k ∈ w'.touched, Below base k ∨ (k ∈ leading base ∧ isDir w.fs k = false))
    ⟨fun k hk => hk, by simp [clean]⟩ ?_
  · exact kept.2
  · rintro i w₁ w₂ ⟨dirs, touched⟩ ⟨-, grows, adds⟩
    refine ⟨fun k hk => grows k (dirs k hk), fun k hk => ?_⟩
    rcases adds k hk with old | below | ⟨lead, missing⟩
    · exact touched k old
    · exact .inl below
    · refine .inr ⟨lead, ?_⟩
      rw [← Bool.not_eq_true] at missing ⊢
      exact fun hdir => missing (dirs k hdir)

section Leaving

/-- The directories that lead to `<base>/DashDrop`, one connection to a trusted peer, and the
settings under which its offers are accepted at once. -/
private def ready (dir : String) : World :=
  { World.start { AppConfig.standard with
      autoAcceptTrustedOnly := true
      downloadDir := some dir
      fileConflictStrategy := .overwrite } with
    trustedPeers := (∅ : AList _).insert "peer" .mutualConfirmed
    conns := [⟨some "peer", false⟩]
    fs := dirTree (leading (.ofText dir.toList)) }

private def bare (transferId : String) : IncomingOffer where
  offer := ⟨transferId, [], 0, "Peer", "peer"⟩
  conn := 0
  peerFp := "peer"
  peerAuthenticated := true
  chosenVersion := 1
  progress := []

variable {dir : String}

private theorem ready_active {w : World} (h : Alike (ready dir) w) :
    execEnv ⟨0, .unit⟩ w (.isActiveTrust "peer") = some true := by
  simp only [execEnv, h.trustedPeers]
  rfl

private theorem ready_connOpen {w : World} (h : Alike (ready dir) w) : connOpen w 0 = true := by
  simp only [connOpen, h.conns]
  rfl

private theorem ready_config {w : World} (h : Alike (ready dir) w) :
    execEnv ⟨0, .unit⟩ w .config = some (ready dir).config := by
  simp only [execEnv, h.config]

private theorem ready_dirs {w : World} (h : Alike (ready dir) w) :
    execEnv ⟨0, .unit⟩ w .hostDirs = some (none, none) := by
  simp only [execEnv, h.hostDownloadDir, h.home]
  rfl

private theorem updateTransferStatus_quiet (id : String) (status : TransferStatus)
    (reason : Option String) : (updateTransferStatus id status reason).Within quietOps anything := by
  refine ⟨trivial, fun r => ?_⟩
  cases r with
  | none => trivial
  | some update =>
    obtain ⟨revision, notify, record⟩ := update
    cases notify <;> cases record <;> simp [markIfSome, recordIfSome, note, task, quietOps, anything]

private theorem bare_reaches {P : World → Prop} (hmade : ∀ w, Alike (ready dir) w →
      w.touched = ((FsOp.createDirAll (saveRootOf (.ofText dir.toList) transferId)).exec
        (ready dir).fs).touched → P w) :
    Reaches exec free 0 (fun _ => P) (handleOffer (bare transferId)) (ready dir) := by
  refine reaches_env ⟨0, .unit⟩ rfl fun w1 h1 => ?_
  refine reaches_quiet (x := task (.insert _)) (q := anything) ⟨trivial, fun _ => trivial⟩
    fun _ w2 h2 => ?_
  have h2 := h1.trans h2
  refine reaches_env ⟨0, .unit⟩ (ready_config h2.toAlike) fun w3 h3 => ?_
  have h3 := h2.trans h3
  refine reaches_env ⟨0, .unit⟩ (ready_dirs h3.toAlike) fun w4 h4 => ?_
  have h4 := h3.trans h4
  refine reaches_env ⟨0, .disks []⟩ rfl fun w5 h5 => ?_
  have h5 := h4.trans h5
  -- the peer is trusted and nothing is offered, so the offer is accepted at once
  refine reaches_env ⟨0, .unit⟩ (ready_active h5.toAlike) fun w6 h6 => ?_
  have h6 := h5.trans h6
  refine reaches_quiet (x := note (.ensure _)) (q := anything) ⟨trivial, fun _ => trivial⟩
    fun _ w7 h7 => ?_
  have h7 := h6.trans h7
  refine reaches_quiet (x := task (.revision _)) (q := anything) ⟨trivial, fun _ => trivial⟩
    fun _ w8 h8 => ?_
  have h8 := h7.trans h8
  refine reaches_quiet (x := emit _) (q := anything) ⟨trivial, fun _ => trivial⟩
    fun _ w9 h9 => ?_
  have h9 := h8.trans h9
  refine reaches_env ⟨0, .unit⟩ (ready_config h9.toAlike) fun w10 h10 => ?_
  have h10 := h9.trans h10
  refine reaches_quiet (updateTransferStatus_quiet transferId .transferring none)
    fun _ w11 h11 => ?_
  have h11 := h10.trans h11
  refine reaches_quiet (x := emit _) (q := anything) ⟨trivial, fun _ => trivial⟩
    fun _ w12 h12 => ?_
  have h12 := h11.trans h12
  refine reaches_env ⟨0, .unit⟩ (ready_config h12.toAlike) fun w13 h13 => ?_
  have h13 := h12.trans h13
  refine reaches_write (ready_connOpen h13.toAlike) fun w14 h14 => ?_
  have h14 := h13.trans h14
  refine reaches_fs fun w15 h15 _ htouched => .now (hmade w15 (h14.toAlike.trans h15) ?_)
  rw [htouched, h14.touched, h14.fs]
  rfl

private theorem file_reaches (blake3 : Bytes → Digest) {front : List Name} {m : Name}
    (item : FileItem) (regular : item.fileType = .regularFile)
    (valid : validateRelPath item.relPath.toList (saveRootOf base transferId) =
      .ok (.absolute (front ++ [m])))
    (hfront : ∀ k, k <+: front → isDir (ready dir).fs k = true)
    (hfree : look (ready dir).fs (front ++ [tempName m]) = none) :
    Reaches exec free 0 (fun _ w => front ++ [tempName m] ∈ w.touched)
      (Part.prog blake3 base transferId (.file item (.ack ⟨0, true, none⟩) [])) (ready dir) := by
  have hmade : (FsOp.createDirAll (.absolute front)).exec (ready dir).fs =
      ⟨(ready dir).fs, .ok (), []⟩ := by
    refine makeDirs_of_isDir fun k hk => hfront k ?_
    obtain ⟨q, hq, rfl⟩ := List.mem_map.mp hk
    exact resolve_of_mem_ancestors_absolute hq
  have hcreated : (FsOp.createFile (.absolute (front ++ [tempName m]))).exec (ready dir).fs =
      ⟨(ready dir).fs.insert (front ++ [tempName m]) (.file []), .ok (),
        [front ++ [tempName m]]⟩ := by
    have hparent := hfront front List.prefix_rfl
    simp only [FsOp.exec, createAt, resolve_absolute, hfree, List.dropLast_concat, hparent,
      if_true]
  simp only [Part.prog, receiveOneFile, valid, regular]
  refine reaches_env ⟨0, .unit⟩ rfl fun w1 h1 => ?_
  simp only [ret_bind, bind_def, bind_assoc]
  refine reaches_survey (survey_overwrite _ _) fun w2 h2 => ?_
  have h2 := h1.trans h2
  simp only [receiveRegular, parent_absolute_append, tempPathFor_absolute]
  refine reaches_fs fun w3 h3 hfs htouched => ?_
  rw [h2.fs, hmade] at hfs
  rw [h2.fs, hmade]
  refine reaches_fs fun w4 h4 hfs4 _ => ?_
  have hfs4 : w4.fs = (ready dir).fs := hfs4.trans hfs
  refine reaches_fs fun w5 h5 hfs5 _ => ?_
  have hfs5 : w5.fs = (ready dir).fs := hfs5.trans hfs4
  have hnone : ((FsOp.metadata (.absolute (front ++ [tempName m]))).exec w4.fs).answer = none := by
    simp only [FsOp.exec, hfs4, resolve_absolute, hfree, Option.map_none]
  rw [hnone]
  refine reaches_fs fun w6 h6 _ htouched => .now ?_
  rw [htouched, hfs5, hcreated]
  exact List.mem_append_right _ (List.mem_singleton_self _)

/-- `DashDrop` as the name of an entry. -/
private def dropName : Name := ⟨"DashDrop".toList, by decide⟩

private theorem dropDir_absolute (names : List Name) :
    dropDir (.absolute names) = .absolute (names ++ [dropName]) :=
  join_absolute_plain names dropName.plain

private theorem mem_leading {names : List Name} {k : Key} :
    k ∈ leading (.absolute names) ↔ k <+: names ++ [dropName] := by
  unfold leading
  rw [dropDir_absolute, List.mem_map]
  constructor
  · rintro ⟨q, hq, rfl⟩
    exact resolve_of_mem_ancestors_absolute hq
  · intro h
    have hroot := isAbsolute_absolute (names ++ [dropName])
    exact exists_ancestor_of_prefix hroot (by rwa [resolve_absolute])

/-- An entry that turns off the way to `<base>/DashDrop` is neither on the way nor below. -/
private theorem astray {names front rest : List Name} {n t : Name}
    (way : names ++ [dropName] = front ++ n :: rest) (apart : t ≠ n) :
    ¬ Below (.absolute names) (front ++ [t]) ∧ front ++ [t] ∉ leading (.absolute names) := by
  constructor
  · rintro ⟨pre, -⟩
    rw [dropDir_absolute, resolve_absolute, way, List.prefix_append_right_inj] at pre
    exact apart (List.cons_prefix_cons.mp pre).1.symm
  · rw [mem_leading, way, List.prefix_append_right_inj]
    intro pre
    exact apart (List.cons_prefix_cons.mp pre).1

private theorem not_contained (blake3 : Bytes → Digest) {k : Key} (part : Part)
    (same : ∀ o, part = .offer o → o.id = transferId)
    (reaches : Reaches exec free 0 (fun _ w => k ∈ w.touched)
      (part.prog blake3 (.ofText dir.toList) transferId) (ready dir))
    (outside : ¬ Below (.ofText dir.toList) k) (off : k ∉ leading (.ofText dir.toList)) :
    ¬ Contained blake3 (.ofText dir.toList) transferId := by
  intro contained
  have here : [part.prog blake3 (.ofText dir.toList) transferId][0]? =
      some (part.prog blake3 (.ofText dir.toList) transferId) := rfl
  obtain ⟨x, w, run, touched⟩ := reaches.exists_run here
  have hmember : ∀ o, Part.offer o ∈ [part] → o.id = transferId := by
    intro o ho
    exact same o (List.mem_singleton.mp ho).symm
  rcases contained (ready dir) [part] rfl rfl hmember _ run k touched with below | ⟨lead, -⟩
  · exact outside below
  · exact off lead

private def single (relPath : String) : FileItem :=
  ⟨0, "f", relPath, 0, .regularFile, 0, none, none⟩

private theorem not_contained_of_stray (blake3 : Bytes → Digest) {names front rest : List Name}
    {n m : Name} (spelled : PathBuf.ofText dir.toList = .absolute names)
    (way : names ++ [dropName] = front ++ n :: rest) (apart : tempName m ≠ n) (relPath : String)
    (valid : validateRelPath relPath.toList (saveRootOf (.ofText dir.toList) transferId) =
      .ok (.absolute (front ++ [m]))) :
    ¬ Contained blake3 (.ofText dir.toList) transferId := by
  obtain ⟨outside, off⟩ := astray way apart
  rw [← spelled] at outside off
  have hfront (k : Key) (hk : k <+: front) : isDir (ready dir).fs k = true := by
    refine isDir_dirTree.mpr (.inr ?_)
    rw [spelled, mem_leading, way]
    exact hk.trans (List.prefix_append _ _)
  have hfree : look (ready dir).fs (front ++ [tempName m]) = none := by
    refine (look_dirTree _ _).trans (if_neg ?_)
    rw [not_or]
    exact ⟨by simp, off⟩
  have reaches := file_reaches blake3 (single relPath) rfl valid hfront hfree
  exact not_contained blake3 (.file _ _ _) (by simp) reaches outside off

private theorem inside_of_contained (blake3 : Bytes → Digest) {names : List Name}
    (spelled : PathBuf.ofText dir.toList = .absolute names)
    (contained : Contained blake3 (.ofText dir.toList) transferId) :
    Inside (.ofText dir.toList) transferId := by
  have abs : (PathBuf.ofText dir.toList).isAbsolute = true := by
    rw [spelled]
    exact isAbsolute_absolute names
  have hroot : (saveRootOf (.ofText dir.toList) transferId).isAbsolute = true :=
    isAbsolute_join (isAbsolute_dropDir abs) _
  have hway : ∀ q ∈ (saveRootOf (.ofText dir.toList) transferId).ancestors,
      Below (.ofText dir.toList) q.resolve ∨ q.resolve ∈ leading (.ofText dir.toList) := by
    intro q hq
    by_contra stray
    obtain ⟨outside, off⟩ := not_or.mp stray
    have missing : isDir (ready dir).fs q.resolve = false := by
      rw [← Bool.not_eq_true]
      intro hdir
      rcases isDir_dirTree.mp hdir with hnil | hlead
      · obtain ⟨a, ha, hres⟩ := exists_ancestor_of_prefix (isAbsolute_dropDir abs)
          (List.nil_prefix (l := (dropDir (.ofText dir.toList)).resolve))
        exact off (List.mem_map.mpr ⟨a, ha, hres.trans hnil.symm⟩)
      · exact off hlead
    have clear (l : Key) (c : Bytes) : look (ready dir).fs l ≠ some (.file c) := by
      rw [show look (ready dir).fs l = _ from look_dirTree _ _]
      split_ifs <;> simp
    have made := touched_makeDirs clear (List.mem_map.mpr ⟨q, hq, rfl⟩) missing
    have reaches : Reaches exec free 0 (fun _ w => q.resolve ∈ w.touched)
        (handleOffer (bare transferId)) (ready dir) := by
      refine bare_reaches fun w _ htouched => ?_
      rw [htouched]
      exact made
    refine not_contained blake3 (.offer (bare transferId)) ?_ reaches outside off contained
    intro o ho
    cases ho
    rfl
  refine ⟨?_, hway⟩
  by_contra outside
  -- the save root lies on the way to `<base>/DashDrop`
  have hself : saveRootOf (.ofText dir.toList) transferId ∈
      (saveRootOf (.ofText dir.toList) transferId).ancestors := by
    refine mem_ancestors.mpr ⟨?_, List.prefix_rfl⟩
    intro hnil
    simp [PathBuf.isAbsolute, hnil] at hroot
  have hlead := (hway _ hself).resolve_left outside
  rw [spelled, mem_leading, ← spelled] at hlead
  rcases List.prefix_concat_iff.mp hlead with hend | hshort
  · have valid := validateRelPath_dot hroot
    rw [hend] at valid
    have apart : tempName dropName ≠ dropName := by decide
    exact not_contained_of_stray blake3 spelled rfl apart "." valid contained
  · obtain ⟨rest, hrest⟩ := hshort
    obtain ⟨n, rest, hn⟩ : ∃ n rest', rest ++ [dropName] = n :: rest' := by
      cases rest with
      | nil => exact ⟨_, _, rfl⟩
      | cons n rest => exact ⟨_, _, rfl⟩
    have way : names ++ [dropName] =
        (saveRootOf (.ofText dir.toList) transferId).resolve ++ n :: rest := by
      rw [← hrest, List.append_assoc, hn]
    by_cases hn : tempName ⟨['a'], by decide⟩ = n
    · have apart : tempName ⟨['b'], by decide⟩ ≠ n := by
        rw [← hn]
        decide
      have valid := validateRelPath_letter hroot ⟨['b'], by decide⟩ (.inr rfl)
      exact not_contained_of_stray blake3 spelled way apart "b" valid contained
    · have valid := validateRelPath_letter hroot ⟨['a'], by decide⟩ (.inl rfl)
      exact not_contained_of_stray blake3 spelled way hn "a" valid contained

end Leaving

/-- An offer stays below `<base>/DashDrop` exactly when its identifier, spelled after that
path, does. A base that is spelled with `..` is covered in one direction only. -/
theorem save_root_contained (blake3 : Bytes → Digest) (dir transferId : String)
    (abs : (PathBuf.ofText dir.toList).isAbsolute = true) :
    (Inside (.ofText dir.toList) transferId →
      Contained blake3 (.ofText dir.toList) transferId) ∧
    ((∃ names, PathBuf.ofText dir.toList = .absolute names) →
      Contained blake3 (.ofText dir.toList) transferId →
      Inside (.ofText dir.toList) transferId) := by
  refine ⟨contained_of_inside blake3 abs, ?_⟩
  rintro ⟨names, spelled⟩ contained
  exact inside_of_contained blake3 spelled contained

theorem save_root_contained_plain :
    Inside (.ofText "/dl".toList) "t1" ∧
      Contained (fun _ => ⟨Vector.replicate 32 0⟩) (.ofText "/dl".toList) "t1" := by
  have inside : Inside (.ofText "/dl".toList) "t1" := by decide
  exact ⟨inside, (save_root_contained (fun _ => ⟨Vector.replicate 32 0⟩) "/dl" "t1"
    (by decide)).1 inside⟩

private def evilKey : Key := [⟨"evil".toList, by decide⟩]

/-- A trusted peer's offer under an identifier that climbs out of the download directory: its
save root is made there. -/
theorem climbing_identifier_leaves_base :
    (∃ t, Run exec free ⟨ready "/dl", [handleOffer (bare "../../evil")]⟩ t ∧
      evilKey ∈ t.world.touched) ∧
      ¬ Below (.ofText "/dl".toList) evilKey ∧
      ¬ Contained (fun _ => ⟨Vector.replicate 32 0⟩) (.ofText "/dl".toList) "../../evil" := by
  have spelled : PathBuf.ofText "/dl".toList = .absolute [⟨"dl".toList, by decide⟩] := by decide
  refine ⟨?_, by decide, fun contained => ?_⟩
  · obtain ⟨t, run, found⟩ := exists_run_of_play exec unchecked_sound
      (⟨ready "/dl", [handleOffer (bare "../../evil")]⟩ :
        Pool Op Op.Resp World (Except String Unit))
      (List.replicate 4 (0, ⟨0, .unit⟩) ++ [(0, ⟨0, .disks []⟩)] ++
        List.replicate 10 (0, ⟨0, .unit⟩))
      (fun t => decide (evilKey ∈ t.world.touched)) (by decide)
    exact ⟨t, run, of_decide_eq_true found⟩
  · have inside := inside_of_contained _ spelled contained
    exact absurd inside (by decide)

end DashDrop.Receiving.Containment
