/- GID: DashDrop/Receiving/SideBySide
   source: src-tauri/src/transport/receiver.rs
   anchors: []
   digest: What lies at the places of files that are received side by side, at any time. -/

import DashDrop.Foundation.Triples
import DashDrop.Receiving.Separation

set_option autoImplicit false
set_option relaxedAutoImplicit false

namespace DashDrop.Receiving.SideBySide

open DashDrop.Foundation.UnixPath DashDrop.Foundation.FileTree
open DashDrop.Foundation.Program DashDrop.Foundation.Interleaving
open DashDrop.Transport.Protocol DashDrop.Transport.Outcome DashDrop.Transport.PathValidation
open DashDrop.Transport.Receiver DashDrop.Transport.DiskNames
open DashDrop.Runtime.State DashDrop.Runtime.Machine DashDrop.Runtime.Effects
open DashDrop.Runtime.Footprint DashDrop.Runtime.Solo
open DashDrop.Receiving.Integrity DashDrop.Receiving.Bounds DashDrop.Receiving.Separation

/-- The stream is all of one file, for the item and under its hash. -/
def Whole (blake3 : Bytes → Digest) (r : Receipt) : Prop :=
  Addressed r.item r.messages ∧ ∃ complete, closing r.messages = some complete ∧
    blake3 (payload r.messages) = complete.fileHash

/-- What the bytes of a stream may be appended to: nothing, or what is kept of a leftover. -/
def Front (t₀ : Tree) (r : Receipt) (final : PathBuf) (front : Bytes) : Prop :=
  front = [] ∨ front = kept t₀ r.item final

def Filled (t₀ : Tree) (r : Receipt) (final : PathBuf) (c : Bytes) : Prop :=
  ∃ front, Front t₀ r final front ∧ c = front ++ payload r.messages

section Tasks

variable (blake3 : Bytes → Digest) (saveRoot : PathBuf) (id : String)
variable (strategy : FileConflictStrategy) (receipts : List Receipt) (t₀ : Tree)

def own (r : Receipt) : List PathBuf := places strategy (r.item, pathOf saveRoot r.item)

def targets (r : Receipt) : List PathBuf := finals strategy (pathOf saveRoot r.item)

/-- What one place may hold after another: the same, nothing, or the file of the stream. -/
def Turns (r : Receipt) (before after : Option Bytes) : Prop :=
  after = before ∨ after = none ∨ Whole blake3 r ∧
    ∃ f ∈ targets saveRoot strategy r, ∃ c, Filled t₀ r f c ∧ after = some c

/-- A step of the `i`-th task changes files at its own paths only, makes directories only on the
way to them, and where its file may be put it brings nothing but the file of its stream. -/
structure Keeps (i : ℕ) (w w' : World) : Prop where
  config : w'.config = w.config
  dirs : Grows w.fs w'.fs
  others : ∀ k, (∀ r, receipts[i]? = some r → r.item.fileType = .regularFile →
    ∀ q ∈ own saveRoot strategy r, q.resolve ≠ k) → content w'.fs k = content w.fs k
  looks : ∀ k, (∀ r, receipts[i]? = some r → ∀ q ∈ own saveRoot strategy r, ¬ k <+: q.resolve) →
    look w'.fs k = look w.fs k
  placed : ∀ r, receipts[i]? = some r → r.item.fileType = .regularFile →
    ∀ q ∈ targets saveRoot strategy r,
      Turns blake3 saveRoot strategy t₀ r (content w.fs q.resolve) (content w'.fs q.resolve)

/-- No task of a regular file may write to an entry that another task may write to. -/
def Disjoint : Prop :=
  ∀ (i j : ℕ) (r s : Receipt), i ≠ j → receipts[i]? = some r → receipts[j]? = some s →
    s.item.fileType = .regularFile →
    ∀ q ∈ own saveRoot strategy r, ∀ q' ∈ own saveRoot strategy s, q.resolve ≠ q'.resolve

def Clear : Prop :=
  ∀ (i j : ℕ) (r s : Receipt), i ≠ j → receipts[i]? = some r → receipts[j]? = some s →
    r.item.fileType = .regularFile →
    ∀ q ∈ own saveRoot strategy r, ∀ q' ∈ own saveRoot strategy s, ¬ q.resolve <+: q'.resolve

/-- What the tree at the start tells of the place where a file is put. -/
def Foreseen (r : Receipt) (final : PathBuf) : Prop :=
  Clear saveRoot strategy receipts →
    Chosen t₀ strategy r.item saveRoot final ∧ ∀ parent, final.parent = some parent →
      ((FsOp.createDirAll parent).exec t₀).answer = .ok ()

/-- An acknowledged file holds what its stream brought, and lies where the start put it. -/
def Arrived (r : Receipt) (a : TaskResult) (w : World) : Prop :=
  a = ackOf r.item true none → ∃ q ∈ targets saveRoot strategy r, Whole blake3 r ∧
    (Clear saveRoot strategy receipts →
      Chosen t₀ strategy r.item saveRoot q ∧ Placeable t₀ q) ∧
    ∃ c, Filled t₀ r q c ∧ content w.fs q.resolve = some c

/-- No directory of the start is gone. -/
def Since (P : World → Prop) (w : World) : Prop := Grows t₀ w.fs ∧ P w

/-- The operations of a task: on its own paths, or making directories on the way to them. -/
def Mine (r : Receipt) (g : FsOp) : Prop :=
  (∃ p, g = .createDirAll p ∧ p.Onward ∧ ∃ q ∈ own saveRoot strategy r, p.resolve <+: q.resolve) ∨
    r.item.fileType = .regularFile ∧ ∀ p ∈ g.paths, p ∈ own saveRoot strategy r

end Tasks

section Rules

variable {blake3 : Bytes → Digest} {saveRoot : PathBuf} {id : String}
variable {strategy : FileConflictStrategy} {receipts : List Receipt} {t₀ : Tree} {i : ℕ}
variable {r : Receipt} {P : World → Prop}

theorem Turns.trans {a b c : Option Bytes} (h : Turns blake3 saveRoot strategy t₀ r a b)
    (h' : Turns blake3 saveRoot strategy t₀ r b c) : Turns blake3 saveRoot strategy t₀ r a c := by
  rcases h' with rfl | rfl | whole
  · exact h
  · exact .inr (.inl rfl)
  · exact .inr (.inr whole)

theorem Keeps.of_same {w w' : World} (config : w'.config = w.config) (fs : w'.fs = w.fs) :
    Keeps blake3 saveRoot strategy receipts t₀ i w w' where
  config := config
  dirs k hk := by rwa [fs]
  others k _ := by rw [fs]
  looks k _ := by rw [fs]
  placed _ _ _ q _ := .inl (by rw [fs])

theorem Clear.disjoint (clear : Clear saveRoot strategy receipts) :
    Disjoint saveRoot strategy receipts := by
  intro i j r s other hr hs regular q hq q' hq' same
  refine clear j i s r (Ne.symm other) hs hr regular q' hq' q hq ?_
  rw [same]

theorem stable_own (apart : Disjoint saveRoot strategy receipts) (here : receipts[i]? = some r)
    (reads : ∀ w w', P w → w'.config = w.config → (∀ q ∈ own saveRoot strategy r,
      content w'.fs q.resolve = content w.fs q.resolve) → P w') :
    Stable (Keeps blake3 saveRoot strategy receipts t₀) i P := by
  rintro w w' holds ⟨j, other, kept⟩
  refine reads w w' holds kept.config fun q hq => kept.others q.resolve ?_
  exact fun s found regular q' hq' =>
    (apart i j r s (Ne.symm other) here found regular q hq q' hq').symm

theorem stable_since (stable : Stable (Keeps blake3 saveRoot strategy receipts t₀) i P) :
    Stable (Keeps blake3 saveRoot strategy receipts t₀) i (Since t₀ P) := by
  rintro w w' ⟨grows, holds⟩ ⟨j, other, kept⟩
  exact ⟨grows.trans kept.dirs, stable w w' holds ⟨j, other, kept⟩⟩

theorem triple_quiet {α β : Type} {x : Code α} {q : α → Prop} {f : α → Code β}
    {Q : β → World → Prop} (stable : Stable (Keeps blake3 saveRoot strategy receipts t₀) i P)
    (reads : ∀ w w', P w → w'.fs = w.fs → P w') (within : x.Within quietOps q)
    (rest : ∀ a, Triple exec free (Keeps blake3 saveRoot strategy receipts t₀) i P (f a) Q) :
    Triple exec free (Keeps blake3 saveRoot strategy receipts t₀) i P (x.bind f) Q := by
  refine Triple.bind (Triple.of_within stable within ?_) fun a => ?_
  · intro o y w w' a ho hw _ done
    obtain ⟨w₁, ran, logged⟩ := exec_inv done
    have frame := frame_execOp ran
    have files : w'.fs = w.fs := by
      rw [logged]
      refine (frame.fs ?_).1
      rintro g rfl
      exact ho
    have config : w'.config = w.config := by
      rw [logged]
      exact frame.config
    exact ⟨.of_same config files, reads w w' hw files⟩
  · exact (rest a).conseq (fun w h => h.2) fun _ _ h => h

theorem Keeps.of_exec {g : FsOp} {w w' : World} (here : receipts[i]? = some r)
    (config : w'.config = w.config) (files : w'.fs = (g.exec w.fs).tree)
    (mine : Mine saveRoot strategy r g)
    (placed : r.item.fileType = .regularFile → ∀ q ∈ targets saveRoot strategy r,
      Turns blake3 saveRoot strategy t₀ r (content w.fs q.resolve)
        (content (g.exec w.fs).tree q.resolve)) :
    Keeps blake3 saveRoot strategy receipts t₀ i w w' := by
  refine ⟨config, grows_exec g files, fun k others => ?_, fun k away => ?_,
    fun s found regular q hq => ?_⟩
  · rw [files]
    refine content_exec ?_
    rcases mine with ⟨p, rfl, -⟩ | ⟨regular, own⟩
    · exact .inl ⟨p, rfl⟩
    · exact .inr fun p hp => others r here regular p (own p hp)
  · rw [files]
    refine look_exec fun p hp same => ?_
    rcases mine with ⟨p', rfl, onward, q, hq, below⟩ | ⟨-, own⟩
    · refine away r here q hq ?_
      rw [← same]
      exact (onward p hp).trans below
    · refine away r here p (own p hp) ?_
      rw [same]
  · obtain rfl := Option.some.inj (here.symm.trans found)
    rw [files]
    exact placed regular q hq

theorem triple_fs {β : Type} {g : FsOp} {k : g.Resp → Code β} {Q : β → World → Prop}
    (M : g.Resp → World → Prop) (here : receipts[i]? = some r)
    (stable : Stable (Keeps blake3 saveRoot strategy receipts t₀) i P)
    (mine : Mine saveRoot strategy r g)
    (placed : ∀ w, P w → r.item.fileType = .regularFile → ∀ q ∈ targets saveRoot strategy r,
      Turns blake3 saveRoot strategy t₀ r (content w.fs q.resolve)
        (content (g.exec w.fs).tree q.resolve))
    (done : ∀ w w', Grows t₀ w.fs → P w → w'.fs = (g.exec w.fs).tree → M (g.exec w.fs).answer w')
    (refused : ∀ e a w w', P w → g.refuse e = some a → w'.fs = w.fs → M a w')
    (rest : ∀ a, Triple exec free (Keeps blake3 saveRoot strategy receipts t₀) i (Since t₀ (M a))
      (k a) Q) :
    Triple exec free (Keeps blake3 saveRoot strategy receipts t₀) i (Since t₀ P) (.op (.fs g) k)
      Q := by
  refine Triple.op (fun a => Since t₀ (M a)) (stable_since stable) ?_ rest
  rintro x w w' a ⟨grows, hw⟩ - ran
  obtain ⟨w₁, ran, logged⟩ := exec_inv ran
  have config : w'.config = w.config := by
    rw [logged]
    exact (frame_execOp ran).config
  have files : w'.fs = w₁.fs := by rw [logged]; rfl
  simp only [execOp, execFs] at ran
  split at ran
  · obtain ⟨a', refuses, same⟩ := Option.map_eq_some_iff.mp ran
    cases same
    exact ⟨.of_same config files, by rwa [files], refused _ _ w w' hw refuses files⟩
  · cases ran
    exact ⟨.of_exec here config files mine (placed w hw), grows.trans (grows_exec g files),
      done w w' grows hw files⟩

end Rules

section Regular

variable {blake3 : Bytes → Digest} {saveRoot : PathBuf} {id : String}
variable {strategy : FileConflictStrategy} {receipts : List Receipt} {t₀ : Tree} {i : ℕ}
variable {r : Receipt} {final : PathBuf}

theorem content_removed (t : Tree) (k l : Key) :
    content (removeAt t k).tree l = content t l ∨ content (removeAt t k).tree l = none := by
  unfold removeAt
  split
  · rename_i found
    have hk := ne_nil_of_look (isDir_of_content (content_eq_some.mpr found))
    simp only [content_erase hk]
    split_ifs
    · exact .inr rfl
    · exact .inl rfl
  · exact .inl rfl
  · exact .inl rfl

structure Target (saveRoot : PathBuf) (strategy : FileConflictStrategy) (receipts : List Receipt)
    (i : ℕ) (r : Receipt) (final : PathBuf) : Prop where
  apart : Disjoint saveRoot strategy receipts
  here : receipts[i]? = some r
  regular : r.item.fileType = .regularFile
  valid : validateRelPath r.item.relPath.toList saveRoot = .ok (pathOf saveRoot r.item)
  chosen : final ∈ targets saveRoot strategy r

theorem Target.mem_own (h : Target saveRoot strategy receipts i r final) :
    final ∈ own saveRoot strategy r ∧ tempPathFor final ∈ own saveRoot strategy r := by
  simp only [own, places, h.regular]
  exact ⟨List.mem_append_left _ h.chosen, List.mem_append_right _ (List.mem_map_of_mem h.chosen)⟩

theorem Target.temp_ne (h : Target saveRoot strategy receipts i r final) {q : PathBuf}
    (hq : q ∈ targets saveRoot strategy r) : (tempPathFor final).resolve ≠ q.resolve :=
  temp_ne_final h.valid h.chosen hq

theorem Target.parent_above (h : Target saveRoot strategy receipts i r final) {parent : PathBuf}
    (up : final.parent = some parent) : parent.Onward ∧ parent.resolve <+: final.resolve := by
  rcases final_shape h.valid h.chosen with nameless | ⟨p, n, rfl, onward⟩
  · rw [nameless.parent] at up
    cases up
  · obtain rfl := Option.some.inj ((parent_child p n).symm.trans up)
    rw [resolve_child]
    exact ⟨onward, List.prefix_append _ _⟩

/-- Where nothing of another task lies on the way to a file, its directory can be made when it could
be made at the start. -/
theorem Target.reached (h : Target saveRoot strategy receipts i r final) {t : Tree}
    (ways : ∀ k, k <+: final.resolve → content t k = content t₀ k) {parent : PathBuf}
    (up : final.parent = some parent)
    (ok : ((FsOp.createDirAll parent).exec t).answer = .ok ()) :
    ((FsOp.createDirAll parent).exec t₀).answer = .ok () := by
  obtain ⟨onward, above⟩ := h.parent_above up
  refine makeDirs_ok_iff.mpr fun k hk => ?_
  rw [← makeDirs_ok_iff.mp ok k hk]
  obtain ⟨q, hq, rfl⟩ := List.mem_map.mp hk
  exact (ways q.resolve ((onward q hq).trans above)).symm

section Steps

variable (h : Target saveRoot strategy receipts i r final)
include h

theorem stable_held (c : Option Bytes) : Stable (Keeps blake3 saveRoot strategy receipts t₀) i
    fun w => content w.fs (tempPathFor final).resolve = c :=
  stable_own h.apart h.here fun _ _ held _ same => (same _ h.mem_own.2).trans held

theorem triple_beside {β : Type} {g : FsOp} {k : g.Resp → Code β} {Q : β → World → Prop}
    {P : World → Prop} (M : g.Resp → World → Prop)
    (stable : Stable (Keeps blake3 saveRoot strategy receipts t₀) i P)
    (beside : (∃ p, g = .createDirAll p ∧ final.parent = some p) ∨
      ∀ p ∈ g.paths, p = tempPathFor final)
    (done : ∀ w w', P w → w'.fs = (g.exec w.fs).tree → M (g.exec w.fs).answer w')
    (refused : ∀ e a w w', P w → g.refuse e = some a → w'.fs = w.fs → M a w')
    (rest : ∀ a, Triple exec free (Keeps blake3 saveRoot strategy receipts t₀) i (Since t₀ (M a))
      (k a) Q) :
    Triple exec free (Keeps blake3 saveRoot strategy receipts t₀) i (Since t₀ P) (.op (.fs g) k)
      Q := by
  refine triple_fs M h.here stable ?_ (fun w _ _ q hq => .inl ?_) (fun w w' _ => done w w') refused
    rest
  · rcases beside with ⟨p, rfl, up⟩ | only
    · obtain ⟨onward, above⟩ := h.parent_above up
      exact .inl ⟨p, rfl, onward, final, h.mem_own.1, above⟩
    · refine .inr ⟨h.regular, fun p hp => ?_⟩
      rw [only p hp]
      exact h.mem_own.2
  · refine content_exec ?_
    rcases beside with ⟨p, rfl, -⟩ | only
    · exact .inl ⟨p, rfl⟩
    · refine .inr fun p hp => ?_
      rw [only p hp]
      exact h.temp_ne hq

omit h in
theorem failed_triple {P : World → Prop} (reason : ErrorCode) :
    Triple exec free (Keeps blake3 saveRoot strategy receipts t₀) i P (failWith r.item reason)
      (Arrived blake3 saveRoot strategy receipts t₀ r) :=
  Triple.always fun w acked => by cases acked

theorem abandon_triple {P : World → Prop} (reason : ErrorCode) :
    Triple exec free (Keeps blake3 saveRoot strategy receipts t₀) i (Since t₀ P)
      (abandon r.item (tempPathFor final) reason) (Arrived blake3 saveRoot strategy receipts t₀ r) := by
  refine Triple.conseq (P := Since t₀ fun _ => True) ?_ (fun _ hw => ⟨hw.1, trivial⟩) fun _ _ h => h
  exact triple_beside h (fun _ _ => True) .trivial (.inr fun p hp => List.mem_singleton.mp hp)
    (fun _ _ _ _ => trivial) (fun _ _ _ _ _ _ _ => trivial) fun _ => failed_triple reason

theorem rename_triple (whole : Whole blake3 r)
    (foreseen : Foreseen saveRoot strategy receipts t₀ r final) {c : Bytes}
    (filled : Filled t₀ r final c) :
    Triple exec free (Keeps blake3 saveRoot strategy receipts t₀) i
      (Since t₀ fun w => content w.fs (tempPathFor final).resolve = some c)
      (moveIntoPlace r.item final (tempPathFor final))
      (Arrived blake3 saveRoot strategy receipts t₀ r) := by
  have moved (t : Tree) (held : content t (tempPathFor final).resolve = some c)
      (ok : ((FsOp.rename (tempPathFor final) final).exec t).answer = .ok ()) :
      isDir t final.resolve = false ∧
        content ((FsOp.rename (tempPathFor final) final).exec t).tree final.resolve = some c := by
    obtain ⟨c', found, vacant, moved⟩ := content_renameAt ok
    obtain rfl := Option.some.inj (found.symm.trans held)
    exact ⟨vacant, moved⟩
  refine triple_fs (fun a w => a = .ok () →
      (Clear saveRoot strategy receipts → Placeable t₀ final) ∧
        content w.fs final.resolve = some c)
    h.here (stable_held h _) (.inr ⟨h.regular, fun p hp => ?_⟩) (fun w held _ q hq => ?_) ?_ ?_
    fun a => ?_
  · rcases List.mem_pair.mp hp with rfl | rfl
    · exact h.mem_own.2
    · exact h.mem_own.1
  · by_cases same : final.resolve = q.resolve
    · cases answer : ((FsOp.rename (tempPathFor final) final).exec w.fs).answer with
      | error e => exact .inl (by rw [tree_of_rename_error answer])
      | ok u =>
        refine .inr (.inr ⟨whole, final, h.chosen, c, filled, ?_⟩)
        rw [← same]
        exact (moved w.fs held answer).2
    · refine .inl (content_exec (.inr fun p hp => ?_))
      rcases List.mem_pair.mp hp with rfl | rfl
      · exact h.temp_ne hq
      · exact same
  · intro w w' grows held hfs ok
    obtain ⟨vacant, holds⟩ := moved w.fs held ok
    rw [hfs]
    refine ⟨fun clear => ⟨(foreseen clear).2, grows.missing vacant, ?_⟩, holds⟩
    exact grows.missing (isDir_of_content held)
  · rintro e a w w' - refuses - rfl
    cases refuses
  · cases a with
    | error e => exact abandon_triple h _
    | ok u =>
      refine Triple.pure (stable_since (stable_own h.apart h.here fun w w' held _ same ok => ?_))
        fun w held _ => ?_
      · rw [same final h.mem_own.1]
        exact held ok
      · obtain ⟨placeable, holds⟩ := held.2 rfl
        exact ⟨final, h.chosen, whole, fun clear => ⟨(foreseen clear).1, placeable clear⟩, c, filled,
          holds⟩

theorem placeFile_triple (whole : Whole blake3 r)
    (foreseen : Foreseen saveRoot strategy receipts t₀ r final) {c : Bytes}
    (filled : Filled t₀ r final c) :
    Triple exec free (Keeps blake3 saveRoot strategy receipts t₀) i
      (Since t₀ fun w => content w.fs (tempPathFor final).resolve = some c)
      (placeFile r.item strategy final (tempPathFor final))
      (Arrived blake3 saveRoot strategy receipts t₀ r) := by
  have renames := rename_triple (i := i) h whole foreseen filled
  unfold placeFile
  by_cases hover : strategy = .overwrite
  · rw [if_pos hover]
    refine triple_beside h (fun _ w => content w.fs (tempPathFor final).resolve = some c)
      (stable_held h _) (.inr fun p hp => by cases hp)
      (fun w w' held hfs => by rwa [hfs]) (fun e a w w' _ refuses => by cases refuses)
      fun occupied => ?_
    cases occupied with
    | none => exact renames
    | some _ =>
      refine triple_fs (fun _ w => content w.fs (tempPathFor final).resolve = some c) h.here
        (stable_held h _) (.inr ⟨h.regular, fun p hp => ?_⟩) (fun w _ _ q hq => ?_) ?_
        (fun e a w w' held _ hfs => by rwa [hfs]) fun a => ?_
      · rw [List.mem_singleton.mp hp]
        exact h.mem_own.1
      · exact (content_removed w.fs final.resolve q.resolve).imp_right .inl
      · intro w w' _ held hfs
        rw [hfs, content_exec (.inr fun p hp => ?_)]
        · exact held
        · rw [List.mem_singleton.mp hp]
          exact (h.temp_ne h.chosen).symm
      · cases a with
        | error e => exact abandon_triple h _
        | ok u => exact renames
  · rw [if_neg hover]
    exact renames

/-- The loop: the part file holds its front and what was hashed, and the rest of the stream brings
the rest. -/
theorem receiveLoop_triple (foreseen : Foreseen saveRoot strategy receipts t₀ r final)
    {front : Bytes} (hfront : Front t₀ r final front) {messages : Stream} {hashed : Bytes}
    (data : hashed ++ payload messages = payload r.messages)
    (ends : closing messages = closing r.messages)
    (addressed : Addressed r.item messages → Addressed r.item r.messages) :
    Triple exec free (Keeps blake3 saveRoot strategy receipts t₀) i
      (Since t₀ fun w => content w.fs (tempPathFor final).resolve = some (front ++ hashed))
      (receiveLoop blake3 r.item id strategy final (tempPathFor final) hashed messages)
      (Arrived blake3 saveRoot strategy receipts t₀ r) := by
  induction messages generalizing hashed with
  | nil => exact abandon_triple h _
  | cons m rest ih =>
    cases m with
    | error f => exact abandon_triple h _
    | ok message =>
      cases message with
      | chunk chunk =>
        simp only [receiveLoop]
        split_ifs with hid
        · exact failed_triple _
        · refine triple_beside h (fun a w => a = .ok () →
            content w.fs (tempPathFor final).resolve = some (front ++ (hashed ++ chunk.data)))
            (stable_held h _) (.inr fun p hp => List.mem_singleton.mp hp) ?_ ?_ fun a => ?_
          · intro w w' held hfs ok
            obtain ⟨c, found, grown⟩ := content_appendAt ok
            obtain rfl := Option.some.inj (found.symm.trans held)
            rw [hfs, ← List.append_assoc]
            exact grown
          · rintro e a w w' - refuses - rfl
            cases refuses
          · cases a with
            | error e => exact abandon_triple h _
            | ok u =>
              refine Triple.conseq (P := Since t₀ fun w => content w.fs (tempPathFor final).resolve =
                some (front ++ (hashed ++ chunk.data))) ?_ (fun w held => ⟨held.1, held.2 rfl⟩)
                fun _ _ h => h
              simp only [ret_bind, bind_def]
              refine triple_quiet (stable_since (stable_held h _))
                (fun w w' held hfs => by rwa [Since, hfs])
                (addProgress_quiet id _) fun _ => ih ?_ ends fun later =>
                  addressed ⟨not_not.mp hid, later⟩
              rw [List.append_assoc]
              exact data
      | complete complete =>
        simp only [receiveLoop]
        split_ifs with hid matched
        · exact failed_triple _
        · refine triple_beside h (fun _ _ => True) (stable_held h _) (.inr fun p hp => by cases hp)
            (fun _ _ _ _ => trivial) (fun _ _ _ _ _ _ _ => trivial) fun a => ?_
          cases a with
          | error e => exact abandon_triple h _
          | ok u => exact abandon_triple h _
        · have all : hashed = payload r.messages := (List.append_nil _).symm.trans data
          have whole : Whole blake3 r := by
            refine ⟨addressed (not_not.mp hid), complete, ends.symm, ?_⟩
            rw [← all]
            exact not_not.mp matched
          refine triple_beside h
            (fun _ w => content w.fs (tempPathFor final).resolve = some (front ++ hashed))
            (stable_held h _) (.inr fun p hp => by cases hp) (fun w w' held hfs => by rwa [hfs])
            (fun e a w w' held _ hfs => by rwa [hfs]) fun a => ?_
          cases a with
          | error e => exact abandon_triple h _
          | ok u =>
            rw [all]
            exact placeFile_triple h whole foreseen ⟨front, hfront, rfl⟩
      | _ => exact abandon_triple h _

/-- What is known of the part file when its length has been read: it is still the leftover, and not
too long, or the stream starts over. -/
def Measured (t₀ : Tree) (r : Receipt) (final : PathBuf) (offset : ℕ) (w : World) : Prop :=
  offset = 0 ∨ content w.fs (tempPathFor final).resolve = content t₀ (tempPathFor final).resolve ∧
    ∀ c, content t₀ (tempPathFor final).resolve = some c → c.length ≤ r.item.size

theorem stable_measured (offset : ℕ) :
    Stable (Keeps blake3 saveRoot strategy receipts t₀) i (Measured t₀ r final offset) :=
  stable_own h.apart h.here fun _ _ measured _ same =>
    measured.imp_right fun kept => ⟨(same _ h.mem_own.2).trans kept.1, kept.2⟩

/-- The part file is open, on one of its fronts. -/
def Begun (t₀ : Tree) (r : Receipt) (final : PathBuf) (w : World) : Prop :=
  ∃ front, Front t₀ r final front ∧ content w.fs (tempPathFor final).resolve = some front

theorem leftoverLength_triple :
    Triple exec free (Keeps blake3 saveRoot strategy receipts t₀) i
      (Since t₀ fun w => content w.fs (tempPathFor final).resolve =
        content t₀ (tempPathFor final).resolve)
      (leftoverLength r.item (tempPathFor final))
      (fun offset => Since t₀ (Measured t₀ r final offset)) := by
  have restarts {P : World → Prop} (stable : Stable (Keeps blake3 saveRoot strategy receipts t₀) i P) :
      Triple exec free (Keeps blake3 saveRoot strategy receipts t₀) i (Since t₀ P) (.pure 0)
        (fun offset => Since t₀ (Measured t₀ r final offset)) :=
    Triple.pure (stable_since stable) fun _ held => ⟨held.1, .inl rfl⟩
  refine triple_beside h (fun found w => (∀ info, found = some info → ∀ c,
      content t₀ (tempPathFor final).resolve = some c → info.len = c.length) ∧
        content w.fs (tempPathFor final).resolve = content t₀ (tempPathFor final).resolve)
    (stable_held h _) (.inr fun p hp => by cases hp) ?_ (fun e a w w' _ refuses => by cases refuses)
    fun found => ?_
  · intro w w' held hfs
    refine ⟨fun info found c left => ?_, by rwa [hfs]⟩
    rw [← held] at left
    simp only [FsOp.exec, content_eq_some.mp left, Option.map_some] at found
    rw [← Option.some.inj found]
    rfl
  · have held : Stable (Keeps blake3 saveRoot strategy receipts t₀) i fun w =>
        content w.fs (tempPathFor final).resolve = content t₀ (tempPathFor final).resolve :=
      stable_held h _
    cases found with
    | none => exact restarts held.given
    | some info =>
      simp only [ret_bind]
      split_ifs with tooLong
      · refine triple_beside h (fun _ _ => True) held.given (.inr fun p hp => List.mem_singleton.mp hp)
          (fun _ _ _ _ => trivial) (fun _ _ _ _ _ _ _ => trivial) fun _ => restarts .trivial
      · refine Triple.pure (stable_since held.given) fun w found => ⟨found.1, .inr ⟨found.2.2, ?_⟩⟩
        intro c left
        rw [← found.2.1 info rfl c left]
        exact Nat.le_of_not_lt tooLong

theorem createFile_triple {β : Type} {P : World → Prop} {k : Except IoError Unit → Code β}
    {Q : β → World → Prop} (stable : Stable (Keeps blake3 saveRoot strategy receipts t₀) i P)
    (rest : ∀ a, Triple exec free (Keeps blake3 saveRoot strategy receipts t₀) i
      (Since t₀ fun w => a = .ok () → Begun t₀ r final w) (k a) Q) :
    Triple exec free (Keeps blake3 saveRoot strategy receipts t₀) i (Since t₀ P)
      (.op (.fs (.createFile (tempPathFor final))) k) Q := by
  refine triple_beside h _ stable (.inr fun p hp => List.mem_singleton.mp hp) ?_ ?_ rest
  · intro w w' _ hfs ok
    rw [Begun, hfs]
    exact ⟨[], .inl rfl, content_createAt ok⟩
  · rintro e a w w' - refuses - rfl
    cases refuses

theorem openTemp_triple (offset : ℕ) :
    Triple exec free (Keeps blake3 saveRoot strategy receipts t₀) i
      (Since t₀ (Measured t₀ r final offset)) (openTemp (tempPathFor final) offset)
      (fun opened => Since t₀ fun w => opened = some (.ok ()) → Begun t₀ r final w) := by
  have returns (opened : Option (Except IoError Unit)) :
      Triple exec free (Keeps blake3 saveRoot strategy receipts t₀) i
        (Since t₀ fun w => opened = some (.ok ()) → Begun t₀ r final w) (.pure opened)
        (fun opened => Since t₀ fun w => opened = some (.ok ()) → Begun t₀ r final w) := by
    refine Triple.pure (stable_since (stable_own h.apart h.here fun w w' held _ same ok => ?_))
      fun _ held => held
    rw [Begun, same _ h.mem_own.2]
    exact held ok
  unfold openTemp
  split_ifs with positive
  · refine triple_beside h (fun a w => a = .ok () → Begun t₀ r final w) (stable_measured h offset)
      (.inr fun p hp => by cases hp) ?_ ?_ fun a => ?_
    · intro w w' measured hfs ok
      obtain ⟨same, fits⟩ := measured.resolve_left (Nat.pos_iff_ne_zero.mp positive)
      cases held : content w.fs (tempPathFor final).resolve with
      | none =>
        rw [exec_openAppend_none held] at ok
        cases ok
      | some c =>
        have left := same.symm.trans held
        rw [exec_openAppend held] at hfs
        refine ⟨c, .inr (kept_of_content left (fits c left)).symm, ?_⟩
        rw [hfs]
        exact held
    · rintro e a w w' - refuses - rfl
      cases refuses
    · cases a with
      | ok u =>
        exact (returns (some (.ok u))).conseq (fun w held => ⟨held.1, fun _ => held.2 rfl⟩)
          fun _ _ h => h
      | error e =>
        refine Triple.conseq (P := Since t₀ fun _ => True) ?_ (fun _ held => ⟨held.1, trivial⟩)
          fun _ _ h => h
        refine triple_beside h (fun _ _ => True) .trivial (.inr fun p hp => List.mem_singleton.mp hp)
          (fun _ _ _ _ => trivial) (fun _ _ _ _ _ _ _ => trivial) fun _ => ?_
        refine createFile_triple h .trivial fun a => ?_
        cases a with
        | ok u =>
          exact (returns (some (.ok u))).conseq (fun w held => ⟨held.1, fun _ => held.2 rfl⟩)
            fun _ _ h => h
        | error e =>
          exact (returns none).conseq (fun w held => ⟨held.1, fun opened => by cases opened⟩)
            fun _ _ h => h
  · refine createFile_triple h (stable_measured h offset) fun a => ?_
    exact (returns (some a)).conseq (fun w held => ⟨held.1, fun ok => held.2 (Option.some.inj ok)⟩)
      fun _ _ h => h

/-- The part file and, in an offer that is clear, what lies on the way to the file are as they were
at the start. -/
def Before (saveRoot : PathBuf) (strategy : FileConflictStrategy) (receipts : List Receipt)
    (t₀ : Tree) (final : PathBuf) (w : World) : Prop :=
  content w.fs (tempPathFor final).resolve = content t₀ (tempPathFor final).resolve ∧
    (Clear saveRoot strategy receipts → ∀ k, k <+: final.resolve → content w.fs k = content t₀ k)

theorem stable_before : Stable (Keeps blake3 saveRoot strategy receipts t₀) i
    (Before saveRoot strategy receipts t₀ final) := by
  rintro w w' ⟨held, ways⟩ ⟨j, other, kept⟩
  refine ⟨stable_held h _ w w' held ⟨j, other, kept⟩, fun clear k above => ?_⟩
  rw [← ways clear k above]
  refine kept.others k fun s found regular q hq same => ?_
  refine clear j i s r other found h.here regular q hq final h.mem_own.1 ?_
  rwa [same]

theorem receiveRegular_triple
    (chosen : Clear saveRoot strategy receipts → Chosen t₀ strategy r.item saveRoot final) :
    Triple exec free (Keeps blake3 saveRoot strategy receipts t₀) i
      (Since t₀ (Before saveRoot strategy receipts t₀ final))
      (receiveRegular blake3 r.item id strategy final r.messages)
      (Arrived blake3 saveRoot strategy receipts t₀ r) := by
  have fill (foreseen : Foreseen saveRoot strategy receipts t₀ r final) :
      Triple exec free (Keeps blake3 saveRoot strategy receipts t₀) i
        (Since t₀ fun w => content w.fs (tempPathFor final).resolve =
          content t₀ (tempPathFor final).resolve)
        (fillPart r.item id strategy final blake3 r.messages)
        (Arrived blake3 saveRoot strategy receipts t₀ r) := by
    refine triple_beside h (fun _ w => content w.fs (tempPathFor final).resolve =
      content t₀ (tempPathFor final).resolve)
      (stable_held h _) (.inr fun p hp => by cases hp) (fun w w' held hfs => by rwa [hfs])
      (fun e a w w' _ refuses => by cases refuses) fun _ => ?_
    refine (leftoverLength_triple h).bind fun offset => (openTemp_triple h offset).bind fun opened => ?_
    rcases opened with _ | (e | u)
    · exact Triple.always fun w acked => by cases acked
    · exact failed_triple _
    · rintro w ⟨grows, begun⟩
      obtain ⟨front, hfront, held⟩ := begun rfl
      refine receiveLoop_triple h foreseen hfront (List.nil_append _) rfl (fun whole => whole) w
        ⟨grows, ?_⟩
      rwa [List.append_nil]
  unfold receiveRegular
  split
  · rename_i parent up
    refine triple_beside h (fun a w => (a = .ok () → Clear saveRoot strategy receipts →
        ((FsOp.createDirAll parent).exec t₀).answer = .ok ()) ∧
          content w.fs (tempPathFor final).resolve = content t₀ (tempPathFor final).resolve)
      (stable_before h) (.inl ⟨parent, rfl, up⟩) ?_ ?_ fun made => ?_
    · rintro w w' ⟨held, ways⟩ hfs
      refine ⟨fun ok clear => h.reached (ways clear) up ok, ?_⟩
      rw [hfs, content_exec (.inl ⟨_, rfl⟩)]
      exact held
    · rintro e a w w' ⟨held, -⟩ refuses hfs
      cases refuses
      exact ⟨fun ok => (by cases ok), by rwa [hfs]⟩
    · cases made with
      | error e => exact failed_triple _
      | ok u =>
        rintro w ⟨grows, reached, held⟩
        refine fill (fun clear => ⟨chosen clear, fun q up' => ?_⟩) w ⟨grows, held⟩
        obtain rfl := Option.some.inj (up.symm.trans up')
        exact reached rfl clear
  · rename_i up
    refine (fill fun clear => ⟨chosen clear, fun q up' => ?_⟩).conseq
      (fun w before => ⟨before.1, before.2.1⟩) fun _ _ h => h
    rw [up] at up'
    cases up'

end Steps

end Regular

section Offer

variable {blake3 : Bytes → Digest} {saveRoot : PathBuf} {id : String}
variable {strategy : FileConflictStrategy} {receipts : List Receipt} {t₀ : Tree} {i : ℕ}
variable {r : Receipt}

structure Ready (saveRoot : PathBuf) (strategy : FileConflictStrategy) (receipts : List Receipt)
    (t₀ : Tree) (r : Receipt) (w : World) : Prop where
  config : w.config.fileConflictStrategy = strategy
  temps : r.item.fileType = .regularFile → ∀ q ∈ targets saveRoot strategy r,
    content w.fs (tempPathFor q).resolve = content t₀ (tempPathFor q).resolve
  looks : r.item.fileType = .regularFile → Clear saveRoot strategy receipts →
    ∀ q ∈ targets saveRoot strategy r, look w.fs q.resolve = look t₀ q.resolve
  ways : r.item.fileType = .regularFile → Clear saveRoot strategy receipts →
    ∀ q ∈ targets saveRoot strategy r, ∀ k, k <+: q.resolve → content w.fs k = content t₀ k

theorem Ready.of_same {w w' : World} (h : Ready saveRoot strategy receipts t₀ r w)
    (config : w'.config = w.config) (fs : w'.fs = w.fs) :
    Ready saveRoot strategy receipts t₀ r w' := by
  refine ⟨by rw [config, h.config], fun regular => ?_, fun regular => ?_, fun regular => ?_⟩
  · rw [fs]
    exact h.temps regular
  · rw [fs]
    exact h.looks regular
  · rw [fs]
    exact h.ways regular

theorem stable_ready (apart : Disjoint saveRoot strategy receipts) (here : receipts[i]? = some r) :
    Stable (Keeps blake3 saveRoot strategy receipts t₀) i
      (Ready saveRoot strategy receipts t₀ r) := by
  rintro w w' ready ⟨j, other, kept⟩
  have mem (regular : r.item.fileType = .regularFile) {q : PathBuf}
      (hq : q ∈ targets saveRoot strategy r) :
      q ∈ own saveRoot strategy r ∧ tempPathFor q ∈ own saveRoot strategy r := by
    simp only [own, places, regular]
    exact ⟨List.mem_append_left _ hq, List.mem_append_right _ (List.mem_map_of_mem hq)⟩
  refine ⟨by rw [kept.config, ready.config], fun regular q hq => ?_, fun regular clear q hq => ?_,
    fun regular clear q hq k above => ?_⟩
  · rw [← ready.temps regular q hq]
    refine kept.others _ fun s found regular' q' hq' => ?_
    exact (apart i j r s (Ne.symm other) here found regular' _ (mem regular hq).2 q' hq').symm
  · rw [← ready.looks regular clear q hq]
    refine kept.looks _ fun s found q' hq' => ?_
    exact clear i j r s (Ne.symm other) here found regular q (mem regular hq).1 q' hq'
  · rw [← ready.ways regular clear q hq k above]
    refine kept.others k fun s found regular' q' hq' same => ?_
    refine clear j i s r other found here regular' q' hq' q (mem regular hq).1 ?_
    rwa [same]

/-- Looking changes nothing, and in an offer that is clear it finds what it would have found at the
start. -/
theorem survey_triple (apart : Disjoint saveRoot strategy receipts) (here : receipts[i]? = some r)
    (regular : r.item.fileType = .regularFile) {α : Type} {x : Code α} {q : α → Prop}
    (within : x.Within (looksAt (targets saveRoot strategy r)) q) :
    Triple exec free (Keeps blake3 saveRoot strategy receipts t₀) i
      (Since t₀ (Ready saveRoot strategy receipts t₀ r)) x
      (fun a w => (q a ∧ (Clear saveRoot strategy receipts → survey t₀ x = some a)) ∧
        Since t₀ (Ready saveRoot strategy receipts t₀ r) w) := by
  have stable : Stable (Keeps blake3 saveRoot strategy receipts t₀) i
      (Since t₀ (Ready saveRoot strategy receipts t₀ r)) := stable_since (stable_ready apart here)
  induction x with
  | pure a => exact Triple.pure stable fun _ ready => ⟨⟨within, fun _ => rfl⟩, ready⟩
  | op o k ih =>
    cases o with
    | fs g =>
      cases g with
      | metadata p =>
        obtain ⟨mem, later⟩ := within
        refine Triple.op (fun a w => (Clear saveRoot strategy receipts →
            a = (look t₀ p.resolve).map Node.metadata) ∧
              Since t₀ (Ready saveRoot strategy receipts t₀ r) w) stable ?_ fun a =>
                Triple.given fun seen => ?_
        · intro y w w' a ready _ done
          obtain ⟨w₁, ran, logged⟩ := exec_inv done
          simp only [execOp, execFs] at ran
          split at ran
          · obtain ⟨a', refuses, -⟩ := Option.map_eq_some_iff.mp ran
            cases refuses
          · cases ran
            rw [logged]
            refine ⟨.of_same rfl rfl, fun clear => ?_, ready.1, ready.2.of_same rfl rfl⟩
            simp only [FsOp.exec]
            rw [ready.2.looks regular clear p mem]
        · refine (ih a (later a)).conseq (fun _ h => h) fun b w found => ⟨⟨found.1.1, ?_⟩, found.2⟩
          intro clear
          rw [survey, ← seen clear]
          exact found.1.2 clear
      | _ => exact within.1.elim
    | _ => exact within.1.elim

theorem receiveDirectory_triple (here : receipts[i]? = some r)
    (directory : r.item.fileType = .directory)
    (valid : validateRelPath r.item.relPath.toList saveRoot = .ok (pathOf saveRoot r.item))
    (message : DashMessage) :
    Triple exec free (Keeps blake3 saveRoot strategy receipts t₀) i (Since t₀ fun _ => True)
      (receiveDirectory blake3 r.item (pathOf saveRoot r.item) message) fun _ _ => True := by
  cases message with
  | complete complete =>
    simp only [receiveDirectory]
    split_ifs
    · exact Triple.always fun _ => trivial
    · exact Triple.always fun _ => trivial
    · refine triple_fs (fun _ _ => True) here .trivial (.inl ⟨_, rfl, accepted_onward valid, _, ?_,
          List.prefix_rfl⟩)
        (fun w _ regular => ?_) (fun _ _ _ _ _ => trivial) (fun _ _ _ _ _ _ _ => trivial)
        fun made => ?_
      · simp [own, places, directory]
      · rw [directory] at regular
        cases regular
      · cases made <;> exact Triple.always fun _ => trivial
  | _ => exact Triple.always fun _ => trivial

theorem receipt_triple (apart : Disjoint saveRoot strategy receipts) (here : receipts[i]? = some r)
    (valid : validateRelPath r.item.relPath.toList saveRoot = .ok (pathOf saveRoot r.item)) :
    Triple exec free (Keeps blake3 saveRoot strategy receipts t₀) i
      (Since t₀ (Ready saveRoot strategy receipts t₀ r)) (r.prog blake3 saveRoot id)
      (fun a w => r.item.fileType = .regularFile →
        Arrived blake3 saveRoot strategy receipts t₀ r a w) := by
  unfold Receipt.prog receiveOneFile
  rw [valid]
  refine Triple.op (fun config w => config.fileConflictStrategy = strategy ∧
    Since t₀ (Ready saveRoot strategy receipts t₀ r) w) (stable_since (stable_ready apart here)) ?_
      fun config => Triple.given fun read => ?_
  · intro x w w' config ready _ done
    obtain ⟨w₁, ran, logged⟩ := exec_inv done
    cases ran
    rw [logged]
    exact ⟨.of_same rfl rfl, ready.2.config, ready.1, ready.2.of_same rfl rfl⟩
  · subst read
    simp only [ret_bind]
    cases kind : r.item.fileType with
    | directory =>
      exact (receiveDirectory_triple here kind valid _).conseq (fun _ ready => ⟨ready.1, trivial⟩)
        fun a w _ regular => by cases regular
    | regularFile =>
      refine Triple.bind (survey_triple apart here kind
        (resolveConflictPath_looks _ config.fileConflictStrategy)) fun found =>
          Triple.given fun surveyed => ?_
      rcases found with e | (_ | final)
      · exact (failed_triple _).conseq (fun _ h => h) fun _ _ arrived _ => arrived
      · exact (failed_triple _).conseq (fun _ h => h) fun _ _ arrived _ => arrived
      · have target : Target saveRoot config.fileConflictStrategy receipts i r final :=
          ⟨apart, here, kind, valid, surveyed.1 final rfl⟩
        refine (receiveRegular_triple target fun clear => ⟨_, valid, surveyed.2 clear⟩).conseq
          (fun w ready => ⟨ready.1, ready.2.temps kind final target.chosen, fun clear => ?_⟩)
          fun _ _ arrived _ => arrived
        exact ready.2.ways kind clear final target.chosen

/-- Every task of an offer keeps to its own paths, and what it acknowledges is what arrived. -/
theorem receipts_safe {w : World} {items : List FileItem}
    (apart : Disjoint saveRoot w.config.fileConflictStrategy receipts)
    (offered : receipts.map Receipt.item = (dispatch saveRoot [] items).map Prod.fst) (i : ℕ)
    (x : Code TaskResult)
    (thread : (receipts.map (Receipt.prog blake3 saveRoot id))[i]? = some x) :
    Safe exec free (Keeps blake3 saveRoot w.config.fileConflictStrategy receipts w.fs) i x
      (fun a w' => ∀ r, receipts[i]? = some r → r.item.fileType = .regularFile →
        Arrived blake3 saveRoot w.config.fileConflictStrategy receipts w.fs r a w') w := by
  rw [List.getElem?_map] at thread
  obtain ⟨r, here, rfl⟩ := Option.map_eq_some_iff.mp thread
  have valid := (task_of_receipt offered here).2
  refine Safe.conseq (receipt_triple apart here valid w ⟨fun _ h => h, rfl,
    fun _ _ _ => rfl, fun _ _ _ _ => rfl, fun _ _ _ _ _ _ => rfl⟩) fun a w' arrived s found => ?_
  obtain rfl := Option.some.inj (here.symm.trans found)
  exact arrived

end Offer

end DashDrop.Receiving.SideBySide
