/- GID: DashDrop/Runtime/Solo
   source: src-tauri/src/transport/receiver.rs
   anchors: []
   digest: One thread on its own: the steps it can take and the steps it must have taken. -/

import DashDrop.Runtime.Effects

set_option autoImplicit false
set_option relaxedAutoImplicit false

namespace DashDrop.Runtime.Solo

open DashDrop.Foundation.FileTree DashDrop.Foundation.Program
open DashDrop.Foundation.Interleaving
open DashDrop.Runtime.State DashDrop.Runtime.Machine DashDrop.Runtime.Effects

structure Alike (w w' : World) : Prop where
  config : w'.config = w.config
  hostDownloadDir : w'.hostDownloadDir = w.hostDownloadDir
  home : w'.home = w.home
  trustedPeers : w'.trustedPeers = w.trustedPeers
  conns : w'.conns = w.conns

structure Same (w w' : World) : Prop extends Alike w w' where
  fs : w'.fs = w.fs
  touched : w'.touched = w.touched

theorem Alike.refl (w : World) : Alike w w := ⟨rfl, rfl, rfl, rfl, rfl⟩

theorem Alike.trans {w w' w'' : World} (h : Alike w w') (h' : Alike w' w'') : Alike w w'' where
  config := h'.config.trans h.config
  hostDownloadDir := h'.hostDownloadDir.trans h.hostDownloadDir
  home := h'.home.trans h.home
  trustedPeers := h'.trustedPeers.trans h.trustedPeers
  conns := h'.conns.trans h.conns

theorem Same.refl (w : World) : Same w w := ⟨.refl w, rfl, rfl⟩

theorem Same.trans {w w' w'' : World} (h : Same w w') (h' : Same w' w'') : Same w w'' :=
  ⟨h.toAlike.trans h'.toAlike, h'.fs.trans h.fs, h'.touched.trans h.touched⟩

private theorem alike_execOp {o : Op} {x : Ans} {w w' : World} {r : o.Resp}
    (ran : execOp x w o = some (w', r)) (hnet : ∀ n, o ≠ .net n) (es : List Event) :
    Alike w (log w' es) := by
  have frame := frame_execOp ran
  exact ⟨frame.config, frame.dirs.1, frame.dirs.2, frame.trustedPeers, frame.conns hnet⟩

private theorem same_execOp {o : Op} {x : Ans} {w w' : World} {r : o.Resp}
    (ran : execOp x w o = some (w', r)) (hnet : ∀ n, o ≠ .net n) (hfs : ∀ g, o ≠ .fs g)
    (es : List Event) : Same w (log w' es) := by
  have hfiles := (frame_execOp ran).fs hfs
  exact ⟨alike_execOp ran hnet es, hfiles.1, hfiles.2⟩

/-- The result of a program that only looks at the files, over a tree that stays as it is. -/
def survey {α : Type} (t : Tree) : Code α → Option α
  | .pure a => some a
  | .op (.fs (.metadata p)) k => survey t (k ((look t p.resolve).map Node.metadata))
  | .op _ _ => none

section Possible

variable {α β : Type} {i : ℕ} {w : World} {guard : Guard Op World Ans}

/-- Sections that are always enabled and leave settings and files alone. -/
def quietOps : Op → Prop
  | .task _ | .note _ | .env (.emit _) => True
  | _ => False

/-- A guard that lets every operation be answered in the plain way. -/
class Plain (guard : Guard Op World Ans) : Prop where
  allows : ∀ i o w, guard i o ⟨0, .unit⟩ w

instance : Plain free := ⟨fun _ _ _ => trivial⟩

theorem exec_of_execOp {o : Op} {x : Ans} {w₁ : World} {r : o.Resp}
    (ran : execOp x w o = some (w₁, r)) :
    exec i o x w = some (log w₁ (history i w₁ o r), r) := by
  simp only [exec, ran, Option.map_some]

theorem reaches_step {P : Code α → World → Prop} {o : Op} {k : o.Resp → Code α} (x : Ans)
    {w₁ : World} {r : o.Resp} (allowed : guard i o x w)
    (ran : execOp x w o = some (w₁, r))
    (later : Reaches exec guard i P (k r) (log w₁ (history i w₁ o r))) :
    Reaches exec guard i P (.op o k) w := by
  exact .inr ⟨x, _, r, allowed, exec_of_execOp ran, later⟩

theorem reaches_quiet [Plain guard] {P : Code β → World → Prop} {x : Code α} {q : α → Prop}
    (within : x.Within quietOps q)
    {f : α → Code β} (later : ∀ a w', Same w w' → Reaches exec guard i P (f a) w') :
    Reaches exec guard i P (x.bind f) w := by
  induction x generalizing w with
  | pure a => exact later a w (.refl w)
  | op o k ih =>
    obtain ⟨w₁, r, ran⟩ : ∃ w₁ r, execOp ⟨0, .unit⟩ w o = some (w₁, r) := by
      cases o with
      | task u => exact ⟨_, _, rfl⟩
      | note u => exact ⟨_, _, rfl⟩
      | env u =>
        cases u with
        | emit event => exact ⟨_, _, rfl⟩
        | _ => exact within.1.elim
      | _ => exact within.1.elim
    have hnet : ∀ n, o ≠ .net n := by
      rintro n rfl
      exact within.1
    have hfs : ∀ g, o ≠ .fs g := by
      rintro g rfl
      exact within.1
    have same := same_execOp ran hnet hfs (history i w₁ o r)
    refine reaches_step _ (Plain.allows i o w) ran
      (ih r (within.2 r) fun a w' h => later a w' (same.trans h))

theorem reaches_env_of {P : Code α → World → Prop} {u : EnvOp} {k : u.Resp → Code α} (x : Ans)
    {r : u.Resp} (allowed : guard i (.env u) x w) (answered : execEnv x w u = some r)
    (later : ∀ w', Same w w' → Reaches exec guard i P (k r) w') :
    Reaches exec guard i P (.op (.env u) k) w := by
  have ran : execOp x w (.env u) = some (w, r) := by simp [execOp, answered]
  exact reaches_step (o := .env u) x allowed ran (later _ (same_execOp ran (by simp) (by simp) _))

theorem reaches_env {P : Code α → World → Prop} {u : EnvOp} {k : u.Resp → Code α} (x : Ans)
    {r : u.Resp} (answered : execEnv x w u = some r)
    (later : ∀ w', Same w w' → Reaches exec free i P (k r) w') :
    Reaches exec free i P (.op (.env u) k) w :=
  reaches_env_of x trivial answered later

theorem reaches_write [Plain guard] {P : Code α → World → Prop} {c : ℕ} {id : String}
    {m : Transport.Protocol.DashMessage}
    {k : Except WriteFault Unit → Code α} (isOpen : connOpen w c = true)
    (later : ∀ w', Same w w' → Reaches exec guard i P (k (.ok ())) w') :
    Reaches exec guard i P (.op (.net (.write c id m)) k) w := by
  have ran : execOp ⟨0, .unit⟩ w (.net (.write c id m)) = some (w, .ok ()) := by
    simp [execOp, execNet, isOpen]
  exact reaches_step (o := .net (.write c id m)) _ (Plain.allows _ _ _) ran
    (later _ ⟨⟨rfl, rfl, rfl, rfl, rfl⟩, rfl, rfl⟩)

theorem reaches_fs [Plain guard] {P : Code α → World → Prop} {g : FsOp} {k : g.Resp → Code α}
    (later : ∀ w', Alike w w' → w'.fs = (g.exec w.fs).tree →
      w'.touched = w.touched ++ (g.exec w.fs).touched →
      Reaches exec guard i P (k (g.exec w.fs).answer) w') :
    Reaches exec guard i P (.op (.fs g) k) w := by
  have ran : execOp ⟨0, .unit⟩ w (.fs g) = some ({ w with
      fs := (g.exec w.fs).tree
      touched := w.touched ++ (g.exec w.fs).touched }, (g.exec w.fs).answer) := rfl
  exact reaches_step (o := .fs g) _ (Plain.allows _ _ _) ran
    (later _ (alike_execOp ran (by simp) _) rfl rfl)

theorem ahead_fs [Plain guard] {e : (o : Op) → o.Resp → Prop} {Q : Code α → World → Prop}
    {g : FsOp} {k : g.Resp → Code α} (here : e (.fs g) (g.exec w.fs).answer)
    (later : ∀ w', Alike w w' → w'.fs = (g.exec w.fs).tree →
      Reaches exec guard i Q (k (g.exec w.fs).answer) w') :
    Ahead exec guard e i Q (.op (.fs g) k) w := by
  have ran : execOp ⟨0, .unit⟩ w (.fs g) = some ({ w with
      fs := (g.exec w.fs).tree
      touched := w.touched ++ (g.exec w.fs).touched }, (g.exec w.fs).answer) := rfl
  exact ⟨_, k, _, _, _, rfl, Plain.allows _ _ _, exec_of_execOp ran, here,
    later _ (alike_execOp ran (by simp) _) rfl⟩

theorem reaches_refused {P : Code α → World → Prop} {g : FsOp} {k : g.Resp → Code α} {e : IoError}
    {r : g.Resp} (allowed : guard i (.fs g) ⟨0, .io e⟩ w) (refused : g.refuse e = some r)
    (later : ∀ w', Same w w' → Reaches exec guard i P (k r) w') :
    Reaches exec guard i P (.op (.fs g) k) w := by
  have ran : execOp ⟨0, .io e⟩ w (.fs g) = some (w, r) := by simp [execOp, execFs, refused]
  exact reaches_step (o := .fs g) _ allowed ran (later _ ⟨⟨rfl, rfl, rfl, rfl, rfl⟩, rfl, rfl⟩)

theorem reaches_survey [Plain guard] {P : Code β → World → Prop} {x : Code α} {a : α}
    (h : survey w.fs x = some a) {f : α → Code β}
    (later : ∀ w', Same w w' → Reaches exec guard i P (f a) w') :
    Reaches exec guard i P (x.bind f) w := by
  induction x generalizing w with
  | pure b =>
    obtain rfl := Option.some.inj h
    exact later w (.refl w)
  | op o k ih =>
    cases o with
    | fs g =>
      cases g with
      | metadata p =>
        refine reaches_fs fun w' alike hfs htouched => ?_
        have same : Same w w' := ⟨alike, hfs, htouched.trans (List.append_nil _)⟩
        refine ih _ ?_ fun w'' h' => later w'' (same.trans h')
        rw [hfs]
        exact h
      | _ => cases h
    | _ => cases h

end Possible

section Certain

variable {α β : Type} {i : ℕ} {w : World} {guard : Guard Op World Ans}

private theorem exec_log {o : Op} {x : Ans} {w' : World} {r : o.Resp}
    (done : exec i o x w = some (w', r)) :
    ∃ w₁ es, execOp x w o = some (w₁, r) ∧ w' = log w₁ es := by
  obtain ⟨w₁, ran, same⟩ := exec_inv done
  exact ⟨w₁, _, ran, same⟩

theorem delivers_quiet {Q : β → World → Prop} {x : Code α} {q : α → Prop}
    (within : x.Within quietOps q) {f : α → Code β}
    (later : ∀ a w', Same w w' → Delivers exec guard i Q (f a) w') :
    Delivers exec guard i Q (x.bind f) w := by
  induction x generalizing w with
  | pure a => exact later a w (.refl w)
  | op o k ih =>
    intro y w' r _ done
    obtain ⟨w₁, es, ran, rfl⟩ := exec_log done
    have hnet : ∀ n, o ≠ .net n := by
      rintro n rfl
      exact within.1
    have hfs : ∀ g, o ≠ .fs g := by
      rintro g rfl
      exact within.1
    have same := same_execOp ran hnet hfs es
    exact ih r (within.2 r) fun a w'' h => later a w'' (same.trans h)

theorem delivers_env {Q : α → World → Prop} {u : EnvOp} {k : u.Resp → Code α}
    (later : ∀ x r w', execEnv x w u = some r → Same w w' → Delivers exec guard i Q (k r) w') :
    Delivers exec guard i Q (.op (.env u) k) w := by
  intro x w' r _ done
  obtain ⟨w₁, es, ran, rfl⟩ := exec_log done
  have same := same_execOp ran (by simp) (by simp) es
  obtain ⟨r', answered, hr⟩ := Option.map_eq_some_iff.mp ran
  obtain rfl : r' = r := congrArg Prod.snd hr
  exact later x r' _ answered same

theorem delivers_fs {Q : α → World → Prop} {g : FsOp} {k : g.Resp → Code α}
    (ok : ∀ w', Alike w w' → w'.fs = (g.exec w.fs).tree →
      Delivers exec guard i Q (k (g.exec w.fs).answer) w')
    (refused : ∀ e r w', g.refuse e = some r → Same w w' → Delivers exec guard i Q (k r) w') :
    Delivers exec guard i Q (.op (.fs g) k) w := by
  intro x w' r _ done
  obtain ⟨w₁, es, ran, rfl⟩ := exec_log done
  have alike := alike_execOp ran (by simp) es
  simp only [execOp, execFs] at ran
  split at ran
  · rename_i e _
    obtain ⟨r', answered, hr⟩ := Option.map_eq_some_iff.mp ran
    cases hr
    exact refused e r _ answered ⟨alike, rfl, rfl⟩
  · cases ran
    exact ok _ alike rfl

theorem delivers_granted {Q : α → World → Prop} {g : FsOp} {k : g.Resp → Code α}
    (granted : ∀ x, guard i (.fs g) x w → ∀ e, x.reply ≠ .io e)
    (ok : ∀ w', Alike w w' → w'.fs = (g.exec w.fs).tree →
      Delivers exec guard i Q (k (g.exec w.fs).answer) w') :
    Delivers exec guard i Q (.op (.fs g) k) w := by
  intro x w' r allowed done
  obtain ⟨w₁, es, ran, rfl⟩ := exec_log done
  have alike := alike_execOp ran (by simp) es
  simp only [execOp, execFs] at ran
  split at ran
  · rename_i e hreply
    exact absurd hreply (granted x allowed e)
  · cases ran
    exact ok _ alike rfl

theorem delivers_within {x : Code α} {p : Op → Prop} {q : α → Prop} (within : x.Within p q)
    {I : Tree → Prop} (keeps : ∀ g, p (.fs g) → ∀ t, I t → I (g.exec t).tree) (here : I w.fs) :
    Delivers exec guard i (fun a w' => q a ∧ I w'.fs) x w := by
  induction x generalizing w with
  | pure a => exact ⟨within, here⟩
  | op o k ih =>
    intro y w' r _ done
    refine ih r (within.2 r) ?_
    obtain ⟨w₁, es, ran, rfl⟩ := exec_log done
    show I w₁.fs
    by_cases hfs : ∃ g, o = .fs g
    · obtain ⟨g, rfl⟩ := hfs
      simp only [execOp, execFs] at ran
      split at ran
      · obtain ⟨r', -, same⟩ := Option.map_eq_some_iff.mp ran
        cases same
        exact here
      · cases ran
        exact keeps g within.1 _ here
    · rw [((frame_execOp ran).fs fun g hg => hfs ⟨g, hg⟩).1]
      exact here

theorem delivers_survey {Q : β → World → Prop} {x : Code α} {a : α}
    (h : survey w.fs x = some a) {f : α → Code β}
    (later : ∀ w', Alike w w' → w'.fs = w.fs → Delivers exec guard i Q (f a) w') :
    Delivers exec guard i Q (x.bind f) w := by
  induction x generalizing w with
  | pure b =>
    obtain rfl := Option.some.inj h
    exact later w (.refl w) rfl
  | op o k ih =>
    cases o with
    | fs g =>
      cases g with
      | metadata p =>
        refine delivers_fs (fun w' alike hfs => ?_) fun e r w' refused _ => ?_
        · refine ih _ ?_ fun w'' h' hfs' => later w'' (alike.trans h') (hfs'.trans hfs)
          rw [hfs]
          exact h
        · cases refused
      | _ => cases h
    | _ => cases h

end Certain

theorem exists_survey {α : Type} {x : Code α} {p : Op → Prop} {q : α → Prop}
    (within : x.Within p q) (looks : ∀ o, p o → ∃ path, o = .fs (.metadata path)) (t : Tree) :
    ∃ a, survey t x = some a ∧ q a := by
  induction x with
  | pure a => exact ⟨a, rfl, within⟩
  | op o k ih =>
    obtain ⟨path, rfl⟩ := looks o within.1
    exact ih _ (within.2 _)

end DashDrop.Runtime.Solo
