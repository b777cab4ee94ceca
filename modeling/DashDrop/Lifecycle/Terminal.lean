/- GID: DashDrop/Lifecycle/Terminal
   source: src-tauri/src/transport/receiver.rs, src-tauri/src/transport/sender.rs,
     src-tauri/src/core_service.rs, src-tauri/src/state.rs
   anchors: []
   digest: Ended transfers stay ended and are counted once, if cancels come in time. -/

import DashDrop.Lifecycle.Owners

set_option autoImplicit false
set_option relaxedAutoImplicit false

namespace DashDrop.Lifecycle.Terminal

open DashDrop.Foundation.Program DashDrop.Foundation.Interleaving
open DashDrop.Foundation.UnixPath DashDrop.Foundation.FileTree
open DashDrop.Transport.Protocol DashDrop.Transport.Outcome
open DashDrop.Transport.Sender DashDrop.Transport.Receiver
open DashDrop.Runtime.State DashDrop.Runtime.Machine DashDrop.Runtime.Effects
open DashDrop.Runtime.Footprint DashDrop.Runtime.Supervisor DashDrop.CoreService
open DashDrop.Lifecycle.Overlap
open DashDrop.Lifecycle.Owners (Lawful timely_invariant)

def recorder (id : String) : Event → Option ℕ
  | .recorded j y => if y = id then some j else none
  | _ => none

def recorders (id : String) (l : List Event) : List ℕ := l.filterMap (recorder id)

/-- A cancel finds the transfer running, and a send that gives up finds it cancelled or gone. -/
def Ends (id : String) : Guard Op World Ans := fun _ o _ w =>
  match o with
  | .task (.cancel y _) => y = id → ∀ t, w.transfers.lookup id = some t →
      t.status.isTerminal = false
  | .task (.sendErrored y _ _) => y = id → ∀ t, w.transfers.lookup id = some t → Cancelled id w
  | _ => True

/-- The circumstances in which no two endings of the transfer meet. -/
def Clean (id : String) : Guard Op World Ans := fun j o x w =>
  Timely id j o x w ∧ Sole id j o x w ∧ Ends id j o x w

/-- A section that writes the status finds the transfer still running; the error path of a send
finds it ended, and an ended transfer is not registered again. -/
def Orderly (id : String) : Guard Op World Ans := fun _ o _ w =>
  match o with
  | .task (.insert t) => t.id = id → owers id w.journal = []
  | .task (.updateStatus y _ _) | .task (.cancel y _) | .task (.sendRejected y _)
  | .task (.sendTimedOut y) | .task (.sendTransferring y) | .task (.sendFinished y _ _) =>
      y = id → ∀ t, w.transfers.lookup id = some t → t.status.isTerminal = false
  | .task (.sendErrored y _ _) =>
      y = id → ∀ t, w.transfers.lookup id = some t → t.status.isTerminal = true
  | _ => True

variable {i : ℕ} {id : String} {w w' : World} {x : Ans} {o : Op} {r : o.Resp}

theorem orderly_of_proper (ends : Ends id i o x w) (proper : Proper id i o x w) :
    Orderly id i o x w := by
  cases o with
  | task u =>
    cases u with
    | insert t => exact fun same => (proper same).2
    | updateStatus | sendRejected | sendTimedOut | sendTransferring | sendFinished =>
      exact fun same => (proper same).2.2
    | cancel => exact ends
    | sendErrored => exact fun same t found => proper same (ends same t found) t found
    | _ => trivial
  | _ => trivial

def pays : Op → Option String
  | .task (.record y _) => some y
  | _ => none

theorem recorders_history (i : ℕ) (w : World) (o : Op) (r : o.Resp) :
    recorders id (history i w o r) = if pays o = some id then [i] else [] := by
  cases o with
  | task u =>
    rw [history, recorders, List.filterMap_append, filterMap_emitted i fun _ => rfl,
      List.append_nil]
    cases u with
    | updateStatus y status reason =>
      cases r with
      | none => rfl
      | some u => cases hu : u.record <;> simp [taskHistory, recorder, pays, hu]
    | record y _ => by_cases h : y = id <;> simp [taskHistory, recorder, pays, h]
    | cancel | sendRejected | sendTimedOut | sendFinished => cases r <;> rfl
    | _ => simp [taskHistory, recorder, pays]
  | note n => rfl
  | gate g => cases g <;> first | rfl | (cases r <;> rfl)
  | net n => cases n <;> first | rfl | (cases r <;> rfl)
  | env e => cases e <;> rfl
  | fs f => rfl

theorem recorders_step (done : exec i o x w = some (w', r)) :
    recorders id w'.journal =
      recorders id w.journal ++ if pays o = some id then [i] else [] := by
  rw [exec_journal done, ← recorders_history i w' o r, recorders, List.filterMap_append]
  rfl

/-- The four things a step can do: leave the status or remove the task, end a running
transfer and make its count due, move a running transfer, or register it. -/
inductive Move (id : String) (w w' : World) : Option String → Prop
  | keep {d : Option String} (free : d ≠ some id)
      (same : ∀ t', w'.transfers.lookup id = some t' →
        ∃ t, w.transfers.lookup id = some t ∧ t'.status = t.status) : Move id w w' d
  | finish {t t' : TransferTask} (before : w.transfers.lookup id = some t)
      (running : t.status.isTerminal = false) (after : w'.transfers.lookup id = some t')
      (ended : t'.status.isTerminal = true) : Move id w w' (some id)
  | advance {d : Option String} {t t' : TransferTask} (free : d ≠ some id)
      (before : w.transfers.lookup id = some t) (running : t.status.isTerminal = false)
      (after : w'.transfers.lookup id = some t') (still : t'.status.isTerminal = false) :
      Move id w w' d
  | register {d : Option String} {t' : TransferTask} (free : d ≠ some id)
      (fresh : owers id w.journal = []) (after : w'.transfers.lookup id = some t')
      (still : t'.status.isTerminal = false) : Move id w w' d

private theorem move_of_untouched {d : Option String} (free : d ≠ some id)
    (same : w'.transfers.lookup id = w.transfers.lookup id) : Move id w w' d :=
  .keep free fun t' found => ⟨t', same ▸ found, rfl⟩

private theorem move_of_update {d : Option String} {f : TransferTask → TransferTask}
    (effect : w'.transfers.lookup id = (w.transfers.lookup id).map f)
    (absent : w.transfers.lookup id = none → d ≠ some id)
    (present : ∀ t, w.transfers.lookup id = some t →
      ((f t).status = t.status ∧ d ≠ some id) ∨
      (t.status.isTerminal = false ∧ (f t).status.isTerminal = true ∧ d = some id) ∨
      (t.status.isTerminal = false ∧ (f t).status.isTerminal = false ∧ d ≠ some id)) :
    Move id w w' (d) := by
  cases found : w.transfers.lookup id with
  | none =>
    refine .keep (absent found) fun t' h => ?_
    rw [effect, found] at h
    cases h
  | some t =>
    rw [found] at effect
    obtain ⟨same, free⟩ | ⟨running, ended, due⟩ | ⟨running, still, free⟩ := present t found
    · refine .keep free fun t' h => ⟨t, found, ?_⟩
      rw [effect] at h
      cases h
      exact same
    · rw [due]
      exact .finish found running effect ended
    · exact .advance free found running effect still

private theorem ended_finished (now : ℕ) (outcome : TransferOutcome) (t : TransferTask) :
    (applyFinished now outcome t).status.isTerminal = true := by
  cases outcome <;> rfl

private theorem move_of_ending {y : String} {d : Option String}
    {f : TransferTask → TransferTask}
    (effect : w'.transfers.lookup id =
      if id = y then (w.transfers.lookup id).map f else w.transfers.lookup id)
    (due : d = (w.transfers.lookup y).map fun _ => y)
    (running : y = id → ∀ t, w.transfers.lookup id = some t → t.status.isTerminal = false)
    (ends : ∀ t, (f t).status.isTerminal = true) : Move id w w' d := by
  split_ifs at effect with h
  · subst h
    refine move_of_update effect ?_ fun t found => .inr (.inl ⟨running rfl t found, ends t, ?_⟩)
    · intro missing
      rw [due, missing]
      nofun
    · rw [due, found]
      rfl
  · refine move_of_untouched ?_ effect
    rw [due]
    intro same
    obtain ⟨t, -, same⟩ := Option.map_eq_some_iff.mp same
    exact h same.symm

theorem move_of_exec (done : exec i o x w = some (w', r)) (allowed : Orderly id i o x w)
    (pending : ∀ t, o = .task (.insert t) → t.status = .pendingAccept) :
    Move id w w' (debt o r) := by
  have effect := exec_lookup_task done id
  cases o with
  | task u =>
    have answer := exec_task_answer done
    cases u with
    | insert t =>
      simp only [onTask, taskEffect] at effect
      split_ifs at effect with h
      · refine .register (by rintro ⟨⟩) (allowed h.symm) effect ?_
        rw [pending t rfl]
        rfl
      · exact move_of_untouched (by rintro ⟨⟩) effect
    | cleanup =>
      refine .keep (by rintro ⟨⟩) fun t' h => ⟨t', ?_, rfl⟩
      rw [effect] at h
      exact (Option.filter_eq_some_iff.mp h).1
    | revision | status | snapshot | record => exact move_of_untouched (by rintro ⟨⟩) effect
    | setError y text | addBytes y n =>
      simp only [onTask, taskEffect] at effect
      split_ifs at effect with h
      · exact move_of_update effect (fun _ => by rintro ⟨⟩) fun t _ => .inl ⟨rfl, by rintro ⟨⟩⟩
      · exact move_of_untouched (by rintro ⟨⟩) effect
    | sendErrored y reasonCode detail =>
      simp only [onTask, taskEffect] at effect
      split_ifs at effect with h
      · refine move_of_update effect (fun _ => by rintro ⟨⟩) fun t found => .inl ⟨?_, by rintro ⟨⟩⟩
        simp [applyErrored, allowed h.symm t found]
      · exact move_of_untouched (by rintro ⟨⟩) effect
    | sendTransferring y =>
      simp only [onTask, taskEffect] at effect
      split_ifs at effect with h
      · refine move_of_update effect (fun _ => by rintro ⟨⟩) fun t found => .inr (.inr ?_)
        exact ⟨allowed h.symm t found, rfl, by rintro ⟨⟩⟩
      · exact move_of_untouched (by rintro ⟨⟩) effect
    | cancel y hasHost =>
      refine move_of_ending effect ?_ allowed (ended_cancel x.now)
      simp only [execTask, modifyTask_answer] at answer
      subst answer
      cases w.transfers.lookup y <;> rfl
    | sendRejected y reason =>
      refine move_of_ending effect ?_ allowed fun _ => rfl
      simp only [execTask, modifyTask_answer] at answer
      subst answer
      cases w.transfers.lookup y <;> rfl
    | sendTimedOut y =>
      refine move_of_ending effect ?_ allowed fun _ => rfl
      simp only [execTask, modifyTask_answer] at answer
      subst answer
      cases w.transfers.lookup y <;> rfl
    | sendFinished y outcome itemCount =>
      refine move_of_ending effect ?_ allowed (ended_finished x.now outcome)
      simp only [execTask, modifyTask_answer] at answer
      subst answer
      cases w.transfers.lookup y <;> rfl
    | updateStatus y status reason =>
      simp only [execTask, modifyTask_answer] at answer
      simp only [onTask, taskEffect] at effect
      split_ifs at effect with h
      · subst h
        refine move_of_update effect (fun missing => ?_) fun t found => ?_
        · rw [answer, missing]
          rintro ⟨⟩
        · have due : debt (.task (.updateStatus id status reason)) r =
              if status.isTerminal && !t.status.isTerminal then some id else none := by
            rw [answer, found]
            simp only [Option.map_some, Option.getD_some, debt, statusUpdate]
            split_ifs <;> rfl
          rw [due]
          have running := allowed rfl t found
          cases final : status.isTerminal with
          | true => exact .inr (.inl ⟨running, by simpa [applyStatus] using final, by simp [running]⟩)
          | false => exact .inr (.inr ⟨running, by simpa [applyStatus] using final, by simp⟩)
      · refine move_of_untouched ?_ effect
        rw [answer]
        cases w.transfers.lookup y with
        | none => rintro ⟨⟩
        | some t =>
          simp only [Option.map_some, Option.getD_some, debt, statusUpdate]
          split_ifs
          · simpa using Ne.symm h
          · rintro ⟨⟩
  | note | gate | net | env | fs => exact move_of_untouched (by rintro ⟨⟩) effect

/-- The count has been made due once if the transfer has ended, and not before. -/
def Counted (id : String) (w : World) : Prop :=
  (owers id w.journal).length ≤ 1 ∧ ∀ t, w.transfers.lookup id = some t →
    (owers id w.journal).length = if t.status.isTerminal then 1 else 0

/-- The transfer has ended with this status; its task may have been removed since. -/
def Settled (id : String) (status : TransferStatus) (w : World) : Prop :=
  owers id w.journal ≠ [] ∧ ∀ t, w.transfers.lookup id = some t → t.status = status

private theorem length_owers_step (id : String) (done : exec i o x w = some (w', r)) :
    (owers id w'.journal).length =
      (owers id w.journal).length + if debt o r = some id then 1 else 0 := by
  rw [owers_step done, List.length_append]
  split_ifs <;> rfl

theorem counted_step (done : exec i o x w = some (w', r)) (move : Move id w w' (debt o r))
    (counted : Counted id w) : Counted id w' := by
  have grown := length_owers_step id done
  generalize debt o r = d at move grown
  cases move with
  | keep free same =>
    rw [if_neg free] at grown
    refine ⟨grown ▸ counted.1, fun t' found => ?_⟩
    obtain ⟨t, before, status⟩ := same t' found
    rw [grown, status]
    exact counted.2 t before
  | finish before running after ended =>
    have none_yet := counted.2 _ before
    simp only [running, Bool.false_eq_true, if_false] at none_yet
    rw [none_yet, if_pos rfl] at grown
    refine ⟨grown.le, fun t found => ?_⟩
    cases after.symm.trans found
    simpa [ended] using grown
  | advance free before running after still =>
    have none_yet := counted.2 _ before
    simp only [running, Bool.false_eq_true, if_false] at none_yet
    rw [none_yet, if_neg free] at grown
    refine ⟨by omega, fun t found => ?_⟩
    cases after.symm.trans found
    simpa [still] using grown
  | register free fresh after still =>
    rw [fresh, if_neg free] at grown
    refine ⟨by simp [grown], fun t found => ?_⟩
    cases after.symm.trans found
    simpa [still] using grown

theorem settled_step {status : TransferStatus} (ended : status.isTerminal = true)
    (done : exec i o x w = some (w', r)) (move : Move id w w' (debt o r))
    (settled : Settled id status w) : Settled id status w' := by
  have running_absurd {t : TransferTask} (before : w.transfers.lookup id = some t)
      (running : t.status.isTerminal = false) : False := by
    rw [settled.2 t before, ended] at running
    cases running
  refine ⟨?_, fun t' found => ?_⟩
  · rw [owers_step done]
    exact List.append_ne_nil_of_left_ne_nil settled.1 _
  · generalize debt o r = d at move
    cases move with
    | keep free same =>
      obtain ⟨t, before, kept⟩ := same t' found
      rw [kept, settled.2 t before]
    | finish before running => exact (running_absurd before running).elim
    | advance free before running => exact (running_absurd before running).elim
    | register free fresh => exact absurd fresh settled.1

/-- What the thread owes after an operation, if the operation is in order. -/
def settle : (due : Option String) → (o : Op) → o.Resp → Option (Option String)
  | none, o, r => if pays o = none then some (debt o r) else none
  | some y, o, r =>
      if pays o = some y then some none
      else if pays o = none ∧ debt o r = none then some (some y) else none

/-- Every due count is made before the next one becomes due and before the program ends. -/
def Pays {α : Type} (due : Option String) : Code α → Prop
  | .pure _ => due = none
  | .op o k => ∀ r, ∃ due', settle due o r = some due' ∧ Pays due' (k r)

section Paying

variable {α β : Type} {due : Option String}

theorem Pays.bind {y : Code α} {f : α → Code β} (hy : Pays due y) (hf : ∀ a, Pays none (f a)) :
    Pays due (y.bind f) := by
  induction y generalizing due with
  | pure a =>
    obtain rfl : due = none := hy
    exact hf a
  | op o k ih =>
    intro r
    obtain ⟨due', settled, rest⟩ := hy r
    exact ⟨due', settled, ih r rest⟩

def neutral : Op → Prop
  | .task u => u.counts = false ∧ pays (.task u) = none
  | _ => True

theorem pays_of_neutral {y : Code α} {q : α → Prop} (within : y.Within neutral q) :
    Pays none y := by
  induction y with
  | pure a => rfl
  | op o k ih =>
    intro r
    refine ⟨none, ?_, ih r (within.2 r)⟩
    have free : pays o = none ∧ debt o r = none := by
      have here := within.1
      cases o with
      | task u =>
        refine ⟨here.2, ?_⟩
        cases u <;> first | rfl | exact absurd here.1 (by simp [TaskOp.counts])
      | note | gate | net | env | fs => exact ⟨rfl, rfl⟩
    simp [settle, free]

theorem recordIfSome_pays (id : String) (record : Option TerminalRecord) :
    Pays (record.map fun _ => id) (recordIfSome id record) := by
  cases record with
  | none => rfl
  | some rec => exact fun _ => ⟨none, by simp [settle, pays], rfl⟩

theorem Pays.op {o : Op} {k : o.Resp → Code α} (free : pays o = none) (calm : ∀ r, debt o r = none)
    (rest : ∀ r, Pays due (k r)) : Pays due (.op o k) := by
  intro r
  refine ⟨due, ?_, rest r⟩
  cases due <;> simp [settle, free, calm r]

end Paying

section Offer

variable (q : IncomingOffer)

private theorem prompt_pays {α : Type} {y : Code α} (within : y.Within (promptOps q) anything) :
    Pays none y := by
  refine pays_of_neutral (within.mono (fun o ho => ?_) fun _ h => h)
  cases o with
  | task u =>
    rcases ho with ho | ho
    · cases u <;> first | exact ho.elim | exact ⟨rfl, rfl⟩
    · exact ho.elim
  | note | gate | net | env | fs => trivial

private theorem calm_pays {α : Type} {y : Code α} (within : y.Within (calmOps q) anything) :
    Pays none y :=
  prompt_pays q (within.mono (fun _ ho => .inl ho) fun _ h => h)

private theorem files_pay {α : Type} {y : Code α} (within : y.Within fileOps anything) :
    Pays none y := by
  refine pays_of_neutral (within.mono (fun o ho => ?_) fun _ h => h)
  cases o with
  | task => exact ho.elim
  | note | gate | net | env | fs => trivial

theorem updateTransferStatus_pays (id : String) (status : TransferStatus)
    (reason : Option String) : Pays none (updateTransferStatus id status reason) := by
  intro r
  refine ⟨debt (.task (.updateStatus id status reason)) r, by simp [settle, pays], ?_⟩
  cases r with
  | none => rfl
  | some u =>
    obtain ⟨revision, notify, record⟩ := u
    have counted : Pays (record.map fun _ => id)
        ((recordIfSome id record).bind fun _ => pure (some revision)) :=
      (recordIfSome_pays id record).bind fun _ => rfl
    cases notify with
    | none => exact counted
    | some reason => exact Pays.op rfl (fun _ => rfl) fun _ => counted

theorem rejectForSpace_pays : Pays none (rejectForSpace q) := by
  refine Pays.op rfl (fun r => by cases r <;> rfl) fun r => ?_
  cases r with
  | error f => rfl
  | ok _ =>
    refine (updateTransferStatus_pays _ _ _).bind fun _ => ?_
    refine Pays.op rfl (fun _ => rfl) fun _ => ?_
    exact (calm_pays q (emitTransferTerminal_within q ..)).bind fun _ => rfl

theorem rejectOffer_pays (isTimeout : Bool) : Pays none (rejectOffer q isTimeout) := by
  refine Pays.op rfl (fun r => by cases r <;> rfl) fun r => ?_
  cases r with
  | error f => rfl
  | ok _ =>
    refine (updateTransferStatus_pays _ _ _).bind fun _ => ?_
    exact (calm_pays q (emitTransferTerminal_within q ..)).bind fun _ => rfl

theorem finishReceive_pays (outcome : TransferOutcome) : Pays none (finishReceive q outcome) := by
  cases outcome with
  | success | partialSuccess =>
    refine (updateTransferStatus_pays _ _ _).bind fun _ => ?_
    exact Pays.op rfl (fun _ => rfl) fun _ => Pays.op rfl (fun _ => rfl) fun _ => rfl
  | failed e =>
    refine (updateTransferStatus_pays _ _ _).bind fun _ => ?_
    refine (calm_pays q (emitTransferTerminal_within q ..)).bind fun _ => ?_
    exact calm_pays q (emitTransferError_within q ..)
  | cancelledBySender | cancelledByReceiver =>
    refine (updateTransferStatus_pays _ _ _).bind fun _ => ?_
    exact calm_pays q (emitTransferTerminal_within q ..)

theorem failSetup_pays (e : IoError) : Pays none (failSetup q e) := by
  refine Pays.op rfl (fun r => by cases r <;> rfl) fun _ => ?_
  refine (updateTransferStatus_pays _ _ _).bind fun _ => ?_
  refine (calm_pays q (emitTransferTerminal_within q ..)).bind fun _ => ?_
  exact calm_pays q (emitTransferError_within q ..)

theorem acceptOffer_pays (saveRoot : PathBuf) : Pays none (acceptOffer q saveRoot) := by
  refine (updateTransferStatus_pays _ _ _).bind fun _ => ?_
  refine Pays.op rfl (fun _ => rfl) fun _ => Pays.op rfl (fun _ => rfl) fun _ => ?_
  refine (files_pay (resumeOffsets_within _ saveRoot _)).bind fun _ => ?_
  refine Pays.op rfl (fun r => by cases r <;> rfl) fun r => ?_
  cases r with
  | error f => rfl
  | ok _ =>
    refine Pays.op rfl (fun _ => rfl) fun made => ?_
    cases made with
    | error e => exact (failSetup_pays q e).bind fun _ => rfl
    | ok _ =>
      refine (calm_pays q (receiveFiles_within q)).bind fun outcome => ?_
      exact (finishReceive_pays q outcome).bind fun _ => rfl

theorem handleOffer_pays : Pays none (handleOffer q) := by
  refine Pays.op rfl (fun _ => rfl) fun now => Pays.op rfl (fun _ => rfl) fun _ => ?_
  refine Pays.op rfl (fun _ => rfl) fun _ => Pays.op rfl (fun _ => rfl) fun _ => ?_
  refine Pays.op rfl (fun _ => rfl) fun disks => ?_
  simp only [ret_bind]
  split_ifs
  · refine (prompt_pays q (decideOffer_within q)).bind fun decision => ?_
    obtain ⟨userAccepted, isTimeout⟩ := decision
    cases userAccepted with
    | true => exact acceptOffer_pays q _
    | false => exact rejectOffer_pays q isTimeout
  · exact rejectForSpace_pays q

end Offer

section Send

variable (debug : DashMessage → String)

private theorem wire_pays {α : Type} {id : String} {c : ℕ} {y : Code α}
    (within : y.Within (wireOps id c) anything) : Pays none y := by
  refine pays_of_neutral (within.mono (fun o ho => ?_) fun _ h => h)
  cases o with
  | task u => cases u <;> first | exact ho.elim | exact ⟨rfl, rfl⟩
  | note | gate | net | env | fs => trivial

theorem streamAndFinish_pays (id : String) (c : ℕ) (items : List FileItem)
    (steps : List StreamStep) : Pays none (streamAndFinish id c items steps) := by
  refine Pays.op rfl (fun _ => rfl) fun _ => Pays.op rfl (fun _ => rfl) fun _ => ?_
  refine (wire_pays (streamFiles_within id c steps)).bind fun _ => ?_
  refine Pays.op rfl (fun _ => rfl) fun joined record => ?_
  refine ⟨record.map fun _ => id, by cases record <;> rfl, ?_⟩
  exact (recordIfSome_pays id record).bind fun _ => rfl

theorem awaitAnswer_pays (id : String) (c version : ℕ) (items : List FileItem)
    (steps : List StreamStep) : Pays none (awaitAnswer debug id c version items steps) := by
  refine Pays.op rfl (fun _ => rfl) fun answer => ?_
  simp only [ret_bind]
  split
  · split_ifs
    · rfl
    · exact (streamAndFinish_pays id c items steps).bind fun _ => rfl
  · intro record
    refine ⟨record.map fun _ => id, by cases record <;> rfl, ?_⟩
    exact (recordIfSome_pays id record).bind fun _ => rfl
  · rfl
  · exact Pays.op rfl (fun _ => rfl) fun _ => rfl
  · intro record
    refine ⟨record.map fun _ => id, by cases record <;> rfl, ?_⟩
    exact (recordIfSome_pays id record).bind fun _ => rfl

theorem transportSendFiles_pays (r : SendRequest) (c : ℕ) (steps : List StreamStep) :
    Pays none (transportSendFiles debug r c steps) := by
  refine Pays.op rfl (fun _ => rfl) fun built => ?_
  simp only [ret_bind]
  split
  · rfl
  · rfl
  · refine Pays.op rfl (fun _ => rfl) fun now => Pays.op rfl (fun _ => rfl) fun name => ?_
    refine Pays.op rfl (fun _ => rfl) fun _ => ?_
    refine (wire_pays (doHelloAsInitiator_within debug r.transferId c)).bind fun version => ?_
    cases version with
    | error => rfl
    | ok version =>
      refine Pays.op rfl (fun _ => rfl) fun config => ?_
      refine Pays.op rfl (fun r => by cases r <;> rfl) fun wrote => ?_
      cases wrote with
      | error => rfl
      | ok => exact Pays.op rfl (fun _ => rfl) fun _ => awaitAnswer_pays debug _ c _ _ _

private theorem dial_pays {α : Type} {y : Code α} (within : y.Within dialOps anything) :
    Pays none y := by
  refine pays_of_neutral (within.mono (fun o ho => ?_) fun _ h => h)
  cases o with
  | task u => exact ho.elim
  | note | gate | net | env | fs => trivial

theorem sendTask_pays (r : SendRequest) (c : ℕ) (steps retrySteps : List StreamStep) :
    Pays none (sendTask debug r c steps retrySteps) := by
  have ending (detail : String) : Pays none (giveUp r.transferId detail) :=
    Pays.op rfl (fun _ => rfl) fun _ => Pays.op rfl (fun _ => rfl) fun _ =>
      Pays.op rfl (fun _ => rfl) fun _ => Pays.op rfl (fun _ => rfl) fun _ => rfl
  refine (transportSendFiles_pays debug r c steps).bind fun first => ?_
  cases first with
  | ok _ => rfl
  | error detail =>
    simp only
    split_ifs
    · refine (dial_pays (reconnectToPeerByBestAddrs_within r.peerFp)).bind fun again => ?_
      cases again with
      | error _ => exact ending _
      | ok d =>
        refine (transportSendFiles_pays debug r d retrySteps).bind fun second => ?_
        cases second with
        | ok _ => rfl
        | error _ => exact ending _
    · exact ending _

theorem sendFiles_pays (r : SendRequest) (steps retrySteps : List StreamStep) :
    Pays none (sendFiles debug r steps retrySteps) := by
  refine Pays.op rfl (fun _ => rfl) fun level => ?_
  simp only [ret_bind]
  split
  · exact Pays.op rfl (fun _ => rfl) fun _ => rfl
  · refine Pays.op rfl (fun _ => rfl) fun best => ?_
    simp only [ret_bind]
    split
    · rfl
    · rfl
    · refine Pays.op rfl (fun _ => rfl) fun missing => ?_
      simp only [ret_bind]
      split
      · rfl
      · refine (dial_pays (connectFirst_within _ [])).bind fun found => ?_
        cases found with
        | error errors => rfl
        | ok c =>
          refine Pays.op rfl (fun _ => rfl) fun answer => ?_
          cases answer with
          | error cause => rfl
          | ok actualFp =>
            simp only [ret_bind]
            split_ifs
            · exact Pays.op rfl (fun _ => rfl) fun _ => Pays.op rfl (fun _ => rfl) fun _ => rfl
            · exact Pays.op rfl (fun _ => rfl) fun _ => rfl
            · rfl
            · exact (sendTask_pays debug r c steps retrySteps).bind fun _ => rfl

end Send

theorem cancelTask_pays (id : String) (hasHost : Bool) : Pays none (cancelTask id hasHost) := by
  intro found
  refine ⟨debt (.task (.cancel id hasHost)) found, rfl, ?_⟩
  match found with
  | none => rfl
  | some (record, none) => exact fun _ => ⟨none, by simp [settle, pays, debt], rfl⟩
  | some (record, some conn) =>
    refine Pays.op rfl (fun r => by cases r <;> rfl) fun _ => ?_
    refine Pays.op rfl (fun _ => rfl) fun _ => ?_
    exact fun _ => ⟨none, by simp [settle, pays, debt], rfl⟩

theorem cancelTransfer_pays (id : String) (hasHost : Bool) :
    Pays none (cancelTransfer id hasHost) := by
  have inner : Pays none (cancelTransferInner id hasHost) := by
    refine Pays.op rfl (fun r => by cases r <;> rfl) fun taken => ?_
    cases taken with
    | none => exact cancelTask_pays id hasHost
    | some chan =>
      exact Pays.op rfl (fun _ => rfl) fun _ => Pays.op rfl (fun _ => rfl) fun _ =>
        cancelTask_pays id hasHost
  refine inner.bind fun found => ?_
  cases found <;> rfl

theorem party_pays (debug : DashMessage → String) (party : Party) :
    Pays none (party.prog debug) := by
  have quiet {ops : Op → Prop} (within : (party.prog debug).Within ops anything)
      (calm : ∀ u, ops (.task u) → u.counts = false ∧ pays (.task u) = none) :
      Pays none (party.prog debug) := by
    refine pays_of_neutral (within.mono (fun o ho => ?_) fun _ h => h)
    cases o with
    | task u => exact calm u ho
    | note | gate | net | env | fs => trivial
  have within := Party.within debug party
  cases party with
  | offer q => exact handleOffer_pays q
  | send r steps retrySteps => exact sendFiles_pays debug r steps retrySteps
  | cancel id hasHost => exact cancelTransfer_pays id hasHost
  | accept | reject | maintenance | cleanup =>
    refine quiet within fun u hu => ?_
    cases u <;> first | exact hu.elim | exact ⟨rfl, rfl⟩

/-- What a thread's own counts are worth: made, plus one while it owes this transfer. -/
private def Balance (id : String) (i : ℕ) (due : Option String) (w : World) : Prop :=
  (owers id w.journal).count i =
    (recorders id w.journal).count i + if due = some id then 1 else 0

private def Solvent (id : String) (w : World) : Prop :=
  ∀ j, (recorders id w.journal).count j ≤ (owers id w.journal).count j

private def Books (id : String) (i : ℕ) (w w' : World) : Prop :=
  (Solvent id w → Solvent id w') ∧ ∀ j, j ≠ i →
    (owers id w'.journal).count j = (owers id w.journal).count j ∧
    (recorders id w'.journal).count j = (recorders id w.journal).count j

private theorem balance_stable (i : ℕ) (due : Option String) :
    Stable (Books id) i (Balance id i due) := by
  intro w w' h ⟨j, apart, books⟩
  obtain ⟨owed, made⟩ := books.2 i (Ne.symm apart)
  rw [Balance, owed, made]
  exact h

private theorem count_singleton_ite (p : Prop) [Decidable p] (i j : ℕ) :
    (if p then [i] else []).count j = if p ∧ i = j then 1 else 0 := by
  by_cases hp : p
  · by_cases h : i = j <;> simp [hp, h]
  · simp [hp]

private theorem books_step {due due' : Option String} (done : exec i o x w = some (w', r))
    (settled : settle due o r = some due') (balance : Balance id i due w) :
    Books id i w w' ∧ Balance id i due' w' := by
  have owed (j : ℕ) : (owers id w'.journal).count j = (owers id w.journal).count j +
      if debt o r = some id ∧ i = j then 1 else 0 := by
    rw [owers_step done, List.count_append, count_singleton_ite]
  have made (j : ℕ) : (recorders id w'.journal).count j = (recorders id w.journal).count j +
      if pays o = some id ∧ i = j then 1 else 0 := by
    rw [recorders_step done, List.count_append, count_singleton_ite]
  have after : Balance id i due' w' := by
    simp only [Balance, owed, made, and_true] at balance ⊢
    rw [balance]
    cases due with
    | none =>
      simp only [settle] at settled
      split_ifs at settled with free
      cases settled
      simp [free]
    | some y =>
      simp only [settle] at settled
      split_ifs at settled with paid free
      · cases settled
        have : debt o r = none := by
          cases o with
          | task u => cases u <;> first | rfl | cases paid
          | note | gate | net | env | fs => cases paid
        simp [paid, this]
      · cases settled
        simp [free]
  refine ⟨⟨fun solvent j => ?_, fun j apart => ?_⟩, after⟩
  · by_cases h : j = i
    · subst h
      rw [after]
      omega
    · have := solvent j
      simp only [owed, made, Ne.symm h, and_false, if_false]
      omega
  · simp [owed, made, Ne.symm apart]

private theorem pays_balance {α : Type} {guard : Guard Op World Ans} {y : Code α}
    {due : Option String} (h : Pays due y) :
    Triple exec guard (Books id) i (Balance id i due) y fun _ => Balance id i none := by
  induction y generalizing due with
  | pure a =>
    obtain rfl : due = none := h
    exact Triple.pure (balance_stable i none) fun _ hw => hw
  | op o k ih =>
    intro w hw w' e x w'' r _ done
    obtain ⟨due', settled, rest⟩ := h r
    obtain ⟨books, balance⟩ := books_step done settled ((balance_stable i due).many hw e)
    exact ⟨books, ih r rest w'' balance⟩

section Run

variable {debug : DashMessage → String} {parties : List Party} {w : World}
variable {s t : Pool Op Op.Resp World (Except String Unit)}

private theorem owers_inside {guard : Guard Op World Ans}
    (run : Run exec (fun i o x w => guard i o x w ∧ poolOps parties i o) s t)
    (start : ∀ j ∈ owers id s.world.journal, j < parties.length) :
    ∀ j ∈ owers id t.world.journal, j < parties.length := by
  refine run.world_invariant (fun w => ∀ j ∈ owers id w.journal, j < parties.length) start ?_
  intro i o x w w' r inside allowed done j hj
  rw [owers_step done, List.mem_append] at hj
  obtain old | new := hj
  · exact inside j old
  · obtain ⟨-, party, here, -⟩ := allowed
    split_ifs at new
    · obtain rfl := List.mem_singleton.mp new
      exact (List.getElem?_eq_some_iff.mp here).1
    · cases new

private theorem solvent_of_run {guard : Guard Op World Ans}
    (run : Run exec guard (pool debug w parties) t)
    (fresh : w.journal = []) : Solvent id t.world ∧
      ∀ i a, t.threads[i]? = some (.pure a) → Balance id i none t.world := by
  have start (i : ℕ) (y : Code (Except String Unit))
      (hy : (pool debug w parties).threads[i]? = some y) :
      Safe exec guard (Books id) i y (fun _ => Balance id i none) w := by
    obtain ⟨party, -, rfl⟩ := pool_thread hy
    exact pays_balance (party_pays debug party) w (by simp [Balance, fresh, owers, recorders])
  refine ⟨run.promised_invariant (Q := fun i _ => Balance id i none) start (Solvent id) ?_
    fun _ _ _ solvent books => books.1 solvent, fun i a returned => ?_⟩
  · simp [Solvent, pool, fresh, owers, recorders]
  · exact run.returned (Q := fun i _ => Balance id i none) start returned

/-- What is known of the steps of a clean run besides its circumstances. -/
private def known (id : String) (parties : List Party) : Guard Op World Ans := fun j o x w =>
  Ends id j o x w ∧ poolOps parties j o

private theorem lawful_of_clean
    (run : Run exec (fun j o x w => Clean id j o x w ∧ poolOps parties j o) s t)
    (sourced : Sourced id s.world) : Run exec (Lawful id (known id parties)) s t :=
  (run.assuming (Sourced id) sourced fun _ _ _ _ _ _ sourced _ done => sourced_step done sourced).mono
    fun _ _ _ _ h => ⟨h.1.1.1, h.1.1.2.1, h.2, h.1.1.2.2, h.1.2⟩

private theorem move_of_lawful {i : ℕ} {o : Op} {x : Ans} {w w' : World} {r : o.Resp}
    (lawful : Lawful id (known id parties) i o x w) (proper : Proper id i o x w)
    (done : exec i o x w = some (w', r)) : Move id w w' (debt o r) := by
  obtain ⟨ends, party, -, ops⟩ := lawful.also
  refine move_of_exec done (orderly_of_proper ends proper) ?_
  rintro t rfl
  exact (Party.inserts_pending ops).1

/-- In every clean run an ended transfer keeps its status, is counted at most once, and has been
counted exactly once when every party has returned. -/
theorem ended_for_good_counted_once (debug : DashMessage → String) (parties : List Party)
    (w : World) (id : String) (fresh : w.journal = []) (unknown : w.transfers.lookup id = none)
    {t : Pool Op Op.Resp World (Except String Unit)}
    (run : Run exec (Clean id) (pool debug w parties) t) :
    (recorders id t.world.journal).length ≤ 1 ∧
    ∀ task, t.world.transfers.lookup id = some task → task.status.isTerminal = true →
      ∀ u, Run exec (Clean id) t u →
        (∀ task', u.world.transfers.lookup id = some task' → task'.status = task.status) ∧
        ((∀ y ∈ u.threads, ∃ a, y = .pure a) → (recorders id u.world.journal).length = 1) := by
  have within := run.within (poolOps parties) (fun _ _ => True) (pool_within debug w parties)
  have bounded := run.bounded (poolOps parties) (pool_within debug w parties)
  have initially : Sourced id w := ⟨fun _ => ⟨unknown, by simp [Cancelled, fresh],
    by simp [owers, fresh]⟩, by simp [fresh]⟩
  have sourced : Sourced id t.world := run.world_invariant (Sourced id) initially
    fun _ _ _ _ _ _ sourced _ done => sourced_step done sourced
  have lawful := lawful_of_clean bounded initially
  have counted {v : Pool Op Op.Resp World (Except String Unit)}
      (toV : Run exec (Lawful id (known id parties)) (pool debug w parties) v) :
      Counted id v.world := by
    refine timely_invariant fresh (.refl _) toV (Counted id) ?_
      fun i o x w w' r counted lawful proper done =>
        counted_step done (move_of_lawful lawful proper done) counted
    simp [Counted, pool, fresh, owers, unknown]
  have at_most {v : Pool Op Op.Resp World (Except String Unit)}
      (solvent : Solvent id v.world) :
      (recorders id v.world.journal).length ≤ (owers id v.world.journal).length :=
    (List.subperm_ext_iff.mpr fun j _ => solvent j).length_le
  refine ⟨(at_most (solvent_of_run run fresh).1).trans (counted lawful).1, ?_⟩
  intro task here ended u onward
  have lawful_onward := lawful_of_clean (onward.bounded (poolOps parties) within) sourced
  have settled : Settled id task.status u.world := by
    refine timely_invariant fresh lawful lawful_onward (Settled id task.status) ⟨?_, ?_⟩
      fun i o x w w' r settled lawful proper done =>
        settled_step ended done (move_of_lawful lawful proper done) settled
    · have one := (counted lawful).2 task here
      rw [ended, if_pos rfl] at one
      exact List.ne_nil_of_length_pos (by omega)
    · intro task' found
      rw [here] at found
      cases found
      rfl
  refine ⟨settled.2, fun returned => ?_⟩
  have toU : Run exec (Clean id) (pool debug w parties) u := run.trans onward
  obtain ⟨solvent, balanced⟩ := solvent_of_run toU fresh
  have once := (counted (lawful.trans lawful_onward)).1
  have due := List.length_pos_iff.mpr settled.1
  have same : (recorders id u.world.journal).Perm (owers id u.world.journal) := by
    refine List.perm_iff_count.mpr fun j => ?_
    by_cases member : j ∈ owers id u.world.journal
    · have inside := owers_inside (toU.bounded (poolOps parties) (pool_within debug w parties))
        (by simp [pool, fresh, owers]) j member
      have running : j < u.threads.length := by
        rw [toU.length_threads]
        simpa [pool] using inside
      obtain ⟨a, ha⟩ := returned _ (List.getElem_mem running)
      have balance := balanced j a (by rw [List.getElem?_eq_getElem running, ha])
      simpa [Balance] using balance.symm
    · have := solvent j
      rw [List.count_eq_zero_of_not_mem member] at this ⊢
      omega
  rw [same.length_eq]
  omega

end Run

/-- The cancel releases the offer as rejected and then sets its own status, which the offer
overwrites. -/
theorem cancelled_becomes_rejected :
    ∃ t u, Run exec free
        (pool (fun _ => "") (sampleWorld ["bob"]) [.offer (sampleOffer "t1" 0), .cancel "t1" true])
        t ∧ Run exec free t u ∧
      ∃ task task', t.world.transfers.lookup "t1" = some task ∧ task.status.isTerminal = true ∧
        u.world.transfers.lookup "t1" = some task' ∧ task'.status ≠ task.status := by
  let first := stepsOf 0 100 promptReplies ++ stepsOf 1 110 [.unit, .unit, .unit] ++
    stepsOf 0 110 [.unit, .unit] ++ stepsOf 1 110 [.unit]
  let differs (t u : Pool Op Op.Resp World (Except String Unit)) : Bool :=
    (t.world.transfers.lookup "t1").any fun task => task.status.isTerminal &&
      (u.world.transfers.lookup "t1").any fun task' => task'.status != task.status
  obtain ⟨t, run, found⟩ := exists_run_of_play exec unchecked_sound
    (pool (fun _ => "") (sampleWorld ["bob"]) [.offer (sampleOffer "t1" 0), .cancel "t1" true]) first
    (fun t => (t.play (restrict exec unchecked) (stepsOf 0 110 [.unit])).any (differs t))
    (by decide)
  obtain ⟨u, later, changed⟩ := exists_run_of_play exec unchecked_sound t _ (differs t) found
  simp only [differs, Option.any_eq_true, Bool.and_eq_true, bne_iff_ne] at changed
  obtain ⟨task, here, ended, task', there, changed⟩ := changed
  exact ⟨t, u, run, later, task, task', here, ended, there, changed⟩

/-- The one offer is registered once; a cancel finds it running, with its prompt up and nothing
sent or heard; the offer uses the network only while every cancelled connection is closed. -/
private def cleanCheck (j : ℕ) (o : Op) (_ : Ans) (w : World) : Bool :=
  match o with
  | .task (.insert _) => w.journal.isEmpty
  | .task (.sendErrored _ _ _) => false
  | .task (.cancel _ _) =>
      ((w.transfers.lookup "t1").all fun t => t.direction == .receive && !t.status.isTerminal) &&
        decide (Event.registered 0 "t1" ∈ w.journal ∧ Event.opened 0 "t1" 0 ∈ w.journal) &&
        w.journal.all fun e => match e with
          | .observed _ _ _ | .sent _ _ true => false
          | _ => true
  | .net n => decide (Event.registered j "t1" ∉ w.journal) ||
      (w.conns.all fun conn => conn.closed) && match n with
        | .dial _ | .readWithTimeout _ => false
        | _ => true
  | .gate (.send _ v) => !v
  | _ => true

private theorem clean_of_check (j : ℕ) (o : Op) (x : Ans) (w : World)
    (h : cleanCheck j o x w = true) : Clean "t1" j o x w := by
  cases o with
  | task u =>
    cases u with
    | insert t =>
      refine ⟨trivial, fun _ k there => ?_, trivial⟩
      rw [Registrant, List.isEmpty_iff.mp h] at there
      cases there
    | sendErrored => cases h
    | cancel y hasHost =>
      simp only [cleanCheck, Bool.and_eq_true, decide_eq_true_eq] at h
      obtain ⟨⟨task, registered, opened⟩, quiet⟩ := h
      rw [List.all_eq_true] at quiet
      refine ⟨fun _ t found _ => ?_, trivial, fun _ t found => ?_⟩
      · rw [found] at task
        simp only [Option.all_some, Bool.and_eq_true, beq_iff_eq] at task
        simp only [Undecided, task.1]
        refine ⟨0, 0, registered, opened, fun a seen => ?_, fun k sent => ?_⟩
        · cases quiet _ seen
        · cases quiet _ sent
      · rw [found] at task
        simp only [Option.all_some, Bool.and_eq_true, Bool.not_eq_true'] at task
        exact task.2
    | _ => exact ⟨trivial, trivial, trivial⟩
  | net n =>
    refine ⟨fun mine => ?_, trivial, trivial⟩
    have known : decide (Event.registered j "t1" ∉ w.journal) = false :=
      decide_eq_false (not_not.mpr mine)
    simp only [cleanCheck, known, Bool.false_or, Bool.and_eq_true] at h
    refine ⟨fun k s c _ => connOpen_of_all_closed h.1 c, fun _ => ?_⟩
    cases n with
    | dial addr => cases h.2
    | readWithTimeout c => cases h.2
    | _ => trivial
  | gate g =>
    refine ⟨?_, trivial, trivial⟩
    cases g with
    | send chan v =>
      cases v with
      | true => cases h
      | false => trivial
    | _ => trivial
  | _ => exact ⟨trivial, trivial, trivial⟩

private def returned : Code (Except String Unit) → Bool
  | .pure _ => true
  | .op _ _ => false

private theorem exists_of_returned {y : Code (Except String Unit)} (h : returned y = true) :
    ∃ a, y = .pure a := by
  cases y with
  | pure a => exact ⟨a, rfl⟩
  | op o k => cases h

theorem cancelled_offer_counted_once :
    ∃ t, Run exec (Clean "t1")
        (pool (fun _ => "") (sampleWorld ["bob"]) [.offer (sampleOffer "t1" 0), .cancel "t1" true])
        t ∧
      (∃ task, t.world.transfers.lookup "t1" = some task ∧ task.status = .cancelledByReceiver) ∧
      (recorders "t1" t.world.journal).length = 1 := by
  let cancelled (t : Pool Op Op.Resp World (Except String Unit)) : Bool :=
    ((t.world.transfers.lookup "t1").any fun task => task.status == .cancelledByReceiver) &&
    t.threads.all returned
  obtain ⟨t, run, found⟩ := exists_run_of_play exec clean_of_check
    (pool (fun _ => "") (sampleWorld ["bob"]) [.offer (sampleOffer "t1" 0), .cancel "t1" true])
    (stepsOf 0 100 promptReplies ++
      stepsOf 1 110 [.unit, .unit, .unit, .unit, .unit, .unit, .unit] ++
      stepsOf 0 111 [.unit, .writeFault (.len "connection lost")]) cancelled (by decide)
  simp only [cancelled, Bool.and_eq_true, Option.any_eq_true, beq_iff_eq, List.all_eq_true] at found
  obtain ⟨⟨task, here, status⟩, all_pure⟩ := found
  have all_returned : ∀ y ∈ t.threads, ∃ a, y = .pure a := fun y hy =>
    exists_of_returned (all_pure y hy)
  have counted := ended_for_good_counted_once (fun _ => "") _ (sampleWorld ["bob"]) "t1" rfl rfl run
  exact ⟨t, run, ⟨task, here, status⟩,
    (counted.2 task here (by rw [status]; rfl) t (.refl t)).2 all_returned⟩

end DashDrop.Lifecycle.Terminal
