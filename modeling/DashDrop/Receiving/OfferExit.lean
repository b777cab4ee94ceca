/- GID: DashDrop/Receiving/OfferExit
   source: src-tauri/src/transport/receiver.rs, src-tauri/src/transport/server.rs,
     src-tauri/src/runtime/supervisor.rs
   anchors: []
   digest: How an offer leaves its task and its notification when it returns. -/

import DashDrop.Receiving.Ledger

set_option autoImplicit false
set_option relaxedAutoImplicit false

namespace DashDrop.Receiving.OfferExit

open DashDrop.Foundation.Program DashDrop.Foundation.Interleaving
open DashDrop.Foundation.Discipline DashDrop.Foundation.UnixPath DashDrop.Foundation.FileTree
open DashDrop.Transport.Protocol DashDrop.Transport.Outcome
open DashDrop.Transport.Receiver DashDrop.Transport.Sender
open DashDrop.Runtime.State DashDrop.Runtime.Machine DashDrop.Runtime.Effects
open DashDrop.Runtime.Footprint DashDrop.Runtime.Supervisor
open DashDrop.Receiving.Phases DashDrop.Receiving.Registry DashDrop.Receiving.Ledger

/-- The task, while it is known, has a terminal status and the time of its end. -/
def Ended (y : String) (w : World) : Prop :=
  ∀ t, w.transfers.lookup y = some t → t.status.isTerminal = true ∧ t.endedAtUnix.isSome = true

/-- No request of the transfer is shown to the user. -/
def Quiet (y : String) (w : World) : Prop :=
  ∀ n, w.notifications.lookup y = some n → n.active = false

def isAnswer : DashMessage → Bool
  | .accept _ | .reject _ => true
  | _ => false

def isWriteFault : Reply → Bool
  | .writeFault _ => true
  | _ => false

/-- Identifiers are fresh; an answer fails only when the transfer has already ended and its
request is gone; a last status finds the task or no request; and the maintenance loop shows
only requests that still wait. -/
def Answered (parties : List Party) : Guard Op World Ans := fun i o x w =>
  Fresh i o x w ∧
  match o with
  | .net (.write _ y m) => isAnswer m = true → isWriteFault x.reply = true → Ended y w ∧ Quiet y w
  | .task (.updateStatus y status _) =>
      status.isTerminal = true → w.transfers.lookup y = none → Quiet y w
  | .note (.ensure y) => ∀ ticks, parties[i]? = some (.maintenance ticks) →
      ∃ t, w.transfers.lookup y = some t ∧ t.status = .pendingAccept
  | _ => True

inductive Stage where
  | fresh
  | running
  /-- The last status is written, but its request not yet taken down. -/
  | ended
  | closed
  deriving DecidableEq

def afterLastStatus (status : TransferStatus) (found : Option StatusUpdate) : Stage :=
  if status.isTerminal then
    if found.any fun u => u.notify.isSome then .ended else .closed
  else .running

def afterWrite (m : DashMessage) : Except WriteFault Unit → Stage
  | .error _ => if isAnswer m then .closed else .running
  | .ok () => .running

def Stage.keeps (y : String) (s : Stage) : Op → Bool
  | .env _ => true
  | .task (.setError _ _) | .task (.addBytes _ _) | .task (.revision _) | .task (.record _ _) =>
      s == .running || s == .closed
  | .note (.ensure z) | .note (.markInactive z _) => s == .running && z == y
  | .fs _ | .gate _ => s == .running
  | _ => false

def exitNext (f : IncomingOffer) (s : Stage) : (o : Op) → o.Resp → Option Stage
  | .task (.insert t), _ => if s = .fresh ∧ t.id = f.id then some .running else none
  | .task (.updateStatus y status _), found =>
      if s = .running ∧ y = f.id then some (afterLastStatus status found) else none
  | .note (.markInactive y reason), _ =>
      if s = .ended ∧ y = f.id then some .closed
      else if s.keeps f.id (.note (.markInactive y reason)) then some s else none
  | .net (.write _ y m), wrote =>
      if s = .running ∧ y = f.id then some (afterWrite m wrote) else none
  | o, _ => if s.keeps f.id o then some s else none

section Offer

variable (f : IncomingOffer) {α : Type}

private theorem exit_keep {s : Stage} {op : Op} {k : op.Resp → Code α} {fin : Stage → α → Prop}
    (keeps : ∀ r, exitNext f s op r = some s) (rest : ∀ r, Obeys (exitNext f) s (k r) fin) :
    Obeys (exitNext f) s (.op op k) fin :=
  fun r => ⟨s, keeps r, rest r⟩

private theorem calm_keeps {op : Op} (calm : calmOps f op) (r : op.Resp) :
    exitNext f .running op r = some .running := by
  cases op with
  | task u => cases u <;> first | exact calm.elim | rfl
  | note | gate | net | fs => exact calm.elim
  | env => rfl

private theorem exit_calm {x : Code α} (within : x.Within (calmOps f) anything) :
    Obeys (exitNext f) .running x fun s _ => s = .running := by
  exact (Obeys.stay within fun op hop r => calm_keeps f hop r).mono fun _ _ h => h.1

private theorem exit_files {x : Code α} (within : x.Within fileOps anything) :
    Obeys (exitNext f) .running x fun s _ => s = .running := by
  refine (Obeys.stay within fun op hop r => ?_).mono fun _ _ h => h.1
  cases op with
  | fs g => rfl
  | _ => exact hop.elim

private theorem lastStatus_exits {status : TransferStatus} (reason : Option String)
    (terminal : status.isTerminal = true) :
    Obeys (exitNext f) .running (updateTransferStatus f.id status reason)
      fun s _ => s = .closed := by
  intro found
  refine ⟨afterLastStatus status found, if_pos ⟨rfl, rfl⟩, ?_⟩
  rw [afterLastStatus, if_pos terminal]
  have recorded (record : Option TerminalRecord) (revision : ℕ) :
      Obeys (exitNext f) .closed ((recordIfSome f.id record).bind fun _ => .pure (some revision))
        fun s _ => s = .closed := by
    cases record with
    | none => rfl
    | some record => exact fun _ => ⟨.closed, rfl, rfl⟩
  cases found with
  | none => rfl
  | some u =>
    obtain ⟨revision, notify, record⟩ := u
    cases notify with
    | none => exact recorded record revision
    | some reason => exact fun _ => ⟨.closed, if_pos ⟨rfl, rfl⟩, recorded record revision⟩

private theorem transferring_exits (reason : Option String) :
    Obeys (exitNext f) .running (updateTransferStatus f.id .transferring reason)
      fun s _ => s = .running := by
  refine fun found => ⟨.running, if_pos ⟨rfl, rfl⟩, ?_⟩
  have recorded (record : Option TerminalRecord) (revision : ℕ) :
      Obeys (exitNext f) .running
        ((recordIfSome f.id record).bind fun _ => .pure (some revision))
        fun s _ => s = .running := by
    cases record with
    | none => rfl
    | some record => exact fun _ => ⟨.running, rfl, rfl⟩
  cases found with
  | none => rfl
  | some u =>
    obtain ⟨revision, notify, record⟩ := u
    cases notify with
    | none => exact recorded record revision
    | some reason =>
      refine fun _ => ⟨.running, ?_, recorded record revision⟩
      simp [exitNext, Stage.keeps]

private theorem emitTransferTerminal_exits (status : TransferStatus) (code cause phase : String) :
    Obeys (exitNext f) .closed (emitTransferTerminal f.id status code cause phase)
      fun s _ => s = .closed :=
  exit_keep f (fun _ => rfl) fun _ => exit_keep f (fun _ => rfl) fun _ => rfl

private theorem emitTransferError_exits (code cause phase detail : String) :
    Obeys (exitNext f) .closed (emitTransferError f.id code cause phase detail)
      fun s _ => s = .closed :=
  exit_keep f (fun _ => rfl) fun _ => exit_keep f (fun _ => rfl) fun _ => rfl

private theorem finishReceive_exits (outcome : TransferOutcome) :
    Obeys (exitNext f) .running (finishReceive f outcome) fun s _ => s = .closed := by
  cases outcome with
  | success | partialSuccess =>
    refine (lastStatus_exits f _ rfl).bind ?_
    rintro _ _ rfl
    exact exit_keep f (fun _ => rfl) fun _ => exit_keep f (fun _ => rfl) fun _ => rfl
  | failed e =>
    refine (lastStatus_exits f _ rfl).bind ?_
    rintro _ _ rfl
    refine (emitTransferTerminal_exits f _ _ _ _).bind ?_
    rintro _ _ rfl
    exact emitTransferError_exits f _ _ _ _
  | cancelledBySender | cancelledByReceiver =>
    refine (lastStatus_exits f _ rfl).bind ?_
    rintro _ _ rfl
    exact emitTransferTerminal_exits f _ _ _ _

private theorem failSetup_exits (e : IoError) :
    Obeys (exitNext f) .running (failSetup f e) fun s _ => s = .closed := by
  refine fun wrote => ⟨.running, ?_, ?_⟩
  · cases wrote <;> exact if_pos ⟨rfl, rfl⟩
  · refine (lastStatus_exits f _ rfl).bind ?_
    rintro _ _ rfl
    refine (emitTransferTerminal_exits f _ _ _ _).bind ?_
    rintro _ _ rfl
    exact emitTransferError_exits f _ _ _ _

private theorem answer_exits {m : DashMessage} (answer : isAnswer m = true)
    {rest : Except WriteFault Unit → Code (Except String Unit)}
    (failed : ∀ e, rest (.error e) = .pure (.error e.display))
    (written : Obeys (exitNext f) .running (rest (.ok ())) fun s _ => s = .closed) :
    Obeys (exitNext f) .running (.op (.net (.write f.conn f.id m)) rest)
      fun s _ => s = .closed := by
  intro wrote
  refine ⟨afterWrite m wrote, if_pos ⟨rfl, rfl⟩, ?_⟩
  cases wrote with
  | error e =>
    rw [failed e, afterWrite, if_pos answer]
    rfl
  | ok => exact written

private theorem acceptOffer_exits (saveRoot : PathBuf) :
    Obeys (exitNext f) .running (acceptOffer f saveRoot) fun s _ => s = .closed := by
  refine (transferring_exits f none).bind ?_
  rintro _ revision rfl
  refine exit_keep f (fun _ => rfl) fun _ => exit_keep f (fun _ => rfl) fun config => ?_
  refine (exit_files f (resumeOffsets_within _ saveRoot _)).bind ?_
  rintro _ offsets rfl
  refine answer_exits f rfl (fun _ => rfl) ?_
  refine exit_keep f (fun _ => rfl) fun made => ?_
  cases made with
  | error e =>
    refine (failSetup_exits f e).bind ?_
    rintro _ _ rfl
    rfl
  | ok =>
    refine (exit_calm f (receiveFiles_within f)).bind ?_
    rintro _ outcome rfl
    refine (finishReceive_exits f outcome).bind ?_
    rintro _ _ rfl
    rfl

private theorem rejectOffer_exits (isTimeout : Bool) :
    Obeys (exitNext f) .running (rejectOffer f isTimeout) fun s _ => s = .closed := by
  refine answer_exits f rfl (fun _ => rfl) ?_
  refine (lastStatus_exits f _ rfl).bind ?_
  rintro _ _ rfl
  refine (emitTransferTerminal_exits f _ _ _ _).bind ?_
  rintro _ _ rfl
  rfl

private theorem rejectForSpace_exits :
    Obeys (exitNext f) .running (rejectForSpace f) fun s _ => s = .closed := by
  refine answer_exits f rfl (fun _ => rfl) ?_
  refine (lastStatus_exits f _ rfl).bind ?_
  rintro _ _ rfl
  refine exit_keep f (fun _ => rfl) fun _ => (emitTransferTerminal_exits f _ _ _ _).bind ?_
  rintro _ _ rfl
  rfl

private theorem decideOffer_exits :
    Obeys (exitNext f) .running (decideOffer f) fun s _ => s = .running := by
  refine (Obeys.stay (decideOffer_within f) fun op hop r => ?_).mono fun _ _ h => h.1
  obtain calm | prompt := hop
  · exact calm_keeps f calm r
  · cases op with
    | note n =>
      cases n with
      | ensure y => exact if_pos (by simpa [Stage.keeps] using prompt)
      | _ => exact prompt.elim
    | gate g => rfl
    | env e => rfl
    | _ => exact prompt.elim

private theorem handleOffer_exits :
    Obeys (exitNext f) .fresh (handleOffer f) fun s _ => s = .closed := by
  refine exit_keep f (fun _ => rfl) fun now _ => ⟨.running, if_pos ⟨rfl, rfl⟩, ?_⟩
  refine exit_keep f (fun _ => rfl) fun config => exit_keep f (fun _ => rfl) fun dirs => ?_
  refine exit_keep f (fun _ => rfl) fun disks => ?_
  simp only [ret_bind]
  split_ifs
  · refine (decideOffer_exits f).bind ?_
    rintro _ ⟨accepted, isTimeout⟩ rfl
    cases accepted with
    | true => exact acceptOffer_exits f _
    | false => exact rejectOffer_exits f isTimeout
  · exact rejectForSpace_exits f

end Offer

inductive Exit (f : IncomingOffer) : Stage → (o : Op) → o.Resp → Stage → Prop
  | keep {s : Stage} {o : Op} {a : o.Resp} (keeps : s.keeps f.id o = true) : Exit f s o a s
  | begin {t : TransferTask} {a : (TaskOp.insert t).Resp} (same : t.id = f.id) :
      Exit f .fresh (.task (.insert t)) a .running
  | update {status : TransferStatus} {reason : Option String} {found : Option StatusUpdate} :
      Exit f .running (.task (.updateStatus f.id status reason)) found
        (afterLastStatus status found)
  | mark {reason : Option String} {a : (NoteOp.markInactive f.id reason).Resp} :
      Exit f .ended (.note (.markInactive f.id reason)) a .closed
  | write {c : ℕ} {m : DashMessage} {wrote : Except WriteFault Unit} :
      Exit f .running (.net (.write c f.id m)) wrote (afterWrite m wrote)

variable {parties : List Party} {φ : ℕ → Phase} {ψ : ℕ → Stage} {i : ℕ} {o : Op} {x : Ans}
variable {w w' : World} {r : o.Resp} {s : Phase} {q : Stage} {y : String}

private theorem exit_of_next {f : IncomingOffer} {p : Stage} (moved : exitNext f p o r = some q) :
    Exit f p o r q := by
  have keeping (h : (if p.keeps f.id o then some p else none) = some q) : Exit f p o r q := by
    split_ifs at h with keeps
    cases h
    exact .keep keeps
  cases o with
  | task u =>
    cases u with
    | insert t =>
      simp only [exitNext] at moved
      split_ifs at moved with here
      obtain ⟨rfl, same⟩ := here
      cases moved
      exact .begin same
    | updateStatus y status reason =>
      simp only [exitNext] at moved
      split_ifs at moved with here
      obtain ⟨rfl, rfl⟩ := here
      cases moved
      exact .update
    | _ => exact keeping moved
  | note n =>
    cases n with
    | markInactive y reason =>
      simp only [exitNext] at moved
      split_ifs at moved with here keeps
      · obtain ⟨rfl, rfl⟩ := here
        cases moved
        exact .mark
      · cases moved
        exact .keep keeps
    | _ => exact keeping moved
  | net n =>
    cases n with
    | write c y m =>
      simp only [exitNext] at moved
      split_ifs at moved with here
      obtain ⟨rfl, rfl⟩ := here
      cases moved
      exact .write
    | _ => exact keeping moved
  | _ => exact keeping moved

private def Revives (y : String) : Op → Prop
  | .task (.insert t) => t.id = y
  | .task (.sendTransferring z) => z = y
  | .task (.updateStatus z status _) => z = y ∧ status.isTerminal = false
  | _ => False

private theorem ended_step (done : exec i o x w = some (w', r)) (calm : ¬ Revives y o)
    (h : Ended y w) : Ended y w' := by
  intro t' found
  rw [exec_lookup_task done] at found
  cases o with
  | task u =>
    cases was : w.transfers.lookup y with
    | none =>
      rw [was] at found
      cases u with
      | insert t =>
        simp only [onTask, taskEffect] at found
        split_ifs at found with same
        exact absurd same.symm calm
      | _ => simp [onTask, taskEffect] at found
    | some t =>
      rw [was] at found
      have before := h t was
      cases u with
      | insert t₀ =>
        simp only [onTask, taskEffect] at found
        split_ifs at found with same
        · exact absurd same.symm calm
        · cases found
          exact before
      | updateStatus z status reason =>
        simp only [onTask, taskEffect] at found
        split_ifs at found with same <;> cases found
        · have last : status.isTerminal = true := by
            simpa [Revives, same] using calm
          simp [applyStatus, last]
        · exact before
      | sendTransferring z =>
        simp only [onTask, taskEffect] at found
        split_ifs at found with same
        · exact absurd same.symm calm
        · cases found
          exact before
      | sendErrored z reasonCode detail =>
        simp only [onTask, taskEffect] at found
        split_ifs at found <;> cases found
        · simpa [applyErrored, before.1] using before
        · exact before
      | cancel z hasHost =>
        simp only [onTask, taskEffect] at found
        split_ifs at found <;> cases found
        · cases direction : t.direction <;>
            simp [applyCancel, cancelStatus, direction, TransferStatus.isTerminal]
        · exact before
      | sendFinished z outcome itemCount =>
        simp only [onTask, taskEffect] at found
        split_ifs at found <;> cases found
        · cases outcome <;>
            simp [applyFinished, overwrite, outcomeStatus, TransferStatus.isTerminal]
        · exact before
      | setError | addBytes | sendRejected | sendTimedOut =>
        simp only [onTask, taskEffect] at found
        split_ifs at found <;> cases found <;> first
          | exact before
          | simp [applyRejected, applyTimedOut, overwrite, TransferStatus.isTerminal]
      | cleanup =>
        simp only [onTask, taskEffect, Option.filter_eq_some_iff, Option.some.injEq] at found
        rwa [← found.1]
      | revision | status | snapshot | record =>
        cases found
        exact before
  | _ => exact h t' found

private theorem quiet_step (done : exec i o x w = some (w', r)) (calm : o ≠ .note (.ensure y))
    (h : Quiet y w) : Quiet y w' := by
  intro n' found
  rw [exec_lookup_note done] at found
  cases o with
  | note u =>
    cases u with
    | ensure z =>
      simp only [onNote, noteEffect] at found
      split_ifs at found with same
      · exact absurd (by rw [same]) calm
      · exact h n' found
    | markInactive z reason =>
      simp only [onNote, noteEffect] at found
      split_ifs at found
      · obtain ⟨n, -, rfl⟩ := Option.map_eq_some_iff.mp found
        rfl
      · exact h n' found
    | read z => exact h n' found
  | _ => exact h n' found

private theorem quiet_marked {reason : Option String} {a : (NoteOp.markInactive y reason).Resp}
    (done : exec i (.note (.markInactive y reason)) x w = some (w', a)) : Quiet y w' := by
  intro n' found
  rw [exec_lookup_note done, onNote, noteEffect, if_pos rfl] at found
  obtain ⟨n, -, rfl⟩ := Option.map_eq_some_iff.mp found
  rfl

private structure Exits (parties : List Party) (ψ : ℕ → Stage) (w : World) : Prop where
  begun : ∀ {j f}, parties[j]? = some (.offer f) → ψ j ≠ .fresh →
    Event.registered j f.id ∈ w.journal
  ended : ∀ {j f}, parties[j]? = some (.offer f) → ψ j = .ended ∨ ψ j = .closed → Ended f.id w
  quiet : ∀ {j f}, parties[j]? = some (.offer f) → ψ j = .closed → Quiet f.id w

private theorem ensure_inv {m : Uuid} (moved : moves parties i (φ i) (.note (.ensure y)) m = some s) :
    (∃ f, parties[i]? = some (.offer f) ∧ f.id = y ∧ φ i ≠ .idle) ∨
      ∃ ticks, parties[i]? = some (.maintenance ticks) := by
  obtain ⟨party, here, moved⟩ := Option.bind_eq_some_iff.mp moved
  cases party with
  | offer f =>
    obtain ⟨rfl, after⟩ := onlyIf_eq_some.mp moved
    refine .inl ⟨f, here, rfl, fun idle => ?_⟩
    rw [idle] at after
    cases after
  | maintenance ticks => exact .inr ⟨ticks, here⟩
  | _ => cases moved

private theorem not_revived (known : Registered parties φ w) (apart : Apart parties)
    (allowed : Fresh i o x w) (moved : moves parties i (φ i) o r = some s) {j : ℕ}
    {f : IncomingOffer} (offer : parties[j]? = some (.offer f)) (other : j ≠ i)
    (registered : Event.registered j f.id ∈ w.journal) : ¬ Revives f.id o := by
  intro revives
  cases o with
  | task u =>
    cases u with
    | insert t =>
      have same : t.id = f.id := revives
      exact other (allowed j (same ▸ registered))
    | sendTransferring z =>
      obtain rfl : z = f.id := revives
      obtain ⟨g, steps, retrySteps, sends, same⟩ := sendSection_inv moved rfl
      exact apart g steps retrySteps f (List.mem_of_getElem? sends) (List.mem_of_getElem? offer) same
    | updateStatus z status reason =>
      obtain ⟨same, -⟩ := revives
      have change := change_of_moves moved
      generalize before : φ i = q at change
      cases change with
      | stay calm => cases calm
      | update offer' after =>
        have active : φ i ≠ .idle := by
          rw [before]
          rintro rfl
          cases after
        exact other (known.unique registered (same ▸ known.listed offer' active))
    | _ => exact revives
  | _ => exact revives

private theorem not_shown (known : Registered parties φ w)
    (allowed : Answered parties i o x w) (moved : moves parties i (φ i) o r = some s) {j : ℕ}
    {f : IncomingOffer} (other : j ≠ i) (registered : Event.registered j f.id ∈ w.journal)
    (ended : Ended f.id w) : o ≠ .note (.ensure f.id) := by
  rintro rfl
  obtain ⟨g, offer, same, active⟩ | ⟨ticks, loop⟩ := ensure_inv moved
  · exact other (known.unique registered (same ▸ known.listed offer active))
  · obtain ⟨t, found, pending⟩ := allowed.2 ticks loop
    have terminal := (ended t found).1
    rw [pending] at terminal
    cases terminal

private theorem ended_last {status : TransferStatus} {reason : Option String}
    {found : Option StatusUpdate} (terminal : status.isTerminal = true)
    (done : exec i (.task (.updateStatus y status reason)) x w = some (w', found)) :
    Ended y w' := by
  intro t' after
  rw [exec_lookup_task done, onTask, taskEffect, if_pos rfl] at after
  obtain ⟨t, -, rfl⟩ := Option.map_eq_some_iff.mp after
  simp [applyStatus, terminal]

private theorem absent_of_unmarked {status : TransferStatus} {reason : Option String}
    {found : Option StatusUpdate} (terminal : status.isTerminal = true)
    (done : exec i (.task (.updateStatus y status reason)) x w = some (w', found))
    (unmarked : found.any (fun u => u.notify.isSome) = false) :
    w.transfers.lookup y = none := by
  rw [exec_task_answer done] at unmarked
  simp only [execTask, modifyTask_answer] at unmarked
  cases was : w.transfers.lookup y with
  | none => rfl
  | some t => simp [was, statusUpdate, terminal] at unmarked

private theorem fault_of_error {c : ℕ} {m : DashMessage} {e : WriteFault}
    (done : exec i (.net (.write c y m)) x w = some (w', .error e)) :
    isWriteFault x.reply = true := by
  obtain ⟨w₁, ran, -⟩ := exec_inv done
  simp only [execOp, execNet] at ran
  split at ran
  · split_ifs at ran
    cases ran
  · rename_i f fault
    rw [fault]
    rfl
  · cases ran

private theorem own_begun (exits : Exits parties ψ w) (done : exec i o x w = some (w', r))
    {f : IncomingOffer} (offer : parties[i]? = some (.offer f)) (exit : Exit f (ψ i) o r q)
    (started : q ≠ .fresh) : Event.registered i f.id ∈ w'.journal := by
  have earlier (h : ψ i ≠ .fresh) := mem_journal_mono done (exits.begun offer h)
  generalize ψ i = p at exit earlier
  cases exit with
  | keep => exact earlier started
  | begin same =>
    refine (mem_journal_iff done).mpr (.inr ?_)
    simp [history, taskHistory, same]
  | update | mark | write => exact earlier (by simp)

private theorem own_ended (exits : Exits parties ψ w) (allowed : Answered parties i o x w)
    (done : exec i o x w = some (w', r)) {f : IncomingOffer}
    (offer : parties[i]? = some (.offer f)) (exit : Exit f (ψ i) o r q)
    (finished : q = .ended ∨ q = .closed) : Ended f.id w' := by
  have earlier (h : ψ i = .ended ∨ ψ i = .closed) : Ended f.id w := exits.ended offer h
  generalize ψ i = p at exit earlier
  cases exit with
  | keep keeps =>
    refine ended_step done (fun revives => ?_) (earlier finished)
    cases o with
    | task u =>
      cases u with
      | insert | updateStatus | sendTransferring => cases keeps
      | _ => exact revives
    | _ => exact revives
  | begin => obtain wrong | wrong := finished <;> cases wrong
  | @update status reason found =>
    cases terminal : status.isTerminal with
    | true => exact ended_last terminal done
    | false => obtain wrong | wrong := finished <;> simp [afterLastStatus, terminal] at wrong
  | mark => exact ended_step done id (earlier (.inl rfl))
  | @write c m wrote =>
    cases wrote with
    | ok => obtain wrong | wrong := finished <;> cases wrong
    | error e =>
      cases answer : isAnswer m with
      | true => exact ended_step done id (allowed.2 answer (fault_of_error done)).1
      | false => obtain wrong | wrong := finished <;> simp [afterWrite, answer] at wrong

private theorem own_quiet (exits : Exits parties ψ w) (allowed : Answered parties i o x w)
    (done : exec i o x w = some (w', r)) {f : IncomingOffer}
    (offer : parties[i]? = some (.offer f)) (exit : Exit f (ψ i) o r q) (finished : q = .closed) :
    Quiet f.id w' := by
  have earlier (h : ψ i = .closed) : Quiet f.id w := exits.quiet offer h
  generalize ψ i = p at exit earlier
  cases exit with
  | keep keeps =>
    refine quiet_step done ?_ (earlier finished)
    rintro rfl
    rw [finished] at keeps
    cases keeps
  | begin => cases finished
  | @update status reason found =>
    simp only [afterLastStatus] at finished
    split_ifs at finished with terminal unmarked
    have absent := absent_of_unmarked terminal done (by simpa using unmarked)
    exact quiet_step done (by simp) (allowed.2 terminal absent)
  | mark => exact quiet_marked done
  | @write c m wrote =>
    cases wrote with
    | ok => cases finished
    | error e =>
      cases answer : isAnswer m with
      | true => exact quiet_step done (by simp) (allowed.2 answer (fault_of_error done)).2
      | false => simp [afterWrite, answer] at finished

/-- The automaton of each thread of a pool; only offers have stages. -/
def stageMoves (parties : List Party) (i : ℕ) : Automaton Op Op.Resp Stage := fun s o r =>
  match parties[i]? with
  | some (.offer f) => exitNext f s o r
  | _ => some s

private theorem exits_step (exits : Exits parties ψ w) (known : Registered parties φ w)
    (apart : Apart parties) (allowed : Answered parties i o x w)
    (done : exec i o x w = some (w', r)) (moved : moves parties i (φ i) o r = some s)
    (staged : stageMoves parties i (ψ i) o r = some q) :
    Exits parties (Function.update ψ i q) w' := by
  have own {f : IncomingOffer} (offer : parties[i]? = some (.offer f)) : Exit f (ψ i) o r q := by
    simp only [stageMoves, offer] at staged
    exact exit_of_next staged
  have kept {j : ℕ} {f : IncomingOffer} (offer : parties[j]? = some (.offer f)) (other : j ≠ i)
      (finished : ψ j = .ended ∨ ψ j = .closed) : Event.registered j f.id ∈ w.journal :=
    exits.begun offer (by obtain finished | finished := finished <;> simp [finished])
  constructor
  · intro j f offer started
    by_cases hj : j = i
    · subst hj
      rw [Function.update_self] at started
      exact own_begun exits done offer (own offer) started
    · rw [Function.update_of_ne hj] at started
      exact mem_journal_mono done (exits.begun offer started)
  · intro j f offer finished
    by_cases hj : j = i
    · subst hj
      rw [Function.update_self] at finished
      exact own_ended exits allowed done offer (own offer) finished
    · rw [Function.update_of_ne hj] at finished
      exact ended_step done (not_revived known apart allowed.1 moved offer hj (kept offer hj finished))
        (exits.ended offer finished)
  · intro j f offer finished
    by_cases hj : j = i
    · subst hj
      rw [Function.update_self] at finished
      exact own_quiet exits allowed done offer (own offer) finished
    · rw [Function.update_of_ne hj] at finished
      refine quiet_step done ?_ (exits.quiet offer finished)
      exact not_shown known allowed moved hj (kept offer hj (.inr finished))
        (exits.ended offer (.inr finished))

section Run

variable {debug : DashMessage → String} {t : Pool Op Op.Resp World (Except String Unit)}

private def bothMoves (parties : List Party) (i : ℕ) : Automaton Op Op.Resp (Phase × Stage) :=
  pair (moves parties i) (stageMoves parties i)

private def closes (parties : List Party) (i : ℕ) (p : Phase × Stage) (_ : Except String Unit) :
    Prop :=
  ∀ f, parties[i]? = some (.offer f) → p.2 = .closed

private theorem pool_staged (debug : DashMessage → String) (w : World) (parties : List Party) :
    Tracked (bothMoves parties) (closes parties) (fun _ => (.idle, .fresh))
      (pool debug w parties).threads := by
  intro i x here
  have staged : Obeys (stageMoves parties i) .fresh x
      fun q _ => ∀ f, parties[i]? = some (.offer f) → q = .closed := by
    obtain ⟨party, found, rfl⟩ := pool_thread here
    cases party with
    | offer f =>
      have same : stageMoves parties i = exitNext f := by
        funext s o r
        simp [stageMoves, found]
      rw [same]
      exact (handleOffer_exits f).mono fun _ _ closed _ _ => closed
    | _ =>
      refine (Obeys.stay (within_trivial _) fun o _ r => ?_).mono fun _ _ _ f offer => ?_
      · simp [stageMoves, found]
      · cases found.symm.trans offer
  exact ((pool_tracked debug w parties i x here).pair staged).mono fun _ _ h => h.2

private structure Joint (parties : List Party) (Φ : ℕ → Phase × Stage) (w : World) : Prop where
  known : Registered parties (Prod.fst ∘ Φ) w
  exits : Exits parties (Prod.snd ∘ Φ) w
  present : (∀ ticks, Party.cleanup ticks ∉ parties) → ∀ {j y}, Event.registered j y ∈ w.journal →
    ∃ t, w.transfers.lookup y = some t

private theorem tracked_joint (start : AtStart w) (apart : Apart parties)
    (run : Run exec (Answered parties) (pool debug w parties) t) :
    ∃ Φ, Tracked (bothMoves parties) (closes parties) Φ t.threads ∧ Joint parties Φ t.world := by
  refine Run.tracked run (Joint parties) (pool_staged debug w parties) ?_ ?_
  · constructor
    · constructor <;> simp [pool, start.journal]
    · constructor <;> simp
    · simp [pool, start.journal]
  · rintro Φ i o x w w' r ⟨s, q⟩ ⟨known, exits, present⟩ allowed done moved
    obtain ⟨moved, staged⟩ := pair_eq_some.mp moved
    refine ⟨?_, ?_, fun noCleanup j y registered => ?_⟩
    · rw [Function.comp_update]
      exact registry_step known allowed.1 done (change_of_moves moved)
    · rw [Function.comp_update]
      exact exits_step exits known apart allowed done moved staged
    · obtain old | ⟨rfl, t, rfl, rfl⟩ := origin_of_new done registered
      · refine present_step done ?_ (present noCleanup old)
        rintro rfl
        obtain ⟨ticks, member⟩ := cleanup_inv moved
        exact noCleanup ticks member
      · exact ⟨t, by rw [exec_lookup_task done]; exact if_pos rfl⟩

/-- In every run that meets the condition, an offer that has returned leaves a task that has
ended, or that the cleanup loop has removed since, and no request before the user. -/
theorem offer_ends_cleanly (debug : DashMessage → String) (parties : List Party) (w : World)
    (start : AtStart w) (apart : Apart parties)
    {t : Pool Op Op.Resp World (Except String Unit)}
    (run : Run exec (Answered parties) (pool debug w parties) t) {j : ℕ} {f : IncomingOffer}
    (offer : parties[j]? = some (.offer f)) {a : Except String Unit}
    (returned : t.threads[j]? = some (.pure a)) :
    ((∃ task, t.world.transfers.lookup f.id = some task) ∨
        ∃ ticks, Party.cleanup ticks ∈ parties) ∧
      Ended f.id t.world ∧ Quiet f.id t.world := by
  obtain ⟨Φ, tracked, joint⟩ := tracked_joint start apart run
  have closed : (Φ j).2 = .closed := tracked j _ returned f offer
  refine ⟨?_, joint.exits.ended offer (.inr closed), joint.exits.quiet offer closed⟩
  by_cases cleaned : ∃ ticks, Party.cleanup ticks ∈ parties
  · exact .inr cleaned
  · refine .inl (joint.present (not_exists.mp cleaned) (joint.exits.begun offer ?_))
    simp [closed]

end Run

/-- The `Accept` cannot be written: the offer returns an error and leaves its task in
`Transferring`, without an end. -/
theorem lost_accept_leaves_transferring :
    ∃ t task, Run exec free
        (pool (fun _ => "") (sampleWorld ["bob"]) [.offer (sampleOffer "t1" 0), .accept "t1" 0])
        t ∧
      t.threads[0]? = some (.pure (.error "write len: connection lost")) ∧
      t.world.transfers.lookup "t1" = some task ∧ task.status = .transferring ∧
      task.endedAtUnix = none := by
  obtain ⟨t, run, found⟩ := exists_run_of_play exec unchecked_sound
    (pool (fun _ => "") (sampleWorld ["bob"]) [.offer (sampleOffer "t1" 0), .accept "t1" 0])
    (stepsOf 0 100 promptReplies ++ stepsOf 1 110 [.unit, .unit, .unit, .unit, .unit] ++
      stepsOf 0 111 [.unit, .unit, .unit, .unit, .unit, .unit,
        .writeFault (.len "connection lost")])
    (fun t => t.result 0 == some (.error "write len: connection lost") &&
      (t.world.transfers.lookup "t1").any fun task =>
        task.status == .transferring && task.endedAtUnix == none) (by decide)
  simp only [Bool.and_eq_true, beq_iff_eq] at found
  obtain ⟨task, known, left⟩ := (Option.any_eq_true _ _).mp found.2
  simp only [Bool.and_eq_true, beq_iff_eq] at left
  exact ⟨t, task, run, Pool.thread_of_result found.1, known, left.1, left.2⟩

/-- The answers are written, a status is updated where there is a task, and the offer alone shows a
notification. -/
private def answeredCheck (i : ℕ) (o : Op) (x : Ans) (w : World) : Bool :=
  freshCheck i o w && match o with
    | .net _ => !isWriteFault x.reply
    | .task (.updateStatus y _ _) => (w.transfers.lookup y).isSome
    | .note (.ensure _) => i == 0
    | _ => true

private theorem answered_of_check (i : ℕ) (o : Op) (x : Ans) (w : World)
    (h : answeredCheck i o x w = true) :
    Answered [.offer (sampleOffer "t1" 0), .reject "t1" 0] i o x w := by
  obtain ⟨fresh, fine⟩ := Bool.and_eq_true_iff.mp h
  refine ⟨fresh_of_freshCheck fresh, ?_⟩
  cases o with
  | net n =>
    cases n with
    | write c y m =>
      intro _ fault
      simp [fault] at fine
    | _ => trivial
  | task u =>
    cases u with
    | updateStatus y status reason =>
      intro _ absent
      simp [absent] at fine
    | _ => trivial
  | note u =>
    cases u with
    | ensure y =>
      obtain rfl : i = 0 := by simpa using fine
      simp
    | _ => trivial
  | _ => trivial

theorem rejected_offer_ends_cleanly :
    ∃ t a, Run exec (Answered [.offer (sampleOffer "t1" 0), .reject "t1" 0])
        (pool (fun _ => "") (sampleWorld ["bob"]) [.offer (sampleOffer "t1" 0), .reject "t1" 0])
        t ∧
      t.threads[0]? = some (.pure a) ∧ Ended "t1" t.world ∧ Quiet "t1" t.world := by
  obtain ⟨t, run, found⟩ := exists_run_of_play exec answered_of_check
    (pool (fun _ => "") (sampleWorld ["bob"]) [.offer (sampleOffer "t1" 0), .reject "t1" 0])
    (stepsOf 0 100 promptReplies ++ stepsOf 1 110 [.unit, .unit, .unit, .unit, .unit] ++
      stepsOf 0 111 [.unit, .unit, .unit, .unit, .unit, .unit, .unit])
    (fun t => (t.result 0).isSome) (by decide)
  obtain ⟨a, returned⟩ := Option.isSome_iff_exists.mp found
  have returned := Pool.thread_of_result returned
  have clean := offer_ends_cleanly (fun _ => "") _ (sampleWorld ["bob"])
    ⟨rfl, rfl, rfl, rfl, rfl⟩ (by simp [Apart]) run (f := sampleOffer "t1" 0) rfl returned
  exact ⟨t, a, run, returned, clean.2⟩

end DashDrop.Receiving.OfferExit
