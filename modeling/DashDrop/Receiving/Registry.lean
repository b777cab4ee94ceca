/- GID: DashDrop/Receiving/Registry
   source: src-tauri/src/transport/receiver.rs, src-tauri/src/core_service.rs,
     src-tauri/src/runtime/supervisor.rs
   anchors: []
   digest: Who registers transfers, and who may touch senders in which phase. -/

import DashDrop.Receiving.Phases
import DashDrop.Runtime.Effects

set_option autoImplicit false
set_option relaxedAutoImplicit false

namespace DashDrop.Receiving.Registry

open DashDrop.Foundation.Program DashDrop.Foundation.Interleaving
open DashDrop.Foundation.Discipline DashDrop.Foundation.Oneshot
open DashDrop.Transport.Protocol DashDrop.Transport.Receiver DashDrop.Transport.Sender
open DashDrop.Runtime.State DashDrop.Runtime.Machine DashDrop.Runtime.Effects
open DashDrop.Runtime.Footprint DashDrop.Runtime.Supervisor DashDrop.Receiving.Phases

/-- No task is registered under an identifier that another thread has registered. -/
def Fresh : Guard Op World Ans := fun i o _ w =>
  match o with
  | .task (.insert t) => ∀ k, Event.registered k t.id ∈ w.journal → k = i
  | _ => True

/-- `Fresh` as a test of one step. -/
def freshCheck (i : ℕ) (o : Op) (w : World) : Bool :=
  match o with
  | .task (.insert t) => w.journal.all fun e => match e with
      | .registered k y => y != t.id || k == i
      | _ => true
  | _ => true

variable {parties : List Party} {φ : ℕ → Phase} {i : ℕ} {o : Op} {x : Ans} {w w' : World}
variable {r : o.Resp} {s : Phase}

theorem fresh_of_freshCheck (h : freshCheck i o w = true) : Fresh i o x w := by
  cases o with
  | task u =>
    cases u with
    | insert t =>
      intro k owned
      have here := List.all_eq_true.mp h _ owned
      simpa using here
    | _ => trivial
  | _ => trivial

def IsOffer (parties : List Party) (j : ℕ) (y : String) : Prop :=
  ∃ q, parties[j]? = some (.offer q) ∧ q.id = y

def acts : Party → Option (String × Bool)
  | .accept id _ => some (id, true)
  | .reject id _ => some (id, false)
  | .cancel id _ => some (id, false)
  | _ => none

def Acts (parties : List Party) (k : ℕ) (y : String) (v : Bool) : Prop :=
  ∃ party, parties[k]? = some party ∧ acts party = some (y, v)

/-- The thread accepts or rejects, by this notification. -/
def Decides (parties : List Party) (k : ℕ) (y : String) (n : Uuid) : Prop :=
  parties[k]? = some (.accept y n) ∨ parties[k]? = some (.reject y n)

theorem Decides.unique {k : ℕ} {y y' : String} {n n' : Uuid} (h : Decides parties k y n)
    (h' : Decides parties k y' n') : y = y' ∧ n = n' := by
  obtain h | h := h <;> obtain h' | h' := h' <;> cases h.symm.trans h' <;> exact ⟨rfl, rfl⟩

theorem Acts.unique {k : ℕ} {y y' : String} {v v' : Bool} (h : Acts parties k y v)
    (h' : Acts parties k y' v') : y = y' ∧ v = v' := by
  obtain ⟨party, here, plays⟩ := h
  obtain ⟨party', here', plays'⟩ := h'
  cases here.symm.trans here'
  cases plays.symm.trans plays'
  exact ⟨rfl, rfl⟩

theorem Decides.acts {k : ℕ} {y : String} {n : Uuid} (h : Decides parties k y n) :
    ∃ v, Acts parties k y v := by
  obtain h | h := h
  · exact ⟨true, _, h, rfl⟩
  · exact ⟨false, _, h, rfl⟩

def steady : Op → Bool
  | .task (.insert _) | .task (.updateStatus _ _ _) | .task (.status _) | .task .snapshot => false
  | .note _ | .gate _ | .env (.emit _) => false
  | _ => true

/-- Who may take a notification down: an offer after its status, an action on a request that
is over or whose sender it holds, and the loop. -/
def MayMark (parties : List Party) (i : ℕ) (q : Phase) (y : String) : Prop :=
  (IsOffer parties i y ∧ q.isMoving = true) ∨ (∃ n, Decides parties i y n ∧ q = .expired) ∨
  (∃ v, Acts parties i y v ∧ q.isHolding = true) ∨ ∃ inactive, q = .marking inactive ∧ y ∈ inactive

inductive Change (parties : List Party) (i : ℕ) : Phase → (o : Op) → o.Resp → Phase → Prop
  | stay {q : Phase} {o : Op} {a : o.Resp} (calm : steady o = true) : Change parties i q o a q
  | list {f : IncomingOffer} {t : TransferTask} {a : (TaskOp.insert t).Resp}
      (offer : parties[i]? = some (.offer f)) (same : t.id = f.id)
      (pending : t.status = .pendingAccept ∧ t.endedAtUnix = none) :
      Change parties i .idle (.task (.insert t)) a .listed
  | enlist {f : SendRequest} {steps retrySteps : List StreamStep} {t : TransferTask} {q : Phase}
      {a : (TaskOp.insert t).Resp} (sends : parties[i]? = some (.send f steps retrySteps))
      (same : t.id = f.transferId) : Change parties i q (.task (.insert t)) a q
  | note {f : IncomingOffer} {m : Uuid} (offer : parties[i]? = some (.offer f)) :
      Change parties i .listed (.note (.ensure f.id)) m (.noted m)
  | again {f : IncomingOffer} {m m' : Uuid} (offer : parties[i]? = some (.offer f)) :
      Change parties i (.prompted m) (.note (.ensure f.id)) m' (.prompted m)
  | ensure {pending inactive : List String} {y : String} {m : Uuid} (member : y ∈ pending) :
      Change parties i (.sweeping pending inactive) (.note (.ensure y)) m
        (.sweeping pending inactive)
  | mark {y : String} {reason : Option String} {q : Phase} {a : (NoteOp.markInactive y reason).Resp}
      (may : MayMark parties i q y) : Change parties i q (.note (.markInactive y reason)) a q
  | show {f : IncomingOffer} {m : Uuid} {e : HostEvent} {a : (EnvOp.emit e).Resp}
      (offer : parties[i]? = some (.offer f)) (tells : announces f.id m e = true) :
      Change parties i (.noted m) (.env (.emit e)) a (.prompted m)
  | emit {q : Phase} {e : HostEvent} {a : (EnvOp.emit e).Resp} (quiet : isIncoming e = false) :
      Change parties i q (.env (.emit e)) a q
  | register {f : IncomingOffer} {m : Uuid} {c : ℕ} (offer : parties[i]? = some (.offer f)) :
      Change parties i (.prompted m) (.gate (.register f.id)) c (.waiting c)
  | wait {f : IncomingOffer} {c : ℕ} {a : Wait Bool} (offer : parties[i]? = some (.offer f)) :
      Change parties i (.waiting c) (.gate (.wait c)) a (.settled (a == .value true))
  | update {f : IncomingOffer} {status : TransferStatus} {reason : Option String} {q s : Phase}
      {found : Option StatusUpdate} (offer : parties[i]? = some (.offer f))
      (after : q.afterUpdate status found.isSome = some s) :
      Change parties i q (.task (.updateStatus f.id status reason)) found s
  | read {y : String} {n : Uuid} {entry : Option IncomingRequestNotification}
      (role : Decides parties i y n) :
      Change parties i .idle (.note (.read y)) entry (afterRead n entry)
  | status {y : String} {n : Uuid} {found : Option TransferStatus} {q : Phase}
      (role : Decides parties i y n) (free : q.undecided = true) :
      Change parties i q (.task (.status y)) found (afterStatus q found)
  | contains {y : String} {n : Uuid} {q : Phase} {found : Bool} (role : Decides parties i y n)
      (free : q.undecided = true) :
      Change parties i q (.gate (.contains y)) found (if found then .cleared else q)
  | discard {y : String} {n : Uuid} {a : (GateOp.discard y).Resp} (role : Decides parties i y n) :
      Change parties i .expired (.gate (.discard y)) a .expired
  | take {y : String} {v : Bool} {taken : Option ℕ} {q : Phase} (role : Acts parties i y v)
      (free : q = .idle ∨ q = .cleared) (sure : ∀ n, Decides parties i y n → q = .cleared) :
      Change parties i q (.gate (.take y)) taken ((taken.map Phase.holding).getD .idle)
  | send {y : String} {v : Bool} {c : ℕ} {a : (GateOp.send c v).Resp}
      (role : Acts parties i y v) :
      Change parties i (.holding c) (.gate (.send c v)) a (.released c)
  | survey {ticks : ℕ} {q : Phase} {states : TaskOp.snapshot.Resp}
      (loop : parties[i]? = some (.maintenance ticks)) (resting : q.isResting = true) :
      Change parties i q (.task .snapshot) states
        (.sweeping (pendingOf states) ((inactiveOf states).map Prod.fst))
  | retain {ids inactive : List String} {a : (GateOp.retain ids).Resp} :
      Change parties i (.sweeping ids inactive) (.gate (.retain ids)) a (.marking inactive)

private theorem change_offer {f : IncomingOffer} {q : Phase}
    (offer : parties[i]? = some (.offer f)) (moved : offerNext f q o r = some s) :
    Change parties i q o r s := by
  cases o with
  | task u =>
    cases u with
    | insert t =>
      obtain ⟨⟨rfl, same, pending⟩, ⟨⟩⟩ := onlyIf_eq_some.mp moved
      exact .list offer same pending
    | updateStatus y status reason =>
      obtain ⟨rfl, after⟩ := onlyIf_eq_some.mp moved
      exact .update offer after
    | setError | addBytes | revision | record =>
      obtain ⟨-, ⟨⟩⟩ := onlyIf_eq_some.mp moved
      exact .stay rfl
    | _ => cases moved
  | note n =>
    cases n with
    | ensure y =>
      obtain ⟨rfl, after⟩ := onlyIf_eq_some.mp moved
      cases q with
      | listed =>
        cases after
        exact .note offer
      | prompted m =>
        cases after
        exact .again offer
      | _ => cases after
    | markInactive y reason =>
      obtain ⟨⟨rfl, moving⟩, ⟨⟩⟩ := onlyIf_eq_some.mp moved
      exact .mark (.inl ⟨⟨f, offer, rfl⟩, moving⟩)
    | read y => cases moved
  | gate g =>
    cases g with
    | register y =>
      obtain ⟨rfl, after⟩ := onlyIf_eq_some.mp moved
      cases q with
      | prompted m =>
        cases after
        exact .register offer
      | _ => cases after
    | wait c =>
      cases q with
      | waiting d =>
        simp only [offerNext, Phase.afterWait] at moved
        split_ifs at moved with same
        cases moved
        subst same
        exact .wait offer
      | _ => cases moved
    | _ => cases moved
  | net n =>
    cases n with
    | write c y m =>
      cases moved
      exact .stay rfl
    | _ => cases moved
  | env e =>
    cases e with
    | emit e =>
      simp only [offerNext, Phase.afterEmit] at moved
      split at moved
      · split_ifs at moved with tells
        cases moved
        exact .show offer tells
      · split_ifs at moved with quiet
        cases moved
        exact .emit (by simpa using quiet)
    | _ =>
      cases moved
      exact .stay rfl
  | fs f =>
    cases moved
    exact .stay rfl

private theorem change_decision {y : String} {n : Uuid} {v : Bool} {q : Phase}
    (role : Decides parties i y n) (plays : Acts parties i y v)
    (moved : decisionNext y n v q o r = some s) : Change parties i q o r s := by
  cases o with
  | task u =>
    cases u with
    | status z =>
      obtain ⟨⟨rfl, free⟩, ⟨⟩⟩ := onlyIf_eq_some.mp moved
      exact .status role free
    | _ => cases moved
  | note n =>
    cases n with
    | read z =>
      obtain ⟨⟨rfl, rfl⟩, ⟨⟩⟩ := onlyIf_eq_some.mp moved
      exact .read role
    | markInactive z reason =>
      obtain ⟨⟨rfl, finished | holds⟩, ⟨⟩⟩ := onlyIf_eq_some.mp moved
      · exact .mark (.inr (.inl ⟨_, role, finished⟩))
      · exact .mark (.inr (.inr (.inl ⟨_, plays, holds⟩)))
    | ensure z => cases moved
  | gate g =>
    cases g with
    | contains z =>
      obtain ⟨⟨rfl, free⟩, ⟨⟩⟩ := onlyIf_eq_some.mp moved
      exact .contains role free
    | take z =>
      obtain ⟨⟨rfl, rfl⟩, ⟨⟩⟩ := onlyIf_eq_some.mp moved
      exact .take plays (.inr rfl) fun _ _ => rfl
    | discard z =>
      obtain ⟨⟨rfl, rfl⟩, ⟨⟩⟩ := onlyIf_eq_some.mp moved
      exact .discard role
    | send c u =>
      obtain ⟨⟨rfl, rfl⟩, ⟨⟩⟩ := onlyIf_eq_some.mp moved
      exact .send plays
    | _ => cases moved
  | net | env | fs => cases moved

private theorem change_cancel {y : String} {hasHost : Bool} {q : Phase}
    (here : parties[i]? = some (.cancel y hasHost)) (moved : cancelNext y q o r = some s) :
    Change parties i q o r s := by
  have role : Acts parties i y false := ⟨_, here, rfl⟩
  have undeciding : ∀ n, ¬ Decides parties i y n := by
    rintro n (h | h) <;> cases here.symm.trans h
  cases o with
  | task u =>
    cases u with
    | cancel | record =>
      obtain ⟨-, ⟨⟩⟩ := onlyIf_eq_some.mp moved
      exact .stay rfl
    | _ => cases moved
  | note n =>
    cases n with
    | markInactive z reason =>
      obtain ⟨⟨rfl, holds⟩, ⟨⟩⟩ := onlyIf_eq_some.mp moved
      exact .mark (.inr (.inr (.inl ⟨_, role, holds⟩)))
    | _ => cases moved
  | gate g =>
    cases g with
    | take z =>
      obtain ⟨⟨rfl, rfl⟩, ⟨⟩⟩ := onlyIf_eq_some.mp moved
      exact .take role (.inl rfl) fun n h => absurd h (undeciding n)
    | send c u =>
      obtain ⟨⟨rfl, rfl⟩, ⟨⟩⟩ := onlyIf_eq_some.mp moved
      exact .send role
    | _ => cases moved
  | net n =>
    cases n with
    | write | close =>
      cases moved
      exact .stay rfl
    | _ => cases moved
  | env | fs => cases moved

private theorem change_maintenance {ticks : ℕ} {q : Phase}
    (loop : parties[i]? = some (.maintenance ticks)) (moved : maintenanceNext q o r = some s) :
    Change parties i q o r s := by
  cases o with
  | task u =>
    cases u with
    | snapshot =>
      obtain ⟨resting, ⟨⟩⟩ := onlyIf_eq_some.mp moved
      exact .survey loop resting
    | _ => cases moved
  | note n =>
    cases n with
    | ensure y =>
      obtain ⟨member, ⟨⟩⟩ := onlyIf_eq_some.mp moved
      cases s with
      | sweeping pending inactive => exact .ensure (by simpa [Phase.sweeps] using member)
      | _ => cases member
    | markInactive y reason =>
      obtain ⟨member, ⟨⟩⟩ := onlyIf_eq_some.mp moved
      cases s with
      | marking inactive =>
        exact .mark (.inr (.inr (.inr ⟨inactive, rfl, by simpa [Phase.marks] using member⟩)))
      | _ => cases member
    | read => cases moved
  | gate g =>
    cases g with
    | retain ids =>
      cases q with
      | sweeping pending inactive =>
        simp only [maintenanceNext, Phase.afterRetain] at moved
        split_ifs at moved with same
        cases moved
        subst same
        exact .retain
      | _ => cases moved
    | _ => cases moved
  | net | env | fs => cases moved

private theorem change_send {f : SendRequest} {steps retrySteps : List StreamStep} {q : Phase}
    (sends : parties[i]? = some (.send f steps retrySteps)) (moved : sendNext f q o r = some s) :
    Change parties i q o r s := by
  cases o with
  | task u =>
    cases u with
    | insert t =>
      obtain ⟨same, ⟨⟩⟩ := onlyIf_eq_some.mp moved
      exact .enlist sends same
    | updateStatus | status | cancel | snapshot | cleanup => cases moved
    | _ =>
      obtain ⟨-, ⟨⟩⟩ := onlyIf_eq_some.mp moved
      exact .stay rfl
  | net n =>
    cases moved
    exact .stay rfl
  | env e =>
    cases e with
    | emit e =>
      obtain ⟨quiet, ⟨⟩⟩ := onlyIf_eq_some.mp moved
      exact .emit quiet
    | _ =>
      cases moved
      exact .stay rfl
  | note | gate | fs => cases moved

theorem change_of_moves {q : Phase} (moved : moves parties i q o r = some s) :
    Change parties i q o r s := by
  obtain ⟨party, here, moved⟩ := Option.bind_eq_some_iff.mp moved
  cases party with
  | offer f => exact change_offer here moved
  | accept y n => exact change_decision (.inl here) ⟨_, here, rfl⟩ moved
  | reject y n => exact change_decision (.inr here) ⟨_, here, rfl⟩ moved
  | cancel y hasHost => exact change_cancel here moved
  | maintenance ticks => exact change_maintenance here moved
  | cleanup ticks =>
    cases o with
    | task u =>
      cases u with
      | cleanup =>
        cases moved
        exact .stay rfl
      | _ => cases moved
    | _ => cases moved
  | send f steps retrySteps => exact change_send here moved

/-- Outgoing transfers have identifiers of their own. -/
def Apart (parties : List Party) : Prop :=
  ∀ f steps retrySteps q, Party.send f steps retrySteps ∈ parties → Party.offer q ∈ parties →
    f.transferId ≠ q.id

def sendSection : TaskOp → Option String
  | .sendRejected y _ | .sendTimedOut y | .sendTransferring y | .sendFinished y _ _
  | .sendErrored y _ _ => some y
  | _ => none

theorem sendSection_inv {q : Phase} {y : String} {u : TaskOp} {a : u.Resp}
    (moved : moves parties i q (.task u) a = some s) (h : sendSection u = some y) :
    ∃ f steps retrySteps, parties[i]? = some (.send f steps retrySteps) ∧ f.transferId = y := by
  obtain ⟨party, here, moved⟩ := Option.bind_eq_some_iff.mp moved
  cases party with
  | send f steps retrySteps =>
    refine ⟨f, steps, retrySteps, here, ?_⟩
    cases u with
    | sendRejected | sendTimedOut | sendTransferring | sendFinished | sendErrored =>
      cases h
      exact (Option.some.inj (onlyIf_eq_some.mp moved).1).symm
    | _ => cases h
  | _ =>
    cases u with
    | sendRejected | sendTimedOut | sendTransferring | sendFinished | sendErrored => cases moved
    | _ => cases h

theorem cleanup_inv {q : Phase} {a : TaskOp.cleanup.Resp}
    (moved : moves parties i q (.task .cleanup) a = some s) :
    ∃ ticks, Party.cleanup ticks ∈ parties := by
  obtain ⟨party, here, moved⟩ := Option.bind_eq_some_iff.mp moved
  cases party with
  | cleanup ticks => exact ⟨ticks, List.mem_of_getElem? here⟩
  | _ => cases moved

theorem present_step (done : exec i o x w = some (w', r)) (keeps : o ≠ .task .cleanup)
    {y : String} (h : ∃ t, w.transfers.lookup y = some t) :
    ∃ t, w'.transfers.lookup y = some t := by
  obtain ⟨t, found⟩ := h
  rw [exec_lookup_task done, found]
  cases o with
  | task u =>
    cases u with
    | cleanup => exact absurd rfl keeps
    | revision | status | snapshot | record => exact ⟨t, rfl⟩
    | insert | updateStatus | setError | addBytes | cancel | sendRejected | sendTimedOut
    | sendTransferring | sendFinished | sendErrored =>
      simp only [onTask, taskEffect]
      split_ifs <;> simp
  | _ => exact ⟨t, rfl⟩

structure SameTransfer (t t' : TransferTask) : Prop where
  id : t'.id = t.id
  direction : t'.direction = t.direction
  peerFingerprint : t'.peerFingerprint = t.peerFingerprint
  peerName : t'.peerName = t.peerName
  items : t'.items = t.items
  totalBytes : t'.totalBytes = t.totalBytes

theorem SameTransfer.refl (t : TransferTask) : SameTransfer t t := ⟨rfl, rfl, rfl, rfl, rfl, rfl⟩

/-- A task has just been registered, or it was there before; then it waits for the user only
if it did, unless its status is set back. -/
theorem task_inv (done : exec i o x w = some (w', r)) {y : String} {t' : TransferTask}
    (found : w'.transfers.lookup y = some t') :
    (o = .task (.insert t') ∧ t'.id = y) ∨
    ((∀ t, o = .task (.insert t) → t.id ≠ y) ∧ ∃ t, w.transfers.lookup y = some t ∧
      SameTransfer t t' ∧ (t'.status = .pendingAccept →
        (∃ reason, o = .task (.updateStatus y .pendingAccept reason)) ∨
        (t.status = .pendingAccept ∧ t'.revision = t.revision))) := by
  rw [exec_lookup_task done] at found
  by_cases inserted : ∃ t, o = .task (.insert t) ∧ t.id = y
  · obtain ⟨t, rfl, rfl⟩ := inserted
    obtain rfl : t = t' := by simpa [onTask, taskEffect] using found
    exact .inl ⟨rfl, rfl⟩
  have other : ∀ t, o = .task (.insert t) → t.id ≠ y := fun t h same => inserted ⟨t, h, same⟩
  refine .inr ⟨other, ?_⟩
  cases o with
  | task u =>
    cases was : w.transfers.lookup y with
    | none =>
      rw [was] at found
      cases u with
      | insert t => simp [onTask, taskEffect, (other t rfl).symm] at found
      | _ => simp [onTask, taskEffect] at found
    | some t =>
      rw [was] at found
      refine ⟨t, rfl, ?_⟩
      have kept (same : t = t') : SameTransfer t t' ∧ (t'.status = .pendingAccept →
          (∃ reason, Op.task u = .task (.updateStatus y .pendingAccept reason)) ∨
          (t.status = .pendingAccept ∧ t'.revision = t.revision)) := by
        subst same
        exact ⟨.refl t, fun pending => .inr ⟨pending, rfl⟩⟩
      cases u with
      | insert t₀ =>
        rw [onTask, taskEffect, if_neg (other t₀ rfl).symm] at found
        exact kept (Option.some.inj found)
      | updateStatus z status reason =>
        simp only [onTask, taskEffect, Option.map_some] at found
        split_ifs at found with same <;> cases found
        · refine ⟨⟨rfl, rfl, rfl, rfl, rfl, rfl⟩, fun pending => .inl ⟨reason, ?_⟩⟩
          have status' : status = .pendingAccept := pending
          rw [status', same]
        · exact kept rfl
      | setError | addBytes =>
        simp only [onTask, taskEffect, Option.map_some] at found
        split_ifs at found <;> cases found
        · exact ⟨⟨rfl, rfl, rfl, rfl, rfl, rfl⟩, fun pending => .inr ⟨pending, rfl⟩⟩
        · exact kept rfl
      | sendErrored =>
        simp only [onTask, taskEffect, Option.map_some] at found
        split_ifs at found <;> cases found
        · unfold applyErrored at kept ⊢
          split_ifs at kept ⊢
          · exact kept rfl
          · exact ⟨⟨rfl, rfl, rfl, rfl, rfl, rfl⟩, fun pending => by cases pending⟩
        · exact kept rfl
      | cancel =>
        simp only [onTask, taskEffect, Option.map_some] at found
        split_ifs at found <;> cases found
        · refine ⟨⟨rfl, rfl, rfl, rfl, rfl, rfl⟩, fun pending => ?_⟩
          cases direction : t.direction <;> simp [applyCancel, cancelStatus, direction] at pending
        · exact kept rfl
      | sendFinished z outcome =>
        simp only [onTask, taskEffect, Option.map_some] at found
        split_ifs at found <;> cases found
        · exact ⟨⟨rfl, rfl, rfl, rfl, rfl, rfl⟩, fun pending => by cases outcome <;> cases pending⟩
        · exact kept rfl
      | sendRejected | sendTimedOut | sendTransferring =>
        simp only [onTask, taskEffect, Option.map_some] at found
        split_ifs at found <;> cases found
        · exact ⟨⟨rfl, rfl, rfl, rfl, rfl, rfl⟩, fun pending => by cases pending⟩
        · exact kept rfl
      | cleanup =>
        simp only [onTask, taskEffect, Option.filter_eq_some_iff, Option.some.injEq] at found
        exact kept found.1
      | revision | status | snapshot | record => exact kept (Option.some.inj found)
  | _ => exact ⟨t', found, .refl t', fun pending => .inr ⟨pending, rfl⟩⟩

theorem updateStatus_answer {y : String} {status : TransferStatus}
    {reason : Option String} {found : Option StatusUpdate}
    (done : exec i (.task (.updateStatus y status reason)) x w = some (w', found)) :
    found.isSome = (w.transfers.lookup y).isSome := by
  rw [exec_task_answer done]
  simp only [execTask, modifyTask_answer]
  cases w.transfers.lookup y <;> rfl

structure Registered (parties : List Party) (φ : ℕ → Phase) (w : World) : Prop where
  unique : ∀ {j k y}, Event.registered j y ∈ w.journal → Event.registered k y ∈ w.journal → j = k
  owner : ∀ {j y}, Event.registered j y ∈ w.journal →
    ∃ party, parties[j]? = some party ∧ Party.registers party = some y
  listed : ∀ {j q}, parties[j]? = some (.offer q) → φ j ≠ .idle →
    Event.registered j q.id ∈ w.journal
  begun : ∀ {j q y}, parties[j]? = some (.offer q) → Event.registered j y ∈ w.journal →
    φ j ≠ .idle

theorem isMoving_afterUpdate {q : Phase} {status : TransferStatus} {found : Bool}
    (moved : q.afterUpdate status found = some s) : s.isMoving = true := by
  unfold Phase.afterUpdate at moved
  split at moved
  case h_5 | h_6 =>
    split_ifs at moved
    cases moved
    rfl
  case h_7 => cases moved
  all_goals
    cases moved
    try cases found
    all_goals rfl

private theorem change_idle {f : IncomingOffer} (offer : parties[i]? = some (.offer f))
    (change : Change parties i .idle o r s) (active : s ≠ .idle) :
    ∃ t, o = .task (.insert t) ∧ t.id = f.id := by
  have none_of_role {y n} (h : Decides parties i y n) : False := by
    obtain h | h := h <;> cases offer.symm.trans h
  cases change with
  | stay | enlist | mark | emit => exact absurd rfl active
  | list offer' same =>
    cases offer.symm.trans offer'
    exact ⟨_, rfl, same⟩
  | update offer' after => cases after
  | read role => exact (none_of_role role).elim
  | status role => exact (none_of_role role).elim
  | contains role => exact (none_of_role role).elim
  | take role =>
    obtain ⟨party, here, plays⟩ := role
    cases offer.symm.trans here
    cases plays
  | survey loop => cases offer.symm.trans loop

private theorem change_active {f : IncomingOffer} {q : Phase}
    (offer : parties[i]? = some (.offer f)) (change : Change parties i q o r s)
    (active : q ≠ .idle) : s ≠ .idle := by
  have none_of_role {y n} (h : Decides parties i y n) : False := by
    obtain h | h := h <;> cases offer.symm.trans h
  cases change with
  | stay | enlist | again | ensure | mark | emit | discard => exact active
  | update offer' after =>
    rintro rfl
    cases isMoving_afterUpdate after
  | read role => exact (none_of_role role).elim
  | status role => exact (none_of_role role).elim
  | contains role => exact (none_of_role role).elim
  | take role =>
    obtain ⟨party, here, plays⟩ := role
    cases offer.symm.trans here
    cases plays
  | list | note | «show» | register | wait | send | survey | retain => simp

theorem listed_step (done : exec i o x w = some (w', r))
    (change : Change parties i (φ i) o r s) {j : ℕ} {f : IncomingOffer}
    (offer : parties[j]? = some (.offer f))
    (known : φ j ≠ .idle → Event.registered j f.id ∈ w.journal)
    (active : Function.update φ i s j ≠ .idle) : Event.registered j f.id ∈ w'.journal := by
  by_cases hj : j = i
  · subst hj
    rw [Function.update_self] at active
    by_cases idle : φ j = .idle
    · rw [idle] at change
      obtain ⟨t, rfl, same⟩ := change_idle offer change active
      refine (mem_journal_iff done).mpr (.inr ?_)
      simp [history, taskHistory, same]
    · exact mem_journal_mono done (known idle)
  · rw [Function.update_of_ne hj] at active
    exact mem_journal_mono done (known active)

theorem begun_step (done : exec i o x w = some (w', r))
    (change : Change parties i (φ i) o r s) {j : ℕ} {y : String} {f : IncomingOffer}
    (offer : parties[j]? = some (.offer f))
    (known : Event.registered j y ∈ w.journal → φ j ≠ .idle)
    (registered : Event.registered j y ∈ w'.journal) : Function.update φ i s j ≠ .idle := by
  obtain old | ⟨rfl, t, rfl, rfl⟩ := origin_of_new done registered
  · have active := known old
    by_cases hj : j = i
    · subst hj
      rw [Function.update_self]
      exact change_active offer change active
    · rwa [Function.update_of_ne hj]
  · rw [Function.update_self]
    generalize φ j = q at change
    cases change with
    | stay calm => cases calm
    | list => simp
    | enlist sends => cases offer.symm.trans sends

theorem registry_step (known : Registered parties φ w) (allowed : Fresh i o x w)
    (done : exec i o x w = some (w', r)) (change : Change parties i (φ i) o r s) :
    Registered parties (Function.update φ i s) w' := by
  constructor
  · intro j k y hj hk
    obtain oldj | ⟨rfl, t, rfl, rfl⟩ := origin_of_new done hj
    · obtain oldk | ⟨rfl, t, rfl, rfl⟩ := origin_of_new done hk
      · exact known.unique oldj oldk
      · exact allowed j oldj
    · obtain oldk | ⟨rfl, -⟩ := origin_of_new done hk
      · exact (allowed k oldk).symm
      · rfl
  · intro j y hj
    obtain old | ⟨rfl, t, rfl, rfl⟩ := origin_of_new done hj
    · exact known.owner old
    · generalize φ j = q at change
      cases change with
      | stay calm => cases calm
      | list offer same => exact ⟨_, offer, congrArg some same.symm⟩
      | enlist sends same => exact ⟨_, sends, congrArg some same.symm⟩
  · intro j q offer active
    exact listed_step done change offer (known.listed offer) active
  · intro j q y offer registered
    exact begun_step done change offer (known.begun offer) registered

def verdict : Phase → Option Bool
  | .settled accepted | .moving accepted => some accepted
  | .lost => some true
  | _ => none

structure Drift (q s : Phase) : Prop where
  waiting : ∀ c, s = .waiting c ↔ q = .waiting c
  holding : ∀ c, s = .holding c ↔ q = .holding c
  released : ∀ c, s = .released c ↔ q = .released c
  verdict : ∀ v, verdict q = some v → verdict s = some v

theorem Drift.refl (q : Phase) : Drift q q :=
  ⟨fun _ => .rfl, fun _ => .rfl, fun _ => .rfl, fun _ h => h⟩

private theorem drift_afterUpdate {q : Phase} {status : TransferStatus} {found : Bool}
    (moved : q.afterUpdate status found = some s) : Drift q s := by
  unfold Phase.afterUpdate at moved
  split at moved
  case h_5 | h_6 =>
    split_ifs at moved
    cases moved
    exact .refl _
  case h_7 => cases moved
  all_goals
    cases moved
    try cases found
    all_goals constructor <;> simp [Registry.verdict]

theorem drift_undecided {q : Phase} (before : q.undecided = true)
    (after : s.undecided = true) : Drift q s := by
  have plain {p : Phase} (h : p.undecided = true) : p = .idle ∨ p = .cleared ∨ p = .expired := by
    cases p <;> simp_all [Phase.undecided]
  obtain rfl | rfl | rfl := plain before <;> obtain rfl | rfl | rfl := plain after <;>
    constructor <;> simp [Registry.verdict]

theorem undecided_afterRead (n : Uuid) (entry : Option IncomingRequestNotification) :
    (afterRead n entry).undecided = true := by
  unfold afterRead
  split
  · split_ifs <;> rfl
  · rfl

theorem undecided_afterStatus {q : Phase} (free : q.undecided = true)
    (found : Option TransferStatus) : (afterStatus q found).undecided = true := by
  unfold afterStatus
  split <;> first | exact free | rfl

theorem Change.drift {q : Phase} (change : Change parties i q o r s)
    (calm : ∀ g, o ≠ .gate g) : Drift q s := by
  cases change with
  | stay | enlist | again | ensure | mark | emit => exact .refl _
  | list | note | «show» => constructor <;> simp [Registry.verdict]
  | update offer after => exact drift_afterUpdate after
  | read role => exact drift_undecided rfl (undecided_afterRead _ _)
  | status role free => exact drift_undecided free (undecided_afterStatus free _)
  | survey loop resting =>
    cases q with
    | idle | marking => constructor <;> simp [Registry.verdict]
    | _ => cases resting
  | register | wait | contains | discard | take | send | retain => exact absurd rfl (calm _)

end DashDrop.Receiving.Registry
