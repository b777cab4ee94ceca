/- GID: DashDrop/Receiving/Phases
   source: src-tauri/src/transport/receiver.rs, src-tauri/src/core_service.rs,
     src-tauri/src/runtime/supervisor.rs
   anchors: []
   digest: The order in which each party touches requests, senders and statuses. -/

import DashDrop.Foundation.Discipline
import DashDrop.Runtime.Footprint

set_option autoImplicit false
set_option relaxedAutoImplicit false

namespace DashDrop.Receiving.Phases

open DashDrop.Foundation.Program DashDrop.Foundation.Interleaving
open DashDrop.Foundation.Discipline DashDrop.Foundation.Oneshot
open DashDrop.Foundation.UnixPath DashDrop.Foundation.FileTree
open DashDrop.Transport.Protocol DashDrop.Transport.Outcome
open DashDrop.Transport.Receiver DashDrop.Transport.Sender
open DashDrop.Runtime.State DashDrop.Runtime.Machine DashDrop.Runtime.Footprint
open DashDrop.Runtime.Supervisor DashDrop.CoreService

inductive Phase where
  | idle
  /-- An offer has its task in the map. -/
  | listed
  /-- It has its notification, then it has announced it. -/
  | noted (notificationId : Uuid)
  | prompted (notificationId : Uuid)
  | waiting (chan : ℕ)
  /-- The wait is over, and then the status has been written. -/
  | settled (accepted : Bool)
  | moving (accepted : Bool)
  /-- The task was gone when the status was to be written. -/
  | lost
  /-- An action has seen its notification, or has seen that the request is over. -/
  | cleared
  | expired
  /-- An action has the sender in its hands, then it has sent its value. -/
  | holding (chan : ℕ)
  | released (chan : ℕ)
  /-- A maintenance pass before and after it drops senders. -/
  | sweeping (pending inactive : List String)
  | marking (inactive : List String)
  deriving DecidableEq

def announces (id : String) (notificationId : Uuid) : HostEvent → Bool
  | .transferIncoming y m _ _ _ _ _ _ => y == id && m == notificationId
  | _ => false

def isIncoming : HostEvent → Bool
  | .transferIncoming _ _ _ _ _ _ _ _ => true
  | _ => false

def Phase.afterUpdate : Phase → TransferStatus → Bool → Option Phase
  | .listed, .failed, _ => some (.moving false)
  | .prompted _, .transferring, found | .settled true, .transferring, found =>
      some (if found then .moving true else .lost)
  | .settled false, .rejected, _ => some (.moving false)
  | .moving accepted, status, _ =>
      if status.isTerminal ∧ status ≠ .rejected then some (.moving accepted) else none
  | .lost, status, _ => if status.isTerminal ∧ status ≠ .rejected then some .lost else none
  | _, _, _ => none

def Phase.afterEnsure : Phase → Uuid → Option Phase
  | .listed, m => some (.noted m)
  | .prompted m, _ => some (.prompted m)
  | _, _ => none

def Phase.afterRegister : Phase → ℕ → Option Phase
  | .prompted _, c => some (.waiting c)
  | _, _ => none

def Phase.afterWait : Phase → ℕ → Wait Bool → Option Phase
  | .waiting c, c', r => if c' = c then some (.settled (r == .value true)) else none
  | _, _, _ => none

def Phase.afterEmit (id : String) : Phase → HostEvent → Option Phase
  | .noted m, e => if announces id m e then some (.prompted m) else none
  | s, e => if isIncoming e then none else some s

def Phase.isMoving : Phase → Bool
  | .moving _ | .lost => true
  | _ => false

def onlyIf (p : Prop) [Decidable p] (s : Option Phase) : Option Phase := if p then s else none

def offerNext (o : IncomingOffer) (s : Phase) : (op : Op) → op.Resp → Option Phase
  | .task (.insert t), _ =>
      onlyIf (s = .idle ∧ t.id = o.id ∧ t.status = .pendingAccept ∧ t.endedAtUnix = none)
        (some .listed)
  | .task (.updateStatus y status _), r => onlyIf (y = o.id) (s.afterUpdate status r.isSome)
  | .task (.setError y _), _ => onlyIf (y = o.id ∧ s ≠ .idle) (some s)
  | .task (.addBytes y _), _ => onlyIf (y = o.id ∧ s ≠ .idle) (some s)
  | .task (.revision y), _ => onlyIf (y = o.id) (some s)
  | .task (.record y _), _ => onlyIf (y = o.id) (some s)
  | .note (.ensure y), m => onlyIf (y = o.id) (s.afterEnsure m)
  | .note (.markInactive y _), _ => onlyIf (y = o.id ∧ s.isMoving = true) (some s)
  | .gate (.register y), c => onlyIf (y = o.id) (s.afterRegister c)
  | .gate (.wait c), r => s.afterWait c r
  | .net (.write _ _ _), _ => some s
  | .env (.emit e), _ => s.afterEmit o.id e
  | .env _, _ => some s
  | .fs _, _ => some s
  | _, _ => none

/-- An offer returns after its last status, or when it could not answer its peer. -/
def offerMayReturn : Phase → Except String Unit → Prop
  | .listed, _ | .settled false, _ | .moving _, _ | .lost, _ => True
  | _, _ => False

def Phase.undecided : Phase → Bool
  | .idle | .cleared | .expired => true
  | _ => false

def Phase.isHolding : Phase → Bool
  | .holding _ => true
  | _ => false

def afterRead (notificationId : Uuid) : Option IncomingRequestNotification → Phase
  | some entry =>
      if !entry.active then .expired
      else if entry.notificationId ≠ notificationId then .idle
      else .cleared
  | none => .idle

def afterStatus (s : Phase) : Option TransferStatus → Phase
  | some .pendingAccept | none => s
  | some _ => .expired

def decisionNext (id : String) (notificationId : Uuid) (value : Bool) (s : Phase) :
    (op : Op) → op.Resp → Option Phase
  | .note (.read y), entry => onlyIf (y = id ∧ s = .idle) (some (afterRead notificationId entry))
  | .task (.status y), r => onlyIf (y = id ∧ s.undecided = true) (some (afterStatus s r))
  | .gate (.contains y), found =>
      onlyIf (y = id ∧ s.undecided = true) (some (if found then .cleared else s))
  | .gate (.take y), taken =>
      onlyIf (y = id ∧ s = .cleared) (some ((taken.map Phase.holding).getD .idle))
  | .gate (.discard y), _ => onlyIf (y = id ∧ s = .expired) (some s)
  | .note (.markInactive y _), _ =>
      onlyIf (y = id ∧ (s = .expired ∨ s.isHolding = true)) (some s)
  | .gate (.send c v), _ => onlyIf (s = .holding c ∧ v = value) (some (.released c))
  | _, _ => none

/-- A sender in hand is used before the action returns; an accept that succeeds has used one. -/
def decisionMayReturn (value : Bool) (s : Phase) (result : Except String Unit) : Prop :=
  s.isHolding = false ∧ (value = true → result = .ok () → ∃ c, s = .released c)

def cancelNext (id : String) (s : Phase) : (op : Op) → op.Resp → Option Phase
  | .gate (.take y), taken =>
      onlyIf (y = id ∧ s = .idle) (some ((taken.map Phase.holding).getD .idle))
  | .note (.markInactive y _), _ => onlyIf (y = id ∧ s.isHolding = true) (some s)
  | .gate (.send c v), _ => onlyIf (s = .holding c ∧ v = false) (some (.released c))
  | .task (.cancel y _), _ => onlyIf (y = id) (some s)
  | .task (.record y _), _ => onlyIf (y = id) (some s)
  | .net (.write _ _ _), _ => some s
  | .net (.close _), _ => some s
  | _, _ => none

def Phase.isResting : Phase → Bool
  | .idle | .marking _ => true
  | _ => false

def Phase.sweeps (y : String) : Phase → Bool
  | .sweeping pending _ => pending.contains y
  | _ => false

def Phase.marks (y : String) : Phase → Bool
  | .marking inactive => inactive.contains y
  | _ => false

def Phase.afterRetain : Phase → List String → Option Phase
  | .sweeping pending inactive, ids => if ids = pending then some (.marking inactive) else none
  | _, _ => none

def maintenanceNext (s : Phase) : (op : Op) → op.Resp → Option Phase
  | .task .snapshot, states =>
      onlyIf (s.isResting = true)
        (some (.sweeping (pendingOf states) ((inactiveOf states).map Prod.fst)))
  | .note (.ensure y), _ => onlyIf (s.sweeps y = true) (some s)
  | .gate (.retain ids), _ => s.afterRetain ids
  | .note (.markInactive y _), _ => onlyIf (s.marks y = true) (some s)
  | _, _ => none

def cleanupNext (s : Phase) : (op : Op) → op.Resp → Option Phase
  | .task .cleanup, _ => some s
  | _, _ => none

/-- A send touches neither requests nor senders and leaves its phase alone. -/
def sendNext (r : SendRequest) (s : Phase) : (op : Op) → op.Resp → Option Phase
  | .task (.insert t), _ => onlyIf (t.id = r.transferId) (some s)
  | .task (.updateStatus _ _ _), _ | .task (.status _), _ | .task (.cancel _ _), _
  | .task .snapshot, _ | .task .cleanup, _ => none
  | .task u, _ => onlyIf (u.id? = some r.transferId) (some s)
  | .net _, _ => some s
  | .env (.emit e), _ => onlyIf (isIncoming e = false) (some s)
  | .env _, _ => some s
  | _, _ => none

def Party.next : Party → Automaton Op Op.Resp Phase
  | .offer o => offerNext o
  | .accept id n => decisionNext id n true
  | .reject id n => decisionNext id n false
  | .cancel id _ => cancelNext id
  | .maintenance _ => maintenanceNext
  | .cleanup _ => cleanupNext
  | .send r _ _ => sendNext r

def Party.mayReturn : Party → Phase → Except String Unit → Prop
  | .offer _ => offerMayReturn
  | .accept _ _ => decisionMayReturn true
  | .reject _ _ => decisionMayReturn false
  | .cancel _ _ | .maintenance _ | .cleanup _ | .send _ _ _ => fun _ _ => True

theorem onlyIf_eq_some {p : Prop} [Decidable p] {s : Option Phase} {q : Phase} :
    onlyIf p s = some q ↔ p ∧ s = some q := by
  unfold onlyIf
  split_ifs with h <;> simp [h]

private theorem onlyIf_pos {p : Prop} [Decidable p] {s : Option Phase} (h : p) :
    onlyIf p s = s := if_pos h

private theorem isIncoming_of_silent {e : HostEvent} (h : silent (.emit e)) :
    isIncoming e = false := by
  cases e <;> first | rfl | exact h.elim

section Offer

variable (o : IncomingOffer) {s : Phase} {α : Type}

private theorem afterEmit_quiet {id : String} {e : HostEvent} (clear : ∀ m, s ≠ .noted m)
    (quiet : isIncoming e = false) : s.afterEmit id e = some s := by
  cases s with
  | noted m => exact absurd rfl (clear m)
  | _ => simp [Phase.afterEmit, quiet]

private theorem calm_obeys {x : Code α} (clear : ∀ m, s ≠ .noted m) (active : s ≠ .idle)
    (within : x.Within (calmOps o) anything) :
    Obeys (offerNext o) s x fun s' _ => s' = s := by
  refine (Obeys.stay within fun op hop r => ?_).mono fun _ _ h => h.1
  cases op with
  | task u =>
    cases u with
    | setError | addBytes => exact onlyIf_pos ⟨hop, active⟩
    | revision => exact onlyIf_pos hop
    | _ => exact hop.elim
  | note | gate | net | fs => exact hop.elim
  | env e =>
    cases e with
    | emit e => exact afterEmit_quiet clear (isIncoming_of_silent hop)
    | _ => rfl

private theorem files_obey {x : Code α} (within : x.Within fileOps anything) :
    Obeys (offerNext o) s x fun s' _ => s' = s := by
  refine (Obeys.stay within fun op hop r => ?_).mono fun _ _ h => h.1
  cases op with
  | fs f => rfl
  | _ => exact hop.elim

private theorem calm_op {op : Op} {k : op.Resp → Code α} {fin : Phase → α → Prop}
    (stays : ∀ r, offerNext o s op r = some s) (rest : ∀ r, Obeys (offerNext o) s (k r) fin) :
    Obeys (offerNext o) s (.op op k) fin :=
  fun r => ⟨s, stays r, rest r⟩

private theorem updateTransferStatus_obeys (status : TransferStatus) (reason : Option String)
    (moves : ∀ found, ∃ q, s.afterUpdate status found = some q ∧ q.isMoving = true) :
    Obeys (offerNext o) s (updateTransferStatus o.id status reason)
      fun s' _ => ∃ found, s.afterUpdate status found = some s' := by
  intro r
  obtain ⟨q, moved, moving⟩ := moves r.isSome
  refine ⟨q, (onlyIf_pos rfl).trans moved, ?_⟩
  have recorded (record : Option TerminalRecord) (revision : ℕ) :
      Obeys (offerNext o) q ((recordIfSome o.id record).bind fun _ => .pure (some revision))
        fun s' _ => ∃ found, s.afterUpdate status found = some s' := by
    cases record with
    | none => exact ⟨_, moved⟩
    | some record => exact fun _ => ⟨q, onlyIf_pos rfl, _, moved⟩
  cases r with
  | none => exact ⟨_, moved⟩
  | some u =>
    obtain ⟨revision, notify, record⟩ := u
    cases notify with
    | none => exact recorded record revision
    | some reason => exact fun _ => ⟨q, onlyIf_pos ⟨rfl, moving⟩, recorded record revision⟩

private theorem afterUpdate_moving {status : TransferStatus} (moving : s.isMoving = true)
    (ends : status.isTerminal = true ∧ status ≠ .rejected) (found : Bool) :
    s.afterUpdate status found = some s := by
  cases s with
  | moving accepted => exact if_pos ends
  | lost => exact if_pos ends
  | _ => cases moving

private theorem not_noted_of_moving (moving : s.isMoving = true) (m : Uuid) : s ≠ .noted m := by
  rintro rfl
  cases moving

private theorem not_idle_of_moving (moving : s.isMoving = true) : s ≠ .idle := by
  rintro rfl
  cases moving

private theorem ending_obeys {status : TransferStatus} {reason : Option String}
    (moving : s.isMoving = true) (ends : status.isTerminal = true ∧ status ≠ .rejected) :
    Obeys (offerNext o) s (updateTransferStatus o.id status reason) fun s' _ => s' = s := by
  refine (updateTransferStatus_obeys o status reason fun found =>
    ⟨s, afterUpdate_moving moving ends found, moving⟩).mono ?_
  rintro s' _ ⟨found, same⟩
  rw [afterUpdate_moving moving ends found] at same
  exact (Option.some.inj same).symm

private theorem finishReceive_obeys (moving : s.isMoving = true) (outcome : TransferOutcome) :
    Obeys (offerNext o) s (finishReceive o outcome) fun s' _ => s' = s := by
  have quiet {x : Code Unit} (within : x.Within (calmOps o) anything) :
      Obeys (offerNext o) s x fun s' _ => s' = s :=
    calm_obeys o (not_noted_of_moving moving) (not_idle_of_moving moving) within
  cases outcome with
  | success =>
    refine (ending_obeys o moving (by decide)).bind ?_
    rintro _ _ rfl
    exact quiet ⟨rfl, fun _ => ⟨trivial, fun _ => trivial⟩⟩
  | partialSuccess =>
    refine (ending_obeys o moving (by decide)).bind ?_
    rintro _ _ rfl
    exact quiet ⟨rfl, fun _ => ⟨trivial, fun _ => trivial⟩⟩
  | failed e =>
    refine (ending_obeys o moving (by decide)).bind ?_
    rintro _ _ rfl
    exact quiet ((emitTransferTerminal_within o ..).bind fun _ _ =>
      emitTransferError_within o ..)
  | cancelledBySender =>
    refine (ending_obeys o moving (by decide)).bind ?_
    rintro _ _ rfl
    exact quiet (emitTransferTerminal_within o ..)
  | cancelledByReceiver =>
    refine (ending_obeys o moving (by decide)).bind ?_
    rintro _ _ rfl
    exact quiet (emitTransferTerminal_within o ..)

private theorem failSetup_obeys (moving : s.isMoving = true) (e : IoError) :
    Obeys (offerNext o) s (failSetup o e) fun s' _ => s' = s := by
  refine calm_op o (fun _ => rfl) fun _ => ?_
  refine (ending_obeys o moving (by decide)).bind ?_
  rintro _ _ rfl
  exact calm_obeys o (not_noted_of_moving moving) (not_idle_of_moving moving)
    ((emitTransferTerminal_within o ..).bind fun _ _ => emitTransferError_within o ..)

private theorem mayReturn_of_moving {result : Except String Unit} (moving : s.isMoving = true) :
    offerMayReturn s result := by
  cases s with
  | moving | lost => trivial
  | _ => cases moving

private theorem acceptOffer_obeys (saveRoot : PathBuf)
    (ready : ∀ found, s.afterUpdate .transferring found =
      some (if found then .moving true else .lost)) :
    Obeys (offerNext o) s (acceptOffer o saveRoot) offerMayReturn := by
  refine (updateTransferStatus_obeys o .transferring none fun found =>
    ⟨_, ready found, by cases found <;> rfl⟩).bind ?_
  rintro s' revision ⟨found, same⟩
  have moving : s'.isMoving = true := by
    rw [ready found] at same
    obtain rfl := Option.some.inj same
    cases found <;> rfl
  have clear := not_noted_of_moving moving
  have active := not_idle_of_moving moving
  refine calm_op o (fun _ => afterEmit_quiet clear rfl) fun _ => ?_
  refine calm_op o (fun _ => rfl) fun config => ?_
  refine (files_obey o (resumeOffsets_within _ saveRoot _)).bind ?_
  rintro _ offsets rfl
  refine calm_op o (fun _ => rfl) fun wrote => ?_
  cases wrote with
  | error f => exact mayReturn_of_moving moving
  | ok =>
    refine calm_op o (fun _ => rfl) fun made => ?_
    cases made with
    | error e =>
      refine (failSetup_obeys o moving e).bind ?_
      rintro _ _ rfl
      exact mayReturn_of_moving moving
    | ok =>
      refine (calm_obeys o clear active (receiveFiles_within o)).bind ?_
      rintro _ outcome rfl
      refine (finishReceive_obeys o moving outcome).bind ?_
      rintro _ _ rfl
      exact mayReturn_of_moving moving

private theorem rejectOffer_obeys (isTimeout : Bool) :
    Obeys (offerNext o) (.settled false) (rejectOffer o isTimeout) offerMayReturn := by
  refine calm_op o (fun _ => rfl) fun wrote => ?_
  cases wrote with
  | error f => trivial
  | ok =>
    refine (updateTransferStatus_obeys o .rejected _ fun found => ⟨_, rfl, rfl⟩).bind ?_
    rintro _ _ ⟨found, ⟨⟩⟩
    refine (calm_obeys o (by simp) (by simp) (emitTransferTerminal_within o ..)).bind ?_
    rintro _ _ rfl
    trivial

private theorem rejectForSpace_obeys :
    Obeys (offerNext o) .listed (rejectForSpace o) offerMayReturn := by
  refine calm_op o (fun _ => rfl) fun wrote => ?_
  cases wrote with
  | error f => trivial
  | ok =>
    refine (updateTransferStatus_obeys o .failed _ fun found => ⟨_, rfl, rfl⟩).bind ?_
    rintro _ _ ⟨found, ⟨⟩⟩
    refine calm_op o (fun _ => onlyIf_pos ⟨rfl, by simp⟩) fun _ => ?_
    refine (calm_obeys o (by simp) (by simp) (emitTransferTerminal_within o ..)).bind ?_
    rintro _ _ rfl
    trivial

/-- A decision leaves the offer prompted when no wait was needed, and settled after one. -/
private def Decided (s : Phase) (accepted : Bool) : Prop :=
  (accepted = true ∧ ∃ m, s = .prompted m) ∨ s = .settled accepted

private theorem awaitDecision_obeys (m : Uuid) :
    Obeys (offerNext o) (.prompted m) (awaitDecision o) fun s' a => Decided s' a.1 := by
  refine calm_op o (fun _ => onlyIf_pos rfl) fun _ chan => ⟨.waiting chan, onlyIf_pos rfl, ?_⟩
  intro r
  refine ⟨.settled (r == .value true), if_pos rfl, ?_⟩
  cases r with
  | value v => cases v <;> exact .inr rfl
  | senderGone => exact .inr rfl
  | timedOut => exact .inr rfl

private theorem decideOffer_obeys :
    Obeys (offerNext o) .listed (decideOffer o) fun s' a => Decided s' a.1 := by
  refine calm_op o (fun _ => rfl) fun trusted m => ⟨.noted m, onlyIf_pos rfl, ?_⟩
  refine calm_op o (fun _ => onlyIf_pos rfl) fun revision _ => ⟨.prompted m, ?_, ?_⟩
  · exact if_pos (by simp [announces])
  · refine calm_op o (fun _ => rfl) fun config => ?_
    simp only [ret_bind]
    split_ifs
    · exact .inl ⟨rfl, m, rfl⟩
    · exact awaitDecision_obeys o m

private theorem handleOffer_obeys :
    Obeys (offerNext o) .idle (handleOffer o) offerMayReturn := by
  refine calm_op o (fun _ => rfl) fun now _ => ⟨.listed, onlyIf_pos ⟨rfl, rfl, rfl, rfl⟩, ?_⟩
  refine calm_op o (fun _ => rfl) fun config => calm_op o (fun _ => rfl) fun dirs => ?_
  refine calm_op o (fun _ => rfl) fun disks => ?_
  simp only [ret_bind]
  split_ifs
  · refine (decideOffer_obeys o).bind ?_
    rintro s ⟨accepted, isTimeout⟩ decided
    cases accepted with
    | true =>
      refine acceptOffer_obeys o _ fun found => ?_
      obtain ⟨-, m, rfl⟩ | rfl := decided <;> rfl
    | false =>
      obtain ⟨wrong, -⟩ | rfl := decided
      · cases wrong
      · exact rejectOffer_obeys o isTimeout
  · exact rejectForSpace_obeys o

end Offer

section Actions

variable (id : String) (n : Uuid) (value : Bool)

/-- What the answer of `incoming_request_action_state` says about the phase. -/
private def Seen (s : Phase) : IncomingRequestActionState → Prop
  | .expired => s = .expired
  | .pending => s = .cleared
  | .staleNotification | .missing => s.undecided = true

private theorem incomingRequestActionState_obeys :
    Obeys (decisionNext id n value) .idle (incomingRequestActionState id n) Seen := by
  intro notification
  refine ⟨afterRead n notification, onlyIf_pos ⟨rfl, rfl⟩, fun status => ?_⟩
  have undecided : (afterRead n notification).undecided = true := by
    unfold afterRead
    split
    · split_ifs <;> rfl
    · rfl
  refine ⟨afterStatus (afterRead n notification) status, onlyIf_pos ⟨rfl, undecided⟩, ?_⟩
  have looked : ∀ s : Phase, s.undecided = true →
      Obeys (decisionNext id n value) s
        (.op (.gate (.contains id)) fun found => if found then .pure .pending else .pure .missing)
        Seen := by
    intro s hs found
    cases found with
    | true => exact ⟨.cleared, onlyIf_pos ⟨rfl, hs⟩, rfl⟩
    | false => exact ⟨s, onlyIf_pos ⟨rfl, hs⟩, hs⟩
  cases notification with
  | none =>
    cases status with
    | none => exact looked .idle rfl
    | some status => cases status <;> rfl
  | some entry =>
    obtain ⟨m, active, reason, updated⟩ := entry
    cases active with
    | false =>
      cases status with
      | none => rfl
      | some status => cases status <;> rfl
    | true =>
      by_cases same : m = n
      · cases status with
        | none =>
          simp only [ret_bind, afterStatus, afterRead, same]
          simpa [gate] using looked .cleared rfl
        | some status => cases status <;> simp [afterStatus, afterRead, same, Obeys, Seen]
      · cases status with
        | none => simp [afterStatus, afterRead, same, Obeys, Seen, Phase.undecided]
        | some status =>
          cases status <;> simp [afterStatus, afterRead, same, Obeys, Seen, Phase.undecided]

private theorem decidePendingTransfer_obeys (missing lost : Except String Unit)
    (refuses : value = true → missing ≠ .ok () ∧ lost ≠ .ok ()) :
    Obeys (decisionNext id n value) .idle (decidePendingTransfer value missing lost id n)
      (decisionMayReturn value) := by
  have failing {s : Phase} {e : String} (h : s.isHolding = false) :
      decisionMayReturn value s (.error e) := ⟨h, fun _ wrong => by cases wrong⟩
  have idle_of_undecided {s : Phase} (h : s.undecided = true) : s.isHolding = false := by
    cases s with
    | idle | cleared | expired => rfl
    | _ => cases h
  refine (incomingRequestActionState_obeys id n value).bind fun s seen hs => ?_
  cases seen with
  | expired =>
    obtain rfl : s = .expired := hs
    refine fun _ => ⟨_, onlyIf_pos ⟨rfl, rfl⟩, fun _ => ⟨_, onlyIf_pos ⟨rfl, .inl rfl⟩, ?_⟩⟩
    exact failing rfl
  | staleNotification => exact failing (idle_of_undecided hs)
  | missing => exact ⟨idle_of_undecided hs, fun h same => absurd same (refuses h).1⟩
  | pending =>
    obtain rfl : s = .cleared := hs
    refine fun taken => ⟨_, onlyIf_pos ⟨rfl, rfl⟩, ?_⟩
    cases taken with
    | some c =>
      refine fun _ => ⟨.holding c, onlyIf_pos ⟨rfl, .inr rfl⟩, fun _ => ?_⟩
      exact ⟨.released c, onlyIf_pos ⟨rfl, rfl⟩, rfl, fun _ _ => ⟨c, rfl⟩⟩
    | none =>
      refine (incomingRequestActionState_obeys id n value).bind fun s seen hs => ?_
      cases seen with
      | expired =>
        obtain rfl : s = .expired := hs
        exact fun _ => ⟨_, onlyIf_pos ⟨rfl, .inl rfl⟩, failing rfl⟩
      | staleNotification => exact failing (idle_of_undecided hs)
      | missing => exact ⟨idle_of_undecided hs, fun h same => absurd same (refuses h).2⟩
      | pending =>
        obtain rfl : s = .cleared := hs
        exact ⟨rfl, fun h same => absurd same (refuses h).2⟩

private theorem cancelTask_obeys (s : Phase) (hasHost : Bool) :
    Obeys (cancelNext id) s (cancelTask id hasHost) fun _ _ => True := by
  intro found
  refine ⟨s, onlyIf_pos rfl, ?_⟩
  match found with
  | none => trivial
  | some (record, none) => exact fun _ => ⟨s, onlyIf_pos rfl, trivial⟩
  | some (record, some conn) =>
    exact fun _ => ⟨s, rfl, fun _ => ⟨s, rfl, fun _ => ⟨s, onlyIf_pos rfl, trivial⟩⟩⟩

private theorem cancelTransfer_obeys (hasHost : Bool) :
    Obeys (cancelNext id) .idle (cancelTransfer id hasHost) fun _ _ => True := by
  have inner : Obeys (cancelNext id) .idle (cancelTransferInner id hasHost) fun _ _ => True := by
    refine fun taken => ⟨_, onlyIf_pos ⟨rfl, rfl⟩, ?_⟩
    cases taken with
    | none => exact cancelTask_obeys id _ hasHost
    | some c =>
      refine fun _ => ⟨.holding c, onlyIf_pos ⟨rfl, rfl⟩, fun _ => ⟨.released c, ?_, ?_⟩⟩
      · exact onlyIf_pos ⟨rfl, rfl⟩
      · exact cancelTask_obeys id _ hasHost
  refine inner.bind fun s found _ => ?_
  cases found <;> trivial

end Actions

private theorem ensureAll_obeys (pending inactive : List String) :
    ∀ ids : List String, (∀ y ∈ ids, y ∈ pending) →
      Obeys maintenanceNext (.sweeping pending inactive) (ensureAll ids)
        fun s _ => s = .sweeping pending inactive := by
  intro ids
  induction ids with
  | nil => exact fun _ => rfl
  | cons y ids ih =>
    intro inside r
    have here : y ∈ pending := inside y List.mem_cons_self
    exact ⟨_, onlyIf_pos (by simpa [Phase.sweeps] using here),
      ih fun z hz => inside z (List.mem_cons_of_mem y hz)⟩

private theorem markAllInactive_obeys (inactive : List String) :
    ∀ es : List (String × Option String), (∀ e ∈ es, e.1 ∈ inactive) →
      Obeys maintenanceNext (.marking inactive) (markAllInactive es)
        fun s _ => s.isResting = true := by
  intro es
  induction es with
  | nil => exact fun _ => rfl
  | cons e es ih =>
    intro inside r
    have here : e.1 ∈ inactive := inside e List.mem_cons_self
    exact ⟨_, onlyIf_pos (by simpa [Phase.marks] using here),
      ih fun z hz => inside z (List.mem_cons_of_mem e hz)⟩

private theorem maintenanceLoop_obeys (ticks : ℕ) {s : Phase} (resting : s.isResting = true) :
    Obeys maintenanceNext s (maintenanceLoop ticks) fun _ _ => True := by
  induction ticks generalizing s with
  | zero => trivial
  | succ ticks ih =>
    have pass : Obeys maintenanceNext s maintenancePass fun s _ => s.isResting = true := by
      refine fun states => ⟨_, onlyIf_pos resting, ?_⟩
      refine (ensureAll_obeys _ _ _ fun _ h => h).bind ?_
      rintro _ _ rfl
      refine fun _ => ⟨_, if_pos rfl, markAllInactive_obeys _ _ fun e he => ?_⟩
      exact List.mem_map_of_mem he
    exact pass.bind fun s _ hs => ih hs

private theorem sendFiles_obeys (debug : DashMessage → String) (r : SendRequest)
    (steps retrySteps : List StreamStep) :
    Obeys (sendNext r) .idle (sendFiles debug r steps retrySteps) fun _ _ => True := by
  have env_stays (e : EnvOp) (he : silent e) (a : e.Resp) :
      sendNext r .idle (.env e) a = some .idle := by
    cases e with
    | emit event => exact onlyIf_pos (isIncoming_of_silent he)
    | _ => rfl
  refine (Obeys.stay (sendFiles_within debug r steps retrySteps) fun op hop a => ?_).mono
    fun _ _ _ => trivial
  cases op with
  | task u =>
    rcases hop with ⟨c, h | h⟩ | h | h | ⟨items, c, now, name, h⟩
    · cases u <;> first | exact h.elim | exact onlyIf_pos (congrArg some h)
    · cases u <;> first | exact h.elim | exact onlyIf_pos (congrArg some h)
    · cases u <;> first | exact h.elim | exact onlyIf_pos (congrArg some h)
    · exact h.elim
    · cases h
      exact onlyIf_pos rfl
  | net => rfl
  | env e =>
    rcases hop with ⟨c, h | h⟩ | h | h | ⟨items, c, now, name, h⟩
    · exact env_stays e h a
    · exact h.elim
    · exact env_stays e h a
    · exact env_stays e h a
    · cases h
  | note | gate | fs =>
    rcases hop with ⟨c, h | h⟩ | h | h | ⟨items, c, now, name, h⟩
    all_goals first | exact h.elim | cases h

theorem party_obeys (debug : DashMessage → String) (party : Party) :
    Obeys (Party.next party) .idle (party.prog debug) (Party.mayReturn party) := by
  cases party with
  | offer o => exact handleOffer_obeys o
  | accept id n =>
    exact decidePendingTransfer_obeys id n true _ _ fun _ => ⟨by simp, by simp⟩
  | reject id n =>
    exact decidePendingTransfer_obeys id n false _ _ fun h => absurd h Bool.false_ne_true
  | cancel id hasHost => exact cancelTransfer_obeys id hasHost
  | maintenance ticks => exact (maintenanceLoop_obeys ticks rfl).bind fun _ _ _ => trivial
  | cleanup ticks =>
    have loop : Obeys cleanupNext .idle (cleanupLoop ticks) fun _ _ => True := by
      induction ticks with
      | zero => trivial
      | succ ticks ih => exact fun _ => ⟨.idle, rfl, ih⟩
    exact loop.bind fun _ _ _ => trivial
  | send r steps retrySteps => exact sendFiles_obeys debug r steps retrySteps

def moves (parties : List Party) (i : ℕ) : Automaton Op Op.Resp Phase := fun s o r =>
  (parties[i]?).bind fun party => Party.next party s o r

def mayReturn (parties : List Party) (i : ℕ) (s : Phase) (a : Except String Unit) : Prop :=
  ∀ party, parties[i]? = some party → Party.mayReturn party s a

theorem pool_tracked (debug : DashMessage → String) (w : World) (parties : List Party) :
    Tracked (moves parties) (mayReturn parties) (fun _ => .idle)
      (pool debug w parties).threads := by
  intro i x here
  obtain ⟨party, found, rfl⟩ := pool_thread here
  have same : moves parties i = Party.next party := by
    funext s o r
    simp [moves, found]
  rw [same]
  refine (party_obeys debug party).mono fun s a h party' found' => ?_
  cases found.symm.trans found'
  exact h

end DashDrop.Receiving.Phases
