/- GID: DashDrop/Lifecycle/Revisions
   source: src-tauri/src/transport/sender.rs, src-tauri/src/transport/receiver.rs,
     src-tauri/src/core_service.rs, src/store.ts
   anchors: []
   digest: When the revision of a transfer is a clock for its status and for the events about it. -/

import DashDrop.Foundation.Discipline
import DashDrop.Runtime.Effects
import DashDrop.Runtime.Footprint

set_option autoImplicit false
set_option relaxedAutoImplicit false

namespace DashDrop.Lifecycle.Revisions

open DashDrop.Foundation.Program DashDrop.Foundation.Interleaving DashDrop.Foundation.Discipline
open DashDrop.Foundation.UnixPath DashDrop.Foundation.FileTree
open DashDrop.Transport.Protocol DashDrop.Transport.Outcome
open DashDrop.Transport.Sender DashDrop.Transport.Receiver
open DashDrop.Runtime.State DashDrop.Runtime.Machine DashDrop.Runtime.Effects
open DashDrop.Runtime.Footprint DashDrop.Runtime.Supervisor DashDrop.CoreService

/-- The transfer, the status and the revision that an event tells the user interface. -/
def tells : HostEvent → Option (String × TransferStatus × ℕ)
  | .transferStarted id _ _ _ _ revision => some (id, .pendingAccept, revision)
  | .transferIncoming id _ _ _ _ _ _ revision => some (id, .pendingAccept, revision)
  | .transferAccepted id revision => some (id, .transferring, revision)
  | .transferComplete id revision => some (id, .completed, revision)
  | .transferPartly id _ _ revision => some (id, .partialCompleted, revision)
  | .transferTerminal id status _ _ revision _ => some (id, status, revision)
  | .transferProgress _ _ _ _ | .transferError _ _ _ _ _ _ | .identityMismatch _ _ _ => none

/-- The later task has at least the revision of the earlier one, and a larger one if the status
is another. -/
def Ticks (a b : TransferTask) : Prop :=
  a.revision ≤ b.revision ∧ (a.status ≠ b.status → a.revision < b.revision)

/-- Events with one revision tell one status. -/
def Consistent (id : String) (journal : List Event) : Prop :=
  ∀ i j e e' status status' revision, .emitted i e ∈ journal → .emitted j e' ∈ journal →
    tells e = some (id, status, revision) → tells e' = some (id, status', revision) →
    status = status'

def movedTo (i : ℕ) (id : String) : Event → Option TransferStatus
  | .moved j y status => if j = i ∧ y = id then some status else none
  | _ => none

/-- The status that a thread has set last by `update_transfer_status`. -/
def lastMoved (i : ℕ) (id : String) (journal : List Event) : Option TransferStatus :=
  (journal.filterMap (movedTo i id)).getLast?

/-- What a thread reports that has set no status so: an offer that it waits for the user, and the
error path of a send that it failed. -/
def opening : TransferDirection → TransferStatus
  | .receive => .pendingAccept
  | .send => .failed

def waits (direction : TransferDirection) (t : TransferTask) : Prop :=
  t.status = .pendingAccept ∧ t.revision = 0 ∧ t.direction = direction

/-- The id is registered once, or again by the same side while its task waits for its first answer;
a status is set, and a revision read for a report, while the task is there; and the thread that
reads it has registered the transfer and finds the status that it is going to report. -/
def Current (id : String) : Guard Op World Ans := fun i o _ w =>
  match o with
  | .task (.insert t) => t.id = id → (∀ j, .registered j id ∉ w.journal) ∨
      ∃ s, w.transfers.lookup id = some s ∧ waits t.direction s
  | .task (.updateStatus y _ _) | .task (.sendTransferring y) =>
      y = id → (w.transfers.lookup id).isSome
  | .task (.revision y) => y = id → .registered i id ∈ w.journal ∧
      ∃ t, w.transfers.lookup id = some t ∧
        t.status = (lastMoved i id w.journal).getD (opening t.direction)
  | _ => True

variable {i : ℕ} {id : String} {w w' : World} {x : Ans} {o : Op} {r : o.Resp}

def noEntry (id : String) : Op → Prop
  | .task (.insert t) => t.id ≠ id
  | _ => True

/-- A step leaves status and revision of the task or removes it, counts the revision up by one, or
registers the task. -/
inductive Tick (id : String) (w w' : World) : Op → Prop
  | keep {o : Op} (other : noEntry id o) (same : ∀ t', w'.transfers.lookup id = some t' →
      ∃ t, w.transfers.lookup id = some t ∧ t'.status = t.status ∧ t'.revision = t.revision ∧
        t'.direction = t.direction) : Tick id w w' o
  | count {o : Op} {t t' : TransferTask} (other : noEntry id o)
      (before : w.transfers.lookup id = some t) (after : w'.transfers.lookup id = some t')
      (next : t'.revision = t.revision + 1) (side : t'.direction = t.direction) : Tick id w w' o
  | register {t : TransferTask} (own : t.id = id) (after : w'.transfers.lookup id = some t) :
      Tick id w w' (.task (.insert t))

private theorem tick_of_untouched (other : noEntry id o)
    (same : w'.transfers.lookup id = w.transfers.lookup id) : Tick id w w' o :=
  .keep other fun t' found => ⟨t', same ▸ found, rfl, rfl, rfl⟩

private theorem tick_of_update {y : String} {f : TransferTask → TransferTask} (other : noEntry id o)
    (effect : w'.transfers.lookup id =
      if id = y then (w.transfers.lookup id).map f else w.transfers.lookup id)
    (update : ∀ t, (f t).direction = t.direction ∧
      ((f t).status = t.status ∧ (f t).revision = t.revision ∨
        (f t).revision = t.revision + 1)) : Tick id w w' o := by
  split_ifs at effect with h
  · cases found : w.transfers.lookup id with
    | none =>
      rw [found] at effect
      exact tick_of_untouched other (effect.trans found.symm)
    | some t =>
      rw [found] at effect
      obtain ⟨side, ⟨status, revision⟩ | next⟩ := update t
      · refine .keep other fun t' found' => ⟨t, found, ?_⟩
        rw [effect] at found'
        cases found'
        exact ⟨status, revision, side⟩
      · exact .count other found effect next side
  · exact tick_of_untouched other effect

theorem tick_of_exec (id : String) (done : exec i o x w = some (w', r)) : Tick id w w' o := by
  have effect := exec_lookup_task done id
  cases o with
  | task u =>
    cases u with
    | insert t =>
      simp only [onTask, taskEffect] at effect
      split_ifs at effect with h
      · exact .register h.symm effect
      · exact tick_of_untouched (Ne.symm h) effect
    | cleanup =>
      refine .keep trivial fun t' found => ⟨t', ?_, rfl, rfl, rfl⟩
      rw [effect] at found
      exact (Option.filter_eq_some_iff.mp found).1
    | revision | status | snapshot | record => exact tick_of_untouched trivial effect
    | setError y text => exact tick_of_update trivial effect fun t => ⟨rfl, .inl ⟨rfl, rfl⟩⟩
    | addBytes y n => exact tick_of_update trivial effect fun t => ⟨rfl, .inl ⟨rfl, rfl⟩⟩
    | updateStatus y status reason =>
      refine tick_of_update trivial effect fun t => ⟨rfl, ?_⟩
      by_cases h : t.status = status
      · exact .inl ⟨by simp [applyStatus, h], by simp [applyStatus, h]⟩
      · exact .inr (by simp [applyStatus, h])
    | cancel y hasHost =>
      refine tick_of_update trivial effect fun t => ⟨rfl, ?_⟩
      by_cases h : t.status = cancelStatus t.direction
      · exact .inl ⟨by simp [applyCancel, h], by simp [applyCancel, h]⟩
      · exact .inr (by simp [applyCancel, h])
    | sendRejected y reason => exact tick_of_update trivial effect fun t => ⟨rfl, .inr rfl⟩
    | sendTimedOut y => exact tick_of_update trivial effect fun t => ⟨rfl, .inr rfl⟩
    | sendTransferring y => exact tick_of_update trivial effect fun t => ⟨rfl, .inr rfl⟩
    | sendFinished y outcome n => exact tick_of_update trivial effect fun t => ⟨rfl, .inr rfl⟩
    | sendErrored y reasonCode detail =>
      refine tick_of_update trivial effect fun t => ?_
      unfold applyErrored
      split_ifs
      · exact ⟨rfl, .inl ⟨rfl, rfl⟩⟩
      · exact ⟨rfl, .inr rfl⟩
  | note | gate | net | env | fs => exact tick_of_untouched trivial effect

/-- The transfer was registered, and what is stored of it comes after `a`. -/
def After (id : String) (a : TransferTask) (w : World) : Prop :=
  (∃ j, .registered j id ∈ w.journal) ∧ ∀ b, w.transfers.lookup id = some b → Ticks a b

theorem after_step {a : TransferTask} (allowed : Current id i o x w)
    (inserts : ∀ t, o = .task (.insert t) → t.status = .pendingAccept ∧ t.revision = 0)
    (done : exec i o x w = some (w', r)) (h : After id a w) : After id a w' := by
  obtain ⟨⟨j, known⟩, later⟩ := h
  refine ⟨⟨j, mem_journal_mono done known⟩, ?_⟩
  intro b found
  cases tick_of_exec id done with
  | keep other same =>
    obtain ⟨t, before, status, revision, -⟩ := same b found
    obtain ⟨le, lt⟩ := later t before
    rw [Ticks, status, revision]
    exact ⟨le, lt⟩
  | count other before after next side =>
    obtain ⟨le, -⟩ := later _ before
    cases after.symm.trans found
    have : a.revision < b.revision := by omega
    exact ⟨this.le, fun _ => this⟩
  | @register t own after =>
    cases after.symm.trans found
    obtain fresh | ⟨s, before, pending, zero, -⟩ := allowed own
    · exact absurd known (fresh j)
    · obtain ⟨status, revision⟩ := inserts b rfl
      have earlier := later s before
      rw [Ticks, pending, zero] at earlier
      rw [Ticks, status, revision]
      exact earlier

/-- What a thread has done to the transfer and what it holds for its next report. -/
structure Knows where
  entered : Bool
  last : Option TransferStatus
  hand : Option (TransferStatus × ℕ)
  /-- An update has not found the task. -/
  lost : Bool

def Knows.nothing : Knows := ⟨false, none, none, false⟩

def Knows.vouches (φ : Knows) (status : TransferStatus) (revision : ℕ) : Bool :=
  φ.lost || φ.hand = some (status, revision) ||
    φ.entered && status = .pendingAccept && revision = 0

section Programs

variable (id : String) (role : TransferDirection)

def learn (φ : Knows) : (o : Op) → o.Resp → Knows
  | .task (.insert t), _ => if t.id = id then { φ with entered := true } else φ
  | .task (.updateStatus y status _), some update =>
      if y = id then { φ with last := some status, hand := some (status, update.revision) } else φ
  | .task (.updateStatus y _ _), none => if y = id then { φ with lost := true } else φ
  | .task (.revision y), revision =>
      if y = id then { φ with hand := some (φ.last.getD (opening role), revision) } else φ
  | .task (.sendTransferring y), revision =>
      if y = id then { φ with hand := some (.transferring, revision) } else φ
  | _, _ => φ

/-- A new task waits for an answer at revision 0, and an event tells what the thread holds. -/
def mayDo (φ : Knows) : Op → Bool
  | .task (.insert t) =>
      t.id ≠ id || t.status = .pendingAccept && t.revision = 0 && t.direction = role
  | .env (.emit e) =>
      match tells e with
      | some (y, status, revision) => y ≠ id || φ.vouches status revision
      | none => true
  | _ => true

def reporting : Automaton Op Op.Resp Knows := fun φ o r =>
  if mayDo id role φ o then some (learn id role φ o r) else none

variable {id role} {α β : Type} {φ : Knows} {fin : Knows → α → Prop}

theorem obeys_op {o : Op} {k : o.Resp → Code α} (may : mayDo id role φ o = true)
    (rest : ∀ r, Obeys (reporting id role) (learn id role φ o r) (k r) fin) :
    Obeys (reporting id role) φ (.op o k) fin :=
  fun r => ⟨learn id role φ o r, by simp [reporting, may], rest r⟩

def mute : Op → Prop
  | .task (.addBytes _ _) | .task (.setError _ _) | .task (.record _ _) | .task (.status _)
  | .task (.cancel _ _) | .task .snapshot | .task .cleanup => True
  | .task _ => False
  | .env (.emit e) => tells e = none
  | _ => True

theorem obeys_mute {p : Code α} {q : α → Prop} (within : p.Within mute q) :
    Obeys (reporting id role) φ p fun φ' a => φ' = φ ∧ q a := by
  refine Obeys.stay within fun o ho r => ?_
  cases o with
  | task u =>
    cases u with
    | insert | updateStatus | revision | sendTransferring | sendRejected | sendTimedOut
    | sendFinished | sendErrored => exact ho.elim
    | _ => rfl
  | env e =>
    cases e with
    | emit event =>
      have silent : tells event = none := ho
      simp [reporting, mayDo, learn, silent]
    | _ => rfl
  | note | gate | net | fs => rfl

theorem vouches_hand {status : TransferStatus} {revision : ℕ}
    (h : φ.lost = true ∨ φ.hand = some (status, revision)) : φ.vouches status revision = true := by
  obtain h | h := h <;> simp [Knows.vouches, h]

theorem mayDo_emit {e : HostEvent} {y : String} {status : TransferStatus} {revision : ℕ}
    (told : tells e = some (y, status, revision))
    (vouched : y = id → φ.vouches status revision = true) :
    mayDo id role φ (.env (.emit e)) = true := by
  by_cases own : y = id
  · simp [mayDo, told, vouched own]
  · simp [mayDo, told, own]

/-- After an update of the status: the thread holds it, or the task was gone. -/
def Updated (id y : String) (status : TransferStatus) (φ : Knows) (answer : Option ℕ) : Prop :=
  y = id → φ.lost = true ∨ φ.last = some status ∧
    ∃ revision, answer = some revision ∧ φ.hand = some (status, revision)

theorem updateTransferStatus_obeys (y : String) (status : TransferStatus)
    (reason : Option String) :
    Obeys (reporting id role) φ (updateTransferStatus y status reason) (Updated id y status) := by
  refine obeys_op rfl fun r => ?_
  cases r with
  | none => exact fun own => .inl (by simp [learn, own])
  | some u =>
    have marks : (markIfSome y u.notify).Within mute anything := by
      cases u.notify with
      | none => trivial
      | some reason => exact ⟨trivial, fun _ => trivial⟩
    have records : (recordIfSome y u.record).Within mute anything := by
      cases u.record with
      | none => trivial
      | some record => exact ⟨trivial, fun _ => trivial⟩
    refine (obeys_mute marks).bind ?_
    rintro _ _ ⟨rfl, -⟩
    refine (obeys_mute records).bind ?_
    rintro _ _ ⟨rfl, -⟩ own
    exact .inr ⟨by simp [learn, own], u.revision, rfl, by simp [learn, own]⟩

theorem report_obeys {y : String} {status : TransferStatus} (event : ℕ → HostEvent)
    {k : ℕ → Unit → Code α} (told : ∀ revision, tells (event revision) = some (y, status, revision))
    (known : y = id → φ.lost = true ∨ φ.last.getD (opening role) = status)
    (rest : ∀ φ' revision, Obeys (reporting id role) φ' (k revision ()) fin) :
    Obeys (reporting id role) φ (.op (.task (.revision y)) fun revision =>
      .op (.env (.emit (event revision))) (k revision)) fin := by
  refine obeys_op rfl fun revision => obeys_op ?_ fun _ => rest _ revision
  refine mayDo_emit (told revision) fun own => vouches_hand ?_
  obtain gone | last := known own
  · exact .inl (by simpa [learn, own] using gone)
  · exact .inr (by simp [learn, own, last])

theorem Updated.known {y : String} {status : TransferStatus} {answer : Option ℕ}
    (h : Updated id y status φ answer) (own : y = id) :
    φ.lost = true ∨ φ.last.getD (opening role) = status := by
  obtain gone | ⟨last, -⟩ := h own
  · exact .inl gone
  · exact .inr (by simp [last])

theorem emitTransferTerminal_obeys {y : String} {status : TransferStatus} (code cause phase : String)
    (known : y = id → φ.lost = true ∨ φ.last.getD (opening role) = status) :
    Obeys (reporting id role) φ (emitTransferTerminal y status code cause phase)
      fun _ _ => True :=
  report_obeys (fun revision => .transferTerminal y status code cause revision (some phase))
    (fun _ => rfl) known fun _ _ => trivial

theorem emitTransferError_obeys (y code cause phase detail : String) :
    Obeys (reporting id role) φ (emitTransferError y code cause phase detail)
      fun _ _ => True :=
  obeys_op rfl fun _ => obeys_op rfl fun _ => trivial

theorem rejectForSpace_obeys (q : IncomingOffer) :
    Obeys (reporting id role) φ (rejectForSpace q) fun _ _ => True := by
  refine obeys_op rfl fun wrote => ?_
  cases wrote with
  | error f => trivial
  | ok _ =>
    refine (updateTransferStatus_obeys q.id .failed _).bind fun φ' answer updated => ?_
    refine obeys_op rfl fun _ => ?_
    refine (emitTransferTerminal_obeys _ _ _ updated.known).bind fun _ _ _ => ?_
    trivial

theorem rejectOffer_obeys (q : IncomingOffer) (isTimeout : Bool) :
    Obeys (reporting id role) φ (rejectOffer q isTimeout) fun _ _ => True := by
  refine obeys_op rfl fun wrote => ?_
  cases wrote with
  | error f => trivial
  | ok _ =>
    refine (updateTransferStatus_obeys q.id .rejected _).bind fun φ' answer updated => ?_
    refine (emitTransferTerminal_obeys _ _ _ updated.known).bind fun _ _ _ => ?_
    trivial

theorem failSetup_obeys (q : IncomingOffer) (e : IoError) :
    Obeys (reporting id role) φ (failSetup q e) fun _ _ => True := by
  refine obeys_op rfl fun _ => ?_
  refine (updateTransferStatus_obeys q.id .failed _).bind fun φ' answer updated => ?_
  refine (emitTransferTerminal_obeys _ _ _ updated.known).bind fun _ _ _ => ?_
  exact emitTransferError_obeys _ _ _ _ _

theorem finishReceive_obeys (q : IncomingOffer) (outcome : TransferOutcome) :
    Obeys (reporting id role) φ (finishReceive q outcome) fun _ _ => True := by
  cases outcome with
  | success =>
    refine (updateTransferStatus_obeys q.id .completed _).bind fun φ' answer updated => ?_
    exact report_obeys (fun revision => .transferComplete q.id revision) (fun _ => rfl)
      updated.known fun _ _ => trivial
  | partialSuccess failed =>
    refine (updateTransferStatus_obeys q.id .partialCompleted _).bind fun φ' answer updated => ?_
    exact report_obeys
      (fun revision => .transferPartly q.id (q.offer.items.length - failed.length) failed revision)
      (fun _ => rfl) updated.known fun _ _ => trivial
  | failed e =>
    refine (updateTransferStatus_obeys q.id .failed _).bind fun φ' answer updated => ?_
    refine (emitTransferTerminal_obeys _ _ _ updated.known).bind fun _ _ _ => ?_
    exact emitTransferError_obeys _ _ _ _ _
  | cancelledBySender =>
    refine (updateTransferStatus_obeys q.id .cancelledBySender _).bind fun φ' answer updated => ?_
    exact emitTransferTerminal_obeys _ _ _ updated.known
  | cancelledByReceiver =>
    refine (updateTransferStatus_obeys q.id .cancelledByReceiver _).bind
      fun φ' answer updated => ?_
    exact emitTransferTerminal_obeys _ _ _ updated.known

theorem addProgressAll_mute (y : String) (ns : List ℕ) :
    (addProgressAll y ns).Within mute anything := by
  induction ns with
  | nil => trivial
  | cons n ns ih =>
    have counts : (addProgress y n).Within mute anything := by
      refine ⟨trivial, fun r => ?_⟩
      cases r with
      | none => trivial
      | some p => exact ⟨rfl, fun _ => trivial⟩
    exact counts.bind fun _ _ => ih

theorem receiveFiles_mute (q : IncomingOffer) : (receiveFiles q).Within mute anything :=
  (addProgressAll_mute q.id q.progress).bind fun _ _ => ⟨trivial, fun _ => trivial⟩

theorem acceptOffer_obeys (q : IncomingOffer) (saveRoot : PathBuf) :
    Obeys (reporting id role) φ (acceptOffer q saveRoot) fun _ _ => True := by
  refine (updateTransferStatus_obeys q.id .transferring _).bind fun φ' answer updated => ?_
  refine obeys_op ?_ fun _ => obeys_op rfl fun config => ?_
  · refine mayDo_emit rfl fun own => vouches_hand ?_
    obtain gone | ⟨-, revision, rfl, hand⟩ := updated own
    · exact .inl gone
    · exact .inr hand
  · have files : (resumeOffsets config.fileConflictStrategy saveRoot q.offer.items).Within mute
        anything := by
      refine (resumeOffsets_within _ saveRoot _).mono (fun o ho => ?_) fun _ h => h
      cases o with
      | fs g => trivial
      | _ => exact ho.elim
    refine (obeys_mute files).bind fun _ offsets _ => obeys_op rfl fun wrote => ?_
    cases wrote with
    | error f => trivial
    | ok _ =>
      refine obeys_op rfl fun made => ?_
      cases made with
      | error e => exact (failSetup_obeys q e).bind fun _ _ _ => trivial
      | ok _ =>
        refine (obeys_mute (receiveFiles_mute q)).bind fun _ outcome _ => ?_
        exact (finishReceive_obeys q outcome).bind fun _ _ _ => trivial

theorem decideOffer_obeys (q : IncomingOffer) (untouched : φ.last = none) :
    Obeys (reporting id .receive) φ (decideOffer q) fun _ _ => True := by
  refine obeys_op rfl fun trusted => obeys_op rfl fun notificationId => ?_
  refine report_obeys (fun revision => .transferIncoming q.id notificationId q.offer.senderName
    q.peerFp trusted q.offer.items q.offer.totalSize revision) (fun _ => rfl)
    (fun _ => .inr (by simp [learn, untouched, opening])) fun φ' revision => ?_
  refine obeys_op rfl fun config => ?_
  simp only [ret_bind]
  split_ifs
  · trivial
  · refine obeys_op rfl fun _ => obeys_op rfl fun chan => obeys_op rfl fun heard => ?_
    cases heard <;> trivial

theorem handleOffer_obeys (q : IncomingOffer) :
    Obeys (reporting id .receive) .nothing (handleOffer q) fun _ _ => True := by
  refine obeys_op rfl fun now => obeys_op ?_ fun _ => ?_
  · simp [mayDo, IncomingOffer.newTask]
  · refine obeys_op rfl fun config => obeys_op rfl fun dirs => obeys_op rfl fun disks => ?_
    simp only [ret_bind]
    split_ifs
    · refine (decideOffer_obeys q ?_).bind fun _ decision _ => ?_
      · simp only [learn]
        split_ifs <;> rfl
      · obtain ⟨userAccepted, isTimeout⟩ := decision
        cases userAccepted with
        | true => exact acceptOffer_obeys q _
        | false => exact rejectOffer_obeys q isTimeout
    · exact rejectForSpace_obeys q

theorem doHelloAsInitiator_mute (debug : DashMessage → String) (conn : ℕ) (y : String) :
    (doHelloAsInitiator debug conn y).Within mute anything := by
  refine ⟨trivial, fun opened => ?_⟩
  cases opened with
  | error => trivial
  | ok =>
    refine ⟨trivial, fun wrote => ?_⟩
    cases wrote with
    | error => trivial
    | ok =>
      refine ⟨trivial, fun read => ?_⟩
      simp only [ret_bind]
      split
      · trivial
      · split_ifs
        · trivial
        · split <;> trivial
      · trivial

theorem streamFiles_mute (conn : ℕ) (y : String) (steps : List StreamStep) :
    (streamFiles conn y steps).Within mute anything := by
  induction steps with
  | nil => trivial
  | cons step steps ih =>
    cases step with
    | resumed n => exact ⟨trivial, fun _ => ⟨rfl, fun _ => ih⟩⟩
    | write m =>
      refine ⟨trivial, fun r => ?_⟩
      simp only [ret_bind]
      split
      · refine ⟨trivial, fun r => ?_⟩
        cases r with
        | none => exact ih
        | some p => exact ⟨rfl, fun _ => ih⟩
      · exact ih

theorem connectFirst_mute (addrs errors : List String) :
    (connectFirst addrs errors).Within mute anything := by
  induction addrs generalizing errors with
  | nil => trivial
  | cons addr rest ih =>
    refine ⟨trivial, fun answer => ?_⟩
    cases answer with
    | ok conn => trivial
    | error cause => exact ih _

theorem reconnectToPeerByBestAddrs_mute (peerFp : String) :
    (reconnectToPeerByBestAddrs peerFp).Within mute anything := by
  refine ⟨trivial, fun best => ?_⟩
  simp only [ret_bind]
  split
  · trivial
  · trivial
  · refine (connectFirst_mute _ []).bind fun found _ => ?_
    cases found with
    | ok conn => trivial
    | error errors => cases errors <;> trivial

/-- A send sets no status by `update_transfer_status`. -/
def NoneSet {α : Type} (φ : Knows) (_ : α) : Prop := φ.last = none

theorem recordIfSome_obeys (y : String) (record : Option TerminalRecord) :
    Obeys (reporting id role) φ (recordIfSome y record) fun φ' _ => φ' = φ := by
  cases record with
  | none => rfl
  | some record => exact obeys_op rfl fun _ => rfl

theorem streamAndFinish_obeys (y : String) (conn : ℕ) (items : List FileItem)
    (steps : List StreamStep) (none : φ.last = none) :
    Obeys (reporting id .send) φ (streamAndFinish y conn items steps) NoneSet := by
  refine obeys_op rfl fun revision => obeys_op ?_ fun _ => ?_
  · exact mayDo_emit rfl fun own => vouches_hand (.inr (by simp [learn, own]))
  · refine (obeys_mute (streamFiles_mute conn y steps)).bind ?_
    rintro _ _ ⟨rfl, -⟩
    refine obeys_op rfl fun joined => obeys_op rfl fun record => ?_
    refine (recordIfSome_obeys y record).bind ?_
    rintro _ _ rfl
    simp only [learn]
    split_ifs <;> exact none

theorem awaitAnswer_obeys (debug : DashMessage → String) (y : String) (conn version : ℕ)
    (items : List FileItem) (steps : List StreamStep) (none : φ.last = none) :
    Obeys (reporting id .send) φ (awaitAnswer debug y conn version items steps) NoneSet := by
  refine obeys_op rfl fun answer => ?_
  simp only [ret_bind]
  split
  · split_ifs
    · exact none
    · exact (streamAndFinish_obeys y conn items steps none).bind fun _ _ kept => kept
  · refine obeys_op rfl fun record => ?_
    refine (recordIfSome_obeys y record).bind ?_
    rintro _ _ rfl
    exact none
  · exact none
  · exact obeys_op rfl fun _ => none
  · refine obeys_op rfl fun record => ?_
    refine (recordIfSome_obeys y record).bind ?_
    rintro _ _ rfl
    exact none

theorem transportSendFiles_obeys (debug : DashMessage → String) (q : SendRequest) (conn : ℕ)
    (steps : List StreamStep) (none : φ.last = none) :
    Obeys (reporting id .send) φ (transportSendFiles debug q conn steps) NoneSet := by
  refine obeys_op rfl fun built => ?_
  simp only [ret_bind]
  split
  · exact none
  · exact none
  · rename_i itemsWithPaths _
    refine obeys_op rfl fun now => obeys_op rfl fun name => obeys_op ?_ fun _ => ?_
    · simp [mayDo, SendRequest.newTask]
    · have entered : (learn id .send φ (.task (.insert
          (q.newTask itemsWithPaths conn now (name.getD "Unknown")))) ()).last = Option.none := by
        simp only [learn]
        split_ifs <;> exact none
      refine (obeys_mute (doHelloAsInitiator_mute debug conn q.transferId)).bind ?_
      rintro _ version ⟨rfl, -⟩
      cases version with
      | error => exact entered
      | ok version =>
        refine obeys_op rfl fun config => obeys_op rfl fun wrote => ?_
        cases wrote with
        | error => exact entered
        | ok =>
          refine obeys_op ?_ fun _ => awaitAnswer_obeys debug _ conn _ _ _ entered
          refine mayDo_emit rfl fun own => ?_
          simp [learn, SendRequest.newTask, own, Knows.vouches]

theorem giveUp_obeys (y detail : String) (none : φ.last = none) :
    Obeys (reporting id .send) φ (giveUp y detail) fun _ _ => True := by
  refine obeys_op rfl fun _ => ?_
  refine report_obeys (fun revision => .transferTerminal y .failed
    (classifyRuntimeSendError detail).1 (classifyRuntimeSendError detail).2 revision (some "send"))
    (fun _ => rfl) (fun _ => .inr ?_) fun φ' revision => obeys_op rfl fun _ => trivial
  simp [learn, none, opening]

theorem sendTask_obeys (debug : DashMessage → String) (q : SendRequest) (conn : ℕ)
    (steps retrySteps : List StreamStep) (none : φ.last = none) :
    Obeys (reporting id .send) φ (sendTask debug q conn steps retrySteps) fun _ _ => True := by
  refine (transportSendFiles_obeys debug q conn steps none).bind fun φ' first kept => ?_
  cases first with
  | ok _ => trivial
  | error detail =>
    simp only
    split_ifs
    · refine (obeys_mute (reconnectToPeerByBestAddrs_mute q.peerFp)).bind ?_
      rintro _ again ⟨rfl, -⟩
      cases again with
      | error _ => exact giveUp_obeys _ _ kept
      | ok d =>
        refine (transportSendFiles_obeys debug q d retrySteps kept).bind fun φ' second still => ?_
        cases second with
        | ok _ => trivial
        | error _ => exact giveUp_obeys _ _ still
    · exact giveUp_obeys _ _ kept

theorem sendFiles_obeys (debug : DashMessage → String) (q : SendRequest)
    (steps retrySteps : List StreamStep) :
    Obeys (reporting id .send) .nothing (sendFiles debug q steps retrySteps) fun _ _ => True := by
  refine obeys_op rfl fun level => ?_
  simp only [ret_bind]
  split
  · exact obeys_op rfl fun _ => trivial
  · refine obeys_op rfl fun best => ?_
    simp only [ret_bind]
    split
    · trivial
    · trivial
    · refine obeys_op rfl fun missing => ?_
      simp only [ret_bind]
      split
      · trivial
      · refine (obeys_mute (connectFirst_mute _ [])).bind ?_
        rintro _ found ⟨rfl, -⟩
        cases found with
        | error errors => trivial
        | ok conn =>
          refine obeys_op rfl fun answer => ?_
          cases answer with
          | error cause => trivial
          | ok actualFp =>
            simp only [ret_bind]
            split_ifs
            · exact obeys_op rfl fun _ => obeys_op rfl fun _ => trivial
            · exact obeys_op rfl fun _ => trivial
            · trivial
            · exact (sendTask_obeys debug q conn steps retrySteps rfl).bind fun _ _ _ => trivial

def side : Party → TransferDirection
  | .send _ _ _ => .send
  | _ => .receive

theorem party_obeys (debug : DashMessage → String) (party : Party) :
    Obeys (reporting id (side party)) .nothing (party.prog debug) fun _ _ => True := by
  have quiet {ops : Op → Prop} (within : (party.prog debug).Within ops anything)
      (calm : ∀ o, ops o → mute o) :
      Obeys (reporting id (side party)) .nothing (party.prog debug) fun _ _ => True :=
    (obeys_mute (within.mono calm fun _ h => h)).mono fun _ _ _ => trivial
  have within := Party.within debug party
  cases party with
  | offer q => exact handleOffer_obeys q
  | send q steps retrySteps => exact sendFiles_obeys debug q steps retrySteps
  | accept | reject | cancel | maintenance | cleanup =>
    refine quiet within fun o ho => ?_
    cases o with
    | task u => cases u <;> first | exact ho.elim | trivial
    | env e => exact ho.elim
    | note | gate | net | fs => trivial

end Programs

/-- `held` names the status that each revision stood for. The stored task has the largest revision
so far, and what was told and what the threads hold agrees with it. -/
structure Honest (id : String) (roles : ℕ → TransferDirection) (φ : ℕ → Knows) (w : World)
    (held : ℕ → Option TransferStatus) : Prop where
  stored : ∀ t, w.transfers.lookup id = some t →
    held t.revision = some t.status ∧ ∀ n, t.revision < n → held n = none
  first : ∀ j, .registered j id ∈ w.journal → held 0 = some .pendingAccept
  unborn : (∀ j, .registered j id ∉ w.journal) → ∀ n, held n = none
  sides : ∀ j t, .registered j id ∈ w.journal → w.transfers.lookup id = some t →
    t.direction = roles j
  told : ∀ j e status revision, .emitted j e ∈ w.journal →
    tells e = some (id, status, revision) → held revision = some status
  hands : ∀ j status revision, (φ j).hand = some (status, revision) → held revision = some status
  lasts : ∀ j, (φ j).last = lastMoved j id w.journal
  entries : ∀ j, (φ j).entered = true → .registered j id ∈ w.journal
  losses : ∀ j, (φ j).lost = false

private theorem ended_task {y : String} {f : TransferTask → TransferTask} {record : TerminalRecord}
    (answer : some record = (modifyTask w y none f fun _ t' => some (terminalRecord t')).2)
    (effect : w'.transfers.lookup y =
      if y = y then (w.transfers.lookup y).map f else w.transfers.lookup y) :
    ∃ t, w'.transfers.lookup y = some (f t) ∧ (f t).status = record.status ∧
      (f t).revision = revisionOf w' y := by
  rw [modifyTask_answer] at answer
  rw [if_pos rfl] at effect
  cases here : w.transfers.lookup y with
  | none => simp [here] at answer
  | some t =>
    simp only [here, Option.map_some, Option.getD_some, Option.some.injEq] at answer effect
    exact ⟨t, effect, by rw [answer]; rfl, by simp [revisionOf, effect]⟩

theorem tells_outcome {y : String} {status status' : TransferStatus} {revision revision' n : ℕ}
    {outcome : TransferOutcome} {e : HostEvent}
    (mem : e ∈ outcomeEvents y status revision n outcome) (own : status = outcomeStatus outcome)
    (told : tells e = some (id, status', revision')) :
    y = id ∧ status' = status ∧ revision' = revision := by
  cases outcome with
  | failed code =>
    obtain rfl | mem := List.mem_cons.mp mem
    · cases told
      exact ⟨rfl, rfl, rfl⟩
    · obtain rfl := List.mem_singleton.mp mem
      cases told
  | success | partialSuccess =>
    obtain rfl := List.mem_singleton.mp mem
    cases told
    exact ⟨rfl, own.symm, rfl⟩
  | cancelledByReceiver | cancelledBySender =>
    obtain rfl := List.mem_singleton.mp mem
    cases told
    exact ⟨rfl, rfl, rfl⟩

theorem told_by_section {u : TaskOp} {r : u.Resp} (done : exec i (.task u) x w = some (w', r))
    {e : HostEvent} {status : TransferStatus} {revision : ℕ}
    (mem : e ∈ sectionEvents ((u.id?.map (revisionOf w')).getD 0) u r)
    (told : tells e = some (id, status, revision)) :
    ∃ t, w'.transfers.lookup id = some t ∧ t.status = status ∧ t.revision = revision := by
  have answer := exec_task_answer done
  have effect := exec_lookup_task done
  cases u with
  | cancel y hasHost =>
    cases hasHost with
    | false => cases mem
    | true =>
      cases r with
      | none => cases mem
      | some found =>
        obtain ⟨record, conn⟩ := found
        obtain rfl := List.mem_singleton.mp mem
        cases told
        have shown := congrArg (Option.map Prod.fst) answer
        have same : (execTask x.now w (.cancel id true)).2.map Prod.fst =
            (modifyTask w id none (applyCancel x.now) fun _ t' => some (terminalRecord t')).2 := by
          simp only [execTask, modifyTask_answer]
          cases w.transfers.lookup id <;> rfl
        obtain ⟨t, after, status, revision⟩ := ended_task (shown.trans same) (effect id)
        exact ⟨_, after, status, revision⟩
  | sendRejected y reason =>
    cases r with
    | none => cases mem
    | some record =>
      obtain rfl := List.mem_singleton.mp mem
      cases told
      obtain ⟨t, after, status, revision⟩ := ended_task answer (effect id)
      exact ⟨_, after, status, revision⟩
  | sendTimedOut y =>
    cases r with
    | none => cases mem
    | some record =>
      obtain rfl | mem := List.mem_cons.mp mem
      · cases told
        obtain ⟨t, after, status, revision⟩ := ended_task answer (effect id)
        exact ⟨_, after, status, revision⟩
      · obtain rfl := List.mem_singleton.mp mem
        cases told
  | sendFinished y outcome itemCount =>
    cases r with
    | none => cases mem
    | some record =>
      obtain ⟨t, after, ended, shown⟩ := ended_task answer (effect y)
      have own : record.status = outcomeStatus outcome := ended.symm
      obtain ⟨rfl, rfl, rfl⟩ := tells_outcome mem own told
      exact ⟨_, after, ended, shown⟩
  | updateStatus => cases r <;> cases mem
  | _ => cases mem

section Step

variable {roles : ℕ → TransferDirection} {φ : ℕ → Knows} {held : ℕ → Option TransferStatus}

theorem Honest.born (h : Honest id roles φ w held) {a : TransferTask}
    (here : w.transfers.lookup id = some a) : ∃ j, .registered j id ∈ w.journal := by
  by_contra none
  push Not at none
  have now := (h.stored a here).1
  rw [h.unborn none] at now
  cases now

/-- What the next world keeps of `held` after a step. -/
structure Extends (id : String) (roles : ℕ → TransferDirection) (w' : World)
    (held held' : ℕ → Option TransferStatus) : Prop where
  old : ∀ n status, held n = some status → held' n = some status
  stored : ∀ t, w'.transfers.lookup id = some t →
    held' t.revision = some t.status ∧ ∀ n, t.revision < n → held' n = none
  first : ∀ j, .registered j id ∈ w'.journal → held' 0 = some .pendingAccept
  unborn : (∀ j, .registered j id ∉ w'.journal) → ∀ n, held' n = none
  sides : ∀ j t, .registered j id ∈ w'.journal → w'.transfers.lookup id = some t →
    t.direction = roles j

private theorem registered_before (done : exec i o x w = some (w', r)) (other : noEntry id o)
    {j : ℕ} (mem : .registered j id ∈ w'.journal) : .registered j id ∈ w.journal := by
  obtain old | ⟨-, t, rfl, own⟩ := origin_of_new done mem
  · exact old
  · exact absurd own other

theorem held_step (h : Honest id roles φ w held) (allowed : Current id i o x w)
    (done : exec i o x w = some (w', r)) (may : mayDo id (roles i) (φ i) o = true) :
    ∃ held', Extends id roles w' held held' := by
  cases tick_of_exec id done with
  | keep other same =>
    refine ⟨held, fun _ _ h => h, ?_, ?_, ?_, ?_⟩
    · intro t found
      obtain ⟨t₀, before, status, revision, -⟩ := same t found
      rw [status, revision]
      exact h.stored t₀ before
    · exact fun j mem => h.first j (registered_before done other mem)
    · exact fun none => h.unborn fun j mem => none j (mem_journal_mono done mem)
    · intro j t mem found
      obtain ⟨t₀, before, -, -, side⟩ := same t found
      rw [side]
      exact h.sides j t₀ (registered_before done other mem) before
  | @count _ t t' other before after next side =>
    obtain ⟨-, above⟩ := h.stored t before
    have free : held t'.revision = none := above _ (by omega)
    have born := h.born before
    refine ⟨Function.update held t'.revision (some t'.status), ?_, ?_, ?_, ?_, ?_⟩
    · intro n status here
      have apart : n ≠ t'.revision := by
        rintro rfl
        rw [free] at here
        cases here
      rw [Function.update_of_ne apart]
      exact here
    · intro b found
      cases after.symm.trans found
      refine ⟨Function.update_self .., fun n larger => ?_⟩
      rw [Function.update_of_ne (by omega)]
      exact above n (by omega)
    · intro j mem
      have zero : held 0 = some .pendingAccept := h.first j (registered_before done other mem)
      have apart : 0 ≠ t'.revision := by
        intro same
        rw [same, free] at zero
        cases zero
      rw [Function.update_of_ne apart]
      exact zero
    · intro none
      obtain ⟨j, mem⟩ := born
      exact absurd (mem_journal_mono done mem) (none j)
    · intro j b mem found
      cases after.symm.trans found
      rw [side]
      exact h.sides j t (registered_before done other mem) before
  | @register t own after =>
    obtain ⟨⟨pending, zero⟩, direction⟩ : (t.status = .pendingAccept ∧ t.revision = 0) ∧
        t.direction = roles i := by
      simpa [mayDo, own] using may
    have entered : .registered i id ∈ w'.journal := by
      rw [mem_journal_iff done]
      exact .inr (by simp [history, taskHistory, own])
    have sides : (∀ j, .registered j id ∈ w.journal → t.direction = roles j) →
        ∀ j b, .registered j id ∈ w'.journal → w'.transfers.lookup id = some b →
          b.direction = roles j := by
      intro earlier j b mem found
      cases after.symm.trans found
      obtain old | ⟨rfl, -⟩ := origin_of_new done mem
      · exact earlier j old
      · exact direction
    obtain fresh | ⟨s, before, waiting, unmoved, same⟩ := allowed own
    · -- The first registration gives revision 0 its status.
      have none := h.unborn fresh
      refine ⟨Function.update held 0 (some .pendingAccept), ?_, ?_, ?_, ?_, ?_⟩
      · intro n status here
        rw [none] at here
        cases here
      · intro b found
        cases after.symm.trans found
        rw [zero, pending]
        refine ⟨Function.update_self .., fun n larger => ?_⟩
        rw [Function.update_of_ne (by omega)]
        exact none n
      · exact fun _ _ => Function.update_self ..
      · exact fun absent => absurd entered (absent i)
      · exact sides fun j old => absurd old (fresh j)
    · -- A later one finds revision 0 with the status that it had.
      have stored := h.stored s before
      rw [waiting, unmoved] at stored
      refine ⟨held, fun _ _ here => here, ?_, ?_, ?_, ?_⟩
      · intro b found
        cases after.symm.trans found
        rw [zero, pending]
        exact stored
      · exact fun _ _ => stored.1
      · exact fun absent => absurd entered (absent i)
      · exact sides fun j old => same ▸ h.sides j s old before

/-- The status that an operation has set by `update_transfer_status`. -/
def sets (id : String) : (o : Op) → o.Resp → Option TransferStatus
  | .task (.updateStatus y status _), some _ => if y = id then some status else none
  | _, _ => none

theorem learn_last (role : TransferDirection) (ψ : Knows) (o : Op) (r : o.Resp) :
    (learn id role ψ o r).last = (sets id o r).or ψ.last := by
  cases o with
  | task u =>
    cases u with
    | updateStatus y status reason =>
      cases r with
      | none => by_cases own : y = id <;> simp [learn, sets, own]
      | some u => by_cases own : y = id <;> simp [learn, sets, own]
    | insert t => by_cases own : t.id = id <;> simp [learn, sets, own]
    | revision y => by_cases own : y = id <;> simp [learn, sets, own]
    | sendTransferring y => by_cases own : y = id <;> simp [learn, sets, own]
    | _ => rfl
  | note | gate | net | env | fs => rfl

private theorem moved_history_other {j : ℕ} (w : World) (other : ∀ u, o ≠ .task u) :
    (history i w o r).filterMap (movedTo j id) = [] := by
  rw [List.filterMap_eq_nil_iff]
  intro e mem
  have origin := origin_of_mem_history mem
  cases e with
  | moved k y status =>
    obtain ⟨-, reason, rfl⟩ := origin
    exact absurd rfl (other _)
  | _ => rfl

theorem moved_history (i j : ℕ) (w : World) (o : Op) (r : o.Resp) :
    (history i w o r).filterMap (movedTo j id) = if i = j then (sets id o r).toList else [] := by
  cases o with
  | task u =>
    rw [history, List.filterMap_append, filterMap_emitted i fun _ => rfl, List.append_nil]
    cases u with
    | updateStatus y status reason =>
      cases r with
      | none => by_cases same : i = j <;> simp [taskHistory, sets]
      | some u =>
        by_cases same : i = j <;> by_cases own : y = id <;> cases hu : u.record <;>
          simp [taskHistory, movedTo, sets, hu, same, own]
    | cancel | sendRejected | sendTimedOut | sendFinished =>
      cases r <;> simp [taskHistory, movedTo, sets]
    | _ => simp [taskHistory, movedTo, sets]
  | note | gate | net | env | fs =>
    have quiet : (history i w _ r).filterMap (movedTo j id) = [] :=
      moved_history_other w (by simp)
    simp [quiet, sets]

theorem lastMoved_step (done : exec i o x w = some (w', r)) (j : ℕ) :
    lastMoved j id w'.journal =
      if i = j then (sets id o r).or (lastMoved j id w.journal) else lastMoved j id w.journal := by
  rw [lastMoved, exec_journal done, List.filterMap_append, moved_history, List.getLast?_append]
  split_ifs with h
  · cases sets id o r <;> rfl
  · rfl

theorem learn_entered {role : TransferDirection} {ψ : Knows}
    (h : (learn id role ψ o r).entered = true) :
    ψ.entered = true ∨ ∃ t, o = .task (.insert t) ∧ t.id = id := by
  cases o with
  | task u =>
    cases u with
    | insert t =>
      by_cases own : t.id = id
      · exact .inr ⟨t, rfl, own⟩
      · exact .inl (by simpa [learn, own] using h)
    | updateStatus y status reason =>
      cases r <;> by_cases own : y = id <;> exact .inl (by simpa [learn, own] using h)
    | revision y => by_cases own : y = id <;> exact .inl (by simpa [learn, own] using h)
    | sendTransferring y => by_cases own : y = id <;> exact .inl (by simpa [learn, own] using h)
    | _ => exact .inl h
  | note | gate | net | env | fs => exact .inl h

theorem learn_lost {role : TransferDirection} {ψ : Knows} (allowed : Current id i o x w)
    (done : exec i o x w = some (w', r)) (kept : ψ.lost = false) :
    (learn id role ψ o r).lost = false := by
  cases o with
  | task u =>
    cases u with
    | updateStatus y status reason =>
      by_cases own : y = id
      · subst own
        obtain ⟨t, found⟩ := Option.isSome_iff_exists.mp (allowed rfl)
        have answer := exec_task_answer done
        simp only [execTask, modifyTask_answer, found, Option.map_some, Option.getD_some] at answer
        subst answer
        simpa [learn] using kept
      · cases r <;> simpa [learn, own] using kept
    | insert t => by_cases own : t.id = id <;> simpa [learn, own] using kept
    | revision y => by_cases own : y = id <;> simpa [learn, own] using kept
    | sendTransferring y => by_cases own : y = id <;> simpa [learn, own] using kept
    | _ => exact kept
  | note | gate | net | env | fs => exact kept

theorem learn_hand (h : Honest id roles φ w held) (allowed : Current id i o x w)
    (done : exec i o x w = some (w', r)) {status : TransferStatus} {revision : ℕ}
    (hand : (learn id (roles i) (φ i) o r).hand = some (status, revision)) :
    (φ i).hand = some (status, revision) ∨
      ∃ t, w'.transfers.lookup id = some t ∧ t.status = status ∧ t.revision = revision := by
  cases o with
  | task u =>
    have answer := exec_task_answer done
    have effect := exec_lookup_task done id
    cases u with
    | updateStatus y aim reason =>
      by_cases own : y = id
      · subst own
        obtain ⟨t, found⟩ := Option.isSome_iff_exists.mp (allowed rfl)
        simp only [execTask, modifyTask_answer, found, Option.map_some, Option.getD_some] at answer
        simp only [onTask, taskEffect, found, Option.map_some, if_pos] at effect
        subst answer
        simp only [learn, if_pos, Option.some.injEq, Prod.mk.injEq] at hand
        obtain ⟨rfl, rfl⟩ := hand
        exact .inr ⟨_, effect, rfl, rfl⟩
      · cases r <;> exact .inl (by simpa [learn, own] using hand)
    | revision y =>
      by_cases own : y = id
      · subst own
        obtain ⟨entered, t, found, status⟩ := allowed rfl
        simp only [learn, if_pos, Option.some.injEq, Prod.mk.injEq] at hand
        obtain ⟨rfl, rfl⟩ := hand
        simp only [onTask, taskEffect] at effect
        refine .inr ⟨t, effect.trans found, ?_, ?_⟩
        · rw [status, h.lasts i, h.sides i t entered found]
        · simp [answer, execTask, revisionOf, found]
      · exact .inl (by simpa [learn, own] using hand)
    | sendTransferring y =>
      by_cases own : y = id
      · subst own
        obtain ⟨t, found⟩ := Option.isSome_iff_exists.mp (allowed rfl)
        simp only [execTask, modifyTask_answer, found, Option.map_some, Option.getD_some] at answer
        simp only [onTask, taskEffect, found, Option.map_some, if_pos] at effect
        simp only [learn, if_pos, Option.some.injEq, Prod.mk.injEq] at hand
        obtain ⟨rfl, rfl⟩ := hand
        exact .inr ⟨_, effect, rfl, answer.symm⟩
      · exact .inl (by simpa [learn, own] using hand)
    | insert t =>
      by_cases own : t.id = id <;> exact .inl (by simpa [learn, own] using hand)
    | _ => exact .inl hand
  | note | gate | net | env | fs => exact .inl hand

private theorem emitted_not_mem_taskHistory {j : ℕ} {u : TaskOp} {r : u.Resp} {e : HostEvent} :
    .emitted j e ∉ taskHistory i u r := by
  intro mem
  cases u with
  | updateStatus => cases r <;> simp [taskHistory] at mem
  | cancel | sendRejected | sendTimedOut | sendFinished => cases r <;> simp [taskHistory] at mem
  | _ => simp [taskHistory] at mem

/-- An event of a step is vouched for by its thread or tells the task as it stands. -/
theorem told_step (may : mayDo id (roles i) (φ i) o = true) (done : exec i o x w = some (w', r))
    {j : ℕ} {e : HostEvent} {status : TransferStatus} {revision : ℕ}
    (mem : .emitted j e ∈ history i w' o r) (told : tells e = some (id, status, revision)) :
    (φ i).vouches status revision = true ∨
      ∃ t, w'.transfers.lookup id = some t ∧ t.status = status ∧ t.revision = revision := by
  obtain ⟨-, rfl | ⟨u, -, -, rfl, -⟩⟩ := origin_of_mem_history mem
  · exact .inl (by simpa [mayDo, told] using may)
  · obtain mem | mem := List.mem_append.mp mem
    · exact absurd mem emitted_not_mem_taskHistory
    · obtain ⟨e', mem, same⟩ := List.mem_map.mp mem
      cases same
      exact .inr (told_by_section done mem told)

theorem honest_step (h : Honest id roles φ w held) (allowed : Current id i o x w)
    (done : exec i o x w = some (w', r)) {ψ : Knows}
    (moved : reporting id (roles i) (φ i) o r = some ψ) :
    ∃ held', Honest id roles (Function.update φ i ψ) w' held' := by
  obtain ⟨may, rfl⟩ : mayDo id (roles i) (φ i) o = true ∧ learn id (roles i) (φ i) o r = ψ := by
    simpa [reporting] using moved
  obtain ⟨held', next⟩ := held_step h allowed done may
  have standing {t : TransferTask} (found : w'.transfers.lookup id = some t) :
      held' t.revision = some t.status := (next.stored t found).1
  refine ⟨held', next.stored, next.first, next.unborn, next.sides, ?_, ?_, ?_, ?_, ?_⟩
  · intro j e status revision mem told
    obtain old | new := (mem_journal_iff done).mp mem
    · exact next.old _ _ (h.told j e status revision old told)
    · obtain vouched | ⟨t, found, rfl, rfl⟩ := told_step may done new told
      · simp only [Knows.vouches, h.losses i, Bool.false_or, Bool.or_eq_true, Bool.and_eq_true,
          decide_eq_true_eq] at vouched
        obtain hand | ⟨⟨entered, rfl⟩, rfl⟩ := vouched
        · exact next.old _ _ (h.hands i _ _ hand)
        · exact next.old _ _ (h.first i (h.entries i entered))
      · exact standing found
  · intro j status revision hand
    by_cases same : j = i
    · subst same
      rw [Function.update_self] at hand
      obtain old | ⟨t, found, rfl, rfl⟩ := learn_hand h allowed done hand
      · exact next.old _ _ (h.hands j _ _ old)
      · exact standing found
    · rw [Function.update_of_ne same] at hand
      exact next.old _ _ (h.hands j _ _ hand)
  · intro j
    rw [lastMoved_step done]
    split_ifs with same
    · subst same
      rw [Function.update_self, learn_last, h.lasts]
    · rw [Function.update_of_ne (Ne.symm same)]
      exact h.lasts j
  · intro j entered
    by_cases same : j = i
    · subst same
      rw [Function.update_self] at entered
      obtain old | ⟨t, rfl, own⟩ := learn_entered entered
      · exact mem_journal_mono done (h.entries j old)
      · rw [mem_journal_iff done]
        exact .inr (by simp [history, taskHistory, own])
    · rw [Function.update_of_ne same] at entered
      exact mem_journal_mono done (h.entries j entered)
  · intro j
    by_cases same : j = i
    · subst same
      rw [Function.update_self]
      exact learn_lost allowed done (h.losses j)
    · rw [Function.update_of_ne same]
      exact h.losses j

end Step

section Run

variable {debug : DashMessage → String} {parties : List Party}
variable {t u : Pool Op Op.Resp World (Except String Unit)}

def roleAt (parties : List Party) (j : ℕ) : TransferDirection :=
  (parties[j]?.map side).getD .receive

theorem honest_of_run (fresh : w.journal = []) (unknown : w.transfers.lookup id = none)
    (run : Run exec (Current id) (pool debug w parties) t) :
    ∃ φ held, Honest id (roleAt parties) φ t.world held := by
  let roles := roleAt parties
  have start : Tracked (fun j => reporting id (roles j)) (fun _ _ _ => True)
      (fun _ => Knows.nothing) (pool debug w parties).threads := by
    intro j y here
    obtain ⟨party, place, rfl⟩ := pool_thread here
    have role : roles j = side party := by simp [roles, roleAt, place]
    simpa only [role] using party_obeys debug party
  have base : Honest id roles (fun _ => Knows.nothing) w fun _ => none := by
    constructor <;> simp [fresh, unknown, Knows.nothing, lastMoved]
  obtain ⟨φ, -, held, honest⟩ := Run.tracked run
    (fun φ w => ∃ held, Honest id roles φ w held) start ⟨_, base⟩ (by
      rintro φ i o x w w' r ψ ⟨held, honest⟩ allowed done moved
      exact honest_step honest allowed done moved)
  exact ⟨φ, held, honest⟩

theorem Honest.consistent {roles : ℕ → TransferDirection} {φ : ℕ → Knows}
    {held : ℕ → Option TransferStatus} (h : Honest id roles φ w held) :
    Consistent id w.journal := by
  intro i j e e' status status' revision mem mem' told told'
  have first := h.told i e status revision mem told
  have second := h.told j e' status' revision mem' told'
  exact Option.some.inj (first.symm.trans second)

/-- In every run with the condition the stored revision never decreases, increases with every
change of the status, and two events with one revision tell one status. -/
theorem revisions_are_a_clock (debug : DashMessage → String) (parties : List Party) (w : World)
    (id : String) (fresh : w.journal = []) (unknown : w.transfers.lookup id = none)
    {t u : Pool Op Op.Resp World (Except String Unit)}
    (run : Run exec (Current id) (pool debug w parties) t) (onward : Run exec (Current id) t u) :
    (∀ a b, t.world.transfers.lookup id = some a → u.world.transfers.lookup id = some b →
      Ticks a b) ∧ Consistent id u.world.journal := by
  constructor
  · intro a b here there
    obtain ⟨φ, held, honest⟩ := honest_of_run fresh unknown run
    have now : After id a t.world := by
      refine ⟨honest.born here, fun c found => ?_⟩
      cases here.symm.trans found
      exact ⟨le_rfl, fun apart => absurd rfl apart⟩
    have later : After id a u.world := by
      have within := run.within (poolOps parties) (fun _ _ => True) (pool_within debug w parties)
      refine (onward.bounded (poolOps parties) within).world_invariant (After id a) now ?_
      rintro i o x w w' r before ⟨allowed, ops⟩ done
      refine after_step allowed ?_ done before
      rintro t rfl
      obtain ⟨party, -, ops⟩ := ops
      obtain ⟨status, -, revision⟩ := Party.inserts_pending ops
      exact ⟨status, revision⟩
    exact later.2 b there
  · obtain ⟨φ, held, honest⟩ := honest_of_run fresh unknown (run.trans onward)
    exact honest.consistent

end Run

/-- A sufficient test of the condition for the transfer `t1`. -/
def currentCheck (i : ℕ) (o : Op) (_ : Ans) (w : World) : Bool :=
  match o with
  | .task (.insert _) => w.journal.all fun e => match e with
      | .registered _ _ => false
      | _ => true
  | .task (.updateStatus _ _ _) | .task (.sendTransferring _) => (w.transfers.lookup "t1").isSome
  | .task (.revision _) => w.journal.contains (.registered i "t1") &&
      (w.transfers.lookup "t1").any fun t =>
        t.status = (lastMoved i "t1" w.journal).getD (opening t.direction)
  | _ => true

theorem current_of_check (i : ℕ) (o : Op) (x : Ans) (w : World)
    (h : currentCheck i o x w = true) : Current "t1" i o x w := by
  cases o with
  | task u =>
    cases u with
    | insert t =>
      refine fun _ => .inl fun j mem => ?_
      have := List.all_eq_true.mp h _ mem
      cases this
    | updateStatus | sendTransferring => exact fun _ => h
    | revision y =>
      intro _
      simp only [currentCheck, Bool.and_eq_true, List.contains_iff_mem, Option.any_eq_true,
        decide_eq_true_eq] at h
      exact h
    | _ => trivial
  | note | gate | net | env | fs => trivial

/-- A rejected offer: the prompt and the rejection are told with the revisions 0 and 1. -/
theorem rejection_ticks :
    ∃ t u a b, Run exec (Current "t1")
        (pool (fun _ => "") (sampleWorld ["bob"]) [.offer (sampleOffer "t1" 0), .reject "t1" 0]) t ∧
      Run exec (Current "t1") t u ∧
      t.world.transfers.lookup "t1" = some a ∧ u.world.transfers.lookup "t1" = some b ∧
      a.status ≠ b.status ∧ Ticks a b ∧ Consistent "t1" u.world.journal ∧
      (∃ e, .emitted 0 e ∈ u.world.journal ∧ tells e = some ("t1", .rejected, 1)) := by
  let first := stepsOf 0 100 promptReplies
  let second := stepsOf 1 110 [.unit, .unit, .unit, .unit, .unit] ++
    stepsOf 0 111 [.unit, .unit, .unit, .unit, .unit, .unit, .unit]
  let differs (t u : Pool Op Op.Resp World (Except String Unit)) : Bool :=
    ((t.world.transfers.lookup "t1").any fun a =>
      (u.world.transfers.lookup "t1").any fun b => a.status != b.status) &&
    u.world.journal.any fun event => match event with
      | .emitted 0 e => tells e = some ("t1", .rejected, 1)
      | _ => false
  obtain ⟨t, run, found⟩ := exists_run_of_play exec current_of_check
    (pool (fun _ => "") (sampleWorld ["bob"]) [.offer (sampleOffer "t1" 0), .reject "t1" 0]) first
    (fun t => (t.play (restrict exec currentCheck) second).any (differs t)) (by decide)
  obtain ⟨u, onward, changed⟩ := exists_run_of_play exec current_of_check t _ (differs t) found
  simp only [differs, Bool.and_eq_true, Option.any_eq_true, bne_iff_ne, List.any_eq_true]
    at changed
  obtain ⟨⟨a, here, b, there, changed⟩, event, mem, told⟩ := changed
  obtain ⟨ticks, consistent⟩ := revisions_are_a_clock (fun _ => "") _ (sampleWorld ["bob"]) "t1"
    rfl rfl run onward
  refine ⟨t, u, a, b, run, onward, here, there, changed, ticks a b here there, consistent, ?_⟩
  split at told
  · exact ⟨_, mem, by simpa using told⟩
  · cases told

/-- A peer that offers a rejected transfer again under its id sets the revision back to 0. -/
theorem repeated_offer_turns_back :
    ∃ t u a b, Run exec free
        (pool (fun _ => "") (sampleWorld ["bob"]) [.offer (sampleOffer "t1" 0), .reject "t1" 0,
          .offer (sampleOffer "t1" 0)]) t ∧
      Run exec free t u ∧
      t.world.transfers.lookup "t1" = some a ∧ u.world.transfers.lookup "t1" = some b ∧
      b.revision < a.revision := by
  let first := stepsOf 0 100 promptReplies ++ stepsOf 1 110 [.unit, .unit, .unit, .unit, .unit] ++
    stepsOf 0 111 [.unit, .unit, .unit, .unit, .unit, .unit, .unit]
  let second := stepsOf 2 120 [.unit, .unit]
  let falls (t u : Pool Op Op.Resp World (Except String Unit)) : Bool :=
    (t.world.transfers.lookup "t1").any fun a =>
      (u.world.transfers.lookup "t1").any fun b => b.revision < a.revision
  obtain ⟨t, run, found⟩ := exists_run_of_play exec unchecked_sound
    (pool (fun _ => "") (sampleWorld ["bob"]) [.offer (sampleOffer "t1" 0), .reject "t1" 0,
      .offer (sampleOffer "t1" 0)]) first
    (fun t => (t.play (restrict exec unchecked) second).any (falls t)) (by decide)
  obtain ⟨u, onward, fallen⟩ := exists_run_of_play exec unchecked_sound t _ (falls t) found
  simp only [falls, Option.any_eq_true, decide_eq_true_eq] at fallen
  obtain ⟨a, here, b, there, fallen⟩ := fallen
  exact ⟨t, u, a, b, run, onward, here, there, fallen⟩

end DashDrop.Lifecycle.Revisions
