/- GID: DashDrop/Receiving/Requests
   source: src-tauri/src/core_service.rs, src-tauri/src/transport/receiver.rs,
     src-tauri/src/state.rs
   anchors: []
   digest: The list of pending requests compared with the events that announced them. -/

import DashDrop.Receiving.Isolation
import Mathlib.Data.List.Sort

set_option autoImplicit false
set_option relaxedAutoImplicit false

namespace DashDrop.Receiving.Requests

open DashDrop.Foundation.Program DashDrop.Foundation.Interleaving
open DashDrop.Foundation.Discipline DashDrop.Foundation.Oneshot
open DashDrop.Transport.Protocol DashDrop.Transport.Receiver DashDrop.Transport.Sender
open DashDrop.Runtime.State DashDrop.Runtime.Machine DashDrop.Runtime.Effects
open DashDrop.Runtime.Footprint DashDrop.Runtime.Supervisor DashDrop.CoreService
open DashDrop.Receiving.Phases DashDrop.Receiving.Registry DashDrop.Receiving.Ledger
open DashDrop.Receiving.Isolation

structure PendingIncomingRequestPayload where
  transferId : String
  notificationId : Uuid
  senderName : String
  senderFp : String
  trusted : Bool
  items : List FileItemMeta
  totalSize : ℕ
  revision : ℕ
  deriving DecidableEq

/-- `is_trusted`, a lookup of the key alone. -/
def isTrusted (trusted : AList (fun _ : String => TrustLevel)) (fp : String) : Bool :=
  (trusted.lookup fp).isSome

/-- `is_active_trust`. -/
def isActiveTrust (trusted : AList (fun _ : String => TrustLevel)) (fp : String) : Bool :=
  ((trusted.lookup fp).map TrustLevel.allowsSensitiveSend).getD false

/-- The entry of one task, if it waits for the user and its notification is active. -/
def pendingRequest (notifications : AList (fun _ : String => IncomingRequestNotification))
    (trusted : AList (fun _ : String => TrustLevel)) (task : TransferTask) :
    Option PendingIncomingRequestPayload :=
  if task.direction = .receive ∧ task.status = .pendingAccept then
    match notifications.lookup task.id with
    | none => none
    | some notification =>
        if !notification.active then none
        else some
          { transferId := task.id
            notificationId := notification.notificationId
            senderName := task.peerName
            senderFp := task.peerFingerprint
            trusted := isTrusted trusted task.peerFingerprint
            items := task.items
            totalSize := task.totalBytes
            revision := task.revision }
  else none

/-- `get_pending_incoming_requests` on the three maps it reads one after another. -/
def getPendingIncomingRequests
    (notifications : AList (fun _ : String => IncomingRequestNotification))
    (trusted : AList (fun _ : String => TrustLevel))
    (transfers : AList (fun _ : String => TransferTask)) : List PendingIncomingRequestPayload :=
  (transfers.entries.filterMap fun e => pendingRequest notifications trusted e.2).insertionSort
    fun left right => left.transferId ≤ right.transferId

/-- The event shows the same request as the entry. -/
def SameRequest (p : PendingIncomingRequestPayload) : HostEvent → Prop
  | .transferIncoming transferId notificationId senderName senderFp trusted items totalSize
      revision =>
    transferId = p.transferId ∧ notificationId = p.notificationId ∧ senderName = p.senderName ∧
      senderFp = p.senderFp ∧ trusted = p.trusted ∧ items.map FileItemMeta.ofItem = p.items ∧
      totalSize = p.totalSize ∧ revision = p.revision
  | _ => False

def registrantStep (y : String) (last : Option ℕ) : Event → Option ℕ
  | .registered j z => if z = y then some j else last
  | _ => last

def registrant (y : String) (l : List Event) : Option ℕ := l.foldl (registrantStep y) none

/-- The pool runs on, and the trust list may change between its steps. -/
def Evolves (a b : Pool Op Op.Resp World (Except String Unit)) : Prop :=
  Relation.ReflTransGen (fun a b => (∃ i, Step exec free i a b) ∨
    ∃ peers, b = ⟨{ a.world with trustedPeers := peers }, a.threads⟩) a b

structure Recall where
  trusted : Option Bool
  notificationId : Option Uuid
  revision : Option ℕ

def Recall.Tells (s : Recall) (f : IncomingOffer) : HostEvent → Prop
  | .transferIncoming y m senderName senderFp trusted items totalSize revision =>
    y = f.id ∧ s.notificationId = some m ∧ senderName = f.offer.senderName ∧
      senderFp = f.peerFp ∧ s.trusted = some trusted ∧ items = f.offer.items ∧
      totalSize = f.offer.totalSize ∧ s.revision = some revision
  | _ => True

instance (s : Recall) (f : IncomingOffer) : (e : HostEvent) → Decidable (s.Tells f e)
  | .transferIncoming _ _ _ _ _ _ _ _ => inferInstanceAs (Decidable (_ ∧ _))
  | .transferStarted _ _ _ _ _ _ | .transferAccepted _ _ | .transferProgress _ _ _ _
  | .transferComplete _ _ | .transferPartly _ _ _ _ | .transferTerminal _ _ _ _ _ _
  | .transferError _ _ _ _ _ _ | .identityMismatch _ _ _ => inferInstanceAs (Decidable True)

def recallNext (f : IncomingOffer) : Automaton Op Op.Resp (Option Recall)
  | none, .env .now, _ => some none
  | none, .task (.insert _), _ => some (some ⟨none, none, none⟩)
  | none, _, _ => none
  | some _, .task (.insert _), _ => none
  | some s, .env (.isActiveTrust fp), (b : Bool) =>
      some (some (if fp = f.peerFp then { s with trusted := some b } else s))
  | some s, .note (.ensure y), (m : ℕ) =>
      some (some (if y = f.id then { s with notificationId := some m } else s))
  | some s, .task (.revision y), (n : ℕ) =>
      some (some (if y = f.id then { s with revision := some n } else s))
  | some s, .env (.emit e), _ => if s.Tells f e then some (some s) else none
  | some s, _, _ => some (some s)

section Offer

variable {f : IncomingOffer} {q s : Phase} {m : Recall} {α : Type}

/-- The phases of an offer that has announced itself or never will. -/
private def late : Phase → Bool
  | .prompted _ | .waiting _ | .settled _ | .moving _ | .lost => true
  | _ => false

private theorem late_step {o : Op} {r : o.Resp} (moved : offerNext f q o r = some s)
    (h : late q = true) : late s = true := by
  have change : Change [.offer f] 0 q o r s := change_of_moves moved
  cases change with
  | stay | enlist | mark | emit => exact h
  | again | register | wait => rfl
  | update offer after =>
    have moving := isMoving_afterUpdate after
    cases s with
    | moving | lost => rfl
    | _ => cases moving
  | read role => obtain role | role := role <;> cases role
  | status role => obtain role | role := role <;> cases role
  | contains role => obtain role | role := role <;> cases role
  | take role =>
    obtain ⟨party, here, plays⟩ := role
    cases here
    cases plays
  | survey loop => cases loop
  | list | note | ensure | «show» | discard | send | retain => cases h

private theorem recall_late {o : Op} {r : o.Resp} (moved : offerNext f q o r = some s)
    (h : late q = true) : ∃ m', recallNext f (some m) o r = some (some m') := by
  cases o with
  | task u =>
    cases u with
    | insert t =>
      obtain ⟨⟨rfl, -⟩, -⟩ := onlyIf_eq_some.mp moved
      cases h
    | _ => exact ⟨_, rfl⟩
  | note n => cases n <;> exact ⟨_, rfl⟩
  | env e =>
    cases e with
    | emit e =>
      have quiet : isIncoming e = false := by
        cases q with
        | noted => cases h
        | _ =>
          simp only [offerNext, Phase.afterEmit] at moved
          split_ifs at moved with incoming
          simpa using incoming
      refine ⟨m, if_pos ?_⟩
      cases e with
      | transferIncoming => cases quiet
      | _ => trivial
    | _ => exact ⟨_, rfl⟩
  | gate | net | fs => exact ⟨_, rfl⟩

private theorem recalls_of_late {x : Code α} {fin : Phase → α → Prop}
    (h : Obeys (offerNext f) q x fin) (ready : late q = true) (m : Recall) :
    Obeys (recallNext f) (some m) x fun _ _ => True := by
  induction x generalizing q m with
  | pure a => trivial
  | op o k ih =>
    intro r
    obtain ⟨s, moved, rest⟩ := h r
    obtain ⟨m', recalled⟩ := recall_late (m := m) moved ready
    exact ⟨some m', recalled, ih r rest (late_step moved ready) m'⟩

private theorem handleOffer_recalls (f : IncomingOffer) :
    Obeys (recallNext f) none (handleOffer f) fun _ _ => True := by
  have phases : Obeys (offerNext f) .idle (handleOffer f) offerMayReturn :=
    party_obeys (fun _ => "") (.offer f)
  intro now
  obtain ⟨_, ⟨⟩, phases⟩ := phases now
  refine ⟨none, rfl, fun a => ⟨some ⟨none, none, none⟩, rfl, fun config => ?_⟩⟩
  refine ⟨_, rfl, fun dirs => ?_⟩
  obtain ⟨_, listed, phases⟩ := phases a
  obtain ⟨-, ⟨⟩⟩ := onlyIf_eq_some.mp listed
  obtain ⟨_, ⟨⟩, phases⟩ := phases config
  obtain ⟨_, ⟨⟩, phases⟩ := phases dirs
  refine ⟨_, rfl, fun disks => ⟨_, rfl, ?_⟩⟩
  obtain ⟨_, ⟨⟩, phases⟩ := phases disks
  simp only [ret_bind] at phases ⊢
  split_ifs at phases ⊢
  · intro trusted
    obtain ⟨_, ⟨⟩, phases⟩ := phases trusted
    refine ⟨_, rfl, fun notificationId => ⟨_, rfl, fun revision => ⟨_, rfl, fun told => ?_⟩⟩⟩
    obtain ⟨_, noted, phases⟩ := phases notificationId
    obtain ⟨-, ⟨⟩⟩ := onlyIf_eq_some.mp noted
    obtain ⟨_, asked, phases⟩ := phases revision
    obtain ⟨-, ⟨⟩⟩ := onlyIf_eq_some.mp asked
    obtain ⟨_, shown, phases⟩ := phases told
    refine ⟨_, if_pos (by simp [Recall.Tells]), ?_⟩
    have prompted := shown.symm.trans (if_pos (by simp [announces]))
    cases prompted
    exact recalls_of_late phases rfl _
  · intro wrote
    obtain ⟨_, ⟨⟩, phases⟩ := phases wrote
    refine ⟨_, rfl, ?_⟩
    cases wrote with
    | error => trivial
    | ok =>
      intro updated
      obtain ⟨_, moved, phases⟩ := phases updated
      obtain ⟨-, ⟨⟩⟩ := onlyIf_eq_some.mp moved
      exact ⟨_, rfl, recalls_of_late phases rfl _⟩

end Offer

/-- What each thread has read; the other parties announce nothing. -/
private def recalls (parties : List Party) (i : ℕ) : Automaton Op Op.Resp (Option Recall) :=
  match parties[i]? with
  | some (.offer f) => recallNext f
  | _ => fun s _ _ => some s

private theorem recalls_offer {parties : List Party} {i : ℕ} {f : IncomingOffer}
    (offer : parties[i]? = some (.offer f)) : recalls parties i = recallNext f := by
  simp only [recalls, offer]

private theorem pool_recalls (debug : DashMessage → String) (w : World) (parties : List Party) :
    Tracked (recalls parties) (fun _ _ _ => True) (fun _ => none)
      (pool debug w parties).threads := by
  intro i x here
  obtain ⟨party, found, rfl⟩ := pool_thread here
  have idle (same : recalls parties i = fun s _ _ => some s) :
      Obeys (recalls parties i) none (party.prog debug) fun _ _ => True := by
    rw [same]
    exact (Obeys.stay (within_trivial _) fun _ _ _ => rfl).mono fun _ _ _ => trivial
  cases party with
  | offer f =>
    rw [recalls_offer found]
    exact handleOffer_recalls f
  | accept | reject | cancel | maintenance | cleanup | send =>
    exact idle (by simp only [recalls, found])

variable {parties : List Party} {μ : ℕ → Option Recall} {i : ℕ} {o : Op} {x : Ans}
variable {w w' : World} {r : o.Resp} {s : Option Recall} {y : String}

private theorem registrant_insert (done : exec i o x w = some (w', r)) {t : TransferTask}
    (insert : o = .task (.insert t)) : registrant t.id w'.journal = some i := by
  subst insert
  rw [exec_journal done, registrant, List.foldl_append]
  simp [history, taskHistory, sectionEvents, registrantStep]

private theorem registrant_same (done : exec i o x w = some (w', r))
    (other : ∀ t, o = .task (.insert t) → t.id ≠ y) :
    registrant y w'.journal = registrant y w.journal := by
  have still : ∀ l : List Event, (∀ e ∈ l, Origin i o e) →
      ∀ p, l.foldl (registrantStep y) p = p := by
    intro l
    induction l with
    | nil => exact fun _ _ => rfl
    | cons e l ih =>
      intro from' p
      have here := from' e List.mem_cons_self
      rw [List.foldl_cons, ih fun e he => from' e (List.mem_cons_of_mem _ he)]
      cases e with
      | registered j z =>
        obtain ⟨-, t, insert, rfl⟩ := here
        exact if_neg (other t insert)
      | _ => rfl
  rw [exec_journal done, registrant, List.foldl_append]
  exact still _ (fun e he => origin_of_mem_history he) _

private theorem not_pending_of_update {status : TransferStatus} {reason : Option String}
    (inside : poolOps parties i (.task (.updateStatus y status reason))) :
    status ≠ .pendingAccept := by
  obtain ⟨party, -, h⟩ := inside
  cases party with
  | offer q =>
    rcases h with (((h | h) | h) | h) | ⟨now, h⟩ | h
    · exact h.elim
    · exact h.elim
    · exact h.2
    · exact h.elim
    · cases h
    · cases h
  | send q steps retrySteps =>
    rcases h with ⟨c, h | h⟩ | h | h | ⟨items, c, now, name, h⟩
    · exact h.elim
    · exact h.elim
    · exact h.elim
    · exact h.elim
    · cases h
  | accept | reject | cancel | maintenance | cleanup => exact h.elim

/-- A task that waits for the user has just been registered, or was waiting before. -/
private theorem pending_inv (inside : poolOps parties i o) (done : exec i o x w = some (w', r))
    {t' : TransferTask} (found : w'.transfers.lookup y = some t')
    (pending : t'.status = .pendingAccept) :
    (o = .task (.insert t') ∧ t'.id = y) ∨
    ((∀ t, o = .task (.insert t) → t.id ≠ y) ∧ ∃ t, w.transfers.lookup y = some t ∧
      SameTransfer t t' ∧ t.status = .pendingAccept ∧ t'.revision = t.revision) := by
  refine (task_inv done found).imp_right ?_
  rintro ⟨other, t, old, same, waits⟩
  obtain ⟨reason, rfl⟩ | ⟨waited, revision⟩ := waits pending
  · exact absurd rfl (not_pending_of_update inside)
  · exact ⟨other, t, old, same, waited, revision⟩

/-- While the offer is the last one to have registered the transfer and the task waits for
the user, its revision is this one. -/
private def RevisionIs (j : ℕ) (y : String) (revision : ℕ) (w : World) : Prop :=
  registrant y w.journal = some j → ∀ t, w.transfers.lookup y = some t →
    t.status = .pendingAccept → t.revision = revision

/-- The task shows what the offer said. -/
private structure Fits (f : IncomingOffer) (t : TransferTask) : Prop where
  peerFingerprint : t.peerFingerprint = f.peerFp
  peerName : t.peerName = f.offer.senderName
  items : t.items = f.offer.items.map FileItemMeta.ofItem
  totalBytes : t.totalBytes = f.offer.totalSize

private def announcement (f : IncomingOffer) (m : Uuid) (trusted : Bool) (revision : ℕ) :
    HostEvent :=
  .transferIncoming f.id m f.offer.senderName f.peerFp trusted f.offer.items f.offer.totalSize
    revision

private structure Told (parties : List Party) (μ : ℕ → Option Recall) (w : World) : Prop where
  named : ∀ {y t}, w.transfers.lookup y = some t → t.id = y
  fits : ∀ {j f y t}, parties[j]? = some (.offer f) → registrant y w.journal = some j →
    w.transfers.lookup y = some t → t.status = .pendingAccept → Fits f t
  listed : ∀ {j f}, parties[j]? = some (.offer f) → μ j ≠ none →
    Event.registered j f.id ∈ w.journal
  noted : ∀ {j f s m}, parties[j]? = some (.offer f) → μ j = some s →
    s.notificationId = some m → NoteIs f.id m w
  revised : ∀ {j f s n}, parties[j]? = some (.offer f) → μ j = some s → s.revision = some n →
    RevisionIs j f.id n w
  told : ∀ {j f e}, parties[j]? = some (.offer f) → Event.emitted j e ∈ w.journal →
    isIncoming e = true → μ j ≠ none ∧ ∃ m trusted n, e = announcement f m trusted n ∧
      NoteIs f.id m w ∧ RevisionIs j f.id n w

private theorem told_start (start : AtStart w) : Told parties (fun _ => none) w := by
  constructor <;> simp [start.journal, start.transfers]

private theorem revisionIs_step (inside : poolOps parties i o)
    (done : exec i o x w = some (w', r)) {j n : ℕ}
    (once : ∀ t, o = .task (.insert t) → t.id = y → i ≠ j) (h : RevisionIs j y n w) :
    RevisionIs j y n w' := by
  intro last t' found pending
  obtain ⟨rfl, rfl⟩ | ⟨other, t, old, -, waited, same⟩ := pending_inv inside done found pending
  · rw [registrant_insert done rfl] at last
    cases last
    exact absurd rfl (once t' rfl rfl)
  · rw [registrant_same done other] at last
    exact same.trans (h last t old waited)

private inductive Reads (f : IncomingOffer) : Option Recall → (o : Op) → o.Resp →
    Option Recall → Prop
  | stay {s : Option Recall} {o : Op} {a : o.Resp} (calm : ∀ t, o ≠ .task (.insert t))
      (quiet : ∀ e, o = .env (.emit e) → isIncoming e = false) : Reads f s o a s
  | enter {t : TransferTask} {a : (TaskOp.insert t).Resp} :
      Reads f none (.task (.insert t)) a (some ⟨none, none, none⟩)
  | trust {s : Recall} {b : Bool} :
      Reads f (some s) (.env (.isActiveTrust f.peerFp)) b (some { s with trusted := some b })
  | note {s : Recall} {m : Uuid} :
      Reads f (some s) (.note (.ensure f.id)) m (some { s with notificationId := some m })
  | revision {s : Recall} {n : ℕ} :
      Reads f (some s) (.task (.revision f.id)) n (some { s with revision := some n })
  | tell {s : Recall} {e : HostEvent} {a : (EnvOp.emit e).Resp} (tells : s.Tells f e) :
      Reads f (some s) (.env (.emit e)) a (some s)

private theorem reads_of_next {f : IncomingOffer} {q : Option Recall}
    (moved : recallNext f q o r = some s) : Reads f q o r s := by
  cases q with
  | none =>
    cases o with
    | task u =>
      cases u with
      | insert t =>
        cases moved
        exact .enter
      | _ => cases moved
    | env e =>
      cases e with
      | now =>
        cases moved
        exact .stay (by simp) (by simp)
      | _ => cases moved
    | _ => cases moved
  | some m =>
    cases o with
    | task u =>
      cases u with
      | insert t => cases moved
      | revision y =>
        simp only [recallNext, Option.some.injEq] at moved
        split_ifs at moved with same
        · subst same moved
          exact .revision
        · subst moved
          exact .stay (by simp) (by simp)
      | _ =>
        cases moved
        exact .stay (by simp) (by simp)
    | note n =>
      cases n with
      | ensure y =>
        simp only [recallNext, Option.some.injEq] at moved
        split_ifs at moved with same
        · subst same moved
          exact .note
        · subst moved
          exact .stay (by simp) (by simp)
      | _ =>
        cases moved
        exact .stay (by simp) (by simp)
    | env e =>
      cases e with
      | isActiveTrust fp =>
        simp only [recallNext, Option.some.injEq] at moved
        split_ifs at moved with same
        · subst same moved
          exact .trust
        · subst moved
          exact .stay (by simp) (by simp)
      | emit e =>
        simp only [recallNext] at moved
        split_ifs at moved with tells
        cases moved
        exact .tell tells
      | _ =>
        cases moved
        exact .stay (by simp) (by simp)
    | gate | net | fs =>
      cases moved
      exact .stay (by simp) (by simp)

private theorem Reads.some_of_some {f : IncomingOffer} {q : Option Recall}
    (h : Reads f q o r s) (begun : q ≠ none) : s ≠ none := by
  cases h with
  | stay | tell => exact begun
  | enter | trust | note | revision => simp

private theorem Reads.not_insert {f : IncomingOffer} {q : Option Recall} {t : TransferTask}
    {a : (TaskOp.insert t).Resp} (h : Reads f q (.task (.insert t)) a s) : q = none := by
  cases h with
  | stay calm => exact absurd rfl (calm t)
  | enter => rfl

private theorem newTask_of_insert {f : IncomingOffer} {t : TransferTask}
    (offer : parties[i]? = some (.offer f)) (inside : poolOps parties i (.task (.insert t))) :
    ∃ now, t = f.newTask now := by
  obtain ⟨party, here, h⟩ := inside
  cases offer.symm.trans here
  rcases h with (((h | h) | h) | h) | ⟨now, h⟩ | h
  · exact h.elim
  · exact h.elim
  · exact h.elim
  · exact h.elim
  · cases h
    exact ⟨now, rfl⟩
  · cases h

section Step

variable (known : Told parties μ w) (inside : poolOps parties i o)
  (done : exec i o x w = some (w', r)) (moved : recalls parties i (μ i) o r = some s)
  {j : ℕ} {f : IncomingOffer} (offer : parties[j]? = some (.offer f))

include moved offer in
private theorem recall_cases :
    (j ≠ i ∧ Function.update μ i s j = μ j) ∨
    (j = i ∧ Function.update μ i s j = s ∧ Reads f (μ j) o r s) := by
  by_cases hj : j = i
  · subst hj
    rw [recalls_offer offer] at moved
    exact .inr ⟨rfl, Function.update_self .., reads_of_next moved⟩
  · exact .inl ⟨hj, Function.update_of_ne hj ..⟩

include moved offer in
private theorem begun_step (begun : μ j ≠ none) : Function.update μ i s j ≠ none := by
  obtain ⟨-, same⟩ | ⟨-, same, reads⟩ := recall_cases moved offer
  · rwa [same]
  · rw [same]
    exact reads.some_of_some begun

include moved offer in
private theorem once_registered (begun : μ j ≠ none) {t : TransferTask}
    (insert : o = .task (.insert t)) : i ≠ j := by
  rintro rfl
  subst insert
  obtain ⟨other, -⟩ | ⟨-, -, reads⟩ := recall_cases moved offer
  · exact other rfl
  · exact begun reads.not_insert

include known inside done in
private theorem fits_step {t : TransferTask} (offer : parties[j]? = some (.offer f))
    (last : registrant y w'.journal = some j) (found : w'.transfers.lookup y = some t)
    (pending : t.status = .pendingAccept) : Fits f t := by
  obtain ⟨rfl, rfl⟩ | ⟨other, t₀, old, same, waited, -⟩ := pending_inv inside done found pending
  · rw [registrant_insert done rfl] at last
    cases last
    obtain ⟨now, rfl⟩ := newTask_of_insert offer inside
    exact ⟨rfl, rfl, rfl, rfl⟩
  · rw [registrant_same done other] at last
    have before := known.fits offer last old waited
    exact ⟨same.peerFingerprint.trans before.peerFingerprint,
      same.peerName.trans before.peerName, same.items.trans before.items,
      same.totalBytes.trans before.totalBytes⟩

include known inside done moved offer in
private theorem listed_step (begun : Function.update μ i s j ≠ none) :
    Event.registered j f.id ∈ w'.journal := by
  obtain ⟨-, same⟩ | ⟨rfl, same, reads⟩ := recall_cases moved offer
  · rw [same] at begun
    exact mem_journal_mono done (known.listed offer begun)
  · rw [same] at begun
    have earlier (h : μ j ≠ none) : Event.registered j f.id ∈ w'.journal :=
      mem_journal_mono done (known.listed offer h)
    generalize μ j = q at reads earlier
    cases reads with
    | stay | tell => exact earlier begun
    | trust | note | revision => exact earlier (by simp)
    | enter =>
      obtain ⟨now, rfl⟩ := newTask_of_insert offer inside
      refine (mem_journal_iff done).mpr (.inr ?_)
      simp [history, taskHistory, IncomingOffer.newTask]

include known done moved offer in
private theorem noted_step {q : Recall} {m : Uuid} (here : Function.update μ i s j = some q)
    (noted : q.notificationId = some m) : NoteIs f.id m w' := by
  obtain ⟨-, same⟩ | ⟨rfl, same, reads⟩ := recall_cases moved offer
  · rw [same] at here
    exact noteIs_mono done (known.noted offer here noted)
  · rw [same] at here
    have earlier {q' : Recall} (h : μ j = some q') (h' : q'.notificationId = some m) :
        NoteIs f.id m w' := noteIs_mono done (known.noted offer h h')
    generalize μ j = q at reads earlier
    cases reads with
    | stay | tell => exact earlier here noted
    | enter => cases here; cases noted
    | trust | revision =>
      cases here
      exact earlier rfl noted
    | note =>
      cases here
      cases noted
      exact noteIs_of_ensure done

include known inside done moved offer in
private theorem revised_step {q : Recall} {n : ℕ} (here : Function.update μ i s j = some q)
    (revised : q.revision = some n) : RevisionIs j f.id n w' := by
  have earlier {q' : Recall} (h : μ j = some q') (h' : q'.revision = some n) :
      RevisionIs j f.id n w' := by
    refine revisionIs_step inside done (fun t insert _ => ?_) (known.revised offer h h')
    exact once_registered moved offer (by simp [h]) insert
  obtain ⟨-, same⟩ | ⟨rfl, same, reads⟩ := recall_cases moved offer
  · rw [same] at here
    exact earlier here revised
  · rw [same] at here
    generalize μ j = q at reads earlier
    cases reads with
    | stay | tell => exact earlier here revised
    | enter => cases here; cases revised
    | trust | note =>
      cases here
      exact earlier rfl revised
    | @revision _ n =>
      cases here
      cases revised
      obtain rfl : n = revisionOf w f.id := exec_task_answer done
      intro last t found pending
      obtain ⟨insert, -⟩ | ⟨-, t₀, old, -, -, same⟩ := pending_inv inside done found pending
      · cases insert
      · rw [same, revisionOf, old]
        rfl

include known inside done moved offer in
private theorem told_step {e : HostEvent} (emitted : Event.emitted j e ∈ w'.journal)
    (incoming : isIncoming e = true) : Function.update μ i s j ≠ none ∧
      ∃ m trusted n, e = announcement f m trusted n ∧ NoteIs f.id m w' ∧
        RevisionIs j f.id n w' := by
  obtain old | ⟨rfl, from'⟩ := origin_of_new done emitted
  · obtain ⟨begun, m, trusted, n, same, noted, revised⟩ := known.told offer old incoming
    refine ⟨begun_step moved offer begun, m, trusted, n, same, noteIs_mono done noted, ?_⟩
    exact revisionIs_step inside done
      (fun t insert _ => once_registered moved offer begun insert) revised
  · obtain rfl | ⟨u, a, n, rfl, member⟩ := from'
    · obtain ⟨other, -⟩ | ⟨-, same, reads⟩ := recall_cases moved offer
      · exact absurd rfl other
      · rw [same]
        generalize before : μ j = q at reads
        cases reads with
        | stay calm quiet => simp [quiet e rfl] at incoming
        | tell tells =>
          cases e with
          | transferIncoming =>
            obtain ⟨rfl, noted, rfl, rfl, -, rfl, rfl, revised⟩ := tells
            refine ⟨by simp, _, _, _, rfl, noteIs_mono done (known.noted offer before noted), ?_⟩
            exact revisionIs_step inside done (fun t insert _ => by cases insert)
              (known.revised offer before revised)
          | _ => cases incoming
    · rw [sectionEvents_quiet member] at incoming
      cases incoming

end Step

private theorem knowing_step (known : Told parties μ w) (inside : poolOps parties i o)
    (done : exec i o x w = some (w', r)) (moved : recalls parties i (μ i) o r = some s) :
    Told parties (Function.update μ i s) w' where
  named found := by
    obtain ⟨rfl, rfl⟩ | ⟨-, t, old, same, -⟩ := task_inv done found
    · rfl
    · exact same.id.trans (known.named old)
  fits := fits_step known inside done
  listed := listed_step known inside done moved
  noted offer := noted_step known done moved offer
  revised offer := revised_step known inside done moved offer
  told offer := told_step known inside done moved offer

section Run

variable {debug : DashMessage → String} {a b c t : Pool Op Op.Resp World (Except String Unit)}

private theorem known_of_evolves (start : AtStart w) (h : Evolves (pool debug w parties) c) :
    (∀ i (x : Code (Except String Unit)), c.threads[i]? = some x →
      x.Within (poolOps parties i) fun _ => True) ∧
    ∃ μ, Tracked (recalls parties) (fun _ _ _ => True) μ c.threads ∧ Told parties μ c.world := by
  induction h with
  | refl => exact ⟨pool_within debug w parties, _, pool_recalls debug w parties, told_start start⟩
  | tail _ e ih =>
    obtain ⟨within, μ, tracked, known⟩ := ih
    obtain ⟨i, step⟩ | ⟨peers, rfl⟩ := e
    · have once := Run.tail (.refl _) step
      refine ⟨once.within (poolOps parties) _ within, ?_⟩
      cases step with
      | mk here allowed done =>
        obtain ⟨s, moved, onward⟩ := tracked.step here _
        exact ⟨_, onward, knowing_step known (within i _ here).1 done moved⟩
    · exact ⟨within, μ, tracked,
        ⟨known.named, known.fits, known.listed, known.noted, known.revised, known.told⟩⟩

private theorem exec_trustedPeers (done : exec i o x w = some (w', r)) :
    w'.trustedPeers = w.trustedPeers := by
  obtain ⟨w₁, ran, same⟩ := exec_inv done
  rw [same, log]
  exact (frame_execOp ran).trustedPeers

/-- What the offer has read and shown of the trust in its sender is still so. -/
private structure Flagged (j : ℕ) (f : IncomingOffer) (μ : ℕ → Option Recall) (w : World) :
    Prop where
  asked : ∀ {s b}, μ j = some s → s.trusted = some b → b = isActiveTrust w.trustedPeers f.peerFp
  shown : ∀ {m b n}, Event.emitted j (announcement f m b n) ∈ w.journal →
    b = isActiveTrust w.trustedPeers f.peerFp

private theorem flagged_step {j : ℕ} {f : IncomingOffer} (offer : parties[j]? = some (.offer f))
    (flagged : Flagged j f μ w) (done : exec i o x w = some (w', r))
    (moved : recalls parties i (μ i) o r = some s) : Flagged j f (Function.update μ i s) w' := by
  constructor
  · intro q b here asked
    rw [exec_trustedPeers done]
    obtain ⟨-, same⟩ | ⟨rfl, same, reads⟩ := recall_cases moved offer
    · rw [same] at here
      exact flagged.asked here asked
    · rw [same] at here
      have earlier {q' : Recall} (h : μ j = some q') (h' : q'.trusted = some b) :=
        flagged.asked h h'
      generalize μ j = q at reads earlier
      cases reads with
      | stay | tell => exact earlier here asked
      | enter => cases here; cases asked
      | note | revision =>
        cases here
        exact earlier rfl asked
      | trust =>
        cases here
        cases asked
        obtain ⟨w₁, ran, -⟩ := exec_inv done
        cases ran
        rfl
  · intro m b n emitted
    rw [exec_trustedPeers done]
    obtain old | ⟨rfl, from'⟩ := origin_of_new done emitted
    · exact flagged.shown old
    · obtain rfl | ⟨u, a, n, rfl, member⟩ := from'
      · obtain ⟨other, -⟩ | ⟨-, -, reads⟩ := recall_cases moved offer
        · exact absurd rfl other
        · generalize before : μ j = q at reads
          cases reads with
          | stay calm quiet => cases quiet _ rfl
          | tell tells => exact flagged.asked before tells.2.2.2.2.1
      · cases sectionEvents_quiet member

private theorem known_of_run {j : ℕ} {f : IncomingOffer} (start : AtStart w)
    (offer : parties[j]? = some (.offer f)) (before : Evolves (pool debug w parties) c)
    (new : Event.registered j f.id ∉ c.world.journal) (run : Run exec free c t) :
    ∃ μ, Told parties μ t.world ∧ Flagged j f μ t.world := by
  obtain ⟨within, μ, tracked, known⟩ := known_of_evolves start before
  have idle : μ j = none := by
    by_contra begun
    exact new (known.listed offer begun)
  have flagged : Flagged j f μ c.world := by
    constructor
    · intro s b here
      rw [idle] at here
      cases here
    · intro m b n emitted
      exact absurd idle (known.told offer emitted rfl).1
  obtain ⟨μ', -, both⟩ := Run.tracked (run.bounded (poolOps parties) within)
    (fun μ w => Told parties μ w ∧ Flagged j f μ w) tracked ⟨known, flagged⟩ (by
      rintro μ i o x w w' r s ⟨known, flagged⟩ ⟨-, inside⟩ done moved
      exact ⟨knowing_step known inside done moved, flagged_step offer flagged done moved⟩)
  exact ⟨μ', both⟩

private theorem run_noteIs (run : Run exec free a b) {m : Uuid} (h : NoteIs y m a.world) :
    NoteIs y m b.world :=
  run.world_invariant (NoteIs y m) h fun _ _ _ _ _ _ noted _ done => noteIs_mono done noted

private theorem run_trustedPeers (run : Run exec free a b) :
    b.world.trustedPeers = a.world.trustedPeers :=
  run.world_invariant (fun w => w.trustedPeers = a.world.trustedPeers) rfl
    fun _ _ _ _ _ _ same _ done => (exec_trustedPeers done).trans same

end Run

private theorem mem_requests {notifications : AList (fun _ : String => IncomingRequestNotification)}
    {trusted : AList (fun _ : String => TrustLevel)}
    {transfers : AList (fun _ : String => TransferTask)} {p : PendingIncomingRequestPayload}
    (h : p ∈ getPendingIncomingRequests notifications trusted transfers) :
    ∃ y t n, transfers.lookup y = some t ∧ t.status = .pendingAccept ∧
      notifications.lookup t.id = some n ∧
      p = ⟨t.id, n.notificationId, t.peerName, t.peerFingerprint,
        isTrusted trusted t.peerFingerprint, t.items, t.totalBytes, t.revision⟩ := by
  rw [getPendingIncomingRequests, List.mem_insertionSort] at h
  obtain ⟨⟨y, t⟩, entry, shown⟩ := List.mem_filterMap.mp h
  simp only [pendingRequest] at shown
  split_ifs at shown with waits
  split at shown
  · cases shown
  · rename_i n found
    split_ifs at shown
    cases shown
    exact ⟨y, t, n, AList.mem_lookup_iff.mpr entry, waits.2, found, rfl⟩

private theorem active_iff (trusted : AList (fun _ : String => TrustLevel)) (fp : String) :
    isActiveTrust trusted fp = isTrusted trusted fp ↔ trusted.lookup fp ≠ some .frozen := by
  unfold isActiveTrust isTrusted
  cases trusted.lookup fp with
  | none => simp
  | some level => cases level <;> simp [TrustLevel.allowsSensitiveSend]

/-- The entry of an announced offer, read while the run goes on, shows what its event showed
if and only if its sender is not frozen. The trust list may change before the offer comes in. -/
theorem request_matches_announcement_iff (debug : DashMessage → String) (parties : List Party)
    (w : World) (start : AtStart w) {a b c t : Pool Op Op.Resp World (Except String Unit)}
    (before : Evolves (pool debug w parties) c) (toNotes : Run exec free c a)
    (toTrust : Run exec free a b) (toTasks : Run exec free b t) {j : ℕ} {f : IncomingOffer}
    {e : HostEvent} {p : PendingIncomingRequestPayload} (offer : parties[j]? = some (.offer f))
    (new : Event.registered j f.id ∉ c.world.journal)
    (last : registrant f.id t.world.journal = some j)
    (announced : Event.emitted j e ∈ t.world.journal) (incoming : isIncoming e = true)
    (listed : p ∈ getPendingIncomingRequests a.world.notifications b.world.trustedPeers
      t.world.transfers) (own : p.transferId = f.id) :
    SameRequest p e ↔ b.world.trustedPeers.lookup f.peerFp ≠ some .frozen := by
  obtain ⟨μ, known, flagged⟩ :=
    known_of_run start offer before new ((toNotes.trans toTrust).trans toTasks)
  obtain ⟨y, task, n, present, pending, noted, rfl⟩ := mem_requests listed
  have here : f.id = y := by
    rw [← own]
    exact known.named present
  subst here
  have fits := known.fits offer last present pending
  obtain ⟨-, m, trusted, revision, rfl, shown, revised⟩ := known.told offer announced incoming
  -- the identifier that was shown is that of the entry read at the beginning of the call
  have sameNote : m = n.notificationId := by
    have kept : NoteIs f.id n.notificationId t.world := by
      refine run_noteIs (toTrust.trans toTasks) ⟨n, ?_, rfl⟩
      rw [← own]
      exact noted
    obtain ⟨n₁, found₁, same₁⟩ := shown
    obtain ⟨n₂, found₂, same₂⟩ := kept
    cases found₁.symm.trans found₂
    exact same₁.symm.trans same₂
  have flag := flagged.shown announced
  rw [run_trustedPeers toTasks] at flag
  rw [← active_iff, ← flag]
  simp only [SameRequest, announcement, fits.peerFingerprint, fits.peerName, fits.items,
    fits.totalBytes, revised last task present pending, sameNote, own.symm, true_and, and_true]

/-- Start-up with one incoming connection of a peer at this level. -/
def knownPeer (level : TrustLevel) : World :=
  { sampleWorld ["bob"] with
    trustedPeers := (∅ : AList fun _ : String => TrustLevel).insert "bob" level }

def sampleEntry (trusted : Bool) : PendingIncomingRequestPayload :=
  ⟨"t1", 0, "Bob", "bob", trusted, [FileItemMeta.ofItem sampleItem], 3, 0⟩

def sampleAnnouncement (trusted : Bool) : HostEvent :=
  .transferIncoming "t1" 0 "Bob" "bob" trusted [sampleItem] 3 0

private theorem prompted_state (level : TrustLevel) (active : Bool)
    (h : ((pool (fun _ => "") (knownPeer level) [.offer (sampleOffer "t1" 0)]).play
      (restrict exec unchecked) (stepsOf 0 100 promptReplies)).any (fun t =>
        t.world.journal.contains (.emitted 0 (sampleAnnouncement active)) &&
        registrant "t1" t.world.journal == some 0 &&
        (getPendingIncomingRequests t.world.notifications t.world.trustedPeers
          t.world.transfers).contains (sampleEntry true)) = true) :
    ∃ t, Run exec free (pool (fun _ => "") (knownPeer level) [.offer (sampleOffer "t1" 0)]) t ∧
      Event.emitted 0 (sampleAnnouncement active) ∈ t.world.journal ∧
      registrant "t1" t.world.journal = some 0 ∧
      sampleEntry true ∈ getPendingIncomingRequests t.world.notifications t.world.trustedPeers
        t.world.transfers := by
  obtain ⟨t, run, found⟩ := exists_run_of_play exec unchecked_sound _ _ _ h
  simp only [Bool.and_eq_true, List.contains_iff_mem, beq_iff_eq] at found
  exact ⟨t, run, found.1.1, found.1.2, found.2⟩

/-- The event of a frozen peer's offer calls it untrusted and the list calls it trusted. -/
theorem frozen_sender_listed_as_trusted :
    ∃ t e p, Run exec free
        (pool (fun _ => "") (knownPeer .frozen) [.offer (sampleOffer "t1" 0)]) t ∧
      Event.emitted 0 e ∈ t.world.journal ∧ isIncoming e = true ∧
      registrant "t1" t.world.journal = some 0 ∧
      p ∈ getPendingIncomingRequests t.world.notifications t.world.trustedPeers
        t.world.transfers ∧ p.transferId = "t1" ∧ ¬ SameRequest p e := by
  obtain ⟨t, run, announced, last, listed⟩ := prompted_state .frozen false (by decide)
  refine ⟨t, _, _, run, announced, rfl, last, listed, rfl, fun same => ?_⟩
  have trusted : false = true := same.2.2.2.2.1
  cases trusted

theorem confirmed_sender_listed_as_announced :
    ∃ t p, Run exec free
        (pool (fun _ => "") (knownPeer .mutualConfirmed) [.offer (sampleOffer "t1" 0)]) t ∧
      p ∈ getPendingIncomingRequests t.world.notifications t.world.trustedPeers
        t.world.transfers ∧ SameRequest p (sampleAnnouncement true) := by
  obtain ⟨t, run, announced, last, listed⟩ := prompted_state .mutualConfirmed true (by decide)
  have edited : Evolves (pool (fun _ => "") (sampleWorld ["bob"]) [.offer (sampleOffer "t1" 0)])
      (pool (fun _ => "") (knownPeer .mutualConfirmed) [.offer (sampleOffer "t1" 0)]) :=
    Relation.ReflTransGen.single (.inr ⟨_, rfl⟩)
  have matched := request_matches_announcement_iff (fun _ => "") [.offer (sampleOffer "t1" 0)]
    (sampleWorld ["bob"]) ⟨rfl, rfl, rfl, rfl, rfl⟩ edited run (.refl t) (.refl t)
    (j := 0) (f := sampleOffer "t1" 0) rfl (by decide) last announced rfl listed rfl
  refine ⟨t, _, run, listed, matched.mpr ?_⟩
  rw [run_trustedPeers run]
  decide

end DashDrop.Receiving.Requests
