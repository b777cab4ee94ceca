/- GID: DashDrop/Receiving/Notifications
   source: src-tauri/src/runtime/supervisor.rs, src-tauri/src/state.rs,
     src-tauri/src/core_service.rs, src-tauri/src/transport/receiver.rs
   anchors: []
   digest: Whom notifications belong to, and when one that was taken down stays down. -/

import DashDrop.Receiving.Maintenance

set_option autoImplicit false
set_option relaxedAutoImplicit false

namespace DashDrop.Receiving.Notifications

open DashDrop.Foundation.Program DashDrop.Foundation.Interleaving
open DashDrop.Foundation.Discipline DashDrop.Foundation.Oneshot
open DashDrop.Transport.Protocol DashDrop.Transport.Receiver DashDrop.Transport.Sender
open DashDrop.Runtime.State DashDrop.Runtime.Machine DashDrop.Runtime.Effects
open DashDrop.Runtime.Footprint DashDrop.Runtime.Supervisor
open DashDrop.Receiving.Phases DashDrop.Receiving.Registry DashDrop.Receiving.Ledger
open DashDrop.Receiving.Maintenance

def Incoming (parties : List Party) (w : World) (y : String) : Prop :=
  ∃ j, IsOffer parties j y ∧ Event.registered j y ∈ w.journal

/-- Every notification belongs to an incoming transfer. -/
def Received (parties : List Party) (w : World) : Prop :=
  ∀ y n, w.notifications.lookup y = some n → Incoming parties w y ∧
    ∀ t, w.transfers.lookup y = some t → t.direction = .receive

def Shows (w : World) (y : String) (active : Bool) : Prop :=
  ∃ n, w.notifications.lookup y = some n ∧ n.active = active

def SameOffer (y : String) (w w' : World) : Prop :=
  ∀ j, Event.registered j y ∈ w'.journal → Event.registered j y ∈ w.journal

/-- A notification that a step takes down stays down for the same offer. -/
def StaysDown (guard : Guard Op World Ans)
    (start t : Pool Op Op.Resp World (Except String Unit)) : Prop :=
  ∀ a b i y, Run exec guard start a → Step exec guard i a b → Run exec guard b t →
    Shows a.world y true → Shows b.world y false → SameOffer y b.world t.world →
    Shows t.world y false

/-- The offer has passed its last `ensure_incoming_request_notification`. -/
def Prompted (w : World) (j : ℕ) (y : String) : Prop :=
  (∃ c, Event.opened j y c ∈ w.journal) ∨ ∃ status, Event.moved j y status ∈ w.journal

/-- Nobody is going to show the notification again: no open maintenance pass has seen the
transfer pending, and no offer of it is still on its way to the prompt. -/
def Unattended (parties : List Party) (w : World) (y : String) : Prop :=
  (∀ k ids, openPass k w.journal = some ids → y ∉ ids) ∧
  ∀ j, IsOffer parties j y → Event.registered j y ∈ w.journal → Prompted w j y

/-- Outgoing transfers have identifiers that no other party uses, a maintenance pass finds neither an
outgoing transfer nor a request that was taken down in `PendingAccept`, and a notification is
taken down only when nobody is going to show it again. -/
def Settled (parties : List Party) : Guard Op World Ans := fun i o _ w =>
  match o with
  | .task (.insert t) => t.direction = .send → ∀ k, k ≠ i → Event.registered k t.id ∉ w.journal
  | .task .snapshot => ∀ y t, w.transfers.lookup y = some t → t.status = .pendingAccept →
      t.direction = .receive ∧ ¬ Shows w y false
  | .note (.markInactive y _) => Shows w y true → Unattended parties w y
  | _ => True

variable {parties : List Party} {φ : ℕ → Phase} {i : ℕ} {o : Op} {x : Ans} {w w' : World}
variable {r : o.Resp} {s : Phase} {y : String}

private theorem direction_of_insert {t : TransferTask}
    (h : poolOps parties i (.task (.insert t))) :
    (t.direction = .receive ∧ IsOffer parties i t.id) ∨
    (t.direction = .send ∧ ∀ y, ¬ IsOffer parties i y) := by
  obtain ⟨party, here, h⟩ := h
  cases party with
  | offer q =>
    rcases h with (((h | h) | h) | h) | ⟨now, h⟩ | h
    · exact h.elim
    · exact h.elim
    · exact h.elim
    · exact h.elim
    · cases h
      exact .inl ⟨rfl, q, here, rfl⟩
    · cases h
  | send q steps retrySteps =>
    rcases h with ⟨c, h | h⟩ | h | h | ⟨items, c, now, name, h⟩
    · exact h.elim
    · exact h.elim
    · exact h.elim
    · exact h.elim
    · cases h
      refine .inr ⟨rfl, ?_⟩
      rintro y ⟨f, offer, -⟩
      cases here.symm.trans offer
  | accept | reject | cancel | maintenance | cleanup => exact h.elim

private theorem incoming_mono (done : exec i o x w = some (w', r))
    (h : Incoming parties w y) : Incoming parties w' y := by
  obtain ⟨j, offer, registered⟩ := h
  exact ⟨j, offer, mem_journal_mono done registered⟩

private theorem note_inv (done : exec i o x w = some (w', r)) {n' : IncomingRequestNotification}
    (found : w'.notifications.lookup y = some n') :
    o = .note (.ensure y) ∨ ∃ n, w.notifications.lookup y = some n := by
  rw [exec_lookup_note done] at found
  cases o with
  | note u =>
    cases u with
    | ensure z =>
      simp only [onNote, noteEffect] at found
      split_ifs at found with same
      · exact .inl (by rw [same])
      · exact .inr ⟨n', found⟩
    | markInactive z reason =>
      simp only [onNote, noteEffect] at found
      split_ifs at found
      · obtain ⟨n, was, -⟩ := Option.map_eq_some_iff.mp found
        exact .inr ⟨n, was⟩
      · exact .inr ⟨n', found⟩
    | read z => exact .inr ⟨n', found⟩
  | _ => exact .inr ⟨n', found⟩

private theorem shows_false_step (done : exec i o x w = some (w', r))
    (still : o ≠ .note (.ensure y)) (h : Shows w y false) : Shows w' y false := by
  obtain ⟨n, found, down⟩ := h
  have after := exec_lookup_note done y
  rw [found] at after
  cases o with
  | note u =>
    cases u with
    | ensure z =>
      have other : y ≠ z := by
        rintro rfl
        exact still rfl
      simp only [onNote, noteEffect, if_neg other] at after
      exact ⟨n, after, down⟩
    | markInactive z reason =>
      simp only [onNote, noteEffect] at after
      split_ifs at after
      · exact ⟨_, after, rfl⟩
      · exact ⟨n, after, down⟩
    | read z => exact ⟨n, after, down⟩
  | _ => exact ⟨n, after, down⟩

private theorem mark_of_shows (done : exec i o x w = some (w', r)) (up : Shows w y true)
    (down : Shows w' y false) : ∃ reason, o = .note (.markInactive y reason) := by
  obtain ⟨n, found, active⟩ := up
  obtain ⟨n', found', inactive⟩ := down
  rw [exec_lookup_note done, found] at found'
  have unchanged (h : some n = some n') : False := by
    cases h
    cases active.symm.trans inactive
  cases o with
  | note u =>
    cases u with
    | ensure z =>
      simp only [onNote, noteEffect] at found'
      split_ifs at found'
      · cases found'
        cases inactive
      · exact (unchanged found').elim
    | markInactive z reason =>
      simp only [onNote, noteEffect] at found'
      split_ifs at found' with same
      · exact ⟨reason, by rw [same]⟩
      · exact (unchanged found').elim
    | read z => exact (unchanged found').elim
  | _ => exact (unchanged found').elim

private def prompting : Phase → Bool
  | .listed | .noted _ | .prompted _ => true
  | _ => false

/-- An offer comes to its prompt from its registration, without a sender or a status. -/
private theorem prompting_inv {f : IncomingOffer} {q : Phase}
    (offer : parties[i]? = some (.offer f)) (change : Change parties i q o r s)
    (h : prompting s = true) :
    (q = .idle ∧ ∃ t, o = .task (.insert t) ∧ t.id = f.id) ∨
    (prompting q = true ∧ (∀ y, o ≠ .gate (.register y)) ∧
      ∀ y status reason, o ≠ .task (.updateStatus y status reason)) := by
  have none_of_role {y n} (h : Decides parties i y n) : False := by
    obtain h | h := h <;> cases offer.symm.trans h
  cases change with
  | stay calm =>
    refine .inr ⟨h, ?_, ?_⟩
    · rintro y rfl
      cases calm
    · rintro y status reason rfl
      cases calm
  | list offer' same =>
    cases offer.symm.trans offer'
    exact .inl ⟨rfl, _, rfl, same⟩
  | enlist | mark | emit => exact .inr ⟨h, by simp, by simp⟩
  | note | again | «show» => exact .inr ⟨rfl, by simp, by simp⟩
  | update offer' after =>
    have moving := isMoving_afterUpdate after
    cases s with
    | moving | lost => cases h
    | _ => cases moving
  | read role => exact (none_of_role role).elim
  | status role => exact (none_of_role role).elim
  | contains role => exact (none_of_role role).elim
  | take role =>
    obtain ⟨party, here, plays⟩ := role
    cases offer.symm.trans here
    cases plays
  | ensure | register | wait | discard | send | survey | retain => cases h

/-- Who shows a notification: an offer on the way to its prompt, or a pass that has seen the
transfer pending. -/
private theorem ensure_inv {q : Phase} {m : Uuid}
    (change : Change parties i q (.note (.ensure y)) m s) :
    (IsOffer parties i y ∧ prompting q = true) ∨
    ∃ ids inactive, q = .sweeping ids inactive ∧ y ∈ ids := by
  cases change with
  | stay calm => cases calm
  | note offer => exact .inl ⟨⟨_, offer, rfl⟩, rfl⟩
  | again offer => exact .inl ⟨⟨_, offer, rfl⟩, rfl⟩
  | ensure member => exact .inr ⟨_, _, rfl, member⟩

private structure Known (parties : List Party) (φ : ℕ → Phase) (w : World) : Prop where
  listed : ∀ {j f}, parties[j]? = some (.offer f) → φ j ≠ .idle →
    Event.registered j f.id ∈ w.journal
  begun : ∀ {j f y}, parties[j]? = some (.offer f) → Event.registered j y ∈ w.journal →
    φ j ≠ .idle
  unprompted : ∀ {j f y}, parties[j]? = some (.offer f) → (φ j = .idle ∨ prompting (φ j) = true) →
    ¬ Prompted w j y
  pass : ∀ {k ids inactive}, φ k = .sweeping ids inactive → openPass k w.journal = some ids ∧
    ∀ y ∈ ids, Incoming parties w y
  receives : ∀ {y t}, w.transfers.lookup y = some t →
    (t.direction = .receive ↔ Incoming parties w y)
  noted : ∀ {y n}, w.notifications.lookup y = some n → Incoming parties w y

private theorem known_start (start : AtStart w) : Known parties (fun _ => .idle) w := by
  constructor <;>
    simp [Prompted, Incoming, start.journal, start.transfers, start.notifications]

/-- A status or a sender that is new comes from the step of the offer's own thread. -/
private theorem prompted_inv (done : exec i o x w = some (w', r)) {j : ℕ}
    (h : Prompted w' j y) : Prompted w j y ∨ (j = i ∧ (o = .gate (.register y) ∨
      ∃ status reason, o = .task (.updateStatus y status reason))) := by
  obtain ⟨c, opened⟩ | ⟨status, moved⟩ := h
  · obtain old | ⟨rfl, register⟩ := origin_of_new done opened
    · exact .inl (.inl ⟨c, old⟩)
    · exact .inr ⟨rfl, .inl register⟩
  · obtain old | ⟨rfl, reason, update⟩ := origin_of_new done moved
    · exact .inl (.inr ⟨status, old⟩)
    · exact .inr ⟨rfl, .inr ⟨status, reason, update⟩⟩

private theorem unprompted_step (known : Known parties φ w) (done : exec i o x w = some (w', r))
    (change : Change parties i (φ i) o r s) {j : ℕ} {f : IncomingOffer}
    (offer : parties[j]? = some (.offer f))
    (early : Function.update φ i s j = .idle ∨ prompting (Function.update φ i s j) = true) :
    ¬ Prompted w' j y := by
  intro prompted
  by_cases hj : j = i
  · subst hj
    rw [Function.update_self] at early
    have before : (φ j = .idle ∨ prompting (φ j) = true) ∧ (∀ y, o ≠ .gate (.register y)) ∧
        ∀ y status reason, o ≠ .task (.updateStatus y status reason) := by
      obtain rfl | early := early
      · by_cases idle : φ j = .idle
        · refine ⟨.inl idle, ?_, ?_⟩
          · rintro y rfl
            rw [idle] at change
            cases change with
            | stay calm => cases calm
          · rintro y status reason rfl
            rw [idle] at change
            cases change with
            | stay calm => cases calm
            | update offer' after => cases after
        · have registered := mem_journal_mono done (known.listed offer idle)
          have active := begun_step done change offer (fun _ => idle) registered
          rw [Function.update_self] at active
          exact absurd rfl active
      · obtain ⟨idle, t, rfl, -⟩ | ⟨early, calm⟩ := prompting_inv offer change early
        · exact ⟨.inl idle, by simp, by simp⟩
        · exact ⟨.inr early, calm⟩
    obtain old | ⟨-, register | ⟨status, reason, update⟩⟩ := prompted_inv done prompted
    · exact known.unprompted offer before.1 old
    · exact before.2.1 y register
    · exact before.2.2 y status reason update
  · rw [Function.update_of_ne hj] at early
    obtain old | ⟨rfl, -⟩ := prompted_inv done prompted
    · exact known.unprompted offer early old
    · exact hj rfl

private theorem pass_step (known : Known parties φ w) (allowed : Settled parties i o x w)
    (done : exec i o x w = some (w', r)) (change : Change parties i (φ i) o r s) {k : ℕ}
    {ids inactive : List String} (phase : Function.update φ i s k = .sweeping ids inactive) :
    openPass k w'.journal = some ids ∧ ∀ y ∈ ids, Incoming parties w' y := by
  have earlier (before : φ k = .sweeping ids inactive)
      (other : k ≠ i ∨ (o ≠ .task .snapshot ∧ ∀ ids, o ≠ .gate (.retain ids))) :
      openPass k w'.journal = some ids ∧ ∀ y ∈ ids, Incoming parties w' y := by
    obtain ⟨here, incoming⟩ := known.pass before
    exact ⟨(openPass_step done other).trans here, fun y hy => incoming_mono done (incoming y hy)⟩
  by_cases hk : k = i
  · subst hk
    rw [Function.update_self] at phase
    obtain ⟨before, other⟩ | ⟨rfl, rfl, rfl⟩ := sweeping_inv done change phase
    · exact earlier before (.inr other)
    · refine ⟨openPass_snapshot done, fun y member => incoming_mono done ?_⟩
      obtain ⟨t, found, pending⟩ := mem_pendingOf_iff.mp member
      exact (known.receives found).mp (allowed y t found pending).1
  · rw [Function.update_of_ne hk] at phase
    exact earlier phase (.inl hk)

private theorem incoming_inv (done : exec i o x w = some (w', r)) (h : Incoming parties w' y) :
    Incoming parties w y ∨ (IsOffer parties i y ∧ ∃ t, o = .task (.insert t) ∧ t.id = y) := by
  obtain ⟨j, offer, registered⟩ := h
  obtain old | ⟨rfl, inserted⟩ := origin_of_new done registered
  · exact .inl ⟨j, offer, old⟩
  · exact .inr ⟨offer, inserted⟩

private theorem receives_step (known : Known parties φ w) (allowed : Settled parties i o x w)
    (inside : poolOps parties i o) (done : exec i o x w = some (w', r)) {t : TransferTask}
    (found : w'.transfers.lookup y = some t) :
    t.direction = .receive ↔ Incoming parties w' y := by
  obtain ⟨rfl, rfl⟩ | ⟨apart, t₀, old, same, -⟩ := task_inv done found
  · obtain ⟨receives, offer⟩ | ⟨sends, other⟩ := direction_of_insert inside
    · refine iff_of_true receives ⟨i, offer, (mem_journal_iff done).mpr (.inr ?_)⟩
      simp [history, taskHistory]
    · refine iff_of_false (by simp [sends]) fun incoming => ?_
      obtain ⟨j, offer, registered⟩ | ⟨offer, -⟩ := incoming_inv done incoming
      · refine allowed sends j ?_ registered
        rintro rfl
        exact other _ offer
      · exact other _ offer
  · rw [same.direction, known.receives old]
    refine ⟨incoming_mono done, fun incoming => ?_⟩
    obtain before | ⟨-, t₁, insert, here⟩ := incoming_inv done incoming
    · exact before
    · exact absurd here (apart t₁ insert)

private theorem noted_step (known : Known parties φ w) (done : exec i o x w = some (w', r))
    (change : Change parties i (φ i) o r s) {n : IncomingRequestNotification}
    (found : w'.notifications.lookup y = some n) : Incoming parties w' y := by
  refine incoming_mono done ?_
  obtain rfl | ⟨n₀, old⟩ := note_inv done found
  · obtain ⟨offer, early⟩ | ⟨ids, inactive, phase, member⟩ := ensure_inv change
    · obtain ⟨f, here, rfl⟩ := offer
      have active : φ i ≠ .idle := by
        intro idle
        rw [idle] at early
        cases early
      exact ⟨i, ⟨f, here, rfl⟩, known.listed here active⟩
    · exact (known.pass phase).2 y member
  · exact known.noted old

private theorem known_step (known : Known parties φ w) (allowed : Settled parties i o x w)
    (inside : poolOps parties i o) (done : exec i o x w = some (w', r))
    (change : Change parties i (φ i) o r s) : Known parties (Function.update φ i s) w' where
  listed offer := listed_step done change offer (known.listed offer)
  begun offer := begun_step done change offer (known.begun offer)
  unprompted offer := unprompted_step known done change offer
  pass := pass_step known allowed done change
  receives := receives_step known allowed inside done
  noted := noted_step known done change

/-- Nobody shows the notification again before another offer registers the transfer. -/
private structure Down (parties : List Party) (y : String) (φ : ℕ → Phase) (w : World) : Prop where
  down : Shows w y false
  passes : ∀ {k ids inactive}, φ k = .sweeping ids inactive → y ∉ ids
  offers : ∀ {k}, IsOffer parties k y → prompting (φ k) = false

private theorem down_of_mark (known : Known parties φ w) (allowed : Settled parties i o x w)
    (done : exec i o x w = some (w', r)) (change : Change parties i (φ i) o r s)
    (up : Shows w y true) (down : Shows w' y false) :
    Down parties y (Function.update φ i s) w' := by
  obtain ⟨reason, rfl⟩ := mark_of_shows done up down
  obtain ⟨closed, prompted⟩ : Unattended parties w y := allowed up
  have same : Function.update φ i s = φ := by
    have still : s = φ i := by
      generalize φ i = q at change
      cases change with
      | stay | mark => rfl
    rw [still, Function.update_eq_self]
  rw [same]
  refine ⟨down, fun phase => closed _ _ (known.pass phase).1, fun {k} offer => ?_⟩
  cases early : prompting (φ k) with
  | false => rfl
  | true =>
    obtain ⟨f, here, rfl⟩ := offer
    have active : φ k ≠ .idle := by
      intro idle
      rw [idle] at early
      cases early
    have past := prompted k ⟨f, here, rfl⟩ (known.listed here active)
    exact absurd past (known.unprompted here (.inr early))

private theorem down_step (known : Known parties φ w) (allowed : Settled parties i o x w)
    (done : exec i o x w = some (w', r)) (change : Change parties i (φ i) o r s)
    (h : Down parties y φ w) : Down parties y (Function.update φ i s) w' ∨
      ∃ j, Event.registered j y ∈ w'.journal ∧ Event.registered j y ∉ w.journal := by
  by_cases entered : IsOffer parties i y ∧ φ i = .idle ∧ prompting s = true
  · obtain ⟨⟨f, here, rfl⟩, idle, early⟩ := entered
    refine .inr ⟨i, ?_, fun registered => known.begun here registered idle⟩
    refine listed_step done change here (known.listed here) ?_
    rw [Function.update_self]
    rintro rfl
    cases early
  · refine .inl ⟨?_, ?_, ?_⟩
    · refine shows_false_step done ?_ h.down
      rintro rfl
      obtain ⟨offer, early⟩ | ⟨ids, inactive, phase, member⟩ := ensure_inv change
      · rw [h.offers offer] at early
        cases early
      · exact h.passes phase member
    · intro k ids inactive phase
      by_cases hk : k = i
      · subst hk
        rw [Function.update_self] at phase
        obtain ⟨before, -⟩ | ⟨rfl, rfl, -⟩ := sweeping_inv done change phase
        · exact h.passes before
        · intro member
          obtain ⟨t, found, pending⟩ := mem_pendingOf_iff.mp member
          exact (allowed y t found pending).2 h.down
      · rw [Function.update_of_ne hk] at phase
        exact h.passes phase
    · intro k offer
      by_cases hk : k = i
      · subst hk
        rw [Function.update_self]
        cases early : prompting s with
        | false => rfl
        | true =>
          obtain ⟨f, here, -⟩ := id offer
          obtain ⟨idle, -⟩ | ⟨before, -⟩ := prompting_inv here change early
          · exact absurd ⟨offer, idle, early⟩ entered
          · rw [h.offers offer] at before
            cases before
      · rw [Function.update_of_ne hk]
        exact h.offers offer

section Run

variable {debug : DashMessage → String} {a b t : Pool Op Op.Resp World (Except String Unit)}

private theorem tracked_known (start : AtStart w)
    (run : Run exec (Settled parties) (pool debug w parties) t) :
    ∃ φ, Tracked (moves parties) (mayReturn parties) φ t.threads ∧ Known parties φ t.world := by
  have bounded := run.bounded (poolOps parties) (pool_within debug w parties)
  refine Run.tracked bounded (Known parties) (pool_tracked debug w parties) (known_start start) ?_
  rintro φ i o x w w' r s known ⟨allowed, inside⟩ done moved
  exact known_step known allowed inside done (change_of_moves moved)

/-- From the state in which it was taken down, a notification stays down until a further
offer registers the transfer. -/
private theorem down_run (inside : ∀ i (x : Code (Except String Unit)), b.threads[i]? = some x →
      x.Within (poolOps parties i) fun _ => True)
    (tracked : Tracked (moves parties) (mayReturn parties) φ b.threads)
    (known : Known parties φ b.world) (down : Down parties y φ b.world)
    (run : Run exec (Settled parties) b t) (same : SameOffer y b.world t.world) :
    Shows t.world y false := by
  have bounded := run.bounded (poolOps parties) inside
  obtain ⟨φ', -, -, -, down' | ⟨j, later, new⟩⟩ := Run.tracked bounded
    (fun φ w => Known parties φ w ∧ (∀ e ∈ b.world.journal, e ∈ w.journal) ∧
      (Down parties y φ w ∨
        ∃ j, Event.registered j y ∈ w.journal ∧ Event.registered j y ∉ b.world.journal))
    tracked ⟨known, fun _ h => h, .inl down⟩ (by
      rintro φ i o x w w' r s ⟨known, longer, h⟩ ⟨allowed, inside⟩ done moved
      have change := change_of_moves moved
      refine ⟨known_step known allowed inside done change,
        fun e he => mem_journal_mono done (longer e he), ?_⟩
      obtain down | ⟨j, later, new⟩ := h
      · refine (down_step known allowed done change down).imp_right ?_
        rintro ⟨j, later, new⟩
        exact ⟨j, later, fun before => new (longer _ before)⟩
      · exact .inr ⟨j, mem_journal_mono done later, new⟩)
  · exact down'.down
  · exact absurd (same j later) new

/-- In every run of such steps each notification belongs to an incoming transfer, and one
that was taken down stays down for the same offer. -/
theorem notifications_of_incoming_offers (debug : DashMessage → String) (parties : List Party)
    (w : World) (start : AtStart w) {t : Pool Op Op.Resp World (Except String Unit)}
    (run : Run exec (Settled parties) (pool debug w parties) t) :
    Received parties t.world ∧ StaysDown (Settled parties) (pool debug w parties) t := by
  constructor
  · intro y n found
    obtain ⟨φ, -, known⟩ := tracked_known start run
    have incoming := known.noted found
    exact ⟨incoming, fun task present => (known.receives present).mpr incoming⟩
  · intro a b i y before step after up down same
    obtain ⟨φ, tracked, known⟩ := tracked_known start before
    have threads := before.within (poolOps parties) _ (pool_within debug w parties)
    have later := (before.tail step).within (poolOps parties) _ (pool_within debug w parties)
    cases step with
    | mk here allowed done =>
      obtain ⟨s, moved, onward⟩ := tracked.step here _
      have change := change_of_moves moved
      refine down_run later onward ?_ ?_ after same
      · exact known_step known allowed (threads i _ here).1 done change
      · exact down_of_mark known allowed done change up down

end Run

private def showsCheck (w : World) (y : String) (active : Bool) : Bool :=
  (w.notifications.lookup y).any fun n => n.active == active

private theorem shows_iff {active : Bool} :
    showsCheck w y active = true ↔ Shows w y active := by
  simp [showsCheck, Shows, Option.any_eq_true]

private def sameOfferCheck (y : String) (w w' : World) : Bool :=
  w'.journal.all fun e => match e with
    | .registered j z => z != y || w.journal.contains (.registered j y)
    | _ => true

private theorem sameOffer_of_check (h : sameOfferCheck y w w' = true) : SameOffer y w w' := by
  intro j registered
  simpa using List.all_eq_true.mp h _ registered

/-- One schedule up to the step that takes the notification down, and one after it. -/
private def takesDown (check : ℕ → Op → Ans → World → Bool)
    (start : Pool Op Op.Resp World (Except String Unit)) (before : List (ℕ × Ans)) (i : ℕ) (x : Ans)
    (after : List (ℕ × Ans)) (y : String) (active : Bool) : Bool :=
  (start.play (restrict exec check) before).any fun a => showsCheck a.world y true &&
    (a.step (restrict exec check) i x).any fun b => showsCheck b.world y false &&
      (b.play (restrict exec check) after).any fun t =>
        sameOfferCheck y b.world t.world && showsCheck t.world y active

private theorem exists_of_takesDown {check : ℕ → Op → Ans → World → Bool}
    {guard : Guard Op World Ans} (sound : ∀ i o x w, check i o x w = true → guard i o x w)
    (start : Pool Op Op.Resp World (Except String Unit)) (before : List (ℕ × Ans)) (i : ℕ) (x : Ans)
    (after : List (ℕ × Ans)) (y : String) (active : Bool)
    (h : takesDown check start before i x after y active = true) :
    ∃ a b t, Run exec guard start a ∧ Step exec guard i a b ∧ Run exec guard b t ∧
      Shows a.world y true ∧ Shows b.world y false ∧ SameOffer y b.world t.world ∧
      Shows t.world y active := by
  obtain ⟨a, played, h⟩ := (Option.any_eq_true _ _).mp h
  obtain ⟨up, h⟩ := Bool.and_eq_true_iff.mp h
  obtain ⟨b, stepped, h⟩ := (Option.any_eq_true _ _).mp h
  obtain ⟨down, h⟩ := Bool.and_eq_true_iff.mp h
  obtain ⟨t, finished, h⟩ := (Option.any_eq_true _ _).mp h
  obtain ⟨same, last⟩ := Bool.and_eq_true_iff.mp h
  exact ⟨a, b, t, run_of_play sound played, step_of_pool_step sound stepped,
    run_of_play sound finished, shows_iff.mp up, shows_iff.mp down, sameOffer_of_check same,
    shows_iff.mp last⟩

/-- The loop shows a notification for an outgoing transfer; a pass that took its snapshot
before an accept shows the request again after it; and so does an offer whose transfer was
cancelled on the way to its prompt. -/
theorem notifications_shown_again :
    (∃ t, Run exec free (pool (fun _ => "") (.start .standard)
        [.send sampleRequest [] [], .maintenance 1]) t ∧
      ¬ Received [.send sampleRequest [] [], .maintenance 1] t.world) ∧
    (∃ t, ¬ StaysDown free (pool (fun _ => "") (sampleWorld ["bob"])
      [.offer (sampleOffer "t1" 0), .accept "t1" 0, .maintenance 1]) t) ∧
    ∃ t, ¬ StaysDown free (pool (fun _ => "") (sampleWorld ["bob"])
      [.offer (sampleOffer "t1" 0), .cancel "t1" true, .maintenance 1]) t := by
  have relapse {start : Pool Op Op.Resp World (Except String Unit)} (before : List (ℕ × Ans))
      (i : ℕ) (x : Ans) (after : List (ℕ × Ans))
      (h : takesDown unchecked start before i x after "t1" true = true) :
      ∃ t, ¬ StaysDown free start t := by
    obtain ⟨a, b, t, reached, step, later, up, down, same, again⟩ :=
      exists_of_takesDown unchecked_sound start before i x after "t1" true h
    refine ⟨t, fun stays => ?_⟩
    obtain ⟨n, found, active⟩ := again
    obtain ⟨n', found', inactive⟩ := stays a b i "t1" reached step later up down same
    cases found.symm.trans found'
    cases active.symm.trans inactive
  refine ⟨?_, ?_, ?_⟩
  · obtain ⟨t, run, found⟩ := exists_run_of_play exec unchecked_sound
      (pool (fun _ => "") (.start .standard) [.send sampleRequest [] [], .maintenance 1])
      (stepsOf 0 100 [.unit, .addrs (some (some ["192.0.2.1:4000"])), .text none,
        .dialled (some "alice"), .unit, .items (.ok [(sampleItem, "/tmp/a.txt")]), .unit,
        .text none, .unit] ++ stepsOf 1 101 [.unit, .unit])
      (fun t => showsCheck t.world "t1" true &&
        (t.world.transfers.lookup "t1").any fun task => task.direction == .send) (by decide)
    obtain ⟨shown, sends⟩ := Bool.and_eq_true_iff.mp found
    obtain ⟨n, noted, -⟩ := shows_iff.mp shown
    obtain ⟨task, present, direction⟩ := (Option.any_eq_true _ _).mp sends
    refine ⟨t, run, fun received => ?_⟩
    have receives := (received "t1" n noted).2 task present
    simp [receives] at direction
  · exact relapse
      (stepsOf 0 100 promptReplies ++ stepsOf 2 105 [.unit] ++ stepsOf 1 110 [.unit, .unit, .unit])
      1 ⟨110, .unit⟩ (stepsOf 2 111 [.unit]) (by decide)
  · exact relapse
      (stepsOf 0 100 (promptReplies.take 9) ++ stepsOf 1 105 [.unit, .unit, .unit, .unit, .unit] ++
        stepsOf 2 110 [.unit, .unit])
      2 ⟨110, .unit⟩ (stepsOf 0 111 [.unit, .unit]) (by decide)

private theorem surveyed_of_openPass {k : ℕ} {l : List Event} {ids : List String}
    (h : openPass k l = some ids) : Event.surveyed k ids ∈ l := by
  induction l using List.reverseRecOn with
  | nil => cases h
  | append_singleton l e ih =>
    rw [openPass, List.foldl_append, List.foldl_cons, List.foldl_nil] at h
    have earlier (before : openPass k l = some ids) : Event.surveyed k ids ∈ l ++ [e] :=
      List.mem_append_left _ (ih before)
    cases e with
    | surveyed j pending =>
      simp only [passStep] at h
      split_ifs at h with same
      · cases h
        simp [same]
      · exact earlier h
    | retained j =>
      simp only [passStep] at h
      split_ifs at h
      exact earlier h
    | _ => exact earlier h

/-- `Settled` as a test of one step. -/
private def settledCheck (_ : ℕ) (o : Op) (_ : Ans) (w : World) : Bool :=
  match o with
  | .task (.insert t) => t.direction != .send
  | .task .snapshot => w.transfers.entries.all fun e => e.2.status != .pendingAccept ||
      (e.2.direction == .receive && !showsCheck w e.1 false)
  | .note (.markInactive y _) => !showsCheck w y true || w.journal.all fun e => match e with
      | .surveyed k _ => !(openPass k w.journal).any fun ids => ids.contains y
      | .registered j z => z != y || w.journal.any fun e => match e with
          | .opened k z' _ => k == j && z' == y
          | _ => false
      | _ => true
  | _ => true

private theorem settled_of_check (parties : List Party) (i : ℕ) (o : Op) (x : Ans) (w : World)
    (h : settledCheck i o x w = true) : Settled parties i o x w := by
  cases o with
  | task u =>
    cases u with
    | insert t =>
      intro sends
      simp [settledCheck, sends] at h
    | snapshot =>
      intro y t found pending
      have here := List.all_eq_true.mp h _ (AList.mem_lookup_iff.mp found)
      simp only [pending, bne_self_eq_false, Bool.false_or, Bool.and_eq_true, beq_iff_eq,
        Bool.not_eq_true'] at here
      refine ⟨here.1, fun down => ?_⟩
      rw [shows_iff.mpr down] at here
      cases here.2
    | _ => trivial
  | note u =>
    cases u with
    | markInactive y reason =>
      intro up
      simp only [settledCheck, shows_iff.mpr up, Bool.not_true, Bool.false_or] at h
      constructor
      · intro k ids here member
        have closed := List.all_eq_true.mp h _ (surveyed_of_openPass here)
        simp [here, member] at closed
      · intro j offer registered
        have past := List.all_eq_true.mp h _ registered
        simp only [bne_self_eq_false, Bool.false_or, List.any_eq_true] at past
        obtain ⟨e, there, same⟩ := past
        split at same
        · simp only [Bool.and_eq_true, beq_iff_eq] at same
          obtain ⟨rfl, rfl⟩ := same
          exact .inl ⟨_, there⟩
        · cases same
    | _ => trivial
  | _ => trivial

/-- A request is shown, seen by a pass, accepted between two passes, and stays down. -/
theorem accepted_request_stays_down :
    ∃ a b t, Run exec (Settled [.offer (sampleOffer "t1" 0), .accept "t1" 0, .maintenance 2])
        (pool (fun _ => "") (sampleWorld ["bob"])
          [.offer (sampleOffer "t1" 0), .accept "t1" 0, .maintenance 2]) a ∧
      Step exec (Settled [.offer (sampleOffer "t1" 0), .accept "t1" 0, .maintenance 2]) 1 a b ∧
      Run exec (Settled [.offer (sampleOffer "t1" 0), .accept "t1" 0, .maintenance 2]) b t ∧
      Shows a.world "t1" true ∧ Shows b.world "t1" false ∧
      Received [.offer (sampleOffer "t1" 0), .accept "t1" 0, .maintenance 2] t.world ∧
      Shows t.world "t1" false := by
  obtain ⟨a, b, t, reached, step, later, up, down, same, -⟩ :=
    exists_of_takesDown
      (settled_of_check [.offer (sampleOffer "t1" 0), .accept "t1" 0, .maintenance 2])
      (pool (fun _ => "") (sampleWorld ["bob"])
        [.offer (sampleOffer "t1" 0), .accept "t1" 0, .maintenance 2])
      (stepsOf 0 100 promptReplies ++ stepsOf 2 105 [.unit, .unit, .unit] ++
        stepsOf 1 110 [.unit, .unit, .unit]) 1 ⟨110, .unit⟩
      (stepsOf 1 110 [.unit] ++ stepsOf 0 111 [.unit, .unit] ++
        stepsOf 2 112 [.unit, .unit, .unit]) "t1" false (by decide)
  obtain ⟨received, stays⟩ := notifications_of_incoming_offers (fun _ => "") _
    (sampleWorld ["bob"]) ⟨rfl, rfl, rfl, rfl, rfl⟩ ((reached.tail step).trans later)
  exact ⟨a, b, t, reached, step, later, up, down, received,
    stays a b 1 "t1" reached step later up down same⟩

end DashDrop.Receiving.Notifications
