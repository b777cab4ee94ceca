/- GID: DashDrop/Receiving/Isolation
   source: src-tauri/src/transport/receiver.rs, src-tauri/src/state.rs,
     src-tauri/src/core_service.rs
   anchors: []
   digest: Offers leave each other alone and actions reach their offer, if identifiers are fresh. -/

import DashDrop.Receiving.Ledger

set_option autoImplicit false
set_option relaxedAutoImplicit false

namespace DashDrop.Receiving.Isolation

open DashDrop.Foundation.Program DashDrop.Foundation.Interleaving
open DashDrop.Foundation.Discipline DashDrop.Foundation.Oneshot
open DashDrop.Transport.Protocol DashDrop.Transport.Receiver
open DashDrop.Runtime.State DashDrop.Runtime.Machine DashDrop.Runtime.Effects
open DashDrop.Runtime.Footprint DashDrop.Runtime.Supervisor
open DashDrop.Receiving.Phases DashDrop.Receiving.Registry DashDrop.Receiving.Ledger

def NoteIs (y : String) (m : Uuid) (w : World) : Prop :=
  ∃ n, w.notifications.lookup y = some n ∧ n.notificationId = m

/-- The thread has shown this notification of the transfer to the user. -/
def Announced (j : ℕ) (y : String) (m : Uuid) (w : World) : Prop :=
  ∃ e, Event.emitted j e ∈ w.journal ∧ announces y m e = true

/-- Identifiers are fresh, and an action that goes by the stored sender alone finds its own
notification on it. -/
def Distinct (parties : List Party) : Guard Op World Ans := fun i o x w =>
  Fresh i o x w ∧
  match o with
  | .gate (.contains y) => ∀ n c, Decides parties i y n →
      w.pendingAccepts.lookup y = some c → NoteIs y n w
  | _ => True

variable {parties : List Party} {φ : ℕ → Phase} {i : ℕ} {o : Op} {x : Ans} {w w' : World}
variable {r : o.Resp} {s : Phase}

private theorem noteIs_iff (done : exec i o x w = some (w', r)) {y : String} {m : Uuid} :
    NoteIs y m w' ↔ NoteIs y m w ∨
      (o = .note (.ensure y) ∧ w.notifications.lookup y = none ∧ m = w.nextUuid) := by
  unfold NoteIs
  rw [exec_lookup_note done]
  cases o with
  | note n =>
    cases n with
    | ensure z =>
      by_cases hz : y = z
      · subst hz
        cases w.notifications.lookup y <;> simp [onNote, noteEffect, eq_comm]
      · simp [onNote, noteEffect, hz, Ne.symm hz]
    | markInactive z reason =>
      by_cases hz : y = z
      · subst hz
        cases w.notifications.lookup y <;> simp [onNote, noteEffect]
      · simp [onNote, noteEffect, hz]
    | read z => simp [onNote, noteEffect]
  | _ => simp [onNote]

theorem noteIs_mono (done : exec i o x w = some (w', r)) {y : String} {m : Uuid}
    (h : NoteIs y m w) : NoteIs y m w' :=
  (noteIs_iff done).mpr (.inl h)

private theorem nextUuid_step (done : exec i o x w = some (w', r)) :
    w.nextUuid ≤ w'.nextUuid ∧ ∀ y, o = .note (.ensure y) → w.notifications.lookup y = none →
      w'.nextUuid = w.nextUuid + 1 := by
  obtain ⟨w₁, ran, logged⟩ := exec_inv done
  have same : w'.nextUuid = w₁.nextUuid := by rw [logged, log]
  rw [same]
  cases o with
  | note n =>
    obtain rfl := congrArg Prod.fst (Option.some.inj ran)
    cases n with
    | ensure z =>
      simp only [execNote]
      split
      · rename_i n found
        refine ⟨le_rfl, ?_⟩
        rintro y ⟨⟩ absent
        cases found.symm.trans absent
      · exact ⟨by simp, fun _ _ _ => rfl⟩
    | markInactive z reason =>
      simp only [execNote]
      split <;> simp
    | read z => simp [execNote]
  | _ =>
    rw [(frame_execOp ran).nextUuid (by simp)]
    exact ⟨le_rfl, by simp⟩

theorem noteIs_of_ensure {y : String} {m : Uuid}
    (done : exec i (.note (.ensure y)) x w = some (w', m)) : NoteIs y m w' := by
  obtain ⟨w₁, ran, logged⟩ := exec_inv done
  have kept : w'.notifications = w₁.notifications := by rw [logged, log]
  have same := Option.some.inj ran
  simp only [execNote] at same
  rw [NoteIs, kept]
  split at same <;> cases same <;> simp

private theorem isIncoming_of_announces {y : String} {m : Uuid} {e : HostEvent}
    (h : announces y m e = true) : isIncoming e = true := by
  cases e <;> first | rfl | cases h

theorem sectionEvents_quiet {u : TaskOp} {a : u.Resp} {revision : ℕ} {e : HostEvent}
    (h : e ∈ sectionEvents revision u a) : isIncoming e = false := by
  unfold sectionEvents at h
  split at h
  · simp only [List.mem_singleton] at h
    rw [h]
    rfl
  · simp only [List.mem_singleton] at h
    rw [h]
    rfl
  · simp only [List.mem_cons, List.not_mem_nil, or_false] at h
    obtain rfl | rfl := h <;> rfl
  · rename_i outcome itemCount r
    cases outcome <;> simp only [outcomeEvents, List.mem_cons, List.not_mem_nil, or_false] at h
    case failed => obtain rfl | rfl := h <;> rfl
    all_goals
      rw [h]
      rfl
  · cases h

private theorem announced_of_new (done : exec i o x w = some (w', r)) {j : ℕ} {y : String}
    {m : Uuid} (h : Announced j y m w') :
    Announced j y m w ∨ j = i ∧ ∃ e, o = .env (.emit e) ∧ announces y m e = true := by
  obtain ⟨e, here, tells⟩ := h
  obtain old | new := (mem_journal_iff done).mp here
  · exact .inl ⟨e, old, tells⟩
  · obtain ⟨rfl, same | ⟨u, a, revision, rfl, member⟩⟩ := origin_of_mem_history new
    · exact .inr ⟨rfl, e, same, tells⟩
    · have incoming := isIncoming_of_announces tells
      rw [sectionEvents_quiet member] at incoming
      cases incoming

private theorem announced_mono (done : exec i o x w = some (w', r)) {j : ℕ} {y : String}
    {m : Uuid} (h : Announced j y m w) : Announced j y m w' := by
  obtain ⟨e, here, tells⟩ := h
  exact ⟨e, mem_journal_mono done here, tells⟩

private def sure : Phase → Bool
  | .cleared | .holding _ | .released _ => true
  | _ => false

private structure Shown (parties : List Party) (φ : ℕ → Phase) (w : World) : Prop where
  bound : ∀ {y m}, NoteIs y m w → m < w.nextUuid
  injective : ∀ {y y' m}, NoteIs y m w → NoteIs y' m w → y = y'
  shown : ∀ {j y m}, Announced j y m w → NoteIs y m w ∧ Event.registered j y ∈ w.journal
  noted : ∀ {j m}, φ j = .noted m → ∃ f, parties[j]? = some (.offer f) ∧ NoteIs f.id m w
  prompted : ∀ {j m}, φ j = .prompted m → ∃ f, parties[j]? = some (.offer f) ∧
    Announced j f.id m w
  opened : ∀ {j y c}, Event.opened j y c ∈ w.journal → ∃ m, Announced j y m w
  sure : ∀ {k y n}, Decides parties k y n → sure (φ k) = true → NoteIs y n w

private theorem not_undecided {q : Phase} (h : q.undecided = true) (m : Uuid) :
    q ≠ .noted m ∧ q ≠ .prompted m := by
  constructor <;> rintro rfl <;> cases h

private theorem not_moving {q : Phase} (h : q.isMoving = true) (m : Uuid) :
    q ≠ .noted m ∧ q ≠ .prompted m := by
  constructor <;> rintro rfl <;> cases h

private theorem noted_step (shown : Shown parties φ w) (done : exec i o x w = some (w', r))
    (change : Change parties i (φ i) o r s) {m : Uuid} (after : s = .noted m) :
    ∃ f, parties[i]? = some (.offer f) ∧ NoteIs f.id m w' := by
  have earlier (h : φ i = .noted m) : ∃ f, parties[i]? = some (.offer f) ∧ NoteIs f.id m w' := by
    obtain ⟨f, offer, named⟩ := shown.noted h
    exact ⟨f, offer, noteIs_mono done named⟩
  generalize φ i = q at change earlier
  cases change with
  | stay | enlist | mark | emit => exact earlier after
  | note offer =>
    cases after
    exact ⟨_, offer, noteIs_of_ensure done⟩
  | update offer moved => exact absurd after (not_moving (isMoving_afterUpdate moved) m).1
  | read role => exact absurd after (not_undecided (undecided_afterRead _ _) m).1
  | status role free => exact absurd after (not_undecided (undecided_afterStatus free _) m).1
  | contains role free =>
    split_ifs at after
    exact absurd after (not_undecided free m).1
  | @take y v taken q role free => cases taken <;> cases after
  | list | again | ensure | «show» | register | wait | discard | send | survey | retain =>
    cases after

private theorem prompted_step (shown : Shown parties φ w) (done : exec i o x w = some (w', r))
    (change : Change parties i (φ i) o r s) {m : Uuid} (after : s = .prompted m) :
    ∃ f, parties[i]? = some (.offer f) ∧ Announced i f.id m w' := by
  have earlier (h : φ i = .prompted m) :
      ∃ f, parties[i]? = some (.offer f) ∧ Announced i f.id m w' := by
    obtain ⟨f, offer, told⟩ := shown.prompted h
    exact ⟨f, offer, announced_mono done told⟩
  generalize φ i = q at change earlier
  cases change with
  | stay | enlist | mark | emit | again => exact earlier after
  | «show» offer tells =>
    cases after
    exact ⟨_, offer, _, (mem_journal_iff done).mpr (.inr (List.mem_singleton.mpr rfl)), tells⟩
  | update offer moved => exact absurd after (not_moving (isMoving_afterUpdate moved) m).2
  | read role => exact absurd after (not_undecided (undecided_afterRead _ _) m).2
  | status role free => exact absurd after (not_undecided (undecided_afterStatus free _) m).2
  | contains role free =>
    split_ifs at after
    exact absurd after (not_undecided free m).2
  | @take y v taken q role free => cases taken <;> cases after
  | list | note | ensure | register | wait | discard | send | survey | retain => cases after

private theorem sure_step (shown : Shown parties φ w) (allowed : Distinct parties i o x w)
    (done : exec i o x w = some (w', r)) (change : Change parties i (φ i) o r s) {y : String}
    {n : Uuid} (role : Decides parties i y n) (after : sure s = true) : NoteIs y n w' := by
  have earlier (h : sure (φ i) = true) : NoteIs y n w' := noteIs_mono done (shown.sure role h)
  generalize φ i = q at change earlier
  cases change with
  | stay | enlist | mark | emit | again => exact earlier after
  | @read z n' entry role' =>
    obtain ⟨rfl, rfl⟩ := role.unique role'
    have answer : entry = w.notifications.lookup y := by
      obtain ⟨w₁, ran, -⟩ := exec_inv done
      exact (congrArg Prod.snd (Option.some.inj ran)).symm
    refine noteIs_mono done ?_
    unfold afterRead at after
    split at after
    · rename_i e
      split_ifs at after with inactive other
      · cases after
      · cases after
      · exact ⟨e, answer.symm, by simpa using other⟩
    · cases after
  | status role' free =>
    unfold afterStatus at after
    split at after
    · exact earlier after
    · exact earlier after
    · cases after
  | @contains z n' q found role' free =>
    obtain ⟨rfl, rfl⟩ := role.unique role'
    split_ifs at after with present
    · obtain ⟨w₁, ran, -⟩ := exec_gate done
      have answer : (w.pendingAccepts.lookup y).isSome = found :=
        congrArg Prod.snd (Option.some.inj ran)
      rw [present, Option.isSome_iff_exists] at answer
      obtain ⟨c, stored⟩ := answer
      exact noteIs_mono done (allowed.2 n c role stored)
    · exact earlier after
  | @take z v taken q role' free cleared =>
    obtain ⟨v', acts⟩ := role.acts
    obtain ⟨rfl, -⟩ := acts.unique role'
    exact earlier (by rw [cleared n role]; rfl)
  | send role' => exact earlier rfl
  | update offer moved => obtain h | h := role <;> cases offer.symm.trans h
  | list | note | ensure | «show» | register | wait | discard | survey | retain => cases after

private theorem shown_step (books : Books parties φ w) (shown : Shown parties φ w)
    (allowed : Distinct parties i o x w) (done : exec i o x w = some (w', r))
    (change : Change parties i (φ i) o r s) :
    Shown parties (Function.update φ i s) w' := by
  obtain ⟨later, drawn⟩ := nextUuid_step done
  constructor
  · intro y m named
    obtain old | ⟨rfl, absent, rfl⟩ := (noteIs_iff done).mp named
    · exact (shown.bound old).trans_le later
    · rw [drawn y rfl absent]
      exact Nat.lt_succ_self _
  · intro y y' m named named'
    obtain old | ⟨rfl, absent, rfl⟩ := (noteIs_iff done).mp named
    · obtain old' | ⟨rfl, absent', rfl⟩ := (noteIs_iff done).mp named'
      · exact shown.injective old old'
      · exact absurd (shown.bound old) (lt_irrefl _)
    · obtain old' | ⟨same, -⟩ := (noteIs_iff done).mp named'
      · exact absurd (shown.bound old') (lt_irrefl _)
      · cases same
        rfl
  · intro j y m told
    obtain old | ⟨rfl, e, rfl, tells⟩ := announced_of_new done told
    · obtain ⟨named, registered⟩ := shown.shown old
      exact ⟨noteIs_mono done named, mem_journal_mono done registered⟩
    · generalize before : φ j = q at change
      cases change with
      | stay calm => cases calm
      | emit quiet =>
        rw [isIncoming_of_announces tells] at quiet
        cases quiet
      | @«show» f m' e a offer tells' =>
        obtain ⟨f', offer', named⟩ := shown.noted before
        cases offer.symm.trans offer'
        have active : φ j ≠ .idle := by simp [before]
        obtain ⟨rfl, rfl⟩ : y = f.id ∧ m = m' := by
          cases e <;> simp_all [announces]
        exact ⟨noteIs_mono done named,
          mem_journal_mono done (books.registered.listed offer active)⟩
  · intro j m h
    by_cases hj : j = i
    · subst hj
      rw [Function.update_self] at h
      exact noted_step shown done change h
    · rw [Function.update_of_ne hj] at h
      obtain ⟨f, offer, named⟩ := shown.noted h
      exact ⟨f, offer, noteIs_mono done named⟩
  · intro j m h
    by_cases hj : j = i
    · subst hj
      rw [Function.update_self] at h
      exact prompted_step shown done change h
    · rw [Function.update_of_ne hj] at h
      obtain ⟨f, offer, told⟩ := shown.prompted h
      exact ⟨f, offer, announced_mono done told⟩
  · intro j y c h
    obtain old | ⟨rfl, rfl⟩ := origin_of_new done h
    · obtain ⟨m, told⟩ := shown.opened old
      exact ⟨m, announced_mono done told⟩
    · generalize before : φ j = q at change
      cases change with
      | stay calm => cases calm
      | register offer =>
        obtain ⟨f', offer', told⟩ := shown.prompted before
        cases offer.symm.trans offer'
        exact ⟨_, announced_mono done told⟩
  · intro k y n role h
    by_cases hk : k = i
    · subst hk
      rw [Function.update_self] at h
      exact sure_step shown allowed done change role h
    · rw [Function.update_of_ne hk] at h
      exact noteIs_mono done (shown.sure role h)

/-- The task, the sender and the notification of the transfer are as before. -/
structure Untouched (y : String) (w w' : World) : Prop where
  task : w'.transfers.lookup y = w.transfers.lookup y
  sender : w'.pendingAccepts.lookup y = w.pendingAccepts.lookup y
  notification : w'.notifications.lookup y = w.notifications.lookup y

private theorem untouched_of_offer {f : IncomingOffer} {q : Phase} {y : String}
    (done : exec i o x w = some (w', r)) (moved : offerNext f q o r = some s)
    (apart : q ≠ .idle → y ≠ f.id) (fresh : ∀ t, o = .task (.insert t) → y ≠ t.id) :
    Untouched y w w' := by
  have task := exec_lookup_task done y
  have sender := exec_lookup_gate done y
  have notification := exec_lookup_note done y
  cases o with
  | task u =>
    refine ⟨task.trans ?_, sender, notification⟩
    cases u with
    | insert t => exact if_neg (fresh t rfl)
    | updateStatus z status reason =>
      obtain ⟨rfl, after⟩ := onlyIf_eq_some.mp moved
      refine if_neg (apart ?_)
      rintro rfl
      cases after
    | setError z text | addBytes z n =>
      obtain ⟨⟨rfl, active⟩, -⟩ := onlyIf_eq_some.mp moved
      exact if_neg (apart active)
    | revision | record => rfl
    | _ => cases moved
  | note n =>
    refine ⟨task, sender, notification.trans ?_⟩
    cases n with
    | ensure z =>
      obtain ⟨rfl, after⟩ := onlyIf_eq_some.mp moved
      refine if_neg (apart ?_)
      rintro rfl
      cases after
    | markInactive z reason =>
      obtain ⟨⟨rfl, moving⟩, -⟩ := onlyIf_eq_some.mp moved
      refine if_neg (apart ?_)
      rintro rfl
      cases moving
    | read z => cases moved
  | gate g =>
    refine ⟨task, sender.trans ?_, notification⟩
    cases g with
    | register z =>
      obtain ⟨rfl, after⟩ := onlyIf_eq_some.mp moved
      refine if_neg (apart ?_)
      rintro rfl
      cases after
    | wait c => rfl
    | _ => cases moved
  | net | env | fs => exact ⟨task, sender, notification⟩

section Run

variable {debug : DashMessage → String} {t : Pool Op Op.Resp World (Except String Unit)}

private theorem tracked_shown (start : AtStart w)
    (run : Run exec (Distinct parties) (pool debug w parties) t) :
    ∃ φ, Tracked (moves parties) (mayReturn parties) φ t.threads ∧
      Books parties φ t.world ∧ Shown parties φ t.world := by
  refine Run.tracked run (fun φ w => Books parties φ w ∧ Shown parties φ w)
    (pool_tracked debug w parties) ⟨books_start parties start, ?_⟩ ?_
  · constructor <;>
      simp [NoteIs, Announced, pool, sure, start.notifications, start.journal]
  · rintro φ i o x w w' r s ⟨books, shown⟩ allowed done moved
    have change := change_of_moves moved
    exact ⟨books_step books allowed.1 done change, shown_step books shown allowed done change⟩

/-- In every run in which identifiers are fresh and an action that goes by the stored sender
alone finds its own notification there, no step of an offer touches what another thread has
registered, and what an accept or a reject sends goes to the one offer that has shown its
notification. -/
theorem offers_isolated_actions_bound (debug : DashMessage → String) (parties : List Party)
    (w : World) (start : AtStart w)
    {t : Pool Op Op.Resp World (Except String Unit)}
    (run : Run exec (Distinct parties) (pool debug w parties) t) :
    (∀ j f u, parties[j]? = some (.offer f) → Step exec (Distinct parties) j t u →
      ∀ k y, k ≠ j → Event.registered k y ∈ t.world.journal → Untouched y t.world u.world) ∧
    ∀ k y n c v, Decides parties k y n → Event.sent k c v ∈ t.world.journal →
      ∃ j, Event.opened j y c ∈ t.world.journal ∧ Announced j y n t.world ∧
        ∀ j' y', Announced j' y' n t.world → j' = j := by
  obtain ⟨φ, tracked, books, shown⟩ := tracked_shown start run
  constructor
  · intro j f u offer step k y other owned
    cases step with
    | mk here allowed done =>
      obtain ⟨s, moved, -⟩ := tracked.step here _
      simp only [moves, offer, Option.bind_some] at moved
      refine untouched_of_offer done moved (fun active same => ?_) ?_
      · subst same
        exact other (books.registered.unique owned (books.registered.listed offer active))
      · rintro t rfl rfl
        exact other (allowed.1 k owned)
  · intro k y n c v role sent
    have released := books.gates.sender (mem_decisions.mpr sent)
    obtain ⟨y', v', took, acts, -⟩ := books.gates.used released
    obtain ⟨v'', acts'⟩ := role.acts
    obtain ⟨rfl, -⟩ := acts'.unique acts
    obtain ⟨⟨j, opened⟩, -⟩ := books.gates.taken took
    obtain ⟨m, told⟩ := shown.opened opened
    obtain ⟨named, registered⟩ := shown.shown told
    have mine := shown.sure role (by rw [released]; rfl)
    obtain rfl : m = n := by
      obtain ⟨a, found, rfl⟩ := named
      obtain ⟨b, found', rfl⟩ := mine
      cases found.symm.trans found'
      rfl
    refine ⟨j, opened, told, fun j' y' told' => ?_⟩
    obtain ⟨named', registered'⟩ := shown.shown told'
    obtain rfl := shown.injective named named'
    exact books.registered.unique registered' registered

end Run

/-- A second offer under the identifier of a waiting one replaces its task. -/
theorem second_offer_replaces_first :
    ∃ t u, Run exec free
        (pool (fun _ => "") (sampleWorld ["bob", "eve"])
          [.offer (sampleOffer "t1" 0), .offer (sampleOffer "t1" 1)]) t ∧
      Step exec free 1 t u ∧ Event.registered 0 "t1" ∈ t.world.journal ∧
      ¬ Untouched "t1" t.world u.world := by
  let replaces (t u : Pool Op Op.Resp World (Except String Unit)) : Bool :=
    t.world.journal.contains (.registered 0 "t1") &&
      u.world.transfers.lookup "t1" != t.world.transfers.lookup "t1"
  obtain ⟨t, run, found⟩ := exists_run_of_play exec unchecked_sound
    (pool (fun _ => "") (sampleWorld ["bob", "eve"])
      [.offer (sampleOffer "t1" 0), .offer (sampleOffer "t1" 1)])
    (stepsOf 0 100 promptReplies ++ stepsOf 1 110 [.unit])
    (fun t => (t.step (restrict exec unchecked) 1 ⟨110, .unit⟩).any (replaces t)) (by decide)
  obtain ⟨u, stepped, replaced⟩ := (Option.any_eq_true _ _).mp found
  simp only [replaces, Bool.and_eq_true, bne_iff_ne, List.contains_iff_mem] at replaced
  exact ⟨t, u, run, step_of_pool_step unchecked_sound stepped, replaced.1,
    fun same => replaced.2 same.task⟩

/-- An accepted offer, next to another one: the decision goes to the offer that was shown. -/
theorem accept_reaches_its_offer :
    ∃ t, Run exec (Distinct [.offer (sampleOffer "t1" 0), .offer (sampleOffer "t2" 1),
          .accept "t1" 0])
        (pool (fun _ => "") (sampleWorld ["bob", "eve"])
          [.offer (sampleOffer "t1" 0), .offer (sampleOffer "t2" 1), .accept "t1" 0]) t ∧
      Event.sent 2 0 true ∈ t.world.journal ∧
      ∃ j, Event.opened j "t1" 0 ∈ t.world.journal ∧ Announced j "t1" 0 t.world := by
  let parties : List Party :=
    [.offer (sampleOffer "t1" 0), .offer (sampleOffer "t2" 1), .accept "t1" 0]
  let check (i : ℕ) (o : Op) (_ : Ans) (w : World) : Bool :=
    freshCheck i o w && match o with
      | .gate (.contains _) => false
      | _ => true
  have sound (i : ℕ) (o : Op) (x : Ans) (w : World) (h : check i o x w = true) :
      Distinct parties i o x w := by
    obtain ⟨fresh, seen⟩ := Bool.and_eq_true_iff.mp h
    refine ⟨fresh_of_freshCheck fresh, ?_⟩
    cases o with
    | gate g =>
      cases g with
      | contains y => cases seen
      | _ => trivial
    | _ => trivial
  obtain ⟨t, run, found⟩ := exists_run_of_play exec sound
    (pool (fun _ => "") (sampleWorld ["bob", "eve"]) parties)
    (stepsOf 0 100 promptReplies ++ stepsOf 1 105 promptReplies ++
      stepsOf 2 110 [.unit, .unit, .unit, .unit, .unit])
    (fun t => t.world.journal.contains (.sent 2 0 true)) (by decide)
  have sent := List.contains_iff_mem.mp found
  obtain ⟨j, opened, told, -⟩ := (offers_isolated_actions_bound (fun _ => "") parties
    (sampleWorld ["bob", "eve"]) ⟨rfl, rfl, rfl, rfl, rfl⟩ run).2 2 "t1" 0 0 true (.inl rfl) sent
  exact ⟨t, run, sent, j, opened, told⟩

end DashDrop.Receiving.Isolation
