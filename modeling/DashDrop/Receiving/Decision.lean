/- GID: DashDrop/Receiving/Decision
   source: src-tauri/src/core_service.rs, src-tauri/src/transport/receiver.rs
   anchors: []
   digest: One decision per request, and the user's is what happens unless the wait timed out. -/

import DashDrop.Receiving.Ledger

set_option autoImplicit false
set_option relaxedAutoImplicit false

namespace DashDrop.Receiving.Decision

open DashDrop.Foundation.Program DashDrop.Foundation.Interleaving
open DashDrop.Foundation.Discipline DashDrop.Foundation.Oneshot
open DashDrop.Transport.Protocol DashDrop.Transport.Receiver
open DashDrop.Runtime.State DashDrop.Runtime.Machine DashDrop.Runtime.Effects
open DashDrop.Runtime.Footprint DashDrop.Runtime.Supervisor
open DashDrop.Receiving.Phases DashDrop.Receiving.Registry DashDrop.Receiving.Ledger

/-- Identifiers are fresh, and when an accept or a reject sends its value the offer has not
stopped waiting. -/
def Delivered (parties : List Party) : Guard Op World Ans := fun i o x w =>
  Fresh i o x w ∧
  match o with
  | .gate (.send c _) => ∀ y n, Decides parties i y n → w.channels[c]? ≠ some .closed
  | _ => True

/-- What happens to the decisions on pending requests. -/
structure Respected (parties : List Party)
    (t : Pool Op Op.Resp World (Except String Unit)) : Prop where
  /-- A request has one channel, one value is sent on it and one result is learnt from it. -/
  one : ∀ {j j' y c c'}, Event.opened j y c ∈ t.world.journal →
    Event.opened j' y c' ∈ t.world.journal → j = j' ∧ c = c' ∧
      (decisions c t.world.journal).length ≤ 1 ∧ (results c t.world.journal).length ≤ 1
  /-- A value that was learnt was sent, and a value that the user sent is the one learnt. -/
  faithful : ∀ {j c v}, Event.observed j c (.value v) ∈ t.world.journal →
    ∃ k, Event.sent k c v ∈ t.world.journal
  final : ∀ {k y n c v j a}, Decides parties k y n → Event.sent k c v ∈ t.world.journal →
    Event.observed j c a ∈ t.world.journal → a = .value v
  accepted : ∀ {k y n}, parties[k]? = some (.accept y n) →
    t.threads[k]? = some (.pure (.ok ())) →
    ∃ j c, Event.opened j y c ∈ t.world.journal ∧ Event.sent k c true ∈ t.world.journal ∧
      (t.world.channels[c]? = some (.sent true) ∨
        Event.observed j c (.value true) ∈ t.world.journal) ∧
      ∀ a, t.threads[j]? = some (.pure a) →
        Event.observed j c (.value true) ∈ t.world.journal ∧
          Event.moved j y .transferring ∈ t.world.journal
  rejected : ∀ {k y n c}, parties[k]? = some (.reject y n) →
    Event.took k y c ∈ t.world.journal → t.threads[k]? = some (.pure (.ok ())) →
    ∃ j, Event.opened j y c ∈ t.world.journal ∧ Event.sent k c false ∈ t.world.journal ∧
      (t.world.channels[c]? = some (.sent false) ∨
        Event.observed j c (.value false) ∈ t.world.journal) ∧
      ∀ a, t.threads[j]? = some (.pure a) →
        Event.observed j c (.value false) ∈ t.world.journal

variable {parties : List Party} {φ : ℕ → Phase} {i : ℕ} {o : Op} {x : Ans} {w w' : World}
variable {r : o.Resp} {s : Phase}

private def Arrives (v : Bool) (ch : Option (Channel Bool)) : Prop :=
  ch = some (.sent v) ∨ ch = some (.received v)

private theorem arrives_step (done : exec i o x w = some (w', r)) {c : ℕ} {v : Bool}
    (h : Arrives v w.channels[c]?) : Arrives v w'.channels[c]? := by
  have inside : c < w.channels.length := by
    obtain h | h := h <;> exact (List.getElem?_eq_some_iff.mp h).1
  have dropped (gone : List ℕ) : Arrives v (dropSenders w.channels gone)[c]? := by
    rw [getElem?_dropSenders]
    split_ifs
    · obtain h | h := h <;> rw [h]
      · exact .inl rfl
      · exact .inr rfl
    · exact h
  obtain ⟨w₁, ran, logged⟩ := exec_inv done
  have kept : w'.channels = w₁.channels := by rw [logged, log]
  rw [kept]
  cases o with
  | gate g =>
    cases g with
    | register y =>
      cases ran
      rw [List.getElem?_append_left (by simpa using inside)]
      exact dropped _
    | take y =>
      cases ran
      exact h
    | discard y =>
      cases ran
      exact dropped _
    | contains y =>
      cases ran
      exact h
    | retain ids =>
      cases ran
      exact dropped _
    | send d u =>
      cases ran
      rw [List.getElem?_modify]
      by_cases hd : d = c
      · obtain h | h := h <;> simp [hd, h, Channel.send, Arrives]
      · simpa [hd] using h
    | wait d =>
      obtain ⟨ch, found, rest⟩ := Option.bind_eq_some_iff.mp ran
      obtain ⟨⟨ch', a⟩, waited, same⟩ := Option.map_eq_some_iff.mp rest
      cases same
      by_cases hd : d = c
      · subst hd
        rw [List.getElem?_set_self inside]
        obtain h | h := h
        · cases found.symm.trans h
          cases waited
          exact .inr rfl
        · cases found.symm.trans h
          cases waited
      · rw [List.getElem?_set_ne hd]
        exact h
  | _ =>
    rw [(frame_execOp ran).channels (by simp)]
    exact h

/-- What the guard adds to the books: no task is removed, and what the user sends arrives. -/
private structure Faithful (parties : List Party) (φ : ℕ → Phase) (w : World) : Prop where
  present : ∀ {j y}, Event.registered j y ∈ w.journal → ∃ t, w.transfers.lookup y = some t
  found : ∀ {j}, φ j ≠ .lost
  moved : ∀ {j f}, parties[j]? = some (.offer f) → φ j = .moving true →
    Event.moved j f.id .transferring ∈ w.journal
  arrives : ∀ {k y n c v}, Decides parties k y n → Event.sent k c v ∈ w.journal →
    Arrives v w.channels[c]?

private theorem afterUpdate_lost {q : Phase} {status : TransferStatus} {found : Bool}
    (moved : q.afterUpdate status found = some .lost) : q = .lost ∨ found = false := by
  unfold Phase.afterUpdate at moved
  split at moved <;> try split_ifs at moved
  all_goals simp_all

private theorem afterUpdate_accepted {q : Phase} {status : TransferStatus} {found : Bool}
    (moved : q.afterUpdate status found = some (.moving true)) :
    q = .moving true ∨ (status = .transferring ∧ found = true) := by
  unfold Phase.afterUpdate at moved
  split at moved <;> try split_ifs at moved
  all_goals simp_all

private theorem found_step (books : Books parties φ w) (faithful : Faithful parties φ w)
    (done : exec i o x w = some (w', r)) (change : Change parties i (φ i) o r s) :
    s ≠ .lost := by
  have before := faithful.found (j := i)
  have active (h : φ i ≠ .idle) {f : IncomingOffer} (offer : parties[i]? = some (.offer f)) :=
    faithful.present (books.registered.listed offer h)
  generalize φ i = q at change before active
  cases change with
  | stay | enlist | mark | emit | again => exact before
  | update offer moved =>
    rintro rfl
    obtain rfl | missing := afterUpdate_lost moved
    · exact before rfl
    · have idle : q ≠ .idle := by
        rintro rfl
        cases moved
      obtain ⟨t, found⟩ := active idle offer
      rw [updateStatus_answer done, found] at missing
      cases missing
  | read role =>
    intro wrong
    have := undecided_afterRead _ _ |>.symm.trans (congrArg Phase.undecided wrong)
    cases this
  | status role free =>
    intro wrong
    have := undecided_afterStatus free _ |>.symm.trans (congrArg Phase.undecided wrong)
    cases this
  | contains role free =>
    split_ifs
    · simp
    · exact before
  | @take y v taken q role free => cases taken <;> simp
  | list | note | ensure | «show» | register | wait | discard | send | survey | retain => simp

private theorem moved_step (faithful : Faithful parties φ w)
    (done : exec i o x w = some (w', r)) (change : Change parties i (φ i) o r s)
    {f : IncomingOffer} (offer : parties[i]? = some (.offer f)) (after : s = .moving true) :
    Event.moved i f.id .transferring ∈ w'.journal := by
  have earlier (h : φ i = .moving true) : Event.moved i f.id .transferring ∈ w'.journal :=
    mem_journal_mono done (faithful.moved offer h)
  have none_of_role {y n} (h : Decides parties i y n) : False := by
    obtain h | h := h <;> cases offer.symm.trans h
  generalize φ i = q at change earlier
  cases change with
  | stay | enlist | mark | emit => exact earlier after
  | @update f' status reason q s found offer' moved =>
    cases offer.symm.trans offer'
    subst after
    obtain rfl | ⟨rfl, present⟩ := afterUpdate_accepted moved
    · exact earlier rfl
    · obtain ⟨u, rfl⟩ := Option.isSome_iff_exists.mp present
      refine (mem_journal_iff done).mpr (.inr ?_)
      simp [history, taskHistory]
  | read role => exact (none_of_role role).elim
  | status role free => exact (none_of_role role).elim
  | contains role free => exact (none_of_role role).elim
  | @take y v taken q role free => cases taken <;> cases after
  | list | note | again | ensure | «show» | register | wait | discard | send | survey | retain =>
    cases after

private theorem faithful_step (books : Books parties φ w) (faithful : Faithful parties φ w)
    (noCleanup : ∀ ticks, Party.cleanup ticks ∉ parties) (allowed : Delivered parties i o x w)
    (done : exec i o x w = some (w', r)) (moved : moves parties i (φ i) o r = some s) :
    Faithful parties (Function.update φ i s) w' := by
  have keeps : o ≠ .task .cleanup := by
    rintro rfl
    obtain ⟨ticks, member⟩ := cleanup_inv moved
    exact noCleanup ticks member
  have change := change_of_moves moved
  constructor
  · intro j y h
    obtain old | ⟨rfl, t, rfl, rfl⟩ := origin_of_new done h
    · exact present_step done keeps (faithful.present old)
    · exact ⟨t, by rw [exec_lookup_task done]; exact if_pos rfl⟩
  · intro j
    by_cases hj : j = i
    · subst hj
      rw [Function.update_self]
      exact found_step books faithful done change
    · rw [Function.update_of_ne hj]
      exact faithful.found
  · intro j f offer h
    by_cases hj : j = i
    · subst hj
      rw [Function.update_self] at h
      exact moved_step faithful done change offer h
    · rw [Function.update_of_ne hj] at h
      exact mem_journal_mono done (faithful.moved offer h)
  · intro k y n c v role h
    obtain old | ⟨rfl, rfl⟩ := origin_of_new done h
    · exact arrives_step done (faithful.arrives role old)
    · -- the only new value: its channel is still open, so it is stored there
      generalize before : φ k = q at change
      cases change with
      | stay calm => cases calm
      | send role' =>
        obtain state | state := books.gates.open_of_holding before
        · obtain ⟨w₁, ran, rfl⟩ := exec_gate done
          cases ran
          exact .inl (by simp [log, state, Channel.send])
        · exact absurd state (allowed.2 y n role)

section Run

variable {debug : DashMessage → String} {t : Pool Op Op.Resp World (Except String Unit)}

private theorem tracked_faithful (start : AtStart w)
    (noCleanup : ∀ ticks, Party.cleanup ticks ∉ parties)
    (run : Run exec (Delivered parties) (pool debug w parties) t) :
    ∃ φ, Tracked (moves parties) (mayReturn parties) φ t.threads ∧
      Books parties φ t.world ∧ Faithful parties φ t.world := by
  refine Run.tracked run (fun φ w => Books parties φ w ∧ Faithful parties φ w)
    (pool_tracked debug w parties) ⟨books_start parties start, ?_⟩ ?_
  · constructor <;> simp [pool, start.journal]
  · rintro φ i o x w w' r s ⟨books, faithful⟩ allowed done moved
    exact ⟨books_step books allowed.1 done (change_of_moves moved),
      faithful_step books faithful noCleanup allowed done moved⟩

variable {c j k : ℕ} {v : Bool} {y : String}

private theorem length_le_one (books : Books parties φ w) (c : ℕ) :
    (decisions c w.journal).length ≤ 1 ∧ (results c w.journal).length ≤ 1 := by
  have agree := books.gates.agree c
  generalize w.channels[c]? = ch at agree
  match ch, agree with
  | none, ⟨ds, rs⟩ => simp [ds, rs]
  | some .empty, ⟨ds, rs⟩ => simp [ds, rs]
  | some (.sent v), ⟨⟨k, ds⟩, rs⟩ => simp [ds, rs]
  | some (.received v), ⟨⟨k, ds⟩, j, rs⟩ => simp [ds, rs]
  | some .dropped, ⟨ds, .inl rs⟩ => simp [ds, rs]
  | some .dropped, ⟨ds, .inr ⟨j, rs⟩⟩ => simp [ds, rs]
  | some .closed, ⟨ds, j, rs⟩ => exact ⟨ds, by simp [rs]⟩

private theorem sent_of_observed (books : Books parties φ w)
    (seen : Event.observed j c (.value v) ∈ w.journal) : ∃ k, Event.sent k c v ∈ w.journal := by
  have agree := books.gates.agree c
  have seen := mem_results.mpr seen
  generalize w.channels[c]? = ch at agree
  match ch, agree with
  | none, ⟨ds, rs⟩ => simp [rs] at seen
  | some .empty, ⟨ds, rs⟩ => simp [rs] at seen
  | some (.sent u), ⟨⟨k, ds⟩, rs⟩ => simp [rs] at seen
  | some (.received u), ⟨⟨k, ds⟩, j', rs⟩ =>
    obtain ⟨-, rfl⟩ : j = j' ∧ v = u := by simpa [rs] using seen
    exact ⟨k, mem_decisions.mp (by simp [ds])⟩
  | some .dropped, ⟨ds, .inl rs⟩ => simp [rs] at seen
  | some .dropped, ⟨ds, .inr ⟨j, rs⟩⟩ => simp [rs] at seen
  | some .closed, ⟨ds, j, rs⟩ => simp [rs] at seen

private theorem observed_of_arrives (books : Books parties φ w) (arrives : Arrives v w.channels[c]?) :
    ∀ j a, Event.observed j c a ∈ w.journal → a = .value v := by
  intro j a seen
  have agree := books.gates.agree c
  have seen := mem_results.mpr seen
  obtain state | state := arrives <;> rw [state] at agree
  · simp [agree.2] at seen
  · obtain ⟨-, j', rs⟩ := agree
    simp only [rs, List.mem_singleton, Prod.mk.injEq] at seen
    exact seen.2

private theorem learnt_of_arrives (books : Books parties φ w)
    (opened : Event.opened j y c ∈ w.journal) (arrives : Arrives v w.channels[c]?) :
    w.channels[c]? = some (.sent v) ∨ Event.observed j c (.value v) ∈ w.journal := by
  obtain state | state := arrives
  · exact .inl state
  · have agree := books.gates.agree c
    rw [state] at agree
    obtain ⟨-, j', rs⟩ := agree
    obtain ⟨-, -, ⟨-, unseen⟩ | ⟨a, seen, -⟩⟩ := books.gates.opener opened
    · rw [rs] at unseen
      cases unseen
    · rw [rs] at seen
      cases seen
      exact .inr (mem_results.mp (by simp [rs]))

private theorem returned_offer (books : Books parties φ t.world)
    (tracked : Tracked (moves parties) (mayReturn parties) φ t.threads)
    (opened : Event.opened j y c ∈ t.world.journal) (arrives : Arrives v t.world.channels[c]?)
    {a : Except String Unit} (returned : t.threads[j]? = some (.pure a)) :
    Event.observed j c (.value v) ∈ t.world.journal ∧ offerMayReturn (φ j) a ∧
      verdict (φ j) = some v := by
  obtain ⟨⟨f, offer, rfl⟩, -, later⟩ := books.gates.opener opened
  have may : offerMayReturn (φ j) a := tracked j _ returned _ offer
  obtain ⟨waiting, -⟩ | ⟨b, seen, told⟩ := later
  · rw [waiting] at may
    exact may.elim
  · have learnt : Event.observed j c b ∈ t.world.journal := mem_results.mp (by simp [seen])
    obtain rfl := observed_of_arrives books arrives j b learnt
    refine ⟨learnt, may, told.trans ?_⟩
    cases v <;> rfl

/-- In every run in which no accept or reject sends its value to an offer that has stopped
waiting, one decision is taken per request, and the user's is the one that happens. -/
theorem decision_respected (debug : DashMessage → String) (parties : List Party) (w : World)
    (start : AtStart w) (noCleanup : ∀ ticks, Party.cleanup ticks ∉ parties)
    {t : Pool Op Op.Resp World (Except String Unit)}
    (run : Run exec (Delivered parties) (pool debug w parties) t) : Respected parties t := by
  obtain ⟨φ, tracked, books, faithful⟩ := tracked_faithful start noCleanup run
  constructor
  · intro j j' y c c' h h'
    obtain rfl := books.registered.unique (books.registered_of_opened h)
      (books.registered_of_opened h')
    exact ⟨rfl, books.gates.once h h', length_le_one books c⟩
  · exact sent_of_observed books
  · intro k y n c v j a role sent seen
    exact observed_of_arrives books (faithful.arrives role sent) j a seen
  · intro k y n party returned
    obtain ⟨-, succeeds⟩ := tracked k _ returned _ party
    obtain ⟨c, released⟩ := succeeds rfl rfl
    obtain ⟨y', v, took, acts, sent⟩ := books.gates.used released
    obtain ⟨rfl, rfl⟩ := Acts.unique ⟨_, party, rfl⟩ acts
    obtain ⟨⟨j, opened⟩, -⟩ := books.gates.taken took
    have sent : Event.sent k c true ∈ t.world.journal := mem_decisions.mp (by simp [sent])
    have arrives := faithful.arrives (.inl party) sent
    refine ⟨j, c, opened, sent, learnt_of_arrives books opened arrives, fun a offerReturned => ?_⟩
    obtain ⟨learnt, may, told⟩ := returned_offer books tracked opened arrives offerReturned
    refine ⟨learnt, ?_⟩
    obtain ⟨⟨f, offer, rfl⟩, -⟩ := books.gates.opener opened
    refine faithful.moved offer ?_
    have found := faithful.found (j := j)
    generalize φ j = q at may told found
    cases q with
    | moving accepted =>
      cases told
      rfl
    | settled accepted =>
      cases told
      exact may.elim
    | lost => exact absurd rfl found
    | _ => cases told
  · intro k y n c party took returned
    obtain ⟨free, -⟩ := tracked k _ returned _ party
    obtain ⟨⟨j, opened⟩, -, -, hands, -⟩ := books.gates.taken took
    obtain holding | released := hands
    · rw [holding] at free
      cases free
    · obtain ⟨y', v, -, acts, sent⟩ := books.gates.used released
      obtain ⟨-, rfl⟩ := Acts.unique ⟨_, party, rfl⟩ acts
      have sent : Event.sent k c false ∈ t.world.journal := mem_decisions.mp (by simp [sent])
      have arrives := faithful.arrives (.inr party) sent
      refine ⟨j, opened, sent, learnt_of_arrives books opened arrives, fun a offerReturned => ?_⟩
      exact (returned_offer books tracked opened arrives offerReturned).1

end Run

/-- The timer fires, the accept still finds the sender and the old status and succeeds, and
the offer is rejected. -/
theorem accept_succeeds_after_timeout :
    ∃ t, Run exec free
        (pool (fun _ => "") (sampleWorld ["bob"]) [.offer (sampleOffer "t1" 0), .accept "t1" 0])
        t ∧
      t.threads[1]? = some (.pure (.ok ())) ∧ t.threads[0]? = some (.pure (.ok ())) ∧
      Event.observed 0 0 .timedOut ∈ t.world.journal ∧
      Event.moved 0 "t1" .rejected ∈ t.world.journal ∧
      Event.moved 0 "t1" .transferring ∉ t.world.journal := by
  obtain ⟨t, run, found⟩ := exists_run_of_play exec unchecked_sound
    (pool (fun _ => "") (sampleWorld ["bob"]) [.offer (sampleOffer "t1" 0), .accept "t1" 0])
    (stepsOf 0 100 promptReplies ++ stepsOf 0 160 [.timer] ++
      stepsOf 1 160 [.unit, .unit, .unit, .unit, .unit] ++
      stepsOf 0 160 [.unit, .unit, .unit, .unit, .unit, .unit])
    (fun t => t.result 1 == some (.ok ()) && t.result 0 == some (.ok ()) &&
      t.world.journal.contains (.observed 0 0 .timedOut) &&
      t.world.journal.contains (.moved 0 "t1" .rejected) &&
      !t.world.journal.contains (.moved 0 "t1" .transferring)) (by decide)
  simp only [Bool.and_eq_true, Bool.not_eq_true', beq_iff_eq, List.contains_iff_mem] at found
  obtain ⟨⟨⟨⟨accepted, returned⟩, timedOut⟩, rejected⟩, never⟩ := found
  refine ⟨t, run, Pool.thread_of_result accepted, Pool.thread_of_result returned, timedOut,
    rejected, fun moved => ?_⟩
  rw [List.contains_iff_mem.mpr moved] at never
  cases never

theorem accept_in_time_respected :
    ∃ t, Run exec (Delivered [.offer (sampleOffer "t1" 0), .accept "t1" 0])
        (pool (fun _ => "") (sampleWorld ["bob"]) [.offer (sampleOffer "t1" 0), .accept "t1" 0])
        t ∧
      t.threads[1]? = some (.pure (.ok ())) ∧
      ∃ j, Event.moved j "t1" .transferring ∈ t.world.journal := by
  let parties : List Party := [.offer (sampleOffer "t1" 0), .accept "t1" 0]
  let check (i : ℕ) (o : Op) (_ : Ans) (w : World) : Bool :=
    freshCheck i o w && match o with
      | .gate (.send c _) => w.channels[c]? != some .closed
      | _ => true
  have sound (i : ℕ) (o : Op) (x : Ans) (w : World) (h : check i o x w = true) :
      Delivered parties i o x w := by
    obtain ⟨fresh, still⟩ := Bool.and_eq_true_iff.mp h
    refine ⟨fresh_of_freshCheck fresh, ?_⟩
    cases o with
    | gate g =>
      cases g with
      | send c v => exact fun _ _ _ => by simpa using still
      | _ => trivial
    | _ => trivial
  obtain ⟨t, run, found⟩ := exists_run_of_play exec sound
    (pool (fun _ => "") (sampleWorld ["bob"]) parties)
    (stepsOf 0 100 promptReplies ++ stepsOf 1 110 [.unit, .unit, .unit, .unit, .unit] ++
      stepsOf 0 111 [.unit, .unit, .unit, .unit, .unit, .unit, .unit, .unit,
        .joined false [.returned ⟨1, true, none⟩] none, .unit, .unit, .unit, .unit, .unit])
    (fun t => t.result 1 == some (.ok ()) && t.result 0 == some (.ok ()) && t.world.journal.all fun e => match e with
      | .opened j _ _ => j == 0
      | _ => true) (by decide)
  simp only [Bool.and_eq_true, beq_iff_eq, List.all_eq_true] at found
  obtain ⟨⟨accepted, returned⟩, only⟩ := found
  have accepted := Pool.thread_of_result accepted
  have respected := decision_respected (fun _ => "") parties (sampleWorld ["bob"])
    ⟨rfl, rfl, rfl, rfl, rfl⟩ (by simp [parties]) run
  obtain ⟨j, c, opened, -, -, later⟩ := respected.accepted (y := "t1") (n := 0) rfl accepted
  obtain rfl : j = 0 := by simpa using only _ opened
  exact ⟨t, run, accepted, 0, (later _ (Pool.thread_of_result returned)).2⟩

end DashDrop.Receiving.Decision
