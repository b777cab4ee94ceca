/- GID: DashDrop/Sending/Cancellation
   source: src-tauri/src/core_service.rs, src-tauri/src/transport/sender.rs
   anchors: []
   digest: A send cancelled while it waits, or after its end, stays cancelled and silent. -/

import DashDrop.Lifecycle.Owners

set_option autoImplicit false
set_option relaxedAutoImplicit false

namespace DashDrop.Sending.Cancellation

open DashDrop.Foundation.Program DashDrop.Foundation.Interleaving
open DashDrop.Transport.Protocol DashDrop.Transport.Sender DashDrop.Transport.Receiver
open DashDrop.Runtime.State DashDrop.Runtime.Machine DashDrop.Runtime.Effects
open DashDrop.Runtime.Footprint DashDrop.Runtime.Supervisor DashDrop.CoreService
open DashDrop.Lifecycle.Overlap DashDrop.Lifecycle.Owners

def carries (id : String) : Event → Prop
  | .wrote _ _ y m => y = id ∧ m.isOfferOrChunk = true
  | _ => False

/-- Nothing is written after a cancel, and the status stays as the cancel left it. -/
structure Final (id : String) (w : World) : Prop where
  silent : w.journal.Pairwise fun a b => isCancelOf id a → ¬ carries id b
  status : Cancelled id w → ∀ t, w.transfers.lookup id = some t → t.status = .cancelledBySender

variable {i j : ℕ} {id : String} {w w' : World} {x : Ans} {o : Op} {r : o.Resp}

private theorem updated (done : exec j o x w = some (w', r))
    (other : ∀ t, o = .task (.insert t) → t.id ≠ id) {t' : TransferTask}
    (found : w'.transfers.lookup id = some t') :
    ∃ t, w.transfers.lookup id = some t ∧ t'.direction = t.direction ∧
      ((∀ u, o = .task u → ¬ writesStatus id u) → t.direction = .send →
        t.status = .cancelledBySender ∨ (∃ hasHost, o = .task (.cancel id hasHost)) →
        t'.status = .cancelledBySender) := by
  rw [exec_lookup_task done] at found
  cases o with
  | task u =>
    cases here : w.transfers.lookup id with
    | none =>
      rw [here] at found
      cases u with
      | insert t =>
        have := other t rfl
        simp_all [onTask, taskEffect, Ne.symm this]
      | _ => simp [onTask, taskEffect] at found
    | some t =>
      rw [here] at found
      refine ⟨t, rfl, ?_⟩
      cases u with
      | insert t₀ =>
        have := other t₀ rfl
        simp only [onTask, taskEffect, Ne.symm this, if_false, Option.some.injEq] at found
        subst found
        simp
      | cleanup =>
        simp only [onTask, taskEffect, Option.filter_eq_some_iff, Option.some.injEq] at found
        obtain ⟨rfl, -⟩ := found
        simp
      | revision | status | snapshot | record =>
        cases found
        simp
      | updateStatus y _ _ | sendTransferring y | sendRejected y _ | sendTimedOut y
      | sendFinished y _ _ =>
        simp only [onTask, taskEffect] at found
        split_ifs at found with hy
        · obtain rfl := Option.some.inj found
          refine ⟨rfl, fun other => absurd hy.symm (other _ rfl)⟩
        · cases found
          simp
      | setError y _ | addBytes y _ =>
        simp only [onTask, taskEffect] at found
        split_ifs at found <;> cases found <;> simp
      | cancel y hasHost =>
        simp only [onTask, taskEffect] at found
        split_ifs at found with hy
        · obtain rfl := Option.some.inj found
          refine ⟨rfl, fun _ sends _ => ?_⟩
          simp [applyCancel, cancelStatus, sends]
        · cases found
          simp [Ne.symm hy]
      | sendErrored y _ _ =>
        simp only [onTask, taskEffect] at found
        split_ifs at found
        · obtain rfl := Option.some.inj found
          simp only [applyErrored]
          split_ifs with ended
          · simp
          · refine ⟨rfl, fun _ _ h => ?_⟩
            simp_all [TransferStatus.isTerminal]
        · cases found
          simp
  | note | gate | net | env | fs => exact ⟨t', found, rfl, fun _ _ h => by simpa using h⟩

/-- What holds in every reachable state. -/
private structure Sound (id : String) (w : World) : Prop where
  final : Final id w
  sends : ∀ t, w.transfers.lookup id = some t → t.direction = .send

private theorem cancelled_mono (done : exec j o x w = some (w', r)) (h : Cancelled id w) :
    Cancelled id w' := by
  obtain ⟨e, he, cancels⟩ := h
  exact ⟨e, mem_journal_mono done he, cancels⟩

private theorem cancelled_of_step (done : exec j o x w = some (w', r)) (h : Cancelled id w') :
    Cancelled id w ∨ ∃ hasHost, o = .task (.cancel id hasHost) := by
  obtain ⟨e, he, cancels⟩ := h
  obtain old | from_op := origin_of_new done he
  · exact .inl ⟨e, old, cancels⟩
  · cases e with
    | cancelled k y s c =>
      obtain rfl : y = id := cancels
      exact .inr from_op.2
    | _ => exact cancels.elim

/-- The step lemma: a section keeps the invariant unless it registers a cancelled transfer,
overwrites its status or writes an offer or a chunk for it. -/
private theorem sound_step (done : exec j o x w = some (w', r))
    (inserts : ∀ t, o = .task (.insert t) → t.id = id → ¬ Cancelled id w ∧ t.direction = .send)
    (status : ∀ u, o = .task u → writesStatus id u →
      ∀ t, w.transfers.lookup id = some t → t.status ≠ .cancelledBySender)
    (quiet : ∀ e ∈ history j w' o r, carries id e → ¬ Cancelled id w)
    (sound : Sound id w) : Sound id w' := by
  by_cases registers : ∃ t, o = .task (.insert t) ∧ t.id = id
  · obtain ⟨t, rfl, rfl⟩ := registers
    obtain ⟨clear, sends⟩ := inserts t rfl rfl
    have none_yet : ¬ Cancelled t.id w' := fun h => by
      obtain old | ⟨_, h⟩ := cancelled_of_step done h
      · exact clear old
      · cases h
    refine ⟨⟨?_, fun h => absurd h none_yet⟩, ?_⟩
    · exact List.pairwise_of_forall_mem_list fun a ha b _ cancels =>
        absurd ⟨a, ha, cancels⟩ none_yet
    · intro t' found
      rw [exec_lookup_task done] at found
      simp only [onTask, taskEffect, if_true, Option.some.injEq] at found
      rw [← found]
      exact sends
  · have other : ∀ t, o = .task (.insert t) → t.id ≠ id := fun t ht same =>
      registers ⟨t, ht, same⟩
    refine ⟨⟨?_, ?_⟩, ?_⟩
    · rw [exec_journal done, List.pairwise_append]
      have fresh : ∀ b ∈ history j w' o r, carries id b → ¬ Cancelled id w' := by
        intro b hb carried later
        obtain before | ⟨hasHost, rfl⟩ := cancelled_of_step done later
        · exact quiet b hb carried before
        · cases b with
          | wrote k c y m => cases (origin_of_mem_history hb).2
          | _ => exact carried.elim
      refine ⟨sound.final.silent, ?_, ?_⟩
      · refine List.pairwise_of_forall_mem_list fun a ha b hb cancels carried => ?_
        exact fresh b hb carried ⟨a, (mem_journal_iff done).mpr (.inr ha), cancels⟩
      · intro a ha b hb cancels carried
        exact fresh b hb carried ⟨a, mem_journal_mono done ha, cancels⟩
    · intro cancelled t' found
      obtain ⟨t, was, -, keeps⟩ := updated done other found
      have before := cancelled_of_step done cancelled
      by_cases writes : ∃ u, o = .task u ∧ writesStatus id u
      · obtain ⟨u, rfl, hu⟩ := writes
        obtain old | ⟨_, h⟩ := before
        · exact absurd (sound.final.status old t was) (status u rfl hu t was)
        · cases h
          exact hu.elim
      · refine keeps (fun u hu h => writes ⟨u, hu, h⟩) (sound.sends t was) ?_
        exact before.imp_left fun old => sound.final.status old t was
    · intro t' found
      obtain ⟨t, was, same, -⟩ := updated done other found
      exact same.trans (sound.sends t was)

private theorem sends_of_ops {parties : List Party} {q : SendRequest}
    {steps retrySteps : List StreamStep}
    (sender : parties[i]? = some (.send q steps retrySteps))
    (alone : ∀ k party, parties[k]? = some party → k ≠ i →
      Party.registers party ≠ some q.transferId) {u : TaskOp}
    (ops : poolOps parties j (.task u)) (owned : ownersOnly u = true)
    (same : u.id? = some q.transferId) : j = i ∧ sendOps q (.task u) := by
  obtain ⟨party, here, ops⟩ := ops
  by_cases apart : j = i
  · subst apart
    cases here.symm.trans sender
    exact ⟨rfl, ops⟩
  · exact absurd ((Party.edits_own ops owned).symm.trans same) (alone j party here apart)

private theorem send_of_sendOps {q : SendRequest} {t : TransferTask}
    (ops : sendOps q (.task (.insert t))) : t.direction = .send := by
  obtain ⟨c, h⟩ | h | h | ⟨items, c, now, name, h⟩ := ops
  · exact (not_insert_of_attemptOps h).elim
  · exact h.elim
  · exact h.elim
  · cases h
    rfl

/-- Every cancel comes while the send waits for its answer, or after its end; then nothing is
written after it, and its status stays. -/
theorem cancel_final (debug : DashMessage → String) (parties : List Party) (w : World)
    (fresh : w.journal = []) (q : SendRequest) (steps retrySteps : List StreamStep)
    (unknown : w.transfers.lookup q.transferId = none)
    (sender : parties[i]? = some (.send q steps retrySteps))
    (alone : ∀ k party, parties[k]? = some party → k ≠ i →
      Party.registers party ≠ some q.transferId)
    {t : Pool Op Op.Resp World (Except String Unit)}
    (run : Run exec (Timely q.transferId) (pool debug w parties) t) :
    Final q.transferId t.world := by
  have owner {j : ℕ} {u : TaskOp} (ops : poolOps parties j (.task u))
      (owned : ownersOnly u = true) (same : u.id? = some q.transferId) :=
    sends_of_ops sender alone ops owned same
  have bounded := run.bounded (poolOps parties) (pool_within debug w parties)
  have known := bounded.assuming
    (fun w => Sourced q.transferId w ∧ ∀ k, Registrant q.transferId w k → k = i)
    ⟨⟨fun _ => ⟨unknown, by simp [Cancelled, pool, fresh], by simp [owers, pool, fresh]⟩,
      by simp [pool, fresh]⟩, by simp [Registrant, pool, fresh]⟩
    fun j o x w w' r holds allowed done => by
      refine ⟨sourced_step done holds.1, fun k h => ?_⟩
      obtain old | new := origin_of_new done h
      · exact holds.2 k old
      · obtain ⟨rfl, t, rfl, same⟩ := new
        exact (owner allowed.2 rfl (congrArg some same)).1
  have lawful : Run exec (Lawful q.transferId fun j o _ _ => poolOps parties j o)
      (pool debug w parties) t := known.mono fun j o x w h => by
    refine ⟨h.1.1, ?_, h.2.1, h.1.2⟩
    have sole {u : TaskOp} (this : o = .task u) (owned : ownersOnly u = true)
        (same : u.id? = some q.transferId) (k : ℕ) (there : Registrant q.transferId w k) :
        k = j := by
      subst this
      rw [h.2.2 k there, (owner h.1.2 owned same).1]
    cases o with
    | task u =>
      cases u with
      | insert | sendErrored => exact fun same => sole rfl rfl (congrArg some same)
      | _ => trivial
    | _ => trivial
  have initially : Sound q.transferId w := by
    refine ⟨⟨?_, ?_⟩, ?_⟩
    · rw [fresh]
      exact .nil
    · intro _ t found
      cases unknown.symm.trans found
    · intro t found
      cases unknown.symm.trans found
  refine (timely_invariant fresh (.refl _) lawful (Sound q.transferId) initially ?_).final
  intro j o x w w' r sound lawful proper done
  refine sound_step done ?_ ?_ ?_ sound
  · rintro t rfl same
    exact ⟨(proper same).1, send_of_sendOps (owner lawful.also rfl (congrArg some same)).2⟩
  · rintro u rfl writes t found ended
    have running : t.status.isTerminal = false := by
      cases u with
      | updateStatus | sendRejected | sendTimedOut | sendTransferring | sendFinished =>
        exact (proper writes).2.2 t found
      | _ => exact writes.elim
    rw [ended] at running
    cases running
  · intro e he carried cancelled
    cases e with
    | wrote k d y m =>
      have reached := connOpen_of_wrote done he
      obtain ⟨-, rfl⟩ := origin_of_mem_history he
      obtain ⟨rfl, carried⟩ := carried
      rw [proper rfl carried cancelled] at reached
      cases reached
    | _ => exact carried.elim

/-- The send task up to its offer, then the whole cancel, then `later` steps of the task. -/
def cancelSchedule (later : List Reply) : List (ℕ × Ans) :=
  let sending : List Reply :=
    [.unit, .addrs (some (some ["192.0.2.1:4000"])), .text none, .dialled (some "alice"), .unit,
      .items (.ok [(sampleItem, "/tmp/a.txt")]), .unit, .text none, .unit, .unit, .unit,
      .message (.hello ⟨0, [1]⟩), .unit, .unit, .unit]
  let cancelling : List Reply := [.unit, .unit, .unit, .unit, .unit]
  stepsOf 0 100 sending ++ stepsOf 1 105 cancelling ++
    stepsOf 0 106 later

private def noted (w : World) : Bool := w.journal.any fun e => match e with
  | .cancelled _ y _ _ => y == "t1"
  | _ => false

private theorem noted_iff (w : World) : noted w = true ↔ Cancelled "t1" w := by
  simp only [noted, List.any_eq_true, Cancelled]
  refine exists_congr fun e => and_congr_right fun _ => ?_
  cases e <;> simp [isCancelOf]

/-- The closed connection is taken for a transient failure: the retry registers the transfer
anew and offers it again. -/
theorem retry_revives_cancelled :
    ∃ t, Run exec free
        (pool (fun _ => "") (.start .standard) [.send sampleRequest [] [], .cancel "t1" true]) t ∧
      (∃ c, Event.wrote 0 1 "t1" (.offer c) ∈ t.world.journal) ∧ ¬ Final "t1" t.world := by
  let retry : List Reply :=
    [.readFault (.len "connection lost"), .text (some "LocallyClosed"),
      .addrs (some (some ["192.0.2.1:4000"])), .dialled (some "alice"),
      .items (.ok [(sampleItem, "/tmp/a.txt")]), .unit, .text none, .unit, .unit, .unit,
      .message (.hello ⟨0, [1]⟩), .unit, .unit]
  let revived (w : World) : Bool :=
    noted w &&
      decide (Event.wrote 0 1 "t1"
        (.offer ⟨"t1", [sampleItem], 3, "DashDrop Device", "me"⟩) ∈ w.journal) &&
      (w.transfers.lookup "t1").any fun t => t.status == .pendingAccept
  obtain ⟨t, run, found⟩ := exists_run_of_play exec unchecked_sound
    (pool (fun _ => "") (.start .standard) [.send sampleRequest [] [], .cancel "t1" true])
    (cancelSchedule retry) (fun t => revived t.world) (by decide +kernel)
  simp only [revived, Bool.and_eq_true, decide_eq_true_eq, Option.any_eq_true, beq_iff_eq] at found
  obtain ⟨⟨cancels, offers⟩, task, here, pending⟩ := found
  refine ⟨t, run, ⟨_, offers⟩, fun final => ?_⟩
  have := final.status ((noted_iff t.world).mp cancels) task here
  rw [pending] at this
  cases this

/-- Nobody has answered, the only connection is the first, and after a cancel nobody connects. -/
private def timelyCheck (j : ℕ) (o : Op) (x : Ans) (w : World) : Bool :=
  match o with
  | .task (.cancel _ _) => ((w.transfers.lookup "t1").all fun t => t.direction == .send) &&
      w.journal.all fun e => match e with
        | .answered _ _ => false
        | .connected _ d => d == 0
        | _ => true
  | .net n => decide (Event.registered j "t1" ∉ w.journal) || !noted w ||
      (w.conns.all fun conn => conn.closed) && match n with
        | .dial _ => false
        | .readWithTimeout _ => !isTimer x.reply
        | _ => true
  | .gate (.send _ v) => !v
  | _ => true

private theorem timely_of_check (j : ℕ) (o : Op) (x : Ans) (w : World)
    (h : timelyCheck j o x w = true) : Timely "t1" j o x w := by
  cases o with
  | task u =>
    cases u with
    | cancel y hasHost =>
      rintro - t found -
      simp only [timelyCheck, found, Bool.and_eq_true, Option.all_some, beq_iff_eq] at h
      obtain ⟨sends, quiet⟩ := h
      rw [List.all_eq_true] at quiet
      simp only [Undecided, sends]
      refine fun k c _ _ => ⟨fun answered => ?_, fun d connected => ?_⟩
      · cases quiet _ answered
      · have first := quiet _ connected
        simp only [beq_iff_eq] at first
        omega
    | _ => trivial
  | net n =>
    intro mine
    by_cases cancelled : Cancelled "t1" w
    · have here := (noted_iff w).mpr cancelled
      have known : decide (Event.registered j "t1" ∉ w.journal) = false :=
        decide_eq_false (not_not.mpr mine)
      simp only [timelyCheck, known, here, Bool.not_true, Bool.false_or, Bool.and_eq_true] at h
      refine ⟨fun k s c _ => connOpen_of_all_closed h.1 c, fun _ => ?_⟩
      cases n with
      | dial addr => cases h.2
      | readWithTimeout c => simpa using h.2
      | _ => trivial
    · exact ⟨fun k s c there => absurd ⟨_, there, rfl⟩ cancelled, fun there => absurd there cancelled⟩
  | gate g =>
    cases g with
    | send chan v =>
      cases v with
      | true => cases h
      | false => trivial
    | _ => trivial
  | _ => trivial

theorem cancelled_send_gives_up :
    ∃ t, Run exec (Timely "t1")
        (pool (fun _ => "") (.start .standard) [.send sampleRequest [] [], .cancel "t1" true]) t ∧
      Cancelled "t1" t.world ∧ Final "t1" t.world := by
  obtain ⟨t, run, found⟩ := exists_run_of_play exec timely_of_check
    (pool (fun _ => "") (.start .standard) [.send sampleRequest [] [], .cancel "t1" true])
    (cancelSchedule [.readFault (.len "connection lost"), .text (some "LocallyClosed"),
      .addrs (some (some [])), .unit, .unit, .unit, .unit])
    (fun t => noted t.world) (by decide +kernel)
  refine ⟨t, run, (noted_iff _).mp found, cancel_final (i := 0) (fun _ => "") _ (.start .standard) rfl
    sampleRequest [] [] rfl rfl ?_ run⟩
  intro k party here apart
  match k, here, apart with
  | 1, here, _ =>
    cases here
    exact nofun
  | k + 2, here, _ => cases here

end DashDrop.Sending.Cancellation
