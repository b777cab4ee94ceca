/- GID: DashDrop/Exchange/Acks
   source: src-tauri/src/transport/sender.rs, src-tauri/src/transport/receiver.rs
   anchors: []
   digest: When the result of every file is the Ack the receiver sent for it. -/

import DashDrop.Exchange.Joint

set_option autoImplicit false
set_option relaxedAutoImplicit false

namespace DashDrop.Exchange.Acks

open DashDrop.Foundation.Oneshot DashDrop.Foundation.Slots DashDrop.Foundation.UnixPath
open DashDrop.Foundation.Transitions
open DashDrop.Transport.Protocol DashDrop.Transport.Outcome
open DashDrop.Exchange.Senders DashDrop.Exchange.Receivers DashDrop.Exchange.Joint

/-- The result of a file is the only Ack that was sent for it, and an Ack that was sent is on its
way, waits for its task or is the result of its file. -/
structure NoAckLost (s : Ends) : Prop where
  recorded : Each (fun _ task => ∀ result, task.phase = .ended result → ∃ ok reason,
    result = .returned ⟨task.item.fileId, ok, reason⟩ ∧
      s.acked.filter (fun ack => ack.fileId = task.item.fileId) =
        [⟨task.item.fileId, ok, reason⟩]) s.sender.tasks
  kept : ∀ ack ∈ s.acked, .ack ack ∈ s.toSender ∨
    ∃ (i : ℕ) (task : SendTask), s.sender.tasks[i]? = some task ∧ task.item.fileId = ack.fileId ∧
      (task.phase.listens ∧ task.ack = .sent (ack.ok, ack.reason) ∨
        task.phase = .ended (.returned ⟨ack.fileId, ack.ok, ack.reason⟩))

def awaited (s : SendSide) : DashMessage → Bool
  | .ack ack => (s.ackWaiters.lookup ack.fileId).isSome
  | _ => true

/-- Every Ack is dispatched while the waiter of its file is registered. -/
def waiterThere (s : Ends) : Label → Bool
  | .deliverAck k => s.toSender[k]?.all (awaited s.sender)
  | _ => true

def Awaited (s : Ends) (l : Label) : Prop := Steady s l ∧ waiterThere s l = true

instance (s : Ends) : DecidablePred (Awaited s) :=
  fun l => inferInstanceAs (Decidable (Steady s l ∧ waiterThere s l = true))

section Steps

variable {items : List FileItem} {s s' : Ends}

/-- Every Ack that was sent is on its way or in the channel of its file. -/
def Kept (s : Ends) : Prop :=
  ∀ ack ∈ s.acked, .ack ack ∈ s.toSender ∨
    ∃ (i : ℕ) (task : SendTask), s.sender.tasks[i]? = some task ∧ task.item.fileId = ack.fileId ∧
      task.ack.value? = some (ack.ok, ack.reason)

theorem value?_of_sends {acked : List AckPayload} {task task' : SendTask} {v : Bool × Option ErrorCode}
    (hok : TaskOk acked task) (h : Sends task task') (hv : task.ack.value? = some v) :
    task'.ack.value? = some v := by
  cases h with
  | move => exact hv
  | listen hphase =>
    rw [hok.fresh (.inr hphase)] at hv
    cases hv
  | settle hsent =>
    rw [hsent] at hv
    exact hv

theorem kept_send {i : ℕ} {move : SendMove} {next : SendSide × List DashMessage}
    (hids : (items.map FileItem.fileId).Nodup) (hcoupled : Coupled items s) (h : Kept s)
    (hfail : ∀ text, move ≠ .fail text) (htimer : ∀ timer, move = .settle timer → timer = false)
    (hstep : s.sender.step i move = some next) :
    Kept { s with sender := next.1, toReceiver := s.toReceiver ++ next.2 } := by
  obtain ⟨-, task, task', hi, hsends, htasks⟩ :=
    senderOk_step hids hcoupled.sender hfail htimer hstep
  have hlt : i < s.sender.tasks.length := (List.getElem?_eq_some_iff.mp hi).1
  intro ack hack
  obtain hflying | ⟨j, t, ht, hid, hv⟩ := h ack hack
  · exact .inl hflying
  · right
    simp only [htasks]
    by_cases hij : i = j
    · subst hij
      rw [hi] at ht
      cases ht
      exact ⟨i, task', by simp [hlt], by rw [hsends.item, hid],
        value?_of_sends (hcoupled.sender.tasks i task hi) hsends hv⟩
    · exact ⟨j, t, by rw [List.getElem?_set_ne hij, ht], hid, hv⟩

theorem kept_received (h : Kept s) (next : ReceiveSide × List AckPayload) :
    Kept (s.received next) := by
  intro ack hack
  obtain hold | hnew := List.mem_append.mp hack
  · obtain hflying | hheard := h ack hold
    · exact .inl (List.mem_append_left _ hflying)
    · exact .inr hheard
  · exact .inl (List.mem_append_right _ (List.mem_map_of_mem hnew))

theorem mem_eraseIdx_or {α : Type} {l : List α} {k : ℕ} {x m : α} (hx : x ∈ l)
    (hm : l[k]? = some m) : x = m ∨ x ∈ l.eraseIdx k := by
  obtain ⟨j, hj⟩ := List.mem_iff_getElem?.mp hx
  by_cases hjk : j = k
  · subst hjk
    rw [hm] at hj
    exact .inl (Option.some.inj hj).symm
  · exact .inr (List.mem_eraseIdx_iff_getElem?.mpr ⟨j, hjk, hj⟩)

theorem kept_acknowledge {k : ℕ} {ack : AckPayload} (hcoupled : Coupled items s) (h : Kept s)
    (hk : s.toSender[k]? = some (.ack ack))
    (hwaiter : (s.sender.ackWaiters.lookup ack.fileId).isSome) :
    Kept { s with
      sender := s.sender.acknowledge ack, toSender := s.toSender.eraseIdx k } := by
  obtain ⟨i, hi⟩ := Option.isSome_iff_exists.mp hwaiter
  obtain ⟨owner, howner, hkey, -, hempty⟩ := hcoupled.sender.waiters _ i hi
  have htasks : (s.sender.acknowledge ack).tasks =
      adjust (fun j => j = i) (SendTask.hear (ack.ok, ack.reason)) s.sender.tasks := by
    simp [SendSide.acknowledge, hi]
  intro ack' hack'
  obtain hflying | ⟨j, t, ht, hid, hv⟩ := h ack' hack'
  · obtain heq | hrest := mem_eraseIdx_or hflying hk
    · cases heq
      refine .inr ⟨i, owner.hear (ack.ok, ack.reason), ?_, hkey, ?_⟩
      · rw [htasks, getElem?_adjust, howner]
        simp
      · simp [SendTask.hear, hempty, Channel.send, Channel.value?]
    · exact .inl hrest
  · have hij : j ≠ i := by
      rintro rfl
      rw [ht] at howner
      cases howner
      rw [hempty] at hv
      cases hv
    exact .inr ⟨j, t, by rw [htasks, getElem?_adjust, ht]; simp [hij], hid, hv⟩

theorem kept_step {l : Label} (hids : (items.map FileItem.fileId).Nodup)
    (hcoupled : Coupled items s) (h : Kept s) (hawaited : Awaited s l)
    (hstep : step s l = some s') : Kept s' := by
  obtain ⟨hsteady, hawaited⟩ := hawaited
  cases l with
  | send i move =>
    obtain ⟨next, hsend, rfl⟩ := Option.map_eq_some_iff.mp hstep
    apply kept_send hids hcoupled h ?_ ?_ hsend
    · rintro text rfl
      exact hsteady
    · rintro timer rfl
      exact hsteady
  | receive l =>
    cases l with
    | stream first => cases hstep
    | register =>
      obtain ⟨next, -, rfl⟩ := Option.map_eq_some_iff.mp hstep
      exact kept_received h next
    | task i move =>
      obtain ⟨next, -, rfl⟩ := Option.map_eq_some_iff.mp hstep
      exact kept_received h next
    | join =>
      obtain ⟨next, -, rfl⟩ := Option.map_eq_some_iff.mp hstep
      exact kept_received h next
  | deliverStream k =>
    obtain ⟨m, -, hm⟩ := Option.bind_eq_some_iff.mp hstep
    obtain ⟨next, -, rfl⟩ := Option.map_eq_some_iff.mp hm
    exact kept_received h next
  | deliverAck k =>
    simp only [step] at hstep
    split_ifs at hstep
    obtain ⟨m, hm, rfl⟩ := Option.map_eq_some_iff.mp hstep
    cases m with
    | ack ack =>
      simp only [waiterThere, hm, Option.all_some] at hawaited
      exact kept_acknowledge hcoupled h hm hawaited
    | cancel payload => cases hsteady _ hm
    | _ =>
      intro ack hack
      obtain hflying | hheard := h ack hack
      · obtain heq | hrest := mem_eraseIdx_or hflying hm
        · cases heq
        · exact .inl hrest
      · exact .inr hheard
  | cancelBySender reason =>
    cases hstep
    exact h
  | cancelByReceiver reason =>
    cases hstep
    intro ack hack
    obtain hflying | hheard := h ack hack
    · exact .inl (List.mem_append_left _ hflying)
    · exact .inr hheard
  | lose cause => exact absurd hsteady id

theorem filter_key {α : Type} {g : α → ℕ} {l : List α} (h : (l.map g).Nodup) {a : α} (ha : a ∈ l) :
    l.filter (fun b => g b = g a) = [a] := by
  induction l with
  | nil => cases ha
  | cons b l ih =>
    rw [List.map_cons, List.nodup_cons] at h
    obtain ⟨hb, hrest⟩ := h
    obtain rfl | hmem := List.mem_cons.mp ha
    · have hnone : l.filter (fun b => g b = g a) = [] := by
        rw [List.filter_eq_nil_iff]
        intro c hc heq
        exact hb (List.mem_map.mpr ⟨c, hc, by simpa using heq⟩)
      simp [hnone]
    · have hne : g b ≠ g a := by
        intro heq
        exact hb (List.mem_map.mpr ⟨a, hmem, heq.symm⟩)
      simp [hne, ih hrest hmem]

theorem noted_of_value {acked : List AckPayload} {task : SendTask} {ok : Bool}
    {reason : Option ErrorCode} (h : TaskOk acked task)
    (hv : task.ack.value? = some (ok, reason)) :
    task.phase.listens ∧ task.ack = .sent (ok, reason) ∨
      task.phase = .ended (.returned ⟨task.item.fileId, ok, reason⟩) := by
  cases hphase : task.phase with
  | queued | granted =>
    rw [h.fresh (by simp [hphase])] at hv
    cases hv
  | opening | writing | awaiting =>
    obtain hempty | ⟨v, hsent⟩ := h.hears (by rw [hphase]; rfl)
    · rw [hempty] at hv
      cases hv
    · rw [hsent] at hv ⊢
      cases hv
      exact .inl ⟨rfl, rfl⟩
  | ended result =>
    obtain ⟨ok', reason', hv', rfl⟩ := h.ended result hphase
    rw [hv] at hv'
    cases hv'
    exact .inr rfl

theorem noAckLost_of_kept (hcoupled : Coupled items s) (h : Kept s) : NoAckLost s := by
  constructor
  · intro i task hi result hended
    obtain ⟨ok, reason, hv, rfl⟩ := (hcoupled.sender.tasks i task hi).ended result hended
    have hmem := (hcoupled.sender.tasks i task hi).heard ok reason hv
    exact ⟨ok, reason, rfl, filter_key hcoupled.receiver.unique hmem⟩
  · intro ack hack
    obtain hflying | ⟨i, task, hi, hid, hv⟩ := h ack hack
    · exact .inl hflying
    · have hnoted := noted_of_value (hcoupled.sender.tasks i task hi) hv
      rw [hid] at hnoted
      exact .inr ⟨i, task, hi, hid, hnoted⟩

end Steps

/-- Acks that meet their waiters are the results of their files. -/
theorem awaited_acks_are_recorded (saveRoot : PathBuf) (sendLimit receiveLimit : ℕ)
    (items : List FileItem) (hids : (items.map FileItem.fileId).Nodup) (s : Ends)
    (hrun : Reaches step Awaited (.start saveRoot sendLimit receiveLimit items) s) :
    NoAckLost s := by
  have hinv : Coupled items s ∧ Kept s := by
    apply hrun.keeps ⟨coupled_start saveRoot sendLimit receiveLimit items, fun _ h => by cases h⟩
    intro a b l h hawaited hstep
    exact ⟨coupled_step hids h.1 hawaited.1 hstep, kept_step hids h.1 h.2 hawaited hstep⟩
  exact noAckLost_of_kept hinv.1 hinv.2

def sampleItems : List FileItem :=
  [⟨0, "x", "x", 0, .regularFile, 0, none, none⟩, ⟨1, "x", "x", 0, .regularFile, 0, none, none⟩]

def sampleComplete (fileId : ℕ) : DashMessage := .complete ⟨fileId, ⟨Vector.replicate 32 0⟩⟩

def sampleRoot : PathBuf := .ofText "/d".toList

def sampleEnds : Ends := .start sampleRoot 1 1 sampleItems

/-- The second file is refused at once; its Ack is dispatched after its task has started. -/
def awaitedSteps : List Label :=
  [.receive .register, .receive .register, .receive (.task 1 .answer), .send 1 .acquire,
    .send 1 .register, .deliverAck 0, .send 1 (.write (sampleComplete 1)), .send 1 .finish,
    .send 1 (.settle false)]

def awaitedEnds : Ends := (play step Awaited sampleEnds awaitedSteps).getD sampleEnds

theorem refusal_recorded :
    NoAckLost awaitedEnds ∧ (awaitedEnds.sender.tasks.map SendTask.phase)[1]? =
      some (.ended (.returned ⟨1, false, some .pathConflict⟩)) :=
  ⟨awaited_acks_are_recorded sampleRoot 1 1 sampleItems (by decide) awaitedEnds
    (reaches_of_play (by rfl : play _ _ _ awaitedSteps = some awaitedEnds)), by decide +kernel⟩

/-- The connection stays, nobody cancels and no task fails. -/
def Connected : Label → Prop
  | .send _ (.fail _) | .cancelBySender _ | .cancelByReceiver _ | .lose _ => False
  | _ => True

instance : DecidablePred Connected
  | .send _ (.fail _) | .cancelBySender _ | .cancelByReceiver _ | .lose _ => isFalse id
  | .send _ .acquire | .send _ .register | .send _ (.write _) | .send _ .finish
  | .send _ (.settle _) | .receive _ | .deliverStream _ | .deliverAck _ => isTrue trivial

/-- The same refusal, dispatched while the first file has the only permit. -/
def unheardSteps : List Label :=
  [.receive .register, .receive .register, .send 0 .acquire, .send 0 .register,
    .receive (.task 1 .answer), .deliverAck 0, .send 0 (.write (sampleComplete 0)),
    .send 0 .finish, .deliverStream 0, .receive (.task 0 .acquire), .receive (.task 0 (.take false)),
    .receive (.task 0 (.finish (.acked true none))), .receive (.task 0 .answer), .deliverAck 0,
    .send 0 (.settle false), .send 1 .acquire, .send 1 .register,
    .send 1 (.write (sampleComplete 1)), .send 1 .finish, .send 1 (.settle true)]

def unheardEnds : Ends :=
  (play step (fun _ => Connected) sampleEnds unheardSteps).getD sampleEnds

theorem early_refusal_lost :
    Reaches step (fun _ => Connected) sampleEnds unheardEnds ∧
      ⟨1, false, some .pathConflict⟩ ∈ unheardEnds.acked ∧
      (unheardEnds.sender.tasks.map SendTask.phase)[1]? =
        some (.ended (.returned ⟨1, false, some (.protocol "ack timeout")⟩)) ∧
      ¬ NoAckLost unheardEnds := by
  have hphase : (unheardEnds.sender.tasks.map SendTask.phase)[1]? =
      some (.ended (.returned ⟨1, false, some (.protocol "ack timeout")⟩)) := by decide +kernel
  have hsent : ⟨1, false, some .pathConflict⟩ ∈ unheardEnds.acked := by decide +kernel
  refine ⟨reaches_of_play (by rfl : play _ _ _ unheardSteps = some unheardEnds), hsent, hphase, ?_⟩
  intro hnone
  rw [List.getElem?_map, Option.map_eq_some_iff] at hphase
  obtain ⟨task, hi, hended⟩ := hphase
  obtain ⟨ok, reason, heq, hone⟩ := hnone.recorded 1 task hi _ hended
  simp only [TaskResult.returned.injEq, AckResult.mk.injEq] at heq
  obtain ⟨hid, rfl, rfl⟩ := heq
  have hmem : (⟨1, false, some .pathConflict⟩ : AckPayload) ∈
      unheardEnds.acked.filter (fun ack => ack.fileId = task.item.fileId) := by
    rw [List.mem_filter, ← hid]
    exact ⟨hsent, rfl⟩
  rw [hone, List.mem_singleton] at hmem
  cases congrArg AckPayload.reason hmem

end DashDrop.Exchange.Acks
