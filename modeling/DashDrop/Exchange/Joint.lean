/- GID: DashDrop/Exchange/Joint
   source: src-tauri/src/transport/sender.rs, src-tauri/src/transport/receiver.rs
   anchors: []
   digest: Both ends of an accepted offer over one connection, and what ties their tasks together. -/

import DashDrop.Exchange.Receivers
import DashDrop.Foundation.Transitions

set_option autoImplicit false
set_option relaxedAutoImplicit false

namespace DashDrop.Exchange.Joint

open DashDrop.Foundation.Oneshot DashDrop.Foundation.Slots DashDrop.Foundation.UnixPath
open DashDrop.Foundation.Transitions
open DashDrop.Transport.Protocol DashDrop.Transport.Outcome DashDrop.Transport.PathValidation
open DashDrop.Exchange.Senders DashDrop.Exchange.Receivers

/-- The two ends after the Accept, and the streams on their way, each by its first message.
`acked` lists every Ack that the receiver has sent. -/
structure Ends where
  sender : SendSide
  receiver : ReceiveSide
  toReceiver : List DashMessage
  toSender : List DashMessage
  acked : List AckPayload

def Ends.start (saveRoot : PathBuf) (sendLimit receiveLimit : ℕ) (items : List FileItem) :
    Ends where
  sender := .start sendLimit items
  receiver := .start saveRoot receiveLimit items
  toReceiver := []
  toSender := []
  acked := []

inductive Label where
  | send (i : ℕ) (move : SendMove)
  /-- A step of the receiver other than accepting a stream. -/
  | receive (l : ReceiveLabel)
  /-- The receiver's dispatcher accepts one of the streams on their way. -/
  | deliverStream (k : ℕ)
  /-- The sender's dispatcher accepts one of the streams on their way. -/
  | deliverAck (k : ℕ)
  | cancelBySender (reason : CancelReason)
  | cancelByReceiver (reason : CancelReason)
  /-- The connection fails. -/
  | lose (cause : String)
  deriving DecidableEq

def Ends.received (s : Ends) (next : ReceiveSide × List AckPayload) : Ends :=
  { s with
    receiver := next.1
    toSender := s.toSender ++ next.2.map .ack
    acked := s.acked ++ next.2 }

def step (s : Ends) : Label → Option Ends
  | .send i move =>
      (s.sender.step i move).map fun (sender, streams) =>
        { s with sender := sender, toReceiver := s.toReceiver ++ streams }
  | .receive (.stream _) => none
  | .receive l => (s.receiver.step l).map s.received
  | .deliverStream k =>
      s.toReceiver[k]?.bind fun m =>
        (s.receiver.step (.stream (.ok m))).map fun next =>
          { s.received next with toReceiver := s.toReceiver.eraseIdx k }
  | .deliverAck k =>
      if s.sender.dispatching then
        s.toSender[k]?.map fun m =>
          { s with sender := s.sender.dispatch (.ok m), toSender := s.toSender.eraseIdx k }
      else none
  | .cancelBySender reason => some { s with toReceiver := s.toReceiver ++ [.cancel ⟨reason⟩] }
  | .cancelByReceiver reason => some { s with toSender := s.toSender ++ [.cancel ⟨reason⟩] }
  | .lose cause =>
      some { s with
        sender := s.sender.acceptFailed cause
        receiver := { s.receiver with dispatching := false }
        toReceiver := []
        toSender := [] }

def isCancel : DashMessage → Bool
  | .cancel _ => true
  | _ => false

/-- Steps after which a send task still ends only with an Ack: none fails, no wait for an Ack
runs out, the sender is not told of a Cancel, and the connection stays. -/
def Steady (s : Ends) : Label → Prop
  | .send _ (.fail _) => False
  | .send _ (.settle timer) => timer = false
  | .deliverAck k => ∀ m ∈ s.toSender[k]?, isCancel m = false
  | .lose _ => False
  | _ => True

instance (s : Ends) : DecidablePred (Steady s)
  | .send _ (.fail _) | .lose _ => isFalse id
  | .send _ (.settle timer) => inferInstanceAs (Decidable (timer = false))
  | .deliverAck k => inferInstanceAs (Decidable (∀ m ∈ s.toSender[k]?, isCancel m = false))
  | .send _ .acquire | .send _ .register | .send _ (.write _) | .send _ .finish | .receive _
  | .deliverStream _ | .cancelBySender _ | .cancelByReceiver _ => isTrue trivial

/-- Every item is answered at most once, and only by the end of its task. -/
structure ReceiverOk (items : List FileItem) (acked : List AckPayload) (s : ReceiveSide) :
    Prop where
  listed : s.tasks.map ReceiveTask.item = items
  ahead : Each (fun i task => s.registered ≤ i → task.phase = .listed) s.tasks
  own : Each (fun _ task => ∀ result, task.phase = .answering result →
    result.fileId = task.item.fileId) s.tasks
  unique : (acked.map AckPayload.fileId).Nodup
  answered : ∀ ack ∈ acked, ∃ (i : ℕ) (task : ReceiveTask), s.tasks[i]? = some task ∧
    task.item.fileId = ack.fileId ∧ task.phase.hasEnded

section Receiver

variable {items : List FileItem} {acked acks : List AckPayload} {s s' : ReceiveSide}

theorem ReceiverOk.keys (h : ReceiverOk items acked s) (hids : (items.map FileItem.fileId).Nodup) :
    (s.tasks.map fun task => task.item.fileId).Nodup := by
  rw [← h.listed, List.map_map] at hids
  exact hids

theorem receiverOk_start (saveRoot : PathBuf) (configured : ℕ) (items : List FileItem) :
    ReceiverOk items [] (.start saveRoot configured items) := by
  have hphase : Each (fun _ task => task.phase = .listed)
      (ReceiveSide.start saveRoot configured items).tasks := by
    intro i task h
    simp only [ReceiveSide.start, List.getElem?_map, Option.map_eq_some_iff] at h
    obtain ⟨item, -, rfl⟩ := h
    rfl
  constructor
  · simp [ReceiveSide.start, ReceiveTask.new, Function.comp_def]
  · exact fun i task h _ => hphase i task h
  · intro i task h result hresult
    rw [hphase i task h] at hresult
    cases hresult
  · simp
  · simp

theorem ReceiverOk.congr {here : ℕ → Bool} {f : ReceiveTask → ReceiveTask}
    (h : ReceiverOk items acked s) (htasks : s'.tasks = adjust here f s.tasks)
    (hregistered : s'.registered = s.registered) (hitem : ∀ t, (f t).item = t.item)
    (hphase : ∀ t, (f t).phase = t.phase) : ReceiverOk items acked s' := by
  constructor
  · rw [htasks, ← h.listed]
    exact map_adjust hitem _ _
  · rw [htasks, hregistered]
    refine h.ahead.adjust (fun i t _ _ hold hle => ?_) (fun _ _ _ _ hold => hold)
    rw [hphase]
    exact hold hle
  · rw [htasks]
    refine h.own.adjust (fun i t _ _ hold result hresult => ?_) (fun _ _ _ _ hold => hold)
    rw [hphase] at hresult
    rw [hitem]
    exact hold result hresult
  · exact h.unique
  · intro ack hack
    obtain ⟨i, t, ht, hid, hended⟩ := h.answered ack hack
    refine ⟨i, if here i then f t else t, ?_, ?_, ?_⟩
    · rw [htasks, getElem?_adjust, ht]
      rfl
    · split_ifs
      · rw [hitem, hid]
      · exact hid
    · split_ifs
      · rw [hphase]
        exact hended
      · exact hended

theorem ReceiverOk.same (h : ReceiverOk items acked s) (htasks : s'.tasks = s.tasks)
    (hregistered : s'.registered = s.registered) : ReceiverOk items acked s' := by
  have hsame : s'.tasks = adjust (fun _ => false) id s.tasks := by
    rw [htasks]
    apply List.ext_getElem?
    intro i
    simp [getElem?_adjust]
  exact h.congr hsame hregistered (fun _ => rfl) (fun _ => rfl)

theorem receiverOk_register {task : ReceiveTask} {t : ReceiveTask} (h : ReceiverOk items acked s)
    (hi : s.tasks[s.registered]? = some task) (htasks : s'.tasks = s.tasks.set s.registered t)
    (hnext : s'.registered = s.registered + 1) (hitem : t.item = task.item)
    (hphase : ∀ result, t.phase ≠ .answering result) : ReceiverOk items acked s' := by
  constructor
  · rw [htasks, ← h.listed]
    exact map_set_of_eq hi hitem
  · rw [htasks, hnext]
    refine h.ahead.set (fun hle => absurd hle (by omega)) (fun j a _ _ hold hle => hold (by omega))
  · rw [htasks]
    exact h.own.set (fun result hresult => absurd hresult (hphase result)) (fun _ _ _ _ hold => hold)
  · exact h.unique
  · intro ack hack
    obtain ⟨j, a, hj, hid, hended⟩ := h.answered ack hack
    have hne : s.registered ≠ j := by
      rintro rfl
      rw [h.ahead _ a hj le_rfl] at hended
      cases hended
    refine ⟨j, a, ?_, hid, hended⟩
    rw [htasks, List.getElem?_set_ne hne, hj]

theorem not_ended_of_advances {cancelled : Bool} {task task' : ReceiveTask} {move : ReceiveMove}
    (h : Advances cancelled task move task' acks) :
    task.phase.hasEnded = false ∧ task.phase ≠ .listed := by
  cases h <;> simp_all [ReceivePhase.hasEnded]

theorem acks_of_advances {cancelled : Bool} {task task' : ReceiveTask} {move : ReceiveMove}
    (h : Advances cancelled task move task' acks)
    (hown : ∀ result, task.phase = .answering result → result.fileId = task.item.fileId) :
    acks = [] ∨ ∃ ack, acks = [ack] ∧ ack.fileId = task.item.fileId ∧ task'.phase.hasEnded := by
  cases h with
  | refuse hphase => exact .inr ⟨_, rfl, rfl, rfl⟩
  | answer hphase => exact .inr ⟨_, rfl, hown _ hphase, rfl⟩
  | _ => exact .inl rfl

theorem answering_of_advances {cancelled : Bool} {task task' : ReceiveTask} {move : ReceiveMove}
    (h : Advances cancelled task move task' acks) {result : AckResult}
    (hresult : task'.phase = .answering result) : result.fileId = task'.item.fileId := by
  cases h with
  | giveUp => cases hresult; rfl
  | finish hphase hreceived =>
    cases hresult
    rename_i fileEnd
    cases fileEnd with
    | acked ok reason => cases hreceived; rfl
    | errored text => cases hreceived; rfl
    | panicked => cases hreceived
  | _ => cases hresult

theorem receiverOk_task {i : ℕ} {task : ReceiveTask} {move : ReceiveMove}
    (hids : (items.map FileItem.fileId).Nodup) (h : ReceiverOk items acked s)
    (hi : s.tasks[i]? = some task) (hstep : s.advance i task move = some (s', acks)) :
    ReceiverOk items (acked ++ acks) s' := by
  obtain ⟨task', permits, hadv, rfl⟩ := advance_cases hstep
  obtain ⟨hactive, hlisted⟩ := not_ended_of_advances hadv
  have hlt : i < s.tasks.length := (List.getElem?_eq_some_iff.mp hi).1
  have hold : ∀ ack ∈ acked, ∃ (j : ℕ) (a : ReceiveTask), i ≠ j ∧ s.tasks[j]? = some a ∧
      a.item.fileId = ack.fileId ∧ a.phase.hasEnded := by
    intro ack hack
    obtain ⟨j, a, hj, hid, hended⟩ := h.answered ack hack
    refine ⟨j, a, ?_, hj, hid, hended⟩
    rintro rfl
    rw [hi] at hj
    cases hj
    rw [hactive] at hended
    cases hended
  have hacks := acks_of_advances hadv (h.own i task hi)
  constructor
  · rw [← h.listed]
    exact map_set_of_eq hi hadv.item
  · exact h.ahead.set (fun hle => absurd (h.ahead i task hi hle) hlisted)
      (fun _ _ _ _ hkept => hkept)
  · exact h.own.set (fun _ hresult => answering_of_advances hadv hresult)
      (fun _ _ _ _ hkept => hkept)
  · obtain rfl | ⟨ack, rfl, hid, -⟩ := hacks
    · simpa using h.unique
    · rw [List.map_append, List.map_singleton, List.nodup_append]
      refine ⟨h.unique, by simp, ?_⟩
      intro f hf g hg heq
      obtain ⟨old, hmem, rfl⟩ := List.mem_map.mp hf
      obtain ⟨j, a, hne, hj, hold, -⟩ := hold old hmem
      simp only [List.mem_singleton] at hg
      exact hne (place_unique (h.keys hids) hi hj (by rw [hold, heq, hg, hid]))
  · intro ack hack
    obtain hbefore | hnew := List.mem_append.mp hack
    · obtain ⟨j, a, hne, hj, hid, hended⟩ := hold ack hbefore
      exact ⟨j, a, by rw [← hj]; exact List.getElem?_set_ne hne, hid, hended⟩
    · obtain rfl | ⟨ack', rfl, hid, hended⟩ := hacks
      · cases hnew
      · simp only [List.mem_singleton] at hnew
        subst hnew
        exact ⟨i, task', by simp [hlt], by rw [hadv.item, hid], hended⟩

theorem receiverOk_registerItem {task : ReceiveTask} (h : ReceiverOk items acked s)
    (hi : s.tasks[s.registered]? = some task) : ReceiverOk items acked (s.registerItem task) := by
  simp only [ReceiveSide.registerItem]
  split
  · exact receiverOk_register h hi rfl rfl rfl (fun _ hphase => by cases hphase)
  · split_ifs
    · exact receiverOk_register h hi rfl rfl rfl (fun _ hphase => by cases hphase)
    · -- the route that is dropped first touches channels only
      have hdropped : ReceiverOk items acked (s.dropRoute task.item.fileId) :=
        h.congr rfl rfl (fun _ => rfl) (fun _ => rfl)
      refine receiverOk_register hdropped
        (by rw [ReceiveSide.dropRoute, getElem?_adjust, hi]; rfl) rfl rfl ?_
        (fun _ hphase => by cases hphase)
      split_ifs <;> rfl

theorem receiverOk_dispatch (h : ReceiverOk items acked s)
    (first : Except DashDrop.Runtime.Machine.ReadFault DashMessage) :
    ReceiverOk items acked (s.dispatch first) := by
  unfold ReceiveSide.dispatch
  split
  · exact h
  · exact h.congr rfl rfl (fun _ => rfl) (fun _ => rfl)
  · split
    · unfold ReceiveSide.route
      split
      · exact h.congr rfl rfl (fun _ => rfl) (fun _ => rfl)
      · exact h.same rfl rfl
    · exact h

theorem receiverOk_step {l : ReceiveLabel} (hids : (items.map FileItem.fileId).Nodup)
    (h : ReceiverOk items acked s) (hstep : s.step l = some (s', acks)) :
    ReceiverOk items (acked ++ acks) s' := by
  cases l with
  | register =>
    obtain ⟨task, hi, heq⟩ := Option.map_eq_some_iff.mp hstep
    cases heq
    simpa using receiverOk_registerItem h hi
  | task i move =>
    obtain ⟨task, hi, hadv⟩ := Option.bind_eq_some_iff.mp hstep
    exact receiverOk_task hids h hi hadv
  | stream first =>
    simp only [ReceiveSide.step] at hstep
    split_ifs at hstep
    cases hstep
    simpa using receiverOk_dispatch h first
  | join =>
    simp only [ReceiveSide.step] at hstep
    split_ifs at hstep
    cases hstep
    rw [List.append_nil]
    exact h.same rfl rfl

end Receiver

/-- A task hears at most one Ack, one that was sent for its file, and ends with it. -/
structure TaskOk (acked : List AckPayload) (task : SendTask) : Prop where
  fresh : task.phase = .queued ∨ task.phase = .granted → task.ack = .empty
  hears : task.phase.listens → task.ack = .empty ∨ ∃ v, task.ack = .sent v
  heard : ∀ ok reason, task.ack.value? = some (ok, reason) → ⟨task.item.fileId, ok, reason⟩ ∈ acked
  ended : ∀ result, task.phase = .ended result → ∃ ok reason,
    task.ack.value? = some (ok, reason) ∧ result = .returned ⟨task.item.fileId, ok, reason⟩

structure SenderOk (items : List FileItem) (acked : List AckPayload) (s : SendSide) : Prop where
  listed : s.tasks.map SendTask.item = items
  tasks : Each (fun _ task => TaskOk acked task) s.tasks
  waiters : ∀ f i, s.ackWaiters.lookup f = some i → ∃ task, s.tasks[i]? = some task ∧
    task.item.fileId = f ∧ task.phase.listens ∧ task.ack = .empty

section Sender

variable {items : List FileItem} {acked acked' : List AckPayload} {s s' : SendSide}

theorem SenderOk.keys (h : SenderOk items acked s) (hids : (items.map FileItem.fileId).Nodup) :
    (s.tasks.map fun task => task.item.fileId).Nodup := by
  rw [← h.listed, List.map_map] at hids
  exact hids

theorem TaskOk.mono {task : SendTask} (h : TaskOk acked task) (hsub : acked ⊆ acked') :
    TaskOk acked' task :=
  ⟨h.fresh, h.hears, fun ok reason hv => hsub (h.heard ok reason hv), h.ended⟩

theorem SenderOk.mono (h : SenderOk items acked s) (hsub : acked ⊆ acked') :
    SenderOk items acked' s :=
  ⟨h.listed, h.tasks.mono fun _ _ _ hold => hold.mono hsub, h.waiters⟩

theorem senderOk_start (configured : ℕ) (items : List FileItem) :
    SenderOk items [] (.start configured items) := by
  constructor
  · simp [SendSide.start, SendTask.new, Function.comp_def]
  · intro i task h
    simp only [SendSide.start, List.getElem?_map, Option.map_eq_some_iff] at h
    obtain ⟨item, -, rfl⟩ := h
    exact ⟨fun _ => rfl, fun hl => (by cases hl), fun _ _ hv => (by cases hv),
      fun _ he => (by cases he)⟩
  · intro f i h
    simp [SendSide.start] at h

theorem senderOk_put {i : ℕ} {task : SendTask} {phase : SendPhase} (h : SenderOk items acked s)
    (hi : s.tasks[i]? = some task) (hlistens : task.phase.listens = phase.listens)
    (hfresh : phase = .queued ∨ phase = .granted → task.phase = .queued ∨ task.phase = .granted)
    (hactive : ∀ result, phase ≠ .ended result)
    (htasks : s'.tasks = s.tasks.set i { task with phase := phase })
    (hwaiters : s'.ackWaiters = s.ackWaiters) : SenderOk items acked s' := by
  have hok := h.tasks i task hi
  have hlt : i < s.tasks.length := (List.getElem?_eq_some_iff.mp hi).1
  constructor
  · rw [htasks, ← h.listed]
    exact map_set_of_eq hi rfl
  · rw [htasks]
    refine h.tasks.set ⟨?_, ?_, hok.heard, ?_⟩ (fun _ _ _ _ hold => hold)
    · intro hearly
      exact hok.fresh (hfresh hearly)
    · intro hl
      exact hok.hears (hlistens ▸ hl)
    · intro result hended
      exact absurd hended (hactive result)
  · intro f j hf
    rw [hwaiters] at hf
    obtain ⟨t, ht, hid, hl, hempty⟩ := h.waiters f j hf
    rw [htasks]
    by_cases hij : i = j
    · subst hij
      rw [hi] at ht
      cases ht
      exact ⟨{ task with phase := phase }, by simp [hlt], hid, hlistens ▸ hl, hempty⟩
    · exact ⟨t, by rw [List.getElem?_set_ne hij, ht], hid, hl, hempty⟩

theorem senderOk_insertWaiter {i : ℕ} {task : SendTask} (hids : (items.map FileItem.fileId).Nodup)
    (h : SenderOk items acked s) (hi : s.tasks[i]? = some task) (hphase : task.phase = .granted) :
    SenderOk items acked (s.insertWaiter i task) ∧ (s.insertWaiter i task).tasks =
      s.tasks.set i { task with phase := .opening, ack := .empty } := by
  have hlt : i < s.tasks.length := (List.getElem?_eq_some_iff.mp hi).1
  have hnone : s.ackWaiters.lookup task.item.fileId = none := by
    cases hfound : s.ackWaiters.lookup task.item.fileId with
    | none => rfl
    | some j =>
      obtain ⟨t, ht, hid, hl, -⟩ := h.waiters _ j hfound
      obtain rfl := place_unique (h.keys hids) ht hi hid
      rw [hi] at ht
      cases ht
      rw [hphase] at hl
      cases hl
  have htasks : (s.insertWaiter i task).tasks =
      s.tasks.set i { task with phase := .opening, ack := .empty } := by
    have hkeep : adjust (fun j => s.ackWaiters.lookup task.item.fileId = some j)
        SendTask.unhook s.tasks = s.tasks := by
      apply List.ext_getElem?
      intro j
      simp [getElem?_adjust, hnone]
    simp only [SendSide.insertWaiter, SendSide.removeWaiter, hkeep]
  refine ⟨⟨?_, ?_, ?_⟩, htasks⟩
  · rw [htasks, ← h.listed]
    exact map_set_of_eq hi rfl
  · rw [htasks]
    refine h.tasks.set ⟨fun _ => rfl, fun _ => .inl rfl, ?_, ?_⟩ (fun _ _ _ _ hold => hold)
    · intro ok reason hv
      cases hv
    · intro result hended
      cases hended
  · intro f j hf
    rw [htasks]
    obtain ⟨rfl, rfl⟩ | ⟨hne, hold⟩ := lookup_insert_cases hf
    · exact ⟨{ task with phase := .opening, ack := .empty }, by simp [hlt], rfl, rfl, rfl⟩
    · obtain ⟨-, hold⟩ := lookup_erase_cases hold
      obtain ⟨t, ht, hid, hl, hempty⟩ := h.waiters f j hold
      have hij : i ≠ j := by
        rintro rfl
        rw [hi] at ht
        cases ht
        exact hne hid.symm
      exact ⟨t, by rw [List.getElem?_set_ne hij, ht], hid, hl, hempty⟩

theorem senderOk_settle {i : ℕ} {task : SendTask} (h : SenderOk items acked s)
    (hi : s.tasks[i]? = some task) (hphase : task.phase = .awaiting)
    (hstep : s.settle i task false = some s') :
    SenderOk items acked s' ∧ ∃ ok reason, task.ack = .sent (ok, reason) ∧
      s'.tasks = s.tasks.set i ⟨task.item, .ended (.returned ⟨task.item.fileId, ok, reason⟩),
        .received (ok, reason)⟩ := by
  have hok := h.tasks i task hi
  obtain hempty | ⟨⟨ok, reason⟩, hsent⟩ := hok.hears (by rw [hphase]; rfl)
  · simp [SendSide.settle, hempty, Channel.wait] at hstep
  · simp only [SendSide.settle, hsent, Channel.wait, Option.map_some, Option.some.injEq] at hstep
    subst hstep
    refine ⟨⟨?_, ?_, ?_⟩, ok, reason, hsent, rfl⟩
    · rw [← h.listed]
      exact map_set_of_eq hi rfl
    · refine h.tasks.set ⟨?_, fun hl => (by cases hl), ?_, ?_⟩ (fun _ _ _ _ hold => hold)
      · rintro (hearly | hearly) <;> cases hearly
      · intro ok' reason' hv
        apply hok.heard
        rw [hsent]
        exact hv
      · intro result hended
        cases hended
        exact ⟨ok, reason, rfl, rfl⟩
    · intro f j hf
      obtain ⟨t, ht, hid, hl, hempty⟩ := h.waiters f j hf
      have hij : i ≠ j := by
        rintro rfl
        rw [hi] at ht
        cases ht
        rw [hsent] at hempty
        cases hempty
      exact ⟨t, by rw [← ht]; exact List.getElem?_set_ne hij, hid, hl, hempty⟩

/-- What a step of a send task does to its own entry, the only one it writes. -/
inductive Sends (task : SendTask) : SendTask → Prop where
  | move {phase : SendPhase} (hholds : phase.holds) : Sends task { task with phase := phase }
  | listen (hphase : task.phase = .granted) :
      Sends task { task with phase := .opening, ack := .empty }
  | settle {ok : Bool} {reason : Option ErrorCode} (hsent : task.ack = .sent (ok, reason)) :
      Sends task ⟨task.item, .ended (.returned ⟨task.item.fileId, ok, reason⟩),
        .received (ok, reason)⟩

theorem Sends.item {task task' : SendTask} (h : Sends task task') : task'.item = task.item := by
  cases h <;> rfl

theorem senderOk_step {i : ℕ} {move : SendMove} {streams : List DashMessage}
    (hids : (items.map FileItem.fileId).Nodup) (h : SenderOk items acked s)
    (hfail : ∀ text, move ≠ .fail text) (htimer : ∀ timer, move = .settle timer → timer = false)
    (hstep : s.step i move = some (s', streams)) :
    SenderOk items acked s' ∧ ∃ task task', s.tasks[i]? = some task ∧ Sends task task' ∧
      s'.tasks = s.tasks.set i task' := by
  obtain ⟨task, hi, hstep⟩ := Option.bind_eq_some_iff.mp hstep
  cases move with
  | acquire =>
    simp only [SendSide.advance] at hstep
    split_ifs at hstep with hready
    cases hstep
    refine ⟨senderOk_put h hi ?_ ?_ ?_ rfl rfl, task, _, hi, .move rfl, rfl⟩
    · rw [hready.1]
      rfl
    · exact fun _ => .inl hready.1
    · exact fun _ hended => by cases hended
  | register =>
    simp only [SendSide.advance] at hstep
    split_ifs at hstep with hphase
    cases hstep
    have hdone := senderOk_insertWaiter hids h hi hphase
    exact ⟨hdone.1, task, _, hi, .listen hphase, hdone.2⟩
  | write m =>
    simp only [SendSide.advance] at hstep
    split_ifs at hstep with hready
    cases hstep
    refine ⟨senderOk_put h hi ?_ ?_ ?_ rfl rfl, task, _, hi, .move rfl, rfl⟩
    · rw [hready.1]
      rfl
    · rintro (hearly | hearly) <;> cases hearly
    · exact fun _ hended => by cases hended
  | finish =>
    simp only [SendSide.advance] at hstep
    split_ifs at hstep with hphase
    cases hstep
    refine ⟨senderOk_put h hi ?_ ?_ ?_ rfl rfl, task, _, hi, .move rfl, rfl⟩
    · rw [hphase]
      rfl
    · rintro (hearly | hearly) <;> cases hearly
    · exact fun _ hended => by cases hended
  | fail text => exact absurd rfl (hfail text)
  | settle timer =>
    obtain rfl := htimer timer rfl
    simp only [SendSide.advance] at hstep
    split_ifs at hstep with hphase
    obtain ⟨t, hsettle, heq⟩ := Option.map_eq_some_iff.mp hstep
    cases heq
    obtain ⟨hok, ok, reason, hsent, htasks⟩ := senderOk_settle h hi hphase hsettle
    exact ⟨hok, task, _, hi, .settle hsent, htasks⟩

theorem senderOk_acknowledge {ack : AckPayload} (h : SenderOk items acked s)
    (hack : ack ∈ acked) : SenderOk items acked (s.acknowledge ack) := by
  unfold SendSide.acknowledge
  split
  · rename_i i hwaiter
    obtain ⟨owner, howner, hkey, hlistens, hempty⟩ := h.waiters _ i hwaiter
    have hheard : ∀ t, t = owner → t.hear (ack.ok, ack.reason) =
        { owner with ack := .sent (ack.ok, ack.reason) } := by
      rintro t rfl
      simp [SendTask.hear, hempty, Channel.send]
    constructor
    · rw [← h.listed]
      exact map_adjust (f := SendTask.hear (ack.ok, ack.reason)) (fun _ => rfl) _ _
    · refine h.tasks.adjust ?_ (fun _ _ _ _ hold => hold)
      intro j t hj ht hold
      obtain rfl : j = i := by simpa using hj
      obtain rfl : t = owner := by rw [ht] at howner; exact Option.some.inj howner
      rw [hheard t rfl]
      refine ⟨?_, fun _ => .inr ⟨_, rfl⟩, ?_, ?_⟩
      · intro hearly
        obtain hearly | hearly := hearly <;> simp only at hearly <;> rw [hearly] at hlistens <;>
          cases hlistens
      · intro ok reason hv
        cases hv
        rw [hkey]
        exact hack
      · intro result hended
        simp only at hended
        rw [hended] at hlistens
        cases hlistens
    · intro f j hf
      obtain ⟨hne, hold⟩ := lookup_erase_cases hf
      obtain ⟨t, ht, hid, hl, hnothing⟩ := h.waiters f j hold
      have hij : j ≠ i := by
        rintro rfl
        rw [ht] at howner
        cases howner
        exact hne (hid.symm.trans hkey)
      exact ⟨t, by simp [getElem?_adjust, ht, hij], hid, hl, hnothing⟩
  · exact h

end Sender

structure Coupled (items : List FileItem) (s : Ends) : Prop where
  sender : SenderOk items s.acked s.sender
  receiver : ReceiverOk items s.acked s.receiver
  flying : ∀ ack, .ack ack ∈ s.toSender → ack ∈ s.acked

section Both

variable {items : List FileItem} {s s' : Ends}

theorem coupled_start (saveRoot : PathBuf) (sendLimit receiveLimit : ℕ) (items : List FileItem) :
    Coupled items (.start saveRoot sendLimit receiveLimit items) :=
  ⟨senderOk_start sendLimit items, receiverOk_start saveRoot receiveLimit items,
    fun _ h => by cases h⟩

theorem coupled_received {l : ReceiveLabel} {next : ReceiveSide × List AckPayload}
    (hids : (items.map FileItem.fileId).Nodup) (h : Coupled items s)
    (hstep : s.receiver.step l = some next) : Coupled items (s.received next) := by
  refine ⟨h.sender.mono (List.subset_append_left _ _), receiverOk_step hids h.receiver hstep, ?_⟩
  intro ack hack
  obtain hold | hnew := List.mem_append.mp hack
  · exact List.mem_append_left _ (h.flying ack hold)
  · obtain ⟨ack', hmem, heq⟩ := List.mem_map.mp hnew
    cases heq
    exact List.mem_append_right _ hmem

theorem coupled_deliverAck {k : ℕ} {m : DashMessage} (h : Coupled items s)
    (hm : s.toSender[k]? = some m) (hkind : isCancel m = false) :
    Coupled items { s with
      sender := s.sender.dispatch (.ok m), toSender := s.toSender.eraseIdx k } := by
  refine ⟨?_, h.receiver, fun ack hack => h.flying ack (List.mem_of_mem_eraseIdx hack)⟩
  cases m with
  | ack ack => exact senderOk_acknowledge h.sender (h.flying ack (List.mem_of_getElem? hm))
  | cancel payload => cases hkind
  | _ => exact h.sender

theorem coupled_step {l : Label} (hids : (items.map FileItem.fileId).Nodup) (h : Coupled items s)
    (hsteady : Steady s l) (hstep : step s l = some s') : Coupled items s' := by
  cases l with
  | send i move =>
    obtain ⟨⟨sender, streams⟩, hsend, heq⟩ := Option.map_eq_some_iff.mp hstep
    cases heq
    refine ⟨(senderOk_step hids h.sender ?_ ?_ hsend).1, h.receiver, h.flying⟩
    · rintro text rfl
      exact hsteady
    · rintro timer rfl
      exact hsteady
  | receive l =>
    cases l with
    | stream first => cases hstep
    | register =>
      obtain ⟨next, hnext, rfl⟩ := Option.map_eq_some_iff.mp hstep
      exact coupled_received hids h hnext
    | task i move =>
      obtain ⟨next, hnext, rfl⟩ := Option.map_eq_some_iff.mp hstep
      exact coupled_received hids h hnext
    | join =>
      obtain ⟨next, hnext, rfl⟩ := Option.map_eq_some_iff.mp hstep
      exact coupled_received hids h hnext
  | deliverStream k =>
    obtain ⟨m, -, hm⟩ := Option.bind_eq_some_iff.mp hstep
    obtain ⟨next, hnext, rfl⟩ := Option.map_eq_some_iff.mp hm
    have hdone := coupled_received hids h hnext
    exact ⟨hdone.sender, hdone.receiver, hdone.flying⟩
  | deliverAck k =>
    simp only [step] at hstep
    split_ifs at hstep
    obtain ⟨m, hm, rfl⟩ := Option.map_eq_some_iff.mp hstep
    exact coupled_deliverAck h hm (hsteady m hm)
  | cancelBySender reason =>
    cases hstep
    exact ⟨h.sender, h.receiver, h.flying⟩
  | cancelByReceiver reason =>
    cases hstep
    refine ⟨h.sender, h.receiver, fun ack hack => h.flying ack ?_⟩
    simpa using hack
  | lose cause => exact absurd hsteady id

end Both

end DashDrop.Exchange.Joint
