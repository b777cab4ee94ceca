/- GID: DashDrop/Exchange/Outcomes
   source: src-tauri/src/transport/sender.rs
   anchors: []
   digest: The outcome of a sender over every run of its tasks and its Ack dispatcher. -/

import DashDrop.Exchange.Senders
import DashDrop.Foundation.Transitions

set_option autoImplicit false
set_option relaxedAutoImplicit false

namespace DashDrop.Exchange.Outcomes

open DashDrop.Foundation.Oneshot DashDrop.Foundation.Slots DashDrop.Foundation.Transitions
open DashDrop.Transport.Protocol DashDrop.Transport.Outcome
open DashDrop.Runtime.Machine (ReadFault)
open DashDrop.Exchange.Senders

/-- What the dispatcher does behind a lock of its own, after the message that asked for it. -/
inductive DispatchOp where
  | storeError (error : ErrorCode)
  | drain (reason : ErrorCode)
  deriving DecidableEq

def DispatchOp.stores : DispatchOp → Bool
  | .storeError _ => true
  | .drain _ => false

def recordAndDrain (reason : ErrorCode) : List DispatchOp := [.storeError reason, .drain reason]

/-- The sender, what its dispatcher has still to do, and `cancelled_by_peer` as `send_files` read
it once every task was joined. -/
structure SenderRun where
  side : SendSide
  pending : List DispatchOp
  joined : Option Bool

def SenderRun.start (configured : ℕ) (items : List FileItem) : SenderRun :=
  ⟨.start configured items, [], none⟩

def perform (side : SendSide) : DispatchOp → SendSide
  | .storeError error => { side with dispatchError := some error }
  | .drain reason => side.drain reason

def SenderRun.receive (s : SenderRun) : Except ReadFault DashMessage → SenderRun
  | .ok (.ack ack) => { s with side := s.side.acknowledge ack }
  | .ok (.cancel cancel) =>
      { s with
        side := { s.side with cancelledByPeer := true }
        pending := match cancel.reason with
          | .userCancelled => [.drain .cancelled]
          | .error error => recordAndDrain error }
  | .ok _ => s
  | .error fault =>
      let reason := .protocol ("ack dispatcher read failed: " ++ fault.display)
      { s with pending := recordAndDrain reason }

def SenderRun.lose (s : SenderRun) (cause : String) : SenderRun :=
  let reason := .protocol ("ack dispatcher accept failed: " ++ cause)
  { s with pending := recordAndDrain reason }

inductive SenderEvent where
  | task (i : ℕ) (move : SendMove)
  | stream (message : Except ReadFault DashMessage)
  | connectionLost (cause : String)
  | perform (op : DispatchOp)
  | join

def SenderRun.listening (s : SenderRun) : Bool := s.side.dispatching && s.pending.isEmpty

def result? (task : SendTask) : Option TaskResult :=
  match task.phase with
  | .ended result => some result
  | _ => none

def senderStep (s : SenderRun) : SenderEvent → Option SenderRun
  | .task i move => (s.side.step i move).map fun (side, _) => { s with side := side }
  | .stream message => if s.listening then some (s.receive message) else none
  | .connectionLost cause => if s.listening then some (s.lose cause) else none
  | .perform op =>
      if s.pending.head? = some op then
        some { s with side := perform s.side op, pending := s.pending.tail }
      else none
  | .join =>
      if s.joined = none ∧ s.side.tasks.all fun task => (result? task).isSome then
        some { s with joined := some s.side.cancelledByPeer }
      else none

/-- The peer cancels with an error, an Ack stream cannot be read, or the connection is lost. -/
def dispatcherFails : SenderEvent → Bool
  | .stream (.ok (.cancel ⟨.error _⟩)) | .stream (.error _) | .connectionLost _ => true
  | _ => false

def recordsError : SenderEvent → Bool
  | .perform op => op.stores
  | _ => false

def peerCancels : SenderEvent → Bool
  | .stream (.ok (.cancel _)) => true
  | _ => false

/-- `determine_outcome` over the joined tasks, with `dispatch_error` as it stands when its lock is
taken: after the flag was read. -/
def outcome (items : List FileItem) (s : SenderRun) : Option TransferOutcome :=
  s.joined.map fun cancelled =>
    sendOutcome cancelled (s.side.tasks.filterMap result?) items s.side.dispatchError

def ack? (task : SendTask) : Option AckResult := (result? task).bind TaskResult.ack?

def acknowledged (task : SendTask) : Bool := (ack? task).any AckResult.ok

/-- The task has ended with a result of its file, be it ok or not. -/
def answered (task : SendTask) : Bool := (ack? task).isSome

/-- What is done of a message in several steps is what `dispatch` does of it at once. -/
theorem dispatch_performed {s : SenderRun} (idle : s.pending = [])
    (message : Except ReadFault DashMessage) :
    (s.receive message).pending.foldl perform (s.receive message).side =
      s.side.dispatch message := by
  cases message with
  | error fault => rfl
  | ok message =>
    cases message with
    | ack ack => simp [SenderRun.receive, idle, SendSide.dispatch]
    | cancel cancel =>
      obtain ⟨reason⟩ := cancel
      cases reason <;> rfl
    | _ => simp [SenderRun.receive, idle, SendSide.dispatch]

theorem acceptFailed_performed (s : SenderRun) (cause : String) :
    (s.lose cause).pending.foldl perform (s.lose cause).side = s.side.acceptFailed cause := rfl

section Flags

variable {a b : SendSide} {s t : SenderRun} {items : List FileItem}

theorem flags_settle {i : ℕ} {task : SendTask} {timer : Bool} (h : a.settle i task timer = some b) :
    b.cancelledByPeer = a.cancelledByPeer ∧ b.dispatchError = a.dispatchError := by
  obtain ⟨⟨ack, heard⟩, _, rfl⟩ := Option.map_eq_some_iff.mp h
  cases heard <;> exact ⟨rfl, rfl⟩

theorem flags_task {i : ℕ} {move : SendMove} {streams : List DashMessage}
    (h : a.step i move = some (b, streams)) :
    b.cancelledByPeer = a.cancelledByPeer ∧ b.dispatchError = a.dispatchError := by
  obtain ⟨task, _, h⟩ := Option.bind_eq_some_iff.mp h
  cases move with
  | settle timer =>
    simp only [SendSide.advance] at h
    split_ifs at h
    obtain ⟨settled, moved, same⟩ := Option.map_eq_some_iff.mp h
    obtain ⟨rfl, rfl⟩ := Prod.mk.inj same
    exact flags_settle moved
  | _ =>
    simp only [SendSide.advance] at h
    split_ifs at h
    obtain ⟨rfl, rfl⟩ := Prod.mk.inj (Option.some.inj h)
    exact ⟨rfl, rfl⟩

/-- An error of the dispatcher is recorded or still waits for its lock. -/
def noted (s : SenderRun) : Bool := s.side.dispatchError.isSome || s.pending.any DispatchOp.stores

structure Flags (s t : SenderRun) (cancelled recorded failed : Bool) : Prop where
  peer : t.side.cancelledByPeer = (s.side.cancelledByPeer || cancelled)
  error : t.side.dispatchError.isSome = (s.side.dispatchError.isSome || recorded)
  noted : noted t = (noted s || failed)
  joined : ∀ flag, t.joined = some flag → s.joined = some flag ∨ flag = s.side.cancelledByPeer

theorem flags_perform {op : DispatchOp} {rest : List DispatchOp} (pending : s.pending = op :: rest) :
    Flags s { s with side := perform s.side op, pending := s.pending.tail } false op.stores
      false := by
  cases op with
  | storeError error =>
    exact ⟨by simp [perform], by simp [perform, DispatchOp.stores],
      by simp [noted, perform, pending, DispatchOp.stores], fun _ => .inl⟩
  | drain reason =>
    exact ⟨by simp [perform, SendSide.drain],
      by simp [perform, SendSide.drain, DispatchOp.stores],
      by simp [noted, perform, SendSide.drain, pending, DispatchOp.stores], fun _ => .inl⟩

theorem flags_receive (idle : s.pending = []) (message : Except ReadFault DashMessage) :
    Flags s (s.receive message) (peerCancels (.stream message)) false
      (dispatcherFails (.stream message)) := by
  cases message with
  | error fault =>
    exact ⟨by simp [SenderRun.receive, peerCancels], by simp [SenderRun.receive],
      by simp [noted, SenderRun.receive, idle, recordAndDrain, DispatchOp.stores,
        dispatcherFails], fun _ => .inl⟩
  | ok message =>
    cases message with
    | ack ack =>
      refine ⟨?_, ?_, ?_, fun _ => .inl⟩ <;>
        simp only [noted, SenderRun.receive, SendSide.acknowledge, peerCancels, dispatcherFails] <;>
        split <;> simp
    | cancel cancel =>
      obtain ⟨reason⟩ := cancel
      cases reason <;>
        exact ⟨by simp [SenderRun.receive, peerCancels], by simp [SenderRun.receive],
          by simp [noted, SenderRun.receive, idle, recordAndDrain, DispatchOp.stores,
            dispatcherFails], fun _ => .inl⟩
    | _ =>
      exact ⟨by simp [SenderRun.receive, peerCancels], by simp [SenderRun.receive],
        by simp [noted, SenderRun.receive, dispatcherFails], fun _ => .inl⟩

theorem flags_step {l : SenderEvent} (h : senderStep s l = some t) :
    Flags s t (peerCancels l) (recordsError l) (dispatcherFails l) := by
  cases l with
  | task i move =>
    obtain ⟨⟨moved, streams⟩, step, rfl⟩ := Option.map_eq_some_iff.mp h
    obtain ⟨cancelled, error⟩ := flags_task step
    exact ⟨by simp [cancelled, peerCancels], by simp [error, recordsError],
      by simp [noted, error, dispatcherFails], fun _ => .inl⟩
  | stream message =>
    simp only [senderStep] at h
    split_ifs at h with free
    obtain rfl := Option.some.inj h
    have idle : s.pending = [] := by simpa using (Bool.and_eq_true_iff.mp free).2
    exact flags_receive idle message
  | connectionLost cause =>
    simp only [senderStep] at h
    split_ifs at h
    obtain rfl := Option.some.inj h
    exact ⟨by simp [SenderRun.lose, peerCancels], by simp [SenderRun.lose, recordsError],
      by simp [noted, SenderRun.lose, recordAndDrain, DispatchOp.stores, dispatcherFails],
      fun _ => .inl⟩
  | perform op =>
    simp only [senderStep] at h
    split_ifs at h with next
    obtain rfl := Option.some.inj h
    obtain ⟨rest, pending⟩ := List.head?_eq_some_iff.mp next
    exact flags_perform pending
  | join =>
    simp only [senderStep] at h
    split_ifs at h
    obtain rfl := Option.some.inj h
    exact ⟨by simp [peerCancels], by simp [recordsError], by simp [noted, dispatcherFails],
      fun flag same => .inr (Option.some.inj same).symm⟩

def ReadFlag (s : SenderRun) : Prop := s.joined = some true → s.side.cancelledByPeer = true

theorem flags_run {events : List SenderEvent} (h : play senderStep anyStep s events = some t)
    (read : ReadFlag s) :
    ReadFlag t ∧ t.side.cancelledByPeer = (s.side.cancelledByPeer || events.any peerCancels) ∧
      t.side.dispatchError.isSome = (s.side.dispatchError.isSome || events.any recordsError) ∧
      noted t = (noted s || events.any dispatcherFails) := by
  induction events generalizing s with
  | nil =>
    obtain rfl : s = t := by simpa [play] using h
    simp [read]
  | cons event rest ih =>
    unfold play at h
    split_ifs at h
    obtain ⟨u, step, later⟩ := Option.bind_eq_some_iff.mp h
    have flags := flags_step step
    have read' : ReadFlag u := by
      intro joined
      rw [flags.peer]
      obtain before | now := flags.joined true joined
      · simp [read before]
      · simp [← now]
    obtain ⟨kept, cancelled, recorded, failed⟩ := ih later read'
    refine ⟨kept, ?_, ?_, ?_⟩
    · rw [cancelled, flags.peer, List.any_cons, Bool.or_assoc]
    · rw [recorded, flags.error, List.any_cons, Bool.or_assoc]
    · rw [failed, flags.noted, List.any_cons, Bool.or_assoc]

end Flags

section Results

variable {s t : SendSide} {items : List FileItem}

/-- There is one task for each item, and a task that returned speaks of its own file. -/
structure Ours (items : List FileItem) (tasks : List SendTask) : Prop where
  listed : tasks.map SendTask.item = items
  own : ∀ task ∈ tasks, ∀ ack, task.phase = .ended (.returned ack) →
    ack.fileId = task.item.fileId

theorem ours_adjust {here : ℕ → Bool} {f : SendTask → SendTask} {tasks : List SendTask}
    (h : Ours items tasks) (phase : ∀ task, (f task).phase = task.phase)
    (item : ∀ task, (f task).item = task.item) : Ours items (adjust here f tasks) := by
  constructor
  · rw [map_adjust item]
    exact h.listed
  · intro task mem ack ended
    obtain ⟨i, found⟩ := List.mem_iff_getElem?.mp mem
    rw [getElem?_adjust] at found
    obtain ⟨old, there, rfl⟩ := Option.map_eq_some_iff.mp found
    have old_mem := List.mem_of_getElem? there
    split_ifs at ended ⊢
    · rw [phase] at ended
      rw [item]
      exact h.own old old_mem ack ended
    · exact h.own old old_mem ack ended

theorem ours_removeWaiter (h : Ours items s.tasks) (fileId : ℕ) :
    Ours items (s.removeWaiter fileId).tasks :=
  ours_adjust h (fun _ => rfl) fun _ => rfl

theorem ours_drain (h : Ours items s.tasks) (reason : ErrorCode) :
    Ours items (s.drain reason).tasks :=
  ours_adjust h (fun _ => rfl) fun _ => rfl

theorem ours_set {tasks : List SendTask} {i : ℕ} {task : SendTask} (h : Ours items tasks)
    (there : items[i]? = some task.item)
    (own : ∀ ack, task.phase = .ended (.returned ack) → ack.fileId = task.item.fileId) :
    Ours items (tasks.set i task) := by
  constructor
  · rw [← h.listed, List.getElem?_map] at there
    obtain ⟨old, found, item⟩ := Option.map_eq_some_iff.mp there
    rw [map_set_of_eq found item.symm]
    exact h.listed
  · intro other mem ack ended
    rcases List.mem_or_eq_of_mem_set mem with old | rfl
    · exact h.own other old ack ended
    · exact own ack ended

theorem ours_settle {i : ℕ} {task : SendTask} {timer : Bool} (h : Ours items s.tasks)
    (there : items[i]? = some task.item) (step : s.settle i task timer = some t) :
    Ours items t.tasks := by
  obtain ⟨⟨ack, heard⟩, _, rfl⟩ := Option.map_eq_some_iff.mp step
  have own {value : AckResult} (named : value.fileId = task.item.fileId) (other : AckResult)
      (same : SendPhase.ended (.returned value) = .ended (.returned other)) :
      other.fileId = task.item.fileId := by
    obtain rfl := TaskResult.returned.inj (SendPhase.ended.inj same)
    exact named
  cases heard with
  | value v => exact ours_set h there (own rfl)
  | senderGone => exact ours_set h there (own rfl)
  | timedOut => exact ours_set (ours_removeWaiter h _) there (own rfl)

theorem ours_task {i : ℕ} {move : SendMove} {streams : List DashMessage} (h : Ours items s.tasks)
    (step : s.step i move = some (t, streams)) : Ours items t.tasks := by
  obtain ⟨task, found, step⟩ := Option.bind_eq_some_iff.mp step
  have there : items[i]? = some task.item := by
    rw [← h.listed, List.getElem?_map, found]
    rfl
  cases move with
  | settle timer =>
    simp only [SendSide.advance] at step
    split_ifs at step
    obtain ⟨settled, moved, same⟩ := Option.map_eq_some_iff.mp step
    obtain ⟨rfl, rfl⟩ := Prod.mk.inj same
    exact ours_settle h there moved
  | register =>
    simp only [SendSide.advance] at step
    split_ifs at step
    obtain ⟨rfl, rfl⟩ := Prod.mk.inj (Option.some.inj step)
    exact ours_set (ours_removeWaiter h _) there fun _ ended => by cases ended
  | fail text =>
    simp only [SendSide.advance] at step
    split_ifs at step
    obtain ⟨rfl, rfl⟩ := Prod.mk.inj (Option.some.inj step)
    exact ours_set (ours_removeWaiter h _) there fun _ ended => by cases ended
  | _ =>
    simp only [SendSide.advance] at step
    split_ifs at step
    obtain ⟨rfl, rfl⟩ := Prod.mk.inj (Option.some.inj step)
    exact ours_set h there fun _ ended => by cases ended

theorem ours_perform (h : Ours items s.tasks) (op : DispatchOp) :
    Ours items (perform s op).tasks := by
  cases op with
  | storeError error => exact h
  | drain reason => exact ours_drain h reason

theorem ours_receive {r : SenderRun} (h : Ours items r.side.tasks)
    (message : Except ReadFault DashMessage) : Ours items (r.receive message).side.tasks := by
  cases message with
  | error fault => exact h
  | ok message =>
    cases message with
    | ack ack =>
      simp only [SenderRun.receive, SendSide.acknowledge]
      split
      · exact ours_adjust h (fun _ => rfl) fun _ => rfl
      · exact h
    | _ => exact h

theorem ours_step {r u : SenderRun} {l : SenderEvent} (h : Ours items r.side.tasks)
    (step : senderStep r l = some u) : Ours items u.side.tasks := by
  cases l with
  | task i move =>
    obtain ⟨⟨moved, streams⟩, turn, rfl⟩ := Option.map_eq_some_iff.mp step
    exact ours_task h turn
  | stream message =>
    simp only [senderStep] at step
    split_ifs at step
    obtain rfl := Option.some.inj step
    exact ours_receive h message
  | perform op =>
    simp only [senderStep] at step
    split_ifs at step
    obtain rfl := Option.some.inj step
    exact ours_perform h op
  | _ =>
    simp only [senderStep] at step
    split_ifs at step
    obtain rfl := Option.some.inj step
    exact h

theorem ours_start (configured : ℕ) (items : List FileItem) :
    Ours items (SendSide.start configured items).tasks := by
  constructor
  · simp [SendSide.start, SendTask.new, Function.comp_def]
  · intro task mem ack ended
    obtain ⟨item, _, rfl⟩ := List.mem_map.mp mem
    cases ended

theorem ours_run {r u : SenderRun} {events : List SenderEvent} (h : Ours items r.side.tasks)
    (run : play senderStep anyStep r events = some u) : Ours items u.side.tasks :=
  (reaches_of_play run).keeps h fun kept _ step => ours_step kept step

theorem acks_collected (tasks : List SendTask) :
    (tasks.filterMap result?).filterMap TaskResult.ack? = tasks.filterMap ack? :=
  List.filterMap_filterMap

theorem phase_of_ack {task : SendTask} {ack : AckResult} (h : ack? task = some ack) :
    task.phase = .ended (.returned ack) := by
  obtain ⟨result, ended, answer⟩ := Option.bind_eq_some_iff.mp h
  unfold result? at ended
  split at ended
  · next listed phase =>
    obtain rfl := Option.some.inj ended
    cases listed with
    | returned other =>
      obtain rfl : other = ack := by simpa [TaskResult.ack?] using answer
      exact phase
    | errored text => cases answer
    | panicked => cases answer
  · cases ended

theorem acknowledged_iff {task : SendTask} :
    acknowledged task = true ↔ ∃ ack, ack? task = some ack ∧ ack.ok = true := by
  simp [acknowledged, Option.any_eq_true]

/-- Where each task has answered, the results that are not ok are those of the other files. -/
theorem refused_files {tasks : List SendTask}
    (own : ∀ task ∈ tasks, ∀ ack, task.phase = .ended (.returned ack) →
      ack.fileId = task.item.fileId)
    (all : ∀ task ∈ tasks, answered task) :
    ((tasks.filterMap ack?).filter fun ack => !ack.ok).map AckResult.fileId =
      (tasks.filter fun task => !acknowledged task).map fun task => task.item.fileId := by
  induction tasks with
  | nil => rfl
  | cons task rest ih =>
    have rest_same := ih (fun other mem => own other (.tail _ mem)) fun other mem =>
      all other (.tail _ mem)
    obtain ⟨ack, found⟩ := Option.isSome_iff_exists.mp (all task (.head _))
    have named := own task (.head _) ack (phase_of_ack found)
    have ok : acknowledged task = ack.ok := by simp [acknowledged, found]
    rw [List.filterMap_cons_some found]
    cases h : ack.ok <;> simp [ok, h, named, rest_same]

end Results

section Outcome

variable {s : SenderRun} {items : List FileItem} {result : TransferOutcome}

/-- Without an error of the dispatcher only a transfer in which no file is ok fails. -/
theorem none_ok_of_failed {code : ErrorCode} (clean : s.side.dispatchError = none)
    (determined : outcome items s = some (.failed code)) :
    ∀ task ∈ s.side.tasks, acknowledged task = false := by
  intro task mem
  by_contra ok
  obtain ⟨ack, found, value⟩ := acknowledged_iff.mp (by simpa using ok)
  have collected : ack ∈ (s.side.tasks.filterMap ack?).filter AckResult.ok := by
    apply List.mem_filter.mpr
    exact ⟨List.mem_filterMap.mpr ⟨task, mem, found⟩, value⟩
  have some_ok := List.length_pos_of_mem collected
  obtain ⟨cancelled, _, failed⟩ := Option.map_eq_some_iff.mp determined
  simp only [sendOutcome, acks_collected, clean, determineOutcome, tally_eq] at failed
  split_ifs at failed

theorem partial_of_mixed (determined : outcome items s = some result)
    (clean : s.side.dispatchError = none) (going : s.joined ≠ some true)
    (ours : Ours items s.side.tasks) (all : ∀ task ∈ s.side.tasks, answered task)
    (some_ok : s.side.tasks.any acknowledged)
    (some_not : s.side.tasks.any fun task => !acknowledged task) :
    ∃ failed, result = .partialSuccess failed ∧
      failed.map FailedFile.fileId =
        (s.side.tasks.filter fun task => !acknowledged task).map fun task => task.item.fileId := by
  have refused := refused_files ours.own all
  obtain ⟨task, mem, ok⟩ := List.any_eq_true.mp some_ok
  obtain ⟨ack, found, value⟩ := acknowledged_iff.mp ok
  obtain ⟨other, listed, not_ok⟩ := List.any_eq_true.mp some_not
  have some_success : 0 < ((s.side.tasks.filterMap ack?).filter AckResult.ok).length := by
    apply List.length_pos_of_mem (a := ack)
    exact List.mem_filter.mpr ⟨List.mem_filterMap.mpr ⟨task, mem, found⟩, value⟩
  have some_refused : ((s.side.tasks.filterMap ack?).filter fun ack => !ack.ok) ≠ [] := by
    intro none_refused
    rw [none_refused] at refused
    have empty := List.map_eq_nil_iff.mp refused.symm
    have there : other ∈ s.side.tasks.filter fun task => !acknowledged task :=
      List.mem_filter.mpr ⟨listed, not_ok⟩
    rw [empty] at there
    cases there
  obtain ⟨cancelled, joined, shown⟩ := Option.map_eq_some_iff.mp determined
  have free : cancelled = false := by
    cases cancelled with
    | false => rfl
    | true => exact absurd joined going
  refine ⟨((s.side.tasks.filterMap ack?).filter fun ack => !ack.ok).map (failedFile items), ?_, ?_⟩
  · rw [← shown, free]
    simp only [sendOutcome, acks_collected, clean, determineOutcome, tally_eq]
    simp [some_refused, some_success]
  · rw [List.map_map]
    exact refused

/-- An error that the dispatcher has recorded fails the transfer, whatever was acknowledged.
Without one, a transfer fails only with no file ok, and one with both kinds of results keeps them
apart. -/
theorem partial_results_kept (configured : ℕ) (items : List FileItem) (events : List SenderEvent)
    (run : play senderStep anyStep (.start configured items) events = some s)
    (determined : outcome items s = some result) :
    s.side.tasks.map SendTask.item = items ∧
      (events.any recordsError → ∃ error, result = .failed error) ∧
      (events.any recordsError = false →
        ((∃ code, result = .failed code) → s.side.tasks.any acknowledged = false) ∧
        (events.any peerCancels = false → (∀ task ∈ s.side.tasks, answered task) →
          s.side.tasks.any acknowledged → (s.side.tasks.any fun task => !acknowledged task) →
          ∃ failed, result = .partialSuccess failed ∧
            failed.map FailedFile.fileId =
              (s.side.tasks.filter fun task => !acknowledged task).map
                fun task => task.item.fileId)) ∧
      (events.any recordsError → events.any dispatcherFails) ∧
      (s.pending = [] → events.any dispatcherFails → events.any recordsError) := by
  have ours := ours_run (ours_start configured items) run
  obtain ⟨read, cancelled, recorded, failed⟩ := flags_run run (fun joined => by cases joined)
  simp only [SenderRun.start, SendSide.start, noted, Option.isSome_none, List.any_nil,
    Bool.or_false, Bool.false_or] at cancelled recorded failed
  refine ⟨ours.listed, ?_, ?_, ?_, ?_⟩
  · intro stored
    rw [stored] at recorded
    obtain ⟨cause, error⟩ := Option.isSome_iff_exists.mp recorded
    obtain ⟨flag, _, shown⟩ := Option.map_eq_some_iff.mp determined
    exact ⟨cause, by simp [← shown, sendOutcome, determineOutcome, error]⟩
  · intro works
    rw [works] at recorded
    have clean : s.side.dispatchError = none := by simpa using recorded
    constructor
    · intro ⟨code, isFailed⟩
      rw [isFailed] at determined
      simpa using none_ok_of_failed clean determined
    · intro going all
      rw [going] at cancelled
      have unread : s.joined ≠ some true := by
        intro joined
        rw [read joined] at cancelled
        cases cancelled
      exact partial_of_mixed determined clean unread ours all
  · intro stored
    rw [← failed, recorded, stored]
    rfl
  · intro idle fails
    rw [fails, recorded, idle] at failed
    simpa using failed

def twoFiles : List FileItem :=
  [⟨0, "a", "a", 0, .regularFile, 0, none, none⟩, ⟨1, "b", "b", 0, .regularFile, 0, none, none⟩]

def complete (fileId : ℕ) : DashMessage := .complete ⟨fileId, ⟨Vector.replicate 32 0⟩⟩

def sends (i : ℕ) : List SenderEvent :=
  [.task i .acquire, .task i .register, .task i (.write (complete i)), .task i .finish]

def ackRead (fileId : ℕ) (ok : Bool) (reason : Option ErrorCode) : SenderEvent :=
  .stream (.ok (.ack ⟨fileId, ok, reason⟩))

def playOf (events : List SenderEvent) : SenderRun :=
  (play senderStep anyStep (.start 2 twoFiles) events).getD (.start 2 twoFiles)

def mixedEvents : List SenderEvent :=
  sends 0 ++ sends 1 ++ [ackRead 0 true none, ackRead 1 false (some .hashMismatch),
    .task 0 (.settle false), .task 1 (.settle false), .join]

theorem mixed_transfer_is_partial :
    ∃ failed, outcome twoFiles (playOf mixedEvents) = some (.partialSuccess failed) ∧
      failed.map FailedFile.fileId = [1] := by
  have run : play senderStep anyStep (.start 2 twoFiles) mixedEvents = some (playOf mixedEvents) := by
    rfl
  obtain ⟨result, determined⟩ : ∃ result, outcome twoFiles (playOf mixedEvents) = some result :=
    Option.isSome_iff_exists.mp (by decide +kernel)
  obtain ⟨-, -, clean, -⟩ := partial_results_kept 2 twoFiles mixedEvents run determined
  obtain ⟨failed, shown, listed⟩ := (clean (by decide)).2 (by decide) (by decide +kernel)
    (by decide +kernel) (by decide +kernel)
  exact ⟨failed, by rw [determined, shown], listed.trans (by decide +kernel)⟩

def timedOut : ErrorCode := .protocol "ack dispatcher accept failed: timed out"

/-- The first file is acknowledged and the connection breaks before the second is. -/
def brokenEvents : List SenderEvent :=
  sends 0 ++ sends 1 ++ [ackRead 0 true none, .task 0 (.settle false), .connectionLost "timed out",
    .perform (.storeError timedOut), .perform (.drain timedOut), .task 1 (.settle false), .join]

theorem lost_connection_hides_success :
    play senderStep anyStep (.start 2 twoFiles) brokenEvents = some (playOf brokenEvents) ∧
      ((playOf brokenEvents).side.tasks.map result?) = [some (.returned ⟨0, true, none⟩),
        some (.returned ⟨1, false, some timedOut⟩)] ∧
      (playOf brokenEvents).side.cancelledByPeer = false ∧
      outcome twoFiles (playOf brokenEvents) = some (.failed timedOut) :=
  ⟨by rfl, by decide +kernel, by decide +kernel, by decide +kernel⟩

end Outcome

end DashDrop.Exchange.Outcomes
