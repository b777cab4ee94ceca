/- GID: DashDrop/Exchange/Receivers
   source: src-tauri/src/transport/receiver.rs
   anchors: []
   digest: The registration loop, the receive tasks and the stream dispatcher of a receiver. -/

import DashDrop.Exchange.Senders

set_option autoImplicit false
set_option relaxedAutoImplicit false

namespace DashDrop.Exchange.Receivers

open DashDrop.Foundation.Oneshot DashDrop.Foundation.Slots DashDrop.Foundation.UnixPath
open DashDrop.Transport.Protocol DashDrop.Transport.Outcome DashDrop.Transport.PathValidation
open DashDrop.Runtime.Machine (ReadFault)
open DashDrop.Exchange.Senders (maxStreams routedFileId)

inductive ReceivePhase where
  /-- The registration loop has not come to the item. -/
  | listed
  /-- A task that only sends a negative Ack. -/
  | refused (reason : ErrorCode)
  /-- The route is inserted, the task spawned, without a permit. -/
  | queued
  /-- With a permit, waiting for the stream. -/
  | waiting
  /-- Inside `receive_one_file`. -/
  | receiving
  /-- The Ack is to be sent, still with the permit. -/
  | answering (result : AckResult)
  | ended (result : TaskResult)
  deriving DecidableEq

def ReceivePhase.holds : ReceivePhase → Bool
  | .waiting | .receiving | .answering _ => true
  | .listed | .refused _ | .queued | .ended _ => false

def ReceivePhase.hasEnded : ReceivePhase → Bool
  | .ended _ => true
  | _ => false

structure ReceiveTask where
  item : FileItem
  phase : ReceivePhase
  stream : Channel DashMessage
  deriving DecidableEq

def ReceiveTask.new (item : FileItem) : ReceiveTask := ⟨item, .listed, .empty⟩

def ReceiveTask.hear (firstMsg : DashMessage) (task : ReceiveTask) : ReceiveTask :=
  { task with stream := task.stream.send firstMsg }

def ReceiveTask.unhook (task : ReceiveTask) : ReceiveTask :=
  { task with stream := task.stream.dropSender }

/-- `handed` lists, for the statements, the streams the dispatcher has read a first message from,
each with the task that was given it. -/
structure ReceiveSide where
  saveRoot : PathBuf
  permits : ℕ
  tasks : List ReceiveTask
  registered : ℕ
  seenPaths : List PathBuf
  streamRoutes : Owners
  dispatching : Bool
  cancelledByPeer : Bool
  handed : List (DashMessage × Option ℕ)

def ReceiveSide.start (saveRoot : PathBuf) (configured : ℕ) (items : List FileItem) :
    ReceiveSide where
  saveRoot := saveRoot
  permits := maxStreams configured
  tasks := items.map ReceiveTask.new
  registered := 0
  seenPaths := []
  streamRoutes := ∅
  dispatching := true
  cancelledByPeer := false
  handed := []

def ReceiveSide.put (s : ReceiveSide) (i : ℕ) (task : ReceiveTask) : ReceiveSide :=
  { s with tasks := s.tasks.set i task }

/-- The route under an id is about to be replaced: its channel loses the sending end. -/
def ReceiveSide.dropRoute (s : ReceiveSide) (fileId : ℕ) : ReceiveSide :=
  { s with
    tasks := adjust (fun i => s.streamRoutes.lookup fileId = some i) ReceiveTask.unhook s.tasks }

def ReceiveSide.insertRoute (s : ReceiveSide) (i : ℕ) (task : ReceiveTask) : ReceiveSide :=
  let s' := s.dropRoute task.item.fileId
  { s' with
    tasks := s'.tasks.set i { task with phase := .queued, stream := .empty }
    streamRoutes := s'.streamRoutes.insert task.item.fileId i }

def ReceiveSide.registerItem (s : ReceiveSide) (task : ReceiveTask) : ReceiveSide :=
  let i := s.registered
  match validateRelPath task.item.relPath.toList s.saveRoot with
  | .error _ => { s.put i { task with phase := .refused .invalidPath } with registered := i + 1 }
  | .ok finalPath =>
      if finalPath ∈ s.seenPaths then
        { s.put i { task with phase := .refused .pathConflict } with registered := i + 1 }
      else
        { s.insertRoute i task with
          seenPaths := finalPath :: s.seenPaths
          registered := i + 1 }

inductive ReceiveMove where
  | acquire
  /-- The wait for the stream ends; `timer` says that its 60 s have passed. -/
  | take (timer : Bool)
  /-- `receive_one_file` ends. -/
  | finish (fileEnd : FileEnd)
  | answer
  deriving DecidableEq

def ReceiveSide.endTask (s : ReceiveSide) (i : ℕ) (task : ReceiveTask) (result : TaskResult) :
    ReceiveSide :=
  { s.put i { task with phase := .ended result } with permits := s.permits + 1 }

/-- No stream will come: a cancelled task returns at once, any other answers first. -/
def ReceiveSide.giveUp (s : ReceiveSide) (i : ℕ) (task : ReceiveTask) (text : String) :
    ReceiveSide :=
  if s.cancelledByPeer then s.endTask i task (.returned ⟨task.item.fileId, false, some .cancelled⟩)
  else s.put i { task with phase := .answering ⟨task.item.fileId, false, some (.protocol text)⟩ }

def ReceiveSide.take (s : ReceiveSide) (i : ℕ) (task : ReceiveTask) (timer : Bool) :
    Option ReceiveSide :=
  (task.stream.wait timer).map fun (stream, heard) =>
    let task' := { task with stream := stream }
    match heard with
    | .value _ => s.put i { task' with phase := .receiving }
    | .senderGone => s.giveUp i task' "stream route closed"
    | .timedOut => s.giveUp i task' "stream route timeout"

/-- An error of `receive_one_file` becomes a negative answer; a panic leaves none. -/
def ReceiveSide.finish (s : ReceiveSide) (i : ℕ) (task : ReceiveTask) (fileEnd : FileEnd) :
    ReceiveSide :=
  match fileEnd.received task.item with
  | .returned result => s.put i { task with phase := .answering result }
  | result => s.endTask i task result

def refusal (item : FileItem) (reason : ErrorCode) : AckResult := ⟨item.fileId, false, some reason⟩

def ackMessage (result : AckResult) : AckPayload := ⟨result.fileId, result.ok, result.reason⟩

/-- `send_ack`, then the end of the task. -/
def ReceiveSide.answer (s : ReceiveSide) (i : ℕ) (task : ReceiveTask) :
    Option (ReceiveSide × List AckPayload) :=
  match task.phase with
  | .refused reason =>
      let result := refusal task.item reason
      some (s.put i { task with phase := .ended (.returned result) }, [ackMessage result])
  | .answering result => some (s.endTask i task (.returned result), [ackMessage result])
  | _ => none

/-- One step of task `i`, with the Acks it sends. -/
def ReceiveSide.advance (s : ReceiveSide) (i : ℕ) (task : ReceiveTask) :
    ReceiveMove → Option (ReceiveSide × List AckPayload)
  | .acquire =>
      if task.phase = .queued ∧ 0 < s.permits then
        some ({ s.put i { task with phase := .waiting } with permits := s.permits - 1 }, [])
      else none
  | .take timer =>
      if task.phase = .waiting then (s.take i task timer).map fun s' => (s', []) else none
  | .finish fileEnd =>
      if task.phase = .receiving then some (s.finish i task fileEnd, []) else none
  | .answer => s.answer i task

/-- Hand the stream to the task that waits under its file id; without one, or when the task has
stopped waiting, the stream is dropped. -/
def ReceiveSide.route (s : ReceiveSide) (firstMsg : DashMessage) (fileId : ℕ) : ReceiveSide :=
  match s.streamRoutes.lookup fileId with
  | some i =>
      { s with
        tasks := adjust (fun j => j = i) (ReceiveTask.hear firstMsg) s.tasks
        streamRoutes := s.streamRoutes.erase fileId
        handed := s.handed ++
          [(firstMsg, if (s.tasks[i]?.map ReceiveTask.stream) = some .empty then some i else none)] }
  | none => { s with handed := s.handed ++ [(firstMsg, none)] }

def ReceiveSide.dispatch (s : ReceiveSide) : Except ReadFault DashMessage → ReceiveSide
  | .error _ => s
  | .ok (.cancel _) =>
      { s with
        tasks := adjust s.streamRoutes.has ReceiveTask.unhook s.tasks
        streamRoutes := ∅
        dispatching := false
        cancelledByPeer := true }
  | .ok firstMsg =>
      match routedFileId firstMsg with
      | some fileId => s.route firstMsg fileId
      | none => s

inductive ReceiveLabel where
  /-- The registration loop takes its next item. -/
  | register
  | task (i : ℕ) (move : ReceiveMove)
  /-- The dispatcher accepts a stream and reads its first message. -/
  | stream (first : Except ReadFault DashMessage)
  /-- All handles are joined and the dispatcher is aborted. -/
  | join
  deriving DecidableEq

def ReceiveSide.step (s : ReceiveSide) : ReceiveLabel → Option (ReceiveSide × List AckPayload)
  | .register => s.tasks[s.registered]?.map fun task => (s.registerItem task, [])
  | .task i move => s.tasks[i]?.bind fun task => s.advance i task move
  | .stream first => if s.dispatching then some (s.dispatch first, []) else none
  | .join =>
      if s.tasks.all fun task => task.phase.hasEnded then
        some ({ s with dispatching := false }, [])
      else none

/-- The steps of a receive task, with the Acks they send. `cancelled` is the flag that the
dispatcher sets. -/
inductive Advances (cancelled : Bool) (task : ReceiveTask) :
    ReceiveMove → ReceiveTask → List AckPayload → Prop where
  | acquire (hphase : task.phase = .queued) :
      Advances cancelled task .acquire { task with phase := .waiting } []
  | take {timer : Bool} {stream : Channel DashMessage} {firstMsg : DashMessage}
      (hphase : task.phase = .waiting)
      (hwait : task.stream.wait timer = some (stream, .value firstMsg)) :
      Advances cancelled task (.take timer) ⟨task.item, .receiving, stream⟩ []
  | stop {timer : Bool} {stream : Channel DashMessage} {heard : Wait DashMessage}
      (hphase : task.phase = .waiting) (hwait : task.stream.wait timer = some (stream, heard))
      (hnone : ∀ m, heard ≠ .value m) (hcancelled : cancelled = true) :
      Advances cancelled task (.take timer)
        ⟨task.item, .ended (.returned (refusal task.item .cancelled)), stream⟩ []
  | giveUp {timer : Bool} {stream : Channel DashMessage} {heard : Wait DashMessage} {text : String}
      (hphase : task.phase = .waiting) (hwait : task.stream.wait timer = some (stream, heard))
      (hnone : ∀ m, heard ≠ .value m) (hcancelled : cancelled = false) :
      Advances cancelled task (.take timer)
        ⟨task.item, .answering (refusal task.item (.protocol text)), stream⟩ []
  | finish {fileEnd : FileEnd} {result : AckResult} (hphase : task.phase = .receiving)
      (hresult : fileEnd.received task.item = .returned result) :
      Advances cancelled task (.finish fileEnd) { task with phase := .answering result } []
  | crash {fileEnd : FileEnd} {result : TaskResult} (hphase : task.phase = .receiving)
      (hresult : fileEnd.received task.item = result) (hnone : result.ack? = none) :
      Advances cancelled task (.finish fileEnd) { task with phase := .ended result } []
  | refuse {reason : ErrorCode} (hphase : task.phase = .refused reason) :
      Advances cancelled task .answer
        { task with phase := .ended (.returned (refusal task.item reason)) }
        [ackMessage (refusal task.item reason)]
  | answer {result : AckResult} (hphase : task.phase = .answering result) :
      Advances cancelled task .answer { task with phase := .ended (.returned result) }
        [ackMessage result]

section Cases

variable {s s' : ReceiveSide} {i : ℕ} {task : ReceiveTask} {move : ReceiveMove}
  {acks : List AckPayload}

private theorem giveUp_cases {timer : Bool} {stream : Channel DashMessage}
    {heard : Wait DashMessage} (text : String) (hphase : task.phase = .waiting)
    (hwait : task.stream.wait timer = some (stream, heard)) (hnone : ∀ m, heard ≠ .value m) :
    ∃ task' permits, Advances s.cancelledByPeer task (.take timer) task' [] ∧
      s.giveUp i { task with stream := stream } text =
        { s with tasks := s.tasks.set i task', permits := permits } := by
  unfold ReceiveSide.giveUp
  split_ifs with hcancelled
  · exact ⟨_, _, .stop hphase hwait hnone hcancelled, rfl⟩
  · exact ⟨_, s.permits, .giveUp hphase hwait hnone (by simpa using hcancelled), rfl⟩

theorem advance_cases (h : s.advance i task move = some (s', acks)) :
    ∃ task' permits, Advances s.cancelledByPeer task move task' acks ∧
      s' = { s with tasks := s.tasks.set i task', permits := permits } := by
  cases move with
  | acquire =>
    simp only [ReceiveSide.advance] at h
    split_ifs at h with hready
    cases h
    exact ⟨_, _, .acquire hready.1, rfl⟩
  | take timer =>
    simp only [ReceiveSide.advance] at h
    split_ifs at h with hphase
    simp only [ReceiveSide.take, Option.map_map, Option.map_eq_some_iff] at h
    obtain ⟨⟨stream, heard⟩, hwait, hresult⟩ := h
    cases heard with
    | value firstMsg =>
      cases hresult
      exact ⟨_, s.permits, .take hphase hwait, rfl⟩
    | senderGone =>
      cases hresult
      exact giveUp_cases "stream route closed" hphase hwait (fun _ hm => by cases hm)
    | timedOut =>
      cases hresult
      exact giveUp_cases "stream route timeout" hphase hwait (fun _ hm => by cases hm)
  | finish fileEnd =>
    simp only [ReceiveSide.advance] at h
    split_ifs at h with hphase
    simp only [ReceiveSide.finish, Option.some.injEq, Prod.mk.injEq] at h
    obtain ⟨rfl, rfl⟩ := h
    cases hresult : fileEnd.received task.item with
    | returned result => exact ⟨_, s.permits, .finish hphase hresult, rfl⟩
    | errored text => exact ⟨_, _, .crash hphase hresult rfl, rfl⟩
    | panicked => exact ⟨_, _, .crash hphase hresult rfl, rfl⟩
  | answer =>
    simp only [ReceiveSide.advance, ReceiveSide.answer] at h
    split at h
    · rename_i reason hphase
      cases h
      exact ⟨_, s.permits, .refuse hphase, rfl⟩
    · rename_i result hphase
      cases h
      exact ⟨_, _, .answer hphase, rfl⟩
    · cases h

theorem Advances.item {cancelled : Bool} {task' : ReceiveTask}
    (h : Advances cancelled task move task' acks) : task'.item = task.item := by
  cases h <;> rfl

theorem Advances.stream {cancelled : Bool} {task' : ReceiveTask}
    (h : Advances cancelled task move task' acks) :
    task'.stream = task.stream ∨
      ∃ timer heard, move = .take timer ∧ task.stream.wait timer = some (task'.stream, heard) := by
  cases h with
  | take hphase hwait => exact .inr ⟨_, _, rfl, hwait⟩
  | stop hphase hwait => exact .inr ⟨_, _, rfl, hwait⟩
  | giveUp hphase hwait => exact .inr ⟨_, _, rfl, hwait⟩
  | _ => exact .inl rfl

theorem phases_dispatch (s : ReceiveSide) (first : Except ReadFault DashMessage) :
    (s.dispatch first).tasks.map ReceiveTask.phase = s.tasks.map ReceiveTask.phase := by
  have hkeep (here : ℕ → Bool) (f : ReceiveTask → ReceiveTask) (h : ∀ t, (f t).phase = t.phase) :
      (adjust here f s.tasks).map ReceiveTask.phase = s.tasks.map ReceiveTask.phase :=
    map_adjust h here s.tasks
  unfold ReceiveSide.dispatch
  split
  · rfl
  · exact hkeep _ ReceiveTask.unhook fun _ => rfl
  · split
    · unfold ReceiveSide.route
      split
      · exact hkeep _ (ReceiveTask.hear _) fun _ => rfl
      · rfl
    · rfl

theorem phases_registerItem (s : ReceiveSide) (task : ReceiveTask) :
    ∃ phase, phase.holds = false ∧ (s.registerItem task).tasks.map ReceiveTask.phase =
      (s.tasks.map ReceiveTask.phase).set s.registered phase := by
  simp only [ReceiveSide.registerItem]
  split
  · exact ⟨.refused .invalidPath, rfl, List.map_set⟩
  · split_ifs
    · exact ⟨.refused .pathConflict, rfl, List.map_set⟩
    · refine ⟨.queued, rfl, ?_⟩
      have hkeep : (s.dropRoute task.item.fileId).tasks.map ReceiveTask.phase =
          s.tasks.map ReceiveTask.phase :=
        map_adjust (f := ReceiveTask.unhook) (fun _ => rfl) _ s.tasks
      rw [← hkeep]
      exact List.map_set

end Cases

end DashDrop.Exchange.Receivers
