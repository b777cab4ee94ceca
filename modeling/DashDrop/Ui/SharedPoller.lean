/- GID: DashDrop/Ui/SharedPoller
   source: src/ipc.ts
   anchors: []
   digest: The shared poller of the UI, split at its awaits, and a daemon that answers it. -/

import DashDrop.Events.Feed
import DashDrop.Foundation.Transitions

set_option autoImplicit false
set_option relaxedAutoImplicit false

namespace DashDrop.Ui.SharedPoller

open DashDrop.Events.Journal DashDrop.Events.Feed

variable {Value : Type}

def sharedDaemonEventCheckpointHeartbeatMs : ℕ := 30000

structure PersistedDaemonEventCursor where
  afterSeq : ℕ
  generation : Option String
  deriving DecidableEq

structure StoredCheckpoint where
  generation : String
  seq : ℕ
  deriving DecidableEq

/-- What a subscriber is called with: an event of the daemon or a notice of the poller. -/
inductive Emitted (Value : Type) where
  | event (generation : String) (envelope : RuntimeEventEnvelope Value)
  | recovered
  | unavailable
  | resync (feed : RuntimeEventFeedSnapshot Value) (reason : String)
  deriving DecidableEq

inductive AfterSave (Value : Type) where
  | resync (feed : RuntimeEventFeedSnapshot Value) (reason : String)
  | nothing
  deriving DecidableEq

/-- Where a call of `ensureSharedDaemonRuntimeEventLoop` is suspended. A call of another async
function is over one turn before its caller goes on. -/
inductive Point (Value : Type) where
  | awaitCheckpoint (localCursor : PersistedDaemonEventCursor)
  | loaded
  | awaitEvents (asked : ℕ)
  | answered (feed : RuntimeEventFeedSnapshot Value)
  | saving (now : ℕ) (after : AfterSave Value)
  | saved (after : AfterSave Value)
  | sleeping
  | done
  deriving DecidableEq

/-- The generation and the latest number of the daemon, and its earlier generations. -/
structure Daemon where
  generation : String
  latest : ℕ
  past : List String
  deriving DecidableEq

/-- The variables of the module, the local storage, the calls in flight, every call of a
subscriber so far, and the daemon. -/
structure Page (Value : Type) where
  subscribers : List ℕ
  afterSeq : ℕ
  loopRunning : Bool
  loopStopRequested : Bool
  failureCount : ℕ
  unavailableNotified : Bool
  generation : Option String
  checkpointPersistedAfterSeq : Option ℕ
  checkpointPersistedGeneration : Option (Option String)
  checkpointPersistedAtUnixMs : ℕ
  storage : PersistedDaemonEventCursor
  calls : List (Point Value)
  delivered : List (ℕ × Emitted Value)
  daemon : Daemon
  deriving DecidableEq

namespace Page

def start (storage : PersistedDaemonEventCursor) (daemon : Daemon) : Page Value :=
  ⟨[], 0, false, false, 0, false, none, none, none, 0, storage, [], [], daemon⟩

def persistDaemonEventCursor (page : Page Value) : Page Value :=
  { page with storage := ⟨page.afterSeq, page.generation⟩ }

def emitSharedDaemonRuntimeEvent (emitted : Emitted Value) (page : Page Value) : Page Value :=
  { page with delivered := page.delivered ++ page.subscribers.map fun callback => (callback, emitted) }

def setCall (i : ℕ) (point : Point Value) (page : Page Value) : Page Value :=
  { page with calls := page.calls.set i point }

def loadSharedDaemonEventCursor (page : Page Value) : Point Value :=
  if page.afterSeq > 0 ∨ page.generation ≠ none then .loaded else .awaitCheckpoint page.storage

/-- After the await; `none` for no checkpoint and for a failed call. -/
def loadCheckpoint (localCursor : PersistedDaemonEventCursor) (reply : Option StoredCheckpoint)
    (page : Page Value) : Page Value :=
  let (afterSeq, generation) := match reply with
    | some checkpoint =>
        if localCursor.generation = some checkpoint.generation then
          (max localCursor.afterSeq checkpoint.seq, some checkpoint.generation)
        else (checkpoint.seq, some checkpoint.generation)
    | none => (localCursor.afterSeq, localCursor.generation)
  persistDaemonEventCursor { page with
    afterSeq := afterSeq
    generation := generation
    checkpointPersistedAfterSeq := some afterSeq
    checkpointPersistedGeneration := some generation
    checkpointPersistedAtUnixMs := 0 }

/-- Up to its await, or to its end where the checkpoint is not due. -/
def persistSharedDaemonEventCheckpoint (now : ℕ) (after : AfterSave Value) (page : Page Value) :
    Page Value × Point Value :=
  let page := page.persistDaemonEventCursor
  let heartbeatDue := page.checkpointPersistedAtUnixMs = 0 ∨
    now - page.checkpointPersistedAtUnixMs ≥ sharedDaemonEventCheckpointHeartbeatMs
  if page.generation = none ∨ (page.checkpointPersistedAfterSeq = some page.afterSeq ∧
      page.checkpointPersistedGeneration = some page.generation ∧ ¬ heartbeatDue) then
    (page, .saved after)
  else (page, .saving now after)

def checkpointSaved (now : ℕ) (ok : Bool) (page : Page Value) : Page Value :=
  if ok then { page with
    checkpointPersistedAfterSeq := some page.afterSeq
    checkpointPersistedGeneration := some page.generation
    checkpointPersistedAtUnixMs := now }
  else page

/-- The `finally` block. -/
def leaveLoop (i : ℕ) (page : Page Value) : Page Value :=
  { page with
    loopRunning := false
    loopStopRequested := false
    failureCount := 0
    unavailableNotified := false
    checkpointPersistedAfterSeq := none
    checkpointPersistedGeneration := none
    checkpointPersistedAtUnixMs := 0
    calls := page.calls.set i .done }

def loopHead (i : ℕ) (page : Page Value) : Page Value :=
  if page.loopStopRequested then page.leaveLoop i else page.setCall i (.awaitEvents page.afterSeq)

def loopTail (i : ℕ) (page : Page Value) : Page Value :=
  if page.loopStopRequested ∨ page.subscribers.isEmpty then page.leaveLoop i
  else page.setCall i .sleeping

/-- An answer is noted, and the subscribers learn that the daemon is back. -/
def noteAnswer (feed : RuntimeEventFeedSnapshot Value) (page : Page Value) : Page Value :=
  let noted := { page with
    failureCount := 0
    unavailableNotified := false
    generation := some feed.generation }
  if page.unavailableNotified then noted.emitSharedDaemonRuntimeEvent .recovered else noted

/-- The cursor goes to the end, and the notice waits for the checkpoint. -/
def skipToLatest (i now : ℕ) (feed : RuntimeEventFeedSnapshot Value) (reason : String)
    (page : Page Value) : Page Value :=
  let (page, point) := persistSharedDaemonEventCheckpoint now (.resync feed reason)
    { page with afterSeq := feed.latestAvailableSeq }
  page.setCall i point

def passOn (i now : ℕ) (feed : RuntimeEventFeedSnapshot Value) (page : Page Value) : Page Value :=
  let page := feed.events.foldl (fun page event =>
    emitSharedDaemonRuntimeEvent (.event feed.generation event)
      { page with afterSeq := max page.afterSeq event.seq }) page
  let (page, point) := persistSharedDaemonEventCheckpoint now .nothing page
  page.setCall i point

def takeFeed (i now : ℕ) (feed : RuntimeEventFeedSnapshot Value) (page : Page Value) : Page Value :=
  let generationChanged := page.generation ≠ none ∧ page.generation ≠ some feed.generation
  if feed.resyncRequired ∨ generationChanged then
    (page.noteAnswer feed).skipToLatest i now feed
      (if generationChanged then "generation_changed" else "cursor_invalid")
  else (page.noteAnswer feed).passOn i now feed

def afterSave (i : ℕ) (after : AfterSave Value) (page : Page Value) : Page Value :=
  match after with
  | .resync feed reason => (page.emitSharedDaemonRuntimeEvent (.resync feed reason)).loopTail i
  | .nothing => page.loopTail i

/-- The `catch` block and the end of the turn. -/
def feedFailed (i : ℕ) (page : Page Value) : Page Value :=
  if page.loopStopRequested then page.loopTail i
  else
    let page := { page with failureCount := page.failureCount + 1 }
    if ¬ page.unavailableNotified ∧ page.failureCount ≥ 3 then
      (emitSharedDaemonRuntimeEvent .unavailable { page with unavailableNotified := true }).loopTail i
    else page.loopTail i

/-- `ensureSharedDaemonRuntimeEventLoop` up to its first await. -/
def ensureSharedDaemonRuntimeEventLoop (page : Page Value) : Page Value :=
  if page.loopRunning then
    if page.subscribers.isEmpty then page else { page with loopStopRequested := false }
  else { page with calls := page.calls ++ [page.loadSharedDaemonEventCursor] }

def subscribeDaemonRuntimeEvents (callback : ℕ) (page : Page Value) : Page Value :=
  let page := { page with
    subscribers := if callback ∈ page.subscribers then page.subscribers
      else page.subscribers ++ [callback] }
  let page := if page.loopRunning then { page with loopStopRequested := false } else page
  page.ensureSharedDaemonRuntimeEventLoop

def unsubscribe (callback : ℕ) (page : Page Value) : Page Value :=
  let subscribers := page.subscribers.filter (· ≠ callback)
  { page with
    subscribers := subscribers
    loopStopRequested := if subscribers.isEmpty then true else page.loopStopRequested }

end Page

/-- What `get_runtime_events` answers from a cursor: later events in ascending order up to the
latest, and none with a resync. -/
def Honest (daemon : Daemon) (asked : ℕ) (feed : RuntimeEventFeedSnapshot Value) : Prop :=
  feed.generation = daemon.generation ∧ feed.latestAvailableSeq = daemon.latest ∧
    (feed.events.map RuntimeEventEnvelope.seq).Pairwise (· < ·) ∧
    (∀ event ∈ feed.events, asked < event.seq ∧ event.seq ≤ daemon.latest) ∧
    (feed.resyncRequired = true → feed.events = [])

instance (daemon : Daemon) (asked : ℕ) (feed : RuntimeEventFeedSnapshot Value) :
    Decidable (Honest daemon asked feed) :=
  inferInstanceAs (Decidable (_ ∧ _ ∧ _ ∧ _ ∧ _))

inductive PageStep (Value : Type) where
  | subscribe (callback : ℕ)
  | unsubscribe (callback : ℕ)
  /-- The call `get_runtime_event_checkpoint` settles. -/
  | checkpoint (i : ℕ) (reply : Option StoredCheckpoint)
  /-- The load is over and the loop is entered. -/
  | enter (i : ℕ)
  /-- The daemon answers. -/
  | answer (i : ℕ) (feed : RuntimeEventFeedSnapshot Value)
  /-- The answer arrives. -/
  | arrive (i now : ℕ)
  | fail (i : ℕ)
  /-- The call `set_runtime_event_checkpoint` settles. -/
  | save (i : ℕ) (ok : Bool)
  | saved (i : ℕ)
  | wake (i : ℕ)
  /-- Something happens in the daemon. -/
  | daemon (daemon : Daemon)

def pageStep (page : Page Value) : PageStep Value → Option (Page Value)
  | .subscribe callback => some (page.subscribeDaemonRuntimeEvents callback)
  | .unsubscribe callback => some (page.unsubscribe callback)
  | .checkpoint i reply =>
      match page.calls[i]? with
      | some (.awaitCheckpoint localCursor) =>
          some ((page.loadCheckpoint localCursor reply).setCall i .loaded)
      | _ => none
  | .enter i =>
      match page.calls[i]? with
      | some .loaded =>
          some (({ page with loopRunning := true, loopStopRequested := false } : Page Value).loopHead i)
      | _ => none
  | .answer i feed =>
      match page.calls[i]? with
      | some (.awaitEvents asked) =>
          if Honest page.daemon asked feed then some (page.setCall i (.answered feed)) else none
      | _ => none
  | .arrive i now =>
      match page.calls[i]? with
      | some (.answered feed) => some (page.takeFeed i now feed)
      | _ => none
  | .fail i =>
      match page.calls[i]? with
      | some (.awaitEvents _) | some (.answered _) => some (page.feedFailed i)
      | _ => none
  | .save i ok =>
      match page.calls[i]? with
      | some (.saving now after) => some ((page.checkpointSaved now ok).setCall i (.saved after))
      | _ => none
  | .saved i =>
      match page.calls[i]? with
      | some (.saved after) => some (page.afterSave i after)
      | _ => none
  | .wake i =>
      match page.calls[i]? with
      | some .sleeping => some (page.loopHead i)
      | _ => none
  | .daemon daemon => some { page with daemon := daemon }

end DashDrop.Ui.SharedPoller
