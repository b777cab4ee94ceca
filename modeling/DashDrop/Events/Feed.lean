/- GID: DashDrop/Events/Feed
   source: src-tauri/src/state.rs
   anchors: []
   digest: The runtime event state of a process: recording, replaying, checkpoints, restart. -/

import DashDrop.Events.Journal
import DashDrop.Foundation.Numbering
import DashDrop.Foundation.Text

set_option autoImplicit false
set_option relaxedAutoImplicit false

namespace DashDrop.Events.Feed

open DashDrop.Foundation.Tables DashDrop.Foundation.Numbering DashDrop.Foundation.Text
open DashDrop.Events.Journal

def runtimeEventFeedCapacity : ℕ := 1024
def runtimeEventPersistedJournalCapacity : ℕ := 10000
def runtimeEventPersistedJournalMaxCapacity : ℕ := 100000
def runtimeEventCheckpointActiveThresholdMs : ℕ := 5 * 60 * 1000
def runtimeEventCheckpointStaleThresholdMs : ℕ := 60 * 60 * 1000
def runtimeEventCheckpointTtlMs : ℕ := 7 * 24 * 60 * 60 * 1000

/-- The fields of the application state that belong to the runtime events: the generation, the
counter of the sequence numbers, the oldest number known to be in the journal (0 for none) and
the feed in memory. -/
structure EventState (Value : Type) where
  runtimeEventGeneration : String
  runtimeEventSeq : ℕ
  runtimeEventPersistedOldestSeq : ℕ
  runtimeEventFeed : List (RuntimeEventEnvelope Value)
  deriving DecidableEq

variable {Value : Type}

def EventState.load (db : EventDb Value) : EventState Value :=
  let (generation, oldestSeq, lastSeq, events) :=
    loadRuntimeEventState db runtimeEventFeedCapacity
  ⟨generation, lastSeq, oldestSeq.getD 0, events⟩

/-- The state after a failed load; `generation` is the drawn UUID. -/
def EventState.unloaded (generation : String) : EventState Value := ⟨generation, 0, 0, []⟩

namespace EventState

variable (app : EventState Value)

def memoryOldestSeq : Option ℕ := app.runtimeEventFeed.head?.map RuntimeEventEnvelope.seq

def persistedOldestSeq (stored : ℕ) : Option ℕ := if stored = 0 then none else some stored

def checkpointTransition (previous : Option RuntimeEventCheckpoint) (generation : String)
    (seq : ℕ) : CheckpointTransition :=
  match previous with
  | none => .created
  | some previous =>
      if previous.generation ≠ generation then .generationReset
      else if previous.seq = seq then .heartbeat
      else if previous.seq < seq then .advanced
      else .rewound

/-- `runtime_event_checkpoint_recovery_hint`. -/
def recoveryHint (generation : String) (seq latestSeq : ℕ)
    (memoryOldest persistedOldest : Option ℕ) : RecoveryHint :=
  if generation ≠ app.runtimeEventGeneration then .resyncRequired
  else if latestSeq = 0 ∨ seq ≥ latestSeq then .upToDate
  else if (memoryOldest.map fun oldest => decide (seq ≥ oldest - 1)).getD true then .hotWindow
  else if (persistedOldest.map fun oldest => decide (seq ≥ oldest - 1)).getD true then
    .persistedCatchUp
  else .resyncRequired

/-- `enrich_runtime_event_checkpoint`; the journal statistics are the columns of the meta
row. -/
def enrichCheckpoint (db : EventDb Value) (readAt : Option ℕ)
    (checkpoint : RuntimeEventCheckpoint) : RuntimeEventCheckpoint :=
  let persistedOldest := persistedOldestSeq app.runtimeEventPersistedOldestSeq
  { checkpoint with
    createdAtUnixMs := checkpoint.createdAtUnixMs <|> some checkpoint.updatedAtUnixMs
    lastReadAtUnixMs := readAt <|> checkpoint.lastReadAtUnixMs
    leaseExpiresAtUnixMs :=
      some (checkpoint.updatedAtUnixMs + runtimeEventCheckpointActiveThresholdMs)
    revision := some (max (checkpoint.revision.getD 1) 1)
    lastTransition := checkpoint.lastTransition <|> some .created
    recoveryHint := some (app.recoveryHint checkpoint.generation checkpoint.seq
      app.runtimeEventSeq app.memoryOldestSeq persistedOldest)
    currentOldestAvailableSeq := persistedOldest <|> app.memoryOldestSeq
    currentLatestAvailableSeq := some app.runtimeEventSeq
    currentCompactionWatermarkSeq := some db.metaRow.compactionWatermarkSeq
    currentCompactionWatermarkSegmentId := some db.metaRow.compactionWatermarkSegmentId }

/-- One turn of the loop of `refresh_runtime_event_checkpoints_locked`. -/
def refreshOne (readAt : Option ℕ) (db : EventDb Value) (checkpoint : RuntimeEventCheckpoint) :
    EventDb Value :=
  let enriched := app.enrichCheckpoint db readAt checkpoint
  if enriched ≠ checkpoint then saveRuntimeEventCheckpoint enriched db else db

/-- `refresh_runtime_event_checkpoints_locked`. -/
def refreshCheckpoints (readAt : Option ℕ) (db : EventDb Value) : EventDb Value :=
  let db := ensureRuntimeEventTables db
  db.checkpoints.rows.foldl (app.refreshOne readAt) db

/-- `prune_runtime_event_checkpoints_locked`. -/
def pruneCheckpoints (now : ℕ) (db : EventDb Value) : EventDb Value :=
  pruneRuntimeEventCheckpoints (now - runtimeEventCheckpointTtlMs) db

/-- `save_runtime_event_checkpoint`. -/
def saveCheckpoint (consumerId generation : String) (seq now : ℕ) (db : EventDb Value) :
    Except String RuntimeEventCheckpoint × EventDb Value :=
  let consumerId := trimmed consumerId
  if consumerId = "" then
    (.error "runtime event checkpoint consumer_id is required", db)
  else
    let generation := trimmed generation
    if generation = "" then
      (.error "runtime event checkpoint generation is required", db)
    else
      let db := ensureRuntimeEventTables db
      let previous := db.checkpoints.find? consumerId
      let checkpointSeq := min seq app.runtimeEventSeq
      let checkpoint := app.enrichCheckpoint db none
        { consumerId := consumerId
          generation := generation
          seq := checkpointSeq
          updatedAtUnixMs := now
          createdAtUnixMs := (previous.bind (·.createdAtUnixMs)) <|> some now
          lastReadAtUnixMs := previous.bind (·.lastReadAtUnixMs)
          leaseExpiresAtUnixMs := some (now + runtimeEventCheckpointActiveThresholdMs)
          revision := some ((previous.bind (·.revision)).getD 0 + 1)
          lastTransition := some (checkpointTransition previous generation checkpointSeq)
          recoveryHint := none
          currentOldestAvailableSeq := none
          currentLatestAvailableSeq := none
          currentCompactionWatermarkSeq := none
          currentCompactionWatermarkSegmentId := none }
      (.ok checkpoint, pruneCheckpoints now (saveRuntimeEventCheckpoint checkpoint db))

/-- `runtime_event_checkpoint`. -/
def getCheckpoint (consumerId : String) (now : ℕ) (db : EventDb Value) :
    Except String (Option RuntimeEventCheckpoint) × EventDb Value :=
  let consumerId := trimmed consumerId
  if consumerId = "" then
    (.error "runtime event checkpoint consumer_id is required", db)
  else
    let db := ensureRuntimeEventTables db
    match db.checkpoints.find? consumerId with
    | none => (.ok none, db)
    | some checkpoint =>
        if checkpoint.updatedAtUnixMs + runtimeEventCheckpointTtlMs ≤ now then
          (.ok none, deleteRuntimeEventCheckpoint consumerId db)
        else
          (.ok (some (app.enrichCheckpoint db (some now) checkpoint)),
            app.refreshOne (some now) db checkpoint)

/-- `runtime_event_checkpoints`, for the diagnostics. -/
def listCheckpoints (now : ℕ) (db : EventDb Value) : EventDb Value :=
  app.refreshCheckpoints none (pruneCheckpoints now db)

section Keeps

variable {app} {I : EventDb Value → Prop} {db : EventDb Value}
  (hkept : ∀ db checkpoints, I db → I { ensureRuntimeEventTables db with checkpoints := checkpoints })

include hkept

theorem keeps_refreshOne (h : I db) (readAt : Option ℕ) (checkpoint : RuntimeEventCheckpoint) :
    I (app.refreshOne readAt db checkpoint) := by
  simp only [refreshOne]
  split_ifs
  · exact hkept db _ h
  · exact h

theorem keeps_refreshCheckpoints (h : I db) (readAt : Option ℕ) :
    I (app.refreshCheckpoints readAt db) := by
  simp only [refreshCheckpoints]
  generalize (ensureRuntimeEventTables db).checkpoints.rows = rows
  have hready : I (ensureRuntimeEventTables db) := hkept db _ h
  generalize ensureRuntimeEventTables db = ready at hready
  induction rows generalizing ready with
  | nil => exact hready
  | cons row rest ih => exact ih _ (keeps_refreshOne hkept hready readAt row)

theorem keeps_saveCheckpoint (h : I db) (consumerId generation : String) (seq now : ℕ) :
    I (app.saveCheckpoint consumerId generation seq now db).2 := by
  simp only [saveCheckpoint]
  split_ifs
  · exact h
  · exact h
  · exact hkept _ _ (hkept _ _ (hkept db _ h))

theorem keeps_getCheckpoint (h : I db) (consumerId : String) (now : ℕ) :
    I (app.getCheckpoint consumerId now db).2 := by
  have hready : I (ensureRuntimeEventTables db) := hkept db _ h
  simp only [getCheckpoint]
  split_ifs
  · exact h
  · split
    · exact hready
    · split_ifs
      · exact hkept _ _ hready
      · exact keeps_refreshOne hkept hready _ _

theorem keeps_listCheckpoints (h : I db) (now : ℕ) : I (app.listCheckpoints now db) :=
  keeps_refreshCheckpoints hkept (hkept db _ h) none

end Keeps

/-- The counter is advanced and the envelope is built before any lock is taken. -/
def draw (event : String) (payload : Value) (now : ℕ) :
    EventState Value × RuntimeEventEnvelope Value :=
  let envelope := ⟨app.runtimeEventSeq + 1, event, payload, now⟩
  ({ app with runtimeEventSeq := app.runtimeEventSeq + 1 }, envelope)

def push (envelope : RuntimeEventEnvelope Value) : EventState Value :=
  let feed := if app.runtimeEventFeed.length ≥ runtimeEventFeedCapacity
    then app.runtimeEventFeed.tail else app.runtimeEventFeed
  { app with runtimeEventFeed := feed ++ [envelope] }

variable {app} in
theorem mem_push {envelope event : RuntimeEventEnvelope Value}
    (h : event ∈ (app.push envelope).runtimeEventFeed) :
    event ∈ app.runtimeEventFeed ∨ event = envelope := by
  rcases List.mem_append.mp h with hold | hnew
  · refine .inl ?_
    split_ifs at hold
    · exact List.mem_of_mem_tail hold
    · exact hold
  · exact .inr (List.mem_singleton.mp hnew)

def retention (now : ℕ) : Retention :=
  ⟨runtimeEventPersistedJournalCapacity, runtimeEventPersistedJournalMaxCapacity,
    now - runtimeEventCheckpointStaleThresholdMs⟩

def persist (envelope : RuntimeEventEnvelope Value) (now : ℕ) (db : EventDb Value) :
    EventState Value × EventDb Value :=
  let previous := app.runtimeEventPersistedOldestSeq
  let (db, oldest) := appendRuntimeEvent app.runtimeEventGeneration envelope (retention now)
    (pruneCheckpoints now db)
  let next := oldest.getD 0
  let app := { app with runtimeEventPersistedOldestSeq := next }
  (app, if next ≠ previous then app.refreshCheckpoints none db else db)

theorem persist_eq {envelope : RuntimeEventEnvelope Value} {now oldest : ℕ} {db : EventDb Value}
    (h : (appendRuntimeEvent app.runtimeEventGeneration envelope (retention now)
      (pruneCheckpoints now db)).2 = some oldest) :
    app.persist envelope now db =
      ({ app with runtimeEventPersistedOldestSeq := oldest },
        if oldest ≠ app.runtimeEventPersistedOldestSeq then
          EventState.refreshCheckpoints { app with runtimeEventPersistedOldestSeq := oldest } none
            (appendRuntimeEvent app.runtimeEventGeneration envelope (retention now)
              (pruneCheckpoints now db)).1
        else (appendRuntimeEvent app.runtimeEventGeneration envelope (retention now)
          (pruneCheckpoints now db)).1) := by
  simp only [persist, h, Option.getD_some]

theorem retention_keeps (now : ℕ) :
    1 ≤ (retention now).keepLatest ∧ (retention now).keepLatest ≤ (retention now).maxKeepLatest ∧
      (retention now).maxKeepLatest ≠ 0 := by
  simp [retention, runtimeEventPersistedJournalCapacity, runtimeEventPersistedJournalMaxCapacity]

/-- Under the lock of the database, where the append fails when `done` of its statements are
through; the pruning may have failed as well. -/
def persistFailing (pruned : Bool) (done : ℕ) (envelope : RuntimeEventEnvelope Value) (now : ℕ)
    (db : EventDb Value) : EventDb Value :=
  appendFailing app.runtimeEventGeneration envelope (retention now) done
    (if pruned then pruneCheckpoints now db else db)

def record (event : String) (payload : Value) (emittedAt now : ℕ) (db : EventDb Value) :
    EventState Value × EventDb Value :=
  let (app, envelope) := app.draw event payload emittedAt
  (app.push envelope).persist envelope now db

end EventState

inductive ReplaySource where
  | resyncRequired
  | empty
  | persistedCatchUp
  | memoryHotWindow
  deriving DecidableEq

inductive ResyncReason where
  | cursorAfterLatestAvailable
  | cursorBeforeOldestAvailable
  | persistedJournalUnavailable
  | persistedCatchUpEmpty
  deriving DecidableEq

structure RuntimeEventFeedSnapshot (Value : Type) where
  events : List (RuntimeEventEnvelope Value)
  generation : String
  oldestAvailableSeq : Option ℕ
  latestAvailableSeq : ℕ
  resyncRequired : Bool
  replaySource : ReplaySource
  resyncReason : Option ResyncReason
  deriving DecidableEq

structure FeedRequest where
  generation : String
  afterSeq : ℕ
  limit : ℕ
  memoryOldest : Option ℕ
  persistedOldest : Option ℕ
  latest : ℕ
  deriving DecidableEq

namespace FeedRequest

variable (request : FeedRequest)

def oldestAvailable : Option ℕ :=
  if request.afterSeq = 0 then request.memoryOldest
  else request.persistedOldest <|> request.memoryOldest

def marksReason : Option ResyncReason :=
  if request.afterSeq = 0 then none
  else if request.latest = 0 ∨ request.afterSeq > request.latest then
    some .cursorAfterLatestAvailable
  else match request.oldestAvailable with
    | some oldest => if request.afterSeq < oldest - 1 then some .cursorBeforeOldestAvailable else none
    | none => none

def needsPersistedCatchUp : Bool :=
  request.afterSeq > 0 ∧ request.marksReason = none ∧
    (request.memoryOldest.map fun oldest => decide (request.afterSeq < oldest - 1)).getD false

/-- The end of the function: a catch-up that found nothing asks for a resync, and a resync
carries no events. -/
def respond (events : List (RuntimeEventEnvelope Value)) (reason : Option ResyncReason) :
    RuntimeEventFeedSnapshot Value :=
  let reason :=
    if request.needsPersistedCatchUp ∧ reason = none ∧ request.afterSeq < request.latest ∧
        events.isEmpty then some .persistedCatchUpEmpty else reason
  let events := if reason.isSome then [] else events
  { events := events
    generation := request.generation
    oldestAvailableSeq := request.oldestAvailable
    latestAvailableSeq := request.latest
    resyncRequired := reason.isSome
    replaySource :=
      if reason.isSome then .resyncRequired
      else if request.limit = 0 ∨ (request.afterSeq = 0 ∧ request.latest = 0) ∨ events.isEmpty then
        .empty
      else if request.needsPersistedCatchUp then .persistedCatchUp
      else .memoryHotWindow
    resyncReason := reason }

/-- The part under the lock of the feed; `none` where the journal has to be read. -/
def serve (feed : List (RuntimeEventEnvelope Value)) : Option (RuntimeEventFeedSnapshot Value) :=
  if request.limit = 0 ∨ request.marksReason.isSome then
    some (request.respond [] request.marksReason)
  else if request.needsPersistedCatchUp then none
  else some (request.respond
    ((feed.filter fun event => event.seq > request.afterSeq).take request.limit) none)

/-- The part under the lock of the database; `none` where the query failed. -/
def catchUp (loaded : Option (List (RuntimeEventEnvelope Value))) :
    RuntimeEventFeedSnapshot Value :=
  match loaded with
  | some events => request.respond events none
  | none => request.respond [] (some .persistedJournalUnavailable)

end FeedRequest

namespace EventState

variable (app : EventState Value)

def request (afterSeq limit : ℕ) : FeedRequest :=
  ⟨app.runtimeEventGeneration, afterSeq, limit, app.memoryOldestSeq,
    persistedOldestSeq app.runtimeEventPersistedOldestSeq, app.runtimeEventSeq⟩

/-- The whole call with nothing else in between, on a database that answers. -/
def runtimeEventsSince (afterSeq limit : ℕ) (db : EventDb Value) :
    RuntimeEventFeedSnapshot Value :=
  let request := app.request afterSeq limit
  (request.serve app.runtimeEventFeed).getD
    (request.catchUp (some (loadRuntimeEventsAfter (ensureRuntimeEventTables db) afterSeq limit)))

end EventState

section Answers

variable {request : FeedRequest} {feed events : List (RuntimeEventEnvelope Value)}

theorem feed_after {f p c : ℕ} (h : Consecutive RuntimeEventEnvelope.seq f (p + 1) feed)
    (hf : f ≤ c + 1) (limit : ℕ) :
    Consecutive RuntimeEventEnvelope.seq (c + 1) (min (c + 1 + limit) (p + 1))
      ((feed.filter fun event => event.seq > c).take limit) := by
  have hafter := h.since (p := fun event => decide (event.seq > c)) (c + 1) fun _ _ => rfl
  rw [max_eq_right hf] at hafter
  exact hafter.take limit

theorem FeedRequest.respond_none
    (h : request.needsPersistedCatchUp = true → request.afterSeq < request.latest → events ≠ []) :
    (request.respond events none).resyncRequired = false ∧
      (request.respond events none).events = events := by
  have hreason : ¬ (request.needsPersistedCatchUp = true ∧ (none : Option ResyncReason) = none ∧
      request.afterSeq < request.latest ∧ events.isEmpty = true) := by
    rintro ⟨hneeds, -, hbehind, hempty⟩
    exact h hneeds hbehind (List.isEmpty_iff.mp hempty)
  unfold FeedRequest.respond
  rw [if_neg hreason]
  exact ⟨rfl, rfl⟩

theorem FeedRequest.events_of_respond {reason : Option ResyncReason}
    (h : (request.respond events reason).resyncRequired = false) :
    (request.respond events reason).events = events ∧ reason = none ∧
      (request.needsPersistedCatchUp = true → request.afterSeq < request.latest → events ≠ []) := by
  simp only [FeedRequest.respond] at h ⊢
  split_ifs at h with hforced
  · simp at h
  · have hnone : reason = none := by simpa using h
    refine ⟨by simp [hnone], hnone, fun hneeds hbehind hempty => hforced ?_⟩
    exact ⟨hneeds, hnone, hbehind, by simp [hempty]⟩

end Answers

end DashDrop.Events.Feed
