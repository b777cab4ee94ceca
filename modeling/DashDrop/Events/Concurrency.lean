/- GID: DashDrop/Events/Concurrency
   source: src-tauri/src/state.rs, src/ipc.ts
   anchors: []
   digest: Concurrent recording, one poller, failing appends and restarts as one machine. -/

import DashDrop.Events.Feed
import DashDrop.Foundation.Transitions

set_option autoImplicit false
set_option relaxedAutoImplicit false

namespace DashDrop.Events.Concurrency

open DashDrop.Events.Journal DashDrop.Events.Feed

/-- A call of `record_runtime_event` that has drawn its number and has not returned. -/
structure RecordCall (Value : Type) where
  envelope : RuntimeEventEnvelope Value
  pushed : Bool
  deriving DecidableEq

/-- Where the poller is in `runtime_events_since`. -/
inductive PollPhase where
  | idle
  -- The lock of the feed is held.
  | holding (limit : ℕ)
  -- The lock is held, and the mark of the oldest persisted number is read.
  | marked (limit persistedOldest : ℕ)
  -- The lock is given back, and the journal is to be read.
  | reading (request : FeedRequest)
  deriving DecidableEq

/-- A client that asks again and again from its cursor, and what it was given since it started. -/
structure Poller (Value : Type) where
  start : ℕ
  cursor : ℕ
  delivered : List (RuntimeEventEnvelope Value)
  resynced : Bool
  phase : PollPhase
  deriving DecidableEq

variable {Value : Type}

def Poller.watching (cursor : ℕ) : Poller Value := ⟨cursor, cursor, [], false, .idle⟩

/-- The client takes an answer: a resync sends it to the latest number. -/
def Poller.receive (poller : Poller Value) (snapshot : RuntimeEventFeedSnapshot Value) :
    Poller Value :=
  if snapshot.resyncRequired then
    { poller with cursor := snapshot.latestAvailableSeq, resynced := true, phase := .idle }
  else
    { poller with
      cursor := snapshot.events.foldl (fun cursor event => max cursor event.seq) poller.cursor
      delivered := poller.delivered ++ snapshot.events
      phase := .idle }

/-- `published` holds, for the statements, every event that has entered the feed, with its
generation: from there on readers are given it, the journal may take it and the call returns
it. -/
structure Hub (Value : Type) where
  app : EventState Value
  db : EventDb Value
  calls : List (RecordCall Value)
  poller : Poller Value
  published : List (String × RuntimeEventEnvelope Value)
  deriving DecidableEq

def Hub.start (generation : String) : Hub Value :=
  ⟨.load (.fresh generation), .fresh generation, [], .watching 1, []⟩

/-- How an append ends: with all statements through, or after the first `done` of them. -/
inductive AppendOutcome where
  | ok
  | failed (pruned : Bool) (done : ℕ)
  deriving DecidableEq

/-- The steps of the threads of one process. -/
inductive Work (Value : Type) where
  | draw (event : String) (payload : Value) (now : ℕ)
  | push (call : ℕ)
  | persist (call now : ℕ) (outcome : AppendOutcome)
  | save (consumerId generation : String) (seq now : ℕ)
  | get (consumerId : String) (now : ℕ)
  | list (now : ℕ)
  | watch (cursor : ℕ)
  | lockFeed (limit : ℕ)
  | loadOldest
  | serve
  | readJournal (answers : Bool)
  deriving DecidableEq

def PollPhase.holdsFeed : PollPhase → Bool
  | .holding _ => true
  | .marked _ _ => true
  | _ => false

def persistCall (h : Hub Value) (envelope : RuntimeEventEnvelope Value) (now : ℕ) :
    AppendOutcome → EventState Value × EventDb Value
  | .ok => h.app.persist envelope now h.db
  | .failed pruned done => (h.app, h.app.persistFailing pruned done envelope now h.db)

def workStep (h : Hub Value) : Work Value → Option (Hub Value)
  | .draw event payload now =>
      let (app, envelope) := h.app.draw event payload now
      some { h with app := app, calls := h.calls ++ [⟨envelope, false⟩] }
  | .push i =>
      match h.calls[i]? with
      | some call =>
          if call.pushed = false ∧ h.poller.phase.holdsFeed = false then
            some { h with
              app := h.app.push call.envelope
              calls := h.calls.set i { call with pushed := true }
              published := h.published ++ [(h.app.runtimeEventGeneration, call.envelope)] }
          else none
      | none => none
  | .persist i now outcome =>
      match h.calls[i]? with
      | some call =>
          if call.pushed then
            let (app, db) := persistCall h call.envelope now outcome
            some { h with app := app, db := db, calls := h.calls.eraseIdx i }
          else none
      | none => none
  | .save consumerId generation seq now =>
      some { h with db := (h.app.saveCheckpoint consumerId generation seq now h.db).2 }
  | .get consumerId now => some { h with db := (h.app.getCheckpoint consumerId now h.db).2 }
  | .list now => some { h with db := h.app.listCheckpoints now h.db }
  | .watch cursor =>
      if h.poller.phase = .idle then some { h with poller := .watching cursor } else none
  | .lockFeed limit =>
      if h.poller.phase = .idle then
        some { h with poller := { h.poller with phase := .holding limit } }
      else none
  | .loadOldest =>
      match h.poller.phase with
      | .holding limit =>
          some { h with poller := { h.poller with
            phase := .marked limit h.app.runtimeEventPersistedOldestSeq } }
      | _ => none
  | .serve =>
      match h.poller.phase with
      | .marked limit persistedOldest =>
          let request : FeedRequest :=
            ⟨h.app.runtimeEventGeneration, h.poller.cursor, limit, h.app.memoryOldestSeq,
              EventState.persistedOldestSeq persistedOldest, h.app.runtimeEventSeq⟩
          match request.serve h.app.runtimeEventFeed with
          | some snapshot => some { h with poller := h.poller.receive snapshot }
          | none => some { h with poller := { h.poller with phase := .reading request } }
      | _ => none
  | .readJournal answers =>
      match h.poller.phase with
      | .reading request =>
          let db := ensureRuntimeEventTables h.db
          let loaded := if answers
            then some (loadRuntimeEventsAfter db request.afterSeq request.limit) else none
          some { h with db := db, poller := h.poller.receive (request.catchUp loaded) }
      | _ => none

/-- The steps of the process, and its restarts: the calls under way are gone, and the state is
loaded, or a new generation is drawn where the load fails. -/
inductive Turn (Value : Type) where
  | work (work : Work Value)
  | restart
  | restartUnloaded (generation : String)
  deriving DecidableEq

def Hub.unused (h : Hub Value) (generation : String) : Prop :=
  generation ≠ h.app.runtimeEventGeneration ∧ generation ≠ h.db.metaRow.generation ∧
    ∀ p ∈ h.published, generation ≠ p.1

instance (h : Hub Value) (generation : String) : Decidable (h.unused generation) :=
  inferInstanceAs (Decidable (_ ∧ _ ∧ ∀ p ∈ h.published, generation ≠ p.1))

def turnStep (h : Hub Value) : Turn Value → Option (Hub Value)
  | .work work => workStep h work
  | .restart =>
      let db := ensureRuntimeEventTables h.db
      some { h with
        app := .load db
        db := db
        calls := []
        poller := { h.poller with phase := .idle } }
  | .restartUnloaded generation =>
      if h.unused generation then
        some { h with
          app := .unloaded generation
          calls := []
          poller := { h.poller with phase := .idle } }
      else none

theorem seqs_set_pushed {calls : List (RecordCall Value)} {i : ℕ} {call : RecordCall Value}
    (hcall : calls[i]? = some call) :
    (calls.set i { call with pushed := true }).map (·.envelope.seq) =
      calls.map (·.envelope.seq) := by
  obtain ⟨hi, hget⟩ := List.getElem?_eq_some_iff.mp hcall
  have hin : i < (calls.map (·.envelope.seq)).length := by simpa using hi
  have hsame : call.envelope.seq = (calls.map (·.envelope.seq))[i] := by simp [hget]
  rw [List.map_set, hsame, List.set_getElem_self]

end DashDrop.Events.Concurrency
