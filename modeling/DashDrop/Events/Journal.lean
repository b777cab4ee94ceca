/- GID: DashDrop/Events/Journal
   source: src-tauri/src/db.rs
   anchors: []
   digest: The tables of the runtime event journal and the statements that change them. -/

import DashDrop.Foundation.Tables
import Mathlib.Data.List.Dedup
import Mathlib.Data.Prod.Lex
import Mathlib.Data.String.Basic

set_option autoImplicit false
set_option relaxedAutoImplicit false

namespace DashDrop.Events.Journal

open DashDrop.Foundation.Tables

/-- An event as the feed carries it. The payload is a JSON value. -/
structure RuntimeEventEnvelope (Value : Type) where
  seq : ℕ
  event : String
  payload : Value
  emittedAtUnixMs : ℕ
  deriving DecidableEq

def runtimeEventPersistedSegmentSize : ℕ := 1000

def segmentOf (seq : ℕ) : ℕ := (seq - 1) / runtimeEventPersistedSegmentSize + 1

/-- A row of `runtime_event_journal`. The column `envelope_json` holds the event as JSON text,
here the event itself. -/
structure JournalRow (Value : Type) where
  seq : ℕ
  generation : String
  envelope : RuntimeEventEnvelope Value
  segmentId : ℕ
  deriving DecidableEq

/-- The one row of `runtime_event_meta`. -/
structure MetaRow where
  generation : String
  lastSeq : ℕ
  compactionWatermarkSeq : ℕ
  compactionWatermarkSegmentId : ℕ
  lastCompactedAtUnixMs : Option ℕ
  deriving DecidableEq

/-- A row of `runtime_event_segments`. -/
structure SegmentRow where
  generation : String
  segmentId : ℕ
  firstSeq : ℕ
  lastSeq : ℕ
  eventCount : ℕ
  createdAtUnixMs : ℕ
  sealedAtUnixMs : Option ℕ
  compactedAtUnixMs : Option ℕ
  deriving DecidableEq

inductive CheckpointTransition where
  | created
  | generationReset
  | heartbeat
  | advanced
  | rewound
  deriving DecidableEq

inductive RecoveryHint where
  | upToDate
  | hotWindow
  | persistedCatchUp
  | resyncRequired
  deriving DecidableEq

/-- A row of `runtime_event_checkpoints`. -/
structure RuntimeEventCheckpoint where
  consumerId : String
  generation : String
  seq : ℕ
  updatedAtUnixMs : ℕ
  createdAtUnixMs : Option ℕ
  lastReadAtUnixMs : Option ℕ
  leaseExpiresAtUnixMs : Option ℕ
  revision : Option ℕ
  lastTransition : Option CheckpointTransition
  recoveryHint : Option RecoveryHint
  currentOldestAvailableSeq : Option ℕ
  currentLatestAvailableSeq : Option ℕ
  currentCompactionWatermarkSeq : Option ℕ
  currentCompactionWatermarkSegmentId : Option ℕ
  deriving DecidableEq

/-- The primary key of `runtime_event_segments`. -/
def SegmentRow.key (row : SegmentRow) : String ×ₗ ℕ := toLex (row.generation, row.segmentId)

/-- The tables of the runtime events. The journal has the sequence number alone as its primary
key: rows of two generations cannot share one. -/
structure EventDb (Value : Type) where
  journal : Table (JournalRow Value) JournalRow.seq
  metaRow : MetaRow
  segments : Table SegmentRow SegmentRow.key
  checkpoints : Table RuntimeEventCheckpoint RuntimeEventCheckpoint.consumerId
  deriving DecidableEq

variable {Value : Type}

/-- New tables; `generation` is the drawn UUID. -/
def EventDb.fresh (generation : String) : EventDb Value :=
  ⟨.empty, ⟨generation, 0, 0, 0, none⟩, .empty, .empty⟩

/-- The rows of one generation, in the order of their sequence numbers. -/
def EventDb.rowsOf (db : EventDb Value) (generation : String) : List (JournalRow Value) :=
  db.journal.select fun row => row.generation = generation

/-- `SELECT MIN(seq) FROM runtime_event_journal WHERE generation = ?1`. -/
def EventDb.oldestSeq (db : EventDb Value) (generation : String) : Option ℕ :=
  ((db.rowsOf generation).map JournalRow.seq).min?

def fillSegmentIds (db : EventDb Value) : EventDb Value :=
  { db with
    journal := db.journal.updateWhere (fun row => row.seq > 0 ∧ row.segmentId = 0)
      (fun row => { row with segmentId := segmentOf row.seq }) fun _ => rfl }

/-- `SELECT generation, segment_id, MIN(seq), MAX(seq), COUNT(*), 0 .. GROUP BY generation,
segment_id`. -/
def segmentGroups (rows : List (JournalRow Value)) : List SegmentRow :=
  (rows.map fun row => (row.generation, row.segmentId)).dedup.map fun group =>
    let seqs := (rows.filter fun row => (row.generation, row.segmentId) = group).map JournalRow.seq
    { generation := group.1
      segmentId := group.2
      firstSeq := seqs.min?.getD 0
      lastSeq := seqs.max?.getD 0
      eventCount := seqs.length
      createdAtUnixMs := 0
      sealedAtUnixMs := none
      compactedAtUnixMs := none }

/-- `ON CONFLICT` with a group of journal rows. -/
def SegmentRow.absorb (excluded row : SegmentRow) : SegmentRow :=
  { row with
    firstSeq := min row.firstSeq excluded.firstSeq
    lastSeq := max row.lastSeq excluded.lastSeq
    eventCount := max row.eventCount excluded.eventCount }

def absorbGroup (segments : Table SegmentRow SegmentRow.key) (group : SegmentRow) :
    Table SegmentRow SegmentRow.key :=
  segments.upsert group group.absorb fun _ h => h

def absorbGroups (db : EventDb Value) : EventDb Value :=
  { db with segments := (segmentGroups db.journal.rows).foldl absorbGroup db.segments }

def ensureStatements : List (EventDb Value → EventDb Value) := [fillSegmentIds, absorbGroups]

def ensureRuntimeEventTables (db : EventDb Value) : EventDb Value :=
  absorbGroups (fillSegmentIds db)

def insertJournalRow (generation : String) (event : RuntimeEventEnvelope Value)
    (db : EventDb Value) : EventDb Value :=
  { db with
    journal := db.journal.insertOrReplace ⟨event.seq, generation, event, segmentOf event.seq⟩ }

def setLastSeq (generation : String) (event : RuntimeEventEnvelope Value) (db : EventDb Value) :
    EventDb Value :=
  { db with metaRow := { db.metaRow with generation := generation, lastSeq := event.seq } }

/-- `ON CONFLICT` with the segment of one new event. -/
def SegmentRow.extend (seq : ℕ) (row : SegmentRow) : SegmentRow :=
  { row with
    lastSeq := max row.lastSeq seq
    eventCount := max row.eventCount (seq - row.firstSeq + 1) }

def upsertSegment (generation : String) (event : RuntimeEventEnvelope Value)
    (db : EventDb Value) : EventDb Value :=
  { db with
    segments := db.segments.upsert
      { generation := generation
        segmentId := segmentOf event.seq
        firstSeq := event.seq
        lastSeq := event.seq
        eventCount := 1
        createdAtUnixMs := event.emittedAtUnixMs
        sealedAtUnixMs := none
        compactedAtUnixMs := none }
      (SegmentRow.extend event.seq) fun _ h => h }

def sealSegments (generation : String) (event : RuntimeEventEnvelope Value)
    (db : EventDb Value) : EventDb Value :=
  { db with
    segments := db.segments.updateWhere
      (fun row => row.generation = generation ∧ row.segmentId < segmentOf event.seq ∧
        row.compactedAtUnixMs = none ∧ row.sealedAtUnixMs = none)
      (fun row => { row with
        sealedAtUnixMs := row.sealedAtUnixMs <|> some event.emittedAtUnixMs })
      fun _ => rfl }

/-- The columns of a checkpoint that pin the journal, and the bound they are compared with. -/
def RuntimeEventCheckpoint.pins (checkpoint : RuntimeEventCheckpoint) (generation : String)
    (activeAfter leastSeq : ℕ) : Bool :=
  checkpoint.generation = generation ∧ checkpoint.updatedAtUnixMs > activeAfter ∧
    checkpoint.seq ≥ leastSeq ∧
    checkpoint.recoveryHint.getD .persistedCatchUp ≠ .resyncRequired

structure Retention where
  keepLatest : ℕ
  maxKeepLatest : ℕ
  checkpointActiveAfterUnixMs : ℕ

def baselineRetainedFromSeq (limits : Retention) (seq : ℕ) : ℕ :=
  if limits.keepLatest = 0 then seq + 1 else max (seq - (limits.keepLatest - 1)) 1

def maxRetainedFromSeq (limits : Retention) (seq : ℕ) : ℕ :=
  max (seq - (limits.maxKeepLatest - 1)) 1

def oldestPinnedCheckpointSeq (db : EventDb Value) (generation : String) (limits : Retention)
    (seq : ℕ) : Option ℕ :=
  ((db.checkpoints.select fun checkpoint =>
    checkpoint.pins generation limits.checkpointActiveAfterUnixMs
      (maxRetainedFromSeq limits seq - 1)).map RuntimeEventCheckpoint.seq).min?

def protectedRetainedFromSeq (db : EventDb Value) (generation : String) (limits : Retention)
    (seq : ℕ) : ℕ :=
  ((oldestPinnedCheckpointSeq db generation limits seq).map fun pinned => max (pinned + 1) 1).getD
    (baselineRetainedFromSeq limits seq)

def retainedFromSeq (db : EventDb Value) (generation : String) (limits : Retention) (seq : ℕ) :
    ℕ :=
  max (maxRetainedFromSeq limits seq)
    (min (baselineRetainedFromSeq limits seq) (protectedRetainedFromSeq db generation limits seq))

def SegmentRow.compact (now : ℕ) (row : SegmentRow) : SegmentRow :=
  { row with compactedAtUnixMs := row.compactedAtUnixMs <|> some now }

def compactSegments (generation : String) (event : RuntimeEventEnvelope Value)
    (limits : Retention) (db : EventDb Value) : EventDb Value :=
  let retained := segmentOf (retainedFromSeq db generation limits event.seq)
  { db with
    segments := db.segments.updateWhere
      (fun row => row.generation = generation ∧ row.segmentId < retained ∧
        row.compactedAtUnixMs = none)
      (SegmentRow.compact event.emittedAtUnixMs) fun _ => rfl }

def deleteCompacted (generation : String) (event : RuntimeEventEnvelope Value)
    (limits : Retention) (db : EventDb Value) : EventDb Value :=
  let retained := segmentOf (retainedFromSeq db generation limits event.seq)
  { db with
    journal := db.journal.deleteWhere fun row =>
      row.generation = generation ∧ row.segmentId < retained }

def deleteJournal (db : EventDb Value) : EventDb Value :=
  { db with journal := db.journal.deleteWhere fun _ => true }

def compactAllSegments (generation : String) (event : RuntimeEventEnvelope Value)
    (db : EventDb Value) : EventDb Value :=
  { db with
    segments := db.segments.updateWhere
      (fun row => row.generation = generation ∧ row.compactedAtUnixMs = none)
      (SegmentRow.compact event.emittedAtUnixMs) fun _ => rfl }

def setWatermark (generation : String) (db : EventDb Value) : EventDb Value :=
  let compacted := db.segments.select fun row =>
    row.generation = generation ∧ row.compactedAtUnixMs ≠ none
  { db with
    metaRow := { db.metaRow with
      compactionWatermarkSeq := (compacted.map SegmentRow.lastSeq).max?.getD 0
      compactionWatermarkSegmentId := (compacted.map SegmentRow.segmentId).max?.getD 0
      lastCompactedAtUnixMs := (compacted.filterMap SegmentRow.compactedAtUnixMs).max? } }

def compactionStatements (generation : String) (event : RuntimeEventEnvelope Value)
    (limits : Retention) : List (EventDb Value → EventDb Value) :=
  if limits.maxKeepLatest = 0 then [deleteJournal, compactAllSegments generation event]
  else [compactSegments generation event limits, deleteCompacted generation event limits]

/-- The statements of one append, in the order they are executed; each commits by itself. -/
def appendStatements (generation : String) (event : RuntimeEventEnvelope Value)
    (limits : Retention) : List (EventDb Value → EventDb Value) :=
  ensureStatements ++
    [insertJournalRow generation event, setLastSeq generation event,
      upsertSegment generation event, sealSegments generation event] ++
    compactionStatements generation event limits ++ [setWatermark generation]

def execute (db : EventDb Value) (statements : List (EventDb Value → EventDb Value)) :
    EventDb Value :=
  statements.foldl (fun db statement => statement db) db

/-- `append_runtime_event` with no failure: the tables after it and the oldest sequence number
it returns. -/
def appendRuntimeEvent (generation : String) (event : RuntimeEventEnvelope Value)
    (limits : Retention) (db : EventDb Value) : EventDb Value × Option ℕ :=
  let after := execute db (appendStatements generation event limits)
  (after, after.oldestSeq generation)

/-- `append_runtime_event` that fails when `done` statements are through: they stay. -/
def appendFailing (generation : String) (event : RuntimeEventEnvelope Value) (limits : Retention)
    (done : ℕ) (db : EventDb Value) : EventDb Value :=
  execute db ((appendStatements generation event limits).take done)

def saveRuntimeEventCheckpoint (checkpoint : RuntimeEventCheckpoint) (db : EventDb Value) :
    EventDb Value :=
  let db := ensureRuntimeEventTables db
  { db with checkpoints := db.checkpoints.insertOrReplace checkpoint }

def deleteRuntimeEventCheckpoint (consumerId : String) (db : EventDb Value) : EventDb Value :=
  let db := ensureRuntimeEventTables db
  { db with
    checkpoints := db.checkpoints.deleteWhere fun checkpoint =>
      checkpoint.consumerId = consumerId }

def pruneRuntimeEventCheckpoints (staleBefore : ℕ) (db : EventDb Value) : EventDb Value :=
  let db := ensureRuntimeEventTables db
  { db with
    checkpoints := db.checkpoints.deleteWhere fun checkpoint =>
      checkpoint.updatedAtUnixMs ≤ staleBefore }

/-- `load_runtime_event_state`: the generation, the oldest and the last sequence number and the
latest events. -/
def loadRuntimeEventState (db : EventDb Value) (limit : ℕ) :
    String × Option ℕ × ℕ × List (RuntimeEventEnvelope Value) :=
  let generation := db.metaRow.generation
  (generation, db.oldestSeq generation, db.metaRow.lastSeq,
    (((db.rowsOf generation).reverse.take limit).map JournalRow.envelope).reverse)

/-- `load_runtime_events_after`. -/
def loadRuntimeEventsAfter (db : EventDb Value) (afterSeq limit : ℕ) :
    List (RuntimeEventEnvelope Value) :=
  ((db.journal.select fun row =>
    row.seq > afterSeq ∧ row.generation = db.metaRow.generation).take limit).map
      JournalRow.envelope

/-- Every row of the journal carries an event that `P` allows for its generation. -/
def Journaled (P : String → RuntimeEventEnvelope Value → Prop) (db : EventDb Value) : Prop :=
  ∀ row ∈ db.journal.rows, P row.generation row.envelope

section Statements

variable {P : String → RuntimeEventEnvelope Value → Prop} {db : EventDb Value} {g : String}
  {event : RuntimeEventEnvelope Value} {limits : Retention}

theorem Journaled.fill (h : Journaled P db) : Journaled P (fillSegmentIds db) := by
  intro row hrow
  rcases (Table.mem_updateWhere (by exact fun _ => rfl)).mp hrow with ⟨hold, -⟩ | ⟨old, hold, -, rfl⟩
  · exact h row hold
  · exact h old hold

theorem Journaled.ensure (h : Journaled P db) : Journaled P (ensureRuntimeEventTables db) :=
  h.fill

theorem Journaled.statement (h : Journaled P db) (hevent : P g event)
    {statement : EventDb Value → EventDb Value}
    (hmem : statement ∈ appendStatements g event limits) : Journaled P (statement db) := by
  simp only [appendStatements, ensureStatements, compactionStatements, List.mem_append,
    List.mem_cons, List.not_mem_nil, or_false] at hmem
  rcases hmem with (((rfl | rfl) | (rfl | rfl | rfl | rfl)) | hcompaction) | rfl
  · exact h.fill
  · exact h
  · intro row hrow
    rcases Table.mem_insertOrReplace.mp hrow with ⟨hold, -⟩ | rfl
    · exact h row hold
    · exact hevent
  · exact h
  · exact h
  · exact h
  · split_ifs at hcompaction
    · simp only [List.mem_cons, List.not_mem_nil, or_false] at hcompaction
      rcases hcompaction with rfl | rfl
      · intro row hrow
        exact h row (Table.mem_deleteWhere.mp hrow).1
      · exact h
    · simp only [List.mem_cons, List.not_mem_nil, or_false] at hcompaction
      rcases hcompaction with rfl | rfl
      · exact h
      · intro row hrow
        exact h row (Table.mem_deleteWhere.mp hrow).1
  · exact h

theorem execute_keeps {I : EventDb Value → Prop} {statements : List (EventDb Value → EventDb Value)}
    (hkept : ∀ statement ∈ statements, ∀ db, I db → I (statement db)) (h : I db) :
    I (execute db statements) := by
  induction statements generalizing db with
  | nil => exact h
  | cons statement rest ih =>
    refine ih (fun other hother => hkept other (List.mem_cons_of_mem statement hother)) ?_
    exact hkept statement List.mem_cons_self db h

theorem Journaled.appendFailing (h : Journaled P db) (hevent : P g event) (done : ℕ) :
    Journaled P (appendFailing g event limits done db) :=
  execute_keeps (fun _ hmem _ hdb => hdb.statement hevent (List.mem_of_mem_take hmem)) h

theorem Journaled.append (h : Journaled P db) (hevent : P g event) :
    Journaled P (appendRuntimeEvent g event limits db).1 :=
  execute_keeps (fun _ hmem _ hdb => hdb.statement hevent hmem) h

theorem append_checkpoints :
    (appendRuntimeEvent g event limits db).1.checkpoints = db.checkpoints := by
  unfold appendRuntimeEvent appendStatements compactionStatements
  split_ifs <;> rfl

theorem append_meta :
    (appendRuntimeEvent g event limits db).1.metaRow.generation = g ∧
      (appendRuntimeEvent g event limits db).1.metaRow.lastSeq = event.seq := by
  unfold appendRuntimeEvent appendStatements compactionStatements
  split_ifs <;> exact ⟨rfl, rfl⟩

end Statements

end DashDrop.Events.Journal
