/- GID: DashDrop/Ipc/FeedFrames
   source: src-tauri/src/local_ipc.rs, src-tauri/src/daemon/server.rs, src-tauri/src/state.rs
   anchors: []
   digest: When the answer to a cursor fits into a frame, in every state of every run. -/

import DashDrop.Events.Naming
import DashDrop.Ipc.Frames
import DashDrop.Transport.Protocol

set_option autoImplicit false
set_option relaxedAutoImplicit false

namespace DashDrop.Ipc.FeedFrames

open DashDrop.Foundation.Json DashDrop.Foundation.Cbor DashDrop.Foundation.Tables
open DashDrop.Foundation.Transitions
open DashDrop.Events.Journal DashDrop.Events.Feed DashDrop.Events.Concurrency DashDrop.Events.Naming
open DashDrop.Ipc.Frames
open DashDrop.Transport.Protocol (FileItem SourceSnapshot)

section Answers

variable {Value : Type}

/-- The request of the poller, with the marks as they stand when it is served. -/
def requestOf (h : Hub Value) (limit persistedOldest : ℕ) : FeedRequest :=
  ⟨h.app.runtimeEventGeneration, h.poller.cursor, limit, h.app.memoryOldestSeq,
    EventState.persistedOldestSeq persistedOldest, h.app.runtimeEventSeq⟩

def answerOf (h : Hub Value) : Work Value → Option (RuntimeEventFeedSnapshot Value)
  | .serve =>
      match h.poller.phase with
      | .marked limit oldest => (requestOf h limit oldest).serve h.app.runtimeEventFeed
      | _ => none
  | .readJournal answers =>
      match h.poller.phase with
      | .reading request =>
          let db := ensureRuntimeEventTables h.db
          some (request.catchUp (if answers
            then some (loadRuntimeEventsAfter db request.afterSeq request.limit) else none))
      | _ => none
  | _ => none

theorem poller_receives {h h' : Hub Value} {work : Work Value}
    {snapshot : RuntimeEventFeedSnapshot Value} (answers : answerOf h work = some snapshot)
    (step : workStep h work = some h') : h'.poller = h.poller.receive snapshot := by
  cases work with
  | serve =>
    cases phase : h.poller.phase with
    | marked limit oldest =>
      have served : (requestOf h limit oldest).serve h.app.runtimeEventFeed = some snapshot := by
        simpa [answerOf, phase] using answers
      simp only [requestOf] at served
      simp only [workStep, phase, served, Option.some.injEq] at step
      rw [← step]
    | _ => simp [answerOf, phase] at answers
  | readJournal found =>
    cases phase : h.poller.phase with
    | reading request =>
      simp only [answerOf, phase, Option.some.injEq] at answers
      simp only [workStep, phase, Option.some.injEq] at step
      rw [← step, ← answers]
    | _ => simp [answerOf, phase] at answers
  | _ => simp [answerOf] at answers

/-- What is there for a request: the marks it was given, what they or a journal that cannot be read
ask for, and the events after its cursor. -/
structure Owed (Value : Type) where
  request : FeedRequest
  reason : Option ResyncReason
  events : List (RuntimeEventEnvelope Value)

/-- A cursor is owed the first events after it that the hot window has, or that the journal has of
the generation on record; nothing where a resync is asked for. -/
def owed (h : Hub Value) : Work Value → Option (Owed Value)
  | .serve =>
      match h.poller.phase with
      | .marked limit oldest =>
          let request := requestOf h limit oldest
          if request.marksReason.isSome then some ⟨request, request.marksReason, []⟩
          else some ⟨request, none,
            (h.app.runtimeEventFeed.filter fun event => event.seq > h.poller.cursor).take limit⟩
      | _ => none
  | .readJournal answers =>
      match h.poller.phase with
      | .reading request =>
          let rows := (ensureRuntimeEventTables h.db).rowsOf h.db.metaRow.generation
          if answers then some ⟨request, none, ((rows.filter fun row =>
            row.seq > request.afterSeq).take request.limit).map JournalRow.envelope⟩
          else some ⟨request, some .persistedJournalUnavailable, []⟩
      | _ => none
  | _ => none

def Owed.fields (due : Owed Value) : RuntimeEventFeedSnapshot Value :=
  { due.request.respond due.events due.reason with events := [] }

variable {h : Hub Value} {work : Work Value} {snapshot : RuntimeEventFeedSnapshot Value}

theorem loadRuntimeEventsAfter_eq (db : EventDb Value) (afterSeq limit : ℕ) :
    loadRuntimeEventsAfter db afterSeq limit =
      (((db.rowsOf db.metaRow.generation).filter fun row => row.seq > afterSeq).take limit).map
        JournalRow.envelope := by
  unfold loadRuntimeEventsAfter EventDb.rowsOf Table.select
  rw [List.filter_filter]
  simp only [Bool.decide_and]

/-- In every state, whatever has failed before, the answer is made of what is owed. -/
theorem answerOf_owed (answers : answerOf h work = some snapshot) :
    ∃ due, owed h work = some due ∧
      snapshot = due.request.respond due.events due.reason := by
  cases work with
  | serve =>
    cases phase : h.poller.phase with
    | marked limit oldest =>
      have served : (requestOf h limit oldest).serve h.app.runtimeEventFeed = some snapshot := by
        simpa [answerOf, phase] using answers
      simp only [owed, phase]
      by_cases asks : (requestOf h limit oldest).marksReason.isSome
      · rw [FeedRequest.serve, if_pos (.inr asks)] at served
        rw [if_pos asks]
        exact ⟨_, rfl, (Option.some.inj served).symm⟩
      · have calm : (requestOf h limit oldest).marksReason = none := by simpa using asks
        rw [if_neg asks]
        refine ⟨_, rfl, ?_⟩
        unfold FeedRequest.serve at served
        split_ifs at served with unread
        · -- No events are wanted.
          obtain none_left | asked := unread
          · have zero : limit = 0 := none_left
            rw [calm] at served
            simpa [zero] using (Option.some.inj served).symm
          · exact absurd asked asks
        · exact (Option.some.inj served).symm
    | _ => simp [answerOf, phase] at answers
  | readJournal found =>
    cases phase : h.poller.phase with
    | reading request =>
      simp only [answerOf, phase, Option.some.injEq] at answers
      simp only [owed, phase]
      cases found with
      | true =>
        refine ⟨_, rfl, ?_⟩
        rw [← answers, if_pos rfl, loadRuntimeEventsAfter_eq]
        rfl
      | false => exact ⟨_, rfl, answers.symm⟩
    | _ => simp [answerOf, phase] at answers
  | _ => simp [answerOf] at answers

theorem Owed.events_eq {due : Owed Value} (due_of : owed h work = some due) :
    (due.request.respond due.events due.reason).events = due.events := by
  have idle (asks : due.reason.isSome = true) : due.events = [] := by
    unfold owed at due_of
    split at due_of
    · split at due_of
      · dsimp only at due_of
        split_ifs at due_of <;> cases due_of
        · rfl
        · cases asks
      · cases due_of
    · split at due_of
      · dsimp only at due_of
        split_ifs at due_of <;> cases due_of
        · cases asks
        · rfl
      · cases due_of
    · cases due_of
  simp only [FeedRequest.respond]
  split_ifs with forced asks asks
  · obtain ⟨-, -, -, empty⟩ := forced
    exact (List.isEmpty_iff.mp empty).symm
  · cases asks rfl
  · exact (idle asks).symm
  · rfl

theorem owed_published (entered : Entered h) {due : Owed Value}
    (due_of : owed h work = some due) :
    ∀ event ∈ due.events, ∃ generation, (generation, event) ∈ h.published := by
  intro event inside
  unfold owed at due_of
  split at due_of
  · split at due_of
    · dsimp only at due_of
      split_ifs at due_of <;> cases due_of
      · cases inside
      · have hot := (List.mem_filter.mp (List.mem_of_mem_take inside)).1
        exact ⟨_, entered.feed event hot⟩
    · cases due_of
  · split at due_of
    · dsimp only at due_of
      split_ifs at due_of <;> cases due_of
      · obtain ⟨row, listed, rfl⟩ := List.mem_map.mp inside
        have kept := (List.mem_filter.mp (List.mem_of_mem_take listed)).1
        exact ⟨_, entered.journaled.ensure row (Table.mem_select.mp kept).1⟩
      · cases inside
    · cases due_of
  · cases due_of

end Answers

/-- In every state of every run, with recording calls that overlap, appends that fail and restarts,
the answer to any request fits into a frame exactly when the events that its cursor is owed do,
next to the fields that every answer has. -/
theorem feed_readable_iff {generation : String} {h : Hub Value}
    (reached : Reaches turnStep anyStep (Hub.start generation) h) {cbor : Ciborium}
    (conforms : cbor.Conforms) (requestId : String) {work : Work Value}
    {snapshot : RuntimeEventFeedSnapshot Value} (answers : answerOf h work = some snapshot) :
    ∃ due, owed h work = some due ∧
      (∀ event ∈ due.events, ∃ generation, (generation, event) ∈ h.published) ∧
      ((writeFramedMessage cbor (responseValue (feedResponse requestId snapshot))).isOk = true ↔
        (cbor.intoWriter (responseValue (feedResponse requestId due.fields))).length +
          (head 4 due.events.length).length +
          (due.events.map fun event => (cbor.intoWriter (envelopeValue event)).length).sum ≤
            localIpcMaxFrameLen + 1) := by
  obtain ⟨due, due_of, rfl⟩ := answerOf_owed answers
  refine ⟨due, due_of, owed_published (entered_of_reaches reached) due_of, ?_⟩
  have sizes := length_feedResponse cbor.float requestId
    (due.request.respond due.events due.reason)
  rw [Owed.events_eq due_of] at sizes
  have fields : { due.request.respond due.events due.reason with events := [] } = due.fields := rfl
  rw [fields] at sizes
  simp only [writeFramedMessage_ok, conforms _]
  omega

/-- One event enters the feed of a new process, and a client asks for it. -/
def askedTurns (event : String) (payload : Value) : List (Turn Value) :=
  [.work (.draw event payload 10), .work (.push 0), .work (.watch 0), .work (.lockFeed 100),
    .work .loadOldest]

def askedHub (event : String) (payload : Value) : Hub Value :=
  (play turnStep anyStep (Hub.start "g1") (askedTurns event payload)).getD (Hub.start "g1")

theorem reaches_asked (event : String) (payload : Value) :
    Reaches turnStep anyStep (Hub.start "g1") (askedHub event payload) :=
  reaches_of_play (by rfl : play _ _ _ (askedTurns event payload) = some (askedHub event payload))

def askedAnswer (event : String) (payload : Value) : RuntimeEventFeedSnapshot Value :=
  ⟨[⟨1, event, payload, 10⟩], "g1", some 1, 1, false, .memoryHotWindow, none⟩

theorem answer_asked (event : String) (payload : Value) :
    answerOf (askedHub event payload) .serve = some (askedAnswer event payload) := by rfl

theorem one_event_readable :
    (writeFramedMessage standardCbor (responseValue (feedResponse "1"
      (askedAnswer "device_updated" .null)))).isOk = true := by
  obtain ⟨due, due_of, -, fits⟩ := feed_readable_iff (reaches_asked "device_updated" .null)
    (fun _ => rfl : standardCbor.Conforms) "1" (answer_asked "device_updated" .null)
  have same : owed (askedHub "device_updated" .null) .serve =
      some ⟨requestOf (askedHub "device_updated" .null) 100 0, none,
        [⟨1, "device_updated", .null, 10⟩]⟩ := by rfl
  obtain rfl := Option.some.inj (same.symm.trans due_of)
  exact fits.mpr (by decide +kernel)

def sourceSnapshotValue (snapshot : SourceSnapshot) : Value :=
  .object [("head_hash", .array (snapshot.headHash.bytes.toList.map fun byte => .nat byte.toNat)),
    ("mtime_unix_ms", .nat snapshot.mtimeUnixMs), ("size", .nat snapshot.size)]

def fileItemValue (item : FileItem) : Value :=
  .object ([("file_id", .nat item.fileId),
    ("file_type", .string (match item.fileType with
      | .regularFile => "RegularFile"
      | .directory => "Directory")),
    ("modified", .nat item.modified), ("name", .string item.name),
    ("rel_path", .string item.relPath)] ++
    (item.riskClass.map fun risk => ("risk_class", Value.string (match risk with
      | .high => "high"
      | .normal => "normal"))).toList ++
    [("size", .nat item.size)] ++
    (item.sourceSnapshot.map fun snapshot => ("source_snapshot", sourceSnapshotValue snapshot)).toList)

/-- The payload of `emit_transfer_incoming` for a transfer without a batch. -/
def transferIncomingPayload (transferId notificationId senderName senderFp : String)
    (trusted : Bool) (items : List FileItem) (totalSize revision : ℕ) : Value :=
  .object [("items", .array (items.map fileItemValue)), ("notification_id", .string notificationId),
    ("revision", .nat revision), ("sender_fp", .string senderFp),
    ("sender_name", .string senderName), ("total_size", .nat totalSize),
    ("transfer_id", .string transferId), ("trusted", .bool trusted)]

section Offer

variable (float : BitVec 64 → List UInt8)

theorem length_fileItem (item : FileItem) : 46 ≤ (encode float (fileItemValue item)).length := by
  have names : (text "file_id").length + (text "file_type").length + (text "modified").length +
      (text "name").length + (text "rel_path").length + (text "size").length = 46 := by decide
  simp only [fileItemValue, length_encode_object, List.map_append, List.sum_append, List.map_cons,
    List.sum_cons, List.map_nil, List.sum_nil]
  omega

theorem length_transferIncoming (transferId notificationId senderName senderFp : String)
    (trusted : Bool) (items : List FileItem) (totalSize revision : ℕ) :
    items.length * 46 ≤ (encode float (transferIncomingPayload transferId notificationId senderName
      senderFp trusted items totalSize revision)).length := by
  have each : items.length * 46 ≤
      (items.map fun item => (encode float (fileItemValue item)).length).sum := by
    induction items with
    | nil => simp
    | cons item rest ih =>
      have long := length_fileItem float item
      simp only [List.length_cons, List.map_cons, List.sum_cons]
      omega
  have list := length_encode_array float (items.map fileItemValue)
  rw [List.map_map] at list
  simp only [transferIncomingPayload, length_encode_object, List.map_cons, List.sum_cons, list]
  have same : (List.map ((fun item => (encode float item).length) ∘ fileItemValue) items).sum =
      (items.map fun item => (encode float (fileItemValue item)).length).sum := rfl
  omega

end Offer

def sampleItems (n : ℕ) : List FileItem :=
  (List.range n).map fun i =>
    ⟨i, toString i ++ ".jpg", "pictures/" ++ toString i ++ ".jpg", 4096, .regularFile, 0, none, none⟩

theorem sampleItems_length (n : ℕ) : (sampleItems n).length = n := by simp [sampleItems]

def sampleOffer (n : ℕ) : Value :=
  transferIncomingPayload "t1" "n1" "Phone" "fp" false (sampleItems n) (n * 4096) 0

theorem asked_unreadable (event : String) (payload : Value)
    (long : localIpcMaxFrameLen < (encode standardCbor.float payload).length) :
    ¬ (writeFramedMessage standardCbor (responseValue (feedResponse "1"
      (askedAnswer event payload)))).isOk = true := by
  have sizes := length_feedResponse standardCbor.float "1" (askedAnswer event payload)
  have whole : (encode standardCbor.float payload).length ≤
      (encode standardCbor.float (envelopeValue ⟨1, event, payload, 10⟩)).length := by
    simp only [envelopeValue, length_encode_object, List.map_cons, List.sum_cons]
    omega
  have conforms : standardCbor.Conforms := fun _ => rfl
  rw [writeFramedMessage_ok, conforms]
  have one : (head 4 1).length = 1 := rfl
  simp only [askedAnswer, List.map_cons, List.map_nil, List.sum_cons, List.sum_nil,
    List.length_singleton, one] at sizes ⊢
  omega

/-- An offer of thirty thousand files makes an event that no frame can carry, and it stays the
next one after the cursor. -/
theorem large_offer_unreadable :
    ¬ ∀ h : Hub Value, Reaches turnStep anyStep (Hub.start "g1") h →
      ∀ work snapshot, answerOf h work = some snapshot →
        (writeFramedMessage standardCbor (responseValue (feedResponse "1" snapshot))).isOk =
          true := by
  intro readable
  have long := length_transferIncoming standardCbor.float "t1" "n1" "Phone" "fp" false
    (sampleItems 30000) (30000 * 4096) 0
  rw [sampleItems_length] at long
  have beyond : localIpcMaxFrameLen <
      (encode standardCbor.float (sampleOffer 30000)).length :=
    lt_of_lt_of_le (by decide) long
  exact asked_unreadable "transfer_incoming" (sampleOffer 30000) beyond
    (readable _ (reaches_asked _ _) _ _ (answer_asked _ _))

end DashDrop.Ipc.FeedFrames
