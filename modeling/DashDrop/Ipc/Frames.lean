/- GID: DashDrop/Ipc/Frames
   source: src-tauri/src/local_ipc.rs, src-tauri/src/daemon/server.rs, src-tauri/src/state.rs
   anchors: []
   digest: The frame of an event feed response, and when it stays within the frame limit. -/

import DashDrop.Events.Hints
import DashDrop.Foundation.Cbor
import DashDrop.Ipc.Commands

set_option autoImplicit false
set_option relaxedAutoImplicit false

namespace DashDrop.Ipc.Frames

open DashDrop.Foundation.Json DashDrop.Foundation.Cbor
open DashDrop.Foundation.Numbering DashDrop.Foundation.Transitions
open DashDrop.Events.Journal DashDrop.Events.Feed DashDrop.Events.Replay DashDrop.Events.Hints
open DashDrop.Ipc.Commands

def localIpcMaxFrameLen : ℕ := 1024 * 1024

def ReplaySource.text : ReplaySource → String
  | .resyncRequired => "resync_required"
  | .empty => "empty"
  | .persistedCatchUp => "persisted_catch_up"
  | .memoryHotWindow => "memory_hot_window"

def ResyncReason.text : ResyncReason → String
  | .cursorAfterLatestAvailable => "cursor_after_latest_available"
  | .cursorBeforeOldestAvailable => "cursor_before_oldest_available"
  | .persistedJournalUnavailable => "persisted_journal_unavailable"
  | .persistedCatchUpEmpty => "persisted_catch_up_empty"

def envelopeValue (envelope : RuntimeEventEnvelope Value) : Value :=
  .object [("emitted_at_unix_ms", .nat envelope.emittedAtUnixMs), ("event", .string envelope.event),
    ("payload", envelope.payload), ("seq", .nat envelope.seq)]

/-- `serde_json::to_value(feed)`; a missing reason is left out. -/
def snapshotValue (snapshot : RuntimeEventFeedSnapshot Value) : Value :=
  .object ([("events", .array (snapshot.events.map envelopeValue)),
    ("generation", .string snapshot.generation),
    ("latest_available_seq", .nat snapshot.latestAvailableSeq),
    ("oldest_available_seq", .opt .nat snapshot.oldestAvailableSeq),
    ("replay_source", .string (ReplaySource.text snapshot.replaySource))] ++
    (snapshot.resyncReason.map fun reason =>
      ("resync_reason", Value.string (ResyncReason.text reason))).toList ++
    [("resync_required", .bool snapshot.resyncRequired)])

/-- The two forms of a response, written without a tag; a missing payload is left out. -/
def responseValue : LocalIpcWireResponse → Value
  | .ok requestId protoVersion payload =>
      .object ([("proto_version", .nat protoVersion), ("request_id", .string requestId),
        ("ok", .bool true)] ++ (payload.map fun value => ("payload", value)).toList)
  | .err requestId protoVersion error =>
      .object [("proto_version", .nat protoVersion), ("request_id", .string requestId),
        ("ok", .bool false), ("error", .object [("code", .string error.code),
          ("message", .string error.message)])]

/-- `ciborium::into_writer`, and how it writes floating point numbers. -/
structure Ciborium where
  intoWriter : Value → List UInt8
  float : BitVec 64 → List UInt8

/-- It writes CBOR with definite lengths and shortest heads. -/
def Ciborium.Conforms (cbor : Ciborium) : Prop :=
  ∀ value, cbor.intoWriter value = encode cbor.float value

inductive LocalIpcCodecError where
  | frameTooLarge (len : ℕ)
  deriving DecidableEq

def encodeMessage (cbor : Ciborium) (value : Value) : Except LocalIpcCodecError (List UInt8) :=
  let bytes := cbor.intoWriter value
  if bytes.length > localIpcMaxFrameLen then .error (.frameTooLarge bytes.length) else .ok bytes

/-- The length in four bytes and the body, as they go to the stream. -/
def writeFrameBytes (bytes : List UInt8) : Except LocalIpcCodecError (List UInt8) :=
  if bytes.length > localIpcMaxFrameLen then .error (.frameTooLarge bytes.length)
  else .ok (bigEndian 4 bytes.length ++ bytes)

/-- `write_framed_message`; on an error `handle_connection` returns and the connection closes. -/
def writeFramedMessage (cbor : Ciborium) (value : Value) :
    Except LocalIpcCodecError (List UInt8) := do
  writeFrameBytes (← encodeMessage cbor value)

/-- The reply to `app/get_event_feed`. -/
def feedResponse (requestId : String) (snapshot : RuntimeEventFeedSnapshot Value) :
    LocalIpcWireResponse :=
  .ok requestId localIpcProtoVersion (some (snapshotValue snapshot))

theorem writeFramedMessage_ok (cbor : Ciborium) (value : Value) :
    (writeFramedMessage cbor value).isOk = true ↔
      (cbor.intoWriter value).length ≤ localIpcMaxFrameLen := by
  unfold writeFramedMessage encodeMessage
  simp only
  by_cases large : (cbor.intoWriter value).length > localIpcMaxFrameLen
  · rw [if_pos large]
    constructor
    · intro h
      cases h
    · intro h
      omega
  · rw [if_neg large]
    have small : writeFrameBytes (cbor.intoWriter value) =
        .ok (bigEndian 4 (cbor.intoWriter value).length ++ cbor.intoWriter value) := if_neg large
    constructor
    · intro _
      omega
    · intro _
      show (writeFrameBytes (cbor.intoWriter value)).isOk = true
      rw [small]
      rfl

section Length

variable (float : BitVec 64 → List UInt8)

/-- A response is as long as the one without its events, its one byte for an empty list replaced
by the head of the list and the events. -/
theorem length_feedResponse (requestId : String) (snapshot : RuntimeEventFeedSnapshot Value) :
    (encode float (responseValue (feedResponse requestId snapshot))).length + 1 =
      (encode float (responseValue (feedResponse requestId { snapshot with events := [] }))).length +
        (head 4 snapshot.events.length).length +
        (snapshot.events.map fun event => (encode float (envelopeValue event)).length).sum := by
  have list (events : List (RuntimeEventEnvelope Value)) :
      (encode float (.array (events.map envelopeValue))).length = (head 4 events.length).length +
        (events.map fun event => (encode float (envelopeValue event)).length).sum := by
    rw [length_encode_array, List.length_map, List.map_map]
    rfl
  have none_listed : (encode float (.array [])).length = 1 := by
    simp [length_encode_array, head]
  simp only [feedResponse, responseValue, snapshotValue, Option.map_some, Option.toList_some,
    length_encode_object, List.map_append, List.sum_append, List.map_cons, List.sum_cons, list,
    List.map_nil, List.sum_nil, List.length_nil, none_listed, List.length_append, List.length_cons]
  omega

end Length

section Answers

variable {s : Session Value} {lo c limit : ℕ}

/-- What a cursor is owed: the first `limit` events recorded after it, for a start at 0 those of
the hot window, and nothing where the marks ask for a resync. -/
def owed (s : Session Value) (afterSeq limit : ℕ) : List (RuntimeEventEnvelope Value) :=
  if (s.app.request afterSeq limit).marksReason.isSome then []
  else if afterSeq = 0 then
    (s.recorded.drop (s.app.runtimeEventSeq - runtimeEventFeedCapacity)).take limit
  else (s.recorded.drop afterSeq).take limit

/-- Why the marks and the limit ask for a resync: a catch-up of no events counts as failed. -/
def reasonOf (request : FeedRequest) : Option ResyncReason :=
  if request.limit = 0 ∧ request.needsPersistedCatchUp = true ∧ request.afterSeq < request.latest then
    some .persistedCatchUpEmpty
  else request.marksReason

def answer (s : Session Value) (afterSeq limit : ℕ) : RuntimeEventFeedSnapshot Value :=
  let request := s.app.request afterSeq limit
  let marks : RuntimeEventFeedSnapshot Value :=
    { events := owed s afterSeq limit
      generation := request.generation
      oldestAvailableSeq := request.oldestAvailable
      latestAvailableSeq := request.latest
      resyncRequired := (reasonOf request).isSome
      replaySource := .empty
      resyncReason := reasonOf request }
  { marks with replaySource := sourceOf request marks }

theorem feed_eq_recorded (h : Coherent lo s) :
    s.app.runtimeEventFeed =
      s.recorded.drop (s.app.runtimeEventSeq - runtimeEventFeedCapacity) := by
  have tail := h.recorded.drop (s.app.runtimeEventSeq - runtimeEventFeedCapacity)
  have same : 1 + (s.app.runtimeEventSeq - runtimeEventFeedCapacity) =
      s.app.runtimeEventSeq + 1 - min s.app.runtimeEventSeq 1024 := by
    show 1 + (s.app.runtimeEventSeq - 1024) = _
    omega
  rw [same] at tail
  refine h.feed.eq_of_named tail fun a ha b hb named => ?_
  exact h.recorded.named (h.hot a ha) (List.mem_of_mem_drop hb) named

theorem events_since (h : Coherent lo s) (first : 1 ≤ c) (some_room : 1 ≤ limit)
    (known : c ≤ s.app.runtimeEventSeq) (kept : lo ≤ c + 1) :
    (s.app.runtimeEventsSince c limit s.db).events = (s.recorded.drop c).take limit := by
  have serves : Serves s.app.runtimeEventGeneration c s := ⟨⟨lo, h, kept⟩, rfl, known⟩
  obtain ⟨_, events, recorded⟩ := serves.answer first some_room
  have tail := (h.recorded.drop c).take limit
  rw [show min (1 + c + limit) (s.app.runtimeEventSeq + 1) =
    min (c + limit) s.app.runtimeEventSeq + 1 by omega, Nat.add_comm 1 c] at tail
  refine events.eq_of_named tail fun a ha b hb named => ?_
  exact h.recorded.named (recorded a ha) (List.mem_of_mem_drop (List.mem_of_mem_take hb)) named

theorem answer_fields (app : EventState Value) (afterSeq limit : ℕ) (db : EventDb Value) :
    (app.runtimeEventsSince afterSeq limit db).generation = app.runtimeEventGeneration ∧
      (app.runtimeEventsSince afterSeq limit db).oldestAvailableSeq =
        (app.request afterSeq limit).oldestAvailable ∧
      (app.runtimeEventsSince afterSeq limit db).latestAvailableSeq = app.runtimeEventSeq ∧
      (app.runtimeEventsSince afterSeq limit db).resyncRequired =
        (app.runtimeEventsSince afterSeq limit db).resyncReason.isSome := by
  unfold EventState.runtimeEventsSince FeedRequest.serve
  simp only
  split
  · exact ⟨rfl, rfl, rfl, rfl⟩
  · split
    · exact ⟨rfl, rfl, rfl, rfl⟩
    · exact ⟨rfl, rfl, rfl, rfl⟩

theorem answer_of_parts {afterSeq : ℕ}
    (events : (s.app.runtimeEventsSince afterSeq limit s.db).events = owed s afterSeq limit)
    (reason : (s.app.runtimeEventsSince afterSeq limit s.db).resyncReason =
      reasonOf (s.app.request afterSeq limit)) :
    s.app.runtimeEventsSince afterSeq limit s.db = answer s afterSeq limit := by
  obtain ⟨generation, oldest, latest, resync⟩ := answer_fields s.app afterSeq limit s.db
  have source := runtimeEventsSince_source s.app afterSeq limit s.db
  rw [reason] at resync
  generalize s.app.runtimeEventsSince afterSeq limit s.db = snapshot at *
  obtain ⟨_, _, _, _, _, _, _⟩ := snapshot
  simp only at events generation oldest latest resync reason source
  subst events generation oldest latest resync reason
  rw [source]
  rfl

theorem answer_of_unread {afterSeq : ℕ}
    (unread : limit = 0 ∨ (s.app.request afterSeq limit).marksReason.isSome = true) :
    s.app.runtimeEventsSince afterSeq limit s.db = answer s afterSeq limit := by
  have nothing : owed s afterSeq limit = [] := by
    unfold owed
    rcases unread with rfl | asked
    · split_ifs <;> simp
    · rw [if_pos asked]
  have served : s.app.runtimeEventsSince afterSeq limit s.db =
      (s.app.request afterSeq limit).respond [] (s.app.request afterSeq limit).marksReason := by
    unfold EventState.runtimeEventsSince FeedRequest.serve
    simp only
    rw [if_pos (by exact unread), Option.getD_some]
  apply answer_of_parts
  · rw [served, nothing]
    simp [FeedRequest.respond]
  · rw [served]
    simp only [FeedRequest.respond, reasonOf, List.isEmpty_nil, and_true]
    -- A catch-up is needed only where the marks ask for nothing.
    have needs (h : (s.app.request afterSeq limit).needsPersistedCatchUp = true) :
        (s.app.request afterSeq limit).marksReason = none := (decide_eq_true_eq.mp h).2.1
    by_cases cold : (s.app.request afterSeq limit).needsPersistedCatchUp = true
    · have none_left : limit = 0 := by
        rcases unread with zero | asked
        · exact zero
        · rw [needs cold] at asked
          cases asked
      have zero : (s.app.request afterSeq limit).limit = 0 := none_left
      simp only [cold, needs cold, zero, true_and]
    · simp only [cold, false_and, and_false, if_false, Bool.false_eq_true]

theorem runtimeEventsSince_eq (h : Coherent lo s) (afterSeq limit : ℕ) :
    s.app.runtimeEventsSince afterSeq limit s.db = answer s afterSeq limit := by
  by_cases unread : limit = 0 ∨ (s.app.request afterSeq limit).marksReason.isSome = true
  · exact answer_of_unread unread
  have some_room : 1 ≤ limit := by
    have room : limit ≠ 0 := fun zero => unread (.inl zero)
    omega
  have calm : (s.app.request afterSeq limit).marksReason = none := by
    rw [← Option.not_isSome_iff_eq_none]
    exact fun asked => unread (.inr asked)
  have reason : reasonOf (s.app.request afterSeq limit) = none := by
    unfold reasonOf
    have room : (s.app.request afterSeq limit).limit = limit := rfl
    rw [if_neg (by omega), calm]
  by_cases start : afterSeq = 0
  · -- From the start the feed answers as a whole.
    subst start
    have positive : s.app.runtimeEventFeed.filter (fun event => event.seq > 0) =
        s.app.runtimeEventFeed := by
      rw [List.filter_eq_self]
      intro event mem
      have numbered := (h.feed.bounds mem).1
      simp only [gt_iff_lt, decide_eq_true_eq]
      omega
    have cold : (s.app.request 0 limit).needsPersistedCatchUp = false := by
      simp [FeedRequest.needsPersistedCatchUp, EventState.request]
    have served : s.app.runtimeEventsSince 0 limit s.db = (s.app.request 0 limit).respond
        (s.app.runtimeEventFeed.take limit) none := by
      unfold EventState.runtimeEventsSince FeedRequest.serve
      simp only
      rw [if_neg (by exact unread), if_neg (by simp [cold]), Option.getD_some]
      exact congrArg (fun feed => (s.app.request 0 limit).respond (feed.take limit) none) positive
    apply answer_of_parts
    · rw [served, owed, calm, feed_eq_recorded h]
      simp [FeedRequest.respond, cold]
    · rw [served, reason]
      simp [FeedRequest.respond, cold]
  · have first : 1 ≤ afterSeq := by omega
    have bounds : afterSeq ≤ s.app.runtimeEventSeq := by
      by_contra past
      have asked : (s.app.request afterSeq limit).marksReason =
          some .cursorAfterLatestAvailable := by
        unfold FeedRequest.marksReason
        have after : (s.app.request afterSeq limit).afterSeq = afterSeq := rfl
        have latest : (s.app.request afterSeq limit).latest = s.app.runtimeEventSeq := rfl
        rw [after, latest, if_neg start, if_pos (by omega)]
      rw [asked] at calm
      cases calm
    obtain ⟨f, marks⟩ := marks_of_coherent h (by omega)
    have kept : lo ≤ afterSeq + 1 := by
      by_contra behind
      rw [marksReason_eq marks first bounds, if_pos (by omega)] at calm
      cases calm
    have serves : Serves s.app.runtimeEventGeneration afterSeq s := ⟨⟨lo, h, kept⟩, rfl, bounds⟩
    obtain ⟨answered, _, _⟩ := serves.answer first some_room
    apply answer_of_parts
    · rw [events_since h first some_room bounds kept, owed, calm]
      simp [start]
    · rw [(answer_fields s.app afterSeq limit s.db).2.2.2] at answered
      rw [reason]
      exact Option.not_isSome_iff_eq_none.mp (by simp [answered])

end Answers

theorem frame_fits_iff {s : Session Value} {lo : ℕ} (h : Coherent lo s) {cbor : Ciborium}
    (conforms : cbor.Conforms) (requestId : String) (afterSeq limit : ℕ) :
    (writeFramedMessage cbor (responseValue (feedResponse requestId
        (s.app.runtimeEventsSince afterSeq limit s.db)))).isOk = true ↔
      (cbor.intoWriter (responseValue (feedResponse requestId
          { answer s afterSeq limit with events := [] }))).length +
        (head 4 (owed s afterSeq limit).length).length +
        ((owed s afterSeq limit).map fun event =>
          (cbor.intoWriter (envelopeValue event)).length).sum ≤ localIpcMaxFrameLen + 1 := by
  have sizes := length_feedResponse cbor.float requestId (answer s afterSeq limit)
  have listed : (answer s afterSeq limit).events = owed s afterSeq limit := rfl
  rw [listed] at sizes
  simp only [writeFramedMessage_ok, runtimeEventsSince_eq h, conforms _]
  omega

/-- Where calls follow one another and no append fails, what a cursor is owed is what was recorded
after it. -/
theorem recorded_feed_fits_iff {generation : String} {s : Session Value}
    (reached : Reaches sessionStep anyStep (Session.start generation) s) {cbor : Ciborium}
    (conforms : cbor.Conforms) (requestId : String) (afterSeq limit : ℕ) :
    (writeFramedMessage cbor (responseValue (feedResponse requestId
        (s.app.runtimeEventsSince afterSeq limit s.db)))).isOk = true ↔
      (cbor.intoWriter (responseValue (feedResponse requestId
          { answer s afterSeq limit with events := [] }))).length +
        (head 4 (owed s afterSeq limit).length).length +
        ((owed s afterSeq limit).map fun event =>
          (cbor.intoWriter (envelopeValue event)).length).sum ≤ localIpcMaxFrameLen + 1 := by
  obtain ⟨lo, coherent⟩ : ∃ lo, Coherent lo s :=
    reached.keeps (I := fun u => ∃ lo, Coherent lo u) ⟨1, coherent_start generation⟩
      fun ⟨_, h⟩ _ step => h.step step
  exact frame_fits_iff coherent conforms requestId afterSeq limit

def standardCbor : Ciborium :=
  let float (bits : BitVec 64) : List UInt8 := 0xfb :: bigEndian 8 bits.toNat
  ⟨encode float, float⟩

end DashDrop.Ipc.Frames
