/- GID: DashDrop/Transport/Wire
   source: src-tauri/src/transport/protocol.rs
   anchors: []
   digest: Messages behind their length on the control and chunk streams. -/

import DashDrop.Foundation.Framing
import DashDrop.Runtime.Machine

set_option autoImplicit false
set_option relaxedAutoImplicit false

namespace DashDrop.Transport.Wire

open DashDrop.Foundation.Cbor DashDrop.Foundation.FileTree DashDrop.Foundation.Framing
open DashDrop.Foundation.Json
open DashDrop.Runtime.Machine DashDrop.Transport.Protocol

/-- `MAX_MESSAGE_SIZE`: 16 MiB. -/
def maxMessageSize : ℕ := 16 * 1024 * 1024

/-- `ciborium` on the messages, and the text of a `read_exact` cut short. -/
structure Codec where
  intoWriter : DashMessage → Except String Bytes
  fromReader : Bytes → Except String DashMessage
  finishedEarly : ℕ → String

def Codec.RoundTrips (codec : Codec) : Prop :=
  ∀ m body, codec.intoWriter m = .ok body → codec.fromReader body = .ok m

section Codec

variable (codec : Codec)

def writeMessage (m : DashMessage) : Except WriteFault Bytes :=
  match codec.intoWriter m with
  | .error cause => .error (.serialize cause)
  | .ok buf =>
    -- `buf.len() as u32`, before the size is checked
    let len := buf.length % 2 ^ 32
    if len > maxMessageSize then .error (.tooLarge len) else .ok (bigEndian 4 len ++ buf)

/-- The message that a call returns, and the bytes it leaves on the stream. -/
def readMessage (stream : Bytes) : Except ReadFault (DashMessage × Bytes) :=
  match splitFrame 4 maxMessageSize stream with
  | .error (.noLength n) => .error (.len (codec.finishedEarly n))
  | .error (.tooLong n) => .error (.tooLarge n)
  | .error (.cut n) => .error (.body (codec.finishedEarly n))
  | .ok (buf, rest) =>
    match codec.fromReader buf with
    | .error cause => .error (.decode cause)
    | .ok m => .ok (m, rest)

/-- Messages written one after another: those that were written, and the stream. -/
def writeMessages : List DashMessage → List DashMessage × Bytes
  | [] => ([], [])
  | m :: rest =>
    let later := writeMessages rest
    match writeMessage codec m with
    | .error _ => later
    | .ok frame => (m :: later.1, frame ++ later.2)

theorem length_of_readMessage {stream rest : Bytes} {m : DashMessage}
    (h : readMessage codec stream = .ok (m, rest)) : rest.length < stream.length := by
  unfold readMessage at h
  match split : splitFrame 4 maxMessageSize stream with
  | .error (.noLength _) | .error (.tooLong _) | .error (.cut _) =>
    rw [split] at h
    cases h
  | .ok (buf, left) =>
    rw [split] at h
    have taken := length_of_splitFrame split
    match decoded : codec.fromReader buf with
    | .error _ =>
      simp only [decoded] at h
      cases h
    | .ok _ =>
      simp only [decoded] at h
      cases h
      omega

/-- Calls until one fails: the messages they return, and the bytes left then. -/
def readMessages (stream : Bytes) : List DashMessage × Bytes :=
  match _read : readMessage codec stream with
  | .error _ => ([], stream)
  | .ok (m, rest) =>
    let later := readMessages rest
    (m :: later.1, later.2)
termination_by stream.length
decreasing_by exact length_of_readMessage codec _read

theorem readMessages_ok {stream rest : Bytes} {m : DashMessage}
    (h : readMessage codec stream = .ok (m, rest)) :
    readMessages codec stream =
      (m :: (readMessages codec rest).1, (readMessages codec rest).2) := by
  rw [readMessages]
  split
  case h_1 _ failed =>
    rw [h] at failed
    cases failed
  case h_2 _ _ read =>
    rw [h] at read
    cases read
    rfl

theorem readMessages_error {stream : Bytes} {fault : ReadFault}
    (h : readMessage codec stream = .error fault) : readMessages codec stream = ([], stream) := by
  rw [readMessages]
  split
  case h_1 => rfl
  case h_2 _ _ read =>
    rw [h] at read
    cases read

end Codec

section Frame

variable {codec : Codec} {m : DashMessage} {frame body : Bytes}

theorem writeMessage_ok (h : writeMessage codec m = .ok frame) :
    ∃ body, codec.intoWriter m = .ok body ∧ body.length % 2 ^ 32 ≤ maxMessageSize ∧
      frame = bigEndian 4 (body.length % 2 ^ 32) ++ body := by
  unfold writeMessage at h
  match written : codec.intoWriter m with
  | .error _ =>
    rw [written] at h
    cases h
  | .ok body =>
    rw [written] at h
    simp only at h
    split_ifs at h with large
    cases h
    exact ⟨body, rfl, Nat.not_lt.mp large, rfl⟩

theorem writeMessage_of_ok (written : codec.intoWriter m = .ok body)
    (fits : body.length % 2 ^ 32 ≤ maxMessageSize) :
    writeMessage codec m = .ok (bigEndian 4 (body.length % 2 ^ 32) ++ body) := by
  unfold writeMessage
  rw [written]
  exact if_neg (Nat.not_lt.mpr fits)

def lengthPrefix (frame : Bytes) : ℕ := ofBigEndian (frame.take 4)

theorem lengthPrefix_bigEndian (n : ℕ) (body : Bytes) :
    lengthPrefix (bigEndian 4 (n % 2 ^ 32) ++ body) = n % 2 ^ 32 := by
  have lead : (bigEndian 4 (n % 2 ^ 32)).length = 4 := length_bigEndian _ _
  rw [lengthPrefix, List.take_append_of_le_length lead.ge, List.take_of_length_le lead.le,
    ofBigEndian_bigEndian]
  omega

theorem drop_bigEndian (n : ℕ) (body : Bytes) : (bigEndian 4 n ++ body).drop 4 = body := by
  have lead : (bigEndian 4 n).length = 4 := length_bigEndian _ _
  rw [List.drop_append_of_le_length lead.ge, List.drop_eq_nil_of_le lead.le, List.nil_append]

theorem readMessage_frame (round : codec.RoundTrips) (written : codec.intoWriter m = .ok body)
    (short : body.length < 2 ^ 32) (fits : body.length ≤ maxMessageSize) (rest : Bytes) :
    readMessage codec (bigEndian 4 body.length ++ (body ++ rest)) = .ok (m, rest) := by
  have split : splitFrame 4 maxMessageSize (bigEndian 4 body.length ++ (body ++ rest)) =
      .ok (body, rest) := splitFrame_frame rest short fits
  unfold readMessage
  simp only [split, round m body written]

end Frame

/-- The encoded message is shorter than 4 GiB, or what `as u32` leaves of its length is still too
large to send. -/
def Measured (codec : Codec) (m : DashMessage) : Prop :=
  ∀ body, codec.intoWriter m = .ok body →
    body.length < 2 ^ 32 ∨ maxMessageSize < body.length % 2 ^ 32

/-- What a stream of messages owes its reader. -/
structure Faithful (codec : Codec) (ms : List DashMessage) : Prop where
  lengths : ∀ m ∈ ms, ∀ frame, writeMessage codec m = .ok frame →
    lengthPrefix frame = (frame.drop 4).length
  read : readMessages codec (writeMessages codec ms).2 = ((writeMessages codec ms).1, [])

section Streams

variable {codec : Codec}

theorem readMessages_nil (codec : Codec) : readMessages codec [] = ([], []) :=
  readMessages_error codec
    (show readMessage codec [] = .error (.len (codec.finishedEarly 0)) from rfl)

theorem lengths_of_measured {m : DashMessage} {frame : Bytes} (measured : Measured codec m)
    (h : writeMessage codec m = .ok frame) :
    ∃ body, codec.intoWriter m = .ok body ∧ body.length < 2 ^ 32 ∧
      body.length ≤ maxMessageSize ∧ frame = bigEndian 4 body.length ++ body := by
  obtain ⟨body, written, fits, rfl⟩ := writeMessage_ok h
  have short : body.length < 2 ^ 32 := by
    have either := measured body written
    omega
  have same : body.length % 2 ^ 32 = body.length := Nat.mod_eq_of_lt short
  rw [same] at fits ⊢
  exact ⟨body, written, short, fits, rfl⟩

theorem read_of_measured (round : codec.RoundTrips) {ms : List DashMessage}
    (measured : ∀ m ∈ ms, Measured codec m) :
    readMessages codec (writeMessages codec ms).2 = ((writeMessages codec ms).1, []) := by
  induction ms with
  | nil => exact readMessages_nil codec
  | cons m rest ih =>
    have later := ih fun m' inside => measured m' (List.mem_cons_of_mem _ inside)
    match sent : writeMessage codec m with
    | .error _ => simpa only [writeMessages, sent] using later
    | .ok frame =>
      obtain ⟨body, written, short, fits, rfl⟩ :=
        lengths_of_measured (measured m List.mem_cons_self) sent
      have first := readMessage_frame round written short fits (writeMessages codec rest).2
      simp only [writeMessages, sent, List.append_assoc]
      rw [readMessages_ok codec first, later]

theorem measured_of_lengths {m : DashMessage}
    (lengths : ∀ frame, writeMessage codec m = .ok frame →
      lengthPrefix frame = (frame.drop 4).length) : Measured codec m := by
  intro body written
  by_cases fits : body.length % 2 ^ 32 ≤ maxMessageSize
  · have same := lengths _ (writeMessage_of_ok written fits)
    rw [lengthPrefix_bigEndian, drop_bigEndian] at same
    omega
  · exact Or.inr (Nat.not_le.mp fits)

/-- A list of messages is read back, each behind its length, exactly when no encoded message is
4 GiB or more and within 16 MiB above a multiple of 4 GiB. -/
theorem read_back_iff_measured (round : codec.RoundTrips) (ms : List DashMessage) :
    Faithful codec ms ↔ ∀ m ∈ ms, Measured codec m := by
  constructor
  · intro faithful m inside
    exact measured_of_lengths (faithful.lengths m inside)
  · intro measured
    refine ⟨fun m inside frame sent => ?_, read_of_measured round measured⟩
    obtain ⟨body, _, short, _, rfl⟩ := lengths_of_measured (measured m inside) sent
    have number := lengthPrefix_bigEndian body.length body
    rw [Nat.mod_eq_of_lt short] at number
    rw [number, drop_bigEndian]

def onlyMessage (m : DashMessage) (body : Bytes) : Codec :=
  { intoWriter := fun m' => if m' = m then .ok body else .error "unknown message"
    fromReader := fun bytes => if bytes = body then .ok m else .error "unknown body"
    finishedEarly := fun n => "stream finished early (" ++ toString n ++ " bytes read)" }

theorem onlyMessage_roundTrips (m : DashMessage) (body : Bytes) :
    (onlyMessage m body).RoundTrips := by
  intro m' body' written
  simp only [onlyMessage] at written ⊢
  split_ifs at written with same
  cases written
  rw [if_pos rfl, same]

/-- How `ciborium` writes `Cancel`. -/
def cancelBody : Bytes :=
  encode (fun _ => []) (.object [("Cancel", .object [("reason", .string "UserCancelled")])])

theorem cancel_read_back :
    cancelBody.length = 30 ∧
      Faithful (onlyMessage (.cancel ⟨.userCancelled⟩) cancelBody)
        [.cancel ⟨.userCancelled⟩, .cancel ⟨.userCancelled⟩] := by
  have thirty : cancelBody.length = 30 := by decide
  refine ⟨thirty, (read_back_iff_measured (onlyMessage_roundTrips _ _) _).mpr ?_⟩
  intro m inside body written
  simp only [List.mem_cons, List.not_mem_nil, or_false, or_self] at inside
  subst inside
  simp only [onlyMessage, if_true, Except.ok.injEq] at written
  subst written
  rw [thirty]
  decide

/-- A chunk of so many zero bytes, as `ciborium` writes it: every byte of `data` is a number. -/
def chunkBody (n : ℕ) : Bytes :=
  encode (fun _ => []) (.object [("Chunk", .object [("file_id", .nat 7), ("chunk_id", .nat 0),
    ("offset", .nat 0), ("data", .array (List.replicate n (.nat 0)))])])

def zeroChunk (n : ℕ) : DashMessage := .chunk ⟨7, 0, 0, List.replicate n 0⟩

theorem length_chunkBody {n : ℕ} (large : 2 ^ 16 ≤ n) (small : n < 2 ^ 32) :
    (chunkBody n).length = 45 + n := by
  have data : (encode (fun _ => []) (.array (List.replicate n (.nat 0)))).length = 5 + n := by
    rw [length_encode_replicate]
    have five : (head 4 n).length = 5 := by
      rw [head, if_neg (by omega), if_neg (by omega), if_neg (by omega), if_pos small,
        List.length_cons, length_bigEndian]
    have one : (encode (fun _ => []) (.nat 0)).length = 1 := by decide
    rw [five, one, Nat.mul_one]
  have names : (text "Chunk").length = 6 ∧ (text "file_id").length = 8 ∧
      (text "chunk_id").length = 9 ∧ (text "offset").length = 7 ∧ (text "data").length = 5 := by
    decide
  have numbers : (encode (fun _ => []) (.nat 0)).length = 1 ∧
      (encode (fun _ => []) (.nat 7)).length = 1 := by
    decide
  have heads : (head 5 1).length = 1 ∧ (head 5 4).length = 1 := by decide
  rw [chunkBody]
  simp only [length_encode_object, List.map_cons, List.map_nil, List.sum_cons, List.sum_nil, data,
    List.length_cons, List.length_nil, Nat.zero_add, Nat.reduceAdd]
  omega

/-- A body of 4 GiB goes out behind the number 0, and an empty body decodes to no message. -/
theorem unread_of_wrapped {m : DashMessage} {body : Bytes} (full : body.length = 2 ^ 32) :
    (writeMessages (onlyMessage m body) [m]).1 = [m] ∧
      (readMessages (onlyMessage m body) (writeMessages (onlyMessage m body) [m]).2).1 = [] := by
  have written : (onlyMessage m body).intoWriter m = .ok body := if_pos rfl
  have wrapped : body.length % 2 ^ 32 = 0 := by omega
  have sent := writeMessage_of_ok written (by rw [wrapped]; exact Nat.zero_le _)
  rw [wrapped] at sent
  have failed : readMessage (onlyMessage m body) (bigEndian 4 0 ++ body) =
      .error (.decode "unknown body") := by
    have split : splitFrame 4 maxMessageSize (bigEndian 4 ([] : Bytes).length ++ ([] ++ body)) =
      .ok ([], body) := splitFrame_frame body (by decide) (by decide)
    have undecoded : (onlyMessage m body).fromReader [] = .error "unknown body" := by
      apply if_neg
      intro empty
      rw [← empty] at full
      cases full
    rw [List.length_nil, List.nil_append] at split
    unfold readMessage
    simp only [split, undecoded]
  simp only [writeMessages, sent, List.append_nil, true_and]
  rw [readMessages_error _ failed]

theorem not_faithful_of_unread {m : DashMessage}
    (unread : (writeMessages codec [m]).1 = [m] ∧
      (readMessages codec (writeMessages codec [m]).2).1 = []) : ¬ Faithful codec [m] := by
  intro faithful
  have back := congrArg Prod.fst faithful.read
  rw [unread.1, unread.2] at back
  cases back

theorem four_gib_chunk_unread :
    let m := zeroChunk (2 ^ 32 - 45)
    let codec := onlyMessage m (chunkBody (2 ^ 32 - 45))
    codec.RoundTrips ∧ (writeMessages codec [m]).1 = [m] ∧
      (readMessages codec (writeMessages codec [m]).2).1 = [] ∧ ¬ Faithful codec [m] := by
  have full : (chunkBody (2 ^ 32 - 45)).length = 2 ^ 32 := by
    have length := length_chunkBody (n := 2 ^ 32 - 45) (by omega) (by omega)
    omega
  have unread := unread_of_wrapped (m := zeroChunk (2 ^ 32 - 45)) full
  exact ⟨onlyMessage_roundTrips _ _, unread.1, unread.2, not_faithful_of_unread unread⟩

end Streams

end DashDrop.Transport.Wire
