/- GID: DashDrop/Receiving/Arrival
   source: src-tauri/src/transport/receiver.rs, src-tauri/src/transport/sender.rs
   anchors: []
   digest: Files that an honest sender streams side by side arrive whole. -/

import DashDrop.Foundation.FrameStreams
import DashDrop.Receiving.SideBySide
import DashDrop.Sending.FileChunks
import DashDrop.Transport.Wire

set_option autoImplicit false
set_option relaxedAutoImplicit false

namespace DashDrop.Receiving.Arrival

open DashDrop.Foundation.UnixPath DashDrop.Foundation.FileTree
open DashDrop.Foundation.Program DashDrop.Foundation.Interleaving
open DashDrop.Transport.Protocol DashDrop.Transport.Outcome DashDrop.Transport.PathValidation
open DashDrop.Transport.Receiver DashDrop.Transport.DiskNames
open DashDrop.Runtime.State DashDrop.Runtime.Machine
open DashDrop.Receiving.Integrity DashDrop.Receiving.Bounds DashDrop.Receiving.Separation
open DashDrop.Receiving.SideBySide
open DashDrop.Foundation.Cbor DashDrop.Foundation.FrameStreams
open DashDrop.Sending.FileChunks DashDrop.Transport.FileStream DashDrop.Transport.Wire

section Offer

variable {blake3 : Bytes → Digest} {saveRoot : PathBuf} {id : String}
variable {strategy : FileConflictStrategy} {receipts : List Receipt} {i : ℕ} {r : Receipt}
variable {items : List FileItem} {w : World}

def Fresh (saveRoot : PathBuf) (strategy : FileConflictStrategy) (r : Receipt) (w : World) : Prop :=
  ∀ q ∈ targets saveRoot strategy r, content w.fs (tempPathFor q).resolve = none

/-- The tasks of an offer that work on entries of their own, with no part files in their way. -/
structure Admitted (saveRoot : PathBuf) (items : List FileItem) (receipts : List Receipt)
    (w : World) : Prop where
  offered : receipts.map Receipt.item = (dispatch saveRoot [] items).map Prod.fst
  separate : Separate w.config.fileConflictStrategy (dispatch saveRoot [] items)
  fresh : ∀ r ∈ receipts, r.item.fileType = .regularFile →
    Fresh saveRoot w.config.fileConflictStrategy r w

theorem Fresh.filled (fresh : Fresh saveRoot strategy r w) {q : PathBuf}
    (hq : q ∈ targets saveRoot strategy r) {c : Bytes} (filled : Filled w.fs r q c) :
    c = payload r.messages := by
  obtain ⟨front, hfront, rfl⟩ := filled
  have none_kept : kept w.fs r.item q = [] := by rw [kept, fresh q hq]
  obtain rfl : front = [] := hfront.elim id fun h => h.trans none_kept
  rfl

theorem Admitted.disjoint (h : Admitted saveRoot items receipts w) :
    Disjoint saveRoot w.config.fileConflictStrategy receipts := by
  intro i j r s other hr hs _
  exact h.separate i j _ _ other (task_of_receipt h.offered hr).1 (task_of_receipt h.offered hs).1

theorem Admitted.start (h : Admitted saveRoot items receipts w) :
    ∀ i x, (receipts.map (Receipt.prog blake3 saveRoot id))[i]? = some x →
      Safe exec free (Keeps blake3 saveRoot w.config.fileConflictStrategy receipts w.fs) i x
        (fun a w' => ∀ r, receipts[i]? = some r → r.item.fileType = .regularFile →
          Arrived blake3 saveRoot w.config.fileConflictStrategy receipts w.fs r a w') w :=
  receipts_safe h.disjoint h.offered

/-- Whatever fails and whatever the streams bring, at any time every place of a file holds what it
held before, or nothing, or all of a stream that is whole; and of an acknowledged file one does. -/
theorem Admitted.arrive (h : Admitted saveRoot items receipts w)
    {t : Pool Op Op.Resp World TaskResult}
    (run : Run exec free ⟨w, receipts.map (Receipt.prog blake3 saveRoot id)⟩ t)
    (here : receipts[i]? = some r) (regular : r.item.fileType = .regularFile) :
    (∀ q ∈ targets saveRoot w.config.fileConflictStrategy r,
      content t.world.fs q.resolve = content w.fs q.resolve ∨ content t.world.fs q.resolve = none ∨
        Whole blake3 r ∧ content t.world.fs q.resolve = some (payload r.messages)) ∧
    (t.result i = some (ackOf r.item true none) →
      ∃ q ∈ targets saveRoot w.config.fileConflictStrategy r,
        Whole blake3 r ∧ content t.world.fs q.resolve = some (payload r.messages)) := by
  have fresh := h.fresh r (List.mem_of_getElem? here) regular
  refine ⟨fun q hq => ?_, fun returned => ?_⟩
  · have turns := run.promised_invariant h.start (fun w' =>
      ∀ q ∈ targets saveRoot w.config.fileConflictStrategy r,
        Turns blake3 saveRoot w.config.fileConflictStrategy w.fs r (content w.fs q.resolve)
          (content w'.fs q.resolve))
      (fun q _ => .inl rfl) (fun j w₁ w₂ held kept q hq => by
        by_cases mine : j = i
        · subst mine
          exact (held q hq).trans (kept.placed r here regular q hq)
        · have mem : q ∈ own saveRoot w.config.fileConflictStrategy r := by
            simp only [own, places, regular]
            exact List.mem_append_left _ hq
          rw [kept.others q.resolve fun s found regular' q' hq' =>
            (h.disjoint i j r s (Ne.symm mine) here found regular' q mem q' hq').symm]
          exact held q hq) q hq
    rcases turns with same | gone | ⟨whole, f, hf, c, filled, all⟩
    · exact .inl same
    · exact .inr (.inl gone)
    · exact .inr (.inr ⟨whole, by rw [all, fresh.filled hf filled]⟩)
  · obtain ⟨q, hq, whole, -, c, filled, holds⟩ :=
      run.returned h.start (Pool.thread_of_result returned) r here regular rfl
    exact ⟨q, hq, whole, by rw [holds, fresh.filled hq filled]⟩

end Offer

section Honest

variable {codec : Codec}

def failure (codec : Codec) (stream : Bytes) : Stream :=
  match readMessage codec stream with
  | .error fault => [.error fault]
  | .ok _ => []

/-- What calls of `read_message` yield until one fails, and its error. -/
def incoming (codec : Codec) (stream : Bytes) : Stream :=
  let received := readMessages codec stream
  received.1.map .ok ++ failure codec received.2

theorem closing_failure (codec : Codec) (stream : Bytes) : closing (failure codec stream) = none := by
  unfold failure
  split <;> rfl

/-- The receiver reads what arrived of the stream that the sender wrote for its file, from the
beginning and up to any point. -/
def Sent (blake3 : Bytes → Digest) (codec : Codec) (source : Bytes) (r : Receipt) : Prop :=
  ∃ (reads : ℕ → ℕ) (transferred : Option ℕ) (arrived : ℕ),
    let written := (sendFile blake3 r.item.fileId source reads 0 transferred).written
    (∀ m ∈ written, ∃ body, codec.intoWriter m = .ok body ∧ body.length ≤ maxMessageSize) ∧
      r.messages = incoming codec ((writeMessages codec written).2.take arrived)

theorem readMessages_take (round : codec.RoundTrips) {ms : List DashMessage}
    (sendable : ∀ m ∈ ms, ∃ body, codec.intoWriter m = .ok body ∧ body.length ≤ maxMessageSize)
    (n : ℕ) : (readMessages codec ((writeMessages codec ms).2.take n)).1 <+: ms := by
  induction ms generalizing n with
  | nil => rw [writeMessages, List.take_nil, readMessages_nil]
  | cons m rest ih =>
    obtain ⟨body, written, fits⟩ := sendable m List.mem_cons_self
    have short : body.length < 2 ^ 32 := fits.trans_lt (by decide)
    have same : body.length % 2 ^ 32 = body.length := Nat.mod_eq_of_lt short
    have sent : writeMessage codec m = .ok (frame 4 body) := by
      rw [writeMessage_of_ok written (by rw [same]; exact fits), same, frame]
    simp only [writeMessages, sent]
    by_cases whole : 4 + body.length ≤ n
    · rw [take_frames_whole whole, frame, List.append_assoc,
        readMessages_ok codec (readMessage_frame round written short fits _)]
      exact List.cons_prefix_cons.mpr ⟨rfl, ih (fun m' h => sendable m' (List.mem_cons_of_mem _ h)) _⟩
    · obtain ⟨fault, failed, -⟩ := splitFrame_cut short fits (Nat.not_le.mp whole)
      have unread : ∃ fault, readMessage codec ((frame 4 body).take n) = .error fault := by
        unfold readMessage
        rw [failed]
        cases fault <;> exact ⟨_, rfl⟩
      obtain ⟨_, unread⟩ := unread
      rw [take_frames_cut (Nat.not_le.mp whole), readMessages_error codec unread]
      exact List.nil_prefix

theorem payload_of_closing {chunks : List ChunkPayload} {complete : CompletePayload}
    {received : List DashMessage} {tail : Stream} (nothing : closing tail = none)
    (front : received <+: chunks.map .chunk ++ [.complete complete])
    (ended : closing (received.map .ok ++ tail) ≠ none) :
    payload (received.map .ok ++ tail) = (chunks.map ChunkPayload.data).flatten := by
  induction chunks generalizing received with
  | nil =>
    cases received with
    | nil => exact absurd nothing ended
    | cons m rest =>
      obtain ⟨rfl, -⟩ := List.cons_prefix_cons.mp front
      rfl
  | cons chunk chunks ih =>
    cases received with
    | nil => exact absurd nothing ended
    | cons m rest =>
      obtain ⟨rfl, later⟩ := List.cons_prefix_cons.mp front
      exact congrArg (chunk.data ++ ·) (ih later ended)

theorem Sent.payload_eq {blake3 : Bytes → Digest} {source : Bytes} {r : Receipt}
    (sent : Sent blake3 codec source r) (round : codec.RoundTrips) (whole : Whole blake3 r) :
    payload r.messages = source := by
  obtain ⟨reads, transferred, arrived, sendable, brings⟩ := sent
  obtain ⟨-, complete, ended, -⟩ := whole
  have skipped : skipPrefix reads 0 (.start source) = .start source := by
    rw [skipPrefix, if_pos rfl]
  have written := (sendLoop_eq r.item.fileId reads ⟨.start source, [], transferred⟩).1
  rw [List.nil_append] at written
  have front := readMessages_take round sendable arrived
  simp only [sendFile, skipped, gt_iff_lt, lt_irrefl, if_false, written] at front brings
  rw [brings] at ended ⊢
  rw [incoming, payload_of_closing (closing_failure codec _) front]
  · exact (sendChunks_spec r.item.fileId reads (.start source)).1
  · rw [← incoming, ended]
    rintro ⟨⟩

/-- How `ciborium` writes `Complete`. -/
private def completeBody (complete : CompletePayload) : Bytes :=
  encode (fun _ => []) (.object [("Complete", .object [("file_id", .nat complete.fileId),
    ("file_hash", .array (complete.fileHash.bytes.toList.map fun b => .nat b.toNat))])])

private def lastMessage : CompletePayload := ⟨7, sampleHash [0]⟩

private def twoMessages : Codec where
  intoWriter m :=
    if m = zeroChunk 1 then .ok (chunkBody 1)
    else if m = .complete lastMessage then .ok (completeBody lastMessage)
    else .error "unknown message"
  fromReader bytes :=
    if bytes = chunkBody 1 then .ok (zeroChunk 1)
    else if bytes = completeBody lastMessage then .ok (.complete lastMessage)
    else .error "unknown body"
  finishedEarly n := "stream finished early (" ++ toString n ++ " bytes read)"

private theorem bodies_differ : completeBody lastMessage ≠ chunkBody 1 := by
  intro same
  have lengths := congrArg (List.take 2) same
  revert lengths
  decide

private theorem twoMessages_roundTrips : twoMessages.RoundTrips := by
  intro m body written
  simp only [twoMessages] at written ⊢
  split_ifs at written with first second
  · cases written
    rw [if_pos rfl, first]
  · cases written
    rw [if_neg bodies_differ, if_pos rfl, second]

private def zeroReceipt : Receipt where
  item := sampleItem
  firstMsg := zeroChunk 1
  rest := [.ok (.complete lastMessage), .error (.len (twoMessages.finishedEarly 0))]

private def emptyDisk : World :=
  World.start { AppConfig.standard with fileConflictStrategy := .overwrite }

private theorem sent_zero : Sent sampleHash twoMessages [0] zeroReceipt := by
  have chunks : (sendChunks 7 (fun _ => 1) (.start [0])).1 = [⟨7, 0, 0, [0]⟩] ∧
      (sendChunks 7 (fun _ => 1) (.start [0])).2 = [0] := by
    have read : Cursor.read (fun _ => 1) chunkSize (.start [0]) = [0] := by decide
    have spent : Cursor.read (fun _ => 1) chunkSize (Cursor.advance (.start [0]) [0]) = [] := by
      decide
    have last : sendChunks 7 (fun _ => 1) (Cursor.advance (.start [0]) [0]) = ([], [0]) := by
      rw [sendChunks]
      simp only [spent, List.length_nil, if_true]
      rfl
    rw [sendChunks]
    simp only [read, last]
    exact ⟨rfl, rfl⟩
  have written : (sendFile sampleHash 7 [0] (fun _ => 1) 0 none).written =
      [zeroChunk 1, .complete lastMessage] := by
    have skipped : skipPrefix (fun _ => 1) 0 (.start [0]) = .start [0] := by
      rw [skipPrefix, if_pos rfl]
    rw [written_sendFile]
    simp only [sendOneFile, skipped, chunks.1, chunks.2]
    rfl
  have sendable : ∀ m ∈ [zeroChunk 1, .complete lastMessage], ∃ body,
      twoMessages.intoWriter m = .ok body ∧ body.length ≤ maxMessageSize := by
    intro m inside
    rcases List.mem_pair.mp inside with rfl | rfl
    · exact ⟨chunkBody 1, rfl, by decide⟩
    · exact ⟨completeBody lastMessage, rfl, by decide⟩
  refine ⟨fun _ => 1, none, (writeMessages twoMessages [zeroChunk 1, .complete lastMessage]).2.length,
    ?_⟩
  rw [show zeroReceipt.item.fileId = 7 from rfl, written]
  refine ⟨sendable, ?_⟩
  have measured : ∀ m ∈ [zeroChunk 1, .complete lastMessage], Measured twoMessages m := by
    intro m inside body found
    obtain ⟨body', found', fits⟩ := sendable m inside
    cases found.symm.trans found'
    exact .inl (fits.trans_lt (by decide))
  rw [List.take_length, incoming, read_of_measured twoMessages_roundTrips measured]
  rfl

end Honest

end DashDrop.Receiving.Arrival
