/- GID: DashDrop/Sending/FileChunks
   source: src-tauri/src/transport/sender.rs
   anchors: []
   digest: The stream of one file: its chunks, their order and the progress they count for. -/

import DashDrop.Transport.FileStream

set_option autoImplicit false
set_option relaxedAutoImplicit false

namespace DashDrop.Sending.FileChunks

open DashDrop.Foundation.FileTree DashDrop.Transport.Protocol DashDrop.Transport.FileStream

/-- What `send_one_file` works on. -/
structure FileSend where
  cursor : Cursor
  /-- The messages written to the stream. -/
  written : List DashMessage
  /-- `bytes_transferred` of the task, if the task is registered. -/
  transferred : Option ℕ

def sendLoop (fileId : ℕ) (reads : ℕ → ℕ) (s : FileSend) : FileSend :=
  let data := s.cursor.read reads chunkSize
  if data.length = 0 then s
  else sendLoop fileId reads {
    cursor := s.cursor.advance data
    written := s.written ++ [.chunk ⟨fileId, s.cursor.chunkId, s.cursor.offset, data⟩]
    transferred := s.transferred.map (· + data.length) }
termination_by s.cursor.rest.length
decreasing_by
  have some : (s.cursor.read reads chunkSize).length ≠ 0 := by assumption
  have := s.cursor.read_length_le reads chunkSize
  simp only [Cursor.advance, List.length_drop]
  omega

/-- The part of `send_one_file` between the opening of the source and the end of the stream. -/
def sendFile (blake3 : Bytes → Digest) (fileId : ℕ) (source : Bytes) (reads : ℕ → ℕ)
    (resumeOffset : ℕ) (transferred : Option ℕ) : FileSend :=
  let skipped := skipPrefix reads resumeOffset (.start source)
  let sent := sendLoop fileId reads {
    cursor := skipped
    written := []
    transferred :=
      if resumeOffset > 0 then transferred.map (· + skipped.offset) else transferred }
  { sent with written := sent.written ++ [.complete ⟨fileId, blake3 sent.cursor.hashed⟩] }

/-- Every chunk starts where the one before it ends. -/
def Contiguous : ℕ → List ChunkPayload → Prop
  | _, [] => True
  | start, chunk :: chunks =>
      chunk.offset = start ∧ Contiguous (start + chunk.data.length) chunks

theorem sendLoop_eq (fileId : ℕ) (reads : ℕ → ℕ) (s : FileSend) :
    (sendLoop fileId reads s).written =
        s.written ++ (sendChunks fileId reads s.cursor).1.map .chunk ∧
      (sendLoop fileId reads s).cursor.hashed = s.cursor.hashed ++ s.cursor.rest ∧
      (sendLoop fileId reads s).transferred =
        s.transferred.map (· + s.cursor.rest.length) ∧
      (sendLoop fileId reads s).cursor.turn =
        s.cursor.turn + (sendChunks fileId reads s.cursor).1.length := by
  fun_induction sendLoop fileId reads s with
  | case1 s data ended =>
    have hrest : s.cursor.rest = [] := Cursor.rest_eq_nil reads (by decide) ended
    have hchunks : sendChunks fileId reads s.cursor = ([], s.cursor.hashed) := by
      rw [sendChunks]
      exact if_pos ended
    simp [hrest, hchunks]
  | case2 s data some ih =>
    obtain ⟨hwritten, hhashed, hcount, hturn⟩ := ih
    have hsplit : data ++ (s.cursor.advance data).rest = s.cursor.rest :=
      s.cursor.read_append reads _
    have hchunks : (sendChunks fileId reads s.cursor).1 =
        ⟨fileId, s.cursor.chunkId, s.cursor.offset, data⟩ ::
          (sendChunks fileId reads (s.cursor.advance data)).1 := by
      rw [sendChunks]
      exact congrArg Prod.fst (if_neg some)
    rw [hwritten, hhashed, hcount, hturn, hchunks, ← hsplit]
    refine ⟨by simp, by simp [Cursor.advance], ?_, by simp [Cursor.advance]; omega⟩
    cases s.transferred with
    | none => rfl
    | some n => simp [Nat.add_assoc]

theorem skipPrefix_counts (reads : ℕ → ℕ) (n : ℕ) (c : Cursor) :
    (skipPrefix reads n c).offset = c.offset + min n c.rest.length ∧
      (c.chunkId = c.turn % 2 ^ 32 →
        (skipPrefix reads n c).chunkId = (skipPrefix reads n c).turn % 2 ^ 32) := by
  fun_induction skipPrefix reads n c with
  | case1 c => simp
  | case2 n c positive data ended =>
    have room : 0 < chunkSize := by decide
    have hrest : c.rest = [] :=
      Cursor.rest_eq_nil reads (by omega : 0 < min n chunkSize) ended
    simp [hrest]
  | case3 n c positive data some ih =>
    have hlen : data.length ≤ n := by
      simp only [data, Cursor.read, List.length_take]
      omega
    have htotal : data.length + (c.advance data).rest.length = c.rest.length :=
      c.length_advance reads _
    obtain ⟨hoffset, hids⟩ := ih
    refine ⟨?_, fun here => hids ?_⟩
    · rw [hoffset]
      simp only [Cursor.advance] at htotal ⊢
      omega
    · simp only [Cursor.advance, here]
      omega

theorem contiguous_sendChunks (fileId : ℕ) (reads : ℕ → ℕ) (c : Cursor) :
    Contiguous c.offset (sendChunks fileId reads c).1 := by
  fun_induction sendChunks fileId reads c with
  | case1 c data ended => trivial
  | case2 c data some later ih => exact ⟨rfl, ih⟩

theorem length_sendChunks (fileId : ℕ) (reads : ℕ → ℕ) (c : Cursor) :
    ∀ chunk ∈ (sendChunks fileId reads c).1,
      0 < chunk.data.length ∧ chunk.data.length ≤ chunkSize := by
  fun_induction sendChunks fileId reads c with
  | case1 c data ended => simp
  | case2 c data some later ih =>
    intro chunk mem
    obtain rfl | mem := List.mem_cons.mp mem
    · refine ⟨Nat.pos_of_ne_zero some, ?_⟩
      simp only [data, Cursor.read, List.length_take]
      omega
    · exact ih chunk mem

/-- The chunks are numbered on from the reads before them, modulo the width of a number. -/
theorem ids_sendChunks (fileId : ℕ) (reads : ℕ → ℕ) (c : Cursor) (h : c.chunkId = c.turn % 2 ^ 32) :
    (sendChunks fileId reads c).1.map ChunkPayload.chunkId =
      (List.range' c.turn (sendChunks fileId reads c).1.length).map (· % 2 ^ 32) := by
  fun_induction sendChunks fileId reads c with
  | case1 c data ended => simp
  | case2 c data some later ih =>
    have next : (c.advance data).chunkId = (c.advance data).turn % 2 ^ 32 := by
      simp only [Cursor.advance, h]
      omega
    rw [List.map_cons, List.length_cons, List.range'_succ, List.map_cons, ih next, h]
    rfl

theorem ids_increase {fileId : ℕ} {reads : ℕ → ℕ} {c : Cursor} (h : c.chunkId = c.turn % 2 ^ 32)
    (few : c.turn + (sendChunks fileId reads c).1.length < 2 ^ 32) :
    ((sendChunks fileId reads c).1.map ChunkPayload.chunkId).Pairwise (· < ·) := by
  rw [ids_sendChunks fileId reads c h, List.pairwise_map]
  refine List.Pairwise.imp_of_mem ?_ (List.pairwise_lt_range' ..)
  intro a b ha hb less
  rw [List.mem_range'_1] at ha hb
  rw [Nat.mod_eq_of_lt (by omega), Nat.mod_eq_of_lt (by omega)]
  exact less

theorem turn_skipPrefix_le (reads : ℕ → ℕ) (n : ℕ) (c : Cursor) :
    (skipPrefix reads n c).turn + (skipPrefix reads n c).rest.length ≤ c.turn + c.rest.length := by
  fun_induction skipPrefix reads n c with
  | case1 | case2 => exact le_rfl
  | case3 n c positive data some ih =>
    have taken : data.length + (c.advance data).rest.length = c.rest.length :=
      c.length_advance reads _
    have next : (c.advance data).turn = c.turn + 1 := rfl
    omega

theorem length_sendChunks_le (fileId : ℕ) (reads : ℕ → ℕ) (c : Cursor) :
    (sendChunks fileId reads c).1.length ≤ c.rest.length := by
  fun_induction sendChunks fileId reads c with
  | case1 => exact Nat.zero_le _
  | case2 c data some later ih =>
    have taken : data.length + (c.advance data).rest.length = c.rest.length :=
      c.length_advance reads _
    have one : (sendChunks fileId reads (c.advance data)).1.length = later.1.length := rfl
    rw [List.length_cons]
    omega

theorem written_sendFile (blake3 : Bytes → Digest) (fileId : ℕ) (source : Bytes) (reads : ℕ → ℕ)
    (resumeOffset : ℕ) (transferred : Option ℕ) :
    (sendFile blake3 fileId source reads resumeOffset transferred).written =
      (sendOneFile blake3 fileId source reads resumeOffset).1 ::
        (sendOneFile blake3 fileId source reads resumeOffset).2 := by
  have sent := sendLoop_eq fileId reads {
    cursor := skipPrefix reads resumeOffset (.start source)
    written := []
    transferred := if resumeOffset > 0 then
        transferred.map (· + (skipPrefix reads resumeOffset (.start source)).offset)
      else transferred }
  have hashed := (sendChunks_spec fileId reads (skipPrefix reads resumeOffset (.start source))).2.1
  simp only [sendFile, sent.1, sent.2.1, ← hashed, sendOneFile, List.nil_append]
  cases (sendChunks fileId reads (skipPrefix reads resumeOffset (.start source))).1 with
  | nil => rfl
  | cons chunk chunks => rfl

theorem turn_sendFile_le (blake3 : Bytes → Digest) (fileId : ℕ) (source : Bytes) (reads : ℕ → ℕ)
    (resumeOffset : ℕ) (transferred : Option ℕ) :
    (sendFile blake3 fileId source reads resumeOffset transferred).cursor.turn ≤ source.length := by
  have skipped := turn_skipPrefix_le reads resumeOffset (.start source)
  have sent := length_sendChunks_le fileId reads (skipPrefix reads resumeOffset (.start source))
  simp only [sendFile, (sendLoop_eq fileId reads _).2.2.2]
  simp only [Cursor.start, Nat.zero_add] at skipped sent ⊢
  omega

/-- With fewer reads than there are numbers, the stream is the rest of the file in order, under
rising numbers, and the hash of the whole file; the whole file is counted. -/
theorem file_sent_in_order (blake3 : Bytes → Digest) (fileId : ℕ) (source : Bytes) (reads : ℕ → ℕ)
    (resumeOffset transferred : ℕ)
    (few : (sendFile blake3 fileId source reads resumeOffset (some transferred)).cursor.turn <
      2 ^ 32) :
    ∃ chunks : List ChunkPayload,
      (sendFile blake3 fileId source reads resumeOffset (some transferred)).written =
        chunks.map .chunk ++ [.complete ⟨fileId, blake3 source⟩] ∧
      Contiguous (min resumeOffset source.length) chunks ∧
      (chunks.map ChunkPayload.data).flatten = source.drop (min resumeOffset source.length) ∧
      (chunks.map ChunkPayload.chunkId).Pairwise (· < ·) ∧
      (∀ chunk ∈ chunks, chunk.fileId = fileId ∧ chunk.data.length ≤ chunkSize) ∧
      (sendFile blake3 fileId source reads resumeOffset (some transferred)).transferred =
        some (transferred + source.length) := by
  set skipped := skipPrefix reads resumeOffset (.start source) with hskipped
  obtain ⟨hrest, hhashed⟩ := skipPrefix_spec reads resumeOffset (.start source)
  obtain ⟨hoffset, hids⟩ := skipPrefix_counts reads resumeOffset (.start source)
  have aligned := hids rfl
  rw [← hskipped] at hrest hhashed hoffset aligned
  have start : skipped.offset = min resumeOffset source.length := by
    rw [hoffset]
    exact Nat.zero_add _
  have left : skipped.rest = source.drop (min resumeOffset source.length) := by
    rw [hrest]
    exact List.drop_eq_drop_min
  have whole : skipped.hashed ++ skipped.rest = source := by
    rw [hhashed, hrest]
    exact List.take_append_drop _ _
  obtain ⟨hwritten, hhash, hcount, hturn⟩ := sendLoop_eq fileId reads {
    cursor := skipped
    written := []
    transferred := if resumeOffset > 0 then (some transferred).map (· + skipped.offset)
      else some transferred }
  obtain ⟨hdata, -, hfile⟩ := sendChunks_spec fileId reads skipped
  refine ⟨(sendChunks fileId reads skipped).1, ?_, ?_, ?_, ?_, ?_, ?_⟩
  · simp only [sendFile, ← hskipped]
    rw [hwritten, hhash]
    simp only [List.nil_append, whole]
  · rw [← start]
    exact contiguous_sendChunks fileId reads skipped
  · rw [hdata, left]
  · refine ids_increase aligned ?_
    simp only [sendFile, ← hskipped] at few
    rw [hturn] at few
    exact few
  · intro chunk mem
    exact ⟨hfile chunk mem, (length_sendChunks fileId reads skipped chunk mem).2⟩
  · simp only [sendFile, ← hskipped]
    rw [hcount]
    have total := congrArg List.length left
    rw [List.length_drop] at total
    split_ifs with resumed
    · simp only [Option.map_some, Option.some.injEq, start, total]
      omega
    · simp only [Option.map_some, Option.some.injEq, total]
      omega

private def threeByteHash : Bytes → Digest := fun _ =>
  ⟨Vector.append
    #v[0xe1, 0xbe, 0x4d, 0x7a, 0x8a, 0xb5, 0x56, 0x0a, 0xa4, 0x19, 0x9e, 0xea, 0x33, 0x98, 0x49, 0xba]
    #v[0x8e, 0x29, 0x3d, 0x55, 0xca, 0x0a, 0x81, 0x00, 0x67, 0x26, 0xd1, 0x84, 0x51, 0x9e, 0x64, 0x7f]⟩

theorem three_bytes_sent :
    (sendFile threeByteHash 3 [0, 1, 2] (fun _ => 1) 1 (some 7)).cursor.turn < 2 ^ 32 ∧
      ∃ chunks : List ChunkPayload,
        (sendFile threeByteHash 3 [0, 1, 2] (fun _ => 1) 1 (some 7)).written =
          chunks.map .chunk ++ [.complete ⟨3, threeByteHash [0, 1, 2]⟩] ∧
        Contiguous 1 chunks ∧ (chunks.map ChunkPayload.data).flatten = [1, 2] ∧
        (sendFile threeByteHash 3 [0, 1, 2] (fun _ => 1) 1 (some 7)).transferred = some 10 := by
  have few : (sendFile threeByteHash 3 [0, 1, 2] (fun _ => 1) 1 (some 7)).cursor.turn < 2 ^ 32 :=
    (turn_sendFile_le ..).trans_lt (by decide)
  obtain ⟨chunks, written, contiguous, data, -, -, counted⟩ :=
    file_sent_in_order threeByteHash 3 [0, 1, 2] (fun _ => 1) 1 7 few
  exact ⟨few, chunks, written, contiguous, data, counted⟩

end DashDrop.Sending.FileChunks
