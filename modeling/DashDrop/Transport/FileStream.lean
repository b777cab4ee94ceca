/- GID: DashDrop/Transport/FileStream
   source: src-tauri/src/transport/sender.rs
   anchors: []
   digest: The messages that the sender writes to the stream of one file, byte by byte. -/

import DashDrop.Transport.Protocol
import Mathlib.Algebra.Ring.Nat

set_option autoImplicit false
set_option relaxedAutoImplicit false

namespace DashDrop.Transport.FileStream

open DashDrop.Foundation.FileTree DashDrop.Transport.Protocol

/-- `CHUNK_SIZE`, 1 MiB. -/
def chunkSize : ℕ := 1024 * 1024

/-- The state of `send_one_file` between two reads of its source. -/
structure Cursor where
  /-- The bytes that have not been read. -/
  rest : Bytes
  /-- What the hasher has seen. -/
  hashed : Bytes
  chunkId : ℕ
  offset : ℕ
  /-- The number of reads so far. -/
  turn : ℕ

def Cursor.start (source : Bytes) : Cursor := ⟨source, [], 0, 0, 0⟩

/-- One read into a buffer with this much room. The system decides how many bytes it yields, but
yields some if there are any. -/
def Cursor.read (reads : ℕ → ℕ) (room : ℕ) (c : Cursor) : Bytes :=
  c.rest.take (min (max 1 (reads c.turn)) room)

def Cursor.advance (c : Cursor) (data : Bytes) : Cursor where
  rest := c.rest.drop data.length
  hashed := c.hashed ++ data
  chunkId := (c.chunkId + 1) % 2 ^ 32
  offset := c.offset + data.length
  turn := c.turn + 1

def skipPrefix (reads : ℕ → ℕ) (bytesToSkip : ℕ) (c : Cursor) : Cursor :=
  if bytesToSkip = 0 then c
  else
    let data := c.read reads (min bytesToSkip chunkSize)
    if data.length = 0 then c else skipPrefix reads (bytesToSkip - data.length) (c.advance data)
termination_by bytesToSkip
decreasing_by
  have some : (c.read reads (min bytesToSkip chunkSize)).length ≠ 0 := by assumption
  omega

theorem Cursor.read_length_le (reads : ℕ → ℕ) (room : ℕ) (c : Cursor) :
    (c.read reads room).length ≤ c.rest.length := by
  simp only [Cursor.read, List.length_take]
  omega

/-- The chunks of what has not been read, and what the hasher has seen at the end. -/
def sendChunks (fileId : ℕ) (reads : ℕ → ℕ) (c : Cursor) : List ChunkPayload × Bytes :=
  let data := c.read reads chunkSize
  if data.length = 0 then ([], c.hashed)
  else
    let later := sendChunks fileId reads (c.advance data)
    (⟨fileId, c.chunkId, c.offset, data⟩ :: later.1, later.2)
termination_by c.rest.length
decreasing_by
  have some : (c.read reads chunkSize).length ≠ 0 := by assumption
  have := c.read_length_le reads chunkSize
  simp only [Cursor.advance, List.length_drop]
  omega

def sendOneFile (blake3 : Bytes → Digest) (fileId : ℕ) (source : Bytes) (reads : ℕ → ℕ)
    (resumeOffset : ℕ) : DashMessage × List DashMessage :=
  let (chunks, hashed) := sendChunks fileId reads (skipPrefix reads resumeOffset (.start source))
  match chunks with
  | [] => (.complete ⟨fileId, blake3 hashed⟩, [])
  | chunk :: chunks => (.chunk chunk, chunks.map .chunk ++ [.complete ⟨fileId, blake3 hashed⟩])

theorem Cursor.read_append (reads : ℕ → ℕ) (room : ℕ) (c : Cursor) :
    c.read reads room ++ (c.advance (c.read reads room)).rest = c.rest := by
  have hread : c.read reads room = c.rest.take (c.read reads room).length := by
    simp [Cursor.read, List.length_take]
  calc c.read reads room ++ (c.advance (c.read reads room)).rest
      = c.rest.take (c.read reads room).length ++ c.rest.drop (c.read reads room).length := by
        rw [← hread]
        rfl
    _ = c.rest := List.take_append_drop _ _

theorem Cursor.length_advance (reads : ℕ → ℕ) (room : ℕ) (c : Cursor) :
    (c.read reads room).length + (c.advance (c.read reads room)).rest.length = c.rest.length := by
  rw [← List.length_append, c.read_append]

theorem Cursor.rest_eq_nil (reads : ℕ → ℕ) {room : ℕ} {c : Cursor} (positive : 0 < room)
    (ended : (c.read reads room).length = 0) : c.rest = [] := by
  simp only [Cursor.read, List.length_take] at ended
  apply List.length_eq_zero_iff.mp
  omega

theorem skipPrefix_spec (reads : ℕ → ℕ) (n : ℕ) (c : Cursor) :
    (skipPrefix reads n c).rest = c.rest.drop n ∧
      (skipPrefix reads n c).hashed = c.hashed ++ c.rest.take n := by
  fun_induction skipPrefix reads n c with
  | case1 c => simp
  | case2 n c positive data ended =>
    have hrest : c.rest = [] := by
      have room : 0 < chunkSize := by decide
      exact Cursor.rest_eq_nil reads (by omega : 0 < min n chunkSize) ended
    simp [hrest]
  | case3 n c positive data some ih =>
    have hsplit : data ++ (c.advance data).rest = c.rest := c.read_append reads _
    have hlen : data.length ≤ n := by
      simp only [data, Cursor.read, List.length_take]
      omega
    obtain ⟨hrest, hhashed⟩ := ih
    rw [hrest, hhashed, ← hsplit]
    constructor
    · rw [List.drop_append, List.drop_eq_nil_of_le hlen, List.nil_append]
    · rw [List.take_append, List.take_of_length_le hlen]
      simp [Cursor.advance]

theorem sendChunks_spec (fileId : ℕ) (reads : ℕ → ℕ) (c : Cursor) :
    ((sendChunks fileId reads c).1.map ChunkPayload.data).flatten = c.rest ∧
      (sendChunks fileId reads c).2 = c.hashed ++ c.rest ∧
      ∀ chunk ∈ (sendChunks fileId reads c).1, chunk.fileId = fileId := by
  fun_induction sendChunks fileId reads c with
  | case1 c data ended =>
    have hrest : c.rest = [] := Cursor.rest_eq_nil reads (by decide) ended
    simp [hrest]
  | case2 c data some later ih =>
    obtain ⟨hdata, hhashed, hids⟩ := ih
    have hsplit : data ++ (c.advance data).rest = c.rest := c.read_append reads _
    refine ⟨?_, ?_, ?_⟩
    · rw [List.map_cons, List.flatten_cons, hdata, hsplit]
    · rw [hhashed, ← hsplit]
      simp [Cursor.advance]
    · intro chunk mem
      obtain rfl | mem := List.mem_cons.mp mem
      · rfl
      · exact hids chunk mem

end DashDrop.Transport.FileStream
