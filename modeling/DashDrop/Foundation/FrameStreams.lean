/- GID: DashDrop/Foundation/FrameStreams
   generality: G
   anchors: []
   digest: Frames one after another on a stream that may be cut off anywhere. -/

import DashDrop.Foundation.Framing

set_option autoImplicit false
set_option relaxedAutoImplicit false

namespace DashDrop.Foundation.FrameStreams

open DashDrop.Foundation.Cbor DashDrop.Foundation.Framing

def frame (width : ℕ) (body : List UInt8) : List UInt8 := bigEndian width body.length ++ body

def frames (width : ℕ) (bodies : List (List UInt8)) : List UInt8 :=
  (bodies.map (frame width)).flatten

/-- The messages whose frames lie within the first `n` bytes of the stream. -/
def delivered {α : Type} (width : ℕ) (body : α → List UInt8) : ℕ → List α → List α
  | _, [] => []
  | n, message :: rest =>
      if width + (body message).length ≤ n then
        message :: delivered width body (n - (width + (body message).length)) rest
      else []

/-- The stream ended in a frame or before it, with so many bytes. -/
def Unfinished : FrameFault → Prop
  | .noLength _ | .cut _ => True
  | .tooLong _ => False

section Cut

variable {width limit : ℕ} {body : List UInt8}

@[simp] theorem length_frame (width : ℕ) (body : List UInt8) :
    (frame width body).length = width + body.length := by
  rw [frame, List.length_append, length_bigEndian]

theorem frames_cons (width : ℕ) (body : List UInt8) (rest : List (List UInt8)) :
    frames width (body :: rest) = frame width body ++ frames width rest := rfl

theorem delivered_prefix {α : Type} (body : α → List UInt8) (n : ℕ) (messages : List α) :
    delivered width body n messages <+: messages := by
  induction messages generalizing n with
  | nil => exact List.prefix_rfl
  | cons message rest ih =>
    unfold delivered
    split_ifs
    · exact List.cons_prefix_cons.mpr ⟨rfl, ih _⟩
    · exact List.nil_prefix

theorem delivered_all {α : Type} {body : α → List UInt8} {n : ℕ} {messages : List α}
    (all : (frames width (messages.map body)).length ≤ n) :
    delivered width body n messages = messages := by
  induction messages generalizing n with
  | nil => rfl
  | cons message rest ih =>
    rw [List.map_cons, frames_cons, List.length_append, length_frame] at all
    rw [delivered, if_pos (by omega), ih (by omega)]

theorem splitFrame_whole (short : body.length < 256 ^ width) (fits : body.length ≤ limit)
    (rest : List UInt8) : splitFrame width limit (frame width body ++ rest) = .ok (body, rest) := by
  rw [frame, List.append_assoc, splitFrame_frame rest short fits]

theorem splitFrame_cut {n : ℕ} (short : body.length < 256 ^ width) (fits : body.length ≤ limit)
    (few : n < width + body.length) :
    ∃ fault, splitFrame width limit ((frame width body).take n) = .error fault ∧
      Unfinished fault := by
  have lead : (bigEndian width body.length).length = width := length_bigEndian _ _
  have length : ((frame width body).take n).length = n := by
    rw [List.length_take, length_frame]
    omega
  unfold splitFrame
  split_ifs with early
  · exact ⟨_, rfl, trivial⟩
  · rw [length] at early
    have front : ((frame width body).take n).take width = bigEndian width body.length := by
      rw [List.take_take, min_eq_left (by omega), frame, List.take_left' lead]
    have number : ofBigEndian (bigEndian width body.length) = body.length := by
      rw [ofBigEndian_bigEndian, Nat.mod_eq_of_lt short]
    simp only [front, number]
    split_ifs with long cut
    · omega
    · exact ⟨_, rfl, trivial⟩
    · rw [List.length_drop, length] at cut
      omega

theorem take_frames_whole {n : ℕ} (whole : width + body.length ≤ n) (rest : List UInt8) :
    (frame width body ++ rest).take n =
      frame width body ++ rest.take (n - (width + body.length)) := by
  rw [List.take_append, List.take_of_length_le (by rwa [length_frame]), length_frame]

theorem take_frames_cut {n : ℕ} (few : n < width + body.length) (rest : List UInt8) :
    (frame width body ++ rest).take n = (frame width body).take n :=
  List.take_append_of_le_length (by rw [length_frame]; omega)

end Cut

end DashDrop.Foundation.FrameStreams
