/- GID: DashDrop/Foundation/Framing
   generality: G
   anchors: []
   digest: Bodies behind their length on a stream of bytes. -/

import Mathlib.Tactic.Ring
import DashDrop.Foundation.Cbor

set_option autoImplicit false
set_option relaxedAutoImplicit false

namespace DashDrop.Foundation.Framing

open DashDrop.Foundation.Cbor

def ofBigEndian (bytes : List UInt8) : ℕ := bytes.foldl (fun n b => n * 256 + b.toNat) 0

@[simp] theorem length_bigEndian (width n : ℕ) : (bigEndian width n).length = width := by
  induction width with
  | zero => rfl
  | succ width ih => simp [bigEndian, ih]

private theorem foldl_bigEndian (width n start : ℕ) :
    (bigEndian width n).foldl (fun n b => n * 256 + b.toNat) start =
      start * 256 ^ width + n % 256 ^ width := by
  induction width generalizing start with
  | zero => simp [bigEndian, Nat.mod_one]
  | succ width ih =>
    have byte : (UInt8.ofNat (n / 256 ^ width)).toNat = n / 256 ^ width % 256 := by simp
    rw [bigEndian, List.foldl_cons, ih, byte, pow_succ, Nat.mod_mul]
    ring

theorem ofBigEndian_bigEndian (width n : ℕ) :
    ofBigEndian (bigEndian width n) = n % 256 ^ width := by
  rw [ofBigEndian, foldl_bigEndian, Nat.zero_mul, Nat.zero_add]

inductive FrameFault where
  /-- The stream ends in or before the length, after so many bytes of it. -/
  | noLength (bytes : ℕ)
  | tooLong (length : ℕ)
  /-- The stream ends in the body, after so many bytes of it. -/
  | cut (bytes : ℕ)
  deriving DecidableEq

def splitFrame (width limit : ℕ) (stream : List UInt8) :
    Except FrameFault (List UInt8 × List UInt8) :=
  if stream.length < width then .error (.noLength stream.length)
  else
    let length := ofBigEndian (stream.take width)
    let rest := stream.drop width
    if length > limit then .error (.tooLong length)
    else if rest.length < length then .error (.cut rest.length)
    else .ok (rest.take length, rest.drop length)

theorem splitFrame_frame {width limit : ℕ} {body : List UInt8} (rest : List UInt8)
    (short : body.length < 256 ^ width) (fits : body.length ≤ limit) :
    splitFrame width limit (bigEndian width body.length ++ (body ++ rest)) = .ok (body, rest) := by
  have lead : (bigEndian width body.length).length = width := length_bigEndian _ _
  have long : ¬ (bigEndian width body.length ++ (body ++ rest)).length < width := by
    rw [List.length_append, lead]
    omega
  have front : (bigEndian width body.length ++ (body ++ rest)).take width =
      bigEndian width body.length := by
    rw [List.take_append_of_le_length lead.ge, List.take_of_length_le lead.le]
  have back : (bigEndian width body.length ++ (body ++ rest)).drop width = body ++ rest := by
    rw [List.drop_append_of_le_length lead.ge, List.drop_eq_nil_of_le lead.le, List.nil_append]
  have number : ofBigEndian (bigEndian width body.length) = body.length := by
    rw [ofBigEndian_bigEndian, Nat.mod_eq_of_lt short]
  simp only [splitFrame, if_neg long, front, back, number, Nat.not_lt.mpr fits, if_false]
  rw [if_neg (by rw [List.length_append]; omega), List.take_left, List.drop_left]

theorem length_of_splitFrame {width limit : ℕ} {stream body rest : List UInt8}
    (h : splitFrame width limit stream = .ok (body, rest)) :
    width + body.length + rest.length = stream.length := by
  simp only [splitFrame] at h
  split_ifs at h
  cases h
  rw [List.length_take, List.length_drop, List.length_drop]
  simp only [List.length_drop] at *
  omega

end DashDrop.Foundation.Framing
