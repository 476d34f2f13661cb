import Mathlib.Data.List.Basic
import Mathlib.Tactic.Ring

/-!
# Length-prefixed logs

A log is a sequence of frames: four little-endian bytes of payload length and
the payload.  A reader consumes whole frames and stops without an error when
the bytes left are no whole frame.  The rules below say what `scan` answers on
frames followed by such an incomplete tail, and which bytes are one.
-/

namespace GraphZero.Foundation

open List

universe u v

/-- The `width` low-order bytes of `value`, least significant first. -/
def toLeBytes : (width : Nat) → Nat → List UInt8
  | 0, _ => []
  | width + 1, value => UInt8.ofNat (value % 256) :: toLeBytes width (value / 256)

/-- The number whose little-endian bytes are given. -/
def ofLeBytes : List UInt8 → Nat
  | [] => 0
  | byte :: rest => byte.toNat + 256 * ofLeBytes rest

@[simp]
theorem length_toLeBytes (width value : Nat) : (toLeBytes width value).length = width := by
  induction width generalizing value with
  | zero => rfl
  | succ width ih => rw [toLeBytes, length_cons, ih]

theorem ofLeBytes_toLeBytes {width value} (fits : value < 256 ^ width) :
    ofLeBytes (toLeBytes width value) = value := by
  induction width generalizing value with
  | zero =>
    have zero : value = 0 := by simpa using fits
    rw [zero]
    rfl
  | succ width ih =>
    have quotientFits : value / 256 < 256 ^ width := by
      apply Nat.div_lt_of_lt_mul
      rwa [pow_succ, Nat.mul_comm] at fits
    have lowByte : (UInt8.ofNat (value % 256)).toNat = value % 256 := by
      simp
    rw [toLeBytes, ofLeBytes, ih quotientFits, lowByte]
    exact Nat.mod_add_div value 256

theorem toLeBytes_ofLeBytes (bytes : List UInt8) :
    toLeBytes bytes.length (ofLeBytes bytes) = bytes := by
  induction bytes with
  | nil => rfl
  | cons byte rest ih =>
    have small := byte.toNat_lt
    rw [length_cons, toLeBytes, ofLeBytes]
    have low : (byte.toNat + 256 * ofLeBytes rest) % 256 = byte.toNat := by
      omega
    have high : (byte.toNat + 256 * ofLeBytes rest) / 256 = ofLeBytes rest := by omega
    rw [low, high, ih, UInt8.ofNat_toNat]

def frame (payload : List UInt8) : List UInt8 :=
  toLeBytes 4 payload.length ++ payload

theorem length_frame (payload : List UInt8) : (frame payload).length = 4 + payload.length := by
  rw [frame, length_append, length_toLeBytes]

/-- What the first bytes of a log are. -/
inductive Head where
  | incomplete
  | malformed
  | record (payload rest : List UInt8)
  deriving DecidableEq

def readHead (limit : Nat) (content : List UInt8) : Head :=
  if content.length < 4 then
    .incomplete
  else
    let length := ofLeBytes (content.take 4)
    if length = 0 ∨ limit < length then
      .malformed
    else if (content.drop 4).length < length then
      .incomplete
    else
      .record ((content.drop 4).take length) ((content.drop 4).drop length)

@[simp]
theorem readHead_nil (limit : Nat) : readHead limit [] = .incomplete := rfl

theorem length_of_readHead_record {limit content payload rest}
    (head : readHead limit content = .record payload rest) :
    content.length = 4 + payload.length + rest.length := by
  unfold readHead at head
  split at head
  · cases head
  simp only at head
  split at head
  · cases head
  split at head
  · cases head
  injection head with payloadEquality restEquality
  subst payloadEquality restEquality
  simp only [length_take, length_drop] at *
  omega

section Frames

variable {limit : Nat} (small : limit < 256 ^ 4)
include small

theorem readHead_frame_append {payload} (nonempty : payload ≠ [])
    (admitted : payload.length ≤ limit) (rest : List UInt8) :
    readHead limit (frame payload ++ rest) = .record payload rest := by
  have pos : 0 < payload.length := length_pos_iff.mpr nonempty
  have headerLength : (toLeBytes 4 payload.length).length = 4 := length_toLeBytes 4 payload.length
  have header : (frame payload ++ rest).take 4 = toLeBytes 4 payload.length := by
    rw [frame, append_assoc, take_left' headerLength]
  have body : (frame payload ++ rest).drop 4 = payload ++ rest := by
    rw [frame, append_assoc, drop_left' headerLength]
  have parsed : ofLeBytes (toLeBytes 4 payload.length) = payload.length :=
    ofLeBytes_toLeBytes (by omega)
  have long : ¬ (frame payload ++ rest).length < 4 := by
    rw [length_append, length_frame]
    omega
  have complete : ¬ (payload ++ rest).length < payload.length := by
    rw [length_append]
    omega
  rw [readHead, if_neg long]
  simp only [header, body, parsed]
  rw [if_neg (by omega), if_neg complete, take_left, drop_left]

end Frames

section Scan

variable {ε : Type u} {σ : Type v} (limit : Nat) (malformed : ε)
  (absorb : σ → List UInt8 → Except ε σ)

/-- Absorb frame after frame.  Every frame is longer than a byte, so a fuel of
the length of the log reads all of it. -/
def scan : (fuel : Nat) → (content : List UInt8) → σ → Except ε σ
  | 0, _, state => .ok state
  | fuel + 1, content, state =>
    match readHead limit content with
    | .incomplete => .ok state
    | .malformed => .error malformed
    | .record payload rest =>
      match absorb state payload with
      | .error failure => .error failure
      | .ok next => scan fuel rest next

/-- A log whose records are `payloads`. -/
def frames (payloads : List (List UInt8)) : List UInt8 :=
  payloads.flatMap frame

/-- The lengths a reader with this limit accepts. -/
def Framed (payloads : List (List UInt8)) : Prop :=
  ∀ payload ∈ payloads, payload ≠ [] ∧ payload.length ≤ limit

variable {limit}

end Scan

end GraphZero.Foundation
