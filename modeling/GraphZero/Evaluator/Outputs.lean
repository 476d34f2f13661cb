import GraphZero.Evaluator.Frames
import GraphZero.Features.PythonBatch

/-!
# Outputs of a batch

The evaluator answers a batch with the values of its rows and the logits of
their actions.  Rows and actions that are only padding are left out where that
makes the answer shorter.
-/

namespace GraphZero.Evaluator

open Foundation Features List

def outputMagic : List UInt8 := [0x47, 0x5a, 0x46, 0x4f]

def outputHeaderLen : Nat := 16

/-- The arrays that a model computes: a value for each row and a logit for
each row and action. -/
structure OutputArrays where
  rows : Nat
  width : Nat
  values : Nat → F32
  logits : Nat → Nat → F32

structure OutputEncoder where
  capacity : Nat
  maxActions : Nat

def floatBytes (value : F32) : List UInt8 :=
  toLeBytes 4 value.bits.toNat

@[simp]
theorem length_floatBytes (value : F32) : (floatBytes value).length = 4 :=
  length_toLeBytes 4 _

namespace OutputEncoder

def new (capacity maxActions : Nat) : ServeResult OutputEncoder :=
  if capacity = 0 then .error (.uncaught "capacity must be positive")
  else if maxActions = 0 then
    .error (.uncaught "max_actions must be positive")
  else .ok ⟨capacity, maxActions⟩

/-- The length of the buffer, and of outputs that are not shortened. -/
def length (encoder : OutputEncoder) : Nat :=
  outputHeaderLen + encoder.capacity * 4 + encoder.capacity * encoder.maxActions * 4

def header (encoder : OutputEncoder) (rowCount : Nat) : List UInt8 :=
  outputMagic ++ toLeBytes 4 batchEncodingVersion ++ toLeBytes 4 rowCount ++
    toLeBytes 4 encoder.maxActions

def encodeDense (encoder : OutputEncoder) (outputs : OutputArrays) (rowCount : Nat) : List UInt8 :=
  let value row := if row < rowCount then outputs.values row else .zero
  let logit row action :=
    if row < rowCount then outputs.logits row action else .zero
  encoder.header rowCount ++ ((List.range encoder.capacity).flatMap fun row =>
      floatBytes (value row)) ++
    (List.range encoder.capacity).flatMap fun row =>
      (List.range encoder.maxActions).flatMap fun action =>
        floatBytes (logit row action)

def encodeCompact (encoder : OutputEncoder) (outputs : OutputArrays)
    (rowCount : Nat) (counts : List Nat) : List UInt8 :=
  encoder.header rowCount ++ ((List.range rowCount).flatMap fun row =>
      floatBytes (outputs.values row)) ++
    counts.zipIdx.flatMap fun (count, row) =>
      (List.range count).flatMap fun action =>
        floatBytes (outputs.logits row action)

def encode (encoder : OutputEncoder) (outputs : OutputArrays)
    (rowCount : Nat) (counts : List Nat) : ServeResult (List UInt8) :=
  if encoder.capacity < rowCount then
    .error (.uncaught "row_count exceeds capacity")
  else if outputs.width ≠ encoder.maxActions then
    .error (.uncaught "logit width mismatch")
  else if outputs.rows < rowCount then
    .error (.uncaught "not enough rows")
  else if counts.length ≠ rowCount then
    .error (.uncaught "action count length mismatch")
  else if counts.any (encoder.maxActions < ·) then
    .error (.uncaught "action count out of range")
  else
    let length := outputHeaderLen + rowCount * 4 + counts.sum * 4
    if encoder.length ≤ length then
      .ok (encoder.encodeDense outputs rowCount)
    else if rowCount = 0 then
      .error (.uncaught "memoryview: cannot cast view with zeros in shape or strides")
    else .ok (encoder.encodeCompact outputs rowCount counts)

section Lengths

variable {encoder : OutputEncoder} {outputs : OutputArrays} {rowCount : Nat} {counts : List Nat}

@[simp]
theorem length_header : (encoder.header rowCount).length = 16 := by
  rfl

theorem length_flatMap_const {α : Type} {items : List α} {bytes : α → List UInt8} {width}
    (each : ∀ item ∈ items, (bytes item).length = width) :
    (items.flatMap bytes).length = items.length * width := by
  induction items with
  | nil => exact (Nat.zero_mul width).symm
  | cons item rest ih =>
    rw [flatMap_cons, length_append, each item mem_cons_self, ih fun item member =>
        each item (mem_cons_of_mem _ member),
      length_cons, Nat.succ_mul, Nat.add_comm]

theorem length_encodeDense : (encoder.encodeDense outputs rowCount).length = encoder.length := by
  have logits (value : Nat → Nat → F32) (row : Nat) :
      ((List.range encoder.maxActions).flatMap fun action =>
        floatBytes (value row action)).length = encoder.maxActions * 4 := by
    rw [length_flatMap_const fun _ _ => length_floatBytes _, length_range]
  unfold encodeDense
  rw [length_append, length_append, length_header,
    length_flatMap_const fun _ _ => length_floatBytes _, length_range,
    length_flatMap_const fun row _ => logits (fun row action =>
      if row < rowCount then outputs.logits row action else .zero) row,
    length_range, length, outputHeaderLen,
    Nat.mul_assoc encoder.capacity]

theorem length_encodeCompact : (encoder.encodeCompact outputs rowCount counts).length =
      outputHeaderLen + rowCount * 4 + counts.sum * 4 := by
  have logits (start : Nat) : ((counts.zipIdx start).flatMap fun (count, row) =>
        (List.range count).flatMap fun action =>
          floatBytes (outputs.logits row action)).length =
        counts.sum * 4 := by
    induction counts generalizing start with
    | nil => exact (Nat.zero_mul 4).symm
    | cons count rest ih =>
      rw [zipIdx_cons, flatMap_cons, length_append, ih, sum_cons,
        length_flatMap_const fun _ _ => length_floatBytes _,
        length_range, Nat.add_mul]
  unfold encodeCompact
  rw [length_append, length_append, length_header, logits,
    length_flatMap_const fun _ _ => length_floatBytes _, length_range]
  rfl

end Lengths

end OutputEncoder

end GraphZero.Evaluator
