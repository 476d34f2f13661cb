import Mathlib.Data.List.Basic
import Mathlib.Data.List.Pairwise

/-!
# Segments of a buffer

A buffer is laid out in segments, each from the next boundary on, and written
cell by cell.  A cell then holds what was last written to it, whatever was
written elsewhere.
-/

namespace GraphZero.Foundation

open List

def align4 (value : Nat) : Nat := (value + 3) / 4 * 4

/-- Where segments of these lengths begin, from `cursor` on. -/
def segmentOffsets : (cursor : Nat) → (lengths : List Nat) → List Nat
  | _, [] => []
  | cursor, length :: rest => align4 cursor :: segmentOffsets (align4 cursor + length) rest

def segmentsEnd : (cursor : Nat) → (lengths : List Nat) → Nat
  | cursor, [] => cursor
  | cursor, length :: rest => segmentsEnd (align4 cursor + length) rest

section Layout

variable {cursor first second : Nat} {lengths : List Nat}

theorem le_align4 (value : Nat) : value ≤ align4 value := by
  unfold align4
  omega

theorem align4_mod (value : Nat) : align4 value % 4 = 0 := by
  unfold align4
  omega

theorem le_segmentsEnd : cursor ≤ segmentsEnd cursor lengths := by
  induction lengths generalizing cursor with
  | nil => exact Nat.le_refl _
  | cons length rest ih =>
    have step := le_align4 cursor
    have later := @ih (align4 cursor + length)
    unfold segmentsEnd
    omega

theorem segment_inside {offset length}
    (begins : (segmentOffsets cursor lengths)[first]? = some offset)
    (long : lengths[first]? = some length) :
    offset % 4 = 0 ∧ cursor ≤ offset ∧ offset + length ≤ segmentsEnd cursor lengths := by
  induction lengths generalizing cursor first with
  | nil => cases long
  | cons head rest ih =>
    have step := le_align4 cursor
    cases first with
    | zero =>
      cases begins
      cases long
      exact ⟨align4_mod cursor, step, le_segmentsEnd⟩
    | succ first =>
      obtain ⟨aligned, behind, inside⟩ := ih begins long
      exact ⟨aligned, by omega, inside⟩

theorem le_of_segmentOffsets {offset}
    (begins : (segmentOffsets cursor lengths)[first]? = some offset) :
    cursor ≤ offset := by
  induction lengths generalizing cursor first with
  | nil => cases begins
  | cons head rest ih =>
    have step := le_align4 cursor
    cases first with
    | zero =>
      cases begins
      exact step
    | succ first =>
      have behind := ih begins
      omega

theorem segment_before {offset length later} (order : first < second)
    (begins : (segmentOffsets cursor lengths)[first]? = some offset)
    (long : lengths[first]? = some length)
    (follows : (segmentOffsets cursor lengths)[second]? = some later) :
    offset + length ≤ later := by
  induction lengths generalizing cursor first second with
  | nil => cases long
  | cons head rest ih =>
    cases second with
    | zero => exact absurd order (Nat.not_lt_zero _)
    | succ second =>
      cases first with
      | zero =>
        cases begins
        cases long
        exact le_of_segmentOffsets follows
      | succ first => exact ih (Nat.lt_of_succ_lt_succ order) begins long follows

theorem segmentsEnd_le_segmentsEnd {later longer} (behind : cursor ≤ later)
    (long : List.Forall₂ (· ≤ ·) lengths longer) :
    segmentsEnd cursor lengths ≤ segmentsEnd later longer := by
  induction long generalizing cursor later with
  | nil => exact behind
  | cons head _ ih =>
    refine ih ?_
    unfold align4
    omega

theorem segmentsEnd_add_four :
    segmentsEnd (cursor + 4) lengths = segmentsEnd cursor lengths + 4 := by
  induction lengths generalizing cursor with
  | nil => rfl
  | cons length rest ih =>
    have shift : align4 (cursor + 4) + length = align4 cursor + length + 4 := by
      unfold align4
      omega
    unfold segmentsEnd
    rw [shift, ih]

end Layout

structure BufferWrite where
  offset : Nat
  bytes : List UInt8

def slice (buffer : List UInt8) (offset width : Nat) : List UInt8 :=
  (buffer.drop offset).take width

/-- Replaces bytes of a buffer; out of its range nothing can be written. -/
def writeAt (write : BufferWrite) (buffer : List UInt8) : Option (List UInt8) :=
  if write.offset + write.bytes.length ≤ buffer.length then
    some (buffer.take write.offset ++
      (write.bytes ++ buffer.drop (write.offset + write.bytes.length)))
  else
    none

def writeAll : List BufferWrite → List UInt8 → Option (List UInt8)
  | [], buffer => some buffer
  | write :: rest, buffer => (writeAt write buffer).bind (writeAll rest)

section Writing

variable {buffer result : List UInt8} {write : BufferWrite}

theorem length_writeAt (written : writeAt write buffer = some result) :
    result.length = buffer.length := by
  unfold writeAt at written
  split at written
  · rename_i fits
    cases written
    simp only [length_append, length_take, length_drop]
    omega
  · cases written

theorem getElem?_writeAt (written : writeAt write buffer = some result) (place : Nat) :
    result[place]? = if write.offset ≤ place ∧ place < write.offset + write.bytes.length then
        write.bytes[place - write.offset]?
      else
        buffer[place]? := by
  unfold writeAt at written
  split at written
  · rename_i fits
    cases written
    have front : (buffer.take write.offset).length = write.offset := by
      rw [length_take]
      omega
    by_cases before : place < write.offset
    · rw [getElem?_append_left (by omega), getElem?_take_of_lt before,
        if_neg (by omega)]
    rw [getElem?_append_right (by omega), front]
    by_cases inside : place < write.offset + write.bytes.length
    · rw [if_pos ⟨by omega, inside⟩,
        getElem?_append_left (by omega)]
    · rw [if_neg (by omega), getElem?_append_right (by omega),
        getElem?_drop]
      congr 1
      omega
  · cases written

theorem getElem?_slice {offset width place} : (slice buffer offset width)[place]? =
      if place < width then buffer[offset + place]? else none := by
  unfold slice
  split
  · rename_i inside
    rw [getElem?_take_of_lt inside, getElem?_drop]
  rename_i outside
  exact getElem?_eq_none (by
    rw [length_take]
    omega)

theorem slice_writeAt_self (written : writeAt write buffer = some result) :
    slice result write.offset write.bytes.length = write.bytes := by
  refine ext_getElem? fun place => ?_
  rw [getElem?_slice, getElem?_writeAt written]
  split
  · rename_i inside
    rw [if_pos ⟨by omega, by omega⟩]
    congr 1
    omega
  · rename_i outside
    exact (getElem?_eq_none (Nat.not_lt.1 outside)).symm

theorem slice_writeAt_of_disjoint {offset width} (written : writeAt write buffer = some result)
    (apart : offset + width ≤ write.offset ∨ write.offset + write.bytes.length ≤ offset) :
    slice result offset width = slice buffer offset width := by
  refine ext_getElem? fun place => ?_
  rw [getElem?_slice, getElem?_slice]
  split
  · rw [getElem?_writeAt written, if_neg (by omega)]
  · rfl

end Writing

/-! ## Cells -/

/-- Cells of one width, one after the other. -/
structure Segment where
  offset : Nat
  width : Nat
  count : Nat

namespace Segment

def cellAt (segment : Segment) (cell : Nat) : Nat :=
  segment.offset + cell * segment.width

def ending (segment : Segment) : Nat :=
  segment.offset + segment.count * segment.width

theorem cellAt_le_ending {segment : Segment} {cell} (inside : cell < segment.count) :
    segment.offset ≤ segment.cellAt cell ∧
      segment.cellAt cell + segment.width ≤ segment.ending := by
  have below : (cell + 1) * segment.width ≤
      segment.count * segment.width := Nat.mul_le_mul_right _ inside
  rw [Nat.succ_mul] at below
  unfold Segment.cellAt ending
  omega

theorem cellAt_apart {segment : Segment} {cell other} (different : cell ≠ other) :
    segment.cellAt cell + segment.width ≤ segment.cellAt other ∨
      segment.cellAt other + segment.width ≤ segment.cellAt cell := by
  unfold Segment.cellAt
  rcases Nat.lt_or_gt_of_ne different with before | behind
  · have below : (cell + 1) * segment.width ≤ other * segment.width := Nat.mul_le_mul_right _ before
    rw [Nat.succ_mul] at below
    omega
  · have below : (other + 1) * segment.width ≤ cell * segment.width := Nat.mul_le_mul_right _ behind
    rw [Nat.succ_mul] at below
    omega

end Segment

variable {ι β : Type}

def lastWritten : List (Nat × β) → Nat → Option β
  | [], _ => none
  | (target, value) :: rest, cell =>
    (lastWritten rest cell).or (if target = cell then some value else none)

structure CellWrite (ι : Type) where
  segment : ι
  cell : Nat
  bytes : List UInt8

namespace CellWrite

def flat (segments : ι → Segment) (write : CellWrite ι) : BufferWrite :=
  ⟨(segments write.segment).cellAt write.cell, write.bytes⟩

/-- The write fills one cell of its segment. -/
structure Fits (segments : ι → Segment) (write : CellWrite ι) : Prop where
  inside : write.cell < (segments write.segment).count
  width : write.bytes.length = (segments write.segment).width

end CellWrite

/-- The segments do not overlap and lie between two bounds. -/
structure LaidOut (segments : ι → Segment) (lower upper : Nat) : Prop where
  apart : ∀ first second, first ≠ second → (segments first).ending ≤ (segments second).offset ∨
      (segments second).ending ≤ (segments first).offset
  begins : ∀ segment, lower ≤ (segments segment).offset
  ends : ∀ segment, (segments segment).ending ≤ upper

section Cells

variable [DecidableEq ι] {segments : ι → Segment} {lower upper : Nat}

def writesTo (segment : ι) (writes : List (CellWrite ι)) : List (Nat × List UInt8) :=
  writes.filterMap fun write =>
    if write.segment = segment then some (write.cell, write.bytes) else none

variable {buffer : List UInt8}

omit [DecidableEq ι] in
theorem writeAt_cell (laid : LaidOut segments lower upper)
    {write : CellWrite ι} (fits : write.Fits segments)
    (long : upper ≤ buffer.length) :
    ∃ result, writeAt (write.flat segments) buffer = some result := by
  have inside := (Segment.cellAt_le_ending fits.inside).2
  have ends := laid.ends write.segment
  rw [← fits.width] at inside
  have room : (write.flat segments).offset + (write.flat segments).bytes.length ≤ buffer.length :=
    Nat.le_trans inside (Nat.le_trans ends long)
  exact ⟨_, if_pos room⟩

theorem slice_writeAt_cell (laid : LaidOut segments lower upper) {write : CellWrite ι}
    (fits : write.Fits segments) {result}
    (written : writeAt (write.flat segments) buffer = some result) {segment cell}
    (inside : cell < (segments segment).count) :
    slice result ((segments segment).cellAt cell) (segments segment).width =
      if write.segment = segment ∧ write.cell = cell then write.bytes
      else slice buffer ((segments segment).cellAt cell) (segments segment).width := by
  split
  · rename_i same
    obtain ⟨rfl, rfl⟩ := same
    have own := slice_writeAt_self written
    unfold CellWrite.flat at own
    rw [fits.width] at own
    exact own
  · rename_i other
    refine slice_writeAt_of_disjoint written ?_
    change _ ≤ (segments write.segment).cellAt write.cell ∨
      (segments write.segment).cellAt write.cell + write.bytes.length ≤ _
    rw [fits.width]
    by_cases same : write.segment = segment
    · subst same
      exact Segment.cellAt_apart fun equal => other ⟨rfl, equal.symm⟩
    · have target := Segment.cellAt_le_ending fits.inside
      have place := Segment.cellAt_le_ending inside
      rcases laid.apart _ _ same with before | behind
      · exact .inr (by omega)
      · exact .inl (by omega)

theorem writeAll_cells (laid : LaidOut segments lower upper) {writes : List (CellWrite ι)}
    (fits : ∀ write ∈ writes, write.Fits segments)
    (long : upper ≤ buffer.length) :
    ∃ result, writeAll (writes.map (·.flat segments)) buffer = some result ∧
      result.length = buffer.length ∧
      (∀ segment cell, cell < (segments segment).count →
        slice result ((segments segment).cellAt cell) (segments segment).width =
          (lastWritten (writesTo segment writes) cell).getD
            (slice buffer ((segments segment).cellAt cell) (segments segment).width)) ∧
      ∀ offset width, offset + width ≤ lower ∨ upper ≤ offset →
        slice result offset width = slice buffer offset width := by
  induction writes generalizing buffer with
  | nil => exact ⟨buffer, rfl, rfl, fun _ _ _ => rfl, fun _ _ _ => rfl⟩
  | cons write writes ih =>
    have own := fits write mem_cons_self
    obtain ⟨mid, written⟩ := writeAt_cell laid own long
    have same := length_writeAt written
    obtain ⟨result, rest, length, cells, outside⟩ := ih
      (fun other member => fits other (mem_cons_of_mem _ member))
      (same ▸ long)
    refine ⟨result, ?_, length.trans same, fun segment cell inside => ?_,
      fun offset width away => ?_⟩
    · rw [map_cons, writeAll, written]
      exact rest
    · rw [cells segment cell inside, slice_writeAt_cell laid own written inside]
      unfold writesTo
      rw [filterMap_cons]
      by_cases here : write.segment = segment
      · rw [if_pos here]
        rw [lastWritten]
        by_cases exact : write.cell = cell
        · rw [if_pos ⟨here, exact⟩, if_pos exact]
          cases lastWritten (writes.filterMap _) cell <;> rfl
        · rw [if_neg fun both => exact both.2, if_neg exact, Option.or_none]
      · rw [if_neg fun both => here both.1, if_neg here]
    · rw [outside offset width away]
      refine slice_writeAt_of_disjoint written ?_
      have place := Segment.cellAt_le_ending own.inside
      have behind := laid.begins write.segment
      have before := laid.ends write.segment
      have wide := own.width
      unfold CellWrite.flat
      dsimp only
      omega

end Cells

section Rows

variable {α : Type}

theorem lastWritten_append (writes more : List (Nat × β)) (cell : Nat) :
    lastWritten (writes ++ more) cell = (lastWritten more cell).or (lastWritten writes cell) := by
  induction writes with
  | nil => exact (Option.or_none ..).symm
  | cons write writes ih => rw [cons_append, lastWritten, ih, lastWritten, Option.or_assoc]

theorem lastWritten_eq_none {writes : List (Nat × β)} {cell}
    (elsewhere : ∀ write ∈ writes, write.1 ≠ cell) :
    lastWritten writes cell = none := by
  induction writes with
  | nil => rfl
  | cons write writes ih =>
    rw [lastWritten, ih fun other member =>
      elsewhere other (mem_cons_of_mem _ member),
      if_neg (elsewhere write mem_cons_self)]
    rfl

theorem lastWritten_map_add {writes : List (Nat × β)} {start cell} :
    lastWritten (writes.map fun entry => (start + entry.1, entry.2))
        (start + cell) = lastWritten writes cell := by
  induction writes with
  | nil => rfl
  | cons write writes ih =>
    rw [map_cons, lastWritten, lastWritten, ih]
    simp only [Nat.add_left_cancel_iff]

/-- The cells of each item, in rows of `stride` cells. -/
def rowCells (stride : Nat) (cells : α → List (Nat × β))
    (items : List (α × Nat)) : List (Nat × β) :=
  items.flatMap fun item => (cells item.1).map fun entry =>
    (item.2 * stride + entry.1, entry.2)

variable {items : List α}

theorem row_of_mem_rowCells {stride first cells} {entry : Nat × β}
    (member : entry ∈ rowCells stride cells (items.zipIdx first)) :
    first * stride ≤ entry.1 := by
  obtain ⟨⟨item, row⟩, place, own⟩ := mem_flatMap.1 member
  obtain ⟨written, -, rfl⟩ := mem_map.1 own
  have later := (mem_zipIdx place).1
  have behind : first * stride ≤ row * stride := Nat.mul_le_mul_right _ later
  exact Nat.le_trans behind (Nat.le_add_right _ _)

theorem lastWritten_rowCells {stride : Nat} {cells : α → List (Nat × β)}
    (inside : ∀ item ∈ items, ∀ entry ∈ cells item, entry.1 < stride) (first row : Nat) {column}
    (narrow : column < stride) :
    lastWritten (rowCells stride cells (items.zipIdx first)) ((first + row) * stride + column) =
      items[row]?.bind fun item => lastWritten (cells item) column := by
  induction items generalizing first row with
  | nil => rfl
  | cons item items ih =>
    have later := fun other member => inside other (mem_cons_of_mem item member)
    have own := inside item mem_cons_self
    have next : (first + 1) * stride = first * stride + stride := Nat.succ_mul ..
    rw [zipIdx_cons, rowCells, flatMap_cons, lastWritten_append]
    cases row with
    | zero =>
      have below : lastWritten (rowCells stride cells (items.zipIdx (first + 1)))
          (first * stride + column) = none :=
        lastWritten_eq_none fun entry member equal => by
          have behind := row_of_mem_rowCells member
          omega
      change (lastWritten (rowCells ..) (first * stride + column)).or
        (lastWritten _ (first * stride + column)) = _
      rw [below, Option.none_or]
      exact lastWritten_map_add
    | succ row =>
      have shift : first + (row + 1) = first + 1 + row := by omega
      have above : lastWritten ((cells item).map fun entry =>
          (first * stride + entry.1, entry.2))
          ((first + 1 + row) * stride + column) = none :=
        lastWritten_eq_none fun entry member equal => by
          obtain ⟨written, place, rfl⟩ := mem_map.1 member
          have small := own written place
          rw [Nat.add_mul (first + 1)] at equal
          omega
      have rest := ih later (first + 1) row
      rw [shift, above, Option.or_none]
      exact rest

theorem lastWritten_zipIdx {value : α → β} (first cell : Nat) :
    lastWritten ((items.zipIdx first).map fun item => (item.2, value item.1))
        (first + cell) = items[cell]?.map value := by
  induction items generalizing first cell with
  | nil => rfl
  | cons item items ih =>
    rw [zipIdx_cons, map_cons, lastWritten]
    cases cell with
    | zero =>
      have below : lastWritten ((items.zipIdx (first + 1)).map fun item =>
          (item.2, value item.1)) (first + 0) = none :=
        lastWritten_eq_none fun entry member equal => by
          obtain ⟨⟨other, place⟩, later, rfl⟩ := mem_map.1 member
          have behind := (mem_zipIdx later).1
          omega
      rw [below, Nat.add_zero, if_pos rfl]
      rfl
    | succ cell =>
      have shift : first + (cell + 1) = first + 1 + cell := by omega
      rw [shift, ih (first + 1) cell, if_neg (by omega), Option.or_none]
      rfl

end Rows

end GraphZero.Foundation
