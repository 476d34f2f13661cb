import GraphZero.Features.Batch

/-!
# The sections of a batch

The sections lie behind the header, at boundaries, one behind the other, and
end inside the batch.
-/

namespace GraphZero.Features

open Foundation

inductive StateSection where
  | nodeCount
  | nodeTokens
  | nodeAttrs
  | edgeCount
  | edgeSrc
  | edgeDst
  | edgeType
  | position
  deriving DecidableEq

inductive BatchSection where
  | own (part : StateSection)
  | opponent (part : StateSection)
  | actionCount
  | actionKind
  | actionPrior
  | subjectCount
  | actionSubjects
  | opponentReward
  | opponentPresent
  | opponentStatePresent
  deriving DecidableEq

def StateOffsets.offset (offsets : StateOffsets) : StateSection → Nat
  | .nodeCount => offsets.nodeCount
  | .nodeTokens => offsets.nodeTokens
  | .nodeAttrs => offsets.nodeAttrs
  | .edgeCount => offsets.edgeCount
  | .edgeSrc => offsets.edgeSrc
  | .edgeDst => offsets.edgeDst
  | .edgeType => offsets.edgeType
  | .position => offsets.position

def StateSection.width : StateSection → Nat
  | .nodeCount | .edgeCount | .edgeSrc | .edgeDst => 4
  | .nodeTokens | .nodeAttrs | .position => 2
  | .edgeType => 1

namespace BatchSection

def width : BatchSection → Nat
  | .own part | .opponent part => part.width
  | .actionCount | .actionSubjects => 4
  | .actionKind | .actionPrior | .opponentReward => 2
  | .subjectCount | .opponentPresent | .opponentStatePresent => 1

/-- The order in the batch; one section is not used any more. -/
def order : List (Option BatchSection) :=
  [some (own .nodeCount), some (own .nodeTokens), some (own .nodeAttrs),
    some (own .edgeCount), some (own .edgeSrc), some (own .edgeDst),
    some (own .edgeType), some actionCount, some actionKind,
    some actionPrior, some subjectCount, some actionSubjects,
    some (own .position), some opponentReward, some opponentPresent,
    some opponentStatePresent, none, some (opponent .nodeCount),
    some (opponent .nodeTokens), some (opponent .nodeAttrs),
    some (opponent .edgeCount), some (opponent .edgeSrc),
    some (opponent .edgeDst), some (opponent .edgeType),
    some (opponent .position)]

def index (place : BatchSection) : Nat := order.idxOf (some place)

theorem order_index (place : BatchSection) : order[place.index]? = some (some place) := by
  cases place with
  | own part => cases part <;> rfl
  | opponent part => cases part <;> rfl
  | _ => rfl

theorem index_injective {first second : BatchSection}
    (same : first.index = second.index) : first = second := by
  have place := order_index first
  rw [same, order_index second] at place
  cases place
  rfl

end BatchSection

namespace BatchLayout

def stateStride (layout : BatchLayout) : StateSection → Nat
  | .nodeCount | .edgeCount => 1
  | .nodeTokens => layout.n
  | .nodeAttrs => layout.n * layout.d
  | .edgeSrc | .edgeDst | .edgeType => layout.e
  | .position => 4

def stride (layout : BatchLayout) : BatchSection → Nat
  | .own part | .opponent part => layout.stateStride part
  | .actionKind | .actionPrior | .subjectCount => layout.a
  | .actionSubjects => layout.a * layout.s
  | .actionCount | .opponentReward | .opponentPresent
  | .opponentStatePresent => 1

def offset (layout : BatchLayout) : BatchSection → Nat
  | .own part => layout.own.offset part
  | .opponent part => layout.opponent.offset part
  | .actionCount => layout.actionCount
  | .actionKind => layout.actionKind
  | .actionPrior => layout.actionPrior
  | .subjectCount => layout.subjectCount
  | .actionSubjects => layout.actionSubjects
  | .opponentReward => layout.opponentReward
  | .opponentPresent => layout.opponentPresent
  | .opponentStatePresent => layout.opponentStatePresent

def segment (layout : BatchLayout) (place : BatchSection) : Segment where
  offset := layout.offset place
  width := place.width
  count := layout.b * layout.stride place

section Dims

variable (b n e a s d : Nat)

/-- The lengths of the sections, in their order. -/
def lengths : List Nat :=
  [b * 4, b * n * 2, b * n * d * 2, b * 4, b * e * 4, b * e * 4, b * e,
    b * 4, b * a * 2, b * a * 2, b * a, b * a * s * 4, b * 4 * 2, b * 2, b, b,
    b * 12, b * 4, b * n * 2, b * n * d * 2, b * 4, b * e * 4, b * e * 4,
    b * e, b * 4 * 2]

theorem offset_eq (place : BatchSection) :
    (segmentOffsets batchHeaderLen (lengths b n e a s d))[place.index]? =
      some ((fromDims b n e a s d).offset place) := by
  cases place with
  | own part => cases part <;> rfl
  | opponent part => cases part <;> rfl
  | _ => rfl

theorem lengths_eq : lengths b n e a s d = BatchSection.order.map fun
      | some place => ((fromDims b n e a s d).segment place).count * place.width
      | none => b * 12 := by
  have attrs : b * n * d * 2 = b * (n * d) * 2 := congrArg (· * 2) (Nat.mul_assoc b n d)
  have subjects : b * a * s * 4 = b * (a * s) * 4 := congrArg (· * 4) (Nat.mul_assoc b a s)
  unfold lengths
  rw [attrs, subjects]
  simp only [BatchSection.order, List.map_cons, List.map_nil, segment,
    stride, stateStride, BatchSection.width, StateSection.width, Nat.mul_one]
  rfl

theorem length_eq (place : BatchSection) : (lengths b n e a s d)[place.index]? =
      some (((fromDims b n e a s d).segment place).count * place.width) := by
  rw [lengths_eq, List.getElem?_map, BatchSection.order_index]
  rfl

theorem totalLen_eq : (fromDims b n e a s d).totalLen =
      align4 (segmentsEnd batchHeaderLen (lengths b n e a s d)) :=
  rfl

theorem laidOut_segment : LaidOut (fromDims b n e a s d).segment batchHeaderLen
      (fromDims b n e a s d).totalLen where
  apart first second different := by
    have unlike : first.index ≠ second.index := fun same =>
      different (BatchSection.index_injective same)
    rcases Nat.lt_or_gt_of_ne unlike with before | behind
    · exact .inl (segment_before before (offset_eq ..) (length_eq ..) (offset_eq ..))
    · exact .inr (segment_before behind (offset_eq ..) (length_eq ..) (offset_eq ..))
  begins place := (segment_inside (offset_eq ..) (length_eq ..)).2.1
  ends place := by
    have inside := (segment_inside (offset_eq b n e a s d place) (length_eq b n e a s d place)).2.2
    exact Nat.le_trans inside (le_align4 _)

theorem offset_aligned (place : BatchSection) :
    ((fromDims b n e a s d).segment place).offset % 4 = 0 :=
  (segment_inside (offset_eq ..) (length_eq ..)).1

theorem le_totalLen : batchHeaderLen ≤ (fromDims b n e a s d).totalLen := by
  rw [totalLen_eq]
  exact Nat.le_trans le_segmentsEnd (le_align4 _)

theorem totalLen_lt {fewer} (less : fewer < b) :
    (fromDims fewer n e a s d).totalLen < (fromDims b n e a s d).totalLen := by
  have le := Nat.le_of_lt less
  have others : List.Forall₂ (· ≤ ·) (lengths fewer n e a s d).tail (lengths b n e a s d).tail := by
    have attrs : fewer * n * d * 2 ≤ b * n * d * 2 := Nat.mul_le_mul_right _ (Nat.mul_le_mul_right _
        (Nat.mul_le_mul_right _ le))
    simp only [lengths, List.tail_cons, List.forall₂_cons, Nat.mul_le_mul,
      Nat.le_refl, le, attrs, List.Forall₂.nil, and_self]
  have longer := segmentsEnd_le_segmentsEnd (by omega : 68 + fewer * 4 + 4 ≤ 68 + b * 4) others
  rw [segmentsEnd_add_four] at longer
  change align4 (segmentsEnd (68 + fewer * 4) (lengths fewer n e a s d).tail) <
    align4 (segmentsEnd (68 + b * 4) (lengths b n e a s d).tail)
  unfold align4
  omega

end Dims

end BatchLayout

end GraphZero.Features
