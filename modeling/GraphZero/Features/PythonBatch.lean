import GraphZero.Features.Collation

/-!
# The batch in Python

The evaluator reads the same batches with a layout of its own.  Integers are
unbounded there, and a section is an array with a shape over the bytes.
-/

namespace GraphZero.Features.Python

open Foundation

inductive BatchViewError where
  | encodingError (message : String)
  | valueError (message : String)

abbrev BatchViewResult (α : Type) : Type := Except BatchViewError α

def batchMagic : List UInt8 := [0x47, 0x5a, 0x46, 0x42]

def batchHeaderLen : Nat := 68

def batchEncodingVersion : Nat := 6

def placeSection (cursor length : Nat) : Nat × Nat :=
  let offset := align4 cursor
  (offset, offset + length)

def layout (b n e a s d : Nat) : BatchLayout :=
  let cursor := batchHeaderLen
  let (nodeCount, cursor) := placeSection cursor (b * 4)
  let (nodeTokens, cursor) := placeSection cursor (b * n * 2)
  let (nodeAttrs, cursor) := placeSection cursor (b * n * d * 2)
  let (edgeCount, cursor) := placeSection cursor (b * 4)
  let (edgeSrc, cursor) := placeSection cursor (b * e * 4)
  let (edgeDst, cursor) := placeSection cursor (b * e * 4)
  let (edgeType, cursor) := placeSection cursor (b * e)
  let (actionCount, cursor) := placeSection cursor (b * 4)
  let (actionKind, cursor) := placeSection cursor (b * a * 2)
  let (actionPrior, cursor) := placeSection cursor (b * a * 2)
  let (subjectCount, cursor) := placeSection cursor (b * a)
  let (actionSubjects, cursor) := placeSection cursor (b * a * s * 4)
  let (position, cursor) := placeSection cursor (b * 4 * 2)
  let (opponentReward, cursor) := placeSection cursor (b * 2)
  let (opponentPresent, cursor) := placeSection cursor b
  let (opponentStatePresent, cursor) := placeSection cursor b
  -- Nothing is read here any more.
  let (_, cursor) := placeSection cursor (b * 12)
  let (opponentNodeCount, cursor) := placeSection cursor (b * 4)
  let (opponentNodeTokens, cursor) := placeSection cursor (b * n * 2)
  let (opponentNodeAttrs, cursor) := placeSection cursor (b * n * d * 2)
  let (opponentEdgeCount, cursor) := placeSection cursor (b * 4)
  let (opponentEdgeSrc, cursor) := placeSection cursor (b * e * 4)
  let (opponentEdgeDst, cursor) := placeSection cursor (b * e * 4)
  let (opponentEdgeType, cursor) := placeSection cursor (b * e)
  let (opponentPosition, cursor) := placeSection cursor (b * 4 * 2)
  { b, n, e, a, s, d, nodeCount, nodeTokens, nodeAttrs, edgeCount, edgeSrc,
    edgeDst, edgeType, actionCount, actionKind, actionPrior, subjectCount,
    actionSubjects, position, opponentReward, opponentPresent,
    opponentStatePresent, opponentNodeCount, opponentNodeTokens,
    opponentNodeAttrs, opponentEdgeCount, opponentEdgeSrc, opponentEdgeDst,
    opponentEdgeType, opponentPosition, totalLen := align4 cursor }

theorem layout_eq (b n e a s d : Nat) : layout b n e a s d = BatchLayout.fromDims b n e a s d :=
  rfl

/-- The element types on the wire, all of them little endian. -/
inductive DType where
  | u4
  | u2
  | u1

def DType.itemsize : DType → Nat
  | .u4 => 4
  | .u2 => 2
  | .u1 => 1

structure IntArray where
  dtype : DType
  shape : List Nat
  data : List Nat

/-- Single precision floats that were widened from the upper half of their
bits. -/
structure FloatArray where
  shape : List Nat
  data : List F32

def array (buf : List UInt8) (offset : Nat) (dtype : DType)
    (shape : List Nat) : BatchViewResult IntArray :=
  let count := shape.prod
  if buf.length < offset then
    throw (.valueError "offset must be non-negative and no greater than buffer length")
  else if buf.length < offset + count * dtype.itemsize then
    throw (.valueError "buffer is smaller than requested size")
  else
    return {
      dtype
      shape
      data := (List.range count).map fun index =>
        ofLeBytes (slice buf (offset + index * dtype.itemsize) dtype.itemsize) }

def bf16Array (buf : List UInt8) (offset : Nat) (shape : List Nat) :
    BatchViewResult FloatArray := do
  let raw ← array buf offset .u2 shape
  return {
    shape := raw.shape
    data := raw.data.map fun bits => ⟨UInt32.ofNat bits <<< 16⟩ }

/-! ## Views -/

structure SchemaDims where
  featureSchemaHash : FeatureSchemaHash
  batchCapacity : Nat
  rowCount : Nat
  maxNodes : Nat
  maxEdges : Nat
  maxActions : Nat
  maxSubjects : Nat
  nodeAttrDim : Nat

structure BatchView where
  dims : SchemaDims
  nodeCount : IntArray
  nodeTokens : IntArray
  nodeAttrs : Option FloatArray
  edgeCount : IntArray
  edgeSrc : IntArray
  edgeDst : IntArray
  edgeType : IntArray
  actionCount : IntArray
  actionKind : IntArray
  actionPrior : FloatArray
  subjectCount : IntArray
  actionSubjects : IntArray
  position : FloatArray
  opponentReward : FloatArray
  opponentPresent : IntArray
  opponentStatePresent : IntArray
  opponentNodeCount : IntArray
  opponentNodeTokens : IntArray
  opponentNodeAttrs : Option FloatArray
  opponentEdgeCount : IntArray
  opponentEdgeSrc : IntArray
  opponentEdgeDst : IntArray
  opponentEdgeType : IntArray
  opponentPosition : FloatArray

def u32 (buf : List UInt8) (offset : Nat) : Nat :=
  ofLeBytes (slice buf offset 4)

def hashFromBytes (value : List UInt8) : BatchViewResult FeatureSchemaHash :=
  if whole : value.length = 32 then .ok ⟨value, whole⟩
  else .error (.valueError "FeatureSchemaHash expects 32 bytes")

def validateDims (dims : SchemaDims) : BatchViewResult Unit := do
  if dims.batchCapacity = 0 then
    throw (.encodingError "zero batch capacity")
  if dims.batchCapacity < dims.rowCount then
    throw (.encodingError "row count exceeds capacity")
  if dims.maxNodes = 0 then
    throw (.encodingError "zero max_nodes")
  if dims.maxEdges = 0 then
    throw (.encodingError "zero max_edges")
  if dims.maxActions = 0 then
    throw (.encodingError "zero max_actions")
  if dims.maxSubjects = 0 then
    throw (.encodingError "zero max_subjects")

def parseDims (view : List UInt8) : BatchViewResult SchemaDims := do
  if view.length < batchHeaderLen then
    throw (.encodingError "batch header truncated")
  if slice view 0 4 ≠ batchMagic then
    throw (.encodingError "bad batch magic")
  let version := u32 view 4
  if version ≠ batchEncodingVersion then
    throw (.encodingError "unsupported batch version")
  let featureSchemaHash ← hashFromBytes (slice view 8 32)
  let dims : SchemaDims := {
    featureSchemaHash
    batchCapacity := u32 view 40
    rowCount := u32 view 44
    maxNodes := u32 view 48
    maxEdges := u32 view 52
    maxActions := u32 view 56
    maxSubjects := u32 view 60
    nodeAttrDim := u32 view 64 }
  validateDims dims
  return dims

def SchemaDims.layout (dims : SchemaDims) : BatchLayout :=
  Python.layout dims.batchCapacity dims.maxNodes dims.maxEdges
    dims.maxActions dims.maxSubjects dims.nodeAttrDim

/-- Attributes are absent where nodes have none. -/
def attrArray (view : List UInt8) (layout : BatchLayout) (offset : Nat) :
    BatchViewResult (Option FloatArray) :=
  if layout.d ≠ 0 then
    some <$> bf16Array view offset [layout.b, layout.n, layout.d]
  else
    pure none

def BatchView.parse (view : List UInt8) : BatchViewResult BatchView := do
  let dims ← parseDims view
  let layout := dims.layout
  if view.length ≠ layout.totalLen then
    throw (.encodingError "bad batch length")
  let nodeAttrs ← attrArray view layout layout.nodeAttrs
  let opponentNodeAttrs ← attrArray view layout layout.opponentNodeAttrs
  let nodeCount ← array view layout.nodeCount .u4 [layout.b]
  let nodeTokens ← array view layout.nodeTokens .u2 [layout.b, layout.n]
  let edgeCount ← array view layout.edgeCount .u4 [layout.b]
  let edgeSrc ← array view layout.edgeSrc .u4 [layout.b, layout.e]
  let edgeDst ← array view layout.edgeDst .u4 [layout.b, layout.e]
  let edgeType ← array view layout.edgeType .u1 [layout.b, layout.e]
  let actionCount ← array view layout.actionCount .u4 [layout.b]
  let actionKind ← array view layout.actionKind .u2 [layout.b, layout.a]
  let actionPrior ← bf16Array view layout.actionPrior [layout.b, layout.a]
  let subjectCount ← array view layout.subjectCount .u1 [layout.b, layout.a]
  let actionSubjects ← array view layout.actionSubjects .u4 [layout.b, layout.a, layout.s]
  let position ← bf16Array view layout.position [layout.b, 4]
  let opponentReward ← bf16Array view layout.opponentReward [layout.b]
  let opponentPresent ← array view layout.opponentPresent .u1 [layout.b]
  let opponentStatePresent ← array view layout.opponentStatePresent .u1 [layout.b]
  let opponentNodeCount ← array view layout.opponentNodeCount .u4 [layout.b]
  let opponentNodeTokens ← array view layout.opponentNodeTokens .u2 [layout.b, layout.n]
  let opponentEdgeCount ← array view layout.opponentEdgeCount .u4 [layout.b]
  let opponentEdgeSrc ← array view layout.opponentEdgeSrc .u4 [layout.b, layout.e]
  let opponentEdgeDst ← array view layout.opponentEdgeDst .u4 [layout.b, layout.e]
  let opponentEdgeType ← array view layout.opponentEdgeType .u1 [layout.b, layout.e]
  let opponentPosition ← bf16Array view layout.opponentPosition [layout.b, 4]
  return {
    dims, nodeCount, nodeTokens, nodeAttrs, edgeCount, edgeSrc, edgeDst,
    edgeType, actionCount, actionKind, actionPrior, subjectCount,
    actionSubjects, position, opponentReward, opponentPresent,
    opponentStatePresent, opponentNodeCount, opponentNodeTokens,
    opponentNodeAttrs, opponentEdgeCount, opponentEdgeSrc, opponentEdgeDst,
    opponentEdgeType, opponentPosition }

def scalarList (values : PositionValues) : List F32 :=
  [values.1, values.2.1, values.2.2.1, values.2.2.2]

/-- The values that the other language reads, with their shapes. -/
def BatchView.ofRust (view : FeatureBatchView) : BatchView :=
  let b := view.batchCapacity.toNat
  let n := view.maxNodes.toNat
  let e := view.maxEdges.toNat
  let a := view.maxActions.toNat
  let s := view.maxSubjects.toNat
  let d := view.nodeAttrDim.toNat
  { dims := {
      featureSchemaHash := view.schemaHash
      batchCapacity := b
      rowCount := view.rowCount.toNat
      maxNodes := n
      maxEdges := e
      maxActions := a
      maxSubjects := s
      nodeAttrDim := d }
    nodeCount := ⟨.u4, [b], view.nodeCount.map UInt32.toNat⟩
    nodeTokens := ⟨.u2, [b, n], view.nodeTokens.map UInt16.toNat⟩
    nodeAttrs := if d ≠ 0 then some ⟨[b, n, d], view.nodeAttrs⟩ else none
    edgeCount := ⟨.u4, [b], view.edgeCount.map UInt32.toNat⟩
    edgeSrc := ⟨.u4, [b, e], view.edgeSrc.map UInt32.toNat⟩
    edgeDst := ⟨.u4, [b, e], view.edgeDst.map UInt32.toNat⟩
    edgeType := ⟨.u1, [b, e], view.edgeType.map UInt8.toNat⟩
    actionCount := ⟨.u4, [b], view.actionCount.map UInt32.toNat⟩
    actionKind := ⟨.u2, [b, a], view.actionKind.map UInt32.toNat⟩
    actionPrior := ⟨[b, a], view.actionPrior⟩
    subjectCount := ⟨.u1, [b, a], view.subjectCount.map UInt8.toNat⟩
    actionSubjects := ⟨.u4, [b, a, s], view.actionSubjects.map UInt32.toNat⟩
    position := ⟨[b, 4], view.position.flatMap scalarList⟩
    opponentReward := ⟨[b], view.opponentReward⟩
    opponentPresent := ⟨.u1, [b], view.opponentPresent.map UInt8.toNat⟩
    opponentStatePresent :=
      ⟨.u1, [b], view.opponentStatePresent.map UInt8.toNat⟩
    opponentNodeCount := ⟨.u4, [b], view.opponentNodeCount.map UInt32.toNat⟩
    opponentNodeTokens :=
      ⟨.u2, [b, n], view.opponentNodeTokens.map UInt16.toNat⟩
    opponentNodeAttrs :=
      if d ≠ 0 then some ⟨[b, n, d], view.opponentNodeAttrs⟩ else none
    opponentEdgeCount := ⟨.u4, [b], view.opponentEdgeCount.map UInt32.toNat⟩
    opponentEdgeSrc := ⟨.u4, [b, e], view.opponentEdgeSrc.map UInt32.toNat⟩
    opponentEdgeDst := ⟨.u4, [b, e], view.opponentEdgeDst.map UInt32.toNat⟩
    opponentEdgeType := ⟨.u1, [b, e], view.opponentEdgeType.map UInt8.toNat⟩
    opponentPosition := ⟨[b, 4], view.opponentPosition.flatMap scalarList⟩ }

end GraphZero.Features.Python
