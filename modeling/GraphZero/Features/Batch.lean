import GraphZero.Features.RowCodec
import GraphZero.Foundation.Binary32
import GraphZero.Foundation.Segments

/-!
# Batches of feature rows

A batch has a header and one section for each field of the rows.  A section
has cells for as many rows as the batch can hold, and in each row for as many
items as the schema allows.
-/

namespace GraphZero.Features

open Foundation

/-- What ends a call that has no value. -/
inductive BatchFailure where
  | error (error : FeatureError)
  | panicked
  deriving DecidableEq

abbrev BatchResult (α : Type) : Type := Except BatchFailure α

def checked {α : Type} (result : FeatureResult α) : BatchResult α :=
  result.mapError .error

def batchMagic : List UInt8 := [0x47, 0x5a, 0x46, 0x42]

def batchHeaderLen : Nat := 68

/-! ## Layout -/

structure BatchLayout where
  b : Nat
  n : Nat
  e : Nat
  a : Nat
  s : Nat
  d : Nat
  nodeCount : Nat
  nodeTokens : Nat
  nodeAttrs : Nat
  edgeCount : Nat
  edgeSrc : Nat
  edgeDst : Nat
  edgeType : Nat
  actionCount : Nat
  actionKind : Nat
  actionPrior : Nat
  subjectCount : Nat
  actionSubjects : Nat
  position : Nat
  opponentReward : Nat
  opponentPresent : Nat
  opponentStatePresent : Nat
  opponentNodeCount : Nat
  opponentNodeTokens : Nat
  opponentNodeAttrs : Nat
  opponentEdgeCount : Nat
  opponentEdgeSrc : Nat
  opponentEdgeDst : Nat
  opponentEdgeType : Nat
  opponentPosition : Nat
  totalLen : Nat

def placeSection (length : Nat) : StateM Nat Nat := fun cursor =>
  (align4 cursor, align4 cursor + length)

def BatchLayout.place (b n e a s d : Nat) : StateM Nat BatchLayout := do
  let nodeCount ← placeSection (b * 4)
  let nodeTokens ← placeSection (b * n * 2)
  let nodeAttrs ← placeSection (b * n * d * 2)
  let edgeCount ← placeSection (b * 4)
  let edgeSrc ← placeSection (b * e * 4)
  let edgeDst ← placeSection (b * e * 4)
  let edgeType ← placeSection (b * e)
  let actionCount ← placeSection (b * 4)
  let actionKind ← placeSection (b * a * 2)
  let actionPrior ← placeSection (b * a * 2)
  let subjectCount ← placeSection (b * a)
  let actionSubjects ← placeSection (b * a * s * 4)
  let position ← placeSection (b * 4 * 2)
  let opponentReward ← placeSection (b * 2)
  let opponentPresent ← placeSection b
  let opponentStatePresent ← placeSection b
  -- Nothing is written here any more.
  let _ ← placeSection (b * 12)
  let opponentNodeCount ← placeSection (b * 4)
  let opponentNodeTokens ← placeSection (b * n * 2)
  let opponentNodeAttrs ← placeSection (b * n * d * 2)
  let opponentEdgeCount ← placeSection (b * 4)
  let opponentEdgeSrc ← placeSection (b * e * 4)
  let opponentEdgeDst ← placeSection (b * e * 4)
  let opponentEdgeType ← placeSection (b * e)
  let opponentPosition ← placeSection (b * 4 * 2)
  let cursor ← get
  return {
    b, n, e, a, s, d, nodeCount, nodeTokens, nodeAttrs, edgeCount, edgeSrc,
    edgeDst, edgeType, actionCount, actionKind, actionPrior, subjectCount,
    actionSubjects, position, opponentReward, opponentPresent,
    opponentStatePresent, opponentNodeCount, opponentNodeTokens,
    opponentNodeAttrs, opponentEdgeCount, opponentEdgeSrc, opponentEdgeDst,
    opponentEdgeType, opponentPosition, totalLen := align4 cursor }

def BatchLayout.fromDims (b n e a s d : Nat) : BatchLayout :=
  (BatchLayout.place b n e a s d batchHeaderLen).1

def BatchLayout.new (schema : FeatureSchema) (batchCapacity : Nat) : BatchLayout :=
  BatchLayout.fromDims batchCapacity schema.config.maxNodes.toNat
    schema.config.maxEdges.toNat schema.config.maxActions.toNat
    schema.config.maxSubjects.toNat schema.config.nodeAttrDim.toNat

structure StateOffsets where
  nodeCount : Nat
  nodeTokens : Nat
  nodeAttrs : Nat
  edgeCount : Nat
  edgeSrc : Nat
  edgeDst : Nat
  edgeType : Nat
  position : Nat

def BatchLayout.own (layout : BatchLayout) : StateOffsets where
  nodeCount := layout.nodeCount
  nodeTokens := layout.nodeTokens
  nodeAttrs := layout.nodeAttrs
  edgeCount := layout.edgeCount
  edgeSrc := layout.edgeSrc
  edgeDst := layout.edgeDst
  edgeType := layout.edgeType
  position := layout.position

def BatchLayout.opponent (layout : BatchLayout) : StateOffsets where
  nodeCount := layout.opponentNodeCount
  nodeTokens := layout.opponentNodeTokens
  nodeAttrs := layout.opponentNodeAttrs
  edgeCount := layout.opponentEdgeCount
  edgeSrc := layout.opponentEdgeSrc
  edgeDst := layout.opponentEdgeDst
  edgeType := layout.opponentEdgeType
  position := layout.opponentPosition

/-! ## Writing a batch -/

def writeU8At (offset : Nat) (value : UInt8) : BufferWrite :=
  ⟨offset, u8Bytes value⟩

def writeU16At (offset : Nat) (value : UInt16) : BufferWrite :=
  ⟨offset, u16Bytes value⟩

def writeU32At (offset : Nat) (value : UInt32) : BufferWrite :=
  ⟨offset, u32Bytes value⟩

def writeBf16At (offset : Nat) (value : F32) : BufferWrite :=
  ⟨offset, bf16Bytes value⟩

/-- A whole number as a float: its leading 24 bits, rounded to nearest and to
even at a tie.  A carry goes on into the exponent. -/
def f32OfU32 (value : UInt32) : F32 :=
  if value = 0 then
    .zero
  else
    let exponent := value.toNat.log2
    let significand := roundEven (value.toNat * 2 ^ 23) (2 ^ exponent)
    ⟨UInt32.ofNat ((exponent + 127) * 2 ^ 23 + (significand - 2 ^ 23))⟩

def subjectPadding (layout : BatchLayout) : BufferWrite :=
  ⟨layout.actionSubjects, List.replicate (layout.b * layout.a * layout.s * 4) 0xff⟩

def batchHeader (schema : FeatureSchema) (capacity rowCount : Nat) : List BufferWrite :=
  [⟨0, batchMagic⟩, writeU32At 4 (UInt32.ofNat batchEncodingVersion), ⟨8, schema.hash.bytes⟩,
    writeU32At 40 (UInt32.ofNat capacity),
    writeU32At 44 (UInt32.ofNat rowCount),
    writeU32At 48 schema.config.maxNodes,
    writeU32At 52 schema.config.maxEdges,
    writeU32At 56 schema.config.maxActions,
    writeU32At 60 schema.config.maxSubjects,
    writeU32At 64 schema.config.nodeAttrDim.toUInt32]

section Rows

variable (layout : BatchLayout) (rowIndex : Nat)

def stateWrites (offsets : StateOffsets) (nodeCount : UInt32)
    (nodeTokens : List UInt16) (nodeAttrs : List F32)
    (edges : List FeatureEdge) : List BufferWrite :=
  [writeU32At (offsets.nodeCount + rowIndex * 4) nodeCount] ++
    (nodeTokens.zipIdx.map fun (token, nodeIndex) =>
      writeU16At (offsets.nodeTokens + (rowIndex * layout.n + nodeIndex) * 2) token) ++
    (nodeAttrs.zipIdx.map fun (value, attrIndex) =>
      writeBf16At (offsets.nodeAttrs + (rowIndex * layout.n * layout.d + attrIndex) * 2) value) ++
    [writeU32At (offsets.edgeCount + rowIndex * 4) (UInt32.ofNat edges.length)] ++
    (edges.zipIdx.flatMap fun (edge, edgeIndex) =>
      [writeU32At (offsets.edgeSrc + (rowIndex * layout.e + edgeIndex) * 4) edge.src,
        writeU32At (offsets.edgeDst + (rowIndex * layout.e + edgeIndex) * 4) edge.dst,
        writeU8At (offsets.edgeType + rowIndex * layout.e + edgeIndex) edge.edgeType])

def positionWrites (offsets : StateOffsets) (position : PositionFeatures) : List BufferWrite :=
  let offset := offsets.position + rowIndex * 8
  [writeBf16At offset (f32OfU32 position.rootStep),
    writeBf16At (offset + 2) (f32OfU32 position.leafDepth),
    writeBf16At (offset + 4) position.budgetFraction,
    writeBf16At (offset + 6) position.budgetStep]

def actionWrites (action : ActionFeature) (actionIndex : Nat) :
    FeatureResult (List BufferWrite) := do
  let kindToken ← narrowIndex action.kindToken "action kind token"
  if 2 ^ 8 ≤ action.subjects.length then
    throw (.invalidEncoding "action subject count exceeds u8 wire width")
  pure ([writeU16At (layout.actionKind + (rowIndex * layout.a + actionIndex) * 2) kindToken,
      writeBf16At (layout.actionPrior + (rowIndex * layout.a + actionIndex) * 2) action.staticPrior,
      writeU8At (layout.subjectCount + rowIndex * layout.a + actionIndex)
        (UInt8.ofNat action.subjects.length)] ++
      action.subjects.zipIdx.map fun (subject, subjectIndex) =>
        writeU32At (layout.actionSubjects +
            ((rowIndex * layout.a + actionIndex) * layout.s + subjectIndex) * 4)
          subject)

def opponentWrites : Option OpponentStateFeatures → List BufferWrite
  | none => []
  | some opponent =>
    [writeU8At (layout.opponentStatePresent + rowIndex) 1] ++
      stateWrites layout rowIndex layout.opponent opponent.nodeCount
        opponent.nodeTokens opponent.nodeAttrs opponent.edges ++
      positionWrites rowIndex layout.opponent opponent.position

def rowWrites (row : FeatureRow) : FeatureResult (List BufferWrite) := do
  let actions ← row.actions.zipIdx.mapM fun (action, actionIndex) =>
    actionWrites layout rowIndex action actionIndex
  pure (stateWrites layout rowIndex layout.own row.nodeCount row.nodeTokens
        row.nodeAttrs row.edges ++
      [writeU32At (layout.actionCount + rowIndex * 4) (UInt32.ofNat row.actions.length)] ++
      actions.flatten ++
      positionWrites rowIndex layout.own row.position ++
      [writeBf16At (layout.opponentReward + rowIndex * 2) row.position.opponentReward,
        writeU8At (layout.opponentPresent + rowIndex)
          (if row.position.opponentPresent then 1 else 0)] ++
      opponentWrites layout rowIndex row.opponent)

end Rows

/-- A write beyond the end of the buffer panics. -/
def perform (writes : List BufferWrite) (out : List UInt8) : BatchResult (List UInt8) :=
  match writeAll writes out with
  | some written => .ok written
  | none => .error .panicked

/-- No vector is longer than the largest signed size; asking for one panics, as
does a size that overflows on the way to it. -/
def resize (length : Nat) : BatchResult (List UInt8) :=
  if length < 2 ^ 63 then .ok (List.replicate length 0)
  else .error .panicked

def writeRows (layout : BatchLayout) :
    List (FeatureRow × Nat) → List UInt8 → BatchResult (List UInt8)
  | [], out => pure out
  | (row, rowIndex) :: rest, out => do
      let writes ← checked (rowWrites layout rowIndex row)
      let written ← perform writes out
      writeRows layout rest written

def collate (schema : FeatureSchema) (batchCapacity : Nat)
    (rows : List FeatureRow) : BatchResult (List UInt8) := do
  if rows.isEmpty then
    throw (.error .emptyBatch)
  if batchCapacity < rows.length then
    throw (.error (.batchOverflow batchCapacity rows.length))
  checked (rows.forM fun row => row.validate schema)
  let layout := BatchLayout.new schema batchCapacity
  let cleared ← resize layout.totalLen
  let padded ← perform [subjectPadding layout] cleared
  let headed ← perform (batchHeader schema batchCapacity rows.length) padded
  writeRows layout rows.zipIdx headed

/-! ## Reading a batch -/

def readNumberAt (message : String) (width : Nat) (bytes : List UInt8)
    (offset : Nat) : FeatureResult Nat :=
  if offset + width ≤ bytes.length then
    .ok (ofLeBytes (slice bytes offset width))
  else
    .error (.invalidEncoding message)

def readU16At (bytes : List UInt8) (offset : Nat) : FeatureResult UInt16 := do
  return UInt16.ofNat (← readNumberAt "u16 section truncated" 2 bytes offset)

def readU32At (bytes : List UInt8) (offset : Nat) : FeatureResult UInt32 := do
  return UInt32.ofNat (← readNumberAt "u32 truncated" 4 bytes offset)

def readBf16At (bytes : List UInt8) (offset : Nat) : FeatureResult F32 := do
  let bits ← readNumberAt "bf16 truncated" 2 bytes offset
  return bf16BitsToF32 (UInt16.ofNat bits)

def readHashAt (bytes : List UInt8) (offset : Nat) : FeatureResult FeatureSchemaHash :=
  let hash := slice bytes offset 32
  if whole : hash.length = 32 then .ok ⟨hash, whole⟩
  else .error (.invalidEncoding "hash truncated")

/-- The values at `count` places that are `width` bytes apart. -/
def readVec {α : Type} (read : Nat → FeatureResult α)
    (offset width count : Nat) : BatchResult (List α) :=
  checked ((List.range count).mapM fun index => read (offset + index * width))

section Vectors

variable (bytes : List UInt8) (offset count : Nat)

def readU16Vec : BatchResult (List UInt16) :=
  readVec (readU16At bytes) offset 2 count

def readU16WidenedVec : BatchResult (List UInt32) :=
  readVec (fun start => UInt16.toUInt32 <$> readU16At bytes start) offset 2 count

def readU32Vec : BatchResult (List UInt32) :=
  readVec (readU32At bytes) offset 4 count

def readBf16Vec : BatchResult (List F32) :=
  readVec (readBf16At bytes) offset 2 count

/-- Copies bytes; out of range it panics. -/
def readBytes : BatchResult (List UInt8) :=
  if offset + count ≤ bytes.length then .ok (slice bytes offset count)
  else .error .panicked

end Vectors

/-- The four position scalars of a row. -/
abbrev PositionValues : Type := F32 × F32 × F32 × F32

def readPositionAt (bytes : List UInt8) (start : Nat) : FeatureResult PositionValues := do
  let rootStep ← readBf16At bytes start
  let leafDepth ← readBf16At bytes (start + 2)
  let budgetFraction ← readBf16At bytes (start + 4)
  let budgetStep ← readBf16At bytes (start + 6)
  return (rootStep, leafDepth, budgetFraction, budgetStep)

def readPositionVec (bytes : List UInt8) (offset count : Nat) : BatchResult (List PositionValues) :=
  readVec (readPositionAt bytes) offset 8 count

structure BatchHeader where
  schemaHash : FeatureSchemaHash
  batchCapacity : UInt32
  rowCount : UInt32
  maxNodes : UInt32
  maxEdges : UInt32
  maxActions : UInt32
  maxSubjects : UInt32
  nodeAttrDim : UInt32

def BatchHeader.parse (bytes : List UInt8) : FeatureResult BatchHeader := do
  if bytes.length < batchHeaderLen then
    throw (.invalidEncoding "batch header truncated")
  if slice bytes 0 4 ≠ batchMagic then
    throw (.invalidEncoding "bad batch magic")
  let version ← readU32At bytes 4
  if version.toNat ≠ batchEncodingVersion then
    throw (.invalidEncoding "unsupported batch version")
  let schemaHash ← readHashAt bytes 8
  let batchCapacity ← readU32At bytes 40
  let rowCount ← readU32At bytes 44
  let maxNodes ← readU32At bytes 48
  let maxEdges ← readU32At bytes 52
  let maxActions ← readU32At bytes 56
  let maxSubjects ← readU32At bytes 60
  let nodeAttrDim ← readU32At bytes 64
  if batchCapacity = 0 then
    throw (.invalidEncoding "zero batch capacity")
  if batchCapacity < rowCount then
    throw (.invalidEncoding "row count exceeds capacity")
  return {
    schemaHash, batchCapacity, rowCount, maxNodes, maxEdges, maxActions,
    maxSubjects, nodeAttrDim }

def BatchHeader.layout (header : BatchHeader) : BatchLayout :=
  BatchLayout.fromDims header.batchCapacity.toNat header.maxNodes.toNat
    header.maxEdges.toNat header.maxActions.toNat header.maxSubjects.toNat
    header.nodeAttrDim.toNat

structure FeatureBatchView where
  schemaHash : FeatureSchemaHash
  batchCapacity : UInt32
  rowCount : UInt32
  maxNodes : UInt32
  maxEdges : UInt32
  maxActions : UInt32
  maxSubjects : UInt32
  nodeAttrDim : UInt32
  nodeCount : List UInt32
  nodeTokens : List UInt16
  nodeAttrs : List F32
  edgeCount : List UInt32
  edgeSrc : List UInt32
  edgeDst : List UInt32
  edgeType : List UInt8
  actionCount : List UInt32
  actionKind : List UInt32
  actionPrior : List F32
  subjectCount : List UInt8
  actionSubjects : List UInt32
  position : List PositionValues
  opponentReward : List F32
  opponentPresent : List UInt8
  opponentStatePresent : List UInt8
  opponentNodeCount : List UInt32
  opponentNodeTokens : List UInt16
  opponentNodeAttrs : List F32
  opponentEdgeCount : List UInt32
  opponentEdgeSrc : List UInt32
  opponentEdgeDst : List UInt32
  opponentEdgeType : List UInt8
  opponentPosition : List PositionValues
  deriving DecidableEq

def FeatureBatchView.parse (bytes : List UInt8) : BatchResult FeatureBatchView := do
  let header ← checked (BatchHeader.parse bytes)
  let layout := header.layout
  if bytes.length ≠ layout.totalLen then
    throw (.error (.invalidEncoding "bad batch length"))
  let nodeCount ← readU32Vec bytes layout.nodeCount layout.b
  let nodeTokens ← readU16Vec bytes layout.nodeTokens (layout.b * layout.n)
  let nodeAttrs ← readBf16Vec bytes layout.nodeAttrs (layout.b * layout.n * layout.d)
  let edgeCount ← readU32Vec bytes layout.edgeCount layout.b
  let edgeSrc ← readU32Vec bytes layout.edgeSrc (layout.b * layout.e)
  let edgeDst ← readU32Vec bytes layout.edgeDst (layout.b * layout.e)
  let edgeType ← readBytes bytes layout.edgeType (layout.b * layout.e)
  let actionCount ← readU32Vec bytes layout.actionCount layout.b
  let actionKind ← readU16WidenedVec bytes layout.actionKind (layout.b * layout.a)
  let actionPrior ← readBf16Vec bytes layout.actionPrior (layout.b * layout.a)
  let subjectCount ← readBytes bytes layout.subjectCount (layout.b * layout.a)
  let actionSubjects ← readU32Vec bytes layout.actionSubjects (layout.b * layout.a * layout.s)
  let position ← readPositionVec bytes layout.position layout.b
  let opponentReward ← readBf16Vec bytes layout.opponentReward layout.b
  let opponentPresent ← readBytes bytes layout.opponentPresent layout.b
  let opponentStatePresent ← readBytes bytes layout.opponentStatePresent layout.b
  let opponentNodeCount ← readU32Vec bytes layout.opponentNodeCount layout.b
  let opponentNodeTokens ← readU16Vec bytes layout.opponentNodeTokens (layout.b * layout.n)
  let opponentNodeAttrs ← readBf16Vec bytes layout.opponentNodeAttrs
      (layout.b * layout.n * layout.d)
  let opponentEdgeCount ← readU32Vec bytes layout.opponentEdgeCount layout.b
  let opponentEdgeSrc ← readU32Vec bytes layout.opponentEdgeSrc (layout.b * layout.e)
  let opponentEdgeDst ← readU32Vec bytes layout.opponentEdgeDst (layout.b * layout.e)
  let opponentEdgeType ← readBytes bytes layout.opponentEdgeType (layout.b * layout.e)
  let opponentPosition ← readPositionVec bytes layout.opponentPosition layout.b
  return {
    schemaHash := header.schemaHash
    batchCapacity := header.batchCapacity
    rowCount := header.rowCount
    maxNodes := header.maxNodes
    maxEdges := header.maxEdges
    maxActions := header.maxActions
    maxSubjects := header.maxSubjects
    nodeAttrDim := header.nodeAttrDim
    nodeCount, nodeTokens, nodeAttrs, edgeCount, edgeSrc, edgeDst, edgeType,
    actionCount, actionKind, actionPrior, subjectCount, actionSubjects,
    position, opponentReward, opponentPresent, opponentStatePresent,
    opponentNodeCount, opponentNodeTokens, opponentNodeAttrs,
    opponentEdgeCount, opponentEdgeSrc, opponentEdgeDst, opponentEdgeType,
    opponentPosition }

end GraphZero.Features
