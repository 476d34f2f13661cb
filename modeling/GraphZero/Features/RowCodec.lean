import GraphZero.Features.Row
import GraphZero.Foundation.Decoder

/-!
# The encoding of a feature row

A header with the hash of the schema, then the fields in order: sections of
variable length come after their count, floats are narrowed to the upper half
of their bits.
-/

namespace GraphZero.Features

open Foundation

def rowMagic : List UInt8 := [0x47, 0x5a, 0x46, 0x52]

def rowHeaderLen : Nat := 40

def u8Bytes (value : UInt8) : List UInt8 := [value]

def u16Bytes (value : UInt16) : List UInt8 := toLeBytes 2 value.toNat

def u32Bytes (value : UInt32) : List UInt8 := toLeBytes 4 value.toNat

def lenBytes (length : Nat) : List UInt8 := u32Bytes (UInt32.ofNat length)

def bf16Bytes (value : F32) : List UInt8 := u16Bytes (f32ToBf16Bits value)

def boolBytes (value : Bool) : List UInt8 := [if value then 1 else 0]

def narrowIndex (value : UInt32) (what : String) : FeatureResult UInt16 :=
  if value.toNat < 2 ^ 16 then .ok value.toUInt16
  else .error (.invalidEncoding what)

def edgeBytes (edge : FeatureEdge) : List UInt8 :=
  u32Bytes edge.src ++ u32Bytes edge.dst ++ u8Bytes edge.edgeType

def writeStateBody (nodeCount : UInt32) (nodeTokens : List UInt16)
    (nodeAttrs : List F32) (edges : List FeatureEdge) :
    FeatureResult (List UInt8) := do
  if nodeTokens.length ≠ nodeCount.toNat then
    throw (.invalidEncoding "node token length mismatch")
  pure (lenBytes nodeTokens.length ++ nodeTokens.flatMap u16Bytes ++
    (lenBytes nodeAttrs.length ++ nodeAttrs.flatMap bf16Bytes ++
      (lenBytes edges.length ++ edges.flatMap edgeBytes)))

def writeAction (action : ActionFeature) : FeatureResult (List UInt8) := do
  let kindToken ← narrowIndex action.kindToken "action kind token"
  if 2 ^ 8 ≤ action.subjects.length then
    throw (.invalidEncoding "subject count exceeds u8")
  pure (u16Bytes kindToken ++ bf16Bytes action.staticPrior ++
    (u8Bytes (UInt8.ofNat action.subjects.length) ++ action.subjects.flatMap u32Bytes))

def writeActions : List ActionFeature → FeatureResult (List UInt8)
  | [] => pure []
  | action :: rest => do
      let head ← writeAction action
      let tail ← writeActions rest
      pure (head ++ tail)

def positionBytes (position : PositionFeatures) : List UInt8 :=
  u32Bytes position.rootStep ++ u32Bytes position.leafDepth ++
    (bf16Bytes position.budgetFraction ++ bf16Bytes position.budgetStep ++
      (bf16Bytes position.opponentReward ++ boolBytes position.opponentPresent))

def writeOpponent : Option OpponentStateFeatures → FeatureResult (List UInt8)
  | none => pure (u8Bytes 0)
  | some opponent => do
      let body ← writeStateBody opponent.nodeCount opponent.nodeTokens
        opponent.nodeAttrs opponent.edges
      pure (u8Bytes 1 ++ (u32Bytes opponent.nodeCount ++ (body ++ positionBytes opponent.position)))

def rowHeader (schema : FeatureSchema) : List UInt8 :=
  rowMagic ++ toLeBytes 4 encodingVersion ++ schema.hash.bytes

def encodeFeatureRow (row : FeatureRow) (schema : FeatureSchema) : FeatureResult (List UInt8) := do
  row.validate schema
  let body ← writeStateBody row.nodeCount row.nodeTokens row.nodeAttrs row.edges
  let actions ← writeActions row.actions
  let opponent ← writeOpponent row.opponent
  pure (rowHeader schema ++ (u32Bytes row.nodeCount ++ (body ++
    (lenBytes row.actions.length ++ actions ++ (positionBytes row.position ++ opponent)))))

/-! ## Decoding -/

abbrev Reader (α : Type) : Type := Decoder FeatureError α

namespace Reader

def u8 : Reader UInt8 := do
  let value ← Decoder.number (.invalidEncoding "u8 truncated") 1
  return UInt8.ofNat value

def u16 : Reader UInt16 := do
  let value ← Decoder.number (.invalidEncoding "u16 truncated") 2
  return UInt16.ofNat value

def u32 : Reader UInt32 := do
  let value ← Decoder.number (.invalidEncoding "u32 truncated") 4
  return UInt32.ofNat value

def bf16 : Reader F32 := do
  let bits ← Decoder.number (.invalidEncoding "bf16 truncated") 2
  return bf16BitsToF32 (UInt16.ofNat bits)

def len : Reader Nat := do
  return (← u32).toNat

/-- So many cells of a width are left. -/
def ensureCount (count width : Nat) : Reader Unit := do
  let input ← get
  if input.length < count * width then
    throw (.invalidEncoding "section truncated")

def u16Vec : Reader (List UInt16) := do
  let count ← len
  ensureCount count 2
  Decoder.repeated u16 count

def bf16Vec : Reader (List F32) := do
  let count ← len
  ensureCount count 2
  Decoder.repeated bf16 count

end Reader

open Reader

def readEdge (nodeCount : UInt32) : Reader FeatureEdge := do
  let src ← u32
  let dst ← u32
  let edgeType ← u8
  if nodeCount ≤ src ∨ nodeCount ≤ dst then
    throw (.invalidEncoding "edge endpoint out of range")
  pure ⟨src, dst, edgeType⟩

def readStateBody (nodeCount : UInt32) : Reader (List UInt16 × List F32 × List FeatureEdge) := do
  if nodeCount = 0 then
    throw (.invalidEncoding "zero node count")
  let nodeTokens ← u16Vec
  if nodeTokens.length ≠ nodeCount.toNat then
    throw (.invalidEncoding "node token length mismatch")
  let nodeAttrs ← bf16Vec
  if nodeAttrs.any (·.isFinite = false) then
    throw (.invalidEncoding "non-finite node attr")
  let edgeCount ← len
  let edges ← Decoder.repeated (readEdge nodeCount) edgeCount
  pure (nodeTokens, nodeAttrs, edges)

def readSubject (nodeCount : UInt32) : Reader UInt32 := do
  let subject ← u32
  if nodeCount ≤ subject then
    throw (.invalidEncoding "action subject out of range")
  pure subject

def readAction (nodeCount : UInt32) : Reader ActionFeature := do
  let kindToken ← u16
  let staticPrior ← bf16
  if staticPrior.isFinite = false then
    throw (.invalidEncoding "non-finite action prior")
  let subjectCount ← u8
  let subjects ← Decoder.repeated (readSubject nodeCount) subjectCount.toNat
  pure ⟨kindToken.toUInt32, staticPrior, subjects⟩

def readPosition : Reader PositionFeatures := do
  let rootStep ← u32
  let leafDepth ← u32
  let budgetFraction ← bf16
  let budgetStep ← bf16
  let opponentReward ← bf16
  let opponentPresent ← u8
  let position : PositionFeatures :=
    ⟨rootStep, leafDepth, budgetFraction, budgetStep, opponentReward, opponentPresent ≠ 0⟩
  if position.budgetFraction.isFinite = false ∨ position.budgetStep.isFinite = false ∨
        position.opponentReward.isFinite = false then
    throw (.invalidEncoding "non-finite position feature")
  if position.opponentPresent = false ∧ position.opponentReward.isZero = false then
    throw (.invalidEncoding "absent opponent must have zero reward")
  pure position

def readOpponent : Reader (Option OpponentStateFeatures) := do
  let present ← u8
  if present ≠ 0 then
    let nodeCount ← u32
    let (nodeTokens, nodeAttrs, edges) ← readStateBody nodeCount
    let position ← readPosition
    pure (some ⟨nodeCount, nodeTokens, nodeAttrs, edges, position⟩)
  else
    pure none

/-- The fields of a row, after the header. -/
def readRow : Reader FeatureRow := do
  let nodeCount ← u32
  let (nodeTokens, nodeAttrs, edges) ← readStateBody nodeCount
  let actionCount ← len
  let actions ← Decoder.repeated (readAction nodeCount) actionCount
  let position ← readPosition
  let opponent ← readOpponent
  pure ⟨nodeCount, nodeTokens, nodeAttrs, edges, actions, position, opponent⟩

def parseRowHeader (bytes : List UInt8) : FeatureResult (List UInt8) := do
  if bytes.length < rowHeaderLen then
    throw (.invalidEncoding "row header truncated")
  if bytes.take 4 ≠ rowMagic then
    throw (.invalidEncoding "bad row magic")
  if ofLeBytes ((bytes.drop 4).take 4) ≠ encodingVersion then
    throw (.invalidEncoding "unsupported row version")
  pure ((bytes.drop 8).take 32)

def validateFeatureRowHeader (bytes : List UInt8)
    (expected : FeatureSchemaHash) : FeatureResult Unit := do
  let schemaHash ← parseRowHeader bytes
  if schemaHash ≠ expected.bytes then
    throw (.invalidEncoding "feature schema hash mismatch")

def decodeFeatureRow (bytes : List UInt8) : FeatureResult FeatureRow := do
  let _ ← parseRowHeader bytes
  let (row, rest) ← readRow.decode (bytes.drop rowHeaderLen)
  if rest ≠ [] then
    throw (.invalidEncoding "trailing row bytes")
  pure row

end GraphZero.Features
