import GraphZero.Replay.BestCost

/-!
# The replay contract

A store is bound to what its rows mean: how games are played, the engine and
the feature schema, and two parameters of symmetric targets.  Each is a `meta`
value of its own that older stores may lack.
-/

namespace GraphZero.Replay

open GraphZero.Engine
open GraphZero.Features
open GraphZero.Foundation

/-- A float that is finite and at least zero, and not the negative zero. -/
structure NonNegative where
  value : F32
  finite : value.isFinite = true
  nonNegative : F32.zero.lessEq value = true
  normal : value ≠ F32.negativeZero

namespace NonNegative

def zero : NonNegative where
  value := F32.zero
  finite := by decide +kernel
  nonNegative := by decide
  normal := by decide

def new (value : F32) : Option NonNegative :=
  if valid : value.isFinite = true ∧ F32.zero.lessEq value = true then
    if isZero : value.equals F32.zero = true then
      some zero
    else
      some
        { value
          finite := valid.1
          nonNegative := valid.2
          normal := fun same => isZero (by rw [same]; decide) }
  else
    none

def equals (left right : NonNegative) : Bool :=
  left.value.equals right.value

end NonNegative

abbrev SymmetricRewardTieEpsilon : Type := NonNegative

def SymmetricRewardTieEpsilon.ZERO : SymmetricRewardTieEpsilon :=
  NonNegative.zero

abbrev SymmetricRewardTargetScale : Type := NonNegative

def SymmetricRewardTargetScale.HARD : SymmetricRewardTargetScale :=
  NonNegative.zero

def SymmetricRewardTargetScale.isGraded (scale : SymmetricRewardTargetScale) : Bool :=
  F32.zero.less scale.value

structure ReplayContract where
  dataMode : ReplayDataMode
  featureSchema : Option FeatureSchemaConfig
  engineIdentity : EngineIdentity
  symmetricRewardTieEpsilon : Option SymmetricRewardTieEpsilon
  symmetricRewardTargetScale : Option SymmetricRewardTargetScale

def configEquals (left right : FeatureSchemaConfig) : Bool :=
  left.opponentRewardScale.equals right.opponentRewardScale &&
    decide ({ left with opponentRewardScale := right.opponentRewardScale } = right)

namespace ReplayContract

def equals (left right : ReplayContract) : Bool :=
  left.dataMode == right.dataMode &&
    Contents.optionEquals configEquals left.featureSchema right.featureSchema &&
    left.engineIdentity == right.engineIdentity &&
    Contents.optionEquals NonNegative.equals left.symmetricRewardTieEpsilon
      right.symmetricRewardTieEpsilon &&
    Contents.optionEquals NonNegative.equals left.symmetricRewardTargetScale
      right.symmetricRewardTargetScale

/-- Symmetric play has both parameters, and not both away from zero. -/
def wellShaped (contract : ReplayContract) : Bool :=
  !(contract.dataMode.isSymmetricSelfplay != contract.symmetricRewardTieEpsilon.isSome ||
      contract.dataMode.isSymmetricSelfplay != contract.symmetricRewardTargetScale.isSome ||
      contract.symmetricRewardTargetScale.any SymmetricRewardTargetScale.isGraded &&
        contract.symmetricRewardTieEpsilon.any fun epsilon =>
          !epsilon.equals SymmetricRewardTieEpsilon.ZERO)

end ReplayContract

/-- The `meta` values of the contract but for the data mode. -/
structure ContractRecords where
  engineIdentity : Option Bytes
  featureSchema : Option Bytes
  symmetricRewardTieEpsilon : Option Bytes
  symmetricRewardTargetScale : Option Bytes

structure SchemaCodec where
  encode : FeatureSchemaConfig → ReplayResult Bytes
  decode : Bytes → ReplayResult FeatureSchemaConfig
  decode_encode : ∀ {config bytes},
    encode config = .ok bytes → decode bytes = .ok config

/-- The bytes of a schema that is not stored yet. -/
def SchemaCodec.encodeMissing (schemas : SchemaCodec)
    (stored expected : Option FeatureSchemaConfig) :
    ReplayResult (Option Bytes) :=
  match stored, expected with
  | none, some config => (schemas.encode config).map some
  | _, _ => .ok none

/-- The deserializer of stored episodes. -/
abbrev EpisodeDecoder : Type :=
  Bytes → ReplayResult Contents.ReplayEpisodeRecord

def readOptional {α : Type} (read : Bytes → ReplayResult α) : Option Bytes → ReplayResult (Option α)
  | none => .ok none
  | some bytes => (read bytes).map some

def parseNonNegative (corrupt : String) (bytes : Bytes) : ReplayResult NonNegative :=
  orStorage ((decodeU32 bytes).bind fun bits => NonNegative.new ⟨bits⟩) corrupt

def storedNonNegative (value : NonNegative) : Bytes :=
  encodeU32 value.value.bits

def parseEngineIdentity (bytes : Bytes) : ReplayResult EngineIdentity :=
  if bytes.length ≠ 64 then
    storage "corrupt engine identity"
  else
    .ok
      { engineId := BitVec.ofNat 128 (ofBeBytes (bytes.take 16))
        engineVersion := BitVec.ofNat 128 (ofBeBytes ((bytes.drop 16).take 16))
        actionSetHash := BitVec.ofNat 256 (ofBeBytes (bytes.drop 32)) }

def storedEngineIdentity (identity : EngineIdentity) : Bytes :=
  toBeBytes 16 identity.engineId.toNat ++ (toBeBytes 16 identity.engineVersion.toNat ++
      toBeBytes 32 identity.actionSetHash.toNat)

namespace ContractRecords

variable (records : ContractRecords)

def readEngineIdentity : ReplayResult (Option EngineIdentity) :=
  readOptional parseEngineIdentity records.engineIdentity

def readFeatureSchema (schemas : SchemaCodec) : ReplayResult (Option FeatureSchemaConfig) :=
  readOptional schemas.decode records.featureSchema

def readSymmetricRewardTieEpsilon : ReplayResult (Option SymmetricRewardTieEpsilon) :=
  readOptional (parseNonNegative "corrupt symmetric reward tie epsilon")
    records.symmetricRewardTieEpsilon

def readSymmetricRewardTargetScale : ReplayResult (Option SymmetricRewardTargetScale) :=
  readOptional (parseNonNegative "corrupt symmetric reward target scale")
    records.symmetricRewardTargetScale

end ContractRecords

def checkFeatureSchema (stored expected : Option FeatureSchemaConfig)
    (producedRows : UInt64) : ReplayResult Unit :=
  match stored, expected with
  | some stored, some expected =>
    if configEquals stored expected then .ok () else .error .invalidRecord
  | none, some _ => if producedRows = 0 then .ok () else .error .invalidRecord
  | none, none => .ok ()
  | some _, none => .error .invalidRecord

/-- The check of a target parameter whose value was `default` before it was
stored. -/
def checkTarget (default : NonNegative) (stored expected : Option NonNegative)
    (producedRows : UInt64) : ReplayResult Unit :=
  match stored, expected with
  | some stored, some expected =>
    if stored.equals expected then .ok () else .error .targetContractMismatch
  | none, some expected =>
    if expected.equals default = true ∨ producedRows = 0 then .ok ()
    else .error .targetContractMismatch
  | none, none => .ok ()
  | some _, none => .error .targetContractMismatch

/-- An open store with the values of its contract. -/
structure ContractStore where
  database : Database
  records : ContractRecords
  store : ReplayStore
  engineIdentity : Option EngineIdentity

namespace ContractStore

variable (schemas : SchemaCodec) (decode : EpisodeDecoder)
  (current : ContractStore) (contract : ReplayContract)

def episodeValues : List Bytes :=
  (current.database.families .episodes).sortedKeys.filterMap (current.database.get .episodes)

def checkEpisode (identity : EngineIdentity) (bytes : Bytes) : ReplayResult Unit := do
  let record ← decode bytes
  verdict (Contents.validateEpisodeEngineIdentity record identity)

def checkEngineIdentity : ReplayResult Unit :=
  match current.engineIdentity with
  | some stored =>
    if stored ≠ contract.engineIdentity then .error .engineIdentityMismatch
    else .ok ()
  | none => do
      let _ ← current.episodeValues.mapM (checkEpisode decode contract.engineIdentity)
      return ()

/-- `FeatureSchema::new` as far as the contract uses it. -/
def checkConfig : ReplayResult Unit :=
  match contract.featureSchema with
  | some config => (validateConfig config).mapError fun _ => .invalidRecord
  | none => .ok ()

/-- The values that the contract adds to the stored ones. -/
def boundRecords (records : ContractRecords) (identityBound : Bool)
    (schema : Option Bytes) : ContractRecords where
  engineIdentity :=
    if identityBound then records.engineIdentity
    else some (storedEngineIdentity contract.engineIdentity)
  featureSchema := records.featureSchema.or schema
  symmetricRewardTieEpsilon := records.symmetricRewardTieEpsilon.or
    (contract.symmetricRewardTieEpsilon.map storedNonNegative)
  symmetricRewardTargetScale := records.symmetricRewardTargetScale.or
    (contract.symmetricRewardTargetScale.map storedNonNegative)

/-- The checks of `ensure_contract` and the one batch it writes. -/
def stageContract : ReplayResult (List BatchOp × ContractRecords) := do
  if contract.wellShaped = false then
    throw .invalidRecord
  checkConfig contract
  let storedSchema ← current.records.readFeatureSchema schemas
  let storedEpsilon ← current.records.readSymmetricRewardTieEpsilon
  let storedScale ← current.records.readSymmetricRewardTargetScale
  checkFeatureSchema storedSchema contract.featureSchema current.store.producedRows
  current.store.checkDataMode contract.dataMode
  current.checkEngineIdentity decode contract
  checkTarget SymmetricRewardTieEpsilon.ZERO storedEpsilon
    contract.symmetricRewardTieEpsilon current.store.producedRows
  checkTarget SymmetricRewardTargetScale.HARD storedScale
    contract.symmetricRewardTargetScale current.store.producedRows
  let schema ← schemas.encodeMissing storedSchema contract.featureSchema
  let batch :=
    if current.store.dataMode.isNone then
      [BatchOp.putMeta .dataMode contract.dataMode.bytes]
    else
      []
  let identityBound := current.engineIdentity.isSome
  return (batch, boundRecords contract current.records identityBound schema)

/-- `ensure_contract`, where `written` is what the database says to the batch:
the result, and the store after the call. -/
def ensureContract (written : ReplayResult Unit) : ReplayResult Unit × ContractStore :=
  match current.stageContract schemas decode contract with
  | .error failure => (.error failure, current)
  | .ok (batch, records) =>
    match written with
    | .error failure => (.error failure, current)
    | .ok () =>
      (.ok (),
        { database := current.database.write batch
          records
          store := { current.store with dataMode := some contract.dataMode }
          engineIdentity := some contract.engineIdentity })

end ContractStore

end GraphZero.Replay
