import GraphZero.Replay.Contract

/-!
# What an accepted contract agrees with

A contract that passes the checks of a store with rows equals the stored one,
with the defaults of the values that are missing.  The values it adds read back
as its own.
-/

namespace GraphZero.Replay

open GraphZero.Engine
open GraphZero.Features
open GraphZero.Foundation

namespace NonNegative

theorem isNan_eq_false (value : NonNegative) : value.value.isNan = false :=
  F32.isNan_eq_false_of_isFinite value.finite

theorem equals_iff {left right : NonNegative} :
    left.equals right = true ↔ left.value.place = right.value.place := by
  unfold equals F32.equals
  rw [left.isNan_eq_false, right.isNan_eq_false]
  exact beq_iff_eq

theorem eq_of_value_eq {left right : NonNegative}
    (same : left.value = right.value) : left = right := by
  cases left
  cases right
  cases same
  rfl

theorem eq_zero_of_equals {value : NonNegative}
    (isZero : value.value.equals F32.zero = true) : value = zero := by
  have place : value.value.place = 0 := (@equals_iff value zero).mp isZero
  have magnitude := F32.place_eq_zero_iff.mp place
  have word : value.value.bits.toNat < 2 ^ 32 := value.value.bits.toNat_lt
  have sides : value.value.bits.toNat = 0 ∨ value.value.bits.toNat = 2 ^ 31 := by
    omega
  rcases sides with pos | negative
  · exact eq_of_value_eq (congrArg F32.mk (UInt32.toNat_inj.mp pos))
  · exact absurd (congrArg F32.mk (UInt32.toNat_inj.mp negative)) value.normal

theorem new_value (value : NonNegative) : new value.value = some value := by
  unfold new
  rw [dif_pos ⟨value.finite, value.nonNegative⟩]
  split
  next isZero => rw [eq_zero_of_equals isZero]
  next => rfl

end NonNegative

theorem parseNonNegative_stored (corrupt : String) (value : NonNegative) :
    parseNonNegative corrupt (storedNonNegative value) = .ok value := by
  rw [parseNonNegative, storedNonNegative, decodeU32_encodeU32, Option.bind_some,
    NonNegative.new_value]
  rfl

theorem ofNat_ofBeBytes {width bytes} (wide : 256 ^ bytes = 2 ^ width) (value : BitVec width) :
    BitVec.ofNat width (ofBeBytes (toBeBytes bytes value.toNat)) = value := by
  rw [ofBeBytes_toBeBytes (wide ▸ value.isLt), BitVec.ofNat_toNat, BitVec.setWidth_eq]

theorem parseEngineIdentity_stored (identity : EngineIdentity) :
    parseEngineIdentity (storedEngineIdentity identity) = .ok identity := by
  have long : (storedEngineIdentity identity).length = 64 := by
    rw [storedEngineIdentity, List.length_append, List.length_append,
      length_toBeBytes, length_toBeBytes, length_toBeBytes]
  have firstLength := length_toBeBytes 16 identity.engineId.toNat
  have secondLength := length_toBeBytes 16 identity.engineVersion.toNat
  have rest : (storedEngineIdentity identity).drop 16 = toBeBytes 16 identity.engineVersion.toNat ++
        toBeBytes 32 identity.actionSetHash.toNat :=
    List.drop_left' firstLength
  have last : (storedEngineIdentity identity).drop 32 =
      toBeBytes 32 identity.actionSetHash.toNat := by
    rw [show (32 : Nat) = 16 + 16 from rfl, ← List.drop_drop, rest, List.drop_left' secondLength]
  rw [parseEngineIdentity, if_neg (not_not_intro long), rest, last,
    List.take_left' secondLength, storedEngineIdentity,
    List.take_left' firstLength, ofNat_ofBeBytes (by norm_num),
    ofNat_ofBeBytes (by norm_num), ofNat_ofBeBytes (by norm_num)]

structure StoredContract where
  dataMode : Option ReplayDataMode
  engineIdentity : Option EngineIdentity
  featureSchema : Option FeatureSchemaConfig
  symmetricRewardTieEpsilon : Option SymmetricRewardTieEpsilon
  symmetricRewardTargetScale : Option SymmetricRewardTargetScale

def storedContract (schemas : SchemaCodec) (database : Database)
    (records : ContractRecords) : ReplayResult StoredContract := do
  let dataMode ← readDataMode database
  let engineIdentity ← records.readEngineIdentity
  let featureSchema ← records.readFeatureSchema schemas
  let symmetricRewardTieEpsilon ← records.readSymmetricRewardTieEpsilon
  let symmetricRewardTargetScale ← records.readSymmetricRewardTargetScale
  return {
    dataMode
    engineIdentity
    featureSchema
    symmetricRewardTieEpsilon
    symmetricRewardTargetScale }

namespace StoredContract

variable (stored : StoredContract)

/-- Games of stores that do not say are standard ones. -/
def boundMode : ReplayDataMode :=
  stored.dataMode.getD .standard

def boundParameter (value : Option NonNegative) (default : NonNegative) : Option NonNegative :=
  if stored.boundMode.isSymmetricSelfplay then some (value.getD default)
  else none

def contract (identity : EngineIdentity) : ReplayContract where
  dataMode := stored.boundMode
  featureSchema := stored.featureSchema
  engineIdentity := identity
  symmetricRewardTieEpsilon :=
    stored.boundParameter stored.symmetricRewardTieEpsilon SymmetricRewardTieEpsilon.ZERO
  symmetricRewardTargetScale :=
    stored.boundParameter stored.symmetricRewardTargetScale SymmetricRewardTargetScale.HARD

/-- The stored values with those that a contract adds. -/
def bind (contract : ReplayContract) : StoredContract where
  dataMode := some contract.dataMode
  engineIdentity := some contract.engineIdentity
  featureSchema := stored.featureSchema.or contract.featureSchema
  symmetricRewardTieEpsilon :=
    stored.symmetricRewardTieEpsilon.or contract.symmetricRewardTieEpsilon
  symmetricRewardTargetScale :=
    stored.symmetricRewardTargetScale.or contract.symmetricRewardTargetScale

end StoredContract

theorem boundMode_eq {store : ReplayStore} {dataMode}
    (checked : store.checkDataMode dataMode = .ok ()) (episodes : store.nextEpisodeSeq ≠ 0) :
    store.dataMode.getD .standard = dataMode := by
  have pos : 0 < store.nextEpisodeSeq := UInt64.pos_iff_ne_zero.mpr episodes
  unfold ReplayStore.checkDataMode at checked
  split at checked
  next stored bound =>
    split at checked
    next => cases checked
    next same =>
    rw [bound]
    exact not_not.mp same
  next unbound =>
  split at checked
  next => cases checked
  next standard =>
  rw [unbound]
  exact (not_not.mp fun other => standard ⟨pos, other⟩).symm

variable {producedRows : UInt64}

theorem equals_boundParameter {before after : StoredContract} {default stored expected tested}
    (checked : checkTarget default stored expected producedRows = .ok ()) (rows : producedRows ≠ 0)
    (sameMode : after.boundMode = before.boundMode)
    (equal : Contents.optionEquals NonNegative.equals
      (after.boundParameter (stored.or expected) default) tested = true) :
    Contents.optionEquals NonNegative.equals
      (before.boundParameter stored default) tested = true := by
  unfold StoredContract.boundParameter at equal ⊢
  rw [sameMode] at equal
  generalize before.boundMode.isSymmetricSelfplay = symmetric at equal ⊢
  cases symmetric with
  | false => exact equal
  | true =>
    cases stored with
    | some stored => exact equal
    | none =>
      cases expected with
      | none => exact equal
      | some expected =>
        unfold checkTarget at checked
        dsimp only at checked
        split at checked
        next same =>
          have isDefault := NonNegative.equals_iff.mp (same.resolve_right rows)
          cases tested with
          | none => cases equal
          | some tested =>
            have chosen : expected.equals tested = true := equal
            exact NonNegative.equals_iff.mpr
              (isDefault.symm.trans (NonNegative.equals_iff.mp chosen))
        next => cases checked

end GraphZero.Replay
