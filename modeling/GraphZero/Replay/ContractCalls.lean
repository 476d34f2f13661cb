import GraphZero.Replay.ContractChecks

/-!
# A call that binds a contract

What an accepted call has checked and written.  With rows in the store it keeps
the contract that the store was bound to, and the same call again changes
nothing.
-/

namespace GraphZero.Replay

open GraphZero.Engine
open GraphZero.Features
open GraphZero.Foundation

namespace ContractStore

variable {schemas : SchemaCodec} {decode : EpisodeDecoder}
  {current after : ContractStore} {contract : ReplayContract}

/-- The memory of an open store shows the stored mode and identity. -/
structure Synced (current : ContractStore) : Prop where
  dataMode : readDataMode current.database = .ok current.store.dataMode
  engineIdentity : current.records.readEngineIdentity = .ok current.engineIdentity

/-- What the checks of an accepted contract found. -/
structure Staged (schemas : SchemaCodec) (decode : EpisodeDecoder)
    (current : ContractStore) (contract : ReplayContract)
    (schema : Option FeatureSchemaConfig) (epsilon scale : Option NonNegative)
    (bytes : Option Bytes) : Prop where
  shaped : contract.wellShaped = true
  config : checkConfig contract = .ok ()
  readSchema : current.records.readFeatureSchema schemas = .ok schema
  readEpsilon : current.records.readSymmetricRewardTieEpsilon = .ok epsilon
  readScale : current.records.readSymmetricRewardTargetScale = .ok scale
  schemaFits : checkFeatureSchema schema contract.featureSchema current.store.producedRows = .ok ()
  modeFits : current.store.checkDataMode contract.dataMode = .ok ()
  identityFits : current.checkEngineIdentity decode contract = .ok ()
  epsilonFits : checkTarget SymmetricRewardTieEpsilon.ZERO epsilon
    contract.symmetricRewardTieEpsilon current.store.producedRows = .ok ()
  scaleFits : checkTarget SymmetricRewardTargetScale.HARD scale
    contract.symmetricRewardTargetScale current.store.producedRows = .ok ()
  encoded : schemas.encodeMissing schema contract.featureSchema = .ok bytes

/-- The stored values of a synchronized store, as they were read. -/
abbrev stored (current : ContractStore) (schema : Option FeatureSchemaConfig)
    (epsilon scale : Option NonNegative) : StoredContract where
  dataMode := current.store.dataMode
  engineIdentity := current.engineIdentity
  featureSchema := schema
  symmetricRewardTieEpsilon := epsilon
  symmetricRewardTargetScale := scale

/-- The store that a contract is bound in. -/
def bound (current : ContractStore) (contract : ReplayContract)
    (bytes : Option Bytes) : ContractStore where
  database := current.database.write (if current.store.dataMode.isNone then
      [.putMeta .dataMode contract.dataMode.bytes]
    else
      [])
  records := boundRecords contract current.records current.engineIdentity.isSome bytes
  store := { current.store with dataMode := some contract.dataMode }
  engineIdentity := some contract.engineIdentity

variable {written : ReplayResult Unit}

theorem ensureContract_eq_ok
    (succeeded : current.ensureContract schemas decode contract written = (.ok (), after)) :
    ∃ schema epsilon scale bytes,
      Staged schemas decode current contract schema epsilon scale bytes ∧
        after = current.bound contract bytes := by
  unfold ensureContract at succeeded
  split at succeeded
  next => cases succeeded
  next batch records staged =>
  split at succeeded
  next => cases succeeded
  next =>
  cases succeeded
  obtain ⟨shaped, staged⟩ := ok_of_guard staged
  obtain ⟨_, config, staged⟩ := ok_of_bind staged
  obtain ⟨schema, readSchema, staged⟩ := ok_of_bind staged
  obtain ⟨epsilon, readEpsilon, staged⟩ := ok_of_bind staged
  obtain ⟨scale, readScale, staged⟩ := ok_of_bind staged
  obtain ⟨_, schemaFits, staged⟩ := ok_of_bind staged
  obtain ⟨_, modeFits, staged⟩ := ok_of_bind staged
  obtain ⟨_, identityFits, staged⟩ := ok_of_bind staged
  obtain ⟨_, epsilonFits, staged⟩ := ok_of_bind staged
  obtain ⟨_, scaleFits, staged⟩ := ok_of_bind staged
  obtain ⟨bytes, encoded, staged⟩ := ok_of_bind staged
  cases staged
  exact ⟨schema, epsilon, scale, bytes,
    ⟨eq_true_of_ne_false shaped, config, readSchema, readEpsilon,
      readScale, schemaFits, modeFits, identityFits, epsilonFits,
      scaleFits, encoded⟩, rfl⟩

theorem Staged.ensureContract {schema epsilon scale bytes}
    (staged : Staged schemas decode current contract schema epsilon scale bytes) :
    current.ensureContract schemas decode contract (.ok ()) =
      (.ok (), current.bound contract bytes) := by
  have accepted : current.stageContract schemas decode contract =
      .ok (if current.store.dataMode.isNone then
          [.putMeta .dataMode contract.dataMode.bytes]
        else
          [], boundRecords contract current.records current.engineIdentity.isSome bytes) := by
    unfold stageContract
    rw [if_neg (ne_false_of_eq_true staged.shaped), staged.config,
      staged.readSchema, staged.readEpsilon, staged.readScale]
    change (do
      checkFeatureSchema schema contract.featureSchema current.store.producedRows
      _) = _
    rw [staged.schemaFits, staged.modeFits, staged.identityFits,
      staged.epsilonFits, staged.scaleFits, staged.encoded]
    rfl
  unfold ContractStore.ensureContract
  rw [accepted]
  rfl

theorem ensureContract_error {failure}
    (failed : current.ensureContract schemas decode contract written =
      (.error failure, after)) : after = current := by
  unfold ContractStore.ensureContract at failed
  split at failed
  next =>
    cases failed
    rfl
  next =>
  split at failed
  next =>
    cases failed
    rfl
  next => cases failed

/-! ### Reading the bound values back -/

section Bound

variable {schema : Option FeatureSchemaConfig}
  {epsilon scale : Option NonNegative} {bytes : Option Bytes}

theorem readOptional_some {α : Type} {read raw} {stored : Option α}
    (found : readOptional read (some raw) = .ok stored) :
    ∃ value, read raw = .ok value ∧ stored = some value := by
  cases parsed : read raw with
  | ok value =>
    rw [readOptional, parsed] at found
    cases found
    exact ⟨value, rfl, rfl⟩
  | error failure =>
    rw [readOptional, parsed] at found
    cases found

theorem readOptional_nonNegative {corrupt raw} {stored : Option NonNegative}
    (given : Option NonNegative) (read : readOptional (parseNonNegative corrupt) raw = .ok stored) :
    readOptional (parseNonNegative corrupt)
      (raw.or (given.map storedNonNegative)) = .ok (stored.or given) := by
  cases raw with
  | some raw =>
    obtain ⟨value, parsed, rfl⟩ := readOptional_some read
    rw [Option.some_or, Option.some_or, readOptional, parsed]
    rfl
  | none =>
    cases read
    cases given with
    | none => rfl
    | some given =>
      rw [Option.none_or, Option.none_or, Option.map_some, readOptional, parseNonNegative_stored]
      rfl

variable (staged : Staged schemas decode current contract schema epsilon scale bytes)
include staged

theorem Staged.readFeatureSchema :
    (current.bound contract bytes).records.readFeatureSchema schemas =
      .ok (schema.or contract.featureSchema) := by
  have read := staged.readSchema
  have encoded := staged.encoded
  unfold ContractRecords.readFeatureSchema bound boundRecords at *
  cases raw : current.records.featureSchema with
  | some stored =>
    rw [raw] at read
    obtain ⟨config, decoded, rfl⟩ := readOptional_some read
    rw [Option.some_or, Option.some_or, readOptional, decoded]
    rfl
  | none =>
    rw [raw] at read
    cases read
    rw [Option.none_or, Option.none_or]
    cases given : contract.featureSchema with
    | none =>
      rw [given] at encoded
      cases encoded
      rfl
    | some config =>
      rw [given] at encoded
      change (schemas.encode config).map some = .ok bytes at encoded
      cases made : schemas.encode config with
      | error failure =>
        rw [made] at encoded
        cases encoded
      | ok stored =>
        rw [made] at encoded
        cases encoded
        rw [readOptional, schemas.decode_encode made]
        rfl

theorem Staged.readDataMode (synced : current.Synced) :
    GraphZero.Replay.readDataMode (current.bound contract bytes).database =
      .ok (some contract.dataMode) := by
  have fits := staged.modeFits
  unfold bound
  cases stored : current.store.dataMode with
  | none =>
    rw [Option.isNone_none, if_pos rfl, GraphZero.Replay.readDataMode,
      getMeta_write_single, if_pos rfl]
    dsimp only
    rw [ReplayDataMode.fromBytes_bytes]
  | some mode =>
    rw [ReplayStore.checkDataMode, stored] at fits
    dsimp only at fits
    split at fits
    next => cases fits
    next same =>
    rw [Option.isNone_some, if_neg Bool.false_ne_true, Database.write_nil,
      synced.dataMode, stored, not_not.mp same]

theorem Staged.identity_eq {identity} (stored : current.engineIdentity = some identity) :
    identity = contract.engineIdentity := by
  have fits := staged.identityFits
  rw [checkEngineIdentity, stored] at fits
  dsimp only at fits
  split at fits
  next => cases fits
  next same => exact not_not.mp same

theorem Staged.readEngineIdentity (synced : current.Synced) :
    (current.bound contract bytes).records.readEngineIdentity =
      .ok (some contract.engineIdentity) := by
  unfold ContractRecords.readEngineIdentity bound boundRecords
  cases stored : current.engineIdentity with
  | none =>
    rw [Option.isSome_none, if_neg Bool.false_ne_true, readOptional, parseEngineIdentity_stored]
    rfl
  | some identity =>
    rw [Option.isSome_some, if_pos rfl, ← staged.identity_eq stored, ← stored]
    exact synced.engineIdentity

theorem Staged.storedContract (synced : current.Synced) :
    GraphZero.Replay.storedContract schemas current.database current.records =
      .ok (current.stored schema epsilon scale) := by
  unfold GraphZero.Replay.storedContract
  rw [synced.dataMode, synced.engineIdentity, staged.readSchema,
    staged.readEpsilon, staged.readScale]
  rfl

theorem Staged.storedContract_bound (synced : current.Synced) :
    GraphZero.Replay.storedContract schemas (current.bound contract bytes).database
        (current.bound contract bytes).records =
      .ok ((current.stored schema epsilon scale).bind contract) := by
  have readEpsilon : (current.bound contract bytes).records.readSymmetricRewardTieEpsilon =
        .ok (epsilon.or contract.symmetricRewardTieEpsilon) :=
    readOptional_nonNegative _ staged.readEpsilon
  have readScale : (current.bound contract bytes).records.readSymmetricRewardTargetScale =
        .ok (scale.or contract.symmetricRewardTargetScale) :=
    readOptional_nonNegative _ staged.readScale
  unfold GraphZero.Replay.storedContract
  rw [staged.readDataMode synced, staged.readEngineIdentity synced,
    staged.readFeatureSchema, readEpsilon, readScale]
  rfl

theorem Staged.contract_bind (rows : current.store.producedRows ≠ 0)
    (episodes : current.store.nextEpisodeSeq ≠ 0) {identity tested}
    (equal : (((current.stored schema epsilon scale).bind contract).contract
      identity).equals tested = true) :
    ((current.stored schema epsilon scale).contract identity).equals tested = true := by
  have mode := boundMode_eq staged.modeFits episodes
  have sameMode : ((current.stored schema epsilon scale).bind contract).boundMode =
      (current.stored schema epsilon scale).boundMode := mode.symm
  have sameSchema : schema.or contract.featureSchema = schema := by
    have fits := staged.schemaFits
    unfold checkFeatureSchema at fits
    split at fits
    next => rfl
    next =>
      rw [if_neg rows] at fits
      cases fits
    next _ _ nothing =>
      rw [nothing]
      rfl
    next => cases fits
  unfold ReplayContract.equals at equal ⊢
  simp only [Bool.and_eq_true, beq_iff_eq] at equal ⊢
  obtain ⟨⟨⟨⟨modes, schemas⟩, identities⟩, epsilons⟩, scales⟩ := equal
  refine ⟨⟨⟨⟨mode.trans modes, ?_⟩, identities⟩, ?_⟩, ?_⟩
  · rw [← sameSchema]
    exact schemas
  · exact equals_boundParameter staged.epsilonFits rows sameMode epsilons
  · exact equals_boundParameter staged.scaleFits rows sameMode scales

omit staged in
theorem configEquals_self {config} (valid : validateConfig config = .ok ()) :
    configEquals config config = true := by
  unfold validateConfig at valid
  simp only [throw_bind_else_eq_ok_iff] at valid
  obtain ⟨-, -, -, -, -, -, -, -, -, scale, -⟩ := valid
  have finite : config.opponentRewardScale.isFinite = true :=
    eq_true_of_ne_false fun infinite => scale (Or.inl infinite)
  unfold configEquals F32.equals
  rw [F32.isNan_eq_false_of_isFinite finite, beq_self_eq_true, decide_eq_true rfl]
  rfl

omit staged in
theorem checkTarget_or {default stored expected producedRows}
    (checked : checkTarget default stored expected producedRows = .ok ()) :
    checkTarget default (stored.or expected) expected producedRows = .ok () := by
  cases stored with
  | some stored => exact checked
  | none =>
    cases expected with
    | none => rfl
    | some expected => exact if_pos (NonNegative.equals_iff.mpr rfl)

theorem Staged.checkFeatureSchema_or :
    checkFeatureSchema (schema.or contract.featureSchema) contract.featureSchema
      current.store.producedRows = .ok () := by
  have fits := staged.schemaFits
  have config := staged.config
  cases schema with
  | some stored => exact fits
  | none =>
    cases given : contract.featureSchema with
    | none => rfl
    | some expected =>
      rw [checkConfig, given] at config
      exact if_pos (configEquals_self (ok_of_mapError config))

theorem Staged.again : Staged schemas decode (current.bound contract bytes) contract
      (schema.or contract.featureSchema)
      (epsilon.or contract.symmetricRewardTieEpsilon)
      (scale.or contract.symmetricRewardTargetScale) none where
  shaped := staged.shaped
  config := staged.config
  readSchema := staged.readFeatureSchema
  readEpsilon := readOptional_nonNegative _ staged.readEpsilon
  readScale := readOptional_nonNegative _ staged.readScale
  schemaFits := staged.checkFeatureSchema_or
  modeFits := if_neg (not_not_intro rfl)
  identityFits := if_neg (not_not_intro rfl)
  epsilonFits := checkTarget_or staged.epsilonFits
  scaleFits := checkTarget_or staged.scaleFits
  encoded := by
    cases schema with
    | some stored => rfl
    | none =>
      cases contract.featureSchema with
      | none => rfl
      | some expected => rfl

end Bound

end ContractStore

end GraphZero.Replay
