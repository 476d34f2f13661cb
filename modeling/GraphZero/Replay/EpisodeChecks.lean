import GraphZero.Features.RowCodec
import GraphZero.Replay.Contents

/-!
# The checks of an episode

A record and its rows come from a search task as independent lists.  The
checks index the steps of the record by the positions of the rows, so an index
past the end, which ends the process, is a failure of its own beside the
errors that a caller sees.
-/

namespace GraphZero.Replay.Contents

open GraphZero.Engine
open GraphZero.Features
open GraphZero.Foundation

def optionEquals {α : Type} (equals : α → α → Bool) : Option α → Option α → Bool
  | none, none => true
  | some left, some right => equals left right
  | _, _ => false

def latencyEquals (left right : LatencyStats F32) : Bool :=
  left.meanMs.equals right.meanMs && left.medianMs.equals right.medianMs &&
    left.p95Ms.equals right.p95Ms &&
    left.samplesMs.isEqv right.samplesMs F32.equals

def measureEquals (left right : MeasureSummary F32) : Bool :=
  left.graphHash == right.graphHash && left.configHash == right.configHash &&
    left.measured == right.measured && left.valid == right.valid &&
    optionEquals latencyEquals left.latency right.latency &&
    optionEquals F32.equals left.scalarReward right.scalarReward &&
    left.failureCode == right.failureCode

/-! ## Checks -/

inductive CheckFailure where
  | refused (failure : ReplayError)
  | indexOutOfBounds
  deriving DecidableEq

abbrev Checked (α : Type) : Type := Except CheckFailure α

/-- `items[index]` -/
def elementAt {α : Type} (items : List α) (index : Nat) : Checked α :=
  match items[index]? with
  | some item => .ok item
  | none => .error .indexOutOfBounds

/-- Refuses unless `condition` holds. -/
def require (condition : Bool) (failure : ReplayError) : Checked Unit :=
  if condition then .ok () else .error (.refused failure)

def symmetricStopEnabled (dataMode : ReplayDataMode) : Bool :=
  dataMode == .symmetricSelfplayStop

def endsInStop (actions : List PortableSearchActionRef) : Bool :=
  actions.getLast?.any PortableSearchActionRef.isStop

def validateEpisodeEngineIdentity (record : ReplayEpisodeRecord)
    (identity : EngineIdentity) : Checked Unit :=
  let matchesIdentity context := EngineIdentity.fromContext context == identity
  require (matchesIdentity record.root && matchesIdentity record.finalGraph &&
      !record.steps.any fun step =>
        !matchesIdentity step.before || !matchesIdentity step.action.context ||
          !matchesIdentity step.after)
    .engineIdentityMismatch

def validateAdmission (record : ReplayEpisodeRecord) : Checked Unit :=
  match record.finalMeasure.scalarReward with
  | none => .error (.refused .notMeasured)
  | some reward =>
    require (record.finalMeasure.measured && record.finalMeasure.valid && reward.isFinite)
      .notMeasured

/-- Finite and between minus one and one. -/
def isUnitTarget (value : F32) : Bool :=
  value.isFinite && value.inUnitRange

def validateValueTarget (value : Option F32) (dataMode : ReplayDataMode) : Checked Unit :=
  match value, dataMode.isSymmetricSelfplay with
  | some target, true => require (isUnitTarget target) .invalidRecord
  | some target, false =>
    require (target.equals F32.one.neg || target.equals F32.one) .invalidRecord
  | none, _ => .ok ()

def validateHorizonValueTargets (targets : Option (F32 × F32))
    (dataMode : ReplayDataMode) : Checked Unit :=
  match targets, dataMode.isSymmetricSelfplay with
  | some (near, far), true => require (isUnitTarget near && isUnitTarget far) .invalidRecord
  | none, false => .ok ()
  | _, _ => .error (.refused .invalidRecord)

def validateOutcome (record : ReplayEpisodeRecord) (dataMode : ReplayDataMode) : Checked Unit := do
  let outcome := record.outcome
  require outcome.reward.isFinite .invalidRecord
  require (optionEquals F32.equals (some outcome.reward) record.finalMeasure.scalarReward)
    .invalidRecord
  validateValueTarget outcome.valueTarget dataMode
  require outcome.legacyReference.isNone .invalidRecord
  require (if dataMode.isSymmetricSelfplay then
      (!outcome.stopped || symmetricStopEnabled dataMode) && outcome.valueTarget.any isUnitTarget &&
        (!symmetricStopEnabled dataMode || outcome.stopped ==
            endsInStop (record.steps.map SearchStepRef.action))
    else
      outcome.valueTarget.isNone)
    .invalidRecord

/-- What a row of either kind repeats of its record. -/
def repeatsRecord (record : ReplayEpisodeRecord) (row : ReplayRow) : Bool :=
  measureEquals row.finalMeasure record.finalMeasure &&
    row.searchConfigHash == record.searchConfigHash &&
    optionEquals F32.equals row.valueTarget record.outcome.valueTarget &&
    optionEquals F32.equals row.rewardTarget (some record.outcome.reward)

def legalActionShapeValid (dataMode : ReplayDataMode)
    (legalActions : List PortableSearchActionRef) : Bool :=
  if symmetricStopEnabled dataMode then
    endsInStop legalActions
  else if dataMode.isSymmetricSelfplay then
    !legalActions.isEmpty && legalActions.all fun action => !action.isStop
  else
    endsInStop legalActions

def validateDecisionRow (record : ReplayEpisodeRecord) (row : ReplayRow)
    (expectedHistory : List PortableSearchActionRef)
    (dataMode : ReplayDataMode) : Checked Unit := do
  let step ← elementAt record.steps row.stepIndex.toNat
  require (row.root == record.root && row.state == step.before &&
      row.selectedAction == some step.action &&
      row.actionHistory == expectedHistory && repeatsRecord record row)
    .invalidRecord
  require (row.legalActions.length == row.policyTarget.length &&
      legalActionShapeValid dataMode row.legalActions)
    .invalidRecord
  require (row.selectedAction.any row.legalActions.contains) .invalidRecord
  require (row.policyTarget.all fun value =>
      value.isFinite && !value.less F32.zero)
    .invalidRecord
  validateValueTarget row.valueTarget dataMode
  validateHorizonValueTargets row.horizonValueTargets dataMode

def validateTerminalRow (record : ReplayEpisodeRecord) (row : ReplayRow)
    (expectedHistory : List PortableSearchActionRef)
    (dataMode : ReplayDataMode) : Checked Unit := do
  require (dataMode.isSymmetricSelfplay && row.root == record.root &&
      row.state == record.finalGraph &&
      row.actionHistory == expectedHistory && row.legalActions.isEmpty &&
      row.policyTarget.isEmpty && row.selectedAction.isNone &&
      repeatsRecord record row)
    .invalidRecord
  validateValueTarget row.valueTarget dataMode
  validateHorizonValueTargets row.horizonValueTargets dataMode

def terminalRowCount (rows : List ReplayRow) : Nat :=
  (rows.filter fun row => row.kind == .terminal).length

def hasFeatureRows (rows : List ReplayRow) : Bool :=
  rows.head?.any fun row => row.featureRow.isSome

/-- The row's header names the schema of the store. -/
def featureHeaderValid (featureSchemaHash : Option FeatureSchemaHash) (row : ReplayRow) : Bool :=
  match row.featureRow, featureSchemaHash with
  | some bytes, some hash => (validateFeatureRowHeader bytes hash).toOption.isSome
  | _, _ => true

/-- What the walk over the rows holds fixed. -/
structure EpisodeScope where
  record : ReplayEpisodeRecord
  featureSchemaHash : Option FeatureSchemaHash
  dataMode : ReplayDataMode
  terminalRows : Nat
  hasFeatureRows : Bool

/-- The checks that a row of either kind passes at `index`. -/
def validateRowFrame (scope : EpisodeScope) (index : Nat) (row : ReplayRow) : Checked Unit := do
  require (index < UInt32.size) .invalidRecord
  require (row.stepIndex == UInt32.ofNat index) .invalidRecord
  require (row.featureRow.isSome == scope.hasFeatureRows) .invalidRecord
  require (featureHeaderValid scope.featureSchemaHash row) .invalidRecord

def validateRows (scope : EpisodeScope) :
    Nat → List PortableSearchActionRef → List ReplayRow → Checked Unit
  | _, _, [] => .ok ()
  | index, expectedHistory, row :: rest => do
      validateRowFrame scope index row
      match row.kind with
      | .decision =>
        validateDecisionRow scope.record row expectedHistory scope.dataMode
        let step ← elementAt scope.record.steps index
        validateRows scope (index + 1) (expectedHistory ++ [step.action]) rest
      | .terminal =>
        require (index == scope.record.steps.length && scope.terminalRows == 1) .invalidRecord
        validateTerminalRow scope.record row expectedHistory scope.dataMode
        validateRows scope (index + 1) expectedHistory rest

def validateEpisode (record : ReplayEpisodeRecord) (rows : List ReplayRow)
    (featureSchemaHash : Option FeatureSchemaHash)
    (dataMode : ReplayDataMode) : Checked Unit := do
  validateEpisodeEngineIdentity record (EngineIdentity.fromContext record.root)
  validateAdmission record
  validateOutcome record dataMode
  require (rows.length == record.rowCount.toNat) .invalidRecord
  let terminalRows := terminalRowCount rows
  require (rows.length == record.steps.length + terminalRows && !decide (1 < terminalRows))
    .invalidRecord
  require (!(hasFeatureRows rows && featureSchemaHash.isNone)) .invalidRecord
  validateRows ⟨record, featureSchemaHash, dataMode, terminalRows, hasFeatureRows rows⟩ 0 [] rows

end GraphZero.Replay.Contents
