import GraphZero.Engine.Refs
import GraphZero.Features.FloatOrder
import GraphZero.Replay.Records

/-!
# The contents of replay records

Records and rows with all their fields.  The storage paths see them as bytes;
the checks and the stored form of a row read every field.
-/

namespace GraphZero.Replay.Contents

open GraphZero.Engine
open GraphZero.Features (F32)

inductive StoredReplayReferenceKind where
  | rootBaseline
  | greedy
  | beam
  | random
  | gumbel
  | selfAverage
  | gatedPolicy

/-- What older stores kept of the trajectory an outcome was compared with. -/
structure StoredReplayReference where
  kind : StoredReplayReferenceKind
  reward : F32
  finalGraph : Option ReplayGraphContext
  trajectoryId : Option UInt64
  searchConfigHash : Option SearchConfigHash
  modelVersion : Option ModelVersion

structure ReplayOutcome where
  valueTarget : Option F32
  reward : F32
  legacyReference : Option StoredReplayReference
  /-- The search selected STOP; otherwise the episode hit the move budget. -/
  stopped : Bool

def ReplayOutcome.new (valueTarget : Option F32) (reward : F32) (stopped : Bool) : ReplayOutcome :=
  ⟨valueTarget, reward, none, stopped⟩

structure ReplayEpisodeRecord where
  root : ReplayGraphContext
  finalGraph : ReplayGraphContext
  steps : List SearchStepRef
  finalMeasure : MeasureSummary F32
  outcome : ReplayOutcome
  searchConfigHash : SearchConfigHash
  rowCount : UInt32

structure ReplayRow where
  kind : ReplayRowKind
  stepIndex : UInt32
  root : ReplayGraphContext
  state : ReplayGraphContext
  actionHistory : List PortableSearchActionRef
  legalActions : List PortableSearchActionRef
  policyTarget : List F32
  selectedAction : Option PortableSearchActionRef
  valueTarget : Option F32
  horizonValueTargets : Option (F32 × F32)
  rewardTarget : Option F32
  finalMeasure : MeasureSummary F32
  modelVersion : Option ModelVersion
  searchConfigHash : SearchConfigHash
  featureRow : Option Bytes

namespace Sample

def root : ReplayGraphContext := ⟨⟨1, 1, 1⟩, 1⟩

def measure : MeasureSummary F32 where
  graphHash := 1
  configHash := 1
  measured := true
  valid := true
  latency := none
  scalarReward := some F32.one
  failureCode := none

/-- One search that selects STOP at the root. -/
def record : ReplayEpisodeRecord where
  root := root
  finalGraph := root
  steps := [⟨root, .stop root, root⟩]
  finalMeasure := measure
  outcome := .new none F32.one true
  searchConfigHash := 1
  rowCount := 1

/-- The policy of this row is not in the stored precision. -/
def row : ReplayRow where
  kind := .decision
  stepIndex := 0
  root := root
  state := root
  actionHistory := []
  legalActions := [.candidate ⟨root, 1⟩, .stop root]
  policyTarget := [⟨0x3e99999a⟩, ⟨0x3f333333⟩]
  selectedAction := some (.stop root)
  valueTarget := none
  horizonValueTargets := none
  rewardTarget := some F32.one
  finalMeasure := measure
  modelVersion := some 1
  searchConfigHash := 1
  featureRow := none

end Sample

end GraphZero.Replay.Contents
