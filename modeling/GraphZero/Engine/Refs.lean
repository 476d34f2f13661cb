import Mathlib.Data.BitVec

/-!
# Portable references and measurements

Graphs and actions as they leave the process: a hash under the engine that
made it.  Hashes and versions are byte strings of a fixed length and are only
ever compared.  A measurement is what an engine says of a final graph.
-/

namespace GraphZero.Engine

abbrev GraphHash : Type := BitVec 256
abbrev CandidateHash : Type := BitVec 256
abbrev ActionSetHash : Type := BitVec 256
abbrev MeasureConfigHash : Type := BitVec 256
abbrev SearchConfigHash : Type := BitVec 256
abbrev EngineId : Type := BitVec 128
abbrev EngineVersion : Type := BitVec 128
abbrev ModelVersion : Type := BitVec 128
abbrev CandidateKindId : Type := UInt32
abbrev CandidateTags : Type := UInt64

structure PortableGraphId where
  graphHash : GraphHash
  engineId : EngineId
  engineVersion : EngineVersion
  deriving DecidableEq

structure ReplayGraphContext where
  graph : PortableGraphId
  actionSetHash : ActionSetHash
  deriving DecidableEq

structure EngineIdentity where
  engineId : EngineId
  engineVersion : EngineVersion
  actionSetHash : ActionSetHash
  deriving DecidableEq

namespace EngineIdentity

def fromContext (context : ReplayGraphContext) : EngineIdentity where
  engineId := context.graph.engineId
  engineVersion := context.graph.engineVersion
  actionSetHash := context.actionSetHash

def context (identity : EngineIdentity) (graphHash : GraphHash) : ReplayGraphContext where
  graph := ⟨graphHash, identity.engineId, identity.engineVersion⟩
  actionSetHash := identity.actionSetHash

end EngineIdentity

structure PortableCandidateRef where
  context : ReplayGraphContext
  candidateHash : CandidateHash
  deriving DecidableEq

inductive PortableSearchActionRef where
  | candidate (candidate : PortableCandidateRef)
  | stop (context : ReplayGraphContext)
  deriving DecidableEq

namespace PortableSearchActionRef

def context : PortableSearchActionRef → ReplayGraphContext
  | candidate reference => reference.context
  | stop context => context

def isStop : PortableSearchActionRef → Bool
  | candidate _ => false
  | stop _ => true

end PortableSearchActionRef

structure SearchStepRef where
  before : ReplayGraphContext
  action : PortableSearchActionRef
  after : ReplayGraphContext
  deriving DecidableEq

inductive SearchStepRefError where
  | actionContextMismatch (before actionContext : ReplayGraphContext)
  | stopAfterMismatch (before after : ReplayGraphContext)

def SearchStepRef.new (before : ReplayGraphContext)
    (action : PortableSearchActionRef) (after : ReplayGraphContext) :
    Except SearchStepRefError SearchStepRef :=
  if action.context ≠ before then
    .error (.actionContextMismatch before action.context)
  else if action.isStop ∧ after ≠ before then
    .error (.stopAfterMismatch before after)
  else
    .ok ⟨before, action, after⟩

theorem SearchStepRef.new_eq_ok_iff {before after action step} :
    SearchStepRef.new before action after = .ok step ↔
      action.context = before ∧ (action.isStop → after = before) ∧
        step = ⟨before, action, after⟩ := by
  unfold SearchStepRef.new
  by_cases mismatch : action.context ≠ before
  · simp [mismatch]
  rw [if_neg mismatch]
  have same : action.context = before := not_not.mp mismatch
  by_cases moved : action.isStop ∧ after ≠ before
  · simp [moved.1, moved.2]
  rw [if_neg moved]
  have stays : action.isStop → after = before := by
    intro stop
    by_contra different
    exact moved ⟨stop, different⟩
  constructor
  · intro built
    cases built
    exact ⟨same, stays, rfl⟩
  · intro ⟨_, _, built⟩
    rw [built]

structure LatencyStats (F : Type) where
  meanMs : F
  medianMs : F
  p95Ms : F
  samplesMs : List F
  deriving DecidableEq, BEq

structure MeasureResult (G F : Type) where
  graph : G
  graphHash : GraphHash
  configHash : MeasureConfigHash
  measured : Bool
  valid : Bool
  latency : Option (LatencyStats F)
  /-- Terminal utility, maximized by search. -/
  scalarReward : Option F
  failureCode : Option UInt32
  deriving DecidableEq

/-- A measurement without the handle of its graph. -/
structure MeasureSummary (F : Type) where
  graphHash : GraphHash
  configHash : MeasureConfigHash
  measured : Bool
  valid : Bool
  latency : Option (LatencyStats F)
  scalarReward : Option F
  failureCode : Option UInt32
  deriving DecidableEq, BEq

def MeasureResult.summary {G F : Type} (result : MeasureResult G F) : MeasureSummary F where
  graphHash := result.graphHash
  configHash := result.configHash
  measured := result.measured
  valid := result.valid
  latency := result.latency
  scalarReward := result.scalarReward
  failureCode := result.failureCode

structure CandidateOptions where
  maxCandidates : Option Nat
  deterministicOrder : Bool
  deriving DecidableEq

structure MeasureOptions where
  configHash : MeasureConfigHash
  samples : UInt32
  timeoutMs : Option UInt64
  deterministic : Bool
  deriving DecidableEq

/-- What an engine, or a component that works for one, fails with. -/
inductive EngineError where
  | unknownGraph (graphHash : Option GraphHash)
  | unknownCandidate (candidateHash : Option CandidateHash)
  | staleCandidate (expected actual : GraphHash)
    (candidateHash : CandidateHash)
  | internal (code : Nat) (message : String)

abbrev EngineResult (α : Type) : Type := Except EngineError α

end GraphZero.Engine
