import GraphZero.Evaluator.Outputs
import GraphZero.Foundation.Table

/-!
# Models of the evaluator

A thread loads new checkpoints while another serves.  A loaded model waits
until the serving thread adopts it between two requests; the models that were
active before stay resident until the client releases them.
-/

namespace GraphZero.Evaluator

open Engine Foundation Features

structure Manifest where
  featureSchema : FeatureSchema
  engineIdentity : EngineIdentity
  modelVersion : ModelVersion

/-- What a batch looks like to a model. -/
structure GraphBatchTensors where
  capacity : Nat
  maxActions : Nat
  nodeCount : List Int
  nodeTokens : List Int
  nodeAttrs : List F32
  edgeCount : List Int
  edgeSrc : List Int
  edgeDst : List Int
  edgeType : List Int
  actionCount : List Int
  actionKind : List Int
  actionPrior : List F32
  subjectCount : List Int
  actionSubjects : List Int
  position : List F32
  opponentStatePresent : List Nat
  opponentNodeCount : List Int
  opponentNodeTokens : List Int
  opponentNodeAttrs : List F32
  opponentEdgeCount : List Int
  opponentEdgeSrc : List Int
  opponentEdgeDst : List Int
  opponentEdgeType : List Int
  opponentPosition : List F32
  deriving DecidableEq, Inhabited

/-- Thirty-two bit integers are copied whatever their sign. -/
def int32 (array : Python.IntArray) : List Int :=
  array.data.map fun value => (BitVec.ofNat 32 value).toInt

/-- Attributes that a batch has not are zero, and there are none of them. -/
def floats (array : Option Python.FloatArray) : List F32 :=
  (array.map (·.data)).getD []

def GraphBatchTensors.ofView (view : Python.BatchView) : GraphBatchTensors where
  capacity := view.dims.batchCapacity
  maxActions := view.dims.maxActions
  nodeCount := int32 view.nodeCount
  nodeTokens := int32 view.nodeTokens
  nodeAttrs := floats view.nodeAttrs
  edgeCount := int32 view.edgeCount
  edgeSrc := int32 view.edgeSrc
  edgeDst := int32 view.edgeDst
  edgeType := int32 view.edgeType
  actionCount := int32 view.actionCount
  actionKind := int32 view.actionKind
  actionPrior := view.actionPrior.data
  subjectCount := int32 view.subjectCount
  actionSubjects := int32 view.actionSubjects
  position := view.position.data
  opponentStatePresent := view.opponentStatePresent.data
  opponentNodeCount := int32 view.opponentNodeCount
  opponentNodeTokens := int32 view.opponentNodeTokens
  opponentNodeAttrs := floats view.opponentNodeAttrs
  opponentEdgeCount := int32 view.opponentEdgeCount
  opponentEdgeSrc := int32 view.opponentEdgeSrc
  opponentEdgeDst := int32 view.opponentEdgeDst
  opponentEdgeType := int32 view.opponentEdgeType
  opponentPosition := view.opponentPosition.data

/-- A model computes the value of each row and the logit of each action. -/
abbrev Runner : Type :=
  GraphBatchTensors → (Nat → F32) × (Nat → Nat → F32)

def runRunner (runner : Runner) (tensors : GraphBatchTensors) : OutputArrays where
  rows := tensors.capacity
  width := tensors.maxActions
  values := (runner tensors).1
  logits := (runner tensors).2

structure ServingSlot where
  manifest : Manifest
  runner : Runner

def ServingSlot.modelVersion (slot : ServingSlot) : ModelVersion :=
  slot.manifest.modelVersion

/-- Where the loading thread is in a poll. -/
inductive Loader where
  | waiting
  /-- The newest checkpoint was not rejected before. -/
  | resolved (manifest : Manifest)
  | loading (manifest : Manifest)

def initialModelGeneration : Nat := 1

/-- The models of the backend, and what both threads know of them. -/
structure Residency where
  maxResidentModelGenerations : Nat
  active : ServingSlot
  activeGeneration : Nat
  nextGeneration : Nat
  slotsByVersion : Table ModelVersion (Nat × ServingSlot)
  versionsByGeneration : Table Nat ModelVersion
  pending : Option ServingSlot
  residentVersions : Finset ModelVersion
  loadingVersion : Option ModelVersion
  adoptingVersion : Option ModelVersion
  loggedRejections : Finset ModelVersion
  engineIdentity : Option EngineIdentity
  loader : Loader

namespace Residency

def new (maxResidentModelGenerations : Nat) (slot : ServingSlot) : ServeResult Residency :=
  if maxResidentModelGenerations < 2 then
    .error (.uncaught "max_resident_model_generations must be at least two")
  else .ok {
    maxResidentModelGenerations
    active := slot
    activeGeneration := initialModelGeneration
    nextGeneration := initialModelGeneration + 1
    slotsByVersion :=
      (∅ : Table ModelVersion (Nat × ServingSlot)).insert slot.modelVersion
        (initialModelGeneration, slot)
    versionsByGeneration :=
      (∅ : Table Nat ModelVersion).insert initialModelGeneration slot.modelVersion
    pending := none
    residentVersions := {slot.modelVersion}
    loadingVersion := none
    adoptingVersion := none
    loggedRejections := ∅
    engineIdentity := none
    loader := .waiting }

/-- The places that are taken: resident, loaded, being loaded and being
adopted. -/
def occupied (residency : Residency) : Nat :=
  residency.residentVersions.card + residency.pending.toList.length +
    residency.loadingVersion.toList.length +
    residency.adoptingVersion.toList.length

/-- The newest checkpoint is looked at unless it was rejected before. -/
def resolve (residency : Residency) (manifest : Manifest) : Option Residency :=
  match residency.loader with
  | .waiting =>
    if manifest.modelVersion ∈ residency.loggedRejections then none
    else some { residency with loader := .resolved manifest }
  | _ => none

/-- Whether a model of this version may be loaded now. -/
def admits (residency : Residency) (version : ModelVersion) : Bool :=
  !(version ∈ residency.residentVersions ∨ residency.pending.map (·.modelVersion) = some version ∨
    residency.loadingVersion = some version ∨
    residency.adoptingVersion = some version ∨
    residency.maxResidentModelGenerations ≤ residency.occupied)

/-- Takes the lock, and a place if there is one. -/
def claim (residency : Residency) : Option Residency :=
  match residency.loader with
  | .resolved manifest =>
    some <| if residency.admits manifest.modelVersion then
        { residency with
          loadingVersion := some manifest.modelVersion
          loader := .loading manifest }
      else { residency with loader := .waiting }
  | _ => none

/-- Whether the checkpoint fits what is served. -/
def compatible (residency : Residency) (manifest : Manifest) : Bool :=
  manifest.featureSchema.hash = residency.active.manifest.featureSchema.hash ∧
    (residency.engineIdentity = none ∨ residency.engineIdentity = some manifest.engineIdentity)

/-- A checkpoint that does not fit, or cannot be built, is not tried again. -/
def refuse (residency : Residency) : Option Residency :=
  match residency.loader with
  | .loading manifest =>
    some { residency with
      loadingVersion := none
      loggedRejections :=
        insert manifest.modelVersion residency.loggedRejections
      loader := .waiting }
  | _ => none

/-- Publishes the model that was built from the checkpoint. -/
def publish (residency : Residency) (runner : Runner) : Option Residency :=
  match residency.loader with
  | .loading manifest =>
    if residency.compatible manifest then
      some { residency with
        loadingVersion := none
        pending := some ⟨manifest, runner⟩
        loader := .waiting }
    else none
  | _ => none

/-- Takes the model that was published. -/
def takePending (residency : Residency) : Option ServingSlot × Residency :=
  (residency.pending,
    { residency with
      pending := none
      adoptingVersion := residency.pending.map (·.modelVersion) })

def abandon (residency : Residency) (slot : ServingSlot) : Residency :=
  { residency with
    adoptingVersion := none
    loggedRejections := insert slot.modelVersion residency.loggedRejections }

/-- Makes a model active.  The loading thread reads nothing in between. -/
def adopt (residency : Residency) (slot : ServingSlot) : Residency :=
  let generation := residency.nextGeneration
  { residency with
    nextGeneration := generation + 1
    active := slot
    activeGeneration := generation
    slotsByVersion :=
      residency.slotsByVersion.insert slot.modelVersion (generation, slot)
    versionsByGeneration :=
      residency.versionsByGeneration.insert generation slot.modelVersion
    residentVersions := insert slot.modelVersion residency.residentVersions
    adoptingVersion := none }

def modelGeneration (residency : Residency) : Nat × ModelVersion :=
  (residency.activeGeneration, residency.active.modelVersion)

def releaseModelGeneration (residency : Residency) (generation : Nat)
    (version : ModelVersion) : ServeResult Residency :=
  if generation = residency.activeGeneration then
    .error (protocolError .protocol "cannot release the active model generation")
  else if residency.versionsByGeneration.get? generation ≠ some version then
    .error (protocolError .protocol "unknown model generation")
  else if (residency.slotsByVersion.get? version).map (·.1) ≠ some generation then
    .error (protocolError .protocol "model generation mismatch")
  else .ok { residency with
    versionsByGeneration := residency.versionsByGeneration.erase generation
    slotsByVersion := residency.slotsByVersion.erase version
    residentVersions := residency.residentVersions.erase version }

def servingSlot (residency : Residency) (version : ModelVersion) : ServeResult ServingSlot :=
  match residency.slotsByVersion.get? version with
  | none => .error (protocolError .protocol "requested model version is unavailable")
  | some stored => .ok stored.2

end Residency

end GraphZero.Evaluator
