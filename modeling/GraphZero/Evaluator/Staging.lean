import GraphZero.Evaluator.Backend
import GraphZero.Foundation.Sequences

/-!
# Staging, launching and finishing

A batch is copied into a staging buffer, its model is launched on it, and
later its outputs are read.  Launches run in order, at any time before their
outputs are read, and each leaves its outputs in a buffer of the host.  Both
kinds of buffers are used in turn.
-/

namespace GraphZero.Evaluator

open Engine Foundation Features

def pipelineDepth : Nat := 3

def hostSlotCount : Nat := pipelineDepth

structure StagedEval where
  serving : ServingSlot
  /-- The staging buffer that holds the batch. -/
  stager : Nat
  rowCount : Nat
  actionCounts : List Nat
  encoder : OutputEncoder

/-- Where the outputs of a launch will be. -/
inductive PendingOutput where
  /-- A buffer of the host that the device copies to. -/
  | hostSlot (index : Nat)
  | raw (outputs : OutputArrays)

structure PendingEval where
  modelVersion : ModelVersion
  output : PendingOutput
  rowCount : Nat
  actionCounts : List Nat
  encoder : OutputEncoder

/-- What the device has been asked to do and has not done. -/
structure Launch where
  runner : Runner
  stager : Nat
  hostSlot : Nat
  rowCount : Nat

structure Staging where
  schema : FeatureSchemaConfig
  capacity : Nat
  cuda : Bool
  stagers : Nat → GraphBatchTensors
  stageIndex : Nat
  hostSlots : Nat → OutputArrays
  slotIndex : Nat
  /-- Launches that the device has not run. -/
  stream : List Launch
  encoder : Option OutputEncoder

namespace Staging

def checkView (staging : Staging) (view : Python.BatchView) : ServeResult Unit := do
  let dims := view.dims
  if dims.batchCapacity ≠ staging.capacity then
    throw (.uncaught "batch capacity mismatch")
  if dims.maxNodes ≠ staging.schema.maxNodes.toNat then
    throw (.uncaught "max_nodes mismatch")
  if dims.maxEdges ≠ staging.schema.maxEdges.toNat then
    throw (.uncaught "max_edges mismatch")
  if dims.maxActions ≠ staging.schema.maxActions.toNat then
    throw (.uncaught "max_actions mismatch")
  if dims.maxSubjects ≠ staging.schema.maxSubjects.toNat then
    throw (.uncaught "max_subjects mismatch")
  if dims.nodeAttrDim ≠ staging.schema.nodeAttrDim.toNat then
    throw (.uncaught "node_attr_dim mismatch")

/-- The encoder of the last batch if it fits, else a new one. -/
def encoderFor (staging : Staging) (view : Python.BatchView) : ServeResult OutputEncoder :=
  match staging.encoder with
  | some encoder =>
    if encoder.capacity = view.dims.batchCapacity ∧
        encoder.maxActions = view.dims.maxActions then .ok encoder
    else OutputEncoder.new view.dims.batchCapacity view.dims.maxActions
  | none => OutputEncoder.new view.dims.batchCapacity view.dims.maxActions

def stage (staging : Staging) (residency : Residency)
    (view : Python.BatchView) (version : ModelVersion) :
    ServeResult (StagedEval × Staging) := do
  let encoder ← staging.encoderFor view
  let serving ← residency.servingSlot version
  staging.checkView view
  let stager := staging.stageIndex
  return (
    { serving
      stager
      rowCount := view.dims.rowCount
      actionCounts := view.actionCount.data.take view.dims.rowCount
      encoder },
    { staging with
      stagers := Function.update staging.stagers stager (.ofView view)
      stageIndex := (stager + 1) % pipelineDepth
      encoder := some encoder })

def launch (staging : Staging) (staged : StagedEval) : PendingEval × Staging :=
  let pending output : PendingEval := {
    modelVersion := staged.serving.modelVersion
    output
    rowCount := staged.rowCount
    actionCounts := staged.actionCounts
    encoder := staged.encoder }
  if staging.cuda then
    let slot := staging.slotIndex
    (pending (.hostSlot slot),
      { staging with
        slotIndex := (slot + 1) % hostSlotCount
        stream := staging.stream ++
          [⟨staged.serving.runner, staged.stager, slot, staged.rowCount⟩] })
  else
    (pending (.raw (runRunner staged.serving.runner (staging.stagers staged.stager))), staging)

/-- The host buffer once the rows of a batch are copied to it. -/
def copyRows (rowCount : Nat) (outputs old : OutputArrays) : OutputArrays where
  rows := outputs.rows
  width := outputs.width
  values row :=
    if row < rowCount then outputs.values row else old.values row
  logits row :=
    if row < rowCount then outputs.logits row else old.logits row

/-- The device runs the oldest launch. -/
def compute (staging : Staging) : Option Staging :=
  match staging.stream with
  | [] => none
  | launch :: rest =>
    let outputs := runRunner launch.runner (staging.stagers launch.stager)
    some { staging with
      hostSlots := Function.update staging.hostSlots launch.hostSlot
        (copyRows launch.rowCount outputs (staging.hostSlots launch.hostSlot))
      stream := rest }

/-- Whether the event of a host buffer is still to come. -/
def busy (staging : Staging) (slot : Nat) : Bool :=
  staging.stream.any (·.hostSlot = slot)

/-- The outputs of a batch; there are none while the device is busy. -/
def finish (staging : Staging) (pending : PendingEval) : Option (ServeResult (List UInt8)) :=
  let encode outputs := pending.encoder.encode outputs pending.rowCount pending.actionCounts
  match pending.output with
  | .raw outputs => some (encode outputs)
  | .hostSlot slot =>
    if staging.busy slot then none
    else some (encode (staging.hostSlots slot))

end Staging

end GraphZero.Evaluator
