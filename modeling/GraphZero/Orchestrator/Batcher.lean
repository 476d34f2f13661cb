import GraphZero.Orchestrator.Leases
import GraphZero.Search.Work

/-!
# The batcher of evaluations

Lanes send jobs, the batcher submits them to a backend in batches of one
model and sends the rows of the outputs back.  Everything around it (the
channel that the jobs come from, the backend and the registry of models, which
other threads use as well) is a state machine that it calls.
-/

namespace GraphZero.Orchestrator

open Engine Foundation Search

/-- How many submitted batches ride the backend at once. -/
def evalPipelineDepth : Nat := 3

structure FeaturizedEvalJob (lanes : Nat) (R : Type) where
  lane : Fin lanes
  slot : Nat
  token : WorkToken
  row : R
  actionCount : UInt32
  model : ModelGeneration
  deriving DecidableEq

/-- Where an output row goes, and how many logits it has. -/
structure BatcherRoute (lanes : Nat) where
  lane : Fin lanes
  slot : Nat
  token : WorkToken
  actionCount : UInt32

abbrev BatcherRouting (lanes : Nat) : Type := List (BatcherRoute lanes)

structure RowOutput (F : Type) where
  policyLogits : List F
  value : F

structure BackendOutputs (F : Type) where
  modelVersion : ModelVersion
  activeGeneration : ModelGeneration
  rows : List (RowOutput F)

structure EvalReply (F : Type) where
  slot : Nat
  token : WorkToken
  output : EvalOutput F

/-- What a receive with a timeout comes to. -/
inductive IntakeEvent (lanes : Nat) (R : Type) where
  | job (job : FeaturizedEvalJob lanes R)
  | timeout
  | disconnected

/-- Lays out the rows of a batch, of which there is room for some. -/
structure FeatureCollator (R : Type) where
  batchCapacity : Nat
  capacity_pos : 0 < batchCapacity
  collateInto : List R → Option (List UInt8)

/-- What the batcher works with.  A call goes to the `World` and changes it;
the batcher does not look at the error of a call that fails. -/
structure BatcherContext (World P R F : Type) (lanes : Nat) where
  collator : FeatureCollator R
  /-- The context counts the pressure on the evaluator. -/
  evalPressure : Bool
  recv : World → Option (FeaturizedEvalJob lanes R) × World
  recvTimeout : World → IntakeEvent lanes R × World
  takeReleasable : World → List ModelGeneration × World
  publish : ModelGeneration → World → EngineResult Unit × World
  releaseModelGeneration : ModelGeneration → World → Option Unit × World
  submitForModel : ModelGeneration → List UInt8 → List UInt32 → World → Option P × World
  receive : P → World → Option (BackendOutputs F) × World

/-- A call of the backend, with the jobs that it is made for and the handle
that it gave; a call that failed gave none. -/
structure Submission (lanes : Nat) (P R : Type) where
  model : ModelGeneration
  bytes : List UInt8
  actionCounts : List UInt32
  jobs : List (FeaturizedEvalJob lanes R)
  pending : Option P
  deriving DecidableEq

structure InFlightBatch (lanes : Nat) (P : Type) where
  routing : BatcherRouting lanes
  pending : P
  model : ModelGeneration

/-- The variables of the batcher, and what it did so far. -/
structure Batcher (World P R F : Type) (lanes : Nat) where
  world : World
  batchSizes : List Nat
  batch : List (FeaturizedEvalJob lanes R)
  batchModel : Option ModelGeneration
  deferred : List (FeaturizedEvalJob lanes R)
  inFlight : List (InFlightBatch lanes P)
  /-- The capacity clock runs. -/
  capacityAccounted : Bool
  intakeOpen : Bool
  /-- The jobs that came from the intake. -/
  received : List (FeaturizedEvalJob lanes R)
  /-- The submissions to the backend. -/
  submitted : List (Submission lanes P R)
  /-- The last submission was refused. -/
  refused : Bool
  /-- The outputs that passed the checks. -/
  accepted : List (BackendOutputs F)
  /-- What was sent to which lane. -/
  replies : List (Fin lanes × EvalReply F)

/-- Why the batcher stops without a result: an error, or its rounds are not
over. -/
inductive BatcherFailure where
  | engine (error : EngineError)
  | unfinished

abbrev BatcherEffect (World P R F : Type) (lanes : Nat) (α : Type) : Type :=
  Effect BatcherFailure (Batcher World P R F lanes) α

section Batcher

variable {World P R F : Type} {lanes : Nat}

def FeaturizedEvalJob.route (job : FeaturizedEvalJob lanes R) : BatcherRoute lanes :=
  ⟨job.lane, job.slot, job.token, job.actionCount⟩

def BatcherFailure.internal (message : String) : BatcherFailure :=
  .engine (Orchestrator.internal message)

namespace Batcher

def start (world : World) : Batcher World P R F lanes where
  world
  batchSizes := []
  batch := []
  batchModel := none
  deferred := []
  inFlight := []
  capacityAccounted := false
  intakeOpen := true
  received := []
  submitted := []
  refused := false
  accepted := []
  replies := []

def submittedJobs (state : Batcher World P R F lanes) : List (FeaturizedEvalJob lanes R) :=
  state.submitted.flatMap (·.jobs)

def ask {α : Type} (call : World → α × World) : BatcherEffect World P R F lanes α := do
  let state ← get
  set { state with world := (call state.world).2 }
  pure (call state.world).1

/-- The result of a call, whose error stops the batcher. -/
def lift {α : Type} (result : EngineResult α) : BatcherEffect World P R F lanes α :=
  match result with
  | .ok value => pure value
  | .error error => throw (.engine error)

def releaseReleasableModels (context : BatcherContext World P R F lanes) :
    BatcherEffect World P R F lanes PUnit := do
  let models ← ask context.takeReleasable
  let _ ← models.mapM fun model => do
    match ← ask (context.releaseModelGeneration model) with
    | some _ => pure PUnit.unit
    | none => throw (.internal "feature eval backend failed")
  pure ⟨⟩

section Outputs

variable [Scalar F]

def validateRows : List (RowOutput F) → List UInt32 → EngineResult Unit
  | row :: rows, actionCount :: actionCounts => do
      if row.policyLogits.length ≠ actionCount.toNat then
        throw (internal "eval output length mismatch")
      if Scalar.isFinite row.value = false ∨ row.policyLogits.any (Scalar.isFinite · = false) then
        throw (internal "invalid eval output")
      validateRows rows actionCounts
  | _, _ => pure ()

def validateBackendOutputs (outputs : BackendOutputs F)
    (actionCounts : List UInt32) : EngineResult Unit := do
  if outputs.rows.length ≠ actionCounts.length then
    throw (internal "eval output count mismatch")
  validateRows outputs.rows actionCounts

end Outputs

def rowReply (outputs : BackendOutputs F) (route : BatcherRoute lanes)
    (row : RowOutput F) : Fin lanes × EvalReply F :=
  (route.lane, {
    slot := route.slot
    token := route.token
    output := {
      modelVersion := outputs.modelVersion
      policyLogits := row.policyLogits
      value := row.value } })

def rowReplies (routing : BatcherRouting lanes)
    (outputs : BackendOutputs F) : List (Fin lanes × EvalReply F) :=
  List.zipWith (rowReply outputs) routing outputs.rows

/-- The outputs are good and their rows go out. -/
def reply (routing : BatcherRouting lanes) (outputs : BackendOutputs F)
    (state : Batcher World P R F lanes) : Batcher World P R F lanes :=
  { state with
    batchSizes := state.batchSizes ++ [routing.length]
    accepted := state.accepted ++ [outputs]
    replies := state.replies ++ rowReplies routing outputs }

/-- The clock stops, and starts again when the backend still has work. -/
def accountCapacity (context : BatcherContext World P R F lanes) :
    BatcherEffect World P R F lanes PUnit := do
  let state ← get
  if context.evalPressure then
    if state.capacityAccounted then
      set { state with capacityAccounted := !state.inFlight.isEmpty }
    else
      throw (.internal "missing evaluator capacity clock")
  else
    pure ⟨⟩

def drainOldest [Scalar F] (context : BatcherContext World P R F lanes) :
    BatcherEffect World P R F lanes PUnit := do
  let state ← get
  match state.inFlight with
  | [] => pure ⟨⟩
  | oldest :: inFlight =>
    set { state with inFlight }
    match ← ask (context.receive oldest.pending) with
    | none => throw (.internal "feature eval backend failed")
    | some outputs =>
      if outputs.modelVersion ≠ oldest.model.version then
        throw (.internal "evaluator served the wrong model version")
      else
        lift (validateBackendOutputs outputs (oldest.routing.map (·.actionCount)))
        lift (← ask (context.publish outputs.activeGeneration))
        modify (reply oldest.routing outputs)
        accountCapacity context
        releaseReleasableModels context

/-- The first job of a batch gives it its model. -/
def beginBatch (job : FeaturizedEvalJob lanes R)
    (state : Batcher World P R F lanes) : Batcher World P R F lanes :=
  { state with
    batchModel := some job.model
    batch := state.batch ++ [job]
    received := state.received ++ [job] }

def push (job : FeaturizedEvalJob lanes R)
    (state : Batcher World P R F lanes) : Batcher World P R F lanes :=
  { state with
    batch := state.batch ++ [job]
    received := state.received ++ [job] }

def defer (job : FeaturizedEvalJob lanes R)
    (state : Batcher World P R F lanes) : Batcher World P R F lanes :=
  { state with
    deferred := state.deferred ++ [job]
    received := state.received ++ [job] }

def closeIntake (state : Batcher World P R F lanes) : Batcher World P R F lanes :=
  { state with intakeOpen := false }

/-- Each deferred job in turn joins the batch or goes back to the end. -/
def sortDeferred (capacity : Nat) (model : ModelGeneration) : List (FeaturizedEvalJob lanes R) →
      (batch kept : List (FeaturizedEvalJob lanes R)) → List (FeaturizedEvalJob lanes R) ×
          List (FeaturizedEvalJob lanes R)
  | [], batch, kept => (batch, kept)
  | job :: rest, batch, kept =>
    if batch.length < capacity ∧ job.model = model then
      sortDeferred capacity model rest (batch ++ [job]) kept
    else
      sortDeferred capacity model rest batch (kept ++ [job])

/-- The batch starts with the deferred jobs of one model. -/
def takeDeferred (capacity : Nat) (state : Batcher World P R F lanes) : Batcher World P R F lanes :=
  match state.deferred with
  | [] => state
  | first :: rest =>
    let sorted := sortDeferred capacity first.model rest [first] []
    { state with
      batchModel := some first.model
      batch := sorted.1
      deferred := sorted.2 }

/-- A job arrived; the collection goes on unless too many wait. -/
def placeJob (capacity : Nat) (job : FeaturizedEvalJob lanes R) :
    BatcherEffect World P R F lanes (PUnit ⊕ PUnit) := do
  let state ← get
  match state.batchModel with
  | none =>
    set (state.beginBatch job)
    pure (.inl ⟨⟩)
  | some model =>
    if job.model = model then
      set (state.push job)
      pure (.inl ⟨⟩)
    else
      set (state.defer job)
      if capacity ≤ (state.defer job).deferred.length then
        pure (.inr ⟨⟩)
      else
        pure (.inl ⟨⟩)

/-- One turn of the collection: on with `inl`, over with `inr`. -/
def collectTurn [Scalar F] (context : BatcherContext World P R F lanes) :
    BatcherEffect World P R F lanes (PUnit ⊕ PUnit) := do
  let state ← get
  if context.collator.batchCapacity ≤ state.batch.length then
    pure (.inr ⟨⟩)
  else if state.batch.isEmpty && state.inFlight.isEmpty then
    match ← ask context.recv with
    | some job =>
      modify (beginBatch job)
      pure (.inl ⟨⟩)
    | none =>
      modify closeIntake
      pure (.inr ⟨⟩)
  else if state.intakeOpen then
    match ← ask context.recvTimeout with
    | .job job => placeJob context.collator.batchCapacity job
    | .timeout =>
      if state.inFlight.isEmpty then
        pure (.inr ⟨⟩)
      else
        drainOldest context
        pure (.inl ⟨⟩)
    | .disconnected =>
      modify closeIntake
      pure (.inr ⟨⟩)
  else
    pure (.inr ⟨⟩)

/-- The collection.  Each of its turns adds a job to the batch or to the
deferred ones, or drains a batch, so the bound on its turns is never met. -/
def collect [Scalar F] (context : BatcherContext World P R F lanes) :
    BatcherEffect World P R F lanes PUnit :=
  Effect.loop .unfinished (fun _ => collectTurn context)
    (2 * context.collator.batchCapacity + evalPipelineDepth + 1) ⟨⟩

/-- The jobs of the batch, as they go to the backend. -/
def submission (model : ModelGeneration) (bytes : List UInt8)
    (jobs : List (FeaturizedEvalJob lanes R)) : Submission lanes P R where
  model
  bytes
  actionCounts := jobs.map (·.actionCount)
  jobs
  pending := none

def submit (context : BatcherContext World P R F lanes) (call : Submission lanes P R) :
    BatcherEffect World P R F lanes PUnit := do
  let pending ← ask (context.submitForModel call.model call.bytes call.actionCounts)
  let state ← get
  let submitted := state.submitted ++ [{ call with pending }]
  match pending with
  | none =>
    set { state with submitted, refused := true }
    throw (.internal "feature eval backend failed")
  | some pending =>
    let batch : InFlightBatch lanes P := ⟨call.jobs.map (·.route), pending, call.model⟩
    set { state with submitted, inFlight := state.inFlight ++ [batch] }

/-- Whether there was a batch to submit. -/
def submitBatch (context : BatcherContext World P R F lanes) :
    BatcherEffect World P R F lanes Bool := do
  let state ← get
  if state.batch.isEmpty then
    pure false
  else
    match state.batchModel with
    | none => throw (.internal "missing eval batch model")
    | some model =>
      set { state with batch := [] }
      if state.batch.any (·.model ≠ model) then
        throw (.internal "mixed model generations in eval batch")
      else
        match context.collator.collateInto (state.batch.map (·.row)) with
        | none => throw (.internal "feature collation failed")
        | some bytes =>
          modify fun state =>
            { state with
              capacityAccounted :=
                state.inFlight.isEmpty || state.capacityAccounted }
          releaseReleasableModels context
          submit context (submission model bytes state.batch)
          pure true

/-- The pipeline has room and there is something to collect. -/
def collects (state : Batcher World P R F lanes) : Bool :=
  state.inFlight.length < evalPipelineDepth && (state.intakeOpen || !state.deferred.isEmpty)

def prepare (state : Batcher World P R F lanes) : Batcher World P R F lanes :=
  { state with batch := [], batchModel := none }

def gather [Scalar F] (context : BatcherContext World P R F lanes) :
    BatcherEffect World P R F lanes PUnit := do
  modify prepare
  let state ← get
  if state.collects then
    set (state.takeDeferred context.collator.batchCapacity)
    collect context
  else
    pure ⟨⟩

/-- The pipeline is full, or there was nothing to submit. -/
def mustDrain (submitted : Bool) (state : Batcher World P R F lanes) : Bool :=
  evalPipelineDepth ≤ state.inFlight.length || (!submitted && !state.inFlight.isEmpty)

def works (state : Batcher World P R F lanes) : Bool :=
  state.intakeOpen || !state.inFlight.isEmpty || !state.deferred.isEmpty

def round [Scalar F] (context : BatcherContext World P R F lanes) :
    BatcherEffect World P R F lanes (PUnit ⊕ List Nat) := do
  let state ← get
  if state.works then
    releaseReleasableModels context
    gather context
    let submitted ← submitBatch context
    let state ← get
    if state.mustDrain submitted then
      drainOldest context
      pure (.inl ⟨⟩)
    else
      pure (.inl ⟨⟩)
  else
    releaseReleasableModels context
    pure (.inr state.batchSizes)

def runFeaturizedBatcher [Scalar F] (context : BatcherContext World P R F lanes) (rounds : Nat) :
    BatcherEffect World P R F lanes (List Nat) :=
  Effect.loop .unfinished (fun _ => round context) rounds ⟨⟩

end Batcher

end Batcher

end GraphZero.Orchestrator
