import GraphZero.Evaluator.Server
import GraphZero.Orchestrator.Batcher
import GraphZero.Orchestrator.LeaseSystem

/-!
# The client of an evaluator

Lanes take leases on models and ask for evaluations.  The batcher submits what
they ask for, receives the results, publishes the models that these announce
and releases those that nobody uses any more.  Which of the waiting jobs of a
model form a batch, and when, is left open.
-/

namespace GraphZero.Connection

open Engine Foundation Orchestrator Evaluator Features

/-- An evaluation that an episode waits for. -/
structure EvalJob where
  episodeId : UInt64
  model : ModelGeneration
  deriving DecidableEq

structure Batch where
  batchId : UInt64
  model : ModelGeneration
  bytes : List UInt8
  jobs : List EvalJob
  deriving DecidableEq

inductive BatcherPhase where
  | collecting
  /-- Models that were taken and are still to be released. -/
  | releasing (models : List ModelGeneration)
  /-- A frame is read for the oldest batch. -/
  | receiving (batch : Batch) (got : List UInt8)
  | publishing (batch : Batch) (active : ModelGeneration)
  deriving DecidableEq

inductive Failure where
  | registry (error : EngineError)
  | activeRelease
  /-- It is done, or failed where neither models nor frames are concerned. -/
  | stopped

structure Client where
  run : LeaseRun
  /-- The leases of the episodes of all lanes. -/
  modelLeases : List (UInt64 × ModelGeneration)
  /-- Jobs that the lanes have sent and the batcher has not submitted. -/
  intake : List EvalJob
  inFlight : List Batch
  /-- The fields of the backend. -/
  batchId : UInt64
  modelGeneration : ModelGeneration
  phase : BatcherPhase
  /-- Bytes of the frame that is being written. -/
  outgoing : List UInt8
  /-- Bytes that the socket holds for the client. -/
  inbox : List UInt8
  /-- The frames that were begun to be written, and those that were read. -/
  sent : List Frame
  heard : List Frame
  failure : Option Failure

def BatcherPhase.batch : BatcherPhase → Option Batch
  | receiving batch _ | publishing batch _ => some batch
  | _ => none

def evalFrame (batch : Batch) : Frame where
  frameType := .eval
  payload := toLeBytes 8 batch.batchId.toNat ++ versionBytes batch.model.version ++ batch.bytes

def releaseFrame (model : ModelGeneration) : Frame where
  frameType := .modelRelease
  payload := toLeBytes 8 model.id.toNat ++ versionBytes model.version

/-- The active generation that the result of a batch announces.  The rows of
the result are not looked at here. -/
def decodeEvalResult (payload : List UInt8) (batch : Batch) : Option ModelGeneration :=
  let active : ModelGeneration := ⟨UInt64.ofNat (ofLeBytes (slice payload 24 8)),
      versionOfBytes (slice payload 32 16)⟩
  if payload.length < 48 then none
  else if ofLeBytes (slice payload 0 8) ≠ batch.batchId.toNat then none
  else if versionOfBytes (slice payload 8 16) ≠ batch.model.version then none
  else if active.id = 0 then none
  else some active

namespace Client

def start (registry : ModelLeaseRegistry) : Client where
  run := .ofRegistry registry
  modelLeases := []
  intake := []
  inFlight := []
  batchId := 0
  modelGeneration := registry.state.current
  phase := .collecting
  outgoing := []
  inbox := []
  sent := []
  heard := []
  failure := none

def fail (client : Client) (failure : Failure) : Client :=
  { client with failure := some failure }

/-- The batches that are submitted and not answered. -/
def unanswered (client : Client) : List Batch :=
  client.phase.batch.toList ++ client.inFlight

/-- The evaluations that episodes wait for. -/
def awaited (client : Client) : List EvalJob :=
  client.intake ++ client.unanswered.flatMap (·.jobs)

/-- The model of an episode; there is none where the registry panics. -/
def ensure (client : Client) (episodeId : UInt64) : Option (ModelGeneration × Client) :=
  match client.modelLeases.find? (·.1 = episodeId) with
  | some lease => some (lease.2, client)
  | none =>
    client.run.registry.acquireCurrent.map fun acquired =>
      (acquired.1, { client with
        run := client.run.afterAcquire acquired
        modelLeases := (episodeId, acquired.1) :: client.modelLeases })

def sendParked (client : Client) (episodeId : UInt64) : Option Client :=
  (client.ensure episodeId).map fun ensured =>
    { ensured.2 with
      intake := ensured.2.intake ++ [⟨episodeId, ensured.1⟩] }

def releaseLease (client : Client) (episodeId : UInt64) : Option Client :=
  match client.modelLeases.find? (·.1 = episodeId) with
  | none => some client
  | some lease =>
    (client.run.registry.drop lease.2).map fun registry =>
      { client with
        run := client.run.afterDrop lease.2 registry
        modelLeases := client.modelLeases.erase lease }

/-! ## The batcher -/

/-- Begins to write a frame, unless it is too large. -/
def write (client : Client) (frame : Frame) : Option Client :=
  if maxFrame < frame.body.length then none
  else some { client with
    sent := client.sent ++ [frame], outgoing := frame.encode }

/-- The first of the models that are still to be released is. -/
def releaseModelGeneration (client : Client) (model : ModelGeneration)
    (models : List ModelGeneration) : Client :=
  if model = client.modelGeneration then client.fail .activeRelease
  else
    match client.write (releaseFrame model) with
    | none => client.fail .stopped
    | some client => { client with phase := .releasing models }

def submit (client : Client) (batch : Batch) (kept : List EvalJob) : Client :=
  match client.write (evalFrame batch) with
  | none => client.fail .stopped
  | some client =>
    { client with
      intake := kept
      batchId := client.batchId + 1
      inFlight := client.inFlight ++ [batch] }

def receiveReply (client : Client) (batch : Batch) (frame : Frame) : Client :=
  let client := { client with
    heard := client.heard ++ [frame], phase := .receiving batch [] }
  if frame.frameType = .evalResult then
    match decodeEvalResult frame.payload batch with
    | none => client.fail .stopped
    | some active =>
      { client with
        modelGeneration := active, phase := .publishing batch active }
  else client.fail .stopped

def receive (client : Client) (batch : Batch) (got : List UInt8) (count : Nat) : Client :=
  let got := got ++ client.inbox.take count
  let client := { client with
    inbox := client.inbox.drop count, phase := .receiving batch got }
  match readFrame got with
  | .incomplete => client
  | .failed _ => client.fail .stopped
  | .frame frame => client.receiveReply batch frame

/-- Publishes the model that a result announced, and answers the jobs. -/
def publish (client : Client) (active : ModelGeneration) : Client :=
  match client.run.registry.publish active with
  | .error error => client.fail (.registry error)
  | .ok registry =>
    { client with
      run := client.run.afterPublish active registry
      phase := .collecting }

/-- The batcher goes on, and the socket has taken what it wrote. -/
def free (client : Client) : Bool :=
  client.failure = none ∧ client.outgoing = []

inductive Label where
  | ensure (episodeId : UInt64)
  | sendParked (episodeId : UInt64)
  /-- An episode that waits for nothing gives its lease back. -/
  | releaseLease (episodeId : UInt64)
  | takeReleasable
  | release
  /-- A batch of some of the jobs that wait. -/
  | submit (bytes : List UInt8) (jobs kept : List EvalJob)
  | drainOldest
  | publish
  | stop

def next (client : Client) : Label → Option Client
  | .ensure episodeId => (client.ensure episodeId).map (·.2)
  | .sendParked episodeId => client.sendParked episodeId
  | .releaseLease episodeId =>
    if ∀ job ∈ client.awaited, job.episodeId ≠ episodeId then
      client.releaseLease episodeId
    else none
  | .takeReleasable =>
    if client.free ∧ client.phase = .collecting then
      some { client with
        run := client.run.takeReleasable
        phase := .releasing client.run.registry.takeReleasable.1 }
    else none
  | .release =>
    match client.phase with
    | .releasing [] => some { client with phase := .collecting }
    | .releasing (model :: models) =>
      if client.free then
        some (client.releaseModelGeneration model models)
      else none
    | _ => none
  | .submit bytes jobs kept =>
    match jobs with
    | [] => none
    | first :: _ =>
      if client.free ∧ client.phase = .collecting ∧ client.inFlight.length < evalPipelineDepth ∧
          (∀ job ∈ jobs, job.model = first.model) ∧
          client.intake.Perm (jobs ++ kept) then
        some (client.submit ⟨client.batchId, first.model, bytes, jobs⟩ kept)
      else none
  | .drainOldest =>
    match client.inFlight with
    | [] => none
    | batch :: inFlight =>
      if client.free ∧ client.phase = .collecting then
        some { client with inFlight, phase := .receiving batch [] }
      else none
  | .publish =>
    match client.phase with
    | .publishing _ active => if client.failure = none then some (client.publish active) else none
    | _ => none
  | .stop => some (client.fail .stopped)

end Client

end GraphZero.Connection
