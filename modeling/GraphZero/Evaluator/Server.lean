import GraphZero.Evaluator.Pipelining
import GraphZero.Foundation.Transition

/-!
# The serving loop

The evaluator reads requests as long as there are any, and keeps up to three
batches unfinished meanwhile.  What the socket brings and takes, when the
device computes and what the loading thread does are steps of their own.
-/

namespace GraphZero.Evaluator

open Engine Foundation Features

def protocolVersion : Nat := 2

def versionBytes (version : ModelVersion) : List UInt8 :=
  toLeBytes 16 version.toNat

def versionOfBytes (bytes : List UInt8) : ModelVersion :=
  BitVec.ofNat 128 (ofLeBytes bytes)

structure ConnectionState where
  featureSchemaHash : FeatureSchemaHash
  batchCapacity : Nat

structure EvalRequest where
  batchId : Nat
  modelVersion : ModelVersion
  view : Python.BatchView

def parseBatch (bytes : List UInt8) : ServeResult Python.BatchView :=
  match Python.BatchView.parse bytes with
  | .ok view => .ok view
  | .error (.encodingError message) => .error (protocolError .encoding message)
  | .error (.valueError message) => .error (.uncaught message)

def parseEval (state : ConnectionState) (payload : List UInt8) : ServeResult EvalRequest := do
  if payload.length < 24 then
    throw (protocolError .malformed "EVAL frame truncated")
  let batchId := ofLeBytes (slice payload 0 8)
  let modelVersion := versionOfBytes (slice payload 8 16)
  let view ← parseBatch (payload.drop 24)
  if view.dims.featureSchemaHash ≠ state.featureSchemaHash then
    throw (protocolError .schema "feature schema hash mismatch")
  if view.dims.batchCapacity ≠ state.batchCapacity then
    throw (protocolError .capacity "batch capacity mismatch")
  return { batchId, modelVersion, view }

def handleModelRelease (residency : Residency) (payload : List UInt8) : ServeResult Residency := do
  if payload.length ≠ 24 then
    throw (protocolError .malformed "bad MODEL_RELEASE length")
  let generation := ofLeBytes (slice payload 0 8)
  let version := versionOfBytes (slice payload 8 16)
  residency.releaseModelGeneration generation version

inductive Phase where
  | polling
  | reading (bytes : List UInt8)
  /-- A request was read; a loaded model may be adopted first. -/
  | serving (request : EvalRequest)
  | adopting (request : EvalRequest) (slot : ServingSlot)
  | staging (request : EvalRequest)
  | draining (payload : List UInt8)
  | sending (rest : List UInt8) (next : Phase)
  | ended

structure Server where
  state : ConnectionState
  residency : Residency
  staging : Staging
  /-- Bytes that the socket holds for the server. -/
  inbox : List UInt8
  /-- The client has closed its side. -/
  closed : Bool
  /-- Launched and unfinished, oldest first. -/
  pending : List Outstanding
  phase : Phase
  /-- The frames that were read, and the answers that were written. -/
  requests : List Frame
  replies : List Frame
  /-- Everything that arrived, and everything that was written. -/
  arrived : List UInt8
  written : List UInt8
  /-- The generations that the client was told are active. -/
  announced : List (Nat × ModelVersion)
  /-- The models that have been active. -/
  adopted : List ServingSlot
  failure : Option ServeError

namespace Server

def errorFrame (error : ProtocolError) : Frame :=
  ⟨.error, encodeError error⟩

/-- The connection ends, and the unfinished batches with it. -/
def fail (server : Server) (error : ServeError) : Server :=
  { server with
    pending := []
    failure := some error
    phase :=
      match error with
      | .reported error => .sending (errorFrame error).encode .ended
      | .uncaught _ => .ended }

def reply (server : Server) (frame : Frame) (next : Phase) : Server :=
  { server with
    replies := server.replies ++ [frame]
    phase := .sending frame.encode next }

def evalResult (batchId : Nat) (version : ModelVersion)
    (active : Nat × ModelVersion) (payload : List UInt8) : Frame where
  frameType := .evalResult
  payload := toLeBytes 8 batchId ++ versionBytes version ++
    toLeBytes 8 active.1 ++ versionBytes active.2 ++ payload

/-- The reply to a batch with the outputs. -/
def answer (server : Server) (outstanding : Outstanding)
    (payload : List UInt8) : ServeResult Frame :=
  let active := server.residency.modelGeneration
  let frame := evalResult outstanding.batchId outstanding.handle.modelVersion active payload
  if 2 ^ 64 ≤ active.1 then
    .error (.uncaught "argument out of range")
  else (writeFrame frame).map fun _ => frame

/-- Finishes the oldest batch, if its outputs are there. -/
def flushOldest (server : Server) (next : Phase) : Option Server :=
  match server.pending with
  | [] => none
  | outstanding :: rest =>
    match server.staging.finish outstanding.handle with
    | none => none
    | some result =>
      match result.bind (server.answer outstanding) with
      | .error error => some (server.fail error)
      | .ok frame =>
        some <| reply
          { server with
            pending := rest
            announced := server.announced ++ [server.residency.modelGeneration] }
          frame next

def handlePing (server : Server) (payload : List UInt8) : Server :=
  if payload.length ≠ 8 then
    server.fail (protocolError .malformed "bad PING length")
  else server.reply ⟨.pong, payload⟩ .polling

def dispatch (server : Server) (frame : Frame) : Server :=
  let server := { server with requests := server.requests ++ [frame] }
  match frame.frameType with
  | .ping => { server with phase := .draining frame.payload }
  | .eval =>
    match parseEval server.state frame.payload with
    | .ok request => { server with phase := .serving request }
    | .error error => server.fail error
  | .modelRelease =>
    match handleModelRelease server.residency frame.payload with
    | .ok residency => { server with residency, phase := .polling }
    | .error error => server.fail error
  | _ => server.fail (protocolError .protocol "unexpected frame type")

/-- The server that has taken bytes from the socket. -/
def taking (server : Server) (count : Nat) : Server :=
  { server with inbox := server.inbox.drop count, phase := .polling }

def receive (server : Server) (bytes : List UInt8) (count : Nat) : Server :=
  let got := bytes ++ server.inbox.take count
  let server := server.taking count
  match readFrame got with
  | .incomplete => { server with phase := .reading got }
  | .failed error => server.fail error
  | .frame frame => server.dispatch frame

def stageAndLaunch (server : Server) (request : EvalRequest) : Server :=
  match server.staging.stage server.residency request.view request.modelVersion with
  | .error error => server.fail error
  | .ok (staged, staging) =>
    let (handle, staging) := staging.launch staged
    { server with
      staging
      pending := server.pending ++ [⟨request.batchId, handle, staged, request.view⟩]
      phase := .polling }

/-! ### Steps -/

def readable (server : Server) : Bool :=
  !server.inbox.isEmpty || server.closed

/-- More requests are read before the oldest batch is finished. -/
def holds (server : Server) : Bool :=
  server.readable && server.pending.length < pipelineDepth

inductive Label where
  /-- The socket brings bytes, or their end. -/
  | arrive (bytes : List UInt8)
  | close
  /-- The loop reads on with batches unfinished. -/
  | hold
  | proceed
  | flush
  | receive (count : Nat)
  | endOfFile
  | swap
  | adopt
  | abandon
  | stage
  | pong
  /-- The socket takes bytes. -/
  | send (count : Nat)
  | compute
  /-- The loading thread. -/
  | resolve (manifest : Manifest)
  | claim
  | refuse
  | publish (runner : Runner)

def next (server : Server) : Label → Option Server
  | .arrive bytes =>
    if server.closed then none
    else some { server with
      inbox := server.inbox ++ bytes, arrived := server.arrived ++ bytes }
  | .close => some { server with closed := true }
  | .hold =>
    match server.phase with
    | .polling =>
      if server.pending ≠ [] ∧ server.holds then
        some { server with phase := .reading [] }
      else none
    | _ => none
  | .proceed =>
    match server.phase with
    | .polling =>
      if server.pending = [] then
        some { server with phase := .reading [] }
      else none
    | _ => none
  | .flush =>
    match server.phase with
    | .polling => if server.holds then none else server.flushOldest .polling
    | .draining payload => server.flushOldest (.draining payload)
    | .staging request =>
      if server.pending.length < pipelineDepth then none
      else server.flushOldest (.staging request)
    | _ => none
  | .receive count =>
    match server.phase with
    | .reading bytes =>
      if 0 < count ∧ count ≤ wanted bytes ∧ count ≤ server.inbox.length then
        some (server.receive bytes count)
      else none
    | _ => none
  | .endOfFile =>
    match server.phase with
    | .reading _ =>
      if server.inbox = [] ∧ server.closed then
        some (server.fail (protocolError .malformed "unexpected eof"))
      else none
    | _ => none
  | .swap =>
    match server.phase with
    | .serving request =>
      let (pending, residency) := server.residency.takePending
      some { server with
        residency
        phase :=
          match pending with
          | none => .staging request
          | some slot => .adopting request slot }
    | _ => none
  | .adopt =>
    match server.phase with
    | .adopting request slot =>
      some { server with
        residency := server.residency.adopt slot
        adopted := server.adopted ++ [slot]
        phase := .staging request }
    | _ => none
  | .abandon =>
    match server.phase with
    | .adopting request slot =>
      some { server with
        residency := server.residency.abandon slot
        phase := .staging request }
    | _ => none
  | .stage =>
    match server.phase with
    | .staging request =>
      if server.pending.length < pipelineDepth then
        some (server.stageAndLaunch request)
      else none
    | _ => none
  | .pong =>
    match server.phase with
    | .draining payload =>
      if server.pending = [] then some (server.handlePing payload)
      else none
    | _ => none
  | .send count =>
    match server.phase with
    | .sending rest next =>
      if 0 < count ∧ count ≤ rest.length then
        some { server with
          written := server.written ++ rest.take count
          phase :=
            if count = rest.length then next
            else .sending (rest.drop count) next }
      else none
    | _ => none
  | .compute => server.staging.compute.map fun staging => { server with staging }
  | .resolve manifest =>
    (server.residency.resolve manifest).map fun residency =>
      { server with residency }
  | .claim => server.residency.claim.map fun residency => { server with residency }
  | .refuse => server.residency.refuse.map fun residency => { server with residency }
  | .publish runner =>
    (server.residency.publish runner).map fun residency =>
      { server with residency }

end Server

structure Hello where
  protocolVersion : Nat
  encodingVersion : Nat
  featureSchemaHash : FeatureSchemaHash
  batchCapacity : Nat
  engineIdentity : EngineIdentity

structure TorchBackend where
  residency : Residency
  maxBatch : Nat
  cuda : Bool
  /-- What memory holds before anything is copied to it. -/
  stagers : Nat → GraphBatchTensors
  hostSlots : Nat → OutputArrays

/-- The bytes that as many replies as can be unread together have at most. -/
def replyFrames (capacity maxActions : Nat) : Nat :=
  (69 + capacity * 4 + capacity * maxActions * 4) * pipelineDepth

/-- `achieved` is the size of the send buffer that the system grants. -/
def ensureReplySendBuffer (capacity maxActions achieved : Nat) : ServeResult Unit :=
  if achieved < replyFrames capacity maxActions then
    .error (protocolError .capacity "send buffer cannot hold reply frames")
  else .ok ()

namespace TorchBackend

def handshake (backend : TorchBackend) (hello : Hello) : ServeResult TorchBackend := do
  let manifest := backend.residency.active.manifest
  if hello.featureSchemaHash ≠ manifest.featureSchema.hash then
    throw (protocolError .schema "feature schema hash mismatch")
  if backend.residency.engineIdentity ≠ none ∧
      backend.residency.engineIdentity ≠ some hello.engineIdentity then
    throw (protocolError .schema "engine identity changed across handshakes")
  if manifest.engineIdentity ≠ hello.engineIdentity then
    throw (protocolError .schema "engine identity mismatch")
  if backend.maxBatch < hello.batchCapacity then
    throw (protocolError .capacity "batch capacity exceeds backend maximum")
  return { backend with
    residency := { backend.residency with
      engineIdentity := some hello.engineIdentity } }

/-- The server once the handshake is over. -/
def serve (backend : TorchBackend) (hello : Hello) (achieved : Nat) : ServeResult Server := do
  if hello.protocolVersion ≠ protocolVersion then
    throw (protocolError .protocol "protocol version mismatch")
  if hello.encodingVersion ≠ batchEncodingVersion then
    throw (protocolError .encoding "encoding version mismatch")
  if hello.batchCapacity = 0 then
    throw (protocolError .capacity "zero batch capacity")
  let backend ← backend.handshake hello
  let schema := backend.residency.active.manifest.featureSchema.config
  if backend.residency.activeGeneration = 0 ∨ 2 ^ 64 ≤ backend.residency.activeGeneration then
    throw (protocolError .protocol "invalid model generation")
  ensureReplySendBuffer hello.batchCapacity schema.maxActions.toNat achieved
  return {
    state := ⟨hello.featureSchemaHash, hello.batchCapacity⟩
    residency := backend.residency
    staging := {
      schema
      capacity := hello.batchCapacity
      cuda := backend.cuda
      stagers := backend.stagers
      stageIndex := 0
      hostSlots := backend.hostSlots
      slotIndex := 0
      stream := []
      encoder := none }
    inbox := []
    closed := false
    pending := []
    phase := .polling
    requests := []
    replies := []
    arrived := []
    written := []
    announced := [backend.residency.modelGeneration]
    adopted := [backend.residency.active]
    failure := none }

end TorchBackend

def Server.Started (server : Server) : Prop :=
  ∃ backend hello achieved limit slot,
    Residency.new limit slot = .ok backend.residency ∧
      TorchBackend.serve backend hello achieved = .ok server

/-- Every order in which bytes arrive, batches are computed and models are
loaded. -/
def evaluatorSystem : TransitionSystem Server Server.Label where
  initial := Server.Started
  step server label next := server.next label = some next

end GraphZero.Evaluator
