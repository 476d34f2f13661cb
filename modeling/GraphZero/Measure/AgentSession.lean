import GraphZero.Measure.Agent
import GraphZero.Measure.CoordinatorSystem

/-!
# Agents beside the coordinator

`run_session` is a loop over the commands of its session, the ends of its
measurement tasks and a heartbeat.  A command leaves the session's channel for
the loop's inbox and is handled later; an event leaves the loop's outbox when
the coordinator handles it.  The tasks are the entries of `active`.
-/

namespace GraphZero.Measure

open Foundation Wire

/-! ## The session loop -/

structure AgentRuntime where
  config : AgentConfig
  agentBuild : String
  capability : EngineCapability
  jobSlots : UInt32

def AgentRuntime.hello (runtime : AgentRuntime) (recoveries : List LeaseRecovery) : AgentHello :=
  { protocolMajor
    protocolMinor
    deviceId := runtime.config.deviceId.toVec
    agentBuild := runtime.agentBuild
    profile := some runtime.config.profile
    capabilities := [runtime.capability]
    recoveries
    jobSlots := runtime.jobSlots }

/-- The limits of a welcome, under the names its errors give them. -/
def welcomeLimits (welcome : AgentWelcome) : List (String × Nat) :=
  [("heartbeat_interval_ms", welcome.heartbeatIntervalMs),
   ("accept_timeout_ms", welcome.acceptTimeoutMs),
   ("default_lease_duration_ms", welcome.defaultLeaseDurationMs),
   ("max_artifact_bytes", welcome.maxArtifactBytes),
   ("artifact_chunk_bytes", welcome.artifactChunkBytes),
   ("max_measure_config_bytes", welcome.maxMeasureConfigBytes),
   ("max_engine_metadata_bytes", welcome.maxEngineMetadataBytes)]

def requireLimits : List (String × Nat) → ServiceResult Unit
  | [] => .ok ()
  | (name, value) :: rest =>
    if value = 0 then
      .error (.protocol ("welcome limit " ++ name ++ " is zero"))
    else
      requireLimits rest

def validateWelcome (codec : Codec) (config : AgentConfig)
    (welcome : AgentWelcome) : ServiceResult SessionId := do
  let sessionId : SessionId ← Id.fromSlice welcome.sessionId
  if welcome.negotiatedMinor ≠ protocolMinor then
    throw (.protocol "unexpected negotiated minor version")
  let profileHash : DeviceProfileHash ← Id.fromSlice welcome.deviceProfileHash
  if profileHash ≠ deviceProfileHash codec config.profile then
    throw (.protocol "coordinator changed device profile hash")
  requireLimits (welcomeLimits welcome)
  if welcome.maxArtifactBytes < welcome.artifactChunkBytes then
    throw (.protocol "artifact chunk limit exceeds artifact limit")
  pure sessionId

/-- What a call of `run_session` holds between two turns of its loop. -/
structure SessionLoop where
  runtime : AgentRuntime
  /-- The channel the coordinator sends its commands through. -/
  channel : Nat
  /-- The session and its welcome, once the agent has read it. -/
  greeted : Option (SessionId × AgentWelcome)
  active : Table JobId LeaseId
  draining : Bool
  running : Bool
  inbox : List CoordinatorCommand
  outbox : List AgentEvent

namespace SessionLoop

def opened (runtime : AgentRuntime) (channel : Nat) : SessionLoop :=
  { runtime
    channel
    greeted := none
    active := ∅
    draining := false
    running := true
    inbox := []
    outbox := [] }

def send (loop : SessionLoop) (event : AgentEvent) : SessionLoop :=
  { loop with outbox := loop.outbox ++ [event] }

/-- The call has returned; its tasks are aborted. -/
def stopped (loop : SessionLoop) : SessionLoop :=
  { loop with active := ∅, running := false, inbox := [] }

def available (loop : SessionLoop) : Nat :=
  loop.runtime.jobSlots.toNat - loop.active.size % 2 ^ 32

def sendReady (loop : SessionLoop) (sessionId : SessionId) (freeSlots : Nat) : SessionLoop :=
  loop.send (.ready ⟨sessionId.toVec, freeSlots⟩)

def rejectLease (loop : SessionLoop) (sessionId : SessionId) (lease : MeasureLease) : SessionLoop :=
  loop.send (.rejected ⟨sessionId.toVec, lease.jobId, lease.leaseId⟩)

def offeredTwice : ServiceError :=
  .protocol "coordinator offered the same active job twice"

def handleLease (codec : Codec) (loop : SessionLoop) (sessionId : SessionId)
    (welcome : AgentWelcome) (lease : MeasureLease) :
    ServiceResult SessionLoop :=
  if loop.draining = true ∨ loop.available = 0 then
    .ok ((loop.rejectLease sessionId lease).sendReady sessionId
      (if loop.draining then 0 else loop.available))
  else
    match validateLease codec loop.runtime.config welcome
        loop.runtime.capability sessionId lease with
    | .error _ => .ok ((loop.rejectLease sessionId lease).sendReady sessionId loop.available)
    | .ok () => do
        let jobId : JobId ← Id.fromSlice lease.jobId
        let leaseId : LeaseId ← Id.fromSlice lease.leaseId
        if loop.active.contains jobId then
          throw offeredTwice
        pure { loop with active := loop.active.insert jobId leaseId }

/-- The first command must be the welcome. -/
def handleFirst (codec : Codec) (loop : SessionLoop) :
    CoordinatorCommand → ServiceResult SessionLoop
  | .welcome welcome => do
      let sessionId ← validateWelcome codec loop.runtime.config welcome
      pure ({ loop with greeted := some (sessionId, welcome) }.sendReady
        sessionId loop.runtime.jobSlots.toNat)
  | .lease _ | .cancel _ | .drain _ => .error (.protocol "first command was not AgentWelcome")

def handleCommand (codec : Codec) (loop : SessionLoop)
    (command : CoordinatorCommand) : ServiceResult SessionLoop :=
  match loop.greeted with
  | none => loop.handleFirst codec command
  | some (sessionId, welcome) =>
    match command with
    | .lease lease => loop.handleLease codec sessionId welcome lease
    | .cancel _ => .ok loop
    | .drain _ =>
      let drained := { loop with draining := true }.send (.draining sessionId.toVec)
      if loop.active.size = 0 then .ok drained.stopped else .ok drained
    | .welcome _ => .error (.protocol "AgentWelcome appeared more than once")

def settle (loop : SessionLoop) : ServiceResult SessionLoop → SessionLoop
  | .ok next => next
  | .error _ => loop.stopped

def takeCommand (codec : Codec) (loop : SessionLoop) : Option SessionLoop :=
  match loop.inbox with
  | [] => none
  | command :: rest =>
    let taken := { loop with inbox := rest }
    some (taken.settle (taken.handleCommand codec command))

/-- A task reports its lease as accepted, or as still running. -/
def taskEvent (loop : SessionLoop) (jobId : JobId) (accepts : Bool) : Option SessionLoop :=
  match loop.greeted, loop.active.get? jobId with
  | some (sessionId, _), some leaseId =>
    let reference : LeaseReference := ⟨sessionId.toVec, jobId.toVec, leaseId.toVec⟩
    some (loop.send (if accepts then .accepted reference else .heartbeat reference))
  | _, _ => none

def completeTask (loop : SessionLoop) (jobId : JobId)
    (result : ServiceResult Unit) : Option SessionLoop :=
  match loop.greeted with
  | none => none
  | some (sessionId, _) =>
    if loop.active.contains jobId then
      let left := { loop with active := loop.active.erase jobId }
      match result with
      | .error _ => some left.stopped
      | .ok () =>
        if loop.draining then
          some (if left.active.size = 0 then left.stopped else left)
        else
          some (left.sendReady sessionId left.available)
    else
      none

def tick (loop : SessionLoop) : Option SessionLoop :=
  match loop.greeted with
  | none => none
  | some (sessionId, _) =>
    some (loop.sendReady sessionId (if loop.draining then 0 else loop.available))

end SessionLoop

/-! ## The fleet -/

structure Fleet where
  coordinator : World
  loops : Table SessionId SessionLoop

inductive FleetLabel where
  | connect (runtime : AgentRuntime) (recoveries : List LeaseRecovery)
    (env : Surroundings)
    (peerFingerprint : Option CertificateFingerprint)
    (sessionId : SessionId)
  /-- The coordinator handles the next event of a stream. -/
  | event (env : Surroundings) (stream : ControlStream)
  /-- A command leaves its channel for the agent. -/
  | receive (sessionId : SessionId)
  | coordinator (operation : Operation)
  | command (sessionId : SessionId)
  | task (sessionId : SessionId) (jobId : JobId) (accepts : Bool)
  | completion (sessionId : SessionId) (jobId : JobId)
    (result : ServiceResult Unit)
  | heartbeat (sessionId : SessionId)
  | stop (sessionId : SessionId)

/-- The operations that no agent takes part in. -/
def Operation.isAlone : Operation → Bool
  | .connect _ _ _ _ | .event _ _ _ | .receive _ => false
  | .enqueue _ _ _ | .cancel _ | .welcome _ | .streamEnd _ | .disconnect _ _
  | .submit _ _ _ _ | .reap _ | .drain | .hangUp _ => true

def pendingOn (channels : List CommandChannel) (channel : Nat) : List CoordinatorCommand :=
  match channels[channel]? with
  | none => []
  | some target => target.pending

section System

variable (codec : Codec) (config : CoordinatorConfig)

/-- One operation of the coordinator, if it is enabled. -/
def operate (world : World) (operation : Operation) : Option World :=
  if Enabled world operation then
    (perform codec config world operation).map fun ran =>
      recordDraws ran operation
  else
    none

/-- The agent enters its loop if the coordinator registered its session. -/
def openLoop (runtime : AgentRuntime) (sessionId : SessionId)
    (state : CoordinatorState) (loops : Table SessionId SessionLoop) :
    Table SessionId SessionLoop :=
  match state.agents.get? runtime.config.deviceId with
  | none => loops
  | some agent =>
    if agent.sessionId = sessionId then
      loops.insert sessionId (.opened runtime agent.commandTx)
    else
      loops

namespace Fleet

def turn (fleet : Fleet) (sessionId : SessionId)
    (next : SessionLoop → Option SessionLoop) : Option Fleet :=
  (fleet.loops.get? sessionId).bind fun loop =>
    if loop.running then
      (next loop).map fun later =>
        { fleet with loops := fleet.loops.insert sessionId later }
    else
      none

/-- The fleet after a step, or `none` when the step is impossible. -/
def next (fleet : Fleet) : FleetLabel → Option Fleet
  | .connect runtime recoveries env peerFingerprint sessionId =>
    (operate codec config fleet.coordinator
      (.connect env peerFingerprint (runtime.hello recoveries) sessionId)).map fun coordinator =>
          { coordinator
            loops := openLoop runtime sessionId coordinator.state fleet.loops }
  | .event env stream =>
    (fleet.loops.get? stream.2).bind fun loop =>
      match loop.outbox with
      | [] => none
      | event :: rest =>
        (operate codec config fleet.coordinator (.event env stream (some event))).map
            fun coordinator =>
              { coordinator
                loops := fleet.loops.insert stream.2 { loop with outbox := rest } }
  | .receive sessionId =>
    (fleet.loops.get? sessionId).bind fun loop =>
      match pendingOn fleet.coordinator.state.channels loop.channel with
      | [] => none
      | command :: _ =>
        if loop.running then
          (operate codec config fleet.coordinator (.receive loop.channel)).map fun coordinator =>
              { coordinator
                loops := fleet.loops.insert sessionId
                  { loop with inbox := loop.inbox ++ [command] } }
        else
          none
  | .coordinator operation =>
    if operation.isAlone then
      (operate codec config fleet.coordinator operation).map
        fun coordinator => { fleet with coordinator }
    else
      none
  | .command sessionId => fleet.turn sessionId (SessionLoop.takeCommand codec)
  | .task sessionId jobId accepts => fleet.turn sessionId fun loop => loop.taskEvent jobId accepts
  | .completion sessionId jobId result =>
    fleet.turn sessionId fun loop => loop.completeTask jobId result
  | .heartbeat sessionId => fleet.turn sessionId SessionLoop.tick
  | .stop sessionId => fleet.turn sessionId fun loop => some loop.stopped

end Fleet

/-- The coordinator and the agents whose sessions it opens. -/
def fleetSystem : TransitionSystem Fleet FleetLabel where
  initial fleet :=
    (coordinatorSystem codec config).initial fleet.coordinator ∧ fleet.loops = ∅
  step fleet label next := fleet.next codec config label = some next

end System

theorem step_of_operate {codec config world next operation}
    (operated : operate codec config world operation = some next) :
    (coordinatorSystem codec config).step world operation next := by
  unfold operate at operated
  split at operated
  · next enabled =>
    rw [Option.map_eq_some_iff] at operated
    obtain ⟨ran, succeeded, result⟩ := operated
    exact ⟨enabled, ran, succeeded, result.symm⟩
  · cases operated

def offeredLease : CoordinatorCommand → Option (JobId × LeaseId)
  | .lease lease =>
    match (Id.fromSlice lease.jobId : ServiceResult JobId),
        (Id.fromSlice lease.leaseId : ServiceResult LeaseId) with
    | .ok jobId, .ok leaseId => some (jobId, leaseId)
    | _, _ => none
  | .welcome _ | .cancel _ | .drain _ => none

def offeredLeases (commands : List CoordinatorCommand) : List (JobId × LeaseId) :=
  commands.filterMap offeredLease

namespace SessionLoop

/-- The leases on their way to a running loop. -/
def unread (loop : SessionLoop) (channels : List CommandChannel) : List (JobId × LeaseId) :=
  if loop.running then
    offeredLeases (loop.inbox ++ pendingOn channels loop.channel)
  else
    []

/-- The loop executes the job under the lease, or has still to read it. -/
def Carries (loop : SessionLoop) (channels : List CommandChannel)
    (jobId : JobId) (leaseId : LeaseId) : Prop :=
  loop.active.get? jobId = some leaseId ∨ (jobId, leaseId) ∈ loop.unread channels

instance (loop : SessionLoop) (channels : List CommandChannel) (jobId : JobId) (leaseId : LeaseId) :
    Decidable (loop.Carries channels jobId leaseId) :=
  inferInstanceAs (Decidable (_ ∨ _))

end SessionLoop

/-- The leases that an operation takes from their agents because their
deadline has passed or their job is cancelled. -/
def droppedLeases (config : CoordinatorConfig) (state : CoordinatorState) :
    Operation → List (JobId × ActiveLease)
  | .event env _ _ | .reap env => expiredLeases env.jobOrder state env.expiryNow
  | .enqueue env submission _ =>
    match validateSubmission config submission with
    | .error _ => []
    | .ok () => expiredLeases env.jobOrder state env.expiryNow
  | .cancel jobId =>
    match leaseOf state.jobs jobId with
    | none => []
    | some active => [(jobId, active)]
  | .connect _ _ _ _ | .welcome _ | .streamEnd _ | .disconnect _ _
  | .submit _ _ _ _ | .drain | .receive _ | .hangUp _ => []

/-- The agent of the lease's session executes the job or has still to read the
lease. -/
def Fleet.carries (fleet : Fleet) (jobId : JobId) (active : ActiveLease) : Bool :=
  (fleet.loops.get? active.currentSessionId).any fun loop =>
    decide (loop.Carries fleet.coordinator.state.channels jobId active.leaseId)

/-- No lease that the operation drops is one its agent still has. -/
def Fleet.dropsNoneOf (config : CoordinatorConfig) (fleet : Fleet) (operation : Operation) : Bool :=
  (droppedLeases config fleet.coordinator.state operation).all
    fun (jobId, active) => !fleet.carries jobId active

/-- The step takes no lease from an agent that still has it. -/
def Fleet.waitsForAgents (config : CoordinatorConfig) (fleet : Fleet) : FleetLabel → Bool
  | .event env stream => fleet.dropsNoneOf config (.event env stream none)
  | .coordinator operation => fleet.dropsNoneOf config operation
  | .connect _ _ _ _ _ | .receive _ | .command _ | .task _ _ _
  | .completion _ _ _ | .heartbeat _ | .stop _ => true

end GraphZero.Measure
