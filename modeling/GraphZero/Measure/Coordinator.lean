import GraphZero.Measure.CoordinatorState

/-!
# The coordinator's operations

Each operation is a function of the state under the mutex.  `schedule` takes
the lease identifiers it draws as a list and answers `none` when the list is
too short, so that its loop is structural.
-/

namespace GraphZero.Measure

open Foundation Wire

/-- The bytes and the reference count requested for each digest. -/
def requestedArtifacts : List (ArtifactDescriptor × GraphArtifact) →
    Table ArtifactDigest (Bytes × Nat) →
    ServiceResult (Table ArtifactDigest (Bytes × Nat))
  | [], requested => .ok requested
  | (descriptor, artifact) :: rest, requested =>
    match requested.get? descriptor.digest with
    | some (bytes, references) =>
      if bytes ≠ artifact.bytes then
        .error (.protocol "artifact digest collision with different bytes")
      else do
        let references ← checkedAdd references 1 "artifact reference count overflow"
        requestedArtifacts rest (requested.insert descriptor.digest (bytes, references))
    | none => requestedArtifacts rest (requested.insert descriptor.digest (artifact.bytes, 1))

/-- How many items and bytes the requested digests add to the store. -/
def newArtifacts (stored : Table ArtifactDigest ArtifactRecord)
    (requested : Table ArtifactDigest (Bytes × Nat)) :
    List ArtifactDigest → (newItems newBytes : Nat) →
    ServiceResult (Nat × Nat)
  | [], newItems, newBytes => .ok (newItems, newBytes)
  | digest :: rest, newItems, newBytes =>
    match requested.get? digest with
    | none => newArtifacts stored requested rest newItems newBytes
    | some (bytes, references) =>
      match stored.get? digest with
      | some record =>
        if record.bytes ≠ bytes then
          .error (.protocol "artifact digest collision with different bytes")
        else do
          let _ ← checkedAdd record.references references "artifact reference count overflow"
          newArtifacts stored requested rest newItems newBytes
      | none => do
          let newItems ← checkedAdd newItems 1 "artifact item count overflow"
          let newBytes ← checkedAdd newBytes bytes.length "artifact byte count overflow"
          newArtifacts stored requested rest newItems newBytes

def storeArtifact (requested : Table ArtifactDigest (Bytes × Nat))
    (stored : Table ArtifactDigest ArtifactRecord)
    (digest : ArtifactDigest) : Table ArtifactDigest ArtifactRecord :=
  match requested.get? digest with
  | none => stored
  | some (bytes, references) =>
    match stored.get? digest with
    | some record =>
      stored.insert digest { record with references := record.references + references }
    | none => stored.insert digest { bytes, references }

def retainArtifacts (config : CoordinatorConfig)
    (order : IterationOrder ArtifactDigest) (state : CoordinatorState)
    (descriptors : List ArtifactDescriptor) (artifacts : List GraphArtifact) :
    ServiceResult CoordinatorState := do
  let requested ← requestedArtifacts (descriptors.zip artifacts) ∅
  let digests := order.visit requested.keys
  let (newItems, newBytes) ← newArtifacts state.artifacts requested digests 0 0
  if config.artifactItemCapacity < state.artifacts.size + newItems then
    throw (.capacity "artifact item capacity is full")
  let newTotal ← checkedAdd state.artifactBytes newBytes "artifact byte count overflow"
  if config.artifactByteCapacity < newTotal then
    throw (.capacity "artifact byte capacity is full")
  pure
    { state with
      artifactBytes := newTotal
      artifacts := digests.foldl (storeArtifact requested) state.artifacts }

def releaseArtifact (state : CoordinatorState) (digest : ArtifactDigest) : CoordinatorState :=
  match state.artifacts.get? digest with
  | none => state
  | some record =>
    if 1 < record.references then
      { state with
        artifacts := state.artifacts.insert digest
          { record with references := record.references - 1 } }
    else
      { state with
        artifacts := state.artifacts.erase digest
        artifactBytes := state.artifactBytes - record.bytes.length }

def releaseArtifacts (state : CoordinatorState)
    (descriptors : List ArtifactDescriptor) : CoordinatorState :=
  descriptors.foldl (fun state descriptor => releaseArtifact state descriptor.digest) state

/-- The agent side of `requeue_active`. -/
def releaseLease (state : CoordinatorState) (jobId : JobId)
    (active : ActiveLease) : CoordinatorState :=
  match state.agents.get? active.deviceId with
  | none => state
  | some agent =>
    if agent.sessionId = active.currentSessionId ∧
        agent.active.get? jobId = some active.leaseId then
      { state with
        agents := state.agents.insert active.deviceId
          { agent with active := agent.active.erase jobId } }
    else
      state

def requeueActive (state : CoordinatorState) (jobId : JobId)
    (active : ActiveLease) (preserveForRecovery : Bool) : CoordinatorState :=
  releaseLease (requeueJob state jobId active preserveForRecovery) jobId active

def expiredLeases (order : IterationOrder JobId) (state : CoordinatorState)
    (now : Instant) : List (JobId × ActiveLease) :=
  (order.visit state.jobs.keys).filterMap fun jobId =>
    (state.jobs.get? jobId).bind fun job =>
      job.state.lease.bind fun active =>
        if active.deadline ≤ now then some (jobId, active) else none

def expireLeases (order : IterationOrder JobId) (state : CoordinatorState)
    (now : Instant) : CoordinatorState :=
  (expiredLeases order state now).foldl
    (fun state (jobId, active) => requeueActive state jobId active false)
    state

/-- What `remove_agent_session` does for one entry of the agent's map. -/
def requeueLeased (state : CoordinatorState) (jobId : JobId)
    (leaseId : LeaseId) : CoordinatorState :=
  match state.jobs.get? jobId with
  | none => state
  | some job =>
    match job.state with
    | .offered active =>
      if active.leaseId = leaseId then
        requeueActive state jobId active false
      else state
    | .running active =>
      if active.leaseId = leaseId then
        requeueActive state jobId active true
      else state
    | .queued => state

/-- The entries of an agent's map in the order they are visited. -/
def activeEntries (order : SessionId → IterationOrder JobId) (agent : AgentSession) :
    List (JobId × LeaseId) :=
  ((order agent.sessionId).visit agent.active.keys).filterMap fun jobId =>
    (agent.active.get? jobId).map fun leaseId => (jobId, leaseId)

def removeAgentSession (order : SessionId → IterationOrder JobId)
    (state : CoordinatorState) (deviceId : DeviceId) : CoordinatorState :=
  match state.agents.get? deviceId with
  | none => state
  | some agent =>
    (activeEntries order agent).foldl
      (fun state (jobId, leaseId) => requeueLeased state jobId leaseId)
      { state with agents := state.agents.erase deviceId }

def findAssignment (state : CoordinatorState) : Option (JobId × Job × DeviceId × AgentSession) :=
  state.queue.findSome? fun jobId =>
    (state.jobs.get? jobId).bind fun job =>
      state.agents.sortedKeys.findSome? fun deviceId =>
        (state.agents.get? deviceId).bind fun agent =>
          if agentMatches agent job then
            some (jobId, job, deviceId, agent)
          else
            none

def offerLease (config : CoordinatorConfig) (deviceId : DeviceId)
    (agent : AgentSession) (draw : LeaseId × Instant) : ActiveLease :=
  { deviceId
    currentSessionId := agent.sessionId
    originSessionId := agent.sessionId
    leaseId := draw.1
    deadline := draw.2 + config.acceptTimeout }

/-- The tables once `jobId` is offered to `deviceId`. -/
def recordOffer (state : CoordinatorState) (jobId : JobId) (job : Job)
    (agent : AgentSession) (active : ActiveLease) : CoordinatorState :=
  { state with
    queue := state.queue.erase jobId
    jobs := state.jobs.insert jobId { job with state := .offered active, recovery := none }
    agents := state.agents.insert active.deviceId
      { agent with
        freeSlots := agent.freeSlots - 1
        active := agent.active.insert jobId active.leaseId } }

/-- One turn of the loop of `schedule`: the offer, and the removal of the
agent when its command channel takes no more. -/
def offer (config : CoordinatorConfig) (order : SessionId → IterationOrder JobId)
    (state : CoordinatorState) (jobId : JobId) (job : Job)
    (deviceId : DeviceId) (agent : AgentSession) (draw : LeaseId × Instant) :
    CoordinatorState :=
  let active := offerLease config deviceId agent draw
  let command := leaseCommand config job jobId active
  let (sent, channels) := trySend state.channels agent.commandTx command
  let offered := { recordOffer state jobId job agent active with channels }
  if sent then offered else removeAgentSession order offered deviceId

def schedule (config : CoordinatorConfig) (order : SessionId → IterationOrder JobId) :
    (draws : List (LeaseId × Instant)) → CoordinatorState →
    Option CoordinatorState
  | draws, state =>
    match findAssignment state with
    | none => some state
    | some (jobId, job, deviceId, agent) =>
      match draws with
      | [] => none
      | draw :: rest =>
        schedule config order rest (offer config order state jobId job deviceId agent draw)

/-- The outcome of an operation: the state it leaves and its answer, or `none`
when it was given too few draws. -/
abbrev Outcome (α : Type) := Option (CoordinatorState × α)

def andSchedule {α : Type} (config : CoordinatorConfig)
    (env : Surroundings) (state : CoordinatorState) (answer : α) :
    Outcome α :=
  (schedule config env.activeOrder env.draws state).map fun scheduled => (scheduled, answer)

/-- The part of `enqueue` that may still refuse the submission. -/
def admitJob (codec : Codec) (config : CoordinatorConfig)
    (env : Surroundings) (state : CoordinatorState)
    (submission : MeasureSubmission) (requestNonce : RequestNonce) :
    ServiceResult (CoordinatorState × JobId) := do
  let descriptors := submission.subjects.map (artifactDescriptor codec)
  let key := measurementKey codec submission descriptors
  let id := jobId codec key requestNonce
  if state.jobs.contains id || state.receipts.contains id then
    throw (.protocol "job id is already admitted")
  if config.queueCapacity ≤ state.queue.length then
    throw (.capacity "coordinator job queue is full")
  if state.receipts.canAdmit state.jobs.size = false then
    throw (.capacity "coordinator receipt ledger is full")
  let retained ← retainArtifacts config env.artifactOrder state descriptors submission.subjects
  pure
    ({ retained with
        jobs := retained.jobs.insert id
          { submission, descriptors, measurementKey := key, requestNonce
            reply := some retained.requesters
            state := .queued
            recovery := none }
        queue := retained.queue ++ [id]
        requesters := retained.requesters + 1 }, id)

def enqueue (codec : Codec) (config : CoordinatorConfig)
    (env : Surroundings) (state : CoordinatorState)
    (submission : MeasureSubmission) (requestNonce : RequestNonce) :
    Outcome (ServiceResult JobId) :=
  match validateSubmission config submission with
  | .error failure => some (state, .error failure)
  | .ok () =>
    let state := expireLeases env.jobOrder state env.expiryNow
    match admitJob codec config env state submission requestNonce with
    | .error failure => some (state, .error failure)
    | .ok (admitted, id) => andSchedule config env admitted (.ok id)

/-- The command of `cancel_job` to the agent that holds the lease. -/
def sendCancel (state : CoordinatorState) (jobId : JobId)
    (active : ActiveLease) : CoordinatorState :=
  match state.agents.get? active.deviceId with
  | none => state
  | some agent =>
    let (_, channels) := trySend state.channels agent.commandTx
      (.cancel ⟨jobId.toVec, active.leaseId.toVec, .callerDeadline⟩)
    let agents :=
      if agent.active.get? jobId = some active.leaseId then
        state.agents.insert active.deviceId { agent with active := agent.active.erase jobId }
      else
        state.agents
    { state with channels, agents }

def cancelJob (state : CoordinatorState) (jobId : JobId) : CoordinatorState :=
  let state := { state with queue := state.queue.erase jobId }
  match state.jobs.get? jobId with
  | none => state
  | some job =>
    let removed := { state with jobs := state.jobs.erase jobId }
    let notified := match job.state.lease with
      | none => removed
      | some active => sendCancel removed jobId active
    releaseArtifacts notified job.descriptors

def drainAgent (state : CoordinatorState) (deviceId : DeviceId) : CoordinatorState :=
  match state.agents.get? deviceId with
  | none => state
  | some agent =>
    { state with
      agents := state.agents.insert deviceId { agent with draining := true, freeSlots := 0 }
      channels :=
        (trySend state.channels agent.commandTx (.drain false)).2 }

def drainAgents (state : CoordinatorState) : CoordinatorState :=
  state.agents.sortedKeys.foldl drainAgent state

def reapExpired (config : CoordinatorConfig) (env : Surroundings)
    (state : CoordinatorState) : Outcome Unit :=
  andSchedule config env (expireLeases env.jobOrder state env.expiryNow) ()

/-! ## Sessions -/

/-- What the recoveries handled so far amount to. -/
structure Reconciliation where
  state : CoordinatorState
  dispositions : List RecoveryDisposition
  agentActive : Table JobId LeaseId

/-- The job `jobId` runs again, under the same lease and a new session. -/
def rebindJob (state : CoordinatorState) (jobId : JobId) (job : Job)
    (active : ActiveLease) : CoordinatorState :=
  { state with
    jobs := state.jobs.insert jobId { job with state := .running active, recovery := none }
    queue := state.queue.erase jobId }

def reboundLease (config : CoordinatorConfig) (env : Surroundings)
    (sessionId : SessionId) (jobId : JobId) (active : ActiveLease) :
    ActiveLease :=
  { active with
    currentSessionId := sessionId
    deadline := env.renewalNow jobId + config.leaseDuration }

/-- The recovery record that `deviceId` may take up. -/
def recoverable (state : CoordinatorState) (deviceId : DeviceId)
    (jobId : JobId) (leaseId : LeaseId) : Option (Job × ActiveLease) :=
  (state.jobs.get? jobId).bind fun job =>
    job.recovery.bind fun active =>
      if active.deviceId = deviceId ∧ active.leaseId = leaseId then
        some (job, active)
      else
        none

def reconcileRecovery (config : CoordinatorConfig) (env : Surroundings) (deviceId : DeviceId)
    (sessionId : SessionId) (progress : Reconciliation) (jobId : JobId)
    (leaseId : LeaseId) : Reconciliation :=
  let state := progress.state
  let disposition action : RecoveryDisposition := ⟨jobId.toVec, leaseId.toVec, action⟩
  if state.receipts.contains jobId then
    { progress with
      dispositions :=
        progress.dispositions ++ [disposition .alreadyCommitted] }
  else
    match recoverable state deviceId jobId leaseId with
    | some (job, active) =>
      { state := rebindJob state jobId job
          (reboundLease config env sessionId jobId active)
        dispositions :=
          progress.dispositions ++ [disposition .submitReport]
        agentActive := progress.agentActive.insert jobId leaseId }
    | none =>
      { progress with
        dispositions := progress.dispositions ++ [disposition .cancel] }

/-- The state stays as the recoveries before a malformed one left it. -/
def reconcileRecoveries (config : CoordinatorConfig) (env : Surroundings) (deviceId : DeviceId)
    (sessionId : SessionId) :
    List LeaseRecovery → Reconciliation →
    CoordinatorState × ServiceResult Reconciliation
  | [], progress => (progress.state, .ok progress)
  | recovery :: rest, progress =>
    match Id.fromSlice recovery.jobId, Id.fromSlice recovery.leaseId with
    | .ok jobId, .ok leaseId =>
      reconcileRecoveries config env deviceId sessionId rest
        (reconcileRecovery config env deviceId sessionId progress jobId leaseId)
    | .error failure, _ => (progress.state, .error failure)
    | .ok _, .error failure => (progress.state, .error failure)

/-- The checks `connect` makes before it takes the lock. -/
def greet (codec : Codec) (config : CoordinatorConfig)
    (peerFingerprint : Option CertificateFingerprint) (hello : AgentHello) :
    Except Status (DeviceId × DeviceProfileHash) := do
  (validateHello config hello).mapError statusForError
  let deviceId : DeviceId ← (Id.fromSlice hello.deviceId).mapError statusForError
  (authenticateEnrollment config.enrollment peerFingerprint deviceId).mapError statusForError
  match hello.profile with
  | none => invalidArgument "device profile is required"
  | some profile => pure (deviceId, deviceProfileHash codec profile)

/-- A session as `connect` registers it: no credit, and the recovered leases
active. -/
def newSession (peerFingerprint : Option CertificateFingerprint)
    (hello : AgentHello) (sessionId : SessionId)
    (profileHash : DeviceProfileHash) (channel : Nat)
    (active : Table JobId LeaseId) : AgentSession :=
  { sessionId
    profileHash
    capabilities := hello.capabilities
    commandTx := channel
    peerFingerprint
    slotCapacity := hello.jobSlots.toNat
    freeSlots := 0
    draining := false
    active }

/-- A fresh command channel, named by the number of channels before it. -/
def openChannel (config : CoordinatorConfig) (state : CoordinatorState) : CoordinatorState :=
  { state with
    channels := state.channels ++ [⟨config.commandCapacity, [], true⟩] }

/-- The part of `connect` under the lock; the answer is the welcome still to
be sent. -/
def register (config : CoordinatorConfig) (env : Surroundings) (state : CoordinatorState)
    (peerFingerprint : Option CertificateFingerprint) (hello : AgentHello)
    (sessionId : SessionId) (deviceId : DeviceId)
    (profileHash : DeviceProfileHash) :
    CoordinatorState × Except Status CoordinatorCommand :=
  let channel := state.channels.length
  let removed := removeAgentSession env.activeOrder (openChannel config state) deviceId
  match reconcileRecoveries config env deviceId sessionId hello.recoveries ⟨removed, [], ∅⟩ with
  | (state, .error failure) => (state, .error (statusForError failure))
  | (_, .ok progress) =>
    ({ progress.state with
        agents := progress.state.agents.insert deviceId
          (newSession peerFingerprint hello sessionId profileHash channel progress.agentActive) },
      .ok (welcome config sessionId profileHash progress.dispositions))

def disconnect (config : CoordinatorConfig) (env : Surroundings)
    (state : CoordinatorState) (deviceId : DeviceId)
    (sessionId : SessionId) : Outcome Unit :=
  match state.agents.get? deviceId with
  | none => some (state, ())
  | some agent =>
    if agent.sessionId ≠ sessionId then
      some (state, ())
    else
      andSchedule config env (removeAgentSession env.activeOrder state deviceId) ()

/-- The lease of `jobId` runs for another lease duration. -/
def renewLease (config : CoordinatorConfig) (env : Surroundings)
    (state : CoordinatorState) (jobId : JobId) (job : Job)
    (active : ActiveLease) : CoordinatorState :=
  { state with
    jobs := state.jobs.insert jobId
      { job with
        state := .running
          { active with
            deadline :=
              env.renewalNow jobId + config.leaseDuration } } }

/-- The branches of `handle_agent_event` on a current session. -/
def applyEvent (config : CoordinatorConfig) (env : Surroundings)
    (state : CoordinatorState) (deviceId : DeviceId) (sessionId : SessionId)
    (agent : AgentSession) : Option AgentEvent →
    ServiceResult CoordinatorState
  | some (.ready ready) => do
      let readySession : SessionId ← Id.fromSlice ready.sessionId
      if readySession ≠ sessionId then
        throw (.protocol "ready session id mismatch")
      if agent.slotCapacity < ready.freeSlots then
        throw (.protocol "free_slots exceeds the advertised agent slot capacity")
      let active := min agent.active.size (2 ^ 32 - 1)
      pure
        { state with
          agents := state.agents.insert deviceId
            { agent with
              freeSlots :=
                min ready.freeSlots (agent.slotCapacity - active) } }
  | some (.accepted accepted) => do
      let (jobId, job, active) ← validateAgentLeaseIds state deviceId sessionId accepted
      match job.state with
      | .offered _ => pure (renewLease config env state jobId job
          active)
      | _ => throw (.protocol "job was accepted more than once")
  | some (.rejected rejected) => do
      let (jobId, _, active) ← validateAgentLeaseIds state deviceId sessionId rejected
      pure (requeueActive state jobId active false)
  | some (.heartbeat heartbeat) => do
      let (jobId, job, active) ← validateAgentLeaseIds state deviceId sessionId heartbeat
      match job.state with
      | .running _ => pure (renewLease config env state jobId job
          active)
      | _ => throw (.protocol "heartbeat preceded acceptance")
  | some (.draining drainingSession) => do
      let drainingSession : SessionId ← Id.fromSlice drainingSession
      if drainingSession ≠ sessionId then
        throw (.protocol "draining session id mismatch")
      pure
        { state with
          agents := state.agents.insert deviceId { agent with draining := true, freeSlots := 0 } }
  | some (.hello _) => .error (.protocol "AgentHello appeared more than once")
  | none => .error (.protocol "empty agent event")

/-- An error leaves the state as the expiry of leases left it. -/
def handleAgentEvent (config : CoordinatorConfig) (env : Surroundings) (state : CoordinatorState)
    (deviceId : DeviceId) (sessionId : SessionId)
    (event : Option AgentEvent) : Outcome (ServiceResult Unit) :=
  let state := expireLeases env.jobOrder state env.expiryNow
  match state.agents.get? deviceId with
  | none => some (state, .error (.protocol "agent session is not registered"))
  | some agent =>
    if agent.sessionId ≠ sessionId then
      some (state, .error (.protocol "agent session was superseded"))
    else
      match applyEvent config env state deviceId sessionId agent event with
      | .error failure => some (state, .error failure)
      | .ok applied => andSchedule config env applied (.ok ())

def alreadyCommitted : SubmitResultAck :=
  ⟨.alreadyCommitted, true, "result already committed"⟩

def differentReport : SubmitResultAck :=
  ⟨.invalidReport, true, "job already has a different committed report"⟩

def resultCommitted : SubmitResultAck :=
  ⟨.jobCommitted, true, "result committed"⟩

/-- The tables once the report of `jobId` is in the ledger. -/
def settleJob (state : CoordinatorState) (jobId : JobId) (job : Job)
    (deviceId : DeviceId) (report : MeasureReport) : CoordinatorState :=
  let agents := match state.agents.get? deviceId with
    | none => state.agents
    | some agent => state.agents.insert deviceId { agent with active := agent.active.erase jobId }
  let removed := { state with
    jobs := state.jobs.erase jobId
    queue := state.queue.erase jobId
    agents }
  let released := releaseArtifacts removed job.descriptors
  match job.reply with
  | none => released
  | some requester =>
    { released with
      replies := released.replies ++ [(requester, ⟨jobId, report⟩)] }

/-- What the request of `submit_result` names, and who sent it. -/
structure SubmittedReport where
  currentSession : SessionId
  jobId : JobId
  leaseId : LeaseId
  report : MeasureReport

def parseSubmission (request : SubmitResultRequest) : Except Status SubmittedReport := do
  let currentSession : SessionId ← (Id.fromSlice request.currentSessionId).mapError statusForError
  match request.report with
  | none => invalidArgument "measure report is required"
  | some report => do
      let jobId : JobId ← (Id.fromSlice report.jobId).mapError statusForError
      let leaseId : LeaseId ← (Id.fromSlice report.leaseId).mapError statusForError
      pure { currentSession, jobId, leaseId, report }

/-- The session of the request and of the report agree. -/
def authenticateReport (state : CoordinatorState) (peerFingerprint : Option CertificateFingerprint)
    (submitted : SubmittedReport) :
    Except Status (DeviceId × AgentSession) := do
  let (deviceId, agent) ← authenticateSession state submitted.currentSession peerFingerprint
  let reportDevice : DeviceId ← (Id.fromSlice submitted.report.deviceId).mapError statusForError
  if reportDevice ≠ deviceId then
    throw ⟨.permissionDenied, "report device identity mismatch"⟩
  pure (deviceId, agent)

/-- The commit of an authenticated report that has no receipt. -/
def commitReport (codec : Codec) (config : CoordinatorConfig)
    (env : Surroundings) (write : WriteOutcome)
    (state : CoordinatorState) (deviceId : DeviceId) (agent : AgentSession)
    (submitted : SubmittedReport) :
    Outcome (Except Status SubmitResultAck) :=
  let { currentSession, jobId, leaseId, report } := submitted
  match state.jobs.get? jobId with
  | none => some (state, .error ⟨.notFound, "unknown job"⟩)
  | some job =>
    match validateReport config jobId job deviceId agent currentSession leaseId report with
    | .error status => some (state, .error status)
    | .ok () =>
      match state.receipts.commit codec write jobId report with
      | (.error failure, receipts) =>
        some ({ state with receipts }, .error (statusForError failure))
      | (.ok .identical, receipts) => some ({ state with receipts }, .ok alreadyCommitted)
      | (.ok .conflict, receipts) => some ({ state with receipts }, .ok differentReport)
      | (.ok .missing, receipts) =>
        andSchedule config env (settleJob { state with receipts } jobId job deviceId report)
          (.ok resultCommitted)

def submitResult (codec : Codec) (config : CoordinatorConfig)
    (env : Surroundings) (write : WriteOutcome)
    (state : CoordinatorState)
    (peerFingerprint : Option CertificateFingerprint)
    (request : SubmitResultRequest) :
    Outcome (Except Status SubmitResultAck) :=
  match parseSubmission request with
  | .error status => some (state, .error status)
  | .ok submitted =>
    match authenticateReport state peerFingerprint submitted with
    | .error status => some (state, .error status)
    | .ok (deviceId, agent) =>
      match state.receipts.state codec submitted.jobId submitted.report with
      | .identical => some (state, .ok alreadyCommitted)
      | .conflict => some (state, .ok differentReport)
      | .missing => commitReport codec config env write state deviceId agent submitted

end GraphZero.Measure
