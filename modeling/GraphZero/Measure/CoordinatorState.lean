import GraphZero.Measure.Receipt

/-!
# The coordinator's configuration and state

The state is what the coordinator keeps behind its mutex, together with what
its channel handles point to: the command channel of each session and the
replies sent to requesters.  A channel or a requester is named by its position
in the order of creation.  Instants and durations count nanoseconds.
-/

namespace GraphZero.Measure

open Foundation Wire

abbrev Instant := Nat
abbrev Duration := Nat

def usizeLimit : Nat := 2 ^ 64

/-- `checked_add` on `usize`, failing with `message`. -/
def checkedAdd (left right : Nat) (message : String) : ServiceResult Nat :=
  if left + right < usizeLimit then
    .ok (left + right)
  else
    .error (.capacity message)

inductive Enrollment where
  | mutualTls (devices : Table CertificateFingerprint DeviceId)
  | insecureForTests (devices : List DeviceId)

structure CoordinatorConfig where
  enrollment : Enrollment
  queueCapacity : Nat
  artifactItemCapacity : Nat
  artifactByteCapacity : Nat
  receiptLedger : ReceiptLedgerConfig
  commandCapacity : Nat
  maxArtifactBytes : Nat
  artifactChunkBytes : Nat
  maxMeasureConfigBytes : Nat
  maxEngineMetadataBytes : Nat
  maxSamplesPerSubject : Nat
  maxTelemetrySamples : Nat
  heartbeatInterval : Duration
  acceptTimeout : Duration
  leaseDuration : Duration

def CoordinatorConfig.default : CoordinatorConfig :=
  { enrollment := .insecureForTests []
    queueCapacity := 256
    artifactItemCapacity := 256
    artifactByteCapacity := 256 * 1024 * 1024
    receiptLedger := .memory 4096
    commandCapacity := 8
    maxArtifactBytes := 16 * 1024 * 1024
    artifactChunkBytes := 256 * 1024
    maxMeasureConfigBytes := 64 * 1024
    maxEngineMetadataBytes := 64 * 1024
    maxSamplesPerSubject := 4096
    maxTelemetrySamples := 4096
    heartbeatInterval := 2 * 10 ^ 9
    acceptTimeout := 5 * 10 ^ 9
    leaseDuration := 15 * 10 ^ 9 }

/-- The status codes the service answers with. -/
inductive StatusCode where
  | invalidArgument
  | deadlineExceeded
  | notFound
  | permissionDenied
  | resourceExhausted
  | failedPrecondition
  | unavailable
  | unauthenticated
  | dataLoss
  deriving DecidableEq

structure Status where
  code : StatusCode
  message : String
  deriving DecidableEq

def statusForError : ServiceError → Status
  | .authentication message => ⟨.unauthenticated, message⟩
  | .capacity message => ⟨.resourceExhausted, message⟩
  | .configuration message | .protocol message => ⟨.invalidArgument, message⟩
  | .timeout message => ⟨.deadlineExceeded, message⟩
  | .transport message | .io message => ⟨.unavailable, message⟩
  | .remoteFailure _ message => ⟨.failedPrecondition, message⟩
  | .closed => ⟨.unavailable, "measurement service closed"⟩

structure ActiveLease where
  deviceId : DeviceId
  currentSessionId : SessionId
  originSessionId : SessionId
  leaseId : LeaseId
  deadline : Instant
  deriving DecidableEq

inductive JobState where
  | queued
  | offered (active : ActiveLease)
  | running (active : ActiveLease)
  deriving DecidableEq

namespace JobState

/-- The lease of an offered or running job. -/
def lease : JobState → Option ActiveLease
  | queued => none
  | offered active => some active
  | running active => some active

@[simp]
theorem lease_queued : lease queued = none := rfl

@[simp]
theorem lease_offered (active : ActiveLease) : lease (offered active) = some active := rfl

@[simp]
theorem lease_running (active : ActiveLease) : lease (running active) = some active := rfl

theorem lease_eq_some_iff {state active} : state.lease = some active ↔
      state = offered active ∨ state = running active := by
  cases state <;> simp

end JobState

structure Job where
  submission : MeasureSubmission
  descriptors : List ArtifactDescriptor
  measurementKey : MeasurementKey
  requestNonce : RequestNonce
  /-- The requester that waits for the reply. -/
  reply : Option Nat
  state : JobState
  recovery : Option ActiveLease
  deriving DecidableEq

structure AgentSession where
  sessionId : SessionId
  profileHash : DeviceProfileHash
  capabilities : List EngineCapability
  /-- The command channel of the session. -/
  commandTx : Nat
  peerFingerprint : Option CertificateFingerprint
  slotCapacity : Nat
  freeSlots : Nat
  draining : Bool
  active : Table JobId LeaseId

structure ArtifactRecord where
  bytes : Bytes
  references : Nat

/-- A bounded command channel; `receiving` until its receiver is dropped. -/
structure CommandChannel where
  capacity : Nat
  pending : List CoordinatorCommand
  receiving : Bool

structure CoordinatorState where
  agents : Table DeviceId AgentSession
  jobs : Table JobId Job
  queue : List JobId
  artifacts : Table ArtifactDigest ArtifactRecord
  artifactBytes : Nat
  receipts : ReceiptLedger
  channels : List CommandChannel
  /-- How many requesters were admitted. -/
  requesters : Nat
  /-- The replies sent, each with the requester it was sent to. -/
  replies : List (Nat × CommittedMeasurement)

/-- What an operation reads of its surroundings: the clock, the order in which
the hash maps are iterated, and the identifiers it draws. -/
structure Surroundings where
  /-- The reading leases are expired against. -/
  expiryNow : Instant
  /-- The reading a lease of the given job is renewed from. -/
  renewalNow : JobId → Instant
  jobOrder : IterationOrder JobId
  /-- The order of the leases of each session. -/
  activeOrder : SessionId → IterationOrder JobId
  artifactOrder : IterationOrder ArtifactDigest
  /-- The lease identifiers of the offers, each with its clock reading. -/
  draws : List (LeaseId × Instant)

/-- A coordinator that has just opened its ledger. -/
def newState (receipts : ReceiptLedger) : CoordinatorState :=
  { agents := ∅, jobs := ∅, queue := [], artifacts := ∅, artifactBytes := 0
    receipts, channels := [], requesters := 0, replies := [] }

def agentMatches (agent : AgentSession) (job : Job) : Bool :=
  decide (0 < agent.freeSlots) && !agent.draining &&
  agent.profileHash == job.submission.targetDeviceProfileHash &&
  agent.capabilities.any fun capability =>
    capability.engine == some (engineIdentityToWire job.submission.engine) &&
    job.descriptors.all (fun descriptor =>
      capability.artifactFormats.any fun format =>
        format.formatKind == descriptor.formatKind.code &&
        format.adapterFormatId == descriptor.adapterFormatId) &&
    capability.measureConfigEncodings.contains job.submission.measureConfig.encoding &&
    capability.measurementProtocolVersions.contains measurementProtocolVersion

def durationMs (duration : Duration) : Nat :=
  min (duration / 10 ^ 6) (2 ^ 64 - 1)

def leaseCommand (config : CoordinatorConfig) (job : Job) (jobId : JobId)
    (active : ActiveLease) : CoordinatorCommand :=
  .lease
    { sessionId := active.currentSessionId.toVec
      jobId := jobId.toVec
      measurementKey := job.measurementKey.toVec
      requestNonce := job.requestNonce.toVec
      leaseId := active.leaseId.toVec
      leaseDurationMs := durationMs config.leaseDuration
      kind := job.submission.kind.wire.code
      engine := some (engineIdentityToWire job.submission.engine)
      measureConfigHash := job.submission.options.configHash
      measureConfigEncoding := job.submission.measureConfig.encoding
      measureConfigPayload := job.submission.measureConfig.payload
      targetDeviceProfileHash :=
        job.submission.targetDeviceProfileHash.toVec
      subjects := (job.submission.subjects.zip job.descriptors).zipIdx.map
        fun ((subject, descriptor), logicalIndex) =>
          { logicalIndex := logicalIndex % 2 ^ 32
            graphHash := subject.graphHash
            artifact := some
              { artifactDigest := descriptor.digest.toVec
                artifactSize := descriptor.size
                formatKind := descriptor.formatKind.code
                adapterFormatId := descriptor.adapterFormatId } } }

/-- `try_send`, which fails on a full channel and on a closed one. -/
def trySend (channels : List CommandChannel) (channel : Nat)
    (command : CoordinatorCommand) : Bool × List CommandChannel :=
  match channels[channel]? with
  | none => (false, channels)
  | some target =>
    if target.receiving && decide (target.pending.length < target.capacity)
    then
      (true, channels.set channel { target with pending := target.pending ++ [command] })
    else
      (false, channels)

/-! ## Requests and messages -/

def validateSubmission (config : CoordinatorConfig)
    (submission : MeasureSubmission) : ServiceResult Unit := do
  if submission.subjects.length ≠ submission.kind.subjectCount then
    throw (.configuration "measurement kind has the wrong subject count")
  if submission.subjects.any fun artifact =>
      decide (config.maxArtifactBytes < artifact.bytes.length) then
    throw (.capacity "artifact exceeds configured maximum")
  if submission.measureConfig.encoding = 0 then
    throw (.configuration "measure config encoding must be non-zero")
  if config.maxMeasureConfigBytes < submission.measureConfig.payload.length then
    throw (.capacity "measure config exceeds configured maximum")

def maxProfileStringBytes : Nat := 128
def maxAgentBuildBytes : Nat := 128

def validateProfileStrings : List (String × String) → ServiceResult Unit
  | [] => .ok ()
  | (name, value) :: rest =>
    if value.isEmpty ∨ maxProfileStringBytes < value.utf8ByteSize then
      .error (.protocol (boundMessage s!"device profile field {name} has invalid length"))
    else
      validateProfileStrings rest

def validateProfile (profile : DeviceProfile) : ServiceResult Unit := do
  validateProfileStrings [("platform_family", profile.platformFamily),
      ("board_model", profile.boardModel),
      ("soc", profile.soc),
      ("gpu_architecture", profile.gpuArchitecture),
      ("platform_release", profile.platformRelease),
      ("cuda_version", profile.cudaVersion),
      ("gpu_driver_version", profile.gpuDriverVersion),
      ("compiler_version", profile.compilerVersion),
      ("compiler_runtime_version", profile.compilerRuntimeVersion),
      ("power_profile", profile.powerProfile),
      ("clock_policy", profile.clockPolicy),
      ("cooling_policy", profile.coolingPolicy)]
  fixedBytes "operating_system_image_digest" 32 profile.operatingSystemImageDigest
  fixedBytes "agent_image_digest" 32 profile.agentImageDigest
  if profile.measurementProtocolVersion ≠ measurementProtocolVersion then
    throw (.protocol "unsupported device measurement protocol version")

def validateCapabilities : List EngineCapability → ServiceResult Unit
  | [] => .ok ()
  | capability :: rest => do
      match capability.engine with
      | none => throw (.protocol "capability engine identity is required")
      | some identity => engineIdentityFromWire identity
      if capability.artifactFormats.isEmpty ∨ capability.measureConfigEncodings.isEmpty ∨
          capability.measurementProtocolVersions.isEmpty then
        throw (.protocol "capability lists must be non-empty")
      validateCapabilities rest

/-- `recoveredJobs` are the jobs of the recoveries already checked. -/
def validateRecoveries : List LeaseRecovery → (recoveredJobs : List JobId) → ServiceResult Unit
  | [], _ => .ok ()
  | recovery :: rest, recoveredJobs => do
      let jobId : JobId ← Id.fromSlice recovery.jobId
      if jobId ∈ recoveredJobs then
        throw (.protocol "agent supplied duplicate lease recoveries")
      let _ : LeaseId ← Id.fromSlice recovery.leaseId
      match JobPhase.ofCode recovery.phase with
      | none => throw (.protocol "unknown recovery phase")
      | some .unspecified => throw (.protocol "recovery phase is unspecified")
      | some _ => pure ()
      if recovery.reportPersisted = false then
        throw (.protocol "this agent version can recover persisted reports only")
      validateRecoveries rest (jobId :: recoveredJobs)

def validateHello (config : CoordinatorConfig) (hello : AgentHello) : ServiceResult Unit := do
  if hello.protocolMajor ≠ protocolMajor then
    throw (.protocol (boundMessage s!"unsupported protocol major {hello.protocolMajor}"))
  if hello.protocolMinor ≠ protocolMinor then
    throw (.protocol (boundMessage s!"unsupported protocol minor {hello.protocolMinor}"))
  let _ : DeviceId ← Id.fromSlice hello.deviceId
  if hello.agentBuild.isEmpty ∨ maxAgentBuildBytes < hello.agentBuild.utf8ByteSize then
    throw (.protocol "agent_build length is invalid")
  match hello.profile with
  | none => throw (.protocol "device profile is required")
  | some profile => validateProfile profile
  if hello.capabilities.isEmpty then
    throw (.protocol "at least one engine capability is required")
  if hello.jobSlots = 0 ∨ config.commandCapacity < hello.jobSlots.toNat then
    throw (.protocol "agent job_slots exceeds the coordinator capacity")
  validateCapabilities hello.capabilities
  if hello.jobSlots.toNat < hello.recoveries.length then
    throw (.protocol "agent supplied too many lease recoveries")
  validateRecoveries hello.recoveries []

def authenticateEnrollment (enrollment : Enrollment)
    (peerFingerprint : Option CertificateFingerprint)
    (claimedDevice : DeviceId) : ServiceResult Unit :=
  match enrollment with
  | .mutualTls devices =>
    match peerFingerprint with
    | none => .error (.authentication "client certificate is required")
    | some fingerprint =>
      match devices.get? fingerprint with
      | none => .error (.authentication
          "client certificate is not enrolled")
      | some enrolled =>
        if enrolled ≠ claimedDevice then
          .error (.authentication "certificate and device id do not match")
        else
          .ok ()
  | .insecureForTests devices =>
    if claimedDevice ∈ devices then
      .ok ()
    else
      .error (.authentication "device id is not enrolled")

def welcome (config : CoordinatorConfig) (sessionId : SessionId) (profileHash : DeviceProfileHash)
    (recoveries : List RecoveryDisposition) : CoordinatorCommand :=
  .welcome
    { sessionId := sessionId.toVec
      negotiatedMinor := protocolMinor
      deviceProfileHash := profileHash.toVec
      heartbeatIntervalMs := durationMs config.heartbeatInterval
      acceptTimeoutMs := durationMs config.acceptTimeout
      defaultLeaseDurationMs := durationMs config.leaseDuration
      maxArtifactBytes := config.maxArtifactBytes
      artifactChunkBytes := config.artifactChunkBytes % 2 ^ 32
      maxMeasureConfigBytes := config.maxMeasureConfigBytes % 2 ^ 32
      maxEngineMetadataBytes := config.maxEngineMetadataBytes % 2 ^ 32
      maxSamplesPerSubject := config.maxSamplesPerSubject % 2 ^ 32
      maxTelemetrySamples := config.maxTelemetrySamples % 2 ^ 32
      maxBoundedStringBytes := 512
      recoveries }

/-- The session a data-plane request belongs to, in the order of device ids. -/
def authenticateSession (state : CoordinatorState) (sessionId : SessionId)
    (peerFingerprint : Option CertificateFingerprint) :
    Except Status (DeviceId × AgentSession) :=
  let found := state.agents.sortedKeys.findSome? fun deviceId =>
    (state.agents.get? deviceId).bind fun agent =>
      if agent.sessionId = sessionId then some (deviceId, agent) else none
  match found with
  | none => .error ⟨.permissionDenied, "unknown agent session"⟩
  | some (deviceId, agent) =>
    if agent.peerFingerprint ≠ peerFingerprint then
      .error ⟨.permissionDenied, "data-plane peer differs from control session"⟩
    else
      .ok (deviceId, agent)

def validateAgentLeaseIds (state : CoordinatorState) (deviceId : DeviceId)
    (sessionId : SessionId) (event : LeaseReference) :
    ServiceResult (JobId × Job × ActiveLease) := do
  let eventSession : SessionId ← Id.fromSlice event.sessionId
  if eventSession ≠ sessionId then
    throw (.protocol "event session id mismatch")
  let jobId : JobId ← Id.fromSlice event.jobId
  let leaseId : LeaseId ← Id.fromSlice event.leaseId
  match state.agents.get? deviceId with
  | none => throw (.protocol "event agent is not connected")
  | some agent =>
    if agent.active.get? jobId ≠ some leaseId then
      throw (.protocol "event references a lease not active on the agent")
    match state.jobs.get? jobId with
    | none => throw (.protocol "event references unknown job")
    | some job =>
      match job.state.lease with
      | none => throw (.protocol "event references an unleased job")
      | some active =>
        if active.deviceId ≠ deviceId ∨ active.currentSessionId ≠ sessionId ∨
            active.leaseId ≠ leaseId then
          throw (.protocol "event lease identity mismatch")
        pure (jobId, job, active)

/-! ## Reports -/

def invalidArgument {α : Type} (message : String) : Except Status α :=
  .error ⟨.invalidArgument, message⟩

def resourceExhausted {α : Type} (message : String) : Except Status α :=
  .error ⟨.resourceExhausted, message⟩

def failedPrecondition {α : Type} (message : String) : Except Status α :=
  .error ⟨.failedPrecondition, message⟩

/-- The subjects of a report against those of the submission. -/
def validateSubjects (config : CoordinatorConfig) :
    List (SubjectMeasurement × GraphArtifact) → (logicalIndex : Nat) →
    Except Status Unit
  | [], _ => .ok ()
  | (actual, expected) :: rest, logicalIndex =>
    if actual.logicalIndex ≠ logicalIndex % 2 ^ 32 ∨ actual.graphHash ≠ expected.graphHash then
      invalidArgument "report subject mismatch"
    else if config.maxEngineMetadataBytes < actual.engineMetadata.length then
      resourceExhausted "engine metadata is too large"
    else
      validateSubjects config rest (logicalIndex + 1)

/-- The samples of a report; `subjectSampleIndices` counts the samples of each
subject so far. -/
def validateSamples : List MeasurementSample → (scheduleIndex : Nat) →
    (subjectSampleIndices : List Nat) → Except Status Unit
  | [], _, _ => .ok ()
  | sample :: rest, scheduleIndex, subjectSampleIndices =>
    if sample.scheduleIndex ≠ scheduleIndex % 2 ^ 32 then
      invalidArgument "report sample schedule is not contiguous"
    else
      match subjectSampleIndices[sample.logicalIndex]? with
      | none => invalidArgument "sample references an unknown subject"
      | some expectedIndex =>
        if sample.subjectSampleIndex ≠ expectedIndex then
          invalidArgument "subject sample indices are not contiguous"
        else if 2 ^ 32 ≤ expectedIndex + 1 then
          resourceExhausted "subject sample index overflow"
        else
          validateSamples rest (scheduleIndex + 1) (subjectSampleIndices.set sample.logicalIndex
              (expectedIndex + 1))

def validateOutcome (report : MeasureReport) : Except Status Unit :=
  match MeasureAttemptOutcome.ofCode report.outcome with
  | none => invalidArgument "unknown report outcome"
  | some .unspecified => invalidArgument "report outcome is unspecified"
  | some .succeeded =>
    if report.failure.isSome ∨ report.subjects.any (fun subject =>
        match subject.scalarReward with
        | none => true
        | some reward => !reward.isFinite) then
      invalidArgument "successful report is malformed"
    else
      .ok ()
  | some _ =>
    match report.failure with
    | none => invalidArgument "failed report omitted detail"
    | some failure =>
      if report.subjects.any fun subject =>
          subject.scalarReward.isSome then
        invalidArgument "failed report included scalar reward"
      else if 512 < failure.boundedMessage.utf8ByteSize then
        resourceExhausted "failure message is too large"
      else
        .ok ()

def validateReport (config : CoordinatorConfig) (jobId : JobId) (job : Job)
    (deviceId : DeviceId) (agent : AgentSession)
    (currentSession : SessionId) (leaseId : LeaseId)
    (report : MeasureReport) : Except Status Unit := do
  match job.state with
  | .offered _ => failedPrecondition "job was not accepted"
  | .queued => failedPrecondition "job is not leased"
  | .running active =>
    if active.deviceId ≠ deviceId ∨ active.currentSessionId ≠ currentSession ∨
        active.leaseId ≠ leaseId ∨
        agent.active.get? jobId ≠ some leaseId then
      failedPrecondition "stale lease"
    if report.originSessionId ≠ active.originSessionId.toVec ∨
        report.deviceProfileHash ≠ agent.profileHash.toVec ∨
        report.measurementKey ≠ job.measurementKey.toVec ∨
        report.requestNonce ≠ job.requestNonce.toVec ∨
        report.measureConfigHash ≠ job.submission.options.configHash ∨
        report.kind ≠ job.submission.kind.wire.code ∨
        report.engine ≠ some (engineIdentityToWire job.submission.engine) then
      invalidArgument "report identity mismatch"
    if report.subjects.length ≠ job.submission.subjects.length then
      invalidArgument "report subject mismatch"
    validateSubjects config (report.subjects.zip job.submission.subjects) 0
    if usizeLimit ≤ config.maxSamplesPerSubject * report.subjects.length
    then
      resourceExhausted "report sample limit overflow"
    if config.maxSamplesPerSubject * report.subjects.length < report.samples.length ∨
        config.maxTelemetrySamples < report.telemetry.length then
      resourceExhausted "report evidence is too large"
    validateSamples report.samples 0 (List.replicate report.subjects.length 0)
    validateOutcome report

/-- The job side of `requeue_active`. -/
def requeueJob (state : CoordinatorState) (jobId : JobId)
    (active : ActiveLease) (preserveForRecovery : Bool) : CoordinatorState :=
  match state.jobs.get? jobId with
  | none => state
  | some job =>
    { state with
      jobs := state.jobs.insert jobId
        { job with
          state := .queued
          recovery := if preserveForRecovery then some active else none }
      queue :=
        if jobId ∈ state.queue then state.queue
        else state.queue ++ [jobId] }

end GraphZero.Measure
