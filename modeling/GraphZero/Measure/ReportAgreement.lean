import GraphZero.Measure.Admission
import GraphZero.Measure.Agent
import GraphZero.Measure.ReportChecks

/-!
# Agent and coordinator on one report

The agent checks what its backend returned and builds a report; the
coordinator checks the report again.  The agent's checks are the weaker ones.
Under a lease that runs, a report it built passes exactly when the backend's
answer meets the rest: a reward for every subject, contiguous samples, and the
negotiated sizes.
-/

namespace GraphZero.Measure

open Foundation Wire List

/-- What the coordinator asks of a successful measurement beyond the agent's
checks; the telemetry gets one more sample on the way. -/
structure MeasurementFits (config : CoordinatorConfig) (measurement : AgentMeasurement) : Prop where
  rewarded : ∀ subject ∈ measurement.subjects, subject.scalarReward ≠ none
  metadata : ∀ subject ∈ measurement.subjects,
    subject.engineMetadata.length ≤ config.maxEngineMetadataBytes
  sampleCount : measurement.samples.length ≤
    config.maxSamplesPerSubject * measurement.subjects.length
  telemetryCount : measurement.telemetry.length + 1 ≤ config.maxTelemetrySamples
  samples : Contiguous measurement.subjects.length measurement.samples

/-- What the coordinator asks of the backend's answer beyond the agent's
checks: nothing of a failure but that the sample limit does not overflow. -/
def AnswerFits (config : CoordinatorConfig) (submission : MeasureSubmission)
    (measured : Except AgentBackendError AgentMeasurement) : Prop :=
  config.maxSamplesPerSubject * submission.subjects.length < usizeLimit ∧
  ∀ measurement, measured = .ok measurement → MeasurementFits config measurement

section Lease

variable {codec : Codec} {config : CoordinatorConfig} {jobId : JobId}
  {job : Job} {active : ActiveLease} {lease : MeasureLease}

/-- The command that offered a lease, whichever session runs it now. -/
def Issued (config : CoordinatorConfig) (job : Job) (jobId : JobId)
    (active : ActiveLease) (lease : MeasureLease) : Prop :=
  leaseCommand config job jobId { active with currentSessionId := active.originSessionId } =
    .lease lease

theorem subjects_of_issued (issued : Issued config job jobId active lease)
    (admitted : AdmittedJob codec config jobId job) :
    lease.subjects.length = job.submission.subjects.length ∧
      ∀ (index : Nat) artifact, job.submission.subjects[index]? = some artifact →
        ∃ subject, lease.subjects[index]? = some subject ∧ subject.logicalIndex = index % 2 ^ 32 ∧
          subject.graphHash = artifact.graphHash := by
  cases issued
  rw [admitted.descriptors]
  constructor
  · simp
  intro index artifact found
  have described : (job.submission.subjects.map (artifactDescriptor codec))[index]? =
        some (artifactDescriptor codec artifact) := by
    rw [getElem?_map, found]
    rfl
  have zipped : (job.submission.subjects.zip (job.submission.subjects.map
      (artifactDescriptor codec)))[index]? = some (artifact, artifactDescriptor codec artifact) :=
    getElem?_zip_eq_some.mpr ⟨found, described⟩
  rw [getElem?_map, getElem?_zipIdx, zipped]
  exact ⟨_, rfl, by simp, rfl⟩

end Lease

section Report

variable {codec : Codec} {config : CoordinatorConfig} {jobId : JobId}
  {job : Job} {agent : AgentSession} {active : ActiveLease}
  {lease : MeasureLease} {agentConfig : AgentConfig}
  {measured : Except AgentBackendError AgentMeasurement}
  {profileHash : DeviceProfileHash} {report : MeasureReport}

theorem buildReport_eq_ok {sessionId}
    (built : buildReport agentConfig sessionId profileHash lease measured = .ok report) :
    ∃ outcome measurement failure, attemptOf lease measured = .ok (outcome, measurement, failure) ∧
      validateBackendMeasurement lease measurement = .ok () ∧
      report =
        { originSessionId := sessionId.toVec
          deviceId := agentConfig.deviceId.toVec
          deviceProfileHash := profileHash.toVec
          jobId := lease.jobId
          measurementKey := lease.measurementKey
          requestNonce := lease.requestNonce
          leaseId := lease.leaseId
          engine := lease.engine
          measureConfigHash := lease.measureConfigHash
          kind := lease.kind
          outcome := outcome.code
          subjects := measurement.subjects
          samples := measurement.samples
          telemetry := measurement.telemetry
          failure } := by
  obtain ⟨⟨outcome, measurement, failure⟩, attempt, built⟩ := ok_of_bind built
  obtain ⟨_, valid, built⟩ := ok_of_bind built
  cases built
  exact ⟨outcome, measurement, failure, attempt, valid, rfl⟩

theorem identityMatches_of_built (issued : Issued config job jobId active lease)
    (built : buildReport agentConfig active.originSessionId profileHash lease measured = .ok report)
    (profile : profileHash = agent.profileHash) :
    IdentityMatches job agent active report := by
  obtain ⟨outcome, measurement, failure, _, _, rfl⟩ := buildReport_eq_ok built
  cases issued
  exact ⟨rfl, congrArg Id.toVec profile, rfl, rfl, rfl, rfl, rfl⟩

/-- The subjects that passed the agent's checks are those of the submission;
only the size of their metadata is left to check. -/
theorem subjectMatches_iff_of_valid {measurement} (issued : Issued config job jobId active lease)
    (admitted : AdmittedJob codec config jobId job)
    (valid : validateBackendMeasurement lease measurement = .ok ()) :
    measurement.subjects.length = job.submission.subjects.length ∧
      (∀ subject ∈ measurement.subjects, ∀ reward,
        subject.scalarReward = some reward → reward.isFinite = true) ∧
      ((∀ (index : Nat) actual expected,
        (measurement.subjects.zip job.submission.subjects)[index]? = some (actual, expected) →
          SubjectMatches config index actual expected) ↔
        ∀ subject ∈ measurement.subjects,
          subject.engineMetadata.length ≤ config.maxEngineMetadataBytes) := by
  obtain ⟨count, listed⟩ := subjects_of_issued issued admitted
  unfold validateBackendMeasurement at valid
  split at valid
  · cases valid
  next sameCount =>
  have length : measurement.subjects.length = lease.subjects.length := not_not.mp sameCount
  have each := validateBackendSubjects_iff.mp valid
  have paired : ∀ (index : Nat) actual, measurement.subjects[index]? = some actual →
      ∃ artifact, job.submission.subjects[index]? = some artifact ∧
        actual.logicalIndex = index % 2 ^ 32 ∧
        actual.graphHash = artifact.graphHash ∧
        ∀ reward, actual.scalarReward = some reward → reward.isFinite = true := by
    intro index actual found
    have bound := (List.getElem?_eq_some_iff.mp found).1
    have present : index < job.submission.subjects.length := by omega
    obtain ⟨subject, leased, position, hash⟩ := listed index _ (getElem?_eq_getElem present)
    have zipped : (lease.subjects.zip measurement.subjects)[index]? = some (subject, actual) :=
      getElem?_zip_eq_some.mpr ⟨leased, found⟩
    obtain ⟨samePosition, sameHash, finite⟩ := each subject actual (mem_of_getElem? zipped)
    exact ⟨_, getElem?_eq_getElem present,
      samePosition.symm.trans position, sameHash.symm.trans hash, finite⟩
  refine ⟨length.trans count, ?_, ?_⟩
  · intro subject member
    obtain ⟨index, found⟩ := getElem?_of_mem member
    obtain ⟨_, _, _, _, finite⟩ := paired index subject found
    exact finite
  constructor
  · intro subjectsMatch subject member
    obtain ⟨index, found⟩ := getElem?_of_mem member
    obtain ⟨artifact, submitted, _⟩ := paired index subject found
    exact (subjectsMatch index subject artifact
      (getElem?_zip_eq_some.mpr ⟨found, submitted⟩)).metadata
  · intro metadata index actual expected zipped
    obtain ⟨found, submitted⟩ := getElem?_zip_eq_some.mp zipped
    obtain ⟨artifact, same, position, hash, _⟩ := paired index actual found
    rw [submitted] at same
    cases same
    exact ⟨position, hash, metadata actual (mem_of_getElem? found)⟩

theorem contentMatches_of_failure {error} (issued : Issued config job jobId active lease)
    (admitted : AdmittedJob codec config jobId job)
    (built : buildReport agentConfig active.originSessionId profileHash lease
      (.error error) = .ok report) :
    ContentMatches config job.submission report ↔
      config.maxSamplesPerSubject * job.submission.subjects.length < usizeLimit := by
  obtain ⟨outcome, measurement, failure, attempt, valid, rfl⟩ := buildReport_eq_ok built
  obtain ⟨count, _, subjectsMatch⟩ := subjectMatches_iff_of_valid issued admitted valid
  unfold attemptOf at attempt
  dsimp only at attempt
  split at attempt
  · cases attempt
  next genuine =>
  cases attempt
  rw [not_or] at genuine
  constructor
  · intro content
    have limit := content.limit
    rwa [content.subjectCount] at limit
  intro limit
  refine ⟨count, subjectsMatch.mpr ?_, ?_, Nat.zero_le _, Nat.zero_le _, nofun, ?_⟩
  · intro subject member
    obtain ⟨leased, _, rfl⟩ := mem_map.mp member
    exact Nat.zero_le _
  · rwa [count]
  · refine .failed error.outcome _ (MeasureAttemptOutcome.ofCode_code error.outcome)
      ⟨genuine.2, genuine.1⟩ rfl ?_
      (utf8ByteSize_boundedUtf8 _ _)
    intro subject member
    obtain ⟨leased, _, rfl⟩ := mem_map.mp member
    rfl

theorem contentMatches_iff_of_measurement {measurement fetchElapsedMs}
    (issued : Issued config job jobId active lease) (admitted : AdmittedJob codec config jobId job)
    (built : buildReport agentConfig active.originSessionId profileHash lease
      (.ok (annotateTelemetry fetchElapsedMs measurement)) = .ok report) :
    ContentMatches config job.submission report ↔
      config.maxSamplesPerSubject * job.submission.subjects.length < usizeLimit ∧
        MeasurementFits config measurement := by
  obtain ⟨outcome, annotated, failure, attempt, valid, rfl⟩ := buildReport_eq_ok built
  obtain ⟨count, finite, subjectsMatch⟩ := subjectMatches_iff_of_valid issued admitted valid
  cases attempt
  have telemetry : (annotateTelemetry fetchElapsedMs
      measurement).telemetry.length = measurement.telemetry.length + 1 := by
    simp [annotateTelemetry]
  have named := MeasureAttemptOutcome.ofCode_code .succeeded
  constructor
  · intro content
    have limit := content.limit
    rw [content.subjectCount] at limit
    refine ⟨limit, ?_, subjectsMatch.mp content.subjects, content.sampleCount, ?_, content.samples⟩
    · intro subject member
      cases content.outcome with
      | succeeded _ _ rewarded =>
        obtain ⟨reward, present, _⟩ := rewarded subject member
        rw [present]
        exact Option.some_ne_none reward
      | failed outcome _ otherwise failure =>
        exact absurd (Option.some.inj otherwise).symm failure.2
    · rw [← telemetry]
      exact content.telemetryCount
  · intro ⟨limit, fits⟩
    refine ⟨count, subjectsMatch.mpr fits.metadata, ?_, fits.sampleCount, ?_,
      fits.samples, .succeeded named rfl ?_⟩
    · rwa [count]
    · rw [telemetry]
      exact fits.telemetryCount
    · intro subject member
      obtain ⟨reward, present⟩ := Option.ne_none_iff_exists'.mp (fits.rewarded subject member)
      exact ⟨reward, present, finite subject member reward present⟩

end Report

/-- In a reachable world, a report that the agent built under a lease that
runs in its session is accepted exactly when the backend's answer fits. -/
theorem validateReport_iff_answerFits {codec : Codec}
    {config : CoordinatorConfig} {world : World} {jobId : JobId} {job : Job}
    {active : ActiveLease} {agent : AgentSession} {lease : MeasureLease}
    {agentConfig : AgentConfig} {fetchElapsedMs : Nat}
    {measured : Except AgentBackendError AgentMeasurement}
    {report : MeasureReport}
    (reachable : (coordinatorSystem codec config).Reachable world)
    (live : world.state.jobs.get? jobId = some job)
    (running : job.state = .running active)
    (connected : world.state.agents.get? active.deviceId = some agent)
    (session : agent.sessionId = active.currentSessionId)
    (issued : Issued config job jobId active lease)
    (welcomed : agent.profileHash = deviceProfileHash codec agentConfig.profile)
    (built : processedReport codec agentConfig active.originSessionId lease
      fetchElapsedMs measured = .ok report) :
    validateReport config jobId job active.deviceId agent agent.sessionId
        active.leaseId report = .ok () ↔
      AnswerFits config job.submission measured := by
  have admitted := admittedJobs_of_reachable reachable jobId job live
  have tables := (jobTables_of_reachable reachable).1
  have held : agent.active.get? jobId = some active.leaseId := by
    obtain ⟨registered, present, _, entry⟩ :=
      (tables.leased jobId active.deviceId active.currentSessionId
        active.leaseId).mp ⟨job, active, live, Or.inr running, rfl, rfl, rfl⟩
    rw [connected] at present
    cases present
    exact entry
  have leaseHeld : LeaseHeld jobId job active.deviceId agent agent.sessionId
      active.leaseId active := ⟨running, rfl, session.symm, rfl, held⟩
  rw [validateReport_of_held leaseHeld]
  have identity := identityMatches_of_built issued built welcomed.symm
  rw [and_iff_right identity]
  cases measured with
  | error error =>
    rw [contentMatches_of_failure issued admitted built]
    exact (and_iff_left nofun).symm
  | ok measurement =>
    rw [contentMatches_iff_of_measurement issued admitted built]
    apply and_congr_right
    intro _
    constructor
    · rintro fits _ ⟨⟩
      exact fits
    · intro fits
      exact fits measurement rfl

namespace Sample

def agentConfig : AgentConfig := ⟨device, target⟩

/-- The job while the device measures it. -/
def active : ActiveLease := ⟨device, session, session, lease, 15 * 10 ^ 9 + 3⟩

def liveJob : Job :=
  { submission
    descriptors := submission.subjects.map (artifactDescriptor codec)
    measurementKey := ⟨keyBytes, keyBytes_length⟩
    requestNonce := nonce
    reply := some 0
    state := .running active
    recovery := none }

def measureLease : MeasureLease :=
  { sessionId := session.toVec, jobId := job.toVec
    measurementKey := keyBytes, requestNonce := nonce.toVec
    leaseId := lease.toVec, leaseDurationMs := 15000, kind := 1
    engine := some (engineIdentityToWire engine)
    measureConfigHash := List.replicate 32 9
    measureConfigEncoding := 1, measureConfigPayload := []
    targetDeviceProfileHash := targetBytes
    subjects := [⟨0, List.replicate 32 7, some ⟨artifactBytes, 3, 4, 0⟩⟩] }

def measurement (reward : Option F64) : AgentMeasurement :=
  { subjects := [⟨0, List.replicate 32 7, none, none, reward, []⟩]
    samples := [⟨0, 0, 0, 1500000, 1600000⟩]
    telemetry := [] }

/-- The report of a measurement that took 20 ms to fetch its artifact. -/
def builtReport (reward : Option F64) : MeasureReport :=
  { report targetBytes 0 with
    outcome := 1
    subjects := [⟨0, List.replicate 32 7, none, none, reward, []⟩]
    samples := [⟨0, 0, 0, 1500000, 1600000⟩]
    telemetry := [⟨20, 1, none⟩]
    failure := none }

theorem connected_after_accepted : ∃ agent, (after accepted).state.agents.get? device = some agent ∧
      agent.sessionId = session ∧
      agent.profileHash = deviceProfileHash codec target := by
  have registered : ((after accepted).state.agents.get? device).map
      (fun agent => (agent.sessionId, agent.profileHash)) =
        some (session, deviceProfileHash codec target) := by
    decide +kernel
  rw [Option.map_eq_some_iff] at registered
  obtain ⟨agent, connected, same⟩ := registered
  rw [Prod.mk.injEq] at same
  exact ⟨agent, connected, same⟩

end Sample

/-- A rewarded measurement becomes a report that is accepted. -/
theorem accepted_builtReport :
    ∃ agent, (Sample.after Sample.accepted).state.agents.get? Sample.device = some agent ∧
      validateReport Sample.config Sample.job Sample.liveJob Sample.device
        agent agent.sessionId Sample.lease
          (Sample.builtReport (some ⟨0x3fe0000000000000⟩)) = .ok () := by
  obtain ⟨agent, connected, session, profile⟩ := Sample.connected_after_accepted
  refine ⟨agent, connected, ?_⟩
  have fits : AnswerFits Sample.config Sample.liveJob.submission
      (.ok (Sample.measurement (some ⟨0x3fe0000000000000⟩))) := by
    refine ⟨by decide, ?_⟩
    rintro _ ⟨⟩
    exact ⟨by decide, by decide, by decide, by decide,
      validateSamples_iff.mp (by decide +kernel)⟩
  exact (@validateReport_iff_answerFits Sample.codec Sample.config
    (Sample.after Sample.accepted) Sample.job Sample.liveJob Sample.active
    agent Sample.measureLease Sample.agentConfig 20 _ _
    (Sample.reachable_after (by decide +kernel)) (by decide +kernel) rfl
    connected session (by unfold Issued; decide +kernel) profile
    (by decide +kernel)).mpr fits

/-- A measurement without a reward becomes a report, and the report is
refused. -/
theorem refused_builtReport : (coordinatorSystem Sample.codec Sample.config).Reachable
        (Sample.after Sample.accepted) ∧
      (Sample.after Sample.accepted).state.jobs.get? Sample.job = some Sample.liveJob ∧
      Issued Sample.config Sample.liveJob Sample.job Sample.active Sample.measureLease ∧
      processedReport Sample.codec Sample.agentConfig Sample.session
        Sample.measureLease 20 (.ok (Sample.measurement none)) = .ok (Sample.builtReport none) ∧
      ∃ live agent,
        (Sample.after Sample.accepted).state.jobs.get? Sample.job = some live ∧
        (Sample.after Sample.accepted).state.agents.get? Sample.device = some agent ∧
        validateReport Sample.config Sample.job live Sample.device agent
          Sample.session Sample.lease (Sample.builtReport none) =
            invalidArgument "successful report is malformed" :=
  ⟨Sample.reachable_after (by decide +kernel), by decide +kernel,
    by unfold Issued; decide +kernel, by decide +kernel,
    Sample.exists_of_reviewed (by decide +kernel)⟩

end GraphZero.Measure
