import GraphZero.Foundation.Result
import GraphZero.Measure.CoordinatorState
import Mathlib.Data.String.Basic

/-!
# The agent's side of a lease

What an agent checks of a lease before it runs it, and the report it makes of
what its backend returned.
-/

namespace GraphZero.Measure

open Foundation Wire

def maxBoundedStringBytes : Nat := 512

/-- The part of the configuration that a report and the checks of a lease
read. -/
structure AgentConfig where
  deviceId : DeviceId
  profile : DeviceProfile

structure AgentMeasurement where
  subjects : List SubjectMeasurement
  samples : List MeasurementSample
  telemetry : List TelemetrySample

structure AgentBackendError where
  outcome : MeasureAttemptOutcome
  code : Nat
  message : String
  retriable : Bool

/-- The longest prefix of whole characters within a number of bytes. -/
def boundedUtf8 (message : String) (maxBytes : Nat) : String :=
  String.ofList (boundedPrefix maxBytes message.toList)

theorem utf8Len_boundedPrefix (budget : Nat) (letters : List Char) :
    String.utf8Len (boundedPrefix budget letters) ≤ budget := by
  induction letters generalizing budget with
  | nil => exact Nat.zero_le budget
  | cons next rest ih =>
    unfold boundedPrefix
    split
    · next fits =>
      have remaining := ih (budget - next.utf8Size)
      rw [String.utf8Len_cons]
      omega
    · exact Nat.zero_le budget

theorem utf8ByteSize_boundedUtf8 (message : String) (maxBytes : Nat) :
    (boundedUtf8 message maxBytes).utf8ByteSize ≤ maxBytes := by
  unfold boundedUtf8
  rw [String.utf8ByteSize_ofList]
  exact utf8Len_boundedPrefix maxBytes message.toList

/-- The number of subjects a wire kind asks for. -/
def expectedSubjects (kind : Int) : ServiceResult Nat :=
  if kind = 1 then .ok 1
  else if kind = 2 then .ok 2
  else if kind = 0 then
    .error (.protocol "lease measurement kind is unspecified")
  else
    .error (.protocol "lease measurement kind is unknown")

def validateLeaseSubjects (welcome : AgentWelcome) (capability : EngineCapability) :
    List GraphSubject → (logicalIndex : Nat) → ServiceResult Unit
  | [], _ => .ok ()
  | subject :: rest, logicalIndex =>
    if subject.logicalIndex ≠ logicalIndex % 2 ^ 32 ∨ subject.graphHash.length ≠ 32 then
      .error (.protocol "lease subject is malformed")
    else
      match subject.artifact with
      | none => .error (.protocol "lease artifact reference is missing")
      | some artifact =>
        match (Id.fromSlice artifact.artifactDigest : ServiceResult ArtifactDigest) with
        | .error failure => .error failure
        | .ok _ =>
          if welcome.maxArtifactBytes < artifact.artifactSize then
            .error (.capacity "lease artifact is too large")
          else if capability.artifactFormats.any fun supported =>
              supported.formatKind == artifact.formatKind &&
              supported.adapterFormatId == artifact.adapterFormatId
          then
            validateLeaseSubjects welcome capability rest (logicalIndex + 1)
          else
            .error (.protocol "lease artifact format is unsupported")

def validateLease (codec : Codec) (config : AgentConfig)
    (welcome : AgentWelcome) (capability : EngineCapability)
    (sessionId : SessionId) (lease : MeasureLease) : ServiceResult Unit := do
  let leaseSession : SessionId ← Id.fromSlice lease.sessionId
  if leaseSession ≠ sessionId then
    throw (.protocol "lease session id mismatch")
  let _ : JobId ← Id.fromSlice lease.jobId
  let _ : MeasurementKey ← Id.fromSlice lease.measurementKey
  let _ : RequestNonce ← Id.fromSlice lease.requestNonce
  let _ : LeaseId ← Id.fromSlice lease.leaseId
  let target : DeviceProfileHash ← Id.fromSlice lease.targetDeviceProfileHash
  if target ≠ deviceProfileHash codec config.profile then
    throw (.protocol "lease device profile mismatch")
  let expected ← expectedSubjects lease.kind
  if lease.subjects.length ≠ expected then
    throw (.protocol "lease measurement kind has the wrong subject count")
  if welcome.maxMeasureConfigBytes < lease.measureConfigPayload.length then
    throw (.capacity "lease measure config is too large")
  if lease.engine ≠ capability.engine ∨ capability.measureConfigEncodings.contains
        lease.measureConfigEncoding = false ∨
      capability.measurementProtocolVersions.contains measurementProtocolVersion = false then
    throw (.protocol "lease engine capability mismatch")
  validateLeaseSubjects welcome capability lease.subjects 0

/-- `process_lease` counts the telemetry from the start of the attempt, and
puts the end of the fetch before it. -/
def annotateTelemetry (fetchElapsedMs : Nat) (measurement : AgentMeasurement) : AgentMeasurement :=
  { measurement with
    telemetry :=
      ⟨fetchElapsedMs, 1, none⟩ :: measurement.telemetry.map fun sample =>
          { sample with
            attemptElapsedMs :=
              min (sample.attemptElapsedMs + fetchElapsedMs) (2 ^ 64 - 1) } }

/-- A lease's subjects against what the backend returned for them. -/
def validateBackendSubjects : List (GraphSubject × SubjectMeasurement) → ServiceResult Unit
  | [] => .ok ()
  | (expected, actual) :: rest =>
    if expected.logicalIndex ≠ actual.logicalIndex ∨ expected.graphHash ≠ actual.graphHash then
      .error (.protocol "backend returned a different subject identity")
    else if actual.scalarReward.any fun reward => !reward.isFinite then
      .error (.protocol "backend returned a non-finite reward")
    else
      validateBackendSubjects rest

def validateBackendMeasurement (lease : MeasureLease)
    (measurement : AgentMeasurement) : ServiceResult Unit :=
  if measurement.subjects.length ≠ lease.subjects.length then
    .error (.protocol "backend returned the wrong subject count")
  else
    validateBackendSubjects (lease.subjects.zip measurement.subjects)

/-- What a report says of a failed attempt: no reward for any subject. -/
def failedMeasurement (lease : MeasureLease) : AgentMeasurement :=
  { subjects := lease.subjects.map fun subject =>
      ⟨subject.logicalIndex, subject.graphHash, none, none, none, []⟩
    samples := []
    telemetry := [] }

/-- The outcome, the measurement and the failure that `build_report` reads off
the backend's answer. -/
def attemptOf (lease : MeasureLease) : Except AgentBackendError AgentMeasurement → ServiceResult
      (MeasureAttemptOutcome × AgentMeasurement × Option FailureDetail)
  | .ok measurement => .ok (.succeeded, measurement, none)
  | .error error =>
    if error.outcome = .succeeded ∨ error.outcome = .unspecified then
      .error (.protocol "backend failure used a non-failure outcome")
    else
      .ok (error.outcome, failedMeasurement lease,
        some ⟨error.code, boundedUtf8 error.message maxBoundedStringBytes, error.retriable⟩)

def buildReport (config : AgentConfig) (sessionId : SessionId)
    (profileHash : DeviceProfileHash) (lease : MeasureLease)
    (measured : Except AgentBackendError AgentMeasurement) :
    ServiceResult MeasureReport := do
  let (outcome, measurement, failure) ← attemptOf lease measured
  validateBackendMeasurement lease measurement
  pure
    { originSessionId := sessionId.toVec
      deviceId := config.deviceId.toVec
      deviceProfileHash := profileHash.toVec
      jobId := lease.jobId
      measurementKey := lease.measurementKey
      requestNonce := lease.requestNonce
      leaseId := lease.leaseId
      engine := lease.engine
      measureConfigHash := lease.measureConfigHash
      kind := lease.kind
      outcome := outcome.code
      subjects := measurement.subjects
      samples := measurement.samples
      telemetry := measurement.telemetry
      failure }

/-- The report `process_lease` makes of the backend's answer. -/
def processedReport (codec : Codec) (config : AgentConfig)
    (sessionId : SessionId) (lease : MeasureLease) (fetchElapsedMs : Nat)
    (measured : Except AgentBackendError AgentMeasurement) :
    ServiceResult MeasureReport :=
  buildReport config sessionId (deviceProfileHash codec config.profile) lease
    (measured.map (annotateTelemetry fetchElapsedMs))

theorem validateBackendSubjects_iff {pairs} :
    validateBackendSubjects pairs = .ok () ↔ ∀ expected actual, (expected, actual) ∈ pairs →
        expected.logicalIndex = actual.logicalIndex ∧
        expected.graphHash = actual.graphHash ∧
        ∀ reward, actual.scalarReward = some reward → reward.isFinite = true := by
  induction pairs with
  | nil => simp [validateBackendSubjects]
  | cons pair rest ih =>
    obtain ⟨expected, actual⟩ := pair
    unfold validateBackendSubjects
    constructor
    · intro valid laterExpected laterActual member
      split at valid
      · cases valid
      next identity =>
      split at valid
      · cases valid
      next finite =>
      simp only [not_or, not_not] at identity
      rcases List.mem_cons.mp member with same | later
      · cases same
        refine ⟨identity.1, identity.2, ?_⟩
        intro reward present
        rw [present] at finite
        simpa using finite
      · exact ih.mp valid _ _ later
    · intro each
      obtain ⟨position, graphHash, finite⟩ := each expected actual List.mem_cons_self
      rw [if_neg (by simp [position, graphHash]), if_neg]
      · apply ih.mpr
        intro laterExpected laterActual later
        exact each _ _ (List.mem_cons_of_mem _ later)
      · cases present : actual.scalarReward with
        | none => simp
        | some reward => simp [finite reward present]

end GraphZero.Measure
