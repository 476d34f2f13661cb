import GraphZero.Measure.Ids

/-!
# Wire messages

The messages of the `MeasureFleet` service as the generated code presents
them: identifiers are still raw bytes, an enumeration field is an integer that
need not name a variant, and a message field is optional.  Unsigned integers
are natural numbers, and of a fixed width where a result depends on it; where
the code narrows one, the narrowing is written out.
Fields that no modelled function reads are left out.
-/

namespace GraphZero.Measure.Wire

open GraphZero.Measure

structure F64 where
  bits : UInt64
  deriving DecidableEq

/-- A double is finite when its exponent bits are not all set. -/
def F64.isFinite (value : F64) : Bool :=
  (value.bits >>> 52) &&& 0x7ff != 0x7ff

structure EngineIdentity where
  engineId : Bytes
  engineVersion : Bytes
  actionSetHash : Bytes
  deriving DecidableEq

structure ArtifactFormatCapability where
  formatKind : Int
  adapterFormatId : Nat

structure EngineCapability where
  engine : Option EngineIdentity
  artifactFormats : List ArtifactFormatCapability
  measureConfigEncodings : List Nat
  measurementProtocolVersions : List Nat

structure DeviceProfile where
  platformFamily : String
  boardModel : String
  soc : String
  gpuArchitecture : String
  usableMemoryBytes : Nat
  operatingSystemImageDigest : Bytes
  platformRelease : String
  cudaVersion : String
  gpuDriverVersion : String
  compilerVersion : String
  compilerRuntimeVersion : String
  agentImageDigest : Bytes
  powerProfile : String
  clockPolicy : String
  coolingPolicy : String
  measurementProtocolVersion : Nat

/-- `GraphArtifactFormatKind`, whose wire code is its position. -/
inductive GraphArtifactFormatKind where
  | unspecified
  | text
  | json
  | dot
  | binary
  | adapterSpecific
  deriving DecidableEq

def GraphArtifactFormatKind.code : GraphArtifactFormatKind → Nat
  | unspecified => 0
  | text => 1
  | json => 2
  | dot => 3
  | binary => 4
  | adapterSpecific => 5

def GraphArtifactFormatKind.ofCode (code : Int) : Option GraphArtifactFormatKind :=
  [unspecified, text, json, dot, binary, adapterSpecific].find? fun kind =>
    code == kind.code

inductive MeasureKind where
  | unspecified
  | single
  | symmetricPair

def MeasureKind.code : MeasureKind → Nat
  | unspecified => 0
  | single => 1
  | symmetricPair => 2

inductive JobPhase where
  | unspecified
  | fetchArtifact
  | verifyArtifact
  | compile
  | capture
  | warmup
  | measure
  | validate
  | persistReport
  | submitReport

def JobPhase.ofCode : Int → Option JobPhase
  | 0 => some unspecified
  | 1 => some fetchArtifact
  | 2 => some verifyArtifact
  | 3 => some compile
  | 4 => some capture
  | 5 => some warmup
  | 6 => some measure
  | 7 => some validate
  | 8 => some persistReport
  | 9 => some submitReport
  | _ => none

inductive MeasureAttemptOutcome where
  | unspecified
  | succeeded
  | environmentInvalid
  | unstable
  | compileFailed
  | captureFailed
  | executionFailed
  | timeout
  | outOfMemory
  | cancelled
  | unsupported
  | agentInternal
  deriving DecidableEq

def MeasureAttemptOutcome.ofCode : Int → Option MeasureAttemptOutcome
  | 0 => some unspecified
  | 1 => some succeeded
  | 2 => some environmentInvalid
  | 3 => some unstable
  | 4 => some compileFailed
  | 5 => some captureFailed
  | 6 => some executionFailed
  | 7 => some timeout
  | 8 => some outOfMemory
  | 9 => some cancelled
  | 10 => some unsupported
  | 11 => some agentInternal
  | _ => none

def MeasureAttemptOutcome.code : MeasureAttemptOutcome → Int
  | unspecified => 0
  | succeeded => 1
  | environmentInvalid => 2
  | unstable => 3
  | compileFailed => 4
  | captureFailed => 5
  | executionFailed => 6
  | timeout => 7
  | outOfMemory => 8
  | cancelled => 9
  | unsupported => 10
  | agentInternal => 11

@[simp]
theorem MeasureAttemptOutcome.ofCode_code (outcome : MeasureAttemptOutcome) :
    ofCode outcome.code = some outcome := by
  cases outcome <;> rfl

structure LeaseRecovery where
  jobId : Bytes
  leaseId : Bytes
  phase : Int
  reportPersisted : Bool

inductive RecoveryAction where
  | unspecified
  | continue
  | submitReport
  | cancel
  | alreadyCommitted
  deriving DecidableEq

structure RecoveryDisposition where
  jobId : Bytes
  leaseId : Bytes
  action : RecoveryAction
  deriving DecidableEq

structure AgentHello where
  protocolMajor : Nat
  protocolMinor : Nat
  deviceId : Bytes
  agentBuild : String
  profile : Option DeviceProfile
  capabilities : List EngineCapability
  recoveries : List LeaseRecovery
  jobSlots : UInt32

structure AgentReady where
  sessionId : Bytes
  freeSlots : Nat

/-- `JobAccepted`, `JobRejected` and `JobHeartbeat` name a lease by these
three fields; the coordinator reads nothing else of them. -/
structure LeaseReference where
  sessionId : Bytes
  jobId : Bytes
  leaseId : Bytes

inductive AgentEvent where
  | hello (hello : AgentHello)
  | ready (ready : AgentReady)
  | accepted (lease : LeaseReference)
  | rejected (lease : LeaseReference)
  | heartbeat (lease : LeaseReference)
  | draining (sessionId : Bytes)

structure AgentWelcome where
  sessionId : Bytes
  negotiatedMinor : Nat
  deviceProfileHash : Bytes
  heartbeatIntervalMs : Nat
  acceptTimeoutMs : Nat
  defaultLeaseDurationMs : Nat
  maxArtifactBytes : Nat
  artifactChunkBytes : Nat
  maxMeasureConfigBytes : Nat
  maxEngineMetadataBytes : Nat
  maxSamplesPerSubject : Nat
  maxTelemetrySamples : Nat
  maxBoundedStringBytes : Nat
  recoveries : List RecoveryDisposition
  deriving DecidableEq

structure GraphArtifactRef where
  artifactDigest : Bytes
  artifactSize : Nat
  formatKind : Int
  adapterFormatId : Nat
  deriving DecidableEq

structure FetchArtifactRequest where
  sessionId : Bytes
  jobId : Bytes
  leaseId : Bytes
  artifactDigest : Bytes
  offset : Nat

structure ArtifactChunk where
  artifactDigest : Bytes
  totalSize : Nat
  offset : Nat
  data : Bytes

structure GraphSubject where
  logicalIndex : Nat
  graphHash : Bytes
  artifact : Option GraphArtifactRef
  deriving DecidableEq

structure MeasureLease where
  sessionId : Bytes
  jobId : Bytes
  measurementKey : Bytes
  requestNonce : Bytes
  leaseId : Bytes
  leaseDurationMs : Nat
  kind : Int
  engine : Option EngineIdentity
  measureConfigHash : Bytes
  measureConfigEncoding : Nat
  measureConfigPayload : Bytes
  targetDeviceProfileHash : Bytes
  subjects : List GraphSubject
  deriving DecidableEq

inductive CancelReason where
  | unspecified
  | callerDeadline
  | runAborted
  | deviceUnhealthy
  | administrative
  | superseded
  deriving DecidableEq

structure CancelLease where
  jobId : Bytes
  leaseId : Bytes
  reason : CancelReason
  deriving DecidableEq

inductive CoordinatorCommand where
  | welcome (welcome : AgentWelcome)
  | lease (lease : MeasureLease)
  | cancel (cancel : CancelLease)
  | drain (cancelActive : Bool)
  deriving DecidableEq

structure ThermalReading where
  zone : String
  millidegreesCelsius : Int
  deriving DecidableEq

structure PowerRailReading where
  rail : String
  milliwatts : Nat
  deriving DecidableEq

structure DeviceTelemetry where
  monotonicUptimeMs : Nat
  gpuClockHz : Option Nat
  memoryControllerClockHz : Option Nat
  freeDeviceMemoryBytes : Option Nat
  freeHostMemoryBytes : Option Nat
  throttleFlags : Option Nat
  activePowerMode : String
  temperatures : List ThermalReading
  powerRails : List PowerRailReading
  deriving DecidableEq

structure TelemetrySample where
  attemptElapsedMs : Nat
  phase : Int
  telemetry : Option DeviceTelemetry
  deriving DecidableEq

structure SubjectMeasurement where
  logicalIndex : Nat
  graphHash : Bytes
  compileElapsedNs : Option Nat
  captureElapsedNs : Option Nat
  scalarReward : Option F64
  engineMetadata : Bytes
  deriving DecidableEq

structure MeasurementSample where
  scheduleIndex : Nat
  logicalIndex : Nat
  subjectSampleIndex : Nat
  gpuElapsedNs : UInt64
  endToEndElapsedNs : UInt64
  deriving DecidableEq

structure FailureDetail where
  engineErrorCode : Nat
  boundedMessage : String
  agentConsidersRetriable : Bool
  deriving DecidableEq

structure MeasureReport where
  originSessionId : Bytes
  deviceId : Bytes
  deviceProfileHash : Bytes
  jobId : Bytes
  measurementKey : Bytes
  requestNonce : Bytes
  leaseId : Bytes
  engine : Option EngineIdentity
  measureConfigHash : Bytes
  kind : Int
  outcome : Int
  subjects : List SubjectMeasurement
  samples : List MeasurementSample
  telemetry : List TelemetrySample
  failure : Option FailureDetail
  deriving DecidableEq

structure SubmitResultRequest where
  currentSessionId : Bytes
  report : Option MeasureReport

inductive ResultDisposition where
  | unspecified
  | jobCommitted
  | attemptRecorded
  | alreadyCommitted
  | staleLease
  | unknownJob
  | invalidReport
  deriving DecidableEq

structure SubmitResultAck where
  disposition : ResultDisposition
  agentMayDeleteReport : Bool
  boundedMessage : String

end GraphZero.Measure.Wire
