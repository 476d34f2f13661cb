import GraphZero.Foundation.Result
import GraphZero.Measure.CoordinatorState

/-!
# What the coordinator checks of a report

`validateReport` runs through the report with several loops and early exits.
Here each check is stated over the whole report, and a report passes exactly
when it meets all of them.
-/

namespace GraphZero.Measure

open Foundation Wire List

structure SubjectMatches (config : CoordinatorConfig) (index : Nat)
    (actual : SubjectMeasurement) (expected : GraphArtifact) : Prop where
  position : actual.logicalIndex = index % 2 ^ 32
  graphHash : actual.graphHash = expected.graphHash
  metadata : actual.engineMetadata.length ≤ config.maxEngineMetadataBytes

variable {start : Nat}

theorem validateSubjects_iff {config pairs} :
    validateSubjects config pairs start = .ok () ↔ ∀ index actual expected,
        pairs[index]? = some (actual, expected) →
          SubjectMatches config (start + index) actual expected := by
  induction pairs generalizing start with
  | nil => simp [validateSubjects]
  | cons pair rest ih =>
    obtain ⟨actual, expected⟩ := pair
    unfold validateSubjects
    constructor
    · intro valid index
      split at valid
      · cases valid
      next identity =>
      split at valid
      · cases valid
      next metadata =>
      simp only [not_or, not_not] at identity
      cases index with
      | zero =>
        rintro _ _ ⟨⟩
        exact ⟨identity.1, identity.2, Nat.le_of_not_lt metadata⟩
      | succ index =>
        intro laterActual laterExpected found
        have later := ih.mp valid index laterActual laterExpected found
        rwa [show start + (index + 1) = start + 1 + index by
          omega]
    · intro each
      have first := each 0 actual expected rfl
      rw [if_neg (by
        rw [not_or, not_not, not_not]
        exact ⟨first.position, first.graphHash⟩),
        if_neg (Nat.not_lt.mpr first.metadata)]
      apply ih.mpr
      intro index laterActual laterExpected found
      have later := each (index + 1) laterActual laterExpected found
      rwa [show start + (index + 1) = start + 1 + index by omega] at later

/-! ## Samples -/

/-- How many of the first `index` samples belong to a subject. -/
def priorSamples (samples : List MeasurementSample) (index logicalIndex : Nat) : Nat :=
  (samples.take index).countP (·.logicalIndex == logicalIndex)

theorem priorSamples_cons (first : MeasurementSample)
    (rest : List MeasurementSample) (index logicalIndex : Nat) :
    priorSamples (first :: rest) (index + 1) logicalIndex = priorSamples rest index logicalIndex +
        if first.logicalIndex = logicalIndex then 1 else 0 := by
  unfold priorSamples
  rw [take_succ_cons, countP_cons]
  simp

/-- What is asked of the sample at `index`: its place in the schedule, and its
place among the samples of its subject. -/
structure SamplePlaced (subjectCount : Nat) (samples : List MeasurementSample)
    (index : Nat) (sample : MeasurementSample) : Prop where
  schedule : sample.scheduleIndex = index % 2 ^ 32
  subject : sample.logicalIndex < subjectCount
  numbered : sample.subjectSampleIndex = priorSamples samples index sample.logicalIndex
  fits : priorSamples samples index sample.logicalIndex + 1 < 2 ^ 32

def Contiguous (subjectCount : Nat) (samples : List MeasurementSample) : Prop :=
  ∀ index sample, samples[index]? = some sample → SamplePlaced subjectCount samples index sample

variable {counts : List Nat}

theorem validateSamples_cons_iff {first rest}  :
    validateSamples (first :: rest) start counts = .ok () ↔ first.scheduleIndex = start % 2 ^ 32 ∧
      ∃ count, counts[first.logicalIndex]? = some count ∧
        first.subjectSampleIndex = count ∧ count + 1 < 2 ^ 32 ∧
        validateSamples rest (start + 1) (counts.set first.logicalIndex (count + 1)) = .ok () := by
  constructor
  · intro valid
    unfold validateSamples at valid
    split at valid
    · cases valid
    next schedule =>
    split at valid
    · cases valid
    next count counted =>
    split at valid
    · cases valid
    next numbered =>
    split at valid
    · cases valid
    · next fits =>
      exact ⟨not_not.mp schedule, count, counted, not_not.mp numbered, Nat.lt_of_not_le fits, valid⟩
  · intro ⟨schedule, count, counted, numbered, fits, valid⟩
    unfold validateSamples
    rw [if_neg (not_not.mpr schedule), counted]
    dsimp only
    rw [if_neg (not_not.mpr numbered), if_neg (Nat.not_le.mpr fits)]
    exact valid

/-- The sample stands at its place, counted from any round on. -/
def PlacedFrom (start : Nat) (counts : List Nat) (samples : List MeasurementSample) (index : Nat)
    (sample : MeasurementSample) : Prop :=
  sample.scheduleIndex = (start + index) % 2 ^ 32 ∧
  ∃ count, counts[sample.logicalIndex]? = some count ∧ sample.subjectSampleIndex =
      count + priorSamples samples index sample.logicalIndex ∧
    count + priorSamples samples index sample.logicalIndex + 1 < 2 ^ 32

theorem placedFrom_cons_iff {first rest count index sample}
    (counted : counts[first.logicalIndex]? = some count) :
    PlacedFrom start counts (first :: rest) (index + 1) sample ↔
      PlacedFrom (start + 1) (counts.set first.logicalIndex (count + 1)) rest index sample := by
  have shifted : start + (index + 1) = start + 1 + index := by omega
  have present : first.logicalIndex < counts.length := (List.getElem?_eq_some_iff.mp counted).1
  unfold PlacedFrom
  rw [shifted, priorSamples_cons, getElem?_set]
  by_cases same : first.logicalIndex = sample.logicalIndex
  · rw [if_pos same, if_pos same, if_pos present, ← same, counted]
    simp only [Option.some.injEq, exists_eq_left']
    generalize priorSamples rest index first.logicalIndex = prior
    rw [show count + (prior + 1) = count + 1 + prior by omega]
  · rw [if_neg same, if_neg same]
    exact Iff.rfl

theorem validateSamples_from_iff {samples} :
    validateSamples samples start counts = .ok () ↔ ∀ index sample, samples[index]? = some sample →
        PlacedFrom start counts samples index sample := by
  induction samples generalizing start counts with
  | nil => simp [validateSamples]
  | cons first rest ih =>
    rw [validateSamples_cons_iff]
    constructor
    · intro ⟨schedule, count, counted, numbered, fits, valid⟩ index sample found
      cases index with
      | zero =>
        cases found
        exact ⟨schedule, count, counted, numbered, fits⟩
      | succ index =>
        rw [placedFrom_cons_iff counted]
        exact ih.mp valid index sample found
    · intro each
      obtain ⟨schedule, count, counted, numbered, fits⟩ := each 0 first rfl
      refine ⟨schedule, count, counted, numbered, fits, ?_⟩
      apply ih.mpr
      intro index sample found
      rw [← placedFrom_cons_iff counted]
      exact each (index + 1) sample found

theorem validateSamples_iff {samples subjectCount} :
    validateSamples samples 0 (List.replicate subjectCount 0) = .ok () ↔
      Contiguous subjectCount samples := by
  rw [validateSamples_from_iff]
  apply forall_congr'
  intro index
  apply forall_congr'
  intro sample
  apply imp_congr_right
  intro found
  unfold PlacedFrom
  rw [Nat.zero_add]
  constructor
  · intro ⟨schedule, count, counted, numbered, fits⟩
    rw [getElem?_replicate] at counted
    split at counted
    · next known =>
      cases counted
      rw [Nat.zero_add] at numbered fits
      exact ⟨schedule, known, numbered, fits⟩
    · cases counted
  · intro placed
    refine ⟨placed.schedule, 0, ?_, ?_, ?_⟩
    · rw [getElem?_replicate, if_pos placed.subject]
    · rw [Nat.zero_add]
      exact placed.numbered
    · rw [Nat.zero_add]
      exact placed.fits

/-- A report claims success for every subject, or a failure for none. -/
inductive OutcomeChecked (report : MeasureReport) : Prop
  | succeeded
    (named : MeasureAttemptOutcome.ofCode report.outcome = some .succeeded)
    (clean : report.failure = none)
    (rewarded : ∀ subject ∈ report.subjects, ∃ reward,
      subject.scalarReward = some reward ∧ reward.isFinite = true)
  | failed (outcome : MeasureAttemptOutcome) (detail : FailureDetail)
    (named : MeasureAttemptOutcome.ofCode report.outcome = some outcome)
    (failure : outcome ≠ .unspecified ∧ outcome ≠ .succeeded)
    (detailed : report.failure = some detail)
    (unrewarded : ∀ subject ∈ report.subjects, subject.scalarReward = none)
    (short : detail.boundedMessage.utf8ByteSize ≤ 512)

theorem validateOutcome_iff {report} : validateOutcome report = .ok () ↔ OutcomeChecked report := by
  constructor
  · intro valid
    unfold validateOutcome at valid
    split at valid
    · cases valid
    · cases valid
    · next named =>
      split at valid
      · cases valid
      next wellFormed =>
      rw [not_or] at wellFormed
      obtain ⟨clean, rewarded⟩ := wellFormed
      refine .succeeded named (by simpa using clean) ?_
      intro subject member
      simp only [any_eq_true, not_exists, not_and] at rewarded
      have checked := rewarded subject member
      split at checked
      · exact absurd rfl checked
      · next reward present =>
        exact ⟨reward, present, by simpa using checked⟩
    next outcome notUnspecified notSucceeded named =>
    split at valid
    · cases valid
    next detail detailed =>
    split at valid
    · cases valid
    next unrewarded =>
    split at valid
    · cases valid
    next short =>
    refine .failed outcome detail named ⟨notUnspecified, notSucceeded⟩ detailed ?_
      (Nat.le_of_not_lt short)
    · intro subject member
      simp only [any_eq_true, not_exists, not_and, Bool.not_eq_true] at unrewarded
      simpa using unrewarded subject member
  · intro checked
    unfold validateOutcome
    cases checked with
    | succeeded named clean rewarded =>
      rw [named]
      rw [if_neg]
      rw [not_or]
      refine ⟨by simp [clean], ?_⟩
      simp only [any_eq_true, not_exists, not_and]
      intro subject member
      obtain ⟨reward, present, finite⟩ := rewarded subject member
      simp [present, finite]
    | failed outcome detail named failure detailed unrewarded short =>
      rw [named]
      cases outcome <;>
        first
        | exact absurd rfl failure.1
        | exact absurd rfl failure.2
        | (simp only [detailed]
           rw [if_neg, if_neg (Nat.not_lt.mpr short)]
           simp only [any_eq_true, not_exists, not_and]
           intro subject member
           simp [unrewarded subject member])

structure IdentityMatches (job : Job) (agent : AgentSession)
    (active : ActiveLease) (report : MeasureReport) : Prop where
  origin : report.originSessionId = active.originSessionId.toVec
  profile : report.deviceProfileHash = agent.profileHash.toVec
  key : report.measurementKey = job.measurementKey.toVec
  nonce : report.requestNonce = job.requestNonce.toVec
  configHash : report.measureConfigHash = job.submission.options.configHash
  kind : report.kind = job.submission.kind.wire.code
  engine : report.engine = some (engineIdentityToWire job.submission.engine)

/-- The content of the report against the submission and the limits. -/
structure ContentMatches (config : CoordinatorConfig)
    (submission : MeasureSubmission) (report : MeasureReport) : Prop where
  subjectCount : report.subjects.length = submission.subjects.length
  subjects : ∀ index actual expected,
    (report.subjects.zip submission.subjects)[index]? = some (actual, expected) →
      SubjectMatches config index actual expected
  limit : config.maxSamplesPerSubject * report.subjects.length < usizeLimit
  sampleCount : report.samples.length ≤ config.maxSamplesPerSubject * report.subjects.length
  telemetryCount : report.telemetry.length ≤ config.maxTelemetrySamples
  samples : Contiguous report.subjects.length report.samples
  outcome : OutcomeChecked report

/-- The lease a report is submitted under. -/
structure LeaseHeld (jobId : JobId) (job : Job) (deviceId : DeviceId)
    (agent : AgentSession) (currentSession : SessionId) (leaseId : LeaseId)
    (active : ActiveLease) : Prop where
  running : job.state = .running active
  device : active.deviceId = deviceId
  session : active.currentSessionId = currentSession
  lease : active.leaseId = leaseId
  held : agent.active.get? jobId = some leaseId

section Report

variable {config : CoordinatorConfig} {jobId : JobId} {job : Job}
  {deviceId : DeviceId} {agent : AgentSession} {currentSession : SessionId}
  {leaseId : LeaseId} {active : ActiveLease} {report : MeasureReport}

theorem validateReport_of_held (held : LeaseHeld jobId job deviceId agent currentSession leaseId
      active) :
    validateReport config jobId job deviceId agent currentSession leaseId report = .ok () ↔
      IdentityMatches job agent active report ∧ ContentMatches config job.submission report := by
  unfold validateReport
  rw [held.running]
  dsimp only
  rw [if_neg (by
    rw [held.device, held.session, held.lease, held.held]
    simp)]
  unfold invalidArgument resourceExhausted
  rw [guard_eq_ok_iff, guard_eq_ok_iff, bind_eq_ok_iff, guard_eq_ok_iff,
    guard_eq_ok_iff, bind_eq_ok_iff, validateSubjects_iff,
    validateSamples_iff, validateOutcome_iff]
  simp only [not_or, not_not, Nat.not_lt, Nat.not_le, Nat.zero_add]
  constructor
  · rintro ⟨⟨origin, profile, key, nonce, configHash, kind, engine⟩,
      subjectCount, subjects, limit, ⟨sampleCount, telemetryCount⟩, samples,
      outcome⟩
    exact ⟨⟨origin, profile, key, nonce, configHash, kind, engine⟩,
      subjectCount, subjects, limit, sampleCount, telemetryCount, samples,
      outcome⟩
  · rintro ⟨identity, content⟩
    exact ⟨⟨identity.origin, identity.profile, identity.key, identity.nonce,
      identity.configHash, identity.kind, identity.engine⟩,
      content.subjectCount, content.subjects, content.limit,
      ⟨content.sampleCount, content.telemetryCount⟩, content.samples,
      content.outcome⟩

end Report

end GraphZero.Measure
