import GraphZero.Measure.Admission
import GraphZero.Measure.ReportChecks
import GraphZero.Measure.Results

/-!
# Accepted reports and the results made of them

The coordinator accepts every finite double as a reward; the requester reads
it in single precision.  All else that the conversion asks for is checked
before the report is committed, so a report that was accepted for a job
converts exactly when its rewards fit.
-/

namespace GraphZero.Measure

open Foundation Wire List

section Latencies

variable {value : Binary32} {bound exponent : Nat} {samples : List Binary32}

theorem validateLatencyValue_eq_ok (limited : value.AtMost bound)
    (field : String) : validateLatencyValue field value = .ok () := by
  unfold validateLatencyValue
  rw [if_neg (by simp [limited.isFinite]),
    if_neg (by simp [limited.not_less_zero])]

theorem validateLatencyValues_eq_ok
    (limited : ∀ sample ∈ samples, sample.AtMost bound) (index : Nat) :
    validateLatencyValues samples index = .ok () := by
  induction samples generalizing index with
  | nil => rfl
  | cons first rest ih =>
    unfold validateLatencyValues
    rw [validateLatencyValue_eq_ok (limited first mem_cons_self)]
    apply ih
    intro sample member
    exact limited sample (mem_cons_of_mem _ member)

theorem mem_percentileNearestRank {sorted} (occupied : 0 < sorted.length) (percentile : Binary32) :
    percentileNearestRank sorted occupied percentile ∈ sorted :=
  get_mem _ _

/-- The accumulator stays under `2 ^ 25` times the bound of the samples,
however many there are. -/
theorem sumSamples_atMost (occupied : 0 < samples.length)
    (limited : ∀ sample ∈ samples, sample.AtMost (2 ^ exponent))
    (small : exponent + 25 < overflowExponent) :
    (sumSamples samples).AtMost (2 ^ (exponent + 25)) := by
  have accumulates : ∀ (rest : List Binary32) (total : Binary32),
      (∀ sample ∈ rest, sample.AtMost (2 ^ exponent)) →
      total.AtMost (2 ^ (exponent + 25)) →
      (rest.foldl Binary32.add total).AtMost (2 ^ (exponent + 25)) := by
    intro rest
    induction rest with
    | nil => exact fun _ _ accumulated => accumulated
    | cons next rest ih =>
      intro total each accumulated
      apply ih
      · exact fun sample member =>
          each sample (mem_cons_of_mem _ member)
      · exact accumulated.add (each next mem_cons_self) small
  cases samples with
  | nil => exact absurd occupied (Nat.lt_irrefl 0)
  | cons first rest =>
    have below : exponent < overflowExponent := by omega
    have larger : 2 ^ exponent ≤ 2 ^ (exponent + 25) := Nat.pow_le_pow_right (by decide) (by omega)
    have started := (limited first mem_cons_self).negativeZero_add below
    apply accumulates rest _ _ (started.mono larger)
    exact fun sample member =>
      limited sample (mem_cons_of_mem _ member)

theorem validate_eq_ok {stats : LatencyStats} (mean : ∃ bound, stats.meanMs.AtMost bound)
    (median : stats.medianMs.AtMost bound) (p95 : stats.p95Ms.AtMost bound)
    (each : ∀ sample ∈ stats.samplesMs, sample.AtMost bound) :
    stats.validate = .ok stats := by
  obtain ⟨meanBound, meanLimited⟩ := mean
  unfold LatencyStats.validate
  rw [validateLatencyValue_eq_ok meanLimited,
    validateLatencyValue_eq_ok median, validateLatencyValue_eq_ok p95,
    validateLatencyValues_eq_ok each]
  rfl

theorem fromSamples_eq_ok (limited : ∀ sample ∈ samples, sample.AtMost (2 ^ exponent))
    (small : exponent + 25 < overflowExponent) :
    ∃ stats, LatencyStats.fromSamples samples = .ok stats ∧ stats.validate = .ok stats := by
  unfold LatencyStats.fromSamples
  rw [validateLatencyValues_eq_ok limited]
  by_cases occupied : 0 < samples.length
  · rw [dif_pos occupied]
    have sorted : ∀ sample ∈ sortSamples samples, sample.AtMost (2 ^ exponent) :=
      fun sample member => limited sample (mem_mergeSort.mp member)
    have sum := sumSamples_atMost occupied limited small
    have mean := @Binary32.AtMost.div_ofNat _ _ _ 0 sum small occupied
    have present : 0 < (sortSamples samples).length := by
      rwa [length_sortSamples]
    have ranked : ∀ percentile,
        (percentileNearestRank (sortSamples samples) present percentile).AtMost (2 ^ exponent) :=
      fun percentile => sorted _ (mem_percentileNearestRank _ percentile)
    have valid := @validate_eq_ok (2 ^ exponent) ⟨(sumSamples samples).div (.ofNat samples.length),
        percentileNearestRank _ present (.ofRatio 50 100),
        percentileNearestRank _ present (.ofRatio 95 100), samples⟩
      ⟨_, mean⟩ (ranked _) (ranked _) limited
    exact ⟨_, valid, valid⟩
  · rw [dif_neg occupied]
    have valid := @validate_eq_ok (2 ^ exponent) ⟨.zero, .zero, .zero, samples⟩
      ⟨0, Binary32.atMost_zero _⟩ (Binary32.atMost_zero _)
      (Binary32.atMost_zero _) limited
    exact ⟨_, valid, valid⟩

theorem samplesMs_atMost (report : MeasureReport) (logicalIndex : Nat) :
    ∀ sample ∈ samplesMs report logicalIndex, sample.AtMost (2 ^ 194) := by
  intro sample member
  unfold samplesMs at member
  rw [mem_map] at member
  obtain ⟨measured, _, rfl⟩ := member
  have elapsed : measured.gpuElapsedNs.toNat ≤ 2 ^ 64 := Nat.le_of_lt measured.gpuElapsedNs.toNat_lt
  have nanoseconds := @Binary32.atMost_ofNat 64 _ (by decide) elapsed
  exact @Binary32.AtMost.div_ofNat _ 194 _ 19 nanoseconds (by decide)
    (by decide)

theorem latencyFor_eq_ok (report : MeasureReport) (logicalIndex : Nat) :
    ∃ latency, latencyFor report logicalIndex = .ok latency ∧
      ∀ stats, latency = some stats → stats.validate = .ok stats := by
  unfold latencyFor
  dsimp only
  split
  · exact ⟨none, rfl, nofun⟩
  obtain ⟨stats, computed, valid⟩ :=
    fromSamples_eq_ok (samplesMs_atMost report logicalIndex) (by decide)
  rw [computed]
  refine ⟨some stats, rfl, ?_⟩
  intro same equal
  cases equal
  exact valid

end Latencies

/-! ## Results -/

/-- A finite double below `2 ^ 128 - 2 ^ 103` in magnitude: half a last place
beyond the largest single precision value. -/
def RewardFits (reward : F64) : Prop :=
  Binary32.doubleUnits reward.bits < 2 ^ 925 * ((2 ^ 25 - 1) * 2 ^ 252)

theorem isFinite_ofDouble_iff_rewardFits {reward} (finite : reward.isFinite = true) :
    (Binary32.ofDouble reward.bits).isFinite = true ↔ RewardFits reward := by
  apply Binary32.isFinite_ofDouble_iff
  unfold F64.isFinite at finite
  intro allSet
  have exponent : (reward.bits >>> 52) &&& 0x7ff = 0x7ff := by
    apply UInt64.toNat_inj.mp
    show reward.bits.toNat >>> 52 &&& (2 ^ 11 - 1) = 2047
    rw [Nat.and_two_pow_sub_one_eq_mod, Nat.shiftRight_eq_div_pow]
    exact allSet
  rw [exponent] at finite
  exact absurd finite (by decide)

section Conversion

variable {config : CoordinatorConfig} {submission : MeasureSubmission}
  {report : MeasureReport} {index : Nat} {subject : SubjectMeasurement}
  {outcome : MeasureAttemptOutcome} {Graph : Type} {graph : Graph}
  {options : MeasureOptions}

theorem validateResult_eq_ok {result : MeasureResult Graph}
    (finite : ∀ reward, result.scalarReward = some reward → reward.isFinite = true)
    (checked : ∀ stats, result.latency = some stats → stats.validate = .ok stats) :
    result.validate = .ok result := by
  obtain ⟨graph, graphHash, configHash, measured, valid, latency,
    scalarReward, failure, metadata⟩ := result
  unfold MeasureResult.validate
  cases scalarReward with
  | none =>
    cases latency with
    | none => rfl
    | some stats =>
      dsimp only [bind, Except.bind, pure, Except.pure]
      rw [checked stats rfl]
  | some reward =>
    dsimp only
    rw [if_neg (by simp [finite reward rfl])]
    cases latency with
    | none => rfl
    | some stats =>
      dsimp only [bind, Except.bind, pure, Except.pure]
      rw [checked stats rfl]

theorem measureResultFor_eq_ok {measured valid : Bool} {scalarReward failure}
    (found : report.subjects.find? (·.logicalIndex == index) = some subject)
    (wide : subject.graphHash.length = 32)
    (named : MeasureAttemptOutcome.ofCode report.outcome = some outcome)
    (computed : outcomeFor report subject outcome = .ok (measured, valid, scalarReward, failure))
    (finite : ∀ reward, scalarReward = some reward → reward.isFinite = true) :
    ∃ latency, measureResultFor report index graph options = .ok
        { graph
          graphHash := ⟨subject.graphHash, wide⟩
          configHash := options.configHash
          measured, valid, latency, scalarReward, failure
          metadata := subject.engineMetadata } := by
  obtain ⟨latency, summarized, checked⟩ := latencyFor_eq_ok report index
  refine ⟨latency, ?_⟩
  unfold measureResultFor
  rw [found]
  dsimp only
  rw [dif_pos wide, named]
  rw [summarized]
  dsimp only [bind, Except.bind]
  rw [computed]
  dsimp only
  rw [validateResult_eq_ok finite checked]
  rfl

/-- What the requester is owed for the subject at `index`: its graph hash,
and for a success its reward in single precision. -/
structure SubjectResult (submission : MeasureSubmission)
    (report : MeasureReport) (index : Nat) (graph : Graph)
    (result : MeasureResult Graph) : Prop where
  graph : result.graph = graph
  graphHash : ∃ subject, submission.subjects[index]? = some subject ∧
    result.graphHash.bytes = subject.graphHash
  success : result.valid = true ↔ MeasureAttemptOutcome.ofCode report.outcome = some .succeeded
  reward : result.valid = true → ∃ measured reward,
    report.subjects[index]? = some measured ∧
    measured.scalarReward = some reward ∧
    result.scalarReward = some (Binary32.ofDouble reward.bits) ∧
    (Binary32.ofDouble reward.bits).isFinite = true
  failure : result.valid = false → result.scalarReward = none ∧ result.failure.isSome = true

section

variable (content : ContentMatches config submission report)
  (few : report.subjects.length ≤ 2 ^ 32) (found : report.subjects[index]? = some subject)
include content few found

theorem find?_subject : report.subjects.find? (·.logicalIndex == index) = some subject ∧
      ∃ artifact, submission.subjects[index]? = some artifact ∧
        subject.graphHash = artifact.graphHash := by
  have position : ∀ other (measured : SubjectMeasurement), report.subjects[other]? = some measured →
      measured.logicalIndex = other ∧ ∃ artifact, submission.subjects[other]? = some artifact ∧
          measured.graphHash = artifact.graphHash := by
    intro other measured present
    have bound := (List.getElem?_eq_some_iff.mp present).1
    have paired : other < submission.subjects.length := content.subjectCount ▸ bound
    have listed := getElem?_eq_getElem paired
    have matched := content.subjects other measured _ (getElem?_zip_eq_some.mpr ⟨present, listed⟩)
    refine ⟨?_, _, listed, matched.graphHash⟩
    rw [matched.position]
    exact Nat.mod_eq_of_lt (by omega)
  obtain ⟨bound, same⟩ := List.getElem?_eq_some_iff.mp found
  refine ⟨?_, (position index subject found).2⟩
  rw [find?_eq_some_iff_getElem]
  refine ⟨by simp [(position index subject found).1], index, bound, same, ?_⟩
  intro earlier before
  have different := (position earlier _ (getElem?_eq_getElem (before.trans bound))).1
  simp only [Bool.not_eq_true', beq_eq_false_iff_ne, ne_eq]
  omega

theorem measureResultFor_iff : (∃ result, measureResultFor report index graph options = .ok result ∧
      SubjectResult submission report index graph result) ↔
    ∀ reward, subject.scalarReward = some reward → RewardFits reward := by
  obtain ⟨located, artifact, listed, sameHash⟩ := find?_subject content few found
  have member := mem_of_getElem? found
  have wide : subject.graphHash.length = 32 := by
    rw [sameHash]
    exact artifact.graphHash_length
  cases content.outcome with
  | succeeded named clean rewarded =>
    obtain ⟨reward, present, finite⟩ := rewarded subject member
    have rounding := isFinite_ofDouble_iff_rewardFits finite
    constructor
    · intro ⟨result, converted, owed⟩ other same
      rw [present] at same
      cases same
      obtain ⟨measured, own, listedAgain, presentAgain, _, fits⟩ :=
        owed.reward (owed.success.mpr named)
      rw [found] at listedAgain
      cases listedAgain
      rw [present] at presentAgain
      cases presentAgain
      exact rounding.mp fits
    · intro fits
      have single := rounding.mpr (fits reward present)
      have computed : outcomeFor report subject .succeeded =
          .ok (true, true, some (Binary32.ofDouble reward.bits), none) := by
        unfold outcomeFor
        rw [present]
        dsimp only
        rw [if_neg (by simp [single])]
      obtain ⟨latency, converted⟩ := @measureResultFor_eq_ok report index
        subject _ Graph graph options _ _ _ _ located wide named computed
          (by rintro _ ⟨⟩; exact single)
      refine ⟨_, converted, rfl, ⟨artifact, listed, sameHash⟩, ?_, ?_, ?_⟩
      · exact iff_of_true rfl named
      · exact fun _ => ⟨subject, reward, found, present, rfl, single⟩
      · exact nofun
  | failed outcome detail named failure detailed unrewarded short =>
    refine iff_of_true ?_ ?_
    · have computed : outcomeFor report subject outcome = .ok (true, false, none,
            some ⟨detail.engineErrorCode, failureMessage detail.boundedMessage⟩) := by
        unfold outcomeFor
        split
        · exact absurd rfl failure.2
        · rw [detailed]
      obtain ⟨latency, converted⟩ := @measureResultFor_eq_ok report index
        subject _ Graph graph options _ _ _ _ located wide named computed nofun
      refine ⟨_, converted, rfl, ⟨artifact, listed, sameHash⟩, ?_, ?_, ?_⟩
      · refine iff_of_false Bool.false_ne_true ?_
        intro success
        rw [named] at success
        exact failure.2 (Option.some.inj success)
      · exact nofun
      · exact fun _ => ⟨rfl, rfl⟩
    · intro reward present
      rw [unrewarded subject member] at present
      cases present

end

end Conversion

/-! ## Accepted reports -/

theorem subjectCount_of_validateSubmission {config submission}
    (valid : validateSubmission config submission = .ok ()) :
    submission.subjects.length = submission.kind.subjectCount := by
  exact not_not.mp (ok_of_guard valid).1

/-- The requester of the job gets every subject's result, whatever graphs and
options it converts the report with. -/
def Usable (submission : MeasureSubmission) (jobId : JobId) (report : MeasureReport) : Prop :=
  let committed : CommittedMeasurement := ⟨jobId, report⟩
  match submission.kind with
  | .single => ∀ (Graph : Type) (graph : Graph) (options : MeasureOptions),
      ∃ result, committed.intoMeasureResult graph options = .ok result ∧
        SubjectResult submission report 0 graph result
  | .symmetricPair =>
    ∀ (Graph : Type) (graphs : Graph × Graph) (options : MeasureOptions), ∃ results,
        committed.intoMeasurePairResults graphs options = .ok results ∧
        SubjectResult submission report 0 graphs.1 results.1 ∧
        SubjectResult submission report 1 graphs.2 results.2

/-- Every reward of the report fits single precision. -/
def RewardsFit (report : MeasureReport) : Prop :=
  ∀ subject ∈ report.subjects, ∀ reward,
    subject.scalarReward = some reward → RewardFits reward

section Accepted

variable {codec : Codec} {config : CoordinatorConfig}
  {submission : MeasureSubmission} {report : MeasureReport} {jobId : JobId}

theorem usable_single_iff (content : ContentMatches config submission report)
    (single : submission.kind = .single)
    (kind : report.kind = submission.kind.wire.code)
    (count : submission.subjects.length = 1) :
    Usable submission jobId report ↔ RewardsFit report := by
  have length : report.subjects.length = 1 := content.subjectCount.trans count
  obtain ⟨subject, only⟩ := length_eq_one_iff.mp length
  have found : report.subjects[0]? = some subject := by
    rw [only]
    rfl
  have converts : ∀ (Graph : Type) (graph : Graph) (options : MeasureOptions),
      (CommittedMeasurement.mk jobId report).intoMeasureResult graph options =
        measureResultFor report 0 graph options := by
    intro Graph graph options
    unfold CommittedMeasurement.intoMeasureResult
    rw [kind, single, length]
    simp [MeasureSubmissionKind.wire]
  unfold Usable
  rw [single]
  simp only [converts]
  have each := fun (Graph : Type) (graph : Graph) (options : MeasureOptions) =>
    @measureResultFor_iff config submission report 0 subject Graph graph
      options content (by omega) found
  constructor
  · intro usable measured member reward present
    rw [only, mem_singleton] at member
    subst member
    exact (each Unit () ⟨[], 0, none, false⟩).mp
      (usable Unit () ⟨[], 0, none, false⟩) reward present
  · intro fits Graph graph options
    exact (each Graph graph options).mpr (fits subject (mem_of_getElem? found))

theorem usable_symmetricPair_iff (content : ContentMatches config submission report)
    (pair : submission.kind = .symmetricPair)
    (kind : report.kind = submission.kind.wire.code)
    (count : submission.subjects.length = 2) :
    Usable submission jobId report ↔ RewardsFit report := by
  have length : report.subjects.length = 2 := content.subjectCount.trans count
  obtain ⟨first, second, both⟩ := length_eq_two.mp length
  have firstFound : report.subjects[0]? = some first := by
    rw [both]
    rfl
  have secondFound : report.subjects[1]? = some second := by
    rw [both]
    rfl
  have converts : ∀ (Graph : Type) (graphs : Graph × Graph) (options : MeasureOptions),
      (CommittedMeasurement.mk jobId report).intoMeasurePairResults graphs options =
        (measureResultFor report 0 graphs.1 options >>= fun left =>
          measureResultFor report 1 graphs.2 options >>= fun right =>
            pure (left, right)) := by
    intro Graph graphs options
    unfold CommittedMeasurement.intoMeasurePairResults
    rw [kind, pair, length]
    simp [MeasureSubmissionKind.wire]
  unfold Usable
  rw [pair]
  simp only [converts]
  have firstIff := fun (Graph : Type) (graph : Graph) (options : MeasureOptions) =>
    @measureResultFor_iff config submission report 0 first Graph graph
      options content (by omega) firstFound
  have secondIff := fun (Graph : Type) (graph : Graph) (options : MeasureOptions) =>
    @measureResultFor_iff config submission report 1 second Graph graph
      options content (by omega) secondFound
  constructor
  · intro usable measured member
    obtain ⟨results, converted, firstOwed, secondOwed⟩ := usable Unit ((), ()) ⟨[], 0, none, false⟩
    obtain ⟨left, leftConverted, converted⟩ := ok_of_bind converted
    obtain ⟨right, rightConverted, converted⟩ := ok_of_bind converted
    cases converted
    rw [both, mem_pair] at member
    rcases member with same | same
    · rw [same]
      exact (firstIff Unit () ⟨[], 0, none, false⟩).mp ⟨left, leftConverted, firstOwed⟩
    · rw [same]
      exact (secondIff Unit () ⟨[], 0, none, false⟩).mp ⟨right, rightConverted, secondOwed⟩
  · intro fits Graph graphs options
    obtain ⟨left, leftConverted, firstOwed⟩ := (firstIff Graph graphs.1 options).mpr
        (fits first (mem_of_getElem? firstFound))
    obtain ⟨right, rightConverted, secondOwed⟩ := (secondIff Graph graphs.2 options).mpr
        (fits second (mem_of_getElem? secondFound))
    refine ⟨(left, right), ?_, firstOwed, secondOwed⟩
    rw [leftConverted, rightConverted]
    rfl

/-- In a reachable world a report that the coordinator accepts for a live job
is usable exactly when its rewards fit. -/
theorem usable_iff_of_reachable {world : World} {job : Job}
    {deviceId : DeviceId} {agent : AgentSession} {currentSession : SessionId}
    {leaseId : LeaseId}
    (reachable : (coordinatorSystem codec config).Reachable world)
    (live : world.state.jobs.get? jobId = some job)
    (accepted : validateReport config jobId job deviceId agent currentSession
      leaseId report = .ok ()) :
    Usable job.submission jobId report ↔ RewardsFit report := by
  obtain ⟨active, running, device, session, lease, held, _⟩ := validateReport_eq_ok accepted
  have leaseHeld : LeaseHeld jobId job deviceId agent currentSession leaseId
      active := ⟨running, device, session, lease, held⟩
  obtain ⟨identity, content⟩ := (validateReport_of_held leaseHeld).mp accepted
  have admitted := admittedJobs_of_reachable reachable jobId job live
  have count := subjectCount_of_validateSubmission admitted.valid
  cases kind : job.submission.kind with
  | single =>
    rw [kind] at count
    exact usable_single_iff content kind identity.kind count
  | symmetricPair =>
    rw [kind] at count
    exact usable_symmetricPair_iff content kind identity.kind count

end Accepted

namespace Sample

/-- A successful measurement of the job's one subject, in 1.5 ms. -/
def success (reward : F64) : MeasureReport :=
  { report targetBytes 0 with
    outcome := 1
    subjects := [⟨0, List.replicate 32 7, none, none, some reward, []⟩]
    samples := [⟨0, 0, 0, 1500000, 1600000⟩]
    failure := none }

def half : F64 := ⟨0x3fe0000000000000⟩
def huge : F64 := ⟨0x7e37e43c8800759c⟩

end Sample

theorem usable_half : ∃ live agent,
      (Sample.after Sample.accepted).state.jobs.get? Sample.job = some live ∧
      validateReport Sample.config Sample.job live Sample.device agent
        Sample.session Sample.lease (Sample.success Sample.half) = .ok () ∧
      Usable live.submission Sample.job (Sample.success Sample.half) := by
  obtain ⟨live, agent, found, _, accepted⟩ :=
    @Sample.exists_of_reviewed (Sample.after Sample.accepted)
      (Sample.success Sample.half) (.ok ()) (by decide +kernel)
  have fits : RewardsFit (Sample.success Sample.half) := by
    intro subject member reward present
    rw [mem_singleton.mp member] at present
    cases present
    unfold RewardFits
    decide +kernel
  exact ⟨live, agent, found, accepted,
    (usable_iff_of_reachable (Sample.reachable_after (by decide +kernel))
      found accepted).mpr fits⟩

/-- The report is accepted for a live job, and its requester gets an error. -/
theorem not_usable_huge : (coordinatorSystem Sample.codec Sample.config).Reachable
        (Sample.after Sample.accepted) ∧
      (∃ live agent,
        (Sample.after Sample.accepted).state.jobs.get? Sample.job = some live ∧
        (Sample.after Sample.accepted).state.agents.get? Sample.device = some agent ∧
        validateReport Sample.config Sample.job live Sample.device agent
          Sample.session Sample.lease (Sample.success Sample.huge) = .ok ()) ∧
      (CommittedMeasurement.mk Sample.job (Sample.success Sample.huge)).intoMeasureResult ()
          Sample.submission.options =
        .error (remoteEngineError 7 "successful remote report has non-finite reward") :=
  ⟨Sample.reachable_after (by decide +kernel),
    Sample.exists_of_reviewed (by decide +kernel), by decide +kernel⟩

end GraphZero.Measure
