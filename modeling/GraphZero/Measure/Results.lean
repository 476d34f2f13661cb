import GraphZero.Foundation.Binary32
import GraphZero.Measure.Protocol

/-!
# Measurement results

What a requester makes of a committed report: latency statistics in single
precision, a reward, and an engine error where the report does not fit.
Latencies are whole nanoseconds on the wire, so their statistics stay finite;
a reward is a double and may not fit.
-/

namespace GraphZero.Measure

open Foundation Wire

inductive MeasurementValidationError where
  | nonFiniteLatency (field : String) (value : Binary32)
  | negativeLatency (field : String) (value : Binary32)
  | invalidLatencySample (index : Nat) (value : Binary32)
    (source : MeasurementValidationError)
  | nonFiniteScalarReward (scalarReward : Binary32)

def validateLatencyValue (field : String) (value : Binary32) :
    Except MeasurementValidationError Unit :=
  if value.isFinite = false then
    .error (.nonFiniteLatency field value)
  else if value.less .zero then
    .error (.negativeLatency field value)
  else
    .ok ()

/-- The samples from `index` on. -/
def validateLatencyValues : List Binary32 → (index : Nat) → Except MeasurementValidationError Unit
  | [], _ => .ok ()
  | value :: rest, index =>
    match validateLatencyValue "samples_ms" value with
    | .error source => .error (.invalidLatencySample index value source)
    | .ok () => validateLatencyValues rest (index + 1)

structure LatencyStats where
  meanMs : Binary32
  medianMs : Binary32
  p95Ms : Binary32
  samplesMs : List Binary32
  deriving DecidableEq

def LatencyStats.validate (stats : LatencyStats) :
    Except MeasurementValidationError LatencyStats := do
  validateLatencyValue "mean_ms" stats.meanMs
  validateLatencyValue "median_ms" stats.medianMs
  validateLatencyValue "p95_ms" stats.p95Ms
  validateLatencyValues stats.samplesMs 0
  pure stats

/-- The position of a percentile among `length` sorted samples. -/
def percentileIndex (length : Nat) (percentile : Binary32) : Nat :=
  let rank := (percentile.mul (.ofNat length)).ceilToUsize
  min (rank - 1) (length - 1)

theorem percentileIndex_lt {length} (pos : 0 < length) (percentile : Binary32) :
    percentileIndex length percentile < length :=
  Nat.lt_of_le_of_lt (Nat.min_le_right _ _) (Nat.sub_one_lt_of_lt pos)

def percentileNearestRank (sorted : List Binary32)
    (occupied : 0 < sorted.length) (percentile : Binary32) : Binary32 :=
  sorted.get ⟨percentileIndex sorted.length percentile, percentileIndex_lt occupied percentile⟩

/-- `sort_by` with incomparable values equal; the sort is stable. -/
def sortSamples (samples : List Binary32) : List Binary32 :=
  samples.mergeSort fun left right =>
    (left.partialCmp right).getD .eq != .gt

theorem length_sortSamples (samples : List Binary32) :
    (sortSamples samples).length = samples.length :=
  List.length_mergeSort samples

/-- The sum of an iterator, which starts at negative zero. -/
def sumSamples (samples : List Binary32) : Binary32 :=
  samples.foldl Binary32.add Binary32.negativeZero

def LatencyStats.fromSamples (samplesMs : List Binary32) :
    Except MeasurementValidationError LatencyStats := do
  validateLatencyValues samplesMs 0
  if occupied : 0 < samplesMs.length then
    let sorted := sortSamples samplesMs
    have present : 0 < sorted.length := by
      rwa [length_sortSamples]
    LatencyStats.validate
      { meanMs := (sumSamples samplesMs).div (.ofNat samplesMs.length)
        medianMs := percentileNearestRank sorted present (.ofRatio 50 100)
        p95Ms := percentileNearestRank sorted present (.ofRatio 95 100)
        samplesMs }
  else
    LatencyStats.validate ⟨.zero, .zero, .zero, samplesMs⟩

/-! ## Results -/

structure ErrorMessage where
  text : String
  bounded : text.utf8ByteSize ≤ 512
  deriving DecidableEq

def ErrorMessage.new (message : String) : Option ErrorMessage :=
  if bounded : message.utf8ByteSize ≤ 512 then
    some ⟨message, bounded⟩
  else
    none

/-- The variant of `EngineError` that a remote result raises. -/
structure EngineError where
  code : Nat
  message : String
  deriving DecidableEq

def remoteEngineError (code : Nat) (message : String) : EngineError :=
  ⟨10000 + code, message⟩

structure MeasureFailure where
  code : Nat
  message : ErrorMessage
  deriving DecidableEq

structure MeasureResult (Graph : Type) where
  graph : Graph
  graphHash : GraphHash
  configHash : Bytes
  measured : Bool
  valid : Bool
  latency : Option LatencyStats
  scalarReward : Option Binary32
  failure : Option MeasureFailure
  metadata : Bytes
  deriving DecidableEq

section Conversion

variable {Graph : Type}

def MeasureResult.validate (result : MeasureResult Graph) :
    Except MeasurementValidationError (MeasureResult Graph) := do
  match result.scalarReward with
  | some scalarReward =>
    if scalarReward.isFinite = false then
      throw (.nonFiniteScalarReward scalarReward)
  | none => pure ()
  match result.latency with
  | some latency => do
      let latency ← latency.validate
      pure { result with latency := some latency }
  | none => pure { result with latency := none }

/-- The samples of a subject in milliseconds. -/
def samplesMs (report : MeasureReport) (logicalIndex : Nat) : List Binary32 :=
  (report.samples.filter (·.logicalIndex == logicalIndex)).map fun sample =>
    (Binary32.ofNat sample.gpuElapsedNs.toNat).div (.ofNat 1000000)

def latencyFor (report : MeasureReport) (logicalIndex : Nat) :
    Except EngineError (Option LatencyStats) :=
  let samples := samplesMs report logicalIndex
  if samples.isEmpty then
    .ok none
  else
    match LatencyStats.fromSamples samples with
    | .error _ => .error (remoteEngineError 5 "remote latency samples are invalid")
    | .ok stats => .ok (some stats)

/-- A failure detail's message, or a fixed one where it is too long. -/
def failureMessage (text : String) : ErrorMessage :=
  (ErrorMessage.new text).getD ⟨"remote measurement failed", by decide⟩

def outcomeFor (report : MeasureReport) (subject : SubjectMeasurement)
    (outcome : MeasureAttemptOutcome) :
    Except EngineError (Bool × Bool × Option Binary32 × Option MeasureFailure) :=
  match outcome with
  | .succeeded =>
    match subject.scalarReward with
    | none => .error (remoteEngineError 6 "successful remote report omitted scalar reward")
    | some scalarReward =>
      let reward := Binary32.ofDouble scalarReward.bits
      if reward.isFinite = false then
        .error (remoteEngineError 7 "successful remote report has non-finite reward")
      else
        .ok (true, true, some reward, none)
  | _ =>
    match report.failure with
    | none => .error (remoteEngineError 8 "failed remote report omitted failure detail")
    | some detail =>
      .ok (true, false, none, some ⟨detail.engineErrorCode, failureMessage detail.boundedMessage⟩)

def measureResultFor (report : MeasureReport) (logicalIndex : Nat)
    (graph : Graph) (options : MeasureOptions) :
    Except EngineError (MeasureResult Graph) := do
  let some subject := report.subjects.find? (·.logicalIndex == logicalIndex)
    | throw (remoteEngineError 2 "remote report omitted a subject")
  if wide : subject.graphHash.length = 32 then
    let some outcome := MeasureAttemptOutcome.ofCode report.outcome
      | throw (remoteEngineError 4 "remote report has an unknown outcome")
    let latency ← latencyFor report logicalIndex
    let (measured, valid, scalarReward, failure) ← outcomeFor report subject outcome
    let result : MeasureResult Graph :=
      { graph
        graphHash := ⟨subject.graphHash, wide⟩
        configHash := options.configHash
        measured
        valid
        latency
        scalarReward
        failure
        metadata := subject.engineMetadata }
    result.validate.mapError fun _ =>
      remoteEngineError 9 "remote measurement result is invalid"
  else
    throw (remoteEngineError 3 "remote graph hash has the wrong width")

def CommittedMeasurement.intoMeasureResult (committed : CommittedMeasurement)
    (graph : Graph) (options : MeasureOptions) :
    Except EngineError (MeasureResult Graph) :=
  if committed.report.kind ≠ MeasureKind.single.code ∨ committed.report.subjects.length ≠ 1 then
    .error (remoteEngineError 1 "remote report is not a single measurement")
  else
    measureResultFor committed.report 0 graph options

def CommittedMeasurement.intoMeasurePairResults
    (committed : CommittedMeasurement) (graphs : Graph × Graph)
    (options : MeasureOptions) :
    Except EngineError (MeasureResult Graph × MeasureResult Graph) :=
  if committed.report.kind ≠ MeasureKind.symmetricPair.code ∨
      committed.report.subjects.length ≠ 2 then
    .error (remoteEngineError 10 "remote report is not a symmetric pair")
  else do
    let first ← measureResultFor committed.report 0 graphs.1 options
    let second ← measureResultFor committed.report 1 graphs.2 options
    pure (first, second)

end Conversion

end GraphZero.Measure
