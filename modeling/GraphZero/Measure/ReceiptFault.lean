import GraphZero.Foundation.Transition
import GraphZero.Measure.Receipt
import Mathlib.Tactic.FinCases

/-!
# Faults and crashes of the file ledger

A run interleaves commits, whose writes may fail anywhere, with crashes and
reopenings.  `acknowledged` lists the commits that answered the caller with
success; `Sound` says that the running ledger and every ledger opened from the
log answer as a ledger of exactly these reports would.

The inv splits the log at `settled`: before it stand the acknowledged
records, after it the bytes of failed commits.
-/

namespace GraphZero.Measure

open Foundation Wire List

def ReceiptLedger.content : ReceiptLedger → Bytes
  | memory _ _ => []
  | file content _ => content

structure FaultState where
  /-- The bytes of the log. -/
  disk : Bytes
  /-- The ledger of the running process. -/
  ledger : Option ReceiptLedger
  acknowledged : List CommittedMeasurement
  /-- How many bytes of the log hold acknowledged records. -/
  settled : Nat

inductive FaultLabel where
  | commit (jobId : JobId) (report : MeasureReport) (outcome : WriteOutcome)
  | crash (kept : Nat)
  | reopen

namespace FaultState

/-- An empty directory no process has opened. -/
def fresh : FaultState :=
  { disk := [], ledger := none, acknowledged := [], settled := 0 }

def leftover (state : FaultState) : Bytes :=
  state.disk.drop state.settled

end FaultState

namespace FaultState

variable {codec : Codec} {ledger next : ReceiptLedger} {jobId : JobId}
  {report : MeasureReport} {outcome : WriteOutcome}

end FaultState

section Ideal

variable (codec : Codec) (acknowledged : List CommittedMeasurement)

def acknowledgedReport (jobId : JobId) : Option CommittedMeasurement :=
  acknowledged.find? fun entry => entry.jobId = jobId

/-- What a ledger of exactly the acknowledged reports answers to `state`. -/
def idealState (jobId : JobId) (report : MeasureReport) : ReceiptState :=
  match acknowledgedReport acknowledged jobId with
  | none => .missing
  | some entry => knownReceipt (reportDigest codec entry.report) (reportDigest codec report)

/-- What a ledger of exactly the acknowledged reports answers to `commit`. -/
def idealCommit (jobId : JobId) (report : MeasureReport)
    (outcome : WriteOutcome) : ServiceResult ReceiptState :=
  match acknowledgedReport acknowledged jobId with
  | some entry => .ok (knownReceipt (reportDigest codec entry.report) (reportDigest codec report))
  | none =>
    if maxRecordBytes < (codec.encodeReport report).length then
      .error (.capacity "receipt record is too large")
    else
      match outcome with
      | .durable => .ok .missing
      | .failed _ message => .error (.io (boundMessage message))

/-- `ledger` answers as a ledger of exactly the acknowledged reports. -/
structure Holds (ledger : ReceiptLedger) : Prop where
  state : ∀ jobId report,
    ledger.state codec jobId report = idealState codec acknowledged jobId report
  commit : ∀ jobId report outcome,
    (ledger.commit codec outcome jobId report).1 =
      idealCommit codec acknowledged jobId report outcome
  len : ledger.len = acknowledged.length

end Ideal

/-- The running ledger and every ledger opened from the log answer as a ledger
of exactly the acknowledged reports. -/
def Sound (codec : Codec) (state : FaultState) : Prop :=
  (∀ ledger, state.ledger = some ledger → Holds codec state.acknowledged ledger) ∧
  ∃ opened, openFileLedger codec state.disk = .ok opened ∧ Holds codec state.acknowledged opened

/-- What the generated codec promises of one report. -/
def Codec.RoundTrips (codec : Codec) (report : MeasureReport) : Prop :=
  codec.decodeReport (codec.encodeReport report) = .ok report ∧ codec.encodeReport report ≠ []

def FaultLabel.RoundTrips (codec : Codec) : FaultLabel → Prop
  | .commit _ report _ => codec.RoundTrips report
  | .crash _ => True
  | .reopen => True

section ReadBack

variable {codec : Codec}

/-- What the log knows of an acknowledged report. -/
structure Recorded (codec : Codec) (entry : CommittedMeasurement) : Prop where
  named : entry.report.jobId = entry.jobId.toVec
  roundTrips : codec.RoundTrips entry.report
  admitted : (codec.encodeReport entry.report).length ≤ maxRecordBytes

def payloads (codec : Codec) (acknowledged : List CommittedMeasurement) : List Bytes :=
  acknowledged.map fun entry => codec.encodeReport entry.report

variable {acknowledged : List CommittedMeasurement}

end ReadBack

section Invariant

variable {codec : Codec}

variable {state : FaultState}

end Invariant

end GraphZero.Measure
