import GraphZero.Foundation.Table
import GraphZero.Measure.Protocol

/-!
# The receipt ledger

The file ledger is its bytes and the digests the process keeps in memory.
What the file system does with the bytes of one record is an argument of
`commit`; a file is shorter than `2 ^ 64` bytes, which `readReceipts` checks
offset by offset as the code does.
-/

namespace GraphZero.Measure

open Foundation Wire

def maxRecordBytes : Nat := 16 * 1024 * 1024

inductive ReceiptLedgerConfig where
  | memory (capacity : Nat)
  | directory (path : String)

inductive ReceiptState where
  | missing
  | identical
  | conflict

inductive ReceiptLedger where
  | memory (capacity : Nat) (receipts : Table JobId Digest)
  | file (content : Bytes) (receipts : Table JobId Digest)

/-- How the two writes and the sync of one record end: `failed written` leaves
the first `written` bytes of the record in the file. -/
inductive WriteOutcome where
  | durable
  | failed (written : Nat) (message : String)

def reportDigest (codec : Codec) (report : MeasureReport) : Digest :=
  codec.hash (codec.encodeReport report)

/-- The answer for a job whose digest is known. -/
def knownReceipt (existing digest : Digest) : ReceiptState :=
  if existing = digest then .identical else .conflict

namespace ReceiptLedger

def receipts : ReceiptLedger → Table JobId Digest
  | memory _ receipts => receipts
  | file _ receipts => receipts

/-- The capacity is below `2 ^ 64`, so a sum that overflows does not fit
either. -/
def canAdmit (ledger : ReceiptLedger) (activeJobs : Nat) : Bool :=
  match ledger with
  | memory capacity receipts => activeJobs + receipts.size < capacity
  | file _ _ => true

def len (ledger : ReceiptLedger) : Nat :=
  ledger.receipts.size

def state (codec : Codec) (ledger : ReceiptLedger) (jobId : JobId)
    (report : MeasureReport) : ReceiptState :=
  match ledger.receipts.get? jobId with
  | none => .missing
  | some expected => knownReceipt expected (reportDigest codec report)

def contains (ledger : ReceiptLedger) (jobId : JobId) : Bool :=
  ledger.receipts.contains jobId

def commit (codec : Codec) (outcome : WriteOutcome) (ledger : ReceiptLedger)
    (jobId : JobId) (report : MeasureReport) :
    ServiceResult ReceiptState × ReceiptLedger :=
  let digest := reportDigest codec report
  match ledger with
  | memory capacity receipts =>
    match receipts.get? jobId with
    | some existing => (.ok (knownReceipt existing digest), ledger)
    | none =>
      if capacity ≤ receipts.size then
        (.error (.capacity "coordinator receipt ledger is full"), ledger)
      else
        (.ok .missing, memory capacity (receipts.insert jobId digest))
  | file content receipts =>
    match receipts.get? jobId with
    | some existing => (.ok (knownReceipt existing digest), ledger)
    | none =>
      let encoded := codec.encodeReport report
      -- The same error answers a length that exceeds 32 bits, which none
      -- within the record limit does.
      if maxRecordBytes < encoded.length then
        (.error (.capacity "receipt record is too large"), ledger)
      else
        match outcome with
        | .durable => (.ok .missing, file (content ++ frame encoded) (receipts.insert jobId digest))
        | .failed written message =>
          (.error (.io (boundMessage message)),
            file (content ++ (frame encoded).take written) receipts)

section Commit

variable {codec : Codec} {outcome : WriteOutcome} {ledger : ReceiptLedger}
  {jobId : JobId} {report : MeasureReport}

theorem commit_cases (codec : Codec) (outcome : WriteOutcome)
    (ledger : ReceiptLedger) (jobId : JobId) (report : MeasureReport) :
    ((ledger.commit codec outcome jobId report).1 = .ok .missing ∧
      ledger.receipts.get? jobId = none ∧
      (ledger.commit codec outcome jobId report).2.receipts =
        ledger.receipts.insert jobId (reportDigest codec report)) ∨
    ((ledger.commit codec outcome jobId report).1 ≠ .ok .missing ∧
      (ledger.commit codec outcome jobId report).2.receipts = ledger.receipts) := by
  have known : ∀ existing digest, knownReceipt existing digest ≠ .missing := by
    intro existing digest
    unfold knownReceipt
    split <;> simp
  cases ledger with
  | memory capacity receipts =>
    cases found : receipts.get? jobId with
    | some existing =>
      right
      simp [commit, found, ReceiptLedger.receipts, known]
    | none =>
      by_cases full : capacity ≤ receipts.size
      · right
        simp [commit, found, full, ReceiptLedger.receipts]
      · left
        simp [commit, found, full, ReceiptLedger.receipts]
  | file content receipts =>
    cases found : receipts.get? jobId with
    | some existing =>
      right
      simp [commit, found, ReceiptLedger.receipts, known]
    | none =>
      by_cases large : maxRecordBytes < (codec.encodeReport report).length
      · right
        simp [commit, found, large, ReceiptLedger.receipts]
      cases outcome with
      | durable =>
        left
        simp [commit, found, large, ReceiptLedger.receipts]
      | failed written message =>
        right
        simp [commit, found, large, ReceiptLedger.receipts]

end Commit

theorem contains_eq_true_iff {ledger : ReceiptLedger} {jobId} :
    ledger.contains jobId = true ↔ ∃ digest, ledger.receipts.get? jobId = some digest := by
  rw [contains, Table.contains_iff, Table.mem_keys_iff]

theorem contains_eq_false_iff {ledger : ReceiptLedger} {jobId} :
    ledger.contains jobId = false ↔ ledger.receipts.get? jobId = none :=
  Table.contains_eq_false_iff

end ReceiptLedger

/-- One turn of the loop of `read_receipts`, on one whole record. -/
def absorbRecord (codec : Codec) (state : Table JobId Digest × Nat)
    (encoded : Bytes) : ServiceResult (Table JobId Digest × Nat) := do
  let (receipts, validBytes) := state
  let report ← (codec.decodeReport encoded).mapError
    fun message => ServiceError.protocol (boundMessage message)
  let jobId : JobId ← Id.fromSlice report.jobId
  let digest := codec.hash encoded
  match receipts.get? jobId with
  | some existing =>
    if existing ≠ digest then
      throw (.protocol "receipt ledger contains conflicting reports for one job")
  | none => pure ()
  if validBytes + (4 + encoded.length) < 2 ^ 64 then
    pure (receipts.insert jobId digest, validBytes + (4 + encoded.length))
  else
    throw (.capacity "receipt ledger offset overflow")

def readReceipts (codec : Codec) (content : Bytes) : ServiceResult (Table JobId Digest × Nat) :=
  scan maxRecordBytes (.protocol "receipt ledger contains an invalid record length")
    (absorbRecord codec) content.length content (∅, 0)

/-- The file is cut to its whole records. -/
def openFileLedger (codec : Codec) (content : Bytes) : ServiceResult ReceiptLedger := do
  let (receipts, validBytes) ← readReceipts codec content
  pure (.file (content.take validBytes) receipts)

/-- `content` is what the directory's log holds. -/
def ReceiptLedger.open (codec : Codec) (content : Bytes) :
    ReceiptLedgerConfig → ServiceResult ReceiptLedger
  | .memory capacity => .ok (.memory capacity ∅)
  | .directory _ => openFileLedger codec content

end GraphZero.Measure
