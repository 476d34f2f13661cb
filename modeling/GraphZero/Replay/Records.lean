import GraphZero.Foundation.BigEndian
import GraphZero.Foundation.Result

/-!
# Keys and records

The column families are ordered by key bytes.  Episode keys and row index keys
are big-endian sequence numbers; a row key is the episode's key followed by
the big-endian step index, so the rows of one episode lie together and a range
of episodes is a range of row keys.

An episode is a record and its rows.  The store looks at the fields below; the
other fields of a record or a row travel through it as `content`.  How a
record becomes bytes, and the checks on contexts, measurements and targets,
are parameters: the storage paths are correct for every choice of them.
-/

namespace GraphZero.Replay

open GraphZero.Foundation

abbrev Bytes := List UInt8

/-- Replay rows distinguish policy-bearing decisions from value-only
terminals. -/
def schemaVersion : UInt32 := 9

/-- The keys of the `meta` family that the storage paths read or write. -/
inductive MetaKey where
  | schemaVersion
  | episodesStopped
  | completedGames
  | nextEpisodeSeq
  | producedRows
  | consumedRows
  | retainedFloor
  | deletedFloor
  | dataMode
  deriving DecidableEq

def rowKeyLen : Nat := 12

def episodeKey (seq : UInt64) : Bytes :=
  toBeBytes 8 seq.toNat

def rowKey (episodeSeq : UInt64) (stepIndex : UInt32) : Bytes :=
  toBeBytes 8 episodeSeq.toNat ++ toBeBytes 4 stepIndex.toNat

def rowIndexKey (seq : UInt64) : Bytes :=
  toBeBytes 8 seq.toNat

def decodeU64Key (key : Bytes) : Option UInt64 :=
  if key.length = 8 then some (UInt64.ofNat (ofBeBytes key)) else none

def decodeEpisodeFromRowKey (key : Bytes) : Option UInt64 :=
  if key.length ≠ rowKeyLen then
    none
  else
    some (UInt64.ofNat (ofBeBytes (key.take 8)))

def decodeStepFromRowKey (key : Bytes) : Option UInt32 :=
  if key.length ≠ rowKeyLen then
    none
  else
    some (UInt32.ofNat (ofBeBytes (key.drop 8)))

def encodeU32 (value : UInt32) : Bytes :=
  toBeBytes 4 value.toNat

def decodeU32 (value : Bytes) : Option UInt32 :=
  if value.length = 4 then some (UInt32.ofNat (ofBeBytes value)) else none

def encodeU64 (value : UInt64) : Bytes :=
  toBeBytes 8 value.toNat

def decodeU64 (value : Bytes) : Option UInt64 :=
  if value.length = 8 then some (UInt64.ofNat (ofBeBytes value)) else none

theorem toNat_lt_pow_eight (value : UInt64) : value.toNat < 256 ^ 8 :=
  value.toNat_lt

theorem toNat_lt_pow_four (value : UInt32) : value.toNat < 256 ^ 4 :=
  value.toNat_lt

theorem ofBeBytes_eight (value : UInt64) :
    UInt64.ofNat (ofBeBytes (toBeBytes 8 value.toNat)) = value := by
  rw [ofBeBytes_toBeBytes (toNat_lt_pow_eight value), UInt64.ofNat_toNat]

theorem ofBeBytes_four (value : UInt32) :
    UInt32.ofNat (ofBeBytes (toBeBytes 4 value.toNat)) = value := by
  rw [ofBeBytes_toBeBytes (toNat_lt_pow_four value), UInt32.ofNat_toNat]

@[simp]
theorem decodeU64_encodeU64 (value : UInt64) : decodeU64 (encodeU64 value) = some value := by
  rw [decodeU64, encodeU64, if_pos (length_toBeBytes 8 _), ofBeBytes_eight]

@[simp]
theorem decodeU32_encodeU32 (value : UInt32) : decodeU32 (encodeU32 value) = some value := by
  rw [decodeU32, encodeU32, if_pos (length_toBeBytes 4 _), ofBeBytes_four]

@[simp]
theorem decodeU64Key_episodeKey (seq : UInt64) : decodeU64Key (episodeKey seq) = some seq := by
  rw [decodeU64Key, episodeKey, if_pos (length_toBeBytes 8 _), ofBeBytes_eight]

@[simp]
theorem decodeU64Key_rowIndexKey (seq : UInt64) : decodeU64Key (rowIndexKey seq) = some seq :=
  decodeU64Key_episodeKey seq

theorem length_rowKey (episodeSeq : UInt64) (stepIndex : UInt32) :
    (rowKey episodeSeq stepIndex).length = rowKeyLen := by
  rfl

@[simp]
theorem decodeEpisodeFromRowKey_rowKey (episodeSeq : UInt64) (stepIndex : UInt32) :
    decodeEpisodeFromRowKey (rowKey episodeSeq stepIndex) = some episodeSeq := by
  have front : (rowKey episodeSeq stepIndex).take 8 = toBeBytes 8 episodeSeq.toNat := by
    rw [rowKey, List.take_left' (length_toBeBytes 8 _)]
  rw [decodeEpisodeFromRowKey, if_neg (by rw [length_rowKey]; simp), front,
    ofBeBytes_eight]

@[simp]
theorem decodeStepFromRowKey_rowKey (episodeSeq : UInt64) (stepIndex : UInt32) :
    decodeStepFromRowKey (rowKey episodeSeq stepIndex) = some stepIndex := by
  have back : (rowKey episodeSeq stepIndex).drop 8 = toBeBytes 4 stepIndex.toNat := by
    rw [rowKey, List.drop_left' (length_toBeBytes 8 _)]
  rw [decodeStepFromRowKey, if_neg (by rw [length_rowKey]; simp), back,
    ofBeBytes_four]

variable {first second : UInt64}

theorem episodeKey_injective (same : episodeKey first = episodeKey second) : first = second := by
  have decoded := congrArg decodeU64Key same
  simpa using decoded

theorem rowIndexKey_injective (same : rowIndexKey first = rowIndexKey second) : first = second :=
  episodeKey_injective same

theorem rowKey_injective {firstSeq secondSeq firstStep secondStep}
    (same : rowKey firstSeq firstStep = rowKey secondSeq secondStep) :
    firstSeq = secondSeq ∧ firstStep = secondStep := by
  have episodes := congrArg decodeEpisodeFromRowKey same
  have steps := congrArg decodeStepFromRowKey same
  exact ⟨by simpa using episodes, by simpa using steps⟩

theorem episodeKey_lt_iff : episodeKey first < episodeKey second ↔ first.toNat < second.toNat :=
  toBeBytes_lt_iff (toNat_lt_pow_eight first) (toNat_lt_pow_eight second)

theorem rowIndexKey_lt_iff : rowIndexKey first < rowIndexKey second ↔ first.toNat < second.toNat :=
  episodeKey_lt_iff

theorem rowKey_lt_rowKey_zero_iff {firstSeq secondSeq firstStep} :
    rowKey firstSeq firstStep < rowKey secondSeq 0 ↔ firstSeq.toNat < secondSeq.toNat := by
  have widths : (toBeBytes 8 firstSeq.toNat).length = (toBeBytes 8 secondSeq.toNat).length := by
    rw [length_toBeBytes, length_toBeBytes]
  rw [rowKey, rowKey, append_lt_append_iff widths, toBeBytes_lt_iff (toNat_lt_pow_eight firstSeq)
      (toNat_lt_pow_eight secondSeq),
    toBeBytes_lt_iff (toNat_lt_pow_four firstStep) (toNat_lt_pow_four 0)]
  constructor
  · rintro (below | ⟨_, impossible⟩)
    · exact below
    · exact absurd impossible (Nat.not_lt_zero _)
  · exact Or.inl

/-! ## Records -/

inductive ReplayError where
  | notMeasured
  | invalidRecord
  | schemaMismatch
  | engineIdentityMismatch
  | dataModeMismatch
  | targetContractMismatch
  | empty
  | storage (message : String)
  deriving DecidableEq

abbrev ReplayResult (α : Type) := Except ReplayError α

inductive ReplayDataMode where
  | standard
  | symmetricSelfplay
  | symmetricSelfplayStop
  deriving DecidableEq

namespace ReplayDataMode

def isSymmetricSelfplay : ReplayDataMode → Bool
  | symmetricSelfplay | symmetricSelfplayStop => true
  | standard => false

def name : ReplayDataMode → String
  | standard => "standard-v1"
  | symmetricSelfplay => "symmetric-selfplay-v1"
  | symmetricSelfplayStop => "symmetric-selfplay-v2"

def bytes (mode : ReplayDataMode) : Bytes :=
  mode.name.toList.map fun letter => UInt8.ofNat letter.toNat

def fromBytes (stored : Bytes) : Option ReplayDataMode :=
  [standard, symmetricSelfplay, symmetricSelfplayStop].find? fun mode =>
    stored == mode.bytes

@[simp]
theorem fromBytes_bytes (mode : ReplayDataMode) : fromBytes mode.bytes = some mode := by
  cases mode <;> decide

end ReplayDataMode

inductive ReplayRowKind where
  | decision
  | terminal
  deriving DecidableEq

structure ReplayRow where
  kind : ReplayRowKind
  stepIndex : UInt32
  content : Bytes
  deriving DecidableEq

structure ReplayEpisodeRecord where
  steps : List Bytes
  stopped : Bool
  rowCount : UInt32
  content : Bytes
  deriving DecidableEq

/-- A record with the rows that are appended under it. -/
structure EpisodeAppend where
  record : ReplayEpisodeRecord
  rows : List ReplayRow
  deriving DecidableEq

/-- The stored form of records and rows.  A row comes back with its policy
targets rounded to the stored precision, which is `storedRow`. -/
structure ReplayCodec where
  encodeEpisode : ReplayEpisodeRecord → ReplayResult Bytes
  encodeRow : ReplayRow → ReplayResult Bytes
  decodeRow : Bytes → ReplayResult ReplayRow
  storedRow : ReplayRow → ReplayRow
  decodeRow_encodeRow : ∀ {row bytes},
    encodeRow row = .ok bytes → decodeRow bytes = .ok (storedRow row)

/-- A codec that also reads records back. -/
structure RecordCodec extends ReplayCodec where
  decodeEpisode : Bytes → ReplayResult ReplayEpisodeRecord
  decodeEpisode_encodeEpisode : ∀ {record bytes},
    encodeEpisode record = .ok bytes → decodeEpisode bytes = .ok record
  storedRow_kind : ∀ row, (storedRow row).kind = row.kind

/-- The verdicts on everything but the shape of an episode. -/
structure ContentChecks where
  engineIdentity : ReplayEpisodeRecord → ReplayResult Unit
  record : ReplayDataMode → ReplayEpisodeRecord → ReplayResult Unit
  featureRows : List ReplayRow → ReplayResult Unit
  featureRow : ReplayRow → ReplayResult Unit
  decisionRow : ReplayDataMode → ReplayEpisodeRecord → List Bytes → ReplayRow → ReplayResult Unit
  terminalRow : ReplayDataMode → ReplayEpisodeRecord → List Bytes → ReplayRow → ReplayResult Unit
  symmetricMetrics : EpisodeAppend → EpisodeAppend → ReplayResult Unit

def validateRow (checks : ContentChecks) (mode : ReplayDataMode)
    (record : ReplayEpisodeRecord) (terminalRows index : Nat) (row : ReplayRow) :
    ReplayResult Unit := do
  if UInt32.size ≤ index then
    throw .invalidRecord
  if row.stepIndex ≠ UInt32.ofNat index then
    throw .invalidRecord
  checks.featureRow row
  let expectedHistory := record.steps.take index
  match row.kind with
  | .decision => checks.decisionRow mode record expectedHistory row
  | .terminal =>
    if index ≠ record.steps.length ∨ terminalRows ≠ 1 then
      throw .invalidRecord
    checks.terminalRow mode record expectedHistory row

def validateRows (checks : ContentChecks) (mode : ReplayDataMode)
    (record : ReplayEpisodeRecord) (terminalRows : Nat) :
    Nat → List ReplayRow → ReplayResult Unit
  | _, [] => .ok ()
  | index, row :: rest => do
      validateRow checks mode record terminalRows index row
      validateRows checks mode record terminalRows (index + 1) rest

def terminalRowCount (rows : List ReplayRow) : Nat :=
  (rows.filter fun row => row.kind = .terminal).length

def validateEpisode (checks : ContentChecks) (mode : ReplayDataMode)
    (episode : EpisodeAppend) : ReplayResult Unit := do
  let record := episode.record
  let rows := episode.rows
  checks.record mode record
  if rows.length ≠ record.rowCount.toNat then
    throw .invalidRecord
  let terminalRows := terminalRowCount rows
  if rows.length ≠ record.steps.length + terminalRows ∨ 1 < terminalRows then
    throw .invalidRecord
  checks.featureRows rows
  validateRows checks mode record terminalRows 0 rows

/-- The rows carry their positions, counted from `first`. -/
def Numbered (first : Nat) (rows : List ReplayRow) : Prop :=
  ∀ position row, rows[position]? = some row → row.stepIndex.toNat = first + position

variable {checks : ContentChecks} {mode : ReplayDataMode} {record : ReplayEpisodeRecord}
  {terminalRows : Nat}

theorem stepIndex_of_validateRow {index row}
    (valid : validateRow checks mode record terminalRows index row = .ok ()) :
    row.stepIndex.toNat = index := by
  obtain ⟨fits, valid⟩ := ok_of_guard valid
  obtain ⟨same, _⟩ := ok_of_guard valid
  have positions : row.stepIndex = UInt32.ofNat index := not_not.mp same
  rw [positions, UInt32.toNat_ofNat_of_lt' (Nat.lt_of_not_le fits)]

theorem numbered_of_validateRows {first rows}
    (valid : validateRows checks mode record terminalRows first rows = .ok ()) :
    Numbered first rows := by
  induction rows generalizing first with
  | nil =>
    intro position row found
    simp at found
  | cons head rest ih =>
    obtain ⟨_, headValid, restValid⟩ := ok_of_bind valid
    have tail := ih restValid
    intro position row found
    cases position with
    | zero =>
      have same : head = row := by simpa using found
      rw [← same, stepIndex_of_validateRow headValid, Nat.add_zero]
    | succ position =>
      have later := tail position row (by simpa using found)
      omega

theorem shape_of_validateEpisode {episode} (valid : validateEpisode checks mode episode = .ok ()) :
    Numbered 0 episode.rows ∧ episode.rows.length = episode.record.rowCount.toNat := by
  obtain ⟨_, _, valid⟩ := ok_of_bind valid
  obtain ⟨counted, valid⟩ := ok_of_guard valid
  obtain ⟨_, valid⟩ := ok_of_guard valid
  obtain ⟨_, _, valid⟩ := ok_of_bind valid
  exact ⟨numbered_of_validateRows valid, not_not.mp counted⟩

/-- The record counts a row beside those of its steps. -/
def ReplayEpisodeRecord.HasTerminal (record : ReplayEpisodeRecord) : Prop :=
  record.rowCount.toNat = record.steps.length + 1

/-- As many rows as the record counts; one row more than steps is a terminal
row after them. -/
structure EpisodeAppend.Shaped (episode : EpisodeAppend) : Prop where
  counted : episode.rows.length = episode.record.rowCount.toNat
  terminal : episode.record.HasTerminal → ∃ row,
    episode.rows[episode.record.steps.length]? = some row ∧ row.kind = .terminal

theorem terminal_of_validateRows {first rows}
    (valid : validateRows checks mode record terminalRows first rows = .ok ())
    (counted : terminalRowCount rows ≠ 0) :
    ∃ position row, rows[position]? = some row ∧ row.kind = .terminal ∧
      first + position = record.steps.length := by
  induction rows generalizing first with
  | nil => exact absurd rfl counted
  | cons head rest ih =>
    obtain ⟨_, headValid, restValid⟩ := ok_of_bind valid
    cases kind : head.kind with
    | decision =>
      have inRest : terminalRowCount rest ≠ 0 := by
        rw [terminalRowCount, List.filter_cons_of_neg (by simp [kind])] at counted
        exact counted
      obtain ⟨position, row, found, terminal, place⟩ := ih restValid inRest
      exact ⟨position + 1, row, found, terminal, by omega⟩
    | terminal =>
      obtain ⟨_, headValid⟩ := ok_of_guard headValid
      obtain ⟨_, headValid⟩ := ok_of_guard headValid
      obtain ⟨_, _, headValid⟩ := ok_of_bind headValid
      rw [kind] at headValid
      obtain ⟨last, _⟩ := ok_of_guard headValid
      exact ⟨0, head, rfl, kind, not_not.mp fun other => last (Or.inl other)⟩

theorem shaped_of_validateEpisode {episode} (valid : validateEpisode checks mode episode = .ok ()) :
    episode.Shaped := by
  refine ⟨(shape_of_validateEpisode valid).2, fun hasTerminal => ?_⟩
  obtain ⟨_, _, valid⟩ := ok_of_bind valid
  obtain ⟨_, valid⟩ := ok_of_guard valid
  obtain ⟨totals, valid⟩ := ok_of_guard valid
  obtain ⟨_, _, valid⟩ := ok_of_bind valid
  rw [ReplayEpisodeRecord.HasTerminal] at hasTerminal
  obtain ⟨position, row, found, terminal, place⟩ := terminal_of_validateRows valid (by omega)
  rw [Nat.zero_add] at place
  exact ⟨row, place ▸ found, terminal⟩

end GraphZero.Replay
