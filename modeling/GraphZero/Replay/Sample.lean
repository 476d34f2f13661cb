import GraphZero.Replay.Store

/-!
# Drawing a sample

A sample loads the retained floor and the produced count, draws row sequences
from the window below the count, and reads them in two batched lookups: the
row index, and the rows.  A sample of terminal rows draws episodes instead,
and reads their records and the rows after their steps.  The generator rejects
values until one is below a multiple of the bound; its state runs through all
64-bit numbers, so a draw always ends.
-/

namespace GraphZero.Replay

open GraphZero.Foundation

/-! ## The generator -/

structure ReplayRng where
  state : UInt64

namespace ReplayRng

/-- The step of the generator's state. -/
def increment : UInt64 := 0x9e3779b97f4a7c15

def mix (state : UInt64) : UInt64 :=
  let value := (state ^^^ (state >>> 30)) * 0xbf58476d1ce4e5b9
  let value := (value ^^^ (value >>> 27)) * 0x94d049bb133111eb
  value ^^^ (value >>> 31)

def advance (rng : ReplayRng) : ReplayRng :=
  ⟨rng.state + increment⟩

/-- The value drawn by the next call, and the generator after it. -/
def nextU64 (rng : ReplayRng) : UInt64 × ReplayRng :=
  (mix rng.advance.state, rng.advance)

/-- The rejection loop; `fuel` bounds its turns. -/
def drawBelow (bound zone : UInt64) : (fuel : Nat) → ReplayRng → Option (UInt64 × ReplayRng)
  | 0, _ => none
  | fuel + 1, rng =>
    let drawn := rng.nextU64
    if drawn.1 < zone then
      some (drawn.1 % bound, drawn.2)
    else
      drawBelow bound zone fuel drawn.2

/-- The largest multiple of `bound` that the source compares with. -/
def zone (bound : UInt64) : UInt64 :=
  UInt64.ofNat (UInt64.size - 1) - UInt64.ofNat (UInt64.size - 1) % bound

def nextBounded (rng : ReplayRng) (bound : UInt64) : Option (UInt64 × ReplayRng) :=
  if bound = 1 then
    some (0, rng)
  else
    drawBelow bound (zone bound) UInt64.size rng

variable {bound : UInt64} {rng : ReplayRng}

theorem drawBelow_isSome {zone fuel turn} (enough : turn < fuel)
    (accepted : mix (rng.state + UInt64.ofNat (turn + 1) * increment) < zone) :
    (drawBelow bound zone fuel rng).isSome := by
  induction fuel generalizing rng turn with
  | zero => omega
  | succ fuel ih =>
    rw [drawBelow]
    by_cases below : (nextU64 rng).1 < zone
    · simp only [if_pos below, Option.isSome_some]
    simp only [if_neg below]
    cases turn with
    | zero =>
      have first : rng.state + UInt64.ofNat (0 + 1) * increment =
          rng.advance.state := by
        simp [advance]
      exact absurd accepted below
    | succ turn =>
      have enoughLeft : turn < fuel := by omega
      apply ih enoughLeft
      have later : rng.state + UInt64.ofNat (turn + 1 + 1) * increment =
            (nextU64 rng).2.state + UInt64.ofNat (turn + 1) * increment := by
        simp only [nextU64, advance, UInt64.ofNat_add]
        grind
      rw [← later]
      exact accepted

theorem exists_turn_to_zero (state : UInt64) : ∃ turn, turn < UInt64.size ∧
      state + UInt64.ofNat (turn + 1) * increment = 0 := by
  have inverse : (17428512612931826493 : UInt64) * increment = 1 := by decide
  have solved : state + (0 - state) * 17428512612931826493 * increment = 0 := by
    grind
  by_cases pos : 0 < ((0 - state) * 17428512612931826493).toNat
  · refine ⟨((0 - state) * 17428512612931826493).toNat - 1, ?_, ?_⟩
    · have bound := ((0 - state) * 17428512612931826493).toNat_lt_size
      omega
    · rw [Nat.sub_add_cancel pos, UInt64.ofNat_toNat]
      exact solved
  · refine ⟨UInt64.size - 1, by decide, ?_⟩
    have zero : (0 - state) * 17428512612931826493 = 0 :=
      UInt64.toNat_inj.mp (Nat.eq_zero_of_not_pos pos)
    have whole : UInt64.ofNat (UInt64.size - 1 + 1) = 0 := by decide
    rw [zero] at solved
    exact solved

theorem zone_pos (pos : 0 < bound) : 0 < zone bound := by
  have boundPositive : 0 < bound.toNat := pos
  have boundSmall := bound.toNat_lt_size
  have top : (UInt64.ofNat (UInt64.size - 1)).toNat = UInt64.size - 1 :=
    UInt64.toNat_ofNat_of_lt' (by decide)
  have remainder : (UInt64.ofNat (UInt64.size - 1) % bound).toNat =
      (UInt64.size - 1) % bound.toNat := by
    rw [UInt64.toNat_mod, top]
  have below := Nat.mod_lt (UInt64.size - 1) boundPositive
  have difference : (zone bound).toNat = UInt64.size - 1 - (UInt64.size - 1) % bound.toNat := by
    rw [zone, UInt64.toNat_sub_of_le _ _ (by
      exact Nat.mod_le _ _), remainder, top]
  rw [UInt64.lt_iff_toNat_lt, difference]
  change 0 < _
  omega

theorem nextBounded_isSome (pos : 0 < bound) : (nextBounded rng bound).isSome := by
  by_cases single : bound = 1
  · rw [nextBounded, if_pos single]
    rfl
  · rw [nextBounded, if_neg single]
    obtain ⟨turn, enough, zero⟩ := exists_turn_to_zero rng.state
    apply drawBelow_isSome enough
    rw [zero]
    exact zone_pos pos

theorem drawBelow_lt {zone value fuel next} (pos : 0 < bound)
    (drawn : drawBelow bound zone fuel rng = some (value, next)) :
    value < bound := by
  induction fuel generalizing rng with
  | zero => cases drawn
  | succ fuel ih =>
    rw [drawBelow] at drawn
    by_cases below : (nextU64 rng).1 < zone
    · simp only [if_pos below, Option.some.injEq, Prod.mk.injEq] at drawn
      rw [← drawn.1]
      exact UInt64.mod_lt _ pos
    · simp only [if_neg below] at drawn
      exact ih drawn

theorem nextBounded_lt {next value} (pos : 0 < bound)
    (drawn : nextBounded rng bound = some (value, next)) : value < bound := by
  by_cases single : bound = 1
  · rw [nextBounded, if_pos single] at drawn
    cases drawn
    exact pos
  · rw [nextBounded, if_neg single] at drawn
    exact drawBelow_lt pos drawn

end ReplayRng

structure SampleConfig where
  batch : UInt64
  windowRows : UInt64
  seed : UInt64
  batch_pos : 0 < batch
  windowRows_pos : 0 < windowRows

/-- The floor and the produced count that a sample loaded. -/
structure SampleWindow where
  floor : UInt64
  produced : UInt64

namespace SampleWindow

/-- No row lies between the floor and the count. -/
def IsEmpty (window : SampleWindow) : Prop :=
  window.produced ≤ window.floor ∨ window.produced = 0

instance (window : SampleWindow) : Decidable window.IsEmpty :=
  inferInstanceAs (Decidable (_ ∨ _))

def size (window : SampleWindow) (config : SampleConfig) : UInt64 :=
  min config.windowRows (window.produced - window.floor)

def start (window : SampleWindow) (config : SampleConfig) : UInt64 :=
  window.produced - window.size config

/-- The subtractions that give the window are those of the numbers. -/
structure Exact (window : SampleWindow) (config : SampleConfig) : Prop where
  floor_le : window.floor.toNat ≤ window.produced.toNat
  size_eq : (window.size config).toNat = min config.windowRows.toNat
      (window.produced.toNat - window.floor.toNat)
  start_eq : (window.start config).toNat = window.produced.toNat - (window.size config).toNat

variable {window : SampleWindow}

theorem exact_of_le (config : SampleConfig) (ordered : window.floor.toNat ≤ window.produced.toNat) :
    window.Exact config := by
  have difference : (window.produced - window.floor).toNat =
      window.produced.toNat - window.floor.toNat :=
    UInt64.toNat_sub_of_le _ _ (UInt64.le_iff_toNat_le.mpr ordered)
  have sizeNat : (window.size config).toNat = min config.windowRows.toNat
        (window.produced.toNat - window.floor.toNat) := by
    rw [size, ← difference, UInt64.toNat_min]
  have sizeBound : window.size config ≤ window.produced := by
    rw [UInt64.le_iff_toNat_le, sizeNat]
    omega
  exact ⟨ordered, sizeNat, UInt64.toNat_sub_of_le _ _ sizeBound⟩

/-- The start of the window is the floor, or later when the window is
shorter. -/
theorem Exact.start_eq_max {config} (isExact : window.Exact config) :
    (window.start config).toNat = max window.floor.toNat
        (window.produced.toNat - config.windowRows.toNat) := by
  have ordered := isExact.floor_le
  rw [isExact.start_eq, isExact.size_eq]
  omega

theorem Exact.size_pos {config} (isExact : window.Exact config) (nonempty : ¬ window.IsEmpty) :
    0 < window.size config := by
  have below : window.floor.toNat < window.produced.toNat := by
    apply Nat.lt_of_not_le
    intro ordered
    exact nonempty (Or.inl (UInt64.le_iff_toNat_le.mpr ordered))
  have pos : 0 < config.windowRows.toNat := config.windowRows_pos
  rw [UInt64.lt_iff_toNat_lt, isExact.size_eq]
  change 0 < _
  omega

end SampleWindow

def drawSequences (start size : UInt64) : (count : Nat) → ReplayRng → Option (List UInt64)
  | 0, _ => some []
  | count + 1, rng => do
      let (offset, next) ← rng.nextBounded size
      let rest ← drawSequences start size count next
      return (start + offset) :: rest

/-- The row sequences of a sample, or nothing should a draw not end. -/
def SampleWindow.draw (window : SampleWindow) (config : SampleConfig) : Option (List UInt64) :=
  drawSequences (window.start config) (window.size config) config.batch.toNat ⟨config.seed⟩

/-- The row key under a row sequence, with its episode. -/
def resolveRow (database : Database) (seq : UInt64) : ReplayResult (UInt64 × Bytes) := do
  let key ← orStorage (database.get .rowIndex (rowIndexKey seq)) "missing row index entry"
  let episodeSeq ← orStorage (decodeEpisodeFromRowKey key) "corrupt row key"
  return (episodeSeq, key)

def readRow (codec : ReplayCodec) (database : Database)
    (resolved : UInt64 × Bytes) : ReplayResult (UInt64 × ReplayRow) := do
  let bytes ← orStorage (database.get .rows resolved.2) "missing replay row"
  let row ← codec.decodeRow bytes
  return (resolved.1, row)

def multiGetIndex (database : Database) (sequences : List UInt64) :
    ReplayResult (List (UInt64 × Bytes)) :=
  sequences.mapM (resolveRow database)

def multiGetRows (codec : ReplayCodec) (database : Database) (resolved : List (UInt64 × Bytes)) :
    ReplayResult (List (UInt64 × ReplayRow)) :=
  resolved.mapM (readRow codec database)

/-! ## Terminal rows -/

def episodeForRowSequence (database : Database) (seq : UInt64) : ReplayResult UInt64 := do
  let key ← orStorage (database.get .rowIndex (rowIndexKey seq)) "missing row index entry"
  orStorage (decodeEpisodeFromRowKey key) "corrupt row key"

/-- Episodes drawn from `first` on and below `last`. -/
def SampleConfig.drawEpisodes (config : SampleConfig) (first last : UInt64) :
    Option (List UInt64) :=
  drawSequences first (last - first) config.batch.toNat ⟨config.seed⟩

/-- The key of the row after the steps of an episode. -/
def terminalKey (codec : RecordCodec) (database : Database) (seq : UInt64) :
    ReplayResult (UInt64 × Bytes) := do
  let bytes ← orStorage (database.get .episodes (episodeKey seq)) "missing episode record"
  let record ← codec.decodeEpisode bytes
  if record.rowCount.toNat ≠ record.steps.length + 1 then
    throw (.storage "episode has no terminal row")
  if UInt32.size ≤ record.steps.length then
    throw (.storage "terminal step overflow")
  return (seq, rowKey seq (UInt32.ofNat record.steps.length))

def readTerminal (codec : RecordCodec) (database : Database)
    (resolved : UInt64 × Bytes) : ReplayResult (UInt64 × ReplayRow) := do
  let bytes ← orStorage (database.get .rows resolved.2) "missing terminal row"
  let row ← codec.decodeRow bytes
  if row.kind ≠ .terminal then
    throw (.storage "terminal row kind mismatch")
  return (resolved.1, row)

/-- What a sample has drawn: rows of its window, or episodes from `first` on
and below `last`. -/
inductive Picks where
  | rows (sequences : List UInt64)
  | episodes (first last : UInt64) (sequences : List UInt64)

namespace Picks

def sequences : Picks → List UInt64
  | rows sequences | episodes _ _ sequences => sequences

/-- The first of the two multi-gets. -/
def resolve (codec : RecordCodec) (database : Database) :
    Picks → ReplayResult (List (UInt64 × Bytes))
  | rows sequences => multiGetIndex database sequences
  | episodes _ _ sequences => sequences.mapM (terminalKey codec database)

/-- The second of the two multi-gets. -/
def read (codec : RecordCodec) (database : Database) (keys : List (UInt64 × Bytes)) :
    Picks → ReplayResult (List (UInt64 × ReplayRow))
  | rows _ => multiGetRows codec.toReplayCodec database keys
  | episodes .. => keys.mapM (readTerminal codec database)

end Picks

/-! ## Draws end -/

theorem drawSequences_isSome {start size count rng} (pos : 0 < size) :
    (drawSequences start size count rng).isSome := by
  induction count generalizing rng with
  | zero => rfl
  | succ count ih =>
    obtain ⟨⟨offset, next⟩, drawn⟩ :=
      Option.isSome_iff_exists.mp (ReplayRng.nextBounded_isSome pos)
    have restEnds : (drawSequences start size count next).isSome := ih
    obtain ⟨rest, restDrawn⟩ := Option.isSome_iff_exists.mp restEnds
    rw [drawSequences, drawn]
    simp [restDrawn]

/-- A sample of a window with rows draws as many sequences as it was asked
for, all from the window. -/
theorem drawSequences_spec {start size count rng sequences} (pos : 0 < size)
    (fits : start.toNat + size.toNat < UInt64.size)
    (drawn : drawSequences start size count rng = some sequences) :
    sequences.length = count ∧ ∀ seq ∈ sequences, start.toNat ≤ seq.toNat ∧
        seq.toNat < start.toNat + size.toNat := by
  induction count generalizing rng sequences with
  | zero =>
    cases drawn
    simp
  | succ count ih =>
    obtain ⟨⟨offset, next⟩, first, drawn⟩ := Option.bind_eq_some_iff.mp drawn
    obtain ⟨rest, restDrawn, result⟩ := Option.bind_eq_some_iff.mp drawn
    cases result
    have later := ih restDrawn
    have below : offset.toNat < size.toNat := ReplayRng.nextBounded_lt pos first
    have sum : (start + offset).toNat = start.toNat + offset.toNat := by
      rw [UInt64.toNat_add]
      apply Nat.mod_eq_of_lt
      have size : UInt64.size = 2 ^ 64 := rfl
      omega
    refine ⟨by rw [List.length_cons, later.1], ?_⟩
    intro seq member
    rcases List.mem_cons.mp member with same | inRest
    · rw [same, sum]
      omega
    · exact later.2 seq inRest

/-- Drawing a sample ends for every seed, with as many sequences as were asked
for, all of rows that are retained. -/
theorem SampleWindow.exists_draw {window : SampleWindow}
    (ordered : window.floor.toNat ≤ window.produced.toNat) (inhabited : ¬ window.IsEmpty)
    (config : SampleConfig) :
    ∃ sequences, window.draw config = some sequences ∧
      sequences.length = config.batch.toNat ∧
      ∀ seq ∈ sequences, window.floor ≤ seq ∧ seq < window.produced ∧
        window.produced.toNat - config.windowRows.toNat ≤ seq.toNat := by
  have isExact := exact_of_le config ordered
  have pos := isExact.size_pos inhabited
  have starts := isExact.start_eq_max
  have ends : (window.start config).toNat + (window.size config).toNat =
      window.produced.toNat := by
    rw [isExact.start_eq, isExact.size_eq]
    omega
  obtain ⟨sequences, drawn⟩ := Option.isSome_iff_exists.mp
    (drawSequences_isSome pos : (window.draw config).isSome)
  obtain ⟨length, inside⟩ := drawSequences_spec pos
    (ends ▸ window.produced.toNat_lt_size) drawn
  refine ⟨sequences, drawn, length, fun seq member => ?_⟩
  obtain ⟨above, below⟩ := inside seq member
  rw [UInt64.le_iff_toNat_le, UInt64.lt_iff_toNat_lt]
  omega

theorem SampleWindow.exists_draw_of_three : ∃ sequences,
    SampleWindow.draw ⟨1, 3⟩ ⟨4, 2, 7, by decide, by decide⟩ = some sequences ∧
      sequences.length = 4 := by
  obtain ⟨sequences, drawn, length, _⟩ := SampleWindow.exists_draw
    (by decide : (1 : UInt64).toNat ≤ (3 : UInt64).toNat)
    (by decide : ¬ SampleWindow.IsEmpty ⟨1, 3⟩) ⟨4, 2, 7, by decide, by decide⟩
  exact ⟨sequences, drawn, length⟩

end GraphZero.Replay
