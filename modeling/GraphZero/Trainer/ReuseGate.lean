import GraphZero.Foundation.Binary32
import GraphZero.Foundation.Transition

/-!
# The reuse gate

The trainer waits until the store has produced enough rows for the policy batch
of a step; the prefetcher, which samples ahead of it, waits for itself, and for
the rows of the value batch too.  The rows that are needed come from a division
of doubles, so the limit is kept up to its rounding.
-/

namespace GraphZero.Trainer

open Foundation List

/-- What the gates read of a trainer configuration. -/
structure TrainerConfig where
  batch : Nat
  valueBatch : Nat
  maxReuse : ℚ
  maxReuse_finite : maxReuse < 2 ^ 1024
  reuseGateInterval : Nat
  reuseGateInterval_pos : 0 < reuseGateInterval
  reuseGateEpisodes : Nat
  totalSteps : Nat
  prefetch : Bool

structure SampleAck where
  producedRows : Nat
  episodes : Nat

/-- The rows of the steps that are admitted together, up to the one that admits
`step`. -/
def blockRows (step batch gateInterval : Nat) : Nat :=
  (step / gateInterval + 1) * gateInterval * batch

/-- `none` is an `OverflowError`: the rows or the quotient are no double. -/
def requiredProducedRows (step batch : Nat) (maxReuse : ℚ) (gateInterval : Nat) : Option Nat :=
  if maxReuse ≤ 0 then some 0
  else
    let rows := float64 (blockRows step batch gateInterval)
    let quotient := float64 (rows / maxReuse)
    if 2 ^ 1024 ≤ rows ∨ 2 ^ 1024 ≤ quotient then none
    else some ⌈quotient⌉₊

def requiredEpisodes (step gateInterval episodesPerGate : Nat) : Nat :=
  (step / gateInterval + 1) * episodesPerGate

/-- The driver and the prefetcher between two of their moves.  `acknowledged` is
the most rows that an answer of the store has spoken of. -/
structure TrainerRun where
  step : Nat
  producedFloor : Nat
  episodesFloor : Nat
  prefetchStep : Nat
  queue : List Nat
  acknowledged : Nat
  deriving DecidableEq

inductive TrainerMove
  | waitForReuseGate (ack : SampleAck)
  | prefetch (ack : SampleAck)
  | refresh (ack : SampleAck)
  | train

/-- The rows that a batch of the step needs have been produced. -/
def TrainerConfig.Enough (config : TrainerConfig) (step batch produced : Nat) : Prop :=
  (requiredProducedRows step batch config.maxReuse config.reuseGateInterval).any (· ≤ produced)

instance (config : TrainerConfig) (step batch produced : Nat) :
    Decidable (config.Enough step batch produced) := inferInstanceAs (Decidable (_ = true))

namespace TrainerRun

variable (config : TrainerConfig) (run : TrainerRun)

def start (step : Nat) : TrainerRun := ⟨step, 0, 0, step, [], 0⟩

/-- The driver's gate asks for the policy rows alone. -/
def GateOpen : Prop :=
  config.Enough run.step config.batch run.producedFloor ∧
    requiredEpisodes run.step config.reuseGateInterval config.reuseGateEpisodes ≤ run.episodesFloor

instance : Decidable (run.GateOpen config) := inferInstanceAs (Decidable (_ ∧ _))

/-- The prefetcher asks for the rows of either batch. -/
def PrefetchOpen (ack : SampleAck) : Prop :=
  (config.Enough run.prefetchStep config.batch ack.producedRows ∧
      config.Enough run.prefetchStep config.valueBatch ack.producedRows) ∧
    requiredEpisodes run.prefetchStep config.reuseGateInterval config.reuseGateEpisodes ≤
      ack.episodes

instance (ack : SampleAck) : Decidable (run.PrefetchOpen config ack) :=
  inferInstanceAs (Decidable (_ ∧ _))

def heard (ack : SampleAck) : TrainerRun :=
  { run with acknowledged := max run.acknowledged ack.producedRows }

/-- One move.  The prefetcher holds at most one sample beside the two in its
queue, and every other request to the store may be answered at any time. -/
def next : TrainerMove → Option TrainerRun
  | .waitForReuseGate ack =>
    if run.GateOpen config then none
    else some { run.heard ack with
      producedFloor := ack.producedRows, episodesFloor := ack.episodes }
  | .prefetch ack =>
    if config.prefetch ∧ run.prefetchStep < config.totalSteps ∧ run.queue.length < 3 then
      if run.PrefetchOpen config ack then
        some { run.heard ack with
          queue := run.queue ++ [run.prefetchStep], prefetchStep := run.prefetchStep + 1 }
      else some (run.heard ack)
    else none
  | .refresh ack => some (run.heard ack)
  | .train =>
    if run.step < config.totalSteps ∧ run.GateOpen config then
      if config.prefetch then
        match run.queue with
        | [] => none
        | _ :: rest => some { run with step := run.step + 1, queue := rest }
      else some { run with step := run.step + 1 }
    else none

end TrainerRun

def trainerSystem (config : TrainerConfig) : TransitionSystem TrainerRun TrainerMove where
  initial run := ∃ step, run = .start step
  step run move target := run.next config move = some target

variable {config : TrainerConfig} {run target : TrainerRun} {move : TrainerMove}

section Division

variable {step batch produced more : Nat}

theorem TrainerConfig.Enough.mono (enough : config.Enough step batch produced)
    (grows : produced ≤ more) : config.Enough step batch more := by
  obtain ⟨needed, found, least⟩ := (Option.any_eq_true _ _).mp enough
  exact (Option.any_eq_true _ _).mpr
    ⟨needed, found, decide_eq_true ((of_decide_eq_true least).trans grows)⟩

theorem ceil_le_of_enough (limited : 0 < config.maxReuse)
    (enough : config.Enough step batch produced) :
    ⌈float64 (float64 (blockRows step batch config.reuseGateInterval) / config.maxReuse)⌉₊ ≤
      produced := by
  obtain ⟨needed, found, least⟩ := (Option.any_eq_true _ _).mp enough
  rw [requiredProducedRows, if_neg (not_le.mpr limited)] at found
  obtain ⟨_, same⟩ := Option.ite_none_left_eq_some.mp found
  exact (Option.some.inj same).trans_le (of_decide_eq_true least)

theorem le_blockRows (step batch : Nat) {gateInterval} (interval : 0 < gateInterval) :
    (step + 1) * batch ≤ blockRows step batch gateInterval :=
  Nat.mul_le_mul_right batch (Nat.lt_mul_of_div_lt (Nat.lt_succ_self _) interval)

/-- Two roundings take at most a `2 ^ -53`th each off the rows. -/
theorem rows_le_of_enough (limited : 0 < config.maxReuse)
    (enough : config.Enough step batch produced) :
    ((step + 1) * batch : ℚ) * (1 - 1 / 2 ^ 53) ^ 2 ≤ config.maxReuse * produced := by
  have ceil := Nat.ceil_le.mp (ceil_le_of_enough limited enough)
  have block : ((step + 1) * batch : ℚ) ≤ blockRows step batch config.reuseGateInterval := by
    exact_mod_cast le_blockRows step batch config.reuseGateInterval_pos
  generalize blockRows step batch config.reuseGateInterval = rows at ceil block
  refine (mul_le_mul_of_nonneg_right block (by positivity)).trans ?_
  rcases Nat.eq_zero_or_pos rows with rfl | some
  · rw [Nat.cast_zero, zero_mul]
    positivity
  have one : (1 : ℚ) ≤ rows := by exact_mod_cast some
  have first := le_float64 one
  by_cases large : 1 ≤ float64 rows / config.maxReuse
  · have second := (le_float64 large).trans ceil
    calc (rows : ℚ) * (1 - 1 / 2 ^ 53) ^ 2
        = rows * (1 - 1 / 2 ^ 53) * (1 - 1 / 2 ^ 53) := by ring
      _ ≤ float64 rows * (1 - 1 / 2 ^ 53) := by gcongr
      _ = config.maxReuse * (float64 rows / config.maxReuse * (1 - 1 / 2 ^ 53)) := by
          field_simp
      _ ≤ config.maxReuse * produced := by gcongr
  · -- A quotient below one is rounded to something, so one row is needed.
    have small := (div_lt_one limited).mp (not_le.mp large)
    have tiny : (1 : ℚ) / 2 ^ 1074 ≤ float64 rows / config.maxReuse := by
      rw [div_le_div_iff₀ (by positivity) limited, one_mul]
      have half : (1 : ℚ) / 2 ≤ float64 rows := by linarith
      have double : (2 : ℚ) ^ 1024 * 2 ≤ 2 ^ 1074 :=
        (pow_succ (2 : ℚ) 1024).symm.trans_le (pow_le_pow_right₀ one_le_two (by omega))
      calc config.maxReuse ≤ 2 ^ 1024 := config.maxReuse_finite.le
        _ ≤ 1 / 2 * 2 ^ 1074 := by
          rw [one_div_mul_eq_div, le_div_iff₀ two_pos]
          exact double
        _ ≤ float64 rows * 2 ^ 1074 := by gcongr
    have needed : (1 : ℚ) ≤ produced := by
      exact_mod_cast Nat.cast_pos.mp ((float64_pos tiny).trans_le ceil)
    nlinarith

/-- Rounding does not take the quotient to a whole number below it. -/
def TrainerConfig.KeepsCeiling (config : TrainerConfig) (step batch : Nat) : Prop :=
  let rows : ℚ := blockRows step batch config.reuseGateInterval
  ⌈rows / config.maxReuse⌉₊ ≤ ⌈float64 (float64 rows / config.maxReuse)⌉₊

theorem exact_rows_le_of_enough (limited : 0 < config.maxReuse)
    (enough : config.Enough step batch produced) (keeps : config.KeepsCeiling step batch) :
    ((step + 1) * batch : ℚ) ≤ config.maxReuse * produced := by
  have covered := Nat.ceil_le.mp (keeps.trans (ceil_le_of_enough limited enough))
  rw [div_le_iff₀' limited] at covered
  refine le_trans ?_ covered
  exact_mod_cast le_blockRows step batch config.reuseGateInterval_pos

end Division

/-- The floors are what the store answered, and each sample in the queue is for
the step it will be trained in, its rows acknowledged. -/
structure WithinReuse (config : TrainerConfig) (run : TrainerRun) : Prop where
  floor : run.producedFloor ≤ run.acknowledged
  queue : config.prefetch → run.queue = List.range' run.step run.queue.length
  ahead : config.prefetch → run.prefetchStep = run.step + run.queue.length
  rows : ∀ step ∈ run.queue, config.Enough step config.valueBatch run.acknowledged

theorem WithinReuse.heard (within : WithinReuse config run) (ack : SampleAck) :
    WithinReuse config (run.heard ack) where
  floor := within.floor.trans (le_max_left _ _)
  queue := within.queue
  ahead := within.ahead
  rows step member := (within.rows step member).mono (le_max_left _ _)

theorem WithinReuse.next (within : WithinReuse config run)
    (moved : run.next config move = some target) : WithinReuse config target := by
  cases move with
  | waitForReuseGate ack =>
    obtain ⟨_, same⟩ := Option.ite_none_left_eq_some.mp moved
    cases same
    exact { within.heard ack with floor := le_max_right _ _ }
  | prefetch ack =>
    obtain ⟨⟨prefetches, _⟩, moved⟩ := Option.ite_none_right_eq_some.mp moved
    split at moved
    · next sampled =>
      cases moved
      have here := within.ahead prefetches
      refine { within.heard ack with queue := ?_, ahead := ?_, rows := ?_ }
      · intro _
        simp only [TrainerRun.heard, length_append, length_singleton]
        rw [range'_concat, ← within.queue prefetches, here, Nat.one_mul]
      · intro _
        simp only [TrainerRun.heard, length_append, length_singleton, here]
        omega
      · intro step member
        rcases mem_append.mp member with old | new
        · exact (within.heard ack).rows step old
        · cases mem_singleton.mp new
          exact sampled.1.2.mono (le_max_right _ _)
    · cases moved
      exact within.heard _
  | refresh ack =>
    cases moved
    exact within.heard _
  | train =>
    obtain ⟨_, moved⟩ := Option.ite_none_right_eq_some.mp moved
    split at moved
    · next prefetches =>
      cases samples : run.queue with
      | nil =>
        rw [samples] at moved
        cases moved
      | cons first rest =>
        rw [samples] at moved
        cases moved
        have order := within.queue prefetches
        have ahead := within.ahead prefetches
        rw [samples, length_cons] at order ahead
        refine ⟨within.floor, fun _ => (List.cons.inj order).2, fun _ => ?_, ?_⟩
        · simp only [ahead]
          omega
        · intro step member
          exact within.rows step (samples ▸ mem_cons_of_mem _ member)
    · next alone =>
      cases moved
      exact ⟨within.floor, (absurd · alone), (absurd · alone), within.rows⟩

theorem withinReuse_of_reachable (reached : (trainerSystem config).Reachable run) :
    WithinReuse config run := by
  refine reached.invariant ?_ fun _ _ _ within moved => within.next moved
  rintro _ ⟨step, rfl⟩
  exact ⟨le_rfl, fun _ => rfl, fun _ => rfl, fun _ member => by cases member⟩

theorem WithinReuse.trained (within : WithinReuse config run)
    (trained : run.next config .train = some target) :
    config.Enough run.step config.batch run.acknowledged ∧
      (config.prefetch → config.Enough run.step config.valueBatch run.acknowledged) := by
  obtain ⟨⟨_, gateOpen⟩, moved⟩ := Option.ite_none_right_eq_some.mp trained
  refine ⟨gateOpen.1.mono within.floor, fun prefetches => within.rows run.step ?_⟩
  rw [if_pos prefetches] at moved
  cases samples : run.queue with
  | nil =>
    rw [samples] at moved
    cases moved
  | cons first rest =>
    have order := within.queue prefetches
    rw [samples, length_cons] at order
    rw [(List.cons.inj order).1]
    exact mem_cons_self

/-- Of the rows consumed through the next step, `part` is within the limit: of
the policy rows, and of the value rows if they are prefetched or no more. -/
def ConsumedWithin (config : TrainerConfig) (run : TrainerRun) (part : ℚ) : Prop :=
  ((run.step + 1) * config.batch : ℚ) * part ≤ config.maxReuse * run.acknowledged ∧
    (config.prefetch ∨ config.valueBatch ≤ config.batch →
      ((run.step + 1) * config.valueBatch : ℚ) * part ≤ config.maxReuse * run.acknowledged)

/-- Under a limit, what is trained on is within it up to the rounding of the
gates' division, and exactly where that keeps the ceiling of the quotient. -/
theorem trained_within_reuse (limited : 0 < config.maxReuse)
    (reached : (trainerSystem config).Reachable run)
    (trained : (trainerSystem config).step run .train target) :
    ConsumedWithin config run ((1 - 1 / 2 ^ 53) ^ 2) ∧
      (config.KeepsCeiling run.step config.batch →
        (config.prefetch → config.KeepsCeiling run.step config.valueBatch) →
        ConsumedWithin config run 1) := by
  obtain ⟨policy, value⟩ := (withinReuse_of_reachable reached).trained trained
  have fewer {part : ℚ} (nonneg : 0 ≤ part) (few : config.valueBatch ≤ config.batch)
      (within : ((run.step + 1) * config.batch : ℚ) * part ≤ config.maxReuse * run.acknowledged) :
      ((run.step + 1) * config.valueBatch : ℚ) * part ≤ config.maxReuse * run.acknowledged := by
    refine le_trans ?_ within
    gcongr
  have rounded := rows_le_of_enough limited policy
  refine ⟨⟨rounded, ?_⟩, fun keeps keepsValue => ?_⟩
  · rintro (prefetches | few)
    · exact rows_le_of_enough limited (value prefetches)
    · exact fewer (by positivity) few rounded
  · have exact' := exact_rows_le_of_enough limited policy keeps
    refine ⟨(mul_one _).trans_le exact', ?_⟩
    rintro (prefetches | few)
    · exact (mul_one _).trans_le
        (exact_rows_le_of_enough limited (value prefetches) (keepsValue prefetches))
    · exact fewer zero_le_one few ((mul_one _).trans_le exact')

namespace Sample

def limited : TrainerConfig := ⟨4, 8, 2, by decide +kernel, 1, Nat.one_pos, 0, 9, true⟩
def unlimited : TrainerConfig := ⟨1, 0, 0, by decide +kernel, 1, Nat.one_pos, 0, 1, false⟩
def valued : TrainerConfig := ⟨1, 8, 1, by decide +kernel, 1, Nat.one_pos, 0, 1, false⟩

/-- The limit is the double `0.7`. -/
def rounded : TrainerConfig :=
  ⟨7, 0, 3152519739159347 / 2 ^ 52, by decide +kernel, 1, Nat.one_pos, 0, 1, false⟩

end Sample

theorem trained_within_reuse_prefetched :
    (((0 : Nat) + 1) * (8 : Nat) : ℚ) * 1 ≤ 2 * (5 : Nat) := by
  have gated : [.prefetch ⟨5, 0⟩, .waitForReuseGate ⟨5, 0⟩].foldlM
      (TrainerRun.next Sample.limited) (.start 0) = some ⟨0, 5, 0, 1, [0], 5⟩ := by decide +kernel
  have trained : TrainerRun.next Sample.limited ⟨0, 5, 0, 1, [0], 5⟩ .train =
      some ⟨1, 5, 0, 1, [], 5⟩ := by decide +kernel
  have within := trained_within_reuse (by decide +kernel : 0 < Sample.limited.maxReuse)
    ⟨.start 0, ⟨0, rfl⟩, _, .of_foldlM id gated⟩ trained
  exact (within.2 (by unfold TrainerConfig.KeepsCeiling; decide +kernel)
    fun _ => by unfold TrainerConfig.KeepsCeiling; decide +kernel).2 (.inl rfl)

/-- A run trains on more rows than the limit admits. -/
def Exceeds (config : TrainerConfig) : Prop :=
  ∃ run target, (trainerSystem config).Reachable run ∧
    (trainerSystem config).step run .train target ∧
    config.maxReuse * run.acknowledged < (run.step + 1) * max config.batch config.valueBatch

/-- A limit of zero turns the gates off, without the prefetcher no gate counts
the value rows, and 7 / 0.7 is rounded to 10. -/
theorem trained_beyond_reuse :
    Exceeds Sample.unlimited ∧ Exceeds Sample.valued ∧ Exceeds Sample.rounded := by
  have valued : [.waitForReuseGate ⟨1, 0⟩].foldlM (TrainerRun.next Sample.valued) (.start 0) =
      some ⟨0, 1, 0, 0, [], 1⟩ := by decide +kernel
  have rounded : [.waitForReuseGate ⟨10, 0⟩].foldlM (TrainerRun.next Sample.rounded) (.start 0) =
      some ⟨0, 10, 0, 0, [], 10⟩ := by decide +kernel
  refine ⟨⟨.start 0, ⟨1, 0, 0, 0, [], 0⟩, ⟨_, ⟨0, rfl⟩, .refl _⟩, ?_, by decide +kernel⟩,
    ⟨⟨0, 1, 0, 0, [], 1⟩, ⟨1, 1, 0, 0, [], 1⟩, ⟨.start 0, ⟨0, rfl⟩, _, .of_foldlM id valued⟩,
      ?_, by decide +kernel⟩,
    ⟨⟨0, 10, 0, 0, [], 10⟩, ⟨1, 10, 0, 0, [], 10⟩,
      ⟨.start 0, ⟨0, rfl⟩, _, .of_foldlM id rounded⟩, ?_, by decide +kernel⟩⟩
  · change TrainerRun.next _ _ _ = _
    decide +kernel
  · change TrainerRun.next _ _ _ = _
    decide +kernel
  · change TrainerRun.next _ _ _ = _
    decide +kernel

end GraphZero.Trainer
