import GraphZero.Replay.FailedAppends
import GraphZero.Replay.ValidEpisodes

/-!
# The best terminal cost

The store keeps the lowest cost of the appended episodes as the bits of a
double, and takes the word zero for a store without episodes.  The word zero
is also the pos zero, the cost of a reward of minus zero: once that cost
is the lowest one, the store takes the next cost whatever it is.  Of a pair
only the primary record counts.
-/

namespace GraphZero.Replay

open GraphZero.Features List
open GraphZero.Foundation

/-- An index past the end ends the process; a check that cannot meet one has
the verdict that the caller sees. -/
def verdict : Contents.Checked Unit → ReplayResult Unit
  | .ok () => .ok ()
  | .error (.refused failure) => .error failure
  | .error .indexOutOfBounds => .error (.storage "index out of bounds")

/-- What `contents` reads from the bytes of a record. -/
abbrev RecordContents : Type :=
  ReplayEpisodeRecord → Contents.ReplayEpisodeRecord

namespace RecordContents

variable (contents : RecordContents)

def checkRecord (dataMode : ReplayDataMode) (record : ReplayEpisodeRecord) : ReplayResult Unit :=
  verdict do
    Contents.validateEpisodeEngineIdentity (contents record) (.fromContext (contents record).root)
    Contents.validateAdmission (contents record)
    Contents.validateOutcome (contents record) dataMode

/-- The checks of the store with those of the record. -/
def checks (others : ContentChecks) : ContentChecks :=
  { others with record := contents.checkRecord }

def reward (record : ReplayEpisodeRecord) : F32 :=
  (contents record).outcome.reward

/-- `f64::from(-record.outcome.reward)` -/
def cost (record : ReplayEpisodeRecord) : F64 :=
  F64.ofF32 (contents.reward record).neg

/-- The costs of the store with the comparison of doubles. -/
def arithmetic (others : CostArithmetic) : CostArithmetic :=
  { others with
    cost := fun record => (contents.cost record).bits
    less := fun left right => F64.less ⟨left⟩ ⟨right⟩ }

end RecordContents

def StoreState.bestCost (state : StoreState) : Option F64 :=
  if state.metrics.bestCostBits ≠ 0 then some ⟨state.metrics.bestCostBits⟩
  else none

def appends (codec : ReplayCodec) (checks : ContentChecks)
    (faults : AppendFaults) (state : StoreState) (request : AppendRequest) :
    Bool :=
  faults.read.isNone && (request.stage codec checks state.store).toOption.isSome &&
    faults.write.isNone

/-- The state after the calls, and those that appended their episodes. -/
def appendAll (codec : ReplayCodec) (checks : ContentChecks) (arithmetic : CostArithmetic) :
    StoreState → List (AppendFaults × AppendRequest) → StoreState × List AppendRequest
  | state, [] => (state, [])
  | state, (faults, request) :: rest =>
    let next := (append codec checks arithmetic faults state request).2
    let (last, appended) := appendAll codec checks arithmetic next rest
    if appends codec checks faults state request then
      (last, request :: appended)
    else
      (last, appended)

def allCosts (contents : RecordContents) (requests : List AppendRequest) : Set F64 :=
  {cost | ∃ request ∈ requests, ∃ episode ∈ request.episodes,
    contents.cost episode.record = cost}

/-- The report on a set of costs: nothing on none, else the least one. -/
def ReportsMinimum (best : Option F64) (costs : Set F64) : Prop :=
  match best with
  | none => costs = ∅
  | some least => IsLeast (F64.place '' costs) least.place

/-- Some primary record has the highest reward of all appended episodes, and
this reward is not minus zero. -/
def PrimaryBest (contents : RecordContents) (requests : List AppendRequest) : Prop :=
  ∃ request ∈ requests,
    contents.reward request.primary.record ≠ F32.negativeZero ∧
      ∀ other ∈ requests, ∀ episode ∈ other.episodes,
        (contents.reward episode.record).place ≤ (contents.reward request.primary.record).place

/-! ## One cost after another -/

section Tracking

variable {base : CostArithmetic} {contents : RecordContents}

/-- What the stored word tells of the costs it was updated with. -/
structure Tracks (costs : Set F64) (bits : UInt64) : Prop where
  numbers : ∀ cost ∈ costs, cost.isNan = false
  recorded : bits ≠ 0 → ⟨bits⟩ ∈ costs
  /-- From a cost of at most zero on, other than the positive zero, the word
  is never the one of an empty store. -/
  lowered : ∀ cost ∈ costs, cost.bits ≠ 0 → cost.place ≤ 0 →
    bits ≠ 0 ∧ (F64.mk bits).place ≤ cost.place
  raised : (∀ cost ∈ costs, 0 < cost.place) → costs.Nonempty →
    bits ≠ 0 ∧ ∀ cost ∈ costs, (F64.mk bits).place ≤ cost.place

theorem Tracks.empty : Tracks ∅ 0 where
  numbers := nofun
  recorded := fun unset => absurd rfl unset
  lowered := nofun
  raised := fun _ inhabited => absurd inhabited Set.not_nonempty_empty

variable {cost : F64} {costs : Set F64} {bits : UInt64}

theorem bits_ne_zero_of_place (nonzero : cost.place ≠ 0) : cost.bits ≠ 0 := by
  intro unset
  unfold F64.place at nonzero
  rw [unset] at nonzero
  exact nonzero rfl

section

variable {cost : F64} (tracks : Tracks costs bits) (number : cost.isNan = false)
include tracks number

theorem Tracks.taken (lower : bits = 0 ∨ cost.place < (F64.mk bits).place) :
    Tracks (insert cost costs) cost.bits where
  numbers := Set.forall_mem_insert.mpr ⟨number, tracks.numbers⟩
  recorded := fun _ => Set.mem_insert _ _
  lowered := by
    rw [Set.forall_mem_insert]
    refine ⟨fun signed _ => ⟨signed, le_rfl⟩, ?_⟩
    intro earlier member signed small
    obtain ⟨set, below⟩ := tracks.lowered earlier member signed small
    have strict := lower.resolve_left set
    exact ⟨bits_ne_zero_of_place (by omega), by
      change cost.place ≤ _
      omega⟩
  raised := by
    rw [Set.forall_mem_insert, Set.forall_mem_insert]
    intro ⟨pos, allPositive⟩ _
    refine ⟨bits_ne_zero_of_place pos.ne', le_rfl, ?_⟩
    intro earlier member
    obtain ⟨set, below⟩ := tracks.raised allPositive ⟨earlier, member⟩
    exact (lower.resolve_left set).le.trans (below earlier member)

theorem Tracks.kept (set : bits ≠ 0) (above : (F64.mk bits).place ≤ cost.place) :
    Tracks (insert cost costs) bits where
  numbers := Set.forall_mem_insert.mpr ⟨number, tracks.numbers⟩
  recorded := fun _ => Set.mem_insert_of_mem _ (tracks.recorded set)
  lowered := Set.forall_mem_insert.mpr ⟨fun _ _ => ⟨set, above⟩, tracks.lowered⟩
  raised := by
    rw [Set.forall_mem_insert, Set.forall_mem_insert]
    intro ⟨_, allPositive⟩ _
    have least := tracks.raised allPositive ⟨_, tracks.recorded set⟩
    exact ⟨set, above, least.2⟩

theorem Tracks.next :
    Tracks (insert cost costs) (nextBestCostBits (contents.arithmetic base) bits cost.bits) := by
  unfold nextBestCostBits
  by_cases set : bits = 0
  · rw [if_pos (Or.inl set)]
    exact tracks.taken number (Or.inl set)
  have recorded := tracks.numbers _ (tracks.recorded set)
  have comparison : (contents.arithmetic base).less cost.bits bits = true ↔
      cost.place < (F64.mk bits).place := by
    change F64.less cost ⟨bits⟩ = true ↔ _
    unfold F64.less
    rw [number, recorded]
    exact decide_eq_true_iff
  by_cases lower : cost.place < (F64.mk bits).place
  · rw [if_pos (Or.inr (comparison.mpr lower))]
    exact tracks.taken number (Or.inr lower)
  · rw [if_neg (by rw [comparison]; exact not_or.mpr ⟨set, lower⟩)]
    exact tracks.kept number set (Int.not_lt.mp lower)

end

/-- A tracked word reports the minimum of a larger set of costs exactly if a
cost that it was updated with is least there and is not the positive zero. -/
theorem Tracks.reportsMinimum_iff {costs larger bits} (tracks : Tracks costs bits)
    (subset : costs ⊆ larger) (inhabited : larger.Nonempty) :
    ReportsMinimum (if bits ≠ 0 then some ⟨bits⟩ else none) larger ↔ ∃ cost ∈ costs, cost.bits ≠ 0 ∧
        ∀ other ∈ larger, cost.place ≤ other.place := by
  constructor
  · intro reports
    by_cases set : bits ≠ 0
    · rw [if_pos set] at reports
      refine ⟨⟨bits⟩, tracks.recorded set, set, ?_⟩
      intro other member
      exact reports.2 (Set.mem_image_of_mem _ member)
    · rw [if_neg set] at reports
      exact absurd reports inhabited.ne_empty
  · intro ⟨cost, member, signed, least⟩
    have below : bits ≠ 0 ∧ (F64.mk bits).place ≤ cost.place := by
      by_cases small : cost.place ≤ 0
      · exact tracks.lowered cost member signed small
      have pos : ∀ other ∈ costs, 0 < other.place := by
        intro other otherMember
        have above := least other (subset otherMember)
        omega
      have raised := tracks.raised pos ⟨cost, member⟩
      exact ⟨raised.1, raised.2 cost member⟩
    obtain ⟨set, lower⟩ := below
    have recorded := subset (tracks.recorded set)
    rw [if_pos set]
    refine ⟨Set.mem_image_of_mem _ recorded, ?_⟩
    rintro place ⟨other, otherMember, rfl⟩
    exact lower.trans (least other otherMember)

end Tracking

section Runs

variable {codec : ReplayCodec} {others : ContentChecks}
  {base : CostArithmetic} {contents : RecordContents} {state : StoreState} {request : AppendRequest}

theorem ok_of_verdict {check} (passed : verdict check = .ok ()) : check = .ok () := by
  cases check with
  | ok => rfl
  | error failure =>
    cases failure with
    | refused failure => cases passed
    | indexOutOfBounds => cases passed

variable {record : ReplayEpisodeRecord}

theorem isFinite_of_checkRecord {dataMode}
    (passed : contents.checkRecord dataMode record = .ok ()) :
    (contents.reward record).isFinite = true := by
  obtain ⟨_, _, passed⟩ := ok_of_bind (ok_of_verdict passed)
  obtain ⟨_, _, passed⟩ := ok_of_bind passed
  obtain ⟨_, finite, _⟩ := ok_of_bind passed
  exact (Contents.meets_require _ _).accepted finite

theorem isFinite_of_validateEpisode {dataMode episode}
    (valid : validateEpisode (contents.checks others) dataMode episode = .ok ()) :
    (contents.reward episode.record).isFinite = true := by
  obtain ⟨_, checked, _⟩ := ok_of_bind valid
  exact isFinite_of_checkRecord checked

theorem isFinite_of_stage {staged}
    (done : request.stage codec (contents.checks others) state.store = .ok staged) :
    ∀ episode ∈ request.episodes, (contents.reward episode.record).isFinite = true := by
  cases request with
  | episode only =>
    obtain ⟨_, done⟩ := ok_of_guard done
    obtain ⟨_, _, done⟩ := ok_of_bind done
    obtain ⟨_, valid, _⟩ := ok_of_bind done
    exact forall_mem_singleton.mpr (isFinite_of_validateEpisode valid)
  | pair primary secondary =>
    obtain ⟨_, _, done⟩ := ok_of_bind done
    obtain ⟨_, _, done⟩ := ok_of_bind done
    obtain ⟨_, valid, done⟩ := ok_of_bind done
    obtain ⟨_, otherValid, _⟩ := ok_of_bind done
    exact forall_mem_cons.mpr ⟨isFinite_of_validateEpisode valid,
        forall_mem_singleton.mpr (isFinite_of_validateEpisode otherValid)⟩

theorem primary_mem (request : AppendRequest) : request.primary ∈ request.episodes := by
  cases request with
  | episode only => exact mem_cons_self
  | pair primary secondary => exact mem_cons_self

/-- The costs that the calls update the word with. -/
def primaryCosts (contents : RecordContents) (requests : List AppendRequest) : Set F64 :=
  {cost | ∃ request ∈ requests, contents.cost request.primary.record = cost}

theorem metrics_finishAppend (faults : AppendFaults) (state : StoreState)
    (staged : StagedAppend) (metrics : StoreMetrics) (ids : List UInt64) :
    (finishAppend faults state staged metrics ids).2.metrics =
      if faults.write.isNone then metrics else state.metrics := by
  unfold finishAppend
  cases faults.write with
  | some failure => rfl
  | none =>
    dsimp only
    split <;> rfl

theorem bestCostBits_nextMetrics (arithmetic : CostArithmetic)
    (dataMode : ReplayDataMode) (metrics : StoreMetrics)
    (request : AppendRequest) :
    (request.nextMetrics arithmetic dataMode metrics).bestCostBits =
      nextBestCostBits arithmetic metrics.bestCostBits (arithmetic.cost request.primary.record) :=
  rfl

theorem cost_arithmetic (record : ReplayEpisodeRecord) :
    (contents.arithmetic base).cost record = (contents.cost record).bits :=
  rfl

theorem bestCostBits_append (faults : AppendFaults) :
    (append codec (contents.checks others) (contents.arithmetic base) faults
      state request).2.metrics.bestCostBits =
      if appends codec (contents.checks others) faults state request then
        nextBestCostBits (contents.arithmetic base)
          state.metrics.bestCostBits (contents.cost request.primary.record).bits
      else
        state.metrics.bestCostBits := by
  unfold append appends
  cases faults.read with
  | some failure => exact (if_neg Bool.false_ne_true).symm
  | none =>
    cases request.stage codec (contents.checks others) state.store with
    | error failure => exact (if_neg Bool.false_ne_true).symm
    | ok staged =>
      rw [metrics_finishAppend]
      cases faults.write with
      | some failure => rw [if_neg (by simp), if_neg (by simp)]
      | none =>
        rw [if_pos (by simp), if_pos (by rfl),
          bestCostBits_nextMetrics, cost_arithmetic]

theorem isFinite_of_appends {faults}
    (written : appends codec (contents.checks others) faults state request = true) :
    ∀ episode ∈ request.episodes, (contents.reward episode.record).isFinite = true := by
  unfold appends at written
  cases done : request.stage codec (contents.checks others) state.store with
  | error failure =>
    rw [done] at written
    simp [Except.toOption] at written
  | ok staged => exact isFinite_of_stage done

theorem isNan_cost (finite : (contents.reward record).isFinite = true) :
    (contents.cost record).isNan = false :=
  F64.isNan_ofF32 ((F32.isFinite_neg _).trans finite)

variable {calls : List (AppendFaults × AppendRequest)}

theorem isFinite_of_appendAll : ∀ request ∈ (appendAll codec (contents.checks others)
      (contents.arithmetic base) state calls).2,
      ∀ episode ∈ request.episodes, (contents.reward episode.record).isFinite = true := by
  induction calls generalizing state with
  | nil => exact forall_mem_nil _
  | cons call rest ih =>
    dsimp only [appendAll]
    split
    · rename_i written
      exact forall_mem_cons.mpr ⟨isFinite_of_appends written, ih⟩
    · exact ih

theorem primaryCosts_cons (request : AppendRequest) (requests : List AppendRequest) :
    primaryCosts contents (request :: requests) = insert (contents.cost request.primary.record)
        (primaryCosts contents requests) := by
  ext cost
  unfold primaryCosts
  simp [eq_comm]

theorem Tracks.appendAll {seen} (tracks : Tracks seen state.metrics.bestCostBits) :
    let run := appendAll codec (contents.checks others) (contents.arithmetic base) state calls
    Tracks (seen ∪ primaryCosts contents run.2) run.1.metrics.bestCostBits := by
  induction calls generalizing state seen with
  | nil =>
    have nothing : primaryCosts contents [] = ∅ := by
      ext cost
      unfold primaryCosts
      simp
    dsimp only [Replay.appendAll]
    rwa [nothing, Set.union_empty]
  | cons call rest ih =>
    have updated := @bestCostBits_append codec others base contents state call.2 call.1
    dsimp only [Replay.appendAll]
    split
    · rename_i written
      rw [if_pos written] at updated
      have number := isNan_cost (isFinite_of_appends written _ (primary_mem call.2))
      have next := @Tracks.next base contents _ _ _ tracks number
      rw [← updated] at next
      have later := ih next
      rw [primaryCosts_cons, Set.union_insert, ← Set.insert_union]
      exact later
    · rename_i skipped
      rw [if_neg skipped] at updated
      rw [← updated] at tracks
      exact ih tracks

theorem place_cost_le_iff {other} (finite : (contents.reward record).isFinite = true)
    (otherFinite : (contents.reward other).isFinite = true) :
    (contents.cost record).place ≤ (contents.cost other).place ↔
      (contents.reward other).place ≤ (contents.reward record).place := by
  have strict := F64.place_ofF32_lt_iff ((F32.isFinite_neg _).trans otherFinite)
    ((F32.isFinite_neg _).trans finite)
  rw [F32.place_neg, F32.place_neg] at strict
  unfold RecordContents.cost
  omega

theorem bits_cost_ne_zero_iff (finite : (contents.reward record).isFinite = true) :
    (contents.cost record).bits ≠ 0 ↔ contents.reward record ≠ F32.negativeZero := by
  unfold RecordContents.cost
  rw [ne_eq, F64.bits_ofF32_eq_zero_iff ((F32.isFinite_neg _).trans finite), F32.neg_eq_zero_iff]

theorem allCosts_nil : allCosts contents [] = ∅ := by
  ext cost
  unfold allCosts
  simp

variable {requests : List AppendRequest}

theorem primaryCosts_subset : primaryCosts contents requests ⊆ allCosts contents requests := by
  rintro cost ⟨request, member, same⟩
  exact ⟨request, member, request.primary, primary_mem request, same⟩

theorem primaryBest_iff (finite : ∀ request ∈ requests, ∀ episode ∈ request.episodes,
      (contents.reward episode.record).isFinite = true) :
    (∃ cost ∈ primaryCosts contents requests, cost.bits ≠ 0 ∧
      ∀ other ∈ allCosts contents requests, cost.place ≤ other.place) ↔
        PrimaryBest contents requests := by
  constructor
  · rintro ⟨cost, ⟨request, member, rfl⟩, signed, least⟩
    have primaryFinite := finite request member _ (primary_mem request)
    refine ⟨request, member, (bits_cost_ne_zero_iff primaryFinite).mp signed, ?_⟩
    intro other otherMember episode episodeMember
    exact (place_cost_le_iff primaryFinite (finite other otherMember episode episodeMember)).mp
      (least _ ⟨other, otherMember, episode, episodeMember, rfl⟩)
  · intro ⟨request, member, signed, most⟩
    have primaryFinite := finite request member _ (primary_mem request)
    refine ⟨_, ⟨request, member, rfl⟩, (bits_cost_ne_zero_iff primaryFinite).mpr signed, ?_⟩
    rintro _ ⟨other, otherMember, episode, episodeMember, rfl⟩
    exact (place_cost_le_iff primaryFinite (finite other otherMember episode episodeMember)).mpr
      (most other otherMember episode episodeMember)

end Runs

/-- After any calls on a store without episodes, the best cost is the lowest
one of all appended episodes exactly if none was appended, or some primary
record has the highest reward and this reward is not minus zero. -/
theorem bestCost_isMinimum_iff (codec : ReplayCodec) (others : ContentChecks)
    (contents : RecordContents) (base : CostArithmetic) (state : StoreState)
    (calls : List (AppendFaults × AppendRequest))
    (unset : state.metrics.bestCostBits = 0) :
    let run := appendAll codec (contents.checks others) (contents.arithmetic base) state calls
    ReportsMinimum run.1.bestCost (allCosts contents run.2) ↔
      run.2 = [] ∨ PrimaryBest contents run.2 := by
  have start : Tracks ∅ state.metrics.bestCostBits := by
    rw [unset]
    exact .empty
  have tracks := @Tracks.appendAll codec others base contents state calls _ start
  have finite := @isFinite_of_appendAll codec others base contents state calls
  dsimp only at tracks ⊢
  rw [Set.empty_union] at tracks
  generalize appendAll codec (contents.checks others)
    (contents.arithmetic base) state calls = run at tracks finite ⊢
  obtain ⟨last, requests⟩ := run
  unfold StoreState.bestCost
  by_cases nothing : requests = []
  · refine iff_of_true ?_ (Or.inl nothing)
    have unrecorded : last.metrics.bestCostBits = 0 := by
      by_contra set
      obtain ⟨request, member, _⟩ := tracks.recorded set
      rw [nothing] at member
      cases member
    rw [if_neg (not_not.mpr unrecorded), nothing]
    exact allCosts_nil
  · obtain ⟨request, member⟩ := exists_mem_of_ne_nil _ nothing
    have inhabited : (allCosts contents requests).Nonempty :=
      ⟨_, primaryCosts_subset ⟨request, member, rfl⟩⟩
    rw [tracks.reportsMinimum_iff primaryCosts_subset inhabited, or_iff_right nothing]
    exact primaryBest_iff finite

namespace Sample

def rewarded (reward : F32) : RecordContents := fun _ =>
  { Contents.Sample.record with
    finalMeasure :=
      { Contents.Sample.record.finalMeasure with scalarReward := some reward }
    outcome := { Contents.Sample.record.outcome with reward } }

/-- One append of the sample episode to a new store. -/
def appendOnce (reward : F32) : StoreState × List AppendRequest :=
  appendAll codec ((rewarded reward).checks checks)
    ((rewarded reward).arithmetic arithmetic) (newState 8)
    [(undisturbed, .episode episode)]

end Sample

/-- A reward of one is a best cost of minus one. -/
theorem bestCost_isMinimum_sample : ReportsMinimum (Sample.appendOnce F32.one).1.bestCost
      (allCosts (Sample.rewarded F32.one) (Sample.appendOnce F32.one).2) := by
  apply (bestCost_isMinimum_iff Sample.codec Sample.checks
    (Sample.rewarded F32.one) Sample.arithmetic (Sample.newState 8)
    [(Sample.undisturbed, .episode Sample.episode)] rfl).mpr
  right
  change PrimaryBest _ (Sample.appendOnce F32.one).2
  have appended : (Sample.appendOnce F32.one).2 = [.episode Sample.episode] := by decide +kernel
  rw [appended]
  exact ⟨_, mem_cons_self, by decide, fun _ _ _ _ => le_rfl⟩

/-- An episode with a reward of minus zero is appended and there is no best
cost. -/
theorem bestCost_misses_zero : (Sample.newState 8).metrics.bestCostBits = 0 ∧
      (Sample.appendOnce F32.negativeZero).2 = [.episode Sample.episode] ∧
      (Sample.appendOnce F32.negativeZero).1.bestCost = none ∧
      ¬ ReportsMinimum (Sample.appendOnce F32.negativeZero).1.bestCost
        (allCosts (Sample.rewarded F32.negativeZero) (Sample.appendOnce F32.negativeZero).2) := by
  have appended : (Sample.appendOnce F32.negativeZero).2 =
      [.episode Sample.episode] := by decide +kernel
  have missing : (Sample.appendOnce F32.negativeZero).1.bestCost = none := by
    decide +kernel
  refine ⟨rfl, appended, missing, ?_⟩
  rw [missing, appended]
  intro empty
  have member : (Sample.rewarded F32.negativeZero).cost Sample.episode.record ∈
      allCosts (Sample.rewarded F32.negativeZero) [.episode Sample.episode] :=
    ⟨_, mem_cons_self, _, mem_cons_self, rfl⟩
  rw [show allCosts _ _ = ∅ from empty] at member
  exact member

end GraphZero.Replay
