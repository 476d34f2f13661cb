import GraphZero.Engine.Refs
import GraphZero.Replay.Records
import Mathlib.Algebra.Order.Field.Basic
import Mathlib.Tactic.Linarith

/-!
# Targets of a symmetric game

Two measured episodes become rows with value targets.  The outcome is one
number, seen from the first player; each player's rows carry it with that
player's sign, and lead back from it to the values that the searches found.
Numbers are exact here, and the hyperbolic tangent is any odd increasing map
into the unit range.
-/

namespace GraphZero.Measurer

open Engine Foundation List
open GraphZero.Replay (Bytes ReplayRowKind)

/-- What a floating point number stands for. -/
inductive Number (K : Type) where
  | finite (value : K)
  | notFinite

structure CompletedEpisodeStep (K : Type) where
  before : ReplayGraphContext
  after : ReplayGraphContext
  selectedAction : PortableSearchActionRef
  legalActions : List PortableSearchActionRef
  policyTarget : List (Number K)
  rootSearchValue : Option (Number K)
  modelVersion : Option ModelVersion

structure CompletedEpisodeArtifact (K : Type) where
  root : ReplayGraphContext
  finalGraph : ReplayGraphContext
  finalMeasure : MeasureSummary (Number K)
  stopSelected : Bool
  searchConfigHash : SearchConfigHash
  steps : List (CompletedEpisodeStep K)
  featureRows : Option (List Bytes)
  terminalFeatureRow : Option Bytes

inductive MeasurerError where
  | unmeasured
  | featureRowCountMismatch
  | stepCountOverflow
  | invalidRootSearchValue
  deriving DecidableEq

structure ReplayOutcome (K : Type) where
  valueTarget : Option K
  reward : K
  stopped : Bool

structure ReplayEpisodeRecord (K : Type) where
  root : ReplayGraphContext
  finalGraph : ReplayGraphContext
  steps : List SearchStepRef
  finalMeasure : MeasureSummary (Number K)
  outcome : ReplayOutcome K
  searchConfigHash : SearchConfigHash
  rowCount : UInt32

structure ReplayRow (K : Type) where
  kind : ReplayRowKind
  stepIndex : UInt32
  root : ReplayGraphContext
  state : ReplayGraphContext
  actionHistory : List PortableSearchActionRef
  legalActions : List PortableSearchActionRef
  policyTarget : List (Number K)
  selectedAction : Option PortableSearchActionRef
  valueTarget : Option K
  horizonValueTargets : Option (K × K)
  rewardTarget : Option K
  finalMeasure : MeasureSummary (Number K)
  modelVersion : Option ModelVersion
  searchConfigHash : SearchConfigHash
  featureRow : Option Bytes

abbrev ProjectedEpisode (K : Type) : Type := ReplayEpisodeRecord K × List (ReplayRow K)

variable {K : Type}

/-! ## Rows of an episode -/

section Projection

def episodeReward (artifact : CompletedEpisodeArtifact K) : Option K :=
  if !artifact.finalMeasure.measured || !artifact.finalMeasure.valid then none
  else
    match artifact.finalMeasure.scalarReward with
    | some (.finite reward) => some reward
    | _ => none

variable (artifact : CompletedEpisodeArtifact K) (reward : K)

def projectStep (index : Nat) (actionHistory : List PortableSearchActionRef)
    (step : CompletedEpisodeStep K) : Except MeasurerError (SearchStepRef × ReplayRow K) := do
  if 2 ^ 32 ≤ index then throw .stepCountOverflow
  let stepRef ← (SearchStepRef.new step.before step.selectedAction step.after).mapError
    fun _ => .stepCountOverflow
  return (stepRef, {
    kind := .decision
    stepIndex := UInt32.ofNat index
    root := artifact.root
    state := step.before
    actionHistory
    legalActions := step.legalActions
    policyTarget := step.policyTarget
    selectedAction := some step.selectedAction
    valueTarget := none
    horizonValueTargets := none
    rewardTarget := some reward
    finalMeasure := artifact.finalMeasure
    modelVersion := step.modelVersion
    searchConfigHash := artifact.searchConfigHash
    featureRow := artifact.featureRows.bind (·[index]?) })

/-- The rows of the steps from `index` on, and all actions in the end. -/
def projectSteps : Nat → List PortableSearchActionRef → List (CompletedEpisodeStep K) →
    Except MeasurerError (List SearchStepRef × List (ReplayRow K) × List PortableSearchActionRef)
  | _, actionHistory, [] => .ok ([], [], actionHistory)
  | index, actionHistory, step :: rest => do
      let (stepRef, row) ← projectStep artifact reward index actionHistory step
      let (steps, rows, actions) ←
        projectSteps (index + 1) (actionHistory ++ [step.selectedAction]) rest
      return (stepRef :: steps, row :: rows, actions)

def projectTerminal (actionHistory : List PortableSearchActionRef) :
    Except MeasurerError (List (ReplayRow K)) :=
  match artifact.terminalFeatureRow with
  | none => .ok []
  | some featureRow =>
    if 2 ^ 32 ≤ artifact.steps.length then .error .stepCountOverflow
    else .ok [{
      kind := .terminal
      stepIndex := UInt32.ofNat artifact.steps.length
      root := artifact.root
      state := artifact.finalGraph
      actionHistory
      legalActions := []
      policyTarget := []
      selectedAction := none
      valueTarget := none
      horizonValueTargets := none
      rewardTarget := some reward
      finalMeasure := artifact.finalMeasure
      modelVersion := artifact.steps.getLast?.bind (·.modelVersion)
      searchConfigHash := artifact.searchConfigHash
      featureRow := some featureRow }]

def projectEpisode : Except MeasurerError (ProjectedEpisode K) := do
  let some reward := episodeReward artifact | throw .unmeasured
  if artifact.featureRows.any (·.length ≠ artifact.steps.length) then
    throw .featureRowCountMismatch
  let (steps, decisions, actionHistory) ← projectSteps artifact reward 0 [] artifact.steps
  let terminal ← projectTerminal artifact reward actionHistory
  return ({
    root := artifact.root
    finalGraph := artifact.finalGraph
    steps
    finalMeasure := artifact.finalMeasure
    outcome := ⟨none, reward, artifact.stopSelected⟩
    searchConfigHash := artifact.searchConfigHash
    rowCount := UInt32.ofNat (decisions ++ terminal).length }, decisions ++ terminal)

/-- A decision for every step, and a terminal row where there are features. -/
def rowKinds : List ReplayRowKind :=
  List.replicate artifact.steps.length .decision ++
    (artifact.terminalFeatureRow.map fun _ => ReplayRowKind.terminal).toList

variable {artifact reward}

theorem kinds_of_projectSteps {index history steps refs rows actions}
    (projected : projectSteps artifact reward index history steps = .ok (refs, rows, actions)) :
    rows.map (·.kind) = List.replicate steps.length .decision := by
  induction steps generalizing index history refs rows actions with
  | nil =>
    cases projected
    rfl
  | cons step rest ih =>
    obtain ⟨⟨ref, row⟩, here, projected⟩ := ok_of_bind projected
    obtain ⟨⟨later, others, final⟩, there, projected⟩ := ok_of_bind projected
    cases projected
    have kind : row.kind = .decision := by
      obtain ⟨_, here⟩ := throw_bind_else_eq_ok_iff.mp here
      obtain ⟨_, _, here⟩ := ok_of_bind here
      cases here
      rfl
    rw [map_cons, kind, ih there, length_cons, replicate_succ]

theorem kinds_of_projectTerminal {history rows}
    (projected : projectTerminal artifact reward history = .ok rows) :
    rows.map (·.kind) =
      (artifact.terminalFeatureRow.map fun _ => ReplayRowKind.terminal).toList := by
  unfold projectTerminal at projected
  cases features : artifact.terminalFeatureRow with
  | none =>
    rw [features] at projected
    cases projected
    rfl
  | some featureRow =>
    rw [features] at projected
    dsimp only at projected
    split at projected
    · cases projected
    · cases projected
      rfl

theorem kinds_of_projectEpisode {projected} (done : projectEpisode artifact = .ok projected) :
    projected.2.map (·.kind) = rowKinds artifact := by
  unfold projectEpisode at done
  cases rewarded : episodeReward artifact with
  | none =>
    rw [rewarded] at done
    cases done
  | some reward =>
    rw [rewarded] at done
    obtain ⟨_, done⟩ := throw_bind_else_eq_ok_iff.mp done
    obtain ⟨⟨steps, decisions, history⟩, decided, done⟩ := ok_of_bind done
    obtain ⟨terminal, ended, done⟩ := ok_of_bind done
    cases done
    rw [map_append, kinds_of_projectSteps decided, kinds_of_projectTerminal ended, rowKinds]

end Projection

section Outcome

variable [Field K] [LinearOrder K]

structure SymmetricRewardTieEpsilon (K : Type) [Field K] [LinearOrder K] where
  get : K
  nonneg : 0 ≤ get

structure SymmetricRewardTargetScale (K : Type) [Field K] [LinearOrder K] where
  get : K
  nonneg : 0 ≤ get

def SymmetricRewardTargetScale.isGraded (scale : SymmetricRewardTargetScale K) : Prop :=
  0 < scale.get

instance (scale : SymmetricRewardTargetScale K) : Decidable scale.isGraded :=
  inferInstanceAs (Decidable (0 < scale.get))

/-- What is used of the hyperbolic tangent. -/
structure Tanh (K : Type) [Field K] [LinearOrder K] where
  toFun : K → K
  odd : ∀ x, toFun (-x) = -toFun x
  increasing : Monotone toFun
  unit : ∀ x, toFun x ∈ Set.Icc (-1) 1

def symmetricRewriteCount (artifact : CompletedEpisodeArtifact K) : Nat :=
  (artifact.steps.filter fun step => !step.selectedAction.isStop).length

variable (tanh : Tanh K) (epsilon : SymmetricRewardTieEpsilon K)
  (scale : SymmetricRewardTargetScale K)

def symmetricOutcomeTarget (p1Reward p2Reward : K) (p1Len p2Len : Nat) : K :=
  let rewardDelta := p1Reward - p2Reward
  if scale.isGraded then tanh.toFun (rewardDelta / scale.get)
  else if epsilon.get < rewardDelta then 1
  else if rewardDelta < -epsilon.get then -1
  else if p1Len < p2Len then 1
  else if p2Len < p1Len then -1
  else 0

variable {tanh epsilon scale} [IsStrictOrderedRing K] {r₁ r₂ : K} {n₁ n₂ : Nat}

theorem outcomeTarget_unit : symmetricOutcomeTarget tanh epsilon scale r₁ r₂ n₁ n₂ ∈
    Set.Icc (-1 : K) 1 := by
  have low : (-1 : K) ≤ 0 := neg_nonpos.mpr zero_le_one
  have sides : (-1 : K) ≤ 1 := low.trans zero_le_one
  unfold symmetricOutcomeTarget
  dsimp only
  split
  · exact tanh.unit _
  split_ifs
  · exact ⟨sides, le_rfl⟩
  · exact ⟨le_rfl, sides⟩
  · exact ⟨sides, le_rfl⟩
  · exact ⟨le_rfl, sides⟩
  · exact ⟨low, zero_le_one⟩

theorem outcomeTarget_swap : symmetricOutcomeTarget tanh epsilon scale r₂ r₁ n₂ n₁ =
    -symmetricOutcomeTarget tanh epsilon scale r₁ r₂ n₁ n₂ := by
  have nonneg := epsilon.nonneg
  unfold symmetricOutcomeTarget
  by_cases graded : scale.isGraded
  · rw [if_pos graded, if_pos graded, ← tanh.odd, ← neg_sub r₁ r₂, neg_div]
  · rw [if_neg graded, if_neg graded]
    split_ifs <;> linarith

theorem outcomeTarget_mono {r₁'} (more : r₁ ≤ r₁') :
    symmetricOutcomeTarget tanh epsilon scale r₁ r₂ n₁ n₂ ≤
      symmetricOutcomeTarget tanh epsilon scale r₁' r₂ n₁ n₂ := by
  unfold symmetricOutcomeTarget
  by_cases graded : scale.isGraded
  · rw [if_pos graded, if_pos graded]
    exact tanh.increasing (div_le_div_of_nonneg_right (sub_le_sub_right more r₂) scale.nonneg)
  · rw [if_neg graded, if_neg graded]
    split_ifs <;> linarith

theorem outcomeTarget_of_hard (hard : ¬scale.isGraded) :
    (epsilon.get < r₁ - r₂ → symmetricOutcomeTarget tanh epsilon scale r₁ r₂ n₁ n₂ = 1) ∧
    (epsilon.get < r₂ - r₁ → symmetricOutcomeTarget tanh epsilon scale r₁ r₂ n₁ n₂ = -1) ∧
    (|r₁ - r₂| ≤ epsilon.get → symmetricOutcomeTarget tanh epsilon scale r₁ r₂ n₁ n₂ =
      if n₁ < n₂ then 1 else if n₂ < n₁ then -1 else 0) := by
  have nonneg := epsilon.nonneg
  unfold symmetricOutcomeTarget
  rw [if_neg hard]
  refine ⟨fun ahead => if_pos ahead, fun behind => ?_, fun tied => ?_⟩
  · rw [if_neg (by linarith), if_pos (by linarith)]
  · obtain ⟨low, high⟩ := abs_le.mp tied
    rw [if_neg (by linarith), if_neg (by linarith)]

end Outcome

section Targets

def setValueTarget (projected : ProjectedEpisode K) (target : K) : ProjectedEpisode K :=
  ({ projected.1 with outcome := { projected.1.outcome with valueTarget := some target } },
    projected.2.map fun row => { row with valueTarget := some target })

/-- Rows and targets are paired as far as both go. -/
def zipTargets : List (ReplayRow K) → List (K × K) → List (ReplayRow K)
  | row :: rows, target :: targets =>
    { row with horizonValueTargets := some target } :: zipTargets rows targets
  | rows, _ => rows

def setLastTerminal (target : K × K) : List (ReplayRow K) → List (ReplayRow K)
  | [] => []
  | [row] => [if row.kind = .terminal then { row with horizonValueTargets := some target } else row]
  | row :: next :: rest => row :: setLastTerminal target (next :: rest)

variable [Field K] [LinearOrder K]

/-- The value with less of the future in it. -/
def blend (lambda searchValue next : K) : K := (1 - lambda) * searchValue + lambda * next

def blendBoth (searchValue : K) (next : K × K) : K × K :=
  (blend (8 / 9) searchValue next.1, blend (32 / 33) searchValue next.2)

def searchValueOf (step : CompletedEpisodeStep K) : Except MeasurerError K :=
  match step.rootSearchValue with
  | some (.finite value) =>
    if -1 ≤ value ∧ value ≤ 1 then .ok value else .error .invalidRootSearchValue
  | _ => .error .invalidRootSearchValue

/-- The targets of the steps from the last to the first, and the latest. -/
def blendSteps (terminalTarget : K) :
    List (CompletedEpisodeStep K) → Except MeasurerError (List (K × K) × (K × K))
  | [] => .ok ([], (terminalTarget, terminalTarget))
  | step :: rest => do
      let (targets, next) ← blendSteps terminalTarget rest
      let searchValue ← searchValueOf step
      return (blendBoth searchValue next :: targets, blendBoth searchValue next)

def horizonValueTargets (artifact : CompletedEpisodeArtifact K) (terminalTarget : K) :
    Except MeasurerError (List (K × K)) := do
  if ¬(-1 ≤ terminalTarget ∧ terminalTarget ≤ 1) then throw .invalidRootSearchValue
  let (targets, _) ← blendSteps terminalTarget artifact.steps
  return targets

def setHorizonValueTargets (projected : ProjectedEpisode K)
    (artifact : CompletedEpisodeArtifact K) (terminalTarget : K) :
    Except MeasurerError (ProjectedEpisode K) := do
  let targets ← horizonValueTargets artifact terminalTarget
  return (projected.1,
    setLastTerminal (terminalTarget, terminalTarget) (zipTargets projected.2 targets))

structure MeasuredSymmetricGame (K : Type) where
  p1Artifact : CompletedEpisodeArtifact K
  p2Artifact : CompletedEpisodeArtifact K

def projectSymmetricGame (tanh : Tanh K) (epsilon : SymmetricRewardTieEpsilon K)
    (scale : SymmetricRewardTargetScale K) (game : MeasuredSymmetricGame K) :
    Except MeasurerError (ProjectedEpisode K × ProjectedEpisode K × K) := do
  let some p1Reward := episodeReward game.p1Artifact | throw .unmeasured
  let some p2Reward := episodeReward game.p2Artifact | throw .unmeasured
  let p1Target := symmetricOutcomeTarget tanh epsilon scale p1Reward p2Reward
    (symmetricRewriteCount game.p1Artifact) (symmetricRewriteCount game.p2Artifact)
  let p1 ← projectEpisode game.p1Artifact
  let p2 ← projectEpisode game.p2Artifact
  let p1 := setValueTarget p1 p1Target
  let p2 := setValueTarget p2 (-p1Target)
  let p1 ← setHorizonValueTargets p1 game.p1Artifact p1Target
  let p2 ← setHorizonValueTargets p2 game.p2Artifact (-p1Target)
  return (p1, p2, p1Target)

/-- The rows of one player lead from what the searches found to the outcome of that player. -/
structure LeadTo (artifact : CompletedEpisodeArtifact K) (outcome : K) (rows : List (ReplayRow K))
    (targets : Nat → K × K) : Prop where
  kinds : rows.map (·.kind) = rowKinds artifact
  valued : ∀ row ∈ rows, row.valueTarget = some outcome
  carried : ∀ index row, rows[index]? = some row → row.horizonValueTargets = some (targets index)
  step : ∀ index step, artifact.steps[index]? = some step → ∃ searchValue,
    step.rootSearchValue = some (.finite searchValue) ∧
      targets index = blendBoth searchValue (targets (index + 1))
  last : targets artifact.steps.length = (outcome, outcome)
  unit : ∀ index, (targets index).1 ∈ Set.Icc (-1) 1 ∧ (targets index).2 ∈ Set.Icc (-1) 1

omit [Field K] [LinearOrder K] in
theorem map_zipTargets {α : Type} (field : ReplayRow K → α)
    (keeps : ∀ row target, field { row with horizonValueTargets := some target } = field row)
    (rows : List (ReplayRow K)) (targets : List (K × K)) :
    (zipTargets rows targets).map field = rows.map field := by
  induction rows generalizing targets with
  | nil => cases targets <;> rfl
  | cons row rows ih =>
    cases targets with
    | nil => rfl
    | cons target targets => rw [zipTargets, map_cons, ih, keeps, map_cons]

omit [Field K] [LinearOrder K] in
theorem map_setLastTerminal {α : Type} (field : ReplayRow K → α)
    (keeps : ∀ row target, field { row with horizonValueTargets := some target } = field row)
    (target : K × K) (rows : List (ReplayRow K)) :
    (setLastTerminal target rows).map field = rows.map field := by
  induction rows with
  | nil => rfl
  | cons row rows ih =>
    cases rows with
    | nil =>
      unfold setLastTerminal
      split
      · exact congrArg (fun head => [head]) (keeps row target)
      · rfl
    | cons next rest => exact congrArg (field row :: ·) ih

omit [Field K] [LinearOrder K] in
theorem setLastTerminal_decision {target row} (decision : row.kind = .decision)
    (rows : List (ReplayRow K)) :
    setLastTerminal target (row :: rows) = row :: setLastTerminal target rows := by
  cases rows with
  | nil => exact congrArg (fun head => [head]) (if_neg (by rw [decision]; decide))
  | cons next rest => rfl

omit [Field K] [LinearOrder K] in
theorem carried_of_kinds {outcome kinds} (ends : kinds = [] ∨ kinds = [.terminal]) {rows targets}
    (laid : rows.map (·.kind) = List.replicate targets.length .decision ++ kinds) {index}
    {row : ReplayRow K}
    (found : (setLastTerminal outcome (zipTargets rows targets))[index]? = some row) :
    row.horizonValueTargets = some (targets.getD index outcome) := by
  induction targets generalizing rows index with
  | nil =>
    rcases ends with rfl | rfl
    · cases map_eq_nil_iff.mp laid
      cases found
    obtain ⟨last, rest, rfl, terminal, nothing⟩ := map_eq_cons_iff.mp laid
    cases map_eq_nil_iff.mp nothing
    rw [show zipTargets [last] [] = [last] from rfl, setLastTerminal, if_pos terminal] at found
    cases index with
    | zero =>
      cases found
      rfl
    | succ index => cases found
  | cons target targets ih =>
    obtain ⟨first, rest, rfl, decision, others⟩ := map_eq_cons_iff.mp laid
    have first_kind : ({ first with horizonValueTargets := some target } : ReplayRow K).kind =
      .decision := decision
    rw [zipTargets, setLastTerminal_decision first_kind] at found
    cases index with
    | zero =>
      cases found
      rfl
    | succ index => exact ih others found

variable [IsStrictOrderedRing K] {outcome : K}

theorem blend_unit {lambda searchValue next} (least : 0 ≤ lambda) (most : lambda ≤ 1)
    (value : searchValue ∈ Set.Icc (-1 : K) 1) (later : next ∈ Set.Icc (-1 : K) 1) :
    blend lambda searchValue next ∈ Set.Icc (-1 : K) 1 := by
  have rest : 0 ≤ 1 - lambda := sub_nonneg.mpr most
  have lowValue := mul_le_mul_of_nonneg_left value.1 rest
  have highValue := mul_le_mul_of_nonneg_left value.2 rest
  have lowNext := mul_le_mul_of_nonneg_left later.1 least
  have highNext := mul_le_mul_of_nonneg_left later.2 least
  constructor
  · unfold blend
    linarith
  · unfold blend
    linarith

theorem blendSteps_spec {steps targets next} (unit : outcome ∈ Set.Icc (-1) 1)
    (blended : blendSteps outcome steps = .ok (targets, next)) :
    targets.length = steps.length ∧ next = targets.getD 0 (outcome, outcome) ∧
    (∀ index step, steps[index]? = some step → ∃ searchValue,
      step.rootSearchValue = some (.finite searchValue) ∧ targets.getD index (outcome, outcome) =
          blendBoth searchValue (targets.getD (index + 1) (outcome, outcome))) ∧
    ∀ index, (targets.getD index (outcome, outcome)).1 ∈ Set.Icc (-1) 1 ∧
      (targets.getD index (outcome, outcome)).2 ∈ Set.Icc (-1) 1 := by
  induction steps generalizing targets next with
  | nil =>
    cases blended
    exact ⟨rfl, rfl, nofun, fun _ => ⟨unit, unit⟩⟩
  | cons step rest ih =>
    obtain ⟨⟨later, following⟩, there, blended⟩ := ok_of_bind blended
    obtain ⟨searchValue, searched, blended⟩ := ok_of_bind blended
    cases blended
    obtain ⟨count, rfl, steps, units⟩ := ih there
    unfold searchValueOf at searched
    split at searched
    · next value found =>
      split at searched
      · next inside =>
        cases searched
        refine ⟨congrArg (· + 1) count, rfl, fun index step at_ => ?_, fun index => ?_⟩
        · cases index with
          | zero =>
            cases at_
            exact ⟨_, found, rfl⟩
          | succ index => exact steps index step at_
        · cases index with
          | zero =>
            have first := units 0
            exact ⟨blend_unit (by norm_num) (by norm_num) inside first.1,
              blend_unit (by norm_num) (by norm_num) inside first.2⟩
          | succ index => exact units index
      · cases searched
    · cases searched

theorem leadTo_of_set {artifact projected final} (episode : projectEpisode artifact = .ok projected)
    (done : setHorizonValueTargets (setValueTarget projected outcome) artifact outcome =
      .ok final) : ∃ targets, LeadTo artifact outcome final.2 targets := by
  obtain ⟨targets, horizon, done⟩ := ok_of_bind done
  cases done
  obtain ⟨within, horizon⟩ := throw_bind_else_eq_ok_iff.mp horizon
  obtain ⟨⟨_, next⟩, blended, horizon⟩ := ok_of_bind horizon
  cases horizon
  obtain ⟨count, _, steps, units⟩ := blendSteps_spec (not_not.mp within) blended
  have kinds : (setValueTarget projected outcome).2.map (·.kind) = rowKinds artifact := by
    rw [← kinds_of_projectEpisode episode]
    exact map_map
  refine ⟨fun index => targets.getD index (outcome, outcome), ?_, ?_, ?_, steps, ?_, units⟩
  · rw [map_setLastTerminal _ fun _ _ => rfl, map_zipTargets _ fun _ _ => rfl, kinds]
  · intro row member
    have all := mem_map_of_mem (f := (·.valueTarget)) member
    rw [map_setLastTerminal _ fun _ _ => rfl, map_zipTargets _ fun _ _ => rfl] at all
    obtain ⟨_, set, same⟩ := mem_map.mp all
    obtain ⟨_, _, rfl⟩ := mem_map.mp set
    exact same.symm
  · rw [rowKinds, ← count] at kinds
    refine fun index row => carried_of_kinds ?_ kinds
    cases artifact.terminalFeatureRow with
    | none => exact .inl rfl
    | some => exact .inr rfl
  · rw [getD_eq_getElem?_getD, getElem?_eq_none count.le]
    rfl

/-! ## Projected games -/

variable {tanh : Tanh K} {epsilon : SymmetricRewardTieEpsilon K}
  {scale : SymmetricRewardTargetScale K}

/-- What a projected game consists of; the second player sees the outcome negated. -/
structure Projects (tanh : Tanh K) (epsilon : SymmetricRewardTieEpsilon K)
    (scale : SymmetricRewardTargetScale K) (game : MeasuredSymmetricGame K)
    (p1 p2 : ProjectedEpisode K) (target r₁ r₂ : K) : Prop where
  p1Reward : episodeReward game.p1Artifact = some r₁
  p2Reward : episodeReward game.p2Artifact = some r₂
  outcome : target = symmetricOutcomeTarget tanh epsilon scale r₁ r₂
    (symmetricRewriteCount game.p1Artifact) (symmetricRewriteCount game.p2Artifact)
  p1Set : ∃ episode, projectEpisode game.p1Artifact = .ok episode ∧
    setHorizonValueTargets (setValueTarget episode target) game.p1Artifact target = .ok p1
  p2Set : ∃ episode, projectEpisode game.p2Artifact = .ok episode ∧
    setHorizonValueTargets (setValueTarget episode (-target)) game.p2Artifact (-target) = .ok p2

variable {game : MeasuredSymmetricGame K} {p1 p2 : ProjectedEpisode K}

omit [IsStrictOrderedRing K] in
theorem projects_of_ok {target}
    (projected : projectSymmetricGame tanh epsilon scale game = .ok (p1, p2, target)) :
    ∃ r₁ r₂, Projects tanh epsilon scale game p1 p2 target r₁ r₂ := by
  unfold projectSymmetricGame at projected
  cases first : episodeReward game.p1Artifact with
  | none =>
    rw [first] at projected
    cases projected
  | some r₁ =>
    cases second : episodeReward game.p2Artifact with
    | none =>
      rw [first, second] at projected
      cases projected
    | some r₂ =>
      rw [first, second] at projected
      obtain ⟨episode₁, projected₁, projected⟩ := ok_of_bind projected
      obtain ⟨episode₂, projected₂, projected⟩ := ok_of_bind projected
      obtain ⟨set₁, done₁, projected⟩ := ok_of_bind projected
      obtain ⟨set₂, done₂, projected⟩ := ok_of_bind projected
      cases projected
      exact ⟨r₁, r₂, first, second, rfl, ⟨episode₁, projected₁, done₁⟩,
        ⟨episode₂, projected₂, done₂⟩⟩

omit [IsStrictOrderedRing K] in
theorem Projects.ok {target r₁ r₂}
    (projects : Projects tanh epsilon scale game p1 p2 target r₁ r₂) :
    projectSymmetricGame tanh epsilon scale game = .ok (p1, p2, target) := by
  obtain ⟨first, second, rfl, ⟨episode₁, projected₁, done₁⟩, episode₂, projected₂, done₂⟩ :=
    projects
  unfold projectSymmetricGame
  rw [first, second, projected₁, projected₂]
  dsimp only [bind, Except.bind]
  rw [done₁, done₂]
  rfl

theorem Projects.swap {target r₁ r₂}
    (projects : Projects tanh epsilon scale game p1 p2 target r₁ r₂) :
    Projects tanh epsilon scale ⟨game.p2Artifact, game.p1Artifact⟩ p2 p1 (-target) r₂ r₁ where
  p1Reward := projects.p2Reward
  p2Reward := projects.p1Reward
  outcome := by
    rw [outcomeTarget_swap, ← projects.outcome]
  p1Set := projects.p2Set
  p2Set := by
    rw [neg_neg]
    exact projects.p1Set

/-- Both players' rows lead to one outcome with opposite signs.  It is in the unit range, turns
over when the players change places, follows the rewards or the rewrites of a win/loss game, and
is no lower in a game where the first player, all else equal, got more. -/
theorem symmetricTargets {game : MeasuredSymmetricGame K} {p1 p2 : ProjectedEpisode K} {target : K}
    (projected : projectSymmetricGame tanh epsilon scale game = .ok (p1, p2, target)) :
    target ∈ Set.Icc (-1) 1 ∧
    (∃ targets, LeadTo game.p1Artifact target p1.2 targets) ∧
    (∃ targets, LeadTo game.p2Artifact (-target) p2.2 targets) ∧
    projectSymmetricGame tanh epsilon scale ⟨game.p2Artifact, game.p1Artifact⟩ =
      .ok (p2, p1, -target) ∧
    ∃ r₁ r₂, episodeReward game.p1Artifact = some r₁ ∧ episodeReward game.p2Artifact = some r₂ ∧
      (¬scale.isGraded →
        (epsilon.get < r₁ - r₂ → target = 1) ∧ (epsilon.get < r₂ - r₁ → target = -1) ∧
        (|r₁ - r₂| ≤ epsilon.get → target =
          if symmetricRewriteCount game.p1Artifact < symmetricRewriteCount game.p2Artifact then 1
          else if symmetricRewriteCount game.p2Artifact < symmetricRewriteCount game.p1Artifact
          then -1 else 0)) ∧
      ∀ other p1' p2' target' r₁',
        projectSymmetricGame tanh epsilon scale other = .ok (p1', p2', target') →
        other.p2Artifact = game.p2Artifact →
        symmetricRewriteCount other.p1Artifact = symmetricRewriteCount game.p1Artifact →
        episodeReward other.p1Artifact = some r₁' → r₁ ≤ r₁' → target ≤ target' := by
  obtain ⟨r₁, r₂, projects⟩ := projects_of_ok projected
  obtain ⟨episode₁, projected₁, done₁⟩ := projects.p1Set
  obtain ⟨episode₂, projected₂, done₂⟩ := projects.p2Set
  refine ⟨?_, leadTo_of_set projected₁ done₁, leadTo_of_set projected₂ done₂, projects.swap.ok,
    r₁, r₂, projects.p1Reward, projects.p2Reward, fun hard => ?_, ?_⟩
  · rw [projects.outcome]
    exact outcomeTarget_unit
  · rw [projects.outcome]
    exact outcomeTarget_of_hard hard
  · intro other p1' p2' target' r₁' projected' same rewrites reward more
    obtain ⟨s₁, s₂, projects'⟩ := projects_of_ok projected'
    cases projects'.p1Reward.symm.trans reward
    have rewards : s₂ = r₂ := by
      have found := projects'.p2Reward
      rw [same, projects.p2Reward] at found
      exact (Option.some.inj found).symm
    rw [projects.outcome, projects'.outcome, rewards, same, rewrites]
    exact outcomeTarget_mono more

end Targets

namespace Sample

def unit : Tanh ℚ where
  toFun x := max (-1) (min 1 x)
  odd x := by
    simp only [max_def, min_def]
    split_ifs <;> linarith
  increasing _ _ less := max_le_max le_rfl (min_le_min le_rfl less)
  unit x := ⟨le_max_left _ _, max_le (by norm_num) (min_le_left _ _)⟩

/-- The graph after `count` rewrites. -/
def context (count : Nat) : ReplayGraphContext := ⟨⟨BitVec.ofNat 256 count, 1, 1⟩, 1⟩

def decision (count : Nat) (action : PortableSearchActionRef) (after : Nat) (searchValue : ℚ) :
    CompletedEpisodeStep ℚ :=
  ⟨context count, context after, action, [action], [.finite 1], some (.finite searchValue), none⟩

/-- The steps from the graph after `count` rewrites on, the last of which stops. -/
def decisions (count : Nat) : List ℚ → List (CompletedEpisodeStep ℚ)
  | [] => []
  | [last] => [decision count (.stop (context count)) count last]
  | searchValue :: next :: rest =>
    decision count (.candidate ⟨context count, 1⟩) (count + 1) searchValue ::
      decisions (count + 1) (next :: rest)

/-- An episode of reward one whose searches found the values. -/
def artifact (searchValues : List ℚ) (features : Option Bytes) : CompletedEpisodeArtifact ℚ where
  root := context 0
  finalGraph := context (searchValues.length - 1)
  finalMeasure := ⟨1, 1, true, true, none, some (.finite 1), none⟩
  stopSelected := true
  searchConfigHash := 1
  steps := decisions 0 searchValues
  featureRows := none
  terminalFeatureRow := features

/-- One rewrite against two. -/
def game : MeasuredSymmetricGame ℚ :=
  ⟨artifact [1 / 2, 1 / 3] (some []), artifact [0, 1 / 3, 1 / 2] none⟩

end Sample

/-- Both rewards are one, so the player with fewer rewrites wins. -/
theorem symmetricTargets_of_tie : ∃ p1 p2 : ProjectedEpisode ℚ,
    projectSymmetricGame Sample.unit ⟨0, le_rfl⟩ ⟨0, le_rfl⟩ Sample.game = .ok (p1, p2, 1) ∧
    p2.2.map (·.horizonValueTargets) = [some (-152 / 243, -31904 / 35937),
      some (-19 / 27, -997 / 1089), some (-5 / 6, -21 / 22)] ∧
    (∃ targets, LeadTo Sample.game.p1Artifact 1 p1.2 targets) ∧
    ∃ targets, LeadTo Sample.game.p2Artifact (-1) p2.2 targets := by
  have done : (projectSymmetricGame Sample.unit ⟨0, le_rfl⟩ ⟨0, le_rfl⟩ Sample.game).map
      (fun projected => (projected.2.2, projected.2.1.2.map (·.horizonValueTargets))) =
        .ok (1, [some (-152 / 243, -31904 / 35937),
      some (-19 / 27, -997 / 1089), some (-5 / 6, -21 / 22)]) := by
    decide +kernel
  cases projected : projectSymmetricGame Sample.unit ⟨0, le_rfl⟩ ⟨0, le_rfl⟩ Sample.game with
  | error =>
    rw [projected] at done
    cases done
  | ok result =>
    obtain ⟨p1, p2, target⟩ := result
    rw [projected] at done
    obtain ⟨rfl, rows⟩ := Prod.mk.inj (Except.ok.inj done)
    obtain ⟨_, first, second, _⟩ := symmetricTargets projected
    exact ⟨p1, p2, rfl, rows, first, second⟩

end GraphZero.Measurer
