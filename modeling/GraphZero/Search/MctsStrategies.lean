import GraphZero.Search.MctsRoot

/-!
# The strategies of the single-agent search

Gumbel considers the actions that score best with noise and plays them by a
schedule that was fixed when the root was started.  PUCT plays what promises
most at each simulation.
-/

namespace GraphZero.Search

open Engine Foundation

/-- Scalars with the powers that visit counts are weighted by. -/
class PowerScalar (F : Type) extends Scalar F where
  powf : F → F → F
  sqrt : F → F

/-- Rational approximations, exact at whole powers, which evaluate. -/
instance : PowerScalar (Exact ℚ) where
  powf
    | .finite base, .finite exponent => .finite (base ^ exponent.floor.toNat)
    | _, _ => .undefined
  sqrt
    | .finite value => .finite ((1 + value) / 2)
    | value => value

section Common

variable {F : Type}

section Softmax

variable [Scalar F]

def maskedSoftmax (values : List F) (masked : List Bool) : List F :=
  softmax ((values.zip masked).map fun (value, masked) =>
    if masked then Scalar.negInfinity else value)

/-- The first weight that the threshold does not get past. -/
def pickWeight : (threshold : F) → (weights : List F) → (index : Nat) → Option Nat
  | _, [], _ => none
  | threshold, weight :: weights, index =>
    if Scalar.lessEq threshold weight then some index
    else pickWeight (threshold - weight) weights (index + 1)

end Softmax

variable [PowerScalar F]

/-- An action is drawn by what it was visited since the search began. -/
def visitWeight (visits baselineVisits : List Nat) (temperature : F) (action : Nat) : F :=
  let count := visits.getD action 0 - baselineVisits.getD action 0
  if count = 0 then Scalar.zero
  else PowerScalar.powf (Scalar.ofNat count) (Scalar.one / temperature)

def sampleVisitAction (rng : GumbelRng) (visits baselineVisits allowed : List Nat) (temperature : F)
    (fallback : Nat) : Nat :=
  if Scalar.lessEq temperature Scalar.zero then fallback
  else
    let weight := visitWeight visits baselineVisits temperature
    let total := Scalar.sum (allowed.map weight)
    let weights := allowed.foldl (fun weights action => weights.set action (weight action))
      (List.replicate visits.length Scalar.zero)
    if Scalar.lessEq total Scalar.zero || !Scalar.isFinite total then fallback
    else
      (pickWeight ((rng.unit (F := F)).1 * total) weights 0).getD fallback

end Common

namespace MctsNode

variable {G C F : Type}

def logits (node : MctsNode G C F) : List F :=
  node.actions.map (·.logit)

def masks (node : MctsNode G C F) : List Bool :=
  node.actions.map (·.masked)

def maxVisits (node : MctsNode G C F) : Nat :=
  node.visits.foldl max 0

end MctsNode

def GumbelRng.after : (count : Nat) → GumbelRng → GumbelRng
  | 0, rng => rng
  | count + 1, rng => after count rng.nextU64.2

structure GumbelRootState (F : Type) where
  baseScores : List F
  considered : List Nat
  baselineVisits : List Nat
  schedule : List Nat
  rng : GumbelRng

namespace GumbelStrategy

variable {G C F : Type}

section Scores

variable [Scalar F]

def maskedLogits (node : MctsNode G C F) : List F :=
  node.actions.map fun stats =>
    if stats.masked then Scalar.negInfinity else stats.logit

/-- The value of a node mixed with what its visited actions have shown. -/
def mixedValue (node : MctsNode G C F) : F :=
  let visits := node.visits.sum
  if visits = 0 then node.value
  else
    let visited := node.actions.filter fun stats => decide (stats.visits ≠ 0)
    let priorMass := Scalar.sum (visited.map (·.prior))
    let weighted := Scalar.sum (visited.map fun stats => stats.prior * stats.q)
    if Scalar.lessEq priorMass Scalar.zero then node.value
    else
      (node.value + Scalar.ofNat visits * weighted / priorMass) / (Scalar.one + Scalar.ofNat visits)

def completedQ (node : MctsNode G C F) : List F :=
  node.actions.map fun stats =>
    if 0 < stats.visits then stats.q else mixedValue node

def qScale (config : GumbelMctsConfig F) (node : MctsNode G C F) : F :=
  (config.cVisit + Scalar.ofNat node.maxVisits) * config.cScale

def rootScores (node : MctsNode G C F) (baseScores : List F)
    (config : GumbelMctsConfig F) : List F :=
  ((baseScores.zip (completedQ node)).zip node.masks).map fun ((score, q), masked) =>
      if masked then Scalar.negInfinity else score + qScale config node * q

def improvedPolicy (node : MctsNode G C F) (config : GumbelMctsConfig F) : List F :=
  maskedSoftmax ((node.logits.zip (completedQ node)).map fun (logit, q) =>
      logit + qScale config node * q)
    node.masks

def searchValue (node : MctsNode G C F) : F :=
  let visited := node.actions.filter fun stats => decide (0 < stats.visits)
  let visits := (visited.map (·.visits)).sum
  let value := Scalar.sum (visited.map fun stats =>
    Scalar.ofNat stats.visits * stats.q)
  if visits = 0 then node.value else value / Scalar.ofNat visits

def rootQMax (node : MctsNode G C F) : F :=
  (Scalar.maximum ((node.actions.filter fun stats =>
    decide (0 < stats.visits)).map (·.q))).getD node.value

def bestScoreAction (scores : List F) (considered : List Nat) : Option Nat :=
  maxBy (fun left right => scoreOrder scores right left) considered

def bestCountAction (visits considered : List Nat) (scores : List F) : Option Nat :=
  maxBy (fun left right =>
    (compare (visits.getD left 0) (visits.getD right 0)).then
      (scoreOrder scores right left)) considered

variable (config : GumbelMctsConfig F)

def startRoot (root : MctsNode G C F) (context : MctsSearchContext F) : GumbelRootState F :=
  let rng : GumbelRng := ⟨rootSeed (config.seed ^^^ context.noiseSeed) context.rootStep⟩
  let logits := maskedLogits root
  let scale :=
    if Scalar.lessEq Scalar.zero config.gumbelNoiseOverlap then
      overlapNoiseScale logits config.maxConsideredActions
        config.gumbelNoiseOverlap config.gumbelScale
    else config.gumbelScale
  let baseScores := (logits.zip (sampleRootGumbels root.actionCount scale rng)).map
      fun (score, gumbel) => score + gumbel
  let considered := consideredActions baseScores config.maxConsideredActions
  { baseScores
    considered
    baselineVisits := root.visits
    schedule :=
      consideredVisitSequence considered.length config.simulations
    rng := if scale == Scalar.zero then rng else rng.after root.actionCount }

/-- What an action was visited since the search of the root began. -/
def visitsSince (state : GumbelRootState F) (node : MctsNode G C F) (action : Nat) : Nat :=
  node.visits.getD action 0 - state.baselineVisits.getD action 0

def selectRoot (state : GumbelRootState F) (node : MctsNode G C F)
    (simulations : Nat) : Except (SearchFailure F) (Option Nat) :=
  match state.schedule[simulations]? with
  | none => .ok none
  | some targetVisits =>
    .ok (bestScoreAction (rootScores node state.baseScores config)
      (state.considered.filter fun action =>
        !node.isMasked action && decide (visitsSince state node action = targetVisits)))

def selectNonroot (_ : GumbelRootState F) (node : MctsNode G C F) : Except (SearchFailure F) Nat :=
  let policy := improvedPolicy node config
  let total := Scalar.ofNat node.visits.sum
  let scores := (policy.zip node.visits).map fun (prior, visits) =>
    prior - Scalar.ofNat visits / (Scalar.one + total)
  match bestScoreAction scores node.unmaskedActions with
  | some action => .ok action
  | none => .error .panicked

def selectableActions (state : GumbelRootState F) (node : MctsNode G C F) : List Nat :=
  match state.considered.filter fun action => !node.isMasked action with
  | [] => node.unmaskedActions
  | selectable => selectable

end Scores

variable [PowerScalar F] (config : GumbelMctsConfig F)

def finishRoot (state : GumbelRootState F) (node : MctsNode G C F) (context : MctsSearchContext F) :
    Except (SearchFailure F) (StrategyRootResult F) :=
  let scores := rootScores node state.baseScores config
  let selectable := selectableActions state node
  let best :=
    if config.treeReuse then bestScoreAction scores selectable
    else bestCountAction node.visits selectable scores
  match best with
  | none => .error .panicked
  | some fallback =>
    .ok
      { selected := sampleVisitAction state.rng node.visits
          state.baselineVisits selectable context.selectionTemperature
          fallback
        consideredActionIndices := state.considered
        policyTarget := improvedPolicy node config
        rootSearchValue := searchValue node
        rootQMax := rootQMax node }

end GumbelStrategy

def gumbelStrategy {F : Type} [PowerScalar F] (G C : Type) (config : GumbelMctsConfig F) :
    MctsStrategy (GumbelRootState F) G C F where
  startRoot := GumbelStrategy.startRoot config
  selectRoot := GumbelStrategy.selectRoot config
  selectNonroot := GumbelStrategy.selectNonroot config
  finishRoot := GumbelStrategy.finishRoot config

structure PuctMctsConfig (F : Type) where
  maxSteps : Nat
  simulations : Nat
  simulations_pos : 0 < simulations
  cPuct : F
  seed : UInt64
  temperatureMoves : Nat
  treeReuse : Bool
  exportPosition : Bool
  maskStop : Bool
  noBacktrack : Bool
  candidateOptions : CandidateOptions
  measureOptions : MeasureOptions

structure PuctRootState where
  baselineVisits : List Nat
  rng : GumbelRng

namespace PuctStrategy

variable {G C F : Type} [PowerScalar F]

def score (stats : ActionStats F) (cPuct parentScale : F) : F :=
  stats.q + cPuct * stats.prior * parentScale / (Scalar.one + Scalar.ofNat stats.visits)

def selectAction (node : MctsNode G C F) (cPuct : F) : Except (SearchFailure F) Nat :=
  let parentScale := PowerScalar.sqrt (Scalar.max (Scalar.ofNat node.visits.sum) Scalar.one)
  let scores := node.actions.map fun stats => score stats cPuct parentScale
  match maxBy (fun left right => scoreOrder scores right left) node.unmaskedActions with
  | some action => .ok action
  | none => .error .panicked

def visitsSince (baselineVisits : List Nat) (node : MctsNode G C F) (action : Nat) : Nat :=
  node.visits.getD action 0 - baselineVisits.getD action 0

def deterministicElection (node : MctsNode G C F) (baselineVisits selectable : List Nat) :
    Option Nat :=
  let qs := node.actions.map (·.q)
  let priors := node.actions.map (·.prior)
  let ordered (values : List F) (left right : Nat) : Ordering :=
    Scalar.totalCmp (values.getD left Scalar.zero) (values.getD right Scalar.zero)
  maxBy (fun left right =>
    (compare (visitsSince baselineVisits node left) (visitsSince baselineVisits node right)).then
        ((ordered qs left right).then
          ((ordered priors left right).then (compare right left)))) selectable

def policyTarget (node : MctsNode G C F) (baselineVisits : List Nat) : List F :=
  let deltas := (List.range node.actionCount).map fun action =>
    if node.isMasked action then 0 else visitsSince baselineVisits node action
  let total := deltas.sum
  if total = 0 then
    (List.replicate node.actionCount Scalar.zero).set node.stop Scalar.one
  else deltas.map fun visits => Scalar.ofNat visits / Scalar.ofNat total

def searchValue (node : MctsNode G C F) (baselineVisits : List Nat) : F :=
  let deltas := (List.range node.actionCount).map (visitsSince baselineVisits node)
  let visited := (deltas.zip (node.actions.map (·.q))).filter fun (delta, _) => decide (0 < delta)
  let value := Scalar.sum (visited.map fun (delta, q) =>
    Scalar.ofNat delta * q)
  if deltas.sum = 0 then node.value else value / Scalar.ofNat deltas.sum

def rootQMax (node : MctsNode G C F) : F :=
  (Scalar.maximum ((node.actions.filter fun stats =>
    decide (0 < stats.visits) && !stats.masked).map (·.q))).getD node.value

variable (config : PuctMctsConfig F)

def startRoot (root : MctsNode G C F) (context : MctsSearchContext F) : PuctRootState where
  baselineVisits := root.visits
  rng := ⟨rootSeed (config.seed ^^^ context.noiseSeed) context.rootStep⟩

def selectRoot (_ : PuctRootState) (node : MctsNode G C F)
    (simulations : Nat) : Except (SearchFailure F) (Option Nat) :=
  if simulations < config.simulations then
    some <$> selectAction node config.cPuct
  else .ok none

def finishRoot (state : PuctRootState) (node : MctsNode G C F) (context : MctsSearchContext F) :
    Except (SearchFailure F) (StrategyRootResult F) :=
  let selectable := node.unmaskedActions
  match deterministicElection node state.baselineVisits selectable with
  | none => .error .panicked
  | some fallback =>
    .ok
      { selected := sampleVisitAction state.rng node.visits
          state.baselineVisits selectable context.selectionTemperature
          fallback
        consideredActionIndices := selectable
        policyTarget := policyTarget node state.baselineVisits
        rootSearchValue := searchValue node state.baselineVisits
        rootQMax := rootQMax node }

end PuctStrategy

def puctStrategy {F : Type} [PowerScalar F] (G C : Type)
    (config : PuctMctsConfig F) : MctsStrategy PuctRootState G C F where
  startRoot := PuctStrategy.startRoot config
  selectRoot := PuctStrategy.selectRoot config
  selectNonroot _ node := PuctStrategy.selectAction node config.cPuct
  finishRoot := PuctStrategy.finishRoot

def GumbelMctsConfig.commonConfig {F : Type} (config : GumbelMctsConfig F)
    (temperatureMoves : Nat) : MctsConfig where
  maxSteps := config.maxSteps
  simulations := config.simulations
  simulations_pos := config.simulations_pos
  seed := config.seed
  temperatureMoves
  treeReuse := config.treeReuse
  exportPosition := config.exportPosition
  maskStop := config.maskStop
  noBacktrack := config.noBacktrack
  predictedHorizon := false
  candidateOptions := config.candidateOptions
  measureOptions := config.measureOptions

def PuctMctsConfig.commonConfig {F : Type} (config : PuctMctsConfig F) : MctsConfig where
  maxSteps := config.maxSteps
  simulations := config.simulations
  simulations_pos := config.simulations_pos
  seed := config.seed
  temperatureMoves := config.temperatureMoves
  treeReuse := config.treeReuse
  exportPosition := config.exportPosition
  maskStop := config.maskStop
  noBacktrack := config.noBacktrack
  predictedHorizon := false
  candidateOptions := config.candidateOptions
  measureOptions := config.measureOptions

end GraphZero.Search
