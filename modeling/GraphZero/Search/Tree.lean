import GraphZero.Search.Schedule

/-!
# The symmetric search tree

Two players rewrite a graph each.  A node holds the board it stands for, the
evaluation of the player to move and one edge for each action; branches lead
to other nodes or to the value of a finished board.
-/

namespace GraphZero.Search

open Engine Foundation

inductive GumbelPlayer where
  | one
  | two
  deriving DecidableEq

def GumbelPlayer.opponent : GumbelPlayer → GumbelPlayer
  | one => two
  | two => one

structure PerPlayer (α : Type) where
  one : α
  two : α
  deriving DecidableEq

namespace PerPlayer

variable {α : Type}

def of (values : PerPlayer α) : GumbelPlayer → α
  | .one => values.one
  | .two => values.two

def update (values : PerPlayer α) (player : GumbelPlayer) (value : α) : PerPlayer α :=
  match player with
  | .one => { values with one := value }
  | .two => { values with two := value }

@[simp]
theorem of_update_same (values : PerPlayer α) (player : GumbelPlayer)
    (value : α) : (values.update player value).of player = value := by
  cases player <;> rfl

theorem of_update_of_ne (values : PerPlayer α) {player other} (value : α)
    (different : other ≠ player) :
    (values.update player value).of other = values.of other := by
  cases player <;> cases other <;> first | rfl | exact absurd rfl different

def toList (values : PerPlayer α) : List α := [values.one, values.two]

end PerPlayer

structure Board (G : Type) where
  graphs : PerPlayer G
  contexts : PerPlayer (Option ReplayGraphContext)
  rewrites : PerPlayer Nat
  inactive : PerPlayer Bool
  stopped : PerPlayer Bool
  player : GumbelPlayer
  deriving DecidableEq

namespace Board

variable {G : Type}

def currentGraph (board : Board G) : G := board.graphs.of board.player

def active (board : Board G) (maxSteps : Nat) (player : GumbelPlayer) : Bool :=
  !board.inactive.of player && decide (board.rewrites.of player < maxSteps)

def terminal (board : Board G) (maxSteps : Nat) : Bool :=
  !board.active maxSteps .one && !board.active maxSteps .two

def passTurn (board : Board G) : Board G :=
  { board with player := board.player.opponent }

end Board

/-! ## Nodes -/

structure SearchCandidateSummary (F : Type) where
  kind : CandidateKindId
  tags : CandidateTags
  staticPrior : F
  deriving DecidableEq

structure RootCandidate (F : Type) where
  hash : CandidateHash
  summary : SearchCandidateSummary F

structure CandidateEntry (C F : Type) where
  handle : C
  hash : CandidateHash
  summary : SearchCandidateSummary F

structure Expansion (C F : Type) where
  context : ReplayGraphContext
  candidates : List (CandidateEntry C F)
  evalActions : List (EvalAction F)

inductive BranchTarget (F : Type) where
  | node (index : Nat)
  | terminal (value : F)

/-- `flip` says that the value below belongs to the other player. -/
structure Branch (F : Type) where
  target : BranchTarget F
  flip : Bool

structure ActionEdge (G F : Type) where
  branch : Option (Branch F)
  afterGraph : Option G
  afterContext : Option ReplayGraphContext
  visits : Nat
  valueSum : F

structure Node (G C F : Type) where
  board : Board G
  context : ReplayGraphContext
  candidates : List C
  candidateMetadata : List (RootCandidate F)
  logits : List F
  priors : List F
  value : F
  modelVersion : ModelVersion
  masked : List Bool
  edges : List (ActionEdge G F)
  pass : Option (Branch F)

def candidateRef (context : ReplayGraphContext) (hash : CandidateHash) : PortableSearchActionRef :=
  .candidate ⟨context, hash⟩

section Nodes

variable {G C F : Type}

namespace ActionEdge

variable [Scalar F]

def fresh : ActionEdge G F := ⟨none, none, none, 0, Scalar.zero⟩

def q (edge : ActionEdge G F) : F :=
  if edge.visits = 0 then Scalar.zero
  else edge.valueSum / Scalar.ofNat edge.visits

end ActionEdge

namespace Node

def actionCount (node : Node G C F) : Nat := node.edges.length

def isStop (node : Node G C F) (action : Nat) : Bool :=
  decide (action = node.candidates.length) && decide (node.candidates.length < node.actionCount)

def actionRefs (node : Node G C F) (candidates : List (RootCandidate F)) :
    List PortableSearchActionRef :=
  let actions := candidates.map fun candidate =>
    candidateRef node.context candidate.hash
  if node.candidates.length < node.actionCount then
    actions ++ [.stop node.context]
  else
    actions

def totalVisits (node : Node G C F) : Nat :=
  (node.edges.map (·.visits)).sum

def maxVisits (node : Node G C F) : Nat :=
  (node.edges.map (·.visits)).foldr max 0

/-- Whether `action` is masked; a position past the end is not. -/
def isMasked (node : Node G C F) (action : Nat) : Bool :=
  node.masked.getD action false

def openActions (node : Node G C F) : List Nat :=
  (List.range node.actionCount).filter fun action => !node.isMasked action

variable [Scalar F]

def searchValue (node : Node G C F) : F :=
  if node.totalVisits = 0 then node.value
  else
    Scalar.sum (node.edges.map (·.valueSum)) / Scalar.ofNat node.totalVisits

/-- The mean value of the visited edges, weighted by their priors, together
with the node's own value. -/
def mixedValue (node : Node G C F) : F :=
  if node.totalVisits = 0 then node.value
  else
    let visited := (node.priors.zip node.edges).filter fun entry =>
      decide (0 < entry.2.visits)
    let mass := Scalar.sum (visited.map (·.1))
    let weighted := Scalar.sum (visited.map fun entry =>
      entry.1 * entry.2.q)
    let visits : F := Scalar.ofNat node.totalVisits
    if Scalar.less Scalar.zero mass then
      (node.value + visits * weighted / mass) / (Scalar.one + visits)
    else
      node.value

def completedQ (node : Node G C F) : List F :=
  node.edges.map fun edge =>
    if 0 < edge.visits then edge.q else node.mixedValue

/-- `base` with the estimates of the edges; masked actions have no score. -/
def maskedScores (node : Node G C F) (config : GumbelMctsConfig F) (base : List F) : List F :=
  let scale := (config.cVisit + Scalar.ofNat node.maxVisits) * config.cScale
  ((base.zip node.completedQ).zip node.masked).map fun entry =>
    if entry.2 then Scalar.negInfinity
    else entry.1.1 + scale * entry.1.2

def improvedPolicy (node : Node G C F) (config : GumbelMctsConfig F) : List F :=
  softmax (node.maskedScores config node.logits)

/-- The action whose policy exceeds its share of the visits the most. -/
def selectNonroot (node : Node G C F) (config : GumbelMctsConfig F) : Option Nat :=
  let policy := node.improvedPolicy config
  let total : F := Scalar.ofNat node.totalVisits
  let score := fun action =>
    policy.getD action Scalar.zero - Scalar.ofNat ((node.edges.map (·.visits)).getD action 0) /
        (Scalar.one + total)
  maxBy (fun left right =>
      (Scalar.totalCmp (score left) (score right)).then
        (compare right left))
    node.openActions

def mask (node : Node G C F) (action : Nat) : Node G C F :=
  { node with
    masked := node.masked.set action true
    priors := node.priors.set action Scalar.zero }

end Node

def newNode [Scalar F] (config : GumbelMctsConfig F) (board : Board G)
    (expansion : Expansion C F) (output : EvalOutput F) : Node G C F :=
  let candidateCount := expansion.candidates.length
  let actionCount :=
    if config.maskStop then candidateCount else candidateCount + 1
  let logits := output.policyLogits.take actionCount
  { board
    context := expansion.context
    candidates := expansion.candidates.map (·.handle)
    candidateMetadata := expansion.candidates.map fun candidate =>
      ⟨candidate.hash, candidate.summary⟩
    logits
    priors := softmax logits
    value := output.value
    modelVersion := output.modelVersion
    masked := List.replicate actionCount false
    edges := List.replicate actionCount ActionEdge.fresh
    pass := none }

/-- What an evaluation is asked about an expanded graph: its candidates, then
the stop. -/
def expansionOf (context : ReplayGraphContext) (result : ExpandResult C F) : Expansion C F where
  context := context
  candidates := result.candidates.map fun candidate =>
    { handle := candidate.candidate
      hash := candidate.candidateHash
      summary := ⟨candidate.kind, candidate.tags, candidate.staticPrior⟩ }
  evalActions :=
    (result.candidates.map fun candidate =>
      EvalAction.candidate ⟨context, candidate.candidateHash⟩
        candidate.kind candidate.tags candidate.staticPrior) ++
      [EvalAction.stop context]

end Nodes

inductive PathStep where
  | decision (node action : Nat) (flip : Bool)
  | transform (flip : Bool)

structure Descent where
  node : Nat
  path : List PathStep
  seen : PerPlayer (Finset ReplayGraphContext)
  forced : Option Nat

inductive AttachSlot where
  | action (node action : Nat)
  | pass (node : Nat)

/-- Where a value will be attached, and the turns from there to its player,
at most 255. -/
structure Attach where
  slot : AttachSlot
  turns : Nat

def Attach.nextTurn (attach : Attach) : Attach :=
  { attach with turns := min (attach.turns + 1) 255 }

structure RootApplyReady (G : Type) where
  descent : Descent
  node : Nat
  action : Nat
  applied : ApplyResult G

inductive WaveSimulationState (G C F : Type) where
  | running (descent : Descent)
  | resolve (descent : Descent) (board : Board G) (attach : Attach)
  | applyPending (token : WorkToken) (descent : Descent) (node action : Nat)
  | rootApplyReady (ready : RootApplyReady G)
  | expandPending (token : WorkToken) (descent : Descent) (board : Board G)
    (attach : Attach)
  | evalReady (descent : Descent) (board : Board G) (attach : Attach)
    (expansion : Expansion C F)
  | evalPending (token : WorkToken) (descent : Descent) (board : Board G)
    (attach : Attach) (expansion : Expansion C F) (request : EvalRequest F)
  | evalComplete (descent : Descent) (board : Board G) (attach : Attach)
    (expansion : Expansion C F) (request : EvalRequest F)
    (output : EvalOutput F)
  | terminalEvalPending (token : WorkToken) (descent : Descent)
    (attach : Attach) (request : EvalRequest F)
  | terminalEvalComplete (descent : Descent) (attach : Attach)
    (request : EvalRequest F) (output : EvalOutput F)
  | outcome (descent : Descent) (value : F)
  | vacant

namespace WaveSimulationState

variable {G C F : Type}

def pendingToken : WaveSimulationState G C F → Option WorkToken
  | applyPending token .. | expandPending token .. | evalPending token ..
  | terminalEvalPending token .. => some token
  | _ => none

def ready? : WaveSimulationState G C F → Option (RootApplyReady G)
  | rootApplyReady ready => some ready
  | _ => none

def outcome? : WaveSimulationState G C F → Option (Descent × F)
  | outcome descent value => some (descent, value)
  | _ => none

end WaveSimulationState

structure Run (F : Type) where
  baseScores : List F
  considered : List Nat
  schedule : List Nat
  rootVisitBaseline : List Nat
  scheduleIndex : Nat
  simulations : Nat

/-- The simulations that run concurrently. -/
structure WaveRun (G C F : Type) where
  run : Run F
  active : List (WaveSimulationState G C F)
  rootApplyPreflight : Bool

namespace WaveRun

variable {G C F : Type}

def start (run : Run F) : WaveRun G C F := ⟨run, [], false⟩

def rootApplyPreflightReady (wave : WaveRun G C F) : Bool :=
  wave.rootApplyPreflight && !wave.active.isEmpty &&
    wave.active.all fun simulation => simulation.ready?.isSome

def hasPending (wave : WaveRun G C F) (token : WorkToken) : Bool :=
  wave.active.any fun simulation => simulation.pendingToken == some token

def anyPending (wave : WaveRun G C F) : Bool :=
  wave.active.any fun simulation => simulation.pendingToken.isSome

end WaveRun

end GraphZero.Search
