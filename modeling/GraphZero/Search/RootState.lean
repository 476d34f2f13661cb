import GraphZero.Search.Tree

/-!
# The root task

The search of one turn: the tree, the engine handles it has received, and
what it waits for.  Every handle is in one list until it is given away.
-/

namespace GraphZero.Search

open Engine Foundation

inductive SearchAction (C : Type) where
  | candidate (candidate : C)
  | stop
  deriving DecidableEq

def SearchAction.isStop {C : Type} : SearchAction C → Bool
  | .candidate _ => false
  | .stop => true

structure GumbelRootStats where
  simulations : Nat
  expandedNodes : Nat
  evalCount : Nat
  carriedNodes : Nat
  carriedRootVisits : Nat
  deriving DecidableEq

structure GumbelStep (G C F : Type) where
  before : G
  after : G
  action : SearchAction C
  stepRef : SearchStepRef
  selectedAction : PortableSearchActionRef
  selectedCandidate : Option (SearchCandidateSummary F)
  engineCandidateCount : Nat
  actionCount : Nat
  selectedRank : Nat
  legalActions : List PortableSearchActionRef
  policyTarget : List F
  consideredActionIndices : List Nat
  rootValue : F
  rootSearchValue : F
  rootQMax : F
  modelVersion : ModelVersion
  deriving DecidableEq

structure SymmetricRootAction (G C F : Type) where
  step : GumbelStep G C F
  player : GumbelPlayer
  selectedAfter : G
  selectedAfterContext : ReplayGraphContext
  stats : GumbelRootStats

inductive SymmetricRootResult (G C F : Type) where
  | action (result : SymmetricRootAction G C F)
  | pass (player : GumbelPlayer) (context : ReplayGraphContext)

inductive RootTaskState (G C F : Type) where
  | resolve (board : Board G)
  | eval (board : Board G) (expansion : Expansion C F)
  | waveRunning (wave : WaveRun G C F)
  | doneResult (result : SymmetricRootResult G C F)
  | done

inductive RootTaskPending (G C F : Type) where
  | expand (token : WorkToken) (board : Board G)
  | eval (token : WorkToken) (board : Board G) (expansion : Expansion C F)
    (request : EvalRequest F)

def RootTaskPending.token {G C F : Type} : RootTaskPending G C F → WorkToken
  | expand token _ | eval token _ _ _ => token

def RootTaskPending.kind {G C F : Type} : RootTaskPending G C F → WorkKind
  | expand _ _ => .expand
  | eval _ _ _ _ => .eval

/-- The subtree that the next root task of the episode starts from. -/
structure ReusedTree (G C F : Type) where
  nodes : List (Node G C F)
  createdGraphs : List G
  createdCandidates : List C
  carriedNodes : Nat
  carriedRootVisits : Nat

structure RootTask (G C F : Type) where
  config : GumbelMctsConfig F
  identity : EngineIdentity
  noiseSeed : UInt64
  visited : PerPlayer (Finset ReplayGraphContext)
  rootContext : Option ReplayGraphContext
  rootCandidates : List (RootCandidate F)
  nodes : List (Node G C F)
  createdGraphs : List G
  speculativeGraphs : List G
  createdCandidates : List C
  releasable : SearchHandleBatch G C
  reused : Option (ReusedTree G C F)
  evalCount : Nat
  carriedNodes : Nat
  carriedRootVisits : Nat
  nextToken : Nat
  pending : Option (RootTaskPending G C F)
  state : RootTaskState G C F

abbrev RootEffect (G C F : Type) : Type → Type :=
  Effect (SearchFailure F) (RootTask G C F)

section Access

variable {G C F : Type}

def internal {α : Type} (message : String) : RootEffect G C F α :=
  throw (.internal message)

/-- The value of an option; its absence fails. -/
def require {α : Type} (value : Option α) (failure : SearchFailure F) : RootEffect G C F α :=
  match value with
  | some value => pure value
  | none => throw failure

def evaluated {α : Type} (result : Except (EvalError F) α) : RootEffect G C F α :=
  match result with
  | .ok value => pure value
  | .error error => throw (.evaluation error)

def setState (state : RootTaskState G C F) : RootEffect G C F Unit :=
  modify fun task => { task with state }

def nextToken : RootEffect G C F WorkToken := do
  let task ← get
  set { task with nextToken := task.nextToken + 1 }
  pure ⟨task.nextToken⟩

def nodeAt (index : Nat) : RootEffect G C F (Node G C F) := do
  require (← get).nodes[index]? .panicked

def edgeAt (node action : Nat) : RootEffect G C F (ActionEdge G F) := do
  require (← nodeAt node).edges[action]? .panicked

def setNodes (nodes : List (Node G C F)) : RootEffect G C F Unit :=
  modify fun task => { task with nodes }

def modifyNode (index : Nat) (change : Node G C F → Node G C F) : RootEffect G C F Unit := do
  let node ← nodeAt index
  setNodes ((← get).nodes.set index (change node))

def modifyEdge (node action : Nat)
    (change : ActionEdge G F → ActionEdge G F) : RootEffect G C F Unit := do
  let edge ← edgeAt node action
  modifyNode node fun node =>
    { node with edges := node.edges.set action (change edge) }

def countEval : RootEffect G C F Unit :=
  modify fun task => { task with evalCount := task.evalCount + 1 }

def createGraph (graph : G) : RootEffect G C F Unit :=
  modify fun task =>
    { task with createdGraphs := task.createdGraphs ++ [graph] }

def createCandidates (candidates : List C) : RootEffect G C F Unit :=
  modify fun task =>
    { task with createdCandidates := task.createdCandidates ++ candidates }

def speculateGraph (graph : G) : RootEffect G C F Unit :=
  modify fun task =>
    { task with speculativeGraphs := task.speculativeGraphs ++ [graph] }

def releaseGraph (graph : G) : RootEffect G C F Unit :=
  modify fun task =>
    { task with
      releasable :=
        { task.releasable with
          graphs := task.releasable.graphs ++ [graph] } }

def RootTask.releaseAllCreated (task : RootTask G C F) : RootTask G C F :=
  { task with
    releasable := task.releasable.append
      ⟨task.createdGraphs ++ task.speculativeGraphs, task.createdCandidates⟩
    createdGraphs := []
    speculativeGraphs := []
    createdCandidates := [] }

def RootTask.takeReleasable (task : RootTask G C F) : SearchHandleBatch G C × RootTask G C F :=
  (task.releasable, { task with releasable := .empty })

def RootTask.takeAllHandles (task : RootTask G C F) : SearchHandleBatch G C × RootTask G C F :=
  let task := task.releaseAllCreated
  match task.reused with
  | none => task.takeReleasable
  | some reused =>
    RootTask.takeReleasable
      { task with
        reused := none
        releasable := task.releasable.append ⟨reused.createdGraphs, reused.createdCandidates⟩ }

def releaseAllCreated : RootEffect G C F Unit :=
  modify RootTask.releaseAllCreated

variable [DecidableEq G]

/-- Forget one occurrence of a speculative graph; the caller has it now. -/
def consumeSpeculativeGraph (graph : G) : RootEffect G C F Unit := do
  let task ← get
  if graph ∈ task.speculativeGraphs then
    set { task with
      speculativeGraphs := task.speculativeGraphs.erase graph }
  else
    internal "untracked speculative symmetric graph"

def discardSpeculativeGraph (graph : G) : RootEffect G C F Unit := do
  consumeSpeculativeGraph graph
  releaseGraph graph

end Access

section Tree

variable {G C F : Type} [Scalar F]

def position (config : GumbelMctsConfig F) (step : Nat) : EvalPositionContext F :=
  if config.exportPosition then
    { rootStep := UInt32.ofNat step
      leafDepth := 0
      budgetFraction := budgetFraction config.maxSteps step
      budgetStep := Scalar.one / Scalar.ofNat (max config.maxSteps 1) }
  else
    ⟨0, 0, Scalar.zero, Scalar.zero⟩

/-- The position of a player; the sign of its budget step says whether it has
retired. -/
def boardPosition (config : GumbelMctsConfig F) (board : Board G)
    (player : GumbelPlayer) : EvalPositionContext F :=
  let position := position config (board.rewrites.of player)
  if board.active config.maxSteps player then position
  else { position with budgetStep := -(Scalar.abs position.budgetStep) }

def stoppedBoard (node : Node G C F) : Board G :=
  let board := node.board
  { board with
    inactive := board.inactive.update board.player true
    stopped := board.stopped.update board.player true
    player := board.player.opponent }

/-- The board with the turn at a player who can move, if there is one. -/
def normalizeActivePlayer (maxSteps : Nat) (board : Board G) : Board G :=
  if board.active maxSteps board.player || board.terminal maxSteps then
    board
  else
    board.passTurn

def maskAction (node action : Nat) : RootEffect G C F Unit :=
  modifyNode node fun node => node.mask action

/-- Count a simulation along its path, from the leaf to the root. -/
def backupSteps : List PathStep → F → RootEffect G C F Unit
  | [], _ => pure ()
  | .decision node action flip :: rest, value => do
      let value := if flip then -value else value
      modifyEdge node action fun edge =>
        { edge with
          visits := edge.visits + 1
          valueSum := edge.valueSum + value }
      backupSteps rest value
  | .transform flip :: rest, value => backupSteps rest (if flip then -value else value)

def backupDescent (descent : Descent) (value : F) : RootEffect G C F Unit :=
  backupSteps descent.path.reverse value

def pushNode (node : Node G C F) : RootEffect G C F Unit :=
  modify fun task => { task with nodes := task.nodes ++ [node] }

end Tree

end GraphZero.Search
