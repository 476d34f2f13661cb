import GraphZero.Search.MctsTree

/-!
# The single-agent root task

The search for one move.  A strategy chooses the actions; the task follows
them down the tree, has the engine apply them and adds a node for each graph
that no action has led to before.
-/

namespace GraphZero.Search

open Engine Foundation

structure StrategyRootResult (F : Type) where
  selected : Nat
  consideredActionIndices : List Nat
  policyTarget : List F
  rootSearchValue : F
  rootQMax : F

/-- How actions are chosen.  `R` is what a strategy keeps for a root.  It
reads the root, or the node that a simulation has come to. -/
structure MctsStrategy (R G C F : Type) where
  startRoot : MctsNode G C F → MctsSearchContext F → R
  selectRoot : R → MctsNode G C F → (simulations : Nat) → Except (SearchFailure F) (Option Nat)
  selectNonroot : R → MctsNode G C F → Except (SearchFailure F) Nat
  finishRoot : R → MctsNode G C F → MctsSearchContext F →
    Except (SearchFailure F) (StrategyRootResult F)

abbrev MctsRootStats : Type := GumbelRootStats

structure MctsRootResult (G C F : Type) where
  root : G
  rootContext : ReplayGraphContext
  selectedAfter : G
  selectedAfterContext : ReplayGraphContext
  selectedAction : SearchAction C
  selectedActionRef : PortableSearchActionRef
  selectedCandidate : Option (SearchCandidateSummary F)
  selectedActionIndex : Nat
  engineCandidateCount : Nat
  actionCount : Nat
  legalActions : List PortableSearchActionRef
  consideredActionIndices : List Nat
  policyTarget : List F
  rootValue : F
  rootSearchValue : F
  rootQMax : F
  modelVersion : ModelVersion
  stats : MctsRootStats

/-! ## The task -/

/-- A simulation on its way down; `forced` is the action chosen for the
root. -/
structure DescentState where
  nodeIndex : Nat
  depth : Nat
  path : List MctsEdge
  seen : Finset ReplayGraphContext
  forced : Option Nat

structure RunState (R : Type) where
  strategy : R
  simulations : Nat
  descent : Option DescentState

def RunState.completeSimulation {R : Type} (run : RunState R) : RunState R :=
  { run with simulations := run.simulations + 1, descent := none }

def RunState.withDescent {R : Type} (run : RunState R) (descent : DescentState) : RunState R :=
  { run with descent := some descent }

structure NodeExpansion (G C F : Type) extends Expansion C F where
  graph : G
  depth : Nat

/-- An expansion without a run is that of the root. -/
inductive MctsRootState (R G C F : Type) where
  | emitNodeExpand (graph : G) (expectedContext : Option ReplayGraphContext)
    (depth : Nat) (run : Option (RunState R))
  | emitNodeEval (expansion : NodeExpansion G C F)
    (run : Option (RunState R))
  | running (run : RunState R)
  | done

inductive PendingRootWork (R G C F : Type) where
  | expandNode (token : WorkToken) (graph : G)
    (expectedContext : Option ReplayGraphContext) (depth : Nat)
    (run : Option (RunState R))
  | evalNode (token : WorkToken) (expansion : NodeExpansion G C F)
    (run : Option (RunState R)) (request : EvalRequest F)
  | apply (token : WorkToken) (run : RunState R) (action : Nat)

def PendingRootWork.token {R G C F : Type} : PendingRootWork R G C F → WorkToken
  | expandNode token _ _ _ _ | evalNode token _ _ _ | apply token _ _ => token

structure MctsRootTask (R G C F : Type) where
  config : MctsConfig
  identity : EngineIdentity
  root : G
  context : MctsSearchContext F
  rootContext : Option ReplayGraphContext
  visited : Finset ReplayGraphContext
  tree : MctsTree G C F
  nextToken : Nat
  pending : Option (PendingRootWork R G C F)
  state : MctsRootState R G C F

abbrev MctsRootEffect (R G C F : Type) : Type → Type :=
  Effect (SearchFailure F) (MctsRootTask R G C F)

/-- The summary of an action; a stop has none. -/
def MctsNode.summaryAt {G C F : Type} (node : MctsNode G C F) (action : Nat) :
    Except (SearchFailure F) (Option (SearchCandidateSummary F)) :=
  if node.isStop action then .ok none
  else
    match node.candidates[action]? with
    | some candidate => .ok (some candidate.summary)
    | none => .error .panicked

namespace MctsRootTask

variable {R G C F : Type}

def new (config : MctsConfig) (identity : EngineIdentity) (root : G)
    (context : MctsSearchContext F) : MctsRootTask R G C F where
  config
  identity
  root
  context
  rootContext := none
  visited := ∅
  tree := .empty
  nextToken := 0
  pending := none
  state := .emitNodeExpand root none 0 none

def setVisited (task : MctsRootTask R G C F)
    (visited : Finset ReplayGraphContext) : MctsRootTask R G C F :=
  { task with visited }

variable (strategy : MctsStrategy R G C F)

def startRunState (task : MctsRootTask R G C F) (root : MctsNode G C F) : RunState R :=
  ⟨strategy.startRoot root task.context, 0, none⟩

/-- The task that goes on with the subtree of an action, if the action led to
a node, and the handles this subtree refers to. -/
def reusedChildTask (task : MctsRootTask R G C F) (action : Nat) (root : G)
    (expectedContext : ReplayGraphContext) (context : MctsSearchContext F) :
    Except (SearchFailure F) (Option (MctsRootTask R G C F × SearchHandleBatch G C)) := do
  let child ← match task.tree.nodes.head?.bind (·.actions[action]?) with
    | some stats => .ok stats.child
    | none => .error .panicked
  match child with
  | none => .ok none
  | some childIndex => do
      let (tree, rootContext, handles) ← task.tree.compactSubtree childIndex
      if rootContext ≠ expectedContext then
        .error (.internal "reused root context mismatch")
      else
        let reused : MctsRootTask R G C F :=
          { config := task.config
            identity := task.identity
            root
            context
            rootContext := some rootContext
            visited := ∅
            tree
            nextToken := 0
            pending := none
            state := .done }
        match tree.nodes.head? with
        | none => .error .panicked
        | some node =>
          let run := reused.startRunState strategy node
          .ok (some ({ reused with state := .running run }, handles))

/-! ### Steps -/

def failRoot {α : Type} (message : String) : MctsRootEffect R G C F α :=
  throw (.internal message)

def setMctsState (state : MctsRootState R G C F) : MctsRootEffect R G C F Unit :=
  modify fun task => { task with state }

def setPending (pending : Option (PendingRootWork R G C F)) : MctsRootEffect R G C F Unit :=
  modify fun task => { task with pending }

def modifyTree (change : MctsTree G C F → MctsTree G C F) : MctsRootEffect R G C F Unit :=
  modify fun task => { task with tree := change task.tree }

def takeToken : MctsRootEffect R G C F WorkToken := do
  let task ← get
  set { task with nextToken := task.nextToken + 1 }
  pure ⟨task.nextToken⟩

def treeNode (index : Nat) : MctsRootEffect R G C F (MctsNode G C F) := do
  match (← get).tree.nodes[index]? with
  | some node => pure node
  | none => throw .panicked

def runDescent (run : RunState R) : MctsRootEffect R G C F DescentState :=
  match run.descent with
  | some descent => pure descent
  | none => failRoot "missing descent"

/-- The run at a new descent from the root, if the strategy goes on. -/
def startDescent (run : RunState R) : MctsRootEffect R G C F (Option (RunState R)) := do
  let root ← treeNode 0
  match ← MonadExcept.ofExcept (strategy.selectRoot run.strategy root run.simulations) with
  | none => pure none
  | some action =>
    pure (some (run.withDescent
      { nodeIndex := 0
        depth := 0
        path := []
        seen := {root.context}
        forced := some action }))

/-- The action a descent goes on with. -/
def descentAction (run : RunState R) (descent : DescentState)
    (node : MctsNode G C F) : Except (SearchFailure F) Nat :=
  match descent.forced with
  | some action => .ok action
  | none => strategy.selectNonroot run.strategy node

/-- Whether an applied action leads back to where the episode has been. -/
def backtracks (task : MctsRootTask R G C F) (context : ReplayGraphContext) : Bool :=
  task.config.noBacktrack && (decide (task.rootContext = some context) ||
      decide (context ∈ task.visited))

/-- Whether a node at `depth` is at the horizon of the episode. -/
def atHorizon (task : MctsRootTask R G C F) (depth : Nat) : Bool :=
  task.config.predictedHorizon &&
    decide (task.config.maxSteps ≤ task.context.rootStep.toNat + depth)

section Searching

variable [Scalar F]

/-- The values along the path are backed up and the simulation ends. -/
def finishSimulation (run : RunState R) (path : List MctsEdge) (value : F) :
    MctsRootEffect R G C F (RunState R) := do
  modifyTree fun tree => tree.backup path value
  pure run.completeSimulation

/-- One action down the tree: a stop ends the simulation, and a candidate is
applied by the engine. -/
def pollDescent (run : RunState R) : MctsRootEffect R G C F (RunState R ⊕ SearchWork G C F) := do
  let descent ← runDescent run
  let node ← treeNode descent.nodeIndex
  let action ← MonadExcept.ofExcept (descentAction strategy run descent node)
  let descent := { descent with forced := none }
  if node.isStop action then
    let run ← finishSimulation run (descent.path ++ [⟨descent.nodeIndex, action⟩]) node.value
    pure (.inl run)
  else
    match node.candidates[action]? with
    | none => throw .panicked
    | some candidate => do
        let token ← takeToken
        setPending (some (.apply token (run.withDescent descent) action))
        pure (.inr (.apply ⟨token, node.graph, candidate.handle⟩))

/-- What the search found, for a root that the strategy has chosen from. -/
def rootResult (task : MctsRootTask R G C F) (run : RunState R)
    (root : MctsNode G C F) (chosen : StrategyRootResult F) :
    Except (SearchFailure F) (MctsRootResult G C F) := do
  let selected := chosen.selected
  let selectedAfter ← task.tree.selectedAfter root selected
  let selectedAfterContext ← task.tree.selectedAfterContext root selected
  let selectedAction ← root.searchAction selected
  match task.rootContext with
  | none => .error (.internal "missing root context")
  | some rootContext => do
      let selectedActionRef ← root.actionRef selected
      let selectedCandidate ← root.summaryAt selected
      .ok
        { root := task.root
          rootContext
          selectedAfter
          selectedAfterContext
          selectedAction
          selectedActionRef
          selectedCandidate
          selectedActionIndex := selected
          engineCandidateCount := root.candidates.length
          actionCount := root.actionCount
          legalActions := root.actionRefs
          consideredActionIndices := chosen.consideredActionIndices
          policyTarget := chosen.policyTarget
          rootValue := root.value
          rootSearchValue := chosen.rootSearchValue
          rootQMax := chosen.rootQMax
          modelVersion := root.modelVersion
          stats :=
            { simulations := run.simulations
              expandedNodes := task.tree.nodes.length
              evalCount := task.tree.evalCount
              carriedNodes := task.tree.carriedNodes
              carriedRootVisits := task.tree.carriedRootVisits } }

def finishRoot (run : RunState R) : MctsRootEffect R G C F (MctsRootResult G C F) := do
  let task ← get
  let root ← treeNode 0
  let chosen ← MonadExcept.ofExcept (strategy.finishRoot run.strategy root task.context)
  MonadExcept.ofExcept (task.rootResult run root chosen)

/-- One round of the loop: a new descent, or one action of the one under
way. -/
def runningRound (run : RunState R) : MctsRootEffect R G C F
      (RunState R ⊕ SearchPoll G C F (MctsRootResult G C F)) := do
  let started ← match run.descent with
    | some _ => pure (some run)
    | none => startDescent strategy run
  match started with
  | none => do
      let result ← finishRoot strategy run
      pure (.inr (.done result))
  | some run => do
      match ← pollDescent strategy run with
      | .inl next => pure (.inl next)
      | .inr work => pure (.inr (.work work))

def pollNodeEval (expansion : NodeExpansion G C F) (run : Option (RunState R)) :
    MctsRootEffect R G C F (SearchPoll G C F (MctsRootResult G C F)) := do
  let task ← get
  match EvalRequest.withPosition expansion.context expansion.evalActions
      (task.context.position expansion.depth) with
  | .error _ => failRoot "invalid mcts eval request"
  | .ok request => do
      let token ← takeToken
      setPending (some (.evalNode token expansion run request))
      pure (.work (.eval
        { token
          graph := expansion.graph
          candidates := expansion.candidates.map (·.handle)
          request
          measureOptions := task.config.measureOptions
          opponent := none }))

/-- Go on with the search; the loop takes at most `fuel` rounds. -/
def poll (fuel : Nat) : MctsRootEffect R G C F (SearchPoll G C F (MctsRootResult G C F)) := do
  let task ← get
  if task.pending.isSome then pure .blocked
  else
    setMctsState .done
    match task.state with
    | .emitNodeExpand graph expectedContext depth run => do
        let token ← takeToken
        setPending (some (.expandNode token graph expectedContext depth run))
        pure (.work (.expand ⟨token, graph, task.config.candidateOptions⟩))
    | .emitNodeEval expansion run => pollNodeEval expansion run
    | .running run => Effect.loop .unfinished (runningRound strategy) fuel run
    | .done => failRoot "poll after done"

/-! ### Results that come in -/

def resumeExpand (graph : G) (expectedContext : Option ReplayGraphContext)
    (depth : Nat) (run : Option (RunState R)) (result : ExpandResult C F) :
    MctsRootEffect R G C F Unit := do
  let context := (← get).identity.context result.graphHash
  if expectedContext.any fun expected => decide (expected ≠ context) then
    failRoot "expand graph hash mismatch"
  if run.isNone then
    modify fun task => { task with rootContext := some context }
  setMctsState (.emitNodeEval
    { toExpansion := expansionOf context result
      graph
      depth }
    run)

/-- The evaluated node is the last one of the tree. -/
def finalizeNode (expansion : NodeExpansion G C F) (output : EvalOutput F) :
    MctsRootEffect R G C F Unit :=
  modify fun task =>
    { task with
      tree :=
        { task.tree with
          evalCount := task.tree.evalCount + 1
          nodes := task.tree.nodes ++ [.new expansion.graph expansion.context expansion.candidates
              output task.config.maskStop
              (task.atHorizon expansion.depth)] } }

/-- The last edge of a path gets its child. -/
def attachChild (edge : MctsEdge) (child : Nat) : MctsRootEffect R G C F Unit :=
  modifyTree fun tree => tree.modifyNode edge.nodeIndex fun node =>
    node.modify edge.action fun stats => { stats with child := some child }

def resumeNodeEval (expansion : NodeExpansion G C F)
    (run : Option (RunState R)) (request : EvalRequest F)
    (output : EvalOutput F) : MctsRootEffect R G C F Unit := do
  match output.validateFor request with
  | .error error => throw (.evaluation error)
  | .ok () => do
      let nodeIndex := (← get).tree.nodes.length
      finalizeNode expansion output
      match run with
      | some run => do
          let node ← treeNode nodeIndex
          let descent ← runDescent run
          match descent.path.getLast? with
          | none => failRoot "missing edge"
          | some edge => do
              attachChild edge nodeIndex
              let run ← finishSimulation run descent.path node.value
              setMctsState (.running run)
      | none => do
          let root ← treeNode 0
          let task ← get
          setMctsState (.running (task.startRunState strategy root))

def childOf (node : MctsNode G C F) (action : Nat) : MctsRootEffect R G C F (Option Nat) :=
  match node.actions[action]? with
  | some stats => pure stats.child
  | none => throw .panicked

/-- The simulation goes on at a child that it may enter. -/
def enterChild (run : RunState R) (descent : DescentState) (childIndex : Nat) :
    MctsRootEffect R G C F Unit := do
  let child ← treeNode childIndex
  if child.terminal || decide (child.context ∈ descent.seen) then
    let run ← finishSimulation run descent.path child.value
    setMctsState (.running run)
  else
    setMctsState (.running (run.withDescent
      { descent with
        seen := insert child.context descent.seen
        nodeIndex := childIndex
        depth := descent.depth + 1 }))

def resumeApply (run : RunState R) (action : Nat) (applied : ApplyResult G) :
    MctsRootEffect R G C F Unit := do
  let descent ← runDescent run
  let task ← get
  let childContext := task.identity.context applied.afterHash
  if applied.rejected || task.backtracks childContext then
    modifyTree fun tree => tree.maskAction descent.nodeIndex action
    setMctsState (.running run)
  else
    let descent :=
      { descent with
        path := descent.path ++ [⟨descent.nodeIndex, action⟩] }
    let node ← treeNode descent.nodeIndex
    match ← childOf node action with
    | some child => enterChild run descent child
    | none =>
      setMctsState (.emitNodeExpand applied.after (some childContext)
        (descent.depth + 1) (some (run.withDescent descent)))

def resumePending (pending : PendingRootWork R G C F)
    (result : SearchWorkResult G C F) : MctsRootEffect R G C F Unit :=
  match pending, result with
  | .expandNode _ graph expectedContext depth run, .expand result => do
      setPending none
      resumeExpand graph expectedContext depth run result
  | .evalNode _ expansion run request, .eval output => do
      setPending none
      resumeNodeEval strategy expansion run request output
  | .apply _ run action, .apply applied => do
      setPending none
      resumeApply run action applied
  | _, _ => failRoot "mismatched work result"

def resume (token : WorkToken) (result : SearchWorkResult G C F) : MctsRootEffect R G C F Unit := do
  match (← get).pending with
  | none => failRoot "resume without pending work"
  | some pending =>
    if pending.token ≠ token then failRoot "unknown work token"
    else resumePending strategy pending result

end Searching

end MctsRootTask

end GraphZero.Search
