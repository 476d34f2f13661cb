import GraphZero.Foundation.Traversal
import GraphZero.Search.RootState

/-!
# The single-agent search tree

A node holds the evaluation of a graph and, for each action, what the search
knows of it.  The actions are the candidates in their order and then the stop,
which stays at the graph.
-/

namespace GraphZero.Search

open Engine Foundation

/-- Configuration that all single-agent searches share. -/
structure MctsConfig where
  maxSteps : Nat
  simulations : Nat
  simulations_pos : 0 < simulations
  seed : UInt64
  temperatureMoves : Nat
  treeReuse : Bool
  exportPosition : Bool
  maskStop : Bool
  noBacktrack : Bool
  predictedHorizon : Bool
  candidateOptions : CandidateOptions
  measureOptions : MeasureOptions

structure MctsSearchContext (F : Type) where
  rootStep : UInt32
  budgetFraction : F
  budgetStep : F
  selectionTemperature : F
  noiseSeed : UInt64
  exportPosition : Bool

def MctsSearchContext.position {F : Type} [Scalar F]
    (context : MctsSearchContext F) (leafDepth : Nat) :
    EvalPositionContext F :=
  if context.exportPosition then
    { rootStep := context.rootStep
      leafDepth := UInt32.ofNat leafDepth
      budgetFraction := context.budgetFraction
      budgetStep := context.budgetStep }
  else ⟨0, 0, Scalar.zero, Scalar.zero⟩

/-! ## Nodes -/

/-- What a node knows of one of its actions. -/
structure ActionStats (F : Type) where
  logit : F
  prior : F
  child : Option Nat
  visits : Nat
  valueSum : F
  q : F
  masked : Bool

structure MctsNode (G C F : Type) where
  graph : G
  context : ReplayGraphContext
  candidates : List (CandidateEntry C F)
  actions : List (ActionStats F)
  value : F
  terminal : Bool
  modelVersion : ModelVersion

structure MctsTree (G C F : Type) where
  nodes : List (MctsNode G C F)
  evalCount : Nat
  carriedNodes : Nat
  carriedRootVisits : Nat

structure MctsEdge where
  nodeIndex : Nat
  action : Nat

variable {G C F : Type}

namespace MctsNode

def stop (node : MctsNode G C F) : Nat :=
  node.candidates.length

def actionCount (node : MctsNode G C F) : Nat :=
  node.actions.length

def isStop (node : MctsNode G C F) (action : Nat) : Bool :=
  decide (action = node.stop)

def children (node : MctsNode G C F) : List Nat :=
  node.actions.filterMap (·.child)

def visits (node : MctsNode G C F) : List Nat :=
  node.actions.map (·.visits)

def searchAction (node : MctsNode G C F) (action : Nat) :
    Except (SearchFailure F) (SearchAction C) :=
  if node.isStop action then .ok .stop
  else
    match node.candidates[action]? with
    | some candidate => .ok (.candidate candidate.handle)
    | none => .error (.internal "invalid selected action")

def actionRef (node : MctsNode G C F) (action : Nat) :
    Except (SearchFailure F) PortableSearchActionRef :=
  if node.isStop action then .ok (.stop node.context)
  else
    match node.candidates[action]? with
    | some candidate => .ok (candidateRef node.context candidate.hash)
    | none => .error (.internal "invalid selected action")

def actionRefs (node : MctsNode G C F) : List PortableSearchActionRef :=
  node.candidates.map (fun candidate =>
    candidateRef node.context candidate.hash) ++ [.stop node.context]

/-- Whether an action is masked; a position past the end counts as masked. -/
def isMasked (node : MctsNode G C F) (action : Nat) : Bool :=
  match node.actions[action]? with
  | some stats => stats.masked
  | none => true

def unmaskedActions (node : MctsNode G C F) : List Nat :=
  (List.range node.actionCount).filter fun action => !node.isMasked action

/-- Change what is known of one action. -/
def modify (node : MctsNode G C F) (action : Nat)
    (change : ActionStats F → ActionStats F) : MctsNode G C F :=
  { node with actions := node.actions.modify action change }

/-- Mask the action; a stop that is the only action left is opened. -/
def mask (node : MctsNode G C F) (action : Nat) : MctsNode G C F :=
  let masked := node.modify action fun stats => { stats with masked := true }
  if (masked.actions.take node.stop).all (·.masked) then
    masked.modify node.stop fun stats => { stats with masked := false }
  else masked

variable [Scalar F]

def new (graph : G) (context : ReplayGraphContext)
    (candidates : List (CandidateEntry C F)) (output : EvalOutput F)
    (maskStop terminal : Bool) : MctsNode G C F where
  graph
  context
  candidates
  actions := (output.policyLogits.zip (softmax output.policyLogits)).zipIdx.map
    fun ((logit, prior), action) =>
      { logit
        prior
        child := none
        visits := 0
        valueSum := Scalar.zero
        q := Scalar.zero
        masked := maskStop && !candidates.isEmpty && decide (action = candidates.length) }
  value := output.value
  terminal
  modelVersion := output.modelVersion

def visit (node : MctsNode G C F) (action : Nat) (value : F) : MctsNode G C F :=
  node.modify action fun stats =>
    let visits := stats.visits + 1
    let valueSum := stats.valueSum + value
    { stats with
      visits
      valueSum
      q := valueSum / Scalar.ofNat visits }

end MctsNode

namespace MctsTree

def empty : MctsTree G C F := ⟨[], 0, 0, 0⟩

def modifyNode (tree : MctsTree G C F) (index : Nat)
    (change : MctsNode G C F → MctsNode G C F) : MctsTree G C F :=
  { tree with nodes := tree.nodes.modify index change }

def backup [Scalar F] (tree : MctsTree G C F) (path : List MctsEdge) (value : F) : MctsTree G C F :=
  path.foldl (fun tree edge => tree.modifyNode edge.nodeIndex fun node =>
    node.visit edge.action value) tree

def maskAction (tree : MctsTree G C F) (nodeIndex action : Nat) : MctsTree G C F :=
  tree.modifyNode nodeIndex fun node => node.mask action

/-- The node an action leads to: a stop stays at the node itself. -/
def selectedNode (tree : MctsTree G C F) (node : MctsNode G C F)
    (action : Nat) : Except (SearchFailure F) (MctsNode G C F) :=
  if node.isStop action then .ok node
  else
    match (node.actions[action]?).map (·.child) with
    | none => .error .panicked
    | some none => .error (.internal "missing selected child")
    | some (some child) =>
      match tree.nodes[child]? with
      | some found => .ok found
      | none => .error .panicked

def selectedAfter (tree : MctsTree G C F) (node : MctsNode G C F)
    (action : Nat) : Except (SearchFailure F) G :=
  (·.graph) <$> tree.selectedNode node action

def selectedAfterContext (tree : MctsTree G C F) (node : MctsNode G C F)
    (action : Nat) : Except (SearchFailure F) ReplayGraphContext :=
  (·.context) <$> tree.selectedNode node action

def childrenAt (nodes : List (MctsNode G C F)) (index : Nat) :
    Except (SearchFailure F) (List Nat) :=
  match nodes[index]? with
  | some node => .ok node.children
  | none => .error .panicked

/-- One round for the root and one for each child is enough. -/
def traversalRounds (nodes : List (MctsNode G C F)) : Nat :=
  1 + (nodes.map fun node => node.children.length).sum

/-- The nodes below `root` in the order in which they are renumbered. -/
def oldIndices (nodes : List (MctsNode G C F)) (root : Nat) : Except (SearchFailure F) (List Nat) :=
  traverse (childrenAt nodes) .unfinished (traversalRounds nodes) [root] []

def remapNode (order : List Nat) (node : MctsNode G C F) : MctsNode G C F :=
  { node with
    actions := node.actions.map fun stats =>
      { stats with child := stats.child.bind fun old => order.idxOf? old } }

def copyNode (nodes : List (MctsNode G C F)) (order : List Nat)
    (oldIndex : Nat) : Except (SearchFailure F) (MctsNode G C F) :=
  match nodes[oldIndex]? with
  | some node => .ok (remapNode order node)
  | none => .error .panicked

/-- The tree of the copied nodes, the context of its root and the handles its
nodes refer to. -/
def carried (nodes : List (MctsNode G C F)) (root : MctsNode G C F) :
    MctsTree G C F × ReplayGraphContext × SearchHandleBatch G C :=
  ({ nodes
     evalCount := 0
     carriedNodes := nodes.length
     carriedRootVisits := root.visits.sum },
    root.context,
    { graphs := nodes.map (·.graph)
      candidates := nodes.flatMap fun node =>
        node.candidates.map (·.handle) })

def compactSubtree (tree : MctsTree G C F) (rootIndex : Nat) : Except (SearchFailure F)
      (MctsTree G C F × ReplayGraphContext × SearchHandleBatch G C) := do
  let order ← oldIndices tree.nodes rootIndex
  let nodes ← order.mapM (copyNode tree.nodes order)
  match nodes.head? with
  | none => .error (.internal "empty reused subtree")
  | some root => .ok (carried nodes root)

end MctsTree

end GraphZero.Search
