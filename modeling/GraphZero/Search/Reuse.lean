import GraphZero.Search.RootState

/-!
# Subtree reuse

When a root task ends, the subtree of the chosen action may become the tree
of the next one.  Its nodes are renumbered, and of the engine handles it keeps
those its nodes refer to.
-/

namespace GraphZero.Search

open Engine Foundation

variable {G C F : Type}

def settled {α : Type} (result : Except (SearchFailure F) α) : RootEffect G C F α :=
  match result with
  | .ok value => pure value
  | .error failure => throw failure

namespace BranchTarget

def node? : BranchTarget F → Option Nat
  | node index => some index
  | terminal _ => none

end BranchTarget

/-- The nodes below `node`: the pass first, then the actions in order. -/
def Node.children (node : Node G C F) : List Nat :=
  ((node.pass.toList ++ node.edges.filterMap (·.branch)).filterMap
    fun branch => branch.target.node?)

/-- The nodes reachable from `stack` in the order they are first visited,
after those of `order`. -/
def visitSubtree (nodes : List (Node G C F)) : (fuel : Nat) → (stack order : List Nat) →
      Except (SearchFailure F) (List Nat)
  | _, [], order => .ok order
  | 0, _ :: _, _ => .error .unfinished
  | fuel + 1, index :: stack, order =>
    match nodes[index]? with
    | none => .error (.internal "invalid symmetric subtree node index")
    | some node =>
      if index ∈ order then visitSubtree nodes fuel stack order
      else
        visitSubtree nodes fuel (node.children ++ stack) (order ++ [index])

/-- The branch with its node renumbered to a position in `order`. -/
def remapBranch (order : List Nat) (branch : Branch F) : Except (SearchFailure F) (Branch F) :=
  match branch.target with
  | .terminal _ => .ok branch
  | .node oldIndex =>
    match order.idxOf? oldIndex with
    | some newIndex => .ok { branch with target := .node newIndex }
    | none => .error (.internal "symmetric subtree child was not retained")

def remapSlot (order : List Nat) (slot : Option (Branch F)) :
    Except (SearchFailure F) (Option (Branch F)) :=
  match slot with
  | none => .ok none
  | some branch => some <$> remapBranch order branch

def remapNode (order : List Nat) (node : Node G C F) : Except (SearchFailure F) (Node G C F) := do
  let edges ← node.edges.mapM fun edge => do
    let branch ← remapSlot order edge.branch
    pure { edge with branch }
  let pass ← remapSlot order node.pass
  pure { node with edges, pass }

def compactSubtree (nodes : List (Node G C F)) (fuel rootIndex : Nat) :
    Except (SearchFailure F) (List (Node G C F)) := do
  let order ← visitSubtree nodes fuel [rootIndex] []
  order.mapM fun oldIndex =>
    match nodes[oldIndex]? with
    | none => .error .panicked
    | some node => remapNode order node

def referencedGraphs (nodes : List (Node G C F)) : List G :=
  nodes.flatMap fun node =>
    node.board.graphs.toList ++ node.edges.filterMap (·.afterGraph)

def referencedCandidates (nodes : List (Node G C F)) : List C :=
  nodes.flatMap fun node => node.candidates

variable [DecidableEq G] [DecidableEq C]

/-- Keep `nodes` and the handles they refer to; release the others. -/
def carryOver (task : RootTask G C F) (nodes : List (Node G C F)) : RootTask G C F :=
  let graphs := referencedGraphs nodes
  let candidates := referencedCandidates nodes
  { task with
    createdGraphs := []
    createdCandidates := []
    releasable :=
      { graphs := task.releasable.graphs ++
          task.createdGraphs.filter (· ∉ graphs)
        candidates := task.releasable.candidates ++ task.createdCandidates.filter (· ∉ candidates) }
    reused := some
      { nodes
        createdGraphs := task.createdGraphs.filter (· ∈ graphs)
        createdCandidates := task.createdCandidates.filter (· ∈ candidates)
        carriedNodes := nodes.length
        carriedRootVisits := (nodes.head?.map (·.totalVisits)).getD 0 } }

def prepareReuse (fuel selected : Nat) (expected : Board G) : RootEffect G C F Unit := do
  let task ← get
  if task.config.treeReuse then
    if task.reused.isSome then
      internal "symmetric reused tree already prepared"
    let edge ← edgeAt 0 selected
    match edge.branch.bind (·.target.node?) with
    | none => pure ()
    | some rootIndex =>
      let root ← require task.nodes[rootIndex]? (.internal "invalid symmetric reused root index")
      if root.board = expected then
        let nodes ← settled (compactSubtree task.nodes fuel rootIndex)
        set (carryOver task nodes)

/-- Hand the chosen graph over to the episode. -/
def transferSelectedGraph (selected : G) : RootEffect G C F Unit := do
  let task ← get
  match task.reused with
  | some reused =>
    if selected ∈ reused.createdGraphs then
      set
        { task with
          reused := some
            { reused with
              createdGraphs := reused.createdGraphs.erase selected } }
    else
      fromCreated task
  | none => fromCreated task
where
  /-- The same when the task itself holds the graph. -/
  fromCreated (task : RootTask G C F) : RootEffect G C F Unit :=
    if selected ∈ task.createdGraphs then
      set { task with createdGraphs := task.createdGraphs.erase selected }
    else
      internal "selected symmetric graph is not owned"

end GraphZero.Search
