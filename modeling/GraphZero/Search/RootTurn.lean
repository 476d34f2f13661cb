import GraphZero.Search.Reuse

/-!
# Turns of the root task

The turn before and after the simulations: the root is expanded and
evaluated, a run is scheduled, and at the end an action is chosen.
-/

namespace GraphZero.Search

open Engine Foundation

variable {G C F : Type} [Scalar F]

def playerSalt : UInt64 := 0x73796d6d5f706c79

/-- The scores that root noise is added to. -/
def rootLogits (root : Node G C F) : List F :=
  (root.logits.zip root.masked).map fun entry =>
    if entry.2 then Scalar.negInfinity else entry.1

def noiseScale (config : GumbelMctsConfig F) (logits : List F) : F :=
  if Scalar.lessEq Scalar.zero config.gumbelNoiseOverlap then
    overlapNoiseScale logits config.maxConsideredActions
      config.gumbelNoiseOverlap config.gumbelScale
  else
    config.gumbelScale

def rootRng (task : RootTask G C F) (root : Node G C F) : GumbelRng :=
  let playerSeed :=
    match root.board.player with
    | .one => 0
    | .two => playerSalt
  ⟨rootSeed (task.config.seed ^^^ task.noiseSeed ^^^ playerSeed)
    (UInt32.ofNat (root.board.rewrites.of root.board.player))⟩

def startRun (task : RootTask G C F) : Except (SearchFailure F) (Run F) :=
  match task.nodes.head? with
  | none => .error (.internal "missing symmetric root node")
  | some root =>
    let logits := rootLogits root
    let noise := sampleRootGumbels root.logits.length
      (noiseScale task.config logits) (rootRng task root)
    let baseScores := List.zipWith (· + ·) logits noise
    let considered := (consideredActions baseScores task.config.maxConsideredActions).filter
          fun action => !root.isMasked action
    .ok
      { baseScores
        considered
        schedule := consideredVisitSequence considered.length task.config.simulations
        rootVisitBaseline := root.edges.map (·.visits)
        scheduleIndex := 0
        simulations := 0 }

/-- The board with the context of the graph that was expanded; it is also the
opponent's where both play on one graph. -/
def placeContext [DecidableEq G] (board : Board G) (context : ReplayGraphContext) : Board G :=
  let contexts := board.contexts.update board.player (some context)
  let opponent := board.player.opponent
  if board.graphs.one = board.graphs.two then
    { board with
      contexts := contexts.update opponent (some ((contexts.of opponent).getD context)) }
  else
    { board with contexts }

/-- Pass without candidates, else ask for an evaluation. -/
def enterRoot [DecidableEq G] (board : Board G)
    (context : ReplayGraphContext) (result : ExpandResult C F) :
    RootEffect G C F Unit := do
  modify fun task => { task with rootContext := some context }
  if result.candidates.isEmpty then
    releaseAllCreated
    setState (.doneResult (.pass board.player context))
  else
    setState (.eval (placeContext board context) (expansionOf context result))

def resumeExpand [DecidableEq G] (board : Board G)
    (result : ExpandResult C F) : RootEffect G C F Unit := do
  createCandidates (result.candidates.map (·.candidate))
  let context := (← get).identity.context result.graphHash
  if (board.contexts.of board.player).any (· ≠ context) then
    internal "symmetric graph context mismatch"
  enterRoot board context result

/-- The work of evaluating `board` for the player to move. -/
def evalWork (config : GumbelMctsConfig F) (token : WorkToken)
    (board : Board G) (candidates : List C) (request : EvalRequest F) :
    EvalWork G C F :=
  let player := board.player
  let opponent := player.opponent
  { token
    graph := board.graphs.of player
    candidates
    request
    measureOptions := config.measureOptions
    opponent := some
      { graph := board.graphs.of opponent
        position := boardPosition config board opponent } }

def evalRequest (config : GumbelMctsConfig F) (board : Board G)
    (context : ReplayGraphContext) (actions : List (EvalAction F))
    (message : String) : Except (SearchFailure F) (EvalRequest F) :=
  match EvalRequest.withPosition context actions (boardPosition config board board.player) with
  | .ok request => .ok request
  | .error _ => .error (.internal message)

def pollEval {R : Type} (board : Board G) (expansion : Expansion C F) :
    RootEffect G C F (SearchPoll G C F R) := do
  let config := (← get).config
  let request ← settled (evalRequest config board expansion.context
    expansion.evalActions "invalid symmetric eval request")
  let token ← nextToken
  modify fun task =>
    { task with pending := some (.eval token board expansion request) }
  pure (.work (.eval (evalWork config token board (expansion.candidates.map (·.handle)) request)))

def resumeEval (board : Board G) (expansion : Expansion C F)
    (request : EvalRequest F) (output : EvalOutput F) :
    RootEffect G C F Unit := do
  evaluated (output.validateFor request)
  let task ← get
  let node := newNode task.config board expansion output
  if task.nodes.isEmpty then
    modify fun task => { task with rootCandidates := node.candidateMetadata }
  pushNode node
  countEval
  let run ← settled (startRun (← get))
  setState (.waveRunning (.start run))

/-! ## Choosing an action -/

/-- The root counted each simulation of the run once. -/
def checkVisitLedger (root : Node G C F) (run : Run F) : Except (SearchFailure F) Unit := do
  if root.edges.length ≠ run.rootVisitBaseline.length then
    throw (.internal "symmetric root visit baseline length mismatch")
  if ((root.edges.zip run.rootVisitBaseline).any fun entry =>
      decide (entry.1.visits < entry.2)) then
    throw (.internal "symmetric root visits fell below their baseline")
  if 2 ^ 32 ≤ run.simulations then
    throw (.internal "symmetric simulation count overflow")
  if 2 ^ 32 ≤ run.rootVisitBaseline.sum then
    throw (.internal "symmetric root visit baseline overflow")
  let expectedVisits := run.rootVisitBaseline.sum + run.simulations
  if 2 ^ 32 ≤ expectedVisits then
    throw (.internal "symmetric root visit total overflow")
  if root.totalVisits ≠ expectedVisits then
    throw (.internal "symmetric root visit ledger did not add the configured budget")

/-- The action with the most fresh visits, then the best score, among those
considered; among all open actions when none of these is. -/
def selectRoot (config : GumbelMctsConfig F) (root : Node G C F) (run : Run F) : Option Nat :=
  let scores := root.maskedScores config run.baseScores
  let considered := run.considered.filter fun action =>
    !root.isMasked action
  let selectable :=
    if considered.isEmpty then root.openActions else considered
  let fresh := fun action =>
    (root.edges.map (·.visits)).getD action 0 - run.rootVisitBaseline.getD action 0
  maxBy (fun left right =>
      (compare (fresh left) (fresh right)).then
        ((Scalar.totalCmp (scores.getD left Scalar.zero)
          (scores.getD right Scalar.zero)).then (compare right left)))
    selectable

structure RootMove (G C F : Type) where
  after : G
  afterContext : ReplayGraphContext
  actionRef : PortableSearchActionRef
  action : SearchAction C
  candidate : Option (SearchCandidateSummary F)

def selectedMove (task : RootTask G C F) (root : Node G C F)
    (selected : Nat) : Except (SearchFailure F) (RootMove G C F) :=
  if root.isStop selected then
    .ok
      { after := root.board.currentGraph
        afterContext := root.context
        actionRef := .stop root.context
        action := .stop
        candidate := none }
  else
    match root.edges[selected]?, task.rootCandidates[selected]?,
      root.candidates[selected]? with
    | some edge, some metadata, some candidate =>
      match edge.afterGraph, edge.afterContext with
      | none, _ => .error (.internal "selected symmetric action was not applied")
      | _, none => .error (.internal "selected symmetric action has no context")
      | some after, some afterContext =>
        .ok
          { after
            afterContext
            actionRef := candidateRef root.context metadata.hash
            action := .candidate candidate
            candidate := some metadata.summary }
    | _, _, _ => .error .panicked

def successorBoard (root : Node G C F) (stop : Bool) (move : RootMove G C F) : Board G :=
  if stop then stoppedBoard root
  else
    let board := root.board
    let player := board.player
    { board with
      graphs := board.graphs.update player move.after
      contexts := board.contexts.update player (some move.afterContext)
      rewrites := board.rewrites.update player (board.rewrites.of player + 1)
      player := player.opponent }

def rootQMax (root : Node G C F) : F :=
  (Scalar.maximum ((root.edges.filter fun edge => decide (0 < edge.visits)).map
      (·.q))).getD root.value

def finishedStep (task : RootTask G C F) (root : Node G C F) (run : Run F)
    (selected : Nat) (move : RootMove G C F) :
    Except (SearchFailure F) (GumbelStep G C F) :=
  match SearchStepRef.new root.context move.actionRef move.afterContext with
  | .error _ => .error (.internal "invalid search step ref")
  | .ok stepRef =>
    .ok
      { before := root.board.currentGraph
        after := move.after
        action := move.action
        stepRef
        selectedAction := move.actionRef
        selectedCandidate := move.candidate
        engineCandidateCount := root.candidates.length
        actionCount := root.actionCount
        selectedRank := selected
        legalActions := root.actionRefs task.rootCandidates
        policyTarget := root.improvedPolicy task.config
        consideredActionIndices := run.considered
        rootValue := root.value
        rootSearchValue := root.searchValue
        rootQMax := rootQMax root
        modelVersion := root.modelVersion }

def rootStats (task : RootTask G C F) (run : Run F) : GumbelRootStats where
  simulations := run.simulations
  expandedNodes := task.nodes.length
  evalCount := task.evalCount
  carriedNodes := task.carriedNodes
  carriedRootVisits := task.carriedRootVisits

section Finish

variable [DecidableEq G] [DecidableEq C]

/-- Give the chosen action out and keep what the next root may reuse. -/
def finishAction (fuel : Nat) (root : Node G C F) (run : Run F) (selected : Nat) :
    RootEffect G C F (SymmetricRootResult G C F) := do
  let task ← get
  let stop := root.isStop selected
  let move ← settled (selectedMove task root selected)
  let step ← settled (finishedStep task root run selected move)
  prepareReuse fuel selected (normalizeActivePlayer task.config.maxSteps
      (successorBoard root stop move))
  if !stop then
    transferSelectedGraph move.after
  releaseAllCreated
  setState .done
  pure (.action
    { step
      player := root.board.player
      selectedAfter := move.after
      selectedAfterContext := move.afterContext
      stats := rootStats task run })

def finishRoot (fuel : Nat) (run : Run F) : RootEffect G C F
      (SearchPoll G C F (SymmetricRootResult G C F)) := do
  let task ← get
  let root ← require task.nodes.head? (.internal "missing symmetric root node")
  settled (checkVisitLedger root run)
  match selectRoot task.config root run with
  | none =>
    releaseAllCreated
    setState .done
    pure (.done (.pass root.board.player root.context))
  | some selected =>
    let result ← finishAction fuel root run selected
    pure (.done result)

end Finish

/-! ## The reused task -/

/-- Mask what would return to a state of the episode so far, and forget its
statistics. -/
def refreshNode (visited : PerPlayer (Finset ReplayGraphContext))
    (rootContexts : PerPlayer (Option ReplayGraphContext))
    (node : Node G C F) : Node G C F :=
  let player := node.board.player
  let returns := fun edge : ActionEdge G F =>
    edge.afterContext.any fun context =>
      decide (context ∈ visited.of player) || rootContexts.of player == some context ||
        node.board.contexts.of player == some context
  { node with
    masked := (node.masked.zip node.edges).map fun entry =>
      entry.1 || returns entry.2
    priors := (node.priors.zip node.edges).map fun entry =>
      if returns entry.2 then Scalar.zero else entry.1
    edges := node.edges.map fun edge =>
      if returns edge then
        { edge with visits := 0, valueSum := Scalar.zero }
      else edge }

def refreshReusedNoBacktrackMasks (task : RootTask G C F) : RootTask G C F :=
  if task.config.noBacktrack then
    let rootContexts :=
      match task.nodes.head? with
      | some root => root.board.contexts
      | none => ⟨none, none⟩
    { task with
      nodes := task.nodes.map (refreshNode task.visited rootContexts) }
  else
    task

/-- The task over the carried subtree. -/
def reusedTask (task : RootTask G C F) (visited : PerPlayer (Finset ReplayGraphContext))
    (reused : ReusedTree G C F) (root : Node G C F) : RootTask G C F :=
  refreshReusedNoBacktrackMasks
    { config := task.config
      identity := task.identity
      noiseSeed := task.noiseSeed
      visited
      rootContext := some root.context
      rootCandidates := root.candidateMetadata
      nodes := reused.nodes
      createdGraphs := reused.createdGraphs
      speculativeGraphs := []
      createdCandidates := reused.createdCandidates
      releasable := .empty
      reused := none
      evalCount := 0
      carriedNodes := reused.carriedNodes
      carriedRootVisits := reused.carriedRootVisits
      nextToken := 0
      pending := none
      state := .done }

def takeReusedTask (visited : PerPlayer (Finset ReplayGraphContext)) :
    RootEffect G C F (Option (RootTask G C F)) := do
  let task ← get
  match task.reused with
  | none => pure none
  | some reused =>
    modify fun task => { task with reused := none }
    match reused.nodes.head? with
    | none =>
      modify fun task =>
        { task with
          releasable := task.releasable.append ⟨reused.createdGraphs, reused.createdCandidates⟩ }
      internal "empty symmetric reused tree"
    | some root =>
      let next := reusedTask task visited reused root
      match startRun next with
      | .error failure =>
        modify fun task =>
          { task with
            releasable :=
              task.releasable.append next.takeAllHandles.1 }
        throw failure
      | .ok run => pure (some { next with state := .waveRunning (.start run) })

/-- The contexts of a reused root together with those of the episode. -/
def alignContext (carried live : Option ReplayGraphContext) :
    Except (SearchFailure F) (Option ReplayGraphContext) :=
  match carried, live with
  | some carried, some live =>
    if carried ≠ live then
      .error (.internal "symmetric reused board context mismatch")
    else .ok (some live)
  | some carried, none => .ok (some carried)
  | none, live => .ok live

/-- Check that the carried root is the board of the episode.  `expected` has
the episode's contexts. -/
def alignRootBoard [DecidableEq G] (expected : Board G) :
    RootEffect G C F (PerPlayer (Option ReplayGraphContext)) := do
  let task ← get
  let root ← require task.nodes.head? (.internal "missing symmetric reused root")
  let board := root.board
  if { board with contexts := expected.contexts } ≠ expected then
    internal "symmetric reused board mismatch"
  let one ← settled (alignContext board.contexts.one expected.contexts.one)
  let two ← settled (alignContext board.contexts.two expected.contexts.two)
  let contexts : PerPlayer (Option ReplayGraphContext) := ⟨one, two⟩
  modifyNode 0 fun node =>
    { node with board := { node.board with contexts } }
  if contexts.of board.player ≠ some root.context then
    internal "symmetric reused root context mismatch"
  modify fun task => { task with rootContext := some root.context }
  pure contexts

end GraphZero.Search
