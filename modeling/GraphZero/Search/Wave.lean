import GraphZero.Search.RootTurn

/-!
# Waves of simulations

The simulations of one scheduled visit count run concurrently.  Each descends
to a leaf, asks the engine and the model what it needs, and ends with a value;
when all of a wave have ended their values are counted along their paths.
-/

namespace GraphZero.Search

open Engine Foundation

variable {G C F : Type} [Scalar F]

/-- Fill up the considered actions with open ones. -/
def replenishConsidered (config : GumbelMctsConfig F) (root : Node G C F) (run : Run F) : Run F :=
  let desired := min root.openActions.length config.maxConsideredActions
  let current := (run.considered.filter fun action =>
    !root.isMasked action).length
  if desired ≤ current then run
  else
    let replacements := considerationOrder run.baseScores
      (root.openActions.filter fun action => action ∉ run.considered)
    { run with
      considered := run.considered ++ replacements.take (desired - current) }

/-- The action of the next simulation: the best one at the scheduled visit
count, else the best considered one. -/
def waveRootAction (config : GumbelMctsConfig F) (root : Node G C F)
    (run : Run F) (target : Nat) (visits : List Nat) : Option Nat :=
  let scale := (config.cVisit + Scalar.ofNat (visits.foldr max 0)) * config.cScale
  let scores := (run.baseScores.zip root.completedQ).map fun entry =>
    entry.1 + scale * entry.2
  let best := maxBy fun left right =>
    (Scalar.totalCmp (scores.getD left Scalar.zero)
      (scores.getD right Scalar.zero)).then (compare right left)
  let considered := run.considered.filter fun action =>
    !root.isMasked action
  (best (considered.filter fun action =>
    decide (visits.getD action 0 =
      min (run.rootVisitBaseline.getD action 0 + target) (2 ^ 32 - 1)))).or
    (best considered)

/-- The actions of a wave, at most `width`, no action twice. -/
def waveActions (config : GumbelMctsConfig F) (root : Node G C F) (run : Run F) (target : Nat) :
    (width : Nat) → (virtualVisits actions : List Nat) → List Nat
  | 0, _, actions => actions
  | width + 1, virtualVisits, actions =>
    match waveRootAction config root run target virtualVisits with
    | none => actions
    | some action =>
      if action ∈ actions then actions
      else
        waveActions config root run target width
          (virtualVisits.modify action (· + 1)) (actions ++ [action])

/-- The states seen, with that of a board. -/
def withContext (seen : Finset ReplayGraphContext) :
    Option ReplayGraphContext → Finset ReplayGraphContext
  | none => seen
  | some context => insert context seen

def newDescent (visited : PerPlayer (Finset ReplayGraphContext))
    (root : Node G C F) (action : Nat) : Descent where
  node := 0
  path := []
  seen :=
    { one := withContext visited.one root.board.contexts.one
      two := withContext visited.two root.board.contexts.two }
  forced := some action

/-- The actions up to the first stop, which is alone in its wave: it needs no
engine apply. -/
def separateStop (root : Node G C F) (actions : List Nat) : List Nat :=
  match actions.findIdx? root.isStop with
  | some stop => actions.take (max stop 1)
  | none => actions

def unexpandedCount (root : Node G C F) (actions : List Nat) : Nat :=
  (actions.filter fun action =>
    (root.edges[action]?.bind (·.branch)).isNone).length

/-- A wave whose actions are not alike in being expanded is cut to its first
simulation. -/
def separateUnexpanded (root : Node G C F) (actions : List Nat) : List Nat :=
  let unexpanded := unexpandedCount root actions
  if 0 < unexpanded ∧ unexpanded < actions.length then actions.take 1
  else actions

/-- The wave with its next simulations, or without any. -/
def launchWave (task : RootTask G C F) (root : Node G C F) (wave : WaveRun G C F) : WaveRun G C F :=
  match wave.run.schedule[wave.run.scheduleIndex]? with
  | none => wave
  | some target =>
    let run := replenishConsidered task.config root wave.run
    let width := ((run.schedule.drop run.scheduleIndex).takeWhile
      fun visits => visits == target).length
    let chosen := separateStop root (waveActions task.config root run target width
        (root.edges.map (·.visits)) [])
    let actions := separateUnexpanded root chosen
    { run
      active := wave.active ++ actions.map fun action =>
        .running (newDescent task.visited root action)
      rootApplyPreflight :=
        decide (1 < actions.length) && decide (unexpandedCount root chosen = actions.length) }

/-! ## Resuming -/

/-- The simulation below an applied action; a rejected or returning action is
masked and the simulation selects again. -/
def resumeWaveApply (descent : Descent) (nodeIndex action : Nat) (applied : ApplyResult G) :
    RootEffect G C F (WaveSimulationState G C F) := do
  let task ← get
  if applied.rejected then
    releaseGraph applied.after
    maskAction nodeIndex action
    return .running descent
  let context := task.identity.context applied.afterHash
  let board := (← nodeAt nodeIndex).board
  let player := board.player
  if task.config.noBacktrack ∧ context ∈ descent.seen.of player then
    releaseGraph applied.after
    maskAction nodeIndex action
    return .running descent
  createGraph applied.after
  modifyEdge nodeIndex action fun edge =>
    { edge with
      afterGraph := some applied.after
      afterContext := some context }
  return .resolve
    { descent with
      seen := descent.seen.update player (insert context (descent.seen.of player)) }
    { board with
      graphs := board.graphs.update player applied.after
      contexts := board.contexts.update player (some context)
      rewrites := board.rewrites.update player (board.rewrites.of player + 1)
      player := player.opponent }
    ⟨.action nodeIndex action, 1⟩

def resumeWaveExpand [DecidableEq G] (descent : Descent) (board : Board G)
    (attach : Attach) (result : ExpandResult C F) :
    RootEffect G C F (WaveSimulationState G C F) := do
  createCandidates (result.candidates.map (·.candidate))
  let context := (← get).identity.context result.graphHash
  let player := board.player
  if (board.contexts.of player).any (· ≠ context) then
    internal "symmetric wave graph context mismatch"
  let board := placeContext board context
  if result.candidates.isEmpty then
    pure (.resolve descent
      { board with
        inactive := board.inactive.update player true
        player := player.opponent }
      attach.nextTurn)
  else
    pure (.evalReady descent board attach (expansionOf context result))

/-- Install a branch in an empty slot; the step of the path through it. -/
def installBranch (slot : AttachSlot) (branch : Branch F) : RootEffect G C F PathStep :=
  match slot with
  | .action node action => do
      if (← edgeAt node action).branch.isSome then
        internal "symmetric action branch already installed"
      modifyEdge node action fun edge => { edge with branch := some branch }
      pure (.decision node action branch.flip)
  | .pass node => do
      if (← nodeAt node).pass.isSome then
        internal "symmetric pass branch already installed"
      modifyNode node fun node => { node with pass := some branch }
      pure (.transform branch.flip)

def targetValue (target : BranchTarget F) : RootEffect G C F F :=
  match target with
  | .node node => do pure (← nodeAt node).value
  | .terminal value => pure value

/-- Install `target` below its slot; the simulation ends with its value. -/
def attachTarget (descent : Descent) (attach : Attach) (target : BranchTarget F) :
    RootEffect G C F (WaveSimulationState G C F) := do
  let step ← installBranch attach.slot ⟨target, attach.turns % 2 == 1⟩
  let value ← targetValue target
  pure (.outcome { descent with path := descent.path ++ [step] } value)

def completeWaveEval (descent : Descent) (board : Board G) (attach : Attach)
    (expansion : Expansion C F) (request : EvalRequest F)
    (output : EvalOutput F) :
    RootEffect G C F (WaveSimulationState G C F) := do
  evaluated (output.validateFor request)
  let task ← get
  pushNode (newNode task.config board expansion output)
  countEval
  attachTarget descent attach (.node task.nodes.length)

def completeTerminalEval (descent : Descent) (attach : Attach)
    (request : EvalRequest F) (output : EvalOutput F) :
    RootEffect G C F (WaveSimulationState G C F) := do
  evaluated (output.validateFor request)
  countEval
  attachTarget descent attach (.terminal output.value)

/-- How a pending simulation goes on with `result`, if it asked for a result
of that kind. -/
def resumeSimulation [DecidableEq G] (rootApplyPreflight : Bool)
    (state : WaveSimulationState G C F) (result : SearchWorkResult G C F) :
    Option (RootEffect G C F (WaveSimulationState G C F)) :=
  match state, result with
  | .applyPending _ descent node action, .apply applied =>
    some <| if rootApplyPreflight then do
        speculateGraph applied.after
        pure (.rootApplyReady ⟨descent, node, action, applied⟩)
      else
        resumeWaveApply descent node action applied
  | .expandPending _ descent board attach, .expand expansion =>
    some (resumeWaveExpand descent board attach expansion)
  | .evalPending _ descent board attach expansion request, .eval output =>
    some (pure (.evalComplete descent board attach expansion request output))
  | .terminalEvalPending _ descent attach request, .eval output =>
    some (pure (.terminalEvalComplete descent attach request output))
  | _, _ => none

/-- The simulations before the one that waits for `token`, that one, and
those after it. -/
def splitPending (token : WorkToken) : List (WaveSimulationState G C F) →
      Option (List (WaveSimulationState G C F) ×
        WaveSimulationState G C F × List (WaveSimulationState G C F))
  | [] => none
  | state :: rest =>
    if state.pendingToken = some token then some ([], state, rest)
    else
      (splitPending token rest).map fun (before, found, after) =>
        (state :: before, found, after)

/-- Resume the simulation that waits for `token`; a failure leaves the wave
with a vacant simulation. -/
def resumeWave [DecidableEq G] (wave : WaveRun G C F) (token : WorkToken)
    (result : SearchWorkResult G C F) : RootEffect G C F Unit := do
  match splitPending token wave.active with
  | none => internal "unknown symmetric wave token"
  | some (before, state, after) =>
    match resumeSimulation wave.rootApplyPreflight state result with
    | none => internal "mismatched symmetric wave result"
    | some resumed =>
      match ← Effect.attempt resumed with
      | .ok next => setState (.waveRunning { wave with active := before ++ next :: after })
      | .error failure =>
        setState (.waveRunning { wave with active := before ++ .vacant :: after })
        throw failure

def rootApplySafe (task : RootTask G C F) (ready : RootApplyReady G) : Bool :=
  !ready.applied.rejected && match task.nodes[ready.node]? with
    | none => false
    | some node =>
      !task.config.noBacktrack || decide (task.identity.context ready.applied.afterHash ∉
          ready.descent.seen.of node.board.player)

section Preflight

variable [DecidableEq G]

def resolveReady (ready : RootApplyReady G) : RootEffect G C F (WaveSimulationState G C F) := do
  consumeSpeculativeGraph ready.applied.after
  resumeWaveApply ready.descent ready.node ready.action ready.applied

/-- Install root applies that succeeded together.  If one of them did not,
only the first goes on and the others are given back. -/
def resolveRootApplyPreflight (wave : WaveRun G C F) : RootEffect G C F (WaveRun G C F) := do
  let task ← get
  match wave.active.mapM (·.ready?) with
  | none => internal "incomplete symmetric root apply preflight"
  | some ready =>
    if ready.all (rootApplySafe task) then
      let active ← ready.mapM resolveReady
      pure { wave with active, rootApplyPreflight := false }
    else
      match ready with
      | [] => internal "empty symmetric root apply preflight"
      | first :: discarded => do
          let _ ← discarded.mapM fun ready =>
            discardSpeculativeGraph ready.applied.after
          let state ← resolveReady first
          pure { wave with active := [state], rootApplyPreflight := false }

end Preflight

/-! ## Advancing -/

inductive WaveAdvance (G C F : Type) where
  | work (work : SearchWork G C F)
  | progressed
  | waiting

def waveTargetState (descent : Descent) (target : BranchTarget F) : WaveSimulationState G C F :=
  match target with
  | .node node => .running { descent with node }
  | .terminal value => .outcome descent value

/-- A simulation without an action passes the turn. -/
def advancePass (descent : Descent) (node : Node G C F) : WaveSimulationState G C F :=
  match node.pass with
  | some branch =>
    waveTargetState { descent with path := descent.path ++ [.transform branch.flip] } branch.target
  | none =>
    let board := node.board
    .resolve descent
      { board with
        inactive := board.inactive.update board.player true
        player := board.player.opponent }
      ⟨.pass descent.node, 1⟩

/-- Follow an expanded action, unless it returns to a state already seen. -/
def followBranch (config : GumbelMctsConfig F) (descent : Descent)
    (node : Node G C F) (action : Nat) (edge : ActionEdge G F)
    (branch : Branch F) :
    RootEffect G C F (WaveSimulationState G C F) := do
  let player := node.board.player
  let step := PathStep.decision descent.node action branch.flip
  match edge.afterContext with
  | none => pure (waveTargetState { descent with path := descent.path ++ [step] } branch.target)
  | some context =>
    if config.noBacktrack ∧ context ∈ descent.seen.of player then
      maskAction descent.node action
      pure (.running descent)
    else
      pure (waveTargetState
        { descent with
          path := descent.path ++ [step]
          seen := descent.seen.update player (insert context (descent.seen.of player)) }
        branch.target)

def advanceRunning (descent : Descent) :
    RootEffect G C F (WaveAdvance G C F × WaveSimulationState G C F) := do
  let config := (← get).config
  let node ← nodeAt descent.node
  let selected := descent.forced.or (node.selectNonroot config)
  let descent := { descent with forced := none }
  match selected with
  | none => pure (.progressed, advancePass descent node)
  | some action =>
    let edge ← edgeAt descent.node action
    match edge.branch with
    | some branch => do
        let next ← followBranch config descent node action edge branch
        pure (.progressed, next)
    | none =>
      if node.isStop action then
        pure (.progressed, .resolve descent (stoppedBoard node) ⟨.action descent.node action, 1⟩)
      else do
        let token ← nextToken
        let candidate ← require node.candidates[action]? .panicked
        pure (.work (.apply { token, graph := node.board.currentGraph, candidate }),
            .applyPending token descent descent.node action)

/-- Ask the value of a finished board. -/
def advanceTerminal (descent : Descent) (board : Board G) (attach : Attach) :
    RootEffect G C F (WaveAdvance G C F × WaveSimulationState G C F) := do
  let config := (← get).config
  let context ← require (board.contexts.of board.player)
    (.internal "terminal symmetric board has no context")
  let request ← settled (evalRequest config board context
    [EvalAction.stop context] "invalid terminal symmetric eval request")
  let token ← nextToken
  pure (.work (.eval (evalWork config token board [] request)),
      .terminalEvalPending token descent attach request)

def advanceExpand (descent : Descent) (board : Board G) (attach : Attach) :
    RootEffect G C F (WaveAdvance G C F × WaveSimulationState G C F) := do
  let config := (← get).config
  let token ← nextToken
  pure (.work (.expand
      { token
        graph := board.currentGraph
        options := config.candidateOptions }),
      .expandPending token descent board attach)

/-- Find the player to move on a new board.  A board that is not terminal has
one, so the turn passes at most once. -/
def advanceResolve (descent : Descent) (board : Board G) (attach : Attach) :
    RootEffect G C F (WaveAdvance G C F × WaveSimulationState G C F) := do
  let maxSteps := (← get).config.maxSteps
  if board.active maxSteps board.player then
    advanceExpand descent board attach
  else if board.terminal maxSteps then
    advanceTerminal descent board attach
  else
    advanceExpand descent board.passTurn attach.nextTurn

def advanceEval (descent : Descent) (board : Board G) (attach : Attach)
    (expansion : Expansion C F) :
    RootEffect G C F (WaveAdvance G C F × WaveSimulationState G C F) := do
  let config := (← get).config
  let request ← settled (evalRequest config board expansion.context
    expansion.evalActions "invalid symmetric wave eval request")
  let token ← nextToken
  pure (.work (.eval (evalWork config token board (expansion.candidates.map (·.handle)) request)),
      .evalPending token descent board attach expansion request)

/-- One step of a simulation.  Evaluations are completed only when nothing of
the wave is pending. -/
def advanceWaveSimulation (deferCompletions : Bool) (state : WaveSimulationState G C F) :
    RootEffect G C F (WaveAdvance G C F × WaveSimulationState G C F) :=
  match state with
  | .running descent => advanceRunning descent
  | .resolve descent board attach => advanceResolve descent board attach
  | .evalReady descent board attach expansion => advanceEval descent board attach expansion
  | .evalComplete descent board attach expansion request output =>
    if deferCompletions then pure (.waiting, state)
    else do
      let next ← completeWaveEval descent board attach expansion request output
      pure (.progressed, next)
  | .terminalEvalComplete descent attach request output =>
    if deferCompletions then pure (.waiting, state)
    else do
      let next ← completeTerminalEval descent attach request output
      pure (.progressed, next)
  | .outcome .. | .rootApplyReady _ | .applyPending .. | .expandPending ..
  | .evalPending .. | .terminalEvalPending .. => pure (.waiting, state)
  | .vacant => internal "vacant symmetric wave simulation"

/-- Step the simulations in order until one hands out work. -/
def advanceAll (deferCompletions : Bool) : List (WaveSimulationState G C F) → (progressed : Bool) →
      RootEffect G C F (List (WaveSimulationState G C F) × Option (SearchWork G C F) × Bool)
  | [], progressed => pure ([], none, progressed)
  | state :: rest, progressed => do
      let (advance, next) ← advanceWaveSimulation deferCompletions state
      match advance with
      | .work work => pure (next :: rest, some work, progressed)
      | .progressed => do
          let (rest, work, progressed) ← advanceAll deferCompletions rest true
          pure (next :: rest, work, progressed)
      | .waiting => do
          let (rest, work, progressed) ← advanceAll deferCompletions rest progressed
          pure (next :: rest, work, progressed)

def backupAll : List (Descent × F) → RootEffect G C F Unit
  | [] => pure ()
  | (descent, value) :: rest => do
      backupDescent descent value
      backupAll rest

/-- What the simulations come to after each took a step. -/
def settleWave (wave : WaveRun G C F) (work : Option (SearchWork G C F))
    (progressed : Bool) {R : Type} :
    RootEffect G C F (WaveRun G C F ⊕ SearchPoll G C F R) := do
  match work with
  | some work =>
    setState (.waveRunning wave)
    pure (.inr (.work work))
  | none =>
    if wave.anyPending then
      setState (.waveRunning wave)
      pure (.inr .blocked)
    else
      match wave.active.mapM (·.outcome?) with
      | some outcomes =>
        backupAll outcomes
        pure (.inl
          { wave with
            active := []
            run :=
              { wave.run with
                simulations := wave.run.simulations + outcomes.length
                scheduleIndex :=
                  wave.run.scheduleIndex + outcomes.length } })
      | none =>
        if progressed then pure (.inl wave)
        else
          setState (.waveRunning wave)
          internal "symmetric wave made no progress"

section Poll

variable [DecidableEq G] [DecidableEq C]

/-- The wave with its next simulations, when it has none. -/
def launchNext (wave : WaveRun G C F) : RootEffect G C F (WaveRun G C F) :=
  if wave.active.isEmpty then do
    pure (launchWave (← get) (← nodeAt 0) wave)
  else pure wave

/-- The wave with its root applies installed, when all have come in. -/
def resolveNext (wave : WaveRun G C F) : RootEffect G C F (WaveRun G C F) :=
  if wave.rootApplyPreflightReady then resolveRootApplyPreflight wave
  else pure wave

def waveRound (fuel : Nat) (wave : WaveRun G C F) : RootEffect G C F (WaveRun G C F ⊕
      SearchPoll G C F (SymmetricRootResult G C F)) := do
  let wave ← launchNext wave
  if wave.active.isEmpty then
    let result ← finishRoot fuel wave.run
    pure (.inr result)
  else
    let wave ← resolveNext wave
    let (active, work, progressed) ← advanceAll wave.anyPending wave.active false
    settleWave { wave with active } work progressed

def pollResolve {R : Type} (board : Board G) : RootEffect G C F (SearchPoll G C F R) := do
  let token ← nextToken
  modify fun task => { task with pending := some (.expand token board) }
  pure (.work (.expand
    { token
      graph := board.currentGraph
      options := (← get).config.candidateOptions }))

/-- Go on with the task; its loops take at most `fuel` rounds each. -/
def RootTask.poll (fuel : Nat) : RootEffect G C F
      (SearchPoll G C F (SymmetricRootResult G C F)) := do
  let task ← get
  if task.pending.isSome then
    pure .blocked
  else
    setState .done
    match task.state with
    | .resolve board =>
      let maxSteps := task.config.maxSteps
      if board.active maxSteps board.player then pollResolve board
      else if board.terminal maxSteps then
        internal "symmetric root started terminal"
      else pollResolve board.passTurn
    | .eval board expansion => pollEval board expansion
    | .waveRunning wave => Effect.loop .unfinished (waveRound fuel) fuel wave
    | .doneResult result => pure (.done result)
    | .done => internal "poll after symmetric root completion"

def resumePending (token : WorkToken) (result : SearchWorkResult G C F) :
    RootEffect G C F Unit := do
  match (← get).pending with
  | none => internal "resume without pending symmetric work"
  | some pending =>
    if pending.token ≠ token then
      internal "unknown symmetric work token"
    match pending, result with
    | .expand _ board, .expand result =>
      modify fun task => { task with pending := none }
      resumeExpand board result
    | .eval _ board expansion request, .eval output =>
      modify fun task => { task with pending := none }
      resumeEval board expansion request output
    | _, _ => internal "mismatched symmetric work result"

def RootTask.resume (token : WorkToken) (result : SearchWorkResult G C F) :
    RootEffect G C F Unit := do
  match (← get).state with
  | .waveRunning wave =>
    if wave.hasPending token then
      resumeWave wave token result
    else
      resumePending token result
  | _ => resumePending token result

end Poll

end GraphZero.Search
