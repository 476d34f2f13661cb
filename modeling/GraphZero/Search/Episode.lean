import GraphZero.Search.Wave

/-!
# Symmetric episodes

Two players start from one graph and take turns; each turn is a root task.
The episode ends when neither player can move, and measures both final
graphs.
-/

namespace GraphZero.Search

open Engine Foundation

structure SymmetricActorTrace (G C F : Type) where
  root : G
  finalGraph : G
  rootContext : ReplayGraphContext
  finalContext : ReplayGraphContext
  steps : List (GumbelStep G C F)
  rootStats : List GumbelRootStats
  blocked : Bool
  stopped : Bool
  finalMeasure : MeasureResult G F

structure SymmetricEpisode (G C F : Type) where
  p1 : SymmetricActorTrace G C F
  p2 : SymmetricActorTrace G C F
  searchConfigHash : SearchConfigHash
  createdGraphs : List G
  createdCandidates : List C

/-! ## The task -/

structure Actor (G C F : Type) where
  root : G
  current : G
  context : Option ReplayGraphContext
  rootContext : Option ReplayGraphContext
  blocked : Bool
  stopped : Bool
  rewrites : Nat
  steps : List (GumbelStep G C F)
  rootStats : List GumbelRootStats

namespace Actor

variable {G C F : Type}

def new (root : G) : Actor G C F :=
  ⟨root, root, none, none, false, false, 0, [], []⟩

def fromPosition (graph : G) (context : Option ReplayGraphContext)
    (rewrites : Nat) (blocked stopped : Bool) : Actor G C F :=
  ⟨graph, graph, context, context, blocked, stopped, rewrites, [], []⟩

def active (actor : Actor G C F) (maxSteps : Nat) : Bool :=
  !actor.blocked && !actor.stopped && decide (actor.rewrites < maxSteps)

end Actor

inductive EpisodeState (G C F : Type) where
  | turn
  | root (task : RootTask G C F)
  | measurePair
  | doneResult (episode : SymmetricEpisode G C F)
  | done

/-- The token of work under the episode and under its root task. -/
structure RootPending where
  outer : WorkToken
  inner : WorkToken
  deriving DecidableEq

structure EpisodeTask (G C F : Type) where
  config : GumbelMctsConfig F
  searchConfigHash : SearchConfigHash
  identity : EngineIdentity
  noiseSeed : UInt64
  actors : PerPlayer (Actor G C F)
  player : GumbelPlayer
  visited : PerPlayer (Finset ReplayGraphContext)
  pathGraphs : List G
  releasable : SearchHandleBatch G C
  nextToken : Nat
  rootPending : List RootPending
  /-- The token of the final measurement, while it is awaited. -/
  pending : Option WorkToken
  state : EpisodeState G C F

section Start

variable {G C F : Type}

def EpisodeTask.fromActors (config : GumbelMctsConfig F)
    (searchConfigHash : SearchConfigHash) (identity : EngineIdentity)
    (noiseSeed : UInt64) (actors : PerPlayer (Actor G C F))
    (player : GumbelPlayer)
    (visited : PerPlayer (Finset ReplayGraphContext)) :
    EpisodeTask G C F where
  config := config
  searchConfigHash := searchConfigHash
  identity := identity
  noiseSeed := noiseSeed
  actors := actors
  player := player
  visited := visited
  pathGraphs := []
  releasable := .empty
  nextToken := 0
  rootPending := []
  pending := none
  state := .turn

def EpisodeTask.new (config : GumbelMctsConfig F)
    (searchConfigHash : SearchConfigHash) (identity : EngineIdentity)
    (root : G) (noiseSeed : UInt64) : EpisodeTask G C F :=
  .fromActors config searchConfigHash identity noiseSeed ⟨.new root, .new root⟩ .one ⟨∅, ∅⟩

/-- Resume from a position of both players; the graphs of the position stay
with the caller. -/
def EpisodeTask.fromPosition (config : GumbelMctsConfig F)
    (searchConfigHash : SearchConfigHash) (identity : EngineIdentity)
    (graphs : PerPlayer G) (contexts : PerPlayer (Option ReplayGraphContext))
    (rewrites : PerPlayer Nat) (blocked stopped : PerPlayer Bool)
    (player : GumbelPlayer)
    (visited : PerPlayer (Finset ReplayGraphContext)) (noiseSeed : UInt64) :
    EpisodeTask G C F :=
  .fromActors config searchConfigHash identity noiseSeed
    { one := .fromPosition graphs.one contexts.one rewrites.one blocked.one
        stopped.one
      two := .fromPosition graphs.two contexts.two rewrites.two blocked.two stopped.two }
    player visited

/-- The root graph is released with the other graphs of the episode. -/
def EpisodeTask.trackOwnedRoot (task : EpisodeTask G C F) : EpisodeTask G C F :=
  { task with pathGraphs := task.pathGraphs ++ [task.actors.one.root] }

end Start

abbrev EpisodeEffect (G C F : Type) : Type → Type :=
  Effect (SearchFailure F) (EpisodeTask G C F)

namespace EpisodeTask

variable {G C F : Type}

def actorActive (task : EpisodeTask G C F) (player : GumbelPlayer) : Bool :=
  (task.actors.of player).active task.config.maxSteps

def anyActive (task : EpisodeTask G C F) : Bool :=
  task.actorActive .one || task.actorActive .two

def board (task : EpisodeTask G C F) : Board G where
  graphs := ⟨task.actors.one.current, task.actors.two.current⟩
  contexts := ⟨task.actors.one.context, task.actors.two.context⟩
  rewrites := ⟨task.actors.one.rewrites, task.actors.two.rewrites⟩
  inactive :=
    ⟨task.actors.one.blocked || task.actors.one.stopped,
      task.actors.two.blocked || task.actors.two.stopped⟩
  stopped := ⟨task.actors.one.stopped, task.actors.two.stopped⟩
  player := task.player

def rootTask (task : EpisodeTask G C F) : RootTask G C F where
  config := task.config
  identity := task.identity
  noiseSeed := task.noiseSeed
  visited := task.visited
  rootContext := task.board.contexts.of task.player
  rootCandidates := []
  nodes := []
  createdGraphs := []
  speculativeGraphs := []
  createdCandidates := []
  releasable := .empty
  reused := none
  evalCount := 0
  carriedNodes := 0
  carriedRootVisits := 0
  nextToken := 0
  pending := none
  state := .resolve task.board

/-! ## Handles -/

def appendReleasable (task : EpisodeTask G C F)
    (handles : SearchHandleBatch G C) : EpisodeTask G C F :=
  { task with releasable := task.releasable.append handles }

def drainRoot (all : Bool) (task : EpisodeTask G C F) : EpisodeTask G C F :=
  match task.state with
  | .root rootTask =>
    let (handles, rootTask) :=
      if all then rootTask.takeAllHandles else rootTask.takeReleasable
    { task with state := .root rootTask }.appendReleasable handles
  | _ => task

def takeReleasable (task : EpisodeTask G C F) : SearchHandleBatch G C × EpisodeTask G C F :=
  let task := task.drainRoot false
  (task.releasable, { task with releasable := .empty })

/-- What an aborted episode gives back. -/
def takeAllHandles (task : EpisodeTask G C F) : SearchHandleBatch G C × EpisodeTask G C F :=
  let (handles, task) := (task.drainRoot true).takeReleasable
  ({ handles with graphs := handles.graphs ++ task.pathGraphs }, { task with pathGraphs := [] })

end EpisodeTask

section Turns

variable {G C F : Type}

def failEpisode {α : Type} (message : String) : EpisodeEffect G C F α :=
  throw (.internal message)

def setEpisodeState (state : EpisodeState G C F) : EpisodeEffect G C F Unit :=
  modify fun task => { task with state }

def nextEpisodeToken : EpisodeEffect G C F WorkToken := do
  let task ← get
  set { task with nextToken := task.nextToken + 1 }
  pure ⟨task.nextToken⟩

/-- Release everything a root task still holds. -/
def abandonRoot (rootTask : RootTask G C F) : EpisodeEffect G C F Unit :=
  modify fun task => task.appendReleasable rootTask.takeAllHandles.1

def startTurn : EpisodeEffect G C F Unit :=
  modify fun task =>
    if !task.anyActive then { task with state := .measurePair }
    else if !task.actorActive task.player then
      { task with player := task.player.opponent, state := .turn }
    else
      { task with state := .root task.rootTask }

def Actor.passTurn (actor : Actor G C F) (context : ReplayGraphContext) : Actor G C F :=
  { actor with
    context := some (actor.context.getD context)
    rootContext := some (actor.rootContext.getD context)
    blocked := true }

def Actor.takeStep (actor : Actor G C F) (result : SymmetricRootAction G C F) : Actor G C F :=
  { actor with
    rootContext := some (actor.rootContext.getD result.step.stepRef.before)
    current := result.selectedAfter
    context := some result.selectedAfterContext
    steps := actor.steps ++ [result.step]
    rootStats := actor.rootStats ++ [result.stats]
    stopped := actor.stopped || result.step.action.isStop
    rewrites :=
      if result.step.action.isStop then actor.rewrites
      else actor.rewrites + 1 }

def finishTurn (result : SymmetricRootResult G C F) : EpisodeEffect G C F Unit := do
  let task ← get
  match result with
  | .pass player context =>
    if player ≠ task.player then
      failEpisode "symmetric pass player mismatch"
    set { task with
      actors := task.actors.update player ((task.actors.of player).passTurn context) }
  | .action result =>
    let stop := result.step.action.isStop
    let player := result.player
    if player ≠ task.player then
      if !stop then
        set (task.appendReleasable ⟨[result.selectedAfter], []⟩)
      failEpisode "symmetric action player mismatch"
    set
      { task with
        actors := task.actors.update player ((task.actors.of player).takeStep result)
        visited :=
          if !stop && task.config.noBacktrack then
            task.visited.update player (insert result.step.stepRef.before (task.visited.of player))
          else task.visited
        pathGraphs :=
          if stop then task.pathGraphs
          else task.pathGraphs ++ [result.selectedAfter] }
  modify fun task =>
    { task with player := task.player.opponent, state := .turn }

variable [Scalar F] [DecidableEq G] [DecidableEq C]

/-- Go on with the subtree of the move that was made. -/
def startReused (reused : RootTask G C F) : EpisodeEffect G C F Unit := do
  modify fun task =>
    if !task.actorActive task.player && task.anyActive then
      { task with player := task.player.opponent }
    else task
  let task ← get
  let (aligned, reused) := (alignRootBoard task.board).perform reused
  match aligned with
  | .error failure =>
    abandonRoot reused
    throw failure
  | .ok contexts =>
    if !task.actorActive task.player then
      abandonRoot reused
      failEpisode "symmetric reused root is not active"
    set
      { task with
        actors :=
          { one := { task.actors.one with context := contexts.one }
            two := { task.actors.two with context := contexts.two } }
        state := .root reused }

/-- Take the result of a root task and turn to the next one. -/
def finishRootTask (rootTask : RootTask G C F)
    (result : SymmetricRootResult G C F) : EpisodeEffect G C F Unit := do
  if !(← get).rootPending.isEmpty then
    abandonRoot rootTask
    failEpisode "symmetric root completed with pending work"
  match ← Effect.attempt (finishTurn result) with
  | .error failure =>
    abandonRoot rootTask
    throw failure
  | .ok () =>
    let (reused, rootTask) := (takeReusedTask (← get).visited).perform rootTask
    abandonRoot rootTask
    match reused with
    | .error failure => throw failure
    | .ok none => pure ()
    | .ok (some reused) => startReused reused

/-- Go on with the root task, which the state no longer holds. -/
def pollRoot (fuel : Nat) (rootTask : RootTask G C F) : EpisodeEffect G C F
      (Unit ⊕ SearchPoll G C F (SymmetricEpisode G C F)) := do
  let (polled, rootTask) := (RootTask.poll fuel).perform rootTask
  match polled with
  | .error failure =>
    abandonRoot rootTask
    throw failure
  | .ok polled =>
    let (handles, rootTask) := rootTask.takeReleasable
    modify fun task => task.appendReleasable handles
    match polled with
    | .work work => do
        let outer ← nextEpisodeToken
        modify fun task =>
          { task with
            rootPending := task.rootPending ++ [⟨outer, work.token⟩]
            state := .root rootTask }
        pure (.inr (.work (work.retokenize outer)))
    | .blocked => do
        setEpisodeState (.root rootTask)
        pure (.inr .blocked)
    | .done result => do
        finishRootTask rootTask result
        pure (.inl ())

def pollMeasure {R : Type} : EpisodeEffect G C F (SearchPoll G C F R) := do
  let token ← nextEpisodeToken
  modify fun task => { task with pending := some token }
  let task ← get
  pure (.work (.measurePair
    { token
      graphs := (task.actors.one.current, task.actors.two.current)
      options := task.config.measureOptions }))

def episodeRound (fuel : Nat) : EpisodeEffect G C F
      (Unit ⊕ SearchPoll G C F (SymmetricEpisode G C F)) := do
  let task ← get
  setEpisodeState .done
  match task.state with
  | .turn => do
      startTurn
      pure (.inl ())
  | .root rootTask => pollRoot fuel rootTask
  | .measurePair => do
      let polled ← pollMeasure
      pure (.inr polled)
  | .doneResult episode => pure (.inr (.done episode))
  | .done => failEpisode "poll after symmetric episode completion"

/-- Go on with the episode; its loops take at most `fuel` rounds each. -/
def EpisodeTask.poll (fuel : Nat) :
    EpisodeEffect G C F (SearchPoll G C F (SymmetricEpisode G C F)) := do
  if (← get).pending.isSome then pure .blocked
  else Effect.loop .unfinished (fun _ => episodeRound fuel) fuel ()

def validMeasure (measure : MeasureResult G F) : Bool :=
  measure.measured && measure.valid && measure.scalarReward.any Scalar.isFinite

def Actor.trace (actor : Actor G C F) (identity : EngineIdentity)
    (finalMeasure : MeasureResult G F) : SymmetricActorTrace G C F :=
  let finalContext := actor.context.getD (identity.context finalMeasure.graphHash)
  { root := actor.root
    finalGraph := actor.current
    rootContext := actor.rootContext.getD finalContext
    finalContext
    steps := actor.steps
    rootStats := actor.rootStats
    blocked := actor.blocked
    stopped := actor.stopped
    finalMeasure }

def finishEpisode (p1Measure p2Measure : MeasureResult G F) : EpisodeEffect G C F Unit := do
  if !validMeasure p1Measure || !validMeasure p2Measure then
    failEpisode "symmetric episode final measure is invalid"
  modify fun task =>
    { task with
      actors :=
        { one := { task.actors.one with steps := [], rootStats := [] }
          two := { task.actors.two with steps := [], rootStats := [] } }
      pathGraphs := []
      state := .doneResult
        { p1 := task.actors.one.trace task.identity p1Measure
          p2 := task.actors.two.trace task.identity p2Measure
          searchConfigHash := task.searchConfigHash
          createdGraphs := task.pathGraphs
          createdCandidates := [] } }

def resumeRoot (pending : RootPending) (result : SearchWorkResult G C F) :
    EpisodeEffect G C F Unit := do
  match (← get).state with
  | .root rootTask => do
      modify fun task =>
        { task with
          rootPending := task.rootPending.erase pending, state := .done }
      let (resumed, rootTask) := (RootTask.resume pending.inner result).perform rootTask
      match resumed with
      | .error failure =>
        abandonRoot rootTask
        throw failure
      | .ok () =>
        let (handles, rootTask) := rootTask.takeReleasable
        modify fun task =>
          { task with state := .root rootTask }.appendReleasable handles
  | _ => failEpisode "symmetric root result outside root state"

def resumeMeasure (token : WorkToken) (result : SearchWorkResult G C F) :
    EpisodeEffect G C F Unit := do
  match (← get).pending with
  | none => failEpisode "resume without pending symmetric episode work"
  | some expected =>
    if expected ≠ token then
      failEpisode "unknown symmetric episode work token"
    match result with
    | .measurePair p1Measure p2Measure =>
      modify fun task => { task with pending := none }
      finishEpisode p1Measure p2Measure
    | _ => failEpisode "mismatched symmetric measure pair"

def EpisodeTask.resume (token : WorkToken)
    (result : SearchWorkResult G C F) : EpisodeEffect G C F Unit := do
  match (← get).rootPending.find? fun pending => pending.outer == token with
  | some pending => resumeRoot pending result
  | none => resumeMeasure token result

end Turns

end GraphZero.Search
