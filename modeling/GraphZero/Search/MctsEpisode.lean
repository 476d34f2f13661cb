import GraphZero.Search.MctsRoot

/-!
# Single-agent episodes

An episode is one move after the other; each move is a root task.  It ends at
a chosen stop or after the configured number of moves, and the graph it has
come to is measured.
-/

namespace GraphZero.Search

open Engine Foundation

structure MeasureWork (G : Type) where
  token : WorkToken
  graph : G
  options : MeasureOptions

/-- What a single-agent episode asks for. -/
inductive MctsWork (G C F : Type) where
  | search (work : SearchWork G C F)
  | measure (work : MeasureWork G)

def MctsWork.token {G C F : Type} : MctsWork G C F → WorkToken
  | search work => work.token
  | measure work => work.token

inductive MctsWorkResult (G C F : Type) where
  | search (result : SearchWorkResult G C F)
  | measure (result : MeasureResult G F)

inductive MctsPoll (G C F R : Type) where
  | work (work : MctsWork G C F)
  | blocked
  | done (result : R)

abbrev MctsStep : Type → Type → Type → Type := GumbelStep

inductive MctsStopReason where
  | maxSteps
  | selectedStop
  deriving DecidableEq

structure MctsEpisode (G C F : Type) where
  root : G
  finalGraph : G
  rootContext : ReplayGraphContext
  finalContext : ReplayGraphContext
  steps : List (MctsStep G C F)
  rootStats : List MctsRootStats
  createdGraphs : List G
  createdCandidates : List C
  finalMeasure : MeasureResult G F
  stopReason : MctsStopReason
  searchConfigHash : SearchConfigHash
  deriving DecidableEq

inductive MctsEpisodeState (R G C F : Type) where
  | start
  | root (task : MctsRootTask R G C F)
  | measure (stopReason : MctsStopReason)
  | doneResult (episode : MctsEpisode G C F)
  | done

/-- While the work of a root task is out, its task is kept with it. -/
inductive PendingEpisodeWork (R G C F : Type) where
  | root (token inner : WorkToken) (task : MctsRootTask R G C F)
  | measure (token : WorkToken) (stopReason : MctsStopReason)

def PendingEpisodeWork.token {R G C F : Type} : PendingEpisodeWork R G C F → WorkToken
  | root token _ _ | measure token _ => token

structure MctsEpisodeTask (R G C F : Type) where
  config : MctsConfig
  searchConfigHash : SearchConfigHash
  identity : EngineIdentity
  root : G
  noiseSeed : UInt64
  current : G
  currentContext : Option ReplayGraphContext
  rootContext : Option ReplayGraphContext
  steps : List (MctsStep G C F)
  rootStats : List MctsRootStats
  visited : Finset ReplayGraphContext
  pathGraphs : List G
  moveGraphs : List G
  moveCandidates : List C
  releasable : SearchHandleBatch G C
  stepIndex : Nat
  budgetStep : F
  nextToken : Nat
  pending : Option (PendingEpisodeWork R G C F)
  state : MctsEpisodeState R G C F

abbrev MctsEpisodeEffect (R G C F : Type) : Type → Type :=
  Effect (SearchFailure F) (MctsEpisodeTask R G C F)

namespace MctsEpisodeTask

variable {R G C F : Type}

section New

variable [Scalar F]

def new (config : MctsConfig) (searchConfigHash : SearchConfigHash)
    (identity : EngineIdentity) (root : G) (noiseSeed : UInt64) :
    MctsEpisodeTask R G C F where
  config
  searchConfigHash
  identity
  root
  noiseSeed
  current := root
  currentContext := none
  rootContext := none
  steps := []
  rootStats := []
  visited := ∅
  pathGraphs := []
  moveGraphs := []
  moveCandidates := []
  releasable := .empty
  stepIndex := 0
  budgetStep :=
    if config.maxSteps = 0 then Scalar.zero
    else Scalar.one / Scalar.ofNat config.maxSteps
  nextToken := 0
  pending := none
  state := .start

/-- The task of the move `stepIndex` from `root`. -/
def rootTaskAt (task : MctsEpisodeTask R G C F) (stepIndex : Nat) (root : G) :
    MctsRootTask R G C F :=
  let rootTask : MctsRootTask R G C F := .new task.config task.identity root
      { rootStep := UInt32.ofNat stepIndex
        budgetFraction := budgetFraction task.config.maxSteps stepIndex
        budgetStep := task.budgetStep
        selectionTemperature :=
          if stepIndex < task.config.temperatureMoves then Scalar.one
          else Scalar.zero
        noiseSeed := task.noiseSeed
        exportPosition := task.config.exportPosition }
  if task.config.noBacktrack then rootTask.setVisited task.visited
  else rootTask

def newRootTask (task : MctsEpisodeTask R G C F) : MctsRootTask R G C F :=
  task.rootTaskAt task.stepIndex task.current

end New

/-- The root graph is released with the other graphs of the episode. -/
def trackOwnedRoot (task : MctsEpisodeTask R G C F) : MctsEpisodeTask R G C F :=
  { task with pathGraphs := task.pathGraphs ++ [task.root] }

def takeReleasable (task : MctsEpisodeTask R G C F) :
    SearchHandleBatch G C × MctsEpisodeTask R G C F :=
  (task.releasable, { task with releasable := .empty })

/-- What an aborted episode gives back. -/
def takeAllHandles (task : MctsEpisodeTask R G C F) :
    SearchHandleBatch G C × MctsEpisodeTask R G C F :=
  ({ graphs := task.releasable.graphs ++ task.pathGraphs ++ task.moveGraphs
     candidates := task.releasable.candidates ++ task.moveCandidates },
    { task with
      releasable := .empty
      pathGraphs := []
      moveGraphs := []
      moveCandidates := [] })

/-- The handles that come with a result belong to the move. -/
def trackCreatedHandles (task : MctsEpisodeTask R G C F) :
    SearchWorkResult G C F → MctsEpisodeTask R G C F
  | .expand expanded =>
    { task with
      moveCandidates :=
        task.moveCandidates ++ expanded.candidates.map (·.candidate) }
  | .apply applied => { task with moveGraphs := task.moveGraphs ++ [applied.after] }
  | .measurePair _ _ | .eval _ => task

section Partition

variable {α : Type} [DecidableEq α]

/-- The handles of a move, each in its turn: one that is selected goes on the
path, one that the carried tree refers to stays and the others are released.
Every reference counts for one handle. -/
def splitHandles : (selected carried handles : List α) → List α × List α × List α
  | _, _, [] => ([], [], [])
  | selected, carried, handle :: rest =>
    if handle ∈ selected then
      let (path, next, released) := splitHandles (selected.erase handle) carried rest
      (handle :: path, next, released)
    else if handle ∈ carried then
      let (path, next, released) := splitHandles selected (carried.erase handle) rest
      (path, handle :: next, released)
    else
      let (path, next, released) := splitHandles selected carried rest
      (path, next, handle :: released)

end Partition

variable [DecidableEq G] [DecidableEq C]

def partitionMoveHandles (task : MctsEpisodeTask R G C F)
    (carried : SearchHandleBatch G C) (selectedGraph : Option G) :
    MctsEpisodeTask R G C F :=
  let (pathGraphs, nextGraphs, releasedGraphs) :=
    splitHandles selectedGraph.toList carried.graphs task.moveGraphs
  let (_, nextCandidates, releasedCandidates) :=
    splitHandles [] carried.candidates task.moveCandidates
  { task with
    pathGraphs := task.pathGraphs ++ pathGraphs
    moveGraphs := nextGraphs
    moveCandidates := nextCandidates
    releasable :=
      { graphs := task.releasable.graphs ++ releasedGraphs
        candidates := task.releasable.candidates ++ releasedCandidates } }

/-! ### Moves -/

def fail {α : Type} (message : String) : MctsEpisodeEffect R G C F α :=
  throw (.internal message)

def setState (state : MctsEpisodeState R G C F) : MctsEpisodeEffect R G C F Unit :=
  modify fun task => { task with state }

def takeToken : MctsEpisodeEffect R G C F WorkToken := do
  let task ← get
  set { task with nextToken := task.nextToken + 1 }
  pure ⟨task.nextToken⟩

variable [Scalar F] (strategy : MctsStrategy R G C F)

/-- The task of the next move on the subtree of the chosen action. -/
def reusedRootTask (task : MctsEpisodeTask R G C F)
    (rootTask : MctsRootTask R G C F) (result : MctsRootResult G C F) :
    Except (SearchFailure F) (Option (MctsRootTask R G C F × SearchHandleBatch G C)) :=
  let nextStep := task.stepIndex + 1
  if !task.config.treeReuse || result.selectedAction.isStop ||
      decide (task.config.maxSteps ≤ nextStep) then
    .ok none
  else
    let fresh : MctsRootTask R G C F := task.rootTaskAt nextStep result.selectedAfter
    rootTask.reusedChildTask strategy result.selectedActionIndex
      result.selectedAfter result.selectedAfterContext fresh.context

/-- The step that a result is, from where the episode stands. -/
def stepOf (task : MctsEpisodeTask R G C F) (result : MctsRootResult G C F)
    (stepRef : SearchStepRef) : MctsStep G C F where
  before := task.current
  after := result.selectedAfter
  action := result.selectedAction
  stepRef
  selectedAction := result.selectedActionRef
  selectedCandidate := result.selectedCandidate
  engineCandidateCount := result.engineCandidateCount
  actionCount := result.actionCount
  selectedRank := result.selectedActionIndex
  legalActions := result.legalActions
  policyTarget := result.policyTarget
  consideredActionIndices := result.consideredActionIndices
  rootValue := result.rootValue
  rootSearchValue := result.rootSearchValue
  rootQMax := result.rootQMax
  modelVersion := result.modelVersion

def takeStep (task : MctsEpisodeTask R G C F)
    (result : MctsRootResult G C F) (step : MctsStep G C F) :
    MctsEpisodeTask R G C F :=
  { task with
    rootContext := task.rootContext.or (some result.rootContext)
    current := result.selectedAfter
    currentContext := some result.selectedAfterContext
    steps := task.steps ++ [step]
    rootStats := task.rootStats ++ [result.stats]
    stepIndex := task.stepIndex + 1
    visited :=
      if task.config.noBacktrack then insert result.rootContext task.visited
      else task.visited }

def nextState (task : MctsEpisodeTask R G C F) (stops : Bool)
    (reused : Option (MctsRootTask R G C F)) :
    MctsEpisodeState R G C F :=
  if stops then .measure .selectedStop
  else if task.config.maxSteps ≤ task.stepIndex then .measure .maxSteps
  else
    match reused with
    | some rootTask =>
      .root (if task.config.noBacktrack then
        rootTask.setVisited task.visited
      else rootTask)
    | none => .root task.newRootTask

def finishRootResult (result : MctsRootResult G C F)
    (reused : Option (MctsRootTask R G C F × SearchHandleBatch G C)) :
    MctsEpisodeEffect R G C F Unit := do
  let task ← get
  let before := task.currentContext.getD result.rootContext
  match SearchStepRef.new before result.selectedActionRef result.selectedAfterContext with
  | .error _ => fail "invalid search step ref"
  | .ok stepRef => do
      let stops := result.selectedAction.isStop
      let moved := task.takeStep result (task.stepOf result stepRef)
      let parted := moved.partitionMoveHandles ((reused.map Prod.snd).getD .empty)
        (if stops then none else some result.selectedAfter)
      set
        { parted with
          state := parted.nextState stops (reused.map Prod.fst) }

/-- A root task that has come to its end. -/
def finishRootTask (rootTask : MctsRootTask R G C F)
    (result : MctsRootResult G C F) : MctsEpisodeEffect R G C F Unit := do
  match rootTask.rootContext with
  | none => fail "missing root context"
  | some rootContext => do
      if rootContext ≠ result.rootContext then
        fail "root context mismatch"
      let task ← get
      let reused ← MonadExcept.ofExcept (task.reusedRootTask strategy rootTask result)
      finishRootResult result reused

/-- Go on with the root task, which the state no longer holds. -/
def pollRoot (fuel : Nat) (rootTask : MctsRootTask R G C F) : MctsEpisodeEffect R G C F
      (Unit ⊕ MctsPoll G C F (MctsEpisode G C F)) := do
  let (polled, rootTask) :=  (MctsRootTask.poll strategy fuel).perform rootTask
  match polled with
  | .error failure => throw failure
  | .ok (.work work) => do
      let outer ← takeToken
      modify fun task =>
        { task with pending := some (.root outer work.token rootTask) }
      pure (.inr (.work (.search (work.retokenize outer))))
  | .ok .blocked => do
      setState (.root rootTask)
      pure (.inr .blocked)
  | .ok (.done result) => do
      finishRootTask strategy rootTask result
      pure (.inl ())

def pollMeasure (stopReason : MctsStopReason) :
    MctsEpisodeEffect R G C F (MctsPoll G C F (MctsEpisode G C F)) := do
  let token ← takeToken
  modify fun task => { task with pending := some (.measure token stopReason) }
  let task ← get
  pure (.work (.measure
    { token
      graph := task.current
      options := task.config.measureOptions }))

def start : MctsEpisodeEffect R G C F Unit :=
  modify fun task =>
    { task with
      state :=
        if task.config.maxSteps = 0 then .measure .maxSteps
        else .root task.newRootTask }

def round (fuel : Nat) : MctsEpisodeEffect R G C F (Unit ⊕ MctsPoll G C F (MctsEpisode G C F)) := do
  let task ← get
  setState .done
  match task.state with
  | .start => do
      start
      pure (.inl ())
  | .root rootTask => pollRoot strategy fuel rootTask
  | .measure stopReason => do
      let polled ← pollMeasure stopReason
      pure (.inr polled)
  | .doneResult episode => pure (.inr (.done episode))
  | .done => fail "poll after done"

/-- Go on with the episode; its loops take at most `fuel` rounds each. -/
def poll (fuel : Nat) : MctsEpisodeEffect R G C F (MctsPoll G C F (MctsEpisode G C F)) := do
  if (← get).pending.isSome then pure .blocked
  else Effect.loop .unfinished (fun _ => round strategy fuel) fuel ()

/-- The episode that the measurement of the final graph completes; all
handles are reported with it. -/
def completed (task : MctsEpisodeTask R G C F) (stopReason : MctsStopReason)
    (measure : MeasureResult G F) : MctsEpisode G C F :=
  let measured := task.identity.context measure.graphHash
  { root := task.root
    finalGraph := task.current
    rootContext := task.rootContext.getD measured
    finalContext := task.currentContext.getD measured
    steps := task.steps
    rootStats := task.rootStats
    createdGraphs :=
      task.releasable.graphs ++ task.pathGraphs ++ task.moveGraphs
    createdCandidates := task.releasable.candidates ++ task.moveCandidates
    finalMeasure := measure
    stopReason
    searchConfigHash := task.searchConfigHash }

def complete (stopReason : MctsStopReason) (measure : MeasureResult G F) :
    MctsEpisodeEffect R G C F Unit :=
  modify fun task =>
    let episode := task.completed stopReason measure
    { task with
      pending := none
      currentContext := some episode.finalContext
      rootContext := some episode.rootContext
      steps := []
      rootStats := []
      releasable := .empty
      pathGraphs := []
      moveGraphs := []
      moveCandidates := []
      state := .doneResult episode }

/-- The handles are the episode's before the root task sees the result. -/
def resumeRoot (inner : WorkToken) (rootTask : MctsRootTask R G C F)
    (result : SearchWorkResult G C F) : MctsEpisodeEffect R G C F Unit := do
  modify fun task =>
    { task with pending := none }.trackCreatedHandles result
  let (resumed, rootTask) := (MctsRootTask.resume strategy inner result).perform rootTask
  match resumed with
  | .error failure => throw failure
  | .ok () => setState (.root rootTask)

def resumePending (pending : PendingEpisodeWork R G C F)
    (result : MctsWorkResult G C F) : MctsEpisodeEffect R G C F Unit :=
  match pending, result with
  | .root _ _ _, .search (.measurePair _ _) => fail "mismatched work result"
  | .root _ inner rootTask, .search result => resumeRoot strategy inner rootTask result
  | .measure _ stopReason, .measure measure => complete stopReason measure
  | _, _ => fail "mismatched work result"

def resume (token : WorkToken) (result : MctsWorkResult G C F) :
    MctsEpisodeEffect R G C F Unit := do
  match (← get).pending with
  | none => fail "resume without pending work"
  | some pending =>
    if pending.token ≠ token then fail "unknown work token"
    else resumePending strategy pending result

end MctsEpisodeTask

end GraphZero.Search
