import GraphZero.Features.FloatOrder
import GraphZero.Foundation.Selection
import GraphZero.Search.RootState
import Mathlib.Data.Prod.Lex

/-!
# Beam search

The beam holds nodes of distinct graphs.  In each layer every node that goes
on is expanded into its candidates and a stop, a stopped node stays, and the
best entries make the next layer.  Entries are compared by reward, then a
stopped one before one that goes on, then by prior, by the smaller action and
by the smaller depth.
-/

namespace GraphZero.Search

open Engine Features Foundation

/-! ## The rank of an entry -/

/-- The fields of an action in the order in which they are compared; a
candidate comes before a stop. -/
def actionPlace (action : PortableSearchActionRef) : Nat ×ₗ Nat ×ₗ Nat ×ₗ Nat ×ₗ Nat ×ₗ Nat :=
  let context := action.context
  let (variant, candidateHash) := match action with
    | .candidate candidate => (0, candidate.candidateHash.toNat)
    | .stop _ => (1, 0)
  toLex (variant, toLex (context.graph.graphHash.toNat, toLex (context.graph.engineId.toNat,
      toLex (context.graph.engineVersion.toNat,
        toLex (context.actionSetHash.toNat, candidateHash)))))

def actionOrder (left right : PortableSearchActionRef) : Ordering :=
  compare (actionPlace left) (actionPlace right)

structure BeamRank where
  reward : F32
  stopped : Bool
  depth : Nat
  staticPrior : F32
  actionRef : PortableSearchActionRef

def rankOrder (left right : BeamRank) : Ordering :=
  (left.reward.totalCmp right.reward).then <| (compare left.stopped right.stopped).then <|
      (left.staticPrior.totalCmp right.staticPrior).then <|
        (actionOrder right.actionRef left.actionRef).then <| compare right.depth left.depth

theorem context_eq_of_toNat {left right : ReplayGraphContext}
    (hash : left.graph.graphHash.toNat = right.graph.graphHash.toNat)
    (engine : left.graph.engineId.toNat = right.graph.engineId.toNat)
    (version : left.graph.engineVersion.toNat = right.graph.engineVersion.toNat)
    (actions : left.actionSetHash.toNat = right.actionSetHash.toNat) :
    left = right := by
  obtain ⟨⟨leftHash, leftEngine, leftVersion⟩, leftActions⟩ := left
  obtain ⟨⟨rightHash, rightEngine, rightVersion⟩, rightActions⟩ := right
  obtain rfl : leftHash = rightHash := BitVec.eq_of_toNat_eq hash
  obtain rfl : leftEngine = rightEngine := BitVec.eq_of_toNat_eq engine
  obtain rfl : leftVersion = rightVersion := BitVec.eq_of_toNat_eq version
  obtain rfl : leftActions = rightActions := BitVec.eq_of_toNat_eq actions
  rfl

theorem actionPlace_injective : Function.Injective actionPlace := by
  intro left right same
  obtain ⟨variant, parts⟩ := Prod.mk.inj same
  obtain ⟨hash, parts⟩ := Prod.mk.inj parts
  obtain ⟨engine, parts⟩ := Prod.mk.inj parts
  obtain ⟨version, parts⟩ := Prod.mk.inj parts
  obtain ⟨actions, candidate⟩ := Prod.mk.inj parts
  have context : left.context = right.context := context_eq_of_toNat hash engine version actions
  cases left with
  | candidate left =>
    cases right with
    | candidate right =>
      obtain ⟨leftContext, leftHash⟩ := left
      obtain ⟨rightContext, rightHash⟩ := right
      obtain rfl : leftContext = rightContext := context
      obtain rfl : leftHash = rightHash := BitVec.eq_of_toNat_eq candidate
      rfl
    | stop right => cases variant
  | stop left =>
    cases right with
    | candidate right => cases variant
    | stop right => exact congrArg PortableSearchActionRef.stop context

/-- What is compared of a rank, first things first. -/
def BeamRank.place (rank : BeamRank) : Int ×ₗ Bool ×ₗ Int ×ₗ
      (Nat ×ₗ Nat ×ₗ Nat ×ₗ Nat ×ₗ Nat ×ₗ Nat)ᵒᵈ ×ₗ Natᵒᵈ :=
  toLex (rank.reward.totalPlace, toLex (rank.stopped, toLex (rank.staticPrior.totalPlace,
      toLex (OrderDual.toDual (actionPlace rank.actionRef), OrderDual.toDual rank.depth))))

theorem BeamRank.place_injective : Function.Injective BeamRank.place := by
  intro left right same
  obtain ⟨reward, parts⟩ := Prod.mk.inj same
  obtain ⟨stopped, parts⟩ := Prod.mk.inj parts
  obtain ⟨prior, parts⟩ := Prod.mk.inj parts
  obtain ⟨action, depth⟩ := Prod.mk.inj parts
  have rewards := F32.totalPlace_injective reward
  have priors := F32.totalPlace_injective prior
  have actions := actionPlace_injective action
  have depths : left.depth = right.depth := depth
  cases left
  cases right
  simp only at rewards stopped priors actions depths
  rw [rewards, stopped, priors, actions, depths]

theorem rankOrder_eq_compare (left right : BeamRank) :
    rankOrder left right = compare left.place right.place := by
  unfold rankOrder BeamRank.place
  rfl

instance : LinearOrder BeamRank :=
  orderOfComparison rankOrder BeamRank.place BeamRank.place_injective rankOrder_eq_compare

theorem BeamRank.totalPlace_le {left right : BeamRank} (below : left ≤ right) :
    left.reward.totalPlace ≤ right.reward.totalPlace := by
  by_contra above
  have more : right.reward.totalPlace < left.reward.totalPlace := not_le.mp above
  have greater : rankOrder left right = .gt := by
    unfold rankOrder F32.totalCmp
    rw [compare_gt_iff_gt.mpr more]
    rfl
  exact below greater

/-! ## The engine -/

structure CandidateInfo where
  candidateHash : CandidateHash
  kind : CandidateKindId
  tags : CandidateTags
  staticPrior : F32

/-- An engine with states `σ`, graph handles `G` and candidate handles `C`. -/
structure GraphEngine (σ G C : Type) where
  identity : σ → EngineIdentity
  hash : σ → G → EngineResult GraphHash
  /-- Fills the buffer that the last call left. -/
  candidates : G → CandidateOptions → List C → Effect EngineError σ (List C)
  candidateInfo : σ → G → C → EngineResult CandidateInfo
  apply : G → C → Effect EngineError σ (ApplyResult G)
  measure : G → MeasureOptions → Effect EngineError σ (MeasureResult G F32)

def score {G : Type} (measure : MeasureResult G F32) : Option F32 :=
  if !measure.measured || !measure.valid then none
  else
    match measure.scalarReward with
    | some reward => if reward.isFinite then some reward else none
    | none => none

def internalError (message : String) : EngineError :=
  .internal 1 message

/-! ## The beam -/

/-- An error of the engine, or an index out of range. -/
inductive BeamFailure where
  | engine (error : EngineError)
  | panicked

structure BeamSearchConfig where
  maxDepth : Nat
  beamWidth : Nat
  beamWidth_pos : 0 < beamWidth
  candidateOptions : CandidateOptions
  measureOptions : MeasureOptions

structure SearchStep (G C : Type) where
  before : G
  after : G
  action : SearchAction C
  stepRef : SearchStepRef
  selectedAction : PortableSearchActionRef
  selectedCandidate : Option (SearchCandidateSummary F32)
  selectedMeasure : MeasureSummary F32
  engineCandidateCount : Nat
  actionCount : Nat
  selectedRank : Nat

structure BeamNode (G C : Type) where
  graph : G
  context : ReplayGraphContext
  measure : MeasureResult G F32
  parent : Option Nat
  incoming : Option (SearchStep G C)
  layerIndex : Option Nat
  stopped : Bool
  rank : BeamRank

/-- A node of the beam, or one that is still to be selected. -/
inductive BeamEntry (G C : Type) where
  | existing (nodeId : Nat) (node : BeamNode G C)
  | new (node : BeamNode G C)

namespace BeamEntry

variable {G C : Type}

def node : BeamEntry G C → BeamNode G C
  | existing _ node => node
  | new node => node

def graphHash (entry : BeamEntry G C) : GraphHash :=
  entry.node.context.graph.graphHash

def rank (entry : BeamEntry G C) : BeamRank :=
  entry.node.rank

end BeamEntry

structure BeamEntrySummary (G : Type) where
  graph : G
  context : ReplayGraphContext
  measure : MeasureSummary F32
  reward : F32
  stopped : Bool
  carried : Bool
  parentIndex : Option Nat
  selectedAction : Option PortableSearchActionRef
  selectedRank : Option Nat
  engineCandidateCount : Option Nat
  actionCount : Option Nat

structure BeamLayer (G : Type) where
  depth : Nat
  entries : List (BeamEntrySummary G)

inductive BeamStopReason where
  | maxDepth
  | selectedStop
  | unscoredRoot

structure BeamEpisode (G C : Type) where
  root : G
  finalGraph : G
  rootContext : ReplayGraphContext
  finalContext : ReplayGraphContext
  steps : List (SearchStep G C)
  layers : List (BeamLayer G)
  createdGraphs : List G
  createdCandidates : List C
  finalMeasure : MeasureResult G F32
  stopReason : BeamStopReason

/-- What a run of the search works on; `engine` is the engine's state. -/
structure Beam (σ G C : Type) where
  engine : σ
  nodes : List (BeamNode G C)
  layers : List (BeamLayer G)
  active : List Nat
  candidates : List C
  createdGraphs : List G
  createdCandidates : List C

abbrev BeamEffect (σ G C : Type) : Type → Type :=
  Effect BeamFailure (Beam σ G C)

variable {σ G C : Type}

def asked {α : Type} (call : Effect EngineError σ α) : BeamEffect σ G C α := fun beam =>
  let (result, engine) := call.perform beam.engine
  (result.mapError .engine, { beam with engine })

def settledBy {α : Type} (result : EngineResult α) : BeamEffect σ G C α :=
  match result with
  | .ok value => pure value
  | .error error => throw (.engine error)

def graphContextFromHash (engine : GraphEngine σ G C) (graphHash : GraphHash) :
    BeamEffect σ G C ReplayGraphContext :=
  return (engine.identity (← get).engine).context graphHash

def stepRef (before : ReplayGraphContext) (action : PortableSearchActionRef)
    (after : ReplayGraphContext) : EngineResult SearchStepRef :=
  (SearchStepRef.new before action after).mapError fun _ =>
    internalError "invalid search step ref"

/-- What the engine says of a candidate, if its prior is finite. -/
def checkedCandidateInfo (engine : GraphEngine σ G C) (graph : G)
    (candidate : C) : BeamEffect σ G C CandidateInfo := do
  let info ← settledBy (engine.candidateInfo (← get).engine graph candidate)
  if info.staticPrior.isFinite then pure info
  else throw (.engine (internalError "invalid candidate info"))

/-- The entry of one candidate, unless it is rejected or has no reward. -/
def expandCandidate (engine : GraphEngine σ G C) (config : BeamSearchConfig)
    (nodeId : Nat) (node : BeamNode G C) (engineCandidateCount selectedRank : Nat) (candidate : C) :
    BeamEffect σ G C (Option (BeamEntry G C)) := do
  let info ← checkedCandidateInfo engine node.graph candidate
  let actionRef := .candidate ⟨node.context, info.candidateHash⟩
  let applied ← asked (engine.apply node.graph candidate)
  modify fun beam =>
    { beam with createdGraphs := beam.createdGraphs ++ [applied.after] }
  if applied.rejected then
    return none
  let measure ← asked (engine.measure applied.after config.measureOptions)
  match score measure with
  | none => return none
  | some reward =>
    let after ← graphContextFromHash engine applied.afterHash
    let stepRef ← settledBy (stepRef node.context actionRef after)
    return some <| .new
      { graph := applied.after
        context := after
        measure
        parent := some nodeId
        incoming := some
          { before := node.graph
            after := applied.after
            action := .candidate candidate
            stepRef
            selectedAction := actionRef
            selectedCandidate := some ⟨info.kind, info.tags, info.staticPrior⟩
            selectedMeasure := measure.summary
            engineCandidateCount
            actionCount := engineCandidateCount + 1
            selectedRank }
        layerIndex := none
        stopped := false
        rank :=
          { reward
            stopped := false
            depth := node.rank.depth + 1
            staticPrior := info.staticPrior
            actionRef } }

def expandStop (nodeId : Nat) (node : BeamNode G C)
    (engineCandidateCount : Nat) : BeamEffect σ G C (BeamEntry G C) := do
  let actionRef := .stop node.context
  let stepRef ← settledBy (stepRef node.context actionRef node.context)
  return .new
    { graph := node.graph
      context := node.context
      measure := node.measure
      parent := some nodeId
      incoming := some
        { before := node.graph
          after := node.graph
          action := .stop
          stepRef
          selectedAction := actionRef
          selectedCandidate := none
          selectedMeasure := node.measure.summary
          engineCandidateCount
          actionCount := engineCandidateCount + 1
          selectedRank := engineCandidateCount }
      layerIndex := none
      stopped := true
      rank :=
        { reward := node.rank.reward
          stopped := true
          depth := node.rank.depth + 1
          staticPrior := F32.zero
          actionRef } }

def expandNode (engine : GraphEngine σ G C) (config : BeamSearchConfig)
    (nodeId : Nat) (node : BeamNode G C) :
    BeamEffect σ G C (List (BeamEntry G C)) := do
  let buffer := (← get).candidates
  let candidates ← asked (engine.candidates node.graph config.candidateOptions buffer)
  modify fun beam =>
    { beam with
      candidates
      createdCandidates := beam.createdCandidates ++ candidates }
  let entries ← candidates.zipIdx.mapM fun (candidate, selectedRank) =>
    expandCandidate engine config nodeId node candidates.length selectedRank candidate
  let stop ← expandStop nodeId node candidates.length
  return entries.reduceOption ++ [stop]

def expandActive (engine : GraphEngine σ G C) (config : BeamSearchConfig)
    (nodeId : Nat) : BeamEffect σ G C (List (BeamEntry G C)) := do
  match (← get).nodes[nodeId]? with
  | none => throw .panicked
  | some node =>
    if node.stopped then return [.existing nodeId node]
    else expandNode engine config nodeId node

def expandLayer (engine : GraphEngine σ G C) (config : BeamSearchConfig) :
    BeamEffect σ G C (List (BeamEntry G C)) := do
  let entries ← (← get).active.mapM (expandActive engine config)
  return entries.flatten

/-- The table keeps the best entry of every graph, the heap the best
`beamWidth` of the table. -/
def selectLayer (containers : Containers (BeamEntry G C))
    (config : BeamSearchConfig) (entries : List (BeamEntry G C)) :
    List (BeamEntry G C) :=
  selectBest BeamEntry.graphHash BeamEntry.rank containers config.beamWidth entries

structure NextActive where
  nodeId : Nat
  parentIndex : Option Nat
  carried : Bool

def layerIndexOf (nodes : List (BeamNode G C)) (nodeId : Nat) : Option Nat :=
  nodes[nodeId]?.bind (·.layerIndex)

/-- Give the selected entries a place among the nodes. -/
def activate : (nodes : List (BeamNode G C)) → List (BeamEntry G C) →
    List (BeamNode G C) × List (NextActive × BeamNode G C)
  | nodes, [] => (nodes, [])
  | nodes, .existing nodeId node :: entries =>
    let (final, rest) := activate nodes entries
    (final, (⟨nodeId, layerIndexOf nodes nodeId, true⟩, node) :: rest)
  | nodes, .new node :: entries =>
    let (final, rest) := activate (nodes ++ [node]) entries
    (final, (⟨nodes.length, node.parent.bind (layerIndexOf nodes), false⟩, node) :: rest)

def summarizeEntry (entry : NextActive) (node : BeamNode G C) : BeamEntrySummary G :=
  let incoming := if entry.carried then none else node.incoming
  { graph := node.graph
    context := node.context
    measure := node.measure.summary
    reward := node.rank.reward
    stopped := node.stopped
    carried := entry.carried
    parentIndex := entry.parentIndex
    selectedAction := incoming.map (·.selectedAction)
    selectedRank := incoming.map (·.selectedRank)
    engineCandidateCount := incoming.map (·.engineCandidateCount)
    actionCount := incoming.map (·.actionCount) }

def setLayerIndices (nodes : List (BeamNode G C))
    (active : List (Nat × Nat)) : List (BeamNode G C) :=
  active.foldl (fun nodes (nodeId, index) =>
    nodes.modify nodeId fun node => { node with layerIndex := some index })
    nodes

def Beam.install (beam : Beam σ G C) (selected : List (BeamEntry G C)) : Beam σ G C :=
  let (nodes, next) := activate beam.nodes selected
  let active := next.map (·.1.nodeId)
  { beam with
    nodes := setLayerIndices nodes active.zipIdx
    layers := beam.layers ++ [
      { depth := beam.layers.length
        entries := next.map fun (entry, node) => summarizeEntry entry node }]
    active }

/-- Each layer meets its containers in orders of their own. -/
abbrev LayerContainers (G C : Type) : Type :=
  (depth : Nat) → Containers (BeamEntry G C)

def nextLayer (engine : GraphEngine σ G C) (config : BeamSearchConfig)
    (containers : LayerContainers G C) : BeamEffect σ G C Unit := do
  let entries ← expandLayer engine config
  modify fun beam =>
    beam.install (selectLayer (containers beam.layers.length) config entries)

/-! ## The search -/

def Beam.activeNodes (beam : Beam σ G C) : List (BeamNode G C) :=
  beam.active.filterMap (beam.nodes[·]?)

def runLayers (engine : GraphEngine σ G C) (config : BeamSearchConfig)
    (containers : LayerContainers G C) :
    (depth : Nat) → BeamEffect σ G C Unit
  | 0 => pure ()
  | depth + 1 => do
      nextLayer engine config containers
      if (← get).activeNodes.all (·.stopped) then pure ()
      else runLayers engine config containers depth

/-- The steps from the root to the node, the last one first. -/
def stepsBack (nodes : List (BeamNode G C)) :
    (fuel nodeId : Nat) → Except BeamFailure (List (SearchStep G C))
  | 0, _ => .error .panicked
  | fuel + 1, nodeId =>
    match nodes[nodeId]? with
    | none => .error .panicked
    | some node =>
      match node.parent, node.incoming with
      | none, _ => .ok []
      | some _, none => .error .panicked
      | some parent, some step => (step :: ·) <$> stepsBack nodes fuel parent

def collectSteps (nodes : List (BeamNode G C)) (nodeId : Nat) :
    Except BeamFailure (List (SearchStep G C)) :=
  List.reverse <$> stepsBack nodes nodes.length nodeId

def Beam.episode (beam : Beam σ G C) (root : G)
    (rootContext : ReplayGraphContext) (selected : BeamNode G C)
    (steps : List (SearchStep G C)) : BeamEpisode G C where
  root
  finalGraph := selected.graph
  rootContext
  finalContext := selected.context
  steps
  layers := beam.layers
  createdGraphs := beam.createdGraphs
  createdCandidates := beam.createdCandidates
  finalMeasure := selected.measure
  stopReason := if selected.stopped then .selectedStop else .maxDepth

/-- The best of the active nodes ends the search. -/
def Beam.finish (beam : Beam σ G C) (root : G) (rootContext : ReplayGraphContext) :
    Except BeamFailure (BeamEpisode G C) := do
  let ranked := beam.active.filterMap fun nodeId =>
    beam.nodes[nodeId]?.map (nodeId, ·)
  match lastBest (fun (_, node) => node.rank) ranked with
  | none => .error .panicked
  | some (best, selected) => beam.episode root rootContext selected <$> collectSteps beam.nodes best

def rootNode (root : G) (context : ReplayGraphContext)
    (measure : MeasureResult G F32) (reward : F32) : BeamNode G C where
  graph := root
  context
  measure
  parent := none
  incoming := none
  layerIndex := some 0
  stopped := false
  rank :=
    { reward
      stopped := false
      depth := 0
      staticPrior := F32.zero
      actionRef := .stop context }

def rootEntry (root : G) (context : ReplayGraphContext)
    (measure : MeasureResult G F32) (reward : F32) : BeamEntrySummary G where
  graph := root
  context
  measure := measure.summary
  reward
  stopped := false
  carried := false
  parentIndex := none
  selectedAction := none
  selectedRank := none
  engineCandidateCount := none
  actionCount := none

/-- The beam before the first layer is expanded. -/
def Beam.start (engine : σ) (root : G) (context : ReplayGraphContext)
    (measure : MeasureResult G F32) (reward : F32) : Beam σ G C where
  engine
  nodes := [rootNode root context measure reward]
  layers := [⟨0, [rootEntry root context measure reward]⟩]
  active := [0]
  candidates := []
  createdGraphs := []
  createdCandidates := []

def unscoredEpisode (root : G) (rootContext : ReplayGraphContext)
    (rootMeasure : MeasureResult G F32) : BeamEpisode G C where
  root
  finalGraph := root
  rootContext
  finalContext := rootContext
  steps := []
  layers := []
  createdGraphs := []
  createdCandidates := []
  finalMeasure := rootMeasure
  stopReason := .unscoredRoot

/-- `BeamSearch::run` on an engine in the given state; the engine's last state
is returned also after a failure. -/
def beamSearch (engine : GraphEngine σ G C) (config : BeamSearchConfig)
    (containers : LayerContainers G C) (root : G) (state : σ) :
    Except BeamFailure (BeamEpisode G C) × σ :=
  match engine.hash state root with
  | .error error => (.error (.engine error), state)
  | .ok graphHash =>
    let context := (engine.identity state).context graphHash
    match (engine.measure root config.measureOptions).perform state with
    | (.error error, state) => (.error (.engine error), state)
    | (.ok measure, state) =>
      match score measure with
      | none => (.ok (unscoredEpisode root context measure), state)
      | some reward =>
        match (runLayers engine config containers config.maxDepth).perform
          (Beam.start state root context measure reward) with
        | (.error failure, beam) => (.error failure, beam.engine)
        | (.ok (), beam) => (beam.finish root context, beam.engine)

end GraphZero.Search
