import GraphZero.Search.Beam
import Mathlib.Data.List.ReduceOption

/-!
# The layers of the beam

What one layer does, whatever the engine: every active node is expanded into
entries of its own context, and the selected entries become the active nodes.
The states before a layer are those of a transition system.
-/

namespace GraphZero.Search

open Engine Features Foundation Effect List

variable {σ G C : Type}

/-! ## Expansion -/

/-- A child that stands for a rewrite of the node. -/
structure CandidateOf (nodeId : Nat) (node child : BeamNode G C) : Prop where
  parent : child.parent = some nodeId
  incoming : child.incoming.isSome
  scored : score child.measure = some child.rank.reward
  goesOn : child.stopped = false
  action : ∃ hash, child.rank.actionRef = .candidate ⟨node.context, hash⟩

/-- The child that stays at the graph of the node. -/
structure StopOf (nodeId : Nat) (node child : BeamNode G C) : Prop where
  parent : child.parent = some nodeId
  incoming : child.incoming.isSome
  context : child.context = node.context
  measure : child.measure = node.measure
  reward : child.rank.reward = node.rank.reward
  stopped : child.stopped = true
  action : child.rank.actionRef = .stop node.context

inductive BeamExpansion (nodeId : Nat) (node : BeamNode G C) : List (BeamEntry G C) → Prop
  | carried (stopped : node.stopped = true) :
    BeamExpansion nodeId node [.existing nodeId node]
  | expanded {children : List (BeamNode G C)} {stop} (goesOn : node.stopped = false)
    (each : ∀ child ∈ children, CandidateOf nodeId node child) (last : StopOf nodeId node stop) :
    BeamExpansion nodeId node (children.map .new ++ [.new stop])

/-- The expansion of a layer leaves these parts of the beam alone. -/
def Beam.frame (beam : Beam σ G C) : List (BeamNode G C) × List (BeamLayer G) × List Nat :=
  (beam.nodes, beam.layers, beam.active)

def EngineFailed (failure : BeamFailure) (_ : Beam σ G C) : Prop :=
  ∃ error, failure = .engine error

section Expansion

variable {beam : Beam σ G C} {nodeId : Nat} {node : BeamNode G C}

variable {α : Type}

theorem perform_asked (call : Effect EngineError σ α) (start : Beam σ G C) :
    (asked call : BeamEffect σ G C α).perform start =
      ((call.perform start.engine).1.mapError .engine,
        { start with engine := (call.perform start.engine).2 }) :=
  rfl

theorem endsAt_asked (call : Effect EngineError σ α) (start : Beam σ G C) :
    (asked call : BeamEffect σ G C α).EndsAt
      (fun _ next => next.frame = start.frame) EngineFailed start := by
  have ran := perform_asked (G := G) (C := C) call start
  rcases done : call.perform start.engine with ⟨error | value, engine⟩
  · rw [done] at ran
    exact endsAt_of_error ran ⟨error, rfl⟩
  · rw [done] at ran
    exact endsAt_of_ok ran rfl

theorem endsAt_settledBy (result : EngineResult α) (start : Beam σ G C) :
    (settledBy result : BeamEffect σ G C α).EndsAt
      (fun _ next => next.frame = start.frame) EngineFailed start := by
  cases result with
  | error error => exact endsAt_throw ⟨error, rfl⟩
  | ok value => exact endsAt_pure rfl

theorem endsAt_checkedCandidateInfo (engine : GraphEngine σ G C) (graph : G)
    (candidate : C) (start : Beam σ G C) :
    (checkedCandidateInfo engine graph candidate).EndsAt
      (fun _ next => next.frame = start.frame) EngineFailed start := by
  refine endsAt_get_bind (EndsAt.bind (endsAt_settledBy _ start) fun info next same => ?_)
  split
  · exact endsAt_pure same
  · exact endsAt_throw ⟨_, rfl⟩

theorem endsAt_expandCandidate (engine : GraphEngine σ G C)
    (config : BeamSearchConfig) (count selectedRank : Nat) (candidate : C)
    (start : Beam σ G C) (same : start.frame = beam.frame) :
    (expandCandidate engine config nodeId node count selectedRank candidate).EndsAt
      (fun entry next =>
        (∀ child ∈ entry, ∃ fresh, child = .new fresh ∧
          CandidateOf nodeId node fresh) ∧ next.frame = beam.frame)
      EngineFailed start := by
  refine EndsAt.bind (endsAt_checkedCandidateInfo _ _ _ start) fun info informed kept => ?_
  refine EndsAt.bind (endsAt_asked _ informed) fun applied next more => ?_
  refine endsAt_modify_bind ?_
  have framed : next.frame = beam.frame := more.trans (kept.trans same)
  have nothing : ∀ child ∈ (none : Option (BeamEntry G C)),
      ∃ fresh, child = .new fresh ∧ CandidateOf nodeId node fresh :=
    fun _ absent => absurd absent (Option.not_mem_none _)
  split
  · exact endsAt_pure ⟨nothing, framed⟩
  refine EndsAt.bind (endsAt_asked _ _) fun measure measured still => ?_
  have framed : measured.frame = beam.frame := still.trans framed
  split
  · exact endsAt_pure ⟨nothing, framed⟩
  next reward scored =>
  refine endsAt_get_bind ?_
  refine EndsAt.bind (endsAt_settledBy _ measured) fun reference last end_ => ?_
  refine endsAt_pure ⟨fun child member => ?_, end_.trans framed⟩
  cases member
  exact ⟨_, rfl, rfl, rfl, scored, rfl, _, rfl⟩

theorem endsAt_expandStop (count : Nat) (start : Beam σ G C) (same : start.frame = beam.frame) :
    (expandStop nodeId node count).EndsAt (fun entry next => (∃ stop, entry = .new stop ∧
        StopOf nodeId node stop) ∧ next.frame = beam.frame)
      EngineFailed start := by
  refine EndsAt.bind (endsAt_settledBy _ start) fun reference next kept => ?_
  exact endsAt_pure ⟨⟨_, rfl, rfl, rfl, rfl, rfl, rfl, rfl, rfl⟩, kept.trans same⟩

theorem exists_children {inputs : List (C × Nat)} {entries : List (Option (BeamEntry G C))}
    (each : List.Forall₂ (fun _ entry => ∀ child ∈ entry, ∃ fresh,
      child = .new fresh ∧ CandidateOf nodeId node fresh) inputs entries) :
    ∃ children : List (BeamNode G C), entries.reduceOption = children.map .new ∧
        ∀ child ∈ children, CandidateOf nodeId node child := by
  induction each with
  | nil => exact ⟨[], rfl, forall_mem_nil _⟩
  | @cons input entry inputs entries first rest ih =>
    obtain ⟨children, same, others⟩ := ih
    cases entry with
    | none => exact ⟨children, same, others⟩
    | some entry =>
      obtain ⟨fresh, rfl, here⟩ := first entry rfl
      refine ⟨fresh :: children, ?_, forall_mem_cons.mpr ⟨here, others⟩⟩
      rw [reduceOption_cons_of_some, same]
      rfl

theorem endsAt_expandNode (engine : GraphEngine σ G C)
    (config : BeamSearchConfig) (goesOn : node.stopped = false)
    (start : Beam σ G C) (same : start.frame = beam.frame) :
    (expandNode engine config nodeId node).EndsAt
      (fun entries next => BeamExpansion nodeId node entries ∧ next.frame = beam.frame)
      EngineFailed start := by
  refine endsAt_get_bind ?_
  refine EndsAt.bind (endsAt_asked _ start) fun candidates next kept => ?_
  refine endsAt_modify_bind ?_
  refine EndsAt.bind (endsAt_mapM_forall₂
    (fun input _ mid framed => endsAt_expandCandidate engine config _
      input.2 input.1 mid framed) (kept.trans same))
    fun entries mid each => ?_
  obtain ⟨children, listed, all⟩ := exists_children each.1
  refine EndsAt.bind (endsAt_expandStop _ mid each.2) fun entry last stopped => ?_
  obtain ⟨⟨stop, rfl, own⟩, framed⟩ := stopped
  refine endsAt_pure ⟨?_, framed⟩
  rw [listed]
  exact .expanded goesOn all own

end Expansion

/-- The blocks of entries of the active nodes, one after the other. -/
def Beam.Expanded (beam : Beam σ G C) (entries : List (BeamEntry G C)) : Prop :=
  ∃ blocks, entries = blocks.flatten ∧ List.Forall₂ (fun nodeId block => ∃ node,
      beam.nodes[nodeId]? = some node ∧ BeamExpansion nodeId node block)
      beam.active blocks

theorem endsAt_expandLayer (engine : GraphEngine σ G C) (config : BeamSearchConfig) {beam}
    (inRange : ∀ nodeId ∈ beam.active, nodeId < beam.nodes.length) :
    (expandLayer engine config).EndsAt
      (fun entries next => beam.Expanded entries ∧ next.frame = beam.frame)
      EngineFailed beam := by
  have each : ∀ nodeId ∈ beam.active, ∀ mid : Beam σ G C,
      mid.frame = beam.frame → (expandActive engine config nodeId).EndsAt
          (fun block next => (∃ node, beam.nodes[nodeId]? = some node ∧
            BeamExpansion nodeId node block) ∧ next.frame = beam.frame)
          EngineFailed mid := by
    intro nodeId active mid framed
    have nodes : mid.nodes = beam.nodes := congrArg Prod.fst framed
    obtain ⟨node, found⟩ : ∃ node, beam.nodes[nodeId]? = some node :=
      ⟨_, getElem?_eq_getElem (inRange nodeId active)⟩
    refine endsAt_get_bind ?_
    rw [nodes, found]
    dsimp only
    split
    · next stopped =>
      exact endsAt_pure ⟨⟨node, rfl, .carried stopped⟩, framed⟩
    next goesOn =>
    refine EndsAt.mono (endsAt_expandNode engine config (Bool.eq_false_iff.mpr goesOn) mid framed)
      (fun entries next holds => ?_) (fun _ _ failed => failed)
    exact ⟨⟨node, rfl, holds.1⟩, holds.2⟩
  refine endsAt_get_bind ?_
  refine EndsAt.bind (endsAt_mapM_forall₂ each rfl) fun blocks last holds => ?_
  exact endsAt_pure ⟨⟨blocks, rfl, holds.1⟩, holds.2⟩

/-! ## The next layer -/

/-- A node apart from its place in a layer. -/
def BeamNode.unplaced (node : BeamNode G C) : BeamNode G C :=
  { node with layerIndex := none }

section Install

variable {nodes : List (BeamNode G C)} {entries : List (BeamEntry G C)}

theorem unplaced_setLayerIndices (nodes : List (BeamNode G C)) (active : List (Nat × Nat)) :
    (setLayerIndices nodes active).map BeamNode.unplaced = nodes.map BeamNode.unplaced := by
  unfold setLayerIndices
  induction active generalizing nodes with
  | nil => rfl
  | cons placed active ih =>
    rw [foldl_cons, ih]
    apply ext_getElem?
    intro index
    rw [getElem?_map, getElem?_map, getElem?_modify]
    cases nodes[index]? with
    | none => rfl
    | some node =>
      split <;> rfl

def Placed (nodes : List (BeamNode G C)) (entries : List (BeamEntry G C)) : Prop :=
  ∀ nodeId node, .existing nodeId node ∈ entries → nodes[nodeId]? = some node

theorem activate_spec (placed : Placed nodes entries) :
    ∃ fresh, (activate nodes entries).1 = nodes ++ fresh ∧ (∀ node ∈ fresh, .new node ∈ entries) ∧
      (activate nodes entries).2.map Prod.snd = entries.map (·.node) ∧
      ∀ active ∈ (activate nodes entries).2,
        (activate nodes entries).1[active.1.nodeId]? = some active.2 := by
  induction entries generalizing nodes with
  | nil => exact ⟨[], (append_nil _).symm, forall_mem_nil _, rfl, forall_mem_nil _⟩
  | cons entry entries ih =>
    cases entry with
    | existing nodeId node =>
      obtain ⟨fresh, whole, among, same, found⟩ := ih fun nodeId node member =>
          placed nodeId node (mem_cons_of_mem _ member)
      refine ⟨fresh, whole, fun node member =>
        mem_cons_of_mem _ (among node member),
        congrArg (node :: ·) same,
        forall_mem_cons.mpr ⟨?_, found⟩⟩
      have here := placed nodeId node mem_cons_self
      change (activate nodes entries).1[nodeId]? = some node
      rw [whole, getElem?_append_left (List.getElem?_eq_some_iff.mp here).1]
      exact here
    | new node =>
      have later : Placed (nodes ++ [node]) entries := by
        intro nodeId other member
        have here := placed nodeId other (mem_cons_of_mem _ member)
        rw [getElem?_append_left (List.getElem?_eq_some_iff.mp here).1]
        exact here
      obtain ⟨fresh, whole, among, same, found⟩ := ih later
      refine ⟨node :: fresh, ?_, forall_mem_cons.mpr ⟨mem_cons_self, fun node member =>
          mem_cons_of_mem _ (among node member)⟩,
        congrArg (node :: ·) same,
        forall_mem_cons.mpr ⟨?_, found⟩⟩
      · exact whole.trans (append_assoc _ _ _)
      · change (activate (nodes ++ [node]) entries).1[nodes.length]? = some node
        rw [whole, append_assoc]
        exact getElem?_append_right le_rfl |>.trans (by simp)

/-- What the nodes, the active nodes and the last layer are after the selected
entries have become active. -/
structure Installed (beam final : Beam σ G C) (selected : List (BeamEntry G C)) : Prop where
  nodes : ∃ fresh : List (BeamNode G C),
    (∀ node ∈ fresh, BeamEntry.new node ∈ selected) ∧ final.nodes.map BeamNode.unplaced =
        (beam.nodes ++ fresh).map BeamNode.unplaced
  inRange : ∀ nodeId ∈ final.active, nodeId < final.nodes.length
  active : final.activeNodes.map BeamNode.unplaced = selected.map fun entry => entry.node.unplaced
  layers : ∃ layer : BeamLayer G, final.layers = beam.layers ++ [layer] ∧
    layer.entries.map (fun entry => (entry.context, entry.reward)) = selected.map fun entry =>
        (entry.node.context, entry.node.rank.reward)

theorem Beam.installed {beam : Beam σ G C} {selected} (placed : Placed beam.nodes selected) :
    Installed beam (beam.install selected) selected := by
  obtain ⟨fresh, whole, among, same, found⟩ := activate_spec placed
  have nodes : (beam.install selected).nodes.map BeamNode.unplaced =
      (activate beam.nodes selected).1.map BeamNode.unplaced :=
    unplaced_setLayerIndices _ _
  have placedNode (nodeId : Nat) : (beam.install selected).nodes[nodeId]?.map BeamNode.unplaced =
        (activate beam.nodes selected).1[nodeId]?.map BeamNode.unplaced := by
    rw [← getElem?_map, nodes, getElem?_map]
  refine ⟨⟨fresh, among, nodes.trans (by rw [whole])⟩, fun nodeId member => ?_,
    ?_, ⟨_, rfl, ?_⟩⟩
  · obtain ⟨active, here, rfl⟩ := mem_map.mp member
    have long := congrArg List.length nodes
    rw [length_map, length_map] at long
    rw [long]
    exact (List.getElem?_eq_some_iff.mp (found active here)).1
  · change (((activate beam.nodes selected).2.map (·.1.nodeId)).filterMap
      ((beam.install selected).nodes[·]?)).map BeamNode.unplaced = _
    have target := congrArg (List.map BeamNode.unplaced) same
    rw [map_map, map_map] at target
    refine Eq.trans ?_ target
    rw [map_filterMap, filterMap_map, ← filterMap_eq_map]
    refine filterMap_congr fun active member => ?_
    change (beam.install selected).nodes[active.1.nodeId]?.map _ = _
    rw [placedNode, found active member]
    rfl
  · have pairs := congrArg (List.map fun node : BeamNode G C =>
      (node.context, node.rank.reward)) same
    rw [map_map, map_map] at pairs
    rw [map_map]
    exact pairs

end Install

end GraphZero.Search
