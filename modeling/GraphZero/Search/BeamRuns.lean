import GraphZero.Foundation.Sequences
import GraphZero.Foundation.Transition
import GraphZero.Search.BeamLayers

/-!
# Runs of the beam

The states between two layers are those of a transition system.  In each of
them the active nodes are of distinct graphs and every node has been scored.
-/

namespace GraphZero.Search

open Engine Features Foundation Effect List

variable {σ G C : Type}

def beamSystem (engine : GraphEngine σ G C) (config : BeamSearchConfig)
    (containers : LayerContainers G C) :
    TransitionSystem (Beam σ G C) Unit where
  initial beam := ∃ state root context measure reward,
    score measure = some reward ∧ beam = Beam.start state root context measure reward
  step source _ target :=
    (nextLayer engine config containers).perform source = (.ok (), target)

section Expanded

variable {beam : Beam σ G C} {entries : List (BeamEntry G C)}

/-- The entry stands for a stopped node itself or for a child of a node. -/
inductive EntryOf (nodeId : Nat) (node : BeamNode G C) : BeamEntry G C → Prop
  | carried (stopped : node.stopped = true) :
    EntryOf nodeId node (.existing nodeId node)
  | candidate {child} (own : CandidateOf nodeId node child) :
    EntryOf nodeId node (.new child)
  | stop {child} (own : StopOf nodeId node child) :
    EntryOf nodeId node (.new child)

theorem BeamExpansion.entryOf {nodeId node block} (expansion : BeamExpansion nodeId node block)
    {entry : BeamEntry G C} (member : entry ∈ block) :
    EntryOf nodeId node entry := by
  cases expansion with
  | carried stopped =>
    obtain rfl := mem_singleton.mp member
    exact .carried stopped
  | expanded goesOn each last =>
    rcases mem_append.mp member with rewritten | stop
    · obtain ⟨child, here, rfl⟩ := mem_map.mp rewritten
      exact .candidate (each child here)
    · obtain rfl := mem_singleton.mp stop
      exact .stop last

theorem Beam.Expanded.entryOf (expanded : beam.Expanded entries) {entry}
    (member : entry ∈ entries) :
    ∃ nodeId ∈ beam.active, ∃ node, beam.nodes[nodeId]? = some node ∧
      EntryOf nodeId node entry := by
  obtain ⟨blocks, rfl, each⟩ := expanded
  obtain ⟨block, here, inside⟩ := mem_flatten.mp member
  obtain ⟨nodeId, active, node, found, expansion⟩ := forall₂_mem_right each here
  exact ⟨nodeId, active, node, found, expansion.entryOf inside⟩

theorem Beam.Expanded.exists_entry (expanded : beam.Expanded entries) {nodeId}
    (active : nodeId ∈ beam.active) {node} (found : beam.nodes[nodeId]? = some node) :
    ∃ entry ∈ entries, entry.rank.reward = node.rank.reward := by
  obtain ⟨blocks, rfl, each⟩ := expanded
  obtain ⟨block, here, other, same, expansion⟩ := forall₂_mem_right each.flip active
  obtain rfl : other = node := Option.some.inj (same.symm.trans found)
  cases expansion with
  | carried stopped => exact ⟨_, mem_flatten.mpr ⟨_, here, mem_cons_self⟩, rfl⟩
  | expanded goesOn every last =>
    exact ⟨_, mem_flatten.mpr ⟨_, here, mem_concat_self⟩, last.reward⟩

theorem Beam.Expanded.placed (expanded : beam.Expanded entries) : Placed beam.nodes entries := by
  intro nodeId node member
  obtain ⟨other, _, own, found, entry⟩ := expanded.entryOf member
  cases entry with
  | carried stopped => exact found

end Expanded

section Select

variable {containers : Containers (BeamEntry G C)}
  {config : BeamSearchConfig} {entries : List (BeamEntry G C)}

theorem mem_of_mem_selectLayer {entry} (member : entry ∈ selectLayer containers config entries) :
    entry ∈ entries :=
  mem_of_mem_selectBest config.beamWidth_pos member

theorem length_selectLayer_le : (selectLayer containers config entries).length ≤ config.beamWidth :=
  length_selectBest_le config.beamWidth_pos

theorem nodup_selectLayer : ((selectLayer containers config entries).map
      BeamEntry.graphHash).Nodup :=
  nodup_selectBest config.beamWidth_pos

theorem exists_selectLayer {entry} (member : entry ∈ entries) :
    ∃ kept ∈ selectLayer containers config entries, entry.rank ≤ kept.rank :=
  exists_selectBest config.beamWidth_pos member

end Select

/-! ## The invariant -/

/-- Every node has been scored and comes from an earlier one, a stopped node
stands for the stop of its context, and the active nodes are of distinct
graphs. -/
structure Beam.Sound (beam : Beam σ G C) : Prop where
  scored : ∀ node ∈ beam.nodes, score node.measure = some node.rank.reward
  stops : ∀ node ∈ beam.nodes, node.stopped = true → node.rank.actionRef = .stop node.context
  descends : ∀ nodeId (node : BeamNode G C),
    beam.nodes[nodeId]? = some node → ∀ parent, node.parent = some parent →
      parent < nodeId ∧ node.incoming.isSome
  inRange : ∀ nodeId ∈ beam.active, nodeId < beam.nodes.length
  nonempty : beam.active ≠ []
  distinct : (beam.activeNodes.map (·.context.graph.graphHash)).Nodup

theorem Beam.sound_start {state root context measure reward}
    (scored : score measure = some reward) :
    (Beam.start state root context measure reward : Beam σ G C).Sound where
  scored := forall_mem_singleton.mpr scored
  stops := forall_mem_singleton.mpr nofun
  descends nodeId node found parent from_ := by
    obtain rfl := mem_singleton.mp (mem_of_getElem? found)
    cases from_
  inRange := forall_mem_singleton.mpr Nat.zero_lt_one
  nonempty := cons_ne_nil _ _
  distinct := nodup_singleton _

section Step

variable {engine : GraphEngine σ G C} {config : BeamSearchConfig}
  {containers : LayerContainers G C} {source target : Beam σ G C}

/-- The target is made from entries of the active nodes of the source. -/
def Layered (config : BeamSearchConfig) (containers : LayerContainers G C)
    (source target : Beam σ G C) : Prop :=
  ∃ (entries : List (BeamEntry G C)) (mid : Beam σ G C),
    source.Expanded entries ∧ mid.frame = source.frame ∧ target = mid.install
        (selectLayer (containers mid.layers.length) config entries)

theorem Beam.Sound.endsAt_nextLayer (sound : source.Sound) :
    (nextLayer engine config containers).EndsAt
      (fun _ target => Layered config containers source target)
      EngineFailed source := by
  refine EndsAt.bind (endsAt_expandLayer engine config sound.inRange) fun entries mid expanded => ?_
  exact endsAt_modify ⟨entries, mid, expanded.1, expanded.2, rfl⟩

theorem Beam.Sound.layered (sound : source.Sound)
    (step : (nextLayer engine config containers).perform source = (.ok (), target)) :
    ∃ entries, source.Expanded entries ∧ Installed source target
        (selectLayer (containers source.layers.length) config entries) := by
  obtain ⟨entries, mid, expanded, framed, rfl⟩ := sound.endsAt_nextLayer.ok step
  refine ⟨entries, expanded, ?_⟩
  have nodes : mid.nodes = source.nodes := congrArg Prod.fst framed
  have layers : mid.layers = source.layers := congrArg (·.2.1) framed
  have placed : Placed mid.nodes (selectLayer (containers mid.layers.length) config entries) := by
    intro nodeId node member
    rw [nodes]
    exact expanded.placed nodeId node (mem_of_mem_selectLayer member)
  rw [← layers]
  obtain ⟨fresh, whole⟩ := (Beam.installed placed).nodes
  refine ⟨⟨fresh, ?_⟩, (Beam.installed placed).inRange, (Beam.installed placed).active, ?_⟩
  · rw [← nodes]
    exact whole
  · rw [← layers]
    exact (Beam.installed placed).layers

variable {node : BeamNode G C}

theorem Installed.exists_node {selected} (installed : Installed source target selected) {nodeId}
    (found : target.nodes[nodeId]? = some node) :
    ∃ old : BeamNode G C, old.unplaced = node.unplaced ∧ (source.nodes[nodeId]? = some old ∨
        .new old ∈ selected ∧ source.nodes.length ≤ nodeId) := by
  obtain ⟨fresh, among, same⟩ := installed.nodes
  have here := congrArg (·[nodeId]?) same
  simp only [getElem?_map, found, Option.map_some] at here
  obtain ⟨old, there, alike⟩ := Option.map_eq_some_iff.mp here.symm
  refine ⟨old, alike, ?_⟩
  by_cases before : nodeId < source.nodes.length
  · rw [getElem?_append_left before] at there
    exact .inl there
  · rw [getElem?_append_right (Nat.le_of_not_lt before)] at there
    exact .inr ⟨among old (mem_of_getElem? there), Nat.le_of_not_lt before⟩

theorem Beam.mem_of_mem_activeNodes {beam : Beam σ G C} (member : node ∈ beam.activeNodes) :
    node ∈ beam.nodes := by
  obtain ⟨nodeId, _, found⟩ := mem_filterMap.mp member
  exact mem_of_getElem? found

theorem Beam.Sound.newEntry (sound : source.Sound) {nodeId child}
    (found : source.nodes[nodeId]? = some node) (entry : EntryOf nodeId node (.new child)) :
    score child.measure = some child.rank.reward ∧
      (child.stopped = true → child.rank.actionRef = .stop child.context) ∧
      child.parent = some nodeId ∧ child.incoming.isSome := by
  cases entry with
  | candidate own =>
    refine ⟨own.scored, fun stopped => ?_, own.parent, own.incoming⟩
    rw [own.goesOn] at stopped
    cases stopped
  | stop own =>
    refine ⟨?_, fun _ => ?_, own.parent, own.incoming⟩
    · rw [own.measure, own.reward]
      exact sound.scored node (mem_of_getElem? found)
    · rw [own.action, own.context]

theorem Beam.Sound.step (sound : source.Sound)
    (step : (nextLayer engine config containers).perform source =
      (.ok (), target)) : target.Sound := by
  obtain ⟨entries, expanded, installed⟩ := sound.layered step
  have active : target.activeNodes.map (·.context.graph.graphHash) =
      (selectLayer (containers source.layers.length) config entries).map BeamEntry.graphHash := by
    have same := congrArg (List.map fun node : BeamNode G C =>
      node.context.graph.graphHash) installed.active
    rw [map_map, map_map] at same
    exact same
  constructor
  case scored =>
    intro node member
    obtain ⟨nodeId, found⟩ := mem_iff_getElem?.mp member
    obtain ⟨old, alike, origin⟩ := installed.exists_node found
    have measure : old.measure = node.measure := congrArg (·.measure) alike
    have rank : old.rank = node.rank := congrArg (·.rank) alike
    rw [← measure, ← rank]
    rcases origin with before | ⟨new, _⟩
    · exact sound.scored old (mem_of_getElem? before)
    · obtain ⟨parentId, _, parent, there, entry⟩ := expanded.entryOf (mem_of_mem_selectLayer new)
      exact (sound.newEntry there entry).1
  case stops =>
    intro node member stopped
    obtain ⟨nodeId, found⟩ := mem_iff_getElem?.mp member
    obtain ⟨old, alike, origin⟩ := installed.exists_node found
    have context : old.context = node.context := congrArg (·.context) alike
    have rank : old.rank = node.rank := congrArg (·.rank) alike
    have stops : old.stopped = true :=
      (congrArg (·.stopped) alike : old.stopped = node.stopped).trans stopped
    rw [← context, ← rank]
    rcases origin with before | ⟨new, _⟩
    · exact sound.stops old (mem_of_getElem? before) stops
    · obtain ⟨parentId, _, parent, there, entry⟩ := expanded.entryOf (mem_of_mem_selectLayer new)
      exact (sound.newEntry there entry).2.1 stops
  case descends =>
    intro nodeId node found parent own
    obtain ⟨old, alike, origin⟩ := installed.exists_node found
    have parents : old.parent = node.parent := congrArg (·.parent) alike
    have incoming : old.incoming = node.incoming := congrArg (·.incoming) alike
    rw [← parents] at own
    rw [← incoming]
    rcases origin with before | ⟨new, behind⟩
    · exact sound.descends nodeId old before parent own
    · obtain ⟨parentId, above, above', there, entry⟩ :=
        expanded.entryOf (mem_of_mem_selectLayer new)
      obtain ⟨_, _, from', steps⟩ := sound.newEntry there entry
      obtain rfl := Option.some.inj (own.symm.trans from')
      exact ⟨(sound.inRange _ above).trans_le behind, steps⟩
  case inRange => exact installed.inRange
  case nonempty =>
    obtain ⟨nodeId, above⟩ := exists_mem_of_ne_nil _ sound.nonempty
    have there := getElem?_eq_getElem (sound.inRange nodeId above)
    obtain ⟨entry, member, _⟩ := expanded.exists_entry above there
    obtain ⟨kept, chosen, _⟩ := exists_selectLayer member
    intro nothing
    have none : target.activeNodes = [] := by
      unfold Beam.activeNodes
      rw [nothing]
      rfl
    rw [none] at active
    exact not_mem_nil (map_eq_nil_iff.mp active.symm ▸ chosen)
  case distinct =>
    rw [active]
    exact nodup_selectLayer

theorem Beam.sound_of_reachable {beam}
    (reachable : (beamSystem engine config containers).Reachable beam) :
    beam.Sound := by
  refine reachable.invariant (fun start initial => ?_) fun _ _ _ sound step => sound.step step
  obtain ⟨state, root, context, measure, reward, scored, rfl⟩ := initial
  exact Beam.sound_start scored

end Step

end GraphZero.Search
