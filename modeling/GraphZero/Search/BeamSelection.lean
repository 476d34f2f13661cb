import GraphZero.Foundation.Result
import GraphZero.Search.BeamRuns

/-!
# What a layer selects

Where the candidates of a graph have distinct hashes, no two entries of a
layer rank alike.  The next layer then is the selection of its entries, and
neither the order in which they come nor the orders of the table and of the
heap matter.
-/

namespace GraphZero.Search

open Engine Features Foundation List

variable {σ G C : Type}

def DistinctCandidates (entries : List (BeamEntry G C)) : Prop :=
  entries.Pairwise fun left right => ∀ context leftHash rightHash,
    left.rank.actionRef = .candidate ⟨context, leftHash⟩ →
      right.rank.actionRef = .candidate ⟨context, rightHash⟩ →
        leftHash ≠ rightHash

theorem distinctCandidates_of_nodup {entries : List (BeamEntry G C)}
    (actions : (entries.map (·.rank.actionRef)).Nodup) :
    DistinctCandidates entries :=
  (pairwise_map.mp actions).imp fun differ _ _ _ left right same =>
      differ (left.trans (same ▸ right.symm))

section Ranks

variable {beam : Beam σ G C} {entries : List (BeamEntry G C)}

theorem EntryOf.context {nodeId node} {entry : BeamEntry G C} (own : EntryOf nodeId node entry)
    (stops : node.stopped = true → node.rank.actionRef = .stop node.context) :
    entry.rank.actionRef.context = node.context := by
  cases own with
  | carried stopped => exact congrArg PortableSearchActionRef.context (stops stopped)
  | candidate own =>
    obtain ⟨hash, action⟩ := own.action
    exact congrArg PortableSearchActionRef.context action
  | stop own => exact congrArg PortableSearchActionRef.context own.action

theorem BeamExpansion.pairwise {nodeId node} {block : List (BeamEntry G C)}
    (expansion : BeamExpansion nodeId node block) (distinct : DistinctCandidates block) :
    block.Pairwise fun left right =>
      left.rank.actionRef ≠ right.rank.actionRef := by
  cases expansion with
  | carried stopped => exact pairwise_singleton _ _
  | @expanded children stop goesOn each last =>
    have candidate {entry : BeamEntry G C} (member : entry ∈ children.map BeamEntry.new) :
        ∃ hash, entry.rank.actionRef = .candidate ⟨node.context, hash⟩ := by
      obtain ⟨child, here, rfl⟩ := mem_map.mp member
      exact (each child here).action
    obtain ⟨children, _, _⟩ := pairwise_append.mp distinct
    refine pairwise_append.mpr ⟨?_, pairwise_singleton _ _, ?_⟩
    · refine children.imp_of_mem fun here there differ same => ?_
      obtain ⟨hash, action⟩ := candidate here
      exact differ _ _ _ action (same.symm.trans action) rfl
    · intro left here right there same
      obtain ⟨hash, action⟩ := candidate here
      obtain rfl := mem_singleton.mp there
      rw [action] at same
      cases same.trans last.action

theorem Beam.Expanded.nodup_ranks (sound : beam.Sound) (expanded : beam.Expanded entries)
    (distinct : DistinctCandidates entries) :
    (entries.map BeamEntry.rank).Nodup := by
  obtain ⟨blocks, rfl, each⟩ := expanded
  have apart : (beam.active.filterMap (beam.nodes[·]?)).Pairwise
      fun left right => left.context ≠ right.context := by
    have hashes : beam.activeNodes.Pairwise fun left right =>
        left.context.graph.graphHash ≠ right.context.graph.graphHash :=
      pairwise_map.mp sound.distinct
    exact hashes.imp fun differ same =>
      differ (congrArg (·.graph.graphHash) same)
  have nodes : List.Forall₂ (fun node block =>
      ∃ nodeId, beam.nodes[nodeId]? = some node ∧ BeamExpansion nodeId node block)
      (beam.active.filterMap (beam.nodes[·]?)) blocks := by
    clear distinct
    generalize beam.active = active at each
    induction each with
    | nil => exact .nil
    | @cons nodeId block active blocks first rest ih =>
      obtain ⟨node, found, expansion⟩ := first
      rw [filterMap_cons_some found]
      exact .cons ⟨nodeId, found, expansion⟩ ih
  have actions : blocks.flatten.Pairwise fun left right =>
      left.rank.actionRef ≠ right.rank.actionRef := by
    refine pairwise_flatten.mpr ⟨fun block here => ?_, ?_⟩
    · obtain ⟨nodeId, _, node, _, expansion⟩ := forall₂_mem_right each here
      exact expansion.pairwise (distinct.sublist (sublist_flatten_of_mem here))
    refine pairwise_of_forall₂ (fun left right leftBlock rightBlock differ
      leftOwn rightOwn one here other there same => ?_) nodes apart
    obtain ⟨leftId, leftFound, leftExpansion⟩ := leftOwn
    obtain ⟨rightId, rightFound, rightExpansion⟩ := rightOwn
    have leftContext := (leftExpansion.entryOf here).context
      (sound.stops left (mem_of_getElem? leftFound))
    have rightContext := (rightExpansion.entryOf there).context
      (sound.stops right (mem_of_getElem? rightFound))
    exact differ (leftContext.symm.trans ((congrArg _ same).trans rightContext))
  exact pairwise_map.mpr (actions.imp fun differ same =>
    differ (congrArg BeamRank.actionRef same))

end Ranks

section Layer

variable {engine : GraphEngine σ G C} {config : BeamSearchConfig}
  {containers : LayerContainers G C} {beam mid : Beam σ G C} {entries : List (BeamEntry G C)}

/-- Of every graph the best entry is kept, and of these the best `beamWidth`
make the next layer, best first.  This depends neither on the order in which
the entries arrive nor on the orders of the containers. -/
theorem nextLayer_eq_selection (reachable : (beamSystem engine config containers).Reachable beam)
    (expanded : (expandLayer engine config).perform beam = (.ok entries, mid))
    (distinct : DistinctCandidates entries) :
    (nextLayer engine config containers).perform beam = (.ok (), mid.install
          (selection BeamEntry.graphHash BeamEntry.rank config.beamWidth entries)) ∧
      ∀ (others : Containers (BeamEntry G C)) {arrived},
        arrived.Perm entries → selectLayer others config arrived =
            selection BeamEntry.graphHash BeamEntry.rank config.beamWidth
              entries := by
  have sound : beam.Sound := Beam.sound_of_reachable reachable
  have layer : beam.Expanded entries :=
    ((endsAt_expandLayer engine config sound.inRange).ok expanded).1
  have ranks := layer.nodup_ranks sound distinct
  have selects (others : Containers (BeamEntry G C))
      {arrived : List (BeamEntry G C)} (perm : arrived.Perm entries) :
      selectLayer others config arrived =
        selection BeamEntry.graphHash BeamEntry.rank config.beamWidth
          entries :=
    selectBest_eq_selection config.beamWidth_pos perm ranks
  refine ⟨?_, selects⟩
  unfold nextLayer
  rw [Effect.perform_bind_ok expanded, ← selects
    (containers mid.layers.length) (List.Perm.refl entries)]
  rfl

end Layer

/-! A graph is a number, and both of its candidates rewrite it to the next
one. -/

namespace BeamSample

def measure (graph : Nat) : MeasureResult Nat F32 where
  graph
  graphHash := BitVec.ofNat 256 graph
  configHash := 0
  measured := true
  valid := true
  latency := none
  scalarReward := some (if graph = 1 then F32.one else F32.zero)
  failureCode := none

def engine : GraphEngine Unit Nat Bool where
  identity _ := ⟨1, 1, 7⟩
  hash _ graph := .ok (BitVec.ofNat 256 graph)
  candidates _ _ _ := pure [false, true]
  candidateInfo _ _ candidate :=
    .ok ⟨if candidate then 2 else 1, 0, 0, F32.zero⟩
  apply graph _ := pure ⟨graph + 1, BitVec.ofNat 256 (graph + 1), false⟩
  measure graph _ := pure (measure graph)

def config : BeamSearchConfig where
  maxDepth := 2
  beamWidth := 2
  beamWidth_pos := Nat.zero_lt_two
  candidateOptions := ⟨none, true⟩
  measureOptions := ⟨0, 1, none, true⟩

def containers : LayerContainers Nat Bool := fun _ =>
  { visited := id
    layout := id
    drained := List.reverse
    visited_perm := List.Perm.refl
    layout_perm := List.Perm.refl
    drained_perm := reverse_perm }

def start : Beam Unit Nat Bool :=
  Beam.start () 0 ⟨⟨0, 1, 1⟩, 7⟩ (measure 0) F32.zero

def expansion : Except BeamFailure (List (BeamEntry Nat Bool)) × Beam Unit Nat Bool :=
  (expandLayer engine config).perform start

def entries : List (BeamEntry Nat Bool) :=
  expansion.1.toOption.getD []

theorem expanded : expansion = (.ok entries, expansion.2) := by
  have done : expansion.1.toOption.isSome = true := by decide +kernel
  obtain ⟨value, found⟩ := Option.isSome_iff_exists.mp done
  refine Prod.ext (ok_of_toOption ?_) rfl
  unfold entries
  rw [found]
  rfl

end BeamSample

theorem nextLayer_eq_selection_duplicates : BeamSample.entries.map BeamEntry.graphHash = [1, 1, 0] ∧
      (nextLayer BeamSample.engine BeamSample.config
        BeamSample.containers).perform BeamSample.start =
        (.ok (), BeamSample.expansion.2.install (selection BeamEntry.graphHash BeamEntry.rank
            BeamSample.config.beamWidth BeamSample.entries)) ∧
      ∀ (others : Containers (BeamEntry Nat Bool)) {arrived},
        arrived.Perm BeamSample.entries → selectLayer others BeamSample.config arrived =
            selection BeamEntry.graphHash BeamEntry.rank
              BeamSample.config.beamWidth BeamSample.entries := by
  have scored : score (BeamSample.measure 0) = some F32.zero := by
    decide +kernel
  refine ⟨by decide +kernel, nextLayer_eq_selection
    ⟨BeamSample.start, ⟨_, _, _, _, _, scored, rfl⟩, .refl _⟩
    BeamSample.expanded (distinctCandidates_of_nodup ?_)⟩
  decide +kernel

end GraphZero.Search
