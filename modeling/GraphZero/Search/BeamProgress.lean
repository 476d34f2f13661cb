import GraphZero.Search.BeamSelection

/-!
# Progress of the beam

An active node that stops or stays keeps its reward, so the incumbent of a
layer is beaten or kept in the next one, and the final reward is at least that
of every entry of every layer.
-/

namespace GraphZero.Search

open Engine Features Foundation Effect List

variable {σ G C : Type}

/-- The best reward of the later layer is at least that of the earlier one. -/
def BeamLayer.NoWorse (earlier later : BeamLayer G) : Prop :=
  ∀ entry ∈ earlier.entries, ∃ other ∈ later.entries,
    entry.reward.lessEq other.reward = true

/-- Layers of at most `width` entries of distinct graphs, none of which is
worse than the one before. -/
structure Layers.Improve (width : Nat) (layers : List (BeamLayer G)) : Prop where
  length : ∀ layer ∈ layers, layer.entries.length ≤ width
  distinct : ∀ layer ∈ layers,
    (layer.entries.map (·.context.graph.graphHash)).Nodup
  onward : layers.IsChain BeamLayer.NoWorse

theorem isFinite_of_score {measure : MeasureResult G F32} {reward}
    (scored : score measure = some reward) : reward.isFinite = true := by
  unfold score at scored
  split at scored
  · cases scored
  split at scored
  · split at scored
    · next finite =>
      cases scored
      exact finite
    · cases scored
  · cases scored

/-! ## The invariant -/

/-- The layers improve, the last one is that of the active nodes, and for
every entry of a layer there is an active node that is not worse. -/
structure Beam.Improving (width : Nat) (first : BeamLayer G)
    (beam : Beam σ G C) : Prop where
  layers : Layers.Improve width beam.layers
  last : ∃ layer, beam.layers.getLast? = some layer ∧
    layer.entries.map (fun entry => (entry.context, entry.reward)) =
      beam.activeNodes.map fun node => (node.context, node.rank.reward)
  finite : ∀ layer ∈ beam.layers, ∀ entry ∈ layer.entries,
    entry.reward.isFinite = true
  kept : ∀ layer ∈ beam.layers, ∀ entry ∈ layer.entries, ∃ node ∈ beam.activeNodes,
      entry.reward.totalPlace ≤ node.rank.reward.totalPlace
  root : beam.layers.head? = some first

section Step

variable {engine : GraphEngine σ G C} {config : BeamSearchConfig}
  {containers : LayerContainers G C} {source target : Beam σ G C}

theorem Beam.Sound.exists_kept (sound : source.Sound)
    (step : (nextLayer engine config containers).perform source = (.ok (), target)) {node}
    (active : node ∈ source.activeNodes) :
    ∃ next ∈ target.activeNodes, node.rank.reward.totalPlace ≤ next.rank.reward.totalPlace := by
  obtain ⟨entries, expanded, installed⟩ := sound.layered step
  obtain ⟨nodeId, above, found⟩ := mem_filterMap.mp active
  obtain ⟨entry, member, same⟩ := expanded.exists_entry above found
  obtain ⟨kept, chosen, better⟩ : ∃ kept ∈ selectLayer
      (containers source.layers.length) config entries,
      entry.rank ≤ kept.rank := exists_selectLayer member
  have there := mem_map_of_mem (f := fun entry : BeamEntry G C => entry.node.unplaced) chosen
  rw [← installed.active] at there
  obtain ⟨next, here, alike⟩ := mem_map.mp there
  have reward : next.rank.reward = kept.rank.reward := congrArg (·.rank.reward) alike
  refine ⟨next, here, ?_⟩
  rw [← same, reward]
  exact BeamRank.totalPlace_le better

theorem Beam.Improving.step {first : BeamLayer G} (sound : source.Sound)
    (improving : source.Improving config.beamWidth first)
    (step : (nextLayer engine config containers).perform source =
      (.ok (), target)) : target.Improving config.beamWidth first := by
  obtain ⟨entries, expanded, installed⟩ := sound.layered step
  obtain ⟨layer, whole, pairs⟩ := installed.layers
  have after : target.Sound := sound.step step
  have active : target.activeNodes.map (fun node => (node.context, node.rank.reward)) =
      (selectLayer (containers source.layers.length) config entries).map
        fun entry => (entry.node.context, entry.node.rank.reward) := by
    have same := congrArg (List.map fun node : BeamNode G C =>
      (node.context, node.rank.reward)) installed.active
    rw [map_map, map_map] at same
    exact same
  have last := pairs.trans active.symm
  have entryOf {entry : BeamEntrySummary G} (member : entry ∈ layer.entries) :
      ∃ node ∈ target.activeNodes, node.context = entry.context ∧
        node.rank.reward = entry.reward := by
    have there := mem_map_of_mem
      (f := fun entry : BeamEntrySummary G => (entry.context, entry.reward))
      member
    rw [last] at there
    obtain ⟨node, here, same⟩ := mem_map.mp there
    exact ⟨node, here, congrArg Prod.fst same, congrArg Prod.snd same⟩
  have finite {node : BeamNode G C} (member : node ∈ target.activeNodes) :
      node.rank.reward.isFinite = true :=
    isFinite_of_score (after.scored node (Beam.mem_of_mem_activeNodes member))
  have earlier : ∀ old ∈ source.layers, ∀ entry ∈ old.entries, ∃ node ∈ target.activeNodes,
        entry.reward.totalPlace ≤ node.rank.reward.totalPlace := by
    intro old here entry member
    obtain ⟨node, there, below⟩ := improving.kept old here entry member
    obtain ⟨next, still, above⟩ := sound.exists_kept step there
    exact ⟨next, still, below.trans above⟩
  have fresh : layer.entries.map (·.context.graph.graphHash) =
      target.activeNodes.map (·.context.graph.graphHash) := by
    have same := congrArg (List.map fun pair : ReplayGraphContext × F32 =>
      pair.1.graph.graphHash) last
    rw [map_map, map_map] at same
    exact same
  constructor
  case layers =>
    rw [whole]
    refine ⟨?_, ?_, ?_⟩
    · refine forall_mem_append.mpr ⟨improving.layers.length, forall_mem_singleton.mpr ?_⟩
      have size := congrArg List.length pairs
      rw [length_map, length_map] at size
      exact size.trans_le length_selectLayer_le
    · refine forall_mem_append.mpr ⟨improving.layers.distinct, forall_mem_singleton.mpr ?_⟩
      rw [fresh]
      exact after.distinct
    · refine isChain_append.mpr ⟨improving.layers.onward,
        isChain_singleton _, fun old there new same entry member => ?_⟩
      cases same
      have inside := mem_of_getLast? there
      obtain ⟨node, here, below⟩ := earlier old inside entry member
      have image := mem_map_of_mem
        (f := fun node : BeamNode G C => (node.context, node.rank.reward)) here
      rw [← last] at image
      obtain ⟨other, chosen, same⟩ := mem_map.mp image
      have reward : other.reward = node.rank.reward := congrArg Prod.snd same
      refine ⟨other, chosen, ?_⟩
      rw [reward]
      exact F32.lessEq_of_totalPlace_le
        (improving.finite old inside entry member) (finite here) below
  case last =>
    refine ⟨layer, ?_, last⟩
    rw [whole, getLast?_concat]
  case finite =>
    rw [whole]
    refine forall_mem_append.mpr ⟨improving.finite, forall_mem_singleton.mpr fun entry member => ?_⟩
    obtain ⟨node, here, _, reward⟩ := entryOf member
    rw [← reward]
    exact finite here
  case kept =>
    rw [whole]
    refine forall_mem_append.mpr ⟨earlier, forall_mem_singleton.mpr fun entry member => ?_⟩
    obtain ⟨node, here, _, reward⟩ := entryOf member
    exact ⟨node, here, by rw [reward]⟩
  case root =>
    rw [whole, head?_append, improving.root]
    rfl

theorem Beam.improving_start {width : Nat} (pos : 0 < width) {state root context measure reward}
    (scored : score measure = some reward) :
    (Beam.start state root context measure reward : Beam σ G C).Improving
      width ⟨0, [rootEntry root context measure reward]⟩ where
  layers :=
    { length := forall_mem_singleton.mpr pos
      distinct := forall_mem_singleton.mpr (nodup_singleton _)
      onward := isChain_singleton _ }
  last := ⟨_, rfl, rfl⟩
  finite := forall_mem_singleton.mpr (forall_mem_singleton.mpr (isFinite_of_score scored))
  kept := forall_mem_singleton.mpr (forall_mem_singleton.mpr ⟨_, mem_singleton.mpr rfl, le_rfl⟩)
  root := rfl

theorem Beam.improving_of_reaches {first}
    (reaches : (beamSystem engine config containers).Reaches source target) (sound : source.Sound)
    (improving : source.Improving config.beamWidth first) :
    target.Sound ∧ target.Improving config.beamWidth first := by
  obtain ⟨labels, run⟩ := reaches
  have kept : ∀ (state : Beam σ G C) (label : Unit) (next : Beam σ G C),
      state.Sound ∧ state.Improving config.beamWidth first →
        (beamSystem engine config containers).step state label next →
          next.Sound ∧ next.Improving config.beamWidth first :=
    fun _ _ _ good step => ⟨good.1.step step, good.2.step good.1 step⟩
  exact run.invariant kept ⟨sound, improving⟩

theorem endsAt_runLayers {depth} (sound : source.Sound) :
    (runLayers engine config containers depth).EndsAt
      (fun _ final => (beamSystem engine config containers).Reaches source
        final) EngineFailed source := by
  induction depth generalizing source with
  | zero => exact endsAt_pure (TransitionSystem.Reaches.refl source)
  | succ depth ih =>
    rcases done : (nextLayer engine config containers).perform source with
      ⟨failure | ⟨⟨⟩⟩, target⟩
    · exact endsAt_of_error (perform_bind_error done) (sound.endsAt_nextLayer.error done)
    have step : (beamSystem engine config containers).Reaches source target := ⟨[()], .single done⟩
    have rest : (if target.activeNodes.all (·.stopped) then pure ()
        else runLayers engine config containers depth : BeamEffect σ G C Unit).EndsAt
        (fun _ final => (beamSystem engine config containers).Reaches
          source final) EngineFailed target := by
      split
      · exact endsAt_pure step
      · exact (ih (sound.step done)).mono
          (fun _ _ later => step.trans later) (fun _ _ failed => failed)
    unfold runLayers EndsAt
    rw [perform_bind_ok done]
    exact rest

end Step

/-! ## The end of the search -/

theorem Beam.Sound.exists_stepsBack {beam : Beam σ G C} (sound : beam.Sound) {fuel nodeId}
    (enough : nodeId < fuel) (inside : nodeId < beam.nodes.length) :
    ∃ steps, stepsBack beam.nodes fuel nodeId = .ok steps := by
  induction fuel generalizing nodeId with
  | zero => exact absurd enough (Nat.not_lt_zero _)
  | succ fuel ih =>
    obtain ⟨node, found⟩ : ∃ node, beam.nodes[nodeId]? = some node :=
      ⟨_, getElem?_eq_getElem inside⟩
    unfold stepsBack
    rw [found]
    dsimp only
    cases own : node.parent with
    | none => exact ⟨[], rfl⟩
    | some parent =>
      obtain ⟨earlier, incoming⟩ := sound.descends nodeId node found parent own
      obtain ⟨step, came⟩ := Option.isSome_iff_exists.mp incoming
      obtain ⟨steps, rest⟩ := @ih parent (by omega)
        (earlier.trans inside)
      refine ⟨step :: steps, ?_⟩
      rw [came]
      dsimp only
      rw [rest]
      rfl

theorem Beam.Sound.exists_finish {beam : Beam σ G C} (sound : beam.Sound)
    (root : G) (rootContext : ReplayGraphContext) :
    ∃ selected ∈ beam.nodes, ∃ steps,
      beam.finish root rootContext = .ok (beam.episode root rootContext selected steps) ∧
      ∀ node ∈ beam.activeNodes, node.rank ≤ selected.rank := by
  have listed {nodeId : Nat} {node : BeamNode G C} (active : nodeId ∈ beam.active)
      (found : beam.nodes[nodeId]? = some node) :
      (nodeId, node) ∈ beam.active.filterMap fun nodeId =>
        beam.nodes[nodeId]?.map (nodeId, ·) :=
    mem_filterMap.mpr ⟨nodeId, active, by rw [found]; rfl⟩
  obtain ⟨nodeId, active⟩ := exists_mem_of_ne_nil _ sound.nonempty
  have first := listed active (getElem?_eq_getElem (sound.inRange nodeId active))
  obtain ⟨⟨best, selected⟩, chosen⟩ : ∃ ranked, lastBest
      (fun ranked : Nat × BeamNode G C => ranked.2.rank)
      (beam.active.filterMap fun nodeId =>
        beam.nodes[nodeId]?.map (nodeId, ·)) = some ranked :=
    exists_lastBest (ne_nil_of_mem first)
  obtain ⟨member, most⟩ := lastBest_eq_some chosen
  obtain ⟨bestId, _, place⟩ := mem_filterMap.mp member
  obtain ⟨node, found, same⟩ := Option.map_eq_some_iff.mp place
  cases same
  have inside : best < beam.nodes.length := (List.getElem?_eq_some_iff.mp found).1
  obtain ⟨steps, back⟩ := sound.exists_stepsBack inside inside
  refine ⟨selected, mem_of_getElem? found, steps.reverse, ?_, fun node here => ?_⟩
  · unfold Beam.finish
    simp only [chosen]
    unfold collectSteps
    rw [back]
    rfl
  · obtain ⟨other, above, there⟩ := mem_filterMap.mp here
    exact most (other, node) (listed above there)

/-- The layers of an episode improve and end at the final reward.  They begin
with the root alone, unless the root has no reward; then there are none. -/
structure BeamEpisode.Improves (width : Nat) (episode : BeamEpisode G C) : Prop where
  layers : Layers.Improve width episode.layers
  root : episode.stopReason ≠ .unscoredRoot → ∃ entry, episode.layers.head? = some ⟨0, [entry]⟩ ∧
      entry.graph = episode.root ∧ entry.context = episode.rootContext
  final : ∀ layer ∈ episode.layers, ∀ entry ∈ layer.entries,
    ∃ reward, score episode.finalMeasure = some reward ∧ entry.reward.lessEq reward = true
  unscored : episode.stopReason = .unscoredRoot →
    score episode.finalMeasure = none ∧ episode.layers = []

section Search

variable (engine : GraphEngine σ G C) (config : BeamSearchConfig) (containers : LayerContainers G C)

theorem Beam.Sound.improves {beam : Beam σ G C} (sound : beam.Sound) {root rootContext width entry}
    (same : entry.graph = root) (context : entry.context = rootContext)
    (improving : beam.Improving width ⟨0, [entry]⟩) {episode}
    (finished : beam.finish root rootContext = .ok episode) :
    episode.Improves width := by
  obtain ⟨selected, member, steps, done, most⟩ := sound.exists_finish root rootContext
  obtain rfl := Except.ok.inj (done.symm.trans finished)
  have scored := sound.scored selected member
  refine ⟨improving.layers, fun _ => ⟨entry, improving.root, same, context⟩,
    fun layer here entry inside => ?_, fun unscored => ?_⟩
  · obtain ⟨node, active, below⟩ := improving.kept layer here entry inside
    refine ⟨selected.rank.reward, scored, ?_⟩
    exact F32.lessEq_of_totalPlace_le (improving.finite layer here entry inside)
      (isFinite_of_score scored)
      (below.trans (BeamRank.totalPlace_le (most node active)))
  · change (if selected.stopped then _ else _) = _ at unscored
    split at unscored <;> cases unscored

theorem beamSearch_cases (root : G) (state : σ) :
    (∃ episode, (beamSearch engine config containers root state).1 =
        .ok episode ∧ episode.Improves config.beamWidth) ∨
      ∃ error, (beamSearch engine config containers root state).1 = .error (.engine error) := by
  unfold beamSearch
  cases engine.hash state root with
  | error error => exact .inr ⟨error, rfl⟩
  | ok graphHash =>
    rcases (engine.measure root config.measureOptions).perform state with
      ⟨error | measure, measured⟩
    · exact .inr ⟨error, rfl⟩
    dsimp only
    cases scored : score measure with
    | none =>
      refine .inl ⟨_, rfl, ⟨forall_mem_nil _, forall_mem_nil _,
        .nil⟩, fun other => absurd rfl other, forall_mem_nil _,
        fun _ => ⟨scored, rfl⟩⟩
    | some reward =>
      dsimp only
      generalize (engine.identity state).context graphHash = context
      have sound : (Beam.start measured root context measure reward :
          Beam σ G C).Sound := Beam.sound_start scored
      have ends : (runLayers engine config containers
          config.maxDepth).EndsAt _ _ _ := endsAt_runLayers sound
      rcases done : (runLayers engine config containers config.maxDepth).perform
          (Beam.start measured root context measure reward) with
        ⟨failure | ⟨⟨⟩⟩, final⟩
      · obtain ⟨error, rfl⟩ := ends.error done
        exact .inr ⟨error, rfl⟩
      · have kept := Beam.improving_of_reaches (ends.ok done) sound
          (Beam.improving_start config.beamWidth_pos scored)
        obtain ⟨selected, _, steps, finished, _⟩ := kept.1.exists_finish root context
        exact .inl ⟨_, finished, kept.1.improves rfl rfl kept.2 finished⟩

/-- Every layer of every run has at most `beamWidth` entries of distinct graphs
and is no worse than the one before, and the final reward is at least that of
every entry. -/
theorem layers_improve : (∀ beam, (beamSystem engine config containers).Reachable beam →
      Layers.Improve config.beamWidth beam.layers) ∧
    ∀ root state episode,
      (beamSearch engine config containers root state).1 = .ok episode →
        episode.Improves config.beamWidth := by
  constructor
  · rintro beam ⟨start, initial, reaches⟩
    obtain ⟨state, root, context, measure, reward, scored, rfl⟩ := initial
    exact (Beam.improving_of_reaches reaches (Beam.sound_start scored)
      (Beam.improving_start config.beamWidth_pos scored)).2.layers
  · intro root state episode done
    rcases beamSearch_cases engine config containers root state with
      ⟨other, same, improves⟩ | failed
    · obtain rfl := Except.ok.inj (same.symm.trans done)
      exact improves
    · obtain ⟨error, failed⟩ := failed
      cases failed.symm.trans done

end Search

theorem layers_improve_duplicates : Layers.Improve 2 BeamSample.start.layers ∧
      ∃ episode, (beamSearch BeamSample.engine BeamSample.config
          BeamSample.containers 0 ()).1 = .ok episode ∧
        episode.layers.map (fun layer => layer.entries.length) = [1, 2, 2] ∧
        episode.Improves 2 := by
  have improve := layers_improve BeamSample.engine BeamSample.config BeamSample.containers
  have scored : score (BeamSample.measure 0) = some F32.zero := by
    decide +kernel
  refine ⟨improve.1 _ ⟨BeamSample.start, ⟨_, _, _, _, _, scored, rfl⟩, .refl _⟩, ?_⟩
  have layers : (beamSearch BeamSample.engine BeamSample.config
      BeamSample.containers 0 ()).1.toOption.map (fun episode =>
        episode.layers.map fun layer => layer.entries.length) =
      some [1, 2, 2] := by
    decide +kernel
  obtain ⟨episode, found, lengths⟩ := Option.map_eq_some_iff.mp layers
  have done := ok_of_toOption found
  exact ⟨episode, done, lengths, improve.2 0 () episode done⟩

end GraphZero.Search
