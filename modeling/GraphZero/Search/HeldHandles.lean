import GraphZero.Search.RootBoards

/-!
# The handles that work names

What a search task refers to, in its tree, its simulations and what it waits
for, it still holds.  So the work it hands out names no handle that it gave
back.
-/

namespace GraphZero.Search

open Engine Foundation Effect List

variable {G C F : Type}

/-- Graphs and candidates that may be named. -/
abbrev Supply (G C : Type) : Type := Set G × Set C

/-! ## What refers to handles -/

section Within

variable (supply : Supply G C)

def Board.Within (board : Board G) : Prop :=
  ∀ player, board.graphs.of player ∈ supply.1

def Expansion.Within (expansion : Expansion C F) : Prop :=
  ∀ entry ∈ expansion.candidates, entry.handle ∈ supply.2

structure Node.Within (node : Node G C F) : Prop where
  board : node.board.Within supply
  candidates : ∀ candidate ∈ node.candidates, candidate ∈ supply.2

def WaveSimulationState.Within : WaveSimulationState G C F → Prop
  | resolve _ board _ | expandPending _ _ board _ => board.Within supply
  | evalReady _ board _ expansion | evalPending _ _ board _ expansion _
  | evalComplete _ board _ expansion _ _ => board.Within supply ∧ expansion.Within supply
  | _ => True

def RootTaskState.Within : RootTaskState G C F → Prop
  | resolve board => board.Within supply
  | eval board expansion => board.Within supply ∧ expansion.Within supply
  | waveRunning wave => ∀ state ∈ wave.active, state.Within supply
  | doneResult _ | done => True

def RootTaskPending.Within : RootTaskPending G C F → Prop
  | expand _ board => board.Within supply
  | eval _ board expansion _ => board.Within supply ∧ expansion.Within supply

end Within

namespace SearchWork

def graphs : SearchWork G C F → List G
  | expand work => [work.graph]
  | apply work => [work.graph]
  | measurePair work => [work.graphs.1, work.graphs.2]
  | eval work => work.graph :: (work.opponent.map (·.graph)).toList

def candidates : SearchWork G C F → List C
  | apply work => [work.candidate]
  | eval work => work.candidates
  | expand _ | measurePair _ => []

structure Within (supply : Supply G C) (work : SearchWork G C F) : Prop where
  graphs : ∀ graph ∈ work.graphs, graph ∈ supply.1
  candidates : ∀ candidate ∈ work.candidates, candidate ∈ supply.2

@[simp]
theorem graphs_retokenize (token : WorkToken) (work : SearchWork G C F) :
    (work.retokenize token).graphs = work.graphs := by
  cases work <;> rfl

@[simp]
theorem candidates_retokenize (token : WorkToken) (work : SearchWork G C F) :
    (work.retokenize token).candidates = work.candidates := by
  cases work <;> rfl

theorem Within.retokenize {supply} {work : SearchWork G C F} (within : work.Within supply)
    (token : WorkToken) :
    (work.retokenize token).Within supply where
  graphs := by
    rw [graphs_retokenize]
    exact within.graphs
  candidates := by
    rw [candidates_retokenize]
    exact within.candidates

end SearchWork

section Monotone

variable {small large : Supply G C} (more : small ≤ large)
include more

theorem Board.Within.mono {board : Board G} (within : board.Within small) : board.Within large :=
  fun player => more.1 (within player)

theorem Expansion.Within.mono {expansion : Expansion C F}
    (within : expansion.Within small) : expansion.Within large :=
  fun entry member => more.2 (within entry member)

theorem Node.Within.mono {node : Node G C F} (within : node.Within small) : node.Within large :=
  ⟨within.board.mono more, fun candidate member =>
    more.2 (within.candidates candidate member)⟩

theorem WaveSimulationState.Within.mono {state : WaveSimulationState G C F}
    (within : state.Within small) : state.Within large := by
  cases state with
  | resolve _ board _ | expandPending _ _ board _ => exact Board.Within.mono more within
  | evalReady _ board _ expansion | evalPending _ _ board _ expansion _
  | evalComplete _ board _ expansion _ _ => exact ⟨within.1.mono more, within.2.mono more⟩
  | running | applyPending | rootApplyReady | terminalEvalPending
  | terminalEvalComplete | outcome | vacant => trivial

end Monotone

section Boards

variable {supply : Supply G C}

variable {board : Board G}

theorem Board.Within.congr {other : Board G}
    (within : board.Within supply) (same : other.graphs = board.graphs) :
    other.Within supply := by
  intro player
  rw [same]
  exact within player

theorem Board.Within.rewrite {graph context} (within : board.Within supply)
    (held : graph ∈ supply.1) :
    (board.rewrite graph context).Within supply := by
  intro player
  change (board.graphs.update board.player graph).of player ∈ supply.1
  by_cases same : player = board.player
  · rw [same, PerPlayer.of_update_same]
    exact held
  · rw [PerPlayer.of_update_of_ne _ _ same]
    exact within player

theorem graphs_placeContext [DecidableEq G] (board : Board G) (context : ReplayGraphContext) :
    (placeContext board context).graphs = board.graphs := by
  unfold placeContext
  split
  · rfl
  · rfl

theorem Node.Within.alike {old new : Node G C F} (within : old.Within supply)
    (alike : old.Alike new) : new.Within supply := by
  refine ⟨?_, ?_⟩
  · rw [alike.board]
    exact within.board
  · rw [alike.candidates]
    exact within.candidates

theorem RootTask.AlikeTree.within {task final : RootTask G C F} (alike : task.AlikeTree final)
    (tree : ∀ node ∈ task.nodes, node.Within supply) :
    ∀ node ∈ final.nodes, node.Within supply := by
  intro node member
  obtain ⟨old, oldMember, same⟩ := forall₂_mem_right alike.nodes member
  exact (tree old oldMember).alike same

variable [Scalar F]

theorem within_newNode {config expansion} {output : EvalOutput F}
    (boardWithin : board.Within supply) (expansionWithin : expansion.Within supply) :
    (newNode config board expansion output).Within supply := by
  refine ⟨boardWithin, fun candidate member => ?_⟩
  obtain ⟨entry, entryMember, rfl⟩ := mem_map.mp member
  exact expansionWithin entry entryMember

theorem within_evalWork {config token candidates} {request : EvalRequest F}
    (boardWithin : board.Within supply)
    (candidatesWithin : ∀ candidate ∈ candidates, candidate ∈ supply.2) :
    (SearchWork.eval (evalWork config token board candidates request)).Within supply := by
  refine ⟨fun graph member => ?_, candidatesWithin⟩
  rcases mem_cons.mp member with rfl | opponent
  · exact boardWithin board.player
  · rw [mem_singleton.mp opponent]
    exact boardWithin board.player.opponent

end Boards

/-! ## Simulations -/

/-- What a root task may name: graphs that are held outside it, and what it
created. -/
def RootTask.supply (outside : Set G) (task : RootTask G C F) : Supply G C :=
  (outside ∪ {graph | graph ∈ task.createdGraphs}, {candidate | candidate ∈ task.createdCandidates})

/-- A step of a simulation leads from what is held to what is held. -/
structure StaysWithin (outside : Set G) (task final : RootTask G C F)
    (next : WaveSimulationState G C F) : Prop where
  more : task.supply outside ≤ final.supply outside
  tree : ∀ node ∈ final.nodes, node.Within (final.supply outside)
  state : next.Within (final.supply outside)

section Simulations

variable {outside : Set G} {task final : RootTask G C F}

theorem RootTask.AlikeTree.supply (alike : task.AlikeTree final) :
    final.supply outside = task.supply outside := by
  rw [alike.others]
  rfl

theorem RootTask.AlikeTree.staysWithin (alike : task.AlikeTree final)
    (next : WaveSimulationState G C F)
    (tree : ∀ node ∈ task.nodes, node.Within (task.supply outside))
    (state : next.Within (task.supply outside)) :
    StaysWithin outside task final next where
  more := alike.supply.ge
  tree := alike.supply ▸ alike.within tree
  state := alike.supply ▸ state

variable (outside task) in
theorem RootTask.supply_le_create (graph : G) :
    task.supply outside ≤ (task.create graph).supply outside := by
  refine ⟨Set.union_subset_union_right _ fun held member => ?_, le_refl _⟩
  exact mem_append_left _ member

variable (outside task) in
theorem RootTask.supply_le_createAll (candidates : List C) :
    task.supply outside ≤ (task.createAll candidates).supply outside :=
  ⟨le_refl _, fun _ member => mem_append_left _ member⟩

variable [Scalar F]

variable {descent : Descent}

omit [Scalar F] in
theorem within_waveTargetState {supply} {target : BranchTarget F} :
    (waveTargetState (G := G) (C := C) descent target).Within supply := by
  cases target <;> trivial

omit [Scalar F] in
theorem within_advancePass {supply} {node : Node G C F} (within : node.Within supply) :
    (advancePass descent node).Within supply := by
  unfold advancePass
  split
  · exact within_waveTargetState
  · exact within.board

theorem Applies.staysWithin {index action : Nat} {applied next}
    (tree : ∀ node ∈ task.nodes, node.Within (task.supply outside))
    (applies : Applies task descent index action applied final next) :
    StaysWithin outside task final next := by
  cases applies with
  | turnedBack found barred =>
    have node := tree _ (mem_of_getElem? found)
    refine ⟨le_refl _, ?_, trivial⟩
    exact RootTask.forall_setNode tree ⟨node.board, node.candidates⟩
  | created found edgeFound accepted fresh =>
    have more := RootTask.supply_le_create outside task applied.after
    have node := (tree _ (mem_of_getElem? found)).mono more
    refine ⟨more, ?_, ?_⟩
    · refine RootTask.forall_setNode (fun node member => (tree node member).mono more) ?_
      exact ⟨node.board, node.candidates⟩
    · refine node.board.rewrite (.inr ?_)
      exact mem_append_right _ mem_cons_self

theorem Advances.staysWithin {state next : WaveSimulationState G C F} {work}
    (tree : ∀ node ∈ task.nodes, node.Within (task.supply outside))
    (within : state.Within (task.supply outside)) (advances : Advances task state work final next) :
    StaysWithin outside task final next ∧ ∀ handed, work = some handed →
        handed.Within (final.supply outside) := by
  have quiet {handed : SearchWork G C F} {good : Prop}
      (same : none = some handed) : good := by cases same
  cases advances with
  | pass found stuck =>
    have node := tree _ (mem_of_getElem? found)
    exact ⟨⟨le_refl _, tree, within_advancePass node⟩, fun _ => quiet⟩
  | follow found chosen edgeFound expanded fresh =>
    exact ⟨⟨le_refl _, tree, within_waveTargetState⟩, fun _ => quiet⟩
  | turnBack found chosen edgeFound expanded applied barred =>
    have node := tree _ (mem_of_getElem? found)
    refine ⟨⟨le_refl _, ?_, trivial⟩, fun _ => quiet⟩
    exact RootTask.forall_setNode tree ⟨node.board, node.candidates⟩
  | stop found chosen edgeFound unexpanded stops =>
    have node := tree _ (mem_of_getElem? found)
    exact ⟨⟨le_refl _, tree, node.board⟩, fun _ => quiet⟩
  | apply found chosen edgeFound unexpanded candidateFound =>
    have node := tree _ (mem_of_getElem? found)
    refine ⟨⟨le_refl _, tree, trivial⟩, fun _ same => ?_⟩
    cases same
    refine ⟨fun graph member => ?_, fun candidate member => ?_⟩
    · rw [mem_singleton.mp member]
      exact node.board _
    · rw [mem_singleton.mp member]
      exact node.candidates _ (mem_of_getElem? candidateFound)
  | @expand _ board played _ _ turn =>
    have same : played.graphs = board.graphs := by
      rcases turn with ⟨rfl, _⟩ | ⟨rfl, _⟩
      · rfl
      · rfl
    have played := Board.Within.congr within same
    refine ⟨⟨le_refl _, tree, played⟩, fun _ same => ?_⟩
    cases same
    refine ⟨fun graph member => ?_, fun candidate member => ?_⟩
    · rw [mem_singleton.mp member]
      exact played _
    · cases member
  | terminal finished known asked =>
    refine ⟨⟨le_refl _, tree, trivial⟩, fun _ same => ?_⟩
    cases same
    exact within_evalWork within fun candidate member => by cases member
  | eval asked =>
    refine ⟨⟨le_refl _, tree, within⟩, fun _ same => ?_⟩
    cases same
    refine within_evalWork within.1 fun candidate member => ?_
    obtain ⟨entry, entryMember, rfl⟩ := mem_map.mp member
    exact within.2 entry entryMember
  | complete valid installs found =>
    refine ⟨?_, fun _ => quiet⟩
    have stays := installs.alikeTree.staysWithin .vacant
      (RootTask.forall_grow tree (within_newNode within.1 within.2)) trivial
    exact ⟨stays.more, stays.tree, trivial⟩
  | completeTerminal valid installs =>
    refine ⟨?_, fun _ => quiet⟩
    have stays := installs.alikeTree.staysWithin .vacant tree trivial
    exact ⟨stays.more, stays.tree, trivial⟩
  | wait => exact ⟨⟨le_refl _, tree, within⟩, fun _ => quiet⟩

theorem Receives.staysWithin [DecidableEq G] {preflight : Bool} {state next result}
    (tree : ∀ node ∈ task.nodes, node.Within (task.supply outside))
    (within : state.Within (task.supply outside))
    (receives : Receives preflight task state result final next) :
    StaysWithin outside task final next := by
  have expanded (candidates : List C) := RootTask.supply_le_createAll outside task candidates
  cases receives with
  | speculated early => exact ⟨le_refl _, tree, trivial⟩
  | applied late applies => exact applies.staysWithin tree
  | stuck known empty =>
    refine ⟨expanded _, fun node member => (tree node member).mono (expanded _), ?_⟩
    exact (Board.Within.mono (expanded _) within).congr (graphs_placeContext _ _)
  | expanded known offered =>
    refine ⟨expanded _, fun node member => (tree node member).mono (expanded _), ?_, ?_⟩
    · exact (Board.Within.mono (expanded _) within).congr (graphs_placeContext _ _)
    · intro entry member
      obtain ⟨candidate, candidateMember, rfl⟩ := mem_map.mp member
      exact mem_append_right _ (mem_map_of_mem candidateMember)
  | evaluated | terminalEvaluated => exact ⟨le_refl _, tree, within⟩

end Simulations

/-- All that a root task and its wave refer to is held. -/
structure WaveSheltered (outside : Set G) (task : RootTask G C F)
    (wave : WaveRun G C F) : Prop where
  tree : ∀ node ∈ task.nodes, node.Within (task.supply outside)
  active : ∀ state ∈ wave.active, state.Within (task.supply outside)

section Waves

variable [Scalar F] [DecidableEq G] {outside : Set G} {task final : RootTask G C F}
  {wave last : WaveRun G C F}

omit [Scalar F] [DecidableEq G] in
theorem WaveSheltered.replace {before after : List (WaveSimulationState G C F)} {state next}
    (sheltered : WaveSheltered outside task wave) (split : wave.active = before ++ state :: after)
    (stays : StaysWithin outside task final next) :
    WaveSheltered outside final (wave.withActive (before ++ next :: after)) where
  tree := stays.tree
  active := by
    intro other member
    rcases mem_append.mp member with early | late
    · refine (sheltered.active other ?_).mono stays.more
      rw [split]
      exact mem_append_left _ early
    · rcases mem_cons.mp late with rfl | late
      · exact stays.state
      · refine (sheltered.active other ?_).mono stays.more
        rw [split]
        exact mem_append_right _ (mem_cons_of_mem _ late)

theorem WaveStep.sheltered {work} (sheltered : WaveSheltered outside task wave)
    (step : WaveStep task wave work final last) :
    WaveSheltered outside final last ∧ ∀ handed, work = some handed →
        handed.Within (final.supply outside) := by
  have quiet {handed : SearchWork G C F} {good : Prop}
      (same : none = some handed) : good := by cases same
  cases step with
  | launch idle found =>
    refine ⟨⟨sheltered.tree, fun state member => ?_⟩, fun _ => quiet⟩
    obtain ⟨action, rfl⟩ := active_launchWave idle member
    trivial
  | advance split advances =>
    have here := sheltered.active _ (split ▸ mem_append_right _ mem_cons_self)
    have stays := advances.staysWithin sheltered.tree here
    exact ⟨sheltered.replace split stays.1, stays.2⟩
  | @install _ _ _ _ ready _ split held applies =>
    have tree : ∀ node ∈ (task.forget ready.applied.after).nodes,
        node.Within ((task.forget ready.applied.after).supply outside) :=
      sheltered.tree
    have stays := applies.staysWithin tree
    have kept : StaysWithin outside task final _ := ⟨stays.more, stays.tree, stays.state⟩
    exact ⟨sheltered.replace split kept, fun _ => quiet⟩
  | discard split held =>
    refine ⟨⟨sheltered.tree, fun state member => ?_⟩, fun _ => quiet⟩
    refine sheltered.active state ?_
    rw [split]
    rcases mem_append.mp member with early | late
    · exact mem_append_left _ early
    · exact mem_append_right _ (mem_cons_of_mem _ late)
  | resolved => exact ⟨⟨sheltered.tree, sheltered.active⟩, fun _ => quiet⟩
  | settle ended counted =>
    have stays := (alikeTree_of_backupAll counted).staysWithin .vacant sheltered.tree trivial
    refine ⟨⟨stays.tree, fun state member => ?_⟩, fun _ => quiet⟩
    cases member

theorem WaveRuns.sheltered (sheltered : WaveSheltered outside task wave)
    (runs : WaveRuns task wave final last) :
    WaveSheltered outside final last :=
  runs.keeps (WaveSheltered outside)
    (fun _ _ _ _ inside step => (step.sheltered inside).1) sheltered

theorem Hands.sheltered {work} (sheltered : WaveSheltered outside task wave)
    (hands : Hands task wave (some work) final last) :
    WaveSheltered outside final last ∧ work.Within (final.supply outside) := by
  obtain ⟨mid, between, runs, step⟩ := hands
  have reached := step.sheltered (runs.sheltered sheltered)
  exact ⟨reached.1, reached.2 work rfl⟩

end Waves

/-! ## Root tasks -/

/-- All that a root task refers to is held. -/
structure RootTask.Sheltered (outside : Set G) (task : RootTask G C F) : Prop where
  phased : task.Phased
  tree : ∀ wave, task.state = .waveRunning wave →
    ∀ node ∈ task.nodes, node.Within (task.supply outside)
  state : task.state.Within (task.supply outside)
  pending : ∀ pending, task.pending = some pending → pending.Within (task.supply outside)

def ReusedTree.supply (outside : Set G) (tree : ReusedTree G C F) : Supply G C :=
  (outside ∪ {graph | graph ∈ tree.createdGraphs}, {candidate | candidate ∈ tree.createdCandidates})

def ReusedTree.Within (outside : Set G) (tree : ReusedTree G C F) : Prop :=
  ∀ node ∈ tree.nodes, node.Within (tree.supply outside)

/-- The graph that a result hands over to the episode. -/
def SymmetricRootResult.handed : SymmetricRootResult G C F → Set G
  | .action result => if result.step.action.isStop then ∅ else {result.selectedAfter}
  | .pass _ _ => ∅

/-- What follows from polling a task whose references are held. -/
def ShelteredAfter (outside : Set G) :
    SearchPoll G C F (SymmetricRootResult G C F) → RootTask G C F → Prop
  | .work work, final => final.Sheltered outside ∧ work.Within (final.supply outside)
  | .blocked, final => final.Sheltered outside
  | .done result, final => ∀ tree, final.reused = some tree →
      tree.Within (outside ∪ result.handed)

section Roots

variable [Scalar F] [DecidableEq G] [DecidableEq C] {outside : Set G} {task final : RootTask G C F}

omit [Scalar F] in
theorem within_carryOver {nodes : List (Node G C F)}
    (tree : ∀ node ∈ task.nodes, node.Within (task.supply outside))
    (source : ∀ kept ∈ nodes, ∃ old ∈ task.nodes, old.Alike kept) :
    ∀ reused, (carryOver task nodes).reused = some reused → reused.Within outside := by
  intro reused carried
  cases carried
  intro node member
  obtain ⟨old, oldMember, alike⟩ := source node member
  have within := (tree old oldMember).alike alike
  refine ⟨fun player => ?_, fun candidate candidateMember => ?_⟩
  · refine (within.board player).imp_right fun held => ?_
    refine mem_filter.mpr ⟨held, decide_eq_true ?_⟩
    refine mem_flatMap.mpr ⟨node, member, mem_append_left _ ?_⟩
    cases player with
    | one => exact mem_cons_self
    | two => exact mem_cons_of_mem _ mem_cons_self
  · refine mem_filter.mpr ⟨within.candidates candidate candidateMember, decide_eq_true ?_⟩
    exact mem_flatMap.mpr ⟨node, member, candidateMember⟩

omit [Scalar F] in
theorem Carries.within {expected} (tree : ∀ node ∈ task.nodes, node.Within (task.supply outside))
    (unused : task.reused = none) (carries : Carries task expected final) :
    ∀ reused, final.reused = some reused → reused.Within outside := by
  cases carries with
  | nothing =>
    intro reused carried
    rw [unused] at carried
    cases carried
  | subtree _ source member head same board => exact within_carryOver tree source

omit [Scalar F] [DecidableEq C] in
theorem Transfers.within {selected : G}
    (within : ∀ reused, task.reused = some reused → reused.Within outside)
    (transfers : Transfers task selected final) :
    ∀ reused, final.reused = some reused → reused.Within (outside ∪ {selected}) := by
  cases transfers with
  | @reused tree carried held =>
    intro reused same
    cases same
    have more : tree.supply outside ≤ ReusedTree.supply (outside ∪ {selected})
        { tree with createdGraphs := tree.createdGraphs.erase selected } := by
      refine ⟨?_, le_refl _⟩
      rintro graph (out | created)
      · exact .inl (.inl out)
      · by_cases same : graph = selected
        · exact .inl (.inr same)
        · exact .inr ((mem_erase_of_ne same).mpr created)
    exact fun node member => (within tree carried node member).mono more
  | created held =>
    intro reused carried node member
    have more : reused.supply outside ≤ reused.supply (outside ∪ {selected}) :=
      ⟨Set.union_subset_union_left _ Set.subset_union_left, le_refl _⟩
    exact (within reused carried node member).mono more

theorem Finishes.within {run result} (tree : ∀ node ∈ task.nodes, node.Within (task.supply outside))
    (unused : task.reused = none) (finishes : Finishes task run result final) :
    ∀ reused, final.reused = some reused → reused.Within (outside ∪ result.handed) := by
  cases finishes with
  | pass rootFound none =>
    intro reused carried
    have carried : task.reused = some reused := carried
    rw [unused] at carried
    cases carried
  | @action root selected move step carried given rootFound chosen moved
      finished carries transfers =>
      have kept := carries.within tree unused
      have same : step.action.isStop = root.isStop selected := by
        rw [action_of_finishedStep finished]
        exact isStop_of_selectedMove moved
      intro reused held
      unfold SymmetricRootResult.handed
      dsimp only
      rw [same]
      by_cases stops : root.isStop selected = true
      · rw [if_pos stops] at transfers ⊢
        rw [Set.union_empty]
        exact kept reused (transfers ▸ held)
      · rw [if_neg stops] at transfers ⊢
        exact transfers.within kept reused held

omit [Scalar F] [DecidableEq G] [DecidableEq C] in
theorem WaveSheltered.root {wave} (sheltered : WaveSheltered outside task wave)
    (phased : { task with state := .waveRunning wave }.Phased) :
    { task with state := .waveRunning wave }.Sheltered outside where
  phased := phased
  tree _ _ := sheltered.tree
  state := sheltered.active
  pending pending found := by
    have idle := phased.running _ rfl
    rw [idle] at found
    cases found

omit [Scalar F] [DecidableEq G] [DecidableEq C] in
theorem RootTask.Sheltered.wave {wave} (sheltered : task.Sheltered outside)
    (state : task.state = .waveRunning wave) :
    WaveSheltered outside task wave := by
  refine ⟨sheltered.tree wave state, ?_⟩
  have here := sheltered.state
  rw [state] at here
  exact here

omit [Scalar F] [DecidableEq G] [DecidableEq C] in
theorem sheltered_of_waits {pending} (phased : { task.tick with
      state := .done, pending := some pending }.Phased)
    (within : pending.Within (task.supply outside)) :
    { task.tick with state := .done, pending := some pending }.Sheltered outside where
  phased := phased
  tree _ running := by cases running
  state := trivial
  pending other found := by
    cases found
    exact within

theorem Polls.sheltered {fuel : Nat} {polled} (sheltered : task.Sheltered outside)
    (polls : Polls fuel task polled final) :
    ShelteredAfter outside polled final := by
  have phased := polls.phased sheltered.phased
  have here := sheltered.state
  cases polls with
  | blocked waits => exact sheltered
  | @resolve board played idle state turn =>
    rw [state] at here
    have same : played.graphs = board.graphs := by
      rcases turn with ⟨rfl, _⟩ | ⟨rfl, _⟩
      · rfl
      · rfl
    have within : played.Within (task.supply outside) := here.congr same
    refine ⟨sheltered_of_waits phased within, fun graph member => ?_, fun candidate member => ?_⟩
    · rw [mem_singleton.mp member]
      exact within _
    · cases member
  | eval idle state asked =>
    rw [state] at here
    refine ⟨sheltered_of_waits phased here, within_evalWork here.1 fun candidate member => ?_⟩
    obtain ⟨entry, entryMember, rfl⟩ := mem_map.mp member
    exact here.2 entry entryMember
  | @wave wave _ _ idle state ends =>
    have begun : WaveSheltered outside { task with state := .done } wave :=
      ⟨(sheltered.wave state).tree, (sheltered.wave state).active⟩
    cases ends with
    | work hands =>
      obtain ⟨reached, within⟩ := Hands.sheltered begun hands
      exact ⟨reached.root phased, within⟩
    | blocked runs waits => exact (runs.sheltered begun).root phased
    | finished runs ended finish =>
      obtain ⟨result, rfl, finishes⟩ := finishes_of_finishRoot finish
      refine finishes.within (runs.sheltered begun).tree ?_
      exact (congrArg RootTask.reused runs.setting_eq :).trans sheltered.phased.unused
  | result idle state =>
    intro tree carried
    rw [sheltered.phased.unused] at carried
    cases carried

omit [DecidableEq C] in
theorem Resumes.sheltered {token : WorkToken} {result} (sheltered : task.Sheltered outside)
    (resumes : Resumes task token result final) :
    final.Sheltered outside := by
  have phased := resumes.phased sheltered.phased
  cases resumes with
  | wave running split waits receives =>
    have begun := sheltered.wave running
    have here := begun.active _ (split ▸ mem_append_right _ mem_cons_self)
    have stays := receives.staysWithin begun.tree here
    exact (begun.replace split stays).root phased
  | pass pending known empty =>
    exact ⟨phased, fun _ running => (by cases running), trivial,
      fun _ found => (by cases found)⟩
  | @expand board result pending known offered =>
    have within := sheltered.pending _ pending
    have more := RootTask.supply_le_createAll outside task (result.candidates.map (·.candidate))
    refine ⟨phased, fun _ running => (by cases running), ⟨?_, ?_⟩,
      fun _ found => (by cases found)⟩
    · exact (Board.Within.mono more within).congr (graphs_placeContext _ _)
    · intro entry member
      obtain ⟨candidate, candidateMember, rfl⟩ := mem_map.mp member
      exact mem_append_right _ (mem_map_of_mem candidateMember)
  | @eval board expansion request output run pending valid started =>
    have within := sheltered.pending _ pending
    have empty : task.nodes = [] := sheltered.phased.opening (.inl (pending ▸ rfl))
    refine ⟨phased, fun _ _ node member => ?_, fun _ member => ?_, fun _ found => (by cases found)⟩
    · have grown : node ∈ task.nodes ++ [newNode task.config board expansion output] := member
      rw [empty] at grown
      rw [mem_singleton.mp grown]
      exact within_newNode within.1 within.2
    · cases member

omit [DecidableEq G] [DecidableEq C] in
theorem nodes_refreshed {supply} (reused : RootTask G C F)
    (tree : ∀ node ∈ reused.nodes, node.Within supply) :
    ∀ node ∈ (refreshReusedNoBacktrackMasks reused).nodes, node.Within supply := by
  unfold refreshReusedNoBacktrackMasks
  split
  · intro node member
    obtain ⟨old, oldMember, rfl⟩ := mem_map.mp member
    have within := tree old oldMember
    exact ⟨within.board, within.candidates⟩
  · exact tree

omit [DecidableEq G] [DecidableEq C] in
theorem Reuses.sheltered {left reused visited}
    (within : ∀ tree, task.reused = some tree → tree.Within outside)
    (reuses : Reuses task visited (some reused) left) :
    reused.Sheltered outside := by
  have phased := reuses.phased
  cases reuses with
  | @subtree tree root run carried head started =>
    have same : (reusedTask task visited tree root).supply outside = tree.supply outside ∧
        (reusedTask task visited tree root).pending = none := by
      unfold reusedTask refreshReusedNoBacktrackMasks
      split
      · exact ⟨rfl, rfl⟩
      · exact ⟨rfl, rfl⟩
    refine ⟨phased, fun _ _ => ?_, fun _ member => ?_, fun _ found => ?_⟩
    · change ∀ node ∈ (reusedTask task visited tree root).nodes,
        node.Within ((reusedTask task visited tree root).supply outside)
      rw [same.1]
      exact nodes_refreshed _ (within tree carried)
    · cases member
    · rw [same.2] at found
      cases found

omit [Scalar F] [DecidableEq C] in
theorem Aligns.sheltered {expected : Board G} {contexts} (sheltered : task.Sheltered outside)
    (aligns : Aligns task expected contexts final) :
    final.Sheltered outside := by
  have phased := aligns.phased sheltered.phased
  cases aligns with
  | aligned head board agrees known =>
    refine ⟨phased, fun wave running => ?_, sheltered.state, sheltered.pending⟩
    have tree := sheltered.tree wave running
    have root := tree _ (mem_of_mem_head? head)
    refine RootTask.forall_setNode tree ⟨?_, root.candidates⟩
    exact root.board.congr rfl

omit [Scalar F] [DecidableEq G] [DecidableEq C] in
theorem RootTask.Sheltered.takeReleasable (sheltered : task.Sheltered outside) :
    task.takeReleasable.2.Sheltered outside :=
  ⟨sheltered.phased.takeReleasable, sheltered.tree, sheltered.state, sheltered.pending⟩

end Roots

/-! ## Episodes -/

/-- The graphs that an episode holds apart from its root task's, or that stay
with its caller. -/
def EpisodeTask.outside (lent : List G) (task : EpisodeTask G C F) : Set G :=
  {graph | graph ∈ task.pathGraphs} ∪ {graph | graph ∈ lent}

/-- All that an episode refers to is held. -/
structure EpisodeTask.Sheltered (lent : List G) (task : EpisodeTask G C F) : Prop where
  searching : task.Searching
  current : task.state.playing = true → ∀ player, task.stand.graphs.of player ∈ task.outside lent
  root : ∀ rootTask, task.state = .root rootTask → rootTask.Sheltered (task.outside lent)

/-- What the work of a round may name. -/
def EpisodeTask.supply (lent : List G) (task : EpisodeTask G C F) : Supply G C :=
  match task.state with
  | .root rootTask => rootTask.supply (task.outside lent)
  | _ => (task.outside lent, ∅)

section Episodes

variable {lent : List G} {task final : EpisodeTask G C F}

theorem sheltered_rootTask (current : ∀ player, task.stand.graphs.of player ∈ task.outside lent) :
    task.rootTask.Sheltered (task.outside lent) where
  phased := phased_rootTask task
  tree _ running := by cases running
  state := fun player => .inl (current player)
  pending _ found := by cases found

theorem sheltered_keepRoot {rootTask next} (sheltered : task.Sheltered lent)
    (state : task.state = .root rootTask) (searches : next.Searches task.stand)
    (held : next.Sheltered (task.outside lent)) :
    (task.keepRoot next).Sheltered lent where
  searching := searching_keepRoot searches
  current _ := sheltered.current (state ▸ rfl)
  root other same := by
    cases same
    exact held.takeReleasable

theorem outside_afterTurn (result : SymmetricRootResult G C F) :
    (task.afterTurn result).outside lent = task.outside lent ∪ result.handed := by
  cases result with
  | pass player context => exact (Set.union_empty _).symm
  | action result =>
    ext graph
    unfold EpisodeTask.outside EpisodeTask.afterTurn SymmetricRootResult.handed
    dsimp only
    split
    · simp
    · simp only [Set.mem_union, Set.mem_ofPred_eq, mem_append, mem_singleton, Set.mem_singleton_iff]
      tauto

theorem current_afterTurn (task : EpisodeTask G C F) {result}
    (current : ∀ player, task.stand.graphs.of player ∈ task.outside lent)
    (ends : task.stand.Ends result) (player : GumbelPlayer) :
    (task.afterTurn result).stand.graphs.of player ∈ (task.afterTurn result).outside lent := by
  rw [outside_afterTurn, graphs_stand]
  have before := current player
  rw [graphs_stand] at before
  cases result with
  | pass passed context =>
    left
    change ((task.actors.update passed _).of player).current ∈ _
    by_cases same : player = passed
    · subst same
      rw [PerPlayer.of_update_same]
      exact before
    · rw [PerPlayer.of_update_of_ne _ _ same]
      exact before
  | action result =>
    change ((task.actors.update result.player _).of player).current ∈ _
    by_cases same : player = result.player
    · subst same
      rw [PerPlayer.of_update_same]
      change result.selectedAfter ∈ _
      obtain ⟨_, left, _, _, stays⟩ := ends
      by_cases stops : result.step.action.isStop = true
      · left
        rw [(stays stops).1, left, graphs_stand]
        exact before
      · right
        unfold SymmetricRootResult.handed
        dsimp only
        rw [if_neg stops]
        exact Set.mem_singleton _
    · rw [PerPlayer.of_update_of_ne _ _ same]
      exact .inl before

theorem turned_position (lent : List G) (task : EpisodeTask G C F) :
    task.turned.stand = task.stand ∧ task.turned.outside lent = task.outside lent := by
  unfold EpisodeTask.turned
  split
  · exact ⟨rfl, rfl⟩
  · exact ⟨rfl, rfl⟩

theorem sheltered_started (current : ∀ player, task.stand.graphs.of player ∈ task.outside lent) :
    task.started.Sheltered lent := by
  unfold EpisodeTask.started at *
  split
  · exact ⟨fun _ state => (by cases state), fun _ => current,
      fun _ state => (by cases state)⟩
  split
  · exact ⟨fun _ state => (by cases state), fun _ => current,
      fun _ state => (by cases state)⟩
  refine ⟨fun other state => ?_, fun _ => current, fun other state => ?_⟩
  · cases state
    exact searches_rootTask task
  · cases state
    exact sheltered_rootTask current

variable [Scalar F] [DecidableEq G] [DecidableEq C]

theorem Rounds.sheltered {fuel : Nat} {outcome} (sheltered : task.Sheltered lent)
    (rounds : Rounds fuel task outcome final) :
    final.Sheltered lent ∧ ∀ work, outcome = .inr (.work work) →
      work.Within (final.supply lent) := by
  have searching := rounds.searching sheltered.searching
  cases rounds with
  | start state =>
    refine ⟨sheltered_started (sheltered.current (state ▸ rfl)), ?_⟩
    intro work same
    cases same
  | @work rootTask next work state polls =>
    obtain ⟨held, within⟩ := polls.sheltered (sheltered.root _ state)
    have kept := sheltered_keepRoot sheltered state
      (polls.searches (sheltered.searching _ state)) held
    refine ⟨⟨searching, kept.current, kept.root⟩, fun other same => ?_⟩
    cases same
    exact within.retokenize _
  | blocked state polls =>
    have held := polls.sheltered (sheltered.root _ state)
    refine ⟨sheltered_keepRoot sheltered state
      (polls.searches (sheltered.searching _ state)) held, ?_⟩
    intro work same
    cases same
  | @next rootTask next left result state polls alone turn reuses =>
    have current := sheltered.current (state ▸ rfl)
    have ends := polls.searches (sheltered.searching _ state)
    refine ⟨⟨searching, fun _ => ?_, fun other root => ?_⟩, fun work same => by cases same⟩
    · exact current_afterTurn { task.appendReleasable next.takeReleasable.1 with state := .done }
        current ends
    · cases (afterTurn_keeps _ _).2.2.symm.trans root
  | @reuse rootTask next left reused aligned result contexts turned state
      polls alone turn reuses turns aligns active =>
      have current (player : GumbelPlayer) : (task.leaveRoot next result).stand.graphs.of player ∈
            (task.leaveRoot next result).outside lent :=
        current_afterTurn { task.appendReleasable next.takeReleasable.1 with state := .done }
          (sheltered.current (state ▸ rfl))
          (polls.searches (sheltered.searching _ state)) player
      have carried : ∀ tree, next.takeReleasable.2.reused = some tree →
          tree.Within (task.outside lent ∪ result.handed) :=
        polls.sheltered (sheltered.root _ state)
      obtain ⟨stand, outside⟩ := turned_position lent
        ((task.leaveRoot next result).appendReleasable left.takeAllHandles.1)
      rw [← turns] at stand outside
      have kept : turned.outside lent = task.outside lent ∪ result.handed :=
        outside.trans (outside_afterTurn result)
      refine ⟨⟨searching, fun _ player => ?_, fun other root => ?_⟩, fun work same => by cases same⟩
      · change turned.stand.graphs.of player ∈ turned.outside lent
        rw [stand, outside]
        exact current player
      · cases root
        change aligned.Sheltered (turned.outside lent)
        rw [kept]
        exact aligns.sheltered (reuses.sheltered carried)
  | measure state =>
    have current := sheltered.current (state ▸ rfl)
    refine ⟨⟨searching, fun playing => (by cases playing),
      fun other root => (by cases root)⟩, fun work same => ?_⟩
    cases same
    refine ⟨fun graph member => ?_, fun candidate member => ?_⟩
    · rcases mem_pair.mp member with rfl | rfl
      · exact current .one
      · exact current .two
    · cases member
  | finished state =>
    exact ⟨⟨searching, fun playing => (by cases playing),
      fun other root => (by cases root)⟩, fun work same => by cases same⟩

omit [DecidableEq C] in
theorem Receipts.sheltered {token result} (sheltered : task.Sheltered lent)
    (receipts : Receipts task token result final) : final.Sheltered lent := by
  cases receipts with
  | @root pending rootTask next result found state resumes =>
    have here : EpisodeTask.Sheltered lent
        { task with rootPending := task.rootPending.erase pending } :=
      ⟨sheltered.searching, sheltered.current, sheltered.root⟩
    exact sheltered_keepRoot here state (resumes.searches (sheltered.searching _ state))
      (resumes.sheltered (sheltered.root _ state))
  | measure =>
    exact ⟨fun _ root => (by cases root), fun playing => (by cases playing),
      fun _ root => (by cases root)⟩

omit [Scalar F] [DecidableEq G] [DecidableEq C] in
theorem EpisodeTask.Sheltered.takeReleasable (sheltered : task.Sheltered lent) :
    task.takeReleasable.2.Sheltered lent := by
  have searching := searching_takeReleasable sheltered.searching
  rcases task.takeReleasable_cases with ⟨rootTask, state, same⟩ | same
  · rw [same] at searching ⊢
    have kept := sheltered_keepRoot sheltered state
      (sheltered.searching _ state) (sheltered.root _ state)
    exact ⟨searching, kept.current, kept.root⟩
  · rw [same] at searching ⊢
    exact ⟨searching, sheltered.current, sheltered.root⟩

omit [Scalar F] [DecidableEq G] [DecidableEq C] in
theorem sheltered_of_begins {owned} (begins : task.Begins owned lent) : task.Sheltered lent := by
  cases begins with
  | lent config hash identity root seed =>
    refine ⟨fun _ root => (by cases root), fun _ player => ?_,
      fun _ root => (by cases root)⟩
    cases player with
    | one | two => exact .inr mem_cons_self
  | owned config hash identity root seed =>
    refine ⟨fun _ root => (by cases root), fun _ player => ?_,
      fun _ root => (by cases root)⟩
    cases player with
    | one | two => exact .inl mem_cons_self
  | position config hash identity graphs =>
    refine ⟨fun _ root => (by cases root), fun _ player => ?_,
      fun _ root => (by cases root)⟩
    cases player with
    | one => exact .inr mem_cons_self
    | two => exact .inr (mem_cons_of_mem _ mem_cons_self)

end Episodes

section Runs

variable [DecidableEq G] [DecidableEq C] {run next : EpisodeRun G C F}

/-- The references that were handed over and not given back.  What waits to
be taken counts as given back. -/
def EpisodeRun.kept (run : EpisodeRun G C F) : Holdings G C :=
  holdingsOf run.lent [] + run.received - (run.released + run.task.takeReleasable.1.holdings)

theorem kept_of_running (sound : run.Sound) (running : run.status = .running) : run.kept =
      holdingsOf run.lent [] + run.task.takeReleasable.2.holdings := by
  have conserved := sound.conserved
  rw [running, ← run.task.holdings_takeReleasable] at conserved
  have split : holdingsOf run.lent [] + run.received =
      holdingsOf run.lent [] + run.task.takeReleasable.2.holdings +
        (run.released + run.task.takeReleasable.1.holdings) := by
    rw [← conserved]
    abel
  unfold EpisodeRun.kept
  rw [split]
  exact Prod.ext (add_tsub_cancel_right _ _) (add_tsub_cancel_right _ _)

omit [DecidableEq G] [DecidableEq C] in
theorem RootTask.holds_created (task : RootTask G C F) :
    (∀ graph ∈ task.createdGraphs, graph ∈ task.holdings.1) ∧
      ∀ candidate ∈ task.createdCandidates, candidate ∈ task.holdings.2 := by
  have below : holdingsOf task.createdGraphs task.createdCandidates ≤ task.holdings := by
    unfold RootTask.holdings
    rw [add_assoc, add_assoc]
    exact ⟨Multiset.le_add_right _ _, Multiset.le_add_right _ _⟩
  exact ⟨fun _ member => Multiset.mem_of_le below.1 (Multiset.mem_coe.mpr member),
    fun _ member => Multiset.mem_of_le below.2 (Multiset.mem_coe.mpr member)⟩

omit [DecidableEq G] [DecidableEq C] in
theorem holds_supply (task : EpisodeTask G C F) (lent : List G) : (∀ graph ∈ (task.supply lent).1,
      graph ∈ lent ∨ graph ∈ task.takeReleasable.2.holdings.1) ∧
    ∀ candidate ∈ (task.supply lent).2, candidate ∈ task.takeReleasable.2.holdings.2 := by
  have outside (graph : G) (member : graph ∈ task.outside lent) :
      graph ∈ lent ∨ graph ∈ task.takeReleasable.2.holdings.1 := by
    rcases member with path | given
    · right
      refine Multiset.mem_add.mpr (.inl (Multiset.mem_add.mpr (.inl ?_)))
      rw [task.reporting_takeReleasable.2.2]
      exact Multiset.mem_coe.mpr path
    · exact .inl given
  unfold EpisodeTask.supply
  cases state : task.state with
  | root rootTask =>
    have kept : task.takeReleasable.2.state = .root rootTask.takeReleasable.2 := by
      unfold EpisodeTask.takeReleasable EpisodeTask.drainRoot
      rw [state]
      rfl
    have below : rootTask.takeReleasable.2.holdings ≤ task.takeReleasable.2.holdings := by
      unfold EpisodeTask.holdings
      rw [kept]
      exact ⟨Multiset.le_add_left _ _, Multiset.le_add_left _ _⟩
    have created := rootTask.takeReleasable.2.holds_created
    refine ⟨fun graph member => ?_, fun candidate member => ?_⟩
    · rcases member with held | held
      · exact outside graph held
      · exact .inr (Multiset.mem_of_le below.1 (created.1 graph held))
    · exact Multiset.mem_of_le below.2 (created.2 candidate member)
  | turn | measurePair | doneResult _ | done => exact ⟨outside, fun _ member => member.elim⟩

variable [Scalar F]

/-- As long as an episode runs, it holds all that it refers to. -/
def EpisodeRun.Sheltered (run : EpisodeRun G C F) : Prop :=
  run.status = .running → run.task.Sheltered run.lent

theorem sheltered_of_step {label} (sheltered : run.Sheltered) (step : EpisodeStep run label next) :
    next.Sheltered := by
  intro running
  cases step with
  | @round _ _ outcome still idle done =>
    have kept := (rounds_of_episodeRound done).sheltered (sheltered still)
    rcases outcome with _ | _ | _ | _
    all_goals exact kept.1
  | resume still open_ answered done => exact (receipts_of_resume done).sheltered (sheltered still)
  | takeReleasable => exact (sheltered running).takeReleasable
  | roundFailed | resumeFailed | abort => cases running

theorem sheltered_of_reachable (reachable : episodeSystem.Reachable run) : run.Sheltered := by
  refine reachable.invariant ?_ fun _ _ _ => sheltered_of_step
  rintro _ ⟨task, owned, lent, begins, rfl⟩ _
  exact sheltered_of_begins begins

/-- Work names only graphs and candidates of which the episode, or for a graph
its caller, still holds a reference. -/
theorem kept_of_emitted {label : EpisodeLabel G C F}
    {work : SearchWork G C F} (reachable : episodeSystem.Reachable run)
    (step : EpisodeStep run label next)
    (emits : next.emitted = run.emitted ++ [work]) :
    (∀ graph ∈ work.graphs, graph ∈ next.kept.1) ∧
      ∀ candidate ∈ work.candidates, candidate ∈ next.kept.2 := by
  have sound := sound_of_step (sound_of_reachable reachable) step
  have quiet {good : Prop} (same : run.emitted = run.emitted ++ [work]) :
      good := by
    simp at same
  cases step with
  | @round _ task outcome running idle done =>
    rcases outcome with again | other | _ | finished
    · exact quiet emits
    · obtain rfl := singleton_inj.mp (append_cancel_left emits)
      have within := ((rounds_of_episodeRound done).sheltered
        (sheltered_of_reachable reachable running)).2 other rfl
      obtain ⟨graphs, candidates⟩ := holds_supply task run.lent
      rw [kept_of_running sound running]
      refine ⟨fun graph member => ?_, fun candidate member => ?_⟩
      · refine Multiset.mem_add.mpr ?_
        exact graphs graph (within.graphs graph member)
      · refine Multiset.mem_add.mpr (.inr ?_)
        exact candidates candidate (within.candidates candidate member)
    · exact quiet emits
    · exact quiet emits
  | resume | takeReleasable | roundFailed | resumeFailed | abort => exact quiet emits

end Runs

/-- The first rewrite of a sample episode names its root and a candidate that
came with the expansion. -/
theorem kept_at_the_apply : ∃ run next, Sample.start.follow (Sample.labels.take 5) = some run ∧
      run.next Sample.round = some next ∧ next.emitted = run.emitted ++ [.apply ⟨⟨2⟩, 0, 7⟩] ∧
          0 ∈ next.kept.1 ∧ 7 ∈ next.kept.2 := by
  have followed : (Sample.start.follow (Sample.labels.take 5)).any (fun run =>
      (run.next Sample.round).any fun next =>
        decide (next.emitted = run.emitted ++ [.apply ⟨⟨2⟩, 0, 7⟩])) =
      true := by
    decide +kernel
  obtain ⟨run, reached, seen⟩ := Option.any_eq_true _ _ |>.mp followed
  obtain ⟨next, stepped, emits⟩ := Option.any_eq_true _ _ |>.mp seen
  have emits := of_decide_eq_true emits
  obtain ⟨graphs, candidates⟩ := kept_of_emitted
    (Sample.reachable_of_follow reached) (step_of_next stepped) emits
  exact ⟨run, next, reached, stepped, emits,
    graphs 0 mem_cons_self, candidates 7 mem_cons_self⟩

end GraphZero.Search
