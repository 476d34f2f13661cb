import GraphZero.Search.RootBoards

/-!
# Contexts that a turn must not reach

Without backtracking a player never returns to a context it has left.  At the
root of the tree an action that returns to one is masked, whether the search
has applied it or found it in a carried subtree.
-/

namespace GraphZero.Search

open Engine Foundation Effect List

variable {G C F : Type}

def Board.barred (board : Board G) (visited : PerPlayer (Finset ReplayGraphContext)) :
    PerPlayer (Finset ReplayGraphContext) where
  one := withContext visited.one board.contexts.one
  two := withContext visited.two board.contexts.two

theorem mem_withContext {seen known context} :
    context ∈ withContext seen known ↔ context ∈ seen ∨ known = some context := by
  cases known with
  | none => simp [withContext]
  | some other => simp [withContext, eq_comm, or_comm]

theorem Board.barred_of (board : Board G) (visited : PerPlayer (Finset ReplayGraphContext))
    (player : GumbelPlayer) :
    (board.barred visited).of player =
      withContext (visited.of player) (board.contexts.of player) := by
  cases player <;> rfl

/-- A descent has seen all that is barred. -/
def Descent.Minds (barred : PerPlayer (Finset ReplayGraphContext)) (descent : Descent) : Prop :=
  ∀ player, barred.of player ⊆ descent.seen.of player

section Descents

variable {barred : PerPlayer (Finset ReplayGraphContext)} {descent : Descent}

theorem Descent.Minds.see (minds : descent.Minds barred)
    (player : GumbelPlayer) (context : ReplayGraphContext) :
    (descent.see player context).Minds barred := by
  intro other known member
  change known ∈ (descent.seen.update player _).of other
  by_cases same : other = player
  · subst same
    rw [PerPlayer.of_update_same]
    exact Finset.mem_insert_of_mem (minds other member)
  · rw [PerPlayer.of_update_of_ne _ _ same]
    exact minds other member

theorem Descent.Minds.follow (minds : descent.Minds barred)
    (player : GumbelPlayer) (step : PathStep)
    (context : Option ReplayGraphContext) :
    (descent.unforced.follow player step context).Minds barred := by
  cases context with
  | none => exact minds
  | some context =>
    have walked : (descent.unforced.walk step).Minds barred := minds
    exact walked.see player context

end Descents

/-! ## Nodes -/

/-- The node knows the context of its player, and masks one action for each
edge. -/
structure Node.Placed (node : Node G C F) : Prop where
  context : node.board.contexts.of node.board.player = some node.context
  masked : node.masked.length = node.edges.length

def Node.Clear (barred : PerPlayer (Finset ReplayGraphContext)) (node : Node G C F) : Prop :=
  ∀ action edge context, node.edges[action]? = some edge →
    edge.afterContext = some context → node.isMasked action = false →
      context ∉ barred.of node.board.player

section Nodes

variable {barred : PerPlayer (Finset ReplayGraphContext)} {node old new : Node G C F}

theorem Node.Placed.alike (placed : old.Placed) (alike : old.Alike new) : new.Placed := by
  refine ⟨?_, ?_⟩
  · rw [alike.board, alike.context]
    exact placed.context
  · rw [alike.masked, placed.masked]
    exact alike.applied.length_eq

theorem Node.Clear.alike (clear : old.Clear barred) (alike : old.Alike new) : new.Clear barred := by
  intro action edge context found applied opened
  obtain ⟨before, beforeFound, same⟩ := forall₂_getElem?_right alike.applied found
  unfold Node.isMasked at opened
  rw [alike.masked] at opened
  rw [alike.board]
  exact clear action before context beforeFound (same.2.symm.trans applied) opened

theorem Node.Placed.setEdge (placed : node.Placed) (action : Nat)
    (edge : ActionEdge G F) : (node.setEdge action edge).Placed where
  context := placed.context
  masked := placed.masked.trans length_set.symm

theorem Node.Clear.setEdge {action edge} (clear : node.Clear barred)
    (fresh : ∀ context, edge.afterContext = some context → context ∉ barred.of node.board.player) :
    (node.setEdge action edge).Clear barred := by
  intro other changed context found applied opened
  have found : (node.edges.set action edge)[other]? = some changed := found
  by_cases same : action = other
  · rw [same, getElem?_set_self'] at found
    obtain ⟨_, _, rfl⟩ := Option.map_eq_some_iff.mp found
    exact fresh context applied
  · rw [getElem?_set_ne same] at found
    exact clear other changed context found applied opened

variable [Scalar F]

theorem Node.Placed.mask (placed : node.Placed) (action : Nat) : (node.mask action).Placed where
  context := placed.context
  masked := length_set.trans placed.masked

theorem isMasked_mask {action other} (opened : (node.mask action).isMasked other = false) :
    node.isMasked other = false := by
  unfold Node.isMasked Node.mask at *
  rw [getD_eq_getElem?_getD, getElem?_set] at opened
  rw [getD_eq_getElem?_getD]
  split at opened
  · next same =>
    split at opened
    · cases opened
    · next outside =>
      rw [getElem?_eq_none (by omega)]
      rfl
  · exact opened

theorem Node.Clear.mask (clear : node.Clear barred) (action : Nat) :
    (node.mask action).Clear barred :=
  fun other edge context found applied opened =>
    clear other edge context found applied (isMasked_mask opened)

section

variable {config : GumbelMctsConfig F} {board : Board G} {expansion : Expansion C F}
  {output : EvalOutput F}

theorem placed_newNode (known : board.contexts.of board.player = some expansion.context) :
    (newNode config board expansion output).Placed :=
  ⟨known, length_replicate.trans length_replicate.symm⟩

theorem clear_newNode : (newNode config board expansion output).Clear barred := by
  intro action edge context found applied
  have fresh := eq_of_mem_replicate (mem_of_getElem? found)
  rw [fresh] at applied
  cases applied

end

section

variable {visited : PerPlayer (Finset ReplayGraphContext)}
  {contexts : PerPlayer (Option ReplayGraphContext)} (placed : node.Placed)
include placed

theorem clear_refreshNode :
    (refreshNode visited contexts node).Clear (node.board.barred visited) := by
  intro action edge context found applied opened barred
  change context ∈ (node.board.barred visited).of node.board.player at barred
  rw [Board.barred_of, mem_withContext] at barred
  have found : (node.edges.map _)[action]? = some edge := found
  rw [getElem?_map] at found
  obtain ⟨before, beforeFound, rfl⟩ := Option.map_eq_some_iff.mp found
  have same : before.afterContext = some context := by
    split at applied
    · exact applied
    · exact applied
  have inside : action < node.masked.length := by
    rw [placed.masked]
    exact (List.getElem?_eq_some_iff.mp beforeFound).1
  have entry : (node.masked.zip node.edges)[action]? = some (node.masked[action], before) :=
    getElem?_zip_eq_some.mpr ⟨getElem?_eq_getElem inside, beforeFound⟩
  unfold Node.isMasked refreshNode at opened
  rw [getD_eq_getElem?_getD, getElem?_map, entry] at opened
  dsimp only [Option.map_some, Option.getD_some] at opened
  rw [same, Option.any_some, Bool.or_eq_false_iff, Bool.or_eq_false_iff,
    Bool.or_eq_false_iff] at opened
  rcases barred with visited | here
  · exact of_decide_eq_false opened.2.1.1 visited
  · rw [here, beq_self_eq_true] at opened
    cases opened.2.2

theorem Node.Placed.refreshNode : (refreshNode visited contexts node).Placed where
  context := placed.context
  masked := by
    change ((node.masked.zip node.edges).map _).length = (node.edges.map _).length
    rw [length_map, length_map, length_zip, placed.masked, min_self]

end

end Nodes

/-- A task that must not backtrack, with what is barred at its root. -/
structure RootTask.Guarded (barred : PerPlayer (Finset ReplayGraphContext))
    (task : RootTask G C F) : Prop where
  strict : task.config.noBacktrack = true
  placed : ∀ node ∈ task.nodes, node.Placed
  root : ∃ root, task.nodes.head? = some root ∧
    root.board.barred task.visited = barred ∧ root.Clear barred

section Trees

variable {barred : PerPlayer (Finset ReplayGraphContext)} {task final : RootTask G C F}

theorem RootTask.Guarded.setNode {index node changed} (guarded : task.Guarded barred)
    (found : task.nodes[index]? = some node) (board : changed.board = node.board)
    (placed : node.Placed → changed.Placed) (clear : node.Clear barred → changed.Clear barred) :
    (task.setNode index changed).Guarded barred where
  strict := guarded.strict
  placed := RootTask.forall_setNode guarded.placed
    (placed (guarded.placed node (mem_of_getElem? found)))
  root := by
    obtain ⟨root, head, same, clearRoot⟩ := guarded.root
    change ∃ root, (task.nodes.set index changed).head? = some root ∧ _
    rw [head?_eq_getElem?] at head ⊢
    cases index with
    | zero =>
      cases head.symm.trans found
      refine ⟨changed, ?_, ?_, clear clearRoot⟩
      · rw [getElem?_set_self', found]
        rfl
      · rw [board]
        exact same
    | succ index =>
      refine ⟨root, ?_, same, clearRoot⟩
      rw [getElem?_set_ne (Nat.succ_ne_zero index)]
      exact head

theorem RootTask.Guarded.alikeTree (guarded : task.Guarded barred)
    (alike : task.AlikeTree final) : final.Guarded barred where
  strict := by
    rw [alike.others]
    exact guarded.strict
  placed := by
    intro node member
    obtain ⟨old, oldMember, same⟩ := forall₂_mem_right alike.nodes member
    exact (guarded.placed old oldMember).alike same
  root := by
    obtain ⟨root, head, same, clear⟩ := guarded.root
    rw [head?_eq_getElem?] at head
    obtain ⟨new, found, like⟩ := forall₂_getElem? alike.nodes head
    refine ⟨new, head?_eq_getElem?.trans found, ?_, clear.alike like⟩
    rw [like.board, alike.others]
    exact same

theorem RootTask.Guarded.grow {node} (guarded : task.Guarded barred) (placed : node.Placed) :
    (task.grow node).Guarded barred where
  strict := guarded.strict
  placed := RootTask.forall_grow guarded.placed placed
  root := by
    obtain ⟨root, head, same, clear⟩ := guarded.root
    refine ⟨root, ?_, same, clear⟩
    change (task.nodes ++ [node]).head? = some root
    rw [head?_append, head]
    rfl

end Trees

/-- What a simulation may still apply, it applies knowing what is barred.
What it evaluates, it has placed. -/
def WaveSimulationState.Minds (barred : PerPlayer (Finset ReplayGraphContext)) :
    WaveSimulationState G C F → Prop
  | running descent | applyPending _ descent _ _ => descent.Minds barred
  | rootApplyReady ready => ready.descent.Minds barred
  | evalReady _ board _ expansion | evalPending _ _ board _ expansion _
  | evalComplete _ board _ expansion _ _ => board.contexts.of board.player = some expansion.context
  | _ => True

section Simulations

variable {barred : PerPlayer (Finset ReplayGraphContext)} {task final : RootTask G C F}

variable {descent : Descent}

theorem minds_waveTargetState {target : BranchTarget F} (minds : descent.Minds barred) :
    (waveTargetState (G := G) (C := C) descent target).Minds barred := by
  cases target with
  | node => exact minds
  | terminal => trivial

theorem minds_advancePass {node : Node G C F} (minds : descent.Minds barred) :
    (advancePass descent node).Minds barred := by
  unfold advancePass
  split
  · exact minds_waveTargetState minds
  · trivial

theorem placeContext_known [DecidableEq G] {board : Board G} {context}
    (known : ∀ found, board.contexts.of board.player = some found → found = context) :
    (placeContext board context).contexts.of
      (placeContext board context).player = some context := by
  have opens : Stand.Opens ⟨board.graphs, board.contexts⟩ board := ⟨rfl, rfl⟩
  exact (opens.holds_placeContext known).current

variable [Scalar F]

theorem Applies.guarded {index action applied next} (guarded : task.Guarded barred)
    (minds : descent.Minds barred)
    (applies : Applies task descent index action applied final next) :
    final.Guarded barred ∧ next.Minds barred := by
  cases applies with
  | turnedBack found returns =>
    have released : (task.release applied.after).Guarded barred :=
      ⟨guarded.strict, guarded.placed, guarded.root⟩
    exact ⟨released.setNode found rfl (fun placed => placed.mask action)
      (fun clear => clear.mask action), minds⟩
  | @created node edge found edgeFound accepted fresh =>
    have created : (task.create applied.after).Guarded barred :=
      ⟨guarded.strict, guarded.placed, guarded.root⟩
    refine ⟨created.setNode found rfl (fun placed => placed.setEdge _ _)
      (fun clear => clear.setEdge fun context same member => ?_), trivial⟩
    cases same
    exact fresh ⟨guarded.strict, minds _ member⟩

theorem Advances.guarded {state next : WaveSimulationState G C F} {work}
    (guarded : task.Guarded barred) (minds : state.Minds barred)
    (advances : Advances task state work final next) :
    final.Guarded barred ∧ next.Minds barred := by
  have ticked : task.tick.Guarded barred := ⟨guarded.strict, guarded.placed, guarded.root⟩
  cases advances with
  | pass found stuck => exact ⟨guarded, minds_advancePass minds⟩
  | follow found chosen edgeFound expanded fresh =>
    exact ⟨guarded, minds_waveTargetState (Descent.Minds.follow minds _ _ _)⟩
  | turnBack found chosen edgeFound expanded applied returns =>
    exact ⟨guarded.setNode found rfl (fun placed => placed.mask _)
      (fun clear => clear.mask _), minds⟩
  | stop => exact ⟨guarded, trivial⟩
  | apply => exact ⟨ticked, minds⟩
  | expand turn => exact ⟨ticked, trivial⟩
  | terminal => exact ⟨ticked, trivial⟩
  | eval asked => exact ⟨ticked, minds⟩
  | complete valid installs found =>
    exact ⟨(guarded.grow (placed_newNode minds)).alikeTree installs.alikeTree, trivial⟩
  | completeTerminal valid installs =>
    have counted : RootTask.Guarded barred { task with evalCount := task.evalCount + 1 } :=
      ⟨guarded.strict, guarded.placed, guarded.root⟩
    exact ⟨counted.alikeTree installs.alikeTree, trivial⟩
  | wait => exact ⟨guarded, minds⟩

theorem Receives.guarded [DecidableEq G] {preflight : Bool} {state next result}
    (guarded : task.Guarded barred) (minds : state.Minds barred)
    (receives : Receives preflight task state result final next) :
    final.Guarded barred ∧ next.Minds barred := by
  have created (candidates : List C) : (task.createAll candidates).Guarded barred :=
    ⟨guarded.strict, guarded.placed, guarded.root⟩
  cases receives with
  | speculated early => exact ⟨⟨guarded.strict, guarded.placed, guarded.root⟩, minds⟩
  | applied late applies => exact applies.guarded guarded minds
  | stuck known empty => exact ⟨created _, trivial⟩
  | expanded known offered => exact ⟨created _, placeContext_known known⟩
  | evaluated => exact ⟨guarded, minds⟩
  | terminalEvaluated => exact ⟨guarded, trivial⟩

end Simulations

/-- The simulations of a wave heed what is barred. -/
structure WaveGuarded (barred : PerPlayer (Finset ReplayGraphContext))
    (task : RootTask G C F) (wave : WaveRun G C F) : Prop where
  tree : task.Guarded barred
  active : ∀ state ∈ wave.active, state.Minds barred

section Waves

variable {barred : PerPlayer (Finset ReplayGraphContext)}
  {task final : RootTask G C F} {wave last : WaveRun G C F}

theorem WaveGuarded.replace {before after state next} (guarded : WaveGuarded barred task wave)
    (split : wave.active = before ++ state :: after)
    (stepped : final.Guarded barred ∧ next.Minds barred) :
    WaveGuarded barred final (wave.withActive (before ++ next :: after)) where
  tree := stepped.1
  active := by
    intro other member
    have others := guarded.active other
    rw [split] at others
    rcases mem_append.mp member with early | late
    · exact others (mem_append_left _ early)
    · rcases mem_cons.mp late with rfl | late
      · exact stepped.2
      · exact others (mem_append_right _ (mem_cons_of_mem _ late))

theorem minds_newDescent {root : Node G C F}
    (same : root.board.barred task.visited = barred) (action : Nat) :
    (newDescent task.visited root action).Minds barred := by
  intro player
  rw [← same]
  exact Finset.Subset.refl _

variable [Scalar F] [DecidableEq G]

theorem WaveStep.guarded {work : Option (SearchWork G C F)} (guarded : WaveGuarded barred task wave)
    (step : WaveStep task wave work final last) :
    WaveGuarded barred final last := by
  have member {before after : List (WaveSimulationState G C F)} {state : WaveSimulationState G C F}
      (split : wave.active = before ++ state :: after) :
      state.Minds barred :=
    guarded.active state (split ▸ mem_append_right _ mem_cons_self)
  cases step with
  | launch idle found =>
    refine ⟨guarded.tree, fun state launched => ?_⟩
    obtain ⟨action, rfl⟩ := active_launchWave idle launched
    obtain ⟨root, head, same, _⟩ := guarded.tree.root
    rw [← head?_eq_getElem?, head] at found
    cases found
    exact minds_newDescent same action
  | advance split advances =>
    exact guarded.replace split (advances.guarded guarded.tree (member split))
  | @install _ _ _ _ ready _ split held applies =>
    have forgot : (task.forget ready.applied.after).Guarded barred :=
      ⟨guarded.tree.strict, guarded.tree.placed, guarded.tree.root⟩
    exact guarded.replace split (applies.guarded forgot (member split))
  | discard split held =>
    refine ⟨⟨guarded.tree.strict, guarded.tree.placed,
      guarded.tree.root⟩, fun state remains => guarded.active state ?_⟩
    rw [split]
    rcases mem_append.mp remains with early | late
    · exact mem_append_left _ early
    · exact mem_append_right _ (mem_cons_of_mem _ late)
  | resolved => exact ⟨guarded.tree, guarded.active⟩
  | settle ended counted =>
    exact ⟨guarded.tree.alikeTree (alikeTree_of_backupAll counted),
      fun _ remains => by cases remains⟩

theorem WaveRuns.guarded (guarded : WaveGuarded barred task wave)
    (runs : WaveRuns task wave final last) :
    WaveGuarded barred final last :=
  runs.keeps (WaveGuarded barred) (fun _ _ _ _ inside step => step.guarded inside) guarded

theorem Hands.guarded {work} (guarded : WaveGuarded barred task wave)
    (hands : Hands task wave (some work) final last) :
    WaveGuarded barred final last := by
  obtain ⟨mid, between, runs, step⟩ := hands
  exact step.guarded (runs.guarded guarded)

end Waves

/-! ## Root tasks -/

/-- A rewrite leads to a context that its player has not been in. -/
def SymmetricRootResult.Fresh (visited : PerPlayer (Finset ReplayGraphContext)) :
    SymmetricRootResult G C F → Prop
  | .action result => result.step.action.isStop = false →
      result.selectedAfterContext ∉ visited.of result.player ∧
        result.selectedAfterContext ≠ result.step.stepRef.before
  | .pass _ _ => True

/-- A root task does not go back to where its players have been. -/
structure RootTask.Wary (task : RootTask G C F) : Prop where
  strict : task.config.noBacktrack = true
  running : ∀ wave, task.state = .waveRunning wave → ∃ barred, WaveGuarded barred task wave
  result : ∀ result, task.state = .doneResult result → result.Fresh task.visited

/-- What follows from polling such a task. -/
def WaryAfter (task : RootTask G C F) :
    SearchPoll G C F (SymmetricRootResult G C F) → RootTask G C F → Prop
  | .work _, final | .blocked, final =>
    final.Wary ∧ final.visited = task.visited ∧ final.config = task.config
  | .done result, final => result.Fresh task.visited ∧
      final.config = task.config ∧
        ∀ tree, final.reused = some tree → ∀ node ∈ tree.nodes, node.Placed

section Roots

variable {barred : PerPlayer (Finset ReplayGraphContext)} {task final : RootTask G C F}

theorem RootTask.Wary.takeReleasable (wary : task.Wary) : task.takeReleasable.2.Wary := by
  refine ⟨wary.strict, fun wave state => ?_, wary.result⟩
  obtain ⟨barred, guarded⟩ := wary.running wave state
  exact ⟨barred, ⟨guarded.tree.strict, guarded.tree.placed, guarded.tree.root⟩, guarded.active⟩

theorem WaveGuarded.wary {wave} (guarded : WaveGuarded barred task wave) :
    { task with state := .waveRunning wave }.Wary := by
  refine ⟨guarded.tree.strict, fun other state => ?_, fun _ state => ?_⟩
  · cases state
    exact ⟨barred, ⟨guarded.tree.strict, guarded.tree.placed, guarded.tree.root⟩, guarded.active⟩
  · cases state

variable [Scalar F]

variable {run : Run F}

theorem isMasked_of_selectRoot {config} {root : Node G C F} {selected}
    (chosen : selectRoot config root run = some selected) :
    root.isMasked selected = false := by
  have member := mem_of_maxBy chosen
  split at member
  · have opened := (mem_filter.mp member).2
    simpa using opened
  · have opened := (mem_filter.mp member).2
    simpa using opened

variable [DecidableEq G] [DecidableEq C]

variable {expected : Board G}

omit [Scalar F] in
theorem Carries.config_eq (carries : Carries task expected final) : final.config = task.config := by
  cases carries with
  | nothing | subtree => rfl

omit [Scalar F] [DecidableEq C] in
theorem Transfers.config_eq {selected} (transfers : Transfers task selected final) :
    final.config = task.config := by
  cases transfers with
  | reused | created => rfl

omit [Scalar F] in
theorem Carries.placed (placed : ∀ node ∈ task.nodes, node.Placed) (unused : task.reused = none)
    (carries : Carries task expected final) :
    ∀ tree, final.reused = some tree → ∀ node ∈ tree.nodes, node.Placed := by
  cases carries with
  | nothing =>
    intro tree carried
    cases unused.symm.trans carried
  | subtree _ source member head same board =>
    intro tree carried node kept
    cases carried
    obtain ⟨old, oldMember, alike⟩ := source node kept
    exact (placed old oldMember).alike alike

omit [Scalar F] [DecidableEq C] in
theorem Transfers.placed {selected} (placed : ∀ tree, task.reused = some tree →
      ∀ node ∈ tree.nodes, node.Placed) (transfers : Transfers task selected final) :
    ∀ tree, final.reused = some tree → ∀ node ∈ tree.nodes, node.Placed := by
  cases transfers with
  | reused carried held =>
    intro tree same
    cases same
    exact fun node member => placed _ carried node member
  | created held => exact placed

theorem Finishes.wary {result} (guarded : task.Guarded barred) (unused : task.reused = none)
    (finishes : Finishes task run result final) :
    WaryAfter task (.done result) final := by
  cases finishes with
  | pass rootFound none =>
    refine ⟨trivial, rfl, fun tree carried => ?_⟩
    cases unused.symm.trans carried
  | @action root selected move step carried given rootFound chosen moved
      finished carries transfers =>
      have kept := carries.placed guarded.placed unused
      have config := carries.config_eq
      have same : step.action.isStop = root.isStop selected := by
        rw [action_of_finishedStep finished]
        exact isStop_of_selectedMove moved
      refine ⟨fun goes => ?_, ?_, ?_⟩
      · rw [same] at goes
        rcases selectedMove_eq_ok moved with ⟨stops, _⟩ | ⟨_, edge, edgeFound, _, applied⟩
        · cases goes.symm.trans stops
        obtain ⟨head, headFound, bars, clear⟩ := guarded.root
        cases rootFound.symm.trans headFound
        have open_ := clear selected edge _ edgeFound applied (isMasked_of_selectRoot chosen)
        rw [← bars, Board.barred_of, mem_withContext, not_or,
          (guarded.placed root (mem_of_mem_head? rootFound)).context]
          at open_
        refine ⟨open_.1, fun back => open_.2 (congrArg some ?_)⟩
        rw [(finishedStep_eq_ok finished).2.2.1] at back
        exact back.symm
      · split at transfers
        · rw [transfers]
          exact config
        · exact transfers.config_eq.trans config
      · change ∀ tree, given.reused = some tree → _
        split at transfers
        · rw [transfers]
          exact kept
        · exact transfers.placed kept

theorem Polls.wary {stand fuel polled} (searches : task.Searches stand) (wary : task.Wary)
    (polls : Polls fuel task polled final) : WaryAfter task polled final := by
  cases polls with
  | blocked waits => exact ⟨wary, rfl, rfl⟩
  | resolve idle state turn | eval idle state asked =>
    exact ⟨⟨wary.strict, fun _ state => (by cases state),
      fun _ state => (by cases state)⟩, rfl, rfl⟩
  | @wave wave _ _ idle state ends =>
    obtain ⟨barred, guarded⟩ := wary.running wave state
    have begun : WaveGuarded barred { task with state := .done } wave :=
      ⟨⟨guarded.tree.strict, guarded.tree.placed, guarded.tree.root⟩, guarded.active⟩
    cases ends with
    | work hands =>
      have same := hands.setting_eq
      exact ⟨(hands.guarded begun).wary, (congrArg RootTask.visited same :),
        (congrArg RootTask.config same :)⟩
    | blocked runs waits =>
      have same := runs.setting_eq
      exact ⟨(runs.guarded begun).wary, (congrArg RootTask.visited same :),
        (congrArg RootTask.config same :)⟩
    | @finished mid _ _ _ runs ended finish =>
      obtain ⟨result, rfl, finishes⟩ := finishes_of_finishRoot finish
      have same := runs.setting_eq
      have visited : mid.visited = task.visited := (congrArg RootTask.visited same :)
      have config : mid.config = task.config := (congrArg RootTask.config same :)
      have unused : mid.reused = none :=
        (congrArg RootTask.reused same :).trans searches.phased.unused
      have after := finishes.wary (runs.guarded begun).tree unused
      exact ⟨visited ▸ after.1, after.2.1.trans config, after.2.2⟩
  | result idle state =>
    refine ⟨wary.result _ state, rfl, fun tree carried => ?_⟩
    cases searches.phased.unused.symm.trans carried

omit [DecidableEq C] in
theorem Resumes.wary {stand token result} (searches : task.Searches stand) (wary : task.Wary)
    (resumes : Resumes task token result final) :
    final.Wary ∧ final.visited = task.visited ∧ final.config = task.config := by
  cases resumes with
  | wave running split waits receives =>
    obtain ⟨barred, guarded⟩ := wary.running _ running
    have minds := guarded.active _ (split ▸ mem_append_right _ mem_cons_self)
    have stepped := receives.guarded guarded.tree minds
    have same := receives.setting_eq
    exact ⟨(guarded.replace split stepped).wary, (congrArg RootTask.visited same :),
      (congrArg RootTask.config same :)⟩
  | pass pending known empty =>
    refine ⟨⟨wary.strict, fun _ state => (by cases state),
      fun _ state => ?_⟩, rfl, rfl⟩
    cases state
    trivial
  | expand pending known offered =>
    exact ⟨⟨wary.strict, fun _ state => (by cases state),
      fun _ state => (by cases state)⟩, rfl, rfl⟩
  | @eval board expansion request output run pending valid started =>
    have empty : task.nodes = [] := searches.phased.opening (.inl (pending ▸ rfl))
    have placed : (newNode task.config board expansion output).Placed :=
      placed_newNode (searches.evaluate _ _ _ _ pending).current
    have nodes : (task.evaluatedRoot (newNode task.config board expansion output)).nodes =
          [newNode task.config board expansion output] := by
      unfold RootTask.evaluatedRoot RootTask.grow
      rw [empty]
      rfl
    have guarded : WaveGuarded (board.barred task.visited)
        (task.evaluatedRoot (newNode task.config board expansion output))
        (.start run) := by
      refine ⟨⟨wary.strict, fun node member => ?_, ?_⟩, fun _ member => by cases member⟩
      · rw [nodes] at member
        rw [mem_singleton.mp member]
        exact placed
      · refine ⟨newNode task.config board expansion output, ?_, rfl, clear_newNode⟩
        rw [nodes]
        rfl
    exact ⟨guarded.wary, rfl, rfl⟩

omit [DecidableEq G] [DecidableEq C] in
theorem Reuses.wary {left reused visited} (strict : task.config.noBacktrack = true)
    (placed : ∀ tree, task.reused = some tree → ∀ node ∈ tree.nodes, node.Placed)
    (reuses : Reuses task visited (some reused) left) :
    reused.Wary ∧ reused.visited = visited ∧ reused.config = task.config := by
  cases reuses with
  | @subtree tree root run carried head started =>
    have placed := placed tree carried
    have whole : reusedTask task visited tree root =
        { reusedTask task visited tree root with
          config := task.config
          visited := visited
          nodes := tree.nodes.map (refreshNode visited root.board.contexts) } := by
      unfold reusedTask refreshReusedNoBacktrackMasks
      rw [if_pos strict, head]
    rw [whole]
    have guarded : WaveGuarded (root.board.barred visited)
        { reusedTask task visited tree root with
          config := task.config
          visited := visited
          nodes := tree.nodes.map (refreshNode visited root.board.contexts) } (.start run) := by
      refine ⟨⟨strict, fun node member => ?_, ?_⟩, fun _ member => by cases member⟩
      · obtain ⟨old, oldMember, rfl⟩ := mem_map.mp member
        exact (placed old oldMember).refreshNode
      · refine ⟨refreshNode visited root.board.contexts root, ?_, rfl,
          clear_refreshNode (placed root (mem_of_mem_head? head))⟩
        rw [head?_map, head]
        rfl
    exact ⟨guarded.wary, rfl, rfl⟩

omit [Scalar F] [DecidableEq C] in
theorem Aligns.wary {contexts} (wary : task.Wary) (state : task.state = .waveRunning (.start run))
    (aligns : Aligns task expected contexts final) :
    final.Wary ∧ final.visited = task.visited ∧ final.config = task.config := by
  cases aligns with
  | @aligned root _ head board agrees known =>
    obtain ⟨barred, guarded⟩ := wary.running _ state
    obtain ⟨same, sameFound, bars, clear⟩ := guarded.tree.root
    cases head.symm.trans sameFound
    have placed := guarded.tree.placed root (mem_of_mem_head? head)
    have found : task.nodes[0]? = some root := head?_eq_getElem?.symm.trans head
    refine ⟨⟨wary.strict, fun wave running => ?_, fun _ result => ?_⟩, rfl, rfl⟩
    · cases state.symm.trans running
      refine ⟨Board.barred { root.board with contexts } task.visited,
        ⟨wary.strict, ?_, ?_⟩, fun _ member => by cases member⟩
      · exact RootTask.forall_setNode guarded.tree.placed ⟨known, placed.masked⟩
      refine ⟨{ root with board := { root.board with contexts } }, ?_, rfl, ?_⟩
      · change (task.nodes.set 0 _).head? = _
        rw [head?_eq_getElem?, getElem?_set_self', found]
        rfl
      · intro action edge context edgeFound applied opened
        have here := clear action edge context edgeFound applied opened
        rw [← bars, Board.barred_of, placed.context] at here
        rw [Board.barred_of]
        rw [known]
        exact here
    · cases state.symm.trans result

end Roots

end GraphZero.Search
