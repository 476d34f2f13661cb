import GraphZero.Search.MctsRoot

/-!
# The moves of a single-agent search

Whatever the host does with a root task, its tree and the simulation under way
change in one of a few ways.  Each invariant of the search is derived from
these and not from the functions.
-/

namespace GraphZero.Search

open Engine Foundation Effect

variable {R G C F : Type}

/-! ## Where a search stands -/

inductive MctsPhase (R G : Type) where
  | opening
  | searching (run : RunState R)
  | applying (run : RunState R) (action : Nat)
  | expanding (graph : G) (run : RunState R)
  | ended

structure MctsStand (R G C F : Type) where
  tree : MctsTree G C F
  phase : MctsPhase R G

/-- An expansion is for the root unless it is for a run. -/
def MctsPhase.ofExpansion (graph : G) : Option (RunState R) → MctsPhase R G
  | none => opening
  | some run => expanding graph run

def PendingRootWork.phase : PendingRootWork R G C F → MctsPhase R G
  | expandNode _ graph _ _ run => .ofExpansion graph run
  | evalNode _ expansion run _ => .ofExpansion expansion.graph run
  | apply _ run action => .applying run action

def MctsRootState.phase : MctsRootState R G C F → MctsPhase R G
  | emitNodeExpand graph _ _ run => .ofExpansion graph run
  | emitNodeEval expansion run => .ofExpansion expansion.graph run
  | running run => .searching run
  | done => .ended

def MctsRootTask.phase (task : MctsRootTask R G C F) : MctsPhase R G :=
  match task.pending with
  | some pending => pending.phase
  | none => task.state.phase

def MctsRootTask.stand (task : MctsRootTask R G C F) : MctsStand R G C F :=
  ⟨task.tree, task.phase⟩

section Moves

variable [Scalar F]

def MctsNode.Evaluated (node : MctsNode G C F) : Prop :=
  ∃ (graph : G) (context : ReplayGraphContext)
    (candidates : List (CandidateEntry C F)) (output : EvalOutput F)
    (maskStop terminal : Bool),
    output.policyLogits.length = candidates.length + 1 ∧
      node = .new graph context candidates output maskStop terminal

/-- An action leads to `child` from now on. -/
def MctsNode.setChild (node : MctsNode G C F) (action child : Nat) : MctsNode G C F :=
  node.modify action fun stats => { stats with child := some child }

namespace MctsTree

def append (tree : MctsTree G C F) (leaf : MctsNode G C F) : MctsTree G C F :=
  { tree with
    evalCount := tree.evalCount + 1
    nodes := tree.nodes ++ [leaf] }

def setChild (tree : MctsTree G C F) (edge : MctsEdge) (child : Nat) : MctsTree G C F :=
  tree.modifyNode edge.nodeIndex fun node =>
    node.setChild edge.action child

def attach (tree : MctsTree G C F) (edge : MctsEdge) (leaf : MctsNode G C F) : MctsTree G C F :=
  (tree.append leaf).setChild edge tree.nodes.length

end MctsTree

/-- The descent after `action` at the node where it is. -/
def DescentState.take (descent : DescentState) (action : Nat) : DescentState :=
  { descent with path := descent.path ++ [⟨descent.nodeIndex, action⟩] }

/-- The descent at the child that its last action led to. -/
def DescentState.enter (descent : DescentState) (child : Nat)
    (context : ReplayGraphContext) : DescentState :=
  { descent with
    seen := insert context descent.seen
    nodeIndex := child
    depth := descent.depth + 1 }

/-- A descent at the root, where `action` is to be taken. -/
def DescentState.first (root : MctsNode G C F) (action : Nat) :
    DescentState :=
  ⟨0, 0, [], {root.context}, some action⟩

/-- An applied action may be turned back, or lead to a new graph. -/
inductive MctsMove (G : Type) where
  | onward
  | turnBack (nodeIndex : Nat)
  | leave (graph : G)

inductive Searches (strategy : MctsStrategy R G C F) :
    MctsMove G → MctsStand R G C F → MctsStand R G C F → Prop
  | begin {tree run root action} (idle : run.descent = none) (found : tree.nodes[0]? = some root)
    (chosen : strategy.selectRoot run.strategy root run.simulations = .ok (some action)) :
    Searches strategy .onward ⟨tree, .searching run⟩
      ⟨tree, .searching (run.withDescent (.first root action))⟩
  | stop {tree run descent node action} (under : run.descent = some descent)
    (found : tree.nodes[descent.nodeIndex]? = some node)
    (chosen : MctsRootTask.descentAction strategy run descent node = .ok action)
    (stops : node.isStop action = true) :
    Searches strategy .onward ⟨tree, .searching run⟩
      ⟨tree.backup (descent.take action).path node.value, .searching run.completeSimulation⟩
  | apply {tree run descent node action candidate} (under : run.descent = some descent)
    (found : tree.nodes[descent.nodeIndex]? = some node)
    (chosen : MctsRootTask.descentAction strategy run descent node = .ok action)
    (offered : node.candidates[action]? = some candidate) :
    Searches strategy .onward ⟨tree, .searching run⟩ ⟨tree, .applying
        (run.withDescent { descent with forced := none }) action⟩
  | turnBack {tree run descent action} (under : run.descent = some descent) :
    Searches strategy (.turnBack descent.nodeIndex) ⟨tree, .applying run action⟩
      ⟨tree.maskAction descent.nodeIndex action, .searching run⟩
  | enter {tree run descent node child action childIndex stats} (under : run.descent = some descent)
    (found : tree.nodes[descent.nodeIndex]? = some node)
    (known : node.actions[action]? = some stats) (leads : stats.child = some childIndex)
    (childFound : tree.nodes[childIndex]? = some child) :
    Searches strategy .onward ⟨tree, .applying run action⟩ ⟨tree, .searching (run.withDescent
        ((descent.take action).enter childIndex child.context))⟩
  | revisit {tree run descent node child action childIndex stats}
    (under : run.descent = some descent) (found : tree.nodes[descent.nodeIndex]? = some node)
    (known : node.actions[action]? = some stats) (leads : stats.child = some childIndex)
    (childFound : tree.nodes[childIndex]? = some child) :
    Searches strategy .onward ⟨tree, .applying run action⟩
      ⟨tree.backup (descent.take action).path child.value, .searching run.completeSimulation⟩
  | leave {tree run descent node action stats} (under : run.descent = some descent)
    (found : tree.nodes[descent.nodeIndex]? = some node)
    (known : node.actions[action]? = some stats) (vacant : stats.child = none) (graph : G) :
    Searches strategy (.leave graph) ⟨tree, .applying run action⟩
      ⟨tree, .expanding graph (run.withDescent (descent.take action))⟩
  | attach {tree run descent edge leaf} (under : run.descent = some descent)
    (last : descent.path.getLast? = some edge) (evaluated : leaf.Evaluated) :
    Searches strategy .onward ⟨tree, .expanding leaf.graph run⟩
      ⟨(tree.attach edge leaf).backup descent.path leaf.value, .searching run.completeSimulation⟩

def SearchesTo (strategy : MctsStrategy R G C F) : MctsStand R G C F → MctsStand R G C F → Prop :=
  Relation.ReflTransGen (Searches strategy .onward)

end Moves

/-! ## Computations -/

/-- A failure that does not depend on how long a loop may run, if a
condition is met. -/
def Settled (condition : Prop) (failure : SearchFailure F) (_ : MctsRootTask R G C F) : Prop :=
  condition → failure ≠ .unfinished

/-- A strategy that fails only for good, and that ends the search of a root
within `limit` simulations. -/
structure MctsStrategy.Bounded (strategy : MctsStrategy R G C F) (limit : R → Nat) : Prop where
  limited : ∀ state root simulations action,
    strategy.selectRoot state root simulations = .ok (some action) → simulations < limit state
  selectRoot : ∀ state root simulations,
    strategy.selectRoot state root simulations ≠ .error .unfinished
  selectNonroot : ∀ state node,
    strategy.selectNonroot state node ≠ .error .unfinished
  finishRoot : ∀ state root context,
    strategy.finishRoot state root context ≠ .error .unfinished

/-- The part of a task that polling does not change. -/
structure MctsRootTask.Fixed (R G C F : Type) where
  config : MctsConfig
  identity : EngineIdentity
  root : G
  context : MctsSearchContext F
  rootContext : Option ReplayGraphContext
  visited : Finset ReplayGraphContext

def MctsRootTask.fixed (task : MctsRootTask R G C F) : Fixed R G C F :=
  ⟨task.config, task.identity, task.root, task.context, task.rootContext, task.visited⟩

/-- A task asks for the evaluation of all actions of a node. -/
structure MctsRootTask.Asks (task : MctsRootTask R G C F) : Prop where
  emits : ∀ expansion run, task.state = .emitNodeEval expansion run →
    expansion.evalActions.length = expansion.candidates.length + 1
  awaits : ∀ token expansion run request,
    task.pending = some (.evalNode token expansion run request) →
      request.actions.length = expansion.candidates.length + 1

namespace MctsRootTask

section Computations

variable {α : Type} {task : MctsRootTask R G C F} {condition : Prop}
  {succeeds : α → MctsRootTask R G C F → Prop}

theorem endsAt_ofExcept {result fails} (ended : ∀ value, result = .ok value → succeeds value task)
    (failed : ∀ failure, result = .error failure → fails failure task) :
    (MonadExcept.ofExcept result : MctsRootEffect R G C F α).EndsAt succeeds fails task := by
  cases result with
  | ok value => exact ended value rfl
  | error failure => exact failed failure rfl

theorem endsAt_ofExcept_bind {β : Type} {result} {rest : β → MctsRootEffect R G C F α} {fails}
    (ended : ∀ value, result = .ok value → (rest value).EndsAt succeeds fails task)
    (failed : ∀ failure, result = .error failure → fails failure task) :
    (MonadExcept.ofExcept result >>= rest).EndsAt succeeds fails task := by
  cases result with
  | ok value => exact ended value rfl
  | error failure => exact failed failure rfl

theorem endsAt_failRoot (message : String) :
    (failRoot message : MctsRootEffect R G C F α).EndsAt succeeds (Settled condition) task :=
  endsAt_throw fun _ => nofun

theorem endsAt_treeNode (index : Nat) : (treeNode index).EndsAt
      (fun node next => task.tree.nodes[index]? = some node ∧ next = task)
      (Settled condition) task := by
  refine endsAt_get_bind ?_
  cases found : task.tree.nodes[index]? with
  | none => exact endsAt_throw fun _ => nofun
  | some node => exact endsAt_pure ⟨rfl, rfl⟩

theorem endsAt_runDescent (run : RunState R) : (runDescent run).EndsAt
      (fun descent next => run.descent = some descent ∧ next = task)
      (Settled condition) task := by
  unfold runDescent
  cases run.descent with
  | none => exact endsAt_failRoot _
  | some descent => exact endsAt_pure ⟨rfl, rfl⟩

end Computations

section Polling

variable [Scalar F] {strategy : MctsStrategy R G C F} {limit : R → Nat}
  {task : MctsRootTask R G C F} {condition : Prop}

/-- A round of the loop from a run: the run after a simulation, or a task
that waits for its work. -/
def AfterRound (strategy : MctsStrategy R G C F) (task : MctsRootTask R G C F) (run : RunState R) :
    RunState R ⊕ SearchWork G C F → MctsRootTask R G C F → Prop
  | .inl next, final =>
    SearchesTo strategy ⟨task.tree, .searching run⟩ ⟨final.tree, .searching next⟩ ∧
      next.strategy = run.strategy ∧ next.descent = none ∧
        next.simulations = run.simulations + 1 ∧ final = { task with tree := final.tree }
  | .inr _, final =>
    SearchesTo strategy ⟨task.tree, .searching run⟩ final.stand ∧
      final.state = task.state ∧ final.fixed = task.fixed ∧
        ∃ token run action, final.pending = some (.apply token run action)

theorem endsAt_pollDescent (settles : condition → strategy.Bounded limit) (run : RunState R) :
    (pollDescent strategy run).EndsAt (AfterRound strategy task run) (Settled condition) task := by
  refine EndsAt.bind (endsAt_runDescent run) ?_
  rintro descent _ ⟨under, rfl⟩
  refine EndsAt.bind (endsAt_treeNode descent.nodeIndex) ?_
  rintro node _ ⟨found, rfl⟩
  refine endsAt_ofExcept_bind (fun action chosen => ?_) ?_
  · dsimp only
    split
    · next stops =>
      exact ⟨.single (.stop under found chosen stops), rfl, rfl, rfl, rfl⟩
    split
    · exact endsAt_throw fun _ => nofun
    · next candidate offered =>
      exact ⟨.single (.apply under found chosen offered), rfl, rfl, _, _, _, rfl⟩
  · intro failure failed
    unfold descentAction at failed
    split at failed
    · cases failed
    · rintro met rfl
      exact (settles met).selectNonroot _ _ failed

/-- The strategy ends the search of the root; `result` is what it found. -/
structure Finishes (strategy : MctsStrategy R G C F)
    (final : MctsRootTask R G C F) (run : RunState R) (root : MctsNode G C F)
    (chosen : StrategyRootResult F) (result : MctsRootResult G C F) :
    Prop where
  idle : run.descent = none
  found : final.tree.nodes[0]? = some root
  ends : strategy.selectRoot run.strategy root run.simulations = .ok none
  elected : strategy.finishRoot run.strategy root final.context = .ok chosen
  result : final.rootResult run root chosen = .ok result

def Polled (strategy : MctsStrategy R G C F) (task : MctsRootTask R G C F) :
    SearchPoll G C F (MctsRootResult G C F) → MctsRootTask R G C F → Prop
  | .work _, final =>
    SearchesTo strategy task.stand final.stand ∧ final.Asks ∧ final.fixed = task.fixed
  | .blocked, final => final = task
  | .done result, final =>
    final.fixed = task.fixed ∧ final.stand = ⟨final.tree, .ended⟩ ∧ ∃ run root chosen,
        SearchesTo strategy task.stand ⟨final.tree, .searching run⟩ ∧
          Finishes strategy final run root chosen result

omit [Scalar F] in
theorem bind_ne_unfinished {α β : Type} {first} {rest : α → Except (SearchFailure F) β}
    (head : first ≠ .error .unfinished) (tail : ∀ value, rest value ≠ .error .unfinished) :
    (first >>= rest) ≠ .error .unfinished := by
  cases first with
  | error failure => exact fun same => head (congrArg _ (Except.error.inj same))
  | ok value => exact tail value

omit [Scalar F] in
theorem selectedNode_ne_unfinished (tree : MctsTree G C F) (node : MctsNode G C F) (action : Nat) :
    tree.selectedNode node action ≠ .error .unfinished := by
  unfold MctsTree.selectedNode
  split
  · nofun
  split
  · nofun
  · nofun
  · split
    · nofun
    · nofun

omit [Scalar F] in
theorem rootResult_ne_unfinished (run : RunState R) (root : MctsNode G C F)
    (chosen : StrategyRootResult F) :
    task.rootResult run root chosen ≠ .error .unfinished := by
  have selected := selectedNode_ne_unfinished task.tree root chosen.selected
  have ends {value : MctsRootResult G C F} : (Except.ok value : Except (SearchFailure F) _) ≠
        .error .unfinished := by rintro ⟨⟩
  refine bind_ne_unfinished ?_ fun _ => ?_
  · exact bind_ne_unfinished selected fun _ => by rintro ⟨⟩
  refine bind_ne_unfinished ?_ fun _ => bind_ne_unfinished ?_ fun _ => ?_
  · exact bind_ne_unfinished selected fun _ => by rintro ⟨⟩
  · unfold MctsNode.searchAction
    split
    · rintro ⟨⟩
    · split <;> rintro ⟨⟩
  split
  · rintro ⟨⟩
  refine bind_ne_unfinished ?_ fun _ => bind_ne_unfinished ?_ fun _ => ends
  · unfold MctsNode.actionRef
    split
    · rintro ⟨⟩
    · split <;> rintro ⟨⟩
  · unfold MctsNode.summaryAt
    split
    · rintro ⟨⟩
    · split <;> rintro ⟨⟩

/-- Where the loop is: the task only waits for the loop to end. -/
def Looping (strategy : MctsStrategy R G C F) (task : MctsRootTask R G C F)
    (first run : RunState R) (mid : MctsRootTask R G C F) : Prop :=
  SearchesTo strategy ⟨task.tree, .searching first⟩ ⟨mid.tree, .searching run⟩ ∧
    run.strategy = first.strategy ∧ mid.pending = none ∧
      mid.state = .done ∧ mid.fixed = task.fixed

/-- The rounds that a run may still take. -/
def roundsLeft (limit : R → Nat) (run : RunState R) : Nat :=
  (limit run.strategy + 1 - run.simulations) + if run.descent.isSome then 1 else 0

omit [Scalar F] in
theorem endsAt_startDescent (settles : condition → strategy.Bounded limit) (run : RunState R) :
    (startDescent strategy run).EndsAt (fun started next => next = task ∧ ∃ root,
        task.tree.nodes[0]? = some root ∧ match started with
          | none => strategy.selectRoot run.strategy root run.simulations = .ok none
          | some begun => ∃ action,
              begun = run.withDescent (.first root action) ∧
                strategy.selectRoot run.strategy root run.simulations = .ok (some action))
      (Settled condition) task := by
  refine EndsAt.bind (endsAt_treeNode 0) ?_
  rintro root _ ⟨found, rfl⟩
  refine endsAt_ofExcept_bind ?_ ?_
  · rintro (_ | action) chosen
    · exact ⟨rfl, root, found, chosen⟩
    · exact ⟨rfl, root, found, action, rfl, chosen⟩
  · rintro _ failed met rfl
    exact (settles met).selectRoot _ _ _ failed

omit [Scalar F] in
theorem endsAt_finishRoot (settles : condition → strategy.Bounded limit) (run : RunState R)
    (idle : run.descent = none) {root} (found : task.tree.nodes[0]? = some root)
    (ends : strategy.selectRoot run.strategy root run.simulations = .ok none) :
    (finishRoot strategy run).EndsAt (fun result next => next = task ∧
        ∃ chosen, Finishes strategy task run root chosen result)
      (Settled condition) task := by
  refine endsAt_get_bind ?_
  refine EndsAt.bind (endsAt_treeNode 0) ?_
  rintro other next ⟨same, unchanged⟩
  obtain rfl : root = other := Option.some.inj (found.symm.trans same)
  subst unchanged
  refine endsAt_ofExcept_bind (fun chosen elected => ?_) ?_
  · refine endsAt_ofExcept (fun result done => ?_) ?_
    · exact ⟨rfl, chosen, idle, found, ends, elected, done⟩
    · rintro _ failed _ rfl
      exact rootResult_ne_unfinished _ _ _ failed
  · rintro _ failed met rfl
    exact (settles met).finishRoot _ _ _ failed

/-- The loop goes on after a simulation and ends with work or a result. -/
def RoundOf (condition : Prop) (strategy : MctsStrategy R G C F)
    (limit : R → Nat) (task : MctsRootTask R G C F) (first run : RunState R) :
    RunState R ⊕ SearchPoll G C F (MctsRootResult G C F) → MctsRootTask R G C F → Prop :=
  Rounds (fun next final => Looping strategy task first next final ∧
      (condition → roundsLeft limit next < roundsLeft limit run))
    (fun polled final =>
      match polled with
      | .work _ =>
        SearchesTo strategy ⟨task.tree, .searching first⟩ final.stand ∧
          final.Asks ∧ final.fixed = task.fixed
      | .blocked => False
      | .done result =>
        final.fixed = task.fixed ∧ final.stand = ⟨final.tree, .ended⟩ ∧ ∃ run root chosen,
            SearchesTo strategy ⟨task.tree, .searching first⟩ ⟨final.tree, .searching run⟩ ∧
              Finishes strategy final run root chosen result)

theorem endsAt_descending (settles : condition → strategy.Bounded limit) {first run begun mid}
    (looping : Looping strategy task first run mid)
    (begins : SearchesTo strategy ⟨mid.tree, .searching run⟩ ⟨mid.tree, .searching begun⟩)
    (same : begun.strategy = run.strategy ∧ begun.simulations = run.simulations)
    (goes : condition → run.descent.isSome ∨ run.simulations < limit run.strategy) :
    (do
      match ← pollDescent strategy begun with
      | .inl next => pure (.inl next)
      | .inr work => pure (.inr (.work work)) : MctsRootEffect R G C F
        (RunState R ⊕ SearchPoll G C F (MctsRootResult G C F))).EndsAt
      (RoundOf condition strategy limit task first run)
      (Settled condition) mid := by
  obtain ⟨reached, kept, idle, state, fixed⟩ := looping
  refine EndsAt.bind (endsAt_pollDescent settles begun) ?_
  rintro (next | work) final after
  · obtain ⟨moves, strategyKept, ended, counted, whole⟩ := after
    refine ⟨⟨(reached.trans begins).trans moves, ?_, ?_, ?_, ?_⟩, ?_⟩
    · exact strategyKept.trans (same.1.trans kept)
    · exact (congrArg MctsRootTask.pending whole).trans idle
    · exact (congrArg MctsRootTask.state whole).trans state
    · exact (congrArg MctsRootTask.fixed whole).trans fixed
    · intro met
      unfold roundsLeft
      rw [ended, strategyKept, counted, same.1, same.2]
      rcases goes met with under | early
      · rw [if_pos under]
        simp
        omega
      · simp
        omega
  · obtain ⟨moves, kept, fixedKept, token, later, action, pending⟩ := after
    refine ⟨(reached.trans begins).trans moves, ⟨?_, ?_⟩, fixedKept.trans fixed⟩
    · intro expansion run emits
      cases (emits.symm.trans kept).trans state
    · intro token expansion run request waits
      cases waits.symm.trans pending

theorem endsAt_runningRound (settles : condition → strategy.Bounded limit) {first run middle}
    (looping : Looping strategy task first run middle) :
    (runningRound strategy run).EndsAt
      (RoundOf condition strategy limit task first run) (Settled condition)
      middle := by
  unfold runningRound
  cases under : run.descent with
  | some descent =>
    exact endsAt_descending settles looping .refl ⟨rfl, rfl⟩ fun _ => .inl (under ▸ rfl)
  | none =>
    refine EndsAt.bind (endsAt_startDescent settles run) ?_
    rintro (_ | begun) _ ⟨rfl, root, found, chosen⟩
    · refine EndsAt.bind (endsAt_finishRoot settles run under found chosen) ?_
      rintro result _ ⟨rfl, elected, finishes⟩
      obtain ⟨reached, kept, idle, state, fixed⟩ := looping
      refine endsAt_pure ⟨fixed, ?_, run, root, elected, reached, finishes⟩
      unfold stand phase
      rw [idle, state]
      rfl
    · obtain ⟨action, rfl, chosen⟩ := chosen
      exact endsAt_descending settles looping (.single (.begin under found chosen)) ⟨rfl, rfl⟩
        fun met => .inr ((settles met).limited _ _ _ _ chosen)

theorem withPosition_actions {context actions position} {request : EvalRequest F}
    (asked : EvalRequest.withPosition context actions position =
      .ok request) : request.actions = actions := by
  unfold EvalRequest.withPosition at asked
  dsimp only at asked
  cases valid : EvalRequest.validateRef ⟨context, actions, position⟩ with
  | error error =>
    rw [valid] at asked
    cases asked
  | ok value =>
    rw [valid] at asked
    cases asked
    rfl

theorem endsAt_pollNodeEval {expansion run}
    (whole : expansion.evalActions.length = expansion.candidates.length + 1)
    (state : task.state = .done) :
    (pollNodeEval expansion run).EndsAt (fun polled final =>
        match polled with
        | .work _ =>
          final.stand = ⟨task.tree, .ofExpansion expansion.graph run⟩ ∧
            final.Asks ∧ final.fixed = task.fixed
        | _ => False)
      (Settled condition) task := by
  refine endsAt_get_bind ?_
  cases asked : EvalRequest.withPosition expansion.context
      expansion.evalActions (task.context.position expansion.depth) with
  | error error => exact endsAt_failRoot _
  | ok request =>
    refine ⟨rfl, ⟨?_, ?_⟩, rfl⟩
    · intro other run emits
      cases emits.symm.trans state
    · intro token other run waiting waits
      cases waits
      rw [withPosition_actions asked]
      exact whole

theorem endsAt_rounds (settles : condition → strategy.Bounded limit) {first}
    (idle : task.pending = none) (state : task.state = .done) {fuel}
    (enough : condition → limit first.strategy + 2 < fuel) :
    (Effect.loop .unfinished (runningRound strategy) fuel first).EndsAt (fun polled final =>
        RoundOf condition strategy limit task first first (.inr polled) final)
      (Settled condition) task := by
  have round (run : RunState R) (mid : MctsRootTask R G C F)
      (looping : Looping strategy task first run mid) :=
    endsAt_runningRound settles looping
  have begun : Looping strategy task first first task := ⟨.refl, rfl, idle, state, rfl⟩
  by_cases met : condition
  · refine endsAt_loop (Looping strategy task first)
      (fun later _ => roundsLeft limit later) (fun run mid looping => ?_)
      begun ?_
    · refine EndsAt.mono (round run mid looping) ?_ fun _ _ settled => settled
      rintro (next | polled) final after
      · exact ⟨after.1, after.2 met⟩
      · exact after
    · have := enough met
      unfold roundsLeft
      split <;> omega
  · refine endsAt_loop_of_cut (Looping strategy task first)
      (fun run mid looping => ?_) (fun _ _ _ holds => absurd holds met)
      begun
    refine EndsAt.mono (round run mid looping) ?_ fun _ _ settled => settled
    rintro (next | polled) final after
    · exact after.1
    · exact after

theorem endsAt_poll (settles : condition → strategy.Bounded limit) (asks : task.Asks) {fuel}
    (enough : condition → ∀ run, task.state = .running run → limit run.strategy + 2 < fuel) :
    (poll strategy fuel).EndsAt (Polled strategy task) (Settled condition) task := by
  refine endsAt_get_bind ?_
  cases idle : task.pending with
  | some pending => exact endsAt_pure rfl
  | none =>
    have phase : task.stand = ⟨task.tree, task.state.phase⟩ := by
      unfold stand MctsRootTask.phase
      rw [idle]
    refine endsAt_modify_bind ?_
    cases state : task.state with
    | emitNodeExpand graph expectedContext depth run =>
      refine ⟨?_, ⟨?_, ?_⟩, rfl⟩
      · rw [phase, state]
        exact .refl
      · intro expansion run emits
        cases emits
      · intro token expansion run request waits
        cases waits
    | emitNodeEval expansion run =>
      refine EndsAt.mono (endsAt_pollNodeEval (asks.emits _ _ state) rfl) ?_
        fun _ _ settled => settled
      rintro (work | _ | result) final polled
      · obtain ⟨same, asks, fixed⟩ := polled
        refine ⟨?_, asks, fixed⟩
        rw [phase, state, same]
        exact .refl
      · exact polled.elim
      · exact polled.elim
    | running run =>
      refine EndsAt.mono (@endsAt_rounds R G C F _ strategy limit
        { task with state := .done } condition settles run idle rfl fuel
        fun met => enough met run state) ?_ fun _ _ settled => settled
      rintro (work | _ | result) final polled
      · refine ⟨?_, polled.2⟩
        rw [phase, state]
        exact polled.1
      · exact polled.elim
      · obtain ⟨fixed, ended, last, root, chosen, reached, finishes⟩ := polled
        refine ⟨fixed, ended, last, root, chosen, ?_, finishes⟩
        rw [phase, state]
        exact reached
    | done => exact endsAt_failRoot _

end Polling

/-! ## Results that come in -/

section Resuming

variable [Scalar F] {strategy : MctsStrategy R G C F}
  {task : MctsRootTask R G C F} {condition : Prop}

/-- The result is that of an action at the root which the task does not
follow. -/
def turnsBackAtRoot (task : MctsRootTask R G C F) : SearchWorkResult G C F → Bool
  | .apply applied =>
    match task.pending with
    | some (.apply _ run _) =>
      run.descent.any (fun descent => decide (descent.nodeIndex = 0)) && (applied.rejected ||
          task.backtracks (task.identity.context applied.afterHash))
    | _ => false
  | _ => false

/-- What a result makes of a task: nothing, the root of its tree, or one
move. -/
inductive Resumed (strategy : MctsStrategy R G C F)
    (task : MctsRootTask R G C F) (result : SearchWorkResult G C F)
    (stand : MctsStand R G C F) : Prop
  | waits (same : stand = task.stand)
  | opens {root leaf} (phase : task.phase = .opening) (evaluated : leaf.Evaluated)
    (found : (task.tree.append leaf).nodes[0]? = some root)
    (stand : stand = ⟨task.tree.append leaf,
      .searching ⟨strategy.startRoot root task.context, 0, none⟩⟩)
  | moves {move} (moves : Searches strategy move task.stand stand)
    (root : move = .turnBack 0 → task.turnsBackAtRoot result = true)
    (created : ∀ graph, move = .leave graph →
      ∃ applied, result = .apply applied ∧ applied.after = graph)

/-- The search of the same move goes on where `good` says. -/
structure GoesOn (context : MctsSearchContext F)
    (good : MctsStand R G C F → Prop) (final : MctsRootTask R G C F) :
    Prop where
  asks : final.Asks
  context : final.context = context
  stand : good final.stand

variable {run : RunState R} {good : MctsStand R G C F → Prop}

omit [Scalar F] in
theorem endsAt_running (idle : task.pending = none) (holds : good ⟨task.tree, .searching run⟩) :
    (setMctsState (.running run)).EndsAt
      (fun _ final => GoesOn task.context good final) (Settled condition)
      task := by
  refine ⟨⟨?_, ?_⟩, rfl, ?_⟩
  · intro expansion other emits
    cases emits
  · intro token expansion other request waits
    cases waits.symm.trans idle
  · change good (MctsStand.mk task.tree (match task.pending with
      | some pending => pending.phase
      | none => .searching run))
    rw [idle]
    exact holds

omit [Scalar F] in
theorem endsAt_emitNodeExpand {graph expectedContext depth run} (idle : task.pending = none)
    (holds : good ⟨task.tree, .ofExpansion graph run⟩) :
    (setMctsState (.emitNodeExpand graph expectedContext depth run)).EndsAt
      (fun _ final => GoesOn task.context good final) (Settled condition)
      task := by
  refine ⟨⟨?_, ?_⟩, rfl, ?_⟩
  · intro expansion other emits
    cases emits
  · intro token expansion other request waits
    cases waits.symm.trans idle
  · change good (MctsStand.mk task.tree (match task.pending with
      | some pending => pending.phase
      | none => .ofExpansion graph run))
    rw [idle]
    exact holds

theorem endsAt_finished {path value} (idle : task.pending = none)
    (holds : good ⟨task.tree.backup path value, .searching run.completeSimulation⟩) :
    (do
      let run ← finishSimulation run path value
      setMctsState (.running run) : MctsRootEffect R G C F Unit).EndsAt
      (fun _ final => GoesOn task.context good final) (Settled condition)
      task := by
  have finished : (finishSimulation run path value).EndsAt
      (fun next final => next = run.completeSimulation ∧
        final = { task with tree := task.tree.backup path value })
      (Settled condition) task := ⟨rfl, rfl⟩
  refine finished.bind ?_
  rintro _ _ ⟨rfl, rfl⟩
  exact @endsAt_running R G C F
    { task with tree := task.tree.backup path value } _ _ good idle holds

omit [Scalar F] in
theorem endsAt_resumeExpand {graph expectedContext depth run result} (idle : task.pending = none) :
    (resumeExpand graph expectedContext depth run result).EndsAt (fun _ final => GoesOn task.context
        (· = ⟨task.tree, .ofExpansion graph run⟩) final)
      (Settled condition) task := by
  refine endsAt_get_bind ?_
  have emitted (rootContext : Option ReplayGraphContext) :
      GoesOn task.context (· = ⟨task.tree, .ofExpansion graph run⟩)
        { task with
          rootContext
          state := .emitNodeEval
            { toExpansion :=
                expansionOf (task.identity.context result.graphHash) result
              graph
              depth }
            run } := by
    refine ⟨⟨?_, ?_⟩, rfl, ?_⟩
    · intro expansion other emits
      cases emits
      change List.length (_ ++ [_]) = List.length (List.map _ _) + 1
      rw [List.length_append, List.length_map, List.length_map]
      rfl
    · intro token expansion other request waits
      cases waits.symm.trans idle
    · rw [idle]
      rfl
  dsimp only
  split
  · exact endsAt_failRoot _
  split
  · exact emitted (some (task.identity.context result.graphHash))
  · exact emitted task.rootContext

theorem evaluated_new {expansion : NodeExpansion G C F} {request output}
    (whole : request.actions.length = expansion.candidates.length + 1)
    (valid : output.validateFor request = .ok ()) (maskStop terminal : Bool) :
    (MctsNode.new expansion.graph expansion.context expansion.candidates
      output maskStop terminal).Evaluated := by
  refine ⟨_, _, _, _, _, _, ?_, rfl⟩
  rw [← whole]
  by_contra different
  unfold EvalOutput.validateFor at valid
  rw [if_pos different] at valid
  cases valid

theorem endsAt_resumeNodeEval {expansion : NodeExpansion G C F} {run request output}
    (idle : task.pending = none)
    (whole : request.actions.length = expansion.candidates.length + 1) :
    (resumeNodeEval strategy expansion run request output).EndsAt
      (fun _ final => ∃ leaf : MctsNode G C F, leaf.Evaluated ∧ GoesOn task.context
          (fun stand => match run with
            | none => ∃ root, (task.tree.append leaf).nodes[0]? = some root ∧
                  stand = ⟨task.tree.append leaf, .searching
                    ⟨strategy.startRoot root task.context, 0, none⟩⟩
            | some run => Searches strategy .onward
                ⟨task.tree, .expanding expansion.graph run⟩ stand)
          final)
      (Settled condition) task := by
  unfold resumeNodeEval
  cases valid : output.validateFor request with
  | error error => exact endsAt_throw fun _ => nofun
  | ok value =>
    refine endsAt_get_bind (endsAt_modify_bind ?_)
    have evaluated := evaluated_new whole valid task.config.maskStop
      (task.atHorizon expansion.depth)
    cases run with
    | none =>
      refine EndsAt.bind (endsAt_treeNode 0) ?_
      rintro root _ ⟨found, rfl⟩
      refine endsAt_get_bind (EndsAt.mono (endsAt_running idle rfl) ?_ fun _ _ settled => settled)
      exact fun _ final goesOn => ⟨_, evaluated,
        goesOn.asks, goesOn.context, root, found, goesOn.stand.symm⟩
    | some run =>
      refine EndsAt.bind (endsAt_treeNode task.tree.nodes.length) ?_
      rintro node _ ⟨found, rfl⟩
      refine EndsAt.bind (endsAt_runDescent run) ?_
      rintro descent _ ⟨under, rfl⟩
      cases last : descent.path.getLast? with
      | none => exact endsAt_failRoot _
      | some edge =>
        have same : node = MctsNode.new expansion.graph
            expansion.context expansion.candidates output
            task.config.maskStop (task.atHorizon expansion.depth) := by
          rw [List.getElem?_concat_length] at found
          exact (Option.some.inj found).symm
        subst same
        refine endsAt_modify_bind (EndsAt.mono (endsAt_finished idle
          (@Searches.attach R G C F _ strategy _ _ _ _ _ under last evaluated))
          ?_ fun _ _ settled => settled)
        exact fun _ final goesOn => ⟨_, evaluated, goesOn⟩

variable (strategy) in
theorem endsAt_enterChild {descent node action childIndex stats} (idle : task.pending = none)
    (under : run.descent = some descent) (found : task.tree.nodes[descent.nodeIndex]? = some node)
    (known : node.actions[action]? = some stats) (leads : stats.child = some childIndex) :
    (enterChild run (descent.take action) childIndex).EndsAt (fun _ final => GoesOn task.context
        (Searches strategy .onward ⟨task.tree, .applying run action⟩) final)
      (Settled condition) task := by
  refine EndsAt.bind (endsAt_treeNode childIndex) ?_
  rintro child _ ⟨childFound, rfl⟩
  split
  · exact endsAt_finished idle (Searches.revisit under found known leads childFound)
  · exact endsAt_running idle (Searches.enter under found known leads childFound)

variable (strategy) in
theorem endsAt_resumeApply {action applied} (idle : task.pending = none) :
    (resumeApply run action applied).EndsAt (fun _ final => ∃ move,
        GoesOn task.context (Searches strategy move ⟨task.tree, .applying run action⟩) final ∧
          (move = .turnBack 0 → (run.descent.any (fun descent =>
              decide (descent.nodeIndex = 0)) && (applied.rejected || task.backtracks
                  (task.identity.context applied.afterHash))) = true) ∧
          ∀ graph, move = .leave graph → applied.after = graph)
      (Settled condition) task := by
  refine EndsAt.bind (endsAt_runDescent run) ?_
  rintro descent task ⟨under, rfl⟩
  refine endsAt_get_bind ?_
  dsimp only
  split
  · next turned =>
    have turns : Searches strategy (.turnBack descent.nodeIndex) ⟨task.tree, .applying run action⟩
        ⟨task.tree.maskAction descent.nodeIndex action, .searching run⟩ :=
      .turnBack under
    refine endsAt_modify_bind (EndsAt.mono (endsAt_running idle turns) ?_
      fun _ _ settled => settled)
    refine fun _ final goesOn => ⟨_, goesOn, fun atRoot => ?_, nofun⟩
    injection atRoot with root
    rw [under, Option.any_some, root, turned]
    rfl
  · refine EndsAt.bind (endsAt_treeNode descent.nodeIndex) ?_
    rintro node task ⟨found, rfl⟩
    unfold childOf
    cases known : node.actions[action]? with
    | none => exact endsAt_throw fun _ => nofun
    | some stats =>
      have read : (pure stats.child : MctsRootEffect R G C F (Option Nat)).EndsAt
            (fun child last => stats.child = child ∧ last = task)
            (Settled condition) task := endsAt_pure ⟨rfl, rfl⟩
      refine read.bind ?_
      rintro (_ | childIndex) task ⟨leads, rfl⟩
      · have leaves : Searches strategy (.leave applied.after) ⟨task.tree, .applying run action⟩
            ⟨task.tree, .ofExpansion applied.after
              (some (run.withDescent (descent.take action)))⟩ :=
          .leave under found known leads applied.after
        refine EndsAt.mono (endsAt_emitNodeExpand idle leaves) ?_ fun _ _ settled => settled
        exact fun _ final goesOn => ⟨_, goesOn, nofun, fun _ same => MctsMove.leave.inj same⟩
      · refine EndsAt.mono (endsAt_enterChild strategy idle under found known leads) ?_
          fun _ _ settled => settled
        exact fun _ final goesOn => ⟨.onward, goesOn, nofun, nofun⟩

variable (strategy) in
theorem endsAt_resume (asks : task.Asks) (token : WorkToken) (result : SearchWorkResult G C F) :
    (resume strategy token result).EndsAt
      (fun _ final => GoesOn task.context (Resumed strategy task result) final)
      (Settled condition) task := by
  refine endsAt_get_bind ?_
  cases waits : task.pending with
  | none => exact endsAt_failRoot _
  | some pending =>
    have stand : task.stand = ⟨task.tree, pending.phase⟩ := by
      unfold MctsRootTask.stand phase
      rw [waits]
    dsimp only
    split
    · exact endsAt_failRoot _
    next named =>
    unfold resumePending
    split
    · refine endsAt_modify_bind (EndsAt.mono
        (endsAt_resumeExpand rfl) ?_ fun _ _ settled => settled)
      exact fun _ final goesOn => ⟨goesOn.asks, goesOn.context,
        .waits (goesOn.stand.trans stand.symm)⟩
    · next expansion run request output =>
      refine endsAt_modify_bind (EndsAt.mono
        (endsAt_resumeNodeEval rfl (asks.awaits _ _ _ _ waits)) ?_
        fun _ _ settled => settled)
      rintro _ final ⟨leaf, evaluated, goesOn⟩
      refine ⟨goesOn.asks, goesOn.context, ?_⟩
      have after := goesOn.stand
      cases run with
      | none =>
        obtain ⟨root, found, same⟩ := after
        exact .opens (congrArg MctsStand.phase stand) evaluated found same
      | some run =>
        have moves : Searches strategy .onward task.stand final.stand := by
          rw [stand]
          exact after
        exact .moves moves nofun nofun
    · next run action applied =>
      refine endsAt_modify_bind (EndsAt.mono (endsAt_resumeApply strategy rfl) ?_
        fun _ _ settled => settled)
      rintro _ final ⟨move, goesOn, root, created⟩
      have moves : Searches strategy move task.stand final.stand := by
        rw [stand]
        exact goesOn.stand
      refine ⟨goesOn.asks, goesOn.context, .moves moves
        (fun atRoot => ?_) fun graph left => ⟨_, rfl, created _ left⟩⟩
      unfold turnsBackAtRoot
      rw [waits]
      exact root atRoot
    · exact endsAt_failRoot _

end Resuming

end MctsRootTask

end GraphZero.Search
