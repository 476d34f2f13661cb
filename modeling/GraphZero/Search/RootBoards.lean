import GraphZero.Search.RootPhases

/-!
# The board of a root task

The root of the tree stands for the position that the turn began in.  No step
of the search moves it, so the chosen step leads on from that position.
-/

namespace GraphZero.Search

open Engine Foundation Effect

variable {G C F : Type}

/-- What the root of the tree stands for. -/
def RootTask.anchor (task : RootTask G C F) : Option (Board G × ReplayGraphContext) :=
  task.nodes.head?.map fun root => (root.board, root.context)

section Anchor

variable {task final : RootTask G C F} {anchor : Board G × ReplayGraphContext}

theorem RootTask.anchor_setNode {index node changed} (found : task.nodes[index]? = some node)
    (board : changed.board = node.board) (context : changed.context = node.context) :
    (task.setNode index changed).anchor = task.anchor := by
  unfold anchor setNode
  cases nodes : task.nodes with
  | nil => rfl
  | cons root rest =>
    cases index with
    | zero =>
      rw [nodes] at found
      cases found
      simp [board, context]
    | succ index => rfl

theorem RootTask.anchor_grow (standing : task.anchor = some anchor)
    (node : Node G C F) : (task.grow node).anchor = some anchor := by
  unfold RootTask.anchor grow at *
  cases nodes : task.nodes with
  | nil =>
    rw [nodes] at standing
    cases standing
  | cons root rest =>
    rw [nodes] at standing
    exact standing

theorem RootTask.AlikeTree.anchor_eq (alike : task.AlikeTree final) :
    final.anchor = task.anchor := by
  unfold RootTask.anchor
  obtain ⟨_, all⟩ := alike
  generalize task.nodes = before at all
  generalize final.nodes = after at all
  cases all with
  | nil => rfl
  | cons same rest => exact congrArg some (Prod.ext same.board same.context)

variable [Scalar F]

theorem Applies.anchor_eq {descent index action applied next}
    (applies : Applies task descent index action applied final next) :
    final.anchor = task.anchor := by
  cases applies with
  | turnedBack found barred => exact task.anchor_setNode found rfl rfl
  | created found edgeFound accepted fresh => exact task.anchor_setNode found rfl rfl

theorem Advances.anchor_eq {state next work} (standing : task.anchor = some anchor)
    (advances : Advances task state work final next) :
    final.anchor = some anchor := by
  cases advances with
  | @turnBack descent node action _ _ _ found =>
    have same : (task.setNode descent.node (node.mask action)).anchor =
        task.anchor := task.anchor_setNode found rfl rfl
    exact same.trans standing
  | complete valid installs found =>
    exact installs.alikeTree.anchor_eq.trans (task.anchor_grow standing _)
  | completeTerminal valid installs => exact installs.alikeTree.anchor_eq.trans standing
  | pass | follow | stop | apply | expand | terminal | eval | wait => exact standing

variable [DecidableEq G]

theorem Receives.anchor_eq {preflight state next result}
    (receives : Receives preflight task state result final next) :
    final.anchor = task.anchor := by
  cases receives with
  | applied late applies => exact applies.anchor_eq
  | speculated | stuck | expanded | evaluated | terminalEvaluated => rfl

variable {wave last : WaveRun G C F}

theorem WaveStep.anchor_eq {work} (standing : task.anchor = some anchor)
    (step : WaveStep task wave work final last) :
    final.anchor = some anchor := by
  cases step with
  | advance split advances => exact advances.anchor_eq standing
  | install split held applies => exact applies.anchor_eq.trans standing
  | settle ended counted => exact (alikeTree_of_backupAll counted).anchor_eq.trans standing
  | launch | discard | resolved => exact standing

theorem WaveRuns.anchor_eq (standing : task.anchor = some anchor)
    (runs : WaveRuns task wave final last) : final.anchor = some anchor :=
  runs.keeps (fun mid _ => mid.anchor = some anchor)
    (fun _ _ _ _ inside step => step.anchor_eq inside) standing

theorem Hands.anchor_eq {work} (standing : task.anchor = some anchor)
    (hands : Hands task wave (some work) final last) :
    final.anchor = some anchor := by
  obtain ⟨mid, between, runs, step⟩ := hands
  exact step.anchor_eq (runs.anchor_eq standing)

end Anchor

/-! ## Positions -/

/-- The graphs and the known contexts of a position. -/
structure Stand (G : Type) where
  graphs : PerPlayer G
  contexts : PerPlayer (Option ReplayGraphContext)

namespace Stand

/-- The context is the player's, if the player's is known. -/
def Agrees (stand : Stand G) (player : GumbelPlayer) (context : ReplayGraphContext) : Prop :=
  ∀ known, stand.contexts.of player = some known → known = context

/-- The board is at the position, and the player to move is in `context`. -/
structure Holds (stand : Stand G) (board : Board G) (context : ReplayGraphContext) : Prop where
  graphs : board.graphs = stand.graphs
  contexts : ∀ player known, stand.contexts.of player = some known →
    board.contexts.of player = some known
  current : board.contexts.of board.player = some context

theorem Holds.agrees {stand : Stand G} {board context} (holds : stand.Holds board context) :
    stand.Agrees board.player context := by
  intro known found
  exact Option.some.inj ((holds.contexts _ known found).symm.trans holds.current)

/-- The board is the position, up to the player to move. -/
def Opens (stand : Stand G) (board : Board G) : Prop :=
  board.graphs = stand.graphs ∧ board.contexts = stand.contexts

theorem Opens.holds_placeContext [DecidableEq G] {stand : Stand G} {board context}
    (opens : stand.Opens board)
    (known : ∀ found, board.contexts.of board.player = some found → found = context) :
    stand.Holds (placeContext board context) context := by
  obtain ⟨graphs, contexts⟩ := opens
  have placed (other : GumbelPlayer) (found : ReplayGraphContext)
      (here : board.contexts.of other = some found) :
      (board.contexts.update board.player (some context)).of other = some found := by
    by_cases same : other = board.player
    · subst same
      rw [PerPlayer.of_update_same, known found here]
    · rw [PerPlayer.of_update_of_ne _ _ same, here]
  unfold placeContext
  split
  · refine ⟨graphs, fun other found here => ?_, ?_⟩
    · rw [← contexts] at here
      have first := placed other found here
      by_cases same : other = board.player.opponent
      · subst same
        rw [PerPlayer.of_update_same, first]
        rfl
      · rw [PerPlayer.of_update_of_ne _ _ same, first]
    · have different : board.player ≠ board.player.opponent := by
        cases board.player <;> decide
      rw [PerPlayer.of_update_of_ne _ _ different, PerPlayer.of_update_same]
  · refine ⟨graphs, fun other found here => ?_, ?_⟩
    · rw [← contexts] at here
      exact placed other found here
    · exact PerPlayer.of_update_same _ _ _

/-- The turn ends where the position says it began. -/
def Ends (stand : Stand G) : SymmetricRootResult G C F → Prop
  | .action result =>
    stand.Agrees result.player result.step.stepRef.before ∧
      result.step.before = stand.graphs.of result.player ∧
      result.step.after = result.selectedAfter ∧
      result.step.stepRef.after = result.selectedAfterContext ∧
      (result.step.action.isStop = true → result.selectedAfter = result.step.before ∧
          result.selectedAfterContext = result.step.stepRef.before)
  | .pass player context => stand.Agrees player context

end Stand

structure RootTask.Searches (task : RootTask G C F) (stand : Stand G) : Prop where
  phased : task.Phased
  resolve : ∀ board, task.state = .resolve board → stand.Opens board
  expand : ∀ token board, task.pending = some (.expand token board) → stand.Opens board
  eval : ∀ board expansion, task.state = .eval board expansion → stand.Holds board expansion.context
  evaluate : ∀ token board expansion request,
    task.pending = some (.eval token board expansion request) → stand.Holds board expansion.context
  running : ∀ wave, task.state = .waveRunning wave →
    ∃ board context, task.anchor = some (board, context) ∧ stand.Holds board context
  result : ∀ result, task.state = .doneResult result → stand.Ends result

def SearchesAfter (stand : Stand G) :
    SearchPoll G C F (SymmetricRootResult G C F) → RootTask G C F → Prop
  | .work _, final | .blocked, final => final.Searches stand
  | .done result, _ => stand.Ends result

section Searches

variable {stand : Stand G} {task final : RootTask G C F}

theorem RootTask.Searches.takeReleasable (searches : task.Searches stand) :
    task.takeReleasable.2.Searches stand :=
  ⟨searches.phased.takeReleasable, searches.resolve, searches.expand,
    searches.eval, searches.evaluate, searches.running, searches.result⟩

theorem searches_of_running {wave board context} (phased : task.Phased)
    (running : task.state = .waveRunning wave) (anchor : task.anchor = some (board, context))
    (holds : stand.Holds board context) :
    task.Searches stand := by
  have idle : task.pending = none := phased.running _ running
  refine ⟨phased, fun _ state => ?_, fun _ _ pending => ?_,
    fun _ _ state => ?_, fun _ _ _ _ pending => ?_,
    fun _ _ => ⟨board, context, anchor, holds⟩, fun _ state => ?_⟩
  · rw [running] at state
    cases state
  · rw [idle] at pending
    cases pending
  · rw [running] at state
    cases state
  · rw [idle] at pending
    cases pending
  · rw [running] at state
    cases state

variable [Scalar F] [DecidableEq G] [DecidableEq C]

omit [Scalar F] [DecidableEq G] [DecidableEq C] in
theorem selectedMove_eq_ok {root selected move}
    (moved : selectedMove task root selected = .ok move) :
    (root.isStop selected = true ∧ move.after = root.board.currentGraph ∧
      move.afterContext = root.context) ∨
    (root.isStop selected = false ∧ ∃ edge,
      root.edges[selected]? = some edge ∧ edge.afterGraph = some move.after ∧
        edge.afterContext = some move.afterContext) := by
  unfold selectedMove at moved
  split at moved
  · next stops =>
    cases moved
    exact .inl ⟨stops, rfl, rfl⟩
  next goes =>
  split at moved
  · next edge metadata candidate edgeFound _ _ =>
    split at moved
    · cases moved
    · cases moved
    · next after context graph applied =>
      cases moved
      exact .inr ⟨Bool.eq_false_iff.mpr goes, edge, edgeFound, graph, applied⟩
  · cases moved

variable {run : Run F}

omit [DecidableEq G] [DecidableEq C] in
theorem finishedStep_eq_ok {root selected move step}
    (finished : finishedStep task root run selected move = .ok step) :
    step.before = root.board.currentGraph ∧ step.after = move.after ∧
      step.stepRef.before = root.context ∧ step.stepRef.after = move.afterContext := by
  unfold finishedStep at finished
  split at finished
  · cases finished
  · next stepRef referred =>
    cases finished
    obtain ⟨_, _, rfl⟩ := SearchStepRef.new_eq_ok_iff.mp referred
    exact ⟨rfl, rfl, rfl, rfl⟩

theorem Finishes.ends {result : SymmetricRootResult G C F} {board context}
    (anchor : task.anchor = some (board, context)) (holds : stand.Holds board context)
    (finishes : Finishes task run result final) : stand.Ends result := by
  have standing {root : Node G C F} (found : task.nodes.head? = some root) :
      stand.Holds root.board root.context := by
    unfold RootTask.anchor at anchor
    rw [found] at anchor
    cases anchor
    exact holds
  cases finishes with
  | pass rootFound none => exact (standing rootFound).agrees
  | @action root selected move step carried given rootFound chosen moved
      finished carries transfers =>
      have here := standing rootFound
      obtain ⟨before, after, left, reached⟩ := finishedStep_eq_ok finished
      refine ⟨?_, ?_, after, reached, fun stops => ?_⟩
      · rw [left]
        exact here.agrees
      · rw [before]
        exact congrArg (PerPlayer.of · root.board.player) here.graphs
      · rw [before, left]
        have same : root.isStop selected = true := by
          rw [← stops, ← isStop_of_selectedMove moved, ← action_of_finishedStep finished]
        rcases selectedMove_eq_ok moved with ⟨_, stays⟩ | ⟨goes, _⟩
        · exact stays
        · rw [same] at goes
          cases goes

theorem Polls.searches {fuel polled} (searches : task.Searches stand)
    (polls : Polls fuel task polled final) :
    SearchesAfter stand polled final := by
  have phased := polls.phased searches.phased
  cases polls with
  | blocked waits => exact searches
  | @resolve board played idle state turn =>
    have opens := searches.resolve board state
    have moved : stand.Opens played := by
      rcases turn with ⟨rfl, _⟩ | ⟨rfl, _⟩
      · exact opens
      · exact opens
    refine ⟨phased, fun _ state => ?_, fun _ _ pending => ?_,
      fun _ _ state => ?_, fun _ _ _ _ pending => ?_, fun _ state => ?_,
      fun _ state => ?_⟩
    · cases state
    · cases pending
      exact moved
    · cases state
    · cases pending
    · cases state
    · cases state
  | eval idle state asked =>
    have holds := searches.eval _ _ state
    refine ⟨phased, fun _ state => ?_, fun _ _ pending => ?_,
      fun _ _ state => ?_, fun _ _ _ _ pending => ?_, fun _ state => ?_,
      fun _ state => ?_⟩
    · cases state
    · cases pending
    · cases state
    · cases pending
      exact holds
    · cases state
    · cases state
  | wave idle state ends =>
    obtain ⟨board, context, anchor, holds⟩ := searches.running _ state
    have begun : RootTask.anchor { task with state := .done } = some (board, context) := anchor
    cases ends with
    | work hands =>
      have reached := hands.anchor_eq begun
      exact searches_of_running phased rfl reached holds
    | blocked runs waits =>
      have reached := runs.anchor_eq begun
      exact searches_of_running phased rfl reached holds
    | finished runs ended finish =>
      obtain ⟨result, rfl, finishes⟩ := finishes_of_finishRoot finish
      exact finishes.ends (runs.anchor_eq begun) holds
  | result idle state => exact searches.result _ state

omit [DecidableEq C] in
theorem Resumes.searches {token : WorkToken} {result} (searches : task.Searches stand)
    (resumes : Resumes task token result final) :
    final.Searches stand := by
  have phased := resumes.phased searches.phased
  cases resumes with
  | wave running split waits receives =>
    obtain ⟨board, context, anchor, holds⟩ := searches.running _ running
    exact searches_of_running phased rfl (receives.anchor_eq.trans anchor) holds
  | @pass board result pending known empty =>
    have opens := searches.expand _ _ pending
    refine ⟨phased, fun _ state => ?_, fun _ _ pending => ?_,
      fun _ _ state => ?_, fun _ _ _ _ pending => ?_, fun _ state => ?_,
      fun _ state => ?_⟩
    · cases state
    · cases pending
    · cases state
    · cases pending
    · cases state
    · cases state
      intro found here
      rw [← opens.2] at here
      exact known found here
  | expand pending known offered =>
    have opens := searches.expand _ _ pending
    refine ⟨phased, fun _ state => ?_, fun _ _ pending => ?_,
      fun _ _ state => ?_, fun _ _ _ _ pending => ?_, fun _ state => ?_,
      fun _ state => ?_⟩
    · cases state
    · cases pending
    · cases state
      exact opens.holds_placeContext known
    · cases pending
    · cases state
    · cases state
  | @eval board expansion request output run pending valid started =>
    have empty : task.nodes = [] := searches.phased.opening (.inl (pending ▸ rfl))
    refine searches_of_running phased rfl ?_ (searches.evaluate _ _ _ _ pending)
    unfold RootTask.anchor RootTask.evaluatedRoot RootTask.grow
    rw [empty]
    rfl

omit [Scalar F] [DecidableEq C] in
theorem Aligns.searches {expected contexts} (phased : task.Phased)
    (state : task.state = .waveRunning (.start run))
    (aligns : Aligns task expected contexts final) :
    final.Searches ⟨expected.graphs, contexts⟩ := by
  have after := aligns.phased phased
  cases aligns with
  | @aligned root _ head board agrees known =>
    have holds : Stand.Holds ⟨expected.graphs, contexts⟩
        { root.board with contexts } root.context :=
      ⟨(congrArg Board.graphs board :), fun _ _ found => found, known⟩
    refine searches_of_running after state ?_ holds
    unfold RootTask.anchor RootTask.setNode
    cases nodes : task.nodes with
    | nil =>
      rw [nodes] at head
      cases head
    | cons first rest => rfl

end Searches

def EpisodeTask.stand (task : EpisodeTask G C F) : Stand G :=
  ⟨task.board.graphs, task.board.contexts⟩

theorem graphs_stand (task : EpisodeTask G C F) (player : GumbelPlayer) :
    task.stand.graphs.of player = (task.actors.of player).current := by
  cases player with
  | one | two => rfl

theorem contexts_stand (task : EpisodeTask G C F) (player : GumbelPlayer) :
    task.stand.contexts.of player = (task.actors.of player).context := by
  cases player with
  | one | two => rfl

def EpisodeTask.Searching (task : EpisodeTask G C F) : Prop :=
  ∀ rootTask, task.state = .root rootTask → rootTask.Searches task.stand

section Episodes

variable {task final : EpisodeTask G C F}

theorem searches_rootTask (task : EpisodeTask G C F) : task.rootTask.Searches task.stand := by
  refine ⟨phased_rootTask task, fun _ state => ?_, fun _ _ pending => ?_,
    fun _ _ state => ?_, fun _ _ _ _ pending => ?_, fun _ state => ?_,
    fun _ state => ?_⟩
  · cases state
    exact ⟨rfl, rfl⟩
  · cases pending
  · cases state
  · cases pending
  · cases state
  · cases state

theorem searching_started (task : EpisodeTask G C F) : task.started.Searching := by
  unfold EpisodeTask.started EpisodeTask.Searching
  split
  · intro rootTask state
    cases state
  split
  · intro rootTask state
    cases state
  intro rootTask state
  cases state
  exact searches_rootTask task

theorem searching_keepRoot {rootTask} (searches : rootTask.Searches task.stand) :
    (task.keepRoot rootTask).Searching := by
  intro other state
  cases state
  exact searches.takeReleasable

variable [Scalar F] [DecidableEq G] [DecidableEq C]

theorem Rounds.searching {fuel outcome} (searching : task.Searching)
    (rounds : Rounds fuel task outcome final) :
    final.Searching := by
  cases rounds with
  | start state => exact searching_started _
  | work state polls => exact searching_keepRoot (polls.searches (searching _ state))
  | blocked state polls => exact searching_keepRoot (polls.searches (searching _ state))
  | next state polls alone turn reuses =>
    intro rootTask root
    have turned := (afterTurn_keeps _ _).2.2.symm.trans root
    cases turned
  | @reuse _ _ _ reused aligned _ contexts turned state polls alone turn
      reuses turns aligns active =>
      obtain ⟨idle, run, begun⟩ := reuses.begins
      intro rootTask root
      cases root
      have searches := aligns.searches reuses.phased begun
      exact searches
  | measure | finished =>
    intro rootTask root
    cases root

omit [DecidableEq C] in
theorem Receipts.searching {token result} (searching : task.Searching)
    (receipts : Receipts task token result final) : final.Searching := by
  cases receipts with
  | root found state resumes => exact searching_keepRoot (resumes.searches (searching _ state))
  | measure =>
    intro rootTask root
    cases root

omit [Scalar F] [DecidableEq G] [DecidableEq C] in
theorem searching_takeReleasable (searching : task.Searching) :
    task.takeReleasable.2.Searching := by
  rcases task.takeReleasable_cases with ⟨rootTask, state, same⟩ | same
  · rw [same]
    intro other root
    cases root
    exact (searching _ state).takeReleasable
  · rw [same]
    exact searching

end Episodes

end GraphZero.Search
