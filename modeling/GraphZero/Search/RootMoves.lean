import GraphZero.Foundation.Sequences
import GraphZero.Search.Wave

/-!
# The moves of a root task

What a successful step of a root task can do, as a relation between the tasks
before and after it.  Each invariant of the search is derived from these
cases and not from the functions.
-/

namespace GraphZero.Search

open Engine Foundation Effect

variable {G C F : Type}

section Primitives

variable {α : Type} {task final : RootTask G C F}

theorem require_eq_ok {value failure found}
    (done : (require value failure : RootEffect G C F α).perform task =
      (.ok found, final)) : value = some found ∧ final = task := by
  cases value with
  | none => exact absurd done perform_throw_ne_ok
  | some value =>
    obtain ⟨rfl, rfl⟩ := perform_pure_eq_ok done
    exact ⟨rfl, rfl⟩

variable {value : α}

theorem settled_eq_ok {result} (done : (settled result : RootEffect G C F α).perform task =
      (.ok value, final)) : result = .ok value ∧ final = task := by
  cases result with
  | error failure => exact absurd done perform_throw_ne_ok
  | ok found =>
    obtain ⟨rfl, rfl⟩ := perform_pure_eq_ok done
    exact ⟨rfl, rfl⟩

theorem evaluated_eq_ok {result} (done : (evaluated result : RootEffect G C F α).perform task =
      (.ok value, final)) : result = .ok value ∧ final = task := by
  cases result with
  | error failure => exact absurd done perform_throw_ne_ok
  | ok found =>
    obtain ⟨rfl, rfl⟩ := perform_pure_eq_ok done
    exact ⟨rfl, rfl⟩

theorem get_bind_eq_ok {rest : RootTask G C F → RootEffect G C F α}
    (done : (get >>= rest).perform task = (.ok value, final)) :
    (rest task).perform task = (.ok value, final) :=
  done

theorem modify_bind_eq_ok {change} {rest : PUnit → RootEffect G C F α}
    (done : (modify change >>= rest).perform task = (.ok value, final)) :
    (rest ⟨⟩).perform (change task) = (.ok value, final) :=
  done

theorem nodeAt_eq_ok {index : Nat} {node} (done : (nodeAt index).perform task = (.ok node, final)) :
    task.nodes[index]? = some node ∧ final = task :=
  require_eq_ok (get_bind_eq_ok done)

theorem edgeAt_eq_ok {index action edge}
    (done : (edgeAt (C := C) index action).perform task = (.ok edge, final)) :
    ∃ node, task.nodes[index]? = some node ∧ node.edges[action]? = some edge ∧ final = task := by
  obtain ⟨node, mid, looked, rest⟩ := perform_bind_eq_ok done
  obtain ⟨found, rfl⟩ := nodeAt_eq_ok looked
  obtain ⟨edgeFound, rfl⟩ := require_eq_ok rest
  exact ⟨node, found, edgeFound, rfl⟩

end Primitives

namespace RootTask

def setNode (task : RootTask G C F) (index : Nat) (node : Node G C F) : RootTask G C F :=
  { task with nodes := task.nodes.set index node }

/-- The task with one more node, which was evaluated. -/
def grow (task : RootTask G C F) (node : Node G C F) : RootTask G C F :=
  { task with
    nodes := task.nodes ++ [node], evalCount := task.evalCount + 1 }

def release (task : RootTask G C F) (graph : G) : RootTask G C F :=
  { task with
    releasable :=
      { task.releasable with graphs := task.releasable.graphs ++ [graph] } }

def create (task : RootTask G C F) (graph : G) : RootTask G C F :=
  { task with createdGraphs := task.createdGraphs ++ [graph] }

def createAll (task : RootTask G C F) (candidates : List C) : RootTask G C F :=
  { task with createdCandidates := task.createdCandidates ++ candidates }

def speculate (task : RootTask G C F) (graph : G) : RootTask G C F :=
  { task with speculativeGraphs := task.speculativeGraphs ++ [graph] }

def forget [DecidableEq G] (task : RootTask G C F) (graph : G) : RootTask G C F :=
  { task with speculativeGraphs := task.speculativeGraphs.erase graph }

/-- The task after it gave a token out. -/
def tick (task : RootTask G C F) : RootTask G C F :=
  { task with nextToken := task.nextToken + 1 }

end RootTask

/-- The board after a rewrite by the player to move. -/
def Board.rewrite (board : Board G) (graph : G) (context : ReplayGraphContext) : Board G :=
  { board with
    graphs := board.graphs.update board.player graph
    contexts := board.contexts.update board.player (some context)
    rewrites := board.rewrites.update board.player (board.rewrites.of board.player + 1)
    player := board.player.opponent }

def Board.retire (board : Board G) (player : GumbelPlayer) : Board G :=
  { board with
    inactive := board.inactive.update player true
    player := player.opponent }

namespace Descent

def see (descent : Descent) (player : GumbelPlayer) (context : ReplayGraphContext) : Descent :=
  { descent with
    seen := descent.seen.update player (insert context (descent.seen.of player)) }

def walk (descent : Descent) (step : PathStep) : Descent :=
  { descent with path := descent.path ++ [step] }

def unforced (descent : Descent) : Descent := { descent with forced := none }

/-- The descent through an expanded edge of `player`. -/
def follow (descent : Descent) (player : GumbelPlayer) (step : PathStep) :
    Option ReplayGraphContext → Descent
  | none => descent.walk step
  | some context => (descent.walk step).see player context

end Descent

/-- To a state that was seen there is no way back. -/
def backtracks (config : GumbelMctsConfig F) (descent : Descent)
    (player : GumbelPlayer) (context : ReplayGraphContext) : Prop :=
  config.noBacktrack = true ∧ context ∈ descent.seen.of player

def Node.setEdge (node : Node G C F) (action : Nat) (edge : ActionEdge G F) : Node G C F :=
  { node with edges := node.edges.set action edge }

section Changes

variable {task final : RootTask G C F} {value : PUnit}

theorem modifyNode_eq_ok {index change}
    (done : (modifyNode index change).perform task = (.ok value, final)) :
    ∃ node, task.nodes[index]? = some node ∧ final = task.setNode index (change node) := by
  obtain ⟨node, mid, looked, rest⟩ := perform_bind_eq_ok done
  obtain ⟨found, rfl⟩ := nodeAt_eq_ok looked
  cases rest
  exact ⟨node, found, rfl⟩

theorem modifyEdge_eq_ok {index action change}
    (done : (modifyEdge (C := C) index action change).perform task = (.ok value, final)) :
    ∃ node edge, task.nodes[index]? = some node ∧ node.edges[action]? = some edge ∧
        final = task.setNode index (node.setEdge action (change edge)) := by
  obtain ⟨edge, mid, looked, rest⟩ := perform_bind_eq_ok done
  obtain ⟨node, found, edgeFound, rfl⟩ := edgeAt_eq_ok looked
  obtain ⟨same, sameFound, rfl⟩ := modifyNode_eq_ok rest
  rw [found] at sameFound
  cases sameFound
  exact ⟨node, edge, found, edgeFound, rfl⟩

end Changes

/-- The nodes differ in their branches and statistics at most. -/
structure Node.Alike (old new : Node G C F) : Prop where
  board : new.board = old.board
  context : new.context = old.context
  candidates : new.candidates = old.candidates
  masked : new.masked = old.masked
  applied : List.Forall₂ (fun before after : ActionEdge G F =>
    after.afterGraph = before.afterGraph ∧
      after.afterContext = before.afterContext) old.edges new.edges

namespace Node.Alike

theorem refl (node : Node G C F) : node.Alike node :=
  ⟨rfl, rfl, rfl, rfl, List.forall₂_same.mpr fun _ _ => ⟨rfl, rfl⟩⟩

theorem trans {first second third : Node G C F}
    (before : first.Alike second) (after : second.Alike third) :
    first.Alike third where
  board := after.board.trans before.board
  context := after.context.trans before.context
  candidates := after.candidates.trans before.candidates
  masked := after.masked.trans before.masked
  applied := by
    refine forall₂_trans (fun _ _ _ one two => ?_) before.applied after.applied
    exact ⟨two.1.trans one.1, two.2.trans one.2⟩

theorem setEdge {node : Node G C F} {action edge changed} (found : node.edges[action]? = some edge)
    (graph : changed.afterGraph = edge.afterGraph)
    (context : changed.afterContext = edge.afterContext) :
    node.Alike (node.setEdge action changed) :=
  ⟨rfl, rfl, rfl, rfl, forall₂_set (fun _ => ⟨rfl, rfl⟩) found ⟨graph, context⟩⟩

end Node.Alike

namespace RootTask

/-- The tasks differ in the branches and statistics of their trees at
most. -/
structure AlikeTree (task final : RootTask G C F) : Prop where
  others : final = { task with nodes := final.nodes }
  nodes : List.Forall₂ Node.Alike task.nodes final.nodes

theorem AlikeTree.refl (task : RootTask G C F) : task.AlikeTree task :=
  ⟨rfl, List.forall₂_same.mpr fun node _ => .refl node⟩

theorem AlikeTree.trans {first second third : RootTask G C F}
    (before : first.AlikeTree second) (after : second.AlikeTree third) :
    first.AlikeTree third where
  others := by
    rw [after.others, before.others]
  nodes := forall₂_trans (fun _ _ _ one two => one.trans two) before.nodes after.nodes

variable {task : RootTask G C F}

theorem alikeTree_setNode {index node changed} (found : task.nodes[index]? = some node)
    (alike : node.Alike changed) :
    task.AlikeTree (task.setNode index changed) :=
  ⟨rfl, forall₂_set Node.Alike.refl found alike⟩

theorem forall_setNode {index changed} {good : Node G C F → Prop}
    (all : ∀ node ∈ task.nodes, good node) (holds : good changed) :
    ∀ node ∈ (task.setNode index changed).nodes, good node := by
  intro node member
  rcases List.mem_or_eq_of_mem_set member with old | rfl
  · exact all node old
  · exact holds

theorem forall_grow {grown} {good : Node G C F → Prop} (all : ∀ node ∈ task.nodes, good node)
    (holds : good grown) : ∀ node ∈ (task.grow grown).nodes, good node := by
  intro node member
  rcases List.mem_append.mp member with old | new
  · exact all node old
  · rw [List.mem_singleton.mp new]
    exact holds

end RootTask

/-! ## Simulations -/

/-- A branch is installed in an empty slot. -/
inductive Installs (task : RootTask G C F) (branch : Branch F) :
    AttachSlot → RootTask G C F → PathStep → Prop where
  | action {index action node edge} (found : task.nodes[index]? = some node)
    (edgeFound : node.edges[action]? = some edge) (vacant : edge.branch = none) :
    Installs task branch (.action index action) (task.setNode index
        (node.setEdge action { edge with branch := some branch }))
      (.decision index action branch.flip)
  | pass {index node} (found : task.nodes[index]? = some node) (vacant : node.pass = none) :
    Installs task branch (.pass index) (task.setNode index { node with pass := some branch })
      (.transform branch.flip)

theorem Installs.alikeTree {task final : RootTask G C F} {branch slot step}
    (installs : Installs task branch slot final step) :
    task.AlikeTree final := by
  cases installs with
  | action found edgeFound vacant =>
    exact RootTask.alikeTree_setNode found (.setEdge edgeFound rfl rfl)
  | pass found vacant =>
    refine RootTask.alikeTree_setNode found ⟨rfl, rfl, rfl, rfl, ?_⟩
    exact List.forall₂_same.mpr fun _ _ => ⟨rfl, rfl⟩

variable [Scalar F]

inductive Applies (task : RootTask G C F) (descent : Descent)
    (index action : Nat) (applied : ApplyResult G) :
    RootTask G C F → WaveSimulationState G C F → Prop where
  | turnedBack {node} (found : task.nodes[index]? = some node)
    (barred : applied.rejected = true ∨ backtracks task.config descent node.board.player
        (task.identity.context applied.afterHash)) :
    Applies task descent index action applied
      ((task.release applied.after).setNode index (node.mask action))
      (.running descent)
  | created {node edge} (found : task.nodes[index]? = some node)
    (edgeFound : node.edges[action]? = some edge) (accepted : applied.rejected = false)
    (fresh : ¬ backtracks task.config descent node.board.player
      (task.identity.context applied.afterHash)) :
    Applies task descent index action applied ((task.create applied.after).setNode index
        (node.setEdge action
          { edge with
            afterGraph := some applied.after
            afterContext :=
              some (task.identity.context applied.afterHash) }))
      (.resolve (descent.see node.board.player (task.identity.context applied.afterHash))
        (node.board.rewrite applied.after (task.identity.context applied.afterHash))
        ⟨.action index action, 1⟩)

/-- The action a descent goes on with, if there is one. -/
def Descent.choice (descent : Descent) (node : Node G C F)
    (config : GumbelMctsConfig F) : Option Nat :=
  descent.forced.or (node.selectNonroot config)

/-- A step of a simulation, with the work it hands out. -/
inductive Advances (task : RootTask G C F) : WaveSimulationState G C F → Option (SearchWork G C F) →
      RootTask G C F → WaveSimulationState G C F → Prop where
  | pass {descent node} (found : task.nodes[descent.node]? = some node)
    (stuck : descent.choice node task.config = none) :
    Advances task (.running descent) none task (advancePass descent.unforced node)
  | follow {descent node action edge branch} (found : task.nodes[descent.node]? = some node)
    (chosen : descent.choice node task.config = some action)
    (edgeFound : node.edges[action]? = some edge) (expanded : edge.branch = some branch)
    (fresh : ∀ context, edge.afterContext = some context →
      ¬ backtracks task.config descent node.board.player context) :
    Advances task (.running descent) none task (waveTargetState
        (descent.unforced.follow node.board.player
          (.decision descent.node action branch.flip) edge.afterContext)
        branch.target)
  | turnBack {descent node action edge branch context}
    (found : task.nodes[descent.node]? = some node)
    (chosen : descent.choice node task.config = some action)
    (edgeFound : node.edges[action]? = some edge) (expanded : edge.branch = some branch)
    (applied : edge.afterContext = some context)
    (barred : backtracks task.config descent node.board.player context) :
    Advances task (.running descent) none (task.setNode descent.node (node.mask action))
      (.running descent.unforced)
  | stop {descent node action edge} (found : task.nodes[descent.node]? = some node)
    (chosen : descent.choice node task.config = some action)
    (edgeFound : node.edges[action]? = some edge) (unexpanded : edge.branch = none)
    (stops : node.isStop action = true) :
    Advances task (.running descent) none task (.resolve descent.unforced (stoppedBoard node)
        ⟨.action descent.node action, 1⟩)
  | apply {descent node action edge candidate} (found : task.nodes[descent.node]? = some node)
    (chosen : descent.choice node task.config = some action)
    (edgeFound : node.edges[action]? = some edge) (unexpanded : edge.branch = none)
    (candidateFound : node.candidates[action]? = some candidate) :
    Advances task (.running descent) (some (.apply
        { token := ⟨task.nextToken⟩
          graph := node.board.currentGraph
          candidate }))
      task.tick
      (.applyPending ⟨task.nextToken⟩ descent.unforced descent.node action)
  | expand {descent board played attach reached}
    (turn : (played = board ∧ reached = attach ∧
        board.active task.config.maxSteps board.player = true) ∨
      (played = board.passTurn ∧ reached = attach.nextTurn ∧
        board.active task.config.maxSteps board.player = false ∧
        board.terminal task.config.maxSteps = false)) :
    Advances task (.resolve descent board attach) (some (.expand
        { token := ⟨task.nextToken⟩
          graph := played.currentGraph
          options := task.config.candidateOptions }))
      task.tick
      (.expandPending ⟨task.nextToken⟩ descent played reached)
  | terminal {descent board attach context request}
    (finished : board.terminal task.config.maxSteps = true)
    (known : board.contexts.of board.player = some context)
    (asked : evalRequest task.config board context
      [EvalAction.stop context] "invalid terminal symmetric eval request" = .ok request) :
    Advances task (.resolve descent board attach) (some (.eval
        (evalWork task.config ⟨task.nextToken⟩ board [] request)))
      task.tick
      (.terminalEvalPending ⟨task.nextToken⟩ descent attach request)
  | eval {descent board attach expansion request}
    (asked : evalRequest task.config board expansion.context
      expansion.evalActions "invalid symmetric wave eval request" = .ok request) :
    Advances task (.evalReady descent board attach expansion) (some (.eval
        (evalWork task.config ⟨task.nextToken⟩ board
          (expansion.candidates.map (·.handle)) request)))
      task.tick
      (.evalPending ⟨task.nextToken⟩ descent board attach expansion request)
  | complete {descent board attach expansion request output final step leaf}
    (valid : output.validateFor request = .ok ())
    (installs : Installs (task.grow (newNode task.config board expansion output))
      ⟨.node task.nodes.length, attach.turns % 2 == 1⟩ attach.slot final
      step)
    (found : final.nodes[task.nodes.length]? = some leaf) :
    Advances task (.evalComplete descent board attach expansion request output) none
      final (.outcome (descent.walk step) leaf.value)
  | completeTerminal {descent attach request output final step}
    (valid : output.validateFor request = .ok ())
    (installs : Installs { task with evalCount := task.evalCount + 1 }
      ⟨.terminal output.value, attach.turns % 2 == 1⟩ attach.slot final
      step) :
    Advances task (.terminalEvalComplete descent attach request output)
      none final (.outcome (descent.walk step) output.value)
  | wait {state} :
    Advances task state none task state

/-- How a result that comes in changes the simulation it is for. -/
inductive Receives [DecidableEq G] (preflight : Bool) (task : RootTask G C F) :
    WaveSimulationState G C F → SearchWorkResult G C F →
      RootTask G C F → WaveSimulationState G C F → Prop where
  | speculated {token descent index action applied} (early : preflight = true) :
    Receives preflight task (.applyPending token descent index action)
      (.apply applied) (task.speculate applied.after)
      (.rootApplyReady ⟨descent, index, action, applied⟩)
  | applied {token descent index action applied final next} (late : preflight = false)
    (applies : Applies task descent index action applied final next) :
    Receives preflight task (.applyPending token descent index action) (.apply applied) final next
  | stuck {token descent board attach result}
    (known : ∀ context, board.contexts.of board.player = some context →
      context = task.identity.context result.graphHash)
    (empty : result.candidates = []) :
    Receives preflight task (.expandPending token descent board attach)
      (.expand result) (task.createAll (result.candidates.map (·.candidate)))
      (.resolve descent ((placeContext board
          (task.identity.context result.graphHash)).retire board.player)
        attach.nextTurn)
  | expanded {token descent board attach result}
    (known : ∀ context, board.contexts.of board.player = some context →
      context = task.identity.context result.graphHash)
    (offered : result.candidates ≠ []) :
    Receives preflight task (.expandPending token descent board attach)
      (.expand result) (task.createAll (result.candidates.map (·.candidate)))
      (.evalReady descent (placeContext board (task.identity.context result.graphHash)) attach
        (expansionOf (task.identity.context result.graphHash) result))
  | evaluated {token descent board attach expansion request output} :
    Receives preflight task (.evalPending token descent board attach expansion request)
      (.eval output) task
      (.evalComplete descent board attach expansion request output)
  | terminalEvaluated {token descent attach request output} :
    Receives preflight task (.terminalEvalPending token descent attach request)
      (.eval output) task
      (.terminalEvalComplete descent attach request output)

def WaveAdvance.work? : WaveAdvance G C F → Option (SearchWork G C F)
  | .work handed => some handed
  | .progressed | .waiting => none

/-! ### Soundness -/

section Soundness

variable {task final : RootTask G C F}

omit [Scalar F] in
theorem installs_of_installBranch {slot branch step}
    (done : (installBranch slot branch).perform task = (.ok step, final)) :
    Installs task branch slot final step := by
  cases slot with
  | action index action =>
    obtain ⟨edge, mid, looked, rest⟩ := perform_bind_eq_ok done
    obtain ⟨node, found, edgeFound, rfl⟩ := edgeAt_eq_ok looked
    split at rest
    · obtain ⟨_, _, failed, _⟩ := perform_bind_eq_ok rest
      exact absurd failed perform_throw_ne_ok
    next vacant =>
    obtain ⟨_, mid, changed, rest⟩ := perform_bind_eq_ok rest
    obtain ⟨same, sameEdge, sameFound, sameEdgeFound, rfl⟩ := modifyEdge_eq_ok changed
    obtain ⟨rfl, rfl⟩ := perform_pure_eq_ok rest
    rw [found] at sameFound
    cases sameFound
    rw [edgeFound] at sameEdgeFound
    cases sameEdgeFound
    exact .action found edgeFound (by simpa using vacant)
  | pass index =>
    obtain ⟨node, mid, looked, rest⟩ := perform_bind_eq_ok done
    obtain ⟨found, rfl⟩ := nodeAt_eq_ok looked
    split at rest
    · obtain ⟨_, _, failed, _⟩ := perform_bind_eq_ok rest
      exact absurd failed perform_throw_ne_ok
    next vacant =>
    obtain ⟨_, mid, changed, rest⟩ := perform_bind_eq_ok rest
    obtain ⟨same, sameFound, rfl⟩ := modifyNode_eq_ok changed
    obtain ⟨rfl, rfl⟩ := perform_pure_eq_ok rest
    rw [found] at sameFound
    cases sameFound
    exact .pass found (by simpa using vacant)

variable {next : WaveSimulationState G C F}

theorem applies_of_resumeWaveApply {descent : Descent} {index action applied}
    (done : (resumeWaveApply descent index action applied).perform task = (.ok next, final)) :
    Applies task descent index action applied final next := by
  have done := get_bind_eq_ok done
  split at done
  · next rejected =>
    have done := modify_bind_eq_ok done
    obtain ⟨_, mid, masked, rest⟩ := perform_bind_eq_ok done
    obtain ⟨node, found, rfl⟩ := modifyNode_eq_ok masked
    obtain ⟨rfl, rfl⟩ := perform_pure_eq_ok rest
    exact .turnedBack found (.inl rejected)
  next accepted =>
  obtain ⟨node, mid, looked, rest⟩ := perform_bind_eq_ok done
  obtain ⟨found, rfl⟩ := nodeAt_eq_ok looked
  dsimp only at rest
  split at rest
  · next barred =>
    have rest := modify_bind_eq_ok rest
    obtain ⟨_, mid, masked, rest⟩ := perform_bind_eq_ok rest
    obtain ⟨same, sameFound, rfl⟩ := modifyNode_eq_ok masked
    obtain ⟨rfl, rfl⟩ := perform_pure_eq_ok rest
    cases found.symm.trans sameFound
    exact .turnedBack found (.inr barred)
  next fresh =>
  have rest := modify_bind_eq_ok rest
  obtain ⟨_, mid, changed, rest⟩ := perform_bind_eq_ok rest
  obtain ⟨same, edge, sameFound, edgeFound, rfl⟩ := modifyEdge_eq_ok changed
  obtain ⟨rfl, rfl⟩ := perform_pure_eq_ok rest
  cases found.symm.trans sameFound
  exact .created found edgeFound (by simpa using accepted) fresh

omit [Scalar F] in
theorem targetValue_eq_ok {target value}
    (done : (targetValue target : RootEffect G C F F).perform task = (.ok value, final)) :
    final = task ∧ match target with
      | .node index => ∃ leaf, task.nodes[index]? = some leaf ∧ value = leaf.value
      | .terminal held => value = held := by
  cases target with
  | node index =>
    obtain ⟨leaf, mid, looked, rest⟩ := perform_bind_eq_ok done
    obtain ⟨found, rfl⟩ := nodeAt_eq_ok looked
    obtain ⟨rfl, rfl⟩ := perform_pure_eq_ok rest
    exact ⟨rfl, leaf, found, rfl⟩
  | terminal held =>
    obtain ⟨rfl, rfl⟩ := perform_pure_eq_ok done
    exact ⟨rfl, rfl⟩

omit [Scalar F] in
theorem attachTarget_eq_ok {descent attach target}
    (done : (attachTarget descent attach target).perform task = (.ok next, final)) :
    ∃ step value, Installs task ⟨target, attach.turns % 2 == 1⟩ attach.slot final step ∧
        (targetValue target).perform final = (.ok value, final) ∧
          next = .outcome (descent.walk step) value := by
  obtain ⟨step, mid, installed, rest⟩ := perform_bind_eq_ok done
  obtain ⟨value, last, valued, rest⟩ := perform_bind_eq_ok rest
  obtain ⟨rfl, rfl⟩ := perform_pure_eq_ok rest
  obtain ⟨rfl, _⟩ := targetValue_eq_ok valued
  exact ⟨step, value, installs_of_installBranch installed, valued, rfl⟩

variable {descent : Descent} {advance : WaveAdvance G C F} {attach : Attach}

theorem advances_of_followBranch {node action edge branch}
    (found : task.nodes[descent.node]? = some node)
    (chosen : descent.choice node task.config = some action)
    (edgeFound : node.edges[action]? = some edge) (expanded : edge.branch = some branch)
    (done : (followBranch task.config descent.unforced node action edge
      branch).perform task = (.ok next, final)) :
    Advances task (.running descent) none final next := by
  unfold followBranch at done
  dsimp only at done
  split at done
  · next unapplied =>
    obtain ⟨rfl, rfl⟩ := perform_pure_eq_ok done
    have move := Advances.follow found chosen edgeFound expanded
      (fun context applied => by rw [unapplied] at applied; cases applied)
    rw [unapplied] at move
    exact move
  next context applied =>
  split at done
  · next barred =>
    obtain ⟨_, mid, masked, rest⟩ := perform_bind_eq_ok done
    obtain ⟨same, sameFound, rfl⟩ := modifyNode_eq_ok masked
    obtain ⟨rfl, rfl⟩ := perform_pure_eq_ok rest
    cases found.symm.trans sameFound
    exact .turnBack found chosen edgeFound expanded applied barred
  next fresh =>
  obtain ⟨rfl, rfl⟩ := perform_pure_eq_ok done
  have move := Advances.follow found chosen edgeFound expanded (fun other same => by
      rw [applied] at same
      cases same
      exact fresh)
  rw [applied] at move
  exact move

theorem advances_of_advanceRunning
    (done : (advanceRunning descent).perform task = (.ok (advance, next), final)) :
    Advances task (.running descent) advance.work? final next := by
  have done := get_bind_eq_ok done
  obtain ⟨node, mid, looked, rest⟩ := perform_bind_eq_ok done
  obtain ⟨found, rfl⟩ := nodeAt_eq_ok looked
  dsimp only at rest
  split at rest
  · next stuck =>
    cases rest
    exact .pass found stuck
  next action chosen =>
  obtain ⟨edge, mid, looked, rest⟩ := perform_bind_eq_ok rest
  obtain ⟨same, sameFound, edgeFound, rfl⟩ := edgeAt_eq_ok looked
  cases found.symm.trans sameFound
  split at rest
  · next branch expanded =>
    obtain ⟨state, mid, followed, rest⟩ := perform_bind_eq_ok rest
    cases rest
    exact advances_of_followBranch found chosen edgeFound expanded followed
  next unexpanded =>
  split at rest
  · next stops =>
    cases rest
    exact .stop found chosen edgeFound unexpanded stops
  · obtain ⟨token, mid, ticked, rest⟩ := perform_bind_eq_ok rest
    cases ticked
    obtain ⟨candidate, mid, looked, rest⟩ := perform_bind_eq_ok rest
    obtain ⟨candidateFound, rfl⟩ := require_eq_ok looked
    cases rest
    exact .apply found chosen edgeFound unexpanded candidateFound

variable {board : Board G} {advance : WaveAdvance G C F}

theorem advances_of_advanceExpand {played attach reached}
    (turn : (played = board ∧ reached = attach ∧
        board.active task.config.maxSteps board.player = true) ∨
      (played = board.passTurn ∧ reached = attach.nextTurn ∧
        board.active task.config.maxSteps board.player = false ∧
        board.terminal task.config.maxSteps = false))
    (done : (advanceExpand descent played reached).perform task = (.ok (advance, next), final)) :
    Advances task (.resolve descent board attach) advance.work? final next := by
  cases done
  exact .expand turn

theorem advances_of_advanceResolve {attach : Attach}
    (done : (advanceResolve descent board attach).perform task = (.ok (advance, next), final)) :
    Advances task (.resolve descent board attach) advance.work? final next := by
  have done := get_bind_eq_ok done
  dsimp only at done
  split at done
  · next active => exact advances_of_advanceExpand (.inl ⟨rfl, rfl, active⟩) done
  next waits =>
  rw [Bool.not_eq_true] at waits
  split at done
  · next finished =>
    have done := get_bind_eq_ok done
    obtain ⟨context, mid, looked, rest⟩ := perform_bind_eq_ok done
    obtain ⟨known, rfl⟩ := require_eq_ok looked
    obtain ⟨request, mid, requested, rest⟩ := perform_bind_eq_ok rest
    obtain ⟨asked, rfl⟩ := settled_eq_ok requested
    cases rest
    exact .terminal finished known asked
  · next going =>
    rw [Bool.not_eq_true] at going
    exact advances_of_advanceExpand (.inr ⟨rfl, rfl, waits, going⟩) done

theorem advances_of_completeWaveEval {attach : Attach} {expansion request output}
    (done : (completeWaveEval descent board attach expansion request
      output).perform task = (.ok next, final)) :
    Advances task (.evalComplete descent board attach expansion request output) none
      final next := by
  obtain ⟨_, mid, checked, rest⟩ := perform_bind_eq_ok done
  obtain ⟨valid, rfl⟩ := evaluated_eq_ok checked
  have rest := get_bind_eq_ok rest
  obtain ⟨step, value, installs, valued, rfl⟩ := attachTarget_eq_ok rest
  obtain ⟨_, leaf, found, rfl⟩ := targetValue_eq_ok valued
  exact .complete valid installs found

theorem advances_of_completeTerminalEval {request output}
    (done : (completeTerminalEval descent attach request output).perform task = (.ok next, final)) :
    Advances task (.terminalEvalComplete descent attach request output) none final next := by
  obtain ⟨_, mid, checked, rest⟩ := perform_bind_eq_ok done
  obtain ⟨valid, rfl⟩ := evaluated_eq_ok checked
  obtain ⟨step, value, installs, valued, rfl⟩ := attachTarget_eq_ok rest
  obtain ⟨_, same⟩ := targetValue_eq_ok valued
  rw [same]
  exact .completeTerminal valid installs

theorem advances_of_advanceWaveSimulation {deferCompletions : Bool} {state}
    (done : (advanceWaveSimulation deferCompletions state).perform task =
      (.ok (advance, next), final)) :
    Advances task state advance.work? final next := by
  cases state with
  | running descent => exact advances_of_advanceRunning done
  | resolve descent board attach => exact advances_of_advanceResolve done
  | evalReady descent board attach expansion =>
    have done := get_bind_eq_ok done
    obtain ⟨request, mid, requested, rest⟩ := perform_bind_eq_ok done
    obtain ⟨asked, rfl⟩ := settled_eq_ok requested
    cases rest
    exact .eval asked
  | evalComplete descent board attach expansion request output =>
    cases deferCompletions with
    | true =>
      cases done
      exact .wait
    | false =>
      obtain ⟨reached, mid, completed, rest⟩ := perform_bind_eq_ok done
      cases rest
      exact advances_of_completeWaveEval completed
  | terminalEvalComplete descent attach request output =>
    cases deferCompletions with
    | true =>
      cases done
      exact .wait
    | false =>
      obtain ⟨reached, mid, completed, rest⟩ := perform_bind_eq_ok done
      cases rest
      exact advances_of_completeTerminalEval completed
  | vacant => exact absurd done perform_throw_ne_ok
  | outcome _ _ | rootApplyReady _ | applyPending _ _ _ _
  | expandPending _ _ _ _ | evalPending _ _ _ _ _ _
  | terminalEvalPending _ _ _ _ =>
    cases done
    exact .wait

theorem receives_of_resumeSimulation [DecidableEq G] {preflight : Bool} {state next result resumed}
    (matched : resumeSimulation preflight state result = some resumed)
    (done : resumed.perform task = (.ok next, final)) :
    Receives preflight task state result final next := by
  unfold resumeSimulation at matched
  split at matched
  · cases matched
    split at done
    · next early =>
      cases done
      exact .speculated early
    · next late =>
      exact .applied (by simpa using late)
        (applies_of_resumeWaveApply done)
  · cases matched
    have done := get_bind_eq_ok (modify_bind_eq_ok done)
    dsimp only at done
    split at done
    · obtain ⟨_, _, failed, _⟩ := perform_bind_eq_ok done
      exact absurd failed perform_throw_ne_ok
    next board attach expansion _ same =>
    have known : ∀ context, board.contexts.of board.player = some context →
          context = task.identity.context expansion.graphHash := by
      intro context here
      simpa [RootTask.createAll, here] using same
    split at done
    · next empty =>
      cases done
      exact .stuck known (List.isEmpty_iff.mp empty)
    · next offered =>
      cases done
      exact .expanded known fun empty =>
        offered (List.isEmpty_iff.mpr empty)
  · cases matched
    cases done
    exact .evaluated
  · cases matched
    cases done
    exact .terminalEvaluated
  · cases matched

end Soundness

end GraphZero.Search
