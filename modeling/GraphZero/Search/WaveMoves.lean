import GraphZero.Foundation.Result
import GraphZero.Search.RootMoves

/-!
# The moves of a wave

The steps of a task together with its wave, and what polling and resuming a
root task come to in terms of them.
-/

namespace GraphZero.Search

open Engine Foundation Effect

variable {G C F : Type} [Scalar F]

def WaveRun.withActive (wave : WaveRun G C F)
    (active : List (WaveSimulationState G C F)) : WaveRun G C F :=
  { wave with active }

variable {wave : WaveRun G C F} {active : List (WaveSimulationState G C F)}

omit [Scalar F] in
theorem WaveRun.withActive_self (same : wave.active = active) : wave.withActive active = wave := by
  rw [← same]
  rfl

/-- The wave after all its simulations were counted. -/
def WaveRun.settled (wave : WaveRun G C F) (ended : Nat) : WaveRun G C F :=
  { wave with
    active := []
    run :=
      { wave.run with
        simulations := wave.run.simulations + ended
        scheduleIndex := wave.run.scheduleIndex + ended } }

theorem active_launchWave {task root state} (idle : wave.active = [])
    (member : state ∈ (launchWave task root wave).active) :
    ∃ action, state = .running (newDescent task.visited root action) := by
  unfold launchWave at member
  split at member
  · rw [idle] at member
    cases member
  dsimp only at member
  rw [idle, List.nil_append] at member
  obtain ⟨action, _, rfl⟩ := List.mem_map.mp member
  exact ⟨action, rfl⟩

section Steps

variable [DecidableEq G]

/-- A step of a task and its wave, with the work it hands out. -/
inductive WaveStep : RootTask G C F → WaveRun G C F →
    Option (SearchWork G C F) → RootTask G C F → WaveRun G C F → Prop where
  | launch {task wave root} (idle : wave.active = []) (found : task.nodes[0]? = some root) :
    WaveStep task wave none task (launchWave task root wave)
  | advance {task final wave before after state next work}
    (split : wave.active = before ++ state :: after)
    (advances : Advances task state work final next) :
    WaveStep task wave work final (wave.withActive (before ++ next :: after))
  | install {task final wave before after ready next}
    (split : wave.active = before ++ .rootApplyReady ready :: after)
    (held : ready.applied.after ∈ task.speculativeGraphs)
    (applies : Applies (task.forget ready.applied.after) ready.descent
      ready.node ready.action ready.applied final next) :
    WaveStep task wave none final (wave.withActive (before ++ next :: after))
  | discard {task wave before after ready}
    (split : wave.active = before ++ .rootApplyReady ready :: after)
    (held : ready.applied.after ∈ task.speculativeGraphs) :
    WaveStep task wave none ((task.forget ready.applied.after).release ready.applied.after)
      (wave.withActive (before ++ after))
  | resolved {task wave} :
    WaveStep task wave none task { wave with rootApplyPreflight := false }
  | settle {task final wave outcomes} (ended : wave.active.mapM (·.outcome?) = some outcomes)
    (counted : (backupAll outcomes).perform task = (.ok ⟨⟩, final)) :
    WaveStep task wave none final (wave.settled outcomes.length)

inductive WaveRuns : RootTask G C F → WaveRun G C F → RootTask G C F → WaveRun G C F → Prop where
  | refl {task wave} :
    WaveRuns task wave task wave
  | tail {task mid final wave between last} (runs : WaveRuns task wave mid between)
    (step : WaveStep mid between none final last) :
    WaveRuns task wave final last

variable {last : WaveRun G C F}

theorem WaveRuns.trans {task mid final between} (first : WaveRuns task wave mid between)
    (second : WaveRuns mid between final last) :
    WaveRuns task wave final last := by
  induction second with
  | refl => exact first
  | tail _ step ih => exact .tail (ih first) step

theorem WaveStep.runs {task final} (step : WaveStep task wave none final last) :
    WaveRuns task wave final last :=
  .tail .refl step

theorem WaveRuns.keeps (inside : RootTask G C F → WaveRun G C F → Prop)
    (step : ∀ task wave final last, inside task wave →
      WaveStep task wave none final last → inside final last) {task final}
    (begun : inside task wave) (runs : WaveRuns task wave final last) :
    inside final last := by
  induction runs with
  | refl => exact begun
  | tail _ taken ih => exact step _ _ _ _ (ih begun) taken

end Steps

/-! ## Counting -/

theorem alikeTree_of_backupSteps {task final : RootTask G C F} {steps value result}
    (done : (backupSteps steps value).perform task = (.ok result, final)) :
    task.AlikeTree final := by
  induction steps generalizing task value with
  | nil =>
    cases done
    exact .refl _
  | cons step rest ih =>
    cases step with
    | decision index action flip =>
      obtain ⟨_, mid, counted, rest⟩ := perform_bind_eq_ok done
      obtain ⟨node, edge, found, edgeFound, rfl⟩ := modifyEdge_eq_ok counted
      have later := ih rest
      refine RootTask.AlikeTree.trans ?_ later
      exact RootTask.alikeTree_setNode found (.setEdge edgeFound rfl rfl)
    | transform flip => exact ih done

theorem alikeTree_of_backupAll {task final : RootTask G C F} {outcomes result}
    (done : (backupAll outcomes).perform task = (.ok result, final)) :
    task.AlikeTree final := by
  induction outcomes generalizing task with
  | nil =>
    cases done
    exact .refl _
  | cons outcome rest ih =>
    obtain ⟨_, mid, counted, rest⟩ := perform_bind_eq_ok done
    exact (alikeTree_of_backupSteps counted).trans (ih rest)

section Soundness

variable [DecidableEq G] {task final : RootTask G C F}

omit [Scalar F] in
theorem consumeSpeculativeGraph_eq_ok {graph value}
    (done : (consumeSpeculativeGraph graph).perform task = (.ok value, final)) :
    graph ∈ task.speculativeGraphs ∧ final = task.forget graph := by
  have done := get_bind_eq_ok done
  split at done
  · next held =>
    cases done
    exact ⟨held, rfl⟩
  · exact absurd done perform_throw_ne_ok

theorem resolveReady_eq_ok {ready next}
    (done : (resolveReady ready).perform task = (.ok next, final)) :
    ready.applied.after ∈ task.speculativeGraphs ∧
      Applies (task.forget ready.applied.after) ready.descent ready.node
        ready.action ready.applied final next := by
  obtain ⟨_, mid, consumed, rest⟩ := perform_bind_eq_ok done
  obtain ⟨held, rfl⟩ := consumeSpeculativeGraph_eq_ok consumed
  exact ⟨held, applies_of_resumeWaveApply rest⟩

theorem runs_of_resolveReady {ready : List (RootApplyReady G)} {resolved}
    (before : List (WaveSimulationState G C F))
    (split : wave.active = before ++ ready.map .rootApplyReady)
    (done : (ready.mapM resolveReady).perform task = (.ok resolved, final)) :
    WaveRuns task wave final (wave.withActive (before ++ resolved)) := by
  induction ready generalizing task wave before resolved with
  | nil =>
    cases done
    change WaveRuns final wave final (wave.withActive (before ++ List.map .rootApplyReady []))
    rw [WaveRun.withActive_self split]
    exact .refl
  | cons first rest ih =>
    rw [List.mapM_cons] at done
    obtain ⟨next, mid, installed, done⟩ := perform_bind_eq_ok done
    obtain ⟨held, applies⟩ := resolveReady_eq_ok installed
    obtain ⟨others, last, later, done⟩ := perform_bind_eq_ok done
    cases done
    have step := WaveStep.install split held applies
    refine step.runs.trans ?_
    have shifted : (wave.withActive (before ++ next :: rest.map .rootApplyReady)).active =
            (before ++ [next]) ++ rest.map .rootApplyReady := by
      simp [WaveRun.withActive]
    have rest := ih (before ++ [next]) shifted later
    simpa [WaveRun.withActive] using rest

theorem runs_of_discard {first discarded results}
    (split : wave.active = (first :: discarded).map .rootApplyReady)
    (done : (discarded.mapM fun ready =>
      discardSpeculativeGraph (C := C) (F := F)
        ready.applied.after).perform task = (.ok results, final)) :
    WaveRuns task wave final (wave.withActive [.rootApplyReady first]) := by
  induction discarded generalizing task wave results with
  | nil =>
    cases done
    change WaveRuns final wave final (wave.withActive (List.map .rootApplyReady [first]))
    rw [WaveRun.withActive_self split]
    exact .refl
  | cons ready rest ih =>
    rw [List.mapM_cons] at done
    obtain ⟨_, mid, dropped, done⟩ := perform_bind_eq_ok done
    obtain ⟨_, between, consumed, dropped⟩ := perform_bind_eq_ok dropped
    obtain ⟨held, rfl⟩ := consumeSpeculativeGraph_eq_ok consumed
    cases dropped
    obtain ⟨others, last, later, done⟩ := perform_bind_eq_ok done
    cases done
    have second : wave.active = [.rootApplyReady first] ++
          .rootApplyReady ready :: rest.map .rootApplyReady := split
    have step := WaveStep.discard second held
    refine step.runs.trans ?_
    have fewer : (wave.withActive ([.rootApplyReady first] ++ rest.map .rootApplyReady)).active =
            (first :: rest).map .rootApplyReady := rfl
    exact ih fewer later

omit [Scalar F] [DecidableEq G] in
theorem active_eq_of_ready {ready} (all : active.mapM (·.ready?) = some ready) :
    active = ready.map .rootApplyReady := by
  have each := forall₂_of_mapM_eq_some all
  clear all
  induction each with
  | nil => rfl
  | cons found _ ih =>
    rw [List.map_cons, ← ih]
    refine congrArg (· :: _) ?_
    unfold WaveSimulationState.ready? at found
    split at found
    · cases found
      rfl
    · cases found

theorem runs_of_resolveNext {next : WaveRun G C F}
    (done : (resolveNext wave).perform task = (.ok next, final)) :
    WaveRuns task wave final next := by
  unfold resolveNext at done
  split at done
  · have done := get_bind_eq_ok done
    split at done
    · exact absurd done perform_throw_ne_ok
    next ready all =>
    have split := active_eq_of_ready all
    split at done
    · obtain ⟨active, mid, installed, rest⟩ := perform_bind_eq_ok done
      cases rest
      exact .tail (runs_of_resolveReady [] split installed) .resolved
    cases ready with
    | nil => exact absurd done perform_throw_ne_ok
    | cons first discarded =>
      obtain ⟨_, mid, dropped, done⟩ := perform_bind_eq_ok done
      obtain ⟨state, last, installed, rest⟩ := perform_bind_eq_ok done
      obtain ⟨held, applies⟩ := resolveReady_eq_ok installed
      cases rest
      have given := runs_of_discard split dropped
      have alone : (wave.withActive [.rootApplyReady first]).active =
            [] ++ .rootApplyReady first :: [] := rfl
      exact .tail (given.tail (.install alone held applies)) .resolved
  · cases done
    exact .refl

/-- A run, the last step of which may hand out work. -/
def Hands (task : RootTask G C F) (wave : WaveRun G C F)
    (work : Option (SearchWork G C F)) (final : RootTask G C F)
    (last : WaveRun G C F) : Prop :=
  match work with
  | none => WaveRuns task wave final last
  | some work => ∃ mid between, WaveRuns task wave mid between ∧
      WaveStep mid between (some work) final last

variable {work : Option (SearchWork G C F)}

theorem Hands.of_runs {mid between last} (runs : WaveRuns task wave mid between)
    (hands : Hands mid between work final last) :
    Hands task wave work final last := by
  cases work with
  | none => exact runs.trans hands
  | some work =>
    obtain ⟨inner, inside, later, step⟩ := hands
    exact ⟨inner, inside, runs.trans later, step⟩

theorem WaveStep.hands {last} (step : WaveStep task wave work final last) :
    Hands task wave work final last := by
  cases work with
  | none => exact step.runs
  | some work => exact ⟨task, wave, .refl, step⟩

theorem hands_of_advanceAll {deferCompletions progressed moved stepped}
    (before : List (WaveSimulationState G C F)) (split : wave.active = before ++ active)
    (done : (advanceAll deferCompletions active progressed).perform task =
      (.ok (stepped, work, moved), final)) :
    Hands task wave work final (wave.withActive (before ++ stepped)) := by
  induction active generalizing task wave before stepped progressed with
  | nil =>
    cases done
    rw [WaveRun.withActive_self split]
    exact .refl
  | cons state rest ih =>
    obtain ⟨⟨advance, next⟩, mid, advanced, done⟩ := perform_bind_eq_ok done
    have step := WaveStep.advance split (advances_of_advanceWaveSimulation advanced)
    have later {progressed : Bool} {others : List _}
        (done : (advanceAll deferCompletions rest progressed).perform
          mid = (.ok (others, work, moved), final)) :
        Hands mid (wave.withActive (before ++ next :: rest)) work final
          (wave.withActive (before ++ next :: others)) := by
      have shifted : (wave.withActive (before ++ next :: rest)).active =
          (before ++ [next]) ++ rest := by
        simp [WaveRun.withActive]
      have reached := ih (before ++ [next]) shifted done
      simpa [WaveRun.withActive] using reached
    cases advance with
    | work handed =>
      cases done
      exact step.hands
    | progressed | waiting =>
      obtain ⟨⟨others, _, _⟩, _, walked, done⟩ := perform_bind_eq_ok done
      cases done
      exact Hands.of_runs step.runs (later walked)

theorem runs_of_launchNext {next} (done : (launchNext wave).perform task = (.ok next, final)) :
    WaveRuns task wave final next := by
  unfold launchNext at done
  split at done
  · next idle =>
    have done := get_bind_eq_ok done
    obtain ⟨root, mid, looked, rest⟩ := perform_bind_eq_ok done
    obtain ⟨found, rfl⟩ := nodeAt_eq_ok looked
    cases rest
    exact (WaveStep.launch (List.isEmpty_iff.mp idle) found).runs
  · cases done
    exact .refl

end Soundness

section Polling

variable [DecidableEq G] [DecidableEq C]

inductive RoundEnds (fuel : Nat) (task : RootTask G C F) (wave : WaveRun G C F) :
    SearchPoll G C F (SymmetricRootResult G C F) → RootTask G C F → Prop where
  | work {mid between work} (hands : Hands task wave (some work) mid between) :
    RoundEnds fuel task wave (.work work) { mid with state := .waveRunning between }
  | blocked {mid between} (runs : WaveRuns task wave mid between)
    (waits : between.anyPending = true) :
    RoundEnds fuel task wave .blocked { mid with state := .waveRunning between }
  | finished {mid final between polled} (runs : WaveRuns task wave mid between)
    (idle : between.active = [])
    (finish : (finishRoot fuel between.run).perform mid = (.ok polled, final)) :
    RoundEnds fuel task wave polled final

theorem RoundEnds.of_runs {fuel task mid final between polled}
    (runs : WaveRuns task wave mid between) (ends : RoundEnds fuel mid between polled final) :
    RoundEnds fuel task wave polled final := by
  cases ends with
  | work hands => exact .work (Hands.of_runs runs hands)
  | blocked later waits => exact .blocked (runs.trans later) waits
  | finished later idle finish => exact .finished (runs.trans later) idle finish

variable {task final : RootTask G C F}

omit [DecidableEq C] in
theorem settleWave_eq_ok {work progressed} {R : Type} {outcome : WaveRun G C F ⊕ SearchPoll G C F R}
    (done : (settleWave wave work progressed).perform task = (.ok outcome, final)) :
    (∃ handed, work = some handed ∧ outcome = .inr (.work handed) ∧
      final = { task with state := .waveRunning wave }) ∨
    (work = none ∧ wave.anyPending = true ∧ outcome = .inr .blocked ∧
      final = { task with state := .waveRunning wave }) ∨
    (work = none ∧ ∃ next, outcome = .inl next ∧ WaveRuns task wave final next) := by
  unfold settleWave at done
  split at done
  · next handed =>
    cases done
    exact .inl ⟨handed, rfl, rfl, rfl⟩
  split at done
  · next waits =>
    cases done
    exact .inr (.inl ⟨rfl, waits, rfl, rfl⟩)
  split at done
  · next outcomes ended =>
    obtain ⟨_, mid, counted, rest⟩ := perform_bind_eq_ok done
    cases rest
    exact .inr (.inr ⟨rfl, _, rfl, (WaveStep.settle ended counted).runs⟩)
  · split at done
    · cases done
      exact .inr (.inr ⟨rfl, wave, rfl, .refl⟩)
    · obtain ⟨_, _, _, failed⟩ := perform_bind_eq_ok done
      exact absurd failed perform_throw_ne_ok

theorem waveRound_eq_ok {fuel outcome}
    (done : (waveRound fuel wave).perform task = (.ok outcome, final)) :
    (∃ next, outcome = .inl next ∧ WaveRuns task wave final next) ∨
      (∃ polled, outcome = .inr polled ∧ RoundEnds fuel task wave polled final) := by
  obtain ⟨launched, mid, launch, done⟩ := perform_bind_eq_ok done
  have begun := runs_of_launchNext launch
  split at done
  · next idle =>
    obtain ⟨polled, last, finish, rest⟩ := perform_bind_eq_ok done
    cases rest
    exact .inr ⟨polled, rfl, .finished begun (List.isEmpty_iff.mp idle) finish⟩
  · obtain ⟨resolved, between, resolve, done⟩ := perform_bind_eq_ok done
    have ready := begun.trans (runs_of_resolveNext resolve)
    obtain ⟨⟨active, work, progressed⟩, last, advanced, done⟩ := perform_bind_eq_ok done
    have all : resolved.active = [] ++ resolved.active := rfl
    have stepped := Hands.of_runs ready (hands_of_advanceAll [] all advanced)
    rcases settleWave_eq_ok done with ⟨handed, rfl, rfl, rfl⟩ |
      ⟨rfl, waits, rfl, rfl⟩ | ⟨rfl, next, rfl, settled⟩
    · exact .inr ⟨_, rfl, .work stepped⟩
    · exact .inr ⟨_, rfl, .blocked stepped waits⟩
    · exact .inl ⟨next, rfl, WaveRuns.trans stepped settled⟩

/-- The turn is at a player who can move. -/
def TurnAt (maxSteps : Nat) (board played : Board G) : Prop :=
  (played = board ∧ board.active maxSteps board.player = true) ∨ (played = board.passTurn ∧
      board.active maxSteps board.player = false ∧
      board.terminal maxSteps = false)

/-- What polling a root task comes to. -/
inductive Polls (fuel : Nat) (task : RootTask G C F) :
    SearchPoll G C F (SymmetricRootResult G C F) → RootTask G C F → Prop where
  | blocked (waits : task.pending.isSome = true) :
    Polls fuel task .blocked task
  | resolve {board played} (idle : task.pending = none) (state : task.state = .resolve board)
    (turn : TurnAt task.config.maxSteps board played) :
    Polls fuel task (.work (.expand
        { token := ⟨task.nextToken⟩
          graph := played.currentGraph
          options := task.config.candidateOptions }))
      { task.tick with
        state := .done
        pending := some (.expand ⟨task.nextToken⟩ played) }
  | eval {board expansion request} (idle : task.pending = none)
    (state : task.state = .eval board expansion)
    (asked : evalRequest task.config board expansion.context
      expansion.evalActions "invalid symmetric eval request" = .ok request) :
    Polls fuel task (.work (.eval (evalWork task.config ⟨task.nextToken⟩ board
          (expansion.candidates.map (·.handle)) request)))
      { task.tick with
        state := .done
        pending :=
          some (.eval ⟨task.nextToken⟩ board expansion request) }
  | wave {wave polled final} (idle : task.pending = none) (state : task.state = .waveRunning wave)
    (ends : RoundEnds fuel { task with state := .done } wave polled final) :
    Polls fuel task polled final
  | result {result} (idle : task.pending = none) (state : task.state = .doneResult result) :
    Polls fuel task (.done result) { task with state := .done }

theorem polls_of_poll {fuel polled}
    (done : (RootTask.poll fuel).perform task = (.ok polled, final)) :
    Polls fuel task polled final := by
  have done := get_bind_eq_ok done
  split at done
  · next waits =>
    cases done
    exact .blocked waits
  next idle =>
  have idle : task.pending = none := by simpa using idle
  have done := modify_bind_eq_ok done
  dsimp only at done
  split at done
  · next board state =>
    split at done
    · next active =>
      cases done
      exact .resolve idle state (.inl ⟨rfl, active⟩)
    next waits =>
    rw [Bool.not_eq_true] at waits
    split at done
    · exact absurd done perform_throw_ne_ok
    · next going =>
      rw [Bool.not_eq_true] at going
      cases done
      exact .resolve idle state (.inr ⟨rfl, waits, going⟩)
  · next board expansion state =>
    have done := get_bind_eq_ok done
    obtain ⟨request, mid, requested, rest⟩ := perform_bind_eq_ok done
    obtain ⟨asked, rfl⟩ := settled_eq_ok requested
    cases rest
    exact .eval idle state asked
  · next wave state =>
    have keeps : ∀ start mid next reached, WaveRuns { task with state := .done } wave mid start →
          (waveRound fuel start).perform mid = (.ok (.inl next), reached) →
          WaveRuns { task with state := .done } wave reached next := by
      intro start mid next reached runs round
      rcases waveRound_eq_ok round with ⟨_, same, later⟩ | ⟨_, different, _⟩
      · cases same
        exact runs.trans later
      · cases different
    obtain ⟨last, mid, runs, round⟩ := perform_loop_cases (fun start mid =>
        WaveRuns { task with state := .done } wave mid start)
      keeps .refl (by rintro ⟨⟩) done
    rcases waveRound_eq_ok round with ⟨_, different, _⟩ | ⟨_, same, ends⟩
    · cases different
    · cases same
      exact .wave idle state (ends.of_runs runs)
  · next result state =>
    cases done
    exact .result idle state
  · exact absurd done perform_throw_ne_ok

end Polling

section Resuming

variable [DecidableEq G]

omit [Scalar F] [DecidableEq G] in
theorem eq_of_splitPending {token before after state}
    (found : splitPending token active = some (before, state, after)) :
    active = before ++ state :: after ∧ state.pendingToken = some token := by
  induction active generalizing before with
  | nil => cases found
  | cons first rest ih =>
    unfold splitPending at found
    split at found
    · next waits =>
      cases found
      exact ⟨rfl, waits⟩
    cases later : splitPending token rest with
    | none =>
      rw [later] at found
      cases found
    | some parts =>
      rw [later] at found
      cases found
      obtain ⟨split, waits⟩ := ih later
      exact ⟨by rw [split]; rfl, waits⟩

def RootTask.rooted (task : RootTask G C F) (context : ReplayGraphContext)
    (state : RootTaskState G C F) : RootTask G C F :=
  { task with rootContext := some context, pending := none, state }

/-- The task whose root was just evaluated as `node`. -/
def RootTask.evaluatedRoot (task : RootTask G C F) (node : Node G C F) : RootTask G C F :=
  RootTask.grow
    { task with
      pending := none
      rootCandidates :=
        if task.nodes.isEmpty then node.candidateMetadata
        else task.rootCandidates } node

/-- What a result does to the root task it is for. -/
inductive Resumes (task : RootTask G C F) (token : WorkToken) :
    SearchWorkResult G C F → RootTask G C F → Prop where
  | wave {wave before after state next result final} (running : task.state = .waveRunning wave)
    (split : wave.active = before ++ state :: after) (waits : state.pendingToken = some token)
    (receives : Receives wave.rootApplyPreflight task state result final next) :
    Resumes task token result
      { final with
        state := .waveRunning (wave.withActive (before ++ next :: after)) }
  | pass {board result} (pending : task.pending = some (.expand token board))
    (known : ∀ context, board.contexts.of board.player = some context →
      context = task.identity.context result.graphHash)
    (empty : result.candidates = []) :
    Resumes task token (.expand result) ((task.createAll
          (result.candidates.map (·.candidate))).releaseAllCreated.rooted
        (task.identity.context result.graphHash)
        (.doneResult (.pass board.player (task.identity.context result.graphHash))))
  | expand {board result} (pending : task.pending = some (.expand token board))
    (known : ∀ context, board.contexts.of board.player = some context →
      context = task.identity.context result.graphHash)
    (offered : result.candidates ≠ []) :
    Resumes task token (.expand result)
      ((task.createAll (result.candidates.map (·.candidate))).rooted
        (task.identity.context result.graphHash)
        (.eval (placeContext board (task.identity.context result.graphHash))
          (expansionOf (task.identity.context result.graphHash) result)))
  | eval {board expansion request output run}
    (pending : task.pending = some (.eval token board expansion request))
    (valid : output.validateFor request = .ok ())
    (started : startRun (task.evaluatedRoot
      (newNode task.config board expansion output)) = .ok run) :
    Resumes task token (.eval output)
      { task.evaluatedRoot (newNode task.config board expansion output)
        with state := .waveRunning (.start run) }

variable {task final : RootTask G C F}

variable {value : PUnit}

theorem resumes_of_resumeWave {token result} (running : task.state = .waveRunning wave)
    (done : (resumeWave wave token result).perform task = (.ok value, final)) :
    Resumes task token result final := by
  unfold resumeWave at done
  split at done
  · exact absurd done perform_throw_ne_ok
  next before state after found =>
  obtain ⟨split, waits⟩ := eq_of_splitPending found
  split at done
  · exact absurd done perform_throw_ne_ok
  next resumed matched =>
  obtain ⟨outcome, mid, caught, rest⟩ := perform_bind_eq_ok done
  rw [perform_attempt] at caught
  rcases ran : resumed.perform task with
    ⟨_ | next, reached⟩
  · rw [ran] at caught
    cases caught
    obtain ⟨_, _, _, failed⟩ := perform_bind_eq_ok rest
    exact absurd failed perform_throw_ne_ok
  · rw [ran] at caught
    cases caught
    cases rest
    exact .wave running split waits (receives_of_resumeSimulation matched ran)

variable {token : WorkToken}

theorem resumes_of_resumeExpand {board result} (waits : task.pending = some (.expand token board))
    (done : (resumeExpand board result).perform
      { task with pending := none } = (.ok value, final)) :
    Resumes task token (.expand result) final := by
  have done := get_bind_eq_ok (modify_bind_eq_ok done)
  dsimp only at done
  split at done
  · obtain ⟨_, _, failed, _⟩ := perform_bind_eq_ok done
    exact absurd failed perform_throw_ne_ok
  next agrees =>
  have known : ∀ context, board.contexts.of board.player = some context →
        context = task.identity.context result.graphHash := by
    intro context here
    simpa [here] using agrees
  have done := modify_bind_eq_ok done
  split at done
  · next empty =>
    cases done
    exact .pass waits known (List.isEmpty_iff.mp empty)
  · next offered =>
    cases done
    exact .expand waits known fun empty =>
      offered (List.isEmpty_iff.mpr empty)

theorem resumes_of_resumeEval {board expansion request output}
    (waits : task.pending = some (.eval token board expansion request))
    (done : (resumeEval board expansion request output).perform
      { task with pending := none } = (.ok value, final)) :
    Resumes task token (.eval output) final := by
  obtain ⟨_, mid, checked, rest⟩ := perform_bind_eq_ok done
  obtain ⟨valid, rfl⟩ := evaluated_eq_ok checked
  have finish {start : RootTask G C F} (done : (do
        pushNode (newNode task.config board expansion output)
        countEval
        let run ← settled (startRun (← get))
        setState (.waveRunning (.start run)) :
          RootEffect G C F PUnit).perform start = (.ok value, final)) :
      ∃ run, startRun (start.grow (newNode task.config board expansion output)) = .ok run ∧
        final = { start.grow (newNode task.config board expansion output)
          with state := .waveRunning (.start run) } := by
    have counted := modify_bind_eq_ok done
    have reached := modify_bind_eq_ok counted
    obtain ⟨run, mid, scheduled, rest⟩ := perform_bind_eq_ok (get_bind_eq_ok reached)
    obtain ⟨started, rfl⟩ := settled_eq_ok scheduled
    cases rest
    exact ⟨run, started, rfl⟩
  have rest := get_bind_eq_ok rest
  have whole : ∀ start : RootTask G C F,
      (∃ run, startRun (start.grow (newNode task.config board expansion output)) = .ok run ∧
        final = { start.grow (newNode task.config board expansion output)
          with state := .waveRunning (.start run) }) →
      start.grow (newNode task.config board expansion output) =
        task.evaluatedRoot (newNode task.config board expansion output) →
      Resumes task token (.eval output) final := by
    intro start reached same
    obtain ⟨run, started, rfl⟩ := reached
    rw [same] at started ⊢
    exact .eval waits valid started
  split at rest
  · next empty =>
    refine whole _ (finish (modify_bind_eq_ok rest)) ?_
    unfold RootTask.evaluatedRoot
    rw [if_pos empty]
  · next nonempty =>
    refine whole _ (finish rest) ?_
    unfold RootTask.evaluatedRoot
    rw [if_neg nonempty]

theorem resumes_of_resumePending {result}
    (done : (resumePending token result).perform task = (.ok value, final)) :
    Resumes task token result final := by
  replace done := get_bind_eq_ok done
  cases waits : task.pending with
  | none =>
    rw [waits] at done
    exact absurd done perform_throw_ne_ok
  | some pending =>
    rw [waits] at done
    dsimp only at done
    split at done
    · obtain ⟨_, _, failed, _⟩ := perform_bind_eq_ok done
      exact absurd failed perform_throw_ne_ok
    next same =>
    have same : pending.token = token := by simpa using same
    cases pending with
    | expand held board =>
      cases same
      cases result with
      | expand expansion =>
        exact resumes_of_resumeExpand waits done
      | apply _ | measurePair _ _ | eval _ => exact absurd done perform_throw_ne_ok
    | eval held board expansion request =>
      cases same
      cases result with
      | eval output =>
        exact resumes_of_resumeEval waits done
      | apply _ | measurePair _ _ | expand _ => exact absurd done perform_throw_ne_ok

theorem resumes_of_resume [DecidableEq C] {token result}
    (done : (RootTask.resume token result).perform task = (.ok value, final)) :
    Resumes task token result final := by
  have done := get_bind_eq_ok done
  split at done
  · next wave running =>
    split at done
    · exact resumes_of_resumeWave running done
    · exact resumes_of_resumePending done
  · exact resumes_of_resumePending done

end Resuming

end GraphZero.Search
