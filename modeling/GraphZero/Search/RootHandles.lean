import GraphZero.Search.RootLedger

/-!
# A root task keeps its handles

Each computation of a root task hands its handles to the lists of the task or
back with its value.
-/

namespace GraphZero.Search

open Engine Foundation Effect

variable {G C F : Type}

theorem conserves_resumeWaveApply [Scalar F] (descent : Descent)
    (nodeIndex action : Nat) (applied : ApplyResult G) :
    Conserves (C := C) (F := F) (graphOf applied.after)
      (resumeWaveApply descent nodeIndex action applied) fun _ => 0 := by
  refine Balances.bind conserves_get fun task => ?_
  split
  · refine Balances.bind (conserves_releaseGraph _) fun _ => ?_
    refine Balances.bind (treeOnly_maskAction _ _).neutral fun _ => ?_
    exact balances_pure rfl
  refine Balances.bind (conserves_nodeAt nodeIndex) fun node => ?_
  dsimp only
  split
  · refine Balances.bind (conserves_releaseGraph _) fun _ => ?_
    refine Balances.bind (treeOnly_maskAction _ _).neutral fun _ => ?_
    exact balances_pure rfl
  · refine Balances.bind (conserves_createGraph _) fun _ => ?_
    refine Balances.bind (treeOnly_modifyEdge _ _ _).neutral fun _ => ?_
    exact balances_pure rfl

def ExpandResult.handles (result : ExpandResult C F) : List C :=
  result.candidates.map (·.candidate)

section Resume

variable [DecidableEq G]

theorem conserves_resumeWaveExpand (descent : Descent) (board : Board G)
    (attach : Attach) (result : ExpandResult C F) :
    Conserves (holdingsOf [] result.handles)
      (resumeWaveExpand descent board attach result) fun _ => 0 := by
  refine Balances.bind (conserves_createCandidates _) fun _ => ?_
  refine Balances.bind conserves_get fun task => ?_
  dsimp only
  split
  · refine Balances.bind (neutral_of_keeps (keeps_internal _)) fun _ => ?_
    split
    · exact balances_pure rfl
    · exact balances_pure rfl
  · split
    · exact balances_pure rfl
    · exact balances_pure rfl

theorem neutral_enterRoot (board : Board G) (context : ReplayGraphContext)
    (result : ExpandResult C F) :
    Neutral (enterRoot board context result) := by
  refine Balances.bind (neutral_modify fun _ => rfl) fun _ => ?_
  split
  · refine Balances.bind neutral_releaseAllCreated fun _ => ?_
    exact neutral_setState _
  · exact neutral_setState _

theorem conserves_resumeExpand (board : Board G) (result : ExpandResult C F) :
    Conserves (holdingsOf [] result.handles) (resumeExpand board result) fun _ => 0 := by
  refine Balances.bind (conserves_createCandidates _) fun _ => ?_
  refine Balances.bind conserves_get fun task => ?_
  dsimp only
  split
  · refine Balances.bind (neutral_of_keeps (keeps_internal _)) fun _ => ?_
    exact neutral_enterRoot board _ result
  · exact neutral_enterRoot board _ result

end Resume

variable [Scalar F]

theorem neutral_resumeEval (board : Board G) (expansion : Expansion C F)
    (request : EvalRequest F) (output : EvalOutput F) :
    Neutral (resumeEval board expansion request output) := by
  refine Balances.bind (neutral_of_keeps (keeps_evaluated _)) fun _ => ?_
  refine Balances.bind conserves_get fun task => ?_
  have rest : Neutral (do
      pushNode (newNode task.config board expansion output)
      countEval
      let run ← settled (startRun (← get))
      setState (.waveRunning (.start run)) : RootEffect G C F Unit) := by
    refine Balances.bind (treeOnly_pushNode _).neutral fun _ => ?_
    refine Balances.bind treeOnly_countEval.neutral fun _ => ?_
    refine Balances.bind conserves_get fun task => ?_
    refine Balances.bind (neutral_of_keeps (keeps_settled _)) fun run => ?_
    exact neutral_setState _
  split
  · exact Balances.bind (neutral_modify fun _ => rfl) fun _ => rest
  · exact rest

section Preflight

variable [DecidableEq G]

theorem neutral_resolveReady (ready : RootApplyReady G) :
    Neutral (resolveReady ready : RootEffect G C F _) := by
  refine Balances.bind (conserves_consumeSpeculativeGraph _) fun _ => ?_
  exact conserves_resumeWaveApply _ _ _ ready.applied

theorem neutral_resolveRootApplyPreflight (wave : WaveRun G C F) :
    Neutral (resolveRootApplyPreflight wave) := by
  refine Balances.bind conserves_get fun task => ?_
  split
  · exact neutral_of_keeps (keeps_internal _)
  split
  · refine Balances.bind (balances_mapM neutral_resolveReady _) fun active => ?_
    exact balances_pure rfl
  split
  · exact neutral_of_keeps (keeps_internal _)
  refine Balances.bind (balances_mapM
    (fun ready => neutral_discardSpeculativeGraph _) _) fun _ => ?_
  refine Balances.bind (neutral_resolveReady _) fun state => ?_
  exact balances_pure rfl

end Preflight

/-! ## Advancing -/

theorem neutral_advanceRunning (descent : Descent) :
    Neutral (advanceRunning descent : RootEffect G C F _) := by
  refine Balances.bind conserves_get fun task => ?_
  refine Balances.bind (neutral_of_keeps (keeps_nodeAt _)) fun node => ?_
  dsimp only
  split
  · exact balances_pure rfl
  refine Balances.bind (neutral_of_keeps (keeps_edgeAt _ _)) fun edge => ?_
  split
  · refine Balances.bind (treeOnly_followBranch _ _ _ _ _ _).neutral fun next => ?_
    exact balances_pure rfl
  split
  · exact balances_pure rfl
  refine Balances.bind neutral_nextToken fun token => ?_
  refine Balances.bind (neutral_of_keeps (keeps_require _ _)) fun _ => ?_
  exact balances_pure rfl

theorem neutral_advanceTerminal (descent : Descent) (board : Board G) (attach : Attach) :
    Neutral (advanceTerminal descent board attach : RootEffect G C F _) := by
  refine Balances.bind conserves_get fun task => ?_
  refine Balances.bind (neutral_of_keeps (keeps_require _ _)) fun context => ?_
  refine Balances.bind (neutral_of_keeps (keeps_settled _)) fun request => ?_
  refine Balances.bind neutral_nextToken fun token => ?_
  exact balances_pure rfl

omit [Scalar F] in
theorem neutral_advanceExpand (descent : Descent) (board : Board G) (attach : Attach) :
    Neutral (advanceExpand descent board attach : RootEffect G C F _) := by
  refine Balances.bind conserves_get fun task => ?_
  refine Balances.bind neutral_nextToken fun token => ?_
  exact balances_pure rfl

theorem neutral_advanceResolve (descent : Descent) (board : Board G) (attach : Attach) :
    Neutral (advanceResolve descent board attach : RootEffect G C F _) := by
  refine Balances.bind conserves_get fun task => ?_
  dsimp only
  split
  · exact neutral_advanceExpand descent board attach
  split
  · exact neutral_advanceTerminal descent board attach
  · exact neutral_advanceExpand descent _ _

theorem neutral_advanceEval (descent : Descent) (board : Board G)
    (attach : Attach) (expansion : Expansion C F) :
    Neutral (advanceEval descent board attach expansion) := by
  refine Balances.bind conserves_get fun task => ?_
  refine Balances.bind (neutral_of_keeps (keeps_settled _)) fun request => ?_
  refine Balances.bind neutral_nextToken fun token => ?_
  exact balances_pure rfl

theorem neutral_advanceWaveSimulation (deferCompletions : Bool)
    (state : WaveSimulationState G C F) :
    Neutral (advanceWaveSimulation deferCompletions state) := by
  cases state with
  | running descent => exact neutral_advanceRunning descent
  | resolve descent board attach => exact neutral_advanceResolve descent board attach
  | evalReady descent board attach expansion =>
    exact neutral_advanceEval descent board attach expansion
  | evalComplete descent board attach expansion request output =>
    cases deferCompletions with
    | true => exact balances_pure rfl
    | false =>
      refine Balances.bind (treeOnly_completeWaveEval _ _ _ _ _ _).neutral fun next => ?_
      exact balances_pure rfl
  | terminalEvalComplete descent attach request output =>
    cases deferCompletions with
    | true => exact balances_pure rfl
    | false =>
      refine Balances.bind (treeOnly_completeTerminalEval _ _ _ _).neutral fun next => ?_
      exact balances_pure rfl
  | outcome descent value => exact balances_pure rfl
  | rootApplyReady ready => exact balances_pure rfl
  | applyPending token descent node action => exact balances_pure rfl
  | expandPending token descent board attach => exact balances_pure rfl
  | evalPending token descent board attach expansion request => exact balances_pure rfl
  | terminalEvalPending token descent attach request => exact balances_pure rfl
  | vacant => exact neutral_of_keeps (keeps_internal _)

theorem neutral_advanceAll (deferCompletions : Bool)
    (active : List (WaveSimulationState G C F)) (progressed : Bool) :
    Neutral (advanceAll deferCompletions active progressed) := by
  induction active generalizing progressed with
  | nil => exact balances_pure rfl
  | cons state active ih =>
    refine Balances.bind (neutral_advanceWaveSimulation deferCompletions state) fun step => ?_
    obtain ⟨advance, next⟩ := step
    cases advance with
    | work work => exact balances_pure rfl
    | progressed =>
      refine Balances.bind (ih true) fun _ => ?_
      exact balances_pure rfl
    | waiting =>
      refine Balances.bind (ih progressed) fun _ => ?_
      exact balances_pure rfl

theorem conserves_settleWave {R : Type} (outgo : R → Holdings G C)
    (wave : WaveRun G C F) (work : Option (SearchWork G C F))
    (progressed : Bool) :
    Conserves 0 (settleWave wave work progressed (R := R))
      fun outcome => outcome.elim (fun _ => 0) (SearchPoll.holdings outgo) := by
  unfold settleWave
  split
  · refine Balances.bind (neutral_setState _) fun _ => ?_
    exact balances_pure rfl
  split
  · refine Balances.bind (neutral_setState _) fun _ => ?_
    exact balances_pure rfl
  split
  · refine Balances.bind (treeOnly_backupAll _).neutral fun _ => ?_
    exact balances_pure rfl
  split
  · exact balances_pure rfl
  · refine Balances.bind (neutral_setState _) fun _ => ?_
    exact balances_throw fun _ => rfl

/-! ## The end of the turn -/

section Finish

variable [DecidableEq G] [DecidableEq C]

omit [Scalar F] [DecidableEq G] [DecidableEq C] in
theorem holdingsOf_filter (graphs : List G) (candidates : List C)
    (keptGraph : G → Prop) [DecidablePred keptGraph]
    (keptCandidate : C → Prop) [DecidablePred keptCandidate] :
    holdingsOf (graphs.filter keptGraph) (candidates.filter keptCandidate) +
        holdingsOf (graphs.filter fun graph => ¬ keptGraph graph)
          (candidates.filter fun candidate => ¬ keptCandidate candidate) =
      holdingsOf graphs candidates := by
  rw [← holdingsOf_append]
  unfold holdingsOf
  have graphsSame : (graphs.filter keptGraph ++
      graphs.filter fun graph => ¬ keptGraph graph).Perm graphs := by
    simpa using List.filter_append_perm (fun graph => keptGraph graph) graphs
  have candidatesSame : (candidates.filter keptCandidate ++
      candidates.filter fun candidate => ¬ keptCandidate candidate).Perm candidates := by
    simpa using List.filter_append_perm (fun candidate => keptCandidate candidate) candidates
  rw [Multiset.coe_eq_coe.mpr graphsSame, Multiset.coe_eq_coe.mpr candidatesSame]

omit [Scalar F] in
theorem holdings_carryOver (task : RootTask G C F)
    (nodes : List (Node G C F)) (unused : task.reused = none) :
    (carryOver task nodes).holdings = task.holdings := by
  have split := holdingsOf_filter task.createdGraphs task.createdCandidates
    (· ∈ referencedGraphs nodes) (· ∈ referencedCandidates nodes)
  have nothing : task.reusedHoldings = 0 := by
    unfold RootTask.reusedHoldings
    rw [unused]
    rfl
  change holdingsOf [] [] + holdingsOf task.speculativeGraphs [] +
    holdingsOf (task.releasable.graphs ++ _) (task.releasable.candidates ++ _) + holdingsOf _ _ = _
  rw [holdingsOf_append, holdingsOf_nil, zero_add]
  unfold RootTask.holdings
  rw [nothing, ← split]
  unfold SearchHandleBatch.holdings
  abel

omit [Scalar F] in
theorem neutral_prepareReuse (fuel selected : Nat) (expected : Board G) :
    Neutral (prepareReuse fuel selected expected : RootEffect G C F _) := by
  intro task
  refine balancedAt_get_bind ?_
  split
  · cases unused : task.reused with
    | some tree => exact neutral_of_keeps (keeps_internal _) task
    | none =>
      refine balancedAt_read_bind (keeps_edgeAt _ _) fun edge _ => ?_
      split
      · exact neutral_of_keeps (keeps_pure _) task
      refine balancedAt_read_bind (keeps_require _ _) fun root _ => ?_
      split
      · refine balancedAt_read_bind (keeps_settled _) fun nodes _ => ?_
        refine balancedAt_set (congrArg (· + 0) ?_)
        exact holdings_carryOver task nodes unused
      · exact neutral_of_keeps (keeps_pure _) task
  · exact neutral_of_keeps (keeps_pure _) task

omit [Scalar F] [DecidableEq C] in
theorem conserves_fromCreated (selected : G) (task : RootTask G C F) :
    (transferSelectedGraph.fromCreated selected task).BalancedAt
      SearchFailure.Kept RootTask.holdings 0 (fun _ => graphOf selected)
      task := by
  unfold transferSelectedGraph.fromCreated
  split
  · next member =>
    refine balancedAt_set ?_
    change holdingsOf (task.createdGraphs.erase selected)
      task.createdCandidates + holdingsOf task.speculativeGraphs [] +
        task.releasable.holdings + task.reusedHoldings + graphOf selected = _
    unfold RootTask.holdings
    rw [← holdingsOf_erase member]
    abel
  · exact balances_throw (fun _ => rfl) task

omit [Scalar F] [DecidableEq C] in
theorem conserves_transferSelectedGraph (selected : G) :
    Conserves (C := C) (F := F) 0 (transferSelectedGraph selected) fun _ => graphOf selected := by
  intro task
  refine balancedAt_get_bind ?_
  cases carried : task.reused with
  | none => exact conserves_fromCreated selected task
  | some reused =>
    dsimp only
    split
    · next member =>
      refine balancedAt_set ?_
      have before : task.reusedHoldings = reused.holdings := by
        unfold RootTask.reusedHoldings
        rw [carried]
        rfl
      have less : holdingsOf (reused.createdGraphs.erase selected)
          reused.createdCandidates + graphOf selected = reused.holdings :=
        holdingsOf_erase member _
      change holdingsOf task.createdGraphs task.createdCandidates +
        holdingsOf task.speculativeGraphs [] + task.releasable.holdings +
            holdingsOf (reused.createdGraphs.erase selected)
              reused.createdCandidates + graphOf selected = _
      unfold RootTask.holdings
      rw [before, ← less]
      abel
    · exact conserves_fromCreated selected task

variable {task : RootTask G C F}

omit [Scalar F] [DecidableEq G] [DecidableEq C] in
theorem settled_ok {α : Type} {result next value}
    (done : (settled result : RootEffect G C F α).perform task =
      (.ok value, next)) : result = .ok value := by
  cases result with
  | error failure => cases done
  | ok found =>
    cases done
    rfl

omit [Scalar F] [DecidableEq G] [DecidableEq C] in
theorem isStop_of_selectedMove {root selected move}
    (moved : selectedMove task root selected = .ok move) :
    move.action.isStop = root.isStop selected := by
  unfold selectedMove at moved
  split at moved
  · next stops =>
    cases moved
    exact stops.symm
  next goes =>
  rw [Bool.not_eq_true] at goes
  rw [goes]
  split at moved
  · split at moved
    · cases moved
    · cases moved
    · cases moved
      rfl
  · cases moved

omit [DecidableEq G] [DecidableEq C] in
theorem action_of_finishedStep {root run selected move step}
    (finished : finishedStep task root run selected move = .ok step) :
    step.action = move.action := by
  unfold finishedStep at finished
  split at finished
  · cases finished
  · cases finished
    rfl

theorem conserves_finishAction (fuel : Nat) (root : Node G C F) (run : Run F) (selected : Nat) :
    Conserves 0 (finishAction fuel root run selected) SymmetricRootResult.holdings := by
  intro task
  refine balancedAt_get_bind ?_
  refine balancedAt_read_bind (keeps_settled _) fun move moved => ?_
  refine balancedAt_read_bind (keeps_settled _) fun step finished => ?_
  have stops : step.action.isStop = root.isStop selected := by
    rw [action_of_finishedStep (settled_ok finished)]
    exact isStop_of_selectedMove (settled_ok moved)
  refine (Balances.bind (neutral_prepareReuse _ _ _) fun _ => ?_) task
  have rest (income : Holdings G C) (result : SymmetricRootResult G C F)
      (owed : result.holdings = income) :
      Conserves income (do
        releaseAllCreated
        setState .done
        pure result : RootEffect G C F _) SymmetricRootResult.holdings := by
    refine Balances.bind (conserves_modify RootTask.holdings_releaseAllCreated) fun _ => ?_
    refine Balances.bind (conserves_modify fun _ => rfl) fun _ => ?_
    exact balances_pure owed
  split
  · refine Balances.bind (conserves_transferSelectedGraph _) fun _ => ?_
    refine rest _ _ ?_
    unfold SymmetricRootResult.holdings
    simp_all
  · refine rest _ _ ?_
    unfold SymmetricRootResult.holdings
    simp_all

theorem conserves_finishRoot (fuel : Nat) (run : Run F) :
    Conserves 0 (finishRoot fuel run : RootEffect G C F _)
      (SearchPoll.holdings SymmetricRootResult.holdings) := by
  refine Balances.bind conserves_get fun task => ?_
  refine Balances.bind (neutral_of_keeps (keeps_require _ _)) fun root => ?_
  refine Balances.bind (neutral_of_keeps (keeps_settled _)) fun _ => ?_
  split
  · refine Balances.bind neutral_releaseAllCreated fun _ => ?_
    refine Balances.bind (neutral_setState _) fun _ => ?_
    exact balances_pure rfl
  · refine Balances.bind (conserves_finishAction _ _ _ _) fun result => ?_
    exact balances_pure rfl

omit [DecidableEq G] [DecidableEq C] in
theorem neutral_launchNext (wave : WaveRun G C F) : Neutral (launchNext wave) := by
  unfold launchNext
  split
  · refine Balances.bind conserves_get fun task => ?_
    refine Balances.bind (neutral_of_keeps (keeps_nodeAt 0)) fun root => ?_
    exact balances_pure rfl
  · exact balances_pure rfl

omit [DecidableEq C] in
theorem neutral_resolveNext (wave : WaveRun G C F) : Neutral (resolveNext wave) := by
  unfold resolveNext
  split
  · exact neutral_resolveRootApplyPreflight wave
  · exact balances_pure rfl

theorem conserves_waveRound (fuel : Nat) (wave : WaveRun G C F) :
    Conserves 0 (waveRound fuel wave) fun outcome =>
      outcome.elim (fun _ => 0) (SearchPoll.holdings SymmetricRootResult.holdings) := by
  refine Balances.bind (neutral_launchNext wave) fun wave => ?_
  split
  · refine Balances.bind (conserves_finishRoot fuel _) fun result => ?_
    exact balances_pure rfl
  refine Balances.bind (neutral_resolveNext wave) fun wave => ?_
  refine Balances.bind (neutral_advanceAll _ _ _) fun advanced => ?_
  exact conserves_settleWave _ _ _ _

omit [Scalar F] [DecidableEq G] [DecidableEq C] in
theorem conserves_pollResolve {R : Type} (outgo : R → Holdings G C) (board : Board G) :
    Conserves (F := F) 0 (pollResolve board) (SearchPoll.holdings outgo) := by
  refine Balances.bind neutral_nextToken fun token => ?_
  refine Balances.bind (neutral_modify fun _ => rfl) fun _ => ?_
  refine Balances.bind conserves_get fun task => ?_
  exact balances_pure rfl

omit [DecidableEq G] [DecidableEq C] in
theorem conserves_pollEval {R : Type} (outgo : R → Holdings G C)
    (board : Board G) (expansion : Expansion C F) :
    Conserves 0 (pollEval board expansion) (SearchPoll.holdings outgo) := by
  refine Balances.bind conserves_get fun task => ?_
  refine Balances.bind (neutral_of_keeps (keeps_settled _)) fun _ => ?_
  refine Balances.bind neutral_nextToken fun token => ?_
  refine Balances.bind (neutral_modify fun _ => rfl) fun _ => ?_
  exact balances_pure rfl

theorem balancedAt_poll (fuel : Nat) (task : RootTask G C F)
    (passes : ∀ result, task.state = .doneResult result → result.holdings = 0) :
    (RootTask.poll fuel).BalancedAt SearchFailure.Kept RootTask.holdings 0
      (SearchPoll.holdings SymmetricRootResult.holdings) task := by
  refine balancedAt_get_bind ?_
  split
  · exact balances_pure rfl task
  refine BalancedAt.bind (neutral_setState _ task) fun _ next _ => ?_
  dsimp only
  split
  · next board _ =>
    split
    · exact conserves_pollResolve _ _ next
    split
    · exact balances_throw (fun _ => rfl) next
    · exact conserves_pollResolve _ _ next
  · exact conserves_pollEval _ _ _ next
  · next wave _ =>
    exact balances_loop (fun wave => conserves_waveRound fuel wave)
      (fun kept => kept.2 rfl) fuel wave next
  · next result held =>
    refine balances_pure ?_ next
    exact passes result held
  · exact balances_throw (fun _ => rfl) next

end Finish

def SearchWorkResult.holdings : SearchWorkResult G C F → Holdings G C
  | .expand result => holdingsOf [] result.handles
  | .apply result => graphOf result.after
  | .measurePair _ _ | .eval _ => 0

section Results

variable [DecidableEq G]

variable {result : SearchWorkResult G C F}

theorem conserves_resumeSimulation {preflight state resumed}
    (matched : resumeSimulation preflight state result = some resumed) :
    Conserves result.holdings resumed fun _ => 0 := by
  unfold resumeSimulation at matched
  split at matched
  · cases matched
    split
    · refine Balances.bind (conserves_speculateGraph _) fun _ => ?_
      exact balances_pure rfl
    · exact conserves_resumeWaveApply _ _ _ _
  · cases matched
    exact conserves_resumeWaveExpand _ _ _ _
  · cases matched
    exact balances_pure rfl
  · cases matched
    exact balances_pure rfl
  · cases matched

theorem balancedAt_resumeWave {wave token before after state resumed}
    (found : splitPending token wave.active = some (before, state, after))
    (matched : resumeSimulation wave.rootApplyPreflight state result =
      some resumed) (task : RootTask G C F) :
    (resumeWave wave token result).BalancedAt SearchFailure.Kept
      RootTask.holdings result.holdings (fun _ => 0) task := by
  unfold resumeWave
  rw [found]
  dsimp only
  rw [matched]
  rw [← add_zero result.holdings]
  refine BalancedAt.attempt_bind (conserves_resumeSimulation matched task) ?_ ?_
  · intro next kept _
    exact conserves_modify (fun _ => rfl) kept
  · intro failure next _
    exact ⟨_, rfl, (add_zero _).symm⟩

theorem balancedAt_resumePending {task pending} (waits : task.pending = some pending)
    (answered : result.kind = pending.kind) :
    (resumePending pending.token result).BalancedAt SearchFailure.Kept
      RootTask.holdings result.holdings (fun _ => 0) task := by
  refine balancedAt_get_bind ?_
  rw [waits]
  dsimp only
  rw [if_neg (by simp)]
  have cleared (income : Holdings G C) : Conserves (F := F) income
        (modify fun task => { task with pending := none })
        fun _ => income :=
    conserves_modify fun _ => rfl
  cases pending with
  | expand token board =>
    cases result with
    | expand expansion =>
      refine Balances.bind (cleared _) (fun _ => ?_) task
      exact conserves_resumeExpand board expansion
    | apply _ | measurePair _ _ | eval _ => cases answered
  | eval token board expansion request =>
    cases result with
    | eval output =>
      refine Balances.bind (cleared _) (fun _ => ?_) task
      exact neutral_resumeEval board expansion request output
    | apply _ | measurePair _ _ | expand _ => cases answered

end Results

/-- The handles of a task that may be. -/
def carriedHoldings (carried : Option (RootTask G C F)) : Holdings G C :=
  (carried.map RootTask.holdings).getD 0

theorem holdings_refreshReusedNoBacktrackMasks (task : RootTask G C F) :
    (refreshReusedNoBacktrackMasks task).holdings = task.holdings := by
  unfold refreshReusedNoBacktrackMasks
  split
  · rfl
  · rfl

theorem holdings_reusedTask (task : RootTask G C F)
    (visited : PerPlayer (Finset ReplayGraphContext))
    (reused : ReusedTree G C F) (root : Node G C F) :
    (reusedTask task visited reused root).holdings = reused.holdings := by
  unfold reusedTask
  rw [holdings_refreshReusedNoBacktrackMasks]
  unfold RootTask.holdings RootTask.reusedHoldings ReusedTree.holdings
  simp

theorem conserves_takeReusedTask (visited : PerPlayer (Finset ReplayGraphContext)) :
    Conserves (G := G) (C := C) (F := F) 0 (takeReusedTask visited) carriedHoldings := by
  intro task
  refine balancedAt_get_bind ?_
  cases carried : task.reused with
  | none => exact balances_pure rfl task
  | some reused =>
    dsimp only
    have taken : (modify fun task => { task with reused := none } :
        RootEffect G C F _).BalancedAt SearchFailure.Kept
          RootTask.holdings 0 (fun _ => reused.holdings) task := by
      refine balancedAt_of_ok rfl ?_
      have before : task.reusedHoldings = reused.holdings := by
        unfold RootTask.reusedHoldings
        rw [carried]
        rfl
      unfold RootTask.holdings
      rw [before]
      abel
    refine BalancedAt.bind taken fun _ next _ => ?_
    have released (batch : SearchHandleBatch G C) (same : batch.holdings = reused.holdings) :
        Conserves (F := F) reused.holdings (modify fun task =>
            { task with releasable := task.releasable.append batch })
          fun _ => 0 := by
      refine balances_modify fun task => ?_
      unfold RootTask.holdings
      rw [SearchHandleBatch.holdings_append, same]
      abel
    split
    · refine Balances.bind (released _ rfl) (fun _ => ?_) next
      exact balances_throw fun _ => rfl
    next root _ =>
    have same := holdings_reusedTask task visited reused root
    split
    · refine Balances.bind (released _ ?_) (fun _ => ?_) next
      · exact (RootTask.holdings_takeAllHandles _).1.trans same
      · exact balances_throw fun _ => rfl
    · refine balances_pure ?_ next
      exact same

omit [Scalar F] in
theorem neutral_alignRootBoard [DecidableEq G] (expected : Board G) :
    Neutral (alignRootBoard expected : RootEffect G C F _) := by
  refine Balances.bind conserves_get fun task => ?_
  refine Balances.bind (neutral_of_keeps (keeps_require _ _)) fun root => ?_
  have rest : Neutral (do
      let one ← settled (alignContext root.board.contexts.one expected.contexts.one)
      let two ← settled (alignContext root.board.contexts.two expected.contexts.two)
      let contexts : PerPlayer (Option ReplayGraphContext) := ⟨one, two⟩
      modifyNode 0 fun node =>
        { node with board := { node.board with contexts } }
      if contexts.of root.board.player ≠ some root.context then
        internal "symmetric reused root context mismatch"
      modify fun task => { task with rootContext := some root.context }
      pure contexts : RootEffect G C F _) := by
    refine Balances.bind (neutral_of_keeps (keeps_settled _)) fun one => ?_
    refine Balances.bind (neutral_of_keeps (keeps_settled _)) fun two => ?_
    refine Balances.bind (treeOnly_modifyNode _ _).neutral fun _ => ?_
    split
    · exact Balances.bind (neutral_of_keeps (keeps_internal _)) fun _ =>
        Balances.bind (neutral_modify fun _ => rfl) fun _ =>
          balances_pure rfl
    · exact Balances.bind (neutral_modify fun _ => rfl) fun _ =>
        balances_pure rfl
  dsimp only
  split
  · exact Balances.bind (neutral_of_keeps (keeps_internal _)) fun _ => rest
  · exact rest

end GraphZero.Search
