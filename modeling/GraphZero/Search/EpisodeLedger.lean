import GraphZero.Search.EpisodeMoves
import GraphZero.Search.RootTokens

/-!
# The handles of an episode

An episode holds the graphs of its path, what it is about to release and what
its root task holds.  Each of its steps moves handles between these or hands
them back.
-/

namespace GraphZero.Search

open Engine Foundation Effect

variable {G C F : Type}

/-- The handles an episode reports at its end. -/
def SymmetricEpisode.created (episode : SymmetricEpisode G C F) : Holdings G C :=
  holdingsOf episode.createdGraphs episode.createdCandidates

def EpisodeState.holdings : EpisodeState G C F → Holdings G C
  | .root rootTask => rootTask.holdings
  | .doneResult episode => episode.created
  | _ => 0

namespace EpisodeTask

/-- The handles in the episode's own lists. -/
def shelf (task : EpisodeTask G C F) : Holdings G C :=
  holdingsOf task.pathGraphs [] + task.releasable.holdings

def holdings (task : EpisodeTask G C F) : Holdings G C :=
  task.shelf + task.state.holdings

theorem shelf_appendReleasable (task : EpisodeTask G C F) (batch : SearchHandleBatch G C) :
    (task.appendReleasable batch).shelf = task.shelf + batch.holdings := by
  unfold shelf appendReleasable
  rw [SearchHandleBatch.holdings_append, add_assoc]

theorem holdings_appendReleasable (task : EpisodeTask G C F) (batch : SearchHandleBatch G C) :
    (task.appendReleasable batch).holdings = task.holdings + batch.holdings := by
  unfold holdings
  rw [shelf_appendReleasable]
  abel

theorem holdings_drainRoot (all : Bool) (task : EpisodeTask G C F) :
    (task.drainRoot all).holdings = task.holdings := by
  unfold drainRoot
  split
  · next rootTask state =>
    rw [holdings_appendReleasable]
    unfold holdings
    rw [state]
    change task.shelf + RootTask.holdings _ + _ = task.shelf + rootTask.holdings
    cases all with
    | true =>
      have given := rootTask.holdings_takeAllHandles
      rw [if_pos rfl, given.1, given.2]
      abel
    | false =>
      rw [if_neg (by decide), add_assoc,
        rootTask.holdings_takeReleasable]
  · rfl

theorem holdings_takeReleasable (task : EpisodeTask G C F) :
    task.takeReleasable.2.holdings + task.takeReleasable.1.holdings = task.holdings := by
  rw [← holdings_drainRoot false task]
  unfold takeReleasable
  generalize task.drainRoot false = drained
  change holdingsOf drained.pathGraphs [] + SearchHandleBatch.empty.holdings +
    drained.state.holdings + drained.releasable.holdings = _
  rw [SearchHandleBatch.holdings_empty]
  unfold holdings shelf
  abel

theorem takeReleasable_cases (task : EpisodeTask G C F) : (∃ rootTask, task.state = .root rootTask ∧
      task.takeReleasable.2 = { task.keepRoot rootTask with releasable := .empty }) ∨
    task.takeReleasable.2 = { task with releasable := .empty } := by
  unfold takeReleasable drainRoot
  cases state : task.state with
  | root rootTask => exact .inl ⟨rootTask, rfl, rfl⟩
  | turn | measurePair | doneResult _ | done =>
    right
    dsimp only
    rw [state]

/-- The handles a finished episode still has to report. -/
def unreported (task : EpisodeTask G C F) : Holdings G C :=
  match task.state with
  | .doneResult episode => episode.created
  | _ => 0

/-- The episode has ended and is about to say so. -/
def reporting (task : EpisodeTask G C F) : Bool :=
  match task.state with
  | .doneResult _ => true
  | _ => false

theorem unreported_of_reporting {task : EpisodeTask G C F}
    (nothing : task.reporting = false) : task.unreported = 0 := by
  unfold reporting at nothing
  unfold unreported
  cases state : task.state with
  | doneResult episode =>
    rw [state] at nothing
    cases nothing
  | turn | root _ | measurePair | done => rfl

theorem state_drainRoot (task : EpisodeTask G C F) :
    ((task.drainRoot true).drainRoot false).state.holdings = task.unreported := by
  unfold unreported
  cases state : task.state with
  | root rootTask =>
    have given := rootTask.holdings_takeAllHandles.2
    have rest := (rootTask.takeAllHandles.2).holdings_takeReleasable
    rw [given] at rest
    have drained : (task.drainRoot true).state = .root rootTask.takeAllHandles.2 := by
      unfold drainRoot
      rw [state]
      rfl
    have again : ((task.drainRoot true).drainRoot false).state =
        .root rootTask.takeAllHandles.2.takeReleasable.2 := by
      rw [drainRoot.eq_1 false, drained]
      rfl
    rw [again]
    exact eq_zero_of_add_eq_zero rest
  | turn | measurePair | doneResult _ | done =>
    have same (all : Bool) : task.drainRoot all = task := by
      unfold drainRoot
      rw [state]
    rw [same, same, state]
    rfl

theorem holdings_takeAllHandles (task : EpisodeTask G C F) :
    task.takeAllHandles.1.holdings + task.unreported = task.holdings := by
  rw [← holdings_drainRoot true task,
    ← holdings_drainRoot false (task.drainRoot true), ← state_drainRoot]
  unfold takeAllHandles takeReleasable
  generalize (task.drainRoot true).drainRoot false = drained
  unfold SearchHandleBatch.holdings holdings shelf
  have same : holdingsOf (drained.releasable.graphs ++ drained.pathGraphs)
      drained.releasable.candidates = drained.releasable.holdings +
          holdingsOf drained.pathGraphs [] := by
    unfold SearchHandleBatch.holdings
    rw [← holdingsOf_append, List.append_nil]
  rw [same]
  abel

theorem reporting_drainRoot (all : Bool) (task : EpisodeTask G C F) :
    (task.drainRoot all).reporting = task.reporting ∧
      (task.drainRoot all).unreported = task.unreported := by
  unfold drainRoot
  cases state : task.state with
  | root rootTask =>
    unfold reporting unreported
    rw [state]
    exact ⟨rfl, rfl⟩
  | turn | measurePair | doneResult _ | done => exact ⟨rfl, rfl⟩

theorem kept_takeAllHandles (task : EpisodeTask G C F) :
    task.takeAllHandles.2.reporting = task.reporting ∧
      task.takeAllHandles.2.unreported = task.unreported ∧ task.takeAllHandles.2.pathGraphs = [] ∧
          task.takeAllHandles.2.holdings = task.unreported := by
  have first := reporting_drainRoot true task
  have second := reporting_drainRoot false (task.drainRoot true)
  refine ⟨second.1.trans first.1, second.2.trans first.2, rfl, ?_⟩
  rw [← state_drainRoot]
  change 0 + EpisodeState.holdings _ = _
  rw [zero_add]
  rfl

end EpisodeTask

/-! ## The steps of an episode -/

abbrev EpisodeConserves {α : Type} (income : Holdings G C)
    (computation : EpisodeEffect G C F α) (outgo : α → Holdings G C)
    (task : EpisodeTask G C F) : Prop :=
  computation.BalancedAt SearchFailure.Kept EpisodeTask.holdings income outgo task

section Steps

variable {task : EpisodeTask G C F}

variable {α : Type} {outgo : α → Holdings G C}

theorem conserves_failEpisode {message} : EpisodeConserves 0 (failEpisode message) outgo task :=
  balances_throw (fun _ => rfl) task

theorem conserves_failEpisode_bind {message} {rest : PUnit → EpisodeEffect G C F α} :
    EpisodeConserves 0 (failEpisode message >>= rest) outgo task :=
  balancedAt_of_error rfl fun _ => (add_zero _).symm

theorem conserves_abandonRoot (rootTask : RootTask G C F) :
    EpisodeConserves rootTask.holdings (abandonRoot rootTask) (fun _ => 0) task := by
  refine balancedAt_of_ok rfl ?_
  rw [task.holdings_appendReleasable, rootTask.holdings_takeAllHandles.1, add_zero]

theorem conserves_abandonRoot_throw {rootTask failure income}
    (same : failure.Kept → rootTask.holdings = income) :
    EpisodeConserves income (do
      abandonRoot rootTask
      throw failure) outgo task := by
  refine balancedAt_of_error rfl fun kept => ?_
  rw [task.holdings_appendReleasable, rootTask.holdings_takeAllHandles.1, same kept]

theorem conserves_finishTurn (result : SymmetricRootResult G C F)
    (vacant : task.state.holdings = 0) :
    EpisodeConserves result.holdings (finishTurn result) (fun _ => 0) task := by
  refine balancedAt_get_bind ?_
  cases result with
  | pass player context =>
    dsimp only
    split
    · exact conserves_failEpisode_bind
    refine balancedAt_of_ok rfl ?_
    unfold EpisodeTask.holdings
    rw [vacant]
    rfl
  | action result =>
    dsimp only
    have kept : task.holdings = task.shelf := by
      unfold EpisodeTask.holdings
      rw [vacant, add_zero]
    by_cases stops : result.step.action.isStop = true
    · have none : (SymmetricRootResult.action result).holdings = 0 :=
        if_pos stops
      rw [none]
      split
      · rw [stops]
        exact conserves_failEpisode_bind
      refine balancedAt_of_ok rfl ?_
      rw [kept]
      change task.shelf + 0 + 0 = _
      rw [add_zero]
    · have one : (SymmetricRootResult.action result).holdings =
          graphOf result.selectedAfter := if_neg stops
      rw [one]
      split
      · rw [Bool.not_eq_true] at stops
        rw [stops]
        have released : EpisodeConserves (graphOf result.selectedAfter)
            (set (task.appendReleasable ⟨[result.selectedAfter], []⟩))
            (fun _ => 0) task := by
          refine balancedAt_set ?_
          rw [task.holdings_appendReleasable, add_zero]
          rfl
        refine BalancedAt.bind released fun _ next _ => ?_
        exact conserves_failEpisode_bind
      · refine balancedAt_of_ok rfl ?_
        rw [kept]
        change holdingsOf (task.pathGraphs ++ [result.selectedAfter]) [] +
          task.releasable.holdings + 0 + 0 = _
        rw [← List.append_nil ([] : List C), holdingsOf_append]
        unfold EpisodeTask.shelf graphOf
        abel

theorem conserves_startTurn (vacant : task.state.holdings = 0) :
    EpisodeConserves 0 startTurn (fun _ => 0) task := by
  refine balancedAt_of_ok rfl ?_
  have kept : task.holdings = task.shelf + 0 := congrArg (task.shelf + ·) vacant
  rw [kept]
  dsimp only
  split
  · rfl
  split
  · rfl
  · rfl

variable [Scalar F] [DecidableEq G] [DecidableEq C]

omit [Scalar F] [DecidableEq C] in
theorem conserves_startReused (reused : RootTask G C F) (vacant : task.state.holdings = 0) :
    EpisodeConserves reused.holdings (startReused reused) (fun _ => 0) task := by
  have turned : EpisodeConserves reused.holdings (modify fun task =>
      if !task.actorActive task.player && task.anyActive then
        { task with player := task.player.opponent }
      else task) (fun _ => reused.holdings) task := by
    refine balancedAt_of_ok rfl ?_
    dsimp only
    split
    · rfl
    · rfl
  refine BalancedAt.bind turned fun _ next done => ?_
  have vacant : next.state.holdings = 0 := by
    cases done
    dsimp only
    split
    · exact vacant
    · exact vacant
  refine balancedAt_get_bind ?_
  have neutral := neutral_alignRootBoard next.board reused
  cases ran : (alignRootBoard next.board).perform reused with
  | mk aligned last =>
    cases aligned with
    | error failure =>
      refine conserves_abandonRoot_throw fun kept => ?_
      rw [neutral.error ran kept, add_zero]
    | ok contexts =>
      have same : last.holdings = reused.holdings := by
        have even := neutral.ok ran
        rw [add_zero, add_zero] at even
        exact even
      rw [← same]
      dsimp only
      split
      · refine BalancedAt.bind (conserves_abandonRoot last) ?_
        exact fun _ _ _ => conserves_failEpisode_bind
      refine balancedAt_set ?_
      change next.shelf + last.holdings + 0 = next.shelf + next.state.holdings + last.holdings
      rw [vacant]
      abel

omit [DecidableEq C] in
theorem conserves_finishRootTask (rootTask : RootTask G C F) (result : SymmetricRootResult G C F)
    (vacant : task.state.holdings = 0) (alone : task.rootPending = []) :
    EpisodeConserves (result.holdings + rootTask.holdings)
      (finishRootTask rootTask result) (fun _ => 0) task := by
  refine balancedAt_get_bind ?_
  rw [alone]
  refine BalancedAt.attempt_bind (conserves_finishTurn result vacant) ?_ ?_
  · intro value next finished
    refine balancedAt_get_bind ?_
    rw [zero_add]
    have conserves := conserves_takeReusedTask next.visited rootTask
    cases ran : (takeReusedTask next.visited).perform rootTask with
    | mk reused last =>
      cases reused with
      | error failure =>
        refine conserves_abandonRoot_throw fun kept => ?_
        rw [conserves.error ran kept, add_zero]
      | ok carried =>
        have even := conserves.ok ran
        rw [add_zero] at even
        have left : EpisodeConserves rootTask.holdings
            (abandonRoot last) (fun _ => carriedHoldings carried)
            next := by
          refine balancedAt_of_ok rfl ?_
          rw [next.holdings_appendReleasable, last.holdings_takeAllHandles.1, add_assoc, even]
        refine BalancedAt.bind left fun _ final gone => ?_
        have vacant : final.state.holdings = 0 := by
          obtain ⟨_, rfl⟩ := finishTurn_eq_ok finished
          cases gone
          cases result with
          | pass player context => rfl
          | action result => rfl
        cases carried with
        | none => exact balancedAt_of_ok rfl rfl
        | some reused => exact conserves_startReused reused vacant
  · intro failure next failed
    refine ⟨_, rfl, ?_⟩
    rw [next.holdings_appendReleasable, rootTask.holdings_takeAllHandles.1]

theorem conserves_pollRoot (fuel : Nat) {rootTask} (vacant : task.state.holdings = 0)
    (passes : rootTask.state.held = 0)
    (alone : ∀ result next, Polls fuel rootTask (.done result) next → task.rootPending = []) :
    EpisodeConserves rootTask.holdings (pollRoot fuel rootTask)
      (fun outcome => outcome.elim (fun _ => 0)
        (SearchPoll.holdings SymmetricEpisode.created)) task := by
  unfold pollRoot
  have conserves := balancedAt_poll fuel rootTask ?_
  · cases ran : (RootTask.poll fuel).perform rootTask with
    | mk polled next =>
      cases polled with
      | error failure =>
        refine conserves_abandonRoot_throw fun kept => ?_
        rw [conserves.error ran kept, add_zero]
      | ok polled =>
        have even := conserves.ok ran
        rw [add_zero] at even
        have given := next.holdings_takeReleasable
        have shelved : EpisodeConserves rootTask.holdings (modify fun task : EpisodeTask G C F =>
              task.appendReleasable next.takeReleasable.1)
            (fun _ => next.takeReleasable.2.holdings +
              polled.holdings SymmetricRootResult.holdings) task := by
          refine balancedAt_of_ok rfl ?_
          rw [task.holdings_appendReleasable, ← even, ← given]
          abel
        refine BalancedAt.bind shelved fun _ after done => ?_
        cases done
        have vacant : (task.appendReleasable next.takeReleasable.1).state.holdings = 0 := vacant
        have placed (changed : EpisodeTask G C F)
            (state : changed.state = .root next.takeReleasable.2)
            (shelf : changed.shelf = (task.appendReleasable next.takeReleasable.1).shelf) :
            changed.holdings = (task.appendReleasable next.takeReleasable.1).holdings +
                next.takeReleasable.2.holdings := by
          unfold EpisodeTask.holdings
          rw [state, shelf, vacant, add_zero]
          rfl
        cases polled with
        | work work | blocked =>
          refine balancedAt_of_ok rfl ?_
          change EpisodeTask.holdings _ + 0 = _ + (_ + 0)
          rw [add_zero, add_zero]
          exact placed _ rfl rfl
        | done result =>
          have finished := conserves_finishRootTask next.takeReleasable.2 result vacant
            (alone result next (polls_of_poll ran))
          rw [add_comm] at finished
          refine BalancedAt.bind finished fun _ last _ => ?_
          exact balancedAt_of_ok rfl rfl
  · intro result state
    rw [state] at passes
    exact passes

theorem conserves_episodeRound (fuel : Nat) (passes : ∀ rootTask, task.state = .root rootTask →
      rootTask.state.held = 0)
    (alone : ∀ rootTask result next, task.state = .root rootTask →
      Polls fuel rootTask (.done result) next → task.rootPending = []) :
    EpisodeConserves 0 (episodeRound fuel) (fun outcome => outcome.elim (fun _ => 0)
        (SearchPoll.holdings SymmetricEpisode.created)) task := by
  refine balancedAt_get_bind ?_
  have emptied : EpisodeConserves 0 (setEpisodeState .done)
      (fun _ => task.state.holdings) task := by
    refine balancedAt_of_ok rfl ?_
    change task.shelf + 0 + _ = task.shelf + _ + 0
    abel
  refine BalancedAt.bind emptied fun _ next done => ?_
  cases done
  cases state : task.state with
  | turn =>
    refine BalancedAt.bind (conserves_startTurn rfl) fun _ last _ => ?_
    exact balancedAt_of_ok rfl rfl
  | root rootTask =>
    exact conserves_pollRoot fuel rfl (passes rootTask state)
      fun result next => alone rootTask result next state
  | measurePair => exact balancedAt_of_ok rfl rfl
  | doneResult episode => exact balancedAt_of_ok rfl rfl
  | done => exact conserves_failEpisode

end Steps

/-! ## Nothing to report -/

section Reporting

/-- Only the final measurement leaves something to report. -/
abbrev LeavesNothing {α : Type} (computation : EpisodeEffect G C F α)
    (task : EpisodeTask G C F) : Prop :=
  computation.LeavesAt (fun next => next.reporting = false) task

variable {task : EpisodeTask G C F}

theorem leavesNothing_finishTurn {result} (nothing : task.reporting = false) :
    LeavesNothing (finishTurn result) task := by
  refine leavesAt_get_bind ?_
  cases result with
  | pass player context =>
    dsimp only
    split
    · exact nothing
    · rfl
  | action result =>
    dsimp only
    split
    · split
      · exact nothing
      · exact nothing
    · rfl

variable [Scalar F] [DecidableEq G] [DecidableEq C]

omit [Scalar F] [DecidableEq C] in
theorem leavesNothing_startReused {reused} (nothing : task.reporting = false) :
    LeavesNothing (startReused reused) task := by
  have turned : LeavesNothing (modify fun task =>
      if !task.actorActive task.player && task.anyActive then
        { task with player := task.player.opponent }
      else task) task := by
    change EpisodeTask.reporting (if _ then _ else _) = false
    split
    · exact nothing
    · exact nothing
  refine LeavesAt.bind turned fun _ next _ nothing => ?_
  refine leavesAt_get_bind ?_
  cases (alignRootBoard next.board).perform reused with
  | mk aligned last =>
    cases aligned with
    | error failure => exact nothing
    | ok contexts =>
      dsimp only
      split
      · exact nothing
      · rfl

omit [DecidableEq C] in
theorem leavesNothing_finishRootTask {rootTask result} (nothing : task.reporting = false) :
    LeavesNothing (finishRootTask rootTask result) task := by
  refine leavesAt_get_bind ?_
  split
  · exact nothing
  refine LeavesAt.attempt_bind (leavesNothing_finishTurn nothing) ?_
  intro finished next _ nothing
  cases finished with
  | error failure => exact nothing
  | ok value =>
    refine leavesAt_get_bind ?_
    cases (takeReusedTask next.visited).perform rootTask with
    | mk reused last =>
      refine LeavesAt.bind nothing fun _ _ same _ => ?_
      cases same
      cases reused with
      | error failure => exact nothing
      | ok carried =>
        cases carried with
        | none => exact nothing
        | some reused => exact leavesNothing_startReused nothing

theorem leavesNothing_pollRoot {fuel rootTask} (nothing : task.reporting = false) :
    LeavesNothing (pollRoot fuel rootTask) task := by
  unfold pollRoot
  cases (RootTask.poll fuel).perform rootTask with
  | mk polled next =>
    cases polled with
    | error failure => exact nothing
    | ok polled =>
      refine LeavesAt.bind nothing fun _ _ same _ => ?_
      cases same
      cases polled with
      | work work => rfl
      | blocked => rfl
      | done result =>
        refine LeavesAt.bind (leavesNothing_finishRootTask nothing) ?_
        exact fun _ _ _ nothing => nothing

theorem leavesNothing_episodeRound (fuel : Nat) : LeavesNothing (episodeRound fuel) task := by
  refine leavesAt_get_bind ?_
  have emptied : LeavesNothing (setEpisodeState .done) task := rfl
  refine LeavesAt.bind emptied fun _ next same nothing => ?_
  cases same
  cases state : task.state with
  | turn =>
    refine LeavesAt.bind ?_ fun _ _ _ nothing => nothing
    change EpisodeTask.reporting (if _ then _ else if _ then _ else _) = false
    split
    · rfl
    split
    · rfl
    · rfl
  | root rootTask => exact leavesNothing_pollRoot nothing
  | measurePair => rfl
  | doneResult episode => rfl
  | done => rfl

variable {result : SearchWorkResult G C F}

omit [DecidableEq C] in
theorem leavesNothing_resumeRoot {pending} (nothing : task.reporting = false) :
    LeavesNothing (resumeRoot pending result) task := by
  refine leavesAt_get_bind ?_
  cases task.state with
  | root rootTask =>
    have emptied : LeavesNothing (modify fun task : EpisodeTask G C F =>
        { task with
          rootPending := task.rootPending.erase pending, state := .done })
        task := rfl
    refine LeavesAt.bind emptied fun _ next _ nothing => ?_
    cases (RootTask.resume pending.inner result).perform rootTask with
    | mk resumed last =>
      cases resumed with
      | error failure => exact nothing
      | ok value => rfl
  | turn | measurePair | doneResult _ | done => exact nothing

omit [DecidableEq G] [DecidableEq C] in
theorem resumeMeasure_eq_error {token failure final}
    (failed : (resumeMeasure token result).perform task = (.error failure, final)) :
    final = task ∨ final = { task with pending := none } := by
  have early (message : String) {rest : PUnit → EpisodeEffect G C F Unit}
      (failed : (failEpisode message >>= rest).perform task = (.error failure, final)) :
      final = task ∨ final = { task with pending := none } := by
    cases failed
    exact .inl rfl
  unfold resumeMeasure at failed
  rw [perform_get_bind] at failed
  cases waits : task.pending with
  | none =>
    rw [waits] at failed
    cases failed
    exact .inl rfl
  | some expected =>
    rw [waits] at failed
    dsimp only at failed
    split at failed
    · exact early _ failed
    cases result with
    | measurePair p1Measure p2Measure =>
      change (finishEpisode p1Measure p2Measure).perform
        { task with pending := none } = _ at failed
      unfold finishEpisode at failed
      split at failed
      · cases failed
        exact .inr rfl
      · cases failed
    | expand _ | apply _ | eval _ =>
      cases failed
      exact .inl rfl

omit [DecidableEq C] in
theorem reporting_of_resume {token failure final} (nothing : task.reporting = false)
    (failed : (EpisodeTask.resume token result).perform task = (.error failure, final)) :
    final.reporting = false := by
  unfold EpisodeTask.resume at failed
  rw [perform_get_bind] at failed
  cases found : task.rootPending.find? (·.outer == token) with
  | some pending =>
    rw [found] at failed
    exact (leavesNothing_resumeRoot nothing).eq failed
  | none =>
    rw [found] at failed
    rcases resumeMeasure_eq_error failed with rfl | rfl
    · exact nothing
    · exact nothing

end Reporting

end GraphZero.Search
