import GraphZero.Search.Episode
import GraphZero.Search.TurnEnds

/-!
# The moves of an episode

What a successful round of an episode and a result that comes in can do, as
relations between the episodes before and after.
-/

namespace GraphZero.Search

open Engine Foundation Effect

variable {G C F : Type}

/-! ## Changes of an episode -/

def SymmetricRootResult.player : SymmetricRootResult G C F → GumbelPlayer
  | .action result => result.player
  | .pass player _ => player

/-- The players can still move, or their graphs are about to be measured. -/
def EpisodeState.playing : EpisodeState G C F → Bool
  | .turn | .root _ | .measurePair => true
  | .doneResult _ | .done => false

namespace EpisodeTask

def afterTurn (task : EpisodeTask G C F) : SymmetricRootResult G C F → EpisodeTask G C F
  | .pass player context =>
    { task with
      actors := task.actors.update player ((task.actors.of player).passTurn context)
      player := task.player.opponent
      state := .turn }
  | .action result =>
    { task with
      actors := task.actors.update result.player ((task.actors.of result.player).takeStep result)
      visited :=
        if !result.step.action.isStop && task.config.noBacktrack then
          task.visited.update result.player (insert result.step.stepRef.before
              (task.visited.of result.player))
        else task.visited
      pathGraphs :=
        if result.step.action.isStop then task.pathGraphs
        else task.pathGraphs ++ [result.selectedAfter]
      player := task.player.opponent
      state := .turn }

def started (task : EpisodeTask G C F) : EpisodeTask G C F :=
  if !task.anyActive then { task with state := .measurePair }
  else if !task.actorActive task.player then
    { task with player := task.player.opponent, state := .turn }
  else
    { task with state := .root task.rootTask }

/-- The episode with the turn at a player who can move, if there is one. -/
def turned (task : EpisodeTask G C F) : EpisodeTask G C F :=
  if !task.actorActive task.player && task.anyActive then
    { task with player := task.player.opponent }
  else task

/-- The episode that goes on with a root task over a carried subtree. -/
def continued (task : EpisodeTask G C F) (reused : RootTask G C F)
    (contexts : PerPlayer (Option ReplayGraphContext)) :
    EpisodeTask G C F :=
  { task with
    actors :=
      { one := { task.actors.one with context := contexts.one }
        two := { task.actors.two with context := contexts.two } }
    state := .root reused }

end EpisodeTask

theorem finishTurn_eq_ok {task final} {result : SymmetricRootResult G C F} {value}
    (done : (finishTurn result).perform task = (.ok value, final)) :
    result.player = task.player ∧ final = task.afterTurn result := by
  replace done := (perform_bind_ok (perform_get task)).symm.trans done
  cases result with
  | pass player context =>
    dsimp only at done
    split at done
    · obtain ⟨_, _, failed, _⟩ := perform_bind_eq_ok done
      exact absurd failed perform_throw_ne_ok
    · next same =>
      cases done
      exact ⟨not_not.mp same, rfl⟩
  | action result =>
    dsimp only at done
    split at done
    · split at done
      · obtain ⟨_, _, _, rest⟩ := perform_bind_eq_ok done
        obtain ⟨_, _, failed, _⟩ := perform_bind_eq_ok rest
        exact absurd failed perform_throw_ne_ok
      · obtain ⟨_, _, failed, _⟩ := perform_bind_eq_ok done
        exact absurd failed perform_throw_ne_ok
    · next same =>
      cases done
      exact ⟨not_not.mp same, rfl⟩

section Rounds

variable [Scalar F] [DecidableEq G] [DecidableEq C]

/-- A root task that goes on, after what it released was put aside. -/
def EpisodeTask.keepRoot (task : EpisodeTask G C F)
    (rootTask : RootTask G C F) : EpisodeTask G C F :=
  { task.appendReleasable rootTask.takeReleasable.1 with
    state := .root rootTask.takeReleasable.2 }

def EpisodeTask.leaveRoot (task : EpisodeTask G C F)
    (rootTask : RootTask G C F) (result : SymmetricRootResult G C F) :
    EpisodeTask G C F :=
  EpisodeTask.afterTurn { task.appendReleasable rootTask.takeReleasable.1 with state := .done }
    result

inductive Rounds (fuel : Nat) (task : EpisodeTask G C F) :
    Unit ⊕ SearchPoll G C F (SymmetricEpisode G C F) → EpisodeTask G C F → Prop where
  | start (state : task.state = .turn) :
    Rounds fuel task (.inl ()) (EpisodeTask.started { task with state := .done })
  | work {rootTask next work} (state : task.state = .root rootTask)
    (polls : Polls fuel rootTask (.work work) next) :
    Rounds fuel task (.inr (.work (work.retokenize ⟨task.nextToken⟩)))
      { task.keepRoot next with
        nextToken := task.nextToken + 1
        rootPending := task.rootPending ++ [⟨⟨task.nextToken⟩, work.token⟩] }
  | blocked {rootTask next} (state : task.state = .root rootTask)
    (polls : Polls fuel rootTask .blocked next) :
    Rounds fuel task (.inr .blocked) (task.keepRoot next)
  | next {rootTask next left result} (state : task.state = .root rootTask)
    (polls : Polls fuel rootTask (.done result) next) (alone : task.rootPending = [])
    (turn : result.player = task.player)
    (reuses : Reuses next.takeReleasable.2 (task.leaveRoot next result).visited none left) :
    Rounds fuel task (.inl ()) ((task.leaveRoot next result).appendReleasable
        left.takeAllHandles.1)
  | reuse {rootTask next left reused aligned result contexts turned}
    (state : task.state = .root rootTask) (polls : Polls fuel rootTask (.done result) next)
    (alone : task.rootPending = []) (turn : result.player = task.player)
    (reuses : Reuses next.takeReleasable.2
      (task.leaveRoot next result).visited (some reused) left)
    (turns : turned = ((task.leaveRoot next result).appendReleasable
      left.takeAllHandles.1).turned)
    (aligns : Aligns reused turned.board contexts aligned)
    (active : turned.actorActive turned.player = true) :
    Rounds fuel task (.inl ()) (turned.continued aligned contexts)
  | measure (state : task.state = .measurePair) :
    Rounds fuel task (.inr (.work (.measurePair
        { token := ⟨task.nextToken⟩
          graphs := (task.actors.one.current, task.actors.two.current)
          options := task.config.measureOptions })))
      { task with
        nextToken := task.nextToken + 1
        pending := some ⟨task.nextToken⟩
        state := .done }
  | finished {episode} (state : task.state = .doneResult episode) :
    Rounds fuel task (.inr (.done episode)) { task with state := .done }

variable {task final : EpisodeTask G C F}

omit [Scalar F] [DecidableEq G] [DecidableEq C] in
theorem episode_get_bind_eq_ok {α : Type} {rest : EpisodeTask G C F → EpisodeEffect G C F α} {value}
    (done : (get >>= rest).perform task = (.ok value, final)) :
    (rest task).perform task = (.ok value, final) :=
  done

omit [Scalar F] [DecidableEq G] [DecidableEq C] in
theorem episode_modify_bind_eq_ok {α : Type} {change} {rest : PUnit → EpisodeEffect G C F α} {value}
    (done : (modify change >>= rest).perform task = (.ok value, final)) :
    (rest ⟨⟩).perform (change task) = (.ok value, final) :=
  done

omit [Scalar F] [DecidableEq C] in
theorem startReused_eq_ok {reused : RootTask G C F} {value}
    (done : (startReused reused).perform task = (.ok value, final)) :
    ∃ contexts aligned, Aligns reused task.turned.board contexts aligned ∧
      task.turned.actorActive task.turned.player = true ∧
        final = task.turned.continued aligned contexts := by
  replace done := episode_get_bind_eq_ok (episode_modify_bind_eq_ok done)
  rw [show (if (!task.actorActive task.player && task.anyActive) = true then
      { task with player := task.player.opponent }
    else task) = task.turned from rfl] at done
  cases ran : (alignRootBoard task.turned.board).perform reused with
  | mk outcome aligned =>
    rw [ran] at done
    cases outcome with
    | error failure =>
      obtain ⟨_, _, _, failed⟩ := perform_bind_eq_ok done
      exact absurd failed perform_throw_ne_ok
    | ok contexts =>
      dsimp only at done
      split at done
      · obtain ⟨_, _, _, rest⟩ := perform_bind_eq_ok done
        obtain ⟨_, _, failed, _⟩ := perform_bind_eq_ok rest
        exact absurd failed perform_throw_ne_ok
      · next active =>
        cases done
        exact ⟨contexts, aligned, aligns_of_alignRootBoard ran, by simpa using active,
          rfl⟩

omit [DecidableEq C] in
theorem finishRootTask_eq_ok {rootTask : RootTask G C F} {result value}
    (done : (finishRootTask rootTask result).perform task = (.ok value, final)) :
    task.rootPending = [] ∧ result.player = task.player ∧ ∃ reused left,
        Reuses rootTask (task.afterTurn result).visited reused left ∧ match reused with
          | none => final = (task.afterTurn result).appendReleasable left.takeAllHandles.1
          | some reused => (startReused reused).perform ((task.afterTurn result).appendReleasable
                left.takeAllHandles.1) = (.ok ⟨⟩, final) := by
  replace done := episode_get_bind_eq_ok done
  split at done
  · obtain ⟨_, _, _, rest⟩ := perform_bind_eq_ok done
    obtain ⟨_, _, failed, _⟩ := perform_bind_eq_ok rest
    exact absurd failed perform_throw_ne_ok
  next alone =>
  have alone : task.rootPending = [] := by simpa using alone
  obtain ⟨outcome, mid, caught, rest⟩ := perform_bind_eq_ok done
  rw [perform_attempt] at caught
  rcases turned : (finishTurn result).perform task with ⟨_ | _, reached⟩
  · rw [turned] at caught
    cases caught
    obtain ⟨_, _, _, failed⟩ := perform_bind_eq_ok rest
    exact absurd failed perform_throw_ne_ok
  rw [turned] at caught
  cases caught
  obtain ⟨player, rfl⟩ := finishTurn_eq_ok turned
  replace rest := episode_get_bind_eq_ok rest
  refine ⟨alone, player, ?_⟩
  cases ran : (takeReusedTask (task.afterTurn result).visited).perform rootTask with
  | mk outcome left =>
    rw [ran] at rest
    replace rest := episode_modify_bind_eq_ok rest
    cases outcome with
    | error failure => exact absurd rest perform_throw_ne_ok
    | ok reused =>
      refine ⟨reused, left, reuses_of_takeReusedTask ran, ?_⟩
      cases reused with
      | none =>
        cases rest
        rfl
      | some reused => exact rest

variable {fuel : Nat}

theorem rounds_of_pollRoot {rootTask} {outcome : Unit ⊕ SearchPoll G C F (SymmetricEpisode G C F)}
    (state : task.state = .root rootTask)
    (done : (pollRoot fuel rootTask).perform { task with state := .done } = (.ok outcome, final)) :
    Rounds fuel task outcome final := by
  unfold pollRoot at done
  cases ran : (RootTask.poll fuel).perform rootTask with
  | mk polled next =>
    rw [ran] at done
    cases polled with
    | error failure =>
      obtain ⟨_, _, _, failed⟩ := perform_bind_eq_ok done
      exact absurd failed perform_throw_ne_ok
    | ok polled =>
      have polls := polls_of_poll ran
      replace done := episode_modify_bind_eq_ok done
      cases polled with
      | work work =>
        cases done
        exact .work state polls
      | blocked =>
        cases done
        exact .blocked state polls
      | done result =>
        obtain ⟨_, mid, finished, rest⟩ := perform_bind_eq_ok done
        cases rest
        obtain ⟨alone, turn, reused, left, reuses, rest⟩ := finishRootTask_eq_ok finished
        cases reused with
        | none =>
          cases rest
          exact .next state polls alone turn reuses
        | some reused =>
          obtain ⟨contexts, aligned, aligns, active, rfl⟩ := startReused_eq_ok rest
          exact .reuse state polls alone turn reuses rfl aligns active

theorem rounds_of_episodeRound {outcome : Unit ⊕ SearchPoll G C F (SymmetricEpisode G C F)}
    (done : (episodeRound fuel).perform task = (.ok outcome, final)) :
    Rounds fuel task outcome final := by
  replace done := episode_get_bind_eq_ok done
  replace done := episode_modify_bind_eq_ok done
  cases state : task.state with
  | turn =>
    rw [state] at done
    cases done
    exact .start state
  | root rootTask =>
    rw [state] at done
    exact rounds_of_pollRoot state done
  | measurePair =>
    rw [state] at done
    cases done
    exact .measure state
  | doneResult episode =>
    rw [state] at done
    cases done
    exact .finished state
  | done =>
    rw [state] at done
    exact absurd done perform_throw_ne_ok

end Rounds

section Results

variable [Scalar F]

/-- The episode whose final graphs were measured. -/
def EpisodeTask.concluded (task : EpisodeTask G C F)
    (p1Measure p2Measure : MeasureResult G F) : EpisodeTask G C F :=
  { task with
    pending := none
    actors :=
      { one := { task.actors.one with steps := [], rootStats := [] }
        two := { task.actors.two with steps := [], rootStats := [] } }
    pathGraphs := []
    state := .doneResult
      { p1 := task.actors.one.trace task.identity p1Measure
        p2 := task.actors.two.trace task.identity p2Measure
        searchConfigHash := task.searchConfigHash
        createdGraphs := task.pathGraphs
        createdCandidates := [] } }

variable [DecidableEq G] [DecidableEq C]

/-- What a result does to the episode it is for. -/
inductive Receipts (task : EpisodeTask G C F) (token : WorkToken) :
    SearchWorkResult G C F → EpisodeTask G C F → Prop where
  | root {pending rootTask next result}
    (found : task.rootPending.find? (·.outer == token) = some pending)
    (state : task.state = .root rootTask) (resumes : Resumes rootTask pending.inner result next) :
    Receipts task token result (EpisodeTask.keepRoot
        { task with rootPending := task.rootPending.erase pending } next)
  | measure {p1Measure p2Measure} (free : task.rootPending.find? (·.outer == token) = none)
    (waits : task.pending = some token) (firstValid : validMeasure p1Measure = true)
    (secondValid : validMeasure p2Measure = true) :
    Receipts task token (.measurePair p1Measure p2Measure) (task.concluded p1Measure p2Measure)

variable {task final : EpisodeTask G C F}

theorem receipts_of_resumeRoot {token : WorkToken} {pending result value}
    (found : task.rootPending.find? (·.outer == token) = some pending)
    (done : (resumeRoot pending result).perform task = (.ok value, final)) :
    Receipts task token result final := by
  replace done := episode_get_bind_eq_ok done
  cases state : task.state with
  | root rootTask =>
    rw [state] at done
    replace done := episode_modify_bind_eq_ok done
    cases ran : (RootTask.resume pending.inner result).perform rootTask with
    | mk outcome next =>
      rw [ran] at done
      cases outcome with
      | error failure =>
        obtain ⟨_, _, _, failed⟩ := perform_bind_eq_ok done
        exact absurd failed perform_throw_ne_ok
      | ok _ =>
        cases done
        exact .root found state (resumes_of_resume ran)
  | turn | measurePair | doneResult _ | done =>
    rw [state] at done
    exact absurd done perform_throw_ne_ok

theorem receipts_of_resume {token : WorkToken} {result value}
    (done : (EpisodeTask.resume token result).perform task = (.ok value, final)) :
    Receipts task token result final := by
  replace done := episode_get_bind_eq_ok done
  cases found : task.rootPending.find? (·.outer == token) with
  | some pending =>
    rw [found] at done
    exact receipts_of_resumeRoot found done
  | none =>
    rw [found] at done
    replace done := episode_get_bind_eq_ok done
    cases waits : task.pending with
    | none =>
      rw [waits] at done
      exact absurd done perform_throw_ne_ok
    | some expected =>
      rw [waits] at done
      dsimp only at done
      split at done
      · obtain ⟨_, _, failed, _⟩ := perform_bind_eq_ok done
        exact absurd failed perform_throw_ne_ok
      next same =>
      have same : expected = token := by simpa using same
      cases same
      cases result with
      | measurePair p1Measure p2Measure =>
        replace done := episode_modify_bind_eq_ok done
        unfold finishEpisode at done
        split at done
        · obtain ⟨_, _, failed, _⟩ := perform_bind_eq_ok done
          exact absurd failed perform_throw_ne_ok
        · next valid =>
          cases done
          simp only [Bool.or_eq_true, Bool.not_eq_true', not_or, Bool.not_eq_false] at valid
          exact .measure found waits valid.1 valid.2
      | expand _ | apply _ | eval _ => exact absurd done perform_throw_ne_ok

end Results

end GraphZero.Search
