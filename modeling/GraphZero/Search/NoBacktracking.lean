import GraphZero.Search.BarredContexts
import GraphZero.Search.WellTold

/-!
# Episodes without backtracking

The contexts that a player's rewrites leave, together with the one the player
is in, are all different.  Those that were left are kept in `visited`, and a
rewrite leads to none of them.
-/

namespace GraphZero.Search

open Engine Foundation Effect List

variable {G C F : Type}

namespace ActorPath

def left (path : ActorPath G C F) : List ReplayGraphContext :=
  (path.steps.filter GumbelStep.rewrites).map fun step => step.stepRef.before

/-- The contexts before the rewrites and the last one. -/
def contexts (path : ActorPath G C F) : List ReplayGraphContext :=
  path.left ++ path.context.toList

end ActorPath

/-- An actor has never come back to a context; what it left was visited. -/
structure Actor.Onward (visited : Finset ReplayGraphContext) (actor : Actor G C F) : Prop where
  contexts : actor.path.contexts.Nodup
  left : ∀ context ∈ actor.path.left, context ∈ visited

section Actors

variable {actor : Actor G C F} {visited : Finset ReplayGraphContext}
  {maxSteps : Nat} {context : ReplayGraphContext}

theorem nodup_left_concat (recorded : actor.Recorded maxSteps) (onward : actor.Onward visited)
    (agrees : ∀ known, actor.context = some known → known = context) :
    (actor.path.left ++ [context]).Nodup := by
  have contexts := onward.contexts
  have chained := recorded.path.chained
  unfold ActorPath.contexts at contexts
  unfold ActorPath.Chained at chained
  cases known : actor.context with
  | some found =>
    rw [agrees found known] at known
    have same : actor.path.context = some context := known
    rw [same] at contexts
    exact contexts
  | none =>
    have same : actor.path.context = none := known
    cases root : actor.path.rootContext with
    | some root' =>
      rw [root] at chained
      obtain ⟨last, found, _⟩ := chained
      cases same.symm.trans found
    | none =>
      rw [root] at chained
      have empty : actor.path.left = [] := by
        unfold ActorPath.left
        rw [chained.1]
        rfl
      rw [empty]
      exact nodup_singleton _

theorem Actor.Onward.learns {context} (recorded : actor.Recorded maxSteps)
    (onward : actor.Onward visited)
    (keeps : ∀ known, actor.context = some known → context = some known) :
    { actor with context := context }.Onward visited := by
  refine ⟨?_, onward.left⟩
  cases context with
  | none =>
    change (actor.path.left ++ []).Nodup
    rw [append_nil]
    exact (nodup_append.mp onward.contexts).1
  | some context =>
    have here : (actor.path.left ++ [context]).Nodup := nodup_left_concat recorded onward
        fun known found => (Option.some.inj (keeps known found)).symm
    exact here

theorem Actor.Onward.passTurn (recorded : actor.Recorded maxSteps) (onward : actor.Onward visited) :
    (actor.passTurn context).Onward visited := by
  have here : (actor.path.left ++ [actor.context.getD context]).Nodup := by
    refine nodup_left_concat recorded onward fun known found => ?_
    rw [found]
    rfl
  exact ⟨here, onward.left⟩

theorem left_takeStep (actor : Actor G C F) (result : SymmetricRootAction G C F) :
    (actor.takeStep result).path.left = if result.step.action.isStop then actor.path.left
      else actor.path.left ++ [result.step.stepRef.before] := by
  change ((actor.steps ++ [result.step]).filter _).map _ = _
  rw [filter_append, map_append]
  cases stops : result.step.action.isStop with
  | true =>
    have same : [result.step].filter GumbelStep.rewrites = [] := by
      simp [GumbelStep.rewrites, stops]
    rw [same]
    exact append_nil _
  | false =>
    have same : [result.step].filter GumbelStep.rewrites = [result.step] := by
      simp [GumbelStep.rewrites, stops]
    rw [same]
    rfl

theorem Actor.Onward.takeStep {result after} (recorded : actor.Recorded maxSteps)
    (onward : actor.Onward visited) (more : visited ⊆ after)
    (agrees : ∀ known, actor.context = some known → known = result.step.stepRef.before)
    (stays : result.step.action.isStop = true →
      result.selectedAfterContext = result.step.stepRef.before)
    (moves : result.step.action.isStop = false → result.step.stepRef.before ∈ after ∧
        result.selectedAfterContext ∉ visited ∧
          result.selectedAfterContext ≠ result.step.stepRef.before) :
    (actor.takeStep result).Onward after := by
  have here := nodup_left_concat recorded onward agrees
  have left := left_takeStep actor result
  have contexts : (actor.takeStep result).path.contexts =
      (actor.takeStep result).path.left ++ [result.selectedAfterContext] :=
    rfl
  cases stops : result.step.action.isStop with
  | true =>
    rw [if_pos stops] at left
    refine ⟨?_, fun context member => ?_⟩
    · rw [contexts, left, stays stops]
      exact here
    · rw [left] at member
      exact more (onward.left context member)
  | false =>
    obtain ⟨kept, fresh, different⟩ := moves stops
    rw [stops, if_neg Bool.false_ne_true] at left
    refine ⟨?_, fun context member => ?_⟩
    · rw [contexts, left]
      refine nodup_append.mpr ⟨here, nodup_singleton _, fun first member last same => ?_⟩
      rw [mem_singleton.mp same]
      rcases mem_append.mp member with earlier | last
      · exact fun back => fresh (back ▸ onward.left _ earlier)
      · rw [mem_singleton.mp last]
        exact different.symm
    · rw [left] at member
      rcases mem_append.mp member with earlier | last
      · exact more (onward.left context earlier)
      · rw [mem_singleton.mp last]
        exact kept

end Actors

/-! ## Episodes -/

/-- No player has come back to a context. -/
def EpisodeTask.Onward (task : EpisodeTask G C F) : Prop :=
  ∀ player, (task.actors.of player).Onward (task.visited.of player)

/-- The root task of an episode knows what the episode has visited. -/
def EpisodeTask.Wary (task : EpisodeTask G C F) : Prop :=
  ∀ rootTask, task.state = .root rootTask → rootTask.Wary ∧ rootTask.visited = task.visited ∧
      rootTask.config = task.config

section Episodes

variable {task final : EpisodeTask G C F} {last : Option TurnRecord}

theorem EpisodeTask.Onward.learns (recorded : task.Recorded)
    (onward : task.Onward) (learns : task.Learns final) :
    final.Onward := by
  intro player
  obtain ⟨context, same, keeps⟩ := learns.actors player
  rw [same, learns.visited]
  exact (onward player).learns (recorded player) keeps

theorem visited_afterTurn (task : EpisodeTask G C F) (result : SymmetricRootAction G C F) :
    (∀ player, task.visited.of player ⊆ (task.afterTurn (.action result)).visited.of player) ∧
    (task.config.noBacktrack = true → result.step.action.isStop = false →
      result.step.stepRef.before ∈ (task.afterTurn (.action result)).visited.of result.player) := by
  unfold EpisodeTask.afterTurn
  dsimp only
  split
  · refine ⟨fun player context member => ?_, fun _ _ => ?_⟩
    · by_cases same : player = result.player
      · subst same
        rw [PerPlayer.of_update_same]
        exact Finset.mem_insert_of_mem member
      · rw [PerPlayer.of_update_of_ne _ _ same]
        exact member
    · rw [PerPlayer.of_update_same]
      exact Finset.mem_insert_self _ _
  · next kept =>
    refine ⟨fun _ => Finset.Subset.refl _, fun strict goes => ?_⟩
    rw [strict, goes] at kept
    exact absurd rfl kept

theorem onward_afterTurn {result} (strict : task.config.noBacktrack = true)
    (recorded : task.Recorded) (onward : task.Onward) (ends : task.stand.Ends result)
    (fresh : result.Fresh task.visited) : (task.afterTurn result).Onward := by
  have agrees {player : GumbelPlayer} {context : ReplayGraphContext}
      (agrees : task.stand.Agrees player context) :
      ∀ known, (task.actors.of player).context = some known → known = context := by
    intro known found
    rw [← contexts_stand] at found
    exact agrees known found
  intro player
  by_cases here : player = result.player
  · subst here
    cases result with
    | pass player context =>
      change ((task.actors.update player _).of player).Onward _
      rw [PerPlayer.of_update_same]
      exact (onward player).passTurn (recorded player)
    | action result =>
      obtain ⟨left, _, _, reached, stays⟩ := ends
      obtain ⟨more, kept⟩ := visited_afterTurn task result
      change ((task.actors.update result.player _).of result.player).Onward _
      rw [PerPlayer.of_update_same]
      exact (onward result.player).takeStep (recorded result.player)
        (more result.player) (agrees left) (fun stops => (stays stops).2)
        fun goes => ⟨kept strict goes, fresh goes⟩
  · rw [afterTurn_of_ne here]
    cases result with
    | pass passed context => exact onward player
    | action result =>
      have more := (visited_afterTurn task result).1 player
      exact ⟨(onward player).contexts, fun context member =>
        more ((onward player).left context member)⟩

theorem wary_rootTask (strict : task.config.noBacktrack = true) : task.rootTask.Wary :=
  ⟨strict, fun _ state => (by cases state), fun _ state => (by cases state)⟩

theorem wary_started (strict : task.config.noBacktrack = true) : task.started.Wary := by
  unfold EpisodeTask.started EpisodeTask.Wary
  split
  · intro rootTask state
    cases state
  split
  · intro rootTask state
    cases state
  intro rootTask state
  cases state
  exact ⟨wary_rootTask strict, rfl, rfl⟩

theorem wary_takeReleasable (wary : task.Wary) : task.takeReleasable.2.Wary := by
  rcases task.takeReleasable_cases with ⟨rootTask, state, same⟩ | same
  · rw [same]
    intro other root
    cases root
    obtain ⟨kept, visited, config⟩ := wary rootTask state
    exact ⟨kept.takeReleasable, visited, config⟩
  · rw [same]
    exact wary

variable [Scalar F] [DecidableEq G] [DecidableEq C] {fuel : Nat}

theorem EpisodeTask.Records.onward (records : task.Records fuel final)
    (strict : task.config.noBacktrack = true) (recorded : task.Recorded)
    (turn : task.InTurn last) (searching : task.Searching)
    (wary : task.Wary) (onward : task.Onward) : final.Onward := by
  cases records with
  | kept learns => exact onward.learns recorded learns
  | @turned rootTask next result state polls same learns =>
    have ends := polls.searches (searching _ state)
    have active : task.actorActive result.player = true := same ▸ turn.active _ state
    obtain ⟨heeds, visited, _⟩ := wary rootTask state
    have fresh := (polls.wary (searching _ state) heeds).1
    rw [visited] at fresh
    have after : (task.leaveRoot next result).Onward :=
      onward_afterTurn strict recorded onward ends fresh
    have told : (task.leaveRoot next result).Recorded := recorded_afterTurn recorded active ends
    exact after.learns told learns

theorem Rounds.wary {outcome} (strict : task.config.noBacktrack = true) (searching : task.Searching)
    (wary : task.Wary) (rounds : Rounds fuel task outcome final) :
    final.Wary := by
  cases rounds with
  | start state => exact wary_started strict
  | work state polls | blocked state polls =>
    intro rootTask root
    cases root
    obtain ⟨heeds, visited, config⟩ := wary _ state
    obtain ⟨kept, same, settings⟩ := polls.wary (searching _ state) heeds
    exact ⟨kept.takeReleasable, same.trans visited, settings.trans config⟩
  | next state polls alone turn reuses =>
    intro rootTask root
    cases (afterTurn_keeps _ _).2.2.symm.trans root
  | @reuse rootTask next left reused aligned result contexts turned state
      polls alone turn reuses turns aligns active =>
      intro other root
      cases root
      obtain ⟨heeds, visited, config⟩ := wary _ state
      obtain ⟨_, settings, placed⟩ := polls.wary (searching _ state) heeds
      have same : next.takeReleasable.2.config = task.config := settings.trans config
      have placed : ∀ tree, next.takeReleasable.2.reused = some tree →
        ∀ node ∈ tree.nodes, node.Placed := placed
      obtain ⟨carried, known, given⟩ := reuses.wary (same ▸ strict) placed
      obtain ⟨idle, run, begun⟩ := reuses.begins
      obtain ⟨kept, seen, rules⟩ := aligns.wary carried begun
      have learns : ((task.leaveRoot next result).appendReleasable
          left.takeAllHandles.1).Learns turned :=
        turns ▸ learns_turned _
      have after : (task.leaveRoot next result).config = task.config := by
        cases result with
        | pass | action => rfl
      refine ⟨kept, ?_, ?_⟩
      · change aligned.visited = turned.visited
        rw [seen, known, learns.visited]
        rfl
      · change aligned.config = turned.config
        rw [rules, given, same, learns.config]
        exact after.symm
  | measure | finished =>
    intro rootTask root
    cases root

omit [DecidableEq C] in
theorem Receipts.wary {token result} (searching : task.Searching) (wary : task.Wary)
    (receipts : Receipts task token result final) : final.Wary := by
  cases receipts with
  | root found state resumes =>
    intro rootTask root
    cases root
    obtain ⟨heeds, visited, config⟩ := wary _ state
    obtain ⟨kept, same, settings⟩ := resumes.wary (searching _ state) heeds
    exact ⟨kept.takeReleasable, same.trans visited, settings.trans config⟩
  | measure =>
    intro rootTask root
    cases root

end Episodes

namespace EpisodeRun

variable {run next : EpisodeRun G C F}

/-- Along a run no player comes back to a context. -/
structure Onward (run : EpisodeRun G C F) : Prop where
  actors : run.outcome = none → run.task.Onward
  told : ∀ episode, run.outcome = some episode → ∀ player,
    (episode.actor player).path.contexts.Nodup
  wary : run.status = .running → run.task.Wary

variable {task : EpisodeTask G C F}

theorem onward_ofTask {owned lent} (begins : task.Begins owned lent) :
    (ofTask task owned lent).Onward := by
  have fresh {actor : Actor G C F} {visited : Finset ReplayGraphContext}
      (empty : actor.steps = []) : actor.Onward visited := by
    have left : actor.path.left = [] := by
      unfold ActorPath.left Actor.path
      rw [empty]
      rfl
    refine ⟨?_, fun context member => ?_⟩
    · unfold ActorPath.contexts
      rw [left, nil_append]
      exact Option.toList_nodup _
    · rw [left] at member
      cases member
  cases begins with
  | lent | owned | position =>
    refine ⟨fun _ player => ?_, fun _ told => (by cases told),
      fun _ _ root => (by cases root)⟩
    cases player with
    | one | two => exact fresh rfl

theorem Onward.learns (onward : run.Onward) (telling : run.Telling)
    (learns : run.task.Learns next.task)
    (outcome : next.outcome = run.outcome)
    (wary : next.status = .running → next.task.Wary) : next.Onward := by
  refine ⟨fun none => ?_, fun episode told => ?_, wary⟩
  · have before := outcome.symm.trans none
    exact (onward.actors before).learns (telling.recorded before) learns
  · exact onward.told episode (outcome.symm.trans told)

theorem onward_fail (failure : SearchFailure F) (silent : task.outcome = none)
    (onward : task.Onward) : (run.fail failure task).Onward := by
  refine ⟨fun _ => onward, fun _ told => ?_, fun going => (by cases going)⟩
  cases silent.symm.trans told

theorem contexts_concluded (recorded : task.Recorded) (onward : task.Onward)
    (p1Measure p2Measure : MeasureResult G F) {episode}
    (told : (task.concluded p1Measure p2Measure).outcome = some episode) (player : GumbelPlayer) :
    (episode.actor player).path.contexts.Nodup := by
  have ends (player : GumbelPlayer) (finalMeasure : MeasureResult G F) :
      ((task.actors.of player).trace task.identity finalMeasure).path.contexts.Nodup := by
    refine nodup_left_concat (recorded player) (onward player) ?_
    intro known found
    unfold Actor.trace
    rw [found]
    rfl
  cases told
  cases player with
  | one => exact ends .one p1Measure
  | two => exact ends .two p2Measure

variable [Scalar F] [DecidableEq G] [DecidableEq C]

variable {task : EpisodeTask G C F}

theorem Onward.round {fuel outcome} (onward : run.Onward) (telling : run.Telling)
    (strict : run.task.config.noBacktrack = true) (running : run.status = .running)
    (done : (episodeRound fuel).perform run.task = (.ok outcome, task)) :
    (run.afterRound outcome task).Onward := by
  have rounds := rounds_of_episodeRound done
  have silent : task.outcome = none :=
    outcome_of_reporting ((leavesNothing_episodeRound fuel).eq done)
  have records := (records_episodeRound fuel run.task).eq done
  have wary := rounds.wary strict (telling.searching running) (onward.wary running)
  have reached : (run.afterRound outcome task).task = task := (turns_afterRound outcome task :
      (run.afterRound outcome task).turns = run.turns ++ turnBetween run.task task ∧
        (run.afterRound outcome task).task = task).2
  have going (status : (run.afterRound outcome task).status = .running)
      (before : run.task.outcome = none) :
      (run.afterRound outcome task).Onward := by
    have none := (outcome_of_running status).trans
      ((congrArg EpisodeTask.outcome reached).trans silent)
    have before := (outcome_of_running running).trans before
    have after := records.onward strict (telling.recorded before)
      (telling.inTurn running) (telling.searching running)
      (onward.wary running) (onward.actors before)
    refine ⟨fun _ => ?_, fun _ told => ?_, fun _ => ?_⟩
    · rw [reached]
      exact after
    · cases none.symm.trans told
    · rw [reached]
      exact wary
  cases rounds with
  | start state | work state polls | blocked state polls
  | next state polls alone same reuses
  | reuse state polls alone same reuses aligns active | measure state =>
    refine going running ?_
    unfold EpisodeTask.outcome
    rw [state]
  | @finished episode state =>
    have before : run.outcome = some episode := by
      rw [outcome_of_running running]
      unfold EpisodeTask.outcome
      rw [state]
    refine ⟨fun none => (by cases none), fun other told => ?_,
      fun going => (by cases going)⟩
    cases told
    exact onward.told episode before

theorem Onward.roundFailed {fuel failure} (onward : run.Onward) (telling : run.Telling)
    (strict : run.task.config.noBacktrack = true) (running : run.status = .running)
    (failed : (episodeRound fuel).perform run.task = (.error failure, task)) :
    (run.fail failure task).Onward := by
  have silent : task.outcome = none :=
    outcome_of_reporting ((leavesNothing_episodeRound fuel).eq failed)
  have records := (records_episodeRound fuel run.task).eq failed
  have before := outcome_of_roundFailed running failed
  exact onward_fail failure silent
    (records.onward strict (telling.recorded before) (telling.inTurn running)
      (telling.searching running) (onward.wary running)
      (onward.actors before))

theorem Onward.resume {outstanding token result} (onward : run.Onward) (telling : run.Telling)
    (running : run.status = .running) (silent : run.task.outcome = none)
    (done : (EpisodeTask.resume token result).perform run.task = (.ok ⟨⟩, task)) :
    (run.afterResult outstanding result task).Onward := by
  have receipts := receipts_of_resume done
  have wary := receipts.wary (telling.searching running) (onward.wary running)
  have before := (outcome_of_running running).trans silent
  have recorded := telling.recorded before
  have actors := onward.actors before
  have next : (run.afterResult outstanding result task).outcome =
      task.outcome := outcome_of_running running
  cases receipts with
  | root found state resumes =>
    refine ⟨fun _ => actors, fun _ told => ?_, fun _ => wary⟩
    cases next.symm.trans told
  | measure free waits firstValid secondValid =>
    refine ⟨fun none => (by cases next.symm.trans none),
      fun episode told => ?_, fun _ => wary⟩
    exact contexts_concluded recorded actors _ _ (next.symm.trans told)

end EpisodeRun

section Runs

variable [Scalar F] [DecidableEq G] [DecidableEq C]
  {run next : EpisodeRun G C F} {label : EpisodeLabel G C F}

theorem config_of_step (step : EpisodeStep run label next) :
    next.task.config = run.task.config := by
  have round {fuel : Nat} {task : EpisodeTask G C F} (records : run.task.Records fuel task) :
      task.config = run.task.config := by
    cases records with
    | kept learns => exact learns.config
    | @turned rootTask next result state polls same learns =>
      refine learns.config.trans ?_
      cases result with
      | pass | action => rfl
  cases step with
  | @round _ task outcome running idle done =>
    have same := round ((records_episodeRound _ run.task).eq done)
    rcases outcome with again | work | _ | episode
    · exact same
    · exact same
    · exact same
    · exact same
  | roundFailed running idle failed kept =>
    exact round ((records_episodeRound _ run.task).eq failed)
  | resume running open_ answered done =>
    cases receipts_of_resume done with
    | root | measure => rfl
  | resumeFailed running open_ answered failed kept => exact (learns_of_resume_error failed).config
  | takeReleasable => exact (learns_takeReleasable run.task).config
  | abort unfinished => exact (learns_takeAllHandles run.task).config

theorem onward_of_step (sound : run.Sound) (telling : run.Telling)
    (strict : run.task.config.noBacktrack = true) (onward : run.Onward)
    (step : EpisodeStep run label next) : next.Onward := by
  cases step with
  | round running idle done => exact onward.round telling strict running done
  | roundFailed running idle failed kept => exact onward.roundFailed telling strict running failed
  | resume running open_ answered done =>
    have silent := sound.silent (.inl (by rw [open_]; simp))
    exact onward.resume telling running (outcome_of_reporting silent) done
  | @resumeFailed _ _ _ _ _ failure running open_ answered failed kept =>
    have silent := sound.silent (.inl (by rw [open_]; simp))
    have before := (EpisodeRun.outcome_of_running running).trans (outcome_of_reporting silent)
    exact EpisodeRun.onward_fail failure (outcome_of_reporting (reporting_of_resume silent failed))
      ((onward.actors before).learns (telling.recorded before) (learns_of_resume_error failed))
  | takeReleasable =>
    exact onward.learns telling (learns_takeReleasable run.task) EpisodeRun.outcome_takeReleasable
      fun running => wary_takeReleasable (onward.wary running)
  | abort unfinished =>
    exact onward.learns telling (learns_takeAllHandles run.task)
      (EpisodeRun.outcome_abort unfinished)
      fun running => (by cases running)

/-- Without backtracking, no player comes back to a context. -/
def EpisodeRun.Forward (run : EpisodeRun G C F) : Prop :=
  run.task.config.noBacktrack = true → run.Onward

theorem forward_of_reachable (reachable : episodeSystem.Reachable run) : run.Forward := by
  refine reachable.invariant_given (fun _ reached => And.intro (sound_of_reachable reached)
      (telling_of_reachable reached)) ?_ ?_
  · rintro _ ⟨task, owned, lent, begins, rfl⟩ _
    exact EpisodeRun.onward_ofTask begins
  · intro run label next known forward step strict
    rw [config_of_step step] at strict
    exact onward_of_step known.1 known.2 strict (forward strict) step

/-- Without backtracking the contexts before a player's rewrites and the
player's last context are all different, at every point of every run. -/
theorem contexts_nodup_of_reachable (reachable : episodeSystem.Reachable run)
    (strict : run.task.config.noBacktrack = true) (player : GumbelPlayer) :
    (run.path player).contexts.Nodup := by
  have onward := forward_of_reachable reachable strict
  unfold EpisodeRun.path
  cases outcome : run.outcome with
  | none => exact (onward.actors outcome player).contexts
  | some episode => exact onward.told episode outcome player

end Runs

/-- In the sample each player leaves a context that it is not in at the
end. -/
theorem contexts_nodup_at_the_end : ∃ run, Sample.start.follow Sample.labels = some run ∧
      run.task.config.noBacktrack = true ∧ (run.path .one).contexts.length = 2 ∧
          (run.path .one).contexts.Nodup := by
  have followed : (Sample.start.follow Sample.labels).any (fun run =>
      decide (run.task.config.noBacktrack = true ∧
        (run.path .one).contexts.length = 2)) = true := by
    decide +kernel
  obtain ⟨run, reached, seen⟩ := Option.any_eq_true _ _ |>.mp followed
  obtain ⟨strict, two⟩ := of_decide_eq_true seen
  exact ⟨run, reached, strict, two,
    contexts_nodup_of_reachable (Sample.reachable_of_follow reached) strict .one⟩

end GraphZero.Search
