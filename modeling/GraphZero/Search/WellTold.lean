import GraphZero.Search.EpisodeTraces

/-!
# Runs tell well-formed episodes

The recorded steps, the order of the turns and the one measurement, along
every run of an episode.
-/

namespace GraphZero.Search

open Engine Foundation Effect List

variable {G C F : Type}

/-- The episode that a task is about to report. -/
def EpisodeTask.outcome (task : EpisodeTask G C F) : Option (SymmetricEpisode G C F) :=
  match task.state with
  | .doneResult episode => some episode
  | _ => none

def SymmetricEpisode.actor (episode : SymmetricEpisode G C F) :
    GumbelPlayer → SymmetricActorTrace G C F
  | .one => episode.p1
  | .two => episode.p2

section Outcomes

variable {task : EpisodeTask G C F}

theorem outcome_drainRoot (all : Bool) : (task.drainRoot all).outcome = task.outcome := by
  unfold EpisodeTask.drainRoot
  split
  · next rootTask state =>
    unfold EpisodeTask.outcome
    rw [state]
    rfl
  · rfl

theorem outcome_takeReleasable : task.takeReleasable.2.outcome = task.outcome :=
  outcome_drainRoot false

theorem outcome_takeAllHandles : task.takeAllHandles.2.outcome = task.outcome :=
  outcome_takeReleasable.trans (outcome_drainRoot true)

theorem outcome_of_reporting (silent : task.reporting = false) : task.outcome = none := by
  unfold EpisodeTask.reporting at silent
  unfold EpisodeTask.outcome
  split
  · next episode state =>
    rw [state] at silent
    cases silent
  · rfl

end Outcomes

/-! ## The measurement -/

def EpisodeTask.measureWork (task : EpisodeTask G C F) (token : WorkToken) : SearchWork G C F :=
  .measurePair
    { token
      graphs := ((task.actors.of .one).current, (task.actors.of .two).current)
      options := task.config.measureOptions }

/-- The measurements that were asked for fit the state of the task. -/
structure EpisodeTask.Asked (task : EpisodeTask G C F)
    (measures : List (SearchWork G C F)) : Prop where
  quiet : task.state.playing = true → measures = []
  once : measures = [] ∨ ((∃ token, measures = [task.measureWork token]) ∧ task.anyActive = false)
  awaited : task.pending.isSome = true → measures ≠ []
  told : task.outcome.isSome = true → measures ≠ []

/-- The measurements that a round asks for. -/
def measuresOf : Unit ⊕ SearchPoll G C F (SymmetricEpisode G C F) → List (SearchWork G C F)
  | .inr (.work work) => [work].filter (·.kind = .measurePair)
  | _ => []

section Asked

variable {task final : EpisodeTask G C F} {measures : List (SearchWork G C F)}

theorem EpisodeTask.Learns.measureWork (learns : task.Learns final) (token : WorkToken) :
    final.measureWork token = task.measureWork token := by
  obtain ⟨_, one, _⟩ := learns.actors .one
  obtain ⟨_, two, _⟩ := learns.actors .two
  unfold EpisodeTask.measureWork
  rw [one, two, learns.config]

theorem EpisodeTask.Learns.once (learns : task.Learns final) (once : measures = [] ∨
      ((∃ token, measures = [task.measureWork token]) ∧ task.anyActive = false)) :
    measures = [] ∨ ((∃ token, measures = [final.measureWork token]) ∧
        final.anyActive = false) := by
  rcases once with none | ⟨⟨token, one⟩, idle⟩
  · exact .inl none
  · refine .inr ⟨⟨token, ?_⟩, learns.anyActive.trans idle⟩
    rw [learns.measureWork, one]

variable [Scalar F] [DecidableEq G] [DecidableEq C] {fuel : Nat}

omit [DecidableEq G] [DecidableEq C] in
theorem Advances.kind_ne {rootTask last state next} {work : SearchWork G C F}
    (advances : Advances rootTask state (some work) last next) :
    work.kind ≠ .measurePair := by
  cases advances with
  | apply | expand | terminal | eval => exact fun same => by cases same

theorem Polls.kind_ne {rootTask last} {work : SearchWork G C F}
    (polls : Polls fuel rootTask (.work work) last) :
    work.kind ≠ .measurePair := by
  cases polls with
  | resolve | eval => exact fun same => by cases same
  | wave idle state ends =>
    cases ends with
    | work hands =>
      obtain ⟨_, _, _, step⟩ := hands
      cases step with
      | advance split advances => exact advances.kind_ne
    | finished runs ended finish =>
      obtain ⟨_, same, _⟩ := finishes_of_finishRoot finish
      cases same

theorem Rounds.asked {last} {outcome : Unit ⊕ SearchPoll G C F (SymmetricEpisode G C F)}
    (asked : task.Asked measures) (turn : task.InTurn last) (idle : task.pending = none)
    (silent : final.outcome = none) (rounds : Rounds fuel task outcome final) :
    final.Asked (measures ++ measuresOf outcome) := by
  have early (none : measures = []) (same : final.pending = task.pending)
      (nothing : measuresOf outcome = []) :
      final.Asked (measures ++ measuresOf outcome) := by
    rw [nothing, append_nil]
    refine ⟨fun _ => none, .inl none, fun waits => ?_, fun told => ?_⟩
    · rw [same, idle] at waits
      cases waits
    · rw [silent] at told
      cases told
  cases rounds with
  | start state => exact early (asked.quiet (state ▸ rfl)) (started_keeps _) rfl
  | work state polls =>
    refine early (asked.quiet (state ▸ rfl)) rfl ?_
    unfold measuresOf
    dsimp only
    rw [filter_singleton, SearchWork.kind_retokenize, decide_eq_false polls.kind_ne]
    rfl
  | blocked state polls => exact early (asked.quiet (state ▸ rfl)) rfl rfl
  | next state polls alone turn reuses =>
    exact early (asked.quiet (state ▸ rfl)) (afterTurn_keeps _ _).2.1 rfl
  | reuse state polls alone turn reuses turns aligns active =>
    refine early (asked.quiet (state ▸ rfl)) ?_ rfl
    subst turns
    exact (turned_keeps _).2.trans (afterTurn_keeps _ _).2.1
  | measure state =>
    have none : measures = [] := asked.quiet (state ▸ rfl)
    have one : measures ++ measuresOf (.inr (.work (task.measureWork ⟨task.nextToken⟩))) =
        [task.measureWork ⟨task.nextToken⟩] := by
      rw [none]
      rfl
    refine ⟨fun playing => (by cases playing),
      .inr ⟨⟨⟨task.nextToken⟩, one⟩, turn.closing state⟩, fun _ => ?_,
      fun _ => ?_⟩
    · exact one ▸ cons_ne_nil _ _
    · exact one ▸ cons_ne_nil _ _
  | finished state =>
    have some : measures ≠ [] := asked.told (by
      unfold EpisodeTask.outcome
      rw [state]
      rfl)
    change EpisodeTask.Asked _ (measures ++ [])
    rw [append_nil]
    exact ⟨fun playing => (by cases playing), asked.once, fun _ => some,
      fun _ => some⟩

omit [DecidableEq C] in
theorem Receipts.asked {token result} (asked : task.Asked measures)
    (receipts : Receipts task token result final) :
    final.Asked measures := by
  cases receipts with
  | root found state resumes =>
    have none : measures = [] := asked.quiet (state ▸ rfl)
    exact ⟨fun _ => none, .inl none, asked.awaited, fun told => by cases told⟩
  | measure free waits firstValid secondValid =>
    have some : measures ≠ [] := asked.awaited (waits ▸ rfl)
    refine ⟨fun playing => (by cases playing), ?_, fun _ => some,
      fun _ => some⟩
    exact asked.once

end Asked

namespace EpisodeRun

/-- The episode that a run has told, or is about to. -/
def outcome (run : EpisodeRun G C F) : Option (SymmetricEpisode G C F) :=
  match run.status with
  | .finished episode => some episode
  | _ => run.task.outcome

def path (run : EpisodeRun G C F) (player : GumbelPlayer) : ActorPath G C F :=
  match run.outcome with
  | some episode => (episode.actor player).path
  | none => (run.task.actors.of player).path

/-- The measurements the episode has asked for. -/
def measures (run : EpisodeRun G C F) : List (SearchWork G C F) :=
  run.emitted.filter (·.kind = .measurePair)

/-- What a run tells is well formed.  The players take turns as long as both
can move, and the last graphs are measured once, when neither can. -/
structure WellTold (run : EpisodeRun G C F) : Prop where
  paths : ∀ player,
    (run.path player).WellFormed run.task.config.maxSteps
  turns : run.turns.IsChain fun last next => next.player = last.next
  measured : run.measures = [] ∨ (∃ token, run.measures = [.measurePair
      { token
        graphs := ((run.path .one).last, (run.path .two).last)
        options := run.task.config.measureOptions }]) ∧
      run.task.anyActive = false
  finished : ∀ episode, run.status = .finished episode → run.measures ≠ []

/-- What the steps of a run keep of this. -/
structure Telling (run : EpisodeRun G C F) : Prop where
  recorded : run.outcome = none → run.task.Recorded
  told : ∀ episode, run.outcome = some episode → ∀ player,
    (episode.actor player).path.WellFormed run.task.config.maxSteps ∧
      (episode.actor player).finalGraph = (run.task.actors.of player).current
  turns : run.turns.IsChain fun last next => next.player = last.next
  searching : run.status = .running → run.task.Searching
  inTurn : run.status = .running → run.task.InTurn run.turns.getLast?
  asked : run.status = .running → run.task.Asked run.measures
  once : run.measures = [] ∨ ((∃ token, run.measures = [run.task.measureWork token]) ∧
      run.task.anyActive = false)
  finished : ∀ episode, run.status = .finished episode → run.measures ≠ []

theorem Telling.wellTold {run : EpisodeRun G C F} (telling : run.Telling) : run.WellTold := by
  have paths (player : GumbelPlayer) : (run.path player).WellFormed run.task.config.maxSteps ∧
        (run.path player).last = (run.task.actors.of player).current := by
    unfold path
    cases outcome : run.outcome with
    | none => exact ⟨(telling.recorded outcome player).path, rfl⟩
    | some episode => exact telling.told episode outcome player
  refine ⟨fun player => (paths player).1, telling.turns, ?_, telling.finished⟩
  rw [(paths .one).2, (paths .two).2]
  exact telling.once

theorem recorded_new (root : G) (maxSteps : Nat) :
    (Actor.new root : Actor G C F).Recorded maxSteps :=
  ⟨⟨⟨rfl, rfl⟩, Nat.zero_le _, fun _ member => by cases member⟩, le_refl _,
    fun _ _ member => by cases member⟩

theorem recorded_fromPosition (graph : G)
    (context : Option ReplayGraphContext) (rewrites maxSteps : Nat)
    (blocked stopped : Bool) :
    (Actor.fromPosition graph context rewrites blocked stopped :
      Actor G C F).Recorded maxSteps := by
  refine ⟨⟨?_, Nat.zero_le _, fun _ member => by cases member⟩,
    Nat.zero_le _, fun _ _ member => by cases member⟩
  cases context with
  | none => exact ⟨rfl, rfl⟩
  | some context => exact ⟨context, rfl, rfl⟩

theorem telling_ofTask {task : EpisodeTask G C F} {owned lent} (begins : task.Begins owned lent) :
    (ofTask task owned lent).Telling := by
  have fresh (recorded : task.Recorded) (state : task.state = .turn)
      (idle : task.pending = none) : (ofTask task owned lent).Telling := by
    have none : task.outcome = none := by
      unfold EpisodeTask.outcome
      rw [state]
    refine ⟨fun _ => recorded, fun _ told => ?_, isChain_nil,
      fun _ _ root => ?_, fun _ => ⟨fun _ root => ?_, fun closing => ?_,
        fun _ found => ?_⟩, fun _ => ⟨fun _ => rfl, .inl rfl, fun waits => ?_,
          fun told => ?_⟩, .inl rfl, fun _ finished => ?_⟩
    · cases none.symm.trans told
    · cases state.symm.trans root
    · cases state.symm.trans root
    · cases state.symm.trans closing
    · cases found
    · change task.pending.isSome = true at waits
      rw [idle] at waits
      cases waits
    · change task.outcome.isSome = true at told
      rw [none] at told
      cases told
    · cases finished
  cases begins with
  | lent | owned =>
    refine fresh (fun player => ?_) rfl rfl
    cases player with
    | one | two => exact recorded_new _ _
  | position =>
    refine fresh (fun player => ?_) rfl rfl
    cases player with
    | one | two => exact recorded_fromPosition _ _ _ _ _ _

variable {run : EpisodeRun G C F}

theorem outcome_of_running (running : run.status = .running) : run.outcome = run.task.outcome := by
  unfold outcome
  rw [running]

variable [Scalar F] [DecidableEq G] [DecidableEq C]

omit [Scalar F] [DecidableEq G] [DecidableEq C] in
theorem measures_afterRound (outcome : Unit ⊕ SearchPoll G C F (SymmetricEpisode G C F))
    (task : EpisodeTask G C F) :
    (run.afterRound outcome task).measures = run.measures ++ measuresOf outcome := by
  rcases outcome with again | work | _ | episode
  · exact (append_nil _).symm
  · exact filter_append _ _
  · exact (append_nil _).symm
  · exact (append_nil _).symm

omit [Scalar F] [DecidableEq G] [DecidableEq C] in
theorem turns_afterRound (outcome : Unit ⊕ SearchPoll G C F (SymmetricEpisode G C F))
    (task : EpisodeTask G C F) :
    (run.afterRound outcome task).turns = run.turns ++ turnBetween run.task task ∧
      (run.afterRound outcome task).task = task := by
  rcases outcome with again | work | _ | episode
  · exact ⟨rfl, rfl⟩
  · exact ⟨rfl, rfl⟩
  · exact ⟨rfl, rfl⟩
  · exact ⟨rfl, rfl⟩

theorem Telling.round {fuel task outcome} (telling : run.Telling) (running : run.status = .running)
    (idle : run.task.pending = none)
    (done : (episodeRound fuel).perform run.task = (.ok outcome, task)) :
    (run.afterRound outcome task).Telling := by
  have rounds := rounds_of_episodeRound done
  have silent : task.outcome = none :=
    outcome_of_reporting ((leavesNothing_episodeRound fuel).eq done)
  have records := (records_episodeRound fuel run.task).eq done
  have asked := rounds.asked (telling.asked running) (telling.inTurn running) idle silent
  rw [← measures_afterRound outcome task] at asked
  have searching := rounds.searching (telling.searching running)
  obtain ⟨turn, follows⟩ := rounds.inTurn (telling.inTurn running)
  have ⟨turns, reached⟩ : (run.afterRound outcome task).turns =
          run.turns ++ turnBetween run.task task ∧
        (run.afterRound outcome task).task = task :=
    turns_afterRound outcome task
  rw [← getLast?_append, ← turns] at turn
  have chain : (run.afterRound outcome task).turns.IsChain
      fun last next => next.player = last.next := by
    rw [turns]
    rcases follows with nothing | ⟨record, one, follows⟩
    · rw [nothing, append_nil]
      exact telling.turns
    · rw [one]
      exact isChain_concat telling.turns follows
  have going (status : (run.afterRound outcome task).status = .running)
      (before : run.task.outcome = none) :
      (run.afterRound outcome task).Telling := by
    have none := (outcome_of_running status).trans
      ((congrArg EpisodeTask.outcome reached).trans silent)
    have recorded := records.recorded (telling.recorded ((outcome_of_running running).trans before))
      (telling.inTurn running) (telling.searching running)
    refine ⟨fun _ => ?_, fun _ told => ?_, chain, fun _ => ?_,
      fun _ => ?_, fun _ => ?_, ?_, fun _ finished => ?_⟩
    · rw [reached]
      exact recorded
    · cases none.symm.trans told
    · rw [reached]
      exact searching
    · rw [reached]
      exact turn
    · rw [reached]
      exact asked
    · rw [reached]
      exact asked.once
    · cases status.symm.trans finished
  cases rounds with
  | start state | work state polls | blocked state polls
  | next state polls alone same reuses
  | reuse state polls alone same reuses aligns active | measure state =>
    refine going running ?_
    unfold EpisodeTask.outcome
    rw [state]
  | @finished episode state =>
    have before : run.outcome = some episode := by
      rw [outcome_of_running running]
      unfold EpisodeTask.outcome
      rw [state]
    have some := (telling.asked running).told (by
      rw [← outcome_of_running running, before]
      rfl)
    refine ⟨fun none => (by cases none), fun other told => ?_, chain,
      fun going => (by cases going), fun going => (by cases going),
      fun going => (by cases going), asked.once, fun _ _ => some⟩
    cases told
    exact telling.told episode before

omit [Scalar F] [DecidableEq G] [DecidableEq C] in
theorem Telling.fail {task} (telling : run.Telling) (failure : SearchFailure F)
    (silent : task.outcome = none) (recorded : task.Recorded)
    (once : run.measures = [] ∨ ((∃ token, run.measures = [task.measureWork token]) ∧
        task.anyActive = false)) :
    (run.fail failure task).Telling := by
  refine ⟨fun _ => recorded, fun _ told => ?_, telling.turns,
    fun going => (by cases going), fun going => (by cases going),
    fun going => (by cases going), once, fun _ finished => (by cases finished)⟩
  cases silent.symm.trans told

section

variable {fuel : Nat} {task : EpisodeTask G C F} {failure : SearchFailure F}

theorem outcome_of_roundFailed (running : run.status = .running)
    (failed : (episodeRound fuel).perform run.task = (.error failure, task)) :
    run.outcome = none := by
  rw [outcome_of_running running]
  unfold EpisodeTask.outcome
  split
  · next episode state =>
    have done : (episodeRound fuel).perform run.task =
        (.ok (.inr (.done episode)), { run.task with state := .done }) := by
      unfold episodeRound
      rw [perform_bind_ok (perform_get run.task), state]
      rfl
    cases done.symm.trans failed
  · rfl

theorem Telling.roundFailed (telling : run.Telling) (running : run.status = .running)
    (failed : (episodeRound fuel).perform run.task = (.error failure, task)) :
    (run.fail failure task).Telling := by
  have silent : task.outcome = none :=
    outcome_of_reporting ((leavesNothing_episodeRound fuel).eq failed)
  have records := (records_episodeRound fuel run.task).eq failed
  have asked := telling.asked running
  have before := outcome_of_roundFailed running failed
  refine telling.fail failure silent ?_ ?_
  · exact records.recorded (telling.recorded before) (telling.inTurn running)
      (telling.searching running)
  · cases records with
    | kept learns => exact learns.once asked.once
    | turned state polls turn learns => exact .inl (asked.quiet (state ▸ rfl))

end

omit [Scalar F] [DecidableEq G] [DecidableEq C] in
theorem told_concluded {task : EpisodeTask G C F} (recorded : task.Recorded)
    (p1Measure p2Measure : MeasureResult G F) {episode}
    (told : (task.concluded p1Measure p2Measure).outcome = some episode) (player : GumbelPlayer) :
    (episode.actor player).path.WellFormed task.config.maxSteps ∧
      (episode.actor player).finalGraph =
        ((task.concluded p1Measure p2Measure).actors.of player).current := by
  cases told
  cases player with
  | one => exact ⟨wellFormed_trace (recorded .one), rfl⟩
  | two => exact ⟨wellFormed_trace (recorded .two), rfl⟩

theorem Telling.resume {outstanding : List (SearchWork G C F)} {token result task}
    (telling : run.Telling) (running : run.status = .running) (silent : run.task.outcome = none)
    (done : (EpisodeTask.resume token result).perform run.task = (.ok ⟨⟩, task)) :
    (run.afterResult outstanding result task).Telling := by
  have receipts := receipts_of_resume done
  have searching := receipts.searching (telling.searching running)
  have asked := receipts.asked (telling.asked running)
  have turn := telling.inTurn running
  have recorded := telling.recorded ((outcome_of_running running).trans silent)
  have next : (run.afterResult outstanding result task).outcome =
      task.outcome := outcome_of_running running
  have unfinished (episode : SymmetricEpisode G C F)
      (finished : run.status = .finished episode) : run.measures ≠ [] :=
    telling.finished episode finished
  cases receipts with
  | @root pending rootTask root _ found state resumes =>
    have kept : EpisodeTask.InTurn { run.task with
        rootPending := run.task.rootPending.erase pending }
        run.turns.getLast? :=
      ⟨turn.active, turn.closing, fun record same =>
        ⟨(turn.turning record same).active, (turn.turning record same).turn,
          (turn.turning record same).root⟩⟩
    refine ⟨fun _ => recorded.learns (learns_of_same rfl rfl rfl rfl),
      fun _ told => ?_, telling.turns, fun _ => searching,
      fun _ => inTurn_keepRoot _ kept state, fun _ => asked, asked.once,
      unfinished⟩
    cases next.symm.trans told
  | measure free waits firstValid secondValid =>
    refine ⟨fun none => (by cases next.symm.trans none),
      fun episode told => ?_, telling.turns, fun _ => searching,
      fun _ => ⟨fun _ root => (by cases root), fun root => (by cases root),
        fun record same => ⟨?_, fun turn => (by cases turn),
          fun _ root => (by cases root)⟩⟩,
      fun _ => asked, asked.once, unfinished⟩
    · exact told_concluded recorded _ _ (next.symm.trans told)
    · refine (turn.turning record same).active.trans ?_
      cases record.player with
      | one | two => rfl

omit [Scalar F] [DecidableEq G] [DecidableEq C] in
theorem Telling.learns {next : EpisodeRun G C F} (telling : run.Telling)
    (learns : run.task.Learns next.task)
    (outcome : next.outcome = run.outcome)
    (turns : next.turns = run.turns) (emitted : next.emitted = run.emitted)
    (finished : ∀ episode, next.status = .finished episode → run.status = .finished episode)
    (running : next.status = .running → next.task.Searching ∧ next.task.InTurn next.turns.getLast? ∧
        next.task.Asked next.measures) : next.Telling := by
  have measures : next.measures = run.measures := by
    unfold EpisodeRun.measures
    rw [emitted]
  refine ⟨fun none => ?_, fun episode told player => ?_, turns ▸ telling.turns,
    fun going => (running going).1, fun going => (running going).2.1,
    fun going => (running going).2.2, ?_, fun episode ended => ?_⟩
  · exact (telling.recorded (outcome.symm.trans none)).learns learns
  · obtain ⟨context, same, _⟩ := learns.actors player
    rw [learns.config, same]
    exact telling.told episode (outcome.symm.trans told) player
  · rw [measures]
    exact learns.once telling.once
  · rw [measures]
    exact telling.finished episode (finished episode ended)

omit [Scalar F] [DecidableEq G] [DecidableEq C] in
theorem outcome_takeReleasable : run.takeReleasable.outcome = run.outcome := by
  unfold outcome
  change (match run.status with
    | .finished episode => some episode
    | _ => run.task.takeReleasable.2.outcome) = _
  rw [Search.outcome_takeReleasable]

omit [Scalar F] [DecidableEq G] [DecidableEq C] in
theorem outcome_abort (unfinished : ∀ episode,
    run.status ≠ .finished episode) : run.abort.outcome = run.outcome := by
  have before : run.outcome = run.task.outcome := by
    unfold outcome
    split
    · next episode status => exact absurd status (unfinished episode)
    · rfl
  rw [before]
  exact outcome_takeAllHandles

omit [Scalar F] [DecidableEq G] [DecidableEq C] in
theorem Telling.takeReleasable (telling : run.Telling) : run.takeReleasable.Telling := by
  refine telling.learns (learns_takeReleasable run.task) outcome_takeReleasable rfl rfl
    (fun _ finished => finished) fun running => ?_
  have turn := telling.inTurn running
  have asked := telling.asked running
  refine ⟨searching_takeReleasable (telling.searching running), ?_, ?_⟩
  · change run.task.takeReleasable.2.InTurn run.turns.getLast?
    rcases run.task.takeReleasable_cases with ⟨rootTask, state, same⟩ | same
    · have kept := inTurn_keepRoot rootTask turn state
      rw [same]
      exact ⟨kept.active, kept.closing, fun record found =>
        ⟨(kept.turning record found).active, (kept.turning record found).turn,
          (kept.turning record found).root⟩⟩
    · rw [same]
      exact ⟨turn.active, turn.closing, fun record found =>
        ⟨(turn.turning record found).active, (turn.turning record found).turn,
          (turn.turning record found).root⟩⟩
  · change run.task.takeReleasable.2.Asked run.measures
    rcases run.task.takeReleasable_cases with ⟨rootTask, state, same⟩ | same
    · have none : run.measures = [] := asked.quiet (state ▸ rfl)
      rw [same]
      exact ⟨fun _ => none, .inl none, asked.awaited, fun told => by cases told⟩
    · rw [same]
      exact ⟨asked.quiet, asked.once, asked.awaited, asked.told⟩

omit [Scalar F] [DecidableEq G] [DecidableEq C] in
theorem Telling.abort (telling : run.Telling)
    (unfinished : ∀ episode, run.status ≠ .finished episode) :
    run.abort.Telling := by
  exact telling.learns (learns_takeAllHandles run.task)
    (outcome_abort unfinished) rfl rfl (fun _ finished => by cases finished)
    (fun running => by cases running)

end EpisodeRun

theorem telling_of_step {run next} {label : EpisodeLabel G C F} [Scalar F] [DecidableEq G]
    [DecidableEq C] (sound : run.Sound) (telling : run.Telling)
    (step : EpisodeStep run label next) : next.Telling := by
  cases step with
  | round running idle done => exact telling.round running idle done
  | roundFailed running idle failed kept => exact telling.roundFailed running failed
  | resume running open_ answered done =>
    have silent := sound.silent (.inl (by rw [open_]; simp))
    exact telling.resume running (outcome_of_reporting silent) done
  | @resumeFailed _ _ _ _ _ failure running open_ answered failed kept =>
    have silent := sound.silent (.inl (by rw [open_]; simp))
    have none := outcome_of_reporting silent
    have learns := learns_of_resume_error failed
    have recorded := telling.recorded ((EpisodeRun.outcome_of_running running).trans none)
    have refused := telling.fail failure (outcome_of_reporting (reporting_of_resume silent failed))
      (recorded.learns learns) (learns.once telling.once)
    exact ⟨refused.recorded, refused.told, refused.turns, refused.searching,
      refused.inTurn, refused.asked, refused.once, refused.finished⟩
  | takeReleasable => exact telling.takeReleasable
  | abort unfinished => exact telling.abort unfinished

theorem telling_of_reachable {run : EpisodeRun G C F} [Scalar F] [DecidableEq G] [DecidableEq C]
    (reachable : episodeSystem.Reachable run) : run.Telling := by
  refine reachable.invariant_given (fun _ => sound_of_reachable) ?_ fun _ _ _ => telling_of_step
  rintro _ ⟨task, owned, lent, begins, rfl⟩
  exact EpisodeRun.telling_ofTask begins

/-- In every run of an episode what it tells is well formed. -/
theorem wellTold_of_reachable {run : EpisodeRun G C F} [Scalar F] [DecidableEq G] [DecidableEq C]
    (reachable : episodeSystem.Reachable run) : run.WellTold :=
  (telling_of_reachable reachable).wellTold

/-- In the sample each player makes one rewrite. -/
theorem wellTold_at_the_end : ∃ run, Sample.start.follow Sample.labels = some run ∧
      run.turns = [⟨.one, true⟩, ⟨.two, false⟩] ∧ (run.path .one).steps.length = 1 ∧
          (run.path .two).steps.length = 1 ∧ run.measures.length = 1 ∧ run.WellTold := by
  have followed : (Sample.start.follow Sample.labels).any (fun run =>
      decide (run.turns = [⟨.one, true⟩, ⟨.two, false⟩] ∧ (run.path .one).steps.length = 1 ∧
          (run.path .two).steps.length = 1 ∧ run.measures.length = 1)) = true := by
    decide +kernel
  obtain ⟨run, reached, seen⟩ := Option.any_eq_true _ _ |>.mp followed
  obtain ⟨turns, one, two, measures⟩ := of_decide_eq_true seen
  exact ⟨run, reached, turns, one, two, measures,
    wellTold_of_reachable (Sample.reachable_of_follow reached)⟩

end GraphZero.Search
