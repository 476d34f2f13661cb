import GraphZero.Foundation.Transition
import GraphZero.Search.EpisodeTokens

/-!
# Runs of an episode

A driver polls an episode and answers its work in any order, with any result
of the right kind.  It takes what may be released whenever it likes, and it
may abort the episode at any point.  One step of `poll` is one round of its
loop.
-/

namespace GraphZero.Search

open Engine Foundation Effect List

variable {G C F : Type}

/-! ## Runs -/

inductive EpisodeStatus (G C F : Type) where
  | running
  | failed (failure : SearchFailure F)
  | finished (episode : SymmetricEpisode G C F)
  | aborted

/-- A turn that was taken, and whether the opponent could move after it. -/
structure TurnRecord where
  player : GumbelPlayer
  opponentActive : Bool
  deriving DecidableEq

/-- An episode and what its driver has seen of it. -/
structure EpisodeRun (G C F : Type) where
  task : EpisodeTask G C F
  /-- The work that is not answered yet. -/
  outstanding : List (SearchWork G C F)
  /-- All work so far. -/
  emitted : List (SearchWork G C F)
  turns : List TurnRecord
  /-- The handles that came with results. -/
  delivered : Holdings G C
  released : Holdings G C
  /-- The graphs that the episode was given. -/
  owned : List G
  /-- The graphs of the position that stay with the caller. -/
  lent : List G
  status : EpisodeStatus G C F

/-- How often a player has moved or passed. -/
def Actor.turnCount (actor : Actor G C F) : Nat :=
  actor.steps.length + if actor.blocked then 1 else 0

/-- The turn that a round has brought to its end. -/
def turnBetween (before after : EpisodeTask G C F) : List TurnRecord :=
  ([.one, .two].filter fun player =>
    (before.actors.of player).turnCount < (after.actors.of player).turnCount).map fun player =>
    ⟨player, after.actorActive player.opponent⟩

namespace EpisodeRun

def ofTask (task : EpisodeTask G C F) (owned lent : List G) : EpisodeRun G C F :=
  ⟨task, [], [], [], 0, 0, owned, lent, .running⟩

def afterRound (run : EpisodeRun G C F) (outcome : Unit ⊕ SearchPoll G C F (SymmetricEpisode G C F))
    (task : EpisodeTask G C F) : EpisodeRun G C F :=
  let run := { run with
    task, turns := run.turns ++ turnBetween run.task task }
  match outcome with
  | .inl () | .inr .blocked => run
  | .inr (.work work) =>
    { run with
      outstanding := run.outstanding ++ [work]
      emitted := run.emitted ++ [work] }
  | .inr (.done episode) => { run with status := .finished episode }

def afterResult (run : EpisodeRun G C F) (outstanding : List (SearchWork G C F))
    (result : SearchWorkResult G C F) (task : EpisodeTask G C F) :
    EpisodeRun G C F :=
  { run with
    task, outstanding, delivered := run.delivered + result.holdings }

def fail (run : EpisodeRun G C F) (failure : SearchFailure F)
    (task : EpisodeTask G C F) : EpisodeRun G C F :=
  { run with task, status := .failed failure }

def takeReleasable (run : EpisodeRun G C F) : EpisodeRun G C F :=
  { run with
    task := run.task.takeReleasable.2
    released := run.released + run.task.takeReleasable.1.holdings }

def abort (run : EpisodeRun G C F) : EpisodeRun G C F :=
  { run with
    task := run.task.takeAllHandles.2
    released := run.released + run.task.takeAllHandles.1.holdings
    status := .aborted }

end EpisodeRun

/-- A task as it is made: from one root that stays with the caller or is
handed over, or from a position of the caller's. -/
inductive EpisodeTask.Begins : EpisodeTask G C F → List G → List G → Prop
  | lent (config : GumbelMctsConfig F) (hash : SearchConfigHash)
    (identity : EngineIdentity) (root : G) (seed : UInt64) :
    Begins (.new config hash identity root seed) [] [root]
  | owned (config : GumbelMctsConfig F) (hash : SearchConfigHash)
    (identity : EngineIdentity) (root : G) (seed : UInt64) :
    Begins (EpisodeTask.new config hash identity root seed).trackOwnedRoot [root] []
  | position (config : GumbelMctsConfig F) (hash : SearchConfigHash)
    (identity : EngineIdentity) (graphs : PerPlayer G)
    (contexts : PerPlayer (Option ReplayGraphContext))
    (rewrites : PerPlayer Nat) (blocked stopped : PerPlayer Bool)
    (player : GumbelPlayer)
    (visited : PerPlayer (Finset ReplayGraphContext)) (seed : UInt64) :
    Begins (.fromPosition config hash identity graphs contexts rewrites
      blocked stopped player visited seed) [] [graphs.one, graphs.two]

inductive EpisodeLabel (G C F : Type) where
  | round (fuel : Nat)
  | resume (token : WorkToken) (result : SearchWorkResult G C F)
  | takeReleasable
  | abort

section Steps

variable [Scalar F] [DecidableEq G] [DecidableEq C]

inductive EpisodeStep : EpisodeRun G C F → EpisodeLabel G C F → EpisodeRun G C F → Prop
  | round {run fuel task outcome} (running : run.status = .running) (idle : run.task.pending = none)
    (done : (episodeRound fuel).perform run.task = (.ok outcome, task)) :
    EpisodeStep run (.round fuel) (run.afterRound outcome task)
  | roundFailed {run fuel task failure} (running : run.status = .running)
    (idle : run.task.pending = none)
    (failed : (episodeRound fuel).perform run.task = (.error failure, task)) (kept : failure.Kept)
    :
    EpisodeStep run (.round fuel) (run.fail failure task)
  | resume {run before after work result task} (running : run.status = .running)
    (open_ : run.outstanding = before ++ work :: after) (answered : result.answers work)
    (done : (EpisodeTask.resume work.token result).perform run.task = (.ok ⟨⟩, task)) :
    EpisodeStep run (.resume work.token result) (run.afterResult (before ++ after) result task)
  | resumeFailed {run before after work result task failure} (running : run.status = .running)
    (open_ : run.outstanding = before ++ work :: after) (answered : result.answers work)
    (failed : (EpisodeTask.resume work.token result).perform run.task = (.error failure, task))
    (kept : failure.Kept) :
    EpisodeStep run (.resume work.token result)
      ((run.afterResult (before ++ after) result task).fail failure task)
  | takeReleasable (run : EpisodeRun G C F) :
    EpisodeStep run .takeReleasable run.takeReleasable
  | abort {run} (unfinished : ∀ episode, run.status ≠ .finished episode) :
    EpisodeStep run .abort run.abort

/-- Every run that a driver can make with an episode. -/
def episodeSystem : TransitionSystem (EpisodeRun G C F) (EpisodeLabel G C F) where
  initial run := ∃ task owned lent, EpisodeTask.Begins task owned lent ∧
    run = .ofTask task owned lent
  step := EpisodeStep

/-! ## What steps keep -/

/-- The handles of a finished episode that it reported. -/
def EpisodeStatus.created : EpisodeStatus G C F → Holdings G C
  | .finished episode => episode.created
  | _ => 0

def EpisodeRun.received (run : EpisodeRun G C F) : Holdings G C :=
  holdingsOf run.owned [] + run.delivered

/-- The tickets of the open work are those of the task, and no handle is
lost or given back twice. -/
structure EpisodeRun.Sound (run : EpisodeRun G C F) : Prop where
  tracks : run.status = .running → run.task.Tracks (run.outstanding.map SearchWork.ticket)
  conserved : run.released + run.task.holdings + run.status.created = run.received
  silent : run.outstanding ≠ [] ∨ (∃ failure, run.status = .failed failure) →
    run.task.reporting = false
  emptied : run.task.reporting = true → run.task.pathGraphs = []
  finished : ∀ episode, run.status = .finished episode →
    run.task.pathGraphs = [] ∧ run.task.state = .done
  returned : run.status = .aborted → run.task.takeAllHandles.1.holdings = 0

omit [Scalar F] [DecidableEq G] [DecidableEq C] in
theorem EpisodeTask.tracks_takeReleasable {task : EpisodeTask G C F} {outstanding}
    (tracks : task.Tracks outstanding) :
    task.takeReleasable.2.Tracks outstanding := by
  rcases task.takeReleasable_cases with ⟨rootTask, state, same⟩ | same
  · rw [same]
    have kept := tracks_keepRoot tracks state (tracks.rootWaiting state) (.refl _)
    exact ⟨kept.issued, kept.waiting, kept.measuring, kept.opens⟩
  · rw [same]
    exact ⟨tracks.issued, tracks.waiting, tracks.measuring, tracks.opens⟩

omit [Scalar F] [DecidableEq G] [DecidableEq C] in
theorem EpisodeTask.reporting_takeReleasable (task : EpisodeTask G C F) :
    task.takeReleasable.2.reporting = task.reporting ∧
      task.takeReleasable.2.unreported = task.unreported ∧
        task.takeReleasable.2.pathGraphs = task.pathGraphs := by
  rcases task.takeReleasable_cases with ⟨rootTask, state, same⟩ | same
  · rw [same]
    unfold reporting unreported
    rw [state]
    exact ⟨rfl, rfl, rfl⟩
  · rw [same]
    exact ⟨rfl, rfl, rfl⟩

namespace EpisodeRun

variable {run : EpisodeRun G C F}

omit [Scalar F] [DecidableEq G] [DecidableEq C] in
theorem sound_ofTask {task : EpisodeTask G C F} {owned lent} (begins : task.Begins owned lent) :
    (ofTask task owned lent).Sound := by
  cases begins with
  | lent | owned | position =>
    refine ⟨fun _ => EpisodeTask.tracks_nil trivial rfl rfl rfl, rfl, fun _ => rfl, ?_, ?_, ?_⟩
    · intro reporting
      cases reporting
    · intro episode finished
      cases finished
    · intro aborted
      cases aborted

theorem Sound.round {fuel task outcome} (sound : run.Sound) (running : run.status = .running)
    (idle : run.task.pending = none)
    (done : (episodeRound fuel).perform run.task = (.ok outcome, task)) :
    (run.afterRound outcome task).Sound := by
  have tracks := sound.tracks running
  have rounds := rounds_of_episodeRound done
  have after := rounds.tracks tracks idle
  have even := (conserves_round tracks idle fuel).ok done
  have silent := (leavesNothing_episodeRound fuel).eq done
  have before := sound.conserved
  rw [running] at before
  have kept (nothing : outcome.elim (fun _ => 0)
      (SearchPoll.holdings SymmetricEpisode.created) = 0) :
      task.holdings = run.task.holdings := by
    rw [nothing, add_zero, add_zero] at even
    exact even
  have going (next : EpisodeRun G C F) (status : next.status = .running) (same : next.task = task)
      (moved : next.released = run.released ∧ next.received = run.received)
      (tracked : task.Tracks (next.outstanding.map SearchWork.ticket))
      (kept : task.holdings = run.task.holdings) : next.Sound := by
    refine ⟨fun _ => same ▸ tracked, ?_, fun _ => same ▸ silent, ?_, ?_, ?_⟩
    · rw [status, same, kept, moved.1, moved.2]
      exact before
    · rw [same, silent]
      intro reporting
      cases reporting
    · rw [status]
      intro episode finished
      cases finished
    · rw [status]
      intro aborted
      cases aborted
  cases outcome with
  | inl again => exact going _ running rfl ⟨rfl, rfl⟩ after.1 (kept rfl)
  | inr polled =>
    cases polled with
    | work work =>
      refine going _ running rfl ⟨rfl, rfl⟩ ?_ (kept rfl)
      refine EpisodeTask.Tracks.perm after ?_
      change List.Perm _ (List.map _ (run.outstanding ++ [work]))
      rw [map_append]
      exact (perm_append_singleton _ _).symm
    | blocked => exact going _ running rfl ⟨rfl, rfl⟩ after (kept rfl)
    | done episode =>
      cases rounds with
      | finished state =>
        have emptied : run.task.pathGraphs = [] := by
          refine sound.emptied ?_
          unfold EpisodeTask.reporting
          rw [state]
        refine ⟨fun running => ?_, ?_, fun _ => silent, ?_, ?_, fun aborted => ?_⟩
        · cases running
        · change run.released + EpisodeTask.holdings
            { run.task with state := .done } + episode.created = run.received
          rw [← before, add_assoc]
          exact (congrArg (run.released + ·) even).trans (add_assoc _ _ _).symm
        · intro reporting
          cases reporting
        · intro _ _
          exact ⟨emptied, rfl⟩
        · cases aborted

theorem Sound.roundFailed {fuel task failure} (sound : run.Sound) (running : run.status = .running)
    (idle : run.task.pending = none)
    (failed : (episodeRound fuel).perform run.task = (.error failure, task)) (kept : failure.Kept) :
    (run.fail failure task).Sound := by
  have silent := (leavesNothing_episodeRound fuel).eq failed
  refine ⟨fun running => ?_, ?_, fun _ => silent, ?_, fun _ finished => ?_, fun aborted => ?_⟩
  · cases running
  · have even := (conserves_round (sound.tracks running) idle fuel).error failed kept
    have before := sound.conserved
    rw [running] at before
    change run.released + task.holdings + 0 = run.received
    rw [even, ← before, add_zero, add_zero]
    exact (add_zero _).symm
  · intro reporting
    cases silent.symm.trans reporting
  · cases finished
  · cases aborted

omit [Scalar F] [DecidableEq G] [DecidableEq C] in
theorem asked_of_open {before after work} {result : SearchWorkResult G C F}
    (open_ : run.outstanding = before ++ work :: after) (answered : result.answers work) :
    (run.outstanding.map SearchWork.ticket).Perm (work.token.ticket result.kind ::
        (before ++ after).map SearchWork.ticket) := by
  rw [open_, answered]
  have moved : (before ++ work :: after).Perm (work :: (before ++ after)) := perm_middle
  exact moved.map SearchWork.ticket

section

variable {before after : List (SearchWork G C F)} {work : SearchWork G C F}
  {result : SearchWorkResult G C F} {task : EpisodeTask G C F}

theorem Sound.resume (sound : run.Sound) (running : run.status = .running)
    (open_ : run.outstanding = before ++ work :: after)
    (answered : result.answers work)
    (done : (EpisodeTask.resume work.token result).perform run.task = (.ok ⟨⟩, task)) :
    (run.afterResult (before ++ after) result task).Sound := by
  have tracks := sound.tracks running
  have asked := asked_of_open open_ answered
  have before := sound.conserved
  rw [running] at before
  have conserved : run.released + task.holdings + 0 = run.received + result.holdings := by
    have even := (conserves_resume tracks asked).ok done
    rw [add_zero] at even
    rw [even, ← before, add_zero]
    change _ = run.released + run.task.holdings + 0 + result.holdings
    rw [add_zero, add_assoc]
  refine ⟨fun _ => tracks_of_resume tracks asked done, ?_, ?_, ?_,
    fun episode finished => ?_, fun aborted => ?_⟩
  · change run.released + task.holdings + run.status.created =
      holdingsOf run.owned [] + (run.delivered + result.holdings)
    rw [running, ← add_assoc]
    exact conserved
  · cases receipts_of_resume done with
    | root found state resumes => exact fun _ => rfl
    | measure free waits firstValid secondValid =>
      rcases tracks.find asked with ⟨_, _, _, found, _⟩ | ⟨_, _, _, _, none⟩
      · rw [free] at found
        cases found
      · rintro (more | ⟨failure, failed⟩)
        · exact absurd (map_eq_nil_iff.mp none) more
        · have failed : run.status = .failed failure := failed
          rw [running] at failed
          cases failed
  · cases receipts_of_resume done with
    | root found state resumes =>
      intro reporting
      cases reporting
    | measure free waits firstValid secondValid => exact fun _ => rfl
  · have finished : run.status = .finished episode := finished
    rw [running] at finished
    cases finished
  · have aborted : run.status = .aborted := aborted
    rw [running] at aborted
    cases aborted

theorem Sound.resumeFailed {failure} (sound : run.Sound) (running : run.status = .running)
    (open_ : run.outstanding = before ++ work :: after) (answered : result.answers work)
    (failed : (EpisodeTask.resume work.token result).perform run.task = (.error failure, task))
    (kept : failure.Kept) :
    ((run.afterResult (before ++ after) result task).fail failure task).Sound := by
  have tracks := sound.tracks running
  have asked := asked_of_open open_ answered
  have before := sound.conserved
  rw [running] at before
  have nothing : run.task.reporting = false := by
    refine sound.silent (.inl ?_)
    rw [open_]
    exact append_ne_nil_of_right_ne_nil _ (cons_ne_nil _ _)
  have silent := reporting_of_resume nothing failed
  refine ⟨fun running => ?_, ?_, fun _ => silent, ?_, fun _ finished => ?_, fun aborted => ?_⟩
  · cases running
  · have even := (conserves_resume tracks asked).error failed kept
    change run.released + task.holdings + 0 =
      holdingsOf run.owned [] + (run.delivered + result.holdings)
    rw [even, ← add_assoc (holdingsOf run.owned [])]
    change _ = run.received + result.holdings
    rw [← before]
    change _ = run.released + run.task.holdings + 0 + result.holdings
    rw [add_zero, add_zero, add_assoc]
  · intro reporting
    cases silent.symm.trans reporting
  · cases finished
  · cases aborted

end

omit [Scalar F] [DecidableEq G] [DecidableEq C] in
theorem Sound.takeReleasable (sound : run.Sound) : run.takeReleasable.Sound := by
  obtain ⟨reporting, unreported, pathGraphs⟩ := run.task.reporting_takeReleasable
  have given := run.task.holdings_takeReleasable
  refine ⟨fun running => ?_, ?_, fun cause => ?_, fun still => ?_, ?_, ?_⟩
  · exact EpisodeTask.tracks_takeReleasable (sound.tracks running)
  · change run.released + run.task.takeReleasable.1.holdings +
      run.task.takeReleasable.2.holdings + run.status.created = run.received
    rw [← sound.conserved, ← given]
    abel
  · exact reporting.trans (sound.silent cause)
  · exact pathGraphs.trans (sound.emptied (reporting.symm.trans still))
  · intro episode finished
    obtain ⟨empty, state⟩ := sound.finished episode finished
    refine ⟨pathGraphs.trans empty, ?_⟩
    rcases run.task.takeReleasable_cases with ⟨rootTask, root, _⟩ | same
    · rw [state] at root
      cases root
    · exact (congrArg EpisodeTask.state same).trans state
  · intro aborted
    have all := run.task.takeReleasable.2.holdings_takeAllHandles
    rw [← run.task.holdings_takeAllHandles, sound.returned aborted, zero_add,
      ← all, unreported, add_right_comm] at given
    exact eq_zero_of_add_eq_zero (add_eq_right.mp given)

omit [Scalar F] [DecidableEq G] [DecidableEq C] in
theorem Sound.abort (sound : run.Sound) (unfinished : ∀ episode, run.status ≠ .finished episode) :
    run.abort.Sound := by
  obtain ⟨reporting, unreported, pathGraphs, kept⟩ := run.task.kept_takeAllHandles
  have given := run.task.holdings_takeAllHandles
  have none : run.status.created = 0 := by
    cases status : run.status with
    | finished episode => exact absurd status (unfinished episode)
    | running | failed _ | aborted => rfl
  refine ⟨fun running => ?_, ?_, ?_, fun _ => pathGraphs, fun _ finished => ?_, fun _ => ?_⟩
  · cases running
  · change run.released + run.task.takeAllHandles.1.holdings +
      run.task.takeAllHandles.2.holdings + 0 = run.received
    rw [← sound.conserved, ← given, kept, none, add_assoc run.released]
  · rintro (more | ⟨failure, failed⟩)
    · exact reporting.trans (sound.silent (.inl more))
    · cases failed
  · cases finished
  · have rest := run.task.takeAllHandles.2.holdings_takeAllHandles
    rw [kept, unreported] at rest
    exact add_eq_right.mp rest

end EpisodeRun

theorem sound_of_step {run next} {label : EpisodeLabel G C F} (sound : run.Sound)
    (step : EpisodeStep run label next) : next.Sound := by
  cases step with
  | round running idle done => exact sound.round running idle done
  | roundFailed running idle failed kept => exact sound.roundFailed running idle failed kept
  | resume running open_ answered done => exact sound.resume running open_ answered done
  | resumeFailed running open_ answered failed kept =>
    exact sound.resumeFailed running open_ answered failed kept
  | takeReleasable => exact sound.takeReleasable
  | abort unfinished => exact sound.abort unfinished

theorem sound_of_reachable {run : EpisodeRun G C F}
    (reachable : episodeSystem.Reachable run) : run.Sound := by
  refine reachable.invariant ?_ fun _ _ _ => sound_of_step
  rintro _ ⟨task, owned, lent, begins, rfl⟩
  exact EpisodeRun.sound_ofTask begins

/-- The run is at the rounds of a poll that began at `start`. -/
structure Polling (start run : EpisodeRun G C F) : Prop where
  reaches : episodeSystem.Reaches start run
  running : run.status = .running
  idle : run.task.pending = none
  outstanding : run.outstanding = start.outstanding

theorem Polling.round {start run fuel} {task : EpisodeTask G C F} {value}
    (polling : Polling start run)
    (done : (episodeRound fuel).perform run.task = (.ok (.inl value), task)) :
    Polling start (run.afterRound (.inl value) task) where
  reaches := polling.reaches.step (.round polling.running polling.idle done)
  running := polling.running
  idle := (rounds_of_episodeRound done).pending_eq.trans polling.idle
  outstanding := polling.outstanding

theorem polling_of_poll {run fuel}
    {outcome : Except (SearchFailure F) (SearchPoll G C F (SymmetricEpisode G C F))} {final}
    (running : run.status = .running) (idle : run.task.pending = none)
    (settled : outcome ≠ .error .unfinished)
    (done : (EpisodeTask.poll fuel).perform run.task = (outcome, final)) :
    ∃ mid, Polling run mid ∧ (episodeRound fuel).perform mid.task = (outcome.map .inr, final) := by
  have loop : (Effect.loop .unfinished (fun _ => episodeRound fuel) fuel
      ()).perform run.task = (outcome, final) := by
    rw [← done]
    unfold EpisodeTask.poll
    rw [perform_bind_ok (perform_get run.task), idle]
    rfl
  obtain ⟨_, task, ⟨mid, polling, rfl⟩, last⟩ := perform_loop_cases
    (fun _ task => ∃ mid, Polling run mid ∧ mid.task = task)
    (fun _ _ _ _ inside done => by
      obtain ⟨mid, polling, rfl⟩ := inside
      exact ⟨_, polling.round done, rfl⟩)
    ⟨run, ⟨.refl run, running, idle, rfl⟩, rfl⟩ settled loop
  exact ⟨mid, polling, last⟩

/-- Polling a running episode is no more than some of its rounds: it is blocked
by what is pending, or rounds of the system lead to the one that it ends with. -/
theorem reaches_of_poll {run : EpisodeRun G C F} (running : run.status = .running) (fuel : Nat) :
    (∀ pending, run.task.pending = some pending →
      (EpisodeTask.poll fuel).perform run.task = (.ok .blocked, run.task)) ∧
    (run.task.pending = none → ∀ polled final,
      (EpisodeTask.poll fuel).perform run.task = (.ok polled, final) →
        ∃ mid, Polling run mid ∧
          EpisodeStep mid (.round fuel) (mid.afterRound (.inr polled) final)) ∧
    (run.task.pending = none → ∀ failure final, failure.Kept →
      (EpisodeTask.poll fuel).perform run.task = (.error failure, final) →
        ∃ mid, Polling run mid ∧
          EpisodeStep mid (.round fuel) (mid.fail failure final)) := by
  refine ⟨fun pending waits => ?_, fun idle polled final done => ?_,
    fun idle failure final kept failed => ?_⟩
  · unfold EpisodeTask.poll
    rw [perform_bind_ok (perform_get run.task), waits]
    rfl
  · obtain ⟨mid, polling, last⟩ := polling_of_poll running idle (by rintro ⟨⟩) done
    exact ⟨mid, polling, .round polling.running polling.idle last⟩
  · obtain ⟨mid, polling, last⟩ := polling_of_poll running idle
      (by rintro ⟨⟩; exact kept.2 rfl) failed
    exact ⟨mid, polling, .roundFailed polling.running polling.idle last kept⟩

/-- The step with a label, if it is one that succeeds. -/
def EpisodeRun.next (run : EpisodeRun G C F) : EpisodeLabel G C F → Option (EpisodeRun G C F)
  | .round fuel =>
    match run.status, run.task.pending,
        (episodeRound fuel).perform run.task with
    | .running, none, (.ok outcome, task) => some (run.afterRound outcome task)
    | _, _, _ => none
  | .resume token result =>
    match run.status, run.outstanding.span (fun work => work.token ≠ token),
        (EpisodeTask.resume token result).perform run.task with
    | .running, (before, work :: after), (.ok _, task) =>
      if work.token = token ∧ result.answers work then
        some (run.afterResult (before ++ after) result task)
      else none
    | _, _, _ => none
  | .takeReleasable => some run.takeReleasable
  | .abort =>
    match run.status with
    | .finished _ => none
    | _ => some run.abort

theorem step_of_next {run next} {label : EpisodeLabel G C F} (found : run.next label = some next) :
    EpisodeStep run label next := by
  cases label with
  | round fuel =>
    dsimp only [EpisodeRun.next] at found
    split at found
    · next running idle done =>
      cases found
      exact .round running idle done
    · cases found
  | resume token result =>
    dsimp only [EpisodeRun.next] at found
    split at found
    · next before work after value task running spanned done =>
      split at found
      · next named =>
        cases found
        obtain ⟨rfl, answered⟩ := named
        refine .resume running ?_ answered done
        rw [span_eq_takeWhile_dropWhile] at spanned
        obtain ⟨taken, dropped⟩ := Prod.mk.injEq .. |>.mp spanned
        rw [← taken, ← dropped, takeWhile_append_dropWhile]
      · cases found
    · cases found
  | takeReleasable =>
    cases found
    exact .takeReleasable run
  | abort =>
    dsimp only [EpisodeRun.next] at found
    split at found
    · cases found
    · next other =>
      cases found
      exact .abort other

def EpisodeRun.follow : List (EpisodeLabel G C F) → EpisodeRun G C F → Option (EpisodeRun G C F)
  | [], run => some run
  | label :: rest, run => (run.next label).bind (follow rest)

theorem run_of_follow {labels} {run next : EpisodeRun G C F}
    (followed : run.follow labels = some next) :
    episodeSystem.Run run labels next := by
  induction labels generalizing run with
  | nil =>
    cases followed
    exact .refl _
  | cons label rest ih =>
    unfold EpisodeRun.follow at followed
    rw [Option.bind_eq_some_iff] at followed
    obtain ⟨mid, stepped, remaining⟩ := followed
    exact .cons (step_of_next stepped) (ih remaining)

end Steps

/-! ## A whole episode -/

namespace Sample

def config : GumbelMctsConfig (Exact ℚ) where
  maxSteps := 1
  simulations := 1
  simulations_pos := by decide
  maxConsideredActions := 1
  maxConsideredActions_pos := by decide
  seed := 0
  gumbelScale := .finite 0
  cVisit := .finite 50
  cScale := .finite 1
  gumbelNoiseOverlap := .finite 0
  treeReuse := true
  exportPosition := false
  maskStop := true
  noBacktrack := true
  candidateOptions := ⟨none, true⟩
  measureOptions := ⟨0, 1, none, true⟩

def task : EpisodeTask Nat Nat (Exact ℚ) :=
  .new config 0 ⟨0, 0, 0⟩ 0 0

def start : EpisodeRun Nat Nat (Exact ℚ) := .ofTask task [] [0]

def round : EpisodeLabel Nat Nat (Exact ℚ) := .round 30

/-- The root has one candidate, under the handle 7. -/
def expanded (token : Nat) : EpisodeLabel Nat Nat (Exact ℚ) :=
  .resume ⟨token⟩ (.expand ⟨100, [⟨7, 1, 0, 0, .finite 0⟩]⟩)

def evaluated (token actions : Nat) : EpisodeLabel Nat Nat (Exact ℚ) :=
  .resume ⟨token⟩ (.eval ⟨0, .replicate actions (.finite 0), .finite 0⟩)

def applied (token after : Nat) (hash : GraphHash) : EpisodeLabel Nat Nat (Exact ℚ) :=
  .resume ⟨token⟩ (.apply ⟨after, hash, false⟩)

def measurement (graph : Nat) (hash : GraphHash) : MeasureResult Nat (Exact ℚ) :=
  ⟨graph, hash, 0, true, true, none, some (.finite 1), none⟩

/-- Each player rewrites once, and the final graphs are measured. -/
def labels : List (EpisodeLabel Nat Nat (Exact ℚ)) :=
  [round, round, expanded 0, round, evaluated 1 2, round, applied 2 1 101,
    round, expanded 3, round, evaluated 4 2, round, .takeReleasable, round,
    applied 5 2 102, round, evaluated 6 1, round, round, round,
    .resume ⟨7⟩ (.measurePair (measurement 1 101) (measurement 2 102)),
    round, .takeReleasable]

theorem reachable_of_follow {labels} {run : EpisodeRun Nat Nat (Exact ℚ)}
    (followed : start.follow labels = some run) :
    episodeSystem.Reachable run :=
  ⟨start, ⟨task, [], [0], .lent config 0 ⟨0, 0, 0⟩ 0 0, rfl⟩, labels, run_of_follow followed⟩

end Sample

theorem reaches_of_poll_start : ∃ polled final mid,
    (EpisodeTask.poll 2).perform Sample.start.task = (.ok polled, final) ∧
      Polling Sample.start mid ∧
      EpisodeStep mid (.round 2) (mid.afterRound (.inr polled) final) := by
  obtain ⟨polled, final, done⟩ : ∃ polled final,
      (EpisodeTask.poll 2).perform Sample.start.task = (.ok polled, final) := ⟨_, _, rfl⟩
  obtain ⟨mid, reached⟩ := (reaches_of_poll rfl 2).2.1 rfl polled final done
  exact ⟨polled, final, mid, done, reached⟩

section Handles

variable [Scalar F] [DecidableEq G] [DecidableEq C]

/-- Every handle the episode received is with the driver, in what the driver
gets back, or in what the episode reports. -/
def EpisodeRun.Accounted (run : EpisodeRun G C F) : Prop :=
  match run.status with
  | .running =>
    run.released + run.task.takeAllHandles.1.holdings + run.task.unreported = run.received ∧
      (run.outstanding ≠ [] → run.task.unreported = 0)
  | .failed _ => run.released + run.task.takeAllHandles.1.holdings = run.received
  | .aborted =>
    run.released + run.task.unreported = run.received ∧
      (run.outstanding ≠ [] → run.task.unreported = 0)
  | .finished episode =>
    run.released + run.task.takeReleasable.1.holdings + episode.created = run.received

/-- No handle is lost and none is given back twice, whenever the episode
ends. -/
theorem accounted_of_reachable {run : EpisodeRun G C F}
    (reachable : episodeSystem.Reachable run) : run.Accounted := by
  have sound := sound_of_reachable reachable
  have conserved := sound.conserved
  have all := run.task.holdings_takeAllHandles
  have silent (open_ : run.outstanding ≠ []) : run.task.unreported = 0 :=
    EpisodeTask.unreported_of_reporting (sound.silent (.inl open_))
  unfold EpisodeRun.Accounted
  cases status : run.status with
  | running =>
    refine ⟨?_, silent⟩
    rw [← conserved, status, ← all, ← add_assoc]
    exact (add_zero _).symm
  | failed failure =>
    have none : run.task.unreported = 0 := EpisodeTask.unreported_of_reporting
        (sound.silent (.inr ⟨failure, status⟩))
    rw [none, add_zero] at all
    rw [← conserved, status, ← all]
    exact (add_zero _).symm
  | aborted =>
    refine ⟨?_, silent⟩
    rw [sound.returned status, zero_add] at all
    rw [← conserved, status, ← all]
    exact (add_zero _).symm
  | finished episode =>
    obtain ⟨emptied, state⟩ := sound.finished episode status
    have given := run.task.holdings_takeReleasable
    have nothing : run.task.takeReleasable.2.holdings = 0 := by
      rcases run.task.takeReleasable_cases with ⟨rootTask, root, _⟩ | same
      · rw [state] at root
        cases root
      · rw [same]
        rw [emptied, state]
        rfl
    rw [nothing, zero_add] at given
    rw [← conserved, status, ← given]
    rfl

end Handles

/-- At the end both candidates are released and both graphs reported. -/
theorem accounted_at_the_end : ∃ run, Sample.start.follow Sample.labels = some run ∧
      run.released = holdingsOf [] [7, 7] ∧
        run.delivered = holdingsOf [1, 2] [7, 7] ∧ run.Accounted := by
  have followed : (Sample.start.follow Sample.labels).any (fun run =>
      decide (run.released = holdingsOf [] [7, 7]) &&
        decide (run.delivered = holdingsOf [1, 2] [7, 7])) = true := by
    decide +kernel
  obtain ⟨run, reached, seen⟩ := Option.any_eq_true _ _ |>.mp followed
  rw [Bool.and_eq_true] at seen
  exact ⟨run, reached, of_decide_eq_true seen.1, of_decide_eq_true seen.2,
    accounted_of_reachable (Sample.reachable_of_follow reached)⟩

end GraphZero.Search
