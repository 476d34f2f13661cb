import GraphZero.Foundation.Transition
import GraphZero.Search.MctsLedger
import GraphZero.Search.MctsStrategies

/-!
# Runs of a single-agent episode

A driver polls an episode and answers the work that is out.  It takes what may
be released whenever it likes, and it may abort the episode at any point.
-/

namespace GraphZero.Search

open Engine Foundation Effect

variable {R G C F : Type}

/-! ## Runs -/

inductive MctsEpisodeStatus (G C F : Type) where
  | running
  | failed (failure : SearchFailure F)
  | finished (episode : MctsEpisode G C F)
  | aborted
  deriving DecidableEq

/-- A result of the kind that the work asks for. -/
def MctsWorkResult.answers : MctsWorkResult G C F → MctsWork G C F → Prop
  | .search result, .search work => SearchWorkResult.answers result work
  | .measure _, .measure _ => True
  | _, _ => False

instance (result : MctsWorkResult G C F) (work : MctsWork G C F) :
    Decidable (result.answers work) :=
  match result, work with
  | .search result, .search work =>
    inferInstanceAs (Decidable (SearchWorkResult.answers result work))
  | .measure _, .measure _ => .isTrue trivial
  | .search _, .measure _ | .measure _, .search _ => .isFalse id

/-- The handles that come with a result. -/
def MctsWorkResult.holdings : MctsWorkResult G C F → Holdings G C
  | .search result => SearchWorkResult.holdings result
  | .measure _ => 0

/-- An episode and what its driver has seen of it. -/
structure MctsEpisodeRun (R G C F : Type) where
  task : MctsEpisodeTask R G C F
  /-- The work that is not answered yet. -/
  asked : Option (MctsWork G C F)
  /-- The handles that came with results. -/
  delivered : Holdings G C
  released : Holdings G C
  /-- The graphs that the episode was given. -/
  owned : List G
  status : MctsEpisodeStatus G C F

namespace MctsEpisodeRun

def ofTask (task : MctsEpisodeTask R G C F) (owned : List G) : MctsEpisodeRun R G C F :=
  ⟨task, none, 0, 0, owned, .running⟩

def afterPoll (run : MctsEpisodeRun R G C F) (polled : MctsPoll G C F (MctsEpisode G C F))
    (task : MctsEpisodeTask R G C F) : MctsEpisodeRun R G C F :=
  match polled with
  | .work work => { run with task, asked := some work }
  | .blocked => { run with task }
  | .done episode => { run with task, status := .finished episode }

def afterResult (run : MctsEpisodeRun R G C F)
    (result : MctsWorkResult G C F) (task : MctsEpisodeTask R G C F) :
    MctsEpisodeRun R G C F :=
  { run with
    task, asked := none, delivered := run.delivered + result.holdings }

def fail (run : MctsEpisodeRun R G C F) (failure : SearchFailure F)
    (task : MctsEpisodeTask R G C F) : MctsEpisodeRun R G C F :=
  { run with task, status := .failed failure }

def takeReleasable (run : MctsEpisodeRun R G C F) : MctsEpisodeRun R G C F :=
  { run with
    task := run.task.takeReleasable.2
    released := run.released + run.task.takeReleasable.1.holdings }

def abort (run : MctsEpisodeRun R G C F) : MctsEpisodeRun R G C F :=
  { run with
    task := run.task.takeAllHandles.2
    released := run.released + run.task.takeAllHandles.1.holdings
    status := .aborted }

/-- All handles that the episode was ever given. -/
def received (run : MctsEpisodeRun R G C F) : Holdings G C :=
  holdingsOf run.owned [] + run.delivered

/-- The episode as it was reported, or as it is about to be. -/
def report (run : MctsEpisodeRun R G C F) : Option (MctsEpisode G C F) :=
  match run.status with
  | .finished episode => some episode
  | _ => run.task.unreported

end MctsEpisodeRun

/-- A task as it is made: from a root that stays with the caller or is handed
over. -/
inductive MctsEpisodeTask.Begins [Scalar F] : MctsEpisodeTask R G C F → List G → Prop
  | lent (config : MctsConfig) (hash : SearchConfigHash)
    (identity : EngineIdentity) (root : G) (seed : UInt64) :
    Begins (.new config hash identity root seed) []
  | owned (config : MctsConfig) (hash : SearchConfigHash)
    (identity : EngineIdentity) (root : G) (seed : UInt64) :
    Begins (MctsEpisodeTask.new config hash identity root seed).trackOwnedRoot [root]

inductive MctsEpisodeLabel (G C F : Type) where
  | poll (fuel : Nat)
  | resume (result : MctsWorkResult G C F)
  | takeReleasable
  | abort

section Steps

variable [Scalar F] [DecidableEq G] [DecidableEq C]

inductive MctsEpisodeStep (strategy : MctsStrategy R G C F) :
    MctsEpisodeRun R G C F → MctsEpisodeLabel G C F → MctsEpisodeRun R G C F → Prop
  | poll {run fuel task polled} (running : run.status = .running)
    (done : (MctsEpisodeTask.poll strategy fuel).perform run.task = (.ok polled, task)) :
    MctsEpisodeStep strategy run (.poll fuel) (run.afterPoll polled task)
  | pollFailed {run fuel task failure} (running : run.status = .running)
    (failed : (MctsEpisodeTask.poll strategy fuel).perform run.task = (.error failure, task))
    (settled : failure ≠ .unfinished) :
    MctsEpisodeStep strategy run (.poll fuel) (run.fail failure task)
  | resume {run work result task} (running : run.status = .running) (open_ : run.asked = some work)
    (answered : result.answers work)
    (done : (MctsEpisodeTask.resume strategy work.token result).perform
      run.task = (.ok ⟨⟩, task)) :
    MctsEpisodeStep strategy run (.resume result) (run.afterResult result task)
  | resumeFailed {run work result task failure} (running : run.status = .running)
    (open_ : run.asked = some work) (answered : result.answers work)
    (failed : (MctsEpisodeTask.resume strategy work.token result).perform
      run.task = (.error failure, task)) :
    MctsEpisodeStep strategy run (.resume result)
      ((run.afterResult result task).fail failure task)
  | takeReleasable (run : MctsEpisodeRun R G C F) :
    MctsEpisodeStep strategy run .takeReleasable run.takeReleasable
  | abort {run} (unfinished : ∀ episode, run.status ≠ .finished episode) :
    MctsEpisodeStep strategy run .abort run.abort

/-- Every run that a driver can make with an episode. -/
def mctsEpisodeSystem (strategy : MctsStrategy R G C F) :
    TransitionSystem (MctsEpisodeRun R G C F) (MctsEpisodeLabel G C F) where
  initial run := ∃ task owned, MctsEpisodeTask.Begins task owned ∧ run = .ofTask task owned
  step := MctsEpisodeStep strategy

end Steps

/-! ## What steps keep -/

def MctsEpisodeRun.created (run : MctsEpisodeRun R G C F) : Holdings G C :=
  (run.report.map MctsEpisode.created).getD 0

/-- An episode that is under way, or done and about to be reported. -/
def MctsEpisodeRun.Going (run : MctsEpisodeRun R G C F) : Prop :=
  run.task.Sound run.owned ∧ (match run.asked with
        | none => run.task.pending = none
        | some work => ∃ pending, run.task.pending = some pending ∧
            MctsEpisodeTask.PendingFor pending work) ∨
    run.asked = none ∧ ∃ episode, run.task.Reports run.owned episode

/-- The report lists the graphs of the path. -/
def MctsEpisodeRun.Lists (run : MctsEpisodeRun R G C F) : Prop :=
  ∀ episode, run.report = some episode → run.task.holdings = 0 ∧ ∃ rest, episode.created =
      holdingsOf (run.owned ++ chosenGraphs episode.steps) [] + rest

structure MctsEpisodeRun.Sound (run : MctsEpisodeRun R G C F) : Prop where
  conserved : run.released + run.task.holdings + run.created = run.received
  going : run.status = .running → run.Going
  lists : run.Lists
  halted : ∀ failure, run.status = .failed failure →
    run.task.pathGraphs = run.owned ++ chosenGraphs run.task.steps
  returned : run.status = .aborted → run.task.holdings = 0

namespace MctsEpisodeRun

variable {run : MctsEpisodeRun R G C F}

theorem sound_of_quiet (quiet : run.report = none)
    (conserved : run.released + run.task.holdings = run.received)
    (going : run.status = .running → run.Going)
    (halted : ∀ failure, run.status = .failed failure →
      run.task.pathGraphs = run.owned ++ chosenGraphs run.task.steps)
    (returned : run.status = .aborted → run.task.holdings = 0) :
    run.Sound where
  conserved := by
    unfold created
    rw [quiet]
    exact (add_zero _).trans conserved
  going := going
  lists := by
    intro episode reports
    cases quiet.symm.trans reports
  halted := halted
  returned := returned

theorem report_of_running (running : run.status = .running) : run.report = run.task.unreported := by
  unfold report
  rw [running]

theorem conserved_of_quiet (sound : run.Sound) (quiet : run.report = none) :
    run.released + run.task.holdings = run.received := by
  have conserved := sound.conserved
  unfold created at conserved
  rw [quiet] at conserved
  exact (add_zero _).symm.trans conserved

theorem sound_of_running (running : run.status = .running) (own : run.task.Sound run.owned)
    (conserved : run.released + run.task.holdings = run.received)
    (going : run.Going) : run.Sound := by
  refine sound_of_quiet ((report_of_running running).trans own.quiet)
    conserved (fun _ => going) (fun failure failed => ?_) fun aborted => ?_
  · cases running.symm.trans failed
  · cases running.symm.trans aborted

theorem sound_of_reports (running : run.status = .running) (nothing : run.asked = none) {episode}
    (reports : run.task.Reports run.owned episode)
    (conserved : run.released + episode.created = run.received) :
    run.Sound := by
  have reported : run.report = some episode := by
    rw [report_of_running running]
    unfold MctsEpisodeTask.unreported
    rw [reports.state]
  refine ⟨?_, fun _ => .inr ⟨nothing, episode, reports⟩, ?_, ?_, ?_⟩
  · unfold created
    rw [reported, reports.emptied, add_zero]
    exact conserved
  · intro other same
    obtain rfl := Option.some.inj (reported.symm.trans same)
    exact ⟨reports.emptied, reports.path⟩
  · intro failure failed
    cases running.symm.trans failed
  · intro aborted
    cases running.symm.trans aborted

theorem sound_ofTask [Scalar F] {task : MctsEpisodeTask R G C F} {owned}
    (begins : task.Begins owned) :
    (ofTask task owned).Sound := by
  cases begins with
  | lent | owned =>
    refine sound_of_quiet rfl rfl (fun _ => .inl ⟨⟨?_, rfl, rfl⟩, rfl⟩) nofun nofun
    rintro rootTask (here | out)
    · cases here
    · cases out

section Steps

variable [Scalar F] [DecidableEq G] [DecidableEq C] {strategy : MctsStrategy R G C F}

variable {task : MctsEpisodeTask R G C F}

theorem endsAt_poll_report {owned episode} (reports : task.Reports owned episode) (fuel : Nat) :
    (MctsEpisodeTask.poll strategy fuel).EndsAt (fun polled final => polled = .done episode ∧
        final.holdings = task.holdings)
      (fun failure _ => failure = .unfinished) task := by
  refine endsAt_get_bind ?_
  rw [reports.idle]
  cases fuel with
  | zero => exact endsAt_throw rfl
  | succ fuel =>
    have round : (MctsEpisodeTask.round strategy (fuel + 1)).EndsAt
        (fun outcome final => outcome = .inr (.done episode) ∧ final.holdings = task.holdings)
        (fun failure _ => failure = .unfinished) task := by
      refine endsAt_get_bind (endsAt_modify_bind ?_)
      rw [reports.state]
      exact endsAt_pure ⟨rfl, rfl⟩
    refine EndsAt.bind round ?_
    rintro _ _ ⟨rfl, same⟩
    exact endsAt_pure ⟨rfl, same⟩

theorem perform_poll_of_pending (strategy : MctsStrategy R G C F) {pending}
    (waits : task.pending = some pending) (fuel : Nat) :
    (MctsEpisodeTask.poll strategy fuel).perform task = (.ok .blocked, task) := by
  unfold MctsEpisodeTask.poll
  rw [perform_bind_ok (perform_get task), waits]
  rfl

theorem Sound.poll {fuel polled} (sound : run.Sound) (running : run.status = .running)
    (done : (MctsEpisodeTask.poll strategy fuel).perform run.task =
      (.ok polled, task)) : (run.afterPoll polled task).Sound := by
  rcases sound.going running with ⟨own, asked⟩ | ⟨open_, episode, reports⟩
  · have quiet : run.report = none := (report_of_running running).trans own.quiet
    have conserved := conserved_of_quiet sound quiet
    cases idle : run.task.pending with
    | some pending =>
      have blocked := perform_poll_of_pending strategy idle fuel
      obtain ⟨same, rfl⟩ := Prod.mk.inj (blocked.symm.trans done)
      cases same
      exact sound
    | none =>
      have nothing : run.asked = none := by
        cases open_ : run.asked with
        | none => rfl
        | some work =>
          rw [open_] at asked
          obtain ⟨pending, out, _⟩ := asked
          cases idle.symm.trans out
      have after := (MctsEpisodeTask.endsAt_poll own idle fuel).ok done
      rcases polled with work | _ | episode
      · obtain ⟨own, same, asked⟩ := after
        refine sound_of_running running own ?_ (.inl ⟨own, asked⟩)
        change run.released + task.holdings = run.received
        rw [same]
        exact conserved
      · obtain ⟨own, same, idle⟩ := after
        refine sound_of_running running own ?_ (.inl ⟨own, ?_⟩)
        · change run.released + task.holdings = run.received
          rw [same]
          exact conserved
        · change match run.asked with
            | none => task.pending = none
            | some work => _
          rw [nothing]
          exact idle
      · exact after.elim
  · obtain ⟨rfl, same⟩ := (endsAt_poll_report reports fuel).ok done
    have whole := sound.conserved
    have reported : run.report = some episode := by
      rw [report_of_running running]
      unfold MctsEpisodeTask.unreported
      rw [reports.state]
    obtain ⟨emptied, path⟩ := sound.lists episode reported
    refine ⟨?_, nofun, ?_, nofun, nofun⟩
    · unfold created at whole
      rw [reported] at whole
      change run.released + task.holdings + episode.created = run.received
      rw [same]
      exact whole
    · intro other same
      cases same
      exact ⟨(by assumption : task.holdings = _).trans emptied, path⟩

variable {failure : SearchFailure F}

omit [Scalar F] [DecidableEq G] [DecidableEq C] in
theorem sound_fail (quiet : task.unreported = none)
    (path : task.pathGraphs = run.owned ++ chosenGraphs task.steps)
    (conserved : run.released + task.holdings = run.received) :
    (run.fail failure task).Sound :=
  sound_of_quiet quiet conserved nofun (fun _ _ => path) nofun

theorem Sound.pollFailed {fuel} (sound : run.Sound) (running : run.status = .running)
    (failed : (MctsEpisodeTask.poll strategy fuel).perform run.task =
      (.error failure, task)) (settled : failure ≠ .unfinished) :
    (run.fail failure task).Sound := by
  rcases sound.going running with ⟨own, asked⟩ | ⟨open_, episode, reports⟩
  · have quiet : run.report = none := (report_of_running running).trans own.quiet
    have conserved := conserved_of_quiet sound quiet
    cases idle : run.task.pending with
    | some pending =>
      have blocked := perform_poll_of_pending strategy idle fuel
      cases (Prod.mk.inj (blocked.symm.trans failed)).1
    | none =>
      obtain ⟨same, quiet, path⟩ := (MctsEpisodeTask.endsAt_poll own idle fuel).error failed
      refine sound_fail quiet path ?_
      rw [same, add_zero]
      exact conserved
  · exact absurd ((endsAt_poll_report reports fuel).error failed) settled

variable {work : MctsWork G C F} {result : MctsWorkResult G C F}

omit [DecidableEq G] [DecidableEq C] in
theorem endsAt_resume {owned} (own : task.Sound owned) {pending} (out : task.pending = some pending)
    (pendingFor : MctsEpisodeTask.PendingFor pending work) (answered : result.answers work) :
    (MctsEpisodeTask.resume strategy work.token result).EndsAt (fun _ final =>
        final.Sound owned ∧ final.pending = none ∧
            final.holdings = task.holdings + result.holdings ∨
          ∃ episode, final.Reports owned episode ∧
            episode.created = task.holdings + result.holdings)
      (MctsEpisodeTask.Fails owned task result.holdings) task := by
  refine endsAt_get_bind ?_
  rw [out]
  dsimp only
  cases work with
  | search work =>
    obtain ⟨inner, rootTask, rfl⟩ := pendingFor
    cases result with
    | measure measure => exact answered.elim
    | search result =>
      split
      · next other => exact absurd rfl other
      cases result with
      | measurePair => exact endsAt_throw ⟨(add_zero _).symm, own.quiet, own.path⟩
      | expand | apply | eval =>
        exact EndsAt.mono (MctsEpisodeTask.endsAt_resumeRoot own out _)
          (fun _ _ going => .inl ⟨going.1, going.2.2, going.2.1⟩)
          fun _ _ failed => failed
  | measure work =>
    obtain ⟨reason, rfl⟩ := pendingFor
    cases result with
    | search result => exact answered.elim
    | measure measure =>
      split
      · next other => exact absurd rfl other
      refine EndsAt.mono (MctsEpisodeTask.reports_complete own reason measure) ?_
        fun _ _ failed => failed
      rintro _ final ⟨episode, reports, created⟩
      exact .inr ⟨episode, reports, created.trans (add_zero _).symm⟩

omit [DecidableEq G] [DecidableEq C] in
theorem Sound.resume (sound : run.Sound)
    (running : run.status = .running) (open_ : run.asked = some work)
    (answered : result.answers work)
    (done : (MctsEpisodeTask.resume strategy work.token result).perform
      run.task = (.ok ⟨⟩, task)) : (run.afterResult result task).Sound := by
  rcases sound.going running with ⟨own, asked⟩ | ⟨nothing, _⟩
  · rw [open_] at asked
    obtain ⟨pending, out, pendingFor⟩ := asked
    have conserved := conserved_of_quiet sound ((report_of_running running).trans own.quiet)
    have received : run.released + (run.task.holdings + result.holdings) =
        (run.afterResult result task).received := by
      rw [← add_assoc, conserved]
      exact add_assoc _ _ _
    rcases (endsAt_resume own out pendingFor answered).ok done with
      ⟨own, idle, same⟩ | ⟨episode, reports, created⟩
    · refine sound_of_running running own ?_ (.inl ⟨own, idle⟩)
      rw [← received, ← same]
      rfl
    · refine sound_of_reports running rfl reports ?_
      rw [← received, ← created]
      rfl
  · cases nothing.symm.trans open_

omit [DecidableEq G] [DecidableEq C] in
theorem Sound.resumeFailed (sound : run.Sound)
    (running : run.status = .running) (open_ : run.asked = some work)
    (answered : result.answers work)
    (failed : (MctsEpisodeTask.resume strategy work.token result).perform
      run.task = (.error failure, task)) :
    ((run.afterResult result task).fail failure task).Sound := by
  rcases sound.going running with ⟨own, asked⟩ | ⟨nothing, _⟩
  · rw [open_] at asked
    obtain ⟨pending, out, pendingFor⟩ := asked
    have conserved := conserved_of_quiet sound ((report_of_running running).trans own.quiet)
    obtain ⟨same, quiet, path⟩ := (endsAt_resume own out pendingFor answered).error failed
    refine sound_fail quiet path ?_
    rw [same]
    change run.released + (run.task.holdings + result.holdings) =
      holdingsOf run.owned [] + (run.delivered + result.holdings)
    rw [← add_assoc, conserved]
    exact add_assoc _ _ _
  · cases nothing.symm.trans open_

end Steps

theorem Sound.takeReleasable (sound : run.Sound) : run.takeReleasable.Sound := by
  have given := run.task.holdings_takeReleasable
  have emptied (before : run.task.holdings = 0) : run.task.takeReleasable.2.holdings = 0 := by
    rw [before, add_comm] at given
    exact eq_zero_of_add_eq_zero given
  refine ⟨?_, fun running => ?_, fun episode reported => ?_, sound.halted,
    fun aborted => emptied (sound.returned aborted)⟩
  · have conserved := sound.conserved
    rw [← given] at conserved
    refine Eq.trans ?_ conserved
    change run.released + run.task.takeReleasable.1.holdings +
      run.task.takeReleasable.2.holdings + run.created = _
    abel
  · refine (sound.going running).imp (fun ⟨own, asked⟩ => ⟨⟨?_, own.path,
      own.quiet⟩, asked⟩) fun ⟨nothing, episode, reports⟩ => ?_
    · rintro rootTask (here | out)
      · exact own.backed rootTask (.state here)
      · exact own.backed rootTask (.pending out)
    · exact ⟨nothing, episode, reports.state, reports.idle, emptied reports.emptied, reports.path⟩
  · obtain ⟨before, path⟩ := sound.lists episode reported
    exact ⟨emptied before, path⟩

theorem Sound.abort (sound : run.Sound) (unfinished : ∀ episode, run.status ≠ .finished episode) :
    run.abort.Sound := by
  obtain ⟨all, nothing⟩ := run.task.holdings_takeAllHandles
  have same : run.abort.report = run.report := by
    unfold report
    cases status : run.status with
    | finished episode => exact absurd status (unfinished episode)
    | running | failed _ | aborted => rfl
  refine ⟨?_, nofun, fun episode reported => ?_, nofun, fun _ => nothing⟩
  · have conserved := sound.conserved
    unfold created at conserved ⊢
    rw [same]
    change run.released + run.task.takeAllHandles.1.holdings +
      run.task.takeAllHandles.2.holdings + _ = _
    rw [all, nothing, add_zero]
    exact conserved
  · rw [same] at reported
    exact ⟨nothing, (sound.lists episode reported).2⟩

end MctsEpisodeRun

section Runs

variable [Scalar F] [DecidableEq G] [DecidableEq C]
  {strategy : MctsStrategy R G C F} {run : MctsEpisodeRun R G C F}

theorem MctsEpisodeRun.Sound.step {next label} (sound : run.Sound)
    (step : MctsEpisodeStep strategy run label next) : next.Sound := by
  cases step with
  | poll running done => exact sound.poll running done
  | pollFailed running failed settled => exact sound.pollFailed running failed settled
  | resume running open_ answered done => exact sound.resume running open_ answered done
  | resumeFailed running open_ answered failed =>
    exact sound.resumeFailed running open_ answered failed
  | takeReleasable => exact sound.takeReleasable
  | abort unfinished => exact sound.abort unfinished

theorem MctsEpisodeRun.sound_of_reachable
    (reachable : (mctsEpisodeSystem strategy).Reachable run) : run.Sound := by
  refine reachable.invariant ?_ fun _ _ _ => MctsEpisodeRun.Sound.step
  rintro _ ⟨task, owned, begins, rfl⟩
  exact MctsEpisodeRun.sound_ofTask begins

/-- Every handle that the episode received is with the driver, may be
released, is on the path of the chosen steps or is held for the move; once the
episode is done, it lists all that the driver did not get.  An abort returns
all of them before that. -/
structure MctsEpisodeRun.Accounted (run : MctsEpisodeRun R G C F) : Prop where
  underway : run.report = none → run.released + run.task.releasable.holdings +
        holdingsOf run.task.pathGraphs [] + holdingsOf run.task.moveGraphs run.task.moveCandidates =
      run.received
  path : run.status ≠ .aborted → run.report = none →
    run.task.pathGraphs = run.owned ++ chosenGraphs run.task.steps
  reported : ∀ episode, run.report = some episode → run.released + episode.created = run.received ∧
      ∃ rest, episode.created = holdingsOf (run.owned ++ chosenGraphs episode.steps) [] + rest
  returned : run.status = .aborted → run.report = none → run.released = run.received

/-- No handle is lost and none is given back twice. -/
theorem mctsHandles_accounted (reachable : (mctsEpisodeSystem strategy).Reachable run) :
    run.Accounted := by
  have sound := MctsEpisodeRun.sound_of_reachable reachable
  have quiet := MctsEpisodeRun.conserved_of_quiet sound
  refine ⟨fun nothing => ?_, fun kept nothing => ?_,
    fun episode reported => ?_, fun aborted nothing => ?_⟩
  · rw [← quiet nothing]
    unfold MctsEpisodeTask.holdings
    abel
  · cases status : run.status with
    | failed failure => exact sound.halted failure status
    | aborted => exact absurd status kept
    | finished episode =>
      unfold MctsEpisodeRun.report at nothing
      rw [status] at nothing
      cases nothing
    | running =>
      rcases sound.going status with ⟨own, _⟩ | ⟨_, episode, reports⟩
      · exact own.path
      · rw [MctsEpisodeRun.report_of_running status] at nothing
        unfold MctsEpisodeTask.unreported at nothing
        rw [reports.state] at nothing
        cases nothing
  · obtain ⟨emptied, path⟩ := sound.lists episode reported
    have conserved := sound.conserved
    unfold MctsEpisodeRun.created at conserved
    rw [reported, emptied, add_zero] at conserved
    exact ⟨conserved, path⟩
  · have conserved := quiet nothing
    rw [sound.returned aborted, add_zero] at conserved
    exact conserved

/-- The step with a label, if it is one that succeeds. -/
def MctsEpisodeRun.next (strategy : MctsStrategy R G C F) (run : MctsEpisodeRun R G C F) :
    MctsEpisodeLabel G C F → Option (MctsEpisodeRun R G C F)
  | .poll fuel =>
    match run.status,
        (MctsEpisodeTask.poll strategy fuel).perform run.task with
    | .running, (.ok polled, task) => some (run.afterPoll polled task)
    | _, _ => none
  | .resume result =>
    match run.status, run.asked with
    | .running, some work =>
      if result.answers work then
        match (MctsEpisodeTask.resume strategy work.token result).perform run.task with
        | (.ok _, task) => some (run.afterResult result task)
        | _ => none
      else none
    | _, _ => none
  | .takeReleasable => some run.takeReleasable
  | .abort =>
    match run.status with
    | .finished _ => none
    | _ => some run.abort

theorem step_of_mctsNext {next label} (found : run.next strategy label = some next) :
    MctsEpisodeStep strategy run label next := by
  cases label with
  | poll fuel =>
    dsimp only [MctsEpisodeRun.next] at found
    split at found
    · next running done =>
      cases found
      exact .poll running done
    · cases found
  | resume result =>
    dsimp only [MctsEpisodeRun.next] at found
    split at found
    · next work running open_ =>
      split at found
      · next answered =>
        split at found
        · next done =>
          cases found
          exact .resume running open_ answered done
        · cases found
      · cases found
    · cases found
  | takeReleasable =>
    cases found
    exact .takeReleasable run
  | abort =>
    dsimp only [MctsEpisodeRun.next] at found
    split at found
    · cases found
    · next other =>
      cases found
      exact .abort other

end Runs

namespace MctsSample

/-- A tree is carried from move to move, and two actions are considered. -/
def config : GumbelMctsConfig (Exact ℚ) where
  maxSteps := 2
  simulations := 2
  simulations_pos := by decide
  maxConsideredActions := 2
  maxConsideredActions_pos := by decide
  seed := 0
  gumbelScale := .finite 0
  cVisit := .finite 50
  cScale := .finite 1
  gumbelNoiseOverlap := .finite (-1)
  treeReuse := true
  exportPosition := false
  maskStop := false
  noBacktrack := false
  candidateOptions := ⟨none, true⟩
  measureOptions := ⟨0, 1, none, true⟩

def strategy : MctsStrategy (GumbelRootState (Exact ℚ)) Nat Nat (Exact ℚ) :=
  gumbelStrategy Nat Nat config

/-- The root is the graph 0, which is handed over. -/
def start : MctsEpisodeRun (GumbelRootState (Exact ℚ)) Nat Nat (Exact ℚ) :=
  .ofTask (MctsEpisodeTask.new (config.commonConfig 0) 0 ⟨0, 0, 0⟩ 0 0).trackOwnedRoot [0]

def poll : MctsEpisodeLabel Nat Nat (Exact ℚ) := .poll 10

def abort : MctsEpisodeLabel Nat Nat (Exact ℚ) := .abort

/-- A graph has one candidate, and its evaluation favours it. -/
def expanded (hash : GraphHash) (candidates : List Nat) : MctsEpisodeLabel Nat Nat (Exact ℚ) :=
  .resume (.search (.expand ⟨hash, candidates.map fun candidate =>
    ⟨candidate, 1, 0, 0, .finite 0⟩⟩))

def evaluated (logits : List ℚ) (value : ℚ) : MctsEpisodeLabel Nat Nat (Exact ℚ) :=
  .resume (.search (.eval ⟨0, logits.map .finite, .finite value⟩))

def applied (after : Nat) (hash : GraphHash) : MctsEpisodeLabel Nat Nat (Exact ℚ) :=
  .resume (.search (.apply ⟨after, hash, false⟩))

def measured (graph : Nat) (hash : GraphHash) : MctsEpisodeLabel Nat Nat (Exact ℚ) :=
  .resume (.measure ⟨graph, hash, 0, true, true, none, some (.finite 1), none⟩)

/-- Two moves lead to the graphs 1 and 2; what is left of the first tree is
searched again.  The last graph is measured. -/
def labels : List (MctsEpisodeLabel Nat Nat (Exact ℚ)) :=
  [poll, expanded 100 [7], poll, evaluated [1, 0] 0, poll, applied 1 101,
    poll, expanded 101 [8], poll, evaluated [1, 0] 1, poll, applied 2 102,
    poll, expanded 102 [], poll, evaluated [0] 2, poll, .takeReleasable,
    measured 2 102]

theorem reachable_of_followed {labels : List (MctsEpisodeLabel Nat Nat (Exact ℚ))} {run}
    (followed : labels.foldlM (MctsEpisodeRun.next strategy) start =
      some run) : (mctsEpisodeSystem strategy).Reachable run :=
  ⟨start, ⟨_, _, .owned (config.commonConfig 0) 0 ⟨0, 0, 0⟩ 0 0, rfl⟩,
    labels, TransitionSystem.Run.of_foldlM step_of_mctsNext followed⟩

end MctsSample

/-- At the end the candidates are released and the three graphs reported. -/
theorem mctsHandles_accounted_at_the_end : ∃ run, (MctsSample.labels ++ [MctsSample.poll]).foldlM
        (MctsEpisodeRun.next MctsSample.strategy) MctsSample.start = some run ∧
      run.released = holdingsOf [] [7, 8] ∧ run.report.map MctsEpisode.created =
          some (holdingsOf [0, 1, 2] []) ∧ run.Accounted := by
  have followed : ((MctsSample.labels ++ [MctsSample.poll]).foldlM
      (MctsEpisodeRun.next MctsSample.strategy) MctsSample.start).any
        (fun run => decide (run.released = holdingsOf [] [7, 8]) &&
          decide (run.report.map MctsEpisode.created = some (holdingsOf [0, 1, 2] []))) = true := by
    decide +kernel
  obtain ⟨run, reached, seen⟩ := Option.any_eq_true _ _ |>.mp followed
  rw [Bool.and_eq_true] at seen
  exact ⟨run, reached, of_decide_eq_true seen.1, of_decide_eq_true seen.2,
    mctsHandles_accounted (MctsSample.reachable_of_followed reached)⟩

/-- An abort between the measurement and the report returns no handle, and the
task holds none. -/
theorem mctsHandles_lost_by_abort : ∃ run, (mctsEpisodeSystem MctsSample.strategy).Reachable run ∧
      run.status = .aborted ∧ run.task.holdings = 0 ∧ run.released ≠ run.received := by
  have followed : ((MctsSample.labels ++ [MctsSample.abort]).foldlM
      (MctsEpisodeRun.next MctsSample.strategy) MctsSample.start).any
        (fun run => decide (run.status = .aborted) &&
          decide (run.released = holdingsOf [] [7, 8]) &&
            decide (run.received = holdingsOf [0, 1, 2] [7, 8])) = true := by
    decide +kernel
  obtain ⟨run, reached, seen⟩ := Option.any_eq_true _ _ |>.mp followed
  rw [Bool.and_eq_true, Bool.and_eq_true] at seen
  obtain ⟨⟨aborted, released⟩, received⟩ := seen
  have reachable := MctsSample.reachable_of_followed reached
  have aborted := of_decide_eq_true aborted
  refine ⟨run, reachable, aborted,
    (MctsEpisodeRun.sound_of_reachable reachable).returned aborted, ?_⟩
  rw [of_decide_eq_true released, of_decide_eq_true received]
  decide

end GraphZero.Search
