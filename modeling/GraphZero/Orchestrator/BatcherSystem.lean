import GraphZero.Orchestrator.BatcherRounds

/-!
# Runs of the batcher

Nothing is lost and nothing is mixed up: the jobs of a model are submitted in
the order they came, each within as many rounds as a batch has rows, and the
rows of the outputs go back where their jobs came from.
-/

namespace GraphZero.Orchestrator.Batcher

open Engine Foundation Search List

variable {World P R F : Type} {lanes : Nat} [Scalar F] {context : BatcherContext World P R F lanes}
  {state : Batcher World P R F lanes}

/-- A round serves the jobs that were deferred. -/
def Advances (context : BatcherContext World P R F lanes)
    (state next : Batcher World P R F lanes) : Prop :=
  ∃ batch, next.submittedJobs = state.submittedJobs ++ batch ∧
    Serves context.collator.batchCapacity batch next.deferred state.deferred

/-- Everything that came in has gone out and come back. -/
structure Finished (context : BatcherContext World P R F lanes)
    (sizes : List Nat) (state : Batcher World P R F lanes) : Prop where
  told : state.Told context
  submitted : ∀ model,
    jobsOf model state.received = jobsOf model state.submittedJobs
  answered : state.accepted.length = state.submitted.length
  deferred : state.deferred = []
  sizes : sizes = state.batchSizes
  unrefused : state.refused = false

theorem Resting.release (resting : state.Resting context) : (releaseReleasableModels context).EndsAt
      (fun _ => state.SameVariables) (Stops context) state := by
  refine (endsAt_releaseReleasableModels context).mono (fun _ _ same => same) ?_
  rintro _ next ⟨rfl, world, rfl⟩
  exact resting.sound.stops { resting.sound.told with } rfl .backend

theorem Resting.finished (resting : state.Resting context) (idle : state.works = false) :
    state.Finished context state.batchSizes where
  told := resting.sound.told
  submitted model := by
    unfold works at idle
    rw [Bool.or_eq_false_iff] at idle
    have none : state.deferred = [] := by simpa using idle.2
    rw [resting.sound.kept, resting.batch, none]
    exact append_nil _
  answered := by
    unfold works at idle
    rw [Bool.or_eq_false_iff, Bool.or_eq_false_iff] at idle
    have none : state.inFlight = [] := by simpa using idle.1.2
    have flights := congrArg List.length resting.sound.flights
    rw [none, length_map, length_map, length_drop] at flights
    have count := resting.sound.told.count
    change 0 = _ at flights
    omega
  deferred := by
    unfold works at idle
    rw [Bool.or_eq_false_iff] at idle
    simpa using idle.2
  sizes := rfl
  unrefused := resting.sound.unrefused

theorem Gathered.rest {gathered next} (begun : state.Gathered context gathered) {submitted}
    (done : gathered.Submitted context submitted next) :
    Advances context state next ∧ (next.mustDrain submitted = false → next.Resting context) ∧
      next.inFlight.length ≤ evalPipelineDepth := by
  have room := begun.room
  have flies := done.flies
  refine ⟨⟨gathered.batch, ?_, ?_⟩, fun free => ?_, ?_⟩
  · rw [done.submittedJobs]
    unfold submittedJobs
    rw [begun.submitted]
  · rw [done.deferred]
    exact begun.served
  · unfold mustDrain at free
    rw [Bool.or_eq_false_iff] at free
    exact ⟨done.sound, done.batch, Nat.not_le.1 (of_decide_eq_false free.1)⟩
  · split at flies <;> omega

theorem endsAt_round (resting : state.Resting context) : (round context).EndsAt (Effect.Rounds
        (fun _ next => next.Resting context ∧ Advances context state next)
        fun sizes next =>
          next.Finished context sizes ∧ state.SameVariables next)
      (Stops context) state := by
  refine Effect.endsAt_get_bind ?_
  split
  · refine Effect.EndsAt.bind resting.release ?_
    rintro _ _ ⟨world, rfl⟩
    have resting := resting.same ⟨world, rfl⟩
    refine Effect.EndsAt.bind (endsAt_gather resting) ?_
    intro _ gathered begun
    refine Effect.EndsAt.bind (endsAt_submitBatch begun.sound) ?_
    intro submitted next done
    obtain ⟨advances, free, flies⟩ := begun.rest done
    refine Effect.endsAt_get_bind ?_
    split
    · refine Effect.EndsAt.bind (endsAt_drainOldest done.sound) ?_
      intro _ last drained
      refine ⟨⟨drained.sound, drained.jobs.batch.trans done.batch, ?_⟩, ?_⟩
      · rw [drained.inFlight, length_tail]
        unfold evalPipelineDepth at flies ⊢
        omega
      · obtain ⟨batch, jobs, serves⟩ := advances
        exact ⟨batch, drained.jobs.submittedJobs.trans jobs, drained.jobs.deferred ▸ serves⟩
    · rename_i goes
      exact ⟨free (Bool.eq_false_of_not_eq_true goes), advances⟩
  · rename_i idle
    refine Effect.EndsAt.bind resting.release ?_
    rintro _ _ ⟨world, rfl⟩
    exact ⟨(resting.same ⟨world, rfl⟩).finished (Bool.eq_false_of_not_eq_true idle), world, rfl⟩

/-- At most `rounds` of the `old` jobs still wait, in front of all others. -/
def Overtaken (old : ModelGeneration → List (FeaturizedEvalJob lanes R))
    (rounds : Nat) (state : Batcher World P R F lanes) : Prop :=
  ∃ waiting, waiting <+: state.deferred ∧ waiting.length ≤ rounds ∧ ∀ model, old model <+:
      jobsOf model state.submittedJobs ++ jobsOf model waiting

omit [Scalar F] in
theorem Advances.overtaken {next} (advances : Advances context state next) {old rounds}
    (overtaken : state.Overtaken old (rounds + 1)) :
    next.Overtaken old rounds := by
  obtain ⟨batch, submitted, serves⟩ := advances
  obtain ⟨waiting, leads, count, behind⟩ := overtaken
  cases waiting with
  | nil =>
    refine ⟨[], nil_prefix, Nat.zero_le _, fun model => ?_⟩
    rw [submitted, jobsOf_append]
    refine (behind model).trans ?_
    simp only [jobsOf_nil, append_nil]
    exact prefix_append _ _
  | cons first waiting =>
    obtain ⟨more, deferred⟩ := leads
    rw [← deferred, cons_append] at serves
    obtain ⟨batched, full, oneModel, kept⟩ := serves
    rw [sortDeferred_append] at batched full kept
    have sorted := sorted_sortDeferred context.collator.capacity_pos first waiting
    let capacity := context.collator.batchCapacity
    let early := sortDeferred capacity first.model waiting [first] []
    have grows : early.1 <+: batch := isPrefix_sortDeferred.1.trans batched
    refine ⟨early.2, isPrefix_sortDeferred.2.trans kept,
      sorted.short.trans (Nat.le_of_succ_le_succ count), fun model => ?_⟩
    have order : jobsOf model early.1 ++ jobsOf model early.2 =
        jobsOf model (first :: waiting) := sorted.inOrder model
    rw [submitted, jobsOf_append, append_assoc]
    refine (behind model).trans ((prefix_append_right_inj _).2 (order ▸ ?_))
    -- What is kept of the batch's own model had no room in it.
    by_cases own : first.model = model
    · rcases sorted.passed with none | packed
      · rw [← own, none, append_nil, append_nil]
        exact isPrefix_jobsOf grows
      have fits : (sortDeferred capacity first.model more early.1
          early.2).1.length ≤ capacity := length_sortDeferred_le sorted.fits
      have same : early.1 = (sortDeferred capacity first.model more early.1 early.2).1 :=
        isPrefix_sortDeferred.1.eq_of_length
          (isPrefix_sortDeferred.1.length_le.antisymm (fits.trans packed))
      have alone : batch = early.1 := (full (same ▸ Nat.le_antisymm sorted.fits packed)).trans
          same.symm
      rw [alone]
    · rw [jobsOf_eq_nil sorted.oneModel own, jobsOf_eq_nil oneModel own]

/-! ## Runs -/

/-- The jobs that came in have been submitted. -/
def Received (early late : Batcher World P R F lanes) : Prop :=
  ∀ model, jobsOf model early.received <+: jobsOf model late.submittedJobs

theorem Resting.overtaken (resting : state.Resting context) :
    state.Overtaken (fun model => jobsOf model state.received) context.collator.batchCapacity := by
  refine ⟨state.deferred, prefix_rfl, resting.sound.deferredFits, fun model => ?_⟩
  have kept := resting.sound.kept model
  rw [resting.batch, jobsOf_nil, nil_append] at kept
  exact kept ▸ prefix_rfl

omit [Scalar F] in
theorem Overtaken.received {early : Batcher World P R F lanes}
    (overtaken : state.Overtaken (fun model => jobsOf model early.received) 0) :
    early.Received state := by
  obtain ⟨waiting, _, count, behind⟩ := overtaken
  rw [length_eq_zero_iff.1 (Nat.le_zero.1 count)] at behind
  intro model
  have leads := behind model
  rw [jobsOf_nil, append_nil] at leads
  exact leads

theorem endsAt_patient (resting : state.Resting context) {early : Batcher World P R F lanes}
    {rounds} (overtaken : state.Overtaken (fun model => jobsOf model early.received) rounds) :
    (runFeaturizedBatcher context rounds).EndsAt (fun _ => early.Received)
      (fun failure late => failure = .unfinished → early.Received late)
      state := by
  induction rounds generalizing state with
  | zero => exact fun _ => overtaken.received
  | succ rounds ih =>
    refine Effect.EndsAt.bind ((endsAt_round resting).mono
      (fun _ _ ends => ends) fun failure late stops unfinished => ?_) ?_
    · rw [unfinished] at stops
      cases stops.outside
    intro outcome next ends
    cases outcome with
    | inl _ => exact ih ends.1 (ends.2.overtaken overtaken)
    | inr sizes =>
      obtain ⟨finished, world, rfl⟩ := ends
      obtain ⟨waiting, leads, _, behind⟩ := overtaken
      have none : waiting = [] := prefix_nil.1 (finished.deferred ▸ leads)
      exact Overtaken.received ⟨[], nil_prefix, Nat.le_refl _, none ▸ behind⟩

/-- How a run ends that has no result: an error of what the batcher works with
stops it, or its rounds are over and the next rounds submit what waits. -/
structure Halts (context : BatcherContext World P R F lanes)
    (failure : BatcherFailure) (state : Batcher World P R F lanes) :
    Prop where
  told : state.Told context
  outside : failure ≠ .unfinished → Outside context failure
  refusal : state.refused = true → failure = .internal "feature eval backend failed"
  waiting : failure = .unfinished → ∀ model,
    jobsOf model state.received = jobsOf model state.submittedJobs ++ jobsOf model state.deferred
  patience : failure = .unfinished →
    (runFeaturizedBatcher context context.collator.batchCapacity).EndsAt (fun _ => state.Received)
      (fun failure late => failure = .unfinished → state.Received late)
      state

theorem Stops.halts {failure} (stops : Stops context failure state) :
    Halts context failure state := by
  have other : failure ≠ .unfinished := by
    rintro rfl
    cases stops.outside
  exact {
    told := stops.told
    outside := fun _ => stops.outside
    refusal := stops.refusal
    waiting := fun same => absurd same other
    patience := fun same => absurd same other }

theorem Resting.halts (resting : state.Resting context) : Halts context .unfinished state where
  told := resting.sound.told
  outside same := absurd rfl same
  refusal refused :=
    absurd (resting.sound.unrefused.symm.trans refused) Bool.false_ne_true
  waiting _ model := by
    rw [resting.sound.kept, resting.batch]
    rfl
  patience _ := endsAt_patient resting resting.overtaken

theorem resting_start (world : World) :
    (start world : Batcher World P R F lanes).Resting context where
  sound := {
    told := {
      inOrder := fun _ => prefix_rfl
      calls := nofun
      count := Nat.le_refl _
      answers := nofun
      sizes := rfl
      replies := rfl
      unanswered := nofun }
    kept := fun _ => rfl
    oneModel := nofun
    batchFits := Nat.zero_le _
    deferredFits := Nat.zero_le _
    flights := rfl
    clock := fun _ some => absurd rfl some
    unrefused := rfl }
  batch := rfl
  room := Nat.zero_lt_succ _

/-- However the jobs, the timeouts and the models come: a run that ends
submitted every job, and a run that goes on submits it. -/
theorem served_of_run (context : BatcherContext World P R F lanes) (world : World) (rounds : Nat) :
    (runFeaturizedBatcher context rounds).EndsAt (Finished context)
      (Halts context) (start world) := by
  refine Effect.endsAt_loop_of_cut (fun _ => Resting context)
    (fun _ state resting => ?_) (fun _ _ resting => resting.halts)
    (resting_start world)
  refine (endsAt_round resting).mono (fun outcome next ends => ?_) fun _ _ stops => stops.halts
  cases outcome with
  | inl _ => exact ends.1
  | inr sizes => exact ends.1

def Reported (state : Batcher World P R F lanes) : Prop :=
  state.refused = true → ∀ call ∈ state.submitted.getLast?,
    ∀ job ∈ call.jobs, ∃ sent ∈ state.replies,
      sent.1 = job.lane ∧ sent.2.slot = job.slot ∧ sent.2.token = job.token

namespace Sample

/-- One lane sends its jobs to a backend that refuses every batch. -/
def refusing : BatcherContext (List (FeaturizedEvalJob 1 Unit)) Unit Unit (Exact ℚ) 1 where
  collator := ⟨1, Nat.one_pos, fun _ => some []⟩
  evalPressure := true
  recv jobs := (jobs.head?, jobs.tail)
  recvTimeout jobs :=
    (match jobs with
      | [] => .disconnected
      | job :: _ => .job job, jobs.tail)
  takeReleasable jobs := ([], jobs)
  publish _ jobs := (.ok (), jobs)
  releaseModelGeneration _ jobs := (some (), jobs)
  submitForModel _ _ _ jobs := (none, jobs)
  receive _ jobs := (none, jobs)

def job : FeaturizedEvalJob 1 Unit :=
  ⟨0, 0, ⟨0⟩, (), 1, ⟨1, 1⟩⟩

end Sample

/-- The job of a refused batch hears nothing. -/
theorem refused_unreported : ¬ Reported ((runFeaturizedBatcher Sample.refusing 1).perform
      (start [Sample.job])).2 := by
  intro reported
  have refused : ((runFeaturizedBatcher Sample.refusing 1).perform
      (start [Sample.job])).2.refused = true := by decide +kernel
  have last : ((runFeaturizedBatcher Sample.refusing 1).perform
      (start [Sample.job])).2.submitted.getLast? =
        some ⟨Sample.job.model, [], [1], [Sample.job], none⟩ := by decide +kernel
  have silent : ((runFeaturizedBatcher Sample.refusing 1).perform
      (start [Sample.job])).2.replies = [] := by decide +kernel
  obtain ⟨_, sent, _⟩ := reported refused _ last Sample.job (mem_singleton_self _)
  cases sent

end GraphZero.Orchestrator.Batcher
