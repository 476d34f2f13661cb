import GraphZero.Measure.ExactlyOnce

/-!
# What admission establishes and the other updates keep

The updates of an operation say nothing about the artifacts and the limits of
an admission: `admitJob` does.  `PreservedByUpdates` is the induction rule for
an inv that needs both.  Its first use is `AdmittedJobs`: every live job
is the submission it was admitted for.
-/

namespace GraphZero.Measure

open Foundation Wire

/-- An admission and every other update of a consistent state keep `good`. -/
structure PreservedByUpdates (codec : Codec) (config : CoordinatorConfig)
    (good : CoordinatorState → Prop) : Prop where
  update : ∀ state change next, Consistent state → good state →
    (∀ jobId, change ≠ .admitted jobId) → Update state change next → good next
  entry : ∀ around state submission requestNonce next jobId,
    Consistent state → good state →
    validateSubmission config submission = .ok () →
    admitJob codec config around state submission requestNonce = .ok (next, jobId) → good next

section Rule

variable {codec : Codec} {config : CoordinatorConfig}
  {good : CoordinatorState → Prop} {state next : CoordinatorState}
  {env : Surroundings} {submission : MeasureSubmission}
  {requestNonce : RequestNonce} {jobId : JobId}

theorem enqueue_of_admitted {operation} (permitted : Change.Of operation (.admitted jobId)) :
    ∃ env submission requestNonce, operation = .enqueue env submission requestNonce := by
  cases permitted with
  | scheduling scheduled =>
    cases scheduled with
    | ending ends => cases ends
  | admitted => exact ⟨_, _, _, rfl⟩

theorem update_of_admitJob (admitted : admitJob codec config env state submission
      requestNonce = .ok (next, jobId)) :
    Update state (.admitted jobId) next := by
  obtain ⟨unknown, uncommitted, artifacts, bytes, job, _, queued,
    unrecoverable, requester, rfl⟩ := admitJob_eq admitted
  exact .enqueue unknown uncommitted queued unrecoverable requester

namespace PreservedByUpdates

theorem updates {allowed} (rule : PreservedByUpdates codec config good)
    (updates : UpdatesWithin allowed state next) (unadmitted : ∀ jobId, ¬ allowed (.admitted jobId))
    (sound : Consistent state) (start : good state) : good next := by
  apply updates.invariant _ sound start
  intro state change next sound holds permitted update
  apply rule.update state change next sound holds _ update
  rintro jobId rfl
  exact unadmitted jobId permitted

section

variable (rule : PreservedByUpdates codec config good)
include rule

theorem expireLeases (order : IterationOrder JobId) (now : Instant)
    (sound : Consistent state) (start : good state) :
    good (expireLeases order state now) :=
  rule.updates (updates_expireLeases order now sound) (by rintro jobId ⟨⟩) sound start

theorem schedule {order draws} (sound : Consistent state)
    (fresh : FreshDraws (draws.map Prod.fst) state)
    (scheduled : schedule config order draws state = some next) (start : good state) :
    good next := by
  have updates := updates_schedule sound fresh scheduled
  apply rule.updates updates _ sound start
  rintro jobId (⟨⟨⟩⟩ | ⟨⟩)

theorem enqueue {outcome} (sound : Consistent state)
    (fresh : FreshDraws (env.draws.map Prod.fst) state)
    (ran : enqueue codec config env state submission requestNonce = some outcome)
    (start : good state) : good outcome.1 := by
  unfold Measure.enqueue at ran
  cases valid : validateSubmission config submission with
  | error failure =>
    rw [valid] at ran
    cases ran
    exact start
  | ok =>
    have expires := updates_expireLeases env.jobOrder env.expiryNow sound
    have expired := expires.consistent sound
    have kept : good (Measure.expireLeases env.jobOrder state env.expiryNow) :=
      rule.expireLeases _ _ sound start
    rw [valid] at ran
    dsimp only at ran
    split at ran
    · cases ran
      exact kept
    next admitted id accepted =>
    have update := update_of_admitJob accepted
    have entered : good admitted := rule.entry _ _ _ _ _ _ expired kept valid accepted
    have later : FreshDraws (env.draws.map Prod.fst) admitted :=
      (fresh.ending expires sound).after (UpdatesWithin.single update rfl :
          UpdatesWithin (· = .admitted id) _ _)
        expired (by rintro jobId leaseId ⟨⟩)
    unfold andSchedule at ran
    rw [Option.map_eq_some_iff] at ran
    obtain ⟨final, loop, rfl⟩ := ran
    exact rule.schedule (consistent_update update expired) later loop entered

end

theorem step {world following operation} (rule : PreservedByUpdates codec config good)
    (inv : WorldInvariant world)
    (step : (coordinatorSystem codec config).step world operation following)
    (start : good world.state) : good following.state := by
  by_cases admission : ∃ env submission requestNonce,
      operation = .enqueue env submission requestNonce
  · obtain ⟨env, submission, requestNonce, rfl⟩ := admission
    obtain ⟨enabled, ran, succeeded, rfl⟩ := step
    simp only [perform, Option.map_eq_some_iff] at succeeded
    obtain ⟨outcome, enqueued, rfl⟩ := succeeded
    exact rule.enqueue inv.consistent (inv.freshDraws enabled) enqueued start
  · apply rule.updates (inv.updates step) _ inv.consistent start
    intro jobId permitted
    exact admission (enqueue_of_admitted permitted)

theorem reachable {world} (rule : PreservedByUpdates codec config good)
    (initially : ∀ receipts, good (newState receipts))
    (reachable : (coordinatorSystem codec config).Reachable world) :
    good world.state := by
  have both : WorldInvariant world ∧ good world.state := by
    apply reachable.invariant
    · rintro start ⟨content, receipts, _, rfl⟩
      exact ⟨worldInvariant_initial receipts, initially receipts⟩
    · rintro state label next ⟨inv, holds⟩ step
      exact ⟨worldInvariant_step inv step, rule.step inv step holds⟩
  exact both.2

end PreservedByUpdates

end Rule

/-- The job that `enqueue` makes of a valid submission, whatever became of its
lease since. -/
structure AdmittedJob (codec : Codec) (config : CoordinatorConfig)
    (jobId : JobId) (job : Job) : Prop where
  valid : validateSubmission config job.submission = .ok ()
  descriptors : job.descriptors = job.submission.subjects.map (artifactDescriptor codec)
  key : job.measurementKey = measurementKey codec job.submission job.descriptors
  id : jobId = Measure.jobId codec job.measurementKey job.requestNonce

def AdmittedJobs (codec : Codec) (config : CoordinatorConfig) (state : CoordinatorState) : Prop :=
  ∀ jobId job, state.jobs.get? jobId = some job → AdmittedJob codec config jobId job

theorem AdmittedJob.of_sameRequest {codec config jobId job later}
    (admitted : AdmittedJob codec config jobId job) (same : SameRequest job later) :
    AdmittedJob codec config jobId later := by
  rw [same]
  exact ⟨admitted.valid, admitted.descriptors, admitted.key, admitted.id⟩

section Admission

variable {codec : Codec} {config : CoordinatorConfig}
  {env : Surroundings} {state next : CoordinatorState}
  {submission : MeasureSubmission} {requestNonce : RequestNonce}
  {jobId : JobId}

def admittedJob (codec : Codec) (state : CoordinatorState)
    (submission : MeasureSubmission) (requestNonce : RequestNonce) : Job :=
  let descriptors := submission.subjects.map (artifactDescriptor codec)
  { submission, descriptors
    measurementKey := measurementKey codec submission descriptors
    requestNonce
    reply := some state.requesters
    state := .queued
    recovery := none }

theorem admitJob_eq_ok (admitted : admitJob codec config env state submission
      requestNonce = .ok (next, jobId)) :
    let job := admittedJob codec state submission requestNonce
    jobId = Measure.jobId codec job.measurementKey requestNonce ∧ state.jobs.get? jobId = none ∧
      state.receipts.contains jobId = false ∧
      state.queue.length < config.queueCapacity ∧
      state.receipts.canAdmit state.jobs.size = true ∧
      ∃ retained, retainArtifacts config env.artifactOrder state
          job.descriptors submission.subjects = .ok retained ∧
        next = { state with
          artifacts := retained.artifacts
          artifactBytes := retained.artifactBytes
          jobs := state.jobs.insert jobId job
          queue := state.queue ++ [jobId]
          requesters := state.requesters + 1 } := by
  unfold admitJob at admitted
  by_cases known : (state.jobs.contains (Measure.jobId codec (measurementKey codec submission
        (submission.subjects.map (artifactDescriptor codec))) requestNonce) ||
      state.receipts.contains (Measure.jobId codec (measurementKey codec submission
          (submission.subjects.map (artifactDescriptor codec))) requestNonce)) = true
  · rw [if_pos known] at admitted
    cases admitted
  rw [if_neg known] at admitted
  by_cases full : config.queueCapacity ≤ state.queue.length
  · rw [if_pos full] at admitted
    cases admitted
  rw [if_neg full] at admitted
  by_cases crowded : state.receipts.canAdmit state.jobs.size = false
  · rw [if_pos crowded] at admitted
    cases admitted
  rw [if_neg crowded] at admitted
  obtain ⟨retained, stored, admitted⟩ := ok_of_bind admitted
  obtain ⟨artifacts, bytes, rfl⟩ := retainArtifacts_eq stored
  cases admitted
  simp only [Bool.or_eq_true, not_or, Bool.not_eq_true] at known
  exact ⟨rfl, Table.contains_eq_false_iff.mp known.1, known.2,
    Nat.lt_of_not_le full, by simpa using crowded, _, stored, rfl⟩

theorem admittedJobs_rule : PreservedByUpdates codec config (AdmittedJobs codec config) where
  update state change next sound admitted unadmitted update := by
    intro jobId later found
    obtain ⟨_, reflects⟩ := reflects_of_update update sound unadmitted
    obtain ⟨job, before, same⟩ := reflects jobId later found
    exact (admitted jobId job before).of_sameRequest same
  entry env state submission requestNonce next admittedId _ admitted valid accepted := by
    obtain ⟨named, _, _, _, _, retained, _, rfl⟩ := admitJob_eq_ok accepted
    intro jobId job found
    rw [Table.get?_insert] at found
    split at found
    · next here =>
      cases found
      rw [here]
      exact ⟨valid, rfl, rfl, named⟩
    · exact admitted jobId job found

theorem admittedJobs_of_reachable {world}
    (reachable : (coordinatorSystem codec config).Reachable world) :
    AdmittedJobs codec config world.state :=
  admittedJobs_rule.reachable (by rintro receipts jobId job ⟨⟩) reachable

end Admission

end GraphZero.Measure
