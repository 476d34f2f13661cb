import GraphZero.Measure.Credit
import GraphZero.Measure.Requeueing
import GraphZero.Measure.Stores
import GraphZero.Measure.TargetProfile

/-!
# Work that waits for nothing

An operation that ends with `schedule` leaves no queued job that an agent
could take.  A refused submission, a refused event and a `connect` end without
it, although the first two may have expired leases and the last may have ended
a session: the jobs they requeue wait for the next operation.
-/

namespace GraphZero.Measure

open Foundation Wire List

/-- Some connected agent with free credit is eligible for the job. -/
def HasTaker (state : CoordinatorState) (job : Job) : Prop :=
  ∃ deviceId agent, state.agents.get? deviceId = some agent ∧ agentMatches agent job = true

instance (state : CoordinatorState) (job : Job) : Decidable (HasTaker state job) :=
  decidable_of_iff (state.agents.any (fun _ agent => agentMatches agent job) = true) Table.any_iff

/-- A job waits although an agent could take it. -/
def Stranded (state : CoordinatorState) : Prop :=
  ∃ jobId ∈ state.queue, ∃ job, state.jobs.get? jobId = some job ∧ HasTaker state job

theorem stranded_iff {state} : Stranded state ↔ findAssignment state ≠ none := by
  constructor
  · rintro ⟨jobId, waiting, job, found, deviceId, agent, connected, admitted⟩ unassigned
    unfold findAssignment at unassigned
    rw [findSome?_eq_none_iff] at unassigned
    have untaken := unassigned jobId waiting
    rw [found, Option.bind_some, findSome?_eq_none_iff] at untaken
    have member := Table.mem_sortedKeys.mpr (Table.mem_keys_of_get? connected)
    have here := untaken deviceId member
    rw [connected, Option.bind_some, if_pos admitted] at here
    cases here
  · intro assigned
    obtain ⟨⟨jobId, job, deviceId, agent⟩, assignment⟩ := Option.ne_none_iff_exists'.mp assigned
    obtain ⟨waiting, found, connected, admitted⟩ := findAssignment_eq_some assignment
    exact ⟨jobId, waiting, job, found, deviceId, agent, connected, admitted⟩

instance (state : CoordinatorState) : Decidable (Stranded state) :=
  decidable_of_iff (findAssignment state ≠ none) stranded_iff.symm

/-- A session without its leases: what `agentMatches` reads. -/
def AgentSession.terms (agent : AgentSession) : AgentSession :=
  { agent with active := ∅ }

abbrev termsOf (state : CoordinatorState) (deviceId : DeviceId) : Option AgentSession :=
  fieldOf AgentSession.terms state deviceId

section Terms

variable {state next : CoordinatorState} {job later : Job}

theorem agentMatches_congr {agent other} (terms : other.terms = agent.terms)
    (same : SameRequest job later) :
    agentMatches other later = agentMatches agent job := by
  have agents : ∀ agent : AgentSession, agentMatches agent later = agentMatches agent.terms later :=
    fun _ => rfl
  rw [agents other, terms, ← agents agent, same]
  rfl

theorem hasTaker_congr (terms : ∀ deviceId, termsOf next deviceId = termsOf state deviceId)
    (same : SameRequest job later) :
    HasTaker next later ↔ HasTaker state job := by
  constructor
  · rintro ⟨deviceId, agent, connected, admitted⟩
    have before := (terms deviceId).symm.trans (fieldOf_of_get? connected)
    obtain ⟨earlier, found, equal⟩ := fieldOf_eq_some_iff.mp before
    exact ⟨deviceId, earlier, found, (agentMatches_congr equal.symm same).symm.trans admitted⟩
  · rintro ⟨deviceId, agent, connected, admitted⟩
    have after := (terms deviceId).trans (fieldOf_of_get? connected)
    obtain ⟨earlier, found, equal⟩ := fieldOf_eq_some_iff.mp after
    exact ⟨deviceId, earlier, found, (agentMatches_congr equal same).trans admitted⟩

theorem stranded_of_fewer (stranded : Stranded next)
    (queue : ∀ jobId ∈ next.queue, jobId ∈ state.queue)
    (jobs : ∀ jobId job, next.jobs.get? jobId = some job → state.jobs.get? jobId = some job)
    (terms : ∀ deviceId, termsOf next deviceId = termsOf state deviceId) :
    Stranded state := by
  obtain ⟨jobId, waiting, job, found, taken⟩ := stranded
  exact ⟨jobId, queue jobId waiting, job, jobs jobId job found,
    (hasTaker_congr terms (SameRequest.refl job)).mp taken⟩

theorem stranded_of_same (stranded : Stranded next)
    (queue : next.queue = state.queue) (jobs : next.jobs = state.jobs)
    (agents : next.agents = state.agents) : Stranded state := by
  apply stranded_of_fewer stranded
  · intro jobId waiting
    rwa [queue] at waiting
  · intro jobId job found
    rwa [jobs] at found
  · exact fieldOf_same_agents agents

end Terms

section Expiry

variable {state : CoordinatorState} {order : IterationOrder JobId}
  {now : Instant}

/-- A job whose lease is overdue has a taker. -/
def ExpiryStrands (state : CoordinatorState) (now : Instant) : Prop :=
  ∃ jobId job, state.jobs.get? jobId = some job ∧
    (∃ active, job.state.lease = some active ∧ active.deadline ≤ now) ∧
    HasTaker state job

instance (state : CoordinatorState) (now : Instant) : Decidable (ExpiryStrands state now) :=
  decidable_of_iff (state.jobs.any (fun _ job =>
      job.state.lease.any (fun active => decide (active.deadline ≤ now)) &&
      decide (HasTaker state job)) = true)
    (by simp [ExpiryStrands, Option.any_eq_true])

theorem queued_of_expired {job : Job} (queued : (job.expired now).state = .queued) :
    job.state = .queued ∨ ∃ active, job.state.lease = some active ∧ active.deadline ≤ now := by
  unfold Job.expired at queued
  split at queued
  · exact Or.inl queued
  · next active leased =>
    split at queued
    · next overdue => exact Or.inr ⟨active, leased, overdue⟩
    · exact Or.inl queued

theorem stranded_expireLeases (sound : Consistent state) (moving : ¬ Stranded state) :
    Stranded (expireLeases order state now) ↔ ExpiryStrands state now := by
  have later := (updates_expireLeases order now sound).consistent sound
  have terms : ∀ deviceId, termsOf (expireLeases order state now) deviceId =
      termsOf state deviceId :=
    fieldOf_expireLeases (fun _ _ => rfl) order state now
  constructor
  · rintro ⟨jobId, waiting, job, found, taken⟩
    obtain ⟨_, present, queued⟩ := (later.mem_queue_iff jobId).mp waiting
    rw [found, Option.some.injEq] at present
    subst present
    rw [jobs_expireLeases, Option.map_eq_some_iff] at found
    obtain ⟨before, found, rfl⟩ := found
    have takes := (hasTaker_congr terms (sameRequest_expired now before)).mp taken
    rcases queued_of_expired queued with waited | ⟨active, leased, overdue⟩
    · exact absurd ⟨jobId, (sound.mem_queue_iff jobId).mpr
        ⟨before, found, waited⟩, before, found, takes⟩ moving
    · exact ⟨jobId, before, found, ⟨active, leased, overdue⟩, takes⟩
  · rintro ⟨jobId, job, found, ⟨active, leased, overdue⟩, taken⟩
    have requeued : (expireLeases order state now).jobs.get? jobId = some (job.expired now) := by
      rw [jobs_expireLeases, found, Option.map_some]
    have queued : (job.expired now).state = .queued := by
      rw [Job.expired, leased]
      dsimp only
      rw [if_pos overdue]
      rfl
    exact ⟨jobId, (later.mem_queue_iff jobId).mpr ⟨_, requeued, queued⟩, _,
      requeued, (hasTaker_congr terms (sameRequest_expired now job)).mpr taken⟩

end Expiry

/-! ## Sessions that are replaced -/

/-- The greeting recovers the job: it runs on the device, and the greeting
names its lease. -/
def recoveredBy (hello : AgentHello) (jobId : JobId) (job : Job) : Bool :=
  match job.state with
  | .queued => false
  | .offered _ => false
  | .running active =>
    hello.recoveries.any fun recovery =>
      recovery.jobId == jobId.toVec &&
      recovery.leaseId == active.leaseId.toVec

/-- A job that the device holds and does not recover has a taker among the
other agents. -/
def ReplacementStrands (state : CoordinatorState) (deviceId : DeviceId)
    (hello : AgentHello) : Prop :=
  ∃ jobId job, state.jobs.get? jobId = some job ∧ (∃ active, job.state.lease = some active ∧
      active.deviceId = deviceId) ∧
    recoveredBy hello jobId job = false ∧
    HasTaker (eraseAgent state deviceId) job

instance (state : CoordinatorState) (deviceId : DeviceId) (hello : AgentHello) :
    Decidable (ReplacementStrands state deviceId hello) :=
  decidable_of_iff (state.jobs.any (fun jobId job =>
      job.state.lease.any (fun active =>
        decide (active.deviceId = deviceId)) &&
      (!recoveredBy hello jobId job &&
      decide (HasTaker (eraseAgent state deviceId) job))) = true)
    (by simp [ReplacementStrands, Option.any_eq_true])

section Recoveries

variable {config : CoordinatorConfig} {env : Surroundings}
  {deviceId : DeviceId} {sessionId : SessionId} {jobId : JobId}

def Runs (state : CoordinatorState) (jobId : JobId) : Prop :=
  ∃ job active, state.jobs.get? jobId = some job ∧ job.state = .running active

def TakesUp (deviceId : DeviceId) (jobId : JobId)
    (state : CoordinatorState) (recovery : LeaseRecovery) : Prop :=
  ∃ leaseId : LeaseId, recovery.jobId = jobId.toVec ∧ recovery.leaseId = leaseId.toVec ∧
    recoverable state deviceId jobId leaseId ≠ none

theorem takesUp_congr {state next} (same : next.jobs.get? jobId = state.jobs.get? jobId)
    (recovery : LeaseRecovery) :
    TakesUp deviceId jobId next recovery ↔ TakesUp deviceId jobId state recovery := by
  unfold TakesUp recoverable
  rw [same]

theorem jobs_reconcileRecovery {progress recovery named leaseId}
    (job : recovery.jobId = named.toVec) (lease : recovery.leaseId = leaseId.toVec) :
    let next := (reconcileRecovery config env deviceId sessionId progress named leaseId).state
    next.receipts = progress.state.receipts ∧
      (next.jobs.get? jobId = progress.state.jobs.get? jobId ∨ Runs next jobId) ∧
      (¬ TakesUp deviceId jobId progress.state recovery →
        next.jobs.get? jobId = progress.state.jobs.get? jobId) ∧
      (TakesUp deviceId jobId progress.state recovery →
        progress.state.receipts.contains jobId = false → Runs next jobId) := by
  have named_of_takesUp : TakesUp deviceId jobId progress.state recovery → jobId = named ∧
        recoverable progress.state deviceId named leaseId ≠ none := by
    rintro ⟨other, otherJob, otherLease, takes⟩
    have sameJob : jobId = named := Id.toVec_injective (otherJob.symm.trans job)
    have sameLease : other = leaseId := Id.toVec_injective (otherLease.symm.trans lease)
    rw [sameJob, sameLease] at takes
    exact ⟨sameJob, takes⟩
  unfold reconcileRecovery
  dsimp only
  split
  · next committed =>
    refine ⟨rfl, Or.inl rfl, fun _ => rfl, ?_⟩
    intro takes uncommitted
    obtain ⟨rfl, _⟩ := named_of_takesUp takes
    rw [committed] at uncommitted
    cases uncommitted
  · split
    · next recoveredJob active recovered =>
      have runs : Runs (rebindJob progress.state named recoveredJob
          (reboundLease config env sessionId named active)) named :=
        ⟨_, _, Table.get?_insert_self _ _ _, rfl⟩
      by_cases here : jobId = named
      · subst here
        refine ⟨rfl, Or.inr runs, fun untaken => ?_, fun _ _ => runs⟩
        exact absurd ⟨leaseId, job, lease, by simp [recovered]⟩ untaken
      · have kept : (rebindJob progress.state named recoveredJob
            (reboundLease config env sessionId named
              active)).jobs.get? jobId = progress.state.jobs.get? jobId :=
          Table.get?_insert_of_ne here
        exact ⟨rfl, Or.inl kept, fun _ => kept, fun takes => absurd (named_of_takesUp takes).1 here⟩
    · next unrecovered =>
      refine ⟨rfl, Or.inl rfl, fun _ => rfl, fun takes => ?_⟩
      exact absurd unrecovered (named_of_takesUp takes).2

theorem jobs_reconcileRecoveries {recoveries progress final state}
    (reconciled : reconcileRecoveries config env deviceId sessionId
      recoveries progress = (state, .ok final)) :
    (final.state.jobs.get? jobId = progress.state.jobs.get? jobId ∨ Runs final.state jobId) ∧
      ((∀ recovery ∈ recoveries, ¬ TakesUp deviceId jobId progress.state recovery) →
        final.state.jobs.get? jobId = progress.state.jobs.get? jobId) ∧
      ((∃ recovery ∈ recoveries, TakesUp deviceId jobId progress.state recovery) →
        progress.state.receipts.contains jobId = false → Runs final.state jobId) := by
  induction recoveries generalizing progress with
  | nil =>
    cases reconciled
    exact ⟨Or.inl rfl, fun _ => rfl, by rintro ⟨recovery, ⟨⟩, _⟩⟩
  | cons recovery recoveries ih =>
    unfold reconcileRecoveries at reconciled
    split at reconciled
    · next named leaseId job lease =>
      obtain ⟨receipts, first, untaken, taken⟩ :=
        @jobs_reconcileRecovery config env deviceId sessionId jobId progress recovery named leaseId
          (Id.fromSlice_eq_ok_iff.mp job)
          (Id.fromSlice_eq_ok_iff.mp lease)
      obtain ⟨later, laterUntaken, laterTaken⟩ := ih reconciled
      have runs_of_runs : Runs (reconcileRecovery config env
          deviceId sessionId progress named leaseId).state jobId → Runs final.state jobId := by
        intro runs
        rcases later with same | runsLater
        · unfold Runs at runs ⊢
          rwa [same]
        · exact runsLater
      refine ⟨?_, ?_, ?_⟩
      · rcases first with same | runs
        · rw [← same]
          exact later
        · exact Or.inr (runs_of_runs runs)
      · intro none
        have same := untaken (none recovery mem_cons_self)
        rw [← same]
        apply laterUntaken
        intro other member
        rw [takesUp_congr same]
        exact none other (mem_cons_of_mem _ member)
      · rintro ⟨other, member, takes⟩ uncommitted
        by_cases here : TakesUp deviceId jobId progress.state recovery
        · exact runs_of_runs (taken here uncommitted)
        have same := untaken here
        rcases mem_cons.mp member with rfl | elsewhere
        · exact absurd takes here
        · apply laterTaken
          · exact ⟨other, elsewhere, (takesUp_congr same other).mpr takes⟩
          · rw [receipts]
            exact uncommitted
    · cases reconciled
    · cases reconciled

end Recoveries

section Replacement

variable {codec : Codec} {config : CoordinatorConfig} {world : World}
  {env : Surroundings}
  {peerFingerprint : Option CertificateFingerprint} {hello : AgentHello}
  {sessionId : SessionId} {deviceId : DeviceId}
  {profileHash : DeviceProfileHash}

variable {job : Job}

theorem hasTaker_registered {removed final channel} (absent : removed.agents.get? deviceId = none)
    (agents : final.state.agents = removed.agents) :
    HasTaker (registered peerFingerprint hello sessionId deviceId profileHash
      channel final) job ↔ HasTaker removed job := by
  unfold HasTaker registered
  rw [agents]
  constructor
  · rintro ⟨tested, agent, connected, admitted⟩
    rw [Table.get?_insert] at connected
    split at connected
    · cases connected
      have credit := (credit_of_agentMatches admitted).1
      exact absurd credit (Nat.lt_irrefl 0)
    · exact ⟨tested, agent, connected, admitted⟩
  · rintro ⟨tested, agent, connected, admitted⟩
    have different : tested ≠ deviceId := by
      rintro rfl
      rw [absent] at connected
      cases connected
    exact ⟨tested, agent, (Table.get?_insert_of_ne different).trans connected, admitted⟩

/-- A job waits once its device's session ended if it waited before or the
device held it. -/
theorem queued_of_orphaned (queued : (job.orphaned deviceId).state = .queued) :
    job.state = .queued ∨ ∃ active, job.state.lease = some active ∧ active.deviceId = deviceId := by
  by_cases held : ∃ active, job.state.lease = some active ∧ active.deviceId = deviceId
  · exact Or.inr held
  · rw [orphaned_of_elsewhere fun active leased device =>
      held ⟨active, leased, device⟩] at queued
    exact Or.inl queued

theorem orphaned_of_held {active} (leased : job.state.lease = some active)
    (device : active.deviceId = deviceId) :
    job.orphaned deviceId = job.requeued none ∧ job.state = .offered active ∨
      job.orphaned deviceId = job.requeued (some active) ∧ job.state = .running active := by
  unfold Job.orphaned Job.released
  rcases JobState.lease_eq_some_iff.mp leased with offered | running
  · rw [offered]
    dsimp only
    rw [if_pos device]
    exact Or.inl ⟨rfl, rfl⟩
  · rw [running]
    dsimp only
    rw [if_pos device]
    exact Or.inr ⟨rfl, rfl⟩

theorem takesUp_iff {removed jobId active} (leased : job.state.lease = some active)
    (device : active.deviceId = deviceId)
    (found : removed.jobs.get? jobId = some (job.orphaned deviceId)) :
    (∃ recovery ∈ hello.recoveries, TakesUp deviceId jobId removed recovery) ↔
      recoveredBy hello jobId job = true := by
  unfold TakesUp recoverable recoveredBy
  rw [found]
  rcases orphaned_of_held leased device with
    ⟨orphaned, offered⟩ | ⟨orphaned, running⟩
  · rw [orphaned, offered]
    simp [Job.requeued]
  rw [orphaned, running]
  simp only [Job.requeued, Option.bind_some, any_eq_true,
    Bool.and_eq_true, beq_iff_eq, device, true_and, ne_eq]
  constructor
  · rintro ⟨recovery, member, leaseId, sameJob, sameLease, taken⟩
    refine ⟨recovery, member, sameJob, ?_⟩
    by_cases own : active.leaseId = leaseId
    · rw [own]
      exact sameLease
    · rw [if_neg own] at taken
      exact absurd rfl taken
  · rintro ⟨recovery, member, sameJob, sameLease⟩
    refine ⟨recovery, member, active.leaseId, sameJob, sameLease, ?_⟩
    rw [if_pos rfl]
    exact Option.some_ne_none _

theorem termsOf_eraseAgent (state : CoordinatorState) (deviceId tested : DeviceId) :
    termsOf (eraseAgent state deviceId) tested =
      if tested = deviceId then none else termsOf state tested := by
  change ((state.agents.erase deviceId).get? tested).map _ = _
  rw [Table.get?_erase]
  split <;> rfl

/-- A `connect` strands work exactly when the session it replaces held a job
that the greeting does not recover and another agent could take. -/
theorem stranded_connect (sound : Consistent world.state)
    (uncommitted : ∀ jobId job, world.state.jobs.get? jobId = some job →
      world.state.receipts.contains jobId = false)
    (moving : ¬ Stranded world.state)
    (greeted : greet codec config peerFingerprint hello = .ok (deviceId, profileHash))
    (later : Consistent (connect codec config world env peerFingerprint hello sessionId).state) :
    Stranded (connect codec config world env peerFingerprint hello sessionId).state ↔
      ReplacementStrands world.state deviceId hello := by
  obtain ⟨final, reconciled, connected⟩ :=
    @connect_eq codec config world env _ _ sessionId _ _ greeted
  have agents := (size_reconcileRecoveries reconciled).1
  have opened : Consistent (openChannel config world.state) :=
    consistent_of_tables sound rfl rfl rfl
  let removed := removeAgentSession env.activeOrder (openChannel config world.state) deviceId
  have removedJobs : ∀ jobId, removed.jobs.get? jobId =
      (world.state.jobs.get? jobId).map (Job.orphaned deviceId) :=
    jobs_removeAgentSession env.activeOrder deviceId opened
  have removedReceipts : removed.receipts = world.state.receipts := congrArg (fun kept => kept.2.2)
      (stores_removeAgentSession env.activeOrder (openChannel config world.state) deviceId)
  have terms : ∀ tested, termsOf removed tested =
      termsOf (eraseAgent world.state deviceId) tested := by
    intro tested
    exact (fieldOf_removeAgentSession (fun _ _ => rfl) env.activeOrder _ deviceId tested).trans
        (termsOf_eraseAgent world.state deviceId tested).symm
  have takers : ∀ job later, SameRequest job later →
      (HasTaker (registered peerFingerprint hello sessionId deviceId
          profileHash world.state.channels.length final) later ↔
        HasTaker (eraseAgent world.state deviceId) job) := by
    intro job later same
    have absent : removed.agents.get? deviceId = none :=
      absent_removeAgentSession env.activeOrder _ deviceId
    exact (hasTaker_registered absent agents).trans (hasTaker_congr terms same)
  rw [connected] at later ⊢
  constructor
  · rintro ⟨jobId, waiting, job, found, taken⟩
    obtain ⟨_, present, queued⟩ := (later.mem_queue_iff jobId).mp waiting
    rw [found, Option.some.injEq] at present
    subst present
    obtain ⟨change, untaken, taking⟩ := @jobs_reconcileRecoveries _ _ _ _ jobId _ _ _ _ reconciled
    have still : ¬ Runs final.state jobId := by
      rintro ⟨_, active, present, running⟩
      have same : some job = some _ := found.symm.trans present
      cases same
      rw [queued] at running
      cases running
    have unchanged := change.resolve_right still
    have orphan := unchanged.symm.trans found
    rw [removedJobs, Option.map_eq_some_iff] at orphan
    obtain ⟨before, held, rfl⟩ := orphan
    have takes := (takers before _ (sameRequest_released _ before)).mp taken
    rcases queued_of_orphaned queued with waited | ⟨active, leased, device⟩
    · refine absurd ⟨jobId, (sound.mem_queue_iff jobId).mpr
        ⟨before, held, waited⟩, before, held, ?_⟩ moving
      obtain ⟨tested, agent, kept, admitted⟩ := takes
      unfold eraseAgent at kept
      rw [Table.get?_erase] at kept
      split at kept
      · cases kept
      · exact ⟨tested, agent, kept, admitted⟩
    · refine ⟨jobId, before, held, ⟨active, leased, device⟩, ?_, takes⟩
      by_contra recovered
      rw [Bool.not_eq_false] at recovered
      have present : removed.jobs.get? jobId = some (before.orphaned deviceId) := by
        rw [removedJobs, held, Option.map_some]
      apply still
      apply taking ((takesUp_iff leased device present).mpr recovered)
      rw [removedReceipts]
      exact uncommitted jobId before held
  · rintro ⟨jobId, job, held, ⟨active, leased, device⟩, unrecovered, taken⟩
    have present : removed.jobs.get? jobId = some (job.orphaned deviceId) := by
      rw [removedJobs, held, Option.map_some]
    obtain ⟨_, untaken, _⟩ := @jobs_reconcileRecoveries _ _ _ _ jobId _ _ _ _ reconciled
    have kept : final.state.jobs.get? jobId = some (job.orphaned deviceId) := by
      refine (untaken fun recovery member takes => ?_).trans present
      have recovered := (takesUp_iff leased device present).mp ⟨recovery, member, takes⟩
      rw [unrecovered] at recovered
      cases recovered
    have queued : (job.orphaned deviceId).state = .queued := by
      rcases orphaned_of_held leased device with ⟨orphaned, _⟩ | ⟨orphaned, _⟩
      · rw [orphaned]
        rfl
      · rw [orphaned]
        rfl
    exact ⟨jobId, (later.mem_queue_iff jobId).mpr ⟨_, kept, queued⟩, _, kept,
      (takers job _ (sameRequest_released _ job)).mpr taken⟩

end Replacement

section Operations

variable (codec : Codec) (config : CoordinatorConfig)

/-- The session is the device's own and its event is valid. -/
def acceptsEvent (env : Surroundings) (state : CoordinatorState)
    (stream : ControlStream) (event : Option AgentEvent) : Bool :=
  (state.agents.get? stream.1).any fun agent =>
    decide (agent.sessionId = stream.2) &&
    (applyEvent config env state stream.1 stream.2 agent event).toBool

/-- A submission or an event that is refused expires no lease of a job with a
taker, and a session that is replaced leaves none behind. -/
def safeExit (world : World) : Operation → Bool
  | .enqueue env submission requestNonce =>
    let expired := expireLeases env.jobOrder world.state env.expiryNow
    (validateSubmission config submission).toBool = false ||
    (admitJob codec config env expired submission requestNonce).toBool ||
    !decide (ExpiryStrands world.state env.expiryNow)
  | .event env stream event =>
    let expired := expireLeases env.jobOrder world.state env.expiryNow
    acceptsEvent config env expired stream event ||
    !decide (ExpiryStrands world.state env.expiryNow)
  | .connect _ peerFingerprint hello _ =>
    match greet codec config peerFingerprint hello with
    | .error _ => true
    | .ok (deviceId, _) => !decide (ReplacementStrands world.state deviceId hello)
  | .cancel _ | .welcome _ | .streamEnd _ | .disconnect _ _
  | .submit _ _ _ _ | .reap _ | .drain | .receive _ | .hangUp _ => true

def SafeExit (world : World) (operation : Operation) : Prop :=
  safeExit codec config world operation = true

end Operations

section Steps

variable {codec : Codec} {config : CoordinatorConfig} {world next : World}
  {operation : Operation} {env : Surroundings}
  {state later : CoordinatorState}

theorem moving_of_schedule {order draws}
    (scheduled : schedule config order draws state = some later) :
    ¬ Stranded later := by
  rw [stranded_iff, not_not]
  exact findAssignment_of_schedule scheduled

theorem moving_enqueue {submission requestNonce} (sound : Consistent world.state)
    (moving : ¬ Stranded world.state)
    (left : (enqueueEntry codec config env world.state submission
      requestNonce).Leaves config later) :
    ¬ Stranded later ↔ SafeExit codec config world (.enqueue env submission requestNonce) := by
  unfold SafeExit safeExit
  unfold enqueueEntry at left
  dsimp only at left ⊢
  cases valid : validateSubmission config submission with
  | error failure =>
    rw [valid] at left
    cases left
    simpa [Except.toBool] using moving
  | ok =>
    rw [valid] at left
    cases admitted : admitJob codec config env (expireLeases env.jobOrder world.state
          env.expiryNow) submission requestNonce with
    | error failure =>
      rw [admitted] at left
      cases left
      rw [stranded_expireLeases sound moving]
      simp [Except.toBool]
    | ok accepted =>
      rw [admitted] at left
      have moves := moving_of_schedule left
      simpa [Except.toBool] using moves

theorem moving_event {stream event} (sound : Consistent world.state)
    (moving : ¬ Stranded world.state)
    (left : (eventEntry config env world.state stream.1 stream.2 event).Leaves config later) :
    ¬ Stranded later ↔ SafeExit codec config world (.event env stream event) := by
  unfold SafeExit safeExit acceptsEvent
  unfold eventEntry at left
  dsimp only at left ⊢
  have refused : later = expireLeases env.jobOrder world.state env.expiryNow →
        (¬ Stranded later ↔ decide (ExpiryStrands world.state env.expiryNow) = false) := by
    rintro rfl
    rw [stranded_expireLeases sound moving, decide_eq_false_iff_not]
  split at left
  · next absent =>
    rw [refused left, absent]
    simp
  next agent connected =>
  rw [connected, Option.any_some]
  split at left
  · next superseded =>
    rw [refused left, decide_eq_false superseded]
    simp
  next current =>
  rw [not_not] at current
  rw [decide_eq_true current]
  split at left
  · next failure invalid =>
    rw [refused left, invalid]
    simp [Except.toBool]
  · next applied accepted =>
    rw [accepted]
    have moves := moving_of_schedule left
    simpa [Except.toBool] using moves

theorem moving_drainAgents (moving : ¬ Stranded state) : ¬ Stranded (drainAgents state) := by
  unfold drainAgents
  induction state.agents.sortedKeys generalizing state with
  | nil => exact moving
  | cons deviceId devices ih =>
    apply ih
    unfold drainAgent
    split
    · exact moving
    rintro ⟨jobId, waiting, job, found, tested, agent, connected, admitted⟩
    rw [Table.get?_insert] at connected
    split at connected
    · cases connected
      have credit := (credit_of_agentMatches admitted).1
      exact absurd credit (Nat.lt_irrefl 0)
    · exact moving ⟨jobId, waiting, job, found, tested, agent, connected, admitted⟩

theorem moving_cancelJob (sound : Consistent state) {jobId} (moving : ¬ Stranded state) :
    ¬ Stranded (cancelJob state jobId) := by
  intro stranded
  apply moving
  cases found : state.jobs.get? jobId with
  | none =>
    unfold cancelJob at stranded
    dsimp only at stranded
    rw [found] at stranded
    exact stranded_of_fewer stranded (fun _ waiting => mem_of_mem_erase waiting)
      (fun _ _ present => present) (fieldOf_same_agents rfl)
  | some job =>
    obtain ⟨artifacts, bytes, channels, agents, cancelled, notified⟩ :=
      cancelJob_eq sound found
    rw [cancelled] at stranded
    apply stranded_of_fewer stranded
    · intro tested waiting
      exact mem_of_mem_erase waiting
    · intro tested other present
      rw [Table.get?_erase] at present
      split at present
      · cases present
      · exact present
    · rcases notified with ⟨_, same⟩ | ⟨active, agent, _, connected, same⟩
      · exact fieldOf_same_agents same
      · exact fieldOf_insert_same connected same rfl

theorem moving_submit {write peerFingerprint request} (moving : ¬ Stranded state)
    (left : (submitEntry codec config env write state
      peerFingerprint request).Leaves config later) : ¬ Stranded later := by
  have unrecorded : ∀ receipts, later = { state with receipts } → ¬ Stranded later := by
    rintro receipts rfl stranded
    exact moving (stranded_of_same stranded rfl rfl rfl)
  unfold submitEntry at left
  split at left
  · exact unrecorded _ left
  split at left
  · exact unrecorded _ left
  split at left
  · exact unrecorded _ left
  · exact unrecorded _ left
  unfold commitEntry at left
  dsimp only at left
  split at left
  · exact unrecorded _ left
  split at left
  · exact unrecorded _ left
  split at left
  · exact unrecorded _ left
  · exact unrecorded _ left
  · exact unrecorded _ left
  · exact moving_of_schedule left

theorem moving_welcome {stream} (moving : ¬ Stranded world.state) :
    ¬ Stranded (sendWelcome world stream).state := by
  unfold sendWelcome
  split
  · exact moving
  dsimp only
  split
  · exact fun stranded => moving (stranded_of_same stranded rfl rfl rfl)
  · exact fun stranded => moving (stranded_of_same stranded rfl rfl rfl)

/-- A step that starts with no stranded work leaves some exactly when its exit
is not safe. -/
theorem moving_of_step (inv : WorldInvariant world)
    (history : History codec world) (moving : ¬ Stranded world.state)
    (step : (coordinatorSystem codec config).step world operation next) :
    ¬ Stranded next.state ↔ SafeExit codec config world operation := by
  have sound := inv.consistent
  have after := (worldInvariant_step inv step).consistent
  obtain ⟨enabled, ran, succeeded, rfl⟩ := step
  have left := leaves_perform succeeded
  change ¬ Stranded ran.state ↔ _
  cases operation with
  | enqueue env submission requestNonce => exact moving_enqueue sound moving left
  | event env stream event => exact moving_event sound moving left
  | connect env peerFingerprint hello sessionId =>
    have uncommitted : ∀ jobId job, world.state.jobs.get? jobId = some job →
        world.state.receipts.contains jobId = false := by
      intro jobId job found
      by_contra committed
      have gone := history.requests.disjoint jobId (by simpa using committed)
      rw [found] at gone
      cases gone
    cases succeeded
    unfold SafeExit safeExit
    dsimp only
    cases greeted : greet codec config peerFingerprint hello with
    | error status =>
      unfold connect
      rw [greeted]
      simpa using moving
    | ok greeting =>
      rw [stranded_connect sound uncommitted moving greeted after]
      simp
  | cancel jobId =>
    cases succeeded
    exact iff_of_true (moving_cancelJob sound moving) rfl
  | welcome stream =>
    cases succeeded
    exact iff_of_true (moving_welcome moving) rfl
  | streamEnd stream =>
    cases succeeded
    exact iff_of_true moving rfl
  | disconnect env stream =>
    refine iff_of_true ?_ rfl
    change (disconnectEntry env world.state stream.1 stream.2).Leaves config ran.state at left
    unfold disconnectEntry at left
    split at left
    · rw [left]
      exact moving
    split at left
    · rw [left]
      exact moving
    · exact moving_of_schedule left
  | submit env write peerFingerprint request => exact iff_of_true (moving_submit moving left) rfl
  | reap env => exact iff_of_true (moving_of_schedule left) rfl
  | drain =>
    cases succeeded
    exact iff_of_true (moving_drainAgents moving) rfl
  | receive channel | hangUp channel =>
    cases succeeded
    exact iff_of_true (fun stranded => moving (stranded_of_same stranded rfl rfl rfl)) rfl

/-- In every run whose steps all exit safely, no queued job is left while a
connected agent with free credit is eligible for it. -/
theorem moving_of_reachable (reachable : ((coordinatorSystem codec config).guarded
      (SafeExit codec config)).Reachable world) :
    ∀ jobId ∈ world.state.queue, ∀ job deviceId agent,
      world.state.jobs.get? jobId = some job →
      world.state.agents.get? deviceId = some agent → agentMatches agent job = false := by
  have good : (WorldInvariant world ∧ History codec world) ∧ ¬ Stranded world.state := by
    apply reachable.invariant
    · rintro start ⟨content, receipts, _, rfl⟩
      refine ⟨⟨worldInvariant_initial receipts, history_initial codec receipts⟩, ?_⟩
      rintro ⟨jobId, ⟨⟩, _⟩
    · rintro state operation next ⟨⟨inv, history⟩, moving⟩ ⟨safe, step⟩
      exact ⟨⟨worldInvariant_step inv step, history_of_step inv history step⟩,
        (moving_of_step inv history moving step).mpr safe⟩
  intro jobId waiting job deviceId agent found connected
  by_contra admitted
  rw [Bool.not_eq_false] at admitted
  exact good.2 ⟨jobId, waiting, job, found, deviceId, agent, connected, admitted⟩

end Steps

namespace Sample

def otherDevice : DeviceId := Id.filled .device 0x22
def otherSession : SessionId := Id.filled .session 0x13

def fleet : CoordinatorConfig :=
  { config with enrollment := .insecureForTests [device, otherDevice] }

/-- The job waits for an agent with credit. -/
def waiting : List Operation :=
  [.enqueue (at_ 0 []) submission nonce, .connect (at_ 1 []) none (hello target []) session,
    .welcome (device, session)]

/-- The device is offered the job, another device has credit, and the first
one connects anew. -/
def reconnected : List Operation :=
  waiting ++ [.event (at_ 2 [(lease, 2)]) (device, session) (some (.ready ⟨session.toVec, 1⟩)),
      .connect (at_ 3 []) none { hello target [] with deviceId := otherDevice.toVec } otherSession,
      .welcome (otherDevice, otherSession),
      .event (at_ 4 []) (otherDevice, otherSession) (some (.ready ⟨otherSession.toVec, 1⟩)),
      .connect (at_ 5 []) none (hello target []) laterSession]

end Sample

theorem moving_while_waiting : ∃ world : World, world.state.queue = [Sample.job] ∧
      world.state.agents.size = 1 ∧
      ∀ jobId ∈ world.state.queue, ∀ job deviceId agent,
        world.state.jobs.get? jobId = some job →
        world.state.agents.get? deviceId = some agent → agentMatches agent job = false := by
  have followed : (followGuarded Sample.codec Sample.config
      (safeExit Sample.codec Sample.config) Sample.waiting
        Sample.start).isSome = true := by decide +kernel
  have waits : (followGuarded Sample.codec Sample.config
      (safeExit Sample.codec Sample.config) Sample.waiting Sample.start).map (fun world =>
          (world.state.queue, world.state.agents.size)) = some ([Sample.job], 1) := by
    decide +kernel
  obtain ⟨world, reached⟩ := Option.isSome_iff_exists.mp followed
  rw [reached, Option.map_some, Option.some.injEq, Prod.mk.injEq] at waits
  have reachable : ((coordinatorSystem Sample.codec Sample.config).guarded
      (SafeExit Sample.codec Sample.config)).Reachable world :=
    ⟨Sample.start, ⟨[], .memory 4096 ∅, rfl, rfl⟩, _, run_of_followGuarded reached⟩
  exact ⟨world, waits.1, waits.2, moving_of_reachable reachable⟩

/-- The `connect` that replaces the session requeues its job and offers it to
nobody, although the other device has credit for it. -/
theorem stranded_after_reconnected :
    ∃ world, (coordinatorSystem Sample.codec Sample.fleet).Reachable world ∧
      Stranded world.state := by
  have strands : (follow Sample.codec Sample.fleet Sample.reconnected
      Sample.start).any (fun world => decide (Stranded world.state)) =
        true := by
    decide +kernel
  rw [Option.any_eq_true] at strands
  obtain ⟨world, followed, stranded⟩ := strands
  exact ⟨world, ⟨Sample.start, ⟨[], .memory 4096 ∅, rfl, rfl⟩, _,
    run_of_follow followed⟩, of_decide_eq_true stranded⟩

end GraphZero.Measure
