import GraphZero.Measure.JobTables
import GraphZero.Measure.Sessions

/-!
# The profile a report was measured on

A lease is offered to an agent of the targeted profile only, but a recovery
binds it to whatever session the device has opened since.  Where every
`connect` announces the profile that the jobs it recovers target, every
committed report names the profile its job targets.
-/

namespace GraphZero.Measure

open Foundation Wire

abbrev Job.target (job : Job) : DeviceProfileHash :=
  job.submission.targetDeviceProfileHash

abbrev profileOf (state : CoordinatorState) (deviceId : DeviceId) : Option DeviceProfileHash :=
  fieldOf AgentSession.profileHash state deviceId

/-- Every leased job targets the profile of the agent that holds it. -/
def Targeted (state : CoordinatorState) : Prop :=
  ∀ jobId job active, state.jobs.get? jobId = some job → job.state.lease = some active →
      profileOf state active.deviceId = some job.target

/-! ## Jobs a device may recover -/

/-- The job runs on the device under this lease, or did when its session
ended. -/
def recoverableBy (job : Job) (deviceId : DeviceId) (leaseId : LeaseId) : Bool :=
  let named := fun active : ActiveLease =>
    decide (active.deviceId = deviceId ∧ active.leaseId = leaseId)
  (match job.state with
    | .running active => named active
    | .queued | .offered _ => false) ||
  job.recovery.any named

theorem recoverableBy_eq_true_iff {job deviceId leaseId} :
    recoverableBy job deviceId leaseId = true ↔
      ∃ active, (job.state = .running active ∨ job.recovery = some active) ∧
        active.deviceId = deviceId ∧ active.leaseId = leaseId := by
  unfold recoverableBy
  cases state : job.state with
  | queued => simp [Option.any_eq_true]
  | offered active => simp [Option.any_eq_true]
  | running active => simp [Option.any_eq_true, or_and_right, exists_or]

/-- The `connect` announces the profile that the jobs it recovers target. -/
def safeRecovery (codec : Codec) (config : CoordinatorConfig) (world : World) : Operation → Bool
  | .connect _ peerFingerprint hello _ =>
    match greet codec config peerFingerprint hello with
    | .error _ => true
    | .ok (deviceId, profileHash) =>
      hello.recoveries.all fun recovery =>
        match Id.fromSlice recovery.jobId,
          Id.fromSlice recovery.leaseId with
        | .ok jobId, .ok leaseId =>
          (world.state.jobs.get? jobId).all fun job =>
            !recoverableBy job deviceId leaseId || decide (job.target = profileHash)
        | _, _ => true
  | _ => true

def SafeRecovery (codec : Codec) (config : CoordinatorConfig) (world : World)
    (operation : Operation) : Prop :=
  safeRecovery codec config world operation = true

instance (codec : Codec) (config : CoordinatorConfig) (world : World) (operation : Operation) :
    Decidable (SafeRecovery codec config world operation) :=
  inferInstanceAs (Decidable (safeRecovery codec config world operation = true))

variable {profileHash : DeviceProfileHash}

theorem target_of_safeRecovery
    {codec config world env peerFingerprint hello sessionId deviceId recovery jobId leaseId job}
    (safe : SafeRecovery codec config world (.connect env peerFingerprint hello sessionId))
    (greeted : greet codec config peerFingerprint hello = .ok (deviceId, profileHash))
    (named : recovery ∈ hello.recoveries) (sameJob : recovery.jobId = jobId.toVec)
    (sameLease : recovery.leaseId = leaseId.toVec) (found : world.state.jobs.get? jobId = some job)
    (recovers : recoverableBy job deviceId leaseId = true) :
    job.target = profileHash := by
  unfold SafeRecovery safeRecovery at safe
  dsimp only at safe
  rw [greeted] at safe
  have here := List.all_eq_true.mp safe recovery named
  rw [Id.fromSlice_eq_ok_iff.mpr sameJob, Id.fromSlice_eq_ok_iff.mpr sameLease] at here
  simpa [found, recovers] using here

def MayRecover (state : CoordinatorState) (jobId : JobId)
    (deviceId : DeviceId) (leaseId : LeaseId) (target : DeviceProfileHash) :
    Prop :=
  ∃ job, state.jobs.get? jobId = some job ∧
    recoverableBy job deviceId leaseId = true ∧ job.target = target

section Updates

variable {state next : CoordinatorState} {change : Change} {jobId : JobId}
  {deviceId : DeviceId} {leaseId : LeaseId} {target : DeviceProfileHash}

theorem MayRecover.of_insert {changed job moved recovery}
    (found : state.jobs.get? changed = some job)
    (jobs : next.jobs = state.jobs.insert changed { job with state := moved, recovery })
    (fewer : ∀ active, moved = .running active ∨ recovery = some active →
      ∃ earlier, (job.state = .running earlier ∨ job.recovery = some earlier) ∧
          earlier.deviceId = active.deviceId ∧ earlier.leaseId = active.leaseId)
    (recovers : MayRecover next jobId deviceId leaseId target) :
    MayRecover state jobId deviceId leaseId target := by
  obtain ⟨later, laterFound, recoverable, sameTarget⟩ := recovers
  rw [jobs, Table.get?_insert] at laterFound
  by_cases here : jobId = changed
  · rw [if_pos here, Option.some.injEq] at laterFound
    subst laterFound
    obtain ⟨active, lease, device, identity⟩ := recoverableBy_eq_true_iff.mp recoverable
    obtain ⟨earlier, held, sameDevice, sameLease⟩ := fewer active lease
    have before : recoverableBy job deviceId leaseId = true :=
      recoverableBy_eq_true_iff.mpr ⟨earlier, held,
        sameDevice.trans device, sameLease.trans identity⟩
    exact ⟨job, here ▸ found, before, sameTarget⟩
  · rw [if_neg here] at laterFound
    exact ⟨later, laterFound, recoverable, sameTarget⟩

theorem MayRecover.of_erase {erased} (jobs : next.jobs = state.jobs.erase erased)
    (recovers : MayRecover next jobId deviceId leaseId target) :
    MayRecover state jobId deviceId leaseId target := by
  obtain ⟨job, found, recoverable, sameTarget⟩ := recovers
  rw [jobs, Table.get?_erase] at found
  by_cases here : jobId = erased
  · rw [if_pos here] at found
    cases found
  · rw [if_neg here] at found
    exact ⟨job, found, recoverable, sameTarget⟩

theorem mayRecover_of_update (update : Update state change next) (sound : Consistent state)
    (unrenewed : ∀ jobId, change ≠ .renewed jobId)
    (recovers : MayRecover next jobId deviceId leaseId target) :
    MayRecover state jobId deviceId leaseId target := by
  cases update with
  | enqueue unknown uncommitted queued unrecoverable requester =>
    rename_i enqueuedId job artifacts artifactBytes
    obtain ⟨later, found, recoverable, sameTarget⟩ := recovers
    simp only [Table.get?_insert] at found
    by_cases here : jobId = enqueuedId
    · rw [if_pos here, Option.some.injEq] at found
      subst found
      obtain ⟨active, lease, _⟩ := recoverableBy_eq_true_iff.mp recoverable
      rw [queued, unrecoverable] at lease
      simp at lease
    · rw [if_neg here] at found
      exact ⟨later, found, recoverable, sameTarget⟩
  | offer waiting found connected admitted session fresh =>
    refine recovers.of_insert found rfl ?_
    intro active lease
    simp at lease
  | requeue found leased accepted =>
    rename_i requeuedId job active preserveForRecovery
    obtain ⟨agent, connected, requeued⟩ :=
      requeueActive_eq sound found leased preserveForRecovery
    have jobs := congrArg CoordinatorState.jobs requeued
    refine recovers.of_insert found jobs ?_
    intro kept lease
    cases preserveForRecovery with
    | false => simp at lease
    | true =>
      have same : active = kept := by simpa using lease
      exact ⟨active, Or.inl (accepted rfl), congrArg _ same, congrArg _ same⟩
  | renew found leased => exact absurd rfl (unrenewed _)
  | rebind found recovered connected =>
    rename_i reboundId job agent active deadline
    refine recovers.of_insert found rfl ?_
    intro kept lease
    have same : { active with
        currentSessionId := agent.sessionId, deadline } = kept := by
      simpa using lease
    subst same
    exact ⟨active, Or.inr recovered, rfl, rfl⟩
  | connect absent idle => exact recovers
  | disconnect connected idle => exact recovers
  | credit connected => exact recovers
  | cancel found =>
    obtain ⟨artifacts, bytes, channels, agents, cancelled, _⟩ := cancelJob_eq sound found
    exact recovers.of_erase (congrArg CoordinatorState.jobs cancelled)
  | settle found running connected recorded =>
    rename_i settledId job active agent report receipts digest
    obtain ⟨artifacts, bytes, replies, settled, _⟩ := settleJob_eq job
      settledId (connected : { state with receipts }.agents.get? _ = _) report
    exact recovers.of_erase (congrArg CoordinatorState.jobs settled)
  | communicate recorded => exact recovers

/-! ## Leased jobs -/

section

variable (targeted : Targeted state)
  (profiles : ∀ deviceId, profileOf next deviceId = profileOf state deviceId)
include targeted profiles

theorem Targeted.of_views (leased : ∀ jobId later active, next.jobs.get? jobId = some later →
      later.state.lease = some active → ∃ job earlier, state.jobs.get? jobId = some job ∧
          job.state.lease = some earlier ∧
          earlier.deviceId = active.deviceId ∧ later.target = job.target) :
    Targeted next := by
  intro jobId later active found lease
  obtain ⟨job, earlier, before, earlierLease, device, target⟩ :=
    leased jobId later active found lease
  rw [profiles, ← device, target]
  exact targeted jobId job earlier before earlierLease

theorem Targeted.of_same_jobs (jobs : next.jobs = state.jobs) : Targeted next := by
  apply targeted.of_views profiles
  intro jobId later active found lease
  rw [jobs] at found
  exact ⟨later, active, found, lease, rfl, rfl⟩

end

theorem Targeted.of_erase {erased} (targeted : Targeted state)
    (profiles : ∀ deviceId, profileOf next deviceId = profileOf state deviceId)
    (jobs : next.jobs = state.jobs.erase erased) : Targeted next := by
  apply targeted.of_views profiles
  intro jobId later active found lease
  rw [jobs, Table.get?_erase] at found
  by_cases here : jobId = erased
  · rw [if_pos here] at found
    cases found
  · rw [if_neg here] at found
    exact ⟨later, active, found, lease, rfl, rfl⟩

theorem Targeted.of_insert {changed rewritten} (targeted : Targeted state)
    (profiles : ∀ deviceId, profileOf next deviceId = profileOf state deviceId)
    (jobs : next.jobs = state.jobs.insert changed rewritten)
    (matched : ∀ active, rewritten.state.lease = some active →
      profileOf state active.deviceId = some rewritten.target) :
    Targeted next := by
  intro jobId later active found lease
  rw [profiles]
  rw [jobs, Table.get?_insert] at found
  by_cases here : jobId = changed
  · rw [if_pos here, Option.some.injEq] at found
    subst found
    exact matched active lease
  · rw [if_neg here] at found
    exact targeted jobId later active found lease

variable {agent : AgentSession}

theorem profile_of_agentMatches {job} (matched : agentMatches agent job = true) :
    agent.profileHash = job.target := by
  unfold agentMatches at matched
  simp only [Bool.and_eq_true, beq_iff_eq] at matched
  exact matched.1.2

theorem targeted_connect (targeted : Targeted state) (absent : state.agents.get? deviceId = none) :
    Targeted { state with
      agents := state.agents.insert deviceId agent } := by
  intro jobId job active found lease
  have before := targeted jobId job active found lease
  have different : active.deviceId ≠ deviceId := by
    intro same
    rw [profileOf, fieldOf, same, absent] at before
    cases before
  rw [← before]
  unfold profileOf fieldOf
  rw [Table.get?_insert_of_ne different]

theorem targeted_disconnect (sound : Consistent state) (targeted : Targeted state)
    (connected : state.agents.get? deviceId = some agent)
    (idle : ∀ jobId, agent.active.get? jobId = none) :
    Targeted { state with agents := state.agents.erase deviceId } := by
  intro jobId job active found lease
  have different : active.deviceId ≠ deviceId := by
    intro same
    obtain ⟨holder, held, _, entry⟩ := sound.holder ((leaseOf_of_get? found).trans lease)
    rw [same, connected] at held
    cases held
    rw [idle] at entry
    cases entry
  rw [← targeted jobId job active found lease]
  unfold profileOf fieldOf
  rw [Table.get?_erase_of_ne different]

theorem targeted_of_update (update : Update state change next)
    (sound : Consistent state) (targeted : Targeted state)
    (bound : ∀ jobId deviceId leaseId profileHash job,
      change = .rebound jobId deviceId leaseId profileHash →
      state.jobs.get? jobId = some job →
      recoverableBy job deviceId leaseId = true → profileHash = job.target) :
    Targeted next := by
  have profiles : (∀ sessionId, change ≠ .connected sessionId) →
      (∀ deviceId, change ≠ .disconnected deviceId) →
        ∀ deviceId, profileOf next deviceId = profileOf state deviceId :=
    fun unconnected undisconnected => fieldOf_of_update update sound
      unconnected undisconnected fun _ _ _ _ => rfl
  cases update with
  | enqueue unknown uncommitted queued unrecoverable requester =>
    refine targeted.of_insert (profiles (by simp) (by simp)) rfl ?_
    intro active lease
    rw [queued] at lease
    cases lease
  | offer waiting found connected admitted session fresh =>
    rename_i offeredId job agent active channels
    refine targeted.of_insert (profiles (by simp) (by simp)) rfl ?_
    intro lease leased
    cases leased
    have profile : agent.profileHash = job.target := profile_of_agentMatches admitted
    rw [profileOf, fieldOf_of_get? connected, profile]
  | requeue found leased accepted =>
    obtain ⟨agent, connected, requeued⟩ := requeueActive_eq sound found leased _
    have jobs := congrArg CoordinatorState.jobs requeued
    refine targeted.of_insert (profiles (by simp) (by simp)) jobs ?_
    intro lease leased
    cases leased
  | renew found leased =>
    refine targeted.of_insert (profiles (by simp) (by simp)) rfl ?_
    intro lease renewed
    cases renewed
    have before := targeted _ _ _ found leased
    exact before
  | rebind found recovered connected =>
    rename_i reboundId job agent active deadline
    refine targeted.of_insert (profiles (by simp) (by simp)) rfl ?_
    intro lease rebound
    cases rebound
    have recoverable : recoverableBy job active.deviceId active.leaseId = true :=
      recoverableBy_eq_true_iff.mpr ⟨active, Or.inr recovered, rfl, rfl⟩
    have profile : agent.profileHash = job.target := bound reboundId _ _ _ job rfl found recoverable
    rw [profileOf, fieldOf_of_get? connected, profile]
  | connect absent idle => exact targeted_connect targeted absent
  | disconnect connected idle => exact targeted_disconnect sound targeted connected idle
  | credit connected => exact targeted.of_same_jobs (profiles (by simp) (by simp)) rfl
  | cancel found =>
    obtain ⟨artifacts, bytes, channels, agents, cancelled, _⟩ := cancelJob_eq sound found
    have jobs := congrArg CoordinatorState.jobs cancelled
    exact targeted.of_erase (profiles (by simp) (by simp)) jobs
  | settle found running connected recorded =>
    rename_i settledId job active agent report receipts digest
    obtain ⟨artifacts, bytes, replies, settled, _⟩ := settleJob_eq job
      settledId (connected : { state with receipts }.agents.get? _ = _) report
    have jobs := congrArg CoordinatorState.jobs settled
    exact targeted.of_erase (profiles (by simp) (by simp)) jobs
  | communicate recorded => exact targeted.of_same_jobs (profiles (by simp) (by simp)) rfl

end Updates

section Runs

variable {codec : Codec} {config : CoordinatorConfig} {world next : World}
  {operation : Operation}

theorem connect_of_rebound {jobId deviceId leaseId}
    (permitted : Change.Of operation (.rebound jobId deviceId leaseId profileHash)) :
    ∃ env peerFingerprint hello sessionId,
      operation = .connect env peerFingerprint hello sessionId := by
  cases permitted with
  | scheduling scheduled =>
    cases scheduled with
    | ending ends => cases ends
  | rebound named job lease device => exact ⟨_, _, _, _, rfl⟩

variable {env : Surroundings}
  {peerFingerprint : Option CertificateFingerprint} {hello : AgentHello}
  {sessionId : SessionId}

theorem recovery_of_rebound {jobId deviceId leaseId}
    (permitted : Change.Of (.connect env peerFingerprint hello sessionId)
        (.rebound jobId deviceId leaseId profileHash)) :
    hello.deviceId = deviceId.toVec ∧ ∃ recovery ∈ hello.recoveries, recovery.jobId = jobId.toVec ∧
        recovery.leaseId = leaseId.toVec := by
  cases permitted with
  | scheduling scheduled =>
    cases scheduled with
    | ending ends => cases ends
  | rebound named job lease device => exact ⟨device, _, named, job, lease⟩

theorem not_renewed_of_connect (jobId : JobId) :
    ¬ Change.Of (.connect env peerFingerprint hello sessionId) (.renewed jobId) := by
  intro permitted
  cases permitted with
  | scheduling scheduled =>
    cases scheduled with
    | ending ends => cases ends

/-- Leased jobs are on target, and the device may recover nothing it could not
recover at the start. -/
structure TargetedSince (start : CoordinatorState) (deviceId : DeviceId)
    (state : CoordinatorState) : Prop where
  targeted : Targeted state
  recovers : ∀ jobId leaseId target,
    MayRecover state jobId deviceId leaseId target → MayRecover start jobId deviceId leaseId target

theorem targeted_of_connect (sound : Consistent world.state) (targeted : Targeted world.state)
    (safe : SafeRecovery codec config world (.connect env peerFingerprint hello sessionId)) :
    Targeted (connect codec config world env peerFingerprint hello sessionId).state := by
  unfold connect
  split
  · exact targeted
  next deviceId profileHash greeted =>
  obtain ⟨command, succeeded, updates⟩ : ∃ command, _ = _ ∧ UpdatesWithin (Change.Greeting
        (.connect env peerFingerprint hello sessionId) profileHash) _ _ :=
    updates_register sound greeted
  obtain ⟨_, device, _⟩ := greet_eq_ok greeted
  have start : TargetedSince world.state deviceId world.state :=
    ⟨targeted, fun _ _ _ recovers => recovers⟩
  have good : TargetedSince world.state deviceId
      (register config env world.state peerFingerprint hello sessionId deviceId profileHash).1 := by
    -- Along the updates nothing becomes recoverable that was not before,
    -- so the guard on the first state speaks about every recovery.
    apply updates.invariant _ sound start
    intro state change later current before greeting update
    obtain ⟨permitted, profile⟩ := greeting
    refine ⟨targeted_of_update update current before.targeted ?_, ?_⟩
    · intro jobId named leaseId bound job same found recovers
      subst same
      have announced := profile jobId named leaseId bound rfl
      obtain ⟨namedDevice, recovery, member, sameJob, sameLease⟩ :=
        recovery_of_rebound permitted
      have here : named = deviceId := Id.toVec_injective (namedDevice.symm.trans device)
      subst here
      obtain ⟨first, firstFound, firstRecovers, sameTarget⟩ :=
        before.recovers jobId leaseId job.target ⟨job, found, recovers, rfl⟩
      have target := target_of_safeRecovery safe greeted member sameJob
        sameLease firstFound firstRecovers
      rw [announced, ← target, sameTarget]
    · intro jobId leaseId target recovers
      have unrenewed : ∀ jobId, change ≠ .renewed jobId := by
        intro renewed same
        subst same
        exact not_renewed_of_connect renewed permitted
      exact before.recovers jobId leaseId target
        (mayRecover_of_update update current unrenewed recovers)
  split
  · next state failure refused =>
    rw [refused] at succeeded
    cases succeeded
  · next state answer accepted =>
    rw [accepted] at good
    exact good.targeted

theorem targeted_of_step (inv : WorldInvariant world) (targeted : Targeted world.state)
    (safe : SafeRecovery codec config world operation)
    (step : (coordinatorSystem codec config).step world operation next) :
    Targeted next.state := by
  by_cases connects : ∃ env peerFingerprint hello sessionId,
      operation = .connect env peerFingerprint hello sessionId
  · obtain ⟨env, peerFingerprint, hello, sessionId, rfl⟩ := connects
    obtain ⟨_, ran, succeeded, rfl⟩ := step
    cases succeeded
    exact targeted_of_connect inv.consistent targeted safe
  · apply (inv.updates step).invariant _ inv.consistent targeted
    intro state change later sound before permitted update
    apply targeted_of_update update sound before
    intro jobId deviceId leaseId profileHash job same found recovers
    subst same
    exact absurd (connect_of_rebound permitted) connects

def OnTarget (record : CommitRecord) : Prop :=
  record.report.deviceProfileHash = record.job.target.toVec

instance (record : CommitRecord) : Decidable (OnTarget record) :=
  inferInstanceAs (Decidable (_ = _))

theorem onTarget_of_committable {record active agent} (targeted : Targeted world.state)
    (committable : Committable world.state record active agent) :
    OnTarget record := by
  have leased : record.job.state.lease = some active := by
    rw [committable.running, JobState.lease_running]
  have profile := targeted record.jobId record.job active committable.found leased
  rw [profileOf, fieldOf_of_get? committable.connected, Option.some.injEq] at profile
  rw [OnTarget, committable.profile, profile]

/-- In every run whose `connect`s announce the profile that the jobs they
recover target, every committed report was measured on its job's target. -/
theorem committed_onTarget (reachable : ((coordinatorSystem codec config).guarded
      (SafeRecovery codec config)).Reachable world) :
    ∀ record ∈ world.committed, OnTarget record := by
  have good : WorldInvariant world ∧ Targeted world.state ∧
      ∀ record ∈ world.committed, OnTarget record := by
    apply reachable.invariant
    · rintro start ⟨content, receipts, _, rfl⟩
      refine ⟨worldInvariant_initial receipts, ?_, ?_⟩
      · intro jobId job active found
        cases found
      · intro record member
        cases member
    · rintro state operation later ⟨inv, targeted, onTarget⟩ ⟨safe, step⟩
      refine ⟨worldInvariant_step inv step, targeted_of_step inv targeted safe step, ?_⟩
      rcases commits_of_step inv step with quiet | ⟨record, commit⟩
      · rw [quiet.committed]
        exact onTarget
      rw [commit.committed]
      intro tested member
      rcases List.mem_append.mp member with earlier | last
      · exact onTarget tested earlier
      · obtain ⟨active, agent, committable, _⟩ := commit.committable
        rw [List.mem_singleton.mp last]
        exact onTarget_of_committable targeted committable
  exact good.2.2

/-- The world a list of operations leads to, if each is allowed and enabled in
turn. -/
def followGuarded (codec : Codec) (config : CoordinatorConfig)
    (allowed : World → Operation → Bool) :
    List Operation → World → Option World
  | [], world => some world
  | operation :: rest, world =>
    if allowed world operation then
      (follow codec config [operation] world).bind (followGuarded codec config allowed rest)
    else
      none

theorem run_of_followGuarded {allowed operations}
    (followed : followGuarded codec config allowed operations world = some next) :
    ((coordinatorSystem codec config).guarded
      fun state operation => allowed state operation = true).Run world operations next := by
  induction operations generalizing world with
  | nil =>
    cases followed
    exact .refl _
  | cons operation rest ih =>
    unfold followGuarded at followed
    by_cases permitted : allowed world operation = true
    · rw [if_pos permitted, Option.bind_eq_some_iff] at followed
      obtain ⟨middle, first, remaining⟩ := followed
      have step : (coordinatorSystem codec config).step world operation
          middle := (run_of_follow first).step_of_single
      exact .cons ⟨permitted, step⟩ (ih remaining)
    · rw [if_neg permitted] at followed
      cases followed

end Runs

namespace Sample

def recovery : LeaseRecovery :=
  ⟨job.toVec, lease.toVec, 9, true⟩

/-- The stream of the session that runs the job breaks off, and the device
comes back with the given profile and the job's report. -/
def recovered (announced : DeviceProfile) (measured : MeasureReport) : List Operation :=
  accepted ++ [.streamEnd (device, session), .disconnect (at_ 4 []) (device, session),
      .connect (at_ 5 []) none (hello announced [recovery]) laterSession,
      .submit (at_ 6 []) .durable none ⟨laterSession.toVec, some measured⟩]

end Sample

/-- The device comes back with the profile it had. -/
theorem committed_onTarget_recovered : ∃ world : World,
      world.committed.map CommitRecord.jobId = [Sample.job] ∧
      ∀ record ∈ world.committed, OnTarget record := by
  have followed : (followGuarded Sample.codec Sample.config
      (safeRecovery Sample.codec Sample.config)
      (Sample.recovered Sample.target (Sample.report Sample.targetBytes 5))
        Sample.start).isSome = true := by decide +kernel
  have commits : (followGuarded Sample.codec Sample.config (safeRecovery Sample.codec Sample.config)
      (Sample.recovered Sample.target (Sample.report Sample.targetBytes 5))
        Sample.start).map (fun world =>
          world.committed.map CommitRecord.jobId) = some [Sample.job] := by
    decide +kernel
  obtain ⟨world, reached⟩ := Option.isSome_iff_exists.mp followed
  rw [reached, Option.map_some, Option.some.injEq] at commits
  have reachable : ((coordinatorSystem Sample.codec Sample.config).guarded
      (SafeRecovery Sample.codec Sample.config)).Reachable world :=
    ⟨Sample.start, ⟨[], .memory 4096 ∅, rfl, rfl⟩, _, run_of_followGuarded reached⟩
  exact ⟨world, commits, committed_onTarget reachable⟩

/-- The device comes back with another profile, and the report it measured on
that profile is committed. -/
theorem committed_not_onTarget : (coordinatorSystem Sample.codec Sample.config).Reachable
      (Sample.after (Sample.recovered Sample.upgraded (Sample.report Sample.otherBytes 300))) ∧
    ∃ record ∈ (Sample.after (Sample.recovered Sample.upgraded
        (Sample.report Sample.otherBytes 300))).committed,
      ¬ OnTarget record :=
  ⟨Sample.reachable_after (by decide +kernel), by decide +kernel⟩

end GraphZero.Measure
