import GraphZero.Measure.Sessions

/-!
# What requeueing changes

An expiry and the end of a session take leases away.  Table by table: a job
keeps its request and waits again, an agent loses entries of its map and
nothing else.
-/

namespace GraphZero.Measure

open Foundation Wire List

section Agents

variable {α : Type} {field : AgentSession → α}
  (kept : ∀ agent map, field { agent with active := map } = field agent)

include kept

theorem fieldOf_requeueActive (state : CoordinatorState) (jobId : JobId)
    (active : ActiveLease) (preserveForRecovery : Bool)
    (deviceId : DeviceId) :
    fieldOf field (requeueActive state jobId active preserveForRecovery) deviceId =
      fieldOf field state deviceId := by
  cases connected : state.agents.get? deviceId with
  | none =>
    have still := absent_requeueActive connected jobId active preserveForRecovery
    rw [fieldOf, fieldOf, still, connected]
  | some agent =>
    obtain ⟨map, still⟩ := agent_requeueActive connected jobId active preserveForRecovery
    rw [fieldOf_of_get? still, fieldOf_of_get? connected, kept]

theorem fieldOf_requeueLeased (state : CoordinatorState) (jobId : JobId)
    (leaseId : LeaseId) (deviceId : DeviceId) :
    fieldOf field (requeueLeased state jobId leaseId) deviceId = fieldOf field state deviceId := by
  unfold requeueLeased
  split
  · rfl
  split
  · split
    · exact fieldOf_requeueActive kept _ _ _ _ _
    · rfl
  · split
    · exact fieldOf_requeueActive kept _ _ _ _ _
    · rfl
  · rfl

omit kept in
theorem fieldOf_foldl {β : Type} {step deviceId}
    (same : ∀ state entry, fieldOf field (step state entry) deviceId = fieldOf field state deviceId)
    (entries : List β) (state : CoordinatorState) :
    fieldOf field (entries.foldl step state) deviceId = fieldOf field state deviceId := by
  induction entries generalizing state with
  | nil => rfl
  | cons entry entries ih => rw [foldl_cons, ih, same]

theorem fieldOf_expireLeases (order : IterationOrder JobId)
    (state : CoordinatorState) (now : Instant) (deviceId : DeviceId) :
    fieldOf field (expireLeases order state now) deviceId = fieldOf field state deviceId :=
  fieldOf_foldl (fun _ _ => fieldOf_requeueActive kept _ _ _ _ _) _ state

theorem fieldOf_removeAgentSession (order : SessionId → IterationOrder JobId)
    (state : CoordinatorState) (deviceId tested : DeviceId) :
    fieldOf field (removeAgentSession order state deviceId) tested =
      if tested = deviceId then none else fieldOf field state tested := by
  by_cases here : tested = deviceId
  · rw [if_pos here, here, fieldOf, absent_removeAgentSession]
    rfl
  rw [if_neg here]
  unfold removeAgentSession
  split
  · rfl
  next agent connected =>
  refine Eq.trans (fieldOf_foldl (fun _ _ => fieldOf_requeueLeased kept _ _ _ _) _ _) ?_
  unfold fieldOf
  rw [Table.get?_erase_of_ne here]

end Agents

theorem sessionOf_expireLeases (order : IterationOrder JobId)
    (state : CoordinatorState) (now : Instant) (deviceId : DeviceId) :
    sessionOf (expireLeases order state now) deviceId = sessionOf state deviceId :=
  fieldOf_expireLeases (fun _ _ => rfl) order state now deviceId

/-! ## Jobs -/

def Job.requeued (job : Job) (recovery : Option ActiveLease) : Job :=
  { job with state := .queued, recovery }

def Job.expired (now : Instant) (job : Job) : Job :=
  match job.state.lease with
  | none => job
  | some active => if active.deadline ≤ now then job.requeued none else job

def Job.released (releases : ActiveLease → Prop) [DecidablePred releases] (job : Job) : Job :=
  match job.state with
  | .queued => job
  | .offered active => if releases active then job.requeued none else job
  | .running active => if releases active then job.requeued (some active) else job

/-- What the end of a device's session makes of a job. -/
def Job.orphaned (deviceId : DeviceId) (job : Job) : Job :=
  job.released fun active => active.deviceId = deviceId

theorem sameRequest_requeued (job : Job) (recovery : Option ActiveLease) :
    SameRequest job (job.requeued recovery) := rfl

theorem sameRequest_expired (now : Instant) (job : Job) : SameRequest job (job.expired now) := by
  unfold Job.expired
  split
  · exact SameRequest.refl job
  split
  · exact sameRequest_requeued job none
  · exact SameRequest.refl job

theorem sameRequest_released (releases : ActiveLease → Prop) [DecidablePred releases] (job : Job) :
    SameRequest job (job.released releases) := by
  unfold Job.released
  split
  · exact SameRequest.refl job
  · split
    · exact sameRequest_requeued job none
    · exact SameRequest.refl job
  · split
    · exact sameRequest_requeued job _
    · exact SameRequest.refl job

section Jobs

variable {state : CoordinatorState} {jobId : JobId}

theorem jobs_requeueActive (state : CoordinatorState) (jobId : JobId)
    (active : ActiveLease) (preserveForRecovery : Bool) (tested : JobId) :
    (requeueActive state jobId active preserveForRecovery).jobs.get? tested = if tested = jobId then
        (state.jobs.get? jobId).map fun job =>
          job.requeued (if preserveForRecovery then some active else none)
      else
        state.jobs.get? tested := by
  have agentSide : ∀ other : CoordinatorState,
      (releaseLease other jobId active).jobs = other.jobs := by
    intro other
    unfold releaseLease
    split
    · rfl
    · split <;> rfl
  rw [requeueActive, agentSide]
  unfold requeueJob
  cases found : state.jobs.get? jobId with
  | none =>
    by_cases here : tested = jobId
    · rw [if_pos here, here, found]
      rfl
    · rw [if_neg here]
  | some job =>
    rw [Table.get?_insert]
    rfl

section

variable {β : Type} {step : CoordinatorState → JobId × β → CoordinatorState}
  (change : β → Job → Job)
  (steps : ∀ state entry tested, (step state entry).jobs.get? tested =
    if tested = entry.1 then (state.jobs.get? entry.1).map (change entry.2)
    else state.jobs.get? tested)
  {entries : List (JobId × β)} {state : CoordinatorState}
include steps

theorem jobs_foldl_of_not_mem (absent : jobId ∉ entries.map Prod.fst) :
    (entries.foldl step state).jobs.get? jobId = state.jobs.get? jobId := by
  induction entries generalizing state with
  | nil => rfl
  | cons entry entries ih =>
    rw [map_cons, mem_cons, not_or] at absent
    rw [foldl_cons, ih absent.2, steps, if_neg absent.1]

theorem jobs_foldl_of_mem {item} (distinct : (entries.map Prod.fst).Nodup)
    (member : (jobId, item) ∈ entries) :
    (entries.foldl step state).jobs.get? jobId = (state.jobs.get? jobId).map (change item) := by
  induction entries generalizing state with
  | nil => cases member
  | cons entry entries ih =>
    rw [map_cons, nodup_cons] at distinct
    rw [foldl_cons]
    rcases mem_cons.mp member with rfl | later
    · rw [jobs_foldl_of_not_mem change steps distinct.1, steps, if_pos rfl]
    · have different : jobId ≠ entry.1 := by
        rintro rfl
        exact distinct.1 (mem_map.mpr ⟨_, later, rfl⟩)
      rw [ih distinct.2 later, steps, if_neg different]

end

theorem jobs_expireLeases (order : IterationOrder JobId)
    (state : CoordinatorState) (now : Instant) (jobId : JobId) :
    (expireLeases order state now).jobs.get? jobId =
      (state.jobs.get? jobId).map (Job.expired now) := by
  have distinct := nodup_expiredLeases order state now
  have steps (state : CoordinatorState) (entry : JobId × ActiveLease) (tested : JobId) :=
    jobs_requeueActive state entry.1 entry.2 false tested
  let change (_ : ActiveLease) (job : Job) : Job := job.requeued none
  unfold expireLeases
  cases found : state.jobs.get? jobId with
  | none =>
    have absent : jobId ∉ (expiredLeases order state now).map Prod.fst := by
      intro member
      obtain ⟨⟨_, active⟩, expired, rfl⟩ := mem_map.mp member
      have held := (mem_expiredLeases.mp expired).1
      rw [leaseOf, found] at held
      cases held
    rw [jobs_foldl_of_not_mem change steps absent, found]
    rfl
  | some job =>
    by_cases overdue : ∃ active, job.state.lease = some active ∧ active.deadline ≤ now
    · obtain ⟨active, leased, late⟩ := overdue
      have member : (jobId, active) ∈ expiredLeases order state now := mem_expiredLeases.mpr
          ⟨(leaseOf_of_get? found).trans leased, late⟩
      rw [jobs_foldl_of_mem change steps distinct member, found, Option.map_some,
        Option.map_some, Job.expired, leased]
      dsimp only
      rw [if_pos late]
    · have absent : jobId ∉ (expiredLeases order state now).map Prod.fst := by
        intro member
        obtain ⟨⟨_, active⟩, expired, rfl⟩ := mem_map.mp member
        obtain ⟨held, late⟩ := mem_expiredLeases.mp expired
        rw [leaseOf_of_get? found] at held
        exact overdue ⟨active, held, late⟩
      have same : job.expired now = job := by
        unfold Job.expired
        split
        · rfl
        · next active leased =>
          exact if_neg fun late => overdue ⟨active, leased, late⟩
      rw [jobs_foldl_of_not_mem change steps absent, found, Option.map_some, same]

section

variable {order : IterationOrder JobId} {now : Instant} {job : Job} {active : ActiveLease}

theorem jobs_expireLeases_of_lt (found : state.jobs.get? jobId = some job)
    (leased : job.state.lease = some active) (early : now < active.deadline) :
    (expireLeases order state now).jobs.get? jobId = some job := by
  have same : job.expired now = job := by
    rw [Job.expired, leased]
    exact if_neg (Nat.not_le.mpr early)
  rw [jobs_expireLeases, found, Option.map_some, same]

theorem activeOn_expireLeases_of_lt (sound : Consistent state)
    (found : state.jobs.get? jobId = some job)
    (leased : job.state.lease = some active) (early : now < active.deadline) :
    activeOn (expireLeases order state now).agents active.deviceId jobId =
      activeOn state.agents active.deviceId jobId := by
  have later := (updates_expireLeases order now sound).consistent sound
  have kept : (expireLeases order state now).jobs.get? jobId = some job :=
    jobs_expireLeases_of_lt found leased early
  have before := (sound.leased_iff jobId active.deviceId active.currentSessionId active.leaseId).mp
      ⟨active, (leaseOf_of_get? found).trans leased, rfl, rfl, rfl⟩
  have after := (later.leased_iff jobId active.deviceId active.currentSessionId active.leaseId).mp
      ⟨active, (leaseOf_of_get? kept).trans leased, rfl, rfl, rfl⟩
  rw [before, after]

end

theorem jobs_requeueLeased (state : CoordinatorState) (jobId : JobId)
    (leaseId : LeaseId) (tested : JobId) :
    (requeueLeased state jobId leaseId).jobs.get? tested = if tested = jobId then
        (state.jobs.get? jobId).map (Job.released fun active => active.leaseId = leaseId)
      else
        state.jobs.get? tested := by
  have unchanged : ∀ unreleased : Option Job,
      unreleased = state.jobs.get? jobId → state.jobs.get? tested =
          if tested = jobId then unreleased else state.jobs.get? tested := by
    rintro unreleased rfl
    by_cases here : tested = jobId
    · rw [if_pos here, here]
    · rw [if_neg here]
  unfold requeueLeased
  cases found : state.jobs.get? jobId with
  | none => exact unchanged none found.symm
  | some job =>
    dsimp only
    rw [Option.map_some]
    unfold Job.released
    cases job.state with
    | queued => exact unchanged (some job) found.symm
    | offered active | running active =>
      dsimp only
      by_cases same : active.leaseId = leaseId
      · rw [if_pos same, if_pos same, jobs_requeueActive, found]
        rfl
      · rw [if_neg same, if_neg same]
        exact unchanged (some job) found.symm

theorem nodup_activeEntries (order : SessionId → IterationOrder JobId) (agent : AgentSession) :
    ((activeEntries order agent).map Prod.fst).Nodup := by
  have visited := (order agent.sessionId).nodup_visit agent.active.nodup_keys
  unfold activeEntries
  rw [map_filterMap]
  apply visited.filterMap
  intro first second key firstKey secondKey
  simp only [Option.mem_def, Option.map_eq_some_iff] at firstKey secondKey
  obtain ⟨_, ⟨_, _, rfl⟩, rfl⟩ := firstKey
  obtain ⟨_, ⟨_, _, rfl⟩, same⟩ := secondKey
  exact same.symm

theorem orphaned_of_elsewhere {deviceId} {job : Job}
    (elsewhere : ∀ active, job.state.lease = some active →
      active.deviceId ≠ deviceId) : job.orphaned deviceId = job := by
  unfold Job.orphaned Job.released
  split
  · rfl
  · next active offered =>
    have away := elsewhere active (by rw [offered]; rfl)
    rw [if_neg away]
  · next active running =>
    have away := elsewhere active (by rw [running]; rfl)
    rw [if_neg away]

theorem jobs_removeAgentSession (order : SessionId → IterationOrder JobId)
    (deviceId : DeviceId) (sound : Consistent state) (jobId : JobId) :
    (removeAgentSession order state deviceId).jobs.get? jobId =
      (state.jobs.get? jobId).map (Job.orphaned deviceId) := by
  unfold removeAgentSession
  cases connected : state.agents.get? deviceId with
  | none =>
    cases found : state.jobs.get? jobId with
    | none => rfl
    | some job =>
      have elsewhere : ∀ active, job.state.lease = some active → active.deviceId ≠ deviceId := by
        rintro active leased rfl
        obtain ⟨agent, held, _⟩ := sound.holder ((leaseOf_of_get? found).trans leased)
        rw [connected] at held
        cases held
      rw [Option.map_some, orphaned_of_elsewhere elsewhere]
  | some agent =>
    have distinct := nodup_activeEntries order agent
    have steps (state : CoordinatorState) (entry : JobId × LeaseId) (tested : JobId) :=
      jobs_requeueLeased state entry.1 entry.2 tested
    let change (leaseId : LeaseId) := Job.released fun active => active.leaseId = leaseId
    cases entry : agent.active.get? jobId with
    | none =>
      have absent : jobId ∉ (activeEntries order agent).map Prod.fst := by
        intro member
        obtain ⟨⟨_, leaseId⟩, active, rfl⟩ := mem_map.mp member
        rw [mem_activeEntries.mp active] at entry
        cases entry
      refine (jobs_foldl_of_not_mem change steps absent).trans ?_
      cases found : state.jobs.get? jobId with
      | none => rfl
      | some job =>
        have elsewhere : ∀ active, job.state.lease = some active → active.deviceId ≠ deviceId := by
          rintro active leased rfl
          obtain ⟨holder, held, _, named⟩ := sound.holder ((leaseOf_of_get? found).trans leased)
          rw [connected] at held
          cases held
          rw [entry] at named
          cases named
        rw [Option.map_some, orphaned_of_elsewhere elsewhere]
    | some leaseId =>
      have member : (jobId, leaseId) ∈ activeEntries order agent := mem_activeEntries.mpr entry
      refine (jobs_foldl_of_mem change steps distinct member).trans ?_
      obtain ⟨active, leased, device, _, identity⟩ := sound.leased connected entry
      unfold leaseOf at leased
      rw [Option.bind_eq_some_iff] at leased
      obtain ⟨job, found, lease⟩ := leased
      rw [found, Option.map_some, Option.map_some]
      unfold change Job.orphaned Job.released
      rcases JobState.lease_eq_some_iff.mp lease with state | state
      · rw [state]
        dsimp only
        rw [if_pos identity, if_pos device]
      · rw [state]
        dsimp only
        rw [if_pos identity, if_pos device]

end Jobs

end GraphZero.Measure
