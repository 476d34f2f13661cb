import GraphZero.Measure.Updates

/-!
# Jobs, queue and leases stay sound

Each update preserves `Consistent`.  The proofs follow the four ways an update
moves a job: into the queue, out of the tables, under a lease, or not at all.
-/

namespace GraphZero.Measure

open Foundation Wire

section Tables

variable {state : CoordinatorState} {jobId : JobId} {job : Job}
  {active : ActiveLease} {agent : AgentSession}

theorem consistent_newState (receipts : ReceiptLedger) : Consistent (newState receipts) := by
  constructor <;> simp [newState, leaseOf, activeOn]

section

variable (sound : Consistent state)
include sound

/-- A job joins the queue; what becomes of its leases is left open. -/
theorem consistent_join {next} (unqueued : jobId ∉ state.queue) (queued : job.state = .queued)
    (jobs : next.jobs = state.jobs.insert jobId job) (queue : next.queue = state.queue ++ [jobId])
    (leased_iff : ∀ jobId deviceId sessionId leaseId,
      (∃ active, leaseOf next.jobs jobId = some active ∧ active.deviceId = deviceId ∧
        active.currentSessionId = sessionId ∧ active.leaseId = leaseId) ↔
        activeOn next.agents deviceId jobId = some (sessionId, leaseId)) : Consistent next := by
  refine ⟨?_, fun tested => ?_, fun tested other recovered found recovery => ?_, leased_iff⟩
  · simpa [queue, List.nodup_append] using ⟨sound.queue_nodup, fun other waiting same =>
        unqueued (same ▸ waiting)⟩
  · rw [queue, jobs, List.mem_append, List.mem_singleton, sound.mem_queue_iff, Table.get?_insert]
    by_cases same : tested = jobId
    · simp [same, queued]
    · simp [same]
  · rw [jobs, Table.get?_insert] at found
    split at found
    · cases found
      exact queued
    · exact sound.queued_of_recovery tested other recovered found recovery

theorem consistent_admit (unknown : state.jobs.get? jobId = none) (queued : job.state = .queued)
    {artifacts artifactBytes requesters} :
    Consistent
      { state with
        artifacts
        artifactBytes
        jobs := state.jobs.insert jobId job
        queue := state.queue ++ [jobId]
        requesters } := by
  have unqueued : jobId ∉ state.queue := by
    intro waiting
    obtain ⟨other, found, _⟩ := (sound.mem_queue_iff jobId).mp waiting
    rw [unknown] at found
    cases found
  have unleased : leaseOf state.jobs jobId = none := by
    rw [leaseOf, unknown, Option.bind_none]
  refine consistent_join sound unqueued queued rfl rfl fun tested deviceId sessionId leaseId => ?_
  rw [leaseOf_insert]
  split
  · next same =>
    rw [same, sound.activeOn_eq_none unleased]
    simp [queued]
  · exact sound.leased_iff tested deviceId sessionId leaseId

theorem consistent_requeue (leased : leaseOf state.jobs jobId = some active)
    (connected : state.agents.get? active.deviceId = some agent)
    (queued : job.state = .queued) :
    Consistent
      { state with
        jobs := state.jobs.insert jobId job
        queue := state.queue ++ [jobId]
        agents := state.agents.insert active.deviceId
          { agent with active := agent.active.erase jobId } } := by
  have unqueued := sound.not_mem_queue leased
  refine consistent_join sound unqueued queued rfl rfl fun tested deviceId sessionId leaseId => ?_
  rw [leaseOf_insert, activeOn_release connected]
  by_cases same : tested = jobId
  · subst same
    have nobodyElse : deviceId ≠ active.deviceId → activeOn state.agents deviceId tested ≠
          some (sessionId, leaseId) := by
      intro different held
      obtain ⟨other, otherLeased, device, _⟩ :=
        (sound.leased_iff tested deviceId sessionId leaseId).mpr held
      rw [leased] at otherLeased
      cases otherLeased
      exact different device.symm
    by_cases here : deviceId = active.deviceId
    · simp [here, queued]
    · simpa [here, queued] using nobodyElse here
  · simpa [same] using sound.leased_iff tested deviceId sessionId leaseId

theorem consistent_erase {agents}
    (released : ∀ deviceId tested, activeOn agents deviceId tested = if tested = jobId then none
      else activeOn state.agents deviceId tested) :
    Consistent
      { state with
        jobs := state.jobs.erase jobId
        queue := state.queue.erase jobId
        agents } := by
  constructor
  · exact sound.queue_nodup.erase jobId
  · intro tested
    rw [sound.queue_nodup.mem_erase_iff, sound.mem_queue_iff, Table.get?_erase]
    by_cases same : tested = jobId
    · simp [same]
    · simp [same]
  · intro tested other recovered found recovery
    rw [Table.get?_erase] at found
    split at found
    · cases found
    · exact sound.queued_of_recovery tested other recovered found recovery
  · intro tested deviceId sessionId leaseId
    rw [leaseOf_erase, released]
    split
    · simp
    · exact sound.leased_iff tested deviceId sessionId leaseId

theorem activeOn_release_leased (leased : leaseOf state.jobs jobId = some active)
    (connected : state.agents.get? active.deviceId = some agent)
    (deviceId : DeviceId) (tested : JobId) :
    activeOn (state.agents.insert active.deviceId
        { agent with active := agent.active.erase jobId }) deviceId tested =
      if tested = jobId then none
      else activeOn state.agents deviceId tested := by
  rw [activeOn_release connected]
  by_cases same : tested = jobId
  · subst same
    by_cases here : deviceId = active.deviceId
    · simp [here]
    rw [if_neg (fun both => here both.1), if_pos rfl]
    cases held : activeOn state.agents deviceId tested with
    | none => rfl
    | some binding =>
      obtain ⟨other, otherLeased, device, _⟩ :=
        (sound.leased_iff tested deviceId binding.1 binding.2).mpr held
      rw [leased] at otherLeased
      cases otherLeased
      exact absurd device.symm here
  · simp [same]

theorem consistent_grant {granted changed deviceId channels} (waiting : jobId ∈ state.queue)
    (found : state.jobs.get? jobId = some job) (connected : state.agents.get? deviceId = some agent)
    (leased : granted.state.lease = some active) (device : active.deviceId = deviceId)
    (unrecoverable : granted.recovery = none) (session : changed.sessionId = agent.sessionId)
    (current : active.currentSessionId = agent.sessionId)
    (entry : changed.active = agent.active.insert jobId active.leaseId) :
    Consistent
      { state with
        jobs := state.jobs.insert jobId granted
        queue := state.queue.erase jobId
        agents := state.agents.insert deviceId changed
        channels } := by
  subst device
  have queued := sound.get?_of_mem_queue waiting found
  have unleased : leaseOf state.jobs jobId = none := by
    rw [leaseOf_of_get? found, queued]
    rfl
  constructor
  · exact sound.queue_nodup.erase jobId
  · intro tested
    rw [sound.queue_nodup.mem_erase_iff, sound.mem_queue_iff, Table.get?_insert]
    by_cases same : tested = jobId
    · have notQueued : granted.state ≠ .queued := by
        intro queuedAgain
        rw [queuedAgain] at leased
        cases leased
      simp [same, notQueued]
    · simp [same]
  · intro tested other recovered otherFound recovery
    rw [Table.get?_insert] at otherFound
    split at otherFound
    · cases otherFound
      rw [unrecoverable] at recovery
      cases recovery
    · exact sound.queued_of_recovery tested other recovered otherFound recovery
  · intro tested deviceId sessionId leaseId
    rw [leaseOf_insert, activeOn_grant connected session entry]
    by_cases same : tested = jobId
    · subst same
      rw [if_pos rfl, leased]
      by_cases here : deviceId = active.deviceId
      · rw [if_pos ⟨here, rfl⟩, ← current]
        constructor
        · rintro ⟨other, sameLease, _, rfl, rfl⟩
          cases sameLease
          rfl
        · intro binding
          cases binding
          exact ⟨active, rfl, here.symm, rfl, rfl⟩
      · rw [if_neg (fun both => here both.1), sound.activeOn_eq_none unleased]
        constructor
        · rintro ⟨other, sameLease, device, _⟩
          cases sameLease
          exact absurd device.symm here
        · intro impossible
          cases impossible
    · simpa [same] using sound.leased_iff tested deviceId sessionId leaseId

theorem consistent_renew {renewed extended} (found : state.jobs.get? jobId = some job)
    (leased : job.state.lease = some active) (still : renewed.state.lease = some extended)
    (device : extended.deviceId = active.deviceId)
    (session : extended.currentSessionId = active.currentSessionId)
    (same : extended.leaseId = active.leaseId) (recovery : renewed.recovery = job.recovery) :
    Consistent { state with jobs := state.jobs.insert jobId renewed } := by
  have entry : leaseOf state.jobs jobId = some active := by
    rw [leaseOf_of_get? found, leased]
  have unqueued := sound.not_mem_queue entry
  have unrecoverable : job.recovery = none := by
    cases recovered : job.recovery with
    | none => rfl
    | some lease =>
      have queued := sound.queued_of_recovery jobId job lease found recovered
      rw [queued] at leased
      cases leased
  constructor
  · exact sound.queue_nodup
  · intro tested
    rw [Table.get?_insert]
    by_cases here : tested = jobId
    · have notQueued : renewed.state ≠ .queued := by
        intro queuedAgain
        rw [queuedAgain] at still
        cases still
      simp [here, unqueued, notQueued]
    · simpa [here] using sound.mem_queue_iff tested
  · intro tested other recovered otherFound otherRecovery
    rw [Table.get?_insert] at otherFound
    split at otherFound
    · cases otherFound
      rw [recovery, unrecoverable] at otherRecovery
      cases otherRecovery
    · exact sound.queued_of_recovery tested other recovered otherFound otherRecovery
  · intro tested deviceId sessionId leaseId
    have before := sound.leased_iff tested deviceId sessionId leaseId
    rw [leaseOf_insert]
    by_cases here : tested = jobId
    · subst here
      rw [entry] at before
      rw [if_pos rfl, still, ← before]
      simp [device, session, same]
    · simpa [here] using before

theorem consistent_agents {agents channels} (unchanged : ∀ deviceId tested,
      activeOn agents deviceId tested = activeOn state.agents deviceId tested) :
    Consistent { state with agents, channels } := by
  constructor
  · exact sound.queue_nodup
  · exact sound.mem_queue_iff
  · exact sound.queued_of_recovery
  · intro tested deviceId sessionId leaseId
    rw [unchanged]
    exact sound.leased_iff tested deviceId sessionId leaseId

end

end Tables

theorem consistent_of_tables {state other} (sound : Consistent state)
    (agents : other.agents = state.agents) (jobs : other.jobs = state.jobs)
    (queue : other.queue = state.queue) : Consistent other := by
  constructor
  · rw [queue]
    exact sound.queue_nodup
  · rw [queue, jobs]
    exact sound.mem_queue_iff
  · rw [jobs]
    exact sound.queued_of_recovery
  · rw [agents, jobs]
    exact sound.leased_iff

theorem activeOn_of_idle {agents deviceId agent} (connected : agents.get? deviceId = some agent)
    (idle : ∀ jobId, agent.active.get? jobId = none) (jobId : JobId) :
    activeOn agents deviceId jobId = none := by
  rw [activeOn_of_get? connected, idle]
  rfl

theorem consistent_update {state next change} (update : Update state change next)
    (sound : Consistent state) :
    Consistent next := by
  cases update with
  | enqueue unknown _ queued => exact consistent_admit sound unknown queued
  | offer waiting found connected _ session _ =>
    apply consistent_grant sound waiting found connected
    case leased => rfl
    case current => exact session
    all_goals rfl
  | requeue found leased accepted =>
    obtain ⟨agent, connected, requeued⟩ := requeueActive_eq sound found leased _
    rw [requeued]
    have entry := (leaseOf_of_get? found).trans leased
    exact consistent_requeue sound entry connected rfl
  | renew found leased => exact consistent_renew sound found leased rfl rfl rfl rfl rfl
  | rebind found recovered connected =>
    have queued := sound.queued_of_recovery _ _ _ found recovered
    have waiting := (sound.mem_queue_iff _).mpr ⟨_, found, queued⟩
    apply consistent_grant sound waiting found connected
    case leased => rfl
    all_goals rfl
  | connect absent idle =>
    apply consistent_agents sound
    intro tested jobId
    rw [activeOn_insert]
    split
    · next same =>
      rw [same, activeOn, absent, idle]
      rfl
    · rfl
  | disconnect connected idle =>
    apply consistent_agents sound
    intro tested jobId
    rw [activeOn_erase]
    split
    · next same => rw [same, activeOn_of_idle connected idle]
    · rfl
  | credit connected =>
    apply consistent_agents sound
    intro tested jobId
    apply activeOn_insert_same connected
    all_goals rfl
  | cancel found =>
    rename_i jobId job
    obtain ⟨artifacts, bytes, channels, agents, cancelled, holder⟩ := cancelJob_eq sound found
    rw [cancelled]
    have released : ∀ deviceId tested, activeOn agents deviceId tested = if tested = jobId then none
        else activeOn state.agents deviceId tested := by
      rcases holder with ⟨unleased, same⟩ | ⟨active, agent, leased, connected, same⟩
      · intro deviceId tested
        have entry := (leaseOf_of_get? found).trans unleased
        rw [same]
        split
        · next here => rw [here, sound.activeOn_eq_none entry]
        · rfl
      · have entry := (leaseOf_of_get? found).trans leased
        rw [same]
        exact activeOn_release_leased sound entry connected
    exact consistent_of_tables (consistent_erase sound released) rfl rfl rfl
  | settle found running connected recorded =>
    rename_i jobId job active agent report receipts digest
    obtain ⟨artifacts, bytes, replies, settled, _⟩ := settleJob_eq job
      jobId (connected : { state with receipts }.agents.get? _ = _) report
    rw [settled]
    have entry := (leaseOf_of_get? found).trans (congrArg JobState.lease running)
    exact consistent_of_tables (consistent_erase sound
      (activeOn_release_leased sound entry connected)) rfl rfl rfl
  | communicate recorded => exact consistent_of_tables sound rfl rfl rfl

theorem consistent_updates {state next changes} (updates : Updates state changes next)
    (sound : Consistent state) : Consistent next :=
  updates.invariant (fun _ _ _ sound update => consistent_update update sound) sound

end GraphZero.Measure
