import GraphZero.Foundation.Transition
import GraphZero.Measure.Coordinator

/-!
# The updates the coordinator's operations are made of

Every operation is a sequence of the updates below; `OperationUpdates` proves
it.  An update touches one job and at most one agent, and `Consistent` is
preserved by each of them, although not by the single assignments inside an
operation.

`leaseOf` is what the job table says about a job, `activeOn` what an agent's
map says about it.
-/

namespace GraphZero.Measure

open Foundation Wire

def leaseOf (jobs : Table JobId Job) (jobId : JobId) : Option ActiveLease :=
  (jobs.get? jobId).bind fun job => job.state.lease

def activeOn (agents : Table DeviceId AgentSession) (deviceId : DeviceId)
    (jobId : JobId) : Option (SessionId × LeaseId) :=
  (agents.get? deviceId).bind fun agent =>
    (agent.active.get? jobId).map fun leaseId => (agent.sessionId, leaseId)

theorem leaseOf_of_get? {jobs jobId job} (found : jobs.get? jobId = some job) :
    leaseOf jobs jobId = job.state.lease := by
  rw [leaseOf, found, Option.bind_some]

theorem leaseOf_insert (jobs : Table JobId Job) (jobId tested : JobId) (job : Job) :
    leaseOf (jobs.insert jobId job) tested =
      if tested = jobId then job.state.lease else leaseOf jobs tested := by
  unfold leaseOf
  rw [Table.get?_insert]
  split <;> rfl

theorem leaseOf_erase (jobs : Table JobId Job) (jobId tested : JobId) :
    leaseOf (jobs.erase jobId) tested = if tested = jobId then none else leaseOf jobs tested := by
  unfold leaseOf
  rw [Table.get?_erase]
  split <;> rfl

variable {agents : Table DeviceId AgentSession} {deviceId : DeviceId}

theorem activeOn_of_get? {agent} (found : agents.get? deviceId = some agent) (jobId : JobId) :
    activeOn agents deviceId jobId = (agent.active.get? jobId).map fun leaseId =>
        (agent.sessionId, leaseId) := by
  rw [activeOn, found, Option.bind_some]

theorem activeOn_insert (agents : Table DeviceId AgentSession)
    (deviceId tested : DeviceId) (agent : AgentSession) (jobId : JobId) :
    activeOn (agents.insert deviceId agent) tested jobId = if tested = deviceId then
        (agent.active.get? jobId).map fun leaseId =>
          (agent.sessionId, leaseId)
      else
        activeOn agents tested jobId := by
  unfold activeOn
  rw [Table.get?_insert]
  split <;> rfl

theorem activeOn_erase (agents : Table DeviceId AgentSession)
    (deviceId tested : DeviceId) (jobId : JobId) :
    activeOn (agents.erase deviceId) tested jobId =
      if tested = deviceId then none else activeOn agents tested jobId := by
  unfold activeOn
  rw [Table.get?_erase]
  split <;> rfl

theorem activeOn_insert_same {agent changed} (found : agents.get? deviceId = some agent)
    (session : changed.sessionId = agent.sessionId) (active : changed.active = agent.active)
    (tested : DeviceId) (jobId : JobId) :
    activeOn (agents.insert deviceId changed) tested jobId = activeOn agents tested jobId := by
  rw [activeOn_insert, session, active]
  split
  · next same => rw [same, activeOn_of_get? found]
  · rfl

theorem activeOn_release {agent} (found : agents.get? deviceId = some agent) (jobId : JobId)
    (tested : DeviceId) (testedJob : JobId) :
    activeOn (agents.insert deviceId
        { agent with active := agent.active.erase jobId }) tested testedJob =
      if tested = deviceId ∧ testedJob = jobId then none
      else activeOn agents tested testedJob := by
  rw [activeOn_insert]
  by_cases sameDevice : tested = deviceId
  · subst sameDevice
    rw [if_pos rfl, activeOn_of_get? found, Table.get?_erase]
    by_cases sameJob : testedJob = jobId <;> simp [sameJob]
  · simp [sameDevice]

theorem activeOn_grant {agent changed jobId leaseId} (found : agents.get? deviceId = some agent)
    (session : changed.sessionId = agent.sessionId)
    (active : changed.active = agent.active.insert jobId leaseId) (tested : DeviceId)
    (testedJob : JobId) :
    activeOn (agents.insert deviceId changed) tested testedJob =
      if tested = deviceId ∧ testedJob = jobId then
        some (agent.sessionId, leaseId)
      else activeOn agents tested testedJob := by
  rw [activeOn_insert, session, active]
  by_cases sameDevice : tested = deviceId
  · subst sameDevice
    rw [if_pos rfl, activeOn_of_get? found, Table.get?_insert]
    by_cases sameJob : testedJob = jobId <;> simp [sameJob]
  · simp [sameDevice]

/-- The job table, the queue and the agents' maps tell the same story. -/
structure Consistent (state : CoordinatorState) : Prop where
  queue_nodup : state.queue.Nodup
  mem_queue_iff : ∀ jobId, jobId ∈ state.queue ↔
    ∃ job, state.jobs.get? jobId = some job ∧ job.state = .queued
  queued_of_recovery : ∀ jobId job active,
    state.jobs.get? jobId = some job → job.recovery = some active → job.state = .queued
  leased_iff : ∀ jobId deviceId sessionId leaseId,
    (∃ active, leaseOf state.jobs jobId = some active ∧
      active.deviceId = deviceId ∧ active.currentSessionId = sessionId ∧
      active.leaseId = leaseId) ↔
    activeOn state.agents deviceId jobId = some (sessionId, leaseId)

/-- Some job runs, waits for an answer or may be recovered under this
lease. -/
def HoldsLease (state : CoordinatorState) (jobId : JobId) (leaseId : LeaseId) : Prop :=
  ∃ job active, state.jobs.get? jobId = some job ∧
    (job.state.lease = some active ∨ job.recovery = some active) ∧
    active.leaseId = leaseId

/-! ## Updates -/

inductive Change where
  | admitted (jobId : JobId)
  | offered (jobId : JobId) (leaseId : LeaseId)
  | requeued (jobId : JobId)
  | renewed (jobId : JobId)
  | rebound (jobId : JobId) (deviceId : DeviceId) (leaseId : LeaseId)
    (profileHash : DeviceProfileHash)
  | connected (sessionId : SessionId)
  | disconnected (deviceId : DeviceId)
  | credited (deviceId : DeviceId)
  | cancelled (jobId : JobId)
  | settled (jobId : JobId) (report : MeasureReport)
  | communicated

inductive Update : CoordinatorState → Change → CoordinatorState → Prop
  | enqueue {state jobId job artifacts artifactBytes} (unknown : state.jobs.get? jobId = none)
    (uncommitted : state.receipts.contains jobId = false) (queued : job.state = .queued)
    (unrecoverable : job.recovery = none) (requester : job.reply = some state.requesters) :
    Update state (.admitted jobId)
      { state with
        artifacts
        artifactBytes
        jobs := state.jobs.insert jobId job
        queue := state.queue ++ [jobId]
        requesters := state.requesters + 1 }
  | offer {state jobId job agent active channels} (waiting : jobId ∈ state.queue)
    (found : state.jobs.get? jobId = some job)
    (connected : state.agents.get? active.deviceId = some agent)
    (admitted : agentMatches agent job = true)
    (session : active.currentSessionId = agent.sessionId)
    (fresh : ∀ other, ¬ HoldsLease state other active.leaseId) :
    Update state (.offered jobId active.leaseId)
      { recordOffer state jobId job agent active with channels }
  | requeue {state jobId job active preserveForRecovery} (found : state.jobs.get? jobId = some job)
    (leased : job.state.lease = some active)
    (accepted : preserveForRecovery = true → job.state = .running active) :
    Update state (.requeued jobId) (requeueActive state jobId active preserveForRecovery)
  | renew {state jobId job active deadline} (found : state.jobs.get? jobId = some job)
    (leased : job.state.lease = some active) :
    Update state (.renewed jobId)
      { state with
        jobs := state.jobs.insert jobId { job with state := .running { active with deadline } } }
  | rebind {state jobId job agent active deadline} (found : state.jobs.get? jobId = some job)
    (recovered : job.recovery = some active)
    (connected : state.agents.get? active.deviceId = some agent) :
    Update state (.rebound jobId active.deviceId active.leaseId agent.profileHash)
      { rebindJob state jobId job
          { active with currentSessionId := agent.sessionId, deadline } with
        agents := state.agents.insert active.deviceId
          { agent with
            active := agent.active.insert jobId active.leaseId } }
  | connect {state deviceId agent} (absent : state.agents.get? deviceId = none)
    (idle : agent.active = ∅) :
    Update state (.connected agent.sessionId)
      { state with agents := state.agents.insert deviceId agent }
  | disconnect {state deviceId agent} (connected : state.agents.get? deviceId = some agent)
    (idle : ∀ jobId, agent.active.get? jobId = none) :
    Update state (.disconnected deviceId) { state with agents := state.agents.erase deviceId }
  | credit {state deviceId agent freeSlots draining channels}
    (connected : state.agents.get? deviceId = some agent) :
    Update state (.credited deviceId)
      { state with
        agents := state.agents.insert deviceId { agent with freeSlots, draining }
        channels }
  | cancel {state jobId job} (found : state.jobs.get? jobId = some job) :
    Update state (.cancelled jobId) (cancelJob state jobId)
  | settle {state jobId job active agent report receipts digest}
    (found : state.jobs.get? jobId = some job) (running : job.state = .running active)
    (connected : state.agents.get? active.deviceId = some agent)
    (recorded : receipts.receipts = state.receipts.receipts.insert jobId digest) :
    Update state (.settled jobId report)
      (settleJob { state with receipts } jobId job active.deviceId report)
  | communicate {state channels receipts} (recorded : receipts.receipts = state.receipts.receipts) :
    Update state .communicated { state with channels, receipts }

/-- The coordinator's state and its updates; a run of it is a whole
operation. -/
def updateSystem : TransitionSystem CoordinatorState Change where
  initial _ := True
  step := Update

abbrev Updates : CoordinatorState → List Change → CoordinatorState → Prop :=
  updateSystem.Run

section Tables

theorem releaseArtifact_eq (state : CoordinatorState) (digest : ArtifactDigest) :
    ∃ artifacts artifactBytes, releaseArtifact state digest =
      { state with artifacts, artifactBytes } := by
  unfold releaseArtifact
  split
  · exact ⟨state.artifacts, state.artifactBytes, rfl⟩
  split
  · exact ⟨_, _, rfl⟩
  · exact ⟨_, _, rfl⟩

theorem releaseArtifacts_eq (state : CoordinatorState) (descriptors : List ArtifactDescriptor) :
    ∃ artifacts artifactBytes, releaseArtifacts state descriptors =
      { state with artifacts, artifactBytes } := by
  induction descriptors generalizing state with
  | nil => exact ⟨state.artifacts, state.artifactBytes, rfl⟩
  | cons descriptor descriptors ih =>
    obtain ⟨artifacts, bytes, released⟩ := releaseArtifact_eq state descriptor.digest
    obtain ⟨laterArtifacts, laterBytes, later⟩ := ih (releaseArtifact state descriptor.digest)
    refine ⟨laterArtifacts, laterBytes, ?_⟩
    rw [releaseArtifacts, List.foldl_cons, ← releaseArtifacts, later, released]

variable {state : CoordinatorState} {jobId : JobId} {job : Job}
  {active : ActiveLease}

section

variable (sound : Consistent state)
include sound

theorem Consistent.holder (leased : leaseOf state.jobs jobId = some active) :
    ∃ agent, state.agents.get? active.deviceId = some agent ∧
      agent.sessionId = active.currentSessionId ∧
      agent.active.get? jobId = some active.leaseId := by
  have held := (sound.leased_iff jobId active.deviceId
    active.currentSessionId active.leaseId).mp ⟨active, leased, rfl, rfl, rfl⟩
  unfold activeOn at held
  simp only [Option.bind_eq_some_iff, Option.map_eq_some_iff, Prod.mk.injEq] at held
  obtain ⟨agent, found, leaseId, entry, session, same⟩ := held
  exact ⟨agent, found, session, same ▸ entry⟩

theorem Consistent.leased {deviceId agent leaseId}
    (connected : state.agents.get? deviceId = some agent)
    (entry : agent.active.get? jobId = some leaseId) :
    ∃ active, leaseOf state.jobs jobId = some active ∧ active.deviceId = deviceId ∧
      active.currentSessionId = agent.sessionId ∧
      active.leaseId = leaseId := by
  apply (sound.leased_iff jobId deviceId agent.sessionId leaseId).mpr
  rw [activeOn_of_get? connected, entry]
  rfl

theorem Consistent.activeOn_eq_none
    (unleased : leaseOf state.jobs jobId = none) (deviceId : DeviceId) :
    activeOn state.agents deviceId jobId = none := by
  cases held : activeOn state.agents deviceId jobId with
  | none => rfl
  | some binding =>
    obtain ⟨active, leased, _⟩ := (sound.leased_iff jobId deviceId binding.1 binding.2).mpr held
    rw [unleased] at leased
    cases leased

theorem Consistent.not_mem_queue (leased : leaseOf state.jobs jobId = some active) :
    jobId ∉ state.queue := by
  intro waiting
  obtain ⟨job, found, queued⟩ := (sound.mem_queue_iff jobId).mp waiting
  rw [leaseOf_of_get? found, queued] at leased
  cases leased

theorem Consistent.get?_of_mem_queue (waiting : jobId ∈ state.queue)
    (found : state.jobs.get? jobId = some job) : job.state = .queued := by
  obtain ⟨other, otherFound, queued⟩ := (sound.mem_queue_iff jobId).mp waiting
  rw [found] at otherFound
  cases otherFound
  exact queued

theorem requeueActive_eq (found : state.jobs.get? jobId = some job)
    (leased : job.state.lease = some active) (preserveForRecovery : Bool) :
    ∃ agent, state.agents.get? active.deviceId = some agent ∧
      requeueActive state jobId active preserveForRecovery =
        { state with
          jobs := state.jobs.insert jobId
            { job with
              state := .queued
              recovery :=
                if preserveForRecovery then some active else none }
          queue := state.queue ++ [jobId]
          agents := state.agents.insert active.deviceId
            { agent with active := agent.active.erase jobId } } := by
  have entry : leaseOf state.jobs jobId = some active := by
    rw [leaseOf_of_get? found, leased]
  obtain ⟨agent, connected, session, held⟩ := sound.holder entry
  refine ⟨agent, connected, ?_⟩
  simp [requeueActive, releaseLease, requeueJob, found, connected, session,
    held, sound.not_mem_queue entry]

theorem cancelJob_eq (found : state.jobs.get? jobId = some job) :
    ∃ artifacts artifactBytes channels agents, cancelJob state jobId =
        { state with
          jobs := state.jobs.erase jobId
          queue := state.queue.erase jobId
          artifacts, artifactBytes, channels, agents } ∧
      ((job.state.lease = none ∧ agents = state.agents) ∨
        ∃ active agent, job.state.lease = some active ∧
          state.agents.get? active.deviceId = some agent ∧
          agents = state.agents.insert active.deviceId
            { agent with active := agent.active.erase jobId }) := by
  cases leased : job.state.lease with
  | none =>
    obtain ⟨artifacts, bytes, released⟩ := releaseArtifacts_eq
      { state with
        queue := state.queue.erase jobId
        jobs := state.jobs.erase jobId } job.descriptors
    refine ⟨artifacts, bytes, state.channels, state.agents, ?_, Or.inl ⟨rfl, rfl⟩⟩
    simp only [cancelJob, found, leased, released]
  | some active =>
    have entry : leaseOf state.jobs jobId = some active := by
      rw [leaseOf_of_get? found, leased]
    obtain ⟨agent, connected, _, held⟩ := sound.holder entry
    let channels := (trySend state.channels agent.commandTx
      (.cancel ⟨jobId.toVec, active.leaseId.toVec, .callerDeadline⟩)).2
    let agents := state.agents.insert active.deviceId
      { agent with active := agent.active.erase jobId }
    have notified : sendCancel
        { state with
          queue := state.queue.erase jobId
          jobs := state.jobs.erase jobId } jobId active =
        { state with
          queue := state.queue.erase jobId
          jobs := state.jobs.erase jobId
          channels, agents } := by
      simp [sendCancel, connected, held, channels, agents]
    obtain ⟨artifacts, bytes, released⟩ := releaseArtifacts_eq
      { state with
        queue := state.queue.erase jobId
        jobs := state.jobs.erase jobId
        channels, agents } job.descriptors
    refine ⟨artifacts, bytes, channels, agents, ?_, Or.inr ⟨active, agent, rfl, connected, rfl⟩⟩
    simp only [cancelJob, found, leased, notified, released]

end

theorem settleJob_eq (job : Job) (jobId : JobId) {deviceId agent}
    (connected : state.agents.get? deviceId = some agent) (report : MeasureReport) :
    ∃ artifacts artifactBytes replies, settleJob state jobId job deviceId report =
        { state with
          jobs := state.jobs.erase jobId
          queue := state.queue.erase jobId
          agents := state.agents.insert deviceId { agent with active := agent.active.erase jobId }
          artifacts, artifactBytes, replies } ∧
      replies = state.replies ++
        (job.reply.toList.map fun requester => (requester, ⟨jobId, report⟩)) :=
    by
  obtain ⟨artifacts, bytes, released⟩ := releaseArtifacts_eq
    { state with
      jobs := state.jobs.erase jobId
      queue := state.queue.erase jobId
      agents := state.agents.insert deviceId
        { agent with active := agent.active.erase jobId } } job.descriptors
  refine ⟨artifacts, bytes, _, ?_, rfl⟩
  simp only [settleJob, connected, released]
  cases job.reply with
  | none => simp
  | some requester => simp

end Tables

end GraphZero.Measure
