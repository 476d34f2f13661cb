import GraphZero.Measure.JobTables
import GraphZero.Measure.Scheduling

/-!
# Slot credit

A session's leases and its credit together stay within the slots it announced.
Only `Ready` and a new session add to the two; an offer turns one slot of
credit into one lease, and everything else takes away.
-/

namespace GraphZero.Measure

open Foundation Wire

/-- The leases of a session and the leases it may still be offered. -/
def AgentSession.load (agent : AgentSession) : Nat :=
  agent.active.size + agent.freeSlots

/-- Every session keeps within its slots, which are counted in 32 bits. -/
def WithinCapacity (agents : Table DeviceId AgentSession) : Prop :=
  ∀ deviceId agent, agents.get? deviceId = some agent →
    agent.load ≤ agent.slotCapacity ∧ agent.slotCapacity < 2 ^ 32

/-- Every later session is an earlier one with no greater load. -/
def NoMoreLoad (agents later : Table DeviceId AgentSession) : Prop :=
  ∀ deviceId agent, later.get? deviceId = some agent →
    ∃ before, agents.get? deviceId = some before ∧
      agent.slotCapacity = before.slotCapacity ∧ agent.load ≤ before.load

namespace NoMoreLoad

variable {first second third : Table DeviceId AgentSession}
  {deviceId : DeviceId} {agent changed : AgentSession}

theorem refl (agents : Table DeviceId AgentSession) : NoMoreLoad agents agents :=
  fun _ agent connected => ⟨agent, connected, rfl, Nat.le_refl _⟩

theorem trans (before : NoMoreLoad first second)
    (after : NoMoreLoad second third) : NoMoreLoad first third := by
  intro deviceId agent connected
  obtain ⟨mid, connectedMiddle, sameSlots, noMore⟩ := after deviceId agent connected
  obtain ⟨start, connectedStart, slots, fewer⟩ := before deviceId mid connectedMiddle
  exact ⟨start, connectedStart, sameSlots.trans slots, noMore.trans fewer⟩

theorem insert (connected : first.get? deviceId = some agent)
    (slots : changed.slotCapacity = agent.slotCapacity)
    (fewer : changed.load ≤ agent.load) :
    NoMoreLoad first (first.insert deviceId changed) := by
  intro tested later found
  rw [Table.get?_insert] at found
  split at found
  · next here =>
    cases found
    exact ⟨agent, here ▸ connected, slots, fewer⟩
  · exact ⟨later, found, rfl, Nat.le_refl _⟩

theorem erase (agents : Table DeviceId AgentSession) (deviceId : DeviceId) :
    NoMoreLoad agents (agents.erase deviceId) := by
  intro tested later found
  rw [Table.get?_erase] at found
  split at found
  · cases found
  · exact ⟨later, found, rfl, Nat.le_refl _⟩

theorem release (connected : first.get? deviceId = some agent) (jobId : JobId) :
    NoMoreLoad first (first.insert deviceId { agent with active := agent.active.erase jobId }) :=
  insert connected rfl (Nat.add_le_add_right (Table.size_erase_le _ _) agent.freeSlots)

theorem drained (connected : first.get? deviceId = some agent) :
    NoMoreLoad first (first.insert deviceId { agent with draining := true, freeSlots := 0 }) :=
  insert connected rfl (Nat.add_le_add_left (Nat.zero_le _) _)

theorem foldl {β : Type} {step} (fewer : ∀ state entry,
      NoMoreLoad state.agents (step state entry).agents) (entries : List β)
    (state : CoordinatorState) :
    NoMoreLoad state.agents (entries.foldl step state).agents := by
  induction entries generalizing state with
  | nil => exact refl _
  | cons entry entries ih => exact (fewer state entry).trans (ih _)

theorem withinCapacity (fewer : NoMoreLoad first second)
    (within : WithinCapacity first) : WithinCapacity second := by
  intro deviceId agent connected
  obtain ⟨before, found, slots, load⟩ := fewer deviceId agent connected
  obtain ⟨fits, bounded⟩ := within deviceId before found
  rw [slots]
  exact ⟨load.trans fits, bounded⟩

end NoMoreLoad

/-! ## What takes load away -/

section Frames

variable {config : CoordinatorConfig} {env : Surroundings}
  {state next : CoordinatorState}

theorem noMoreLoad_requeueActive (state : CoordinatorState) (jobId : JobId)
    (active : ActiveLease) (preserveForRecovery : Bool) :
    NoMoreLoad state.agents (requeueActive state jobId active preserveForRecovery).agents := by
  have jobSide := agents_requeueJob state jobId active preserveForRecovery
  unfold requeueActive releaseLease
  rw [jobSide]
  split
  · rw [jobSide]
    exact .refl _
  next agent connected =>
  split
  · exact .release connected jobId
  · rw [jobSide]
    exact .refl _

theorem noMoreLoad_requeueLeased (state : CoordinatorState) (jobId : JobId) (leaseId : LeaseId) :
    NoMoreLoad state.agents (requeueLeased state jobId leaseId).agents := by
  unfold requeueLeased
  split
  · exact .refl _
  split
  · split
    · exact noMoreLoad_requeueActive _ _ _ _
    · exact .refl _
  · split
    · exact noMoreLoad_requeueActive _ _ _ _
    · exact .refl _
  · exact .refl _

theorem noMoreLoad_expireLeases (order : IterationOrder JobId)
    (state : CoordinatorState) (now : Instant) :
    NoMoreLoad state.agents (expireLeases order state now).agents :=
  .foldl (fun _ _ => noMoreLoad_requeueActive _ _ _ _) _ state

theorem noMoreLoad_removeAgentSession (order : SessionId → IterationOrder JobId)
    (state : CoordinatorState) (deviceId : DeviceId) :
    NoMoreLoad state.agents (removeAgentSession order state deviceId).agents := by
  unfold removeAgentSession
  split
  · exact .refl _
  next agent connected =>
  have requeued := @NoMoreLoad.foldl (JobId × LeaseId)
    (fun state entry => requeueLeased state entry.1 entry.2)
    (fun _ _ => noMoreLoad_requeueLeased _ _ _)
    (activeEntries order agent)
    { state with agents := state.agents.erase deviceId }
  exact (NoMoreLoad.erase state.agents deviceId).trans requeued

theorem noMoreLoad_offer {order jobId job deviceId agent}
    (connected : state.agents.get? deviceId = some agent) (credit : 0 < agent.freeSlots)
    (draw : LeaseId × Instant) :
    NoMoreLoad state.agents (offer config order state jobId job deviceId agent draw).agents := by
  have offered : NoMoreLoad state.agents (recordOffer state jobId job agent
        (offerLease config deviceId agent draw)).agents := by
    have entered := Table.size_insert_le agent.active jobId draw.1
    apply NoMoreLoad.insert
    · exact connected
    · rfl
    · unfold AgentSession.load offerLease
      dsimp only
      omega
  unfold offer
  dsimp only
  split
  · exact offered
  · exact offered.trans (noMoreLoad_removeAgentSession order _ deviceId)

theorem noMoreLoad_releaseArtifacts (state : CoordinatorState)
    (descriptors : List ArtifactDescriptor) :
    (releaseArtifacts state descriptors).agents = state.agents := by
  obtain ⟨artifacts, bytes, released⟩ := releaseArtifacts_eq state descriptors
  rw [released]

theorem noMoreLoad_cancelJob (state : CoordinatorState) (jobId : JobId) :
    NoMoreLoad state.agents (cancelJob state jobId).agents := by
  unfold cancelJob
  dsimp only
  split
  · exact .refl _
  rw [noMoreLoad_releaseArtifacts]
  split
  · exact .refl _
  unfold sendCancel
  split
  · exact .refl _
  next agent connected =>
  dsimp only
  split
  · exact .release connected jobId
  · exact .refl _

theorem noMoreLoad_settleJob (state : CoordinatorState) (jobId : JobId)
    (job : Job) (deviceId : DeviceId) (report : MeasureReport) :
    NoMoreLoad state.agents (settleJob state jobId job deviceId report).agents := by
  cases connected : state.agents.get? deviceId with
  | none =>
    have same : (settleJob state jobId job deviceId report).agents = state.agents := by
      simp only [settleJob, connected]
      split
      · exact noMoreLoad_releaseArtifacts _ _
      · exact noMoreLoad_releaseArtifacts _ _
    rw [same]
    exact .refl _
  | some agent =>
    have settled : (settleJob state jobId job deviceId report).agents =
        state.agents.insert deviceId { agent with active := agent.active.erase jobId } := by
      simp only [settleJob, connected]
      split
      · exact noMoreLoad_releaseArtifacts _ _
      · exact noMoreLoad_releaseArtifacts _ _
    rw [settled]
    exact .release connected jobId

theorem noMoreLoad_drainAgents (state : CoordinatorState) :
    NoMoreLoad state.agents (drainAgents state).agents := by
  apply NoMoreLoad.foldl
  intro state deviceId
  unfold drainAgent
  split
  · exact .refl _
  · next agent connected => exact .drained connected

/-! ## What adds to it -/

variable {deviceId : DeviceId}

theorem withinCapacity_applyEvent {sessionId agent event}
    (connected : state.agents.get? deviceId = some agent)
    (applied : applyEvent config env state deviceId sessionId agent
      event = .ok next) (within : WithinCapacity state.agents) :
    WithinCapacity next.agents := by
  rcases applyEvent_eq_ok applied with
    ⟨_, _, credit, rfl⟩ | ⟨_, _, _, _, _, rfl | ⟨_, rfl⟩⟩
  · obtain ⟨fits, bounded⟩ := within deviceId agent connected
    intro tested later found
    rw [Table.get?_insert] at found
    split at found
    · cases found
      refine ⟨?_, bounded⟩
      unfold AgentSession.load at fits ⊢
      dsimp only
      omega
    · exact within tested later found
  · exact within
  · exact (noMoreLoad_requeueActive _ _ _ _).withinCapacity within

theorem size_reconcileRecoveries {sessionId recoveries progress final state}
    (reconciled : reconcileRecoveries config env deviceId sessionId
      recoveries progress = (state, .ok final)) :
    final.state.agents = progress.state.agents ∧ final.agentActive.size ≤
        progress.agentActive.size + recoveries.length := by
  induction recoveries generalizing progress with
  | nil =>
    cases reconciled
    exact ⟨rfl, Nat.le_refl _⟩
  | cons recovery recoveries ih =>
    unfold reconcileRecoveries at reconciled
    split at reconciled
    · next jobId leaseId job lease =>
      obtain ⟨agents, size⟩ := ih reconciled
      have one : (reconcileRecovery config env deviceId sessionId
          progress jobId leaseId).state.agents = progress.state.agents ∧
          (reconcileRecovery config env deviceId sessionId
            progress jobId leaseId).agentActive.size ≤ progress.agentActive.size + 1 := by
        unfold reconcileRecovery
        dsimp only
        split
        · exact ⟨rfl, Nat.le_succ _⟩
        split
        · exact ⟨rfl, Table.size_insert_le _ _ _⟩
        · exact ⟨rfl, Nat.le_succ _⟩
      refine ⟨agents.trans one.1, ?_⟩
      rw [List.length_cons]
      omega
    · cases reconciled
    · cases reconciled

end Frames

section Steps

variable {codec : Codec} {config : CoordinatorConfig} {world next : World}
  {env : Surroundings} {operation : Operation}

theorem withinCapacity_connect {peerFingerprint hello sessionId}
    (within : WithinCapacity world.state.agents) :
    WithinCapacity (connect codec config world env peerFingerprint
      hello sessionId).state.agents := by
  cases greeted : greet codec config peerFingerprint hello with
  | error status =>
    unfold connect
    rw [greeted]
    exact within
  | ok greeting =>
    obtain ⟨deviceId, profileHash⟩ := greeting
    obtain ⟨valid, _⟩ := greet_eq_ok greeted
    have fits := (recoveries_of_validateHello valid).1
    have removed : WithinCapacity (removeAgentSession env.activeOrder
          (openChannel config world.state) deviceId).agents :=
      (noMoreLoad_removeAgentSession _ _ _).withinCapacity within
    obtain ⟨final, reconciled, connected⟩ :=
      @connect_eq codec config world env _ _ sessionId _ _ greeted
    obtain ⟨agents, size⟩ := size_reconcileRecoveries reconciled
    rw [connected]
    intro tested agent found
    unfold registered at found
    rw [Table.get?_insert, agents] at found
    split at found
    · cases found
      refine ⟨?_, UInt32.toNat_lt _⟩
      simp only [AgentSession.load, newSession, Table.size_empty] at size ⊢
      omega
    · exact removed tested agent found

theorem withinCapacity_submitEntry {write state peerFingerprint request}
    (within : WithinCapacity state.agents) :
    WithinCapacity (submitEntry codec config env write state
      peerFingerprint request).state.agents := by
  unfold submitEntry
  split
  · exact within
  split
  · exact within
  split
  · exact within
  · exact within
  unfold commitEntry
  dsimp only
  split
  · exact within
  split
  · exact within
  split
  · exact within
  · exact within
  · exact within
  · exact (noMoreLoad_settleJob _ _ _ _ _).withinCapacity within

theorem withinCapacity_entry (within : WithinCapacity world.state.agents) :
    WithinCapacity (entry codec config world operation).state.agents := by
  have expired : ∀ env : Surroundings, WithinCapacity (expireLeases env.jobOrder world.state
        env.expiryNow).agents := fun env =>
    (noMoreLoad_expireLeases _ _ _).withinCapacity within
  cases operation with
  | enqueue env submission requestNonce =>
    unfold entry enqueueEntry
    dsimp only
    split
    · exact within
    split
    · exact expired env
    · next admitted id accepted =>
      obtain ⟨_, _, _, _, _, _, _, _, _, rfl⟩ := admitJob_eq accepted
      exact expired env
  | event env stream event =>
    unfold entry eventEntry
    dsimp only
    split
    · exact expired env
    next agent connected =>
    split
    · exact expired env
    split
    · exact expired env
    · next applied accepted =>
      exact withinCapacity_applyEvent connected accepted (expired env)
  | disconnect env stream =>
    unfold entry disconnectEntry
    dsimp only
    split
    · exact within
    split
    · exact within
    · exact (noMoreLoad_removeAgentSession _ _ _).withinCapacity within
  | submit env write peerFingerprint request => exact withinCapacity_submitEntry within
  | reap env => exact expired env
  | cancel jobId => exact (noMoreLoad_cancelJob _ _).withinCapacity within
  | connect env peerFingerprint hello sessionId => exact withinCapacity_connect within
  | welcome stream =>
    change WithinCapacity (sendWelcome world stream).state.agents
    unfold sendWelcome
    split
    · exact within
    · dsimp only
      split <;> exact within
  | streamEnd stream => exact within
  | drain => exact (noMoreLoad_drainAgents _).withinCapacity within
  | receive channel => exact within
  | hangUp channel => exact within

theorem credit_of_agentMatches {agent job} (admitted : agentMatches agent job = true) :
    0 < agent.freeSlots ∧ agent.draining = false := by
  unfold agentMatches at admitted
  simp only [Bool.and_eq_true, decide_eq_true_eq, Bool.not_eq_true'] at admitted
  exact admitted.1.1

theorem withinCapacity_offer {order state jobId job deviceId agent draw}
    (assigned : findAssignment state = some (jobId, job, deviceId, agent))
    (within : WithinCapacity state.agents) :
    WithinCapacity (offer config order state jobId job deviceId agent draw).agents := by
  obtain ⟨_, _, connected, admitted⟩ := findAssignment_eq_some assigned
  have credit := (credit_of_agentMatches admitted).1
  exact (noMoreLoad_offer connected credit draw).withinCapacity within

theorem withinCapacity_step (within : WithinCapacity world.state.agents)
    (step : (coordinatorSystem codec config).step world operation next) :
    WithinCapacity next.state.agents := by
  obtain ⟨enabled, ran, succeeded, rfl⟩ := step
  have left := leaves_perform succeeded
  have before := @withinCapacity_entry codec config world operation within
  cases entered : entry codec config world operation with
  | finishes state =>
    rw [entered] at left before
    change WithinCapacity ran.state.agents
    rw [left]
    exact before
  | schedules env state =>
    rw [entered] at left before
    exact (@schedule_invariant config env.activeOrder
      env.draws state (fun state => WithinCapacity state.agents)
      (fun _ _ _ _ _ _ => withinCapacity_offer) before).2 _ left

theorem withinCapacity_of_reachable (reachable : (coordinatorSystem codec config).Reachable world) :
    WithinCapacity world.state.agents := by
  apply reachable.invariant
  · rintro start ⟨content, receipts, _, rfl⟩ deviceId agent ⟨⟩
  · intro state label next within step
    exact withinCapacity_step within step

def Offering.offered (config : CoordinatorConfig) (offering : Offering) : Option AgentSession :=
  (recordOffer offering.state offering.jobId offering.job offering.agent
    (offerLease config offering.deviceId offering.agent
      offering.draw)).agents.get? offering.deviceId

/-- Leases and credit of a session never exceed its slots, a lease is offered
only to a session that has credit and does not drain, and the offer takes one
slot of credit. -/
theorem slotCredit_of_reachable (reachable : (coordinatorSystem codec config).Reachable world) :
    (∀ deviceId agent, world.state.agents.get? deviceId = some agent →
      agent.active.size + agent.freeSlots ≤ agent.slotCapacity) ∧
    ∀ operation env state,
      entry codec config world operation = .schedules env state →
      ∀ offering ∈ offerings config env.activeOrder env.draws state,
        offering.state.agents.get? offering.deviceId = some offering.agent ∧
          offering.agent.draining = false ∧
          0 < offering.agent.freeSlots ∧
          ∃ later, offering.offered config = some later ∧
            later.freeSlots + 1 = offering.agent.freeSlots ∧
            later.active.size + later.freeSlots ≤ later.slotCapacity := by
  have within := withinCapacity_of_reachable reachable
  refine ⟨fun deviceId agent connected =>
    (within deviceId agent connected).1, ?_⟩
  intro operation env state entered offering member
  have before := @withinCapacity_entry codec config world operation within
  rw [entered] at before
  obtain ⟨start, assigned⟩ := (@schedule_invariant config env.activeOrder env.draws state
    (fun state => WithinCapacity state.agents)
    (fun _ _ _ _ _ _ => withinCapacity_offer) before).1 offering member
  obtain ⟨_, _, connected, admitted⟩ := findAssignment_eq_some assigned
  obtain ⟨credit, working⟩ := credit_of_agentMatches admitted
  have fits := (start offering.deviceId offering.agent connected).1
  have entered := Table.size_insert_le offering.agent.active offering.jobId offering.draw.1
  refine ⟨connected, working, credit, _, Table.get?_insert_self _ _ _, ?_, ?_⟩
  · dsimp only
    omega
  · unfold AgentSession.load at fits
    unfold offerLease
    dsimp only
    omega

end Steps

theorem slotCredit_after_accepted :
    ∃ agent, (Sample.after Sample.accepted).state.agents.get? Sample.device = some agent ∧
      agent.active.size + agent.freeSlots ≤ agent.slotCapacity := by
  obtain ⟨agent, connected⟩ := Option.isSome_iff_exists.mp (by decide +kernel : ((Sample.after
      Sample.accepted).state.agents.get? Sample.device).isSome = true)
  exact ⟨agent, connected, (slotCredit_of_reachable
    (Sample.reachable_after (by decide +kernel))).1 _ agent connected⟩

end GraphZero.Measure
