import GraphZero.Measure.JobTables
import GraphZero.Measure.Requeueing

/-!
# Events that name an ended lease

A commit, a cancellation or an expiry ends a lease while an event about it may
still be on its way.  The handler answers such an event with an error, the
error ends the event loop, and the loop's `disconnect` removes the session if
it is still the device's own.
-/

namespace GraphZero.Measure

open Foundation Wire

def eventLease : AgentEvent → Option LeaseReference
  | .accepted reference | .rejected reference | .heartbeat reference => some reference
  | .hello _ | .ready _ | .draining _ => none

/-- What a stale event on `stream` may do: sessions and unexpired leases stay
as they are, and the `disconnect` of the loop finds nothing to remove. -/
structure Harmless (codec : Codec) (config : CoordinatorConfig)
    (stream : ControlStream) (now : Instant) (world next : World) : Prop where
  session : ∀ deviceId,
    sessionOf next.state deviceId = sessionOf world.state deviceId
  jobs : ∀ jobId job active, world.state.jobs.get? jobId = some job →
    job.state.lease = some active → now < active.deadline → next.state.jobs.get? jobId = some job ∧
        activeOn next.state.agents active.deviceId jobId =
          activeOn world.state.agents active.deviceId jobId
  disconnect : ∀ operations later,
    (coordinatorSystem codec config).Run next operations later → ∀ around,
        disconnect config around later.state stream.1 stream.2 = some (later.state, ())

section Events

variable {codec : Codec} {config : CoordinatorConfig}
  {env : Surroundings} {state : CoordinatorState}
  {deviceId : DeviceId} {sessionId : SessionId} {agent : AgentSession}
  {event : AgentEvent} {reference : LeaseReference} {leaseId : LeaseId}

theorem validateAgentLeaseIds_of_ended (named : reference.leaseId = leaseId.toVec)
    (ended : ∀ jobId, ¬ HoldsLease state jobId leaseId) :
    ∃ failure, validateAgentLeaseIds state deviceId sessionId reference = .error failure := by
  cases checked : validateAgentLeaseIds state deviceId sessionId reference with
  | error failure => exact ⟨failure, rfl⟩
  | ok binding =>
    obtain ⟨jobId, job, active⟩ := binding
    obtain ⟨_, _, lease, found, leased, _⟩ := validateAgentLeaseIds_eq_ok checked
    have same : active.leaseId = leaseId := Id.toVec_injective (lease.symm.trans named)
    have held : HoldsLease state jobId leaseId := ⟨job, active, found, Or.inl leased, same⟩
    exact absurd held (ended jobId)

theorem applyEvent_of_ended (about : eventLease event = some reference)
    (named : reference.leaseId = leaseId.toVec)
    (ended : ∀ jobId, ¬ HoldsLease state jobId leaseId) :
    ∃ failure, applyEvent config env state deviceId sessionId agent
      (some event) = .error failure := by
  obtain ⟨failure, refused⟩ : ∃ failure, validateAgentLeaseIds state deviceId sessionId reference =
        .error failure := validateAgentLeaseIds_of_ended named ended
  refine ⟨failure, ?_⟩
  cases event with
  | hello hello => cases about
  | ready ready => cases about
  | draining session => cases about
  | accepted lease | rejected lease | heartbeat lease =>
    cases about
    rw [applyEvent, refused]
    rfl

theorem handleAgentEvent_of_ended (about : eventLease event = some reference)
    (named : reference.leaseId = leaseId.toVec)
    (ended : ∀ jobId, ¬ HoldsLease (expireLeases env.jobOrder state env.expiryNow) jobId leaseId) :
    ∃ failure, handleAgentEvent config env state deviceId sessionId (some event) =
      some (expireLeases env.jobOrder state env.expiryNow, .error failure) := by
  unfold handleAgentEvent
  dsimp only
  split
  · exact ⟨_, rfl⟩
  next agent connected =>
  by_cases superseded : agent.sessionId ≠ sessionId
  · rw [if_pos superseded]
    exact ⟨_, rfl⟩
  rw [if_neg superseded]
  obtain ⟨failure, refused⟩ : ∃ failure,
      applyEvent config env (expireLeases env.jobOrder state env.expiryNow)
        deviceId sessionId agent (some event) = .error failure :=
    applyEvent_of_ended about named ended
  rw [refused]
  exact ⟨failure, rfl⟩

theorem step_of_ended {world next stream} (about : eventLease event = some reference)
    (named : reference.leaseId = leaseId.toVec)
    (ended : ∀ jobId, ¬ HoldsLease (expireLeases env.jobOrder
      world.state env.expiryNow) jobId leaseId)
    (step : (coordinatorSystem codec config).step world (.event env stream (some event)) next) :
    next.state = expireLeases env.jobOrder world.state env.expiryNow ∧ stream ∈ next.closing := by
  obtain ⟨_, ran, succeeded, rfl⟩ := step
  obtain ⟨failure, handled⟩ : ∃ failure, handleAgentEvent config env
      world.state stream.1 stream.2 (some event) = some (_, .error failure) :=
    handleAgentEvent_of_ended about named ended
  rw [perform, handled] at succeeded
  cases succeeded
  refine ⟨rfl, ?_⟩
  exact List.mem_append_right _ (List.mem_singleton_self stream)

/-! ## The loop's disconnect -/

theorem disconnect_of_superseded (superseded : sessionOf state deviceId ≠ some sessionId) :
    disconnect config env state deviceId sessionId = some (state, ()) := by
  unfold disconnect
  cases connected : state.agents.get? deviceId with
  | none => rfl
  | some agent =>
    have other : agent.sessionId ≠ sessionId := by
      intro same
      apply superseded
      rw [sessionOf, fieldOf_of_get? connected, same]
    dsimp only
    rw [if_pos other]

theorem sessionOf_disconnect {outcome} (sound : Consistent state) (undrawn : env.draws = [])
    (current : sessionOf state deviceId = some sessionId)
    (ran : disconnect config env state deviceId sessionId = some outcome) :
    sessionOf outcome.1 deviceId = none := by
  obtain ⟨agent, connected, same⟩ := fieldOf_eq_some_iff.mp current
  have own : ¬ agent.sessionId ≠ sessionId := fun other => other same
  unfold disconnect at ran
  rw [connected] at ran
  dsimp only at ran
  rw [if_neg own, andSchedule, undrawn, Option.map_eq_some_iff] at ran
  obtain ⟨final, scheduled, rfl⟩ := ran
  have removes := updates_removeAgentSession env.activeOrder deviceId sound
  have after : Consistent (removeAgentSession env.activeOrder state
      deviceId) := removes.consistent sound
  have fresh : FreshDraws (([] : List (LeaseId × Instant)).map Prod.fst)
      (removeAgentSession env.activeOrder state deviceId) :=
    ⟨List.nodup_nil, by simp⟩
  have schedules := updates_schedule after fresh scheduled
  cases registered : sessionOf final deviceId with
  | none => rfl
  | some later =>
    have before := sessionOf_of_updates schedules after not_scheduling_connected registered
    have absent := absent_removeAgentSession env.activeOrder state deviceId
    rw [sessionOf, fieldOf, absent] at before
    cases before

theorem superseded_of_disconnect (sound : Consistent state) (still : ∀ env,
      disconnect config env state deviceId sessionId = some (state, ()))
    (env : Surroundings) :
    sessionOf state deviceId ≠ some sessionId := by
  intro current
  have removed := sessionOf_disconnect sound rfl current (still { env with draws := [] })
  rw [current] at removed
  cases removed

end Events

/-- An event that was valid when it was sent, and whose lease has ended since
or expires as it is handled, is harmless exactly when its session is no longer
the session of its device. -/
theorem staleEvent_harmless_iff {codec : Codec} {config : CoordinatorConfig}
    {origin world next : World} {operations : List Operation}
    {stream : ControlStream} {env : Surroundings}
    {event : AgentEvent} {reference : LeaseReference} {jobId : JobId}
    {job : Job} {active : ActiveLease}
    (reachable : (coordinatorSystem codec config).Reachable origin)
    (about : eventLease event = some reference)
    (valid : validateAgentLeaseIds origin.state stream.1 stream.2 reference =
      .ok (jobId, job, active))
    (run : (coordinatorSystem codec config).Run origin operations world)
    (ended : ∀ other, ¬ HoldsLease (expireLeases env.jobOrder
      world.state env.expiryNow) other active.leaseId)
    (step : (coordinatorSystem codec config).step world (.event env stream (some event)) next) :
    Harmless codec config stream env.expiryNow world next ↔
      sessionOf world.state stream.1 ≠ some stream.2 := by
  obtain ⟨_, _, named, _, _, _, _, agent, connected, held⟩ := validateAgentLeaseIds_eq_ok valid
  obtain ⟨inv, drawn⟩ := sessionsDrawn_of_reachable reachable
  have invariant' : WorldInvariant world := worldInvariant_of_reaches inv ⟨operations, run⟩
  have nextInvariant : WorldInvariant next := worldInvariant_step invariant' step
  obtain ⟨state, closing⟩ := step_of_ended about named ended step
  have sessions : ∀ deviceId,
      sessionOf next.state deviceId = sessionOf world.state deviceId := by
    intro deviceId
    rw [state, sessionOf_expireLeases]
  constructor
  · intro harmless
    have still := harmless.disconnect [] next (.refl next)
    rw [← sessions]
    exact superseded_of_disconnect nextInvariant.consistent still env
  intro other
  have current : sessionOf origin.state stream.1 = some stream.2 := by
    obtain ⟨lease, leased, device, session, _⟩ := inv.consistent.leased connected held
    obtain ⟨_, _, _, found, jobLease, _, sameSession, _⟩ := validateAgentLeaseIds_eq_ok valid
    rw [leaseOf_of_get? found, jobLease] at leased
    cases leased
    rw [sessionOf, fieldOf_of_get? connected, ← session, sameSession]
  have known : stream.2 ∈ next.drawnSessions := by
    rw [(drawn_of_step step).2]
    exact List.mem_append_left _ (drawnSessions_of_run run (drawn stream.1 stream.2 current))
  have superseded : Superseded next stream.1 stream.2 := ⟨known, by rw [sessions]; exact other⟩
  exact
    { session := sessions
      jobs := by
        intro kept keptJob lease found leased early
        rw [state]
        exact ⟨jobs_expireLeases_of_lt found leased early,
          activeOn_expireLeases_of_lt invariant'.consistent found leased early⟩
      disconnect := by
        intro labels later laterRun env
        have gone := superseded_of_run nextInvariant laterRun superseded
        exact disconnect_of_superseded gone.2 }

namespace Sample

def secondLease : LeaseId := Id.filled .lease 0x32
def secondNonce : RequestNonce := Id.filled .requestNonce 6

def stream : ControlStream := (device, session)

def heartbeat : Operation :=
  .event (at_ 7 []) stream (some (.heartbeat reference))

/-- The device reconnects without recoveries and the job is cancelled, while
the old stream still carries a heartbeat. -/
def replacement : List Operation :=
  [.connect (at_ 5 []) none (hello target []) laterSession, .cancel job]

def replaced : List Operation :=
  accepted ++ replacement

def bothAccepted : List Operation :=
  [.enqueue (at_ 0 []) submission nonce, .enqueue (at_ 0 []) submission secondNonce,
    .connect (at_ 1 []) none { hello target [] with jobSlots := 2 } session,
    .welcome stream,
    .event (at_ 2 [(lease, 2), (secondLease, 2)]) stream (some (.ready ⟨session.toVec, 2⟩)),
    .event (at_ 3 []) stream (some (.accepted reference)),
    .event (at_ 4 []) stream (some (.accepted ⟨session.toVec, secondJob.toVec, secondLease.toVec⟩))]

/-- The requester of the first job gives up. -/
def oneCancelled : List Operation :=
  bothAccepted ++ [.cancel job]

def secondLeased (world : World) : Bool :=
  (leaseOf world.state.jobs secondJob).isSome

theorem not_holdsLease_of_empty {state jobId leaseId} (empty : state.jobs.keys = []) :
    ¬ HoldsLease state jobId leaseId := by
  intro held
  obtain ⟨job, _, found, _⟩ := held
  have member := Table.mem_keys_of_get? found
  rw [empty] at member
  cases member

end Sample

/-- A heartbeat on a replaced stream changes nothing. -/
theorem staleEvent_harmless_replaced : Harmless Sample.codec Sample.config Sample.stream 7
      (Sample.after Sample.replaced)
      (Sample.after (Sample.replaced ++ [Sample.heartbeat])) := by
  have valid : ∃ binding, validateAgentLeaseIds (Sample.after Sample.accepted).state Sample.stream.1
        Sample.stream.2 Sample.reference = .ok binding := by
    cases checked : validateAgentLeaseIds
        (Sample.after Sample.accepted).state Sample.stream.1 Sample.stream.2 Sample.reference with
    | ok binding => exact ⟨binding, rfl⟩
    | error failure =>
      have accepted : (validateAgentLeaseIds (Sample.after Sample.accepted).state Sample.stream.1
            Sample.stream.2 Sample.reference).isOk = true := by decide +kernel
      rw [checked] at accepted
      cases accepted
  obtain ⟨⟨jobId, job, active⟩, valid⟩ := valid
  have reachable : (coordinatorSystem Sample.codec
      Sample.config).Reachable (Sample.after Sample.accepted) :=
    Sample.reachable_after (by decide +kernel)
  have run : (coordinatorSystem Sample.codec Sample.config).Run
      (Sample.after Sample.accepted) Sample.replacement (Sample.after Sample.replaced) :=
    Sample.run_after (by decide +kernel)
  have step : (coordinatorSystem Sample.codec Sample.config).Run
      (Sample.after Sample.replaced) [Sample.heartbeat]
        (Sample.after (Sample.replaced ++ [Sample.heartbeat])) :=
    Sample.run_after (by decide +kernel)
  have ended : ∀ other, ¬ HoldsLease (expireLeases
      (Sample.at_ 7 []).jobOrder (Sample.after Sample.replaced).state
        (Sample.at_ 7 []).expiryNow) other active.leaseId := by
    intro other
    apply Sample.not_holdsLease_of_empty
    decide +kernel
  have superseded : sessionOf (Sample.after Sample.replaced).state
      Sample.stream.1 ≠ some Sample.stream.2 := by decide +kernel
  exact (staleEvent_harmless_iff reachable rfl valid run ended step.step_of_single).mpr superseded

/-- A requester cancels one of two jobs of a device while a heartbeat about it
is on its way.  The heartbeat ends the session, and the other job is
requeued. -/
theorem staleEvent_not_harmless : (coordinatorSystem Sample.codec Sample.config).Reachable
      (Sample.after Sample.bothAccepted) ∧
    (validateAgentLeaseIds (Sample.after Sample.bothAccepted).state
      Sample.device Sample.session Sample.reference).isOk = true ∧
    (coordinatorSystem Sample.codec Sample.config).Run
      (Sample.after Sample.bothAccepted) [.cancel Sample.job]
      (Sample.after Sample.oneCancelled) ∧
    (coordinatorSystem Sample.codec Sample.config).Run (Sample.after Sample.oneCancelled)
      [Sample.heartbeat, .disconnect (Sample.at_ 8 []) Sample.stream]
      (Sample.after (Sample.oneCancelled ++
        [Sample.heartbeat, .disconnect (Sample.at_ 8 []) Sample.stream])) ∧
    ¬ Harmless Sample.codec Sample.config Sample.stream 7 (Sample.after Sample.oneCancelled)
      (Sample.after (Sample.oneCancelled ++ [Sample.heartbeat])) ∧
    sessionOf (Sample.after Sample.oneCancelled).state Sample.device = some Sample.session ∧
    sessionOf (Sample.after (Sample.oneCancelled ++
        [Sample.heartbeat, .disconnect (Sample.at_ 8 []) Sample.stream])).state
      Sample.device = none ∧
    Sample.secondLeased (Sample.after Sample.oneCancelled) = true ∧
    Sample.secondLeased (Sample.after (Sample.oneCancelled ++
      [Sample.heartbeat, .disconnect (Sample.at_ 8 []) Sample.stream])) =
        false := by
  refine ⟨Sample.reachable_after (by decide +kernel), by decide +kernel,
    Sample.run_after (by decide +kernel),
    Sample.run_after (by decide +kernel), ?_, by decide +kernel,
    by decide +kernel, by decide +kernel, by decide +kernel⟩
  intro harmless
  have still := harmless.disconnect [] _ (.refl _) (Sample.at_ 8 [])
  have removed := congrArg (Option.map fun outcome =>
    sessionOf outcome.1 Sample.device) still
  revert removed
  decide +kernel

end GraphZero.Measure
