import GraphZero.Measure.CoordinatorSystem

/-!
# What an operation does before it schedules

An operation runs `schedule` last or not at all.  `entry` is the part before
it, and whether it runs; `offerings` are the turns of its loop.
-/

namespace GraphZero.Measure

open Foundation Wire

/-- The state an operation runs `schedule` in, or leaves without running
it. -/
inductive Entry where
  | schedules (env : Surroundings) (state : CoordinatorState)
  | finishes (state : CoordinatorState)

def Entry.state : Entry → CoordinatorState
  | schedules _ state => state
  | finishes state => state

/-- The state an operation with this entry leaves. -/
def Entry.Leaves (config : CoordinatorConfig) (next : CoordinatorState) : Entry → Prop
  | schedules env state => schedule config env.activeOrder env.draws state = some next
  | finishes state => next = state

section Entries

variable (codec : Codec) (config : CoordinatorConfig)

def commitEntry (env : Surroundings) (write : WriteOutcome)
    (state : CoordinatorState) (deviceId : DeviceId) (agent : AgentSession)
    (submitted : SubmittedReport) : Entry :=
  let { currentSession, jobId, leaseId, report } := submitted
  match state.jobs.get? jobId with
  | none => .finishes state
  | some job =>
    match validateReport config jobId job deviceId agent currentSession leaseId report with
    | .error _ => .finishes state
    | .ok () =>
      match state.receipts.commit codec write jobId report with
      | (.error _, receipts) => .finishes { state with receipts }
      | (.ok .identical, receipts) => .finishes { state with receipts }
      | (.ok .conflict, receipts) => .finishes { state with receipts }
      | (.ok .missing, receipts) =>
        .schedules env (settleJob { state with receipts } jobId job deviceId report)

def submitEntry (env : Surroundings) (write : WriteOutcome) (state : CoordinatorState)
    (peerFingerprint : Option CertificateFingerprint)
    (request : SubmitResultRequest) : Entry :=
  match parseSubmission request with
  | .error _ => .finishes state
  | .ok submitted =>
    match authenticateReport state peerFingerprint submitted with
    | .error _ => .finishes state
    | .ok (deviceId, agent) =>
      match state.receipts.state codec submitted.jobId submitted.report with
      | .identical => .finishes state
      | .conflict => .finishes state
      | .missing => commitEntry codec config env write state deviceId agent submitted

def enqueueEntry (env : Surroundings) (state : CoordinatorState)
    (submission : MeasureSubmission) (requestNonce : RequestNonce) : Entry :=
  match validateSubmission config submission with
  | .error _ => .finishes state
  | .ok () =>
    let state := expireLeases env.jobOrder state env.expiryNow
    match admitJob codec config env state submission requestNonce with
    | .error _ => .finishes state
    | .ok (admitted, _) => .schedules env admitted

def eventEntry (env : Surroundings) (state : CoordinatorState)
    (deviceId : DeviceId) (sessionId : SessionId)
    (event : Option AgentEvent) : Entry :=
  let state := expireLeases env.jobOrder state env.expiryNow
  match state.agents.get? deviceId with
  | none => .finishes state
  | some agent =>
    if agent.sessionId ≠ sessionId then
      .finishes state
    else
      match applyEvent config env state deviceId sessionId agent event with
      | .error _ => .finishes state
      | .ok applied => .schedules env applied

def disconnectEntry (env : Surroundings) (state : CoordinatorState)
    (deviceId : DeviceId) (sessionId : SessionId) : Entry :=
  match state.agents.get? deviceId with
  | none => .finishes state
  | some agent =>
    if agent.sessionId ≠ sessionId then
      .finishes state
    else
      .schedules env (removeAgentSession env.activeOrder state deviceId)

/-- How an operation gets to `schedule`. -/
def entry (world : World) : Operation → Entry
  | .enqueue env submission requestNonce =>
    enqueueEntry codec config env world.state submission requestNonce
  | .event env stream event => eventEntry config env world.state stream.1 stream.2 event
  | .disconnect env stream => disconnectEntry env world.state stream.1 stream.2
  | .submit env write peerFingerprint request =>
    submitEntry codec config env write world.state peerFingerprint request
  | .reap env => .schedules env (expireLeases env.jobOrder world.state env.expiryNow)
  | .cancel jobId => .finishes (cancelJob world.state jobId)
  | .connect env peerFingerprint hello sessionId =>
    .finishes (connect codec config world env peerFingerprint hello sessionId).state
  | .welcome stream => .finishes (sendWelcome world stream).state
  | .streamEnd _ => .finishes world.state
  | .drain => .finishes (drainAgents world.state)
  | .receive channel =>
    .finishes { world.state with
      channels := popCommand world.state.channels channel }
  | .hangUp channel =>
    .finishes { world.state with
      channels := closeChannel world.state.channels channel }

end Entries

section Leaves

variable {codec : Codec} {config : CoordinatorConfig} {world next : World}
  {env : Surroundings} {state : CoordinatorState}

theorem leaves_andSchedule {α : Type} {answer : α} {outcome}
    (ran : andSchedule config env state answer = some outcome) :
    (Entry.schedules env state).Leaves config outcome.1 := by
  unfold andSchedule at ran
  rw [Option.map_eq_some_iff] at ran
  obtain ⟨final, loop, rfl⟩ := ran
  exact loop

theorem leaves_commitReport {write deviceId agent submitted outcome}
    (ran : commitReport codec config env write state deviceId agent submitted = some outcome) :
    (commitEntry codec config env write state deviceId agent
      submitted).Leaves config outcome.1 := by
  obtain ⟨currentSession, jobId, leaseId, report⟩ := submitted
  unfold commitReport at ran
  unfold commitEntry
  dsimp only at ran ⊢
  cases found : state.jobs.get? jobId with
  | none =>
    rw [found] at ran
    cases ran
    rfl
  | some job =>
    rw [found] at ran
    dsimp only at ran ⊢
    cases valid : validateReport config jobId job deviceId agent currentSession leaseId report with
    | error status =>
      rw [valid] at ran
      cases ran
      rfl
    | ok _ =>
      rw [valid] at ran
      rcases answer : state.receipts.commit codec write jobId report with
        ⟨_ | known, receipts⟩
      · rw [answer] at ran
        cases ran
        rfl
      · rw [answer] at ran
        cases known with
        | identical | conflict =>
          cases ran
          rfl
        | missing => exact leaves_andSchedule ran

theorem leaves_submitResult {write peerFingerprint request outcome}
    (ran : submitResult codec config env write state peerFingerprint request = some outcome) :
    (submitEntry codec config env write state peerFingerprint request).Leaves config outcome.1 := by
  unfold submitResult at ran
  unfold submitEntry
  cases parsed : parseSubmission request with
  | error status =>
    rw [parsed] at ran
    cases ran
    rfl
  | ok submitted =>
    rw [parsed] at ran
    dsimp only at ran ⊢
    cases peer : authenticateReport state peerFingerprint submitted with
    | error status =>
      rw [peer] at ran
      cases ran
      rfl
    | ok session =>
      rw [peer] at ran
      cases known : state.receipts.state codec submitted.jobId submitted.report with
      | identical | conflict =>
        rw [known] at ran
        cases ran
        rfl
      | missing =>
        rw [known] at ran
        exact leaves_commitReport ran

theorem leaves_enqueue {submission requestNonce outcome}
    (ran : enqueue codec config env state submission requestNonce = some outcome) :
    (enqueueEntry codec config env state submission requestNonce).Leaves config outcome.1 := by
  unfold enqueue at ran
  unfold enqueueEntry
  cases valid : validateSubmission config submission with
  | error failure =>
    rw [valid] at ran
    cases ran
    rfl
  | ok _ =>
    rw [valid] at ran
    dsimp only at ran ⊢
    cases accepted : admitJob codec config env (expireLeases env.jobOrder state env.expiryNow)
        submission requestNonce with
    | error failure =>
      rw [accepted] at ran
      cases ran
      rfl
    | ok admitted =>
      rw [accepted] at ran
      exact leaves_andSchedule ran

variable {deviceId : DeviceId} {sessionId : SessionId}

theorem leaves_handleAgentEvent {event outcome}
    (ran : handleAgentEvent config env state deviceId sessionId event = some outcome) :
    (eventEntry config env state deviceId sessionId event).Leaves config outcome.1 := by
  unfold handleAgentEvent at ran
  unfold eventEntry
  dsimp only at ran ⊢
  cases connected : (expireLeases env.jobOrder state env.expiryNow).agents.get? deviceId with
  | none =>
    rw [connected] at ran
    cases ran
    rfl
  | some agent =>
    rw [connected] at ran
    dsimp only at ran ⊢
    by_cases superseded : agent.sessionId ≠ sessionId
    · rw [if_pos superseded] at ran ⊢
      cases ran
      rfl
    rw [if_neg superseded] at ran ⊢
    cases accepted : applyEvent config env (expireLeases env.jobOrder state env.expiryNow)
        deviceId sessionId agent event with
    | error failure =>
      rw [accepted] at ran
      cases ran
      rfl
    | ok applied =>
      rw [accepted] at ran
      exact leaves_andSchedule ran

theorem leaves_disconnect {outcome}
    (ran : disconnect config env state deviceId sessionId = some outcome) :
    (disconnectEntry env state deviceId sessionId).Leaves config outcome.1 := by
  unfold disconnect at ran
  unfold disconnectEntry
  cases connected : state.agents.get? deviceId with
  | none =>
    rw [connected] at ran
    cases ran
    rfl
  | some agent =>
    rw [connected] at ran
    dsimp only at ran ⊢
    by_cases superseded : agent.sessionId ≠ sessionId
    · rw [if_pos superseded] at ran ⊢
      cases ran
      rfl
    · rw [if_neg superseded] at ran ⊢
      exact leaves_andSchedule ran

theorem leaves_perform {operation} (ran : perform codec config world operation = some next) :
    (entry codec config world operation).Leaves config next.state := by
  cases operation with
  | enqueue env submission requestNonce =>
    simp only [perform, Option.map_eq_some_iff] at ran
    obtain ⟨outcome, enqueued, rfl⟩ := ran
    exact leaves_enqueue enqueued
  | event env stream event =>
    simp only [perform, Option.map_eq_some_iff] at ran
    obtain ⟨⟨state, answer⟩, handled, rfl⟩ := ran
    have left := leaves_handleAgentEvent handled
    cases answer with
    | ok => exact left
    | error failure => exact left
  | disconnect env stream =>
    simp only [perform, Option.map_eq_some_iff] at ran
    obtain ⟨outcome, disconnected, rfl⟩ := ran
    exact leaves_disconnect disconnected
  | submit env write peerFingerprint request =>
    simp only [perform, Option.map_eq_some_iff] at ran
    obtain ⟨⟨state, answer⟩, submitted, rfl⟩ := ran
    have left := leaves_submitResult submitted
    cases answer with
    | error status => exact left
    | ok ack =>
      dsimp only
      split
      · exact left
      · exact left
  | reap env =>
    simp only [perform, Option.map_eq_some_iff] at ran
    obtain ⟨outcome, reaped, rfl⟩ := ran
    exact leaves_andSchedule reaped
  | cancel jobId | connect env peerFingerprint hello sessionId | welcome stream =>
    cases ran
    rfl
  | streamEnd stream | drain | receive channel | hangUp channel =>
    cases ran
    rfl

theorem connect_eq {peerFingerprint hello sessionId deviceId profileHash}
    (greeted : greet codec config peerFingerprint hello = .ok (deviceId, profileHash)) :
    ∃ final : Reconciliation, reconcileRecoveries config env deviceId sessionId hello.recoveries
          ⟨removeAgentSession env.activeOrder (openChannel config world.state) deviceId, [], ∅⟩ =
        (final.state, .ok final) ∧
      (connect codec config world env peerFingerprint hello sessionId).state =
        registered peerFingerprint hello sessionId deviceId profileHash
          world.state.channels.length final := by
  obtain ⟨valid, named, _⟩ := greet_eq_ok greeted
  have parsed := validateRecoveries_eq_ok (validateHello_eq_ok valid)
  obtain ⟨final, reconciled, _⟩ := @reconcileRecoveries_eq_ok config env peerFingerprint hello
      sessionId deviceId profileHash world.state.channels.length _ parsed
      (fun _ member => member) named
      ⟨removeAgentSession env.activeOrder (openChannel config world.state) deviceId, [], ∅⟩
  refine ⟨final, reconciled, ?_⟩
  unfold connect
  rw [greeted]
  unfold register
  dsimp only
  rw [reconciled]
  rfl

end Leaves

/-! ## The turns of the loop -/

/-- One turn of the loop of `schedule`: the state it starts in and the
assignment it finds. -/
structure Offering where
  state : CoordinatorState
  jobId : JobId
  job : Job
  deviceId : DeviceId
  agent : AgentSession
  draw : LeaseId × Instant

/-- The turns `schedule` takes. -/
def offerings (config : CoordinatorConfig) (order : SessionId → IterationOrder JobId) :
    List (LeaseId × Instant) → CoordinatorState → List Offering
  | draws, state =>
    match findAssignment state with
    | none => []
    | some (jobId, job, deviceId, agent) =>
      match draws with
      | [] => []
      | draw :: rest =>
        ⟨state, jobId, job, deviceId, agent, draw⟩ :: offerings config order rest
            (offer config order state jobId job deviceId agent draw)

section Loop

variable {config : CoordinatorConfig} {order : SessionId → IterationOrder JobId}
  {draws : List (LeaseId × Instant)} {state next : CoordinatorState}

theorem schedule_of_unassigned (unassigned : findAssignment state = none) :
    schedule config order draws state = some state ∧ offerings config order draws state = [] := by
  unfold schedule offerings
  rw [unassigned]
  exact ⟨rfl, rfl⟩

theorem schedule_of_assigned {jobId job deviceId agent draw}
    (assigned : findAssignment state = some (jobId, job, deviceId, agent)) :
    schedule config order (draw :: draws) state = schedule config order draws
          (offer config order state jobId job deviceId agent draw) ∧
      offerings config order (draw :: draws) state = ⟨state, jobId, job, deviceId, agent, draw⟩ ::
          offerings config order draws
            (offer config order state jobId job deviceId agent draw) := by
  constructor
  · rw [schedule, assigned]
  · rw [offerings, assigned]

theorem schedule_of_exhausted {assignment} (assigned : findAssignment state = some assignment) :
    schedule config order [] state = none ∧ offerings config order [] state = [] := by
  unfold schedule offerings
  rw [assigned]
  exact ⟨rfl, rfl⟩

/-- What a turn preserves of the state holds of the state of every turn, and
of the state the loop ends in. -/
theorem schedule_invariant {good : CoordinatorState → Prop}
    (turn : ∀ state jobId job deviceId agent draw,
      findAssignment state = some (jobId, job, deviceId, agent) → good state →
          good (offer config order state jobId job deviceId agent draw))
    (start : good state) :
    (∀ offering ∈ offerings config order draws state,
      good offering.state ∧ findAssignment offering.state =
        some (offering.jobId, offering.job, offering.deviceId, offering.agent)) ∧
      ∀ next, schedule config order draws state = some next → good next := by
  induction draws generalizing state with
  | nil =>
    cases assigned : findAssignment state with
    | none =>
      obtain ⟨ends, idle⟩ := schedule_of_unassigned assigned
      rw [ends, idle]
      refine ⟨by rintro offering ⟨⟩, ?_⟩
      rintro next ⟨⟩
      exact start
    | some assignment =>
      obtain ⟨stuck, idle⟩ := schedule_of_exhausted assigned
      rw [stuck, idle]
      exact ⟨by rintro offering ⟨⟩, by rintro next ⟨⟩⟩
  | cons draw draws ih =>
    cases assigned : findAssignment state with
    | none =>
      obtain ⟨ends, idle⟩ := schedule_of_unassigned assigned
      rw [ends, idle]
      refine ⟨by rintro offering ⟨⟩, ?_⟩
      rintro next ⟨⟩
      exact start
    | some assignment =>
      obtain ⟨jobId, job, deviceId, agent⟩ := assignment
      obtain ⟨continues, turns⟩ := schedule_of_assigned assigned
      obtain ⟨later, ends⟩ := ih (turn state jobId job deviceId agent draw assigned start)
      rw [continues, turns]
      refine ⟨?_, ends⟩
      intro offering member
      rcases List.mem_cons.mp member with rfl | rest
      · exact ⟨start, assigned⟩
      · exact later offering rest

theorem findAssignment_of_schedule (scheduled : schedule config order draws state = some next) :
    findAssignment next = none := by
  induction draws generalizing state with
  | nil =>
    cases assigned : findAssignment state with
    | none =>
      rw [(schedule_of_unassigned assigned).1] at scheduled
      cases scheduled
      exact assigned
    | some assignment =>
      rw [(schedule_of_exhausted assigned).1] at scheduled
      cases scheduled
  | cons draw draws ih =>
    cases assigned : findAssignment state with
    | none =>
      rw [(schedule_of_unassigned assigned).1] at scheduled
      cases scheduled
      exact assigned
    | some assignment =>
      rw [(schedule_of_assigned assigned).1] at scheduled
      exact ih scheduled

end Loop

end GraphZero.Measure
