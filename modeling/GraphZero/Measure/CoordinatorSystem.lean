import GraphZero.Foundation.Result
import GraphZero.Measure.OperationUpdates

/-!
# The coordinator as a transition system

A step is one operation under the mutex, or one of the moves env it that
the coordinator does not control: a session's welcome, the end of its event
stream, a consumer that takes a command or goes away.  `connect` registers the
session under the lock and sends the welcome afterwards; an event loop that
ends calls `disconnect` later.  Steps of different tasks interleave freely.

`drawnLeases`, `drawnSessions` and `committed` record history.  Random
identifiers are taken to be fresh, which `Enabled` says of the draws of each
step.
-/

namespace GraphZero.Measure

open Foundation Wire List

abbrev ControlStream := DeviceId × SessionId

/-- A commit: the report and the job as it was. -/
structure CommitRecord where
  jobId : JobId
  report : MeasureReport
  job : Job

structure World where
  state : CoordinatorState
  /-- Sessions registered but not welcomed, each with its channel. -/
  welcoming : List (ControlStream × Nat × CoordinatorCommand)
  /-- Event loops that run. -/
  streams : List ControlStream
  /-- Event loops that ended and have not disconnected yet. -/
  closing : List ControlStream
  drawnLeases : List LeaseId
  drawnSessions : List SessionId
  committed : List CommitRecord

inductive Operation where
  | enqueue (env : Surroundings) (submission : MeasureSubmission)
    (requestNonce : RequestNonce)
  | cancel (jobId : JobId)
  | connect (env : Surroundings)
    (peerFingerprint : Option CertificateFingerprint) (hello : AgentHello)
    (sessionId : SessionId)
  | welcome (stream : ControlStream)
  | event (env : Surroundings) (stream : ControlStream)
    (event : Option AgentEvent)
  | streamEnd (stream : ControlStream)
  | disconnect (env : Surroundings) (stream : ControlStream)
  | submit (env : Surroundings) (write : WriteOutcome)
    (peerFingerprint : Option CertificateFingerprint)
    (request : SubmitResultRequest)
  | reap (env : Surroundings)
  | drain
  | receive (channel : Nat)
  | hangUp (channel : Nat)

namespace Operation

/-- The lease identifiers an operation draws. -/
def leases : Operation → List LeaseId
  | enqueue env _ _ | event env _ _
  | disconnect env _ | submit env _ _ _
  | reap env => env.draws.map Prod.fst
  | cancel _ | connect _ _ _ _ | welcome _ | streamEnd _ | drain
  | receive _ | hangUp _ => []

/-- The session identifiers an operation draws. -/
def sessions : Operation → List SessionId
  | connect _ _ _ sessionId => [sessionId]
  | _ => []

end Operation

section Operations

variable (codec : Codec) (config : CoordinatorConfig)

def connect (world : World) (env : Surroundings)
    (peerFingerprint : Option CertificateFingerprint) (hello : AgentHello)
    (sessionId : SessionId) : World :=
  match greet codec config peerFingerprint hello with
  | .error _ => world
  | .ok (deviceId, profileHash) =>
    match register config env world.state peerFingerprint hello
        sessionId deviceId profileHash with
    | (state, .error _) => { world with state }
    | (state, .ok command) =>
      { world with
        state
        welcoming := world.welcoming ++ [((deviceId, sessionId), world.state.channels.length,
            command)] }

def closeChannel (channels : List CommandChannel) (channel : Nat) : List CommandChannel :=
  channels.modify channel fun target => { target with receiving := false }

/-- The consumer of a channel takes its first command. -/
def popCommand (channels : List CommandChannel) (channel : Nat) : List CommandChannel :=
  channels.modify channel fun target =>
    { target with pending := target.pending.tail }

/-- The welcome of a registered session, after which its event loop starts; on
failure the call answers an error and drops the receiver. -/
def sendWelcome (world : World) (stream : ControlStream) : World :=
  match world.welcoming.find? fun entry => entry.1 = stream with
  | none => world
  | some (_, channel, command) =>
    let welcoming := world.welcoming.filter fun entry => entry.1 ≠ stream
    let (sent, channels) := trySend world.state.channels channel command
    if sent then
      { world with
        state := { world.state with channels }
        welcoming
        streams := world.streams ++ [stream] }
    else
      { world with
        state := { world.state with
          channels := closeChannel world.state.channels channel }
        welcoming }

def closeStream (world : World) (stream : ControlStream) : World :=
  { world with
    streams := world.streams.erase stream
    closing := world.closing ++ [stream] }

def commitRecord (state : CoordinatorState) (request : SubmitResultRequest) : Option CommitRecord :=
  request.report.bind fun report =>
    match Id.fromSlice report.jobId with
    | .error _ => none
    | .ok jobId => (state.jobs.get? jobId).map fun job => ⟨jobId, report, job⟩

/-- The world an operation leaves, or `none` when it needs more draws. -/
def perform (world : World) : Operation → Option World
  | .enqueue env submission requestNonce =>
    (enqueue codec config env world.state submission
      requestNonce).map fun (state, _) => { world with state }
  | .cancel jobId => some { world with state := cancelJob world.state jobId }
  | .connect env peerFingerprint hello sessionId =>
    some (connect codec config world env peerFingerprint hello sessionId)
  | .welcome stream => some (sendWelcome world stream)
  | .event env stream event =>
    (handleAgentEvent config env world.state stream.1 stream.2 event).map fun
        | (state, .ok ()) => { world with state }
        | (state, .error _) => closeStream { world with state } stream
  | .streamEnd stream => some (closeStream world stream)
  | .disconnect env stream =>
    (disconnect config env world.state stream.1 stream.2).map fun (state, _) =>
        { world with state, closing := world.closing.erase stream }
  | .submit env write peerFingerprint request =>
    (submitResult codec config env write world.state peerFingerprint request).map fun
        | (state, .ok ack) =>
          if ack.disposition = .jobCommitted then
            { world with
              state
              committed := world.committed ++ (commitRecord world.state request).toList }
          else
            { world with state }
        | (state, .error _) => { world with state }
  | .reap env =>
    (reapExpired config env world.state).map fun (state, _) =>
      { world with state }
  | .drain => some { world with state := drainAgents world.state }
  | .receive channel =>
    some { world with state := { world.state with
      channels := popCommand world.state.channels channel } }
  | .hangUp channel =>
    some { world with state := { world.state with
      channels := closeChannel world.state.channels channel } }

end Operations

/-- An event loop that runs may receive an event or end, and one that ended
may disconnect. -/
def Possible (world : World) : Operation → Prop
  | .event _ stream _ | .streamEnd stream => stream ∈ world.streams
  | .disconnect _ stream => stream ∈ world.closing
  | .enqueue _ _ _ | .cancel _ | .connect _ _ _ _ | .welcome _
  | .submit _ _ _ _ | .reap _ | .drain | .receive _ | .hangUp _ => True

instance (world : World) : (operation : Operation) → Decidable (Possible world operation)
  | .event _ stream _ | .streamEnd stream => inferInstanceAs (Decidable (stream ∈ world.streams))
  | .disconnect _ stream => inferInstanceAs (Decidable (stream ∈ world.closing))
  | .enqueue _ _ _ | .cancel _ | .connect _ _ _ _ | .welcome _
  | .submit _ _ _ _ | .reap _ | .drain | .receive _ | .hangUp _ => inferInstanceAs (Decidable True)

/-- Which operations may happen next: what they draw is fresh. -/
structure Enabled (world : World) (operation : Operation) : Prop where
  freshLeases : (world.drawnLeases ++ operation.leases).Nodup
  freshSessions : (world.drawnSessions ++ operation.sessions).Nodup
  possible : Possible world operation

instance (world : World) (operation : Operation) : Decidable (Enabled world operation) :=
  decidable_of_iff ((world.drawnLeases ++ operation.leases).Nodup ∧
      (world.drawnSessions ++ operation.sessions).Nodup ∧
      Possible world operation)
    ⟨fun ⟨leases, sessions, possible⟩ => ⟨leases, sessions, possible⟩,
      fun enabled =>
        ⟨enabled.freshLeases, enabled.freshSessions, enabled.possible⟩⟩

/-- The draws of an operation are used up by it. -/
def recordDraws (world : World) (operation : Operation) : World :=
  { world with
    drawnLeases := world.drawnLeases ++ operation.leases
    drawnSessions := world.drawnSessions ++ operation.sessions }

def initialWorld (receipts : ReceiptLedger) : World :=
  { state := newState receipts
    welcoming := [], streams := [], closing := []
    drawnLeases := [], drawnSessions := [], committed := [] }

/-- The coordinator, started on a ledger that opened. -/
def coordinatorSystem (codec : Codec) (config : CoordinatorConfig) :
    TransitionSystem World Operation where
  initial world := ∃ content receipts,
    ReceiptLedger.open codec content config.receiptLedger = .ok receipts ∧
      world = initialWorld receipts
  step world operation next :=
    Enabled world operation ∧ ∃ ran,
      perform codec config world operation = some ran ∧ next = recordDraws ran operation

/-- The world a list of operations leads to, if each is enabled in turn. -/
def follow (codec : Codec) (config : CoordinatorConfig) : List Operation → World → Option World
  | [], world => some world
  | operation :: rest, world =>
    if Enabled world operation then
      (perform codec config world operation).bind fun ran =>
        follow codec config rest (recordDraws ran operation)
    else
      none

theorem follow_append {codec config} (first second : List Operation) (world : World) :
    follow codec config (first ++ second) world =
      (follow codec config first world).bind fun mid =>
        follow codec config second mid := by
  induction first generalizing world with
  | nil => rfl
  | cons operation first ih =>
    rw [cons_append, follow, follow]
    by_cases enabled : Enabled world operation
    · rw [if_pos enabled, if_pos enabled, Option.bind_assoc]
      apply Option.bind_congr
      intro ran _
      exact ih _
    · rw [if_neg enabled, if_neg enabled, Option.bind_none]

theorem run_of_follow {codec config operations world next}
    (followed : follow codec config operations world = some next) :
    (coordinatorSystem codec config).Run world operations next := by
  induction operations generalizing world with
  | nil =>
    cases followed
    exact .refl _
  | cons operation rest ih =>
    unfold follow at followed
    split at followed
    · next enabled =>
      rw [Option.bind_eq_some_iff] at followed
      obtain ⟨ran, succeeded, remaining⟩ := followed
      exact .cons ⟨enabled, ran, succeeded, rfl⟩ (ih remaining)
    · cases followed

/-! ## Operations as updates -/

/-- The updates an operation is made of. -/
inductive Change.Of : Operation → Change → Prop
  | scheduling {operation change} (scheduled : change.Scheduling operation.leases)
    : Of operation change
  | admitted {env submission requestNonce} (jobId : JobId) :
    Of (.enqueue env submission requestNonce) (.admitted jobId)
  | cancelled (jobId : JobId) : Of (.cancel jobId) (.cancelled jobId)
  | connected {env peerFingerprint hello} (sessionId : SessionId) :
    Of (.connect env peerFingerprint hello sessionId) (.connected sessionId)
  | rebound {env peerFingerprint hello sessionId recovery jobId deviceId leaseId profileHash}
    (named : recovery ∈ hello.recoveries) (job : recovery.jobId = jobId.toVec)
    (lease : recovery.leaseId = leaseId.toVec) (device : hello.deviceId = deviceId.toVec) :
    Of (.connect env peerFingerprint hello sessionId)
      (.rebound jobId deviceId leaseId profileHash)
  | renewed {env stream event} (jobId : JobId) :
    Of (.event env stream event) (.renewed jobId)
  | credited {operation} (deviceId : DeviceId) :
    Of operation (.credited deviceId)
  | settled {env write peerFingerprint request report jobId}
    (submitted : request.report = some report) (job : report.jobId = jobId.toVec) :
    Of (.submit env write peerFingerprint request) (.settled jobId report)
  | communicated {operation} : Of operation .communicated

variable {leaseId : LeaseId}

theorem drawn_of_offered {operation jobId}
    (permitted : Change.Of operation (.offered jobId leaseId)) :
    leaseId ∈ operation.leases := by
  cases permitted with
  | scheduling scheduled =>
    cases scheduled with
    | ending ends => cases ends
    | offered _ member => exact member

/-- The updates of a `connect` that announced `profileHash`. -/
def Change.Greeting (operation : Operation)
    (profileHash : DeviceProfileHash) (change : Change) : Prop :=
  change.Of operation ∧ ∀ jobId deviceId leaseId bound,
    change = .rebound jobId deviceId leaseId bound → bound = profileHash

def Change.Prelude (operation : Operation) (change : Change) : Prop :=
  change.Of operation ∧ ∀ jobId leaseId, change ≠ .offered jobId leaseId

section Decomposition

variable {codec : Codec} {config : CoordinatorConfig}
  {env : Surroundings} {state next : CoordinatorState}

variable {operation : Operation} {submission : MeasureSubmission}
  {requestNonce : RequestNonce} {stream : ControlStream} {deviceId : DeviceId}
  {agent : AgentSession} {event : Option AgentEvent}
  {peerFingerprint : Option CertificateFingerprint}
  {submitted : SubmittedReport} {request : SubmitResultRequest}
  {write : WriteOutcome} {hello : AgentHello}

theorem updates_thenSchedule {α : Type} {answer : α} {outcome}
    (draws : operation.leases = env.draws.map Prod.fst)
    (prelude : UpdatesWithin (Change.Prelude operation) state next) (sound : Consistent state)
    (fresh : FreshDraws operation.leases state)
    (scheduled : andSchedule config env next answer = some outcome) :
    UpdatesWithin (Change.Of operation) state outcome.1 := by
  unfold andSchedule at scheduled
  rw [Option.map_eq_some_iff] at scheduled
  obtain ⟨final, loop, rfl⟩ := scheduled
  have later := fresh.after prelude sound
    fun jobId leaseId permitted => absurd rfl (permitted.2 jobId leaseId)
  rw [draws] at later
  have offers := updates_schedule (prelude.consistent sound) later loop
  rw [← draws] at offers
  exact (prelude.mono fun _ permitted => permitted.1).trans (offers.mono fun _ => .scheduling)

theorem prelude_of_ending {change : Change} (ends : change.Ending) : change.Prelude operation := by
  refine ⟨.scheduling (.ending ends), ?_⟩
  rintro jobId leaseId rfl
  cases ends

theorem retainArtifacts_eq {order descriptors artifacts}
    (retained : retainArtifacts config order state descriptors artifacts = .ok next) :
    ∃ stored storedBytes, next = { state with artifacts := stored, artifactBytes := storedBytes } :=
    by
  obtain ⟨requested, _, retained⟩ := ok_of_bind retained
  obtain ⟨⟨newItems, newBytes⟩, _, retained⟩ := ok_of_bind retained
  dsimp only at retained
  split at retained
  · cases retained
  obtain ⟨newTotal, _, retained⟩ := ok_of_bind retained
  split at retained
  · cases retained
  · cases retained
    exact ⟨_, _, rfl⟩

theorem admitJob_eq {id}
    (admitted : admitJob codec config env state submission requestNonce = .ok (next, id)) :
    state.jobs.get? id = none ∧ state.receipts.contains id = false ∧ ∃ artifacts artifactBytes job,
        job.submission = submission ∧ job.state = .queued ∧
        job.recovery = none ∧ job.reply = some state.requesters ∧
        next = { state with
          artifacts
          artifactBytes
          jobs := state.jobs.insert id job
          queue := state.queue ++ [id]
          requesters := state.requesters + 1 } := by
  unfold admitJob at admitted
  dsimp only at admitted
  split at admitted
  · cases admitted
  next unknown =>
  split at admitted
  · cases admitted
  split at admitted
  · cases admitted
  obtain ⟨retained, stored, admitted⟩ := ok_of_bind admitted
  obtain ⟨artifacts, bytes, rfl⟩ := retainArtifacts_eq stored
  cases admitted
  simp only [Bool.or_eq_true, not_or, Bool.not_eq_true] at unknown
  exact ⟨Table.contains_eq_false_iff.mp unknown.1, unknown.2,
    artifacts, bytes, _, rfl, rfl, rfl, rfl, rfl⟩

theorem prelude_expireLeases (order : IterationOrder JobId) (now : Instant)
    (sound : Consistent state) :
    UpdatesWithin (Change.Prelude operation) state (expireLeases order state now) :=
  (updates_expireLeases order now sound).mono fun _ => prelude_of_ending

section

variable {outcome : CoordinatorState × ServiceResult JobId} (sound : Consistent state)
  (fresh : FreshDraws (env.draws.map Prod.fst) state)
include sound fresh

theorem updates_enqueue_expired (valid : validateSubmission config submission = .ok ())
    (ran : enqueue codec config env state submission requestNonce = some outcome) :
    UpdatesWithin (Change.Of (.enqueue env submission requestNonce))
      (expireLeases env.jobOrder state env.expiryNow)
      outcome.1 := by
  have expires := updates_expireLeases env.jobOrder env.expiryNow sound
  unfold enqueue at ran
  rw [valid] at ran
  dsimp only at ran
  split at ran
  · cases ran
    exact .refl _
  next admitted id accepted =>
  obtain ⟨unknown, uncommitted, artifacts, bytes, job, _, queued,
    unrecoverable, requester, rfl⟩ := admitJob_eq accepted
  refine updates_thenSchedule rfl (.single
    (.enqueue unknown uncommitted queued unrecoverable requester)
      ⟨.admitted id, ?_⟩) (expires.consistent sound)
    (fresh.ending expires sound) ran
  intro jobId leaseId impossible
  cases impossible

theorem updates_enqueue
    (ran : enqueue codec config env state submission requestNonce = some outcome) :
    UpdatesWithin (Change.Of (.enqueue env submission requestNonce)) state outcome.1 := by
  cases valid : validateSubmission config submission with
  | error failure =>
    unfold enqueue at ran
    rw [valid] at ran
    cases ran
    exact .refl _
  | ok =>
    exact UpdatesWithin.trans ((prelude_expireLeases env.jobOrder env.expiryNow
        sound).mono fun _ permitted => permitted.1)
      (updates_enqueue_expired sound fresh valid ran)

end

section

variable {outcome : CoordinatorState × Unit} (sound : Consistent state)
  (fresh : FreshDraws (env.draws.map Prod.fst) state)
include sound fresh

theorem updates_disconnect (ran : disconnect config env state stream.1 stream.2 = some outcome) :
    UpdatesWithin (Change.Of (.disconnect env stream)) state outcome.1 := by
  unfold disconnect at ran
  split at ran
  · cases ran
    exact .refl _
  split at ran
  · cases ran
    exact .refl _
  exact updates_thenSchedule rfl ((updates_removeAgentSession env.activeOrder stream.1
      sound).mono fun _ => prelude_of_ending)
    sound fresh ran

theorem updates_reapExpired (ran : reapExpired config env state = some outcome) :
    UpdatesWithin (Change.Of (.reap env)) state outcome.1 :=
  updates_thenSchedule rfl (prelude_expireLeases env.jobOrder env.expiryNow sound) sound fresh ran

end

theorem updates_cancelJob (sound : Consistent state) (jobId : JobId) :
    UpdatesWithin (Change.Of (.cancel jobId)) state (cancelJob state jobId) := by
  cases found : state.jobs.get? jobId with
  | none =>
    have unqueued : jobId ∉ state.queue := by
      intro waiting
      obtain ⟨job, present, _⟩ := (sound.mem_queue_iff jobId).mp waiting
      rw [found] at present
      cases present
    have unchanged : cancelJob state jobId = state := by
      simp [cancelJob, found, erase_of_not_mem unqueued]
    rw [unchanged]
    exact .refl state
  | some job => exact .single (.cancel found) (.cancelled jobId)

theorem updates_drainAgents : UpdatesWithin (Change.Of operation) state (drainAgents state) := by
  unfold drainAgents
  induction state.agents.sortedKeys generalizing state with
  | nil => exact .refl state
  | cons deviceId devices ih =>
    refine UpdatesWithin.trans ?_ ih
    unfold drainAgent
    split
    · exact .refl state
    · next agent connected =>
      exact .single (.credit connected) (.credited deviceId)

theorem updates_channels (channels : List CommandChannel) :
    UpdatesWithin (Change.Of operation) state { state with channels } :=
  .single (.communicate rfl) .communicated

/-! ### Events -/

theorem validateAgentLeaseIds_eq_ok {sessionId event jobId job active}
    (valid : validateAgentLeaseIds state deviceId sessionId event = .ok (jobId, job, active)) :
    event.sessionId = sessionId.toVec ∧ event.jobId = jobId.toVec ∧
      event.leaseId = active.leaseId.toVec ∧
      state.jobs.get? jobId = some job ∧ job.state.lease = some active ∧
      active.deviceId = deviceId ∧ active.currentSessionId = sessionId ∧
      ∃ agent, state.agents.get? deviceId = some agent ∧
        agent.active.get? jobId = some active.leaseId := by
  obtain ⟨eventSession, session, valid⟩ := ok_of_bind valid
  dsimp only at valid
  split at valid
  · cases valid
  next sameSession =>
  obtain ⟨eventJob, parsedJob, valid⟩ := ok_of_bind valid
  obtain ⟨leaseId, parsedLease, valid⟩ := ok_of_bind valid
  split at valid
  · cases valid
  next agent connected =>
  split at valid
  · cases valid
  next held =>
  split at valid
  · cases valid
  next found =>
  split at valid
  · cases valid
  next lease leased =>
  split at valid
  · cases valid
  next identity =>
  cases valid
  simp only [not_or, not_not] at identity held
  obtain ⟨device, current, same⟩ := identity
  have sessionEq : eventSession = sessionId := by
    simpa using sameSession
  subst sessionEq same
  exact ⟨Id.fromSlice_eq_ok_iff.mp session, Id.fromSlice_eq_ok_iff.mp parsedJob,
    Id.fromSlice_eq_ok_iff.mp parsedLease, found,
    leased, device, current, agent, connected, held⟩

theorem applyEvent_eq_ok {deviceId sessionId}
    (applied : applyEvent config env state deviceId sessionId agent event = .ok next) :
    (∃ freeSlots draining, freeSlots ≤ agent.slotCapacity - min agent.active.size (2 ^ 32 - 1) ∧
      next = { state with
        agents := state.agents.insert deviceId { agent with freeSlots, draining } }) ∨
    ∃ lease jobId job active,
      validateAgentLeaseIds state deviceId sessionId lease = .ok (jobId, job, active) ∧
      (next = renewLease config env state jobId job active ∨
        event = some (.rejected lease) ∧ next = requeueActive state jobId active false) := by
  cases event with
  | none => cases applied
  | some message =>
    cases message with
    | hello hello => cases applied
    | ready ready =>
      obtain ⟨readySession, _, applied⟩ := ok_of_bind applied
      dsimp only at applied
      split at applied
      · cases applied
      split at applied
      · cases applied
      · cases applied
        exact .inl ⟨_, agent.draining, Nat.min_le_right _ _, rfl⟩
    | draining session =>
      obtain ⟨drainingSession, _, applied⟩ := ok_of_bind applied
      split at applied
      · cases applied
      · cases applied
        exact .inl ⟨0, true, Nat.zero_le _, rfl⟩
    | rejected lease =>
      obtain ⟨⟨jobId, job, active⟩, valid, applied⟩ := ok_of_bind applied
      cases applied
      exact .inr ⟨lease, jobId, job, active, valid, .inr ⟨rfl, rfl⟩⟩
    | accepted lease | heartbeat lease =>
      obtain ⟨⟨jobId, job, active⟩, valid, applied⟩ := ok_of_bind applied
      dsimp only at applied
      split at applied
      · cases applied
        exact .inr ⟨lease, jobId, job, active, valid, .inl rfl⟩
      · cases applied

theorem updates_applyEvent (connected : state.agents.get? stream.1 = some agent)
    (applied : applyEvent config env state stream.1 stream.2 agent event = .ok next) :
    UpdatesWithin (Change.Prelude (.event env stream event)) state next := by
  rcases applyEvent_eq_ok applied with
    ⟨_, _, _, rfl⟩ | ⟨_, jobId, _, _, valid, renewed⟩
  · exact .single (.credit connected) ⟨.credited stream.1, by simp⟩
  · obtain ⟨_, _, _, found, leased, _⟩ := validateAgentLeaseIds_eq_ok valid
    rcases renewed with rfl | ⟨rfl, rfl⟩
    · exact .single (.renew found leased) ⟨.renewed jobId, by simp⟩
    · exact .single (.requeue found leased (by simp)) (prelude_of_ending (.requeued jobId))

section

variable {outcome : CoordinatorState × ServiceResult Unit} (sound : Consistent state)
  (fresh : FreshDraws (env.draws.map Prod.fst) state)
  (ran : handleAgentEvent config env state stream.1 stream.2 event = some outcome)
include sound fresh ran

theorem updates_handleAgentEvent_expired : UpdatesWithin (Change.Of (.event env stream event))
      (expireLeases env.jobOrder state env.expiryNow)
      outcome.1 := by
  have expires := updates_expireLeases env.jobOrder env.expiryNow sound
  unfold handleAgentEvent at ran
  dsimp only at ran
  split at ran
  · cases ran
    exact .refl _
  next agent connected =>
  split at ran
  · cases ran
    exact .refl _
  split at ran
  · cases ran
    exact .refl _
  · next applied accepted =>
    exact updates_thenSchedule rfl (updates_applyEvent connected accepted)
      (expires.consistent sound)
      (fresh.ending expires sound) ran

theorem updates_handleAgentEvent : UpdatesWithin (Change.Of (.event env stream event)) state
      outcome.1 :=
  UpdatesWithin.trans ((prelude_expireLeases env.jobOrder env.expiryNow
      sound).mono fun _ permitted => permitted.1)
    (updates_handleAgentEvent_expired sound fresh ran)

end

/-! ### Results -/

variable {agent : AgentSession}

theorem authenticateSession_eq_ok {sessionId peerFingerprint deviceId}
    (authenticated : authenticateSession state sessionId peerFingerprint = .ok (deviceId, agent)) :
    state.agents.get? deviceId = some agent ∧ agent.sessionId = sessionId ∧
      agent.peerFingerprint = peerFingerprint := by
  unfold authenticateSession at authenticated
  dsimp only at authenticated
  split at authenticated
  · cases authenticated
  next device session found =>
  obtain ⟨candidate, _, chosen⟩ := exists_of_findSome?_eq_some found
  rw [Option.bind_eq_some_iff] at chosen
  obtain ⟨holder, connected, matched⟩ := chosen
  simp only [Option.ite_none_right_eq_some, Option.some.injEq, Prod.mk.injEq] at matched
  obtain ⟨same, rfl, rfl⟩ := matched
  split at authenticated
  · cases authenticated
  · next peer =>
    cases authenticated
    exact ⟨connected, same, by simpa using peer⟩

theorem authenticateReport_eq_ok {deviceId}
    (authenticated : authenticateReport state peerFingerprint submitted = .ok (deviceId, agent)) :
    state.agents.get? deviceId = some agent ∧ agent.sessionId = submitted.currentSession ∧
      submitted.report.deviceId = deviceId.toVec := by
  obtain ⟨⟨device, session⟩, found, authenticated⟩ := ok_of_bind authenticated
  obtain ⟨connected, same, _⟩ := authenticateSession_eq_ok found
  obtain ⟨reportDevice, parsed, authenticated⟩ := ok_of_bind authenticated
  have named := Id.fromSlice_eq_ok_iff.mp (ok_of_mapError parsed)
  split at authenticated
  · cases authenticated
  · next equal =>
    cases authenticated
    have sameDevice : reportDevice = deviceId := by simpa using equal
    exact ⟨connected, same, sameDevice ▸ named⟩

theorem parseSubmission_eq_ok {submitted} (parsed : parseSubmission request = .ok submitted) :
    request.report = some submitted.report ∧
      request.currentSessionId = submitted.currentSession.toVec ∧
      submitted.report.jobId = submitted.jobId.toVec ∧
      submitted.report.leaseId = submitted.leaseId.toVec := by
  obtain ⟨session, sessionParsed, parsed⟩ := ok_of_bind parsed
  have current := Id.fromSlice_eq_ok_iff.mp (ok_of_mapError sessionParsed)
  split at parsed
  · cases parsed
  next report present =>
  obtain ⟨job, jobParsed, parsed⟩ := ok_of_bind parsed
  obtain ⟨lease, leaseParsed, parsed⟩ := ok_of_bind parsed
  cases parsed
  exact ⟨present, current, Id.fromSlice_eq_ok_iff.mp (ok_of_mapError jobParsed),
    Id.fromSlice_eq_ok_iff.mp (ok_of_mapError leaseParsed)⟩

theorem validateReport_eq_ok {jobId job deviceId currentSession report}
    (valid : validateReport config jobId job deviceId agent currentSession
      leaseId report = .ok ()) :
    ∃ active, job.state = .running active ∧ active.deviceId = deviceId ∧
      active.currentSessionId = currentSession ∧ active.leaseId = leaseId ∧
      agent.active.get? jobId = some leaseId ∧
      report.deviceProfileHash = agent.profileHash.toVec := by
  unfold validateReport at valid
  split at valid
  · cases valid
  · cases valid
  next active running =>
  dsimp only at valid
  split at valid
  · cases valid
  next identity =>
  split at valid
  · cases valid
  · next same =>
    simp only [not_or, not_not] at identity same
    exact ⟨active, running, identity.1, identity.2.1, identity.2.2.1, identity.2.2.2, same.2.1⟩

theorem commitReport_cases {deviceId submitted outcome}
    (ran : commitReport codec config env write state deviceId agent submitted = some outcome) :
    (∃ receipts, receipts.receipts = state.receipts.receipts ∧ outcome.1 = { state with receipts } ∧
      ∀ ack, outcome.2 = .ok ack → ack.disposition ≠ .jobCommitted) ∨
    ∃ job receipts, state.jobs.get? submitted.jobId = some job ∧
      validateReport config submitted.jobId job deviceId agent
        submitted.currentSession submitted.leaseId submitted.report = .ok () ∧
      state.receipts.receipts.get? submitted.jobId = none ∧
      receipts.receipts = state.receipts.receipts.insert submitted.jobId
        (reportDigest codec submitted.report) ∧
      andSchedule config env
        (settleJob { state with receipts } submitted.jobId job deviceId submitted.report)
        (.ok resultCommitted) = some outcome := by
  obtain ⟨currentSession, jobId, leaseId, report⟩ := submitted
  unfold commitReport at ran
  dsimp only at ran ⊢
  split at ran
  · cases ran
    exact Or.inl ⟨state.receipts, rfl, rfl, by simp⟩
  next job found =>
  split at ran
  · cases ran
    exact Or.inl ⟨state.receipts, rfl, rfl, by simp⟩
  next valid =>
  have committed := ReceiptLedger.commit_cases codec write state.receipts jobId report
  have refused : ∀ answer receipts,
      state.receipts.commit codec write jobId report = (answer, receipts) →
      answer ≠ .ok .missing → receipts.receipts = state.receipts.receipts := by
    intro answer receipts equal different
    rw [equal] at committed
    rcases committed with ⟨missing, _⟩ | ⟨_, unchanged⟩
    · exact absurd missing different
    · exact unchanged
  split at ran
  · next equal =>
    cases ran
    exact Or.inl ⟨_, refused _ _ equal (by simp), rfl, by simp⟩
  · next equal =>
    cases ran
    exact Or.inl ⟨_, refused _ _ equal (by simp), rfl, by
      rintro ack ⟨⟩
      simp [alreadyCommitted]⟩
  · next equal =>
    cases ran
    exact Or.inl ⟨_, refused _ _ equal (by simp), rfl, by
      rintro ack ⟨⟩
      simp [differentReport]⟩
  next receipts equal =>
  rw [equal] at committed
  rcases committed with ⟨_, absent, recorded⟩ | ⟨different, _⟩
  · exact Or.inr ⟨job, receipts, found, valid, absent, recorded, ran⟩
  · exact absurd rfl different

section

variable {peerFingerprint : Option CertificateFingerprint} {request : SubmitResultRequest}
  {outcome : CoordinatorState × Except Status SubmitResultAck}

theorem submitResult_cases (ran : submitResult codec config env write state
      peerFingerprint request = some outcome) :
    (∃ receipts, receipts.receipts = state.receipts.receipts ∧ outcome.1 = { state with receipts } ∧
      ∀ ack, outcome.2 = .ok ack → ack.disposition ≠ .jobCommitted) ∨
    ∃ submitted deviceId agent job receipts, parseSubmission request = .ok submitted ∧
      authenticateReport state peerFingerprint submitted = .ok (deviceId, agent) ∧
      state.jobs.get? submitted.jobId = some job ∧
      validateReport config submitted.jobId job deviceId agent
        submitted.currentSession submitted.leaseId submitted.report = .ok () ∧
      state.receipts.receipts.get? submitted.jobId = none ∧
      receipts.receipts = state.receipts.receipts.insert submitted.jobId
        (reportDigest codec submitted.report) ∧
      andSchedule config env
        (settleJob { state with receipts } submitted.jobId job deviceId submitted.report)
        (.ok resultCommitted) = some outcome := by
  unfold submitResult at ran
  split at ran
  · cases ran
    exact Or.inl ⟨state.receipts, rfl, rfl, by simp⟩
  next submitted parsed =>
  split at ran
  · cases ran
    exact Or.inl ⟨state.receipts, rfl, rfl, by simp⟩
  next deviceId agent authenticated =>
  split at ran
  · cases ran
    exact Or.inl ⟨state.receipts, rfl, rfl, by
      rintro ack ⟨⟩
      simp [alreadyCommitted]⟩
  · cases ran
    exact Or.inl ⟨state.receipts, rfl, rfl, by
      rintro ack ⟨⟩
      simp [differentReport]⟩
  · rcases commitReport_cases ran with unchanged |
      ⟨job, receipts, found, valid, absent, recorded, scheduled⟩
    · exact Or.inl unchanged
    · exact Or.inr ⟨submitted, deviceId, agent, job, receipts, parsed,
        authenticated, found, valid, absent, recorded, scheduled⟩

theorem updates_submitResult (sound : Consistent state)
    (fresh : FreshDraws (env.draws.map Prod.fst) state)
    (ran : submitResult codec config env write state peerFingerprint request = some outcome) :
    UpdatesWithin (Change.Of (.submit env write peerFingerprint request)) state outcome.1 := by
  rcases submitResult_cases ran with
    ⟨receipts, recorded, unchanged, _⟩ |
    ⟨submitted, deviceId, agent, job, receipts, parsed, authenticated, found,
      valid, _, recorded, scheduled⟩
  · rw [unchanged]
    exact .single (.communicate recorded) .communicated
  · obtain ⟨present, _, named, _⟩ := parseSubmission_eq_ok parsed
    obtain ⟨connected, _, _⟩ := authenticateReport_eq_ok authenticated
    obtain ⟨active, running, rfl, _⟩ := validateReport_eq_ok valid
    exact updates_thenSchedule rfl (.single (.settle found running connected recorded)
        ⟨.settled present named, by simp⟩) sound fresh scheduled

end

/-! ### Sessions -/

theorem validateRecoveries_eq_ok {recoveries recoveredJobs}
    (valid : validateRecoveries recoveries recoveredJobs = .ok ()) :
    ∀ recovery ∈ recoveries, ∃ (jobId : JobId) (leaseId : LeaseId),
      Id.fromSlice recovery.jobId = .ok jobId ∧ Id.fromSlice recovery.leaseId = .ok leaseId := by
  induction recoveries generalizing recoveredJobs with
  | nil =>
    intro recovery member
    cases member
  | cons recovery recoveries ih =>
    obtain ⟨jobId, job, valid⟩ := ok_of_bind valid
    dsimp only at valid
    split at valid
    · cases valid
    obtain ⟨leaseId, lease, valid⟩ := ok_of_bind valid
    have rest : ∃ seen, validateRecoveries recoveries seen = .ok () := by
      split at valid
      · cases valid
      · cases valid
      · split at valid
        · cases valid
        · exact ⟨_, valid⟩
    obtain ⟨seen, validRest⟩ := rest
    intro other member
    rcases mem_cons.mp member with here | there
    · rw [here]
      exact ⟨jobId, leaseId, job, lease⟩
    · exact ih validRest other there

theorem recoveries_of_validateHello (valid : validateHello config hello = .ok ()) :
    hello.recoveries.length ≤ hello.jobSlots.toNat ∧
      validateRecoveries hello.recoveries [] = .ok () := by
  unfold validateHello at valid
  by_cases major : hello.protocolMajor ≠ protocolMajor
  · rw [if_pos major] at valid
    cases valid
  rw [if_neg major] at valid
  by_cases minor : hello.protocolMinor ≠ protocolMinor
  · rw [if_pos minor] at valid
    cases valid
  rw [if_neg minor] at valid
  obtain ⟨_, _, valid⟩ := ok_of_bind valid
  by_cases build : hello.agentBuild.isEmpty ∨ maxAgentBuildBytes < hello.agentBuild.utf8ByteSize
  · rw [if_pos build] at valid
    cases valid
  rw [if_neg build] at valid
  cases profile : hello.profile with
  | none =>
    rw [profile] at valid
    cases valid
  | some present =>
    rw [profile] at valid
    obtain ⟨_, _, valid⟩ := ok_of_bind valid
    by_cases empty : hello.capabilities.isEmpty
    · rw [if_pos empty] at valid
      cases valid
    rw [if_neg empty] at valid
    by_cases slots : hello.jobSlots = 0 ∨ config.commandCapacity < hello.jobSlots.toNat
    · rw [if_pos slots] at valid
      cases valid
    rw [if_neg slots] at valid
    obtain ⟨_, _, valid⟩ := ok_of_bind valid
    by_cases many : hello.jobSlots.toNat < hello.recoveries.length
    · rw [if_pos many] at valid
      cases valid
    rw [if_neg many] at valid
    exact ⟨Nat.le_of_not_lt many, valid⟩

theorem validateHello_eq_ok (valid : validateHello config hello = .ok ()) :
    validateRecoveries hello.recoveries [] = .ok () :=
  (recoveries_of_validateHello valid).2

theorem greet_eq_ok {deviceId profileHash}
    (greeted : greet codec config peerFingerprint hello = .ok (deviceId, profileHash)) :
    validateHello config hello = .ok () ∧ hello.deviceId = deviceId.toVec ∧
      ∃ profile, hello.profile = some profile ∧ profileHash = deviceProfileHash codec profile := by
  obtain ⟨_, valid, greeted⟩ := ok_of_bind greeted
  obtain ⟨device, parsed, greeted⟩ := ok_of_bind greeted
  obtain ⟨_, _, greeted⟩ := ok_of_bind greeted
  have named := Id.fromSlice_eq_ok_iff.mp (ok_of_mapError parsed)
  split at greeted
  · cases greeted
  · next profile present =>
    cases greeted
    exact ⟨ok_of_mapError valid, named, profile, present, rfl⟩

section Register

variable {peerFingerprint : Option CertificateFingerprint}
  {hello : AgentHello} {sessionId : SessionId} {deviceId : DeviceId}
  {profileHash : DeviceProfileHash} {channel : Nat}

/-- The state once the session is registered with the leases recovered so
far. -/
def registered (peerFingerprint : Option CertificateFingerprint)
    (hello : AgentHello) (sessionId : SessionId) (deviceId : DeviceId)
    (profileHash : DeviceProfileHash) (channel : Nat)
    (progress : Reconciliation) : CoordinatorState :=
  { progress.state with
    agents := progress.state.agents.insert deviceId
      (newSession peerFingerprint hello sessionId profileHash channel progress.agentActive) }

theorem recoverable_eq_some {jobId job active}
    (recovered : recoverable state deviceId jobId leaseId = some (job, active)) :
    state.jobs.get? jobId = some job ∧ job.recovery = some active ∧
      active.deviceId = deviceId ∧ active.leaseId = leaseId := by
  unfold recoverable at recovered
  rw [Option.bind_eq_some_iff] at recovered
  obtain ⟨found, get, recovered⟩ := recovered
  rw [Option.bind_eq_some_iff] at recovered
  obtain ⟨lease, recovery, recovered⟩ := recovered
  split at recovered
  · next own =>
    cases recovered
    exact ⟨get, recovery, own.1, own.2⟩
  · cases recovered

theorem updates_reconcileRecovery {progress recovery jobId} (named : recovery ∈ hello.recoveries)
    (job : recovery.jobId = jobId.toVec) (lease : recovery.leaseId = leaseId.toVec)
    (device : hello.deviceId = deviceId.toVec) :
    UpdatesWithin (Change.Greeting (.connect env peerFingerprint hello sessionId) profileHash)
      (registered peerFingerprint hello sessionId deviceId profileHash channel progress)
      (registered peerFingerprint hello sessionId deviceId profileHash channel
        (reconcileRecovery config env deviceId sessionId progress jobId leaseId)) := by
  unfold reconcileRecovery
  dsimp only
  split
  · exact .refl _
  split
  · next recoveredJob active recovered =>
    obtain ⟨found, recovery, rfl, rfl⟩ := recoverable_eq_some recovered
    have connected : (registered peerFingerprint hello sessionId
        active.deviceId profileHash channel progress).agents.get? active.deviceId =
            some (newSession peerFingerprint hello sessionId profileHash
              channel progress.agentActive) :=
      Table.get?_insert_self _ _ _
    have foundThere : (registered peerFingerprint hello sessionId
        active.deviceId profileHash channel progress).jobs.get? jobId = some recoveredJob := found
    have update := @Update.rebind _ jobId recoveredJob _ active
      (env.renewalNow jobId + config.leaseDuration) foundThere recovery connected
    have permitted : Change.Greeting (.connect env peerFingerprint hello sessionId) profileHash
        (.rebound jobId active.deviceId active.leaseId profileHash) := by
      refine ⟨.rebound named job lease device, ?_⟩
      intro otherJob otherDevice otherLease bound same
      cases same
      rfl
    have rebuilt := UpdatesWithin.single update permitted
    simp only [registered, rebindJob, Table.insert_insert_self] at rebuilt
    exact rebuilt
  · exact .refl _

theorem reconcileRecoveries_eq_ok {recoveries}
    (parsed : ∀ recovery ∈ recoveries, ∃ (jobId : JobId) (leaseId : LeaseId),
        Id.fromSlice recovery.jobId = .ok jobId ∧ Id.fromSlice recovery.leaseId = .ok leaseId)
    (named : ∀ recovery ∈ recoveries, recovery ∈ hello.recoveries)
    (device : hello.deviceId = deviceId.toVec) (progress : Reconciliation) :
    ∃ final, reconcileRecoveries config env deviceId sessionId
        recoveries progress = (final.state, .ok final) ∧
      UpdatesWithin (Change.Greeting (.connect env peerFingerprint hello sessionId) profileHash)
        (registered peerFingerprint hello sessionId deviceId profileHash channel progress)
        (registered peerFingerprint hello sessionId deviceId profileHash channel final) := by
  induction recoveries generalizing progress with
  | nil => exact ⟨progress, rfl, .refl _⟩
  | cons recovery recoveries ih =>
    obtain ⟨jobId, leaseId, job, lease⟩ := parsed recovery (by simp)
    obtain ⟨final, reconciled, updates⟩ := ih
      (fun other member => parsed other (mem_cons_of_mem _ member))
      (fun other member => named other (mem_cons_of_mem _ member))
      (reconcileRecovery config env deviceId sessionId progress jobId leaseId)
    refine ⟨final, ?_, UpdatesWithin.trans ?_ updates⟩
    · rw [reconcileRecoveries, job, lease]
      exact reconciled
    · exact updates_reconcileRecovery (named recovery (by simp))
        (Id.fromSlice_eq_ok_iff.mp job) (Id.fromSlice_eq_ok_iff.mp lease)
        device

/-- Registering a greeted device always succeeds, and is a sequence of
updates: the old session ends, an idle one connects and takes up the leases it
recovers. -/
theorem updates_register (sound : Consistent state)
    (greeted : greet codec config peerFingerprint hello = .ok (deviceId, profileHash)) :
    ∃ command, (register config env state peerFingerprint hello sessionId
        deviceId profileHash).2 = .ok command ∧
      UpdatesWithin (Change.Greeting (.connect env peerFingerprint hello sessionId) profileHash)
        state
        (register config env state peerFingerprint hello sessionId deviceId profileHash).1 := by
  obtain ⟨valid, device, _⟩ := greet_eq_ok greeted
  have parsed := validateRecoveries_eq_ok (validateHello_eq_ok valid)
  let opened := openChannel config state
  have opens : UpdatesWithin
      (Change.Greeting (.connect env peerFingerprint hello sessionId) profileHash)
      state opened := .single (.communicate rfl) ⟨.communicated, by simp⟩
  let removed := removeAgentSession env.activeOrder opened deviceId
  have removes : UpdatesWithin
      (Change.Greeting (.connect env peerFingerprint hello sessionId) profileHash)
      opened removed :=
    (updates_removeAgentSession env.activeOrder deviceId
      (opens.consistent sound)).mono fun _ ends =>
        ⟨.scheduling (.ending ends), by
          intro jobId device leaseId bound same
          subst same
          cases ends⟩
  have absent : removed.agents.get? deviceId = none :=
    absent_removeAgentSession env.activeOrder opened deviceId
  obtain ⟨final, reconciled, recovers⟩ : ∃ final, reconcileRecoveries config env deviceId sessionId
          hello.recoveries ⟨removed, [], ∅⟩ = (final.state, .ok final) ∧
        UpdatesWithin (Change.Greeting (.connect env peerFingerprint hello sessionId)
        profileHash) (registered peerFingerprint hello sessionId deviceId profileHash
            state.channels.length ⟨removed, [], ∅⟩)
          (registered peerFingerprint hello sessionId deviceId profileHash
            state.channels.length final) :=
    reconcileRecoveries_eq_ok parsed (fun _ member => member) device _
  have connects : UpdatesWithin
      (Change.Greeting (.connect env peerFingerprint hello sessionId) profileHash)
      removed
      (registered peerFingerprint hello sessionId deviceId profileHash
        state.channels.length ⟨removed, [], ∅⟩) :=
    .single (.connect absent rfl) ⟨.connected sessionId, by simp⟩
  have ran : register config env state peerFingerprint hello sessionId deviceId profileHash =
        (registered peerFingerprint hello sessionId deviceId profileHash
          state.channels.length final,
          .ok (Measure.welcome config sessionId profileHash final.dispositions)) := by
    unfold register
    dsimp only
    rw [reconciled]
    rfl
  rw [ran]
  exact ⟨_, rfl, ((opens.trans removes).trans connects).trans recovers⟩

end Register

end Decomposition

section Steps

variable {codec : Codec} {config : CoordinatorConfig} {world next : World}
  {operation : Operation}

theorem updates_connect {env peerFingerprint hello sessionId} (sound : Consistent world.state) :
    UpdatesWithin (Change.Of (.connect env peerFingerprint hello sessionId)) world.state
      (connect codec config world env peerFingerprint hello sessionId).state := by
  unfold connect
  split
  · exact .refl _
  next deviceId profileHash greeted =>
  obtain ⟨command, succeeded, updates⟩ : ∃ command, _ = _ ∧ UpdatesWithin (Change.Greeting
        (.connect env peerFingerprint hello sessionId) profileHash) _ _ :=
    updates_register sound greeted
  split
  · next state failure refused =>
    rw [refused] at succeeded
    cases succeeded
  · next state answer accepted =>
    rw [accepted] at updates
    exact updates.mono fun _ permitted => permitted.1

theorem updates_perform (sound : Consistent world.state)
    (fresh : FreshDraws operation.leases world.state)
    (ran : perform codec config world operation = some next) :
    UpdatesWithin (Change.Of operation) world.state next.state := by
  cases operation with
  | enqueue env submission requestNonce =>
    simp only [perform, Option.map_eq_some_iff] at ran
    obtain ⟨outcome, enqueued, rfl⟩ := ran
    exact updates_enqueue sound fresh enqueued
  | cancel jobId =>
    cases ran
    exact updates_cancelJob sound jobId
  | connect env peerFingerprint hello sessionId =>
    cases ran
    exact updates_connect sound
  | welcome stream =>
    cases ran
    unfold sendWelcome
    split
    · exact .refl _
    dsimp only
    split
    · exact updates_channels _
    · exact updates_channels _
  | event env stream event =>
    simp only [perform, Option.map_eq_some_iff] at ran
    obtain ⟨⟨state, answer⟩, handled, rfl⟩ := ran
    have updates := updates_handleAgentEvent sound fresh handled
    cases answer with
    | ok => exact updates
    | error failure => exact updates
  | streamEnd stream =>
    cases ran
    exact .refl _
  | disconnect env stream =>
    simp only [perform, Option.map_eq_some_iff] at ran
    obtain ⟨outcome, disconnected, rfl⟩ := ran
    exact updates_disconnect sound fresh disconnected
  | submit env write peerFingerprint request =>
    simp only [perform, Option.map_eq_some_iff] at ran
    obtain ⟨⟨state, answer⟩, submitted, rfl⟩ := ran
    have updates := updates_submitResult sound fresh submitted
    cases answer with
    | error status => exact updates
    | ok ack =>
      dsimp only
      split
      · exact updates
      · exact updates
  | reap env =>
    simp only [perform, Option.map_eq_some_iff] at ran
    obtain ⟨outcome, reaped, rfl⟩ := ran
    exact updates_reapExpired sound fresh reaped
  | drain =>
    cases ran
    exact updates_drainAgents
  | receive channel | hangUp channel =>
    cases ran
    exact updates_channels _

/-- What holds of every reachable world. -/
structure WorldInvariant (world : World) : Prop where
  consistent : Consistent world.state
  drawn : ∀ jobId leaseId, HoldsLease world.state jobId leaseId → leaseId ∈ world.drawnLeases

theorem WorldInvariant.freshDraws (inv : WorldInvariant world) (enabled : Enabled world operation) :
    FreshDraws operation.leases world.state := by
  obtain ⟨_, nodup, apart⟩ := nodup_append.mp enabled.freshLeases
  refine ⟨nodup, fun leaseId drawn jobId held => ?_⟩
  exact apart leaseId (inv.drawn jobId leaseId held) leaseId drawn rfl

theorem WorldInvariant.updates (inv : WorldInvariant world)
    (step : (coordinatorSystem codec config).step world operation next) :
    UpdatesWithin (Change.Of operation) world.state next.state := by
  obtain ⟨enabled, ran, succeeded, rfl⟩ := step
  have updates := updates_perform inv.consistent (inv.freshDraws enabled) succeeded
  exact updates

theorem history_perform (ran : perform codec config world operation = some next) :
    next.drawnLeases = world.drawnLeases ∧ next.drawnSessions = world.drawnSessions ∧
      (next.committed = world.committed ∨ ∃ env write peerFingerprint request,
          operation = .submit env write peerFingerprint request) := by
  cases operation with
  | enqueue env submission requestNonce =>
    simp only [perform, Option.map_eq_some_iff] at ran
    obtain ⟨outcome, _, rfl⟩ := ran
    exact ⟨rfl, rfl, Or.inl rfl⟩
  | cancel jobId =>
    cases ran
    exact ⟨rfl, rfl, Or.inl rfl⟩
  | connect env peerFingerprint hello sessionId =>
    cases ran
    unfold connect
    split
    · exact ⟨rfl, rfl, Or.inl rfl⟩
    · split <;> exact ⟨rfl, rfl, Or.inl rfl⟩
  | welcome stream =>
    cases ran
    unfold sendWelcome
    split
    · exact ⟨rfl, rfl, Or.inl rfl⟩
    · dsimp only
      split <;> exact ⟨rfl, rfl, Or.inl rfl⟩
  | event env stream event =>
    simp only [perform, Option.map_eq_some_iff] at ran
    obtain ⟨⟨state, answer⟩, _, rfl⟩ := ran
    cases answer <;> exact ⟨rfl, rfl, Or.inl rfl⟩
  | streamEnd stream =>
    cases ran
    exact ⟨rfl, rfl, Or.inl rfl⟩
  | disconnect env stream =>
    simp only [perform, Option.map_eq_some_iff] at ran
    obtain ⟨outcome, _, rfl⟩ := ran
    exact ⟨rfl, rfl, Or.inl rfl⟩
  | submit env write peerFingerprint request =>
    simp only [perform, Option.map_eq_some_iff] at ran
    obtain ⟨⟨state, answer⟩, _, rfl⟩ := ran
    cases answer with
    | error status => exact ⟨rfl, rfl, Or.inl rfl⟩
    | ok ack =>
      dsimp only
      split <;> exact ⟨rfl, rfl, Or.inr ⟨_, _, _, _, rfl⟩⟩
  | reap env =>
    simp only [perform, Option.map_eq_some_iff] at ran
    obtain ⟨outcome, _, rfl⟩ := ran
    exact ⟨rfl, rfl, Or.inl rfl⟩
  | drain | receive channel | hangUp channel =>
    cases ran
    exact ⟨rfl, rfl, Or.inl rfl⟩

theorem drawn_of_step (step : (coordinatorSystem codec config).step world operation next) :
    next.drawnLeases = world.drawnLeases ++ operation.leases ∧
      next.drawnSessions = world.drawnSessions ++ operation.sessions := by
  obtain ⟨_, ran, succeeded, rfl⟩ := step
  obtain ⟨leases, sessions, _⟩ := history_perform succeeded
  simp [recordDraws, leases, sessions]

section

variable (inv : WorldInvariant world)
  (step : (coordinatorSystem codec config).step world operation next)
include inv step

theorem WorldInvariant.holdsLease_of_step {jobId} (held : HoldsLease next.state jobId leaseId) :
    HoldsLease world.state jobId leaseId ∨ leaseId ∈ operation.leases := by
  obtain ⟨changes, run, permitted⟩ := inv.updates step
  rcases holdsLease_of_updates run inv.consistent held with
    before | offered
  · exact Or.inl before
  · exact Or.inr (drawn_of_offered (permitted _ offered))

theorem worldInvariant_step : WorldInvariant next := by
  constructor
  · exact (inv.updates step).consistent inv.consistent
  · intro jobId leaseId held
    rw [(drawn_of_step step).1, mem_append]
    rcases inv.holdsLease_of_step step held with before | drawn
    · exact Or.inl (inv.drawn jobId leaseId before)
    · exact Or.inr drawn

end

theorem worldInvariant_initial (receipts : ReceiptLedger) :
    WorldInvariant (initialWorld receipts) := by
  constructor
  · exact consistent_newState receipts
  · rintro jobId leaseId ⟨job, active, found, _⟩
    cases found

theorem worldInvariant_of_reachable (reachable : (coordinatorSystem codec config).Reachable world) :
    WorldInvariant world := by
  apply reachable.invariant
  · rintro start ⟨content, receipts, _, rfl⟩
    exact worldInvariant_initial receipts
  · intro state label next inv step
    exact worldInvariant_step inv step

theorem worldInvariant_of_reaches (inv : WorldInvariant world)
    (run : (coordinatorSystem codec config).Reaches world next) :
    WorldInvariant next := by
  obtain ⟨labels, run⟩ := run
  exact run.invariant (fun _ _ _ inv step => worldInvariant_step inv step) inv

end Steps

end GraphZero.Measure
