import GraphZero.Measure.AgentTurns
import GraphZero.Measure.StaleEvents

/-!
# Leases that overlap on an agent

In every run in which no lease expires or is cancelled while its agent still
has it, no agent is offered a job that it executes.  A lease that expires
under a working agent may come back to the same agent.
-/

namespace GraphZero.Measure

open Foundation Wire List

/-- No agent executes a job that is on its way to it, and no lease ends its
session. -/
structure Fleet.OffersApart (codec : Codec) (fleet : Fleet) : Prop where
  apart : ∀ sessionId loop jobId leaseId,
    fleet.loops.get? sessionId = some loop →
      (jobId, leaseId) ∈ loop.unread fleet.coordinator.state.channels →
        loop.active.get? jobId = none
  accepted : ∀ sessionId loop lease rest session welcome,
    fleet.loops.get? sessionId = some loop → loop.running = true →
      loop.inbox = .lease lease :: rest → loop.greeted = some (session, welcome) →
          ∃ next, loop.handleLease codec session welcome lease = .ok next

/-! ## Every run -/

section Fleet

variable {codec : Codec} {config : CoordinatorConfig} {fleet next : Fleet}
  {world ran : World} {operation : Operation}
  {loops : Table SessionId SessionLoop}

/-- Welcomes that wait to be sent offer no lease. -/
def WelcomesSilent (world : World) : Prop :=
  ∀ entry ∈ world.welcoming, offeredLease entry.2.2 = none

theorem welcomesSilent_perform (silent : WelcomesSilent world)
    (succeeded : perform codec config world operation = some ran) :
    WelcomesSilent ran := by
  cases operation with
  | enqueue env submission requestNonce =>
    simp only [perform, Option.map_eq_some_iff] at succeeded
    obtain ⟨outcome, _, rfl⟩ := succeeded
    exact silent
  | connect env peerFingerprint hello sessionId =>
    cases succeeded
    unfold connect
    split
    · exact silent
    split
    · exact silent
    next registered =>
    intro entry member
    rcases mem_append.mp member with before | last
    · exact silent entry before
    rw [mem_singleton.mp last]
    unfold register at registered
    dsimp only at registered
    split at registered
    · cases registered
    · cases registered
      rfl
  | welcome stream =>
    cases succeeded
    unfold sendWelcome
    split
    · exact silent
    dsimp only
    split
    · exact fun entry member => silent entry (mem_of_mem_filter member)
    · exact fun entry member => silent entry (mem_of_mem_filter member)
  | event env stream event =>
    simp only [perform, Option.map_eq_some_iff] at succeeded
    obtain ⟨⟨state, answer⟩, _, rfl⟩ := succeeded
    cases answer with
    | ok => exact silent
    | error failure => exact silent
  | disconnect env stream =>
    simp only [perform, Option.map_eq_some_iff] at succeeded
    obtain ⟨outcome, _, rfl⟩ := succeeded
    exact silent
  | submit env write peerFingerprint request =>
    simp only [perform, Option.map_eq_some_iff] at succeeded
    obtain ⟨⟨state, answer⟩, _, rfl⟩ := succeeded
    cases answer with
    | error status => exact silent
    | ok ack =>
      dsimp only
      split
      · exact silent
      · exact silent
  | reap env =>
    simp only [perform, Option.map_eq_some_iff] at succeeded
    obtain ⟨outcome, _, rfl⟩ := succeeded
    exact silent
  | cancel jobId | streamEnd stream | drain | receive channel | hangUp channel =>
    cases succeeded
    exact silent

theorem loopsHold_alone (alone : operation.isAlone = true)
    (inv : WorldInvariant world) (enabled : Enabled world operation)
    (silent : WelcomesSilent world)
    (holds : LoopsHold world.state world.drawnLeases loops)
    (waits : Undropped loops world.state.channels fun jobId active =>
      (jobId, active) ∈ droppedLeases config world.state operation)
    (succeeded : perform codec config world operation = some ran) :
    LoopsHold ran.state (world.drawnLeases ++ operation.leases) loops := by
  have sound := inv.consistent
  have unused := inv.freshDraws enabled
  have fresh := enabled.freshLeases
  have idle : ∀ state, LoopsHold state world.drawnLeases loops →
      LoopsHold state (world.drawnLeases ++ operation.leases) loops :=
    fun state held => held.mono fun _ => mem_append_left _
  cases operation with
  | enqueue env submission requestNonce =>
    simp only [perform, Option.map_eq_some_iff] at succeeded
    obtain ⟨outcome, enqueued, rfl⟩ := succeeded
    exact loopsHold_enqueue sound unused fresh holds waits enqueued
  | disconnect env stream =>
    simp only [perform, Option.map_eq_some_iff] at succeeded
    obtain ⟨outcome, disconnected, rfl⟩ := succeeded
    exact loopsHold_disconnect sound unused fresh holds disconnected
  | submit env write peerFingerprint request =>
    simp only [perform, Option.map_eq_some_iff] at succeeded
    obtain ⟨⟨state, answer⟩, submitted, rfl⟩ := succeeded
    have held := loopsHold_submit sound unused fresh holds submitted
    cases answer with
    | error status => exact held
    | ok ack =>
      dsimp only
      split
      · exact held
      · exact held
  | reap env =>
    simp only [perform, Option.map_eq_some_iff] at succeeded
    obtain ⟨outcome, reaped, rfl⟩ := succeeded
    exact loopsHold_reap sound unused fresh holds waits reaped
  | cancel jobId =>
    cases succeeded
    exact idle _ (loopsHold_cancel sound holds waits)
  | welcome stream =>
    cases succeeded
    exact idle _ (holds.silent sound (silent_sendWelcome silent))
  | streamEnd stream =>
    cases succeeded
    exact idle _ holds
  | drain =>
    cases succeeded
    exact idle _ (holds.silent sound (silent_drainAgents _))
  | hangUp channel =>
    cases succeeded
    apply idle
    apply holds.silent sound
    apply Silent.of_channels
    · intro tested
      rw [pendingOn_closeChannel]
    · exact Nat.le_of_eq (length_modify _ _ _).symm
  | connect => cases alone
  | event => cases alone
  | receive => cases alone

/-- What holds of every reachable fleet that waits for its agents. -/
structure FleetHolds (fleet : Fleet) : Prop where
  coordinator : WorldInvariant fleet.coordinator
  sessions : SessionsDrawn fleet.coordinator
  welcomes : WelcomesSilent fleet.coordinator
  loops : LoopsHold fleet.coordinator.state fleet.coordinator.drawnLeases fleet.loops

theorem FleetHolds.operate (holds : FleetHolds fleet)
    (operated : operate codec config fleet.coordinator operation = some ran)
    (held : ∀ mid, Enabled fleet.coordinator operation →
        perform codec config fleet.coordinator operation = some mid →
          mid.state = ran.state → LoopsHold mid.state
              (fleet.coordinator.drawnLeases ++ operation.leases) loops) :
    FleetHolds ⟨ran, loops⟩ := by
  have step := step_of_operate operated
  have drawn := (drawn_of_step step).1
  obtain ⟨enabled, mid, succeeded, result⟩ := step
  have same : mid.state = ran.state := by
    rw [result]
    rfl
  refine ⟨worldInvariant_step holds.coordinator ⟨enabled, mid, succeeded, result⟩,
    sessionsDrawn_of_step holds.coordinator holds.sessions
      ⟨enabled, mid, succeeded, result⟩, ?_, ?_⟩
  · have silent : WelcomesSilent mid := welcomesSilent_perform holds.welcomes succeeded
    rw [result]
    exact silent
  · have loopsHeld := held mid enabled succeeded same
    rw [same, ← drawn] at loopsHeld
    exact loopsHeld

theorem undropped_of_dropsNoneOf (waits : fleet.dropsNoneOf config operation = true) :
    Undropped fleet.loops fleet.coordinator.state.channels fun jobId active => (jobId, active) ∈
        droppedLeases config fleet.coordinator.state operation := by
  intro jobId active member loop found carries
  unfold Fleet.dropsNoneOf at waits
  rw [all_eq_true] at waits
  have free := waits (jobId, active) member
  unfold Fleet.carries at free
  dsimp only at free
  rw [found] at free
  simp [carries] at free

theorem FleetHolds.turn {sessionId change} (holds : FleetHolds fleet)
    (changes : ∀ loop later, loop.running = true →
      LoopHolds fleet.coordinator.state fleet.coordinator.drawnLeases sessionId loop →
        change loop = some later → LoopHolds fleet.coordinator.state fleet.coordinator.drawnLeases
            sessionId later) (turned : fleet.turn sessionId change = some next) :
    FleetHolds next := by
  unfold Fleet.turn at turned
  rw [Option.bind_eq_some_iff] at turned
  obtain ⟨loop, found, turned⟩ := turned
  split at turned
  · next running =>
    rw [Option.map_eq_some_iff] at turned
    obtain ⟨later, changed, rfl⟩ := turned
    refine ⟨holds.coordinator, holds.sessions, holds.welcomes, ?_⟩
    exact holds.loops.insert (changes loop later running
      (holds.loops.loops sessionId loop found) changed)
  · cases turned

theorem fleetHolds_step {label} (holds : FleetHolds fleet)
    (waits : fleet.waitsForAgents config label = true)
    (stepped : fleet.next codec config label = some next) :
    FleetHolds next := by
  cases label with
  | connect runtime recoveries env peerFingerprint sessionId =>
    simp only [Fleet.next, Option.map_eq_some_iff] at stepped
    obtain ⟨coordinator, operated, rfl⟩ := stepped
    apply holds.operate operated
    intro mid enabled succeeded same
    cases succeeded
    have unknown : sessionOf fleet.coordinator.state runtime.config.deviceId ≠ some sessionId := by
      intro registered
      have drawn := holds.sessions _ _ registered
      exact (nodup_append.mp enabled.freshSessions).2.2 sessionId drawn
        sessionId (mem_singleton_self _) rfl
    have opened := @LoopsHold.openLoop codec config fleet.coordinator
      env fleet.coordinator.drawnLeases fleet.loops
      peerFingerprint sessionId holds.coordinator.consistent holds.loops
      runtime recoveries unknown
    dsimp only at opened
    rw [← same]
    exact opened.mono fun _ => mem_append_left _
  | event env stream =>
    simp only [Fleet.next, Option.bind_eq_some_iff] at stepped
    obtain ⟨loop, found, stepped⟩ := stepped
    split at stepped
    · cases stepped
    next event rest outbox =>
    rw [Option.map_eq_some_iff] at stepped
    obtain ⟨coordinator, operated, rfl⟩ := stepped
    apply holds.operate operated
    intro mid enabled succeeded same
    have expires := undropped_of_dropsNoneOf waits
    have sent : event ∈ loop.outbox := by
      rw [outbox]
      exact mem_cons_self
    simp only [perform, Option.map_eq_some_iff] at succeeded
    obtain ⟨⟨state, answer⟩, handled, rfl⟩ := succeeded
    have held := loopsHold_event holds.coordinator.consistent
      (holds.coordinator.freshDraws enabled) enabled.freshLeases
      holds.loops found sent expires handled
    have later : LoopsHold state (fleet.coordinator.drawnLeases ++
        env.draws.map Prod.fst) (fleet.loops.insert stream.2
            { loop with outbox := rest }) := by
      apply held.insert
      apply (held.loops stream.2 loop found).less
      · rfl
      · exact List.Sublist.refl _
      · exact fun _ _ executing => executing
      · intro reference rejected
        rw [outbox]
        exact mem_cons_of_mem _ rejected
    cases answer with
    | ok => exact later
    | error failure => exact later
  | receive sessionId =>
    simp only [Fleet.next, Option.bind_eq_some_iff] at stepped
    obtain ⟨loop, found, stepped⟩ := stepped
    split at stepped
    · cases stepped
    next command rest pending =>
    split at stepped
    · next running =>
      rw [Option.map_eq_some_iff] at stepped
      obtain ⟨coordinator, operated, rfl⟩ := stepped
      apply holds.operate operated
      intro mid enabled succeeded same
      cases succeeded
      exact (holds.loops.receive found pending).mono fun _ => mem_append_left _
    · cases stepped
  | coordinator operation =>
    unfold Fleet.next at stepped
    dsimp only at stepped
    split at stepped
    · next alone =>
      rw [Option.map_eq_some_iff] at stepped
      obtain ⟨coordinator, operated, rfl⟩ := stepped
      apply holds.operate operated
      intro mid enabled succeeded same
      exact loopsHold_alone alone holds.coordinator enabled
        holds.welcomes holds.loops (undropped_of_dropsNoneOf waits)
        succeeded
    · cases stepped
  | command sessionId =>
    exact holds.turn (fun loop later running held taken =>
      held.takeCommand running taken) stepped
  | task sessionId jobId accepts =>
    exact holds.turn (fun loop later running held reported =>
      held.taskEvent reported) stepped
  | completion sessionId jobId result =>
    exact holds.turn (fun loop later running held completed =>
      held.completeTask completed) stepped
  | heartbeat sessionId =>
    exact holds.turn (fun loop later running held ticked =>
      held.tick ticked) stepped
  | stop sessionId =>
    refine holds.turn (fun loop later running held stopped => ?_) stepped
    cases stopped
    exact held.stopped

/-- In every run in which no lease expires or is cancelled while its agent
executes the job or has still to read the lease, no agent is offered a job
that it executes. -/
theorem offersApart_of_reachable (reachable : ((fleetSystem codec config).guarded
      fun fleet label => fleet.waitsForAgents config label = true).Reachable fleet) :
    fleet.OffersApart codec := by
  have holds : FleetHolds fleet := by
    apply reachable.invariant
    · rintro start ⟨⟨content, receipts, _, world⟩, loops⟩
      refine ⟨?_, ?_, ?_, ?_⟩
      · rw [world]
        exact worldInvariant_initial receipts
      · rw [world]
        intro deviceId sessionId registered
        cases registered
      · rw [world]
        intro entry member
        cases member
      · rw [world, loops]
        refine ⟨⟨?_, ?_⟩, ?_⟩
        · intro deviceId session channel held
          cases held
        · intro first second session other channel held
          cases held
        · intro sessionId loop found
          cases found
    · intro state label later good step
      exact fleetHolds_step good step.1 step.2
  constructor
  · intro sessionId loop jobId leaseId found member
    exact (holds.loops.loops sessionId loop found).apart jobId leaseId member
  · intro sessionId loop lease rest session welcome found running inbox _
    exact (holds.loops.loops sessionId loop found).handleLease_isOk running inbox

end Fleet

/-! ## A lease that expires under a working agent -/

section Follow

variable {codec : Codec} {config : CoordinatorConfig}

/-- The fleet a list of labels leads to, if each is allowed in turn. -/
def followFleet (codec : Codec) (config : CoordinatorConfig) (allowed : Fleet → FleetLabel → Bool) :
    List FleetLabel → Fleet → Option Fleet
  | [], fleet => some fleet
  | label :: rest, fleet =>
    if allowed fleet label then
      (fleet.next codec config label).bind (followFleet codec config allowed rest)
    else
      none

theorem run_of_followFleet {allowed labels fleet next}
    (followed : followFleet codec config allowed labels fleet = some next) :
    ((fleetSystem codec config).guarded
      fun fleet label => allowed fleet label = true).Run fleet labels next :=
    by
  induction labels generalizing fleet with
  | nil =>
    cases followed
    exact .refl _
  | cons label rest ih =>
    unfold followFleet at followed
    split at followed
    · next permitted =>
      rw [Option.bind_eq_some_iff] at followed
      obtain ⟨mid, stepped, remaining⟩ := followed
      exact .cons ⟨permitted, stepped⟩ (ih remaining)
    · cases followed

end Follow

namespace Sample

/-- The sample device with two job slots. -/
def runtime : AgentRuntime :=
  { config := ⟨device, target⟩, agentBuild := "agent"
    capability :=
      { engine := some (engineIdentityToWire engine)
        artifactFormats := [⟨4, 0⟩]
        measureConfigEncodings := [1]
        measurementProtocolVersions := [1] }
    jobSlots := 2 }

def fleetStart : Fleet := ⟨start, ∅⟩

/-- The agent executes the job and has reported it as accepted. -/
def executing : List FleetLabel :=
  [.coordinator (.enqueue (at_ 0 []) submission nonce), .connect runtime [] (at_ 1 []) none session,
    .coordinator (.welcome (device, session)),
    .receive session, .command session,
    .event (at_ 2 [(lease, 2)]) (device, session),
    .receive session, .command session,
    .task session job true,
    .event (at_ 3 []) (device, session)]

/-- The lease expires, and the job goes to the agent's other slot. -/
def expiredLabels : List FleetLabel :=
  executing ++ [.coordinator (.reap (at_ 1000000000000 [(secondLease, 1000000000000)])),
      .receive session]

/-- The next command of the session offers the job a second time. -/
def offersTwice (fleet : Fleet) : Bool :=
  (fleet.loops.get? session).any fun loop =>
    loop.running && match loop.greeted, loop.inbox with
      | some (current, welcome), .lease lease :: _ =>
        match loop.handleLease codec current welcome lease with
        | .error failure => decide (failure = SessionLoop.offeredTwice)
        | .ok _ => false
      | _, _ => false

theorem exists_of_offersTwice {fleet} (twice : offersTwice fleet = true) :
    ∃ loop current welcome lease rest, fleet.loops.get? session = some loop ∧ loop.running = true ∧
        loop.greeted = some (current, welcome) ∧
        loop.inbox = .lease lease :: rest ∧
        loop.handleLease codec current welcome lease = .error SessionLoop.offeredTwice := by
  unfold offersTwice at twice
  rw [Option.any_eq_true] at twice
  obtain ⟨loop, found, twice⟩ := twice
  rw [Bool.and_eq_true] at twice
  obtain ⟨running, twice⟩ := twice
  split at twice
  · next current welcome lease rest greeted inbox =>
    split at twice
    · next failure refused =>
      refine ⟨loop, current, welcome, lease, rest, found, running, greeted, inbox, ?_⟩
      rw [refused, of_decide_eq_true twice]
    · cases twice
  · cases twice

end Sample

/-- The agent executes the job under its lease. -/
theorem offersApart_while_executing : ∃ fleet,
      followFleet Sample.codec Sample.config (Fleet.waitsForAgents Sample.config) Sample.executing
          Sample.fleetStart = some fleet ∧
        fleet.OffersApart Sample.codec := by
  have followed : (followFleet Sample.codec Sample.config
      (Fleet.waitsForAgents Sample.config) Sample.executing
      Sample.fleetStart).isSome := by decide +kernel
  obtain ⟨fleet, reached⟩ := Option.isSome_iff_exists.mp followed
  have reachable : ((fleetSystem Sample.codec Sample.config).guarded fun fleet label =>
        fleet.waitsForAgents Sample.config label = true).Reachable fleet :=
    ⟨Sample.fleetStart, ⟨⟨[], .memory 4096 ∅, rfl, rfl⟩, rfl⟩,
      Sample.executing, run_of_followFleet reached⟩
  exact ⟨fleet, reached, offersApart_of_reachable reachable⟩

/-- Once the lease expires, the agent is offered the job that it executes, and
its session ends with an error. -/
theorem offeredTwice_after_expiry : ∃ fleet,
      (fleetSystem Sample.codec Sample.config).Reachable fleet ∧ ¬ fleet.OffersApart Sample.codec ∧
        ∃ loop session welcome lease rest,
          fleet.loops.get? Sample.session = some loop ∧ loop.greeted = some (session, welcome) ∧
            loop.inbox = .lease lease :: rest ∧
            loop.handleLease Sample.codec session welcome lease =
              .error SessionLoop.offeredTwice := by
  have followed : (followFleet Sample.codec Sample.config (fun _ _ => true)
      Sample.expiredLabels Sample.fleetStart).any Sample.offersTwice = true :=
    by decide +kernel
  rw [Option.any_eq_true] at followed
  obtain ⟨fleet, reached, twice⟩ := followed
  obtain ⟨loop, session, welcome, lease, rest, found, running, greeted, inbox,
    refused⟩ := Sample.exists_of_offersTwice twice
  refine ⟨fleet, ⟨Sample.fleetStart, ⟨⟨[], .memory 4096 ∅, rfl, rfl⟩, rfl⟩,
    Sample.expiredLabels, (run_of_followFleet reached).of_guarded⟩, ?_,
    loop, session, welcome, lease, rest, found, greeted, inbox, refused⟩
  intro apart
  obtain ⟨next, handled⟩ := apart.accepted Sample.session loop lease rest
    session welcome found running inbox greeted
  rw [refused] at handled
  cases handled

end GraphZero.Measure
