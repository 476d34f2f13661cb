import GraphZero.Measure.OfferedLeases

/-!
# What holds of an agent's loop beside the coordinator

The coordinator's tables keep every lease that a loop executes or has still to
read, or its job has a receipt, as long as no lease is taken from a loop that
still has it.  A job that is offered waits in the queue, so that no loop of
the session has it.
-/

namespace GraphZero.Measure

open Foundation Wire List

/-! ## The invariant -/

/-- What holds of one loop beside the coordinator's tables. -/
structure LoopHolds (state : CoordinatorState) (drawn : List LeaseId)
    (sessionId : SessionId) (loop : SessionLoop) : Prop where
  distinct : ((loop.unread state.channels).map Prod.fst).Nodup
  apart : ∀ jobId leaseId, (jobId, leaseId) ∈ loop.unread state.channels →
    loop.active.get? jobId = none
  known : ∀ jobId leaseId, loop.Carries state.channels jobId leaseId → leaseId ∈ drawn
  refused : ∀ reference, .rejected reference ∈ loop.outbox →
    ∀ (jobId : JobId) (leaseId : LeaseId), reference.jobId = jobId.toVec →
      reference.leaseId = leaseId.toVec →
        leaseId ∈ drawn ∧ ¬ loop.Carries state.channels jobId leaseId
  opened : loop.channel < state.channels.length
  kept : ∀ deviceId session,
    lineOf state deviceId = some (session, loop.channel) → session = sessionId ∧
        ∀ jobId leaseId, loop.Carries state.channels jobId leaseId →
          Kept state deviceId jobId leaseId

structure LinesHold (state : CoordinatorState) : Prop where
  opened : ∀ deviceId session channel,
    lineOf state deviceId = some (session, channel) → channel < state.channels.length
  distinct : ∀ first second session other channel,
    lineOf state first = some (session, channel) →
      lineOf state second = some (other, channel) → first = second

structure LoopsHold (state : CoordinatorState) (drawn : List LeaseId)
    (loops : Table SessionId SessionLoop) : Prop where
  lines : LinesHold state
  loops : ∀ sessionId loop, loops.get? sessionId = some loop → LoopHolds state drawn sessionId loop

/-- No agent has a lease that is dropped. -/
def Undropped (loops : Table SessionId SessionLoop) (channels : List CommandChannel)
    (dropped : JobId → ActiveLease → Prop) : Prop :=
  ∀ jobId active, dropped jobId active → ∀ loop, loops.get? active.currentSessionId = some loop →
      ¬ loop.Carries channels jobId active.leaseId

section Loops

variable {state next : CoordinatorState} {drawn : List LeaseId}
  {sessionId : SessionId} {loop : SessionLoop}
  {loops : Table SessionId SessionLoop}

theorem unread_eq (loop : SessionLoop) (channels : List CommandChannel) : loop.unread channels =
      if loop.running then
        offeredLeases loop.inbox ++ offeredLeases (pendingOn channels loop.channel)
      else
        [] := by
  unfold SessionLoop.unread
  rw [offeredLeases_append]

theorem unread_congr {channels later} (offers : offeredLeases (pendingOn later loop.channel) =
      offeredLeases (pendingOn channels loop.channel)) :
    loop.unread later = loop.unread channels := by
  rw [unread_eq, unread_eq, offers]

variable {dropped : JobId → ActiveLease → Prop}

theorem LinesHold.quiet (holds : LinesHold state) (quiet : Quiet dropped state next) :
    LinesHold next := by
  constructor
  · intro deviceId session channel held
    exact Nat.lt_of_lt_of_le (holds.opened deviceId session channel (quiet.lines _ _ held))
      quiet.opened
  · intro first second session other channel firstHeld secondHeld
    exact holds.distinct first second session other channel
      (quiet.lines _ _ firstHeld) (quiet.lines _ _ secondHeld)

theorem LoopHolds.mono (holds : LoopHolds state drawn sessionId loop) {later}
    (more : ∀ leaseId ∈ drawn, leaseId ∈ later) :
    LoopHolds state later sessionId loop := by
  refine ⟨holds.distinct, holds.apart, ?_, ?_, holds.opened, holds.kept⟩
  · intro jobId leaseId carries
    exact more leaseId (holds.known jobId leaseId carries)
  · intro reference rejected jobId leaseId job lease
    have refused := holds.refused reference rejected jobId leaseId job lease
    exact ⟨more leaseId refused.1, refused.2⟩

theorem LoopsHold.mono (holds : LoopsHold state drawn loops) {later}
    (more : ∀ leaseId ∈ drawn, leaseId ∈ later) :
    LoopsHold state later loops :=
  ⟨holds.lines, fun sessionId loop found =>
    (holds.loops sessionId loop found).mono more⟩

theorem LoopHolds.quiet {channels} (sound : Consistent state)
    (holds : LoopHolds state drawn sessionId loop) (quiet : Quiet dropped state next)
    (unread : loop.unread channels = loop.unread state.channels)
    (opened : state.channels.length ≤ channels.length)
    (undropped : ∀ jobId active, dropped jobId active → active.currentSessionId = sessionId →
        ¬ loop.Carries state.channels jobId active.leaseId) :
    LoopHolds { next with channels } drawn sessionId loop := by
  have carries_iff : ∀ jobId leaseId,
      loop.Carries channels jobId leaseId ↔ loop.Carries state.channels jobId leaseId := by
    intro jobId leaseId
    unfold SessionLoop.Carries
    rw [unread]
  refine ⟨by rw [unread]; exact holds.distinct,
    by rw [unread]; exact holds.apart, ?_, ?_,
    Nat.lt_of_lt_of_le holds.opened opened, ?_⟩
  · intro jobId leaseId carries
    exact holds.known jobId leaseId ((carries_iff jobId leaseId).mp carries)
  · intro reference rejected jobId leaseId job lease
    rw [carries_iff]
    exact holds.refused reference rejected jobId leaseId job lease
  intro deviceId session line
  have lineBefore : lineOf state deviceId = some (session, loop.channel) :=
    quiet.lines deviceId _ line
  obtain ⟨current, keeps⟩ := holds.kept deviceId session lineBefore
  refine ⟨current, ?_⟩
  intro jobId leaseId carries
  rw [carries_iff] at carries
  rcases quiet.keeps deviceId _ jobId leaseId line (keeps jobId leaseId carries) with
    still | ⟨active, leased, device, lease, gone⟩
  · exact still
  obtain ⟨agent, connected, currentSession, _⟩ := sound.holder leased
  have sessions : lineOf state deviceId = some (agent.sessionId, agent.commandTx) := by
    rw [← device]
    exact fieldOf_of_get? connected
  rw [lineBefore, Option.some.injEq, Prod.mk.injEq] at sessions
  rw [← lease] at carries
  have own : active.currentSessionId = sessionId := by
    rw [← currentSession, ← sessions.1]
    exact current
  exact absurd carries (undropped jobId active gone own)

theorem LoopsHold.quiet (sound : Consistent state) (holds : LoopsHold state drawn loops)
    (quiet : Quiet dropped state next)
    (undropped : Undropped loops state.channels dropped) :
    LoopsHold next drawn loops := by
  refine ⟨holds.lines.quiet quiet, ?_⟩
  intro sessionId loop found
  apply (holds.loops sessionId loop found).quiet sound quiet
    (unread_congr (quiet.offers loop.channel)) quiet.opened
  intro jobId active gone own
  rw [← own] at found
  exact undropped jobId active gone loop found

theorem LoopsHold.silent (sound : Consistent state)
    (holds : LoopsHold state drawn loops) (silent : Silent state next) :
    LoopsHold next drawn loops :=
  holds.quiet sound silent fun _ _ impossible => impossible.elim

end Loops

section Offers

variable {config : CoordinatorConfig} {order : SessionId → IterationOrder JobId}
  {state next : CoordinatorState} {drawn : List LeaseId}
  {loops : Table SessionId SessionLoop} {jobId : JobId} {job : Job}
  {deviceId : DeviceId} {agent : AgentSession} {draw : LeaseId × Instant}

theorem offeredLease_leaseCommand (config : CoordinatorConfig) (job : Job)
    (jobId : JobId) (active : ActiveLease) :
    offeredLease (leaseCommand config job jobId active) = some (jobId, active.leaseId) := by
  unfold leaseCommand offeredLease
  simp only [Id.fromSlice_toVec]

variable {loop : SessionLoop}

theorem LoopHolds.not_carries_assigned {sessionId} (sound : Consistent state)
    (holds : LoopHolds state drawn sessionId loop)
    (assigned : findAssignment state = some (jobId, job, deviceId, agent))
    (line : agent.commandTx = loop.channel) (leaseId : LeaseId) :
    ¬ loop.Carries state.channels jobId leaseId := by
  intro carries
  obtain ⟨waiting, found, connected, _⟩ := findAssignment_eq_some assigned
  obtain ⟨_, same, queued⟩ := (sound.mem_queue_iff jobId).mp waiting
  rw [found] at same
  cases same
  have registered : lineOf state deviceId = some (agent.sessionId, loop.channel) := by
    rw [← line]
    exact fieldOf_of_get? connected
  have kept := (holds.kept deviceId agent.sessionId registered).2 jobId leaseId carries
  exact kept.not_queued found queued

theorem silent_recordOffer (sound : Consistent state)
    (assigned : findAssignment state = some (jobId, job, deviceId, agent))
    (active : ActiveLease) (device : active.deviceId = deviceId) :
    Silent state (recordOffer state jobId job agent active) := by
  obtain ⟨waiting, found, connected, _⟩ := findAssignment_eq_some assigned
  obtain ⟨_, same, queued⟩ := (sound.mem_queue_iff jobId).mp waiting
  rw [found] at same
  cases same
  refine ⟨fun _ => rfl, Nat.le_refl _, ?_, ?_⟩
  · intro tested line held
    rw [← held]
    rw [← device] at connected
    refine Eq.symm (lineOf_insert_same connected rfl ?_ ?_ tested)
    · rfl
    · rfl
  · intro tested line other leaseId _ kept
    have different : other ≠ jobId := by
      intro here
      rw [here] at kept
      exact kept.not_queued found queued
    exact Or.inl (kept.of_same (Table.get?_insert_of_ne different) rfl)

/-- The channels once the command of an offer was sent. -/
def offeredChannels (config : CoordinatorConfig) (state : CoordinatorState)
    (jobId : JobId) (job : Job) (agent : AgentSession) (active : ActiveLease) :
    Bool × List CommandChannel :=
  trySend state.channels agent.commandTx (leaseCommand config job jobId active)

variable {active : ActiveLease}

theorem unread_offered (sent : (offeredChannels config state jobId job agent active).1 = true)
    (running : loop.running = true)
    (line : loop.channel = agent.commandTx) :
    loop.unread (offeredChannels config state jobId job agent active).2 =
      loop.unread state.channels ++ [(jobId, active.leaseId)] := by
  unfold offeredChannels at sent ⊢
  rw [unread_eq, unread_eq, if_pos running, if_pos running,
    pendingOn_trySend, if_pos ⟨sent, line⟩, offeredLeases_append,
    append_assoc]
  congr 2
  unfold offeredLeases
  rw [filterMap_cons, offeredLease_leaseCommand]
  rfl

theorem unread_unoffered (elsewhere : ¬ (loop.running = true ∧ loop.channel = agent.commandTx)) :
    loop.unread (offeredChannels config state jobId job agent active).2 =
      loop.unread state.channels := by
  unfold offeredChannels
  rw [unread_eq, unread_eq]
  by_cases running : loop.running = true
  · rw [if_pos running, if_pos running, pendingOn_trySend,
      if_neg fun both => elsewhere ⟨running, both.2⟩]
  · rw [if_neg running, if_neg running]

theorem LoopHolds.offered {sessionId active} (sound : Consistent state)
    (lines : LinesHold state) (holds : LoopHolds state drawn sessionId loop)
    (assigned : findAssignment state = some (jobId, job, deviceId, agent))
    (device : active.deviceId = deviceId) (fresh : active.leaseId ∉ drawn)
    (sent : (offeredChannels config state jobId job agent active).1 = true)
    (running : loop.running = true) (line : loop.channel = agent.commandTx) :
    LoopHolds
      { recordOffer state jobId job agent active with
        channels :=
          (offeredChannels config state jobId job agent active).2 }
      (drawn ++ [active.leaseId]) sessionId loop := by
  have silent := silent_recordOffer sound assigned active device
  have untaken := holds.not_carries_assigned sound assigned line.symm
  have unread := unread_offered sent running line
  have length : (offeredChannels config state jobId job agent
      active).2.length = state.channels.length := length_trySend _ _
  have carries_iff : ∀ tested leaseId,
      loop.Carries (offeredChannels config state jobId job agent active).2 tested leaseId ↔
        loop.Carries state.channels tested leaseId ∨ tested = jobId ∧ leaseId = active.leaseId := by
    intro tested leaseId
    unfold SessionLoop.Carries
    rw [unread, mem_append, mem_singleton, Prod.mk.injEq, or_assoc]
  refine ⟨?_, ?_, ?_, ?_, by rw [length]; exact holds.opened, ?_⟩
  · rw [unread, map_append, nodup_append]
    refine ⟨holds.distinct, nodup_singleton _, ?_⟩
    intro earlier member new last same
    rw [map_singleton, mem_singleton] at last
    obtain ⟨⟨tested, leaseId⟩, waiting, named⟩ := mem_map.mp member
    have here : tested = jobId := named.trans (same.trans last)
    rw [here] at waiting
    exact untaken leaseId (Or.inr waiting)
  · intro tested leaseId member
    rw [unread, mem_append, mem_singleton] at member
    rcases member with waiting | new
    · exact holds.apart tested leaseId waiting
    · cases new
      cases executing : loop.active.get? jobId with
      | none => rfl
      | some other => exact absurd (Or.inl executing) (untaken other)
  · intro tested leaseId carries
    rw [mem_append, mem_singleton]
    rcases (carries_iff tested leaseId).mp carries with before | new
    · exact Or.inl (holds.known tested leaseId before)
    · exact Or.inr new.2
  · intro reference rejected tested leaseId named leaseNamed
    obtain ⟨drawnBefore, gone⟩ := holds.refused reference rejected tested leaseId named leaseNamed
    refine ⟨mem_append_left _ drawnBefore, ?_⟩
    rw [carries_iff]
    rintro (before | new)
    · exact gone before
    · rw [new.2] at drawnBefore
      exact fresh drawnBefore
  · intro tested session held
    have heldBefore : lineOf state tested = some (session, loop.channel) :=
      silent.lines tested _ held
    obtain ⟨current, keeps⟩ := holds.kept tested session heldBefore
    refine ⟨current, ?_⟩
    intro other leaseId carries
    rcases (carries_iff other leaseId).mp carries with before | new
    · rcases silent.keeps tested _ other leaseId held (keeps other leaseId before) with
        still | ⟨_, _, _, _, impossible⟩
      · exact still
      · exact impossible.elim
    · obtain ⟨_, _, connected, _⟩ := findAssignment_eq_some assigned
      have assignedLine : lineOf state deviceId =
          some (agent.sessionId, agent.commandTx) := fieldOf_of_get? connected
      rw [line] at heldBefore
      have same := lines.distinct tested deviceId session agent.sessionId
        agent.commandTx heldBefore assignedLine
      refine Or.inl ⟨active, ?_, device.trans same.symm, new.2.symm⟩
      rw [new.1, recordOffer, leaseOf_insert, if_pos rfl]
      rfl

section

variable (sound : Consistent state) (holds : LoopsHold state drawn loops)
  (assigned : findAssignment state = some (jobId, job, deviceId, agent))
include sound holds assigned

theorem LoopsHold.offered (device : active.deviceId = deviceId) (fresh : active.leaseId ∉ drawn) :
    LoopsHold
      { recordOffer state jobId job agent active with
        channels :=
          (offeredChannels config state jobId job agent active).2 }
      (drawn ++ [active.leaseId]) loops := by
  have silent := silent_recordOffer sound assigned active device
  have length : (offeredChannels config state jobId job agent
      active).2.length = state.channels.length := length_trySend _ _
  refine ⟨⟨?_, ?_⟩, ?_⟩
  · intro tested session channel held
    rw [length]
    exact holds.lines.opened tested session channel (silent.lines tested _ held)
  · intro first second session other channel firstHeld secondHeld
    exact holds.lines.distinct first second session other channel
      (silent.lines first _ firstHeld) (silent.lines second _ secondHeld)
  intro sessionId loop found
  have held := holds.loops sessionId loop found
  have more := held.mono fun leaseId =>
    mem_append_left [active.leaseId]
  have unsent : loop.unread (offeredChannels config state jobId job agent active).2 =
        loop.unread state.channels →
      LoopHolds
        { recordOffer state jobId job agent active with
          channels :=
            (offeredChannels config state jobId job agent active).2 }
        (drawn ++ [active.leaseId]) sessionId loop := by
    intro unread
    exact more.quiet sound silent unread (Nat.le_of_eq length.symm)
      fun _ _ impossible => impossible.elim
  by_cases here : loop.running = true ∧ loop.channel = agent.commandTx
  · by_cases sent : (offeredChannels config state jobId job agent active).1 = true
    · exact held.offered sound holds.lines assigned device fresh sent here.1 here.2
    · apply unsent
      apply unread_congr
      unfold offeredChannels at sent ⊢
      rw [pendingOn_trySend, if_neg fun both => sent both.1]
  · exact unsent (unread_unoffered here)

theorem LoopsHold.offer (unused : ∀ other, ¬ HoldsLease state other draw.1)
    (fresh : draw.1 ∉ drawn) :
    LoopsHold (offer config order state jobId job deviceId agent draw)
      (drawn ++ [draw.1]) loops := by
  obtain ⟨waiting, found, connected, admitted⟩ := findAssignment_eq_some assigned
  let active := offerLease config deviceId agent draw
  have offered := @LoopsHold.offered config state drawn loops jobId job
    deviceId agent active sound holds assigned rfl fresh
  unfold Measure.offer
  dsimp only
  split
  · exact offered
  have update := @Update.offer state jobId job agent active
    (offeredChannels config state jobId job agent active).2 waiting found
    connected admitted rfl unused
  have still := consistent_update update sound
  exact offered.silent still (quiet_removeAgentSession order deviceId still)

end

theorem LoopsHold.schedule {draws} (sound : Consistent state)
    (holds : LoopsHold state drawn loops) (unused : FreshDraws (draws.map Prod.fst) state)
    (fresh : (drawn ++ draws.map Prod.fst).Nodup)
    (scheduled : schedule config order draws state = some next) :
    LoopsHold next (drawn ++ draws.map Prod.fst) loops := by
  induction draws generalizing state drawn with
  | nil =>
    cases assigned : findAssignment state with
    | none =>
      rw [(schedule_of_unassigned assigned).1] at scheduled
      cases scheduled
      exact holds.mono fun _ => mem_append_left _
    | some assignment =>
      rw [(schedule_of_exhausted assigned).1] at scheduled
      cases scheduled
  | cons draw draws ih =>
    cases assigned : findAssignment state with
    | none =>
      rw [(schedule_of_unassigned assigned).1] at scheduled
      cases scheduled
      exact holds.mono fun _ => mem_append_left _
    | some assignment =>
      obtain ⟨jobId, job, deviceId, agent⟩ := assignment
      rw [(schedule_of_assigned assigned).1] at scheduled
      have head : draw.1 ∈ (draw :: draws).map Prod.fst := mem_cons_self
      have notDrawn : draw.1 ∉ drawn := fun member =>
        (nodup_append.mp fresh).2.2 draw.1 member draw.1 head rfl
      have offers := updates_offer config order sound assigned (unused.2 draw.1 head)
      have turn := @LoopsHold.offer config order state drawn loops jobId
        job deviceId agent draw sound holds assigned
        (unused.2 draw.1 head) notDrawn
      have nodup := nodup_cons.mp unused.1
      have rest : FreshDraws (draws.map Prod.fst) state := ⟨nodup.2, fun leaseId member =>
          unused.2 leaseId (mem_cons_of_mem _ member)⟩
      have later : FreshDraws (draws.map Prod.fst) _ := rest.after offers sound (by
          rintro other leaseId (⟨⟨⟩⟩ | ⟨_, used⟩) member
          rw [mem_singleton.mp used] at member
          exact nodup.1 member)
      have split : drawn ++ (draw :: draws).map Prod.fst =
          (drawn ++ [draw.1]) ++ draws.map Prod.fst := by
        rw [append_assoc]
        rfl
      rw [split] at fresh ⊢
      exact ih (offers.consistent sound) turn later fresh scheduled

end Offers

section Operations

variable {codec : Codec} {config : CoordinatorConfig}
  {env : Surroundings} {state mid : CoordinatorState}
  {drawn : List LeaseId} {loops : Table SessionId SessionLoop}

theorem LoopsHold.andSchedule {operation} {α : Type} {answer : α} {outcome}
    (draws : operation.leases = env.draws.map Prod.fst)
    (prelude : UpdatesWithin (Change.Prelude operation) state mid)
    (sound : Consistent state) (unused : FreshDraws operation.leases state)
    (fresh : (drawn ++ operation.leases).Nodup) (holds : LoopsHold mid drawn loops)
    (scheduled : andSchedule config env mid answer = some outcome) :
    LoopsHold outcome.1 (drawn ++ operation.leases) loops := by
  unfold Measure.andSchedule at scheduled
  rw [Option.map_eq_some_iff] at scheduled
  obtain ⟨final, loop, rfl⟩ := scheduled
  have later := unused.after prelude sound
    fun jobId leaseId permitted => absurd rfl (permitted.2 jobId leaseId)
  rw [draws] at later fresh ⊢
  exact holds.schedule (prelude.consistent sound) later fresh loop

theorem LoopsHold.expired (sound : Consistent state) (holds : LoopsHold state drawn loops)
    (waits : Undropped loops state.channels fun jobId active =>
      (jobId, active) ∈ expiredLeases env.jobOrder state env.expiryNow) :
    LoopsHold (expireLeases env.jobOrder state env.expiryNow) drawn loops :=
  holds.quiet sound (quiet_expireLeases _ _ _) waits

theorem loopsHold_enqueue {submission requestNonce outcome} (sound : Consistent state)
    (unused : FreshDraws (env.draws.map Prod.fst) state)
    (fresh : (drawn ++ env.draws.map Prod.fst).Nodup) (holds : LoopsHold state drawn loops)
    (waits : Undropped loops state.channels fun jobId active =>
      (jobId, active) ∈ droppedLeases config state (.enqueue env submission requestNonce))
    (ran : enqueue codec config env state submission requestNonce = some outcome) :
    LoopsHold outcome.1 (drawn ++ env.draws.map Prod.fst) loops := by
  unfold enqueue at ran
  unfold droppedLeases at waits
  dsimp only at waits
  split at ran
  · cases ran
    exact holds.mono fun _ => mem_append_left _
  next valid =>
  rw [valid] at waits
  have expired := holds.expired sound waits
  have expires := updates_expireLeases env.jobOrder env.expiryNow sound
  have still := expires.consistent sound
  dsimp only at ran
  split at ran
  · cases ran
    exact expired.mono fun _ => mem_append_left _
  next admitted id accepted =>
  obtain ⟨unknown, uncommitted, artifacts, bytes, job, _, queued,
    unrecoverable, requester, same⟩ := admitJob_eq accepted
  have admits : UpdatesWithin (Change.Prelude (.enqueue env submission requestNonce))
      (expireLeases env.jobOrder state env.expiryNow) admitted := by
    rw [same]
    refine .single (.enqueue unknown uncommitted queued unrecoverable requester) ⟨.admitted id, ?_⟩
    intro jobId leaseId impossible
    cases impossible
  exact @LoopsHold.andSchedule config env _ admitted drawn
    loops (.enqueue env submission requestNonce) _ _ _ rfl
    admits still (unused.ending expires sound) fresh
    (expired.silent still (silent_admitJob accepted)) ran

theorem loopsHold_event {stream : ControlStream} {event loop outcome}
    (sound : Consistent state) (unused : FreshDraws (env.draws.map Prod.fst) state)
    (fresh : (drawn ++ env.draws.map Prod.fst).Nodup) (holds : LoopsHold state drawn loops)
    (found : loops.get? stream.2 = some loop) (sent : event ∈ loop.outbox)
    (waits : Undropped loops state.channels fun jobId active =>
      (jobId, active) ∈ expiredLeases env.jobOrder state env.expiryNow)
    (ran : handleAgentEvent config env state stream.1 stream.2 (some event) = some outcome) :
    LoopsHold outcome.1 (drawn ++ env.draws.map Prod.fst) loops := by
  have expired := holds.expired sound waits
  have expires := updates_expireLeases env.jobOrder env.expiryNow sound
  have still := expires.consistent sound
  unfold handleAgentEvent at ran
  dsimp only at ran
  split at ran
  · cases ran
    exact expired.mono fun _ => mem_append_left _
  next agent connected =>
  split at ran
  · cases ran
    exact expired.mono fun _ => mem_append_left _
  split at ran
  · cases ran
    exact expired.mono fun _ => mem_append_left _
  next applied accepted =>
  have quiet := quiet_applyEvent connected accepted
  have undropped : Undropped loops (expireLeases env.jobOrder state env.expiryNow).channels
      fun jobId active => ∃ reference,
        some event = some (.rejected reference) ∧ reference.jobId = jobId.toVec ∧
          reference.leaseId = active.leaseId.toVec ∧
          active.currentSessionId = stream.2 := by
    rintro jobId active ⟨reference, same, job, lease, own⟩ other otherFound
    rw [own, found] at otherFound
    cases otherFound
    cases same
    exact ((expired.loops stream.2 loop found).refused reference
      sent jobId active.leaseId job lease).2
  exact @LoopsHold.andSchedule config env _ applied drawn
    loops (.event env stream (some event)) _ _ _ rfl
    (updates_applyEvent connected accepted) still
    (unused.ending expires sound) fresh
    (expired.quiet still quiet undropped) ran

theorem loopsHold_disconnect {stream : ControlStream} {outcome} (sound : Consistent state)
    (unused : FreshDraws (env.draws.map Prod.fst) state)
    (fresh : (drawn ++ env.draws.map Prod.fst).Nodup) (holds : LoopsHold state drawn loops)
    (ran : disconnect config env state stream.1 stream.2 = some outcome) :
    LoopsHold outcome.1 (drawn ++ env.draws.map Prod.fst) loops := by
  unfold disconnect at ran
  split at ran
  · cases ran
    exact holds.mono fun _ => mem_append_left _
  split at ran
  · cases ran
    exact holds.mono fun _ => mem_append_left _
  exact @LoopsHold.andSchedule config env _ _ drawn loops (.disconnect env stream) _ _ _ rfl
    ((updates_removeAgentSession env.activeOrder stream.1
      sound).mono fun _ => prelude_of_ending) sound unused
    fresh (holds.silent sound (quiet_removeAgentSession _ _ sound)) ran

theorem loopsHold_reap {outcome} (sound : Consistent state)
    (unused : FreshDraws (env.draws.map Prod.fst) state)
    (fresh : (drawn ++ env.draws.map Prod.fst).Nodup) (holds : LoopsHold state drawn loops)
    (waits : Undropped loops state.channels fun jobId active =>
      (jobId, active) ∈ expiredLeases env.jobOrder state env.expiryNow)
    (ran : reapExpired config env state = some outcome) :
    LoopsHold outcome.1 (drawn ++ env.draws.map Prod.fst) loops :=
  @LoopsHold.andSchedule config env _ _ drawn loops (.reap env) _ _ _ rfl
    (prelude_expireLeases env.jobOrder env.expiryNow
      sound) sound unused fresh (holds.expired sound waits)
    ran

theorem loopsHold_submit {write peerFingerprint request outcome} (sound : Consistent state)
    (unused : FreshDraws (env.draws.map Prod.fst) state)
    (fresh : (drawn ++ env.draws.map Prod.fst).Nodup) (holds : LoopsHold state drawn loops)
    (ran : submitResult codec config env write state peerFingerprint request = some outcome) :
    LoopsHold outcome.1 (drawn ++ env.draws.map Prod.fst) loops := by
  rcases submitResult_cases ran with
    ⟨receipts, recorded, unchanged, _⟩ |
    ⟨submitted, deviceId, agent, job, receipts, parsed, authenticated, found,
      valid, _, recorded, scheduled⟩
  · rw [unchanged]
    exact (holds.silent sound (silent_receipts recorded)).mono fun _ => mem_append_left _
  obtain ⟨present, _, named, _⟩ := parseSubmission_eq_ok parsed
  obtain ⟨connected, _, _⟩ := authenticateReport_eq_ok authenticated
  obtain ⟨active, running, rfl, _⟩ := validateReport_eq_ok valid
  exact @LoopsHold.andSchedule config env _ _ drawn loops
    (.submit env write peerFingerprint request) _ _ _ rfl
    (.single (.settle found running connected recorded)
      ⟨.settled present named, by simp⟩) sound unused fresh
    (holds.silent sound (quiet_settleJob connected recorded)) scheduled

theorem loopsHold_cancel (sound : Consistent state) (holds : LoopsHold state drawn loops)
    {jobId}
    (waits : Undropped loops state.channels fun dropped active =>
      (dropped, active) ∈ droppedLeases config state (.cancel jobId)) :
    LoopsHold (cancelJob state jobId) drawn loops := by
  have quiet : Quiet (fun dropped active =>
      (dropped, active) ∈ droppedLeases config state (.cancel jobId)) state
        (cancelJob state jobId) := by
    apply (quiet_cancelJob sound jobId).mono
    intro dropped active leased here
    unfold droppedLeases
    dsimp only
    rw [here] at leased ⊢
    rw [leased]
    exact mem_singleton_self _
  exact holds.quiet sound quiet waits

end Operations

section Sessions

variable {codec : Codec} {config : CoordinatorConfig} {world : World}
  {env : Surroundings} {drawn : List LeaseId}
  {loops : Table SessionId SessionLoop}
  {peerFingerprint : Option CertificateFingerprint} {hello : AgentHello}
  {sessionId : SessionId} {deviceId : DeviceId}
  {profileHash : DeviceProfileHash}

theorem lines_connect (sound : Consistent world.state)
    (greeted : greet codec config peerFingerprint hello = .ok (deviceId, profileHash)) :
    let next := (connect codec config world env peerFingerprint hello sessionId).state
    (∃ mid, Silent world.state mid ∧ world.state.channels.length < mid.channels.length ∧
      next.channels = mid.channels ∧ next.jobs = mid.jobs ∧
      next.receipts = mid.receipts ∧
      ∀ tested, lineOf next tested = if tested = deviceId then
          some (sessionId, world.state.channels.length)
        else
          lineOf mid tested) ∧
    pendingOn next.channels world.state.channels.length = [] := by
  obtain ⟨final, reconciled, connected⟩ :=
    @connect_eq codec config world env _ _ sessionId _ _ greeted
  have opened : Consistent (openChannel config world.state) :=
    consistent_of_tables sound rfl rfl rfl
  have removes := updates_removeAgentSession env.activeOrder deviceId opened
  have silent : Silent world.state final.state := ((silent_openChannel config world.state).trans
      (quiet_removeAgentSession env.activeOrder deviceId opened)).trans
      (silent_reconcileRecoveries (removes.consistent opened) reconciled)
  have channels : final.state.channels =
      world.state.channels ++ [⟨config.commandCapacity, [], true⟩] := by
    have same := @spared_reconcileRecoveries config env deviceId
      sessionId hello.recoveries ⟨removeAgentSession env.activeOrder
          (openChannel config world.state) deviceId, [], ∅⟩
    rw [reconciled] at same
    exact congrArg Prod.snd (same.trans (spared_removeAgentSession _ _ _))
  rw [connected]
  refine ⟨⟨final.state, silent, ?_, rfl, rfl, rfl, ?_⟩, ?_⟩
  · rw [channels, length_append]
    exact Nat.lt_succ_self _
  · intro tested
    unfold lineOf fieldOf registered
    rw [Table.get?_insert]
    split
    · rfl
    · rfl
  · unfold pendingOn registered
    rw [channels, getElem?_append_right (Nat.le_refl _), Nat.sub_self]
    rfl

theorem LoopsHold.connect (sound : Consistent world.state)
    (holds : LoopsHold world.state drawn loops) :
    LoopsHold (connect codec config world env peerFingerprint hello
      sessionId).state drawn loops := by
  cases greeted : greet codec config peerFingerprint hello with
  | error status =>
    have unchanged : (Measure.connect codec config world env
        peerFingerprint hello sessionId).state = world.state := by
      unfold Measure.connect
      rw [greeted]
    rw [unchanged]
    exact holds
  | ok greeting =>
    obtain ⟨deviceId, profileHash⟩ := greeting
    obtain ⟨⟨mid, silent, longer, channels, jobs, receipts, lines⟩, _⟩ :=
      @lines_connect codec config world env peerFingerprint hello
        sessionId deviceId profileHash sound greeted
    have after := holds.silent sound silent
    have older : ∀ tested session channel,
        channel < world.state.channels.length → lineOf (Measure.connect codec config world env
            peerFingerprint hello sessionId).state tested = some (session, channel) →
            tested ≠ deviceId ∧ lineOf mid tested = some (session, channel) := by
      intro tested session channel old held
      rw [lines] at held
      split at held
      · cases held
        exact absurd old (Nat.lt_irrefl _)
      · next different => exact ⟨different, held⟩
    have fromMiddle : ∀ tested session channel, tested ≠ deviceId →
        lineOf (Measure.connect codec config world env
          peerFingerprint hello sessionId).state tested = some (session, channel) →
          lineOf mid tested = some (session, channel) := by
      intro tested session channel different held
      rw [lines, if_neg different] at held
      exact held
    have newest : ∀ session channel, lineOf (Measure.connect codec config world env
          peerFingerprint hello sessionId).state deviceId = some (session, channel) →
          channel = world.state.channels.length := by
      intro session channel held
      rw [lines, if_pos rfl, Option.some.injEq, Prod.mk.injEq] at held
      exact held.2.symm
    have apart : ∀ tested session channel other, tested ≠ deviceId →
        lineOf (Measure.connect codec config world env
          peerFingerprint hello sessionId).state tested = some (session, channel) →
        lineOf (Measure.connect codec config world env
          peerFingerprint hello sessionId).state deviceId ≠ some (other, channel) := by
      intro tested session channel other different held own
      have before := silent.lines tested _ (fromMiddle tested session channel different held)
      have below := holds.lines.opened tested session channel before
      rw [newest other channel own] at below
      exact Nat.lt_irrefl _ below
    refine ⟨⟨?_, ?_⟩, ?_⟩
    · intro tested session channel held
      rw [channels]
      by_cases here : tested = deviceId
      · rw [here] at held
        rw [newest session channel held]
        exact longer
      · exact after.lines.opened tested session channel
          (fromMiddle tested session channel here held)
    · intro first second session other channel firstHeld secondHeld
      by_cases firstHere : first = deviceId
      · by_cases secondHere : second = deviceId
        · exact firstHere.trans secondHere.symm
        · rw [firstHere] at firstHeld
          exact absurd firstHeld (apart second other channel session secondHere secondHeld)
      · by_cases secondHere : second = deviceId
        · rw [secondHere] at secondHeld
          exact absurd secondHeld (apart first session channel other firstHere firstHeld)
        · exact after.lines.distinct first second session other channel
            (fromMiddle first session channel firstHere firstHeld)
            (fromMiddle second other channel secondHere secondHeld)
    · intro session loop found
      have held := after.loops session loop found
      have old := (holds.loops session loop found).opened
      refine ⟨by rw [channels]; exact held.distinct,
        by rw [channels]; exact held.apart,
        by rw [channels]; exact held.known,
        by rw [channels]; exact held.refused,
        by rw [channels]; exact held.opened, ?_⟩
      intro tested other line
      obtain ⟨_, before⟩ := older tested other loop.channel old line
      obtain ⟨current, keeps⟩ := held.kept tested other before
      refine ⟨current, ?_⟩
      intro jobId leaseId carries
      rw [channels] at carries
      exact (keeps jobId leaseId carries).of_same (by rw [jobs]) receipts

theorem loopHolds_opened {state runtime channel} (opened : channel < state.channels.length)
    (nothing : pendingOn state.channels channel = [])
    (own : ∀ deviceId session,
      lineOf state deviceId = some (session, channel) → session = sessionId) :
    LoopHolds state drawn sessionId (.opened runtime channel) := by
  have unread : (SessionLoop.opened runtime channel).unread state.channels = [] := by
    rw [unread_eq]
    unfold SessionLoop.opened
    rw [nothing]
    rfl
  have idle : ∀ jobId leaseId, ¬ (SessionLoop.opened runtime channel).Carries state.channels jobId
        leaseId := by
    intro jobId leaseId carries
    rcases carries with executing | waiting
    · cases executing
    · rw [unread] at waiting
      cases waiting
  refine ⟨by rw [unread]; exact nodup_nil, ?_, ?_, ?_, opened, ?_⟩
  · intro jobId leaseId member
    rw [unread] at member
    cases member
  · intro jobId leaseId carries
    exact absurd carries (idle jobId leaseId)
  · intro reference rejected
    cases rejected
  · intro deviceId session line
    exact ⟨own deviceId session line,
      fun jobId leaseId carries => absurd carries (idle jobId leaseId)⟩

theorem LoopsHold.insert {state loop} (holds : LoopsHold state drawn loops)
    (held : LoopHolds state drawn sessionId loop) :
    LoopsHold state drawn (loops.insert sessionId loop) := by
  refine ⟨holds.lines, ?_⟩
  intro tested other found
  rw [Table.get?_insert] at found
  split at found
  · next here =>
    cases found
    rw [here]
    exact held
  · exact holds.loops tested other found

theorem LoopsHold.openLoop (sound : Consistent world.state)
    (holds : LoopsHold world.state drawn loops) {runtime recoveries}
    (unknown : sessionOf world.state runtime.config.deviceId ≠ some sessionId) :
    let next := (Measure.connect codec config world env
      peerFingerprint (runtime.hello recoveries) sessionId).state
    LoopsHold next drawn (openLoop runtime sessionId next loops) := by
  have after := @LoopsHold.connect codec config world env drawn
    loops peerFingerprint (runtime.hello recoveries) sessionId sound
    holds
  unfold Measure.openLoop
  dsimp only
  split
  · exact after
  next agent connected =>
  split
  · next current =>
    have registered : sessionOf (Measure.connect codec config world
        env peerFingerprint (runtime.hello recoveries)
        sessionId).state runtime.config.deviceId = some sessionId :=
      (fieldOf_of_get? connected).trans (congrArg some current)
    cases greeted : greet codec config peerFingerprint (runtime.hello recoveries) with
    | error status =>
      have unchanged : (Measure.connect codec config world
          env peerFingerprint (runtime.hello recoveries)
          sessionId).state = world.state := by
        unfold Measure.connect
        rw [greeted]
      rw [unchanged] at registered
      exact absurd registered unknown
    | ok greeting =>
      obtain ⟨deviceId, profileHash⟩ := greeting
      obtain ⟨_, named, _⟩ := greet_eq_ok greeted
      have device : runtime.config.deviceId = deviceId := Id.toVec_injective named
      obtain ⟨⟨mid, _, longer, channels, _, _, lines⟩, nothing⟩ :=
        @lines_connect codec config world env peerFingerprint (runtime.hello recoveries) sessionId
          deviceId profileHash sound greeted
      have line := lines deviceId
      rw [if_pos rfl] at line
      have same : lineOf (Measure.connect codec config world
          env peerFingerprint (runtime.hello recoveries)
          sessionId).state deviceId = some (agent.sessionId, agent.commandTx) := by
        rw [← device]
        exact fieldOf_of_get? connected
      rw [line, Option.some.injEq, Prod.mk.injEq] at same
      rw [← same.2]
      apply after.insert
      apply loopHolds_opened _ nothing
      · intro tested session held
        have own := after.lines.distinct tested deviceId session sessionId _ held line
        rw [own, line, Option.some.injEq, Prod.mk.injEq] at held
        exact held.1.symm
      · rw [channels]
        exact longer
  · exact after

end Sessions

end GraphZero.Measure
