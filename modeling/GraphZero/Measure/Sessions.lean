import GraphZero.Measure.CommitStep

/-!
# Sessions

A device's session changes only when it connects or leaves, and a session
identifier is drawn once, so that a session that is not registered never
becomes registered again.
-/

namespace GraphZero.Measure

open Foundation Wire

def fieldOf {α : Type} (field : AgentSession → α) (state : CoordinatorState)
    (deviceId : DeviceId) : Option α :=
  (state.agents.get? deviceId).map field

abbrev sessionOf (state : CoordinatorState) (deviceId : DeviceId) : Option SessionId :=
  fieldOf AgentSession.sessionId state deviceId

section Fields

variable {α : Type} {field : AgentSession → α}
  {state next : CoordinatorState}

theorem fieldOf_eq_some_iff {deviceId value} :
    fieldOf field state deviceId = some value ↔ ∃ agent, state.agents.get? deviceId = some agent ∧
        field agent = value := by
  rw [fieldOf, Option.map_eq_some_iff]

theorem fieldOf_of_get? {deviceId agent} (connected : state.agents.get? deviceId = some agent) :
    fieldOf field state deviceId = some (field agent) := by
  rw [fieldOf, connected, Option.map_some]

theorem fieldOf_insert_same {changed agent rewritten}
    (connected : state.agents.get? changed = some agent)
    (agents : next.agents = state.agents.insert changed rewritten)
    (same : field rewritten = field agent) (deviceId : DeviceId) :
    fieldOf field next deviceId = fieldOf field state deviceId := by
  unfold fieldOf
  rw [agents, Table.get?_insert]
  by_cases here : deviceId = changed
  · rw [if_pos here, here, connected, Option.map_some, Option.map_some, same]
  · rw [if_neg here]

theorem fieldOf_same_agents (agents : next.agents = state.agents) (deviceId : DeviceId) :
    fieldOf field next deviceId = fieldOf field state deviceId := by
  rw [fieldOf, fieldOf, agents]

/-- Sessions come and go with their agents; every other update leaves the
fields that agents keep. -/
theorem fieldOf_of_update {change} (update : Update state change next)
    (sound : Consistent state) (unconnected : ∀ sessionId, change ≠ .connected sessionId)
    (undisconnected : ∀ deviceId, change ≠ .disconnected deviceId)
    (kept : ∀ (agent : AgentSession) freeSlots draining active,
      field { agent with freeSlots, draining, active } = field agent) (deviceId : DeviceId) :
    fieldOf field next deviceId = fieldOf field state deviceId := by
  cases update with
  | enqueue unknown uncommitted queued unrecoverable requester =>
    exact fieldOf_same_agents rfl deviceId
  | offer waiting found connected admitted session fresh =>
    exact fieldOf_insert_same connected rfl (kept _ _ _ _) deviceId
  | requeue found leased accepted =>
    obtain ⟨agent, connected, requeued⟩ := requeueActive_eq sound found leased _
    have agents := congrArg CoordinatorState.agents requeued
    exact fieldOf_insert_same connected agents (kept _ _ _ _) deviceId
  | renew found leased => exact fieldOf_same_agents rfl deviceId
  | rebind found recovered connected =>
    exact fieldOf_insert_same connected rfl (kept _ _ _ _) deviceId
  | connect absent idle => exact absurd rfl (unconnected _)
  | disconnect connected idle => exact absurd rfl (undisconnected _)
  | credit connected => exact fieldOf_insert_same connected rfl (kept _ _ _ _) deviceId
  | cancel found =>
    obtain ⟨artifacts, bytes, channels, agents, cancelled, holder⟩ := cancelJob_eq sound found
    have after := congrArg CoordinatorState.agents cancelled
    rcases holder with ⟨_, same⟩ | ⟨active, agent, _, connected, same⟩
    · exact fieldOf_same_agents (after.trans same) deviceId
    · exact fieldOf_insert_same connected (after.trans same) (kept _ _ _ _) deviceId
  | settle found running connected recorded =>
    rename_i settledId job active agent report receipts digest
    obtain ⟨artifacts, bytes, replies, settled, _⟩ := settleJob_eq job
      settledId (connected : { state with receipts }.agents.get? _ = _) report
    have agents := congrArg CoordinatorState.agents settled
    exact fieldOf_insert_same connected agents (kept _ _ _ _) deviceId
  | communicate recorded => exact fieldOf_same_agents rfl deviceId

end Fields

theorem sessionOf_of_update {state next change} (update : Update state change next)
    (sound : Consistent state) {deviceId sessionId}
    (registered : sessionOf next deviceId = some sessionId) :
    sessionOf state deviceId = some sessionId ∨ change = .connected sessionId := by
  by_cases connects : ∃ session, change = .connected session
  · obtain ⟨session, rfl⟩ := connects
    cases update with
    | connect absent idle =>
      rename_i connectedId agent
      unfold sessionOf fieldOf at registered
      rw [Table.get?_insert] at registered
      by_cases here : deviceId = connectedId
      · rw [if_pos here, Option.map_some, Option.some.injEq] at registered
        exact Or.inr (congrArg Change.connected registered)
      · rw [if_neg here] at registered
        exact Or.inl registered
  · by_cases leaves : ∃ device, change = .disconnected device
    · obtain ⟨device, rfl⟩ := leaves
      cases update with
      | disconnect connected idle =>
        unfold sessionOf fieldOf at registered
        rw [Table.get?_erase] at registered
        by_cases here : deviceId = device
        · rw [if_pos here] at registered
          cases registered
        · rw [if_neg here] at registered
          exact Or.inl registered
    · rw [not_exists] at connects leaves
      have same : sessionOf next deviceId = sessionOf state deviceId :=
        fieldOf_of_update update sound connects leaves (fun _ _ _ _ => rfl) deviceId
      exact Or.inl (same.symm.trans registered)

theorem sessionOf_of_updates {allowed state next} (updates : UpdatesWithin allowed state next)
    (sound : Consistent state) {deviceId sessionId}
    (refused : ¬ allowed (.connected sessionId))
    (registered : sessionOf next deviceId = some sessionId) :
    sessionOf state deviceId = some sessionId := by
  have back : sessionOf next deviceId = some sessionId →
      sessionOf state deviceId = some sessionId := by
    apply updates.relates (fun _ same => same) _ sound
    intro start state change next sound before permitted update after
    rcases sessionOf_of_update update sound after with same | connected
    · exact before same
    · subst connected
      exact absurd permitted refused
  exact back registered

theorem not_scheduling_connected {draws sessionId} :
    ¬ Change.Scheduling draws (.connected sessionId) := by
  intro scheduled
  cases scheduled with
  | ending ends => cases ends

theorem mem_sessions_of_connected {operation sessionId}
    (permitted : Change.Of operation (.connected sessionId)) :
    sessionId ∈ operation.sessions := by
  cases permitted with
  | scheduling scheduled => exact absurd scheduled not_scheduling_connected
  | connected => exact List.mem_singleton_self _

section Steps

variable {codec : Codec} {config : CoordinatorConfig} {world next : World}
  {operation : Operation} {deviceId : DeviceId} {sessionId : SessionId}

theorem sessionOf_of_step (inv : WorldInvariant world)
    (step : (coordinatorSystem codec config).step world operation next)
    (registered : sessionOf next.state deviceId = some sessionId) :
    sessionOf world.state deviceId = some sessionId ∨ sessionId ∈ operation.sessions := by
  by_cases drawn : sessionId ∈ operation.sessions
  · exact Or.inr drawn
  · have refused : ¬ Change.Of operation (.connected sessionId) :=
      fun permitted => drawn (mem_sessions_of_connected permitted)
    exact Or.inl (sessionOf_of_updates (inv.updates step) inv.consistent refused registered)

/-- Every registered session was drawn. -/
def SessionsDrawn (world : World) : Prop :=
  ∀ deviceId sessionId, sessionOf world.state deviceId = some sessionId →
    sessionId ∈ world.drawnSessions

theorem sessionsDrawn_of_step (inv : WorldInvariant world) (drawn : SessionsDrawn world)
    (step : (coordinatorSystem codec config).step world operation next) :
    SessionsDrawn next := by
  intro deviceId sessionId registered
  rw [(drawn_of_step step).2, List.mem_append]
  rcases sessionOf_of_step inv step registered with before | new
  · exact Or.inl (drawn deviceId sessionId before)
  · exact Or.inr new

theorem sessionsDrawn_of_reachable (reachable : (coordinatorSystem codec config).Reachable world) :
    WorldInvariant world ∧ SessionsDrawn world := by
  apply reachable.invariant
  · rintro start ⟨content, receipts, _, rfl⟩
    refine ⟨worldInvariant_initial receipts, ?_⟩
    intro deviceId sessionId registered
    cases registered
  · intro state label next good step
    exact ⟨worldInvariant_step good.1 step, sessionsDrawn_of_step good.1 good.2 step⟩

/-- A session that was drawn and is not registered with the device. -/
def Superseded (world : World) (deviceId : DeviceId) (sessionId : SessionId) : Prop :=
  sessionId ∈ world.drawnSessions ∧ sessionOf world.state deviceId ≠ some sessionId

theorem superseded_of_step (inv : WorldInvariant world)
    (step : (coordinatorSystem codec config).step world operation next)
    (superseded : Superseded world deviceId sessionId) :
    Superseded next deviceId sessionId := by
  obtain ⟨drawn, other⟩ := superseded
  constructor
  · rw [(drawn_of_step step).2]
    exact List.mem_append_left _ drawn
  · intro registered
    rcases sessionOf_of_step inv step registered with before | again
    · exact other before
    · have apart := (List.nodup_append.mp step.1.freshSessions).2.2
      exact apart sessionId drawn sessionId again rfl

theorem superseded_of_run {operations} (inv : WorldInvariant world)
    (run : (coordinatorSystem codec config).Run world operations next)
    (superseded : Superseded world deviceId sessionId) :
    Superseded next deviceId sessionId := by
  have good : WorldInvariant next ∧ Superseded next deviceId sessionId := by
    apply run.invariant _ ⟨inv, superseded⟩
    intro state label next good step
    exact ⟨worldInvariant_step good.1 step, superseded_of_step good.1 step good.2⟩
  exact good.2

theorem drawnSessions_of_run {operations}
    (run : (coordinatorSystem codec config).Run world operations next)
    (drawn : sessionId ∈ world.drawnSessions) :
    sessionId ∈ next.drawnSessions := by
  apply run.invariant _ drawn
  intro state label next member step
  rw [(drawn_of_step step).2]
  exact List.mem_append_left _ member

end Steps

end GraphZero.Measure
