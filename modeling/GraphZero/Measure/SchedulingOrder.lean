import GraphZero.Measure.Credit

/-!
# The order of assignments

Every turn of the loop of `schedule` spends a free slot, or removes an agent
with all of its slots; requeued jobs lengthen the queue but free no slot.  So
the free slots bound the turns.  A turn takes the first queued job that some
agent matches and the first agent that matches it.
-/

namespace GraphZero.Measure

open Foundation Wire List

def credit (agents : Table DeviceId AgentSession) : Nat :=
  agents.total AgentSession.freeSlots

section Credit

variable {state : CoordinatorState} {agents : Table DeviceId AgentSession}
  {deviceId : DeviceId} {agent later : AgentSession}

theorem credit_insert (connected : agents.get? deviceId = some agent) :
    agent.freeSlots + credit (agents.insert deviceId later) = later.freeSlots + credit agents :=
  Table.total_insert_of_present AgentSession.freeSlots connected

theorem credit_requeueActive (state : CoordinatorState) (jobId : JobId)
    (active : ActiveLease) (preserveForRecovery : Bool) :
    credit (requeueActive state jobId active preserveForRecovery).agents = credit state.agents := by
  have queued := agents_requeueJob state jobId active preserveForRecovery
  unfold requeueActive releaseLease
  rw [queued]
  split
  · rw [queued]
  next agent connected =>
  split
  · have kept := @credit_insert state.agents active.deviceId agent
      { agent with active := agent.active.erase jobId } connected
    exact Nat.add_left_cancel kept
  · rw [queued]

theorem credit_requeueLeased (state : CoordinatorState) (jobId : JobId) (leaseId : LeaseId) :
    credit (requeueLeased state jobId leaseId).agents = credit state.agents := by
  unfold requeueLeased
  split
  · rfl
  split
  · split
    · exact credit_requeueActive _ _ _ _
    · rfl
  · split
    · exact credit_requeueActive _ _ _ _
    · rfl
  · rfl

theorem credit_removeAgentSession_le (order : SessionId → IterationOrder JobId)
    (state : CoordinatorState) (deviceId : DeviceId) :
    credit (removeAgentSession order state deviceId).agents ≤ credit state.agents := by
  have unchanged : ∀ (entries : List (JobId × LeaseId)) start,
      credit (entries.foldl (fun state (jobId, leaseId) =>
        requeueLeased state jobId leaseId) start).agents = credit start.agents := by
    intro entries
    induction entries with
    | nil => exact fun _ => rfl
    | cons entry entries ih =>
      intro start
      rw [foldl_cons, ih, credit_requeueLeased]
  unfold removeAgentSession
  split
  · exact le_rfl
  next agent connected =>
  rw [unchanged]
  have erased : agent.freeSlots + credit (state.agents.erase deviceId) = credit state.agents :=
    Table.total_erase_of_present AgentSession.freeSlots connected
  exact Nat.le.intro ((Nat.add_comm _ _).trans erased)

theorem credit_offer (config : CoordinatorConfig) (order : SessionId → IterationOrder JobId)
    (draw : LeaseId × Instant) {jobId job}
    (assigned : findAssignment state = some (jobId, job, deviceId, agent)) :
    credit (offer config order state jobId job deviceId agent draw).agents <
      credit state.agents := by
  obtain ⟨_, _, connected, admitted⟩ := findAssignment_eq_some assigned
  have free := (credit_of_agentMatches admitted).1
  have spent : agent.freeSlots + credit (recordOffer state jobId job agent
      (offerLease config deviceId agent draw)).agents =
        (agent.freeSlots - 1) + credit state.agents :=
    credit_insert connected
  unfold offer
  dsimp only
  split
  · dsimp only
    omega
  refine (credit_removeAgentSession_le order _ deviceId).trans_lt ?_
  dsimp only
  omega

end Credit

/-- The job is the first in the queue that some agent matches, and of those
agents the one with the lowest device id gets it. -/
structure Earliest (state : CoordinatorState) (jobId : JobId) (job : Job)
    (deviceId : DeviceId) (agent : AgentSession) : Prop where
  known : state.jobs.get? jobId = some job
  connected : state.agents.get? deviceId = some agent
  eligible : agentMatches agent job = true
  first : ∃ earlier later, state.queue = earlier ++ jobId :: later ∧
    ∀ waiting ∈ earlier, ∀ waitingJob, state.jobs.get? waiting = some waitingJob → ∀ device session,
        state.agents.get? device = some session → agentMatches session waitingJob = false
  lowest : ∀ device session, state.agents.get? device = some session →
    agentMatches session job = true → deviceId ≤ device

section Order

variable {state : CoordinatorState} {job : Job}

theorem pairwise_sortedKeys (agents : Table DeviceId AgentSession) :
    agents.sortedKeys.Pairwise (· ≤ ·) := by
  have total : Std.Total (fun left right : DeviceId => left ≤ right) := ⟨Id.le_total⟩
  have trans : IsTrans DeviceId (· ≤ ·) := ⟨fun _ _ _ => Id.le_trans⟩
  exact pairwise_insertionSort (· ≤ ·) _

def firstMatch (state : CoordinatorState) (jobId : JobId) (job : Job) :
    Option (JobId × Job × DeviceId × AgentSession) :=
  state.agents.sortedKeys.findSome? fun deviceId =>
    (state.agents.get? deviceId).bind fun agent =>
      if agentMatches agent job then some (jobId, job, deviceId, agent)
      else none

theorem not_matches_of_firstMatch (jobId : JobId) (unmatched : firstMatch state jobId job = none)
    {device session} (connected : state.agents.get? device = some session) :
    agentMatches session job = false := by
  have visited : device ∈ state.agents.sortedKeys :=
    Table.mem_sortedKeys.mpr (Table.mem_keys_of_get? connected)
  have skipped := findSome?_eq_none_iff.mp unmatched device visited
  rw [connected] at skipped
  simpa using skipped

theorem lowest_of_firstMatch {jobId found foundJob deviceId agent}
    (matched : firstMatch state jobId job = some (found, foundJob, deviceId, agent)) :
    found = jobId ∧ foundJob = job ∧ ∀ device session, state.agents.get? device = some session →
        agentMatches session job = true → deviceId ≤ device := by
  obtain ⟨before, chosen, behind, split, taken, skipped⟩ := findSome?_eq_some_iff.mp matched
  obtain ⟨holder, _, accepted⟩ := Option.bind_eq_some_iff.mp taken
  simp only [Option.ite_none_right_eq_some, Option.some.injEq, Prod.mk.injEq] at accepted
  obtain ⟨_, rfl, rfl, rfl, rfl⟩ := accepted
  refine ⟨rfl, rfl, ?_⟩
  intro device session connected matches_
  have visited : device ∈ state.agents.sortedKeys :=
    Table.mem_sortedKeys.mpr (Table.mem_keys_of_get? connected)
  have sorted := pairwise_sortedKeys state.agents
  rw [split] at visited sorted
  rcases mem_append.mp visited with inFront | atOrBehind
  · have passed := skipped device inFront
    rw [connected] at passed
    simp [matches_] at passed
  · rcases mem_cons.mp atOrBehind with rfl | inBack
    · exact (Id.le_total device device).elim id id
    · exact (pairwise_cons.mp (pairwise_append.mp sorted).2.1).1 device inBack

theorem earliest_of_findAssignment {jobId deviceId agent}
    (assigned : findAssignment state = some (jobId, job, deviceId, agent)) :
    Earliest state jobId job deviceId agent := by
  obtain ⟨_, known, connected, eligible⟩ := findAssignment_eq_some assigned
  obtain ⟨earlier, queued, later, split, taken, skipped⟩ := findSome?_eq_some_iff.mp assigned
  obtain ⟨queuedJob, _, matched⟩ := Option.bind_eq_some_iff.mp taken
  obtain ⟨rfl, rfl, lowest⟩ := lowest_of_firstMatch matched
  refine ⟨known, connected, eligible, ⟨earlier, later, split, ?_⟩, lowest⟩
  intro waiting member waitingJob waitingKnown device session connected
  have passed := skipped waiting member
  rw [waitingKnown] at passed
  exact not_matches_of_firstMatch waiting passed connected

end Order

theorem schedule_isSome (config : CoordinatorConfig) (order : SessionId → IterationOrder JobId)
    {draws state} (enough : credit state.agents ≤ draws.length) :
    ∃ next, schedule config order draws state = some next := by
  induction draws generalizing state with
  | nil =>
    cases assigned : findAssignment state with
    | none => exact ⟨state, (schedule_of_unassigned assigned).1⟩
    | some assignment =>
      have spent := credit_offer config order default assigned
      rw [Nat.le_zero.mp enough] at spent
      exact absurd spent (Nat.not_lt_zero _)
  | cons draw draws ih =>
    cases assigned : findAssignment state with
    | none => exact ⟨state, (schedule_of_unassigned assigned).1⟩
    | some assignment =>
      have spent := credit_offer config order draw assigned
      rw [(schedule_of_assigned assigned).1]
      rw [length_cons] at enough
      exact ih (by omega)

/-- In every state the loop of `schedule` ends, after as many turns as there
are free slots at most, whatever sends fail; and every turn assigns the first
job of its queue that some agent matches to the lowest agent that does. -/
theorem schedule_ends_in_order (config : CoordinatorConfig)
    (order : SessionId → IterationOrder JobId) (draws : List (LeaseId × Instant))
    (state : CoordinatorState) :
    (credit state.agents ≤ draws.length → ∃ next, schedule config order draws state = some next ∧
        findAssignment next = none) ∧
    ∀ offering ∈ offerings config order draws state,
      Earliest offering.state offering.jobId offering.job offering.deviceId
        offering.agent := by
  constructor
  · intro enough
    obtain ⟨next, scheduled⟩ := schedule_isSome config order enough
    exact ⟨next, scheduled, findAssignment_of_schedule scheduled⟩
  · intro offering member
    have turns := (@schedule_invariant config order draws state
      (fun _ => True) (fun _ _ _ _ _ _ _ _ => trivial) trivial).1 offering
      member
    exact earliest_of_findAssignment turns.2

namespace Sample

/-- The job is queued and the device has reported a free slot. -/
def readyState : CoordinatorState :=
  (eventEntry config (at_ 2 []) (after (accepted.take 3)).state device session
    (some (.ready ⟨session.toVec, 1⟩))).state

end Sample

theorem schedule_ends_in_order_sample : findAssignment Sample.readyState ≠ none ∧
      ∃ next, schedule Sample.config (fun _ => .stored) [(Sample.lease, 2)]
          Sample.readyState = some next ∧ findAssignment next = none := by
  have offered : (findAssignment Sample.readyState).isSome = true := by
    decide +kernel
  refine ⟨Option.isSome_iff_ne_none.mp offered, ?_⟩
  exact (schedule_ends_in_order Sample.config (fun _ => .stored) [(Sample.lease, 2)]
    Sample.readyState).1 (by decide +kernel)

end GraphZero.Measure
