import GraphZero.Measure.AgentSession
import GraphZero.Measure.Stranded

/-!
# What operations leave of the leases that agents have

Apart from the offers of `schedule`, an operation sends no lease and opens at
most one channel.  The job table keeps a device's lease, or a receipt in its
place, unless the lease expires or is cancelled or rejected, or the device's
session ends.
-/

namespace GraphZero.Measure

open Foundation Wire List

section Channels

variable {channels : List CommandChannel}

theorem offeredLeases_append (first second : List CoordinatorCommand) :
    offeredLeases (first ++ second) = offeredLeases first ++ offeredLeases second :=
  filterMap_append

theorem pendingOn_trySend (channel : Nat) (command : CoordinatorCommand) (tested : Nat) :
    pendingOn (trySend channels channel command).2 tested =
      if (trySend channels channel command).1 = true ∧ tested = channel then
        pendingOn channels tested ++ [command]
      else
        pendingOn channels tested := by
  unfold trySend
  cases found : channels[channel]? with
  | none => simp
  | some target =>
    dsimp only
    split
    · by_cases here : tested = channel
      · have inside := (List.getElem?_eq_some_iff.mp found).1
        rw [if_pos ⟨rfl, here⟩, here]
        unfold pendingOn
        rw [getElem?_set_self inside, found]
      · rw [if_neg fun both => here both.2]
        unfold pendingOn
        rw [getElem?_set_ne (Ne.symm here)]
    · simp

theorem length_trySend (channel : Nat) (command : CoordinatorCommand) :
    (trySend channels channel command).2.length = channels.length := by
  unfold trySend
  split
  · rfl
  split
  · exact length_set
  · rfl

theorem offered_trySend {command} (silent : offeredLease command = none) (channel tested : Nat) :
    offeredLeases (pendingOn (trySend channels channel command).2 tested) =
      offeredLeases (pendingOn channels tested) := by
  rw [pendingOn_trySend]
  split
  · simp [offeredLeases, silent]
  · rfl

theorem pendingOn_modify {change} (channel tested : Nat) :
    pendingOn (channels.modify channel change) tested = match channels[tested]? with
      | none => []
      | some target =>
        if tested = channel then (change target).pending
        else target.pending := by
  unfold pendingOn
  rw [getElem?_modify]
  cases channels[tested]? with
  | none => rfl
  | some target =>
    by_cases here : channel = tested
    · simp [here]
    · simp [here, Ne.symm here]

theorem pendingOn_closeChannel (channel tested : Nat) :
    pendingOn (closeChannel channels channel) tested = pendingOn channels tested := by
  unfold closeChannel
  rw [pendingOn_modify]
  unfold pendingOn
  cases channels[tested]? with
  | none => rfl
  | some target => exact ite_self _

theorem pendingOn_popCommand (channel tested : Nat) :
    pendingOn (popCommand channels channel) tested =
      if tested = channel then (pendingOn channels tested).tail
      else pendingOn channels tested := by
  unfold popCommand
  rw [pendingOn_modify]
  unfold pendingOn
  cases channels[tested]? with
  | none => simp
  | some target => rfl

theorem pendingOn_openChannel (capacity tested : Nat) :
    pendingOn (channels ++ [⟨capacity, [], true⟩]) tested = pendingOn channels tested := by
  unfold pendingOn
  by_cases inside : tested < channels.length
  · rw [getElem?_append_left inside]
  · have past : channels.length ≤ tested := Nat.le_of_not_lt inside
    rw [getElem?_append_right past, getElem?_eq_none past]
    cases position : tested - channels.length with
    | zero => rfl
    | succ later => rfl

end Channels

abbrev lineOf (state : CoordinatorState) (deviceId : DeviceId) : Option (SessionId × Nat) :=
  fieldOf (fun agent => (agent.sessionId, agent.commandTx)) state deviceId

/-- The device holds the job under the lease, or the job has its receipt. -/
def Kept (state : CoordinatorState) (deviceId : DeviceId) (jobId : JobId)
    (leaseId : LeaseId) : Prop :=
  (∃ active, leaseOf state.jobs jobId = some active ∧
    active.deviceId = deviceId ∧ active.leaseId = leaseId) ∨
  (state.jobs.get? jobId = none ∧ state.receipts.contains jobId = true)

variable {state next : CoordinatorState}

theorem Kept.not_queued {deviceId jobId leaseId job} (kept : Kept state deviceId jobId leaseId)
    (found : state.jobs.get? jobId = some job) :
    job.state ≠ .queued := by
  intro queued
  rcases kept with ⟨active, leased, _⟩ | ⟨absent, _⟩
  · rw [leaseOf_of_get? found, queued] at leased
    cases leased
  · rw [found] at absent
    cases absent

theorem Kept.of_same {deviceId jobId leaseId} (kept : Kept state deviceId jobId leaseId)
    (same : next.jobs.get? jobId = state.jobs.get? jobId)
    (receipts : next.receipts = state.receipts) :
    Kept next deviceId jobId leaseId := by
  unfold Kept leaseOf
  rw [same, receipts]
  exact kept

/-- No lease is offered, no session is registered, and a registered device
keeps what it holds but for the leases that are dropped. -/
structure Quiet (dropped : JobId → ActiveLease → Prop) (state next : CoordinatorState) : Prop where
  offers : ∀ channel,
    offeredLeases (pendingOn next.channels channel) =
      offeredLeases (pendingOn state.channels channel)
  opened : state.channels.length ≤ next.channels.length
  lines : ∀ deviceId line, lineOf next deviceId = some line → lineOf state deviceId = some line
  keeps : ∀ deviceId line jobId leaseId,
    lineOf next deviceId = some line → Kept state deviceId jobId leaseId →
        Kept next deviceId jobId leaseId ∨ ∃ active, leaseOf state.jobs jobId = some active ∧
            active.deviceId = deviceId ∧ active.leaseId = leaseId ∧
            dropped jobId active

abbrev Silent : CoordinatorState → CoordinatorState → Prop :=
  Quiet fun _ _ => False

theorem Silent.refl (state : CoordinatorState) : Silent state state :=
  ⟨fun _ => rfl, Nat.le_refl _, fun _ _ line => line, fun _ _ _ _ _ kept => Or.inl kept⟩

theorem Silent.of_channels {channels}
    (offers : ∀ channel, offeredLeases (pendingOn channels channel) =
      offeredLeases (pendingOn state.channels channel))
    (opened : state.channels.length ≤ channels.length) :
    Silent state { state with channels } :=
  ⟨offers, opened, fun _ _ line => line, fun _ _ _ _ _ kept => Or.inl kept⟩

theorem Silent.trans {first second third} (before : Silent first second)
    (after : Silent second third) :
    Silent first third := by
  refine ⟨fun channel => (after.offers channel).trans (before.offers channel),
    before.opened.trans after.opened, ?_, ?_⟩
  · intro deviceId line held
    exact before.lines deviceId line (after.lines deviceId line held)
  intro deviceId line jobId leaseId held kept
  have heldBefore := after.lines deviceId line held
  rcases before.keeps deviceId line jobId leaseId heldBefore kept with
    mid | ⟨_, _, _, _, impossible⟩
  · rcases after.keeps deviceId line jobId leaseId held mid with
      last | ⟨_, _, _, _, impossible⟩
    · exact Or.inl last
    · exact impossible.elim
  · exact impossible.elim

theorem Quiet.mono {dropped later state next} (quiet : Quiet dropped state next)
    (weaker : ∀ jobId active, leaseOf state.jobs jobId = some active →
      dropped jobId active → later jobId active) :
    Quiet later state next := by
  refine ⟨quiet.offers, quiet.opened, quiet.lines, ?_⟩
  intro deviceId line jobId leaseId held kept
  rcases quiet.keeps deviceId line jobId leaseId held kept with
    same | ⟨active, leased, device, lease, gone⟩
  · exact Or.inl same
  · exact Or.inr ⟨active, leased, device, lease, weaker jobId active leased gone⟩

theorem Silent.quiet {dropped state next} (silent : Silent state next) : Quiet dropped state next :=
  silent.mono fun _ _ _ impossible => impossible.elim

/-! ### Leases that end -/

section Endings

variable {state : CoordinatorState}

theorem receipts_expireLeases (order : IterationOrder JobId)
    (state : CoordinatorState) (now : Instant) :
    (expireLeases order state now).receipts = state.receipts :=
  congrArg (fun kept => kept.2.2) (stores_expireLeases order state now)

theorem receipts_removeAgentSession (order : SessionId → IterationOrder JobId)
    (state : CoordinatorState) (deviceId : DeviceId) :
    (removeAgentSession order state deviceId).receipts = state.receipts :=
  congrArg (fun kept => kept.2.2) (stores_removeAgentSession order state deviceId)

theorem quiet_expireLeases (order : IterationOrder JobId)
    (state : CoordinatorState) (now : Instant) :
    Quiet (fun jobId active =>
        (jobId, active) ∈ expiredLeases order state now) state
      (expireLeases order state now) := by
  have channels : (expireLeases order state now).channels = state.channels :=
    congrArg Prod.snd (spared_expireLeases order state now)
  refine ⟨fun channel => by rw [channels], by rw [channels], ?_, ?_⟩
  · intro deviceId line held
    rw [← held]
    exact (fieldOf_expireLeases (fun _ _ => rfl) order state now deviceId).symm
  intro deviceId line jobId leaseId _ kept
  have jobs := jobs_expireLeases order state now jobId
  have receipts := receipts_expireLeases order state now
  rcases kept with ⟨active, leased, device, same⟩ | ⟨absent, committed⟩
  · by_cases overdue : active.deadline ≤ now
    · exact Or.inr ⟨active, leased, device, same, mem_expiredLeases.mpr ⟨leased, overdue⟩⟩
    unfold leaseOf at leased
    rw [Option.bind_eq_some_iff] at leased
    obtain ⟨job, found, lease⟩ := leased
    have still : (expireLeases order state now).jobs.get? jobId = some job :=
      jobs_expireLeases_of_lt found lease (Nat.lt_of_not_le overdue)
    exact Or.inl (Or.inl ⟨active, (leaseOf_of_get? still).trans lease, device, same⟩)
  · rw [absent, Option.map_none] at jobs
    exact Or.inl (Or.inr ⟨jobs, by rw [receipts]; exact committed⟩)

theorem quiet_removeAgentSession (order : SessionId → IterationOrder JobId)
    (deviceId : DeviceId) (sound : Consistent state) :
    Silent state (removeAgentSession order state deviceId) := by
  have channels : (removeAgentSession order state deviceId).channels = state.channels :=
    congrArg Prod.snd (spared_removeAgentSession order state deviceId)
  have lines : ∀ tested, lineOf (removeAgentSession order state deviceId) tested =
        if tested = deviceId then none else lineOf state tested :=
    fieldOf_removeAgentSession (fun _ _ => rfl) order state deviceId
  refine ⟨fun channel => by rw [channels], by rw [channels], ?_, ?_⟩
  · intro tested line held
    rw [lines] at held
    split at held
    · cases held
    · exact held
  intro tested line jobId leaseId held kept
  have elsewhere : tested ≠ deviceId := by
    intro here
    rw [lines, if_pos here] at held
    cases held
  have jobs := jobs_removeAgentSession order deviceId sound jobId
  have receipts := receipts_removeAgentSession order state deviceId
  left
  rcases kept with ⟨active, leased, device, same⟩ | ⟨absent, committed⟩
  · unfold leaseOf at leased
    rw [Option.bind_eq_some_iff] at leased
    obtain ⟨job, found, lease⟩ := leased
    have unmoved : job.orphaned deviceId = job := by
      apply orphaned_of_elsewhere
      intro other otherLease
      rw [lease] at otherLease
      cases otherLease
      rw [device]
      exact elsewhere
    rw [found, Option.map_some, unmoved] at jobs
    exact Or.inl ⟨active, (leaseOf_of_get? jobs).trans lease, device, same⟩
  · rw [absent, Option.map_none] at jobs
    exact Or.inr ⟨jobs, by rw [receipts]; exact committed⟩

theorem quiet_requeueActive {jobId job active} (found : state.jobs.get? jobId = some job)
    (preserveForRecovery : Bool) :
    Quiet (fun dropped _ => dropped = jobId) state
      (requeueActive state jobId active preserveForRecovery) := by
  have unchanged := spared_requeueActive state jobId active preserveForRecovery
  have channels : (requeueActive state jobId active preserveForRecovery).channels =
      state.channels := congrArg Prod.snd unchanged
  have jobs := jobs_requeueActive state jobId active preserveForRecovery
  have receipts : (requeueActive state jobId active
      preserveForRecovery).receipts = state.receipts :=
    congrArg (fun kept => kept.1.2.2) unchanged
  refine ⟨fun channel => by rw [channels], by rw [channels], ?_, ?_⟩
  · intro deviceId line held
    rw [← held]
    exact (fieldOf_requeueActive (fun _ _ => rfl) state jobId active
      preserveForRecovery deviceId).symm
  · intro deviceId line tested leaseId _ kept
    have after := jobs tested
    by_cases here : tested = jobId
    · rcases kept with ⟨other, held, device, same⟩ | ⟨absent, _⟩
      · exact Or.inr ⟨other, held, device, same, here⟩
      · rw [here, found] at absent
        cases absent
    · rw [if_neg here] at after
      exact Or.inl (kept.of_same after receipts)

theorem lineOf_insert_same {next deviceId agent changed}
    (connected : state.agents.get? deviceId = some agent)
    (agents : next.agents = state.agents.insert deviceId changed)
    (session : changed.sessionId = agent.sessionId) (channel : changed.commandTx = agent.commandTx)
    (tested : DeviceId) :
    lineOf next tested = lineOf state tested := by
  apply fieldOf_insert_same connected agents
  rw [session, channel]

theorem quiet_settleJob {jobId job deviceId agent report receipts digest}
    (connected : state.agents.get? deviceId = some agent)
    (recorded : receipts.receipts = state.receipts.receipts.insert jobId digest) :
    Silent state (settleJob { state with receipts } jobId job deviceId report) := by
  obtain ⟨artifacts, bytes, replies, settled, _⟩ :=
    @settleJob_eq { state with receipts } job jobId deviceId agent connected report
  rw [settled]
  refine ⟨fun _ => rfl, Nat.le_refl _, ?_, ?_⟩
  · intro tested line held
    rw [← held]
    refine Eq.symm (lineOf_insert_same connected rfl ?_ ?_ tested)
    · rfl
    · rfl
  intro tested line other leaseId _ kept
  left
  by_cases here : other = jobId
  · right
    rw [here]
    refine ⟨Table.get?_erase_self _ _, ?_⟩
    rw [ReceiptLedger.contains_eq_true_iff]
    exact ⟨digest, by rw [recorded]; exact Table.get?_insert_self _ _ _⟩
  · rcases kept with ⟨active, leased, device, same⟩ | ⟨absent, committed⟩
    · refine Or.inl ⟨active, ?_, device, same⟩
      rw [leaseOf_erase, if_neg here]
      exact leased
    · refine Or.inr ⟨?_, ?_⟩
      · exact (Table.get?_erase_of_ne here).trans absent
      · rw [ReceiptLedger.contains_eq_true_iff] at committed ⊢
        rw [recorded, Table.get?_insert_of_ne here]
        exact committed

theorem offers_releaseArtifacts (state : CoordinatorState) (descriptors : List ArtifactDescriptor) :
    (releaseArtifacts state descriptors).channels = state.channels := by
  obtain ⟨artifacts, bytes, released⟩ := releaseArtifacts_eq state descriptors
  rw [released]

theorem offers_cancelJob (state : CoordinatorState) (jobId : JobId) : (∀ channel,
      offeredLeases (pendingOn (cancelJob state jobId).channels channel) =
        offeredLeases (pendingOn state.channels channel)) ∧
      state.channels.length ≤ (cancelJob state jobId).channels.length := by
  unfold cancelJob
  dsimp only
  split
  · exact ⟨fun _ => rfl, Nat.le_refl _⟩
  next job found =>
  rw [offers_releaseArtifacts]
  split
  · exact ⟨fun _ => rfl, Nat.le_refl _⟩
  next active leased =>
  unfold sendCancel
  split
  · exact ⟨fun _ => rfl, Nat.le_refl _⟩
  · exact ⟨fun channel => offered_trySend rfl _ channel, Nat.le_of_eq (length_trySend _ _).symm⟩

theorem quiet_cancelJob (sound : Consistent state) (jobId : JobId) :
    Quiet (fun dropped _ => dropped = jobId) state (cancelJob state jobId) := by
  obtain ⟨offers, opened⟩ := offers_cancelJob state jobId
  have receipts := receipts_cancelJob state jobId
  cases found : state.jobs.get? jobId with
  | none =>
    have unchanged : (cancelJob state jobId).jobs = state.jobs ∧
        (cancelJob state jobId).agents = state.agents := by
      simp [cancelJob, found]
    refine ⟨offers, opened, ?_, ?_⟩
    · intro deviceId line held
      rw [← held]
      exact Eq.symm (fieldOf_same_agents unchanged.2 deviceId)
    · intro deviceId line tested leaseId _ kept
      exact Or.inl (kept.of_same (by rw [unchanged.1]) receipts)
  | some job =>
    obtain ⟨artifacts, bytes, channels, agents, cancelled, holder⟩ := cancelJob_eq sound found
    refine ⟨offers, opened, ?_, ?_⟩
    · intro deviceId line held
      rw [← held, cancelled]
      rcases holder with ⟨_, same⟩ | ⟨active, agent, _, connected, same⟩
      · exact Eq.symm (fieldOf_same_agents same deviceId)
      · refine Eq.symm (lineOf_insert_same connected same ?_ ?_ deviceId)
        · rfl
        · rfl
    · intro deviceId line tested leaseId _ kept
      by_cases here : tested = jobId
      · rcases kept with ⟨active, leased, device, same⟩ | ⟨absent, _⟩
        · exact Or.inr ⟨active, leased, device, same, here⟩
        · rw [here, found] at absent
          cases absent
      · left
        apply kept.of_same _ receipts
        rw [cancelled]
        exact Table.get?_erase_of_ne here

end Endings

/-! ### Requests and events -/

section Requests

variable {codec : Codec} {config : CoordinatorConfig}
  {env : Surroundings} {state next : CoordinatorState}

theorem silent_admitJob {submission requestNonce id}
    (admitted : admitJob codec config env state submission
      requestNonce = .ok (next, id)) : Silent state next := by
  obtain ⟨unknown, uncommitted, artifacts, bytes, job, _, _, _, _, rfl⟩ := admitJob_eq admitted
  refine ⟨fun _ => rfl, Nat.le_refl _, fun _ _ line => line, ?_⟩
  intro deviceId line jobId leaseId _ kept
  have other : jobId ≠ id := by
    intro here
    rcases kept with ⟨active, leased, _⟩ | ⟨_, committed⟩
    · rw [here, leaseOf, unknown] at leased
      cases leased
    · rw [here, uncommitted] at committed
      cases committed
  exact Or.inl (kept.of_same (Table.get?_insert_of_ne other) rfl)

theorem silent_renewLease {jobId job active} (found : state.jobs.get? jobId = some job)
    (leased : job.state.lease = some active) :
    Silent state (renewLease config env state jobId job active) := by
  refine ⟨fun _ => rfl, Nat.le_refl _, fun _ _ line => line, ?_⟩
  intro deviceId line tested leaseId _ kept
  left
  by_cases here : tested = jobId
  · rcases kept with ⟨other, held, device, same⟩ | ⟨absent, _⟩
    · rw [here, leaseOf_of_get? found, leased] at held
      cases held
      left
      refine ⟨{ active with
        deadline := env.renewalNow jobId + config.leaseDuration }, ?_, device, same⟩
      rw [here, renewLease, leaseOf_insert, if_pos rfl]
      rfl
    · rw [here, found] at absent
      cases absent
  · exact kept.of_same (Table.get?_insert_of_ne here) rfl

variable {deviceId : DeviceId} {sessionId : SessionId}

theorem quiet_applyEvent {agent event} (connected : state.agents.get? deviceId = some agent)
    (applied : applyEvent config env state deviceId sessionId agent event = .ok next) :
    Quiet (fun jobId active => ∃ reference,
        event = some (.rejected reference) ∧ reference.jobId = jobId.toVec ∧
          reference.leaseId = active.leaseId.toVec ∧
          active.currentSessionId = sessionId) state next := by
  have credited : ∀ freeSlots draining, Silent state
      { state with
        agents := state.agents.insert deviceId { agent with freeSlots, draining } } := by
    intro freeSlots draining
    refine ⟨fun _ => rfl, Nat.le_refl _, ?_, fun _ _ _ _ _ kept => Or.inl kept⟩
    intro tested line held
    rw [← held]
    refine Eq.symm (lineOf_insert_same connected rfl ?_ ?_ tested)
    · rfl
    · rfl
  rcases applyEvent_eq_ok applied with
    ⟨_, _, _, rfl⟩ | ⟨lease, _, _, _, valid, renewed⟩
  · exact (credited _ _).quiet
  obtain ⟨_, named, leaseNamed, found, leased, _, current, _⟩ :=
    validateAgentLeaseIds_eq_ok valid
  rcases renewed with rfl | ⟨rfl, rfl⟩
  · exact (silent_renewLease found leased).quiet
  apply (quiet_requeueActive found false).mono
  intro dropped other held here
  rw [here, leaseOf_of_get? found, leased] at held
  cases held
  refine ⟨lease, rfl, ?_, leaseNamed, current⟩
  rw [here]
  exact named

theorem silent_drainAgents (state : CoordinatorState) : Silent state (drainAgents state) := by
  unfold drainAgents
  induction state.agents.sortedKeys generalizing state with
  | nil => exact Silent.refl state
  | cons deviceId devices ih =>
    refine Silent.trans ?_ (ih (drainAgent state deviceId))
    unfold drainAgent
    split
    · exact Silent.refl state
    next agent connected =>
    refine ⟨fun channel => offered_trySend rfl _ channel,
      Nat.le_of_eq (length_trySend _ _).symm, ?_,
      fun _ _ _ _ _ kept => Or.inl kept⟩
    intro tested line held
    rw [← held]
    refine Eq.symm (lineOf_insert_same connected rfl ?_ ?_ tested)
    · rfl
    · rfl

theorem silent_sendWelcome {world stream}
    (greets : ∀ entry ∈ world.welcoming, offeredLease entry.2.2 = none) :
    Silent world.state (sendWelcome world stream).state := by
  unfold sendWelcome
  split
  · exact Silent.refl _
  next entry channel command found =>
  have silent := greets _ (mem_of_find?_eq_some found)
  dsimp only
  split
  · exact Silent.of_channels (fun tested => offered_trySend silent channel tested)
      (Nat.le_of_eq (length_trySend _ _).symm)
  refine Silent.of_channels ?_ ?_
  · intro tested
    rw [pendingOn_closeChannel]
  · exact Nat.le_of_eq (length_modify _ _ _).symm

theorem silent_receipts {receipts} (recorded : receipts.receipts = state.receipts.receipts) :
    Silent state { state with receipts } := by
  refine ⟨fun _ => rfl, Nat.le_refl _, fun _ _ line => line, ?_⟩
  intro deviceId line jobId leaseId _ kept
  left
  rcases kept with held | ⟨absent, committed⟩
  · exact Or.inl held
  · refine Or.inr ⟨absent, ?_⟩
    rw [ReceiptLedger.contains_eq_true_iff] at committed ⊢
    rw [recorded]
    exact committed

theorem silent_openChannel (config : CoordinatorConfig)
    (state : CoordinatorState) : Silent state (openChannel config state) := by
  refine Silent.of_channels ?_ ?_
  · intro tested
    rw [pendingOn_openChannel]
  · rw [length_append]
    exact Nat.le_add_right _ _

theorem silent_reconcileRecoveries {recoveries final} (sound : Consistent state)
    (reconciled : reconcileRecoveries config env deviceId sessionId
      recoveries ⟨state, [], ∅⟩ = (final.state, .ok final)) :
    Silent state final.state := by
  have same := @spared_reconcileRecoveries config env deviceId sessionId recoveries ⟨state, [], ∅⟩
  rw [reconciled] at same
  have channels : final.state.channels = state.channels := congrArg Prod.snd same
  have receipts : final.state.receipts = state.receipts :=
    congrArg (fun kept => kept.1.2.2) same
  have agents : final.state.agents = state.agents := (size_reconcileRecoveries reconciled).1
  refine ⟨fun channel => by rw [channels], by rw [channels], ?_, ?_⟩
  · intro tested line held
    rw [← held]
    exact Eq.symm (fieldOf_same_agents agents tested)
  · intro tested line jobId leaseId _ kept
    obtain ⟨_, untaken, _⟩ := @jobs_reconcileRecoveries _ _ _ _ jobId _ _ _ _ reconciled
    refine Or.inl (kept.of_same (untaken ?_) receipts)
    intro recovery _ ⟨other, _, _, takes⟩
    obtain ⟨⟨job, active⟩, recovered⟩ := Option.ne_none_iff_exists'.mp takes
    obtain ⟨found, recoverable, _⟩ := recoverable_eq_some recovered
    exact kept.not_queued found (sound.queued_of_recovery jobId job active found recoverable)

end Requests

end GraphZero.Measure
