import GraphZero.Measure.Admission

/-!
# The stores that leases and sessions leave alone

Offers, lease ends and session changes touch neither the artifact store nor
the receipt ledger, so an operation leaves the ledger as it was or commits one
report to it.
-/

namespace GraphZero.Measure

open Foundation Wire

def stores (state : CoordinatorState) : Table ArtifactDigest ArtifactRecord × Nat × ReceiptLedger :=
  (state.artifacts, state.artifactBytes, state.receipts)

section Frames

variable {config : CoordinatorConfig} {order : SessionId → IterationOrder JobId}

theorem foldl_unchanged {α β : Type} {view : CoordinatorState → α} {step}
    (kept : ∀ state entry, view (step state entry) = view state) (entries : List β)
    (state : CoordinatorState) :
    view (entries.foldl step state) = view state := by
  induction entries generalizing state with
  | nil => rfl
  | cons entry entries ih => rw [List.foldl_cons, ih, kept]

/-- What the end of a lease leaves alone. -/
def spared (state : CoordinatorState) :=
  (stores state, state.channels)

theorem spared_requeueActive (state : CoordinatorState) (jobId : JobId)
    (active : ActiveLease) (preserveForRecovery : Bool) :
    spared (requeueActive state jobId active preserveForRecovery) = spared state := by
  have requeued : spared (requeueJob state jobId active preserveForRecovery) = spared state := by
    unfold requeueJob
    split <;> rfl
  have released : ∀ mid, spared (releaseLease mid jobId active) = spared mid := by
    intro mid
    unfold releaseLease
    split
    · rfl
    · split <;> rfl
  rw [requeueActive, released, requeued]

theorem spared_requeueLeased (state : CoordinatorState) (jobId : JobId) (leaseId : LeaseId) :
    spared (requeueLeased state jobId leaseId) = spared state := by
  unfold requeueLeased
  split
  · rfl
  split
  · split
    · exact spared_requeueActive _ _ _ _
    · rfl
  · split
    · exact spared_requeueActive _ _ _ _
    · rfl
  · rfl

theorem spared_expireLeases (order : IterationOrder JobId)
    (state : CoordinatorState) (now : Instant) :
    spared (expireLeases order state now) = spared state :=
  foldl_unchanged (fun _ _ => spared_requeueActive _ _ _ _) _ state

theorem spared_removeAgentSession (order : SessionId → IterationOrder JobId)
    (state : CoordinatorState) (deviceId : DeviceId) :
    spared (removeAgentSession order state deviceId) = spared state := by
  unfold removeAgentSession
  split
  · rfl
  · exact foldl_unchanged (fun _ _ => spared_requeueLeased _ _ _) _ _

theorem stores_expireLeases (order : IterationOrder JobId)
    (state : CoordinatorState) (now : Instant) :
    stores (expireLeases order state now) = stores state :=
  congrArg Prod.fst (spared_expireLeases order state now)

theorem stores_removeAgentSession (order : SessionId → IterationOrder JobId)
    (state : CoordinatorState) (deviceId : DeviceId) :
    stores (removeAgentSession order state deviceId) = stores state :=
  congrArg Prod.fst (spared_removeAgentSession order state deviceId)

theorem stores_offer (state : CoordinatorState) (jobId : JobId) (job : Job)
    (deviceId : DeviceId) (agent : AgentSession)
    (draw : LeaseId × Instant) :
    stores (offer config order state jobId job deviceId agent draw) = stores state := by
  unfold offer
  dsimp only
  split
  · rfl
  · rw [stores_removeAgentSession]
    rfl

variable {state : CoordinatorState}

theorem stores_schedule {draws next} (scheduled : schedule config order draws state = some next) :
    stores next = stores state := by
  induction draws generalizing state with
  | nil =>
    unfold schedule at scheduled
    split at scheduled
    · cases scheduled
      rfl
    · cases scheduled
  | cons draw draws ih =>
    unfold schedule at scheduled
    split at scheduled
    · cases scheduled
      rfl
    · rw [ih scheduled, stores_offer]

theorem stores_andSchedule {α : Type} {env} {answer : α} {outcome}
    (ran : andSchedule config env state answer =
      some outcome) : stores outcome.1 = stores state := by
  unfold andSchedule at ran
  rw [Option.map_eq_some_iff] at ran
  obtain ⟨final, loop, rfl⟩ := ran
  exact stores_schedule loop

theorem stores_drainAgents (state : CoordinatorState) :
    stores (drainAgents state) = stores state := by
  apply foldl_unchanged
  intro state deviceId
  unfold drainAgent
  split <;> rfl

variable {env : Surroundings} {deviceId : DeviceId} {sessionId : SessionId}

theorem stores_applyEvent {next deviceId sessionId agent event}
    (applied : applyEvent config env state deviceId sessionId agent
      event = .ok next) : stores next = stores state := by
  rcases applyEvent_eq_ok applied with
    ⟨_, _, _, rfl⟩ | ⟨_, _, _, _, _, rfl | ⟨_, rfl⟩⟩
  · rfl
  · rfl
  · exact congrArg Prod.fst (spared_requeueActive _ _ _ _)

theorem spared_reconcileRecoveries (recoveries : List LeaseRecovery) (progress : Reconciliation) :
    spared (reconcileRecoveries config env deviceId sessionId
      recoveries progress).1 = spared progress.state := by
  induction recoveries generalizing progress with
  | nil => rfl
  | cons recovery recoveries ih =>
    unfold reconcileRecoveries
    split
    · rw [ih]
      unfold reconcileRecovery
      dsimp only
      split
      · rfl
      · split <;> rfl
    · rfl
    · rfl

theorem reconcileRecoveries_state {recoveries progress final}
    (reconciled : reconcileRecoveries config env deviceId sessionId
      recoveries progress = (state, .ok final)) : state = final.state := by
  induction recoveries generalizing progress with
  | nil =>
    cases reconciled
    rfl
  | cons recovery recoveries ih =>
    unfold reconcileRecoveries at reconciled
    split at reconciled
    · exact ih reconciled
    · cases reconciled
    · cases reconciled

theorem stores_register {peerFingerprint hello sessionId deviceId profileHash}
    (state : CoordinatorState) :
    stores (register config env state peerFingerprint hello sessionId
      deviceId profileHash).1 = stores state := by
  have reconciled := congrArg Prod.fst (@spared_reconcileRecoveries config env deviceId
    sessionId hello.recoveries
      ⟨removeAgentSession env.activeOrder (openChannel config state) deviceId, [], ∅⟩)
  have removed := stores_removeAgentSession env.activeOrder (openChannel config state) deviceId
  unfold register
  dsimp only
  split
  · next outcome =>
    rw [outcome] at reconciled
    exact reconciled.trans removed
  · next progress outcome =>
    rw [outcome, reconcileRecoveries_state outcome] at reconciled
    exact reconciled.trans removed

end Frames

section Ledger

variable {codec : Codec} {config : CoordinatorConfig} {world next : World}
  {operation : Operation}

theorem receipts_releaseArtifacts (state : CoordinatorState)
    (descriptors : List ArtifactDescriptor) :
    (releaseArtifacts state descriptors).receipts = state.receipts := by
  obtain ⟨artifacts, bytes, released⟩ := releaseArtifacts_eq state descriptors
  rw [released]

theorem receipts_cancelJob (state : CoordinatorState) (jobId : JobId) :
    (cancelJob state jobId).receipts = state.receipts := by
  unfold cancelJob
  dsimp only
  split
  · rfl
  rw [receipts_releaseArtifacts]
  split
  · rfl
  · unfold sendCancel
    split <;> rfl

theorem receipts_settleJob (state : CoordinatorState) (jobId : JobId)
    (job : Job) (deviceId : DeviceId) (report : MeasureReport) :
    (settleJob state jobId job deviceId report).receipts = state.receipts := by
  unfold settleJob
  dsimp only
  split
  · exact receipts_releaseArtifacts _ _
  · exact receipts_releaseArtifacts _ _

/-- `commit` of one report, or nothing. -/
def Committed (codec : Codec) (ledger later : ReceiptLedger) : Prop :=
  later = ledger ∨ ∃ write jobId report,
    later = (ledger.commit codec write jobId report).2

theorem receipts_submitResult {state env write peerFingerprint request outcome}
    (ran : submitResult codec config env write state peerFingerprint request = some outcome) :
    Committed codec state.receipts outcome.1.receipts := by
  unfold submitResult at ran
  split at ran
  · cases ran
    exact Or.inl rfl
  next submitted _ =>
  split at ran
  · cases ran
    exact Or.inl rfl
  split at ran
  · cases ran
    exact Or.inl rfl
  · cases ran
    exact Or.inl rfl
  unfold commitReport at ran
  dsimp only at ran
  split at ran
  · cases ran
    exact Or.inl rfl
  split at ran
  · cases ran
    exact Or.inl rfl
  have commits : ∀ answer receipts, state.receipts.commit codec write submitted.jobId
        submitted.report = (answer, receipts) →
      Committed codec state.receipts receipts := by
    intro answer receipts equal
    exact Or.inr ⟨write, submitted.jobId, submitted.report, by
      rw [equal]⟩
  split at ran
  · next equal =>
    cases ran
    exact commits _ _ equal
  · next equal =>
    cases ran
    exact commits _ _ equal
  · next equal =>
    cases ran
    exact commits _ _ equal
  next receipts equal =>
  have settled := congrArg (fun kept => kept.2.2) (stores_andSchedule ran)
  dsimp only [stores] at settled
  rw [settled, receipts_settleJob]
  exact commits _ _ equal

theorem receipts_perform (ran : perform codec config world operation = some next) :
    Committed codec world.state.receipts next.state.receipts := by
  have same : ∀ {state : CoordinatorState},
      stores state = stores world.state → Committed codec world.state.receipts state.receipts :=
    fun kept => Or.inl (congrArg (fun kept => kept.2.2) kept)
  cases operation with
  | enqueue env submission requestNonce =>
    simp only [perform, Option.map_eq_some_iff] at ran
    obtain ⟨outcome, enqueued, rfl⟩ := ran
    have expired := stores_expireLeases env.jobOrder world.state env.expiryNow
    unfold enqueue at enqueued
    split at enqueued
    · cases enqueued
      exact Or.inl rfl
    dsimp only at enqueued
    split at enqueued
    · cases enqueued
      exact same expired
    next admitted id accepted =>
    obtain ⟨_, _, _, _, _, retained, _, rfl⟩ := admitJob_eq_ok accepted
    have scheduled := congrArg (fun kept => kept.2.2) (stores_andSchedule enqueued)
    have before := congrArg (fun kept => kept.2.2) expired
    exact Or.inl (scheduled.trans before)
  | cancel jobId =>
    cases ran
    exact Or.inl (receipts_cancelJob _ _)
  | connect env peerFingerprint hello sessionId =>
    cases ran
    unfold connect
    split
    · exact Or.inl rfl
    next deviceId profileHash _ =>
    have registers := @stores_register config env
      peerFingerprint hello sessionId deviceId profileHash world.state
    split
    · next outcome =>
      rw [outcome] at registers
      exact same registers
    · next outcome =>
      rw [outcome] at registers
      exact same registers
  | welcome stream =>
    cases ran
    unfold sendWelcome
    split
    · exact Or.inl rfl
    · dsimp only
      split <;> exact Or.inl rfl
  | event env stream event =>
    simp only [perform, Option.map_eq_some_iff] at ran
    obtain ⟨⟨state, answer⟩, handled, rfl⟩ := ran
    have kept : stores state = stores world.state := by
      have expired := stores_expireLeases env.jobOrder world.state env.expiryNow
      unfold handleAgentEvent at handled
      dsimp only at handled
      split at handled
      · cases handled
        exact expired
      split at handled
      · cases handled
        exact expired
      split at handled
      · cases handled
        exact expired
      · next applied accepted =>
        refine (stores_andSchedule handled).trans (Eq.trans ?_ expired)
        exact stores_applyEvent accepted
    cases answer <;> exact same kept
  | streamEnd stream =>
    cases ran
    exact Or.inl rfl
  | disconnect env stream =>
    simp only [perform, Option.map_eq_some_iff] at ran
    obtain ⟨outcome, disconnected, rfl⟩ := ran
    unfold disconnect at disconnected
    split at disconnected
    · cases disconnected
      exact Or.inl rfl
    split at disconnected
    · cases disconnected
      exact Or.inl rfl
    · exact same ((stores_andSchedule disconnected).trans (stores_removeAgentSession _ _ _))
  | submit env write peerFingerprint request =>
    simp only [perform, Option.map_eq_some_iff] at ran
    obtain ⟨⟨state, answer⟩, submitted, rfl⟩ := ran
    have commits := receipts_submitResult submitted
    cases answer with
    | error status => exact commits
    | ok ack =>
      dsimp only
      split <;> exact commits
  | reap env =>
    simp only [perform, Option.map_eq_some_iff] at ran
    obtain ⟨outcome, reaped, rfl⟩ := ran
    exact same ((stores_andSchedule reaped).trans (stores_expireLeases _ _ _))
  | drain =>
    cases ran
    exact same (stores_drainAgents _)
  | receive channel | hangUp channel =>
    cases ran
    exact Or.inl rfl

end Ledger

end GraphZero.Measure
