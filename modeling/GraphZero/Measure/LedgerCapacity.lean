import GraphZero.Measure.Stores

/-!
# A ledger in memory has room for the live jobs

An admission leaves room for the receipt of every live job, a commit turns a
live job into a receipt, and nothing else adds a job or a receipt.
-/

namespace GraphZero.Measure

open Foundation Wire

/-- Live jobs and receipts: what the ledger holds or will hold. -/
def ledgerLoad (state : CoordinatorState) : Nat :=
  state.jobs.size + state.receipts.len

section Updates

variable {state next : CoordinatorState} {change : Change}

theorem size_rewrite {jobs : Table JobId Job} {jobId job} (found : jobs.get? jobId = some job)
    (rewritten : Job) :
    (jobs.insert jobId rewritten).size = jobs.size :=
  Table.size_insert_of_present (Table.mem_keys_of_get? found)

theorem ledgerLoad_of_update (update : Update state change next) (sound : Consistent state)
    (unadmitted : ∀ jobId, change ≠ .admitted jobId) :
    ledgerLoad next ≤ ledgerLoad state := by
  unfold ledgerLoad ReceiptLedger.len
  cases update with
  | enqueue unknown uncommitted queued unrecoverable requester => exact absurd rfl (unadmitted _)
  | offer waiting found connected admitted session fresh =>
    exact Nat.add_le_add_right (size_rewrite found _).le _
  | requeue found leased accepted =>
    obtain ⟨agent, connected, requeued⟩ := requeueActive_eq sound found leased _
    rw [requeued]
    exact Nat.add_le_add_right (size_rewrite found _).le _
  | renew found leased => exact Nat.add_le_add_right (size_rewrite found _).le _
  | rebind found recovered connected => exact Nat.add_le_add_right (size_rewrite found _).le _
  | connect absent idle => exact Nat.le_refl _
  | disconnect connected idle => exact Nat.le_refl _
  | credit connected => exact Nat.le_refl _
  | cancel found =>
    rename_i jobId job
    obtain ⟨artifacts, bytes, channels, agents, cancelled, _⟩ := cancelJob_eq sound found
    rw [cancelled]
    exact Nat.add_le_add_right (Table.size_erase_le _ _) _
  | settle found running connected recorded =>
    rename_i jobId job active agent report receipts digest
    obtain ⟨artifacts, bytes, replies, settled, _⟩ := settleJob_eq job
      jobId (connected : { state with receipts }.agents.get? _ = _) report
    have erased : (state.jobs.erase jobId).size + 1 = state.jobs.size :=
      Table.size_erase_of_present (Table.mem_keys_of_get? found)
    have receipt : receipts.receipts.size ≤ state.receipts.receipts.size + 1 := by
      rw [recorded]
      exact Table.size_insert_le _ _ _
    rw [settled]
    change (state.jobs.erase jobId).size + receipts.receipts.size ≤ _
    omega
  | communicate recorded =>
    rw [recorded]

theorem ledgerLoad_of_updates {allowed} (updates : UpdatesWithin allowed state next)
    (sound : Consistent state) (unadmitted : ∀ jobId, ¬ allowed (.admitted jobId)) :
    ledgerLoad next ≤ ledgerLoad state := by
  apply updates.relates (fun _ => Nat.le_refl _) _ sound
  intro start state change next sound before permitted update
  have later := ledgerLoad_of_update update sound
    (by rintro jobId rfl; exact unadmitted jobId permitted)
  exact later.trans before

end Updates

/-- The ledger is in memory and has room for the live jobs. -/
def HasRoom (capacity : Nat) (state : CoordinatorState) : Prop :=
  (∃ receipts, state.receipts = .memory capacity receipts) ∧ ledgerLoad state ≤ capacity

theorem memory_of_committed {codec capacity ledger later} (committed : Committed codec ledger later)
    (memory : ∃ receipts, ledger = .memory capacity receipts) :
    ∃ receipts, later = .memory capacity receipts := by
  obtain ⟨receipts, rfl⟩ := memory
  rcases committed with rfl | ⟨write, jobId, report, rfl⟩
  · exact ⟨receipts, rfl⟩
  · unfold ReceiptLedger.commit
    dsimp only
    split
    · exact ⟨_, rfl⟩
    · split <;> exact ⟨_, rfl⟩

section Steps

variable {codec : Codec} {config : CoordinatorConfig} {world next : World}
  {operation : Operation} {capacity : Nat}

theorem ledgerLoad_of_enqueue {env submission requestNonce state outcome}
    (sound : Consistent state) (fresh : FreshDraws (env.draws.map Prod.fst) state)
    (room : HasRoom capacity state)
    (ran : enqueue codec config env state submission
      requestNonce = some outcome) : ledgerLoad outcome.1 ≤ capacity := by
  obtain ⟨⟨receipts, memory⟩, load⟩ := room
  unfold enqueue at ran
  split at ran
  · cases ran
    exact load
  have expires := updates_expireLeases env.jobOrder env.expiryNow sound
  have expired := expires.consistent sound
  have expiredLoad := (ledgerLoad_of_updates expires sound (by rintro jobId ⟨⟩)).trans load
  dsimp only at ran
  split at ran
  · cases ran
    exact expiredLoad
  next admitted id accepted =>
  have update := update_of_admitJob accepted
  obtain ⟨_, unknown, _, _, fits, retained, _, entered⟩ := admitJob_eq_ok accepted
  have kept := congrArg (fun kept => kept.2.2) (stores_expireLeases
    env.jobOrder state env.expiryNow)
  dsimp only [stores] at kept
  have admittedLoad : ledgerLoad admitted ≤ capacity := by
    rw [entered]
    unfold ledgerLoad
    rw [kept, memory] at fits ⊢
    simp only [ReceiptLedger.canAdmit, decide_eq_true_eq] at fits
    rw [Table.size_insert_of_absent unknown]
    simp only [ReceiptLedger.len, ReceiptLedger.receipts]
    omega
  have later : FreshDraws (env.draws.map Prod.fst) admitted :=
    (fresh.ending expires sound).after (UpdatesWithin.single update rfl :
        UpdatesWithin (· = .admitted id) _ _)
      expired (by rintro jobId leaseId ⟨⟩)
  unfold andSchedule at ran
  rw [Option.map_eq_some_iff] at ran
  obtain ⟨final, loop, rfl⟩ := ran
  have admittedConsistent := consistent_update update expired
  have schedules := updates_schedule admittedConsistent later loop
  exact (ledgerLoad_of_updates schedules admittedConsistent
    (by rintro jobId (⟨⟨⟩⟩ | ⟨⟩))).trans admittedLoad

theorem hasRoom_of_step (inv : WorldInvariant world) (room : HasRoom capacity world.state)
    (step : (coordinatorSystem codec config).step world operation next) :
    HasRoom capacity next.state := by
  have updates := inv.updates step
  obtain ⟨enabled, ran, succeeded, rfl⟩ := step
  have memory := memory_of_committed (receipts_perform succeeded) room.1
  refine ⟨memory, ?_⟩
  by_cases admission : ∃ env submission requestNonce,
      operation = .enqueue env submission requestNonce
  · obtain ⟨env, submission, requestNonce, rfl⟩ := admission
    have fresh := inv.freshDraws enabled
    simp only [perform, Option.map_eq_some_iff] at succeeded
    obtain ⟨outcome, enqueued, rfl⟩ := succeeded
    exact ledgerLoad_of_enqueue inv.consistent fresh room enqueued
  · have load := ledgerLoad_of_updates updates inv.consistent
      fun jobId permitted => admission (enqueue_of_admitted permitted)
    exact load.trans room.2

theorem hasRoom_of_reachable (memory : config.receiptLedger = .memory capacity)
    (reachable : (coordinatorSystem codec config).Reachable world) :
    HasRoom capacity world.state := by
  have both : WorldInvariant world ∧ HasRoom capacity world.state := by
    apply reachable.invariant
    · rintro start ⟨content, receipts, opened, rfl⟩
      rw [memory] at opened
      cases opened
      exact ⟨worldInvariant_initial _, ⟨∅, rfl⟩, Nat.zero_le _⟩
    · rintro state label next ⟨inv, room⟩ step
      exact ⟨worldInvariant_step inv step, hasRoom_of_step inv room step⟩
  exact both.2

/-- In every reachable world of a coordinator whose ledger is in memory, the
live jobs and the receipts fit the ledger, so the first report of any live job
is recorded. -/
theorem ledgerCapacity_of_reachable (memory : config.receiptLedger = .memory capacity)
    (reachable : (coordinatorSystem codec config).Reachable world) :
    world.state.jobs.size + world.state.receipts.len ≤ capacity ∧
      ∀ jobId job write report, world.state.jobs.get? jobId = some job →
        (world.state.receipts.commit codec write jobId report).1 = .ok .missing := by
  obtain ⟨⟨receipts, ledger⟩, load⟩ := hasRoom_of_reachable memory reachable
  refine ⟨load, fun jobId job write report found => ?_⟩
  have live : 0 < world.state.jobs.size := List.length_pos_of_mem (Table.mem_keys_of_get? found)
  have uncommitted : receipts.get? jobId = none := by
    by_contra committed
    have contained : world.state.receipts.contains jobId = true := by
      rw [ledger]
      exact Option.isSome_iff_ne_none.mpr committed
    obtain ⟨_, history⟩ := history_of_reachable reachable
    have gone := history.requests.disjoint jobId contained
    rw [found] at gone
    cases gone
  have room : ¬ capacity ≤ receipts.size := by
    unfold ledgerLoad at load
    rw [ledger] at load
    simp only [ReceiptLedger.len, ReceiptLedger.receipts] at load
    omega
  rw [ledger]
  simp only [ReceiptLedger.commit, uncommitted, if_neg room]

end Steps

theorem ledgerCapacity_after_accepted : (Sample.after Sample.accepted).state.jobs.size +
      (Sample.after Sample.accepted).state.receipts.len ≤ 4096 :=
  (@ledgerCapacity_of_reachable Sample.codec Sample.config (Sample.after Sample.accepted) 4096 rfl
    (Sample.reachable_after (by decide +kernel))).1

end GraphZero.Measure
