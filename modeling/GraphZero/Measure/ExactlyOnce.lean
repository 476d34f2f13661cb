import GraphZero.Measure.JobTables
import GraphZero.Measure.Requests

/-!
# A measurement job commits exactly once

The ledger and the replies of a world are what its commits left behind, and a
lease that its job has let go of is retired: no job of a later world holds it,
so no later report commits under it.
-/

namespace GraphZero.Measure

open Foundation Wire List

/-- The ledger and the replies against the commits. -/
structure History (codec : Codec) (world : World) : Prop where
  requests : Requests world.state
  leases : LeasesDistinct world.state
  recorded : ∀ record ∈ world.committed,
    world.state.receipts.receipts.get? record.jobId = some (reportDigest codec record.report)
  once : (world.committed.map CommitRecord.jobId).Nodup
  replies : world.state.replies = world.committed.flatMap CommitRecord.replies

/-- A lease that was drawn and that no job holds any more. -/
def Retired (world : World) (leaseId : LeaseId) : Prop :=
  leaseId ∈ world.drawnLeases ∧ ∀ jobId, ¬ HoldsLease world.state jobId leaseId

/-- The operations that expire leases, with the reading they do it against. -/
inductive Expires (config : CoordinatorConfig) : Operation → Instant → Prop
  | enqueue {env submission requestNonce} (valid : validateSubmission config submission = .ok ())
    :
    Expires config (.enqueue env submission requestNonce) env.expiryNow
  | event (env : Surroundings) (stream : ControlStream)
    (event : Option AgentEvent) :
    Expires config (.event env stream event) env.expiryNow
  | reap (env : Surroundings) :
    Expires config (.reap env) env.expiryNow

/-- What the commits of a world and of the steps from it amount to. -/
structure ExactlyOnce (codec : Codec) (config : CoordinatorConfig) (world : World) : Prop where
  once : (world.committed.map CommitRecord.jobId).Nodup
  recorded : ∀ record ∈ world.committed,
    world.state.receipts.receipts.get? record.jobId = some (reportDigest codec record.report)
  /-- A report commits only while its job runs under the report's lease, on
  the report's device and in that device's session. -/
  running : ∀ operation next,
    (coordinatorSystem codec config).step world operation next → (next.committed = world.committed ∧
        next.state.receipts.receipts = world.state.receipts.receipts) ∨
      ∃ record, CommitStep codec world operation record next
  /-- A lease is retired once its job lets go of it, -/
  released : ∀ operation next,
    (coordinatorSystem codec config).step world operation next →
      ∀ jobId leaseId, HoldsLease world.state jobId leaseId →
        ¬ HoldsLease next.state jobId leaseId → Retired next leaseId
  /-- gets another one, -/
  reassigned : ∀ operation next,
    (coordinatorSystem codec config).step world operation next →
      ∀ jobId leaseId other, HoldsLease world.state jobId leaseId →
        HoldsLease next.state jobId other → other ≠ leaseId → Retired next leaseId
  /-- is cancelled, -/
  cancelled : ∀ jobId next,
    (coordinatorSystem codec config).step world (.cancel jobId) next →
      ∀ leaseId, HoldsLease world.state jobId leaseId → Retired next leaseId
  /-- or the lease expires. -/
  expired : ∀ operation next now, Expires config operation now →
    (coordinatorSystem codec config).step world operation next →
      ∀ jobId active, leaseOf world.state.jobs jobId = some active →
        active.deadline ≤ now → Retired next active.leaseId
  /-- A retired lease stays retired and commits nothing, whatever is enqueued
  later. -/
  retired : ∀ leaseId, Retired world leaseId → ∀ operations later,
    (coordinatorSystem codec config).Run world operations later → Retired later leaseId ∧
        ∀ record ∈ later.committed.drop world.committed.length,
          record.report.leaseId ≠ leaseId.toVec
  /-- The replies are those of the commits, -/
  replies : world.state.replies = world.committed.flatMap CommitRecord.replies
  /-- one for a requester. -/
  answered : (world.state.replies.map Prod.fst).Nodup
  resubmitted : ∀ around write peerFingerprint request submitted session digest,
    parseSubmission request = .ok submitted →
    authenticateReport world.state peerFingerprint submitted = .ok session →
    world.state.receipts.receipts.get? submitted.jobId = some digest →
      submitResult codec config around write world.state peerFingerprint request =
        some (world.state, .ok (if digest = reportDigest codec submitted.report then
            alreadyCommitted
          else
            differentReport))
  disjoint : ∀ jobId, world.state.receipts.contains jobId = true →
    world.state.jobs.get? jobId = none
  admitted : ∀ around submission requestNonce state jobId,
    enqueue codec config around world.state submission requestNonce =
      some (state, .ok jobId) → world.state.receipts.contains jobId = false ∧
          ∀ record ∈ world.committed, record.jobId ≠ jobId

section Steps

variable {codec : Codec} {config : CoordinatorConfig} {world next : World}
  {operation : Operation}

theorem requests_of_step (inv : WorldInvariant world) (requests : Requests world.state)
    (step : (coordinatorSystem codec config).step world operation next) :
    Requests next.state :=
  (inv.updates step).invariant (fun _ _ _ sound requests _ update =>
      requests_of_update update sound requests)
    inv.consistent requests

theorem leasesDistinct_of_step (inv : WorldInvariant world) (leases : LeasesDistinct world.state)
    (step : (coordinatorSystem codec config).step world operation next) :
    LeasesDistinct next.state :=
  (inv.updates step).invariant (fun _ _ _ sound leases _ update =>
      leasesDistinct_of_update update sound leases)
    inv.consistent leases

theorem history_of_step (inv : WorldInvariant world) (history : History codec world)
    (step : (coordinatorSystem codec config).step world operation next) :
    History codec next := by
  have requests := requests_of_step inv history.requests step
  have leases := leasesDistinct_of_step inv history.leases step
  rcases commits_of_step inv step with quiet | ⟨record, commit⟩
  · obtain ⟨receipts, replies⟩ := quiet.history
    exact
      { requests, leases
        recorded := by
          rw [quiet.committed, receipts]
          exact history.recorded
        once := by
          rw [quiet.committed]
          exact history.once
        replies := by rw [quiet.committed, replies, history.replies] }
  · obtain ⟨active, agent, committable, _⟩ := commit.committable
    have new : record.jobId ∉ world.committed.map CommitRecord.jobId := by
      intro member
      obtain ⟨earlier, earlierMember, same⟩ := mem_map.mp member
      have receipt := history.recorded earlier earlierMember
      rw [same, committable.uncommitted] at receipt
      cases receipt
    exact
      { requests, leases
        recorded := by
          intro tested member
          rw [commit.committed, mem_append, mem_singleton] at member
          rw [commit.receipts]
          rcases member with earlier | rfl
          · have different : tested.jobId ≠ record.jobId := fun same =>
              new (mem_map.mpr ⟨tested, earlier, same⟩)
            rw [Table.get?_insert_of_ne different]
            exact history.recorded tested earlier
          · rw [Table.get?_insert_self]
        once := by
          rw [commit.committed, map_append, nodup_append]
          refine ⟨history.once, nodup_singleton _, ?_⟩
          intro first member second last same
          rw [map_singleton, mem_singleton] at last
          exact new (last ▸ same ▸ member)
        replies := by
          rw [commit.replies, commit.committed, history.replies,
            flatMap_append, flatMap_singleton] }

theorem history_initial (codec : Codec) (receipts : ReceiptLedger) :
    History codec (initialWorld receipts) where
  requests := requests_newState receipts
  leases := leasesDistinct_newState receipts
  recorded := by rintro record ⟨⟩
  once := nodup_nil
  replies := rfl

theorem history_of_reachable (reachable : (coordinatorSystem codec config).Reachable world) :
    WorldInvariant world ∧ History codec world := by
  apply reachable.invariant
  · rintro start ⟨content, receipts, _, rfl⟩
    exact ⟨worldInvariant_initial receipts, history_initial codec receipts⟩
  · rintro state label next ⟨inv, history⟩ step
    exact ⟨worldInvariant_step inv step, history_of_step inv history step⟩

/-! ## Retired leases -/

variable {leaseId : LeaseId}

theorem not_mem_leases_of_drawn (drawn : leaseId ∈ world.drawnLeases)
    (step : (coordinatorSystem codec config).step world operation next) :
    leaseId ∉ operation.leases := by
  obtain ⟨enabled, _⟩ := step
  obtain ⟨_, _, apart⟩ := nodup_append.mp enabled.freshLeases
  exact fun again => apart leaseId drawn leaseId again rfl

section

variable (inv : WorldInvariant world) (leases : LeasesDistinct world.state)
  (step : (coordinatorSystem codec config).step world operation next) {jobId : JobId}
include inv leases step

theorem retired_of_released {leaseId} (held : HoldsLease world.state jobId leaseId)
    (released : ¬ HoldsLease next.state jobId leaseId) :
    Retired next leaseId := by
  have drawn := inv.drawn jobId leaseId held
  refine ⟨by rw [(drawn_of_step step).1]; exact mem_append_left _ drawn,
    ?_⟩
  intro other otherHeld
  rcases inv.holdsLease_of_step step otherHeld with before | again
  · rw [leases.holder jobId other leaseId held before] at released
    exact released otherHeld
  · exact not_mem_leases_of_drawn drawn step again

theorem retired_of_reassigned {leaseId other} (held : HoldsLease world.state jobId leaseId)
    (otherHeld : HoldsLease next.state jobId other) (different : other ≠ leaseId) :
    Retired next leaseId := by
  apply retired_of_released inv leases step held
  intro kept
  have sound := (worldInvariant_step inv step).consistent
  exact different (sound.lease_unique otherHeld kept)

end

variable {jobId : JobId}

theorem retired_of_cancelled (inv : WorldInvariant world) (leases : LeasesDistinct world.state)
    (step : (coordinatorSystem codec config).step world (.cancel jobId) next)
    (held : HoldsLease world.state jobId leaseId) :
    Retired next leaseId := by
  apply retired_of_released inv leases step held
  rintro ⟨kept, active, found, _⟩
  obtain ⟨_, ran, succeeded, rfl⟩ := step
  obtain ⟨job, _, present, _⟩ := held
  obtain ⟨artifacts, bytes, channels, agents, cancelled, _⟩ :=
    cancelJob_eq inv.consistent present
  cases succeeded
  simp only [recordDraws, cancelled, Table.get?_erase_self] at found
  cases found

theorem updates_of_expires {now} (inv : WorldInvariant world)
    (expires : Expires config operation now)
    (step : (coordinatorSystem codec config).step world operation next) :
    ∃ order, UpdatesWithin (Change.Of operation)
      (expireLeases order world.state now) next.state := by
  obtain ⟨enabled, ran, succeeded, rfl⟩ := step
  have fresh := inv.freshDraws enabled
  have sound := inv.consistent
  cases expires with
  | enqueue valid =>
    simp only [perform, Option.map_eq_some_iff] at succeeded
    obtain ⟨outcome, enqueued, rfl⟩ := succeeded
    exact ⟨_, updates_enqueue_expired sound fresh valid enqueued⟩
  | event env stream event =>
    simp only [perform, Option.map_eq_some_iff] at succeeded
    obtain ⟨⟨state, answer⟩, handled, rfl⟩ := succeeded
    have updates := updates_handleAgentEvent_expired sound fresh handled
    refine ⟨env.jobOrder, ?_⟩
    cases answer with
    | ok => exact updates
    | error failure => exact updates
  | reap env =>
    simp only [perform, Option.map_eq_some_iff] at succeeded
    obtain ⟨outcome, reaped, rfl⟩ := succeeded
    have ends := updates_expireLeases env.jobOrder env.expiryNow sound
    exact ⟨_, updates_thenSchedule rfl (.refl _)
      (ends.consistent sound) (fresh.ending ends sound) reaped⟩

theorem retired_of_expired {now} (inv : WorldInvariant world)
    (leases : LeasesDistinct world.state) (expires : Expires config operation now)
    (step : (coordinatorSystem codec config).step world operation next) {active}
    (leased : leaseOf world.state.jobs jobId = some active) (overdue : active.deadline ≤ now) :
    Retired next active.leaseId := by
  have held : HoldsLease world.state jobId active.leaseId := by
    unfold leaseOf at leased
    rw [Option.bind_eq_some_iff] at leased
    obtain ⟨job, found, lease⟩ := leased
    exact ⟨job, active, found, Or.inl lease, rfl⟩
  apply retired_of_released inv leases step held
  intro kept
  obtain ⟨order, changes, run, permitted⟩ := updates_of_expires inv expires step
  have sound := (updates_expireLeases order now inv.consistent).consistent inv.consistent
  rcases holdsLease_of_updates run sound kept with before | offered
  · exact not_holdsLease_expireLeases inv.consistent leased overdue before
  · have again := drawn_of_offered (permitted _ offered)
    exact not_mem_leases_of_drawn (inv.drawn _ _ held) step again

theorem retired_of_step (inv : WorldInvariant world)
    (step : (coordinatorSystem codec config).step world operation next)
    (retired : Retired world leaseId) :
    Retired next leaseId := by
  refine ⟨?_, fun jobId held => ?_⟩
  · rw [(drawn_of_step step).1]
    exact mem_append_left _ retired.1
  · rcases inv.holdsLease_of_step step held with before | again
    · exact retired.2 jobId before
    · exact not_mem_leases_of_drawn retired.1 step again

theorem CommitStep.holdsLease {record} (commit : CommitStep codec world operation record next)
    (named : record.report.leaseId = leaseId.toVec) :
    HoldsLease world.state record.jobId leaseId := by
  obtain ⟨active, agent, committable, _⟩ := commit.committable
  refine ⟨record.job, active, committable.found, Or.inl ?_, ?_⟩
  · rw [committable.running, JobState.lease_running]
  · exact Id.toVec_injective (committable.lease.symm.trans named)

theorem retired_of_run {operations} (inv : WorldInvariant world)
    (run : (coordinatorSystem codec config).Run world operations next)
    (retired : Retired world leaseId) :
    Retired next leaseId ∧ ∀ record ∈ next.committed.drop world.committed.length,
        record.report.leaseId ≠ leaseId.toVec := by
  induction run with
  | refl => exact ⟨retired, by simp⟩
  | snoc before step ih =>
    obtain ⟨middleRetired, apart⟩ := ih
    have mid := worldInvariant_of_reaches inv ⟨_, before⟩
    obtain ⟨earlier, committed⟩ := committed_of_run inv before
    refine ⟨retired_of_step mid step middleRetired, ?_⟩
    rw [committed, drop_left] at apart
    rcases commits_of_step mid step with quiet | ⟨record, commit⟩
    · rw [quiet.committed, committed, drop_left]
      exact apart
    rw [commit.committed, committed, append_assoc, drop_left]
    intro tested member named
    rcases mem_append.mp member with before | last
    · exact apart tested before named
    · rw [mem_singleton.mp last] at named
      exact middleRetired.2 record.jobId (commit.holdsLease named)

theorem submitResult_of_receipt
    {env write state peerFingerprint request submitted session digest}
    (parsed : parseSubmission request = .ok submitted)
    (authenticated : authenticateReport state peerFingerprint submitted = .ok session)
    (receipt : state.receipts.receipts.get? submitted.jobId = some digest) :
    submitResult codec config env write state peerFingerprint request = some (state, .ok
        (if digest = reportDigest codec submitted.report then
          alreadyCommitted
        else
          differentReport)) := by
  have known : state.receipts.state codec submitted.jobId submitted.report =
      knownReceipt digest (reportDigest codec submitted.report) := by
    rw [ReceiptLedger.state, receipt]
  unfold submitResult
  rw [parsed]
  dsimp only
  rw [authenticated]
  rw [known, knownReceipt]
  by_cases same : digest = reportDigest codec submitted.report
  · rw [if_pos same, if_pos same]
  · rw [if_neg same, if_neg same]

theorem uncommitted_of_enqueue {env state next submission requestNonce} (sound : Consistent state)
    (enqueued : enqueue codec config env state submission requestNonce = some (next, .ok jobId)) :
    state.receipts.contains jobId = false := by
  obtain ⟨receipts, _⟩ := sameHistory_of_updates
    (updates_expireLeases env.jobOrder env.expiryNow sound) sound (by rintro _ _ ⟨⟩)
  unfold enqueue at enqueued
  split at enqueued
  · cases enqueued
  dsimp only at enqueued
  split at enqueued
  · cases enqueued
  next admitted id accepted =>
  unfold andSchedule at enqueued
  rw [Option.map_eq_some_iff] at enqueued
  obtain ⟨final, _, same⟩ := enqueued
  cases same
  obtain ⟨_, uncommitted, _⟩ := admitJob_eq accepted
  unfold ReceiptLedger.contains at uncommitted ⊢
  rw [← receipts]
  exact uncommitted

/-- In every reachable world a job commits at most once, under its lease and
session, and its requester is answered by that commit only. -/
theorem exactlyOnce_of_reachable (reachable : (coordinatorSystem codec config).Reachable world) :
    ExactlyOnce codec config world := by
  obtain ⟨inv, history⟩ := history_of_reachable reachable
  exact
    { once := history.once
      recorded := history.recorded
      running := by
        intro operation next step
        rcases commits_of_step inv step with quiet | commit
        · exact Or.inl ⟨quiet.committed, quiet.history.1⟩
        · exact Or.inr commit
      released := fun operation next step jobId leaseId held released =>
        retired_of_released inv history.leases step held released
      reassigned := fun operation next step jobId leaseId other =>
        retired_of_reassigned inv history.leases step
      cancelled := fun jobId next step leaseId =>
        retired_of_cancelled inv history.leases step
      expired := fun operation next now expires step jobId active =>
        retired_of_expired inv history.leases expires step
      retired := fun leaseId retired operations later run =>
        retired_of_run inv run retired
      replies := history.replies
      answered := history.requests.once
      resubmitted := fun _ _ _ _ _ _ _ => submitResult_of_receipt
      disjoint := history.requests.disjoint
      admitted := by
        intro env submission requestNonce state jobId enqueued
        have uncommitted := uncommitted_of_enqueue inv.consistent enqueued
        refine ⟨uncommitted, fun record member same => ?_⟩
        have receipt := history.recorded record member
        rw [same, ReceiptLedger.contains_eq_false_iff.mp uncommitted] at receipt
        cases receipt }

end Steps

namespace Sample

def committed : List Operation :=
  accepted ++ [.submit (at_ 4 []) .durable none ⟨session.toVec, some (report targetBytes 5)⟩]

end Sample

/-- A run that commits one report, under the lease of its job. -/
theorem exactlyOnce_after_committed :
    (Sample.after Sample.committed).committed.map CommitRecord.jobId = [Sample.job] ∧
      ExactlyOnce Sample.codec Sample.config (Sample.after Sample.committed) :=
  ⟨by decide +kernel,
    exactlyOnce_of_reachable (Sample.reachable_after (by decide +kernel))⟩

end GraphZero.Measure
