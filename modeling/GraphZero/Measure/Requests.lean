import GraphZero.Measure.CommitStep

/-!
# Requesters and leases of live jobs

A requester waits for one job and is answered when that job settles, a job
with a receipt is no longer live, and two jobs never hold one lease.  Each
update keeps this, from the two facts below: the jobs after an update were
there before it unless it admitted them, and a lease that is new was offered
fresh.
-/

namespace GraphZero.Measure

open Foundation Wire

/-- The job with this id was there before as the same request. -/
def Reflects (jobId : JobId) (state next : CoordinatorState) : Prop :=
  ∀ later, next.jobs.get? jobId = some later →
    ∃ job, state.jobs.get? jobId = some job ∧ SameRequest job later

variable {state next : CoordinatorState}

theorem reflects_insert {changed job moved recovery} (found : state.jobs.get? changed = some job)
    (jobs : next.jobs = state.jobs.insert changed { job with state := moved, recovery })
    (jobId : JobId) : Reflects jobId state next := by
  intro later laterFound
  rw [jobs, Table.get?_insert] at laterFound
  split at laterFound
  · next here =>
    cases laterFound
    exact ⟨job, here ▸ found, rfl⟩
  · exact ⟨later, laterFound, .refl later⟩

theorem reflects_erase {erased} (jobs : next.jobs = state.jobs.erase erased) (jobId : JobId) :
    Reflects jobId state next := by
  intro later laterFound
  rw [jobs, Table.get?_erase] at laterFound
  split at laterFound
  · cases laterFound
  · exact ⟨later, laterFound, .refl later⟩

theorem reflects_of_update {change} (update : Update state change next)
    (sound : Consistent state) (unadmitted : ∀ jobId, change ≠ .admitted jobId) :
    next.requesters = state.requesters ∧ ∀ jobId, Reflects jobId state next := by
  cases update with
  | enqueue unknown uncommitted queued unrecoverable requester => exact absurd rfl (unadmitted _)
  | offer waiting found connected admitted session fresh => exact ⟨rfl, reflects_insert found rfl⟩
  | requeue found leased accepted =>
    obtain ⟨agent, connected, requeued⟩ := requeueActive_eq sound found leased _
    rw [requeued]
    exact ⟨rfl, reflects_insert found rfl⟩
  | renew found leased => exact ⟨rfl, reflects_insert found rfl⟩
  | rebind found recovered connected => exact ⟨rfl, reflects_insert found rfl⟩
  | connect absent idle => exact ⟨rfl, fun _ job found => ⟨job, found, rfl⟩⟩
  | disconnect connected idle => exact ⟨rfl, fun _ job found => ⟨job, found, rfl⟩⟩
  | credit connected => exact ⟨rfl, fun _ job found => ⟨job, found, rfl⟩⟩
  | cancel found =>
    obtain ⟨artifacts, bytes, channels, agents, cancelled, _⟩ := cancelJob_eq sound found
    rw [cancelled]
    exact ⟨rfl, reflects_erase rfl⟩
  | settle found running connected recorded =>
    rename_i settledId job active agent report receipts digest
    obtain ⟨artifacts, bytes, replies, settled, _⟩ := settleJob_eq job
      settledId (connected : { state with receipts }.agents.get? _ = _) report
    rw [settled]
    exact ⟨rfl, reflects_erase rfl⟩
  | communicate recorded => exact ⟨rfl, fun _ job found => ⟨job, found, rfl⟩⟩

/-! ## Requesters -/

def Answered (state : CoordinatorState) (requester : Nat) : Prop :=
  requester ∈ state.replies.map Prod.fst

structure Requests (state : CoordinatorState) : Prop where
  /-- A requester whose job is live has not been answered. -/
  waiting : ∀ jobId job requester, state.jobs.get? jobId = some job → job.reply = some requester →
      requester < state.requesters ∧ ¬ Answered state requester
  /-- It waits for one job. -/
  distinct : ∀ jobId other job otherJob requester,
    state.jobs.get? jobId = some job →
    state.jobs.get? other = some otherJob →
    job.reply = some requester → otherJob.reply = some requester → jobId = other
  known : ∀ requester, Answered state requester → requester < state.requesters
  once : (state.replies.map Prod.fst).Nodup
  /-- A job with a receipt is not live. -/
  disjoint : ∀ jobId, state.receipts.contains jobId = true → state.jobs.get? jobId = none

theorem requests_newState (receipts : ReceiptLedger) : Requests (newState receipts) where
  waiting := by rintro jobId job requester ⟨⟩
  distinct := by rintro jobId other job otherJob requester ⟨⟩
  known := by
    intro requester answered
    simp [Answered, newState] at answered
  once := List.nodup_nil
  disjoint := fun _ _ => rfl

section Updates

variable {state next : CoordinatorState} {change : Change}

theorem SameRequest.reply_eq {job later} (same : SameRequest job later) :
    later.reply = job.reply := by
  rw [same]

theorem requests_of_reflects (requests : Requests state)
    (requesters : next.requesters = state.requesters)
    (reflects : ∀ jobId, Reflects jobId state next)
    (history : SameHistory state next) : Requests next := by
  obtain ⟨receipts, replies⟩ := history
  have answered : ∀ requester, Answered next requester ↔ Answered state requester := by
    intro requester
    rw [Answered, Answered, replies]
  constructor
  · intro jobId job requester found reply
    obtain ⟨earlier, earlierFound, same⟩ := reflects jobId job found
    rw [same.reply_eq] at reply
    rw [requesters, answered]
    exact requests.waiting jobId earlier requester earlierFound reply
  · intro jobId other job otherJob requester found otherFound reply otherReply
    obtain ⟨earlier, earlierFound, same⟩ := reflects jobId job found
    obtain ⟨otherEarlier, otherEarlierFound, otherSame⟩ := reflects other otherJob otherFound
    rw [same.reply_eq] at reply
    rw [otherSame.reply_eq] at otherReply
    exact requests.distinct jobId other earlier otherEarlier requester
      earlierFound otherEarlierFound reply otherReply
  · intro requester already
    rw [requesters]
    exact requests.known requester ((answered requester).mp already)
  · rw [replies]
    exact requests.once
  · intro jobId present
    unfold ReceiptLedger.contains at present
    rw [receipts] at present
    cases found : next.jobs.get? jobId with
    | none => rfl
    | some later =>
      obtain ⟨earlier, earlierFound, _⟩ := reflects jobId later found
      rw [requests.disjoint jobId present] at earlierFound
      cases earlierFound

variable {jobId : JobId}

theorem requests_admit {job artifacts artifactBytes} (requests : Requests state)
    (uncommitted : state.receipts.contains jobId = false)
    (requester : job.reply = some state.requesters) :
    Requests { state with
      artifacts
      artifactBytes
      jobs := state.jobs.insert jobId job
      queue := state.queue ++ [jobId]
      requesters := state.requesters + 1 } := by
  constructor
  · intro tested found waiting foundTested reply
    simp only [Table.get?_insert] at foundTested
    split at foundTested
    · cases foundTested
      rw [requester] at reply
      cases reply
      refine ⟨Nat.lt_succ_self _, fun answered => ?_⟩
      exact Nat.lt_irrefl _ (requests.known _ answered)
    · obtain ⟨below, unanswered⟩ := requests.waiting tested found waiting foundTested reply
      exact ⟨Nat.lt_succ_of_lt below, unanswered⟩
  · intro first second firstJob secondJob waiting firstFound secondFound firstReply secondReply
    simp only [Table.get?_insert] at firstFound secondFound
    split at firstFound <;> split at secondFound
    · next here there => rw [here, there]
    · cases firstFound
      rw [requester] at firstReply
      cases firstReply
      exact absurd (requests.waiting second secondJob _ secondFound secondReply).1 (Nat.lt_irrefl _)
    · cases secondFound
      rw [requester] at secondReply
      cases secondReply
      exact absurd (requests.waiting first firstJob _ firstFound firstReply).1 (Nat.lt_irrefl _)
    · exact requests.distinct first second firstJob secondJob waiting
        firstFound secondFound firstReply secondReply
  · intro waiting answered
    exact Nat.lt_succ_of_lt (requests.known waiting answered)
  · exact requests.once
  · intro tested present
    have different : tested ≠ jobId := by
      rintro rfl
      rw [uncommitted] at present
      cases present
    exact (Table.get?_insert_of_ne different).trans (requests.disjoint tested present)

theorem requests_settle {job} {active : ActiveLease} {agent report receipts digest}
    (requests : Requests state) (found : state.jobs.get? jobId = some job)
    (connected : state.agents.get? active.deviceId = some agent)
    (recorded : receipts.receipts = state.receipts.receipts.insert jobId digest) :
    Requests (settleJob { state with receipts } jobId job active.deviceId report) := by
  obtain ⟨artifacts, bytes, replies, settled, replied⟩ := settleJob_eq job
    jobId (connected : { state with receipts }.agents.get? _ = _) report
  rw [settled]
  have answers : replies.map Prod.fst = state.replies.map Prod.fst ++ job.reply.toList := by
    rw [replied, List.map_append, List.map_map]
    cases job.reply <;> simp
  have answered : ∀ requester, requester ∈ replies.map Prod.fst →
      Answered state requester ∨ job.reply = some requester := by
    intro requester member
    rw [answers, List.mem_append, Option.mem_toList] at member
    exact member
  constructor
  · intro tested testedJob requester testedFound reply
    simp only [Table.get?_erase] at testedFound
    split at testedFound
    · cases testedFound
    next different =>
    obtain ⟨below, unanswered⟩ := requests.waiting tested testedJob requester testedFound reply
    refine ⟨below, fun member => ?_⟩
    rcases answered requester member with before | here
    · exact unanswered before
    · exact different (requests.distinct tested jobId testedJob job
        requester testedFound found reply here)
  · intro first second firstJob secondJob requester firstFound secondFound
    simp only [Table.get?_erase] at firstFound secondFound
    split at firstFound
    · cases firstFound
    split at secondFound
    · cases secondFound
    · exact requests.distinct first second firstJob secondJob requester firstFound secondFound
  · intro requester member
    rcases answered requester member with before | here
    · exact requests.known requester before
    · exact (requests.waiting jobId job requester found here).1
  · rw [answers, List.nodup_append]
    refine ⟨requests.once, ?_, ?_⟩
    · cases job.reply with
      | none => exact List.nodup_nil
      | some requester => exact List.nodup_singleton requester
    · intro first before second here same
      rw [Option.mem_toList] at here
      exact (requests.waiting jobId job second found here).2 (same ▸ before)
  · intro tested present
    rw [Table.get?_erase]
    split
    · rfl
    next different =>
    apply requests.disjoint
    unfold ReceiptLedger.contains at present ⊢
    rw [recorded, Table.contains_iff, Table.mem_keys_iff,
      Table.get?_insert_of_ne different] at present
    rw [Table.contains_iff, Table.mem_keys_iff]
    exact present

theorem requests_of_update (update : Update state change next)
    (sound : Consistent state) (requests : Requests state) :
    Requests next := by
  by_cases admitted : ∃ jobId, change = .admitted jobId
  · obtain ⟨jobId, rfl⟩ := admitted
    cases update with
    | enqueue unknown uncommitted queued unrecoverable requester =>
      exact requests_admit requests uncommitted requester
  · by_cases settled : ∃ jobId report, change = .settled jobId report
    · obtain ⟨jobId, report, rfl⟩ := settled
      cases update with
      | settle found running connected recorded =>
        exact requests_settle requests found connected recorded
    · simp only [not_exists] at admitted settled
      obtain ⟨requesters, reflects⟩ := reflects_of_update update sound admitted
      exact requests_of_reflects requests requesters reflects
        (sameHistory_of_update update sound settled)

/-- A job holds at most one lease and a lease has at most one holder. -/
structure LeasesDistinct (state : CoordinatorState) : Prop where
  holder : ∀ jobId other leaseId, HoldsLease state jobId leaseId →
    HoldsLease state other leaseId → jobId = other

theorem Consistent.lease_unique (sound : Consistent state) {jobId first second}
    (holds : HoldsLease state jobId first) (alsoHolds : HoldsLease state jobId second) :
    first = second := by
  obtain ⟨job, active, found, lease, rfl⟩ := holds
  obtain ⟨same, other, sameFound, otherLease, rfl⟩ := alsoHolds
  rw [found] at sameFound
  cases sameFound
  have queued : ∀ kept, job.recovery = some kept → job.state.lease = none :=
    fun kept recovery => by
      rw [sound.queued_of_recovery jobId job kept found recovery, JobState.lease_queued]
  rcases lease with leased | recovered <;> rcases otherLease with otherLeased | otherRecovered
  · rw [leased] at otherLeased
    cases otherLeased
    rfl
  · rw [queued other otherRecovered] at leased
    cases leased
  · rw [queued active recovered] at otherLeased
    cases otherLeased
  · rw [recovered] at otherRecovered
    cases otherRecovered
    rfl

theorem fresh_of_offered {leaseId} (update : Update state (.offered jobId leaseId) next) :
    ∀ other, ¬ HoldsLease state other leaseId := by
  cases update with
  | offer waiting found connected admitted session fresh => exact fresh

theorem leasesDistinct_of_update (update : Update state change next)
    (sound : Consistent state) (leases : LeasesDistinct state) :
    LeasesDistinct next := by
  constructor
  intro jobId other leaseId held otherHeld
  rcases holdsLease_of_update sound update held with before | offered
  · rcases holdsLease_of_update sound update otherHeld with
      otherBefore | offeredOther
    · exact leases.holder jobId other leaseId before otherBefore
    · subst offeredOther
      exact absurd before (fresh_of_offered update jobId)
  · subst offered
    rcases holdsLease_of_update sound update otherHeld with
      otherBefore | offeredOther
    · exact absurd otherBefore (fresh_of_offered update other)
    · cases offeredOther
      rfl

theorem leasesDistinct_newState (receipts : ReceiptLedger) :
    LeasesDistinct (newState receipts) := by
  constructor
  rintro jobId other leaseId ⟨job, active, ⟨⟩, _⟩

end Updates

end GraphZero.Measure
