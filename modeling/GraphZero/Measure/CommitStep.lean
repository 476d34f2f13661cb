import GraphZero.Measure.CoordinatorSystem

/-!
# What one step keeps and what it commits

Receipts and replies change only when a job settles, a job leaves the table
only when it settles or is cancelled, and a step that records a commit does so
for a job that runs under the report's lease.
-/

namespace GraphZero.Measure

open Foundation Wire

/-- The same request, in a possibly different state. -/
def SameRequest (job later : Job) : Prop :=
  later = { job with state := later.state, recovery := later.recovery }

theorem SameRequest.refl (job : Job) : SameRequest job job := rfl

theorem SameRequest.trans {first second third} (before : SameRequest first second)
    (after : SameRequest second third) :
    SameRequest first third := by
  rw [before] at after
  exact after

/-- The job with this id is still the same request. -/
def Keeps (jobId : JobId) (state next : CoordinatorState) : Prop :=
  ∀ job, state.jobs.get? jobId = some job →
    ∃ later, next.jobs.get? jobId = some later ∧ SameRequest job later

theorem Keeps.refl (jobId : JobId) (state : CoordinatorState) : Keeps jobId state state :=
  fun job found => ⟨job, found, .refl job⟩

variable {jobId : JobId} {state next : CoordinatorState}

theorem Keeps.trans {first second third} (before : Keeps jobId first second)
    (after : Keeps jobId second third) :
    Keeps jobId first third := by
  intro job found
  obtain ⟨mid, middleFound, same⟩ := before job found
  obtain ⟨later, laterFound, sameLater⟩ := after mid middleFound
  exact ⟨later, laterFound, same.trans sameLater⟩

theorem keeps_insert {changed job moved recovery} (found : state.jobs.get? changed = some job)
    (jobs : next.jobs = state.jobs.insert changed { job with state := moved, recovery })
    (jobId : JobId) : Keeps jobId state next := by
  intro kept keptFound
  rw [jobs, Table.get?_insert]
  by_cases here : jobId = changed
  · rw [here, found] at keptFound
    cases keptFound
    rw [if_pos here]
    exact ⟨_, rfl, rfl⟩
  · rw [if_neg here]
    exact ⟨kept, keptFound, .refl kept⟩

theorem keeps_erase {erased jobId} (jobs : next.jobs = state.jobs.erase erased)
    (different : jobId ≠ erased) :
    Keeps jobId state next := by
  intro kept keptFound
  rw [jobs, Table.get?_erase_of_ne different]
  exact ⟨kept, keptFound, .refl kept⟩

theorem keeps_of_update {change jobId} (update : Update state change next)
    (sound : Consistent state) (uncancelled : change ≠ .cancelled jobId)
    (unsettled : ∀ report, change ≠ .settled jobId report) :
    Keeps jobId state next := by
  cases update with
  | enqueue unknown uncommitted queued unrecoverable requester =>
    rename_i admittedId job artifacts bytes
    intro kept found
    have different : jobId ≠ admittedId := by
      intro here
      rw [here, unknown] at found
      cases found
    exact ⟨kept, (Table.get?_insert_of_ne different).trans found, .refl kept⟩
  | offer waiting found connected admitted session fresh => exact keeps_insert found rfl jobId
  | requeue found leased accepted =>
    obtain ⟨agent, connected, requeued⟩ := requeueActive_eq sound found leased _
    rw [requeued]
    exact keeps_insert found rfl jobId
  | renew found leased => exact keeps_insert found rfl jobId
  | rebind found recovered connected => exact keeps_insert found rfl jobId
  | connect absent idle => exact .refl jobId _
  | disconnect connected idle => exact .refl jobId _
  | credit connected => exact .refl jobId _
  | cancel found =>
    rename_i cancelledId job
    obtain ⟨artifacts, bytes, channels, agents, cancelled, _⟩ := cancelJob_eq sound found
    rw [cancelled]
    exact keeps_erase rfl (by rintro rfl; exact uncancelled rfl)
  | settle found running connected recorded =>
    rename_i settledId job active agent report receipts digest
    obtain ⟨artifacts, bytes, replies, settled, _⟩ := settleJob_eq job
      settledId (connected : { state with receipts }.agents.get? _ = _) report
    rw [settled]
    exact keeps_erase rfl (by rintro rfl; exact unsettled report rfl)
  | communicate recorded => exact .refl jobId _

theorem keeps_of_updates {allowed state next jobId} (updates : UpdatesWithin allowed state next)
    (sound : Consistent state) (uncancelled : ¬ allowed (.cancelled jobId))
    (unsettled : ∀ report, ¬ allowed (.settled jobId report)) :
    Keeps jobId state next := by
  apply updates.relates (Keeps.refl jobId) _ sound
  intro start state change next sound before permitted update
  exact before.trans (keeps_of_update update sound (by rintro rfl; exact uncancelled permitted)
    (by rintro report rfl; exact unsettled report permitted))

def SameHistory (state next : CoordinatorState) : Prop :=
  next.receipts.receipts = state.receipts.receipts ∧ next.replies = state.replies

theorem sameHistory_of_update {change} (update : Update state change next)
    (sound : Consistent state) (unsettled : ∀ jobId report, change ≠ .settled jobId report) :
    SameHistory state next := by
  cases update with
  | enqueue unknown uncommitted queued unrecoverable requester => exact ⟨rfl, rfl⟩
  | offer waiting found connected admitted session fresh => exact ⟨rfl, rfl⟩
  | requeue found leased accepted =>
    obtain ⟨agent, connected, requeued⟩ := requeueActive_eq sound found leased _
    rw [requeued]
    exact ⟨rfl, rfl⟩
  | renew found leased => exact ⟨rfl, rfl⟩
  | rebind found recovered connected => exact ⟨rfl, rfl⟩
  | connect absent idle => exact ⟨rfl, rfl⟩
  | disconnect connected idle => exact ⟨rfl, rfl⟩
  | credit connected => exact ⟨rfl, rfl⟩
  | cancel found =>
    obtain ⟨artifacts, bytes, channels, agents, cancelled, _⟩ := cancelJob_eq sound found
    rw [cancelled]
    exact ⟨rfl, rfl⟩
  | settle found running connected recorded => exact absurd rfl (unsettled _ _)
  | communicate recorded => exact ⟨recorded, rfl⟩

theorem sameHistory_of_updates {allowed state next} (updates : UpdatesWithin allowed state next)
    (sound : Consistent state) (unsettled : ∀ jobId report, ¬ allowed (.settled jobId report)) :
    SameHistory state next := by
  apply updates.relates (fun _ => ⟨rfl, rfl⟩) _ sound
  intro start state change next sound before permitted update
  obtain ⟨receipts, replies⟩ := sameHistory_of_update update sound
    (by rintro jobId report rfl; exact unsettled jobId report permitted)
  exact ⟨receipts.trans before.1, replies.trans before.2⟩

theorem not_scheduling_settled {draws jobId report} :
    ¬ Change.Scheduling draws (.settled jobId report) := by
  rintro ⟨⟨⟩⟩

theorem not_scheduling_cancelled {draws jobId} : ¬ Change.Scheduling draws (.cancelled jobId) := by
  rintro ⟨⟨⟩⟩

/-- The state in which a commit finds the job of its report. -/
structure Committable (state : CoordinatorState) (record : CommitRecord)
    (active : ActiveLease) (agent : AgentSession) : Prop where
  found : state.jobs.get? record.jobId = some record.job
  running : record.job.state = .running active
  job : record.report.jobId = record.jobId.toVec
  lease : record.report.leaseId = active.leaseId.toVec
  device : record.report.deviceId = active.deviceId.toVec
  connected : state.agents.get? active.deviceId = some agent
  session : active.currentSessionId = agent.sessionId
  held : agent.active.get? record.jobId = some active.leaseId
  profile : record.report.deviceProfileHash = agent.profileHash.toVec
  uncommitted : state.receipts.receipts.get? record.jobId = none

def CommitRecord.replies (record : CommitRecord) : List (Nat × CommittedMeasurement) :=
  record.job.reply.toList.map fun requester =>
    (requester, ⟨record.jobId, record.report⟩)

section Steps

variable {codec : Codec} {config : CoordinatorConfig} {world next : World}
  {operation : Operation}

/-- A step that commits `record`, and what it leaves of the job. -/
structure CommitStep (codec : Codec) (world : World) (operation : Operation)
    (record : CommitRecord) (next : World) : Prop where
  committable : ∃ active agent,
    Committable world.state record active agent ∧ ∃ around write peerFingerprint request,
        operation = .submit around write peerFingerprint request ∧
        request.report = some record.report ∧
        request.currentSessionId = active.currentSessionId.toVec
  committed : next.committed = world.committed ++ [record]
  receipts : next.state.receipts.receipts = world.state.receipts.receipts.insert record.jobId
      (reportDigest codec record.report)
  replies : next.state.replies = world.state.replies ++ record.replies
  others : ∀ jobId, jobId ≠ record.jobId → Keeps jobId world.state next.state

theorem submit_of_settled {jobId report} (permitted : Change.Of operation (.settled jobId report)) :
    ∃ env write peerFingerprint request, operation = .submit env write peerFingerprint request := by
  cases permitted with
  | scheduling scheduled => exact absurd scheduled not_scheduling_settled
  | settled _ _ => exact ⟨_, _, _, _, rfl⟩

theorem cancel_of_cancelled {jobId} (permitted : Change.Of operation (.cancelled jobId)) :
    operation = .cancel jobId := by
  cases permitted with
  | scheduling scheduled => exact absurd scheduled not_scheduling_cancelled
  | cancelled _ => rfl

structure QuietStep (world : World) (operation : Operation) (next : World) : Prop where
  committed : next.committed = world.committed
  history : SameHistory world.state next.state
  keeps : ∀ jobId, operation ≠ .cancel jobId → Keeps jobId world.state next.state

theorem commitStep_of_submit {env write peerFingerprint request outcome}
    (sound : Consistent world.state)
    (fresh : FreshDraws (env.draws.map Prod.fst) world.state)
    (ran : submitResult codec config env write world.state peerFingerprint request = some outcome) :
    (∃ receipts, receipts.receipts = world.state.receipts.receipts ∧
      outcome.1 = { world.state with receipts } ∧
      ∀ ack, outcome.2 = .ok ack → ack.disposition ≠ .jobCommitted) ∨
    (outcome.2 = .ok resultCommitted ∧ ∃ record, commitRecord world.state request = some record ∧
        ∀ next : World, next.state = outcome.1 → next.committed = world.committed ++ [record] →
          CommitStep codec world (.submit env write peerFingerprint request) record next) := by
  rcases submitResult_cases ran with unchanged |
    ⟨submitted, deviceId, agent, job, receipts, parsed, authenticated, found,
      valid, absent, recorded, scheduled⟩
  · exact Or.inl unchanged
  right
  obtain ⟨present, current, named, leaseNamed⟩ := parseSubmission_eq_ok parsed
  obtain ⟨connected, session, device⟩ := authenticateReport_eq_ok authenticated
  obtain ⟨active, running, sameDevice, sameSession, sameLease, held,
    profile⟩ := validateReport_eq_ok valid
  subst sameDevice
  unfold andSchedule at scheduled
  rw [Option.map_eq_some_iff] at scheduled
  obtain ⟨final, loop, rfl⟩ := scheduled
  let settledState := settleJob { world.state with receipts }
    submitted.jobId job active.deviceId submitted.report
  have update : Update world.state (.settled submitted.jobId submitted.report) settledState :=
    .settle found running connected recorded
  have settledConsistent : Consistent settledState := consistent_update update sound
  have settledFresh : FreshDraws (env.draws.map Prod.fst) settledState :=
    fresh.after (UpdatesWithin.single update rfl :
      UpdatesWithin (· = .settled submitted.jobId submitted.report) _ _)
        sound (by rintro jobId leaseId ⟨⟩)
  have schedules := updates_schedule settledConsistent settledFresh loop
  obtain ⟨laterReceipts, laterReplies⟩ := sameHistory_of_updates schedules
    settledConsistent fun _ _ => not_scheduling_settled
  obtain ⟨artifacts, bytes, replies, settled, replied⟩ := settleJob_eq job submitted.jobId
      (connected : { world.state with receipts }.agents.get? _ = _) submitted.report
  refine ⟨rfl, ⟨submitted.jobId, submitted.report, job⟩, ?_, ?_⟩
  · unfold commitRecord
    rw [present, Option.bind_some, named, Id.fromSlice_toVec]
    simp only [found, Option.map_some]
  intro next sameState sameCommitted
  constructor
  · refine ⟨active, agent, ?_, env, write, peerFingerprint, request, rfl, present, ?_⟩
    · exact
        { found, running, job := named
          lease := by rw [leaseNamed, sameLease]
          device, connected
          session := by rw [sameSession, session]
          held := by rw [held, sameLease]
          profile, uncommitted := absent }
    · rw [current, sameSession]
  · exact sameCommitted
  · rw [sameState, laterReceipts]
    simp only [settledState, settled, recorded]
  · rw [sameState, laterReplies]
    simp only [settledState, settled, replied, CommitRecord.replies]
  · intro jobId different
    rw [sameState]
    exact (keeps_of_update update sound (by simp)
      (by
        rintro report ⟨⟩
        exact different rfl)).trans
      (keeps_of_updates schedules settledConsistent
        not_scheduling_cancelled fun _ => not_scheduling_settled)

section

variable (inv : WorldInvariant world)
  (step : (coordinatorSystem codec config).step world operation next)
include inv step

theorem commits_of_step :
    QuietStep world operation next ∨ ∃ record, CommitStep codec world operation record next := by
  have updates := inv.updates step
  obtain ⟨enabled, ran, succeeded, rfl⟩ := step
  obtain ⟨_, _, history⟩ := history_perform succeeded
  by_cases submits : ∃ env write peerFingerprint request,
      operation = .submit env write peerFingerprint request
  · obtain ⟨env, write, peerFingerprint, request, rfl⟩ := submits
    simp only [perform, Option.map_eq_some_iff] at succeeded
    obtain ⟨outcome, submitted, result⟩ := succeeded
    have keepsAll : ∀ receipts jobId, Keeps jobId world.state { world.state with receipts } :=
      fun receipts jobId job found => ⟨job, found, .refl job⟩
    rcases commitStep_of_submit inv.consistent (inv.freshDraws enabled) submitted with
      ⟨receipts, recorded, unchanged, refused⟩ |
      ⟨answer, record, committed, commits⟩
    · left
      obtain ⟨state, answer⟩ := outcome
      subst unchanged
      cases answer with
      | error status =>
        subst result
        exact ⟨rfl, ⟨recorded, rfl⟩, fun jobId _ => keepsAll receipts jobId⟩
      | ok ack =>
        dsimp only at result
        rw [if_neg (refused ack rfl)] at result
        subst result
        exact ⟨rfl, ⟨recorded, rfl⟩, fun jobId _ => keepsAll receipts jobId⟩
    · right
      obtain ⟨state, reply⟩ := outcome
      subst answer
      refine ⟨record, ?_⟩
      subst result
      apply commits
      · rfl
      · simp [recordDraws, committed, resultCommitted]
  · left
    have unsettled : ∀ jobId report, ¬ Change.Of operation (.settled jobId report) :=
      fun jobId report permitted => submits (submit_of_settled permitted)
    constructor
    · rcases history with same | submit
      · exact same
      · exact absurd submit submits
    · exact sameHistory_of_updates updates inv.consistent unsettled
    · intro jobId uncancelled
      exact keeps_of_updates updates inv.consistent
        (fun permitted => uncancelled (cancel_of_cancelled permitted))
        (unsettled jobId)

theorem keeps_of_step (jobId : JobId) :
    Keeps jobId world.state next.state ∨ operation = .cancel jobId ∨
      ∃ record, next.committed = world.committed ++ [record] ∧ record.jobId = jobId := by
  rcases commits_of_step inv step with quiet | ⟨record, commit⟩
  · by_cases cancelled : operation = .cancel jobId
    · exact Or.inr (Or.inl cancelled)
    · exact Or.inl (quiet.keeps jobId cancelled)
  · by_cases same : jobId = record.jobId
    · exact Or.inr (Or.inr ⟨record, commit.committed, same.symm⟩)
    · exact Or.inl (commit.others jobId same)

end

theorem committed_of_run {labels} (inv : WorldInvariant world)
    (run : (coordinatorSystem codec config).Run world labels next) :
    ∃ later, next.committed = world.committed ++ later := by
  induction run with
  | refl => exact ⟨[], by simp⟩
  | snoc before step ih =>
    obtain ⟨later, committed⟩ := ih
    have mid := worldInvariant_of_reaches inv ⟨_, before⟩
    rcases commits_of_step mid step with quiet | ⟨record, commit⟩
    · exact ⟨later, quiet.committed.trans committed⟩
    · exact ⟨later ++ [record], by
        rw [commit.committed, committed, List.append_assoc]⟩

end Steps

end GraphZero.Measure
