import GraphZero.Connection.ClientMoves
import GraphZero.Evaluator.Exchange

/-!
# What the client keeps

The jobs that wait are covered by leases, and the batches that were sent are
those that were answered, followed by those in flight.
-/

namespace GraphZero.Connection

open Engine Foundation Orchestrator Evaluator List

/-- A result was read that is not published yet. -/
def BatcherPhase.undigested : BatcherPhase → Nat
  | publishing _ _ => 1
  | _ => 0

/-- The bytes of the frame that is being read. -/
def BatcherPhase.got : BatcherPhase → List UInt8
  | receiving _ got => got
  | _ => []

theorem evalFrame_frameType (batch : Batch) : (evalFrame batch).frameType = .eval :=
  rfl

theorem releaseFrame_frameType (model : ModelGeneration) :
    (releaseFrame model).frameType = .modelRelease :=
  rfl

namespace Client

/-- Every job that waits is one of an episode that has a lease on its model. -/
structure Leased (client : Client) : Prop where
  leases : client.run.leases.Perm (client.modelLeases.map (·.2))
  distinct : (client.modelLeases.map (·.1)).Nodup
  covered : ∀ job ∈ client.awaited,
    (job.episodeId, job.model) ∈ client.modelLeases
  batches : ∀ batch ∈ client.unanswered,
    ∃ job ∈ batch.jobs, job.model = batch.model

structure Framed (client : Client) : Prop where
  frames : ∀ frame ∈ client.sent, (∃ batch, frame = evalFrame batch) ∨
    ∃ model, frame = releaseFrame model
  admitted : ∀ frame ∈ client.sent, frame.Admitted
  heard : ∀ frame ∈ client.heard, frame.Admitted
  evals : ∃ past : List Batch,
    past.length + client.phase.undigested ≤ client.heard.length ∧ evalPayloads client.sent =
        (past ++ client.unanswered).map fun batch => (evalFrame batch).payload
  room : client.unanswered.length ≤ evalPipelineDepth

variable {client target : Client}

/-! ## Leases -/

variable {batch : Batch}

theorem Leased.of_unanswered (leased : client.Leased) (member : batch ∈ client.unanswered) :
    batch.model ∈ client.run.leases := by
  obtain ⟨job, own, model⟩ := leased.batches batch member
  have waits : job ∈ client.awaited :=
    mem_append_right _ (mem_flatMap.mpr ⟨batch, member, own⟩)
  have lease := mem_map_of_mem (f := (·.2)) (leased.covered job waits)
  rw [← model]
  exact leased.leases.mem_iff.mpr lease

section

variable (leased : client.Leased) (leases : target.run.leases = client.run.leases)
  (modelLeases : target.modelLeases = client.modelLeases)
include leased leases modelLeases

theorem Leased.keeping (awaited : ∀ job ∈ target.awaited, job ∈ client.awaited)
    (batches : ∀ batch ∈ target.unanswered,
      batch ∈ client.unanswered ∨ ∃ job ∈ batch.jobs, job.model = batch.model) :
    target.Leased where
  leases := by
    rw [leases, modelLeases]
    exact leased.leases
  distinct := by
    rw [modelLeases]
    exact leased.distinct
  covered job member := by
    rw [modelLeases]
    exact leased.covered job (awaited job member)
  batches batch member := (batches batch member).elim (leased.batches batch) id

theorem Leased.keepingJobs (intake : target.intake = client.intake)
    (unanswered : target.unanswered = client.unanswered) : target.Leased := by
  refine leased.keeping leases modelLeases ?_ ?_
  · unfold awaited
    rw [intake, unanswered]
    exact fun _ => id
  · rw [unanswered]
    exact fun _ => .inl

end

theorem unanswered_of_phase {phase} (own : client.phase = phase) (nothing : phase.batch = none) :
    client.unanswered = client.inFlight := by
  unfold unanswered
  rw [own, nothing]
  rfl

theorem unanswered_of_batch (own : client.phase.batch = some batch) :
    client.unanswered = batch :: client.inFlight := by
  unfold unanswered
  rw [own]
  rfl

theorem Leased.ensure (leased : client.Leased) {episodeId model}
    (done : client.Ensured episodeId model target) :
    target.Leased ∧ (episodeId, model) ∈ target.modelLeases ∧ target.awaited = client.awaited := by
  cases done with
  | held member => exact ⟨leased, member, rfl⟩
  | acquired absent done =>
    refine ⟨⟨leased.leases.cons _, ?_, fun job member => ?_, leased.batches⟩, mem_cons_self, rfl⟩
    · exact nodup_cons.mpr ⟨absent, leased.distinct⟩
    · exact mem_cons_of_mem _ (leased.covered job member)

theorem Leased.releaseLease (leased : client.Leased) {lease registry}
    (member : lease ∈ client.modelLeases) (idle : ∀ job ∈ client.awaited, job.episodeId ≠ lease.1) :
    Leased { client with
      run := client.run.afterDrop lease.2 registry
      modelLeases := client.modelLeases.erase lease } where
  leases := by
    have rest := (leased.leases.trans ((perm_cons_erase member).map (·.2))).erase lease.2
    rw [map_cons, erase_cons_head] at rest
    exact rest
  distinct := leased.distinct.sublist (erase_sublist.map _)
  covered job waits := by
    have other : (job.episodeId, job.model) ≠ lease :=
      fun same => idle job waits (congrArg Prod.fst same)
    exact (mem_erase_of_ne other).mpr (leased.covered job waits)
  batches := leased.batches

theorem leases_afterPublish {run : LeaseRun} {model registry} :
    (run.afterPublish model registry).leases = run.leases := by
  unfold LeaseRun.afterPublish
  split
  · rfl
  · rfl

theorem Leased.move (leased : client.Leased) (move : client.Move target) : target.Leased := by
  cases move with
  | skip => exact leased
  | ensure done => exact (leased.ensure done).1
  | sendParked done =>
    obtain ⟨leased, own, _⟩ := leased.ensure done
    refine ⟨leased.leases, leased.distinct, fun job member => ?_, leased.batches⟩
    rcases mem_append.mp member with intake | submitted
    · rcases mem_append.mp intake with earlier | last
      · exact leased.covered job (mem_append_left _ earlier)
      · cases mem_singleton.mp last
        exact own
    · exact leased.covered job (mem_append_right _ submitted)
  | releaseLease member idle done => exact leased.releaseLease member idle
  | takeReleasable free phase =>
    exact leased.keepingJobs rfl rfl rfl (unanswered_of_phase phase rfl).symm
  | released phase => exact leased.keepingJobs rfl rfl rfl (unanswered_of_phase phase rfl).symm
  | release free phase superseded admitted =>
    exact leased.keepingJobs rfl rfl rfl (unanswered_of_phase phase rfl).symm
  | activeRelease phase => exact leased.keepingJobs rfl rfl rfl rfl
  | @submit bytes first jobs kept free phase room oneModel split admitted =>
    refine leased.keeping rfl rfl (fun job member => ?_) fun batch member => ?_
    · unfold awaited unanswered at member ⊢
      rw [phase] at member ⊢
      simp only [BatcherPhase.batch, Option.toList_none, nil_append,
        flatMap_append, flatMap_cons, flatMap_nil,
        append_nil, mem_append] at member ⊢
      rw [split.mem_iff, mem_append]
      tauto
    · unfold unanswered at member
      rw [← append_assoc] at member
      rcases mem_append.mp member with earlier | last
      · exact .inl earlier
      · cases mem_singleton.mp last
        exact .inr ⟨first, mem_cons_self, rfl⟩
  | drainOldest free phase queue =>
    refine leased.keepingJobs rfl rfl rfl ?_
    rw [unanswered_of_phase phase rfl, queue]
    rfl
  | published phase done =>
    have within (batch : Batch) (member : batch ∈ client.inFlight) : batch ∈ client.unanswered := by
      exact mem_append_right _ member
    refine leased.keeping leases_afterPublish rfl (fun job member => ?_)
      fun batch member => .inl (within batch member)
    rcases mem_append.mp member with waits | submitted
    · exact mem_append_left _ waits
    · obtain ⟨batch, flies, own⟩ := mem_flatMap.mp submitted
      exact mem_append_right _ (mem_flatMap.mpr ⟨batch, within batch flies, own⟩)
  | unpublished phase refused => exact leased.keepingJobs rfl rfl rfl rfl
  | stop => exact leased.keepingJobs rfl rfl rfl rfl

theorem Leased.receive (leased : client.Leased) {got count}
    (phase : client.phase = .receiving batch got)
    (received : client.Received batch got count target) : target.Leased := by
  have same : client.unanswered = batch :: client.inFlight :=
    unanswered_of_batch (by rw [phase]; rfl)
  cases received with
  | _ => exact leased.keepingJobs rfl rfl rfl same.symm

/-! ## Frames -/

theorem Framed.keeping (framed : client.Framed)
    (sent : target.sent = client.sent) (heard : target.heard = client.heard)
    (undigested : target.phase.undigested = client.phase.undigested)
    (unanswered : target.unanswered = client.unanswered) : target.Framed where
  frames := by
    rw [sent]
    exact framed.frames
  admitted := by
    rw [sent]
    exact framed.admitted
  heard := by
    rw [heard]
    exact framed.heard
  evals := by
    rw [sent, heard, undigested, unanswered]
    exact framed.evals
  room := by
    rw [unanswered]
    exact framed.room

theorem evalPayloads_release (frames : List Frame) (model : ModelGeneration) :
    evalPayloads (frames ++ [releaseFrame model]) = evalPayloads frames := by
  rw [evalPayloads_append, evalPayloads_other (by nofun), append_nil]

theorem Framed.move (framed : client.Framed) (move : client.Move target) : target.Framed := by
  cases move with
  | skip => exact framed
  | ensure done | sendParked done =>
    cases done with
    | _ => exact framed.keeping rfl rfl rfl rfl
  | releaseLease member idle done => exact framed.keeping rfl rfl rfl rfl
  | takeReleasable free phase | released phase =>
    exact framed.keeping rfl rfl (by rw [phase]; rfl)
      (unanswered_of_phase phase rfl).symm
  | @release model models free phase superseded admitted =>
    obtain ⟨past, heard, evals⟩ := framed.evals
    rw [unanswered_of_phase phase rfl] at evals
    rw [phase] at heard
    refine ⟨fun frame member => ?_, fun frame member => ?_, framed.heard,
      ⟨past, heard, (evalPayloads_release _ _).trans evals⟩, ?_⟩
    · rcases mem_append.mp member with earlier | last
      · exact framed.frames frame earlier
      · exact .inr ⟨model, mem_singleton.mp last⟩
    · rcases mem_append.mp member with earlier | last
      · exact framed.admitted frame earlier
      · rw [mem_singleton.mp last]
        exact admitted
    · have room := framed.room
      rw [unanswered_of_phase phase rfl] at room
      exact room
  | activeRelease phase => exact framed.keeping rfl rfl rfl rfl
  | @submit bytes first jobs kept free phase room oneModel split admitted =>
    obtain ⟨past, heard, evals⟩ := framed.evals
    refine ⟨fun frame member => ?_, fun frame member => ?_, framed.heard, ⟨past, heard, ?_⟩, ?_⟩
    · rcases mem_append.mp member with earlier | last
      · exact framed.frames frame earlier
      · exact .inl ⟨_, mem_singleton.mp last⟩
    · rcases mem_append.mp member with earlier | last
      · exact framed.admitted frame earlier
      · rw [mem_singleton.mp last]
        exact admitted
    · rw [evalPayloads_append, evals, evalPayloads_single rfl]
      unfold unanswered
      simp only [map_append, append_assoc, map_cons, map_nil]
    · unfold unanswered
      rw [phase]
      simp only [BatcherPhase.batch, Option.toList_none, nil_append,
        length_append, length_singleton]
      exact room
  | drainOldest free phase queue =>
    refine framed.keeping rfl rfl (by rw [phase]; rfl) ?_
    rw [unanswered_of_phase phase rfl, queue]
    rfl
  | @published batch active registry phase done =>
    have whole : client.unanswered = batch :: client.inFlight :=
      unanswered_of_batch (by rw [phase]; rfl)
    obtain ⟨past, heard, evals⟩ := framed.evals
    have room := framed.room
    rw [phase] at heard
    rw [whole] at evals room
    refine ⟨framed.frames, framed.admitted, framed.heard, ⟨past ++ [batch], ?_, ?_⟩, ?_⟩
    · rw [length_append]
      exact heard
    · rw [append_assoc]
      exact evals
    · exact Nat.le_of_succ_le room
  | unpublished phase refused => exact framed.keeping rfl rfl rfl rfl
  | stop => exact framed.keeping rfl rfl rfl rfl

theorem Framed.receive (framed : client.Framed) {got count}
    (phase : client.phase = .receiving batch got)
    (received : client.Received batch got count target) : target.Framed := by
  have same : client.unanswered = batch :: client.inFlight :=
    unanswered_of_batch (by rw [phase]; rfl)
  obtain ⟨past, heard, evals⟩ := framed.evals
  have room := framed.room
  rw [phase] at heard
  rw [same] at evals room
  have read {frame : Frame} (whole : readFrame (got ++ client.inbox.take count) = .frame frame) :
      ∀ other ∈ client.heard ++ [frame], other.Admitted := by
    intro other member
    rcases mem_append.mp member with earlier | last
    · exact framed.heard other earlier
    · cases mem_singleton.mp last
      exact (eq_encode_of_readFrame whole).1
  have longer (frame : Frame) : past.length + 1 ≤ (client.heard ++ [frame]).length := by
    rw [length_append]
    exact Nat.succ_le_succ heard
  cases received with
  | incomplete more => exact framed.keeping rfl rfl (by rw [phase]; rfl) same.symm
  | failed => exact framed.keeping rfl rfl (by rw [phase]; rfl) same.symm
  | rejected whole =>
    exact ⟨framed.frames, framed.admitted, read whole,
      ⟨past, (Nat.le_succ _).trans (longer _), evals⟩, room⟩
  | result whole own decoded =>
    exact ⟨framed.frames, framed.admitted, read whole, ⟨past, longer _, evals⟩, room⟩

end Client

end GraphZero.Connection
