import GraphZero.Evaluator.ServerInvariant

/-!
# Replies in the order of the requests

Every batch that is read is answered once, in turn, with the outputs of the
model that the request names.  What is read and not answered is unfinished, or
the request at hand.
-/

namespace GraphZero.Evaluator

open Engine Foundation Features List

/-! ## Questions and answers -/

inductive Question where
  | eval (request : EvalRequest)
  | ping (payload : List UInt8)

def question? (state : ConnectionState) (frame : Frame) : Option Question :=
  match frame.frameType with
  | .ping => some (.ping frame.payload)
  | .eval =>
    match parseEval state frame.payload with
    | .ok request => some (.eval request)
    | .error _ => none
  | _ => none

def outputsOf (runner : Runner) (view : Python.BatchView) : ServeResult (List UInt8) :=
  OutputEncoder.encode ⟨view.dims.batchCapacity, view.dims.maxActions⟩
    (runRunner runner (.ofView view)) view.dims.rowCount
    (view.actionCount.data.take view.dims.rowCount)

/-- The reply names the batch and the model, and has the outputs of that
model on that batch. -/
inductive Answers (models : List ServingSlot) : Question → Frame → Prop
  | eval {request slot payload} (member : slot ∈ models)
    (version : slot.modelVersion = request.modelVersion)
    (outputs : outputsOf slot.runner request.view = .ok payload) (active : Nat × ModelVersion) :
    Answers models (.eval request)
      (Server.evalResult request.batchId request.modelVersion active payload)
  | pong {payload} (whole : payload.length = 8) :
    Answers models (.ping payload) ⟨.pong, payload⟩

theorem Answers.mono {models more question frame} (answers : Answers models question frame)
    (subset : models ⊆ more) : Answers more question frame := by
  cases answers with
  | eval member version outputs active => exact .eval (subset member) version outputs active
  | pong whole => exact .pong whole

def Phase.asked : Phase → List Question
  | .serving request | .adopting request _ | .staging request => [.eval request]
  | .draining payload => [.ping payload]
  | .sending _ next => next.asked
  | _ => []

def Outstanding.question (outstanding : Outstanding) : Question :=
  .eval ⟨outstanding.batchId, outstanding.handle.modelVersion, outstanding.view⟩

/-- The batch runs on a model that has been active. -/
structure Outstanding.Runs (models : List ServingSlot) (outstanding : Outstanding) : Prop where
  member : outstanding.staged.serving ∈ models
  version : outstanding.staged.serving.modelVersion = outstanding.handle.modelVersion
  outputs : outstanding.expected = outputsOf outstanding.staged.serving.runner outstanding.view

namespace Server

def questions (server : Server) : List Question :=
  server.requests.filterMap (question? server.state)

structure InOrder (server : Server) : Prop where
  answered : ∃ answered unanswered,
    server.questions = answered ++ unanswered ∧
      List.Forall₂ (Answers server.adopted) answered server.replies ∧
      unanswered.length ≤ pipelineDepth + 1 ∧
      (server.failure = none → unanswered =
          server.pending.map Outstanding.question ++ server.phase.asked)
  runs : ∀ outstanding ∈ server.pending, outstanding.Runs server.adopted
  models : ∀ {version generation slot},
    server.residency.slotsByVersion.get? version = some (generation, slot) → slot ∈ server.adopted

variable {server target : Server} {label : Label}

theorem inOrder_of_started (started : server.Started) : server.InOrder := by
  obtain ⟨backend, hello, achieved, limit, slot, made, served⟩ := started
  have models : ∀ {version generation found},
      backend.residency.slotsByVersion.get? version = some (generation, found) →
        found = backend.residency.active := by
    unfold Residency.new at made
    split at made
    · cases made
    injection made with made
    rw [← made]
    intro version generation found stored
    rw [Table.get?_insert, Table.get?_empty] at stored
    split at stored
    · cases stored
      rfl
    · cases stored
  obtain ⟨residency, same, _, _, _, _, rfl⟩ := serve_eq_ok served
  refine ⟨⟨[], [], rfl, .nil, Nat.zero_le _, fun _ => rfl⟩,
    forall_mem_nil _, fun {version generation found} stored => ?_⟩
  rw [same] at stored ⊢
  exact mem_singleton.mpr (models stored)

theorem InOrder.keeping (inOrder : server.InOrder) (requests : target.requests = server.requests)
    (state : target.state = server.state)
    (replies : target.replies = server.replies)
    (adopted : server.adopted ⊆ target.adopted)
    (pending : target.pending = server.pending)
    (asked : target.phase.asked = server.phase.asked)
    (failure : target.failure = server.failure)
    (models : ∀ {version generation slot},
      target.residency.slotsByVersion.get? version = some (generation, slot) →
        slot ∈ target.adopted) :
    target.InOrder := by
  obtain ⟨answered, unanswered, all, answers, few, rest⟩ := inOrder.answered
  refine ⟨⟨answered, unanswered, ?_, ?_, few, ?_⟩, ?_, models⟩
  · unfold questions
    rw [requests, state]
    exact all
  · rw [replies]
    exact answers.imp fun _ _ own => own.mono adopted
  · rw [failure, pending, asked]
    exact rest
  · rw [pending]
    intro outstanding member
    have runs := inOrder.runs outstanding member
    exact ⟨adopted runs.member, runs.version, runs.outputs⟩

theorem InOrder.fail (inOrder : server.InOrder) (error : ServeError) :
    (server.fail error).InOrder := by
  obtain ⟨answered, unanswered, all, answers, few, _⟩ := inOrder.answered
  exact ⟨⟨answered, unanswered, all, answers, few, nofun⟩, forall_mem_nil _, inOrder.models⟩

theorem InOrder.reply (inOrder : server.InOrder) (alive : server.failure = none)
    {question frame pending next}
    (first : server.pending.map Outstanding.question ++ server.phase.asked =
      question :: (pending.map Outstanding.question ++ next.asked))
    (subset : pending ⊆ server.pending) (answers : Answers server.adopted question frame)
    (announced : List (Nat × ModelVersion)) :
    (reply { server with pending, announced } frame next).InOrder := by
  obtain ⟨answered, unanswered, all, earlier, few, rest⟩ := inOrder.answered
  have left := rest alive
  rw [first] at left
  refine ⟨⟨answered ++ [question],
    pending.map Outstanding.question ++ next.asked, ?_, ?_, ?_, fun _ => rfl⟩,
    fun outstanding member => inOrder.runs outstanding (subset member),
    inOrder.models⟩
  · refine all.trans ?_
    rw [left, append_assoc]
    rfl
  · exact rel_append earlier (.cons answers .nil)
  · rw [left, length_cons] at few
    omega

theorem questions_read (server : Server) (frame : Frame) :
    ({ server with requests := server.requests ++ [frame] } : Server).questions =
      server.questions ++ (question? server.state frame).toList := by
  unfold questions
  rw [filterMap_append]
  cases asked : question? server.state frame with
  | none =>
    rw [filterMap_cons_none asked]
    rfl
  | some question =>
    rw [filterMap_cons_some asked]
    rfl

section

variable (inOrder : server.InOrder) (sound : server.Sound)
include inOrder sound

theorem InOrder.dispatched (alive : server.failure = none) (idle : server.phase.asked = []) {frame}
    (dispatched : Dispatched server frame target) :
    target.InOrder := by
  obtain ⟨answered, unanswered, all, answers, few, rest⟩ := inOrder.answered
  have left := rest alive
  rw [idle, append_nil] at left
  have bounded := (sound.staging alive).bounded
  have joined := questions_read server frame
  rw [all, append_assoc] at joined
  have long (question : Question) : (unanswered ++ [question]).length ≤ pipelineDepth + 1 := by
    rw [left, length_append, length_map]
    exact Nat.succ_le_succ bounded
  cases dispatched with
  | ping own =>
    have asked : question? server.state frame = some (.ping frame.payload) := by
      unfold question?
      rw [own]
    rw [asked] at joined
    refine ⟨⟨answered, _, joined, answers, long _, fun _ => ?_⟩, inOrder.runs, inOrder.models⟩
    rw [left]
    rfl
  | @eval request own parsed =>
    have asked : question? server.state frame = some (.eval request) := by
      unfold question?
      rw [own, parsed]
    rw [asked] at joined
    refine ⟨⟨answered, _, joined, answers, long _, fun _ => ?_⟩, inOrder.runs, inOrder.models⟩
    rw [left]
    rfl
  | release own done =>
    have asked : question? server.state frame = none := by
      unfold question?
      rw [own]
    rw [asked, Option.toList_none, append_nil] at joined
    refine ⟨⟨answered, unanswered, joined, answers, few, fun _ => ?_⟩, inOrder.runs, ?_⟩
    · rw [left]
      exact (append_nil _).symm
    obtain ⟨_, done⟩ := ok_of_guard done
    obtain ⟨_, _, rfl⟩ := Residency.releaseModelGeneration_eq_ok done
    intro version generation slot stored
    rw [Table.get?_erase] at stored
    split at stored
    · cases stored
    · exact inOrder.models stored
  | failed reason =>
    have asked : question? server.state frame = none := by
      unfold question?
      rcases reason with ⟨_, own, wrong⟩ | ⟨_, own, _⟩ | other
      · rw [own, wrong]
      · rw [own]
      · simp only [mem_cons, not_mem_nil, or_false, not_or] at other
        split
        · next own => exact absurd own other.1
        · next own => exact absurd own other.2.1
        · rfl
    rw [asked, Option.toList_none, append_nil] at joined
    exact ⟨⟨answered, unanswered, joined, answers, few, by rintro ⟨⟩⟩,
      forall_mem_nil _, inOrder.models⟩

theorem InOrder.launched {request} (phase : server.phase = .staging request)
    (launched : Launched server request target) : target.InOrder := by
  cases launched with
  | failed wrong => exact inOrder.fail _
  | @launched staged staging done =>
    obtain ⟨found, _, _, rows, counts, encoder, _⟩ := Staging.stage_eq_ok done
    obtain ⟨generation, stored⟩ : ∃ generation,
        server.residency.slotsByVersion.get? request.modelVersion =
          some (generation, staged.serving) := by
      unfold Residency.servingSlot at found
      split at found
      · cases found
      · next stored there =>
        injection found with found
        rw [← found]
        exact ⟨stored.1, there⟩
    have version := sound.residency.named stored
    have handle : ((staging.launch staged).1).modelVersion = staged.serving.modelVersion := by
      unfold Staging.launch
      split
      · rfl
      · rfl
    obtain ⟨answered, unanswered, all, answers, few, rest⟩ := inOrder.answered
    refine ⟨⟨answered, unanswered, all, answers, few, fun alive => ?_⟩, ?_, inOrder.models⟩
    · rw [rest alive, phase, map_append]
      change _ = _ ++ [Question.eval ⟨request.batchId,
        (staging.launch staged).1.modelVersion, request.view⟩] ++ []
      rw [handle, version, append_nil]
      rfl
    · intro outstanding member
      rcases mem_append.mp member with earlier | last
      · exact inOrder.runs outstanding earlier
      · cases mem_singleton.mp last
        refine ⟨inOrder.models stored, handle.symm, ?_⟩
        unfold Outstanding.expected outputsOf
        rw [rows, counts, encoder]

theorem InOrder.received {bytes count} (phase : server.phase = .reading bytes)
    (received : Received server bytes count target) : target.InOrder := by
  have alive := sound.alive (by rw [phase]; exact id)
  have kept : (server.taking count).InOrder := inOrder.keeping rfl rfl rfl (List.Subset.refl _) rfl
      (by rw [phase]; rfl) rfl inOrder.models
  cases received with
  | incomplete more => exact kept.keeping rfl rfl rfl (List.Subset.refl _) rfl rfl rfl kept.models
  | failed wrong => exact kept.fail _
  | frame whole dispatched => exact kept.dispatched (sound.taking phase count) alive rfl dispatched

theorem InOrder.move (move : server.Move label target) : target.InOrder := by
  cases move with
  | arrive bytes opened =>
    exact inOrder.keeping rfl rfl rfl (List.Subset.refl _) rfl rfl rfl inOrder.models
  | close => exact inOrder.keeping rfl rfl rfl (List.Subset.refl _) rfl rfl rfl inOrder.models
  | hold phase unfinished holds | proceed phase finished =>
    exact inOrder.keeping rfl rfl rfl (List.Subset.refl _) rfl
      (by rw [phase]; rfl) rfl inOrder.models
  | flush flushes done =>
    obtain ⟨_, _, alive⟩ := flushes.notStaging sound
    obtain ⟨outstanding, rest, result, queue, finished, outcome⟩ := flushOldest_eq_some done
    rcases outcome with ⟨error, rfl⟩ | ⟨payload, _, rfl, encoded, _, _, rfl⟩
    · exact inOrder.fail error
    have member : outstanding ∈ server.pending := by
      rw [queue]
      exact mem_cons_self
    have runs := inOrder.runs outstanding member
    have staged := sound.staging alive
    rw [queue] at staged
    have outputs := staged.finish_eq finished
    rw [encoded, runs.outputs] at outputs
    refine InOrder.reply inOrder alive (show _ = outstanding.question :: _ from ?_) ?_ ?_ _
    · rw [queue]
      rfl
    · rw [queue]
      exact subset_cons_self _ _
    · exact .eval runs.member runs.version outputs.symm _
  | receive phase some asked available =>
    exact inOrder.received sound phase (Server.received server _ _)
  | endOfFile phase nothing closed => exact inOrder.fail _
  | passSwap phase nothing | swap phase waiting =>
    exact inOrder.keeping rfl rfl rfl (List.Subset.refl _) rfl
      (by rw [phase]; rfl) rfl inOrder.models
  | @adopt request slot phase =>
    refine inOrder.keeping rfl rfl rfl (subset_append_left _ _) rfl
      (by rw [phase]; rfl) rfl fun {version generation found} stored => ?_
    unfold Residency.adopt at stored
    rw [Table.get?_insert] at stored
    split at stored
    · cases stored
      exact mem_append_right _ (mem_singleton.mpr rfl)
    · exact mem_append_left _ (inOrder.models stored)
  | abandon phase =>
    exact inOrder.keeping rfl rfl rfl (List.Subset.refl _) rfl
      (by rw [phase]; rfl) rfl inOrder.models
  | stage phase room => exact inOrder.launched sound phase (Server.launched server _)
  | pong phase finished =>
    have alive := sound.alive (by rw [phase]; exact id)
    rcases handlePing_eq server _ with ⟨error, failed⟩ | ⟨whole, answered⟩
    · rw [failed]
      exact inOrder.fail error
    · rw [answered]
      refine inOrder.reply alive ?_ (List.Subset.refl _) (.pong whole) server.announced
      rw [finished, phase]
      rfl
  | send phase some part | sent phase some =>
    exact inOrder.keeping rfl rfl rfl (List.Subset.refl _) rfl
      (by rw [phase]; rfl) rfl inOrder.models
  | compute done =>
    exact inOrder.keeping rfl rfl rfl (List.Subset.refl _) rfl rfl rfl inOrder.models
  | load own done =>
    obtain ⟨_, _, _, _, rfl⟩ := done.eq
    exact inOrder.keeping rfl rfl rfl (List.Subset.refl _) rfl rfl rfl inOrder.models

end

theorem inOrder_of_reachable (reachable : evaluatorSystem.Reachable server) : server.InOrder :=
  reachable.invariant_given (fun _ => sound_of_reachable) (fun _ => inOrder_of_started)
    fun _ _ _ sound inOrder step => inOrder.move sound (move_of_next step)

end Server

end GraphZero.Evaluator
