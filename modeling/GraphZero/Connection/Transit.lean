import GraphZero.Connection.Wires

/-!
# Requests and results in transit

Every batch that the server has read and not answered is one that the client
waits for, and the client has read no more than the server has written.
-/

namespace GraphZero.Connection

open Engine Foundation Orchestrator Evaluator List

section Requests

variable {frames : List Frame} {state : ConnectionState}

/-- Batches and releases are the only frames of a client. -/
def Requests (frames : List Frame) : Prop :=
  ∀ frame ∈ frames, (∃ batch, frame = evalFrame batch) ∨ ∃ model, frame = releaseFrame model

theorem evalPayloads_cons_eval (batch : Batch) : evalPayloads (evalFrame batch :: frames) =
      (evalFrame batch).payload :: evalPayloads frames :=
  rfl

theorem evalPayloads_cons_release (model : ModelGeneration) :
    evalPayloads (releaseFrame model :: frames) = evalPayloads frames :=
  rfl

theorem length_questions_of_parsed (requests : Requests frames)
    (parsed : ∀ frame ∈ frames, frame.frameType = .eval →
      ∃ request, parseEval state frame.payload = .ok request) :
    (frames.filterMap (question? state)).length = (evalPayloads frames).length := by
  induction frames with
  | nil => rfl
  | cons frame frames ih =>
    have rest := ih (fun other member => requests other (mem_cons_of_mem _ member))
      fun other member => parsed other (mem_cons_of_mem _ member)
    rcases requests frame mem_cons_self with ⟨batch, rfl⟩ | ⟨model, rfl⟩
    · obtain ⟨request, own⟩ := parsed _ mem_cons_self rfl
      have asked : question? state (evalFrame batch) = some (.eval request) := by
        unfold question?
        rw [evalFrame_frameType, own]
      rw [evalPayloads_cons_eval, filterMap_cons_some asked, length_cons, length_cons, rest]
    · rw [evalPayloads_cons_release, filterMap_cons_none rfl, rest]

theorem modelVersion_of_parsed {batch request}
    (parsed : parseEval state (evalFrame batch).payload = .ok request) :
    request.modelVersion = batch.model.version := by
  unfold parseEval at parsed
  obtain ⟨view, _, parsed⟩ := ok_of_bind parsed
  obtain ⟨_, parsed⟩ := ok_of_guard parsed
  obtain ⟨_, parsed⟩ := ok_of_guard parsed
  have own := congrArg EvalRequest.modelVersion (Except.ok.inj parsed)
  have name := slice_parts (toLeBytes 8 batch.batchId.toNat)
    (versionBytes batch.model.version) batch.bytes
  rw [length_toLeBytes, length_versionBytes, ← append_assoc] at name
  change versionOfBytes (slice (toLeBytes 8 batch.batchId.toNat ++
    versionBytes batch.model.version ++ batch.bytes) 8 16) = _ at own
  rw [name, versionOfBytes_versionBytes] at own
  exact own.symm

theorem mem_of_later {α : Type} {items front back} {item : α} {count}
    (isPrefix : items <+: front ++ back) (few : front.length ≤ count)
    (found : items[count]? = some item) :
    item ∈ back := by
  obtain ⟨rest, whole⟩ := isPrefix
  have there : (front ++ back)[count]? = some item := by
    rw [← whole]
    exact getElem?_append_left (List.getElem?_eq_some_iff.mp found).1 ▸ found
  rw [getElem?_append_right few] at there
  exact mem_of_getElem? there

end Requests

/-! ## The connection -/

namespace Link

/-- What holds of the client, the server and the bytes between them. -/
structure Orderly (link : Link) : Prop where
  sound : link.server.Sound
  streams : link.server.Streams
  inOrder : link.server.InOrder
  exchange : link.server.Exchange
  leased : link.client.Leased
  framed : link.client.Framed
  wired : link.Wired

variable {link target : Link}

theorem leased_framed_of_started (started : link.Started) :
    link.client.Leased ∧ link.client.Framed := by
  obtain ⟨_, _, _, _, _, registry, _, _, _, _, same, _⟩ := started
  rw [same]
  refine ⟨⟨List.Perm.refl _, nodup_nil, forall_mem_nil _,
    forall_mem_nil _⟩, ⟨forall_mem_nil _, forall_mem_nil _,
    forall_mem_nil _, ⟨[], Nat.le_refl _, rfl⟩, Nat.zero_le _⟩⟩

theorem orderly_of_reachable (reachable : linkSystem.Reachable link) : link.Orderly := by
  have server := server_reachable reachable
  obtain ⟨⟨leased, framed⟩, wired⟩ := @TransitionSystem.Reachable.invariant
    _ _ _ (fun link : Link =>
      (link.client.Leased ∧ link.client.Framed) ∧ link.Wired) link reachable
    (fun _ started =>
      ⟨leased_framed_of_started started, wired_of_started started⟩)
    fun link label target ⟨⟨leased, framed⟩, wired⟩ step => by
      have move := move_of_next step
      refine ⟨?_, wired.move move⟩
      cases move with
      | client done =>
        have moved := Client.move_of_next done
        exact ⟨leased.move moved, framed.move moved⟩
      | write opened => exact ⟨leased.keepingJobs rfl rfl rfl rfl, framed.keeping rfl rfl rfl rfl⟩
      | @read batch got count phase running asked available =>
        have received := Client.received link.client batch got count
        exact ⟨leased.receive phase received, framed.receive phase received⟩
      | hangUp ended => exact ⟨leased, framed⟩
      | server allowed moved =>
        exact ⟨leased.keepingJobs rfl rfl rfl rfl, framed.keeping rfl rfl rfl rfl⟩
  exact {
    sound := Server.sound_of_reachable server
    streams := Server.streams_of_reachable server
    inOrder := Server.inOrder_of_reachable server
    exchange := Server.exchange_of_reachable server
    leased, framed, wired }

namespace Orderly

section

variable (orderly : link.Orderly)
include orderly

theorem requests_prefix : link.server.requests <+: link.client.sent := by
  refine prefix_of_encodeAll_prefix orderly.streams.admitted
    orderly.framed.admitted (orderly.streams.consumed.trans ?_)
  rw [← orderly.wired.up]
  exact prefix_append _ _

theorem requests : Requests link.server.requests :=
  fun frame member =>
    orderly.framed.frames frame (orderly.requests_prefix.subset member)

theorem heard_prefix : link.client.heard <+: output link.server := by
  refine prefix_of_encodeAll_prefix orderly.framed.heard (output_admitted orderly.exchange) ?_
  rw [encodeAll_output, ← orderly.streams.written, orderly.wired.down, append_assoc, append_assoc]
  exact prefix_append _ _

theorem results : ∀ frame ∈ link.server.replies, frame.frameType = .evalResult := by
  obtain ⟨answered, unanswered, all, answers, _, _⟩ := orderly.inOrder.answered
  intro reply member
  obtain ⟨question, asked, own⟩ := forall₂_mem_right answers member
  cases own with
  | eval => rfl
  | @pong payload whole =>
    have there : Question.ping payload ∈ link.server.questions := by
      rw [all]
      exact mem_append_left _ asked
    obtain ⟨frame, read, same⟩ := mem_filterMap.mp there
    rcases orderly.requests frame read with ⟨batch, rfl⟩ | ⟨model, rfl⟩
    · unfold question? at same
      rw [evalFrame_frameType] at same
      dsimp only at same
      split at same
      · cases same
      · cases same
    · cases same

theorem announced : ∃ first, link.server.announced =
      first :: link.server.replies.map Frame.active := by
  obtain ⟨first, announced⟩ := orderly.exchange.announced
  refine ⟨first, announced.trans ?_⟩
  rw [filter_eq_self.mpr fun frame member =>
    decide_eq_true (orderly.results frame member)]

/-- The batches that were read, before those that were answered and behind
them. -/
theorem evals : ∃ past : List Batch,
      past.length + link.client.phase.undigested ≤ link.client.heard.length ∧
        evalPayloads link.server.requests <+: past.map (fun batch => (evalFrame batch).payload) ++
            link.client.unanswered.map fun batch => (evalFrame batch).payload := by
  obtain ⟨past, heard, evals⟩ := orderly.framed.evals
  refine ⟨past, heard, ?_⟩
  rw [← map_append, ← evals]
  exact (orderly.requests_prefix.filter _).map _

theorem length_evals (alive : link.server.failure = none) :
    (evalPayloads link.server.requests).length =
      link.server.replies.length + link.server.pending.length + link.server.phase.asked.length := by
  obtain ⟨answered, unanswered, all, answers, _, rest⟩ := orderly.inOrder.answered
  have count := congrArg List.length all
  rw [length_append, answers.length_eq, rest alive, length_append, length_map] at count
  rw [← length_questions_of_parsed orderly.requests (orderly.exchange.parsed alive)]
  exact count.trans (Nat.add_assoc _ _ _).symm

theorem request_unanswered {request} (serves : link.server.phase.request = some request) :
    ∃ batch ∈ link.client.unanswered, batch.model.version = request.modelVersion := by
  have busy : ¬ link.server.phase.Over ∧ link.server.phase.asked.length = 1 := by
    cases phase : link.server.phase with
    | serving own => exact ⟨id, rfl⟩
    | adopting own slot => exact ⟨id, rfl⟩
    | staging own => exact ⟨id, rfl⟩
    | _ =>
      rw [phase] at serves
      cases serves
  have alive := orderly.sound.alive busy.1
  have count := orderly.length_evals alive
  obtain ⟨frame, last, own, parsed⟩ := orderly.exchange.asked request serves
  obtain ⟨earlier, whole⟩ := getLast?_eq_some_iff.mp last
  have payloads : evalPayloads link.server.requests = evalPayloads earlier ++ [frame.payload] := by
    rw [whole, evalPayloads_append, evalPayloads_single own]
  obtain ⟨past, heard, isPrefix⟩ := orderly.evals
  have read := orderly.heard_prefix.length_le
  have silent : (output link.server).length = link.server.replies.length := by
    unfold output
    rw [alive]
    exact congrArg List.length (append_nil _)
  rw [payloads, length_append, length_singleton] at count
  have found : (evalPayloads link.server.requests)[
      (evalPayloads earlier).length]? = some frame.payload := by
    rw [payloads, getElem?_append_right (Nat.le_refl _), Nat.sub_self]
    rfl
  have few : (past.map fun batch => (evalFrame batch).payload).length ≤
      (evalPayloads earlier).length := by
    rw [length_map]
    omega
  obtain ⟨batch, member, same⟩ := mem_map.mp (mem_of_later isPrefix few found)
  refine ⟨batch, member, ?_⟩
  rw [← same] at parsed
  exact (modelVersion_of_parsed parsed).symm

end

end Orderly

end Link

end GraphZero.Connection
