import GraphZero.Evaluator.Replies

/-!
# The serving loop as a pipeline

What arrives are the frames that were read and the bytes behind them; what is
written are the replies, and an error at the end.  Together with the order of
the replies this says what a client sees of the pipeline.
-/

namespace GraphZero.Evaluator

open Engine Foundation Features List

/-- The bytes of the frame that is being read. -/
def Phase.got : Phase → List UInt8
  | .reading bytes => bytes
  | _ => []

/-- The bytes of the frame that is being written. -/
def Phase.unsent : Phase → List UInt8
  | .sending rest _ => rest
  | _ => []

/-- What is written after the last reply. -/
def farewell : Option ServeError → List UInt8
  | some (.reported error) => (Server.errorFrame error).encode
  | _ => []

@[simp]
theorem farewell_none : farewell none = [] := rfl

theorem Phase.Resumes.unsent_eq {phase : Phase} (resumes : phase.Resumes) : phase.unsent = [] := by
  cases phase with
  | polling => rfl
  | draining payload => rfl
  | _ => exact absurd resumes id

theorem Phase.Resumes.got_eq {phase : Phase} (resumes : phase.Resumes) : phase.got = [] := by
  cases phase with
  | polling => rfl
  | draining payload => rfl
  | _ => exact absurd resumes id

namespace Server

structure Streams (server : Server) : Prop where
  arrived : server.failure = none → server.arrived =
    encodeAll server.requests ++ (server.phase.got ++ server.inbox)
  consumed : encodeAll server.requests <+: server.arrived
  admitted : ∀ frame ∈ server.requests, frame.Admitted
  written : server.written ++ server.phase.unsent =
    encodeAll server.replies ++ farewell server.failure

variable {server target : Server} {label : Label}

theorem streams_of_started (started : server.Started) : server.Streams := by
  obtain ⟨backend, hello, achieved, limit, slot, made, served⟩ := started
  obtain ⟨residency, same, _, _, _, _, rfl⟩ := serve_eq_ok served
  exact ⟨fun _ => rfl, prefix_rfl, forall_mem_nil _, rfl⟩

section

variable (streams : server.Streams)
include streams

theorem Streams.keeping (arrived : target.arrived = server.arrived)
    (inbox : target.inbox = server.inbox)
    (requests : target.requests = server.requests)
    (replies : target.replies = server.replies)
    (written : target.written = server.written)
    (failure : target.failure = server.failure)
    (got : target.phase.got = server.phase.got)
    (unsent : target.phase.unsent = server.phase.unsent) :
    target.Streams := by
  refine ⟨fun alive => ?_, ?_, ?_, ?_⟩
  · rw [arrived, requests, got, inbox]
    exact streams.arrived (failure ▸ alive)
  · rw [requests, arrived]
    exact streams.consumed
  · rw [requests]
    exact streams.admitted
  · rw [written, unsent, replies, failure]
    exact streams.written

theorem Streams.fail (alive : server.failure = none) (quiet : server.phase.unsent = [])
    (error : ServeError) : (server.fail error).Streams := by
  refine ⟨nofun, streams.consumed, streams.admitted, ?_⟩
  have written := streams.written
  rw [alive, quiet, farewell_none, append_nil, append_nil] at written
  change server.written ++ _ = encodeAll server.replies ++ _
  rw [written]
  cases error with
  | reported error => rfl
  | uncaught message => rfl

theorem Streams.reply (alive : server.failure = none) (quiet : server.phase.unsent = [])
    (nothing : server.phase.got = []) (frame : Frame) (next : Phase) :
    (server.reply frame next).Streams := by
  refine ⟨fun _ => ?_, streams.consumed, streams.admitted, ?_⟩
  · have arrived := streams.arrived alive
    rw [nothing] at arrived
    exact arrived
  · have written := streams.written
    rw [alive, quiet, farewell_none, append_nil, append_nil] at written
    change server.written ++ frame.encode =
      encodeAll (server.replies ++ [frame]) ++ farewell server.failure
    rw [written, alive, farewell_none, append_nil, encodeAll_append,
      encodeAll_cons, encodeAll_nil, append_nil]

theorem Streams.dispatched (alive : server.failure = none) (quiet : server.phase.unsent = [])
    (nothing : server.phase.got = []) {base frame}
    (same : { base with requests := base.requests ++ [frame] } = server)
    (dispatched : Dispatched base frame target) : target.Streams := by
  cases dispatched with
  | ping own | eval own parsed | release own done =>
    subst same
    exact streams.keeping rfl rfl rfl rfl rfl rfl nothing.symm quiet.symm
  | failed reason =>
    subst same
    exact streams.fail alive quiet _

theorem Streams.received (sound : server.Sound) {bytes count}
    (phase : server.phase = .reading bytes) (asked : count ≤ wanted bytes)
    (received : Received server bytes count target) : target.Streams := by
  have alive := sound.alive (by rw [phase]; exact id)
  have arrived := streams.arrived alive
  have written := streams.written
  have fits := sound.fits
  rw [phase] at arrived written fits
  have split : bytes ++ server.inbox =
      bytes ++ server.inbox.take count ++ server.inbox.drop count := by
    rw [append_assoc, take_append_drop]
  cases received with
  | incomplete more =>
    refine ⟨fun _ => ?_, streams.consumed, streams.admitted, written⟩
    exact arrived.trans (congrArg (encodeAll server.requests ++ ·) split)
  | @failed error wrong =>
    refine ⟨nofun, streams.consumed, streams.admitted, ?_⟩
    rw [alive, farewell_none, append_nil] at written
    change server.written ++ _ = encodeAll server.replies ++ _
    rw [← written]
    change _ = server.written ++ [] ++ _
    rw [append_nil]
    cases error with
    | reported error => rfl
    | uncaught message => rfl
  | @frame frame _ whole dispatched =>
    obtain ⟨admitted, left, equal, head⟩ := eq_encode_of_readFrame whole
    have short : (server.inbox.take count).length ≤ wanted bytes :=
      (length_take_le _ _).trans asked
    have nothing := no_bytes_behind fits.1 short head
    rw [nothing, append_nil] at equal
    have total : server.arrived = encodeAll (server.requests ++ [frame]) ++
          ([] ++ server.inbox.drop count) := by
      rw [arrived, encodeAll_append, encodeAll_cons, encodeAll_nil,
        append_nil, nil_append, append_assoc, ← equal]
      exact congrArg (encodeAll server.requests ++ ·) split
    have read : Streams { server.taking count with
        requests := server.requests ++ [frame] } := by
      refine ⟨fun _ => total, ?_, ?_, written⟩
      · change _ <+: server.arrived
        rw [total]
        exact prefix_append _ _
      · intro other member
        rcases mem_append.mp member with earlier | last
        · exact streams.admitted other earlier
        · cases mem_singleton.mp last
          exact admitted
    exact read.dispatched alive rfl rfl rfl dispatched

theorem Streams.move (sound : server.Sound) (move : server.Move label target) : target.Streams := by
  cases move with
  | arrive bytes opened =>
    refine ⟨fun alive => ?_, ?_, streams.admitted, streams.written⟩
    · rw [streams.arrived alive]
      simp only [append_assoc]
    · exact streams.consumed.trans (prefix_append _ _)
  | close => exact streams.keeping rfl rfl rfl rfl rfl rfl rfl rfl
  | hold phase unfinished holds | proceed phase finished =>
    exact streams.keeping rfl rfl rfl rfl rfl rfl (by rw [phase]; rfl)
      (by rw [phase]; rfl)
  | flush flushes done =>
    obtain ⟨resumes, _, alive⟩ := flushes.notStaging sound
    obtain ⟨outstanding, rest, result, queue, finished, outcome⟩ := flushOldest_eq_some done
    rcases outcome with ⟨error, rfl⟩ | ⟨payload, _, rfl, encoded, _, _, rfl⟩
    · exact streams.fail alive resumes.unsent_eq error
    · have popped : Streams { server with
          pending := rest
          announced := server.announced ++ [server.residency.modelGeneration] } :=
        streams.keeping rfl rfl rfl rfl rfl rfl rfl rfl
      exact popped.reply alive resumes.unsent_eq resumes.got_eq _ _
  | receive phase some asked available =>
    exact streams.received sound phase asked (Server.received server _ _)
  | endOfFile phase nothing closed =>
    have alive := sound.alive (by rw [phase]; exact id)
    exact streams.fail alive (by rw [phase]; rfl) _
  | passSwap phase nothing | swap phase waiting | adopt phase | abandon phase =>
    exact streams.keeping rfl rfl rfl rfl rfl rfl (by rw [phase]; rfl)
      (by rw [phase]; rfl)
  | @stage request phase room =>
    have alive := sound.alive (by rw [phase]; exact id)
    have outcome := Server.launched server request
    generalize server.stageAndLaunch request = next at outcome ⊢
    cases outcome with
    | failed wrong => exact streams.fail alive (by rw [phase]; rfl) _
    | launched done =>
      exact streams.keeping rfl rfl rfl rfl rfl rfl (by rw [phase]; rfl)
        (by rw [phase]; rfl)
  | pong phase finished =>
    have alive := sound.alive (by rw [phase]; exact id)
    rcases handlePing_eq server _ with ⟨error, failed⟩ | ⟨whole, answered⟩
    · rw [failed]
      exact streams.fail alive (by rw [phase]; rfl) error
    · rw [answered]
      exact streams.reply alive (by rw [phase]; rfl) (by rw [phase]; rfl)
        _ _
  | @send rest next count phase some part =>
    have arrived := streams.arrived
    have written := streams.written
    rw [phase] at arrived written
    refine ⟨arrived, streams.consumed, streams.admitted, ?_⟩
    change server.written ++ rest.take count ++ rest.drop count = _
    rw [append_assoc, take_append_drop]
    exact written
  | @sent rest next phase some =>
    have arrived := streams.arrived
    have written := streams.written
    have fits := sound.fits
    rw [phase] at arrived written fits
    have quiet : next.got = [] ∧ next.unsent = [] := by
      rcases fits.2 with resumes | rfl
      · exact ⟨resumes.got_eq, resumes.unsent_eq⟩
      · exact ⟨rfl, rfl⟩
    refine ⟨?_, streams.consumed, streams.admitted, ?_⟩
    · rw [quiet.1]
      exact arrived
    · rw [quiet.2, append_nil]
      exact written
  | compute done => exact streams.keeping rfl rfl rfl rfl rfl rfl rfl rfl
  | load own done => exact streams.keeping rfl rfl rfl rfl rfl rfl rfl rfl

end

theorem streams_of_reachable (reachable : evaluatorSystem.Reachable server) : server.Streams :=
  reachable.invariant_given (fun _ => sound_of_reachable) (fun _ => streams_of_started)
    fun _ _ _ sound streams step => streams.move sound (move_of_next step)

/-! ## Waiting -/

/-- The steps of the serving thread and of the device. -/
def ownSteps : List Label :=
  [.hold, .proceed, .flush, .receive 1, .endOfFile, .swap, .adopt, .stage, .pong, .send 1, .compute]

/-- No step of the server itself is possible. -/
def Waits (server : Server) : Prop :=
  ∀ label ∈ ownSteps, server.next label = none

theorem flush_or_compute (unfinished : server.pending ≠ []) (next : Phase) :
    (server.flushOldest next).isSome = true ∨ (server.next .compute).isSome = true := by
  cases stream : server.staging.stream with
  | nil =>
    left
    cases queue : server.pending with
    | nil => exact absurd queue unfinished
    | cons outstanding rest =>
      obtain ⟨result, finished⟩ := Option.isSome_iff_exists.mp
        (Staging.finish_isSome stream outstanding.handle)
      unfold flushOldest
      rw [queue]
      dsimp only
      rw [finished]
      dsimp only
      split
      · rfl
      · rfl
  | cons launch rest =>
    right
    change (Option.map _ server.staging.compute).isSome = true
    unfold Staging.compute
    rw [stream]
    rfl

/-- The server waits for bytes only, and with batches unfinished only for the
rest of a frame. -/
theorem Sound.waits_only_to_read (sound : server.Sound) (waits : server.Waits) :
    server.phase = .ended ∨ ∃ bytes, server.phase = .reading bytes ∧ server.readable = false ∧
        (server.pending = [] ∨ bytes ≠ []) := by
  have unflushed (next : Phase) (own : server.next .flush =
      server.flushOldest next) : server.pending = [] := by
    by_contra unfinished
    rcases flush_or_compute unfinished next with flushed | computed
    · rw [← own, waits .flush (by simp [ownSteps])] at flushed
      cases flushed
    · rw [waits .compute (by simp [ownSteps])] at computed
      cases computed
  have fits := sound.fits
  cases phase : server.phase with
  | ended => exact .inl rfl
  | polling =>
    exfalso
    have proceed := waits .proceed (by simp [ownSteps])
    have hold := waits .hold (by simp [ownSteps])
    dsimp only [next] at proceed hold
    rw [phase] at proceed hold
    by_cases holds : server.holds = true
    · by_cases finished : server.pending = []
      · rw [if_pos finished] at proceed
        cases proceed
      · rw [if_pos ⟨finished, holds⟩] at hold
        cases hold
    · have finished := unflushed .polling (by
        dsimp only [next]
        rw [phase]
        exact if_neg holds)
      rw [if_pos finished] at proceed
      cases proceed
  | reading bytes =>
    rw [phase] at fits
    right
    have receive := waits (.receive 1) (by simp [ownSteps])
    have halted := waits .endOfFile (by simp [ownSteps])
    dsimp only [next] at receive halted
    rw [phase] at receive halted
    dsimp only at receive halted
    have nothing : server.inbox = [] := by
      by_contra some
      have available : 1 ≤ server.inbox.length := length_pos_iff.mpr some
      rw [if_pos ⟨Nat.one_pos, wanted_pos fits.1, available⟩] at receive
      cases receive
    have opened : server.closed = false := by
      by_contra closed
      rw [if_pos ⟨nothing, Bool.not_eq_false _ ▸ closed⟩] at halted
      cases halted
    have unreadable : server.readable = false := by
      unfold readable
      rw [nothing, opened]
      rfl
    refine ⟨bytes, rfl, unreadable, ?_⟩
    rcases fits.2.2 with zero | some | readable
    · exact .inl (length_eq_zero_iff.mp zero)
    · exact .inr some
    · rw [unreadable] at readable
      cases readable
  | serving request =>
    have swap := waits .swap (by simp [ownSteps])
    dsimp only [next] at swap
    rw [phase] at swap
    cases swap
  | adopting request slot =>
    have adopt := waits .adopt (by simp [ownSteps])
    dsimp only [next] at adopt
    rw [phase] at adopt
    cases adopt
  | staging request =>
    rw [phase] at fits
    have stage := waits .stage (by simp [ownSteps])
    dsimp only [next] at stage
    rw [phase] at stage
    dsimp only at stage
    rw [if_pos (show server.pending.length < pipelineDepth from fits)] at stage
    cases stage
  | draining payload =>
    have finished := unflushed (.draining payload) (by
      dsimp only [next]
      rw [phase])
    have pong := waits .pong (by simp [ownSteps])
    dsimp only [next] at pong
    rw [phase] at pong
    dsimp only at pong
    rw [if_pos finished] at pong
    cases pong
  | sending rest next =>
    rw [phase] at fits
    have send := waits (.send 1) (by simp [ownSteps])
    dsimp only [Server.next] at send
    rw [phase] at send
    dsimp only at send
    rw [if_pos ⟨Nat.one_pos, length_pos_iff.mpr fits.1⟩] at send
    cases send

structure Pipelined (server : Server) : Prop where
  /-- The requests that are answered are the first ones, each answered once
  and in turn.  The others are unfinished or at hand, unless an error has
  ended the connection. -/
  inOrder : ∃ answered unanswered,
    server.questions = answered ++ unanswered ∧
      List.Forall₂ (Answers server.adopted) answered server.replies ∧
      unanswered.length ≤ pipelineDepth + 1 ∧
      (server.failure = none → unanswered =
          server.pending.map Outstanding.question ++ server.phase.asked)
  /-- The requests are the frames that were sent. -/
  requested : ∀ sent, (∀ frame ∈ sent, frame.Admitted) →
    server.arrived <+: encodeAll sent → server.requests <+: sent
  /-- The replies are what is written, with an error at most behind them. -/
  written : server.written ++ server.phase.unsent =
    encodeAll server.replies ++ farewell server.failure
  outstanding : server.pending.length ≤ pipelineDepth
  /-- Every unfinished batch is still in its staging buffer, which is that of
  no other batch, and the next one goes into another buffer. -/
  held : ∀ outstanding ∈ server.pending,
    server.staging.stagers outstanding.staged.stager = .ofView outstanding.view
  apart : (server.pending.map (·.staged.stager)).Nodup
  fresh : ∀ request, server.phase = .staging request →
    server.staging.stageIndex ∉ server.pending.map (·.staged.stager)
  /-- A pong is written only after every reply to an earlier request. -/
  drained : ∀ payload, server.phase = .draining payload →
    (server.next .pong).isSome = true → server.pending = []
  /-- A read with batches unfinished has bytes of the next frame. -/
  reads : ∀ bytes, server.phase = .reading bytes → server.pending ≠ [] →
    bytes ≠ [] ∨ server.readable = true
  /-- The server is stuck only in a read, with nothing unfinished or in the
  middle of a frame. -/
  waits : server.Waits → server.phase = .ended ∨
    ∃ bytes, server.phase = .reading bytes ∧ server.readable = false ∧
      (server.pending = [] ∨ bytes ≠ [])

/-- Whatever the requests and however the socket brings them, the evaluator
is a pipeline. -/
theorem pipelined_of_reachable
    (reachable : evaluatorSystem.Reachable server) : server.Pipelined := by
  have sound := sound_of_reachable reachable
  have inOrder := inOrder_of_reachable reachable
  have streams := streams_of_reachable reachable
  have fits := sound.fits
  have staged : server.pending = [] ∨ server.staging.Sound server.pending := by
    by_cases alive : server.failure = none
    · exact .inr (sound.staging alive)
    · exact .inl (sound.dropped alive)
  refine {
    inOrder := inOrder.answered
    requested := fun sent admitted isPrefix =>
      prefix_of_encodeAll_prefix streams.admitted admitted (streams.consumed.trans isPrefix)
    written := streams.written
    outstanding := ?_
    held := ?_
    apart := ?_
    fresh := fun request phase => ?_
    drained := fun payload phase possible => ?_
    reads := fun bytes phase unfinished => ?_
    waits := sound.waits_only_to_read }
  · rcases staged with finished | staged
    · rw [finished]
      exact Nat.zero_le _
    · exact staged.bounded
  · rcases staged with finished | staged
    · rw [finished]
      exact forall_mem_nil _
    · exact staged.held
  · rcases staged with finished | staged
    · rw [finished]
      exact nodup_nil
    · obtain ⟨start, places, _⟩ := staged.places
      rw [places]
      exact nodup_ringPlaces staged.bounded
  · have alive := sound.alive (by rw [phase]; exact id)
    obtain ⟨start, places, next⟩ := (sound.staging alive).places
    rw [phase] at fits
    rw [places, next]
    exact next_notMem_ringPlaces fits
  · dsimp only [next] at possible
    rw [phase] at possible
    dsimp only at possible
    by_contra unfinished
    rw [if_neg unfinished] at possible
    cases possible
  · rw [phase] at fits
    rcases fits.2.2 with zero | some | readable
    · exact absurd (length_eq_zero_iff.mp zero) unfinished
    · exact .inl some
    · exact .inr readable

end Server

namespace Sample

def manifest (version : ModelVersion) : Manifest where
  featureSchema := Features.Sample.schema
  engineIdentity := ⟨1, 1, 1⟩
  modelVersion := version

def runner : Runner := fun _ => (fun _ => .zero, fun _ _ => .zero)

def hello : Hello where
  protocolVersion := protocolVersion
  encodingVersion := batchEncodingVersion
  featureSchemaHash := Features.Sample.schema.hash
  batchCapacity := 1
  engineIdentity := ⟨1, 1, 1⟩

def backend (residency : Residency) : TorchBackend where
  residency
  maxBatch := 1024
  cuda := false
  stagers _ := default
  hostSlots _ := runRunner runner default

/-- The server with room for so many generations, after some steps. -/
def run (limit : Nat) (labels : List Server.Label) : Option Server := do
  let residency ← (Residency.new limit ⟨manifest 1, runner⟩).toOption
  let server ← ((backend residency).serve hello (replyFrames 1 2)).toOption
  labels.foldlM Server.next server

theorem reachable_of_run {limit labels server} (followed : run limit labels = some server) :
    evaluatorSystem.Reachable server := by
  obtain ⟨residency, made, followed⟩ := Option.bind_eq_some_iff.mp followed
  obtain ⟨first, served, followed⟩ := Option.bind_eq_some_iff.mp followed
  exact ⟨first, ⟨_, _, _, limit, _, ok_of_toOption made,
    ok_of_toOption served⟩, labels, TransitionSystem.Run.of_foldlM (fun step => step) followed⟩

def batch : List UInt8 :=
  match collate Features.Sample.schema 1 [Features.Sample.row .zero] with
  | .ok bytes => bytes
  | .error _ => []

def eval (batchId : Nat) (version : ModelVersion) : Frame where
  frameType := .eval
  payload := toLeBytes 8 batchId ++ versionBytes version ++ batch

def ping : Frame := ⟨.ping, [1, 2, 3, 4, 5, 6, 7, 8]⟩

/-- A ping is read while a batch is unfinished. -/
def pipelinedPing : List Server.Label := [
  .arrive ((eval 7 1).encode ++ ping.encode), .proceed, .receive 4,
  .receive ((eval 7 1).encode.length - 4), .swap, .stage, .hold, .receive 4,
  .receive 9, .flush, .send 60, .send 21, .pong, .send 13]

end Sample

/-- Both replies have been written, that to the batch first. -/
theorem Server.pipelined_after_ping : ∃ server, Sample.run 2 Sample.pipelinedPing = some server ∧
      server.replies.map (·.frameType) = [.evalResult, .pong] ∧
      server.Pipelined := by
  have answered : (Sample.run 2 Sample.pipelinedPing).map
      (·.replies.map (·.frameType)) = some [.evalResult, .pong] := by
    decide +kernel
  obtain ⟨server, followed, replies⟩ := Option.map_eq_some_iff.mp answered
  exact ⟨server, followed, replies, pipelined_of_reachable (Sample.reachable_of_run followed)⟩

end GraphZero.Evaluator
