import GraphZero.Evaluator.Pipeline

/-!
# What is exchanged

Every result announces the generation that was active when it was written.
The batch that is served is the one that was read last, and as long as nothing
failed all batches that were read could be parsed.
-/

namespace GraphZero.Evaluator

open Engine Foundation Features List

theorem slice_parts (front part rest : List UInt8) :
    slice (front ++ (part ++ rest)) front.length part.length = part := by
  unfold slice
  rw [drop_left, take_left]

theorem length_versionBytes (version : ModelVersion) : (versionBytes version).length = 16 :=
  length_toLeBytes 16 _

@[simp]
theorem versionOfBytes_versionBytes (version : ModelVersion) :
    versionOfBytes (versionBytes version) = version := by
  unfold versionOfBytes versionBytes
  rw [ofLeBytes_toLeBytes version.isLt, BitVec.ofNat_toNat, BitVec.setWidth_eq]

/-- The generation that a result announces. -/
def Frame.active (frame : Frame) : Nat × ModelVersion :=
  (ofLeBytes (slice frame.payload 24 8), versionOfBytes (slice frame.payload 32 16))

theorem active_evalResult {batchId version active payload} (small : active.1 < 2 ^ 64) :
    (Server.evalResult batchId version active payload).active = active := by
  have number := slice_parts (toLeBytes 8 batchId ++ versionBytes version)
    (toLeBytes 8 active.1) (versionBytes active.2 ++ payload)
  have name := slice_parts (toLeBytes 8 batchId ++ versionBytes version ++
    toLeBytes 8 active.1) (versionBytes active.2) payload
  simp only [length_append, length_toLeBytes, length_versionBytes, append_assoc] at number name
  unfold Frame.active Server.evalResult
  simp only [append_assoc]
  rw [number, name, ofLeBytes_toLeBytes small, versionOfBytes_versionBytes]

/-! ## Requests -/

def evalPayloads (frames : List Frame) : List (List UInt8) :=
  (frames.filter (·.frameType = .eval)).map (·.payload)

@[simp]
theorem evalPayloads_append (frames more : List Frame) : evalPayloads (frames ++ more) =
      evalPayloads frames ++ evalPayloads more := by
  unfold evalPayloads
  rw [filter_append, map_append]

theorem evalPayloads_single {frame} (own : frame.frameType = .eval) :
    evalPayloads [frame] = [frame.payload] := by
  unfold evalPayloads
  rw [filter_singleton, own]
  rfl

theorem evalPayloads_other {frame} (other : frame.frameType ≠ .eval) :
    evalPayloads [frame] = [] := by
  unfold evalPayloads
  rw [filter_singleton, decide_eq_false other]
  rfl

def Phase.request : Phase → Option EvalRequest
  | .serving request | .adopting request _ | .staging request => some request
  | _ => none

theorem Phase.Resumes.request_eq {phase : Phase} (resumes : phase.Resumes) :
    phase.request = none := by
  cases phase with
  | polling => rfl
  | draining payload => rfl
  | _ => exact absurd resumes id

namespace Server

structure Exchange (server : Server) : Prop where
  announced : ∃ first, server.announced = first ::
    (server.replies.filter (·.frameType = .evalResult)).map Frame.active
  small : ∀ told ∈ server.announced, told.1 < 2 ^ 64
  admitted : ∀ frame ∈ server.replies, frame.Admitted
  parsed : server.failure = none → ∀ frame ∈ server.requests,
    frame.frameType = .eval → ∃ request, parseEval server.state frame.payload = .ok request
  asked : ∀ request, server.phase.request = some request →
    ∃ frame, server.requests.getLast? = some frame ∧ frame.frameType = .eval ∧
      parseEval server.state frame.payload = .ok request

variable {server target : Server} {label : Label}

theorem exchange_of_started (started : server.Started) : server.Exchange := by
  obtain ⟨backend, hello, achieved, limit, slot, made, served⟩ := started
  obtain ⟨residency, same, _, _, small, _, rfl⟩ := serve_eq_ok served
  refine ⟨⟨_, rfl⟩, forall_mem_singleton.mpr small, forall_mem_nil _, fun _ => forall_mem_nil _,
    fun request asked => ?_⟩
  cases asked

section

variable (exchange : server.Exchange)
include exchange

theorem Exchange.keeping (announced : target.announced = server.announced)
    (replies : target.replies = server.replies)
    (requests : target.requests = server.requests)
    (state : target.state = server.state)
    (failure : target.failure = none → server.failure = none)
    (asked : ∀ request, target.phase.request = some request →
      server.phase.request = some request) : target.Exchange := by
  refine ⟨?_, ?_, ?_, ?_, fun request own => ?_⟩
  · rw [announced, replies]
    exact exchange.announced
  · rw [announced]
    exact exchange.small
  · rw [replies]
    exact exchange.admitted
  · rw [requests, state]
    exact fun alive => exchange.parsed (failure alive)
  · rw [requests, state]
    exact exchange.asked request (asked request own)

theorem Exchange.fail (error : ServeError) : (server.fail error).Exchange := by
  refine exchange.keeping rfl rfl rfl rfl (fun alive => ?_) fun request own => ?_
  · cases alive
  cases error with
  | reported error => cases own
  | uncaught message => cases own

theorem Exchange.dispatched {frame} (dispatched : Dispatched server frame target) :
    target.Exchange := by
  have earlier (alive : server.failure = none) (own : frame.frameType = .eval →
        ∃ request, parseEval server.state frame.payload = .ok request) :
      ∀ read ∈ server.requests ++ [frame], read.frameType = .eval →
        ∃ request, parseEval server.state read.payload = .ok request := by
    intro read member batch
    rcases mem_append.mp member with before | last
    · exact exchange.parsed alive read before batch
    · cases mem_singleton.mp last
      exact own batch
  obtain ⟨announced, small, admitted, _, _⟩ := exchange
  cases dispatched with
  | ping own =>
    refine ⟨announced, small, admitted, fun alive => earlier alive
      fun batch => ?_, fun request asked => ?_⟩
    · cases own.symm.trans batch
    · cases asked
  | eval own parsed =>
    refine ⟨announced, small, admitted,
      fun alive => earlier alive fun _ => ⟨_, parsed⟩, fun request asked => ?_⟩
    cases asked
    exact ⟨frame, getLast?_concat, own, parsed⟩
  | release own done =>
    refine ⟨announced, small, admitted, fun alive => earlier alive
      fun batch => ?_, fun request asked => ?_⟩
    · cases own.symm.trans batch
    · cases asked
  | @failed error reason =>
    refine ⟨announced, small, admitted, fun alive => ?_, fun request asked => ?_⟩
    · cases alive
    cases error with
    | reported error => cases asked
    | uncaught message => cases asked

theorem Exchange.move (sound : server.Sound)
    (move : server.Move label target) : target.Exchange := by
  cases move with
  | arrive bytes opened => exact exchange.keeping rfl rfl rfl rfl id fun _ => id
  | close => exact exchange.keeping rfl rfl rfl rfl id fun _ => id
  | hold phase unfinished holds | proceed phase finished =>
    exact exchange.keeping rfl rfl rfl rfl id fun request own => by cases own
  | flush flushes done =>
    obtain ⟨outstanding, rest, result, queue, finished, outcome⟩ := flushOldest_eq_some done
    rcases outcome with ⟨error, rfl⟩ | ⟨payload, _, rfl, _, small, fits, rfl⟩
    · exact exchange.fail error
    obtain ⟨first, announced⟩ := exchange.announced
    refine ⟨⟨first, ?_⟩, ?_, ?_, exchange.parsed, fun request asked => ?_⟩
    · change server.announced ++ [server.residency.modelGeneration] = _ ::
        List.map Frame.active (List.filter _ (server.replies ++ [_]))
      rw [announced, filter_append, map_append]
      have told := congrArg (fun active => [active])
        (active_evalResult small : (evalResult outstanding.batchId
          outstanding.handle.modelVersion server.residency.modelGeneration
          payload).active = _)
      exact congrArg (fun active => first :: (_ ++ active)) told.symm
    · intro told member
      rcases mem_append.mp member with earlier | last
      · exact exchange.small told earlier
      · cases mem_singleton.mp last
        exact small
    · intro frame member
      rcases mem_append.mp member with earlier | last
      · exact exchange.admitted frame earlier
      · cases mem_singleton.mp last
        exact fits
    · cases asked
  | @receive bytes count phase some asked available =>
    have received := Server.received server bytes count
    generalize server.receive bytes count = target at received ⊢
    have taken : (server.taking count).Exchange :=
      exchange.keeping rfl rfl rfl rfl id fun request own => by cases own
    cases received with
    | incomplete more => exact taken.keeping rfl rfl rfl rfl id fun request own => by cases own
    | failed wrong => exact taken.fail _
    | frame whole dispatched => exact taken.dispatched dispatched
  | endOfFile phase nothing closed => exact exchange.fail _
  | passSwap phase nothing | swap phase waiting | adopt phase | abandon phase =>
    refine exchange.keeping rfl rfl rfl rfl id fun request own => ?_
    rw [phase]
    exact own
  | @stage request phase room =>
    have launched := Server.launched server request
    generalize server.stageAndLaunch request = target at launched ⊢
    cases launched with
    | failed wrong => exact exchange.fail _
    | launched done => exact exchange.keeping rfl rfl rfl rfl id fun request own => by cases own
  | @pong payload phase finished =>
    rcases handlePing_eq server payload with ⟨error, failed⟩ | ⟨whole, answered⟩
    · rw [failed]
      exact exchange.fail error
    rw [answered]
    refine ⟨?_, exchange.small, ?_, exchange.parsed, fun request own => by cases own⟩
    · obtain ⟨first, announced⟩ := exchange.announced
      refine ⟨first, announced.trans ?_⟩
      change _ = _ :: List.map _ (List.filter _ (server.replies ++ [_]))
      rw [filter_append]
      exact congrArg (fun told => first :: List.map Frame.active told) (append_nil _).symm
    · intro frame member
      rcases mem_append.mp member with earlier | last
      · exact exchange.admitted frame earlier
      · cases mem_singleton.mp last
        unfold Frame.Admitted
        rw [Frame.body, length_cons, whole]
        decide
  | send phase some part =>
    refine exchange.keeping rfl rfl rfl rfl id fun request own => by cases own
  | sent phase some =>
    have fits := sound.fits
    rw [phase] at fits
    refine exchange.keeping rfl rfl rfl rfl id fun request own => ?_
    rcases fits.2 with resumes | rfl
    · rw [resumes.request_eq] at own
      cases own
    · cases own
  | compute done => exact exchange.keeping rfl rfl rfl rfl id fun _ => id
  | load own done =>
    exact exchange.keeping rfl rfl rfl rfl id fun _ => id

end

theorem exchange_of_reachable (reachable : evaluatorSystem.Reachable server) : server.Exchange :=
  reachable.invariant_given (fun _ => sound_of_reachable) (fun _ => exchange_of_started)
    fun _ _ _ sound exchange step => exchange.move sound (move_of_next step)

end Server

end GraphZero.Evaluator
