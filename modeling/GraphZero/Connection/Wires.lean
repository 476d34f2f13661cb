import GraphZero.Connection.ClientInvariant
import GraphZero.Connection.Link

/-!
# Frames in transit

What has arrived at the server are the first of the frames that the client has
sent, and what the client has heard are the first of those that the server has
written.
-/

namespace GraphZero.Connection

open Engine Foundation Orchestrator Evaluator List

/-- The frames of the server: its replies, and an error at most behind them. -/
def output (server : Server) : List Frame :=
  server.replies ++ match server.failure with
    | some (.reported error) => [Server.errorFrame error]
    | _ => []

theorem encodeAll_output (server : Server) : encodeAll (output server) =
      encodeAll server.replies ++ farewell server.failure := by
  unfold output
  rw [encodeAll_append]
  refine congrArg _ ?_
  cases server.failure with
  | none => rfl
  | some failure =>
    cases failure with
    | reported error => exact append_nil _
    | uncaught message => rfl

theorem output_admitted {server} (exchange : server.Exchange) :
    ∀ frame ∈ output server, frame.Admitted := by
  intro frame member
  rcases mem_append.mp member with reply | last
  · exact exchange.admitted frame reply
  split at last
  · next error _ =>
    cases mem_singleton.mp last
    have short := length_encodeError_le error
    unfold Frame.Admitted Server.errorFrame Frame.body maxFrame
    rw [length_cons]
    dsimp only
    omega
  · cases last

section Server

variable {server target : Server} {label : Server.Label}

theorem dispatched_bytes {frame} (dispatched : Server.Dispatched server frame target) :
    target.arrived = server.arrived ∧ target.written = server.written := by
  cases dispatched with
  | _ => exact ⟨rfl, rfl⟩

theorem received_bytes {bytes count} (received : Server.Received server bytes count target) :
    target.arrived = server.arrived ∧ target.written = server.written := by
  cases received with
  | incomplete more => exact ⟨rfl, rfl⟩
  | failed wrong => exact ⟨rfl, rfl⟩
  | frame whole dispatched => exact @dispatched_bytes (server.taking count) _ _ dispatched

theorem move_bytes (move : server.Move label target) (own : ∀ bytes, label ≠ .arrive bytes) :
    target.arrived = server.arrived ∧ server.written <+: target.written := by
  cases move with
  | arrive bytes opened => exact absurd rfl (own bytes)
  | flush flushes done =>
    obtain ⟨outstanding, rest, result, _, _, outcome⟩ := Server.flushOldest_eq_some done
    rcases outcome with ⟨error, rfl⟩ | ⟨payload, _, rfl, _, _, _, rfl⟩
    · exact ⟨rfl, prefix_rfl⟩
    · exact ⟨rfl, prefix_rfl⟩
  | receive phase some asked available =>
    obtain ⟨arrived, written⟩ := received_bytes (Server.received server _ _)
    exact ⟨arrived, written ▸ prefix_rfl⟩
  | @stage request phase room =>
    have launched := Server.launched server request
    generalize server.stageAndLaunch request = target at launched
    cases launched with
    | _ => exact ⟨rfl, prefix_rfl⟩
  | @pong payload phase finished =>
    rcases Server.handlePing_eq server payload with
      ⟨error, failed⟩ | ⟨_, answered⟩
    · rw [failed]
      exact ⟨rfl, prefix_rfl⟩
    · rw [answered]
      exact ⟨rfl, prefix_rfl⟩
  | send phase some part => exact ⟨rfl, prefix_append _ _⟩
  | sent phase some => exact ⟨rfl, prefix_append _ _⟩
  | _ => exact ⟨rfl, prefix_rfl⟩

end Server

/-! ## The bytes of a connection -/

namespace Link

structure Wired (link : Link) : Prop where
  up : link.server.arrived ++ link.client.outgoing = encodeAll link.client.sent
  down : link.server.written =
    encodeAll link.client.heard ++ link.client.phase.got ++ link.client.inbox
  reading : link.client.failure = none → readHead maxFrame link.client.phase.got = .incomplete

variable {link target : Link}

theorem wired_of_started (started : link.Started) : link.Wired := by
  obtain ⟨client, server, sendBuffer⟩ := link
  obtain ⟨backend, hello, achieved, limit, slot, registry, made, served, _, _, rfl, _⟩ := started
  obtain ⟨residency, same, _, _, _, _, rfl⟩ := Server.serve_eq_ok served
  exact ⟨rfl, rfl, fun _ => rfl⟩

theorem Wired.keeping (wired : link.Wired) {client}
    (outgoing : client.outgoing = link.client.outgoing) (sent : client.sent = link.client.sent)
    (heard : client.heard = link.client.heard) (inbox : client.inbox = link.client.inbox)
    (got : client.phase.got = link.client.phase.got)
    (failure : client.failure = none → link.client.failure = none) :
    Wired { link with client } where
  up := by
    rw [outgoing, sent]
    exact wired.up
  down := by
    rw [heard, got, inbox]
    exact wired.down
  reading alive := by
    rw [got]
    exact wired.reading (failure alive)

theorem Wired.begun (wired : link.Wired) {client frame} (free : link.client.free = true)
    (sent : client.sent = link.client.sent ++ [frame]) (outgoing : client.outgoing = frame.encode)
    (heard : client.heard = link.client.heard) (inbox : client.inbox = link.client.inbox)
    (got : client.phase.got = link.client.phase.got) :
    Wired { link with client } where
  up := by
    have before := wired.up
    rw [(Client.free_iff.mp free).2, append_nil] at before
    rw [sent, outgoing, encodeAll_append, ← before, encodeAll_cons, encodeAll_nil, append_nil]
  down := by
    rw [heard, got, inbox]
    exact wired.down
  reading _ := by
    rw [got]
    exact wired.reading (Client.free_iff.mp free).1

theorem Wired.client (wired : link.Wired) {client} (move : link.client.Move client) :
    Wired { link with client } := by
  cases move with
  | skip => exact wired
  | ensure done | sendParked done =>
    cases done with
    | _ => exact wired.keeping rfl rfl rfl rfl rfl id
  | releaseLease member idle done => exact wired.keeping rfl rfl rfl rfl rfl id
  | takeReleasable free phase => exact wired.keeping rfl rfl rfl rfl (by rw [phase]; rfl) id
  | released phase => exact wired.keeping rfl rfl rfl rfl (by rw [phase]; rfl) id
  | release free phase superseded admitted =>
    exact wired.begun free rfl rfl rfl rfl (by rw [phase]; rfl)
  | activeRelease phase => exact wired.keeping rfl rfl rfl rfl rfl nofun
  | submit free phase room oneModel split admitted => exact wired.begun free rfl rfl rfl rfl rfl
  | drainOldest free phase queue => exact wired.keeping rfl rfl rfl rfl (by rw [phase]; rfl) id
  | published phase done => exact wired.keeping rfl rfl rfl rfl (by rw [phase]; rfl) id
  | unpublished phase refused => exact wired.keeping rfl rfl rfl rfl rfl nofun
  | stop => exact wired.keeping rfl rfl rfl rfl rfl nofun

theorem Wired.receive (wired : link.Wired) {client batch got count}
    (phase : link.client.phase = .receiving batch got) (running : link.client.failure = none)
    (asked : count ≤ wanted got) (received : link.client.Received batch got count client) :
    Wired { link with client } := by
  obtain ⟨up, down, reading⟩ := wired
  have incomplete := reading running
  rw [phase] at down incomplete
  have split : got ++ link.client.inbox =
      got ++ link.client.inbox.take count ++ link.client.inbox.drop count := by
    rw [append_assoc, take_append_drop]
  have whole {frame : Frame} (read : readFrame (got ++ link.client.inbox.take count) =
        .frame frame) :
      link.server.written = encodeAll (link.client.heard ++ [frame]) ++ [] ++
        link.client.inbox.drop count := by
    obtain ⟨_, left, equal, head⟩ := eq_encode_of_readFrame read
    have short : (link.client.inbox.take count).length ≤ wanted got :=
      (length_take_le _ _).trans asked
    rw [no_bytes_behind incomplete short head, append_nil] at equal
    rw [down, encodeAll_append, encodeAll_cons, encodeAll_nil,
      append_nil, append_nil, ← equal, append_assoc,
      append_assoc]
    exact congrArg (encodeAll link.client.heard ++ ·) split
  have partly : link.server.written = encodeAll link.client.heard ++
      (got ++ link.client.inbox.take count) ++ link.client.inbox.drop count := by
    rw [down, append_assoc, append_assoc]
    exact congrArg (encodeAll link.client.heard ++ ·) split
  cases received with
  | incomplete more => exact ⟨up, partly, fun _ => readHead_of_incomplete more⟩
  | failed => exact ⟨up, partly, nofun⟩
  | rejected read => exact ⟨up, whole read, nofun⟩
  | result read own decoded => exact ⟨up, whole read, fun _ => rfl⟩

theorem Wired.deliver (wired : link.Wired) {label server} (allowed : link.allows label = true)
    (moved : link.server.Move label server) : (link.deliver server).Wired := by
  obtain ⟨arrived, rest, written⟩ := move_bytes moved fun bytes own => by
    rw [own] at allowed
    cases allowed
  refine ⟨?_, ?_, wired.reading⟩
  · change server.arrived ++ _ = _
    rw [arrived]
    exact wired.up
  · change server.written = _ ++ _ ++ (_ ++ server.written.drop link.server.written.length)
    rw [← written, drop_left, wired.down]
    simp only [append_assoc, Link.deliver]

theorem Wired.move (wired : link.Wired) (move : link.Move target) : target.Wired := by
  cases move with
  | client done => exact wired.client (Client.move_of_next done)
  | write opened =>
    refine ⟨?_, wired.down, wired.reading⟩
    rw [append_assoc, take_append_drop]
    exact wired.up
  | read phase running asked available =>
    exact wired.receive phase running asked (Client.received _ _ _ _)
  | hangUp ended => exact ⟨wired.up, wired.down, wired.reading⟩
  | server allowed moved => exact wired.deliver allowed moved

end Link

end GraphZero.Connection
