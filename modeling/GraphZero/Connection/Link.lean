import GraphZero.Connection.Client
import GraphZero.Evaluator.Pipeline

/-!
# The connection of a client with its evaluator

Bytes leave one side in order and arrive at the other in order, in pieces of
any size.  The socket of the server holds what the client has not read, up to
a limit.
-/

namespace GraphZero.Connection

open Engine Foundation Orchestrator Evaluator

structure Link where
  client : Client
  server : Server
  /-- How many bytes the socket of the server takes before they are read. -/
  sendBuffer : Nat

namespace Link

inductive Label where
  | client (label : Client.Label)
  /-- The socket takes bytes that the client writes. -/
  | write (count : Nat)
  | read (count : Nat)
  | hangUp
  | server (label : Server.Label)

/-- What reaches the server comes from the client, and what it writes has to
fit into its socket. -/
def allows (link : Link) : Server.Label → Bool
  | .arrive _ | .close => false
  | .send count => link.client.inbox.length + count ≤ link.sendBuffer
  | _ => true

/-- The server has become `server`, and what it has written arrives. -/
def deliver (link : Link) (server : Server) : Link :=
  { link with
    server
    client := { link.client with
      inbox := link.client.inbox ++ server.written.drop link.server.written.length } }

def next (link : Link) : Label → Option Link
  | .client label => (link.client.next label).map fun client => { link with client }
  | .write count =>
    if link.client.failure = none ∧ 0 < count ∧ count ≤ link.client.outgoing.length then
      (link.server.next (.arrive (link.client.outgoing.take count))).map
        fun server => { link with
          server
          client := { link.client with
            outgoing := link.client.outgoing.drop count } }
    else none
  | .read count =>
    match link.client.phase with
    | .receiving batch got =>
      if link.client.failure = none ∧ 0 < count ∧ count ≤ wanted got ∧
          count ≤ link.client.inbox.length then
        some { link with client := link.client.receive batch got count }
      else none
    | _ => none
  | .hangUp =>
    if link.client.failure = none then none
    else (link.server.next .close).map fun server => { link with server }
  | .server label =>
    if link.allows label then
      (link.server.next label).map link.deliver
    else none

/-- The client knows the model that the handshake names, and has room for as
many models as the evaluator. -/
def Started (link : Link) : Prop :=
  ∃ backend hello achieved limit slot registry,
    Residency.new limit slot = .ok backend.residency ∧
      TorchBackend.serve backend hello achieved = .ok link.server ∧
      ModelLeaseRegistry.new ⟨UInt64.ofNat backend.residency.activeGeneration,
          backend.residency.active.modelVersion⟩
        registry.maxResidentGenerations = .ok registry ∧
      limit ≤ registry.maxResidentGenerations ∧
      link.client = .start registry ∧ achieved ≤ link.sendBuffer

end Link

/-- Every interleaving of lanes, batcher, serving loop, loading thread and
sockets. -/
def linkSystem : TransitionSystem Link Link.Label where
  initial := Link.Started
  step link label next := link.next label = some next

namespace Link

/-! ## What a step does -/

/-- A step of one side, or bytes from one side to the other. -/
inductive Move (link : Link) : Link → Prop
  | client {label client} (done : link.client.next label = some client) :
    Move link { link with client }
  | write {count} (opened : link.server.closed = false) :
    Move link { link with
      server := { link.server with
        inbox := link.server.inbox ++ link.client.outgoing.take count
        arrived := link.server.arrived ++ link.client.outgoing.take count }
      client := { link.client with
        outgoing := link.client.outgoing.drop count } }
  | read {batch got count} (phase : link.client.phase = .receiving batch got)
    (running : link.client.failure = none) (asked : count ≤ wanted got)
    (available : count ≤ link.client.inbox.length) :
    Move link { link with client := link.client.receive batch got count }
  | hangUp (ended : link.client.failure ≠ none) :
    Move link { link with server := { link.server with closed := true } }
  | server {label server} (allowed : link.allows label = true)
    (moved : link.server.Move label server) :
    Move link (link.deliver server)

theorem move_of_next {link target : Link} {label} (done : link.next label = some target) :
    link.Move target := by
  cases label with
  | client label =>
    obtain ⟨client, stepped, rfl⟩ := Option.map_eq_some_iff.mp done
    exact .client stepped
  | write count =>
    dsimp only [next] at done
    split at done
    · obtain ⟨server, arrived, rfl⟩ := Option.map_eq_some_iff.mp done
      dsimp only [Server.next] at arrived
      split at arrived
      · cases arrived
      · next opened =>
        cases arrived
        exact .write (Bool.not_eq_true _ ▸ opened)
    · cases done
  | read count =>
    dsimp only [next] at done
    split at done
    · next batch got phase =>
      split at done
      · next possible =>
        cases done
        exact .read phase possible.1 possible.2.2.1 possible.2.2.2
      · cases done
    · cases done
  | hangUp =>
    dsimp only [next] at done
    split at done
    · cases done
    · next ended =>
      cases done
      exact .hangUp ended
  | server label =>
    dsimp only [next] at done
    split at done
    · next allowed =>
      obtain ⟨server, moved, rfl⟩ := Option.map_eq_some_iff.mp done
      exact .server allowed (Server.move_of_next moved)
    · cases done

theorem server_step {link target : Link} {label} (done : link.next label = some target) :
    target.server = link.server ∨ ∃ label, link.server.next label = some target.server := by
  cases label with
  | client label =>
    obtain ⟨client, stepped, rfl⟩ := Option.map_eq_some_iff.mp done
    exact .inl rfl
  | write count =>
    dsimp only [next] at done
    split at done
    · obtain ⟨server, arrived, rfl⟩ := Option.map_eq_some_iff.mp done
      exact .inr ⟨_, arrived⟩
    · cases done
  | read count =>
    dsimp only [next] at done
    split at done
    · split at done
      · cases done
        exact .inl rfl
      · cases done
    · cases done
  | hangUp =>
    dsimp only [next] at done
    split at done
    · cases done
    · obtain ⟨server, closed, rfl⟩ := Option.map_eq_some_iff.mp done
      exact .inr ⟨_, closed⟩
  | server label =>
    dsimp only [next] at done
    split at done
    · obtain ⟨server, moved, rfl⟩ := Option.map_eq_some_iff.mp done
      exact .inr ⟨_, moved⟩
    · cases done

theorem server_reachable {link : Link} (reachable : linkSystem.Reachable link) :
    evaluatorSystem.Reachable link.server := by
  refine @TransitionSystem.Reachable.invariant _ _ _
    (fun link : Link => evaluatorSystem.Reachable link.server) link reachable
    (fun link started => ?_) fun link label target before done => ?_
  · obtain ⟨backend, hello, achieved, limit, slot, registry, made, served, _⟩ := started
    exact ⟨_, ⟨backend, hello, achieved, limit, slot, made, served⟩,
      TransitionSystem.Reaches.refl _⟩
  · rcases server_step done with same | ⟨label, step⟩
    · exact same ▸ before
    · obtain ⟨start, started, reaches⟩ := before
      exact ⟨start, started, reaches.step step⟩

end Link

end GraphZero.Connection
