import GraphZero.Connection.Client

/-!
# What a step of the client does

Every step is one of a few moves; the parts that writing and leasing have in
common are said here once.
-/

namespace GraphZero.Connection

open Engine Foundation Orchestrator Evaluator

namespace Client

variable {client target : Client}

/-- An episode has its model, from a lease that it holds or takes. -/
inductive Ensured (client : Client) (episodeId : UInt64) : ModelGeneration → Client → Prop
  | held {model} (member : (episodeId, model) ∈ client.modelLeases) :
    Ensured client episodeId model client
  | acquired {acquired} (absent : episodeId ∉ client.modelLeases.map (·.1))
    (done : client.run.registry.acquireCurrent = some acquired) :
    Ensured client episodeId acquired.1 { client with
      run := client.run.afterAcquire acquired
      modelLeases := (episodeId, acquired.1) :: client.modelLeases }

theorem ensured_of_ensure {episodeId ensured} (done : client.ensure episodeId = some ensured) :
    client.Ensured episodeId ensured.1 ensured.2 := by
  unfold ensure at done
  split at done
  · next lease found =>
    cases done
    have own := List.find?_some found
    rw [decide_eq_true_eq] at own
    exact .held (own ▸ List.mem_of_find?_eq_some found)
  next absent =>
  obtain ⟨acquired, taken, rfl⟩ := Option.map_eq_some_iff.mp done
  refine .acquired (fun member => ?_) taken
  obtain ⟨lease, member, own⟩ := List.mem_map.mp member
  exact List.find?_eq_none.mp absent lease member (decide_eq_true own)

theorem write_eq_some {frame} (begun : client.write frame = some target) :
    frame.Admitted ∧ target = { client with
      sent := client.sent ++ [frame], outgoing := frame.encode } := by
  unfold write at begun
  split at begun
  · cases begun
  · next fits =>
    cases begun
    exact ⟨Nat.not_lt.mp fits, rfl⟩

/-! ## Steps -/

inductive Move (client : Client) : Client → Prop
  | skip : Move client client
  | ensure {episodeId model ensured} (done : client.Ensured episodeId model ensured)
    : Move client ensured
  | sendParked {episodeId model ensured} (done : client.Ensured episodeId model ensured) :
    Move client { ensured with
      intake := ensured.intake ++ [⟨episodeId, model⟩] }
  | releaseLease {lease registry} (member : lease ∈ client.modelLeases)
    (idle : ∀ job ∈ client.awaited, job.episodeId ≠ lease.1)
    (done : client.run.registry.drop lease.2 = some registry) :
    Move client { client with
      run := client.run.afterDrop lease.2 registry
      modelLeases := client.modelLeases.erase lease }
  | takeReleasable (free : client.free = true)
    (phase : client.phase = .collecting) :
    Move client { client with
      run := client.run.takeReleasable
      phase := .releasing client.run.registry.takeReleasable.1 }
  | released (phase : client.phase = .releasing []) :
    Move client { client with phase := .collecting }
  | release {model models} (free : client.free = true)
    (phase : client.phase = .releasing (model :: models))
    (superseded : model ≠ client.modelGeneration) (admitted : (releaseFrame model).Admitted) :
    Move client { client with
      sent := client.sent ++ [releaseFrame model]
      outgoing := (releaseFrame model).encode
      phase := .releasing models }
  | activeRelease {models} (phase : client.phase = .releasing (client.modelGeneration :: models)) :
    Move client (client.fail .activeRelease)
  | submit {bytes first jobs kept} (free : client.free = true) (phase : client.phase = .collecting)
    (room : client.inFlight.length < evalPipelineDepth)
    (oneModel : ∀ job ∈ first :: jobs, job.model = first.model)
    (split : client.intake.Perm (first :: jobs ++ kept))
    (admitted : (evalFrame ⟨client.batchId, first.model, bytes, first :: jobs⟩).Admitted) :
    Move client { client with
      sent := client.sent ++ [evalFrame ⟨client.batchId, first.model, bytes, first :: jobs⟩]
      outgoing := (evalFrame ⟨client.batchId, first.model, bytes, first :: jobs⟩).encode
      intake := kept
      batchId := client.batchId + 1
      inFlight := client.inFlight ++ [⟨client.batchId, first.model, bytes, first :: jobs⟩] }
  | drainOldest {batch inFlight} (free : client.free = true) (phase : client.phase = .collecting)
    (queue : client.inFlight = batch :: inFlight) :
    Move client { client with inFlight, phase := .receiving batch [] }
  | published {batch active registry} (phase : client.phase = .publishing batch active)
    (done : client.run.registry.publish active = .ok registry) :
    Move client { client with
      run := client.run.afterPublish active registry, phase := .collecting }
  | unpublished {batch active error} (phase : client.phase = .publishing batch active)
    (refused : client.run.registry.publish active = .error error) :
    Move client (client.fail (.registry error))
  | stop : Move client (client.fail .stopped)

theorem move_of_next {label} (done : client.next label = some target) : client.Move target := by
  cases label with
  | ensure episodeId =>
    obtain ⟨ensured, taken, rfl⟩ := Option.map_eq_some_iff.mp done
    exact .ensure (ensured_of_ensure taken)
  | sendParked episodeId =>
    obtain ⟨ensured, taken, rfl⟩ := Option.map_eq_some_iff.mp done
    exact .sendParked (ensured_of_ensure taken)
  | releaseLease episodeId =>
    dsimp only [next] at done
    split at done
    · next idle =>
      unfold Client.releaseLease at done
      split at done
      · cases done
        exact .skip
      next lease found =>
      obtain ⟨registry, dropped, rfl⟩ := Option.map_eq_some_iff.mp done
      have own := List.find?_some found
      rw [decide_eq_true_eq] at own
      exact .releaseLease (List.mem_of_find?_eq_some found) (own ▸ idle) dropped
    · cases done
  | takeReleasable =>
    dsimp only [next] at done
    split at done
    · next possible =>
      cases done
      exact .takeReleasable possible.1 possible.2
    · cases done
  | release =>
    dsimp only [next] at done
    split at done
    · next phase =>
      cases done
      exact .released phase
    · next model models phase =>
      split at done
      · next free =>
        cases done
        unfold releaseModelGeneration
        split
        · next same =>
          subst same
          exact .activeRelease phase
        next superseded =>
        split
        · exact .stop
        · next begun =>
          obtain ⟨admitted, rfl⟩ := write_eq_some begun
          exact .release free phase superseded admitted
      · cases done
    · cases done
  | submit bytes jobs kept =>
    dsimp only [next] at done
    split at done
    · cases done
    next first jobs =>
    split at done
    · next possible =>
      obtain ⟨free, phase, room, oneModel, split⟩ := possible
      cases done
      unfold Client.submit
      split
      · exact .stop
      · next begun =>
        obtain ⟨admitted, rfl⟩ := write_eq_some begun
        exact .submit free phase room oneModel split admitted
    · cases done
  | drainOldest =>
    dsimp only [next] at done
    split at done
    · cases done
    next batch inFlight queue =>
    split at done
    · next possible =>
      cases done
      exact .drainOldest possible.1 possible.2 queue
    · cases done
  | publish =>
    dsimp only [next] at done
    split at done
    · next batch active phase =>
      split at done
      · cases done
        unfold Client.publish
        split
        · next refused => exact .unpublished phase refused
        · next published => exact .published phase published
      · cases done
    · cases done
  | stop =>
    cases done
    exact .stop

theorem free_iff : client.free = true ↔ client.failure = none ∧ client.outgoing = [] :=
  decide_eq_true_iff

/-- What more bytes of a frame lead to. -/
inductive Received (client : Client) (batch : Batch) (got : List UInt8)
    (count : Nat) : Client → Prop
  | incomplete
    (more : readFrame (got ++ client.inbox.take count) = .incomplete) :
    Received client batch got count { client with
      inbox := client.inbox.drop count
      phase := .receiving batch (got ++ client.inbox.take count) }
  | failed : Received client batch got count { client with
    inbox := client.inbox.drop count
    phase := .receiving batch (got ++ client.inbox.take count)
    failure := some .stopped }
  | rejected {frame} (whole : readFrame (got ++ client.inbox.take count) = .frame frame) :
    Received client batch got count { client with
      inbox := client.inbox.drop count
      heard := client.heard ++ [frame]
      phase := .receiving batch []
      failure := some .stopped }
  | result {frame active} (whole : readFrame (got ++ client.inbox.take count) = .frame frame)
    (own : frame.frameType = .evalResult)
    (decoded : decodeEvalResult frame.payload batch = some active) :
    Received client batch got count { client with
      inbox := client.inbox.drop count
      heard := client.heard ++ [frame]
      modelGeneration := active
      phase := .publishing batch active }

theorem received (client : Client) (batch : Batch) (got : List UInt8) (count : Nat) :
    Received client batch got count (client.receive batch got count) := by
  unfold receive
  dsimp only
  split
  · next more => exact .incomplete more
  · exact .failed
  next frame whole =>
  unfold receiveReply
  split
  · next own =>
    split
    · exact .rejected whole
    · next active decoded => exact .result whole own decoded
  · exact .rejected whole

end Client

end GraphZero.Connection
