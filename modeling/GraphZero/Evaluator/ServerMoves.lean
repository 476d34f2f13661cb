import GraphZero.Evaluator.Residency
import GraphZero.Evaluator.Server

/-!
# What a step of the serving loop does

Every step is one of a few moves, and each part of a move is said here once.
-/

namespace GraphZero.Evaluator

open Engine Foundation Features

inductive LoaderMove : Residency → Residency → Prop
  | resolve {residency next manifest} (done : residency.resolve manifest = some next) :
    LoaderMove residency next
  | claim {residency next} (done : residency.claim = some next) :
    LoaderMove residency next
  | refuse {residency next} (done : residency.refuse = some next) : LoaderMove residency next
  | publish {residency next runner} (done : residency.publish runner = some next) :
    LoaderMove residency next

theorem LoaderMove.eq {residency next} (move : LoaderMove residency next) :
    ∃ pending loadingVersion loggedRejections loader, next = { residency with
        pending, loadingVersion, loggedRejections, loader } := by
  cases move with
  | resolve done =>
    unfold Residency.resolve at done
    split at done
    · split at done
      · cases done
      · cases done
        exact ⟨_, _, _, _, rfl⟩
    · cases done
  | claim done =>
    unfold Residency.claim at done
    split at done
    · injection done with done
      subst done
      split
      · exact ⟨_, _, _, _, rfl⟩
      · exact ⟨_, _, _, _, rfl⟩
    · cases done
  | refuse done =>
    unfold Residency.refuse at done
    split at done
    · cases done
      exact ⟨_, _, _, _, rfl⟩
    · cases done
  | publish done =>
    unfold Residency.publish at done
    split at done
    · split at done
      · cases done
        exact ⟨_, _, _, _, rfl⟩
      · cases done
    · cases done

theorem LoaderMove.sound {residency next} (move : LoaderMove residency next)
    (sound : residency.Sound) :
    next.Sound := by
  cases move with
  | resolve done => exact sound.resolve done
  | claim done => exact sound.claim done
  | refuse done => exact sound.refuse done
  | publish done => exact sound.publish done

namespace Server

/-- The phases in which the oldest batch is finished. -/
inductive Flushes (server : Server) : Prop
  | polling (phase : server.phase = .polling) (full : server.holds = false)
  | draining {payload} (phase : server.phase = .draining payload)
  | staging {request} (phase : server.phase = .staging request)
    (full : ¬ server.pending.length < pipelineDepth)

/-- The steps of the loading thread. -/
def Label.Loads : Label → Prop
  | .resolve _ | .claim | .refuse | .publish _ => True
  | _ => False

inductive Move (server : Server) : Label → Server → Prop
  | arrive (bytes : List UInt8) (opened : server.closed = false) :
    Move server (.arrive bytes) { server with
      inbox := server.inbox ++ bytes, arrived := server.arrived ++ bytes }
  | close : Move server .close { server with closed := true }
  | hold (phase : server.phase = .polling) (unfinished : server.pending ≠ [])
    (holds : server.holds = true) :
    Move server .hold { server with phase := .reading [] }
  | proceed (phase : server.phase = .polling)
    (finished : server.pending = []) :
    Move server .proceed { server with phase := .reading [] }
  | flush {target} (flushes : server.Flushes) (done : server.flushOldest server.phase = some target)
    :
    Move server .flush target
  | receive {bytes count} (phase : server.phase = .reading bytes) (some : 0 < count)
    (asked : count ≤ wanted bytes) (available : count ≤ server.inbox.length) :
    Move server (.receive count) (server.receive bytes count)
  | endOfFile {bytes} (phase : server.phase = .reading bytes) (nothing : server.inbox = [])
    (closed : server.closed = true) :
    Move server .endOfFile (server.fail (protocolError .malformed "unexpected eof"))
  | passSwap {request} (phase : server.phase = .serving request)
    (nothing : server.residency.pending = none) :
    Move server .swap { server with
      residency := server.residency.takePending.2
      phase := .staging request }
  | swap {request slot} (phase : server.phase = .serving request)
    (waiting : server.residency.pending = some slot) :
    Move server .swap { server with
      residency := server.residency.takePending.2
      phase := .adopting request slot }
  | adopt {request slot} (phase : server.phase = .adopting request slot) :
    Move server .adopt { server with
      residency := server.residency.adopt slot
      adopted := server.adopted ++ [slot]
      phase := .staging request }
  | abandon {request slot} (phase : server.phase = .adopting request slot) :
    Move server .abandon { server with
      residency := server.residency.abandon slot
      phase := .staging request }
  | stage {request} (phase : server.phase = .staging request)
    (room : server.pending.length < pipelineDepth) :
    Move server .stage (server.stageAndLaunch request)
  | pong {payload} (phase : server.phase = .draining payload) (finished : server.pending = []) :
    Move server .pong (server.handlePing payload)
  | send {rest next count} (phase : server.phase = .sending rest next) (some : 0 < count)
    (part : count < rest.length) :
    Move server (.send count) { server with
      written := server.written ++ rest.take count
      phase := .sending (rest.drop count) next }
  | sent {rest next} (phase : server.phase = .sending rest next) (some : rest ≠ []) :
    Move server (.send rest.length) { server with
      written := server.written ++ rest
      phase := next }
  | compute {staging} (done : server.staging.compute = some staging) :
    Move server .compute { server with staging }
  | load {label residency} (own : label.Loads) (done : LoaderMove server.residency residency) :
    Move server label { server with residency }

section Labels

variable {server target : Server} {label : Label}

theorem move_of_polling (kind : label = .hold ∨ label = .proceed ∨ label = .flush)
    (done : server.next label = some target) : server.Move label target := by
  rcases kind with rfl | rfl | rfl
  · dsimp only [next] at done
    split at done
    · next phase =>
      split at done
      · next open_ =>
        cases done
        exact .hold phase open_.1 open_.2
      · cases done
    · cases done
  · dsimp only [next] at done
    split at done
    · next phase =>
      split at done
      · next finished =>
        cases done
        exact .proceed phase finished
      · cases done
    · cases done
  · dsimp only [next] at done
    split at done
    · next phase =>
      split at done
      · cases done
      · next full =>
        rw [Bool.not_eq_true] at full
        exact .flush (.polling phase full) (phase ▸ done)
    · next phase => exact .flush (.draining phase) (phase ▸ done)
    · next phase =>
      split at done
      · cases done
      · next full => exact .flush (.staging phase full) (phase ▸ done)
    · cases done

theorem move_of_reading {count} (kind : label = .receive count ∨ label = .endOfFile)
    (done : server.next label = some target) : server.Move label target := by
  rcases kind with rfl | rfl
  · dsimp only [next] at done
    split at done
    · next phase =>
      split at done
      · next possible =>
        cases done
        exact .receive phase possible.1 possible.2.1 possible.2.2
      · cases done
    · cases done
  · dsimp only [next] at done
    split at done
    · next phase =>
      split at done
      · next halted =>
        cases done
        exact .endOfFile phase halted.1 halted.2
      · cases done
    · cases done

theorem move_of_serving (kind : label = .swap ∨ label = .adopt ∨ label = .abandon ∨ label = .stage)
    (done : server.next label = some target) : server.Move label target := by
  rcases kind with rfl | rfl | rfl | rfl
  · dsimp only [next] at done
    split at done
    · next request phase =>
      cases waiting : server.residency.pending with
      | none =>
        unfold Residency.takePending at done
        rw [waiting] at done
        cases done
        have taken := Move.passSwap phase waiting
        unfold Residency.takePending at taken
        rw [waiting] at taken
        exact taken
      | some slot =>
        unfold Residency.takePending at done
        rw [waiting] at done
        cases done
        have taken := Move.swap phase waiting
        unfold Residency.takePending at taken
        rw [waiting] at taken
        exact taken
    · cases done
  · dsimp only [next] at done
    split at done
    · next phase =>
      cases done
      exact .adopt phase
    · cases done
  · dsimp only [next] at done
    split at done
    · next phase =>
      cases done
      exact .abandon phase
    · cases done
  · dsimp only [next] at done
    split at done
    · next phase =>
      split at done
      · next room =>
        cases done
        exact .stage phase room
      · cases done
    · cases done

theorem move_of_writing {count} (kind : label = .pong ∨ label = .send count)
    (done : server.next label = some target) : server.Move label target := by
  rcases kind with rfl | rfl
  · dsimp only [next] at done
    split at done
    · next phase =>
      split at done
      · next finished =>
        cases done
        exact .pong phase finished
      · cases done
    · cases done
  · dsimp only [next] at done
    split at done
    · next rest next phase =>
      split at done
      · next possible =>
        cases done
        split
        · next whole =>
          rw [whole, List.take_length]
          refine .sent phase ?_
          rw [← List.length_pos_iff, ← whole]
          exact possible.1
        · exact .send phase possible.1 (by omega)
      · cases done
    · cases done

theorem move_of_next (done : server.next label = some target) : server.Move label target := by
  cases label with
  | arrive bytes =>
    dsimp only [next] at done
    split at done
    · cases done
    · next opened =>
      cases done
      exact .arrive bytes (Bool.not_eq_true _ ▸ opened)
  | close =>
    cases done
    exact .close
  | hold => exact move_of_polling (by simp) done
  | proceed => exact move_of_polling (by simp) done
  | flush => exact move_of_polling (by simp) done
  | receive count => exact move_of_reading (.inl rfl) done
  | endOfFile => exact @move_of_reading _ _ _ 0 (.inr rfl) done
  | swap => exact move_of_serving (by simp) done
  | adopt => exact move_of_serving (by simp) done
  | abandon => exact move_of_serving (by simp) done
  | stage => exact move_of_serving (by simp) done
  | pong => exact @move_of_writing _ _ _ 0 (.inl rfl) done
  | send count => exact move_of_writing (.inr rfl) done
  | compute =>
    obtain ⟨staging, computed, rfl⟩ := Option.map_eq_some_iff.mp done
    exact .compute computed
  | resolve manifest =>
    obtain ⟨residency, moved, rfl⟩ := Option.map_eq_some_iff.mp done
    exact .load trivial (.resolve moved)
  | claim =>
    obtain ⟨residency, moved, rfl⟩ := Option.map_eq_some_iff.mp done
    exact .load trivial (.claim moved)
  | refuse =>
    obtain ⟨residency, moved, rfl⟩ := Option.map_eq_some_iff.mp done
    exact .load trivial (.refuse moved)
  | publish runner =>
    obtain ⟨residency, moved, rfl⟩ := Option.map_eq_some_iff.mp done
    exact .load trivial (.publish moved)

end Labels

theorem flushOldest_eq_some {server target : Server} {next}
    (done : server.flushOldest next = some target) :
    ∃ outstanding rest result, server.pending = outstanding :: rest ∧
      server.staging.finish outstanding.handle = some result ∧
      ((∃ error, target = server.fail error) ∨
        ∃ payload frame, frame = evalResult outstanding.batchId
            outstanding.handle.modelVersion server.residency.modelGeneration
            payload ∧
          result = .ok payload ∧
          server.residency.activeGeneration < 2 ^ 64 ∧ frame.Admitted ∧
          target = reply
            { server with
              pending := rest
              announced := server.announced ++ [server.residency.modelGeneration] }
            frame next) := by
  unfold flushOldest at done
  split at done
  · cases done
  next outstanding rest queue =>
  split at done
  · cases done
  next result finished =>
  refine ⟨outstanding, rest, result, queue, finished, ?_⟩
  split at done
  · next error _ =>
    cases done
    exact .inl ⟨error, rfl⟩
  next frame answered =>
  cases done
  obtain ⟨payload, encoded, answered⟩ := ok_of_bind answered
  unfold answer at answered
  dsimp only at answered
  split at answered
  · cases answered
  next small =>
  unfold writeFrame at answered
  split at answered
  · cases answered
  next fits =>
  cases answered
  exact .inr ⟨payload, _, rfl, encoded, Nat.not_le.mp small, Nat.not_lt.mp fits, rfl⟩

/-- What becomes of a frame that was read. -/
inductive Dispatched (server : Server) (frame : Frame) : Server → Prop
  | ping (own : frame.frameType = .ping) :
    Dispatched server frame { server with
      requests := server.requests ++ [frame]
      phase := .draining frame.payload }
  | eval {request} (own : frame.frameType = .eval)
    (parsed : parseEval server.state frame.payload = .ok request) :
    Dispatched server frame { server with
      requests := server.requests ++ [frame]
      phase := .serving request }
  | release {residency} (own : frame.frameType = .modelRelease)
    (done : handleModelRelease server.residency frame.payload = .ok residency) :
    Dispatched server frame { server with
      requests := server.requests ++ [frame]
      residency
      phase := .polling }
  | failed {error}
    (reason : (∃ error, frame.frameType = .eval ∧
        parseEval server.state frame.payload = .error error) ∨
      (∃ error, frame.frameType = .modelRelease ∧
        handleModelRelease server.residency frame.payload = .error error) ∨
      frame.frameType ∉ [.ping, .eval, .modelRelease]) :
    Dispatched server frame (fail { server with requests := server.requests ++ [frame] } error)

theorem dispatched (server : Server) (frame : Frame) :
    Dispatched server frame (server.dispatch frame) := by
  unfold dispatch
  dsimp only
  split
  · next own => exact .ping own
  · next own =>
    split
    · next parsed => exact .eval own parsed
    · next error parsed => exact .failed (.inl ⟨error, own, parsed⟩)
  · next own =>
    split
    · next done => exact .release own done
    · next error done => exact .failed (.inr (.inl ⟨error, own, done⟩))
  · next notPing notEval notRelease =>
    refine .failed (.inr (.inr ?_))
    simp only [List.mem_cons, List.not_mem_nil, or_false, not_or]
    exact ⟨notPing, notEval, notRelease⟩

/-- What more bytes of a frame lead to. -/
inductive Received (server : Server) (bytes : List UInt8) (count : Nat) : Server → Prop
  | incomplete
    (more : readFrame (bytes ++ server.inbox.take count) = .incomplete) :
    Received server bytes count { server.taking count with
      phase := .reading (bytes ++ server.inbox.take count) }
  | failed {error} (wrong : readFrame (bytes ++ server.inbox.take count) = .failed error) :
    Received server bytes count ((server.taking count).fail error)
  | frame {frame target} (whole : readFrame (bytes ++ server.inbox.take count) = .frame frame)
    (dispatched : Dispatched (server.taking count) frame target) :
    Received server bytes count target

theorem received (server : Server) (bytes : List UInt8) (count : Nat) :
    Received server bytes count (server.receive bytes count) := by
  unfold receive
  dsimp only
  split
  · next more => exact .incomplete more
  · next wrong => exact .failed wrong
  · next frame whole => exact .frame whole (dispatched _ frame)

/-- Staging fails, or the batch is launched. -/
inductive Launched (server : Server) (request : EvalRequest) : Server → Prop
  | failed {error}
    (wrong : server.staging.stage server.residency request.view
      request.modelVersion = .error error) :
    Launched server request (server.fail error)
  | launched {staged staging}
    (done : server.staging.stage server.residency request.view
      request.modelVersion = .ok (staged, staging)) :
    Launched server request { server with
      staging := (staging.launch staged).2
      pending := server.pending ++
        [⟨request.batchId, (staging.launch staged).1, staged, request.view⟩]
      phase := .polling }

theorem launched (server : Server) (request : EvalRequest) :
    Launched server request (server.stageAndLaunch request) := by
  unfold stageAndLaunch
  split
  · next error wrong => exact .failed wrong
  · next done => exact .launched done

theorem handlePing_eq (server : Server) (payload : List UInt8) :
    (∃ error, server.handlePing payload = server.fail error) ∨ (payload.length = 8 ∧
        server.handlePing payload = server.reply ⟨.pong, payload⟩ .polling) := by
  by_cases whole : payload.length = 8
  · exact .inr ⟨whole, if_neg (not_not.mpr whole)⟩
  · exact .inl ⟨_, if_pos whole⟩

end Server

end GraphZero.Evaluator
