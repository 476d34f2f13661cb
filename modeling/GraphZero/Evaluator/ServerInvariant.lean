import GraphZero.Evaluator.ServerMoves

/-!
# The invariant of the serving loop

The models are in order, the unfinished batches have buffers of their own, and
there is room for the next batch whenever a request is read.
-/

namespace GraphZero.Evaluator

open Engine Foundation Features List

/-- The version of the model that is being adopted. -/
def Phase.adoptingVersion : Phase → Option ModelVersion
  | .adopting _ slot => some slot.modelVersion
  | _ => none

def Phase.Resumes : Phase → Prop
  | .polling | .draining _ => True
  | _ => False

/-- The phases of a connection that has failed. -/
def Phase.Over : Phase → Prop
  | .ended | .sending _ .ended => True
  | _ => False

theorem Phase.Resumes.not_over {next} (resumes : next.Resumes) (rest : List UInt8) :
    ¬ (Phase.sending rest next).Over := by
  cases next with
  | polling => exact id
  | draining payload => exact id
  | _ => exact absurd resumes id

/-- What the loop relies on in a phase, with so many batches unfinished. -/
def Phase.Fits (unfinished : Nat) (readable : Bool) : Phase → Prop
  | .reading bytes =>
    readHead maxFrame bytes = .incomplete ∧ unfinished < pipelineDepth ∧
      (unfinished = 0 ∨ bytes ≠ [] ∨ readable = true)
  | .serving _ | .adopting _ _ | .staging _ => unfinished < pipelineDepth
  | .sending rest next => rest ≠ [] ∧ (next.Resumes ∨ next = .ended)
  | _ => True

theorem Phase.Fits.mono {phase : Phase} {unfinished fewer readable more}
    (fits : phase.Fits unfinished readable) (le : fewer ≤ unfinished)
    (still : readable = true → more = true) :
    phase.Fits fewer more := by
  cases phase with
  | reading bytes =>
    obtain ⟨incomplete, room, reason⟩ := fits
    refine ⟨incomplete, by omega, reason.imp (by omega) ?_⟩
    exact Or.imp_right still
  | serving request => exact Nat.lt_of_le_of_lt le fits
  | adopting request slot => exact Nat.lt_of_le_of_lt le fits
  | staging request => exact Nat.lt_of_le_of_lt le fits
  | sending rest next => exact fits
  | polling => trivial
  | draining payload => trivial
  | ended => trivial

namespace Server

structure Sound (server : Server) : Prop where
  residency : server.residency.Sound
  adopting : server.residency.adoptingVersion = server.phase.adoptingVersion
  staging : server.failure = none → server.staging.Sound server.pending
  fits : server.phase.Fits server.pending.length server.readable
  halted : server.failure ≠ none ↔ server.phase.Over
  /-- Nothing is unfinished once the connection has failed. -/
  dropped : server.failure ≠ none → server.pending = []

variable {server target : Server} {label : Label}

theorem handshake_eq_ok {backend next : TorchBackend} {hello}
    (done : backend.handshake hello = .ok next) :
    hello.featureSchemaHash = backend.residency.active.manifest.featureSchema.hash ∧
      next = { backend with
        residency := { backend.residency with
          engineIdentity := some hello.engineIdentity } } := by
  unfold TorchBackend.handshake at done
  obtain ⟨same, done⟩ := ok_of_guard done
  obtain ⟨_, done⟩ := ok_of_guard done
  obtain ⟨_, done⟩ := ok_of_guard done
  obtain ⟨_, done⟩ := ok_of_guard done
  cases done
  exact ⟨not_not.mp same, rfl⟩

theorem serve_eq_ok {backend : TorchBackend} {hello achieved}
    (served : backend.serve hello achieved = .ok server) :
    ∃ residency, residency = { backend.residency with
        engineIdentity := some hello.engineIdentity } ∧
      hello.featureSchemaHash = residency.active.manifest.featureSchema.hash ∧
      hello.batchCapacity ≠ 0 ∧
      residency.activeGeneration < 2 ^ 64 ∧
      replyFrames hello.batchCapacity
        residency.active.manifest.featureSchema.config.maxActions.toNat ≤ achieved ∧
      server = {
        state := ⟨hello.featureSchemaHash, hello.batchCapacity⟩
        residency
        staging := {
          schema := residency.active.manifest.featureSchema.config
          capacity := hello.batchCapacity
          cuda := backend.cuda
          stagers := backend.stagers
          stageIndex := 0
          hostSlots := backend.hostSlots
          slotIndex := 0
          stream := []
          encoder := none }
        inbox := []
        closed := false
        pending := []
        phase := .polling
        requests := []
        replies := []
        arrived := []
        written := []
        announced := [residency.modelGeneration]
        adopted := [residency.active]
        failure := none } := by
  unfold TorchBackend.serve at served
  obtain ⟨_, served⟩ := ok_of_guard served
  obtain ⟨_, served⟩ := ok_of_guard served
  obtain ⟨pos, served⟩ := ok_of_guard served
  obtain ⟨next, handshake, served⟩ := ok_of_bind served
  obtain ⟨valid, served⟩ := ok_of_guard served
  obtain ⟨⟨⟩, enough, served⟩ := ok_of_bind served
  obtain ⟨same, rfl⟩ := handshake_eq_ok handshake
  cases served
  refine ⟨_, rfl, same, pos, ?_, ?_, rfl⟩
  · rw [not_or] at valid
    exact Nat.not_le.mp valid.2
  · unfold ensureReplySendBuffer at enough
    split at enough
    · cases enough
    · next room => exact Nat.not_lt.mp room

theorem sound_of_started (started : server.Started) : server.Sound := by
  obtain ⟨backend, hello, achieved, limit, slot, made, served⟩ := started
  have models := Residency.sound_new made
  have idle := Residency.adoptingVersion_of_new made
  obtain ⟨residency, same, _, _, _, _, started⟩ := serve_eq_ok served
  have sound : residency.Sound := by
    rw [same]
    exact models.identify _
  have adopting : residency.adoptingVersion = none := by
    rw [same]
    exact idle
  subst started
  exact {
    residency := sound
    adopting
    staging := fun _ => {
      bounded := Nat.zero_le _
      kept := forall_mem_nil _
      places := ⟨0, rfl, rfl⟩
      held := forall_mem_nil _
      onDevice := fun _ => ⟨forall_mem_nil _, ⟨0, rfl, rfl⟩, [], [], rfl, rfl, forall_mem_nil _⟩
      onHost := fun _ => ⟨forall_mem_nil _, rfl⟩ }
    fits := trivial
    halted := iff_of_false (not_not.mpr rfl) id
    dropped := fun failed => absurd rfl failed }

/-! ## The steps -/

theorem Sound.fail (sound : server.Sound)
    (idle : server.phase.adoptingVersion = none) (error : ServeError) :
    (server.fail error).Sound where
  residency := sound.residency
  adopting := by
    refine (sound.adopting.trans idle).trans ?_
    cases error with
    | reported error => rfl
    | uncaught message => rfl
  staging := nofun
  fits := by
    cases error with
    | reported error => exact ⟨Frame.encode_ne_nil _, .inr rfl⟩
    | uncaught message => trivial
  halted := by
    refine iff_of_true (by nofun) ?_
    cases error with
    | reported error => trivial
    | uncaught message => trivial
  dropped _ := rfl

theorem Sound.alive (sound : server.Sound) (busy : ¬ server.phase.Over) :
    server.failure = none := by
  by_contra failed
  exact busy (sound.halted.mp failed)

theorem Sound.enter (sound : server.Sound) {phase} (alive : server.failure = none)
    (same : phase.adoptingVersion = server.phase.adoptingVersion)
    (fits : phase.Fits server.pending.length server.readable) (busy : ¬ phase.Over) :
    ({ server with phase } : Server).Sound where
  residency := sound.residency
  adopting := sound.adopting.trans same.symm
  staging := sound.staging
  fits := fits
  halted := iff_of_false (not_not.mpr alive) busy
  dropped failed := absurd alive failed

theorem Sound.reply (sound : server.Sound) {frame next} (alive : server.failure = none)
    (idle : server.phase.adoptingVersion = none) (resumes : next.Resumes) :
    (server.reply frame next).Sound where
  residency := sound.residency
  adopting := sound.adopting.trans idle
  staging := sound.staging
  fits := ⟨Frame.encode_ne_nil frame, .inl resumes⟩
  halted := iff_of_false (not_not.mpr alive) (resumes.not_over _)
  dropped failed := absurd alive failed

theorem Flushes.notStaging (flushes : server.Flushes) (sound : server.Sound) :
    server.phase.Resumes ∧ server.phase.adoptingVersion = none ∧ server.failure = none := by
  have fits := sound.fits
  cases flushes with
  | polling phase full | draining phase =>
    have alive := sound.alive (by rw [phase]; exact id)
    rw [phase]
    exact ⟨trivial, rfl, alive⟩
  | staging phase full =>
    rw [phase] at fits
    exact absurd fits full

section

variable (sound : server.Sound)
include sound

theorem Sound.dispatched {frame} (alive : server.failure = none)
    (idle : server.phase.adoptingVersion = none) (room : server.pending.length < pipelineDepth)
    (dispatched : Dispatched server frame target) : target.Sound := by
  have read : ({ server with
      requests := server.requests ++ [frame] } : Server).Sound :=
    { sound with }
  cases dispatched with
  | ping own => exact read.enter alive idle.symm trivial id
  | eval own parsed => exact read.enter alive idle.symm room id
  | release own done =>
    obtain ⟨_, done⟩ := ok_of_guard done
    have idleModels := sound.adopting.trans idle
    have models := sound.residency.release done
    obtain ⟨_, _, rfl⟩ := Residency.releaseModelGeneration_eq_ok done
    exact {
      residency := models
      adopting := idleModels
      staging := sound.staging
      fits := trivial
      halted := iff_of_false (not_not.mpr alive) id
      dropped := fun failed => absurd alive failed }
  | failed reason => exact read.fail idle _

theorem Sound.taking {bytes} (phase : server.phase = .reading bytes) (count : Nat) :
    (server.taking count).Sound where
  residency := sound.residency
  adopting := by
    refine sound.adopting.trans ?_
    rw [phase]
    rfl
  staging := sound.staging
  fits := trivial
  halted := by
    have halted := sound.halted
    rw [phase] at halted
    exact halted
  dropped := sound.dropped

theorem Sound.received {bytes count} (phase : server.phase = .reading bytes) (some : 0 < count)
    (available : count ≤ server.inbox.length) (received : Received server bytes count target) :
    target.Sound := by
  have alive := sound.alive (by rw [phase]; exact id)
  have fits := sound.fits
  rw [phase] at fits
  obtain ⟨_, room, _⟩ := fits
  have got : bytes ++ server.inbox.take count ≠ [] := by
    refine append_ne_nil_of_right_ne_nil _ ?_
    rw [ne_eq, take_eq_nil_iff]
    rintro (zero | nothing)
    · omega
    · rw [nothing, length_nil] at available
      omega
  have read := sound.taking phase count
  cases received with
  | incomplete more =>
    exact read.enter alive rfl ⟨readHead_of_incomplete more, room, .inr (.inl got)⟩ id
  | failed wrong => exact read.fail rfl _
  | frame whole dispatched => exact read.dispatched alive rfl room dispatched

theorem Sound.launched {request} (phase : server.phase = .staging request)
    (room : server.pending.length < pipelineDepth) (launched : Launched server request target) :
    target.Sound := by
  have alive := sound.alive (by rw [phase]; exact id)
  have idle : server.phase.adoptingVersion = none := by
    rw [phase]
    rfl
  cases launched with
  | failed wrong => exact sound.fail idle _
  | launched done =>
    exact {
      residency := sound.residency
      adopting := sound.adopting.trans idle
      staging := fun _ =>
        (sound.staging alive).stageAndLaunch room done _
      fits := trivial
      halted := iff_of_false (not_not.mpr alive) id
      dropped := fun failed => absurd alive failed }

theorem Sound.move (move : server.Move label target) : target.Sound := by
  have fits := sound.fits
  have adopting := sound.adopting
  cases move with
  | arrive bytes opened =>
    refine { sound with fits := fits.mono le_rfl fun readable => ?_ }
    unfold Server.readable at readable ⊢
    rw [opened, Bool.or_false, Bool.not_eq_true', isEmpty_eq_false_iff] at readable ⊢
    exact append_ne_nil_of_left_ne_nil readable _
  | close => exact { sound with fits := fits.mono le_rfl fun _ => Bool.or_true _ }
  | hold phase unfinished holds =>
    have alive := sound.alive (by rw [phase]; exact id)
    unfold Server.holds at holds
    rw [Bool.and_eq_true, decide_eq_true_eq] at holds
    refine sound.enter alive (by rw [phase]; rfl) ?_ id
    exact ⟨rfl, holds.2, .inr (.inr holds.1)⟩
  | proceed phase finished =>
    have alive := sound.alive (by rw [phase]; exact id)
    refine sound.enter alive (by rw [phase]; rfl) ?_ id
    rw [finished]
    exact ⟨rfl, Nat.zero_lt_succ _, .inl rfl⟩
  | flush flushes done =>
    obtain ⟨resumes, idle, alive⟩ := flushes.notStaging sound
    obtain ⟨outstanding, rest, result, queue, finished, outcome⟩ := flushOldest_eq_some done
    rcases outcome with ⟨error, rfl⟩ | ⟨payload, _, rfl, _, _, _, rfl⟩
    · exact sound.fail idle error
    have staged := sound.staging alive
    rw [queue] at staged
    have popped := staged.finished finished
    refine Sound.reply ?_ alive idle resumes
    rw [queue] at fits
    exact { sound with
      staging := fun _ => popped
      fits := fits.mono (Nat.le_succ _) id
      dropped := fun failed => absurd alive failed }
  | receive phase some asked available =>
    exact sound.received phase some available (Server.received server _ _)
  | endOfFile phase nothing closed => exact sound.fail (by rw [phase]; rfl) _
  | passSwap phase pending | swap phase pending =>
    have alive := sound.alive (by rw [phase]; exact id)
    rw [phase] at fits adopting
    refine {
      residency := sound.residency.takePending adopting
      adopting := ?_
      staging := sound.staging
      fits := fits
      halted := iff_of_false (not_not.mpr alive) id
      dropped := fun failed => absurd alive failed }
    unfold Residency.takePending
    rw [pending]
    rfl
  | adopt phase =>
    have alive := sound.alive (by rw [phase]; exact id)
    rw [phase] at fits adopting
    exact {
      residency := sound.residency.adopt adopting
      adopting := rfl
      staging := sound.staging
      fits := fits
      halted := iff_of_false (not_not.mpr alive) id
      dropped := fun failed => absurd alive failed }
  | abandon phase =>
    have alive := sound.alive (by rw [phase]; exact id)
    rw [phase] at fits
    exact {
      residency := sound.residency.abandon
      adopting := rfl
      staging := sound.staging
      fits := fits
      halted := iff_of_false (not_not.mpr alive) id
      dropped := fun failed => absurd alive failed }
  | stage phase room => exact sound.launched phase room (Server.launched server _)
  | pong phase finished =>
    have alive := sound.alive (by rw [phase]; exact id)
    have idle : server.phase.adoptingVersion = none := by
      rw [phase]
      rfl
    rcases handlePing_eq server _ with ⟨error, failed⟩ | ⟨_, answered⟩
    · rw [failed]
      exact sound.fail idle error
    · rw [answered]
      exact sound.reply alive idle trivial
  | @send rest next count phase some part =>
    have halted := sound.halted
    rw [phase] at fits adopting halted
    refine {
      residency := sound.residency
      adopting
      staging := sound.staging
      fits := ⟨?_, fits.2⟩
      halted := halted.trans ?_
      dropped := sound.dropped }
    · rw [ne_eq, drop_eq_nil_iff]
      omega
    · cases next with
      | _ => exact Iff.rfl
  | @sent rest next phase some =>
    have halted := sound.halted
    rw [phase] at fits adopting halted
    have shape : next.adoptingVersion = none ∧ next.Fits server.pending.length server.readable ∧
        ((Phase.sending rest next).Over ↔ next.Over) := by
      rcases fits.2 with resumes | rfl
      · cases next with
        | polling => exact ⟨rfl, trivial, Iff.rfl⟩
        | draining payload => exact ⟨rfl, trivial, Iff.rfl⟩
        | _ => exact absurd resumes id
      · exact ⟨rfl, trivial, Iff.rfl⟩
    exact {
      residency := sound.residency
      adopting := adopting.trans shape.1.symm
      staging := sound.staging
      fits := shape.2.1
      halted := halted.trans shape.2.2
      dropped := sound.dropped }
  | compute done =>
    exact { sound with
      staging := fun alive => (sound.staging alive).compute done }
  | load own done =>
    have loaded := done.sound sound.residency
    obtain ⟨_, _, _, _, rfl⟩ := done.eq
    exact { sound with residency := loaded, adopting }

end

theorem sound_of_reachable (reachable : evaluatorSystem.Reachable server) : server.Sound :=
  reachable.invariant (fun _ => sound_of_started)
    fun _ _ _ sound step => sound.move (move_of_next step)

end Server

end GraphZero.Evaluator
