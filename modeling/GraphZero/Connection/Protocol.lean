import GraphZero.Connection.Agreement

/-!
# The protocol of models

Every batch is staged with a model that is resident, every release is of a
resident model that is not active and so is accepted, and the client publishes
what it hears of.
-/

namespace GraphZero.Connection

open Engine Foundation Orchestrator Evaluator List

namespace Link

variable {link target : Link}

theorem releaseOf?_other {frame} (other : frame.frameType ≠ .modelRelease) :
    releaseOf? frame = none :=
  if_neg other

/-! ## Steps of the server -/

theorem Agreed.serving (agreed : link.Agreed) {server}
    (tracks : Tracks server.residency link.client.run link.unreleased link.ahead)
    (requests : server.requests = link.server.requests)
    (announced : server.announced = link.server.announced) :
    (link.deliver server).Agreed where
  tracks := by
    unfold unreleased ahead deliver
    rw [requests, announced]
    exact tracks
  backend := agreed.backend
  unrefused := agreed.unrefused

theorem Orderly.deliver (orderly : link.Orderly) {label server} (allowed : link.allows label = true)
    (moved : link.server.Move label server) :
    (link.deliver server).Orderly where
  sound := orderly.sound.move moved
  streams := orderly.streams.move orderly.sound moved
  inOrder := orderly.inOrder.move orderly.sound moved
  exchange := orderly.exchange.move orderly.sound moved
  leased := orderly.leased.keepingJobs rfl rfl rfl rfl
  framed := orderly.framed.keeping rfl rfl rfl rfl
  wired := orderly.wired.deliver allowed moved

theorem Orderly.length_heard_lt (orderly : link.Orderly) (alive : link.server.failure = none) :
    link.client.heard.length + 1 ≤ link.server.announced.length := by
  have read := orderly.heard_prefix.length_le
  unfold output at read
  rw [alive] at read
  rw [append_nil] at read
  obtain ⟨first, announced⟩ := orderly.announced
  rw [announced, length_cons, length_map]
  exact Nat.succ_le_succ read

section

variable (agreed : link.Agreed)
include agreed

variable {server : Server}

theorem Agreed.flush (orderly : link.Orderly) (flushes : link.server.Flushes)
    (done : link.server.flushOldest link.server.phase = some server) :
    (link.deliver server).Agreed := by
  have alive := (flushes.notStaging orderly.sound).2.2
  obtain ⟨outstanding, rest, result, _, _, outcome⟩ := Server.flushOldest_eq_some done
  rcases outcome with ⟨error, rfl⟩ | ⟨payload, frame, _, _, _, _, rfl⟩
  · exact agreed.serving agreed.tracks rfl rfl
  refine ⟨?_, agreed.backend, agreed.unrefused⟩
  have tracks := agreed.tracks.announce orderly.sound.residency
  unfold ahead at tracks
  rw [append_assoc, ← drop_append_of_le_length (orderly.length_heard_lt alive)] at tracks
  exact tracks

variable {rest : List Frame}

theorem Agreed.release (orderly : link.Orderly) {model}
    (sent : link.client.sent = link.server.requests ++ releaseFrame model :: rest) :
    (∃ residency, handleModelRelease link.server.residency
      (releaseFrame model).payload = .ok residency) ∧
    ∀ residency, handleModelRelease link.server.residency
        (releaseFrame model).payload = .ok residency →
      Tracks residency link.client.run (rest.filterMap releaseOf? ++ link.client.phase.releases)
        link.ahead := by
  have tracks := agreed.tracks
  unfold unreleased at tracks
  rw [sent, drop_left, filterMap_cons_some (releaseOf?_releaseFrame model), cons_append] at tracks
  rw [handleModelRelease_releaseFrame]
  exact ⟨(tracks.release_isOk orderly.sound.residency).2, fun residency done => tracks.release done⟩

variable {frame : Frame}

theorem Agreed.skipped (sent : link.client.sent = link.server.requests ++ frame :: rest)
    (other : frame.frameType ≠ .modelRelease) :
    Tracks link.server.residency link.client.run
      (rest.filterMap releaseOf? ++ link.client.phase.releases)
      link.ahead := by
  have tracks := agreed.tracks
  unfold unreleased at tracks
  rw [sent, drop_left, filterMap_cons_none (releaseOf?_other other)] at tracks
  exact tracks

theorem Agreed.reading (sent : link.client.sent = link.server.requests ++ frame :: rest)
    (requests : server.requests = link.server.requests ++ [frame])
    (announced : server.announced = link.server.announced)
    (tracks : Tracks server.residency link.client.run
      (rest.filterMap releaseOf? ++ link.client.phase.releases)
      link.ahead) : (link.deliver server).Agreed where
  tracks := by
    unfold unreleased ahead deliver
    rw [requests, announced, sent, append_cons link.server.requests frame rest, drop_left]
    exact tracks
  backend := agreed.backend
  unrefused := agreed.unrefused

theorem Agreed.dispatched (orderly : link.Orderly) {count}
    (sent : link.client.sent = link.server.requests ++ frame :: rest)
    (dispatched : Server.Dispatched (link.server.taking count) frame server) :
    (link.deliver server).Agreed := by
  have release (own : frame.frameType = .modelRelease) : ∃ model, frame = releaseFrame model := by
    have member : frame ∈ link.client.sent := by
      rw [sent]
      exact mem_append_right _ mem_cons_self
    rcases orderly.framed.frames frame member with
      ⟨batch, rfl⟩ | ⟨model, rfl⟩
    · cases (evalFrame_frameType batch).symm.trans own
    · exact ⟨model, rfl⟩
  cases dispatched with
  | ping own => exact agreed.reading sent rfl rfl (agreed.skipped sent (by rw [own]; nofun))
  | eval own parsed => exact agreed.reading sent rfl rfl (agreed.skipped sent (by rw [own]; nofun))
  | @release residency own done =>
    obtain ⟨model, rfl⟩ := release own
    exact agreed.reading sent rfl rfl ((agreed.release orderly sent).2 residency done)
  | @failed error reason =>
    have other : frame.frameType ≠ .modelRelease := by
      intro own
      rcases reason with ⟨_, batch, _⟩ | ⟨_, _, refused⟩ | different
      · cases batch.symm.trans own
      · obtain ⟨model, rfl⟩ := release own
        obtain ⟨⟨_, accepted⟩, _⟩ := agreed.release orderly sent
        change handleModelRelease link.server.residency _ = _ at refused
        rw [accepted] at refused
        cases refused
      · refine different ?_
        rw [own]
        decide
    exact agreed.reading sent rfl rfl (agreed.skipped sent other)

theorem Agreed.deliver (orderly : link.Orderly) {label} (allowed : link.allows label = true)
    (moved : link.server.Move label server) :
    (link.deliver server).Agreed := by
  have next := orderly.deliver allowed moved
  cases moved with
  | arrive bytes opened => cases allowed
  | close => cases allowed
  | flush flushes done => exact agreed.flush orderly flushes done
  | @receive bytes count phase some asked available =>
    have received := Server.received link.server bytes count
    generalize link.server.receive bytes count = server at received next ⊢
    cases received with
    | incomplete more => exact agreed.serving agreed.tracks rfl rfl
    | failed wrong => exact agreed.serving agreed.tracks rfl rfl
    | @frame frame _ whole dispatched =>
      obtain ⟨rest, whole⟩ := next.requests_prefix
      have requests : server.requests = link.server.requests ++ [frame] := by
        cases dispatched with
        | _ => rfl
      change server.requests ++ rest = link.client.sent at whole
      have sent : link.client.sent = link.server.requests ++ frame :: rest := by
        rw [← whole, requests, append_assoc]
        rfl
      exact agreed.dispatched orderly sent dispatched
  | passSwap phase nothing => exact agreed.serving (agreed.tracks.keepingTables rfl rfl rfl) rfl rfl
  | swap phase waiting => exact agreed.serving (agreed.tracks.keepingTables rfl rfl rfl) rfl rfl
  | adopt phase => exact agreed.serving (agreed.tracks.adopt orderly.sound.residency _) rfl rfl
  | abandon phase => exact agreed.serving (agreed.tracks.keepingTables rfl rfl rfl) rfl rfl
  | @stage request phase room =>
    have launched := Server.launched link.server request
    generalize link.server.stageAndLaunch request = server at launched ⊢
    cases launched with
    | _ => exact agreed.serving agreed.tracks rfl rfl
  | @pong payload phase finished =>
    rcases Server.handlePing_eq link.server payload with
      ⟨error, failed⟩ | ⟨_, answered⟩
    · rw [failed]
      exact agreed.serving agreed.tracks rfl rfl
    · rw [answered]
      exact agreed.serving agreed.tracks rfl rfl
  | load own done => exact agreed.serving (agreed.tracks.load done) rfl rfl
  | _ => exact agreed.serving agreed.tracks rfl rfl

theorem Agreed.move (orderly : link.Orderly) (move : link.Move target) : target.Agreed := by
  cases move with
  | client done => exact agreed.client orderly (Client.move_of_next done)
  | write opened => exact ⟨agreed.tracks, agreed.backend, agreed.unrefused⟩
  | read phase running asked available =>
    exact agreed.receive orderly phase running asked (Client.received _ _ _ _)
  | hangUp ended => exact ⟨agreed.tracks, agreed.backend, agreed.unrefused⟩
  | server allowed moved => exact agreed.deliver orderly allowed moved

end

theorem agreed_of_reachable (reachable : linkSystem.Reachable link) : link.Agreed :=
  reachable.invariant_given (fun _ => orderly_of_reachable) (fun _ => agreed_of_started)
    fun _ _ _ orderly agreed step => agreed.move orderly (move_of_next step)

theorem Agreed.staged (agreed : link.Agreed) (orderly : link.Orderly) {request}
    (serves : link.server.phase.request = some request) :
    request.modelVersion ∈ link.server.residency.residentVersions := by
  obtain ⟨batch, waits, same⟩ := orderly.request_unanswered serves
  have leased := orderly.leased.of_unanswered waits
  have registered := mem_registeredModels.mpr (agreed.tracks.leases.leased _ leased)
  rw [← same]
  exact Server.mem_residentVersions orderly.sound.residency (agreed.tracks.registered _ registered)

theorem Agreed.mem_unreleased {model} (coming : releaseFrame model ∈
      link.client.sent.drop link.server.requests.length) :
    model ∈ link.unreleased :=
  mem_append_left _ (mem_filterMap.mpr ⟨_, coming, releaseOf?_releaseFrame model⟩)

theorem Agreed.not_active (agreed : link.Agreed) (orderly : link.Orderly) {model}
    (member : model ∈ link.unreleased) :
    model.id.toNat ≠ link.server.residency.activeGeneration ∧
      model.version ≠ link.server.residency.active.modelVersion := by
  have older := agreed.tracks.superseded model member
  have active := agreed.tracks.current_le
  have other : model.id.toNat ≠ link.server.residency.activeGeneration := by
    omega
  refine ⟨other, fun same => other ?_⟩
  have held := agreed.tracks.released model member
  unfold Holds told at held
  rw [same] at held
  exact Server.generation_unique orderly.sound.residency held
    (Server.active_known orderly.sound.residency)

structure Protocol (link : Link) : Prop where
  /-- A batch is staged with a model that is resident. -/
  staged : ∀ request, link.server.phase = .staging request →
    request.modelVersion ∈ link.server.residency.residentVersions ∧
      ∃ slot, link.server.residency.servingSlot request.modelVersion =
        .ok slot ∧ slot.modelVersion = request.modelVersion
  /-- A release that the server has not handled is of a resident model that is
  not active, and it is accepted. -/
  released : ∀ frame ∈ link.client.sent.drop link.server.requests.length,
    frame.frameType = .modelRelease → ∃ model, frame = releaseFrame model ∧
        Holds link.server.residency (told model) ∧
        model.version ∈ link.server.residency.residentVersions ∧
        model.id.toNat ≠ link.server.residency.activeGeneration ∧
        model.version ≠ link.server.residency.active.modelVersion ∧
        ∃ residency, handleModelRelease link.server.residency frame.payload = .ok residency
  /-- The model that a result announces is published. -/
  published : ∀ batch active, link.client.phase = .publishing batch active →
    ∃ registry, link.client.run.registry.publish active = .ok registry
  /-- Neither the registry nor the backend has refused a model. -/
  unrefused : ∀ failure, link.client.failure = some failure → failure = .stopped

/-- The protocol is kept in every state. -/
theorem protocol_of_reachable (reachable : linkSystem.Reachable link) :
    link.Protocol := by
  have orderly := orderly_of_reachable reachable
  have agreed := agreed_of_reachable reachable
  have sound := orderly.sound.residency
  refine ⟨fun request phase => ?_, fun frame coming own => ?_,
    fun batch active phase => ?_, agreed.unrefused⟩
  · have serves : link.server.phase.request = some request := by
      rw [phase]
      rfl
    have resident := agreed.staged orderly serves
    exact ⟨resident, sound.servingSlot_isOk resident⟩
  · rcases orderly.framed.frames frame (mem_of_mem_drop coming) with
      ⟨batch, rfl⟩ | ⟨model, rfl⟩
    · cases (evalFrame_frameType batch).symm.trans own
    have member := Agreed.mem_unreleased coming
    have held := agreed.tracks.released model member
    obtain ⟨other, inactive⟩ := agreed.not_active orderly member
    refine ⟨model, rfl, held, Server.mem_residentVersions sound held, other, inactive, ?_⟩
    rw [handleModelRelease_releaseFrame]
    exact sound.release_isOk other held
  · have tracks := agreed.tracks
    unfold ahead at tracks
    rw [phase] at tracks
    exact Tracks.publish_isOk tracks sound

end Link

namespace Sample

open Evaluator.Sample

/-- A connection to a server with room for so many generations, after some
steps. -/
def connect (limit : Nat) (labels : List Link.Label) : Option Link := do
  let residency ← (Residency.new limit ⟨manifest 1, runner⟩).toOption
  let server ← ((backend residency).serve hello (replyFrames 1 2)).toOption
  let registry ← (ModelLeaseRegistry.new ⟨UInt64.ofNat residency.activeGeneration,
      residency.active.modelVersion⟩ limit).toOption
  labels.foldlM Link.next ⟨.start registry, server, replyFrames 1 2⟩

theorem reachable_of_connect {limit labels link} (followed : connect limit labels = some link) :
    linkSystem.Reachable link := by
  obtain ⟨residency, made, followed⟩ := Option.bind_eq_some_iff.mp followed
  obtain ⟨server, served, followed⟩ := Option.bind_eq_some_iff.mp followed
  obtain ⟨registry, new, followed⟩ := Option.bind_eq_some_iff.mp followed
  have limits : registry.maxResidentGenerations = limit := by
    have done := ok_of_toOption new
    unfold ModelLeaseRegistry.new at done
    split at done
    · cases done
    split at done
    · cases done
    exact congrArg (·.maxResidentGenerations) (Except.ok.inj done).symm
  refine ⟨_, ⟨backend residency, hello, _, limit, _, registry,
    ok_of_toOption made, ok_of_toOption served, ?_, limits.ge, rfl, le_rfl⟩,
    labels, TransitionSystem.Run.of_foldlM (fun step => step) followed⟩
  rw [limits]
  exact ok_of_toOption new

def first : ModelGeneration := ⟨1, 1⟩

/-- The second model is adopted while the client waits for a result of the
first one, which it then releases. -/
def superseding : List Link.Label :=
  ([.client (.sendParked 5), .client (.submit batch [⟨5, first⟩] []),
    .write (eval 0 1).encode.length] : List Link.Label) ++
  (load 2 ++ adopting .proceed ++ ([.flush, .send 81] : List Server.Label)).map Link.Label.server ++
  ([.client .drainOldest, .read 4, .read 77, .client .publish,
    .client (.releaseLease 5), .client .takeReleasable, .client .release] : List Link.Label)

end Sample

/-- The first model is resident and its release on the way. -/
theorem Link.protocol_of_superseding : ∃ link, Sample.connect 2 Sample.superseding = some link ∧
      link.client.sent.drop link.server.requests.length = [releaseFrame Sample.first] ∧
      link.server.residency.modelGeneration = (2, 2) ∧ link.Protocol := by
  have seen : (Sample.connect 2 Sample.superseding).map (fun link =>
      (link.client.sent.drop link.server.requests.length,
        link.server.residency.modelGeneration)) =
      some ([releaseFrame Sample.first], (2, 2)) := by
    decide +kernel
  obtain ⟨link, followed, seen⟩ := Option.map_eq_some_iff.mp seen
  obtain ⟨coming, active⟩ := Prod.mk.inj seen
  exact ⟨link, followed, coming, active,
    Link.protocol_of_reachable (Sample.reachable_of_connect followed)⟩

end GraphZero.Connection
