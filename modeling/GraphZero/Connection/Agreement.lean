import GraphZero.Connection.Generations
import GraphZero.Connection.Transit

/-!
# Agreement on the resident models

What the client releases was announced to it and is superseded, what it asks
for is leased, and what it is told of finds room in its registry.  So neither
side ever refuses what the other one sends.
-/

namespace GraphZero.Connection

open Engine Foundation Orchestrator Evaluator List

/-! ## Releases -/

def releaseOf? (frame : Frame) : Option ModelGeneration :=
  if frame.frameType = .modelRelease then
    some ⟨UInt64.ofNat (ofLeBytes (slice frame.payload 0 8)),
      versionOfBytes (slice frame.payload 8 16)⟩
  else none

theorem slices_releaseFrame (model : ModelGeneration) :
    ofLeBytes (slice (releaseFrame model).payload 0 8) = model.id.toNat ∧
      versionOfBytes (slice (releaseFrame model).payload 8 16) = model.version := by
  have number := slice_parts [] (toLeBytes 8 model.id.toNat) (versionBytes model.version)
  have name := slice_parts (toLeBytes 8 model.id.toNat) (versionBytes model.version) []
  rw [nil_append, length_nil, length_toLeBytes] at number
  rw [append_nil, length_toLeBytes, length_versionBytes] at name
  have fits : model.id.toNat < 256 ^ 8 := model.id.toNat_lt
  constructor
  · rw [releaseFrame, number, ofLeBytes_toLeBytes fits]
  · rw [releaseFrame, name, versionOfBytes_versionBytes]

theorem releaseOf?_releaseFrame (model : ModelGeneration) :
    releaseOf? (releaseFrame model) = some model := by
  obtain ⟨number, name⟩ := slices_releaseFrame model
  unfold releaseOf?
  rw [if_pos (releaseFrame_frameType model), number, name, UInt64.ofNat_toNat]

theorem handleModelRelease_releaseFrame (residency : Residency) (model : ModelGeneration) :
    handleModelRelease residency (releaseFrame model).payload =
      residency.releaseModelGeneration model.id.toNat model.version := by
  obtain ⟨number, name⟩ := slices_releaseFrame model
  have length : (releaseFrame model).payload.length = 24 := by
    simp only [releaseFrame, length_append, length_toLeBytes, length_versionBytes]
  unfold handleModelRelease
  rw [if_neg (not_not.mpr length), number, name]

theorem told_of_decoded {payload batch active}
    (decoded : decodeEvalResult payload batch = some active) :
    told active = (ofLeBytes (slice payload 24 8), versionOfBytes (slice payload 32 16)) := by
  unfold decodeEvalResult at decoded
  dsimp only at decoded
  split at decoded
  · cases decoded
  split at decoded
  · cases decoded
  split at decoded
  · cases decoded
  split at decoded
  · cases decoded
  cases decoded
  refine Prod.ext ?_ rfl
  have short : (slice payload 24 8).length ≤ 8 := length_take_le _ _
  have small := Decoder.ofLeBytes_lt (slice payload 24 8)
  have fits : ofLeBytes (slice payload 24 8) < 256 ^ 8 :=
    small.trans_le (Nat.pow_le_pow_right (by decide) short)
  exact Nat.mod_eq_of_lt fits

def BatcherPhase.releases : BatcherPhase → List ModelGeneration
  | releasing models => models
  | _ => []

def BatcherPhase.active : BatcherPhase → Option ModelGeneration
  | publishing _ active => some active
  | _ => none

namespace Link

def unreleased (link : Link) : List ModelGeneration :=
  (link.client.sent.drop link.server.requests.length).filterMap releaseOf? ++
    link.client.phase.releases

/-- The announcements that the client has not published. -/
def ahead (link : Link) : List (Nat × ModelVersion) :=
  link.client.phase.active.toList.map told ++
    link.server.announced.drop (link.client.heard.length + 1)

structure Agreed (link : Link) : Prop where
  tracks : Tracks link.server.residency link.client.run link.unreleased link.ahead
  backend : link.client.modelGeneration = link.client.phase.active.getD link.client.run.current
  unrefused : ∀ failure, link.client.failure = some failure → failure = .stopped

variable {link : Link}

theorem agreed_of_started (started : link.Started) : link.Agreed := by
  obtain ⟨client, server, sendBuffer⟩ := link
  obtain ⟨backend, hello, achieved, limit, slot, registry, made, served, new,
    room, rfl, _⟩ := started
  obtain ⟨residency, same, _, _, small, _, rfl⟩ := Server.serve_eq_ok served
  have sound : residency.Sound := by
    rw [same]
    exact (Residency.sound_new made).identify _
  have limits : residency.maxResidentModelGenerations = limit := by
    rw [same]
    unfold Residency.new at made
    split at made
    · cases made
    · rw [← Except.ok.inj made]
  have known : registry.state.current = ⟨UInt64.ofNat residency.activeGeneration,
          residency.active.modelVersion⟩ ∧
      registry.state.generations.map (·.model) = [registry.state.current] := by
    rw [same]
    unfold ModelLeaseRegistry.new at new
    split at new
    · cases new
    split at new
    · cases new
    rw [← Except.ok.inj new]
    exact ⟨rfl, rfl⟩
  have number : registry.state.current.id.toNat = residency.activeGeneration := by
    rw [known.1]
    exact Nat.mod_eq_of_lt small
  have held : Holds residency (told registry.state.current) := by
    unfold Holds told
    rw [number, known.1]
    exact Server.active_known sound
  refine ⟨?_, rfl, nofun⟩
  exact {
    leases := LeaseRun.sound_ofRegistry new
    registered := fun model member => by
      rw [registeredModels, Client.start, LeaseRun.ofRegistry, known.2, mem_singleton] at member
      rw [member]
      exact held
    released := forall_mem_nil _
    older := fun model member => by
      rw [registeredModels, Client.start, LeaseRun.ofRegistry, known.2, mem_singleton] at member
      rw [member]
      exact Nat.le_refl _
    superseded := forall_mem_nil _
    apart := forall_mem_nil _
    distinct := nodup_nil
    announced := forall_mem_nil _
    ordered := pairwise_pair.mpr number.le
    room := by
      rw [limits]
      exact room }

/-! ## Steps of the client -/

theorem Agreed.keeping (agreed : link.Agreed) {client} (run : client.run = link.client.run)
    (sent : (client.sent.drop link.server.requests.length).filterMap
        releaseOf? ++ client.phase.releases = link.unreleased)
    (active : client.phase.active = link.client.phase.active)
    (heard : client.heard = link.client.heard)
    (backend : client.modelGeneration = link.client.modelGeneration)
    (failure : ∀ failure, client.failure = some failure →
      link.client.failure = some failure ∨ failure = .stopped) :
    Agreed { link with client } where
  tracks := by
    unfold unreleased ahead
    rw [run, sent, active, heard]
    exact agreed.tracks
  backend := by
    rw [backend, active, run]
    exact agreed.backend
  unrefused reason own := (failure reason own).elim (agreed.unrefused reason) id

theorem Agreed.lease (agreed : link.Agreed) {run} (same : SameModels link.client.run run)
    (sound : run.Sound) {modelLeases intake} :
    Agreed { link with
      client := { link.client with run, modelLeases, intake } } where
  tracks := agreed.tracks.lease same sound
  backend := agreed.backend.trans (congrArg (link.client.phase.active.getD) same.current.symm)
  unrefused := agreed.unrefused

theorem Agreed.ensure (agreed : link.Agreed) {episodeId model client}
    (done : link.client.Ensured episodeId model client) (intake : List EvalJob) :
    Agreed { link with client := { client with intake } } := by
  cases done with
  | held member => exact agreed.keeping rfl rfl rfl rfl rfl fun _ => .inl
  | acquired absent done =>
    exact agreed.lease (sameModels_afterAcquire done) (agreed.tracks.leases.acquire done)

theorem drop_sent (orderly : link.Orderly) (frame : Frame) :
    (link.client.sent ++ [frame]).drop link.server.requests.length =
      link.client.sent.drop link.server.requests.length ++ [frame] :=
  drop_append_of_le_length orderly.requests_prefix.length_le

theorem Agreed.client (agreed : link.Agreed) (orderly : link.Orderly) {client}
    (move : link.client.Move client) :
    Agreed { link with client } := by
  have backend := agreed.backend
  cases move with
  | skip => exact agreed
  | ensure done => exact agreed.ensure done _
  | sendParked done => exact agreed.ensure done _
  | @releaseLease lease registry member idle done =>
    have out : lease.2 ∈ link.client.run.leases :=
      orderly.leased.leases.mem_iff.mpr (mem_map_of_mem member)
    exact agreed.lease (sameModels_afterDrop done) (agreed.tracks.leases.drop out done)
  | takeReleasable free phase =>
    have tracks := agreed.tracks.take
    rw [phase] at backend
    refine ⟨?_, backend, agreed.unrefused⟩
    unfold unreleased ahead at tracks ⊢
    rw [phase] at tracks
    change Tracks _ _ (_ ++ [] ++ _) _ at tracks
    rw [append_nil] at tracks
    exact tracks
  | released phase =>
    refine agreed.keeping rfl ?_ (by rw [phase]; rfl) rfl rfl fun _ => .inl
    unfold unreleased
    rw [phase]
    rfl
  | @release model models free phase superseded admitted =>
    refine agreed.keeping rfl ?_ (by rw [phase]; rfl) rfl rfl fun _ => .inl
    rw [drop_sent orderly, filterMap_append, filterMap_cons_some
      (releaseOf?_releaseFrame model), append_assoc]
    unfold unreleased
    rw [phase]
    rfl
  | @activeRelease models phase =>
    have member : link.client.modelGeneration ∈ link.unreleased := by
      unfold unreleased
      rw [phase]
      exact mem_append_right _ mem_cons_self
    have older := agreed.tracks.superseded _ member
    rw [phase] at backend
    have current : link.client.modelGeneration = link.client.run.current := backend
    rw [current] at older
    exact absurd older (Nat.lt_irrefl _)
  | submit free phase room oneModel split admitted =>
    refine agreed.keeping rfl ?_ rfl rfl rfl fun _ => .inl
    rw [drop_sent orderly, filterMap_append, filterMap_cons_none rfl, filterMap_nil, append_nil]
    rfl
  | drainOldest free phase queue =>
    refine agreed.keeping rfl ?_ (by rw [phase]; rfl) rfl rfl fun _ => .inl
    unfold unreleased
    rw [phase]
    rfl
  | @published batch active registry phase done =>
    have tracks := agreed.tracks
    unfold unreleased ahead at tracks
    rw [phase] at tracks backend
    have publishes : Tracks link.server.residency link.client.run link.unreleased (told active ::
          link.server.announced.drop (link.client.heard.length + 1)) := by
      unfold unreleased
      rw [phase]
      exact tracks
    refine ⟨?_, ?_, agreed.unrefused⟩
    · have after := publishes.publish done
      unfold unreleased at after
      rw [phase] at after
      exact after
    · refine Eq.trans backend ?_
      by_cases same : link.client.run.current = active
      · rcases publish_eq_ok done with ⟨_, rfl⟩ | ⟨different, _⟩
        · unfold LeaseRun.afterPublish
          rw [if_pos same]
          exact same.symm
        · exact absurd same different
      · exact (models_afterPublish publishes.leases same done).2.1.symm
  | @unpublished batch active error phase refused =>
    have tracks := agreed.tracks
    unfold ahead at tracks
    rw [phase] at tracks
    obtain ⟨registry, done⟩ := Tracks.publish_isOk tracks orderly.sound.residency
    rw [refused] at done
    cases done
  | stop =>
    refine agreed.keeping rfl rfl rfl rfl rfl fun failure own => .inr ?_
    exact (Option.some.inj own).symm

theorem Orderly.reply_of_heard (orderly : link.Orderly) {heard frame}
    (last : link.client.heard = heard ++ [frame]) (own : frame.frameType = .evalResult) :
    link.server.replies[heard.length]? = some frame := by
  obtain ⟨rest, whole⟩ := orderly.heard_prefix
  have there : (output link.server)[heard.length]? = some frame := by
    rw [← whole, last, append_assoc, getElem?_append_right (Nat.le_refl _), Nat.sub_self]
    rfl
  unfold output at there
  by_cases early : heard.length < link.server.replies.length
  · rwa [getElem?_append_left early] at there
  rw [getElem?_append_right (Nat.not_lt.mp early)] at there
  have member := mem_of_getElem? there
  split at member
  · cases mem_singleton.mp member
    cases own
  · cases member

theorem Orderly.drop_announced (orderly : link.Orderly) {count frame}
    (found : link.server.replies[count]? = some frame) :
    link.server.announced.drop (count + 1) =
      frame.active :: link.server.announced.drop (count + 2) := by
  obtain ⟨first, announced⟩ := orderly.announced
  obtain ⟨early, same⟩ := List.getElem?_eq_some_iff.mp found
  have inside : count < (link.server.replies.map Frame.active).length := by
    rw [length_map]
    exact early
  rw [announced, drop_succ_cons, drop_succ_cons, drop_eq_getElem_cons inside, getElem_map, same]

theorem Agreed.receive (agreed : link.Agreed) (orderly : link.Orderly) {client batch got count}
    (phase : link.client.phase = .receiving batch got) (running : link.client.failure = none)
    (asked : count ≤ wanted got) (received : link.client.Received batch got count client) :
    Agreed { link with client } := by
  have next : Orderly { link with client } :=
    { orderly with
      leased := orderly.leased.receive phase received
      framed := orderly.framed.receive phase received
      wired := orderly.wired.receive phase running asked received }
  have backend := agreed.backend
  have tracks := agreed.tracks
  unfold unreleased ahead at tracks
  rw [phase] at backend tracks
  cases received with
  | incomplete more =>
    refine agreed.keeping rfl ?_ (by rw [phase]; rfl) rfl rfl fun _ => .inl
    unfold unreleased
    rw [phase]
    rfl
  | failed =>
    refine agreed.keeping rfl ?_ (by rw [phase]; rfl) rfl rfl
      fun failure own => .inr (Option.some.inj own).symm
    unfold unreleased
    rw [phase]
    rfl
  | @rejected frame whole =>
    refine ⟨tracks.forget ?_, backend, fun failure own => (Option.some.inj own).symm⟩
    change (link.server.announced.drop ((link.client.heard ++ [frame]).length + 1)).Sublist _
    rw [length_append]
    exact drop_sublist_drop_left _ (Nat.le_succ _)
  | @result frame active whole own decoded =>
    refine ⟨?_, rfl, agreed.unrefused⟩
    have later := orderly.drop_announced (next.reply_of_heard rfl own)
    have same : frame.active = told active := (told_of_decoded decoded).symm
    rw [same] at later
    change Tracks _ _ (_ ++ []) ([told active] ++
      link.server.announced.drop ((link.client.heard ++ [frame]).length + 1))
    rw [length_append, singleton_append]
    exact later ▸ tracks

end Link

end GraphZero.Connection
