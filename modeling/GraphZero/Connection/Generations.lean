import GraphZero.Evaluator.Announcements
import GraphZero.Orchestrator.LeaseSystem

/-!
# Generations on both sides of the connection

The client knows the models that it has registered and those that it has
given up; both are resident in the evaluator.  What the evaluator has
announced and the client has not heard of is newer, and resident as well.
-/

namespace GraphZero.Connection

open Engine Foundation Orchestrator Evaluator List

/-- A model as the evaluator announces it. -/
def told (model : ModelGeneration) : Nat × ModelVersion :=
  (model.id.toNat, model.version)

theorem told_injective : Function.Injective told := by
  intro left right same
  cases left
  cases right
  injection same with id version
  cases UInt64.toNat_inj.mp id
  cases version
  rfl

def registeredModels (run : LeaseRun) : List ModelGeneration :=
  run.registry.state.generations.map (·.model)

section Registered

variable {run : LeaseRun} {model tested : ModelGeneration}

theorem mem_registeredModels : tested ∈ registeredModels run ↔
      (usersOf run.registry.state.generations tested).isSome = true :=
  usersOf_isSome.symm

/-- A lease that is taken or given back leaves the models as they are. -/
structure SameModels (run next : LeaseRun) : Prop where
  models : registeredModels next = registeredModels run
  current : next.current = run.current
  limit : next.registry.maxResidentGenerations = run.registry.maxResidentGenerations

theorem sameModels_afterAcquire {acquired} (done : run.registry.acquireCurrent = some acquired) :
    SameModels run (run.afterAcquire acquired) := by
  obtain ⟨users, _, rfl⟩ := Option.map_eq_some_iff.mp done
  exact ⟨models_setUsers, rfl, rfl⟩

theorem sameModels_afterDrop {registry} (done : run.registry.drop model = some registry) :
    SameModels run (run.afterDrop model registry) := by
  unfold ModelLeaseRegistry.drop at done
  dsimp only at done
  split at done
  · cases done
    exact ⟨rfl, rfl, rfl⟩
  · cases done
  cases done
  have queued (state : ModelLeaseState) :
      (queueModelRelease state model).generations = state.generations ∧
        (queueModelRelease state model).current = state.current := by
    unfold queueModelRelease
    split
    · exact ⟨rfl, rfl⟩
    · exact ⟨rfl, rfl⟩
  split
  · refine ⟨?_, (queued _).2, rfl⟩
    exact (congrArg (List.map _) (queued _).1).trans models_setUsers
  · exact ⟨models_setUsers, rfl, rfl⟩

theorem models_afterPublish (sound : run.Sound) {registry} (different : run.current ≠ model)
    (done : run.registry.publish model = .ok registry) :
    (∀ tested, tested ∈ registeredModels (run.afterPublish model registry) ↔
        tested = model ∨ tested ∈ registeredModels run) ∧
      (run.afterPublish model registry).current = model ∧
      (run.afterPublish model registry).registry.maxResidentGenerations =
        run.registry.maxResidentGenerations := by
  rcases publish_eq_ok done with ⟨same, _⟩ | ⟨_, _, rfl⟩
  · exact absurd same different
  have distinct := ModelLeaseState.nodup_registered model sound.distinct
  have unqueued : run.current ∉ run.registry.state.releasable :=
    fun waits => ((sound.waiting _).mp waits).1 rfl
  unfold LeaseRun.afterPublish
  rw [if_neg different, ModelLeaseState.supersede_eq distinct unqueued]
  refine ⟨fun tested => ?_, rfl, rfl⟩
  refine usersOf_isSome.symm.trans ?_
  rw [ModelLeaseState.usersOf_registered, mem_registeredModels]
  by_cases here : tested = model
  · rw [if_pos here]
    exact iff_of_true rfl (.inl here)
  · rw [if_neg here]
    exact (or_iff_right here).symm

theorem mem_takeReleasable : tested ∈ registeredModels run.takeReleasable ↔
      tested ∈ registeredModels run ∧ tested ∉ run.registry.takeReleasable.1 := by
  unfold registeredModels LeaseRun.takeReleasable ModelLeaseRegistry.takeReleasable
  simp only [mem_map, mem_filter, Bool.not_eq_true', contains_eq_mem, decide_eq_false_iff_not]
  constructor
  · rintro ⟨generation, ⟨member, kept⟩, rfl⟩
    exact ⟨⟨generation, member, rfl⟩, kept⟩
  · rintro ⟨⟨generation, member, rfl⟩, kept⟩
    exact ⟨generation, ⟨member, kept⟩, rfl⟩

end Registered

/-- The evaluator holds a model under the generation that was announced. -/
def Holds (residency : Residency) (told : Nat × ModelVersion) : Prop :=
  residency.versionsByGeneration.get? told.1 = some told.2

/-- `unreleased` are the models that the client has given up and the evaluator
has not released, `ahead` is what the client has not heard of. -/
structure Tracks (residency : Residency) (run : LeaseRun)
    (unreleased : List ModelGeneration) (ahead : List (Nat × ModelVersion)) :
    Prop where
  leases : run.Sound
  registered : ∀ model ∈ registeredModels run, Holds residency (told model)
  released : ∀ model ∈ unreleased, Holds residency (told model)
  older : ∀ model ∈ registeredModels run,
    model.id.toNat ≤ run.current.id.toNat
  superseded : ∀ model ∈ unreleased, model.id.toNat < run.current.id.toNat
  apart : ∀ model ∈ unreleased, model ∉ registeredModels run
  distinct : unreleased.Nodup
  announced : ∀ told ∈ ahead, Holds residency told
  ordered : (run.current.id.toNat ::
    (ahead.map Prod.fst ++ [residency.activeGeneration])).Pairwise (· ≤ ·)
  room : residency.maxResidentModelGenerations ≤ run.registry.maxResidentGenerations

namespace Tracks

variable {residency next : Residency} {run target : LeaseRun}
  {unreleased : List ModelGeneration} {model : ModelGeneration} {ahead : List (Nat × ModelVersion)}

theorem eq_of_generation {left right} (here : Holds residency (told left))
    (there : Holds residency (told right)) (same : left.id.toNat = right.id.toNat) :
    left = right := by
  unfold Holds told at here there
  rw [same, there] at here
  injection here with version
  exact told_injective (Prod.ext same version.symm)

section

variable (tracks : Tracks residency run unreleased ahead)
include tracks

theorem current_registered : run.current ∈ registeredModels run :=
  mem_registeredModels.mpr tracks.leases.registered

theorem current_le : run.current.id.toNat ≤ residency.activeGeneration :=
  (pairwise_cons.mp tracks.ordered).1 _ (mem_append_right _ mem_cons_self)

theorem ahead_le {told} (member : told ∈ ahead) : run.current.id.toNat ≤ told.1 :=
  (pairwise_cons.mp tracks.ordered).1 _ (mem_append_left _ (mem_map_of_mem member))

end

/-! ### Steps of the client -/

theorem lease (tracks : Tracks residency run unreleased ahead)
    (same : SameModels run target) (leases : target.Sound) :
    Tracks residency target unreleased ahead where
  leases := leases
  registered := by
    rw [same.models]
    exact tracks.registered
  released := tracks.released
  older := by
    rw [same.models, same.current]
    exact tracks.older
  superseded := by
    rw [same.current]
    exact tracks.superseded
  apart := by
    rw [same.models]
    exact tracks.apart
  distinct := tracks.distinct
  announced := tracks.announced
  ordered := by
    rw [same.current]
    exact tracks.ordered
  room := by
    rw [same.limit]
    exact tracks.room

theorem publish_isOk (tracks : Tracks residency run unreleased (told model :: ahead))
    (sound : residency.Sound) :
    ∃ registry, run.registry.publish model = .ok registry := by
  have held := tracks.announced _ mem_cons_self
  have pos : model.id ≠ 0 := by
    intro zero
    have number := (sound.older held).1
    rw [told, zero] at number
    exact absurd number (Nat.lt_irrefl 0)
  unfold ModelLeaseRegistry.publish
  rw [if_neg pos]
  by_cases same : run.registry.state.current = model
  · exact ⟨_, if_pos same⟩
  have known (generation : ModelGenerationState)
      (member : generation ∈ run.registry.state.generations) :
      Holds residency (told generation.model) :=
    tracks.registered _ (mem_map_of_mem member)
  have sameVersion : ¬ (run.registry.state.generations.any fun generation =>
      generation.model.id = model.id ∧ generation.model.version ≠ model.version) = true := by
    rw [any_eq_true]
    rintro ⟨generation, member, clash⟩
    rw [decide_eq_true_eq] at clash
    exact clash.2 (congrArg ModelGeneration.version (eq_of_generation (known generation member) held
        (congrArg UInt64.toNat clash.1)))
  have sameGeneration : ¬ (run.registry.state.generations.any
      fun generation => generation.model.version = model.version ∧
        generation.model.id ≠ model.id) = true := by
    rw [any_eq_true]
    rintro ⟨generation, member, clash⟩
    rw [decide_eq_true_eq] at clash
    have there := known generation member
    unfold Holds told at there held
    rw [clash.1] at there
    exact clash.2 (UInt64.toNat_inj.mp (Server.generation_unique sound there held))
  rw [if_neg same, if_neg sameVersion, if_neg sameGeneration]
  refine ⟨_, if_neg ?_⟩
  rintro ⟨absent, full⟩
  have fresh := ModelLeaseState.all_ne_iff.mp absent
  -- the registered models and this one have different versions, all resident
  have versions : ((model :: registeredModels run).map (·.version)).Nodup := by
    have distinct : (model :: registeredModels run).Nodup :=
      nodup_cons.mpr ⟨fresh, tracks.leases.distinct⟩
    refine distinct.map_on fun left leftMember right rightMember equal => ?_
    have held (tested : ModelGeneration) (member : tested ∈ model :: registeredModels run) :
        Holds residency (told tested) := by
      rcases mem_cons.mp member with rfl | earlier
      · exact held
      · exact tracks.registered tested earlier
    have here := held left leftMember
    refine eq_of_generation here (held right rightMember) ?_
    unfold Holds told at here
    rw [equal] at here
    exact Server.generation_unique sound here (held right rightMember)
  have resident : ((model :: registeredModels run).map
      (·.version)).toFinset ⊆ residency.residentVersions := by
    intro version member
    rw [mem_toFinset, mem_map] at member
    obtain ⟨tested, member, rfl⟩ := member
    rcases mem_cons.mp member with rfl | earlier
    · exact Server.mem_residentVersions sound held
    · exact Server.mem_residentVersions sound (tracks.registered tested earlier)
  have count := Finset.card_le_card resident
  rw [toFinset_card_of_nodup versions, length_map, length_cons] at count
  have models : (registeredModels run).length =
      run.registry.state.generations.length := length_map _
  have bounded := sound.bounded
  unfold Residency.occupied at bounded
  have room := tracks.room
  omega

theorem publish (tracks : Tracks residency run unreleased (told model :: ahead)) {registry}
    (done : run.registry.publish model = .ok registry) :
    Tracks residency (run.afterPublish model registry) unreleased ahead := by
  have held := tracks.announced _ mem_cons_self
  have later := tracks.ahead_le mem_cons_self
  by_cases same : run.current = model
  · have kept : run.afterPublish model registry = run := by
      rcases publish_eq_ok done with ⟨_, rfl⟩ | ⟨different, _⟩
      · unfold LeaseRun.afterPublish
        rw [if_pos same]
      · exact absurd same different
    rw [kept]
    exact {
      leases := tracks.leases
      registered := tracks.registered
      released := tracks.released
      older := tracks.older
      superseded := tracks.superseded
      apart := tracks.apart
      distinct := tracks.distinct
      announced := fun told member =>
        tracks.announced told (mem_cons_of_mem _ member)
      ordered := tracks.ordered.sublist ((sublist_cons_self _ _).cons_cons _)
      room := tracks.room }
  have newer : run.current.id.toNat < model.id.toNat := by
    refine Nat.lt_of_le_of_ne later fun equal => same ?_
    exact eq_of_generation (tracks.registered _ tracks.current_registered) held equal
  have fresh : model ∉ registeredModels run := by
    intro member
    have older := tracks.older model member
    omega
  have free : model ∉ run.registry.state.releasable := by
    intro waits
    have unused := ((tracks.leases.waiting model).mp waits).2
    exact fresh (mem_registeredModels.mpr (by rw [unused]; rfl))
  obtain ⟨models, current, limit⟩ := models_afterPublish tracks.leases same done
  refine {
    leases := tracks.leases.publish free done
    registered := fun tested member => ?_
    released := tracks.released
    older := fun tested member => ?_
    superseded := fun tested member => ?_
    apart := fun tested member => ?_
    distinct := tracks.distinct
    announced := fun told member =>
      tracks.announced told (mem_cons_of_mem _ member)
    ordered := ?_
    room := limit ▸ tracks.room }
  · rcases (models tested).mp member with rfl | earlier
    · exact held
    · exact tracks.registered tested earlier
  · rw [current]
    rcases (models tested).mp member with rfl | earlier
    · exact Nat.le_refl _
    · exact (tracks.older tested earlier).trans later
  · rw [current]
    exact (tracks.superseded tested member).trans newer
  · rw [models, not_or]
    refine ⟨?_, tracks.apart tested member⟩
    rintro rfl
    have older := tracks.superseded tested member
    omega
  · rw [current]
    exact (pairwise_cons.mp tracks.ordered).2

theorem take (tracks : Tracks residency run unreleased ahead) : Tracks residency run.takeReleasable
      (unreleased ++ run.registry.takeReleasable.1) ahead := by
  have taken (tested : ModelGeneration) (member : tested ∈ run.registry.takeReleasable.1) :
      tested ≠ run.current ∧ tested ∈ registeredModels run := by
    obtain ⟨different, unused⟩ := (tracks.leases.waiting tested).mp member
    exact ⟨different, mem_registeredModels.mpr (by rw [unused]; rfl)⟩
  refine {
    leases := tracks.leases.takeReleasable
    registered := fun tested member =>
      tracks.registered tested (mem_takeReleasable.mp member).1
    released := fun tested member => ?_
    older := fun tested member =>
      tracks.older tested (mem_takeReleasable.mp member).1
    superseded := fun tested member => ?_
    apart := fun tested member => ?_
    distinct := ?_
    announced := tracks.announced
    ordered := tracks.ordered
    room := tracks.room }
  · rcases mem_append.mp member with earlier | late
    · exact tracks.released tested earlier
    · exact tracks.registered tested (taken tested late).2
  · rcases mem_append.mp member with earlier | late
    · exact tracks.superseded tested earlier
    · obtain ⟨different, own⟩ := taken tested late
      refine Nat.lt_of_le_of_ne (tracks.older tested own) fun equal => ?_
      exact different (eq_of_generation (tracks.registered tested own)
        (tracks.registered _ tracks.current_registered) equal)
  · rw [mem_takeReleasable]
    rintro ⟨own, kept⟩
    rcases mem_append.mp member with earlier | late
    · exact tracks.apart tested earlier own
    · exact kept late
  · refine nodup_append.mpr ⟨tracks.distinct, tracks.leases.queued, ?_⟩
    rintro tested earlier other late rfl
    exact tracks.apart tested earlier (taken tested late).2

theorem forget {rest} (tracks : Tracks residency run unreleased ahead)
    (fewer : rest.Sublist ahead) : Tracks residency run unreleased rest :=
  { tracks with
    announced := fun told member => tracks.announced told (fewer.subset member)
    ordered := tracks.ordered.sublist (((fewer.map _).append (List.Sublist.refl _)).cons_cons _) }

/-! ### Steps of the evaluator -/

section

variable (tracks : Tracks residency run unreleased ahead)
include tracks

theorem keepingTables (versions : next.versionsByGeneration = residency.versionsByGeneration)
    (active : next.activeGeneration = residency.activeGeneration)
    (limit : next.maxResidentModelGenerations = residency.maxResidentModelGenerations) :
    Tracks next run unreleased ahead := by
  have held (told : Nat × ModelVersion) : Holds next told ↔ Holds residency told := by
    unfold Holds
    rw [versions]
  exact {
    leases := tracks.leases
    registered := fun model member =>
      (held _).mpr (tracks.registered model member)
    released := fun model member => (held _).mpr (tracks.released model member)
    older := tracks.older
    superseded := tracks.superseded
    apart := tracks.apart
    distinct := tracks.distinct
    announced := fun told member => (held _).mpr (tracks.announced told member)
    ordered := active ▸ tracks.ordered
    room := limit ▸ tracks.room }

theorem load (move : LoaderMove residency next) : Tracks next run unreleased ahead := by
  obtain ⟨_, _, _, _, rfl⟩ := move.eq
  exact tracks.keepingTables rfl rfl rfl

theorem announce (sound : residency.Sound) :
    Tracks residency run unreleased (ahead ++ [residency.modelGeneration]) where
  leases := tracks.leases
  registered := tracks.registered
  released := tracks.released
  older := tracks.older
  superseded := tracks.superseded
  apart := tracks.apart
  distinct := tracks.distinct
  announced told member := by
    rcases mem_append.mp member with earlier | last
    · exact tracks.announced told earlier
    · cases mem_singleton.mp last
      exact Server.active_known sound
  ordered := by
    have ordered := tracks.ordered
    rw [← cons_append] at ordered ⊢
    rw [map_append, ← cons_append]
    refine pairwise_append.mpr ⟨ordered, pairwise_singleton _ _, fun number member last own => ?_⟩
    cases mem_singleton.mp own
    rcases mem_append.mp member with earlier | active
    · exact (pairwise_append.mp ordered).2.2 _ earlier _ mem_cons_self
    · cases mem_singleton.mp active
      exact Nat.le_refl _
  room := tracks.room

theorem adopt (sound : residency.Sound) (slot : ServingSlot) :
    Tracks (residency.adopt slot) run unreleased ahead := by
  have kept {told : Nat × ModelVersion} (held : Holds residency told) :
      Holds (residency.adopt slot) told := by
    have older := (sound.older held).2
    have later := sound.next
    change (residency.versionsByGeneration.insert residency.nextGeneration
      slot.modelVersion).get? told.1 = _
    rw [Table.get?_insert_of_ne (by omega)]
    exact held
  refine {
    leases := tracks.leases
    registered := fun model member => kept (tracks.registered model member)
    released := fun model member => kept (tracks.released model member)
    older := tracks.older
    superseded := tracks.superseded
    apart := tracks.apart
    distinct := tracks.distinct
    announced := fun told member => kept (tracks.announced told member)
    ordered := ?_
    room := tracks.room }
  have ordered := tracks.ordered
  have later : residency.activeGeneration ≤ (residency.adopt slot).activeGeneration := by
    change _ ≤ residency.nextGeneration
    rw [sound.next]
    exact Nat.le_succ _
  rw [← cons_append] at ordered ⊢
  obtain ⟨earlier, _, below⟩ := pairwise_append.mp ordered
  refine pairwise_append.mpr ⟨earlier, pairwise_singleton _ _, fun number member last own => ?_⟩
  cases mem_singleton.mp own
  exact (below number member _ mem_cons_self).trans later

end

theorem release_isOk (tracks : Tracks residency run (model :: unreleased) ahead)
    (sound : residency.Sound) :
    model.id.toNat ≠ residency.activeGeneration ∧
      ∃ next, residency.releaseModelGeneration model.id.toNat model.version = .ok next := by
  have older := tracks.superseded model mem_cons_self
  have active := tracks.current_le
  have other : model.id.toNat ≠ residency.activeGeneration := by omega
  exact ⟨other, sound.release_isOk other (tracks.released model mem_cons_self)⟩

theorem release (tracks : Tracks residency run (model :: unreleased) ahead)
    (done : residency.releaseModelGeneration model.id.toNat model.version =
      .ok next) : Tracks next run unreleased ahead := by
  obtain ⟨_, own, rfl⟩ := Residency.releaseModelGeneration_eq_ok done
  have older := tracks.superseded model mem_cons_self
  obtain ⟨once, distinct⟩ := nodup_cons.mp tracks.distinct
  have kept {told : Nat × ModelVersion} (held : Holds residency told)
      (other : told.1 ≠ model.id.toNat) :
      (residency.versionsByGeneration.erase model.id.toNat).get? told.1 = some told.2 := by
    rw [Table.get?_erase_of_ne other]
    exact held
  have apart {tested : ModelGeneration} (held : Holds residency (told tested))
      (different : tested ≠ model) : (told tested).1 ≠ model.id.toNat :=
    fun equal => different (eq_of_generation held own equal)
  refine {
    leases := tracks.leases
    registered := fun tested member => ?_
    released := fun tested member => ?_
    older := tracks.older
    superseded := fun tested member =>
      tracks.superseded tested (mem_cons_of_mem _ member)
    apart := fun tested member =>
      tracks.apart tested (mem_cons_of_mem _ member)
    distinct := distinct
    announced := fun told member => ?_
    ordered := tracks.ordered
    room := tracks.room }
  · have held := tracks.registered tested member
    refine kept held (apart held ?_)
    rintro rfl
    exact tracks.apart tested mem_cons_self member
  · have held := tracks.released tested (mem_cons_of_mem _ member)
    refine kept held (apart held ?_)
    rintro rfl
    exact once member
  · have later := tracks.ahead_le member
    exact kept (tracks.announced told member) (by omega)

end Tracks

end GraphZero.Connection
