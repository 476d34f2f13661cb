import GraphZero.Foundation.Transition
import GraphZero.Orchestrator.Leases

/-!
# Runs of the lease registry

Episodes acquire and drop leases, the batcher publishes models and takes what
may be released, in any order.  The queue is right as long as no model is
published while it waits there.
-/

namespace GraphZero.Orchestrator

open Engine Foundation List

/-! ## What publishing does -/

namespace ModelLeaseState

/-- The state once a registered model is made current. -/
def supersede (state : ModelLeaseState) (model : ModelGeneration)
    (generations : List ModelGenerationState) : ModelLeaseState :=
  let next := { state with current := model, generations }
  if generations.any fun generation =>
      generation.model = state.current ∧ generation.users = 0 then
    queueModelRelease next state.current
  else next

def registered (state : ModelLeaseState) (model : ModelGeneration) : List ModelGenerationState :=
  if state.generations.all (·.model ≠ model) then
    state.generations ++ [⟨model, 0⟩]
  else state.generations

variable {state : ModelLeaseState} {model tested : ModelGeneration}

theorem all_ne_iff : state.generations.all (·.model ≠ model) = true ↔
      model ∉ state.generations.map (·.model) := by
  rw [all_eq_true, mem_map]
  simp only [decide_eq_true_eq, not_exists, not_and]

theorem usersOf_registered (state : ModelLeaseState) (model tested : ModelGeneration) :
    usersOf (state.registered model) tested = if tested = model then
        some ((usersOf state.generations model).getD 0)
      else usersOf state.generations tested := by
  unfold registered
  by_cases absent : model ∉ state.generations.map (·.model)
  · have none : usersOf state.generations model = none := by
      rw [← Option.isNone_iff_eq_none, ← Option.isSome_eq_false_iff,
        ← Bool.not_eq_true, usersOf_isSome]
      exact absent
    rw [if_pos (all_ne_iff.mpr absent), usersOf_push absent, none]
    rfl
  · rw [if_neg (fun all => absent (all_ne_iff.mp all))]
    have present := usersOf_isSome.mpr (not_not.mp absent)
    by_cases same : tested = model
    · subst same
      rw [if_pos rfl]
      obtain ⟨users, found⟩ := Option.isSome_iff_exists.mp present
      rw [found]
      rfl
    · rw [if_neg same]

theorem nodup_registered (model : ModelGeneration)
    (distinct : (state.generations.map (·.model)).Nodup) :
    ((state.registered model).map (·.model)).Nodup := by
  unfold registered
  split
  · next absent =>
    rw [map_append]
    refine distinct.append (nodup_singleton model) ?_
    exact disjoint_singleton.mpr (all_ne_iff.mp absent)
  · exact distinct

theorem supersede_eq {generations} (distinct : (generations.map (·.model)).Nodup)
    (unqueued : state.current ∉ state.releasable) :
    state.supersede model generations = ⟨model, generations,
        if usersOf generations state.current = some 0 then
          state.releasable ++ [state.current]
        else state.releasable⟩ := by
  unfold supersede queueModelRelease
  dsimp only
  rw [if_neg unqueued]
  by_cases unused : usersOf generations state.current = some 0
  · rw [if_pos unused, if_pos ((any_unused_iff distinct).mpr unused)]
  · rw [if_neg unused, if_neg fun any => unused ((any_unused_iff distinct).mp any)]

theorem length_registered_le {limit} (bounded : state.generations.length ≤ limit)
    (room : state.generations.length < limit ∨ state.registered model = state.generations) :
    (state.registered model).length ≤ limit := by
  rcases room with room | same
  · unfold registered
    split
    · rw [length_append]
      exact room
    · exact bounded
  · rw [same]
    exact bounded

end ModelLeaseState

theorem publish_eq_ok {registry next : ModelLeaseRegistry} {model}
    (done : registry.publish model = .ok next) :
    (registry.state.current = model ∧ next = registry) ∨ (registry.state.current ≠ model ∧
        ((registry.state.generations.length < registry.maxResidentGenerations) ∨
          registry.state.registered model = registry.state.generations) ∧
        next = { registry with
          state := registry.state.supersede model (registry.state.registered model) }) := by
  unfold ModelLeaseRegistry.publish at done
  dsimp only at done
  split at done
  · cases done
  split at done
  · next same =>
    cases done
    exact .inl ⟨same, rfl⟩
  next different =>
  split at done
  · cases done
  split at done
  · cases done
  split at done
  · cases done
  next room =>
  cases done
  refine .inr ⟨different, ?_, rfl⟩
  rw [not_and_or, not_le] at room
  rcases room with present | room
  · right
    unfold ModelLeaseState.registered
    rw [if_neg present]
  · exact .inl room

/-- A registry, the leases that are out, and what happened to its models. -/
structure LeaseRun where
  registry : ModelLeaseRegistry
  leases : List ModelGeneration
  /-- A model for each time it stopped being current. -/
  superseded : List ModelGeneration
  /-- A model for each time it became current again while it was in use. -/
  reinstated : List ModelGeneration
  /-- A model for each time it was taken to be released. -/
  returned : List ModelGeneration

namespace LeaseRun

def ofRegistry (registry : ModelLeaseRegistry) : LeaseRun :=
  ⟨registry, [], [], [], []⟩

def current (run : LeaseRun) : ModelGeneration :=
  run.registry.state.current

def afterAcquire (run : LeaseRun) (acquired : ModelGeneration × ModelLeaseRegistry) : LeaseRun :=
  { run with
    registry := acquired.2, leases := acquired.1 :: run.leases }

def afterDrop (run : LeaseRun) (model : ModelGeneration)
    (registry : ModelLeaseRegistry) : LeaseRun :=
  { run with registry, leases := run.leases.erase model }

def afterPublish (run : LeaseRun) (model : ModelGeneration)
    (registry : ModelLeaseRegistry) : LeaseRun :=
  if run.current = model then { run with registry }
  else
    { run with
      registry
      superseded := run.current :: run.superseded
      reinstated :=
        if model ∈ run.leases then model :: run.reinstated
        else run.reinstated }

def takeReleasable (run : LeaseRun) : LeaseRun :=
  { run with
    registry := run.registry.takeReleasable.2
    returned := run.registry.takeReleasable.1 ++ run.returned }

end LeaseRun

inductive LeaseLabel where
  | acquire
  | drop (model : ModelGeneration)
  | publish (model : ModelGeneration)
  | takeReleasable

inductive LeaseStep : LeaseRun → LeaseLabel → LeaseRun → Prop
  | acquire {run acquired} (done : run.registry.acquireCurrent = some acquired) :
    LeaseStep run .acquire (run.afterAcquire acquired)
  | drop {run model registry} (out : model ∈ run.leases)
    (done : run.registry.drop model = some registry) :
    LeaseStep run (.drop model) (run.afterDrop model registry)
  | publish {run model registry} (done : run.registry.publish model = .ok registry) :
    LeaseStep run (.publish model) (run.afterPublish model registry)
  | publishFailed {run model error} (failed : run.registry.publish model = .error error) :
    LeaseStep run (.publish model) run
  | takeReleasable (run : LeaseRun) :
    LeaseStep run .takeReleasable run.takeReleasable

/-- Every interleaving of leases, publications and releases. -/
def leaseSystem : TransitionSystem LeaseRun LeaseLabel where
  initial run := ∃ current maxResidentGenerations registry,
    ModelLeaseRegistry.new current maxResidentGenerations = .ok registry ∧
      run = .ofRegistry registry
  step := LeaseStep

structure LeaseRun.Meets (run : LeaseRun) : Prop where
  /-- Acquiring a lease on the current model does not panic. -/
  registered : run.registry.acquireCurrent.isSome = true
  /-- What would be taken is neither current nor in use. -/
  spares : ∀ model ∈ run.registry.takeReleasable.1,
    model ≠ run.current ∧ model ∉ run.leases
  /-- A superseded model without users is returned, or is about to be, once
  for each time it was superseded and did not become current again in use. -/
  once : ∀ model, model ≠ run.current → model ∉ run.leases →
    (run.registry.takeReleasable.1 ++ run.returned).count model + run.reinstated.count model =
      run.superseded.count model
  bounded : run.registry.state.generations.length ≤ run.registry.maxResidentGenerations

/-- No model is published while it waits to be released. -/
def LeaseRun.allows (run : LeaseRun) : LeaseLabel → Prop
  | .publish model => model ∉ run.registry.state.releasable
  | _ => True

/-! ## The invariant -/

structure LeaseRun.Sound (run : LeaseRun) : Prop where
  distinct : (run.registry.state.generations.map (·.model)).Nodup
  bounded : run.registry.state.generations.length ≤ run.registry.maxResidentGenerations
  registered : (usersOf run.registry.state.generations run.current).isSome = true
  leased : ∀ model ∈ run.leases,
    (usersOf run.registry.state.generations model).isSome = true
  counted : ∀ model users,
    usersOf run.registry.state.generations model = some users → users = run.leases.count model
  queued : run.registry.state.releasable.Nodup
  waiting : ∀ model, model ∈ run.registry.state.releasable ↔ model ≠ run.current ∧
      usersOf run.registry.state.generations model = some 0
  accounted : ∀ model, run.superseded.count model =
    run.returned.count model + run.reinstated.count model + if model ≠ run.current ∧
          (usersOf run.registry.state.generations model).isSome = true then 1
      else 0

namespace LeaseRun

variable {run next : LeaseRun} {model tested : ModelGeneration}

variable {registry : ModelLeaseRegistry}

theorem sound_ofRegistry {limit} (made : ModelLeaseRegistry.new model limit = .ok registry) :
    (ofRegistry registry).Sound := by
  unfold ModelLeaseRegistry.new at made
  split at made
  · cases made
  split at made
  · cases made
  next room =>
  cases made
  have users (tested : ModelGeneration) :
      usersOf [⟨model, 0⟩] tested = if tested = model then some 0 else none := by
    rw [usersOf_cons]
    by_cases same : tested = model
    · rw [if_pos same, if_pos same.symm]
    · rw [if_neg same, if_neg (Ne.symm same)]
      rfl
  refine ⟨nodup_singleton _, ?_, ?_, fun _ member => (by cases member),
    fun tested count found => ?_, nodup_nil, fun tested => ?_,
    fun tested => ?_⟩
  · change 1 ≤ limit
    omega
  · change (usersOf [⟨model, 0⟩] model).isSome = true
    rw [users, if_pos rfl]
    rfl
  · change usersOf [⟨model, 0⟩] tested = some count at found
    rw [users] at found
    split at found
    · cases found
      rfl
    · cases found
  · change tested ∈ [] ↔ tested ≠ model ∧ usersOf [⟨model, 0⟩] tested = some 0
    rw [users]
    by_cases same : tested = model
    · simp [same]
    · simp [same]
  · change 0 = 0 + 0 + if tested ≠ model ∧ (usersOf [⟨model, 0⟩] tested).isSome = true then 1 else 0
    rw [users]
    by_cases same : tested = model
    · simp [same]
    · simp [same]

theorem Sound.usersOf_eq (sound : run.Sound) (registered :
      (usersOf run.registry.state.generations model).isSome = true) :
    usersOf run.registry.state.generations model = some (run.leases.count model) := by
  obtain ⟨users, found⟩ := Option.isSome_iff_exists.mp registered
  rw [found, sound.counted model users found]

theorem Sound.meets (sound : run.Sound) : run.Meets where
  registered := by
    unfold ModelLeaseRegistry.acquireCurrent
    rw [Option.isSome_map]
    exact sound.registered
  spares model member := by
    obtain ⟨different, unused⟩ := (sound.waiting model).mp member
    refine ⟨different, fun leased => ?_⟩
    have none := sound.counted model 0 unused
    exact absurd (count_pos_iff.mpr leased) (by omega)
  once model different free := by
    have none : run.leases.count model = 0 := count_eq_zero.mpr free
    have accounted := sound.accounted model
    have queue : run.registry.state.releasable.count model = if model ≠ run.current ∧
          (usersOf run.registry.state.generations model).isSome = true then 1
        else 0 := by
      by_cases waits : model ∈ run.registry.state.releasable
      · rw [count_eq_one_of_mem sound.queued waits]
        obtain ⟨_, unused⟩ := (sound.waiting model).mp waits
        rw [if_pos ⟨different, by rw [unused]; rfl⟩]
      · rw [count_eq_zero.mpr waits, if_neg]
        rintro ⟨_, registered⟩
        refine waits ((sound.waiting model).mpr ⟨different, ?_⟩)
        rw [sound.usersOf_eq registered, none]
    change (run.registry.state.releasable ++ run.returned).count model + _ = _
    rw [count_append, accounted]
    omega
  bounded := sound.bounded

def recount (run : LeaseRun) (model : ModelGeneration) (users : Nat)
    (leases releasable : List ModelGeneration) : LeaseRun :=
  { run with
    registry := { run.registry with
      state := { run.registry.state with
        generations := setUsers model users run.registry.state.generations
        releasable } }
    leases }

theorem Sound.recount {users leases releasable} (sound : run.Sound)
    (registered : (usersOf run.registry.state.generations model).isSome = true)
    (count : ∀ tested, leases.count tested =
      if tested = model then users else run.leases.count tested) (queued : releasable.Nodup)
    (waiting : ∀ tested, tested ∈ releasable ↔ tested ≠ run.current ∧
      if tested = model then users = 0
      else usersOf run.registry.state.generations tested = some 0) :
    (run.recount model users leases releasable).Sound := by
  have known := usersOf_setUsers registered users
  have kept (tested : ModelGeneration) :
      (usersOf (setUsers model users run.registry.state.generations) tested).isSome =
        (usersOf run.registry.state.generations tested).isSome := by
    rw [known]
    split
    · next here =>
      rw [here, registered]
      rfl
    · rfl
  refine ⟨?_, ?_, ?_, fun tested member => ?_, fun tested number found => ?_,
    queued, fun tested => (waiting tested).trans ?_, fun tested => ?_⟩
  · change (List.map _ (setUsers _ _ _)).Nodup
    rw [models_setUsers]
    exact sound.distinct
  · change (setUsers _ _ _).length ≤ _
    rw [length_setUsers]
    exact sound.bounded
  · exact (kept _).trans sound.registered
  · refine (kept _).trans ?_
    by_cases here : tested = model
    · exact here ▸ registered
    · refine sound.leased tested (count_pos_iff.mp ?_)
      have more := count_pos_iff.mpr member
      change 0 < leases.count tested at more
      rwa [count, if_neg here] at more
  · change usersOf (setUsers _ _ _) tested = some number at found
    change number = leases.count tested
    rw [known] at found
    rw [count]
    split at found
    · next here =>
      cases found
      rw [if_pos here]
    · next other =>
      rw [if_neg other]
      exact sound.counted tested number found
  · refine and_congr_right fun _ => ?_
    change _ ↔ usersOf (setUsers _ _ _) tested = some 0
    rw [known]
    split
    · exact Option.some_inj.symm
    · exact Iff.rfl
  · refine (sound.accounted tested).trans ?_
    change _ = _ + _ + if tested ≠ run.current ∧
      (usersOf (setUsers _ _ _) tested).isSome = true then 1 else 0
    rw [kept]
    rfl

theorem Sound.acquire {acquired} (sound : run.Sound)
    (done : run.registry.acquireCurrent = some acquired) :
    (run.afterAcquire acquired).Sound := by
  obtain ⟨users, found, rfl⟩ := Option.map_eq_some_iff.mp done
  have same : users = run.leases.count run.current := sound.counted _ _ found
  refine sound.recount sound.registered (fun tested => ?_) sound.queued
    fun tested => (sound.waiting tested).trans ?_
  · rw [same]
    split
    · next here =>
      rw [here]
      exact count_cons_self
    · next other => exact count_cons_of_ne (Ne.symm other)
  · refine and_congr_right fun different => ?_
    exact (iff_of_eq (if_neg different)).symm

theorem Sound.drop (sound : run.Sound) (out : model ∈ run.leases)
    (done : run.registry.drop model = some registry) :
    (run.afterDrop model registry).Sound := by
  have registered := sound.leased model out
  have leased := count_pos_iff.mpr out
  have before := sound.usersOf_eq registered
  obtain ⟨users, more⟩ := Nat.exists_eq_add_one.mpr leased
  rw [more] at before
  unfold ModelLeaseRegistry.drop at done
  dsimp only at done
  rw [before] at done
  have count (tested : ModelGeneration) : (run.leases.erase model).count tested =
        if tested = model then users else run.leases.count tested := by
    split
    · next here =>
      rw [here, count_erase_self, more]
      rfl
    · next other => exact count_erase_of_ne other
  have unqueued : model ∉ run.registry.state.releasable := by
    intro waits
    obtain ⟨_, none⟩ := (sound.waiting model).mp waits
    rw [before] at none
    cases none
  have kept (tested : ModelGeneration) (still : ¬ (users = 0 ∧ run.current ≠ model)) :
      tested ∈ run.registry.state.releasable ↔ tested ≠ run.current ∧
        if tested = model then users = 0
        else usersOf run.registry.state.generations tested = some 0 := by
    by_cases here : tested = model
    · subst here
      refine iff_of_false unqueued fun both => still ⟨?_, both.1.symm⟩
      simpa using both.2
    · rw [if_neg here]
      exact sound.waiting tested
  have grown (tested : ModelGeneration) (none : users = 0) (different : run.current ≠ model) :
      tested ∈ run.registry.state.releasable ++ [model] ↔ tested ≠ run.current ∧
        if tested = model then users = 0
        else usersOf run.registry.state.generations tested = some 0 := by
    rw [mem_append, mem_singleton]
    by_cases here : tested = model
    · subst here
      rw [if_pos rfl]
      exact iff_of_true (.inr rfl) ⟨different.symm, none⟩
    · rw [if_neg here, or_iff_left here]
      exact sound.waiting tested
  cases done
  by_cases unused : users = 0 ∧ run.registry.state.current ≠ model
  · have queues := sound.recount registered count (sound.queued.append (nodup_singleton model)
        (disjoint_singleton.mpr unqueued))
      fun tested => grown tested unused.1 unused.2
    rw [if_pos unused]
    unfold queueModelRelease
    rw [if_neg unqueued]
    exact queues
  · have stays := sound.recount registered count sound.queued fun tested => kept tested unused
    rw [if_neg unused]
    exact stays

theorem Sound.takeReleasable (sound : run.Sound) : run.takeReleasable.Sound := by
  have known (tested : ModelGeneration) :
      usersOf run.takeReleasable.registry.state.generations tested =
        if tested ∈ run.registry.state.releasable then none
        else usersOf run.registry.state.generations tested := by
    refine (usersOf_filter (fun model => !run.registry.state.releasable.contains model)).trans ?_
    by_cases waits : tested ∈ run.registry.state.releasable
    · simp [waits]
    · simp [waits]
  have kept : run.current ∉ run.registry.state.releasable :=
    fun waits => ((sound.waiting _).mp waits).1 rfl
  have used (tested : ModelGeneration) (leased : tested ∈ run.leases) :
      tested ∉ run.registry.state.releasable := by
    intro waits
    have none := sound.counted tested 0 ((sound.waiting tested).mp waits).2
    exact absurd (count_pos_iff.mpr leased) (by omega)
  refine ⟨?_, ?_, ?_, fun tested member => ?_, fun tested number found => ?_,
    nodup_nil, fun tested => ?_, fun tested => ?_⟩
  · exact sound.distinct.sublist (filter_sublist.map _)
  · exact (length_filter_le _ _).trans sound.bounded
  · rw [known]
    exact (congrArg Option.isSome (if_neg kept)).trans sound.registered
  · rw [known, if_neg (used tested member)]
    exact sound.leased tested member
  · rw [known] at found
    split at found
    · cases found
    · exact sound.counted tested number found
  · rw [known]
    refine iff_of_false not_mem_nil ?_
    rintro ⟨different, unused⟩
    split at unused
    · cases unused
    · next free => exact free ((sound.waiting tested).mpr ⟨different, unused⟩)
  · rw [known]
    change run.superseded.count tested =
      (run.registry.state.releasable ++ run.returned).count tested + run.reinstated.count tested + _
    rw [count_append, sound.accounted tested]
    by_cases waits : tested ∈ run.registry.state.releasable
    · obtain ⟨different, unused⟩ := (sound.waiting tested).mp waits
      rw [count_eq_one_of_mem sound.queued waits,
        if_pos ⟨different, by rw [unused]; rfl⟩, if_pos waits,
        if_neg (fun both => Bool.false_ne_true both.2)]
      omega
    · rw [count_eq_zero.mpr waits, if_neg waits, zero_add]
      rfl

section

variable (sound : run.Sound) (free : model ∉ run.registry.state.releasable)
include sound free

theorem Sound.leased_iff (different : run.current ≠ model) :
    (usersOf run.registry.state.generations model).isSome = true ↔ model ∈ run.leases := by
  refine ⟨fun registered => ?_, sound.leased model⟩
  by_contra apart
  refine free ((sound.waiting model).mpr ⟨Ne.symm different, ?_⟩)
  rw [sound.usersOf_eq registered, count_eq_zero.mpr apart]

theorem Sound.accounted_publish (different : run.current ≠ model) (tested : ModelGeneration) :
    (run.current :: run.superseded).count tested = run.returned.count tested +
        (if model ∈ run.leases then model :: run.reinstated
          else run.reinstated).count tested +
        if tested ≠ model ∧ (usersOf (run.registry.state.registered model)
          tested).isSome = true then 1 else 0 := by
  have accounted := sound.accounted tested
  by_cases here : tested = model
  · subst here
    have used := sound.leased_iff free different
    rw [count_cons_of_ne different]
    by_cases leased : tested ∈ run.leases
    · rw [if_pos ⟨Ne.symm different, used.mpr leased⟩] at accounted
      rw [if_pos leased, count_cons_self, if_neg fun both => both.1 rfl]
      omega
    · rw [if_neg fun both => leased (used.mp both.2)] at accounted
      rw [if_neg leased, if_neg fun both => both.1 rfl]
      exact accounted
  have same : (if model ∈ run.leases then model :: run.reinstated
      else run.reinstated).count tested = run.reinstated.count tested := by
    split
    · exact count_cons_of_ne (Ne.symm here)
    · rfl
  rw [same, ModelLeaseState.usersOf_registered, if_neg here]
  by_cases last : tested = run.current
  · subst last
    rw [if_neg fun both => both.1 rfl] at accounted
    rw [count_cons_self, if_pos ⟨here, sound.registered⟩]
    omega
  · rw [count_cons_of_ne (Ne.symm last), accounted]
    refine congrArg _ (if_congr ?_ rfl rfl)
    exact and_congr_left fun _ => iff_of_true last here

theorem Sound.publish (done : run.registry.publish model = .ok registry) :
    (run.afterPublish model registry).Sound := by
  unfold afterPublish
  rcases publish_eq_ok done with ⟨same, rfl⟩ | ⟨different, room, rfl⟩
  · have same : run.current = model := same
    rw [if_pos same]
    exact sound
  have different : run.current ≠ model := different
  have distinct := ModelLeaseState.nodup_registered model sound.distinct
  have users := ModelLeaseState.usersOf_registered run.registry.state model
  have other (tested : ModelGeneration) (apart : tested ≠ model) :=
    (users tested).trans (if_neg apart)
  have unqueued : run.current ∉ run.registry.state.releasable :=
    fun waits => ((sound.waiting _).mp waits).1 rfl
  have present (tested : ModelGeneration) (registered :
        (usersOf run.registry.state.generations tested).isSome = true) :
      (usersOf (run.registry.state.registered model) tested).isSome = true := by
    rw [users]
    split
    · rfl
    · exact registered
  rw [if_neg different, ModelLeaseState.supersede_eq distinct unqueued]
  have before := other run.registry.state.current different
  refine ⟨distinct, ModelLeaseState.length_registered_le sound.bounded room,
    ?_, fun tested member => present tested (sound.leased tested member),
    fun tested number found => ?_, ?_, fun tested => ?_, fun tested => ?_⟩
  · exact congrArg Option.isSome ((users model).trans (if_pos rfl))
  · have found := (users tested).symm.trans found
    split at found
    · next here =>
      subst here
      cases found
      cases registered : (usersOf run.registry.state.generations tested).isSome with
      | true =>
        rw [sound.usersOf_eq registered]
        rfl
      | false =>
        rw [Option.isSome_eq_false_iff, Option.isNone_iff_eq_none] at registered
        rw [registered]
        refine (count_eq_zero.mpr fun leased => ?_).symm
        have held := sound.leased tested leased
        rw [registered] at held
        cases held
    · exact sound.counted tested number found
  · split
    · exact sound.queued.append (nodup_singleton _) (disjoint_singleton.mpr unqueued)
    · exact sound.queued
  · by_cases here : tested = model
    · subst here
      refine iff_of_false (fun waits => ?_) (fun both => both.1 rfl)
      split at waits
      · rcases mem_append.mp waits with earlier | last
        · exact free earlier
        · exact different (mem_singleton.mp last).symm
      · exact free waits
    · rw [other tested here, before]
      have waiting := sound.waiting tested
      by_cases last : tested = run.current
      · subst last
        split
        · next unused =>
          exact iff_of_true (mem_append_right _ mem_cons_self) ⟨here, unused⟩
        · next used =>
          exact iff_of_false unqueued fun both => used both.2
      · have same : tested ∈ run.registry.state.releasable ↔ tested ≠ model ∧
              usersOf run.registry.state.generations tested = some 0 := by
          rw [waiting]
          exact and_congr_left fun _ => iff_of_true last here
        split
        · rw [mem_append, mem_singleton]
          exact (or_iff_left last).trans same
        · exact same
  · exact sound.accounted_publish free different tested

end

end LeaseRun

theorem sound_of_step {run next label} (sound : run.Sound) (allowed : run.allows label)
    (step : LeaseStep run label next) : next.Sound := by
  cases step with
  | acquire done => exact sound.acquire done
  | drop out done => exact sound.drop out done
  | publish done => exact sound.publish allowed done
  | publishFailed failed => exact sound
  | takeReleasable => exact sound.takeReleasable

/-- As long as no model is published while it waits to be released, the
registry does what it is for. -/
theorem meets_of_allowed {run : LeaseRun}
    (reachable : (leaseSystem.guarded LeaseRun.allows).Reachable run) :
    run.Meets := by
  refine LeaseRun.Sound.meets ?_
  refine reachable.invariant ?_ fun _ _ _ sound step =>
    sound_of_step sound step.1 step.2
  rintro _ ⟨current, limit, registry, made, rfl⟩
  exact LeaseRun.sound_ofRegistry made

namespace LeaseRun

instance (run : LeaseRun) (label : LeaseLabel) : Decidable (run.allows label) :=
  match label with
  | .publish model => inferInstanceAs (Decidable (model ∉ run.registry.state.releasable))
  | .acquire | .drop _ | .takeReleasable => inferInstanceAs (Decidable True)

/-- The step with a label, if there is one. -/
def next (run : LeaseRun) : LeaseLabel → Option LeaseRun
  | .acquire => run.registry.acquireCurrent.map run.afterAcquire
  | .drop model =>
    if model ∈ run.leases then
      (run.registry.drop model).map (run.afterDrop model)
    else none
  | .publish model =>
    match run.registry.publish model with
    | .ok registry => some (run.afterPublish model registry)
    | .error _ => some run
  | .takeReleasable => some run.takeReleasable

def nextAllowed (run : LeaseRun) (label : LeaseLabel) : Option LeaseRun :=
  if run.allows label then run.next label else none

theorem step_of_next {run next label} (found : run.next label = some next) :
    LeaseStep run label next := by
  cases label with
  | acquire =>
    obtain ⟨acquired, done, rfl⟩ := Option.map_eq_some_iff.mp found
    exact .acquire done
  | drop model =>
    dsimp only [LeaseRun.next] at found
    split at found
    · next out =>
      obtain ⟨registry, done, rfl⟩ := Option.map_eq_some_iff.mp found
      exact .drop out done
    · cases found
  | publish model =>
    dsimp only [LeaseRun.next] at found
    split at found
    · next done =>
      cases found
      exact .publish done
    · next failed =>
      cases found
      exact .publishFailed failed
  | takeReleasable =>
    cases found
    exact .takeReleasable run

theorem step_of_nextAllowed {run next label} (found : run.nextAllowed label = some next) :
    (leaseSystem.guarded LeaseRun.allows).step run label next := by
  unfold nextAllowed at found
  split at found
  · next allowed => exact ⟨allowed, step_of_next found⟩
  · cases found

end LeaseRun

namespace Sample

def first : ModelGeneration := ⟨1, 1⟩
def second : ModelGeneration := ⟨2, 2⟩

def start : LeaseRun := .ofRegistry ⟨⟨first, [⟨first, 0⟩], []⟩, 2⟩

end Sample

/-- A model that was superseded in use, became current again and was superseded
once more is returned once. -/
theorem meets_after_reuse : ∃ run, (leaseSystem.guarded LeaseRun.allows).Reaches Sample.start run ∧
      run.returned = [Sample.first] ∧ run.superseded = [Sample.first, Sample.second, Sample.first] ∧
          run.reinstated = [Sample.second, Sample.first] ∧ run.Meets := by
  have followed : ([.acquire, .publish Sample.second, .acquire,
      .publish Sample.first, .publish Sample.second, .drop Sample.first,
      .takeReleasable].foldlM LeaseRun.nextAllowed Sample.start).any
        (fun run => decide (run.returned = [Sample.first] ∧
          run.superseded = [Sample.first, Sample.second, Sample.first] ∧
            run.reinstated = [Sample.second, Sample.first])) = true := by
    decide +kernel
  obtain ⟨run, reached, seen⟩ := Option.any_eq_true _ _ |>.mp followed
  obtain ⟨returned, superseded, reinstated⟩ := of_decide_eq_true seen
  have reaches := TransitionSystem.Run.of_foldlM LeaseRun.step_of_nextAllowed reached
  exact ⟨run, ⟨_, reaches⟩, returned, superseded, reinstated,
    meets_of_allowed ⟨Sample.start, ⟨Sample.first, 2, _, rfl, rfl⟩, _, reaches⟩⟩

/-- A model that becomes current again before it is taken is given back to the
evaluator, and the next episode panics. -/
theorem acquire_panics : ∃ run, leaseSystem.Reaches Sample.start run ∧
      leaseSystem.Reachable run ∧ run.current ∈ run.returned ∧
        run.registry.acquireCurrent = none ∧ ¬ run.Meets := by
  have reaches : leaseSystem.Reaches Sample.start _ :=
    (((TransitionSystem.Reaches.refl Sample.start).step
      (.publish rfl : LeaseStep _ (.publish Sample.second) _)).step
        (.publish rfl : LeaseStep _ (.publish Sample.first) _)).step (LeaseStep.takeReleasable _)
  refine ⟨_, reaches, ⟨Sample.start, ⟨Sample.first, 2, _, rfl, rfl⟩, reaches⟩,
    by decide, by decide, fun meets => ?_⟩
  exact absurd meets.registered (by decide)

end GraphZero.Orchestrator
