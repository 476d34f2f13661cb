import GraphZero.Engine.Refs

/-!
# Leases on models

The registry knows the models that the evaluator holds and how many episodes
use each.  A model that is neither current nor used is put in a queue, and
what is in the queue leaves the registry when it is taken.
-/

namespace GraphZero.Orchestrator

open Engine List

/-- An error of the orchestrator itself. -/
def internal (message : String) : EngineError :=
  .internal 1 message

structure ModelGeneration where
  id : UInt64
  version : ModelVersion
  deriving DecidableEq

structure ModelGenerationState where
  model : ModelGeneration
  users : Nat

structure ModelLeaseState where
  current : ModelGeneration
  generations : List ModelGenerationState
  releasable : List ModelGeneration

structure ModelLeaseRegistry where
  state : ModelLeaseState
  maxResidentGenerations : Nat

section Generations

def usersOf (generations : List ModelGenerationState) (model : ModelGeneration) : Option Nat :=
  (generations.find? (·.model = model)).map (·.users)

/-- Changes the users of the first generation of a model. -/
def setUsers (model : ModelGeneration) (users : Nat) :
    List ModelGenerationState → List ModelGenerationState
  | [] => []
  | generation :: rest =>
    if generation.model = model then { generation with users } :: rest
    else generation :: setUsers model users rest

variable {generations : List ModelGenerationState} {model tested : ModelGeneration} {users : Nat}

theorem usersOf_cons (generation : ModelGenerationState) :
    usersOf (generation :: generations) tested =
      if generation.model = tested then some generation.users
      else usersOf generations tested := by
  unfold usersOf
  rw [find?_cons]
  by_cases same : generation.model = tested
  · rw [if_pos same, decide_eq_true same]
    rfl
  · rw [if_neg same, decide_eq_false same]

theorem usersOf_isSome : (usersOf generations tested).isSome = true ↔
      tested ∈ generations.map (·.model) := by
  unfold usersOf
  rw [Option.isSome_map, find?_isSome, mem_map]
  simp only [decide_eq_true_eq]

theorem usersOf_setUsers (registered : (usersOf generations model).isSome)
    (users : Nat) (tested : ModelGeneration) :
    usersOf (setUsers model users generations) tested = if tested = model then some users
      else usersOf generations tested := by
  induction generations with
  | nil => cases registered
  | cons generation rest ih =>
    unfold setUsers
    by_cases here : generation.model = model
    · rw [if_pos here, usersOf_cons, usersOf_cons]
      rw [here]
      by_cases same : tested = model
      · rw [if_pos same.symm, if_pos same]
      · rw [if_neg (Ne.symm same), if_neg same, if_neg (Ne.symm same)]
    · rw [if_neg here, usersOf_cons, usersOf_cons]
      rw [usersOf_cons, if_neg here] at registered
      rw [ih registered]
      by_cases same : tested = model
      · subst same
        rw [if_neg here, if_pos rfl, if_pos rfl]
      · rw [if_neg same, if_neg same]

@[simp]
theorem models_setUsers : (setUsers model users generations).map (·.model) =
      generations.map (·.model) := by
  induction generations with
  | nil => rfl
  | cons generation rest ih =>
    unfold setUsers
    split
    · rfl
    · exact congrArg (generation.model :: ·) ih

@[simp]
theorem length_setUsers : (setUsers model users generations).length = generations.length := by
  have same := congrArg List.length
    (models_setUsers : (setUsers model users generations).map (·.model) = _)
  rwa [length_map, length_map] at same

theorem usersOf_push (absent : model ∉ generations.map (·.model)) :
    usersOf (generations ++ [⟨model, users⟩]) tested =
      if tested = model then some users else usersOf generations tested := by
  induction generations with
  | nil =>
    rw [nil_append, usersOf_cons]
    by_cases same : tested = model
    · rw [if_pos same.symm, if_pos same]
    · rw [if_neg (Ne.symm same), if_neg same]
  | cons generation rest ih =>
    rw [map_cons, mem_cons, not_or] at absent
    rw [cons_append, usersOf_cons, usersOf_cons, ih absent.2]
    by_cases same : tested = model
    · subst same
      rw [if_neg (Ne.symm absent.1), if_pos rfl, if_pos rfl]
    · rw [if_neg same, if_neg same]

theorem usersOf_filter (keeps : ModelGeneration → Bool) :
    usersOf (generations.filter (keeps ·.model)) tested =
      if keeps tested then usersOf generations tested else none := by
  induction generations with
  | nil =>
    split
    · rfl
    · rfl
  | cons generation rest ih =>
    rw [filter_cons, usersOf_cons]
    by_cases same : generation.model = tested
    · subst same
      rw [if_pos rfl]
      split
      · rw [usersOf_cons, if_pos rfl]
      · next dropped =>
        rw [ih, if_neg dropped]
    · rw [if_neg same, ← ih]
      split
      · rw [usersOf_cons, if_neg same]
      · rfl

theorem any_unused_iff (distinct : (generations.map (·.model)).Nodup) :
    generations.any (fun generation =>
        generation.model = tested ∧ generation.users = 0) = true ↔
      usersOf generations tested = some 0 := by
  induction generations with
  | nil => exact iff_of_false Bool.false_ne_true nofun
  | cons generation rest ih =>
    rw [map_cons, nodup_cons] at distinct
    rw [any_cons, Bool.or_eq_true, decide_eq_true_eq, ih distinct.2, usersOf_cons]
    by_cases same : generation.model = tested
    · have absent : usersOf rest tested = none := by
        rw [← Option.isNone_iff_eq_none, ← Option.isSome_eq_false_iff,
          ← Bool.not_eq_true, usersOf_isSome, ← same]
        exact distinct.1
      rw [if_pos same, absent]
      simp [same]
    · simp [same]

end Generations

def queueModelRelease (state : ModelLeaseState) (model : ModelGeneration) : ModelLeaseState :=
  if model ∈ state.releasable then state
  else { state with releasable := state.releasable ++ [model] }

namespace ModelLeaseRegistry

def new (current : ModelGeneration) (maxResidentGenerations : Nat) :
    EngineResult ModelLeaseRegistry :=
  if current.id = 0 then .error (internal "zero model generation")
  else if maxResidentGenerations < 2 then
    .error (internal "resident model generation capacity below two")
  else .ok ⟨⟨current, [⟨current, 0⟩], []⟩, maxResidentGenerations⟩

/-- The lease's model; there is none where the code panics. -/
def acquireCurrent (registry : ModelLeaseRegistry) :
    Option (ModelGeneration × ModelLeaseRegistry) :=
  let state := registry.state
  (usersOf state.generations state.current).map fun users =>
    (state.current,
      { registry with
        state := { state with
          generations :=
            setUsers state.current (users + 1) state.generations } })

def publish (registry : ModelLeaseRegistry) (model : ModelGeneration) :
    EngineResult ModelLeaseRegistry :=
  let state := registry.state
  if model.id = 0 then .error (internal "zero model generation")
  else if state.current = model then .ok registry
  else if state.generations.any fun generation =>
      generation.model.id = model.id ∧ generation.model.version ≠ model.version then
    .error (internal "model generation id changed version")
  else if state.generations.any fun generation =>
      generation.model.version = model.version ∧ generation.model.id ≠ model.id then
    .error (internal "model version has multiple resident generations")
  else
    let absent := state.generations.all (·.model ≠ model)
    if absent ∧ state.generations.length ≥ registry.maxResidentGenerations then
      .error (internal "too many resident model generations")
    else
      let generations :=
        if absent then state.generations ++ [⟨model, 0⟩]
        else state.generations
      let previous := state.current
      let state := { state with current := model, generations }
      let state :=
        if generations.any fun generation =>
            generation.model = previous ∧ generation.users = 0 then
          queueModelRelease state previous
        else state
      .ok { registry with state }

def takeReleasable (registry : ModelLeaseRegistry) : List ModelGeneration × ModelLeaseRegistry :=
  let models := registry.state.releasable
  (models,
    { registry with
      state := { registry.state with
        generations := registry.state.generations.filter
          (fun generation => !models.contains generation.model)
        releasable := [] } })

/-- Gives a lease back; there is no registry where the code panics. -/
def drop (registry : ModelLeaseRegistry) (model : ModelGeneration) : Option ModelLeaseRegistry :=
  let state := registry.state
  match usersOf state.generations model with
  | none => some registry
  | some 0 => none
  | some (users + 1) =>
    let state := { state with
      generations := setUsers model users state.generations }
    some { registry with
      state :=
        if users = 0 ∧ state.current ≠ model then
          queueModelRelease state model
        else state }

end ModelLeaseRegistry

end GraphZero.Orchestrator
