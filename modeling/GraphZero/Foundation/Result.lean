import Mathlib.Data.List.Forall2

/-!
# Computations that may fail

What the success of a composed computation says about its parts.
-/

namespace GraphZero.Foundation

universe u v

variable {ε δ : Type u} {α β : Type v}

theorem ok_bind {value} {rest : α → Except ε β} : (Except.ok value >>= rest) = rest value :=
  rfl

theorem ok_of_bind {first} {rest : α → Except ε β} {value}
    (success : (first >>= rest) = .ok value) :
    ∃ intermediate, first = .ok intermediate ∧ rest intermediate = .ok value := by
  cases first with
  | error failure => cases success
  | ok intermediate => exact ⟨intermediate, rfl, success⟩

theorem ok_of_toOption {result : Except ε α} {value} (found : result.toOption = some value) :
    result = .ok value := by
  cases result with
  | error failure => cases found
  | ok intermediate =>
    cases found
    rfl

theorem ok_of_mapError {result : Except ε α} {translate : ε → δ} {value}
    (success : result.mapError translate = .ok value) :
    result = .ok value := by
  cases result with
  | error failure => cases success
  | ok intermediate =>
    cases success
    rfl

variable {condition : Prop} {γ : Type u}

theorem ok_of_guard [Decidable condition] {failure skipped rest} {value : α}
    (success : (if condition then
        (throw failure : Except ε PUnit) >>= skipped
      else
        rest) = .ok value) :
    ¬ condition ∧ rest = .ok value := by
  by_cases taken : condition
  · rw [if_pos taken] at success
    cases success
  · rw [if_neg taken] at success
    exact ⟨taken, success⟩

theorem bind_eq_ok_iff {first} {rest : PUnit → Except ε α} {value} :
    (first >>= rest) = .ok value ↔ first = .ok ⟨⟩ ∧ rest ⟨⟩ = .ok value := by
  cases first with
  | error failure => exact iff_of_false nofun (fun both => nomatch both.1)
  | ok nothing => exact (and_iff_right rfl).symm

section

variable [Decidable condition] {failure : ε} {skipped : PUnit → Except ε α} {rest : Except ε α}
  {value : α}

theorem guard_eq_ok_iff : (if condition then
        (Except.error failure : Except ε PUnit) >>= skipped
      else
        rest) = .ok value ↔ ¬ condition ∧ rest = .ok value := by
  constructor
  · exact ok_of_guard
  · intro ⟨passed, success⟩
    rw [if_neg passed]
    exact success

theorem throw_bind_else_eq_ok_iff : (if condition then
        (throw failure : Except ε PUnit) >>= skipped
      else
        rest) = .ok value ↔ ¬ condition ∧ rest = .ok value :=
  guard_eq_ok_iff

end

theorem throw_else_eq_ok_iff [Decidable condition] {failure} {rest : Except ε α} {value} :
    (if condition then throw failure else rest) = .ok value ↔ ¬ condition ∧ rest = .ok value := by
  by_cases taken : condition
  · rw [if_pos taken]
    exact iff_of_false nofun (fun both => both.1 taken)
  · rw [if_neg taken]
    exact (and_iff_right taken).symm

variable {inputs : List γ}

theorem forall₂_of_mapM_eq_ok {step : γ → Except ε α} {outputs}
    (done : inputs.mapM step = .ok outputs) :
    List.Forall₂ (fun input output => step input = .ok output) inputs outputs := by
  induction inputs generalizing outputs with
  | nil =>
    cases done
    exact .nil
  | cons input inputs ih =>
    rw [List.mapM_cons] at done
    obtain ⟨output, first, done⟩ := ok_of_bind done
    obtain ⟨others, rest, done⟩ := ok_of_bind done
    cases done
    exact .cons first (ih rest)

theorem exists_mapM_eq_ok {step : γ → Except ε α} {relates}
    (each : ∀ input ∈ inputs, ∃ output, step input = .ok output ∧ relates input output) :
    ∃ outputs, inputs.mapM step = .ok outputs ∧ List.Forall₂ relates inputs outputs := by
  induction inputs with
  | nil => exact ⟨[], rfl, .nil⟩
  | cons input inputs ih =>
    obtain ⟨first, rest⟩ := List.forall_mem_cons.mp each
    obtain ⟨output, here, related⟩ := first
    obtain ⟨outputs, there, others⟩ := ih rest
    refine ⟨output :: outputs, ?_, .cons related others⟩
    rw [List.mapM_cons, here, there]
    rfl

theorem mapM_eq_ok {items : List γ} {read : γ → Except ε α} {value}
    (each : ∀ item ∈ items, read item = .ok (value item)) :
    items.mapM read = .ok (items.map value) := by
  induction items with
  | nil => rfl
  | cons item items ih =>
    rw [List.mapM_cons, each item List.mem_cons_self, ih fun other member =>
        each other (List.mem_cons_of_mem _ member)]
    rfl

theorem forall₂_of_mapM_eq_some {step} {outputs : List α} (done : inputs.mapM step = some outputs) :
    List.Forall₂ (fun input output => step input = some output) inputs outputs := by
  induction inputs generalizing outputs with
  | nil =>
    cases done
    exact .nil
  | cons input inputs ih =>
    rw [List.mapM_cons] at done
    obtain ⟨output, first, done⟩ := Option.bind_eq_some_iff.mp done
    obtain ⟨others, rest, done⟩ := Option.bind_eq_some_iff.mp done
    cases done
    exact .cons first (ih rest)

end GraphZero.Foundation
