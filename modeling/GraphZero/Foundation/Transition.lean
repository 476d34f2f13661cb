import Mathlib.Logic.Relation

/-!
# Transition systems

A component is a set of initial states and a step relation labelled by what
happened.  `Reaches` is a run of any length, `Reachable` a run from an initial
state.  Each invariant is proved once for a step; the rules below carry it to
runs.
-/

namespace GraphZero.Foundation

universe u v

structure TransitionSystem (σ : Type u) (ℓ : Type v) where
  initial : σ → Prop
  step : σ → ℓ → σ → Prop

namespace TransitionSystem

variable {σ : Type u} {ℓ : Type v} (system : TransitionSystem σ ℓ)

/-- The same system with only the steps that meet `allowed`. -/
def guarded (allowed : σ → ℓ → Prop) : TransitionSystem σ ℓ where
  initial := system.initial
  step source label target :=
    allowed source label ∧ system.step source label target

/-- A run whose labels, in order, are `labels`. -/
inductive Run : σ → List ℓ → σ → Prop
  | refl (state : σ) : Run state [] state
  | snoc {source mid target labels label} :
    Run source labels mid →
    system.step mid label target →
    Run source (labels ++ [label]) target

/-- `target` lies on some run from `source`. -/
def Reaches (source target : σ) : Prop :=
  ∃ labels, system.Run source labels target

/-- `state` lies on some run from an initial state. -/
def Reachable (state : σ) : Prop :=
  ∃ start, system.initial start ∧ system.Reaches start state

variable {system}

variable {source target : σ} {label : ℓ} {labels : List ℓ} {good : σ → Prop}

theorem Run.single (step : system.step source label target) : system.Run source [label] target := by
  have start : system.Run source [] source := Run.refl source
  exact Run.snoc start step

theorem Run.eq_of_nil (run : system.Run source labels target) (nothing : labels = []) :
    source = target := by
  cases run with
  | refl => rfl
  | snoc before step => simp at nothing

theorem Run.step_of_single (run : system.Run source [label] target) :
    system.step source label target := by
  generalize single : [label] = labels at run
  cases run with
  | refl => cases single
  | snoc before step =>
    have split : ([] : List ℓ) ++ [label] = _ ++ [_] := single
    obtain ⟨nothing, same⟩ := List.append_inj' split rfl
    cases same
    rw [before.eq_of_nil nothing.symm]
    exact step

variable {source target : σ} {labels : List ℓ}

theorem Run.of_guarded {allowed} (run : (system.guarded allowed).Run source labels target) :
    system.Run source labels target := by
  induction run with
  | refl => exact Run.refl _
  | snoc _ step ih => exact Run.snoc ih step.2

/-- Steps that `other` takes too, as long as they keep `good`, make the same
run there. -/
theorem Run.transfer (run : system.Run source labels target) (other : TransitionSystem σ ℓ)
    (good : σ → Prop)
    (step : ∀ state label next, label ∈ labels → good state → system.step state label next →
      other.step state label next ∧ good next)
    (start : good source) : other.Run source labels target ∧ good target := by
  induction run with
  | refl => exact ⟨Run.refl _, start⟩
  | snoc before last ih =>
    obtain ⟨earlier, holds⟩ := ih fun state label next member =>
      step state label next (List.mem_append_left _ member)
    obtain ⟨taken, kept⟩ := step _ _ _ (List.mem_append_right _ (List.mem_singleton_self _))
      holds last
    exact ⟨Run.snoc earlier taken, kept⟩

theorem Run.append {mid first second} (before : system.Run source first mid)
    (after : system.Run mid second target) :
    system.Run source (first ++ second) target := by
  induction after with
  | refl => simpa using before
  | snoc _ step ih =>
    rw [← List.append_assoc]
    exact Run.snoc ih step

theorem Run.cons {mid label} (step : system.step source label mid)
    (after : system.Run mid labels target) :
    system.Run source (label :: labels) target :=
  (Run.single step).append after

theorem Run.of_foldlM {next} (steps : ∀ {source label target}, next source label = some target →
      system.step source label target) (followed : labels.foldlM next source = some target) :
    system.Run source labels target := by
  induction labels generalizing source with
  | nil =>
    cases followed
    exact Run.refl _
  | cons label rest ih =>
    rw [List.foldlM_cons, Option.bind_eq_bind, Option.bind_eq_some_iff] at followed
    obtain ⟨mid, stepped, remaining⟩ := followed
    exact Run.cons (steps stepped) (ih remaining)

/-- What every step between states satisfying `good` preserves, every run
whose start satisfies it preserves. -/
theorem Run.invariant (run : system.Run source labels target)
    (preserved : ∀ state label next, good state → system.step state label next → good next)
    (start : good source) : good target := by
  induction run with
  | refl => exact start
  | snoc _ step ih => exact preserved _ _ _ ih step

theorem Run.invariant_of_labels {allowed : ℓ → Prop} (run : system.Run source labels target)
    (all : ∀ label ∈ labels, allowed label)
    (preserved : ∀ state label next,
      allowed label → good state → system.step state label next → good next)
    (start : good source) : good target := by
  induction run with
  | refl => exact start
  | snoc _ step ih =>
    have earlier := ih fun label member =>
      all label (List.mem_append_left _ member)
    exact preserved _ _ _ (all _ (by simp)) earlier step

theorem Run.history (run : system.Run source labels target) (good : List ℓ → σ → Prop)
    (preserved : ∀ earlier state label next,
      good earlier state → system.step state label next → good (earlier ++ [label]) next)
    (start : good [] source) : good labels target := by
  induction run with
  | refl => exact start
  | snoc _ step ih => exact preserved _ _ _ _ ih step

theorem Reaches.refl (state : σ) : system.Reaches state state :=
  ⟨[], Run.refl state⟩

theorem Reaches.trans {mid} (before : system.Reaches source mid)
    (after : system.Reaches mid target) :
    system.Reaches source target := by
  obtain ⟨first, firstRun⟩ := before
  obtain ⟨second, secondRun⟩ := after
  exact ⟨first ++ second, firstRun.append secondRun⟩

theorem Reaches.step {mid label} (before : system.Reaches source mid)
    (step : system.step mid label target) :
    system.Reaches source target :=
  before.trans ⟨[label], Run.single step⟩

theorem Reachable.reaches (reachable : system.Reachable source)
    (after : system.Reaches source target) :
    system.Reachable target := by
  obtain ⟨start, initial, before⟩ := reachable
  exact ⟨start, initial, before.trans after⟩

theorem Reachable.invariant {state} (reachable : system.Reachable state)
    (initially : ∀ start, system.initial start → good start)
    (preserved : ∀ state label next, good state → system.step state label next → good next) :
    good state := by
  obtain ⟨start, initial, labels, run⟩ := reachable
  exact run.invariant preserved (initially start initial)

theorem Reachable.invariant_given {known good : σ → Prop} {state}
    (reachable : system.Reachable state) (always : ∀ state, system.Reachable state → known state)
    (initially : ∀ start, system.initial start → good start)
    (preserved : ∀ state label next,
      known state → good state → system.step state label next → good next) :
    good state := by
  obtain ⟨start, initial, labels, run⟩ := reachable
  induction run with
  | refl => exact initially start initial
  | snoc before step ih => exact preserved _ _ _ (always _ ⟨start, initial, _, before⟩) ih step

end TransitionSystem

end GraphZero.Foundation
