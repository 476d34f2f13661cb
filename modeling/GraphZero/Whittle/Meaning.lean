import GraphZero.Whittle.Compaction
import Mathlib.Order.WellFounded

/-!
# What a graph computes

A graph without cycles is a Boolean function of its inputs.  Compacting it
leaves the function as it is, and a graph that was compacted once stays the
same.
-/

namespace GraphZero.Whittle

open Foundation List

inductive Evaluates (graph : GraphBody) (inputs : Nat → Bool) : Nat → Bool → Prop
  | input {node} (inside : node < graph.op.length) (code : graph.opAt node = .input) :
    Evaluates graph inputs node (inputs (graph.arg0At node))
  | const {node} (inside : node < graph.op.length) (code : graph.opAt node = .const) :
    Evaluates graph inputs node (decide (graph.arg0At node ≠ 0))
  | not {node value} (inside : node < graph.op.length) (code : graph.opAt node = .not)
    (first : Evaluates graph inputs (graph.arg0At node) value) :
    Evaluates graph inputs node (!value)
  | output {node value} (inside : node < graph.op.length) (code : graph.opAt node = .output)
    (first : Evaluates graph inputs (graph.arg0At node) value) :
    Evaluates graph inputs node value
  | and {node left right} (inside : node < graph.op.length) (code : graph.opAt node = .and)
    (first : Evaluates graph inputs (graph.arg0At node) left)
    (second : Evaluates graph inputs (graph.arg1At node) right) :
    Evaluates graph inputs node (left && right)
  | or {node left right} (inside : node < graph.op.length) (code : graph.opAt node = .or)
    (first : Evaluates graph inputs (graph.arg0At node) left)
    (second : Evaluates graph inputs (graph.arg1At node) right) :
    Evaluates graph inputs node (left || right)

namespace GraphBody

variable {graph : GraphBody} {inputs : Nat → Bool} {node : Nat}

def Computes (graph : GraphBody) (function : (Nat → Bool) → Bool) : Prop :=
  ∀ inputs value, Evaluates graph inputs graph.outputNode value ↔ value = function inputs

def Acyclic (graph : GraphBody) : Prop :=
  ∀ node, ¬ Relation.TransGen graph.Child node node

theorem acyclic_of_lt (back : ∀ node < graph.op.length,
    ∀ child ∈ graph.childrenAt node, child < node) : graph.Acyclic := by
  intro node cycle
  have less : ∀ {first last : Nat},
      Relation.TransGen graph.Child first last → last < first := by
    intro first last path
    induction path with
    | single child => exact back _ child.1 _ child.2
    | tail _ child ih => exact (back _ child.1 _ child.2).trans ih
  exact lt_irrefl node (less cycle)

variable {value : Bool}

theorem evaluates_cases (evaluates : Evaluates graph inputs node value) :
    match graph.opAt node with
    | .input => value = inputs (graph.arg0At node)
    | .const => value = decide (graph.arg0At node ≠ 0)
    | .not => ∃ first, Evaluates graph inputs (graph.arg0At node) first ∧
        value = !first
    | .output => Evaluates graph inputs (graph.arg0At node) value
    | .and => ∃ first second,
        Evaluates graph inputs (graph.arg0At node) first ∧
          Evaluates graph inputs (graph.arg1At node) second ∧ value = (first && second)
    | .or => ∃ first second,
        Evaluates graph inputs (graph.arg0At node) first ∧
          Evaluates graph inputs (graph.arg1At node) second ∧ value = (first || second) := by
  cases evaluates with
  | input _ code => simp only [code]
  | const _ code => simp only [code]
  | not _ code first =>
    simp only [code]
    exact ⟨_, first, rfl⟩
  | output _ code first =>
    simp only [code]
    exact first
  | and _ code first second | or _ code first second =>
    simp only [code]
    exact ⟨_, _, first, second, rfl⟩

theorem evaluates_unique {first second} (one : Evaluates graph inputs node first)
    (other : Evaluates graph inputs node second) : first = second := by
  induction one generalizing second with
  | input _ code | const _ code =>
    have value := evaluates_cases other
    simp only [code] at value
    exact value.symm
  | not _ code _ ih =>
    have value := evaluates_cases other
    simp only [code] at value
    obtain ⟨argument, evaluates, rfl⟩ := value
    rw [ih evaluates]
  | output _ code _ ih =>
    have value := evaluates_cases other
    simp only [code] at value
    exact ih value
  | and _ code _ _ leftHypothesis rightHypothesis | or _ code _ _ leftHypothesis rightHypothesis =>
    have value := evaluates_cases other
    simp only [code] at value
    obtain ⟨_, _, left, right, rfl⟩ := value
    rw [leftHypothesis left, rightHypothesis right]

theorem exists_evaluates_of_children (inside : node < graph.op.length)
    (children : ∀ child ∈ graph.childrenAt node, ∃ value, Evaluates graph inputs child value) :
    ∃ value, Evaluates graph inputs node value := by
  unfold childrenAt at children
  cases code : graph.opAt node with
  | input => exact ⟨_, .input inside code⟩
  | const => exact ⟨_, .const inside code⟩
  | not =>
    simp only [code] at children
    obtain ⟨_, first⟩ := children _ mem_cons_self
    exact ⟨_, .not inside code first⟩
  | output =>
    simp only [code] at children
    obtain ⟨_, first⟩ := children _ mem_cons_self
    exact ⟨_, .output inside code first⟩
  | and =>
    simp only [code] at children
    obtain ⟨first, second⟩ := forall_mem_cons.mp children
    obtain ⟨_, first⟩ := first
    obtain ⟨_, second⟩ := second _ mem_cons_self
    exact ⟨_, .and inside code first second⟩
  | or =>
    simp only [code] at children
    obtain ⟨first, second⟩ := forall_mem_cons.mp children
    obtain ⟨_, first⟩ := first
    obtain ⟨_, second⟩ := second _ mem_cons_self
    exact ⟨_, .or inside code first second⟩

theorem Acyclic.exists_evaluates (acyclic : graph.Acyclic)
    (inRange : graph.InRange) (inside : node < graph.op.length) :
    ∃ value, Evaluates graph inputs node value := by
  let below (first second : Fin graph.op.length) : Prop :=
    Relation.TransGen graph.Child second.val first.val
  have irreflexive : Std.Irrefl below := ⟨fun node => acyclic node.val⟩
  have wellFounded : WellFounded below := Finite.wellFounded_of_trans_of_irrefl below
  have all (node : Fin graph.op.length) : ∃ value, Evaluates graph inputs node.val value := by
    induction node using wellFounded.induction with
    | _ node ih =>
      refine exists_evaluates_of_children node.isLt fun child member => ?_
      exact ih ⟨child, inRange node.val node.isLt child member⟩ (.single ⟨node.isLt, member⟩)
  exact all ⟨node, inside⟩

/-- What has a value is well founded, and so is what it depends on. -/
theorem induct_of_evaluates {motive : Nat → Prop} (step : ∀ node, (∀ child, graph.Child node child →
      motive child ∧ ∃ value, Evaluates graph inputs child value) → motive node)
    (evaluates : Evaluates graph inputs node value) : motive node := by
  induction evaluates with
  | input _ code | const _ code =>
    refine step _ fun child reference => ?_
    have own := reference.2
    simp [childrenAt, code] at own
  | not _ code first ih | output _ code first ih =>
    refine step _ fun child reference => ?_
    have own := reference.2
    simp only [childrenAt, code, mem_singleton] at own
    exact own ▸ ⟨ih, _, first⟩
  | and _ code first second leftHypothesis rightHypothesis
  | or _ code first second leftHypothesis rightHypothesis =>
    refine step _ fun child reference => ?_
    have own := reference.2
    simp only [childrenAt, code, mem_cons, not_mem_nil, or_false] at own
    rcases own with rfl | rfl
    · exact ⟨leftHypothesis, _, first⟩
    · exact ⟨rightHypothesis, _, second⟩

theorem acyclic_of_evaluates (inputs : Nat → Bool)
    (all : ∀ node < graph.op.length, ∃ value, Evaluates graph inputs node value) :
    graph.Acyclic := by
  intro node cycle
  obtain ⟨_, reference, _⟩ := Relation.TransGen.head'_iff.mp cycle
  obtain ⟨_, evaluates⟩ := all node reference.1
  refine induct_of_evaluates (motive := fun node => ¬ Relation.TransGen graph.Child node node)
    (fun node each cycle => ?_) evaluates cycle
  obtain ⟨child, reference, back⟩ := Relation.TransGen.head'_iff.mp cycle
  exact (each child reference).1 (.tail' back reference)

theorem evaluates_of_reachable {last : Nat} (evaluates : Evaluates graph inputs node value)
    (path : Relation.ReflTransGen graph.Child node last) :
    ∃ value, Evaluates graph inputs last value := by
  induction path with
  | refl => exact ⟨value, evaluates⟩
  | tail _ reference ih =>
    obtain ⟨_, own⟩ := ih
    exact induct_of_evaluates (motive := fun node => ∀ child, graph.Child node child →
      ∃ value, Evaluates graph inputs child value)
      (fun _ each child reference => (each child reference).2) own _ reference

theorem Acyclic.exists_computes (acyclic : graph.Acyclic)
    (inRange : graph.InRange) (valid : graph.Valid) :
    ∃ function, graph.Computes function := by
  have each (inputs : Nat → Bool) : ∃ value, Evaluates graph inputs graph.outputNode value :=
    acyclic.exists_evaluates inRange valid.output
  choose function evaluates using each
  refine ⟨function, fun inputs value => ⟨fun other => ?_, ?_⟩⟩
  · exact evaluates_unique other (evaluates inputs)
  · rintro rfl
    exact evaluates inputs

end GraphBody

namespace Renumbered

variable {graph target : GraphBody} {keep : List Nat} {new old : Nat}
  {inputs : Nat → Bool} {value : Bool}

section

variable (renumbered : Renumbered graph target keep)
include renumbered

theorem arg0 (own : keep[new]? = some old) (gate : graph.opAt old ≠ .input)
    (free : graph.opAt old ≠ .const) :
    keep[target.arg0At new]? = some (graph.arg0At old) := by
  have same := renumbered.children new old own
  unfold GraphBody.childrenAt at same
  rw [renumbered.opAt new old own] at same
  cases code : graph.opAt old with
  | input => exact absurd code gate
  | const => exact absurd code free
  | not | output | and | or =>
    simp only [code, map_cons, map_nil] at same
    exact (List.cons.inj same).1

theorem arg1 (own : keep[new]? = some old) (gate : graph.opAt old = .and ∨ graph.opAt old = .or) :
    keep[target.arg1At new]? = some (graph.arg1At old) := by
  have same := renumbered.children new old own
  unfold GraphBody.childrenAt at same
  rw [renumbered.opAt new old own] at same
  rcases gate with code | code
  · simp only [code, map_cons, map_nil] at same
    exact (List.cons.inj (List.cons.inj same).2).1
  · simp only [code, map_cons, map_nil] at same
    exact (List.cons.inj (List.cons.inj same).2).1

theorem evaluates (evaluates : Evaluates graph inputs old value)
    (own : keep[new]? = some old) : Evaluates target inputs new value := by
  have inside {new old : Nat} (own : keep[new]? = some old) : new < target.op.length := by
    rw [renumbered.length]
    exact (List.getElem?_eq_some_iff.mp own).1
  induction evaluates generalizing new with
  | input _ code =>
    rw [← renumbered.inputs new _ own code]
    exact .input (inside own) ((renumbered.opAt new _ own).trans code)
  | const _ code =>
    rw [← decide_eq_decide.mpr (renumbered.constants new _ own code)]
    exact .const (inside own) ((renumbered.opAt new _ own).trans code)
  | not _ code _ ih =>
    refine .not (inside own) ((renumbered.opAt new _ own).trans code) ?_
    exact ih (renumbered.arg0 own (fun other => by cases code.symm.trans other)
      (fun other => by cases code.symm.trans other))
  | output _ code _ ih =>
    refine .output (inside own) ((renumbered.opAt new _ own).trans code) ?_
    exact ih (renumbered.arg0 own (fun other => by cases code.symm.trans other)
      (fun other => by cases code.symm.trans other))
  | and _ code _ _ leftHypothesis rightHypothesis =>
    refine .and (inside own) ((renumbered.opAt new _ own).trans code) ?_ ?_
    · exact leftHypothesis (renumbered.arg0 own (fun other => by cases code.symm.trans other)
        (fun other => by cases code.symm.trans other))
    · exact rightHypothesis (renumbered.arg1 own (.inl code))
  | or _ code _ _ leftHypothesis rightHypothesis =>
    refine .or (inside own) ((renumbered.opAt new _ own).trans code) ?_ ?_
    · exact leftHypothesis (renumbered.arg0 own (fun other => by cases code.symm.trans other)
        (fun other => by cases code.symm.trans other))
    · exact rightHypothesis (renumbered.arg1 own (.inr code))

theorem acyclic (kept : Kept graph keep) (acyclic : graph.Acyclic) : target.Acyclic := by
  have lifted {first last : Nat} (path : Relation.TransGen target.Child first last) :
      ∃ oldFirst oldLast, keep[first]? = some oldFirst ∧ keep[last]? = some oldLast ∧
          Relation.TransGen graph.Child oldFirst oldLast := by
    have step {node child old : Nat} (reference : target.Child node child)
        (own : keep[node]? = some old) :
        ∃ oldChild, keep[child]? = some oldChild ∧ graph.Child old oldChild := by
      obtain ⟨oldChild, member, found⟩ := renumbered.exists_child own reference.2
      exact ⟨oldChild, found, ((kept.mem_iff old).mp (mem_of_getElem? own)).1, member⟩
    induction path with
    | single child =>
      obtain ⟨old, own⟩ := renumbered.exists_source child.1
      obtain ⟨oldChild, found, reference⟩ := step child own
      exact ⟨old, oldChild, own, found, .single reference⟩
    | tail _ child ih =>
      obtain ⟨old, mid, own, here, path⟩ := ih
      obtain ⟨oldChild, found, reference⟩ := step child here
      exact ⟨old, oldChild, own, found, path.tail reference⟩
  intro node cycle
  obtain ⟨first, last, own, also, path⟩ := lifted cycle
  obtain rfl := Option.some.inj (own.symm.trans also)
  exact acyclic first path

end

end Renumbered

structure Compacted (graph compact : GraphBody) (keep : List Nat) : Prop where
  valid : compact.validate = .ok ()
  inRange : compact.InRange
  acyclic : compact.Acyclic
  /-- The inputs and what the output depends on, in their order. -/
  kept : Kept graph keep
  renumbered : Renumbered graph compact keep
  computes : ∃ function, graph.Computes function ∧ compact.Computes function
  /-- Compacting it again changes nothing. -/
  again : compactGraph compact = .ok compact

theorem exists_compacted {graph : GraphBody}
    (valid : graph.validate = .ok ()) (inRange : graph.InRange)
    (acyclic : graph.Acyclic) :
    ∃ compact keep, compactGraph graph = .ok compact ∧ Compacted graph compact keep := by
  have valid := GraphBody.validate_eq_ok.mp valid
  obtain ⟨compact, keep, done, compactValid, kept, renumbered⟩ := exists_compactGraph valid inRange
  refine ⟨compact, keep, done, GraphBody.validate_eq_ok.mpr compactValid,
    renumbered.inRange, renumbered.acyclic kept acyclic, kept, renumbered,
    ?_, ?_⟩
  · obtain ⟨function, computes⟩ := acyclic.exists_computes inRange valid
    refine ⟨function, computes, fun inputs value => ?_⟩
    have evaluates : Evaluates compact inputs compact.outputNode (function inputs) :=
      renumbered.evaluates ((computes inputs _).mpr rfl) renumbered.output
    constructor
    · exact fun other => GraphBody.evaluates_unique other evaluates
    · rintro rfl
      exact evaluates
  · refine compactGraph_eq_self compactValid renumbered.inRange fun node inside => ?_
    obtain ⟨old, own⟩ := renumbered.exists_source inside
    obtain ⟨_, input | path⟩ := (kept.mem_iff old).mp (mem_of_getElem? own)
    · obtain rfl := kept.same own (kept.getElem?_input input)
      refine .inl ?_
      rwa [renumbered.arity]
    · exact .inr (renumbered.reachable kept (inRange.closed valid) path own)

namespace Sample

/-- One input, a gate used twice, and a constant that nothing uses. -/
def shared : GraphBody where
  arity := 1
  capacity := 8
  outputNode := 5
  op := [.input, .not, .const, .not, .and, .output]
  arg0 := [0, 0, 5, 1, 1, 4]
  arg1 := [noNode, noNode, noNode, noNode, 3, noNode]

end Sample

theorem exists_compacted_shared : ∃ compact keep, compactGraph Sample.shared = .ok compact ∧
      Compacted Sample.shared compact keep :=
  exists_compacted rfl (by unfold GraphBody.InRange; decide)
    (GraphBody.acyclic_of_lt (by decide))

end GraphZero.Whittle
