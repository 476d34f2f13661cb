import GraphZero.Whittle.Replacement

/-!
# Enumerated candidates are applicable

The nodes of a match belong to the graph, and a rule is only proposed where
the nodes of its replacement fit, so applying it succeeds.  What takes the
place of the root is worth the same, and it does not depend on the root
except where a constant is traded for a gate over a negation.
-/

namespace GraphZero.Whittle

open Foundation List

/-- A match of nodes of the graph whose replacement fits. -/
structure Fits (graph : GraphBody) (ruleMatch : RuleMatch) : Prop where
  root : ruleMatch.root < graph.op.length
  rest : ∀ node ∈ ruleMatch.rest, node < graph.op.length
  short : ruleMatch.rest.length + 1 ≤ maxMatched

/-- Applying a candidate succeeds within the capacity.  The graph with the
nodes of the replacement, of which there are no more than its rule foretells,
is redirected and compacted.  The result may be cyclic. -/
def Applicable (graph : GraphBody) (candidate : RawCandidate) : Prop :=
  ∃ rule grown target result,
    RuleId.fromU16 candidate.ruleId = .ok rule ∧
      buildReplacement candidate graph = .ok (grown, target) ∧
      (grown.op.length : Int) ≤ graph.op.length + replacementExtraNodes rule ∧
      compactGraph (grown.redirect graph.op.length candidate.root target) = .ok result ∧
      applyGraph graph candidate = .ok result ∧
      result.op.length ≤ grown.op.length ∧ result.op.length ≤ graph.capacity.toNat ∧
      result.validate = .ok () ∧ result.InRange

theorem Fits.matched {graph ruleMatch} (fits : Fits graph ruleMatch) (position : Fin maxMatched) :
    ruleMatch.candidate.matched position < graph.op.length := by
  have all : ∀ node ∈ ruleMatch.root :: ruleMatch.rest,
      node < graph.op.length := forall_mem_cons.mpr ⟨fits.root, fits.rest⟩
  change (ruleMatch.root :: ruleMatch.rest).getD position.val 0 < _
  rw [getD_eq_getElem?_getD]
  cases found : (ruleMatch.root :: ruleMatch.rest)[position.val]? with
  | none => exact Nat.zero_lt_of_lt fits.root
  | some node => exact all node (mem_of_getElem? found)

/-- A replacement that fits is built, and what is left is to redirect the
references and to compact. -/
theorem Fits.exists_replacement {graph ruleMatch} (fits : Fits graph ruleMatch)
    (valid : graph.Valid) (inRange : graph.InRange)
    (room : replacementExtraNodes ruleMatch.rule ≤ (graph.capacity.toNat : Int) - graph.op.length) :
    ∃ grown target, ∃ added : Nat,
      replacement ruleMatch.candidate.matched graph ruleMatch.root ruleMatch.rule =
        (grown, target) ∧
      buildReplacement ruleMatch.candidate graph = .ok (grown, target) ∧
      (added : Int) = replacementExtraNodes ruleMatch.rule ∧ Extends graph grown added ∧
      target < grown.op.length ∧ grown.op.length ≤ graph.capacity.toNat ∧
      applyGraph graph ruleMatch.candidate = (compactGraph
        (grown.redirect graph.op.length ruleMatch.root target)).mapError .graph := by
  obtain ⟨added, extra, extended, inside⟩ :=
    Replaces.of_rule (.refl valid inRange) fits.matched fits.root ruleMatch.rule
  have built : buildReplacement ruleMatch.candidate graph =
      .ok (replacement ruleMatch.candidate.matched graph ruleMatch.root ruleMatch.rule) := by
    change _ <$> RuleId.fromU16 ruleMatch.rule.asU16 = _
    rw [RuleId.fromU16_asU16]
    rfl
  generalize replacement ruleMatch.candidate.matched graph ruleMatch.root ruleMatch.rule = pair at *
  obtain ⟨grown, target⟩ := pair
  have length := extended.length
  dsimp only at length
  have few : grown.op.length ≤ graph.capacity.toNat := by omega
  refine ⟨grown, target, added, rfl, built, extra, extended, inside, few, ?_⟩
  unfold applyGraph
  have root : ¬ graph.op.length ≤ ruleMatch.candidate.root := Nat.not_le.mpr fits.root
  rw [if_neg root, if_neg]
  · rw [built]
    change (if _ then _ else _) = _
    rw [if_neg]
    · rfl
    · rw [extended.capacity]
      exact Nat.not_lt.mpr few
  · rintro ⟨node, member, outside⟩
    obtain ⟨position, rfl⟩ := mem_ofFn.mp (mem_of_mem_take member)
    exact absurd (fits.matched position) (Nat.not_lt.mpr outside)

theorem Fits.applicable {graph ruleMatch} (fits : Fits graph ruleMatch) (valid : graph.Valid)
    (inRange : graph.InRange)
    (room : replacementExtraNodes ruleMatch.rule ≤ (graph.capacity.toNat : Int) - graph.op.length) :
    Applicable graph ruleMatch.candidate := by
  obtain ⟨grown, target, added, _, built, extra, extended, inside, few, applied⟩ :=
    fits.exists_replacement valid inRange room
  obtain ⟨result, keep, compacted, resultValid, kept, renumbered⟩ :=
    exists_compactGraph (extended.valid_redirect valid few) (extended.inRange_redirect inside)
  have capacity : result.capacity = graph.capacity := renumbered.capacity.trans extended.capacity
  have length := extended.length
  have shrinks := kept.length_le
  rw [← renumbered.length] at shrinks
  refine ⟨ruleMatch.rule, grown, target, result, RuleId.fromU16_asU16 _, built, by omega, compacted,
    applied.trans (congrArg (Except.mapError RuleError.graph) compacted), shrinks, ?_,
    GraphBody.validate_eq_ok.mpr resultValid, renumbered.inRange⟩
  rw [← capacity]
  exact resultValid.capacity

namespace GraphBody

variable {graph : GraphBody} {node a b : Nat} {kind : OpCode}

theorem lt_of_signalRef (signal : graph.signalRef node = true) : node < graph.op.length := by
  unfold signalRef at signal
  rw [Bool.and_eq_true, decide_eq_true_eq] at signal
  exact signal.1

theorem notSignal_eq_some (found : graph.notSignal node = some a) :
    graph.opAt node = .not ∧ graph.arg0At node = a ∧ a < graph.op.length := by
  unfold notSignal at found
  split at found
  · next code =>
    split at found
    · next signal =>
      cases found
      exact ⟨code, rfl, lt_of_signalRef signal⟩
    · cases found
  · cases found

theorem pairFor_eq_some (found : graph.pairFor kind node = some (a, b)) :
    graph.opAt node = kind ∧ graph.arg0At node = a ∧ graph.arg1At node = b ∧
      a < graph.op.length ∧ b < graph.op.length := by
  unfold pairFor at found
  split at found
  · next own =>
    cases found
    exact ⟨own.1, rfl, rfl, lt_of_signalRef own.2.1, lt_of_signalRef own.2.2⟩
  · cases found

theorem constSignal_eq_some {value} (found : graph.constSignal node = some value) :
    graph.opAt node = .const ∧ decide (graph.arg0At node ≠ 0) = value := by
  unfold constSignal at found
  split at found
  · next code => exact ⟨code, Option.some.inj found⟩
  · cases found

theorem pairFor_of_isSome (found : (graph.pairFor kind node).isSome = true) :
    graph.pairFor kind node = some (graph.arg0At node, graph.arg1At node) := by
  obtain ⟨⟨a, b⟩, own⟩ := Option.isSome_iff_exists.mp found
  obtain ⟨_, rfl, rfl, _⟩ := pairFor_eq_some own
  exact own

theorem notSignal_of_isSome (found : (graph.notSignal node).isSome = true) :
    graph.notSignal node = some (graph.arg0At node) := by
  obtain ⟨a, own⟩ := Option.isSome_iff_exists.mp found
  obtain ⟨_, rfl, _⟩ := notSignal_eq_some own
  exact own

theorem of_firstConst {value} (found : graph.firstConst value = some node) :
    node < graph.op.length ∧ graph.constSignal node = some value := by
  have own := find?_some found
  exact ⟨mem_range.mp (mem_of_find?_eq_some found), of_decide_eq_true own⟩

end GraphBody

/-! ## Values -/

/-- The two kinds of gates, either of which distributes over the other. -/
def Dual (kind other : OpCode) : Prop :=
  kind = .and ∧ other = .or ∨ kind = .or ∧ other = .and

namespace Dual

variable {kind other : OpCode} (dual : Dual kind other)
include dual

theorem left : kind = .and ∨ kind = .or := dual.imp And.left And.left

theorem right : other = .and ∨ other = .or := dual.symm.imp And.right And.right

theorem symm : Dual other kind := Or.symm (dual.imp And.symm And.symm)

theorem absorb (x y : Bool) : kind.gate x (other.gate x y) = x := by
  rcases dual with ⟨rfl, rfl⟩ | ⟨rfl, rfl⟩ <;> decide +revert

theorem expand (x y z : Bool) :
    other.gate (kind.gate x y) (kind.gate x z) = kind.gate x (other.gate y z) := by
  rcases dual with ⟨rfl, rfl⟩ | ⟨rfl, rfl⟩ <;> decide +revert

theorem deMorgan (x y : Bool) : (!other.gate x y) = kind.gate (!x) !y := by
  rcases dual with ⟨rfl, rfl⟩ | ⟨rfl, rfl⟩ <;> decide +revert

theorem consensus (x y z : Bool) :
    kind.gate (kind.gate (other.gate x y) (other.gate (!x) z)) (other.gate y z) =
      kind.gate (other.gate x y) (other.gate (!x) z) := by
  rcases dual with ⟨rfl, rfl⟩ | ⟨rfl, rfl⟩ <;> decide +revert

end Dual

theorem OpCode.gate_comm (kind : OpCode) (x y : Bool) : kind.gate x y = kind.gate y x := by
  unfold gate
  rw [Bool.or_comm, Bool.and_comm]

theorem OpCode.gate_self (kind : OpCode) (x : Bool) : kind.gate x x = x := by
  unfold gate
  rw [Bool.or_self, Bool.and_self, ite_self]

theorem OpCode.gate_assoc (kind : OpCode) (x y z : Bool) :
    kind.gate (kind.gate x y) z = kind.gate x (kind.gate y z) := by
  unfold gate
  split
  · exact Bool.or_assoc x y z
  · exact Bool.and_assoc x y z

/-- What every node is worth under some inputs. -/
def Valued (graph : GraphBody) (inputs value : Nat → Bool) : Prop :=
  ∀ node < graph.op.length, Evaluates graph inputs node (value node)

theorem GraphBody.Acyclic.exists_valued {graph} (acyclic : graph.Acyclic) (inRange : graph.InRange)
    (inputs : Nat → Bool) : ∃ value, Valued graph inputs value := by
  have each (node : Nat) : ∃ value, node < graph.op.length → Evaluates graph inputs node value := by
    by_cases inside : node < graph.op.length
    · have some : ∃ value, Evaluates graph inputs node value :=
        acyclic.exists_evaluates inRange inside
      exact some.imp fun _ evaluates _ => evaluates
    · exact ⟨false, fun here => absurd here inside⟩
  choose value evaluates using each
  exact ⟨value, evaluates⟩

/-- The node is worth a gate over two others. -/
def Gated (graph : GraphBody) (kind : OpCode) (node a b : Nat) : Prop :=
  ∀ ⦃inputs value⦄, Valued graph inputs value → value node = kind.gate (value a) (value b)

def Negated (graph : GraphBody) (node a : Nat) : Prop :=
  ∀ ⦃inputs value⦄, Valued graph inputs value → value node = !value a

def Constant (graph : GraphBody) (node : Nat) (constant : Bool) : Prop :=
  ∀ ⦃inputs value⦄, Valued graph inputs value → value node = constant

/-- A node that may take part in the replacement of the root: it does not
depend on it. -/
def Usable (graph : GraphBody) (root node : Nat) : Prop :=
  node < graph.op.length ∧ (graph.Acyclic → ¬ Relation.TransGen graph.Child node root)

section Matches

variable {graph : GraphBody} {root left right node : Nat} {kind : OpCode}

theorem Gated.symm {a b} (gated : Gated graph kind node a b) : Gated graph kind node b a :=
  fun _ _ valued => (gated valued).trans (kind.gate_comm _ _)

theorem Usable.self (here : root < graph.op.length) : Usable graph root root :=
  ⟨here, fun acyclic => acyclic root⟩

theorem Usable.child {child} (usable : Usable graph root node) (inside : child < graph.op.length)
    (reference : graph.Child node child) :
    Usable graph root child :=
  ⟨inside, fun acyclic path => usable.2 acyclic (.head reference path)⟩

theorem Usable.of_constSignal {value} (here : node < graph.op.length)
    (found : graph.constSignal node = some value) : Usable graph root node := by
  refine ⟨here, fun _ path => ?_⟩
  obtain ⟨child, reference, _⟩ := Relation.TransGen.head'_iff.mp path
  have leaf := reference.2
  unfold GraphBody.childrenAt at leaf
  rw [(GraphBody.constSignal_eq_some found).1] at leaf
  cases leaf

theorem Constant.of_constSignal {value} (here : node < graph.op.length)
    (found : graph.constSignal node = some value) : Constant graph node value := by
  obtain ⟨code, own⟩ := GraphBody.constSignal_eq_some found
  exact fun _ _ valued => own ▸ GraphBody.evaluates_unique (valued node here) (.const here code)

theorem of_notSignal {a} (usable : Usable graph root node) (found : graph.notSignal node = some a) :
    Usable graph root a ∧ Negated graph node a := by
  obtain ⟨code, rfl, inside⟩ := GraphBody.notSignal_eq_some found
  refine ⟨usable.child inside (GraphBody.child_arg0 usable.1 (by simp [code])),
    fun _ _ valued => ?_⟩
  exact GraphBody.evaluates_unique (valued node usable.1) (.not usable.1 code (valued _ inside))

theorem of_orders {pair order} (binary : kind = .and ∨ kind = .or) (usable : Usable graph root node)
    (found : graph.pairFor kind node = some pair)
    (either : order = pair ∨ order = (pair.2, pair.1)) :
    Usable graph root order.1 ∧ Usable graph root order.2 ∧
      Gated graph kind node order.1 order.2 := by
  obtain ⟨a, b⟩ := pair
  obtain ⟨code, rfl, rfl, one, two⟩ := GraphBody.pairFor_eq_some found
  have gate : graph.opAt node ∈ [.and, .or] := by simp [code, binary]
  have first := usable.child one (GraphBody.child_arg0 usable.1
    (by rcases binary with rfl | rfl <;> simp [code]))
  have second := usable.child two (GraphBody.child_arg1 usable.1 gate)
  have gated : Gated graph kind node (graph.arg0At node) (graph.arg1At node) :=
    fun _ _ valued => GraphBody.evaluates_unique (valued node usable.1)
      (.gate binary usable.1 code (valued _ one) (valued _ two))
  rcases either with rfl | rfl
  · exact ⟨first, second, gated⟩
  · exact ⟨second, first, gated.symm⟩

theorem gated_of_binaryOf {a b} (binary : kind = .and ∨ kind = .or)
    (usable : Usable graph root node) (found : graph.binaryOf node kind a b = true) :
    Gated graph kind node a b := by
  unfold GraphBody.binaryOf at found
  split at found
  · next own =>
    simp only [Bool.or_eq_true, Bool.and_eq_true, decide_eq_true_eq] at found
    rcases found with ⟨rfl, rfl⟩ | ⟨rfl, rfl⟩
    · exact (of_orders binary usable own (.inl rfl)).2.2
    · exact (of_orders binary usable own (.inr rfl)).2.2
  · cases found

/-! ## Matches -/

/-- A graph where the matched nodes have kept their values. -/
structure Standing (graph : GraphBody) (ruleMatch : RuleMatch) where
  last : GraphBody
  inputs : Nat → Bool
  value : Nat → Bool
  valued : Valued graph inputs value
  kept : ∀ position : Fin maxMatched, position.val.ble ruleMatch.rest.length = true →
    Evaluates last inputs (ruleMatch.candidate.matched position)
      (value (ruleMatch.candidate.matched position))

/-- In every such graph the replacement is worth what the root is. -/
def RuleMatch.Preserves (graph : GraphBody) (ruleMatch : RuleMatch) : Prop :=
  ∀ stand : Standing graph ruleMatch, Worth graph.op.length stand.last stand.inputs
    (replacement ruleMatch.candidate.matched graph ruleMatch.root ruleMatch.rule)
    (stand.value ruleMatch.root)

/-- A constant is to become a gate over a negation that depends on it. -/
def RawCandidate.LoopsBack (candidate : RawCandidate) (graph : GraphBody) : Prop :=
  (candidate.ruleId = RuleId.andComplementInverse.asU16 ∨
    candidate.ruleId = RuleId.orComplementInverse.asU16) ∧
    Relation.TransGen graph.Child (candidate.matched ⟨2, by decide⟩) candidate.root

/-- A match that fits and whose replacement is worth the same. -/
structure Found (graph : GraphBody) (ruleMatch : RuleMatch) : Prop extends
    Fits graph ruleMatch where
  apart : ¬ ruleMatch.candidate.LoopsBack graph → graph.Acyclic →
    ∀ node ∈ ruleMatch.rest, ¬ Relation.TransGen graph.Child node ruleMatch.root
  preserves : ruleMatch.Preserves graph

theorem found_of_forall {rule rest} (here : root < graph.op.length)
    (all : ∀ node ∈ rest, Usable graph root node) (short : (rest.length + 1).ble maxMatched = true)
    (preserves : RuleMatch.Preserves graph ⟨rule, root, rest⟩) :
    Found graph ⟨rule, root, rest⟩ :=
  ⟨⟨here, fun node member => (all node member).1, Nat.le_of_ble_eq_true short⟩,
    fun _ acyclic node member => (all node member).2 acyclic, preserves⟩

theorem found_matchIf {condition rule rest}
    (found : condition = true → Found graph ⟨rule, root, rest⟩) :
    ∀ ruleMatch ∈ matchIf condition rule root rest, Found graph ruleMatch := by
  unfold matchIf
  split
  · next holds => exact forall_mem_singleton.mpr (found holds)
  · exact forall_mem_nil _

theorem forall_mem_ifElseNil {α : Type} {condition : Prop} [Decidable condition] {items}
    {good : α → Prop} (all : ∀ item ∈ items, good item) :
    ∀ item ∈ (if condition then items else []), good item := by
  split
  · exact all
  · exact forall_mem_nil _

theorem forall_mem_flatMap {α β : Type} {items : List α} {image} {good : β → Prop}
    (all : ∀ item ∈ items, ∀ other ∈ image item, good other) :
    ∀ other ∈ items.flatMap image, good other := by
  intro other member
  obtain ⟨item, own, here⟩ := mem_flatMap.mp member
  exact all item own other here

theorem mem_bothOrders {pair order} (member : order ∈ bothOrders pair) :
    order = pair ∨ order = (pair.2, pair.1) := by
  unfold bothOrders at member
  split at member
  · exact .inl (mem_singleton.mp member)
  · exact (mem_cons.mp member).imp id mem_singleton.mp

theorem mem_strictOrders {pair order} (member : order ∈ strictOrders pair) :
    order = pair ∨ order = (pair.2, pair.1) := by
  unfold strictOrders at member
  split at member
  · cases member
  · exact (mem_cons.mp member).imp id mem_singleton.mp

section Binary

variable {rules : BinaryRules} (either : rules = andRules ∨ rules = orRules)
include either

theorem dual_of_either : Dual rules.kind rules.other := by
  rcases either with rfl | rfl
  · exact .inl ⟨rfl, rfl⟩
  · exact .inr ⟨rfl, rfl⟩

variable (here : root < graph.op.length) (first : Usable graph root left)
  (second : Usable graph root right) (gated : Gated graph rules.kind root left right)
include here first second gated

theorem found_consensusAddBindings :
    ∀ ruleMatch ∈ graph.consensusAddBindings rules.consensusAdd rules.other root left right,
      Found graph ruleMatch := by
  have dual := dual_of_either either
  unfold GraphBody.consensusAddBindings
  split
  · next firstPair secondPair own also =>
    refine forall_mem_flatMap fun one member =>
      forall_mem_flatMap fun two next => found_matchIf fun negation => ?_
    obtain ⟨a, b, onLeft⟩ := of_orders dual.right first own (mem_bothOrders member)
    obtain ⟨notA, c, onRight⟩ := of_orders dual.right second also (mem_bothOrders next)
    have negated := (of_notSignal notA (of_decide_eq_true negation)).2
    refine found_of_forall here (by simp [first, second, a, b, c, notA]) rfl
      fun stand => ?_
    have same := dual.consensus (stand.value one.1) (stand.value one.2) (stand.value two.2)
    rw [← negated stand.valued, ← onLeft stand.valued,
      ← onRight stand.valued, ← gated stand.valued] at same
    rcases either with rfl | rfl <;>
      exact (Worth.consensusAdd dual.right dual.left (stand.kept 0 rfl) (stand.kept 4 rfl)
        (stand.kept 5 rfl)).of_eq
        same
  · exact forall_mem_nil _

theorem found_complement (negated : Negated graph right left) :
    Found graph ⟨rules.complement, root, [left, right]⟩ := by
  refine found_of_forall here (by simp [first, second]) rfl fun stand => ?_
  have both := gated stand.valued
  rw [negated stand.valued] at both
  rcases either with rfl | rfl <;>
    exact (Worth.const le_rfl).of_eq (by simp [both, andRules, orRules, OpCode.gate])

theorem found_consensusRemoveBindings :
    ∀ ruleMatch ∈ graph.consensusRemoveBindings rules.consensusRemove rules.kind rules.other
      root left right, Found graph ruleMatch := by
  have dual := dual_of_either either
  unfold GraphBody.consensusRemoveBindings
  split
  · exact forall_mem_nil _
  next pair own =>
  refine forall_mem_flatMap fun order member => ?_
  obtain ⟨x, y, inner⟩ := of_orders dual.left first own (mem_strictOrders member)
  dsimp only
  split
  · next firstPair secondPair also last =>
    refine forall_mem_flatMap fun one member =>
      forall_mem_flatMap fun two next => found_matchIf fun found => ?_
    obtain ⟨a, b, onX⟩ := of_orders dual.right x also (mem_bothOrders member)
    obtain ⟨notA, c, onY⟩ := of_orders dual.right y last (mem_bothOrders next)
    obtain ⟨negation, third⟩ := Bool.and_eq_true_iff.mp found
    have negated := (of_notSignal notA (of_decide_eq_true negation)).2
    refine found_of_forall here (by simp [first, second, x, y, a, b, c]) rfl
      fun stand => ?_
    have term := gated_of_binaryOf dual.right second third
    have same := dual.consensus (stand.value one.1) (stand.value one.2) (stand.value two.2)
    rw [← negated stand.valued, ← onX stand.valued,
      ← onY stand.valued, ← inner stand.valued, ← term stand.valued,
      ← gated stand.valued] at same
    rcases either with rfl | rfl <;> exact .old (stand.kept 1 rfl) same.symm
  · exact forall_mem_nil _

theorem found_dualMatches : ∀ ruleMatch ∈ graph.dualMatches rules root right left,
      Found graph ruleMatch := by
  have dual := dual_of_either either
  unfold GraphBody.dualMatches
  split
  · exact forall_mem_nil _
  next a b own =>
  obtain ⟨one, two, inner⟩ := of_orders dual.right second own (.inl rfl)
  refine forall_mem_append.mpr ⟨forall_mem_append.mpr ⟨?_, ?_⟩, forall_mem_singleton.mpr ?_⟩
  · refine found_matchIf fun same => found_of_forall here (by simp [first, second, two]) rfl
      fun stand => ?_
    obtain rfl := of_decide_eq_true same
    have absorbed := dual.absorb (stand.value a) (stand.value b)
    rw [← inner stand.valued, ← gated stand.valued] at absorbed
    rcases either with rfl | rfl <;> exact .old (stand.kept 1 rfl) absorbed.symm
  · refine found_matchIf fun same => found_of_forall here (by simp [first, second, one]) rfl
      fun stand => ?_
    obtain rfl := of_decide_eq_true (Bool.and_eq_true_iff.mp same).1
    have absorbed := dual.absorb (stand.value b) (stand.value a)
    rw [← inner.symm stand.valued, ← gated stand.valued] at absorbed
    rcases either with rfl | rfl <;> exact .old (stand.kept 1 rfl) absorbed.symm
  · refine found_of_forall here (by simp [first, second, one, two]) rfl
      fun stand => ?_
    have expanded := dual.expand (stand.value left) (stand.value a) (stand.value b)
    rw [← inner stand.valued, ← gated stand.valued] at expanded
    rcases either with rfl | rfl <;>
      exact (Worth.distributeExpand dual.left dual.right (stand.kept 2 rfl) (stand.kept 3 rfl)
        (stand.kept 4 rfl)).of_eq expanded

theorem found_factorMatches : ∀ ruleMatch ∈ graph.factorMatches rules root left right,
      Found graph ruleMatch := by
  have dual := dual_of_either either
  unfold GraphBody.factorMatches
  split
  · next leftPair rightPair own also =>
    refine forall_mem_flatMap fun one member =>
      forall_mem_flatMap fun two next => found_matchIf fun common => ?_
    obtain ⟨la, lb, onLeft⟩ := of_orders dual.right first own (mem_strictOrders member)
    obtain ⟨_, rc, onRight⟩ := of_orders dual.right second also (mem_strictOrders next)
    rw [← of_decide_eq_true common] at onRight
    refine found_of_forall here (by simp [first, second, la, lb, rc]) rfl
      fun stand => ?_
    have factored := dual.symm.expand (stand.value one.1) (stand.value one.2) (stand.value two.2)
    rw [← onLeft stand.valued, ← onRight stand.valued, ← gated stand.valued] at factored
    rcases either with rfl | rfl <;>
      exact (Worth.distributeFactor dual.left dual.right (stand.kept 3 rfl) (stand.kept 4 rfl)
        (stand.kept 5 rfl)).of_eq factored.symm
  · exact forall_mem_nil _

theorem found_binaryMatches {constants} (found : ∀ ruleMatch ∈ constants, Found graph ruleMatch) :
    ∀ ruleMatch ∈ graph.binaryMatches rules constants root left right, Found graph ruleMatch := by
  have dual := dual_of_either either
  unfold GraphBody.binaryMatches
  simp only [forall_mem_append]
  refine ⟨⟨⟨⟨⟨⟨⟨⟨⟨⟨⟨⟨⟨⟨found, ?_⟩, ?_⟩, ?_⟩, ?_⟩, ?_⟩, ?_⟩, ?_⟩, ?_⟩, ?_⟩, ?_⟩, ?_⟩, ?_⟩, ?_⟩, ?_⟩
  · refine found_matchIf fun same => found_of_forall here (by simp [first]) rfl
      fun stand => ?_
    obtain rfl := of_decide_eq_true same
    have idle := gated stand.valued
    rw [OpCode.gate_self] at idle
    rcases either with rfl | rfl <;> exact .old (stand.kept 1 rfl) idle.symm
  · exact found_matchIf fun negation => found_complement either here first second gated
      (of_notSignal second (of_decide_eq_true negation)).2
  · exact found_matchIf fun negation => found_complement either here second first gated.symm
      (of_notSignal first (of_decide_eq_true (Bool.and_eq_true_iff.mp negation).2)).2
  · refine forall_mem_singleton.mpr (found_of_forall here (by simp [first, second]) rfl
      fun stand => ?_)
    have swapped := gated.symm stand.valued
    rcases either with rfl | rfl <;>
      exact (Worth.two dual.left (stand.kept 2 rfl) (stand.kept 1 rfl)).of_eq swapped.symm
  · split
    · next a b own =>
      obtain ⟨one, two, inner⟩ := of_orders dual.left first own (.inl rfl)
      refine forall_mem_singleton.mpr (found_of_forall here
        (by simp [first, second, one, two]) rfl fun stand => ?_)
      have moved := rules.kind.gate_assoc (stand.value a) (stand.value b) (stand.value right)
      rw [← inner stand.valued, ← gated stand.valued] at moved
      rcases either with rfl | rfl <;>
        exact (Worth.associateRight dual.left (stand.kept 2 rfl) (stand.kept 3 rfl)
          (stand.kept 4 rfl)).of_eq moved.symm
    · exact forall_mem_nil _
  · split
    · next a b own =>
      obtain ⟨one, two, inner⟩ := of_orders dual.left second own (.inl rfl)
      refine forall_mem_singleton.mpr (found_of_forall here
        (by simp [first, second, one, two]) rfl fun stand => ?_)
      have moved := rules.kind.gate_assoc (stand.value left) (stand.value a) (stand.value b)
      rw [← inner stand.valued, ← gated stand.valued] at moved
      rcases either with rfl | rfl <;>
        exact (Worth.associateLeft dual.left (stand.kept 2 rfl) (stand.kept 3 rfl)
          (stand.kept 4 rfl)).of_eq moved
    · exact forall_mem_nil _
  · exact found_dualMatches either here first second gated
  · exact forall_mem_ifElseNil (found_dualMatches either here second first gated.symm)
  · split
    · next leftInner rightInner own also =>
      obtain ⟨one, onLeft⟩ := of_notSignal first own
      obtain ⟨two, onRight⟩ := of_notSignal second also
      refine forall_mem_singleton.mpr (found_of_forall here
        (by simp [first, second, one, two]) rfl fun stand => ?_)
      have pulled := dual.deMorgan (stand.value leftInner) (stand.value rightInner)
      rw [← onLeft stand.valued, ← onRight stand.valued, ← gated stand.valued] at pulled
      rcases either with rfl | rfl <;>
        exact (Worth.deMorganNots dual.right (stand.kept 3 rfl) (stand.kept 4 rfl)).of_eq pulled
    · exact forall_mem_nil _
  · exact found_factorMatches either here first second gated
  · exact found_consensusAddBindings either here first second gated
  · exact forall_mem_ifElseNil (found_consensusAddBindings either here second first gated.symm)
  · exact found_consensusRemoveBindings either here first second gated
  · exact forall_mem_ifElseNil (found_consensusRemoveBindings either here second first gated.symm)

end Binary

section Constants

variable {rule : RuleId} {constant : Bool} (here : root < graph.op.length)
  (first : Usable graph root left) (gated : Gated graph kind root left right)
  (found : graph.constSignal left = some constant)
include here first gated found

theorem found_dominating (own : ∀ m, replacement m graph root rule = (graph, m 1))
    (dominates : ∀ x, kind.gate constant x = constant) : Found graph ⟨rule, root, [left]⟩ := by
  refine found_of_forall here (by simp [first]) rfl fun stand => ?_
  have both := gated stand.valued
  have same := Constant.of_constSignal first.1 found stand.valued
  rw [same, dominates, ← same] at both
  rw [own]
  exact .old (stand.kept 1 rfl) both.symm

theorem found_neutral (second : Usable graph root right)
    (own : ∀ m, replacement m graph root rule = (graph, m 2))
    (neutral : ∀ x, kind.gate constant x = x) : Found graph ⟨rule, root, [left, right]⟩ := by
  refine found_of_forall here (by simp [first, second]) rfl fun stand => ?_
  have both := gated stand.valued
  rw [Constant.of_constSignal first.1 found stand.valued, neutral] at both
  rw [own]
  exact .old (stand.kept 2 rfl) both.symm

end Constants

section Fixed

variable (here : root < graph.op.length) (first : Usable graph root left)
include here first

theorem found_andConstantMatches (second : Usable graph root right)
    (gated : Gated graph .and root left right) :
    ∀ ruleMatch ∈ graph.andConstantMatches root left right, Found graph ruleMatch := by
  refine forall_mem_append.mpr ⟨forall_mem_append.mpr ⟨forall_mem_append.mpr ⟨?_, ?_⟩, ?_⟩, ?_⟩
  · exact found_matchIf fun holds => found_dominating here first gated
      (of_decide_eq_true holds) (fun _ => rfl) fun _ => rfl
  · exact found_matchIf fun holds => found_neutral here first gated
      (of_decide_eq_true holds) second (fun _ => rfl) fun _ => rfl
  · exact found_matchIf fun holds => found_dominating here second gated.symm
      (of_decide_eq_true (Bool.and_eq_true_iff.mp holds).2) (fun _ => rfl) fun _ => rfl
  · exact found_matchIf fun holds => found_neutral here second gated.symm
      (of_decide_eq_true (Bool.and_eq_true_iff.mp holds).2) first (fun _ => rfl) fun _ => rfl

theorem found_orConstantMatches (second : Usable graph root right)
    (gated : Gated graph .or root left right) :
    ∀ ruleMatch ∈ graph.orConstantMatches root left right, Found graph ruleMatch := by
  refine forall_mem_append.mpr ⟨forall_mem_append.mpr ⟨forall_mem_append.mpr ⟨?_, ?_⟩, ?_⟩, ?_⟩
  · exact found_matchIf fun holds => found_neutral here first gated
      (of_decide_eq_true holds) second (fun _ => rfl) fun _ => rfl
  · exact found_matchIf fun holds => found_dominating here first gated
      (of_decide_eq_true holds) (fun _ => rfl) fun _ => rfl
  · exact found_matchIf fun holds => found_neutral here second gated.symm
      (of_decide_eq_true (Bool.and_eq_true_iff.mp holds).2) first (fun _ => rfl) fun _ => rfl
  · exact found_matchIf fun holds => found_dominating here second gated.symm
      (of_decide_eq_true (Bool.and_eq_true_iff.mp holds).2) (fun _ => rfl) fun _ => rfl

theorem found_deMorganNot {rule other a b} (negated : Negated graph root left)
    (dual : Dual kind other) (own : graph.pairFor other left = some (a, b))
    (builds : ∀ m, replacement m graph root rule = deMorganNot m graph kind) :
    Found graph ⟨rule, root, [left, a, b]⟩ := by
  obtain ⟨one, two, inner⟩ := of_orders dual.right first own (.inl rfl)
  refine found_of_forall here (by simp [first, one, two]) rfl
    fun stand => ?_
  have pushed := dual.deMorgan (stand.value a) (stand.value b)
  rw [← inner stand.valued, ← negated stand.valued] at pushed
  rw [builds]
  exact (Worth.deMorganNot dual.left (stand.kept 2 rfl) (stand.kept 3 rfl)).of_eq pushed.symm

theorem found_notMatches (negated : Negated graph root left) :
    ∀ ruleMatch ∈ graph.notMatches root left, Found graph ruleMatch := by
  unfold GraphBody.notMatches
  simp only [forall_mem_append]
  refine ⟨⟨⟨⟨?_, ?_⟩, ?_⟩, ?_⟩, ?_⟩
  · refine found_matchIf fun holds => found_of_forall here (by simp [first]) rfl
      fun stand => ?_
    have same := negated stand.valued
    rw [Constant.of_constSignal first.1 (of_decide_eq_true holds) stand.valued] at same
    exact (Worth.const le_rfl).of_eq same.symm
  · refine found_matchIf fun holds => found_of_forall here (by simp [first]) rfl
      fun stand => ?_
    have same := negated stand.valued
    rw [Constant.of_constSignal first.1 (of_decide_eq_true holds) stand.valued] at same
    exact (Worth.const le_rfl).of_eq same.symm
  · split
    · next inner own =>
      obtain ⟨one, again⟩ := of_notSignal first own
      refine forall_mem_singleton.mpr (found_of_forall here (by simp [first, one]) rfl
        fun stand => .old (stand.kept 2 rfl) ?_)
      have same := negated stand.valued
      rw [again stand.valued, Bool.not_not] at same
      exact same.symm
    · exact forall_mem_nil _
  · split
    · next a b own =>
      exact forall_mem_singleton.mpr
        (found_deMorganNot here first negated (.inr ⟨rfl, rfl⟩) own fun _ => rfl)
    · exact forall_mem_nil _
  · split
    · next a b own =>
      exact forall_mem_singleton.mpr
        (found_deMorganNot here first negated (.inl ⟨rfl, rfl⟩) own fun _ => rfl)
    · exact forall_mem_nil _

end Fixed

theorem found_matchesAt (here : root < graph.op.length) :
    ∀ ruleMatch ∈ graph.matchesAt root, Found graph ruleMatch := by
  have self := Usable.self here
  unfold GraphBody.matchesAt
  cases code : graph.opAt root with
  | input | const | output => exact forall_mem_nil _
  | and =>
    dsimp only
    split
    · next own =>
      obtain ⟨first, second, gated⟩ := of_orders (.inl rfl) self
        (GraphBody.pairFor_of_isSome own) (.inl rfl)
      exact found_binaryMatches (.inl rfl) here first second gated
        (found_andConstantMatches here first second gated)
    · exact forall_mem_nil _
  | or =>
    dsimp only
    split
    · next own =>
      obtain ⟨first, second, gated⟩ := of_orders (.inr rfl) self
        (GraphBody.pairFor_of_isSome own) (.inl rfl)
      exact found_binaryMatches (.inr rfl) here first second gated
        (found_orConstantMatches here first second gated)
    · exact forall_mem_nil _
  | not =>
    dsimp only
    split
    · next own =>
      obtain ⟨first, negated⟩ := of_notSignal self (GraphBody.notSignal_of_isSome own)
      exact found_notMatches here first negated
    · exact forall_mem_nil _

section Inverse

variable (here : root < graph.op.length)
include here

theorem found_firstConst {constant rule} (preserves : ∀ node, Constant graph node constant →
      RuleMatch.Preserves graph ⟨rule, root, [node]⟩) :
    ∀ ruleMatch ∈ (match graph.firstConst constant with
      | some node => [⟨rule, root, [node]⟩]
      | none => [] : List RuleMatch), Found graph ruleMatch := by
  split
  · next node own =>
    obtain ⟨inside, found⟩ := GraphBody.of_firstConst own
    have one : Usable graph root node := .of_constSignal inside found
    exact forall_mem_singleton.mpr (found_of_forall here (by simp [one]) rfl
      (preserves node (.of_constSignal inside found)))
  · exact forall_mem_nil _

theorem found_inverseMatches : ∀ ruleMatch ∈ graph.inverseMatches root, Found graph ruleMatch := by
  have both : OpCode.and = .and ∨ OpCode.and = .or := .inl rfl
  have either : OpCode.or = .and ∨ OpCode.or = .or := .inr rfl
  have self := Usable.self here
  unfold GraphBody.inverseMatches
  simp only [forall_mem_append]
  refine ⟨⟨⟨?_, found_firstConst here fun node one stand => ?_⟩,
    found_firstConst here fun node one stand => ?_⟩, ?_⟩
  · simp only [forall_mem_cons]
    refine ⟨?_, ?_, ?_, ?_, ?_, forall_mem_nil _⟩
    · exact found_of_forall here (forall_mem_nil _) rfl fun stand =>
        (Worth.two both (stand.kept 0 rfl) (stand.kept 0 rfl)).of_eq (OpCode.gate_self _ _)
    · exact found_of_forall here (forall_mem_nil _) rfl fun stand =>
        (Worth.two either (stand.kept 0 rfl) (stand.kept 0 rfl)).of_eq (OpCode.gate_self _ _)
    · exact found_of_forall here (forall_mem_nil _) rfl fun stand =>
        (Worth.not (le_appendNode _ _ _ _) (Worth.not le_rfl fun _ => stand.kept 0 rfl)).of_eq
          (Bool.not_not _)
    · exact found_of_forall here (by simp [self]) rfl fun stand =>
        (Worth.absorbInverse both either (stand.kept 0 rfl) (stand.kept 1 rfl)).of_eq
          (Dual.absorb (.inr ⟨rfl, rfl⟩) _ _)
    · exact found_of_forall here (by simp [self]) rfl fun stand =>
        (Worth.absorbInverse either both (stand.kept 0 rfl) (stand.kept 1 rfl)).of_eq
          (Dual.absorb (.inl ⟨rfl, rfl⟩) _ _)
  · refine (Worth.two both (stand.kept 0 rfl) (stand.kept 1 rfl)).of_eq ?_
    exact (congrArg _ (one stand.valued)).trans (Bool.and_true _)
  · refine (Worth.two either (stand.kept 0 rfl) (stand.kept 1 rfl)).of_eq ?_
    exact (congrArg _ (one stand.valued)).trans (Bool.or_false _)
  · split
    · exact forall_mem_nil _
    · next own =>
      refine forall_mem_cons.mpr ⟨found_of_forall here (by simp [self]) rfl
        fun stand =>
          (Worth.two both (stand.kept 1 rfl) (stand.kept 0 rfl)).of_eq (OpCode.gate_self _ _),
        found_firstConst here fun node one stand => ?_⟩
      refine (Worth.not le_rfl fun _ => stand.kept 1 rfl).of_eq ?_
      exact (congrArg _ (one stand.valued)).trans
        (Constant.of_constSignal here own stand.valued).symm
    · next own =>
      refine forall_mem_cons.mpr ⟨found_of_forall here (by simp [self]) rfl
        fun stand =>
          (Worth.two either (stand.kept 1 rfl) (stand.kept 0 rfl)).of_eq (OpCode.gate_self _ _),
        found_firstConst here fun node one stand => ?_⟩
      refine (Worth.not le_rfl fun _ => stand.kept 1 rfl).of_eq ?_
      exact (congrArg _ (one stand.valued)).trans
        (Constant.of_constSignal here own stand.valued).symm

theorem found_complementMatches {witness} (inside : witness < graph.op.length) :
    ∀ ruleMatch ∈ graph.complementMatches root witness, Found graph ruleMatch := by
  -- The negation may depend on the constant whose place the gate takes.
  have fits {rule : RuleId} {inner : Nat} (own : graph.notSignal witness = some inner)
      (backward : rule = .andComplementInverse ∨ rule = .orComplementInverse)
      (preserves : RuleMatch.Preserves graph ⟨rule, root, [inner, witness]⟩) :
      Found graph ⟨rule, root, [inner, witness]⟩ := by
    obtain ⟨code, argument, small⟩ := GraphBody.notSignal_eq_some own
    have reference := GraphBody.child_arg0 inside (by simp [code])
    rw [argument] at reference
    refine ⟨⟨here, by simp [small, inside], Nat.le_of_ble_eq_true rfl⟩, fun straight _ => ?_,
      preserves⟩
    have apart : ¬ Relation.TransGen graph.Child witness root :=
      fun path => straight ⟨backward.imp (congrArg RuleId.asU16) (congrArg RuleId.asU16), path⟩
    simp only [forall_mem_cons]
    exact ⟨fun path => apart (.head reference path), apart, forall_mem_nil _⟩
  have worth {inner : Nat} {constant : Bool} (own : graph.notSignal witness = some inner)
      (found : graph.constSignal root = some constant) :
      Negated graph witness inner ∧ Constant graph root constant :=
    ⟨(of_notSignal (Usable.self inside) own).2, .of_constSignal here found⟩
  unfold GraphBody.complementMatches
  split
  · next inner own found =>
    refine forall_mem_singleton.mpr (fits own (.inl rfl) fun stand => ?_)
    obtain ⟨negated, constant⟩ := worth own found
    exact (Worth.two (.inl rfl) (stand.kept 1 rfl) (stand.kept 2 rfl)).of_eq
      ((congrArg _ (negated stand.valued)).trans
        ((Bool.and_not_self _).trans (constant stand.valued).symm))
  · next inner own found =>
    refine forall_mem_singleton.mpr (fits own (.inr rfl) fun stand => ?_)
    obtain ⟨negated, constant⟩ := worth own found
    exact (Worth.two (.inr rfl) (stand.kept 1 rfl) (stand.kept 2 rfl)).of_eq
      ((congrArg _ (negated stand.valued)).trans
        ((Bool.or_not_self _).trans (constant stand.valued).symm))
  · exact forall_mem_nil _

end Inverse

end Matches

/-! ## Enumeration -/

namespace Builder

variable {graph : GraphBody} {out : Builder}

/-- The candidates so far come from matches whose replacements fit. -/
structure Sound (graph : GraphBody) (out : Builder) : Prop where
  remaining : out.remainingCapacity = (graph.capacity.toNat : Int) - graph.op.length
  items : ∀ candidate ∈ out.items, ∃ ruleMatch, Found graph ruleMatch ∧
    replacementExtraNodes ruleMatch.rule ≤ (graph.capacity.toNat : Int) - graph.op.length ∧
    candidate = ruleMatch.candidate

/-- A step of the enumeration succeeds and proposes such candidates only. -/
def Proceeds (graph : GraphBody) (result : Except RuleError Builder) : Prop :=
  ∃ out, result = .ok out ∧ Sound graph out

theorem Sound.add (sound : Sound graph out) {ruleMatch} (found : Found graph ruleMatch) :
    Proceeds graph (out.add ruleMatch) := by
  unfold Builder.add
  split
  · exact ⟨out, rfl, sound⟩
  split
  · exact ⟨out, rfl, sound⟩
  split
  · exact ⟨out, rfl, sound⟩
  next room =>
  split
  · next long => exact absurd found.short (Nat.not_le.mpr long)
  dsimp only
  split
  · exact ⟨out, rfl, sound⟩
  refine ⟨_, rfl, sound.remaining, forall_mem_append.mpr
    ⟨sound.items, forall_mem_singleton.mpr ⟨ruleMatch, found, ?_, rfl⟩⟩⟩
  rw [← sound.remaining]
  exact Int.not_lt.mp room

theorem Sound.foldlM {α : Type} {items : List α} {step}
    (each : ∀ item ∈ items, ∀ out, Sound graph out → Proceeds graph (step out item))
    (sound : Sound graph out) : Proceeds graph (items.foldlM step out) := by
  induction items generalizing out with
  | nil => exact ⟨out, rfl, sound⟩
  | cons item items ih =>
    obtain ⟨first, rest⟩ := forall_mem_cons.mp each
    obtain ⟨next, done, nextSound⟩ := first out sound
    rw [foldlM_cons, done]
    exact ih rest nextSound

theorem Sound.addAll (sound : Sound graph out) {all : List RuleMatch}
    (found : ∀ ruleMatch ∈ all, Found graph ruleMatch) :
    Proceeds graph (out.addAll all) :=
  Sound.foldlM (fun ruleMatch member _ sound =>
    sound.add (found ruleMatch member)) sound

theorem Sound.visit (sound : Sound graph out) {found node}
    (each : ∀ ruleMatch ∈ found node, Found graph ruleMatch) :
    Proceeds graph (out.visit found node) := by
  unfold Builder.visit
  split
  · exact ⟨out, rfl, sound⟩
  · exact sound.addAll each

theorem Sound.visitInverse (sound : Sound graph out) {root : Nat} (here : root < graph.op.length) :
    Proceeds graph (out.visitInverse graph root) := by
  unfold Builder.visitInverse
  split
  · exact ⟨out, rfl, sound⟩
  split
  · exact ⟨out, rfl, sound⟩
  obtain ⟨next, done, nextSound⟩ := sound.addAll (found_inverseMatches here)
  rw [done]
  split
  · exact nextSound.foldlM fun witness member _ sound =>
      sound.visit (found_complementMatches here (mem_range.mp member))
  · exact ⟨next, rfl, nextSound⟩

end Builder

theorem sound_enumerateGraphLimited (graph : GraphBody)
    (includeReverseConstantFolding : Bool) (limit : Option Nat) :
    ∃ out, enumerateGraphLimited graph includeReverseConstantFolding limit = .ok out.items ∧
      Builder.Sound graph out := by
  have start : Builder.Sound graph (Builder.new graph includeReverseConstantFolding limit) :=
    ⟨rfl, forall_mem_nil _⟩
  obtain ⟨mid, first, sound⟩ := start.foldlM fun root member _ sound =>
      sound.visit (found_matchesAt (mem_range.mp member))
  obtain ⟨last, second, sound⟩ : Builder.Proceeds graph
      ((List.range graph.op.length).foldlM (Builder.visitInverse graph) mid) :=
    sound.foldlM fun root member _ sound =>
      sound.visitInverse (mem_range.mp member)
  refine ⟨last, ?_, sound⟩
  unfold enumerateGraphLimited
  dsimp only
  rw [first]
  change ((List.range graph.op.length).foldlM
    (Builder.visitInverse graph) mid >>= fun out => pure out.items) = _
  rw [second]
  rfl

theorem exists_enumerateGraphLimited {graph} (valid : graph.Valid) (inRange : graph.InRange)
    (includeReverseConstantFolding : Bool) (limit : Option Nat) :
    ∃ candidates, enumerateGraphLimited graph includeReverseConstantFolding limit = .ok candidates ∧
      ∀ candidate ∈ candidates, Applicable graph candidate := by
  obtain ⟨out, done, sound⟩ :=
    sound_enumerateGraphLimited graph includeReverseConstantFolding limit
  refine ⟨out.items, done, fun candidate member => ?_⟩
  obtain ⟨ruleMatch, found, room, rfl⟩ := sound.items candidate member
  exact found.applicable valid inRange room

/-- Every enumerated candidate of a graph whose references are in range applies,
and its rule foretells the nodes it needs.  The graphs of the engine come from
compaction and are of this kind. -/
theorem exists_enumerateGraph {graph : GraphBody}
    (valid : graph.validate = .ok ()) (inRange : graph.InRange)
    (includeReverseConstantFolding : Bool) :
    ∃ candidates,
      enumerateGraph graph includeReverseConstantFolding = .ok candidates ∧
      ∀ candidate ∈ candidates, Applicable graph candidate :=
  exists_enumerateGraphLimited (GraphBody.validate_eq_ok.mp valid) inRange
    includeReverseConstantFolding none

namespace Sample

def wire : GraphBody where
  arity := 1
  capacity := 4
  outputNode := 1
  op := [.input, .output]
  arg0 := [0, 0]
  arg1 := [noNode, noNode]

/-- The output refers to a node that is not there. -/
def far : GraphBody :=
  { wire with arg0 := [0, 7] }

end Sample

theorem exists_enumerateGraph_wire :
    ∃ candidates, enumerateGraph Sample.wire true = .ok candidates ∧
      ∀ candidate ∈ candidates, Applicable Sample.wire candidate :=
  exists_enumerateGraph rfl (by unfold GraphBody.InRange; decide) true

/-- Validation accepts an output that refers to no node. -/
theorem not_applicable_far : Sample.far.validate = .ok () ∧
    ¬ ∃ candidates, enumerateGraph Sample.far true = .ok candidates ∧
      ∀ candidate ∈ candidates, ∃ result, applyGraph Sample.far candidate = .ok result := by
  refine ⟨rfl, ?_⟩
  rintro ⟨candidates, done, applies⟩
  have all : candidates.all (fun candidate =>
      (applyGraph Sample.far candidate).toBool) = true := by
    rw [all_eq_true]
    intro candidate member
    obtain ⟨result, applied⟩ := applies candidate member
    rw [applied]
    rfl
  have fails : (enumerateGraph Sample.far true).map (fun candidates =>
      candidates.all fun candidate => (applyGraph Sample.far candidate).toBool) =
        .ok false := by decide +kernel
  rw [done] at fails
  exact Bool.noConfusion (all.symm.trans (Except.ok.inj fails))

/-! ## Limits -/

namespace Builder

variable {graph : GraphBody} {whole out : Builder} {limit : Nat}

/-- `out` has the first `limit` of the candidates of `whole`, which are
distinct. -/
structure Cuts (limit : Nat) (whole out : Builder) : Prop where
  unlimited : whole.limit = none
  seen : whole.seen = (whole.items.map RawCandidate.key).reverse
  distinct : (whole.items.map RawCandidate.key).Nodup
  limited : out.limit = some limit
  items : out.items = whole.items.take limit
  same : whole.items.length < limit → out = { whole with limit := some limit }

/-- A step of `out` keeps up with the one of `whole`. -/
def KeepsUp (limit : Nat) (whole out : Except RuleError Builder) : Prop :=
  ∀ next, whole = .ok next → ∃ mid, out = .ok mid ∧ Cuts limit next mid

theorem foldlM_eq_self {step : Builder → Nat → Except RuleError Builder}
    (kept : ∀ node, step out node = .ok out) (nodes : List Nat) :
    nodes.foldlM step out = .ok out := by
  induction nodes with
  | nil => rfl
  | cons node nodes ih =>
    rw [foldlM_cons, kept]
    exact ih

theorem addAll_of_isFull (full : out.isFull = true) (found : List RuleMatch) :
    out.addAll found = .ok out := by
  induction found with
  | nil => rfl
  | cons ruleMatch found ih =>
    unfold addAll at ih ⊢
    rw [foldlM_cons, add, if_pos full]
    exact ih

theorem visit_eq_addAll (found : Nat → List RuleMatch) (node : Nat) :
    out.visit found node = out.addAll (found node) := by
  unfold visit
  split
  · next full => exact (addAll_of_isFull full _).symm
  · rfl

theorem visitInverse_eq (root : Nat) : out.visitInverse graph root =
      if graph.opAt root = .output then .ok out
      else out.addAll (graph.inverseMatches root) >>= fun out =>
        if graph.opAt root = .const then
          (List.range graph.op.length).foldlM (Builder.visit (graph.complementMatches root)) out
        else pure out := by
  unfold visitInverse
  split
  · next full =>
    rw [addAll_of_isFull full, ok_bind, foldlM_eq_self fun node => by rw [visit, if_pos full]]
    split <;> [rfl; split <;> rfl]
  · rfl

theorem add_cases {next ruleMatch} (added : whole.add ruleMatch = .ok next) :
    next = whole ∨ ruleMatch.candidate.key ∉ whole.seen ∧ next = { whole with
        items := whole.items ++ [ruleMatch.candidate]
        seen := ruleMatch.candidate.key :: whole.seen } := by
  unfold add at added
  split at added
  · exact .inl (Except.ok.inj added).symm
  split at added
  · exact .inl (Except.ok.inj added).symm
  split at added
  · exact .inl (Except.ok.inj added).symm
  split at added
  · cases added
  dsimp only at added
  split at added
  · exact .inl (Except.ok.inj added).symm
  · next fresh => exact .inr ⟨fresh, (Except.ok.inj added).symm⟩

theorem add_limited {next ruleMatch} (unlimited : whole.limit = none)
    (room : whole.items.length < limit) (added : whole.add ruleMatch = .ok next) :
    ({ whole with limit := some limit } : Builder).add ruleMatch =
      .ok { next with limit := some limit } := by
  have free : whole.isFull = false := by rw [isFull, unlimited]
  have same : ({ whole with limit := some limit } : Builder).isFull = false :=
    decide_eq_false (Nat.not_le.mpr room)
  unfold add at added ⊢
  rw [free] at added
  rw [same]
  grind

theorem Cuts.add (cuts : Cuts limit whole out) (ruleMatch : RuleMatch) :
    KeepsUp limit (whole.add ruleMatch) (out.add ruleMatch) := by
  intro next added
  have unlimited : next.limit = none := by
    rcases add_cases added with rfl | ⟨_, rfl⟩ <;> exact cuts.unlimited
  have distinct : next.seen = (next.items.map RawCandidate.key).reverse ∧
      (next.items.map RawCandidate.key).Nodup := by
    rcases add_cases added with rfl | ⟨fresh, rfl⟩
    · exact ⟨cuts.seen, cuts.distinct⟩
    · rw [cuts.seen, mem_reverse] at fresh
      rw [map_append, reverse_append, ← cuts.seen]
      exact ⟨rfl, cuts.distinct.append (nodup_singleton _) (by simpa using fresh)⟩
  by_cases room : whole.items.length < limit
  · obtain rfl := cuts.same room
    refine ⟨_, add_limited cuts.unlimited room added,
      unlimited, distinct.1, distinct.2, rfl, (take_of_length_le ?_).symm, fun _ => rfl⟩
    rcases add_cases added with rfl | ⟨_, rfl⟩
    · exact room.le
    · rw [length_append]
      exact room
  · have full : out.isFull = true := by
      rw [isFull, cuts.limited]
      exact decide_eq_true (by rw [cuts.items, length_take]; omega)
    refine ⟨out, by rw [Builder.add, if_pos full],
      unlimited, distinct.1, distinct.2, cuts.limited, ?_, fun more => ?_⟩
    · rcases add_cases added with rfl | ⟨_, rfl⟩
      · exact cuts.items
      · rw [take_append_of_le_length (Nat.not_lt.mp room)]
        exact cuts.items
    · rcases add_cases added with rfl | ⟨_, rfl⟩
      · exact absurd more room
      · rw [length_append] at more
        exact absurd (Nat.lt_of_le_of_lt (Nat.le_add_right _ _) more) room

theorem Cuts.foldlM {β : Type} (step : Builder → β → Except RuleError Builder)
    (keepsUp : ∀ whole out item, Cuts limit whole out →
      KeepsUp limit (step whole item) (step out item))
    (cuts : Cuts limit whole out) (items : List β) :
    KeepsUp limit (items.foldlM step whole) (items.foldlM step out) := by
  induction items generalizing whole out with
  | nil => exact fun next done => ⟨out, rfl, Except.ok.inj done ▸ cuts⟩
  | cons item items ih =>
    intro next done
    rw [foldlM_cons] at done ⊢
    obtain ⟨mid, first, rest⟩ := ok_of_bind done
    obtain ⟨other, second, cuts⟩ := keepsUp _ _ _ cuts mid first
    rw [second]
    exact ih cuts next rest

theorem Cuts.addAll (cuts : Cuts limit whole out) (found : List RuleMatch) :
    KeepsUp limit (whole.addAll found) (out.addAll found) :=
  cuts.foldlM Builder.add (fun _ _ ruleMatch cuts => cuts.add ruleMatch) found

theorem Cuts.visit (cuts : Cuts limit whole out) (found : Nat → List RuleMatch) (node : Nat) :
    KeepsUp limit (whole.visit found node) (out.visit found node) := by
  rw [visit_eq_addAll, visit_eq_addAll]
  exact cuts.addAll _

theorem Cuts.visitInverse (cuts : Cuts limit whole out) (graph : GraphBody) (root : Nat) :
    KeepsUp limit (whole.visitInverse graph root) (out.visitInverse graph root) := by
  rw [visitInverse_eq, visitInverse_eq]
  intro next done
  split at done
  · next ends => exact ⟨out, if_pos ends, Except.ok.inj done ▸ cuts⟩
  next goesOn =>
  obtain ⟨mid, first, rest⟩ := ok_of_bind done
  obtain ⟨other, second, cuts⟩ := cuts.addAll _ mid first
  rw [if_neg goesOn, second, ok_bind]
  split at rest
  · next const =>
    rw [if_pos const]
    exact cuts.foldlM _ (fun _ _ node cuts => cuts.visit _ node) _ next rest
  · next const => exact ⟨other, if_neg const, Except.ok.inj rest ▸ cuts⟩

end Builder

/-- A limit cuts the enumeration off and changes nothing else, and no candidate
is proposed twice. -/
theorem enumerateGraphLimited_eq_take (graph : GraphBody)
    (includeReverseConstantFolding : Bool) (limit : Nat) :
    ∃ candidates, enumerateGraph graph includeReverseConstantFolding = .ok candidates ∧
      (candidates.map RawCandidate.key).Nodup ∧
      enumerateGraphLimited graph includeReverseConstantFolding (some limit) =
        .ok (candidates.take limit) := by
  have start : Builder.Cuts limit (.new graph includeReverseConstantFolding none)
      (.new graph includeReverseConstantFolding (some limit)) :=
    ⟨rfl, rfl, nodup_nil, rfl, take_nil.symm, fun _ => rfl⟩
  obtain ⟨out, done, _⟩ := sound_enumerateGraphLimited graph includeReverseConstantFolding none
  obtain ⟨mid, first, rest⟩ := ok_of_bind done
  obtain ⟨last, second, rest⟩ := ok_of_bind rest
  obtain ⟨_, firstCut, cuts⟩ :=
    start.foldlM _ (fun _ _ node cuts => cuts.visit _ node) _ _ first
  obtain ⟨_, secondCut, cuts⟩ :=
    cuts.foldlM _ (fun _ _ node cuts => cuts.visitInverse graph node) _ _ second
  refine ⟨out.items, done, Except.ok.inj rest ▸ cuts.distinct, ?_⟩
  unfold enumerateGraphLimited
  dsimp only
  rw [firstCut, ok_bind, secondCut, ok_bind, cuts.items, Except.ok.inj rest]
  rfl

/-! ## Rewriting -/

/-- What a rewrite keeps. -/
structure Rewritten (first last : GraphBody) : Prop where
  valid : last.Valid
  inRange : last.InRange
  acyclic : last.Acyclic
  arity : last.arity = first.arity
  capacity : last.capacity = first.capacity
  computes : ∃ function, first.Computes function ∧ last.Computes function

/-- Every node keeps its value when a replacement takes the place of the
root. -/
theorem Found.evaluates {graph grown ruleMatch inputs target added node worth}
    (found : Found graph ruleMatch) (inRange : graph.InRange) (acyclic : graph.Acyclic)
    (straight : ¬ ruleMatch.candidate.LoopsBack graph)
    (built : replacement ruleMatch.candidate.matched graph ruleMatch.root ruleMatch.rule =
      (grown, target)) (extended : Extends graph grown added)
    (evaluates : Evaluates graph inputs node worth) :
    Evaluates (grown.redirect graph.op.length ruleMatch.root target) inputs node worth := by
  obtain ⟨value, valued⟩ := acyclic.exists_valued inRange inputs
  have redirected : Redirected graph _ ruleMatch.root target := extended.redirected
  -- What does not depend on the root is as before.
  have clear (node : Nat) (inside : node < graph.op.length)
      (apart : ¬ Relation.TransGen graph.Child node ruleMatch.root) :
      Evaluates (grown.redirect graph.op.length ruleMatch.root target) inputs node (value node) :=
    redirected.evaluates (fun node => ¬ Relation.TransGen graph.Child node ruleMatch.root)
      (fun _ child here reference => ⟨fun path => here (.head reference path),
        fun same => absurd (.single (same ▸ reference)) here⟩)
      (valued node inside) apart
  have matched : ∀ node ∈ ruleMatch.root :: ruleMatch.rest,
      Evaluates (grown.redirect graph.op.length ruleMatch.root target) inputs node (value node) :=
    forall_mem_cons.mpr ⟨clear _ found.root (acyclic _), fun node member =>
      clear node (found.rest node member) (found.apart straight acyclic node member)⟩
  have onto := found.preserves ⟨_, inputs, value, valued, fun position inside =>
    matched _ (by
      change (ruleMatch.root :: ruleMatch.rest).getD position.val 0 ∈ _
      rw [getD_eq_getElem _ _ (Nat.lt_succ_of_le (Nat.le_of_ble_eq_true inside))]
      exact getElem_mem _)⟩
  rw [built] at onto
  exact redirected.evaluates (fun _ => True) (fun _ _ _ _ => ⟨trivial, fun _ _ own =>
    GraphBody.evaluates_unique own (valued _ found.root) ▸ onto extended.embeds⟩)
    evaluates trivial

theorem Found.rewritten {graph result ruleMatch} (found : Found graph ruleMatch)
    (valid : graph.Valid) (inRange : graph.InRange) (acyclic : graph.Acyclic)
    (room : replacementExtraNodes ruleMatch.rule ≤ (graph.capacity.toNat : Int) - graph.op.length)
    (straight : ¬ ruleMatch.candidate.LoopsBack graph)
    (done : applyGraph graph ruleMatch.candidate = .ok result) : Rewritten graph result := by
  obtain ⟨grown, target, added, replaced, _, _, extended, inside, few, applied⟩ :=
    found.exists_replacement valid inRange room
  have redirected : (grown.redirect graph.op.length ruleMatch.root target).Valid :=
    extended.valid_redirect valid few
  obtain ⟨compact, keep, compacted, compactValid, kept, renumbered⟩ :=
    exists_compactGraph redirected (extended.inRange_redirect inside)
  rw [applied, compacted] at done
  obtain rfl : compact = result := Except.ok.inj done
  obtain ⟨function, computes⟩ := acyclic.exists_computes inRange valid
  have output (inputs : Nat → Bool) := found.evaluates inRange acyclic straight replaced extended
    ((computes inputs _).mpr rfl)
  rw [← extended.output] at output
  refine ⟨compactValid, renumbered.inRange, ?_, renumbered.arity.trans extended.arity,
    renumbered.capacity.trans extended.capacity, function, computes, fun inputs value => ?_⟩
  · refine GraphBody.acyclic_of_evaluates (fun _ => false) fun node here => ?_
    obtain ⟨old, own⟩ := renumbered.exists_source here
    obtain ⟨stays, input | path⟩ := (kept.mem_iff old).mp (mem_of_getElem? own)
    · exact ⟨_, renumbered.evaluates (.input stays (redirected.inputs old input).1) own⟩
    · obtain ⟨value, evaluates⟩ := GraphBody.evaluates_of_reachable (output _) path
      exact ⟨value, renumbered.evaluates evaluates own⟩
  · have evaluates := renumbered.evaluates (output inputs) renumbered.output
    exact ⟨fun other => GraphBody.evaluates_unique other evaluates, fun same => same ▸ evaluates⟩

/-- A candidate of the graph is applied; it does not loop back. -/
def Rewrites (graph next : GraphBody) : Prop :=
  ∃ includeReverseConstantFolding limit candidates candidate,
    enumerateGraphLimited graph includeReverseConstantFolding limit = .ok candidates ∧
      candidate ∈ candidates ∧ ¬ candidate.LoopsBack graph ∧
      applyGraph graph candidate = .ok next

/-- Whatever rewrites are made, the circuit remains one of the same inputs
and computes what it has computed. -/
theorem rewritten_of_rewrites {first last : GraphBody} (valid : first.validate = .ok ())
    (inRange : first.InRange) (acyclic : first.Acyclic)
    (run : Relation.ReflTransGen Rewrites first last) : Rewritten first last := by
  have valid := GraphBody.validate_eq_ok.mp valid
  induction run with
  | refl =>
    obtain ⟨function, computes⟩ := acyclic.exists_computes inRange valid
    exact ⟨valid, inRange, acyclic, rfl, rfl, function, computes, computes⟩
  | tail _ step ih =>
    obtain ⟨folding, limit, candidates, candidate, enumerated, member, straight, done⟩ := step
    obtain ⟨out, proposed, sound⟩ := sound_enumerateGraphLimited _ folding limit
    obtain rfl := Except.ok.inj (proposed.symm.trans enumerated)
    obtain ⟨ruleMatch, found, room, rfl⟩ := sound.items candidate member
    have next := found.rewritten ih.valid ih.inRange ih.acyclic room straight done
    obtain ⟨function, before, between⟩ := ih.computes
    obtain ⟨other, same, after⟩ := next.computes
    obtain rfl : function = other := funext fun inputs =>
      (same inputs _).mp ((between inputs _).mpr rfl)
    exact ⟨next.valid, next.inRange, next.acyclic, next.arity.trans ih.arity,
      next.capacity.trans ih.capacity, function, before, after⟩

namespace Sample

/-- One input, combined with itself. -/
def doubled : GraphBody where
  arity := 1
  capacity := 4
  outputNode := 2
  op := [.input, .and, .output]
  arg0 := [0, 0, 1]
  arg1 := [noNode, 0, noNode]

end Sample

theorem rewritten_of_rewrites_doubled :
    Rewrites Sample.doubled Sample.wire ∧ Rewritten Sample.doubled Sample.wire := by
  have step : Rewrites Sample.doubled Sample.wire := by
    refine ⟨false, some 1, [(⟨.andIdempotent, 1, [0]⟩ : RuleMatch).candidate], _, rfl,
      mem_singleton_self _, ?_, rfl⟩
    rintro ⟨named | named, _⟩
    · revert named
      decide
    · revert named
      decide
  exact ⟨step, rewritten_of_rewrites rfl (by unfold GraphBody.InRange; decide)
    (GraphBody.acyclic_of_lt (by decide)) (.single step)⟩

end GraphZero.Whittle
