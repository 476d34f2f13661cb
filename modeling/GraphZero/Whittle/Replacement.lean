import GraphZero.Whittle.Meaning
import GraphZero.Whittle.Rules

/-!
# Replacements

The nodes of a replacement are added behind those of the graph, and the gates
of the graph refer to one of them in place of the root.  If that one is worth
what the root was, so is every gate.
-/

namespace GraphZero.Whittle

open Foundation List

/-! ## Adding nodes -/

/-- `grown` is `graph` with some nodes added. -/
structure Extends (graph grown : GraphBody) (added : Nat) : Prop where
  arity : grown.arity = graph.arity
  capacity : grown.capacity = graph.capacity
  output : grown.outputNode = graph.outputNode
  length : grown.op.length = graph.op.length + added
  arg0 : grown.arg0.length = grown.op.length
  arg1 : grown.arg1.length = grown.op.length
  opAt : ∀ node < graph.op.length, grown.opAt node = graph.opAt node
  arg0At : ∀ node < graph.op.length, grown.arg0At node = graph.arg0At node
  arg1At : ∀ node < graph.op.length, grown.arg1At node = graph.arg1At node
  inRange : grown.InRange

section

variable {grown : GraphBody} (arg0 : grown.arg0.length = grown.op.length)
  (arg1 : grown.arg1.length = grown.op.length)
include arg0 arg1

theorem appendNode_old (code : OpCode) (a b : Nat) {node} (inside : node < grown.op.length) :
    (appendNode grown code a b).1.opAt node = grown.opAt node ∧
      (appendNode grown code a b).1.arg0At node = grown.arg0At node ∧
      (appendNode grown code a b).1.arg1At node = grown.arg1At node :=
  ⟨getD_append _ _ _ _ inside, getD_append _ _ _ _ (arg0.symm ▸ inside),
    getD_append _ _ _ _ (arg1.symm ▸ inside)⟩

theorem appendNode_new (code : OpCode) (a b : Nat) :
    (appendNode grown code a b).1.opAt grown.op.length = code ∧
      (appendNode grown code a b).1.arg0At grown.op.length = a ∧
      (appendNode grown code a b).1.arg1At grown.op.length = b := by
  have last {α : Type} (items : List α) (item default : α) {place : Nat}
      (own : items.length = place) :
      (items ++ [item]).getD place default = item := by
    rw [← own, getD_append_right _ _ _ _ le_rfl, Nat.sub_self]
    rfl
  exact ⟨last _ _ _ rfl, last _ _ _ arg0, last _ _ _ arg1⟩

end

namespace Extends

variable {graph grown : GraphBody} {added a b : Nat}

theorem refl (valid : graph.Valid) (inRange : graph.InRange) : Extends graph graph 0 where
  arity := rfl
  capacity := rfl
  output := rfl
  length := rfl
  arg0 := valid.arg0
  arg1 := valid.arg1
  opAt _ _ := rfl
  arg0At _ _ := rfl
  arg1At _ _ := rfl
  inRange := inRange

theorem length_appendNode (grown : GraphBody) (code : OpCode) (a b : Nat) :
    (appendNode grown code a b).1.op.length = grown.op.length + 1 :=
  length_append

section

variable (extended : Extends graph grown added)
include extended

theorem append {code} (inside : ∀ child ∈ (appendNode grown code a b).1.childrenAt
      grown.op.length, child < grown.op.length) :
    Extends graph (appendNode grown code a b).1 (added + 1) where
  arity := extended.arity
  capacity := extended.capacity
  output := extended.output
  length := by
    rw [length_appendNode, extended.length]
    rfl
  arg0 := by
    rw [length_appendNode, ← extended.arg0]
    exact length_append
  arg1 := by
    rw [length_appendNode, ← extended.arg1]
    exact length_append
  opAt node old :=
    (appendNode_old extended.arg0 extended.arg1 code a b (by
      rw [extended.length]
      omega)).1.trans (extended.opAt node old)
  arg0At node old :=
    (appendNode_old extended.arg0 extended.arg1 code a b (by
      rw [extended.length]
      omega)).2.1.trans (extended.arg0At node old)
  arg1At node old :=
    (appendNode_old extended.arg0 extended.arg1 code a b (by
      rw [extended.length]
      omega)).2.2.trans (extended.arg1At node old)
  inRange node here child reference := by
    rw [length_appendNode] at here ⊢
    rcases Nat.lt_succ_iff_lt_or_eq.mp here with old | rfl
    · obtain ⟨op, arg0, arg1⟩ := appendNode_old extended.arg0 extended.arg1 code a b old
      unfold GraphBody.childrenAt at reference
      rw [op, arg0, arg1] at reference
      exact (extended.inRange node old child reference).trans (Nat.lt_succ_self _)
    · exact (inside child reference).trans (Nat.lt_succ_self _)

theorem constant : Extends graph (appendNode grown .const a b).1 (added + 1) := by
  refine extended.append fun child reference => ?_
  unfold GraphBody.childrenAt at reference
  rw [(appendNode_new extended.arg0 extended.arg1 .const a b).1] at reference
  cases reference

theorem negation (first : a < grown.op.length) :
    Extends graph (appendNode grown .not a b).1 (added + 1) := by
  obtain ⟨op, arg0, _⟩ := appendNode_new extended.arg0 extended.arg1 .not a b
  refine extended.append fun child reference => ?_
  unfold GraphBody.childrenAt at reference
  rw [op, arg0] at reference
  rwa [mem_singleton.mp reference]

theorem gate {code} (binary : code = .and ∨ code = .or) (first : a < grown.op.length)
    (second : b < grown.op.length) :
    Extends graph (appendNode grown code a b).1 (added + 1) := by
  obtain ⟨op, arg0, arg1⟩ := appendNode_new extended.arg0 extended.arg1 code a b
  refine extended.append fun child reference => ?_
  have pair : child ∈ [a, b] := by
    unfold GraphBody.childrenAt at reference
    rw [op, arg0, arg1] at reference
    rcases binary with rfl | rfl
    · exact reference
    · exact reference
  rcases mem_cons.mp pair with rfl | last
  · exact first
  · rwa [mem_singleton.mp last]

theorem old {node} (inside : node < graph.op.length) : node < grown.op.length := by
  rw [extended.length]
  omega

end

end Extends

/-! ## Replacements -/

/-- A replacement that adds some nodes to the graph, one of which or an old
one takes the place of the root. -/
structure Replaces (graph : GraphBody) (added : Nat) (built : GraphBody × Nat) : Prop where
  extended : Extends graph built.1 added
  inside : built.2 < built.1.op.length

namespace Replaces

variable {graph : GraphBody} {m : Fin maxMatched → Nat} {root : Nat}
  {code firstCode secondCode : OpCode}

theorem appended {grown added a b} (extended : Extends graph (appendNode grown code a b).1 added) :
    Replaces graph added (appendNode grown code a b) :=
  ⟨extended, by
    rw [Extends.length_appendNode]
    exact Nat.lt_succ_self _⟩

theorem kept (start : Extends graph graph 0) {node} (inside : node < graph.op.length) :
    Replaces graph 0 (graph, node) :=
  ⟨start, inside⟩

section Building

variable (start : Extends graph graph 0) (matched : ∀ position, m position < graph.op.length)
  (inside : root < graph.op.length)

include start matched

section

variable (binary : code = .and ∨ code = .or)
include binary

theorem associateLeft : Replaces graph 2 (Whittle.associateLeft m graph code) := by
  have first := appended (start.gate binary (matched 2) (matched 3))
  exact appended (first.extended.gate binary first.inside (first.extended.old (matched 4)))

theorem associateRight : Replaces graph 2 (Whittle.associateRight m graph code) := by
  have first := appended (start.gate binary (matched 3) (matched 4))
  exact appended (first.extended.gate binary (first.extended.old (matched 2)) first.inside)

theorem deMorganNot : Replaces graph 3 (Whittle.deMorganNot m graph code) := by
  have first : Replaces graph 1 (appendNode graph .not (m 2) noNode) :=
    appended (start.negation (matched 2))
  have second := appended (b := noNode) (first.extended.negation (first.extended.old (matched 3)))
  refine appended (second.extended.gate binary ?_ second.inside)
  rw [Extends.length_appendNode]
  exact first.inside.trans (Nat.lt_succ_self _)

theorem deMorganNots : Replaces graph 2 (Whittle.deMorganNots m graph code) := by
  have first := appended (start.gate binary (matched 3) (matched 4))
  exact appended (first.extended.negation first.inside)

end

theorem distributeFactor (binary : firstCode = .and ∨ firstCode = .or)
    (also : secondCode = .and ∨ secondCode = .or) :
    Replaces graph 2 (Whittle.distributeFactor m graph firstCode secondCode) := by
  have first := appended (start.gate binary (matched 4) (matched 5))
  exact appended (first.extended.gate also (first.extended.old (matched 3)) first.inside)

theorem distributeExpand (binary : firstCode = .and ∨ firstCode = .or)
    (also : secondCode = .and ∨ secondCode = .or) :
    Replaces graph 3 (Whittle.distributeExpand m graph firstCode secondCode) := by
  have first := appended (start.gate binary (matched 2) (matched 3))
  have second := appended (first.extended.gate binary
    (first.extended.old (matched 2)) (first.extended.old (matched 4)))
  refine appended (second.extended.gate also ?_ second.inside)
  rw [Extends.length_appendNode]
  exact first.inside.trans (Nat.lt_succ_self _)

include inside

theorem consensusAdd (binary : firstCode = .and ∨ firstCode = .or)
    (also : secondCode = .and ∨ secondCode = .or) :
    Replaces graph 2 (Whittle.consensusAdd m graph root firstCode secondCode) := by
  have first := appended (start.gate binary (matched 4) (matched 5))
  exact appended (first.extended.gate also (first.extended.old inside) first.inside)

theorem absorbInverse (binary : firstCode = .and ∨ firstCode = .or)
    (also : secondCode = .and ∨ secondCode = .or) :
    Replaces graph 2 (Whittle.absorbInverse m graph root firstCode secondCode) := by
  have first := appended (start.gate binary inside (matched 1))
  exact appended (first.extended.gate also (first.extended.old inside) first.inside)

omit matched in
theorem doubleNegationInverse : Replaces graph 2 (Whittle.doubleNegationInverse graph root) := by
  have first : Replaces graph 1 (appendNode graph .not root noNode) :=
    appended (start.negation inside)
  exact appended (first.extended.negation first.inside)

theorem of_rule (rule : RuleId) : ∃ added : Nat, (added : Int) = replacementExtraNodes rule ∧
      Replaces graph added (replacement m graph root rule) := by
  have both : OpCode.and = .and ∨ OpCode.and = .or := .inl rfl
  have either : OpCode.or = .and ∨ OpCode.or = .or := .inr rfl
  cases rule with
  | andFalse | orTrue | andIdempotent | orIdempotent | absorbOrAnd
  | absorbAndOr | consensusOrRemove | consensusAndRemove => exact ⟨0, rfl, kept start (matched 1)⟩
  | andTrue | orFalse | doubleNegation => exact ⟨0, rfl, kept start (matched 2)⟩
  | andFalseInverse => exact ⟨1, rfl, appended (start.gate both (matched 1) inside)⟩
  | andTrueInverse => exact ⟨1, rfl, appended (start.gate both inside (matched 1))⟩
  | orFalseInverse => exact ⟨1, rfl, appended (start.gate either inside (matched 1))⟩
  | orTrueInverse => exact ⟨1, rfl, appended (start.gate either (matched 1) inside)⟩
  | notFalseInverse | notTrueInverse => exact ⟨1, rfl, appended (start.negation (matched 1))⟩
  | andIdempotentInverse => exact ⟨1, rfl, appended (start.gate both inside inside)⟩
  | orIdempotentInverse => exact ⟨1, rfl, appended (start.gate either inside inside)⟩
  | andComplementInverse => exact ⟨1, rfl, appended (start.gate both (matched 1) (matched 2))⟩
  | orComplementInverse => exact ⟨1, rfl, appended (start.gate either (matched 1) (matched 2))⟩
  | doubleNegationInverse => exact ⟨2, rfl, doubleNegationInverse start inside⟩
  | absorbOrAndInverse => exact ⟨2, rfl, absorbInverse start matched inside both either⟩
  | absorbAndOrInverse => exact ⟨2, rfl, absorbInverse start matched inside either both⟩
  | notFalse | orComplement | notTrue | andComplement => exact ⟨1, rfl, appended start.constant⟩
  | commuteAnd => exact ⟨1, rfl, appended (start.gate both (matched 2) (matched 1))⟩
  | commuteOr => exact ⟨1, rfl, appended (start.gate either (matched 2) (matched 1))⟩
  | associateAndLeft => exact ⟨2, rfl, associateLeft start matched both⟩
  | associateOrLeft => exact ⟨2, rfl, associateLeft start matched either⟩
  | associateAndRight => exact ⟨2, rfl, associateRight start matched both⟩
  | associateOrRight => exact ⟨2, rfl, associateRight start matched either⟩
  | deMorganNotAnd => exact ⟨3, rfl, deMorganNot start matched either⟩
  | deMorganNotOr => exact ⟨3, rfl, deMorganNot start matched both⟩
  | deMorganOrNots => exact ⟨2, rfl, deMorganNots start matched both⟩
  | deMorganAndNots => exact ⟨2, rfl, deMorganNots start matched either⟩
  | distributeOrFactor => exact ⟨2, rfl, distributeFactor start matched either both⟩
  | distributeAndFactor => exact ⟨2, rfl, distributeFactor start matched both either⟩
  | distributeOrExpand => exact ⟨3, rfl, distributeExpand start matched both either⟩
  | distributeAndExpand => exact ⟨3, rfl, distributeExpand start matched either both⟩
  | consensusOrAdd => exact ⟨2, rfl, consensusAdd start matched inside both either⟩
  | consensusAndAdd => exact ⟨2, rfl, consensusAdd start matched inside either both⟩

end Building

end Replaces

theorem RuleId.fromU16_asU16 (rule : RuleId) : fromU16 rule.asU16 = .ok rule := by
  cases rule with
  | _ => rfl

namespace GraphBody

variable {graph : GraphBody} {nodes root target node : Nat}

theorem getD_mapIdx {items : List Nat} {place} (inside : place < items.length)
    (change : Nat → Nat → Nat) :
    (items.mapIdx change).getD place 0 = change place (items.getD place 0) := by
  rw [getD_eq_getElem?_getD, getD_eq_getElem?_getD, getElem?_mapIdx, getElem?_eq_getElem inside]
  rfl

theorem redirect_arg0At (inside : node < graph.arg0.length) :
    (graph.redirect nodes root target).arg0At node =
      if node < nodes ∧ graph.opAt node ∈ [.and, .or, .not, .output] ∧
        graph.arg0At node = root then target
      else graph.arg0At node :=
  getD_mapIdx inside _

theorem redirect_arg1At (inside : node < graph.arg1.length) :
    (graph.redirect nodes root target).arg1At node =
      if node < nodes ∧ graph.opAt node ∈ [.and, .or] ∧ graph.arg1At node = root then target
      else graph.arg1At node :=
  getD_mapIdx inside _

end GraphBody

namespace Extends

variable {graph grown : GraphBody} {added nodes root target : Nat}
  (extended : Extends graph grown added)
include extended

theorem inRange_redirect (inside : target < grown.op.length) :
    (grown.redirect nodes root target).InRange := by
  intro node here child reference
  have each := extended.inRange node here
  unfold GraphBody.childrenAt at reference each
  rw [show (grown.redirect nodes root target).opAt node = grown.opAt node from rfl,
    GraphBody.redirect_arg0At (extended.arg0.symm ▸ here),
    GraphBody.redirect_arg1At (extended.arg1.symm ▸ here)] at reference
  have small {old : Nat} {condition : Prop} [Decidable condition] (own : old < grown.op.length) :
      (if condition then target else old) < grown.op.length := by
    split
    · exact inside
    · exact own
  cases code : grown.opAt node with
  | input | const =>
    simp only [code] at reference
    cases reference
  | not | output =>
    simp only [code] at reference each
    rw [mem_singleton.mp reference]
    exact small (each _ mem_cons_self)
  | and | or =>
    simp only [code] at reference each
    obtain ⟨left, right⟩ := forall_mem_cons.mp each
    rcases mem_cons.mp reference with same | reference
    · rw [same]
      exact small left
    · rw [mem_singleton.mp reference]
      exact small (right _ mem_cons_self)

theorem valid_redirect (valid : graph.Valid) (room : grown.op.length ≤ graph.capacity.toNat) :
    (grown.redirect nodes root target).Valid where
  nodes := by
    change grown.op.length ≠ 0
    rw [extended.length]
    have some := valid.nodes
    omega
  arg0 := length_mapIdx.trans extended.arg0
  arg1 := length_mapIdx.trans extended.arg1
  capacity := by
    change grown.op.length ≤ grown.capacity.toNat
    rwa [extended.capacity]
  output := by
    change grown.outputNode < grown.op.length
    rw [extended.output]
    exact extended.old valid.output
  arity := by
    change grown.arity.toNat ≤ grown.op.length
    rw [extended.arity, extended.length]
    exact valid.arity.trans (Nat.le_add_right _ _)
  inputs node input := by
    change node < grown.arity.toNat at input
    rw [extended.arity] at input
    have old : node < graph.op.length := input.trans_le valid.arity
    obtain ⟨code, own⟩ := valid.inputs node input
    have same : grown.opAt node = .input := (extended.opAt node old).trans code
    refine ⟨same, ?_⟩
    rw [GraphBody.redirect_arg0At (extended.arg0.symm ▸ extended.old old), if_neg,
      extended.arg0At node old, own]
    rintro ⟨_, gate, _⟩
    rw [same] at gate
    exact absurd gate (by decide)

end Extends

/-! ## What a replacement is worth -/

/-- What an AND or OR gate is worth. -/
def OpCode.gate (kind : OpCode) (left right : Bool) : Bool :=
  if kind = .or then left || right else left && right

/-- The nodes of `grown` from `start` on are nodes of `last`. -/
structure Embeds (start : Nat) (grown last : GraphBody) : Prop where
  arg0 : grown.arg0.length = grown.op.length
  arg1 : grown.arg1.length = grown.op.length
  same : ∀ node, start ≤ node → node < grown.op.length →
    node < last.op.length ∧ last.opAt node = grown.opAt node ∧
      last.arg0At node = grown.arg0At node ∧ last.arg1At node = grown.arg1At node

section Worth

variable {start a b : Nat} {graph grown last : GraphBody} {inputs : Nat → Bool}
  {kind other : OpCode} {x y z : Bool} {m : Fin maxMatched → Nat} {root : Nat}

theorem Evaluates.gate {node} (binary : kind = .and ∨ kind = .or) (inside : node < graph.op.length)
    (code : graph.opAt node = kind) (first : Evaluates graph inputs (graph.arg0At node) x)
    (second : Evaluates graph inputs (graph.arg1At node) y) :
    Evaluates graph inputs node (kind.gate x y) := by
  rcases binary with rfl | rfl
  · exact .and inside code first second
  · exact .or inside code first second

theorem Embeds.peel {code} (embeds : Embeds start (appendNode grown code a b).1 last)
    (old : start ≤ grown.op.length) :
    Embeds start grown last ∧ grown.op.length < last.op.length ∧
      last.opAt grown.op.length = code ∧ last.arg0At grown.op.length = a ∧
      last.arg1At grown.op.length = b := by
  have length := Extends.length_appendNode grown code a b
  have arg0 : grown.arg0.length = grown.op.length :=
    Nat.succ.inj (length_append.symm.trans (embeds.arg0.trans length))
  have arg1 : grown.arg1.length = grown.op.length :=
    Nat.succ.inj (length_append.symm.trans (embeds.arg1.trans length))
  obtain ⟨inside, op, first, second⟩ := embeds.same grown.op.length old
    (length ▸ Nat.lt_succ_self _)
  obtain ⟨ownOp, ownFirst, ownSecond⟩ := appendNode_new arg0 arg1 code a b
  refine ⟨⟨arg0, arg1, fun node later here => ?_⟩, inside, op.trans ownOp,
    first.trans ownFirst, second.trans ownSecond⟩
  obtain ⟨inside, op, first, second⟩ := embeds.same node later
    (length ▸ here.trans (Nat.lt_succ_self _))
  obtain ⟨oldOp, oldFirst, oldSecond⟩ := appendNode_old arg0 arg1 code a b here
  exact ⟨inside, op.trans oldOp, first.trans oldFirst, second.trans oldSecond⟩

theorem le_appendNode (grown : GraphBody) (code : OpCode) (a b : Nat) :
    grown.op.length ≤ (appendNode grown code a b).1.op.length := by
  rw [Extends.length_appendNode]
  exact Nat.le_succ _

/-- In every graph with the added nodes, the node of the replacement has this
value. -/
def Worth (start : Nat) (last : GraphBody) (inputs : Nat → Bool)
    (built : GraphBody × Nat) (value : Bool) : Prop :=
  Embeds start built.1 last → Evaluates last inputs built.2 value

namespace Worth

theorem old (own : Evaluates last inputs a x) (same : x = y) :
    Worth start last inputs (graph, a) y :=
  fun _ => same ▸ own

theorem of_eq {built} (worth : Worth start last inputs built x) (same : x = y) :
    Worth start last inputs built y :=
  same ▸ worth

theorem const (old : start ≤ grown.op.length) :
    Worth start last inputs (appendNode grown .const a b) (decide (a ≠ 0)) := by
  intro embeds
  obtain ⟨_, inside, op, first, _⟩ := embeds.peel old
  rw [← first]
  exact .const inside op

theorem not (old : start ≤ grown.op.length)
    (first : Embeds start grown last → Evaluates last inputs a x) :
    Worth start last inputs (appendNode grown .not a b) (!x) := by
  intro embeds
  obtain ⟨before, inside, op, own, _⟩ := embeds.peel old
  exact .not inside op (own ▸ first before)

section

variable (binary : kind = .and ∨ kind = .or)
include binary

theorem gate (old : start ≤ grown.op.length)
    (first : Embeds start grown last → Evaluates last inputs a x)
    (second : Embeds start grown last → Evaluates last inputs b y) :
    Worth start last inputs (appendNode grown kind a b) (kind.gate x y) := by
  intro embeds
  obtain ⟨before, inside, op, own, also⟩ := embeds.peel old
  exact .gate binary inside op (own ▸ first before) (also ▸ second before)

theorem two (one : Evaluates last inputs a x) (another : Evaluates last inputs b y) :
    Worth graph.op.length last inputs (appendNode graph kind a b) (kind.gate x y) :=
  gate binary le_rfl (fun _ => one) fun _ => another

theorem associateLeft (one : Evaluates last inputs (m 2) x)
    (two : Evaluates last inputs (m 3) y) (three : Evaluates last inputs (m 4) z) :
    Worth graph.op.length last inputs (associateLeft m graph kind) (kind.gate (kind.gate x y) z) :=
  gate binary (le_appendNode _ _ _ _) (Worth.two binary one two) fun _ => three

theorem associateRight (one : Evaluates last inputs (m 2) x)
    (two : Evaluates last inputs (m 3) y) (three : Evaluates last inputs (m 4) z) :
    Worth graph.op.length last inputs (associateRight m graph kind) (kind.gate x (kind.gate y z)) :=
  gate binary (le_appendNode _ _ _ _) (fun _ => one) (Worth.two binary two three)

theorem deMorganNot (one : Evaluates last inputs (m 2) x) (two : Evaluates last inputs (m 3) y) :
    Worth graph.op.length last inputs (deMorganNot m graph kind) (kind.gate (!x) !y) := by
  have first : Worth graph.op.length last inputs (appendNode graph .not (m 2) noNode) (!x) :=
    .not le_rfl fun _ => one
  have old := le_appendNode graph .not (m 2) noNode
  exact gate binary (old.trans (le_appendNode _ _ _ _))
    (fun embeds => first (embeds.peel old).1) (Worth.not old fun _ => two)

theorem deMorganNots (one : Evaluates last inputs (m 3) x) (two : Evaluates last inputs (m 4) y) :
    Worth graph.op.length last inputs (deMorganNots m graph kind) (!kind.gate x y) :=
  .not (le_appendNode _ _ _ _) (Worth.two binary one two)

variable (also : other = .and ∨ other = .or)
include also

theorem distributeFactor (one : Evaluates last inputs (m 3) x)
    (two : Evaluates last inputs (m 4) y) (three : Evaluates last inputs (m 5) z) :
    Worth graph.op.length last inputs (distributeFactor m graph kind other)
      (other.gate x (kind.gate y z)) :=
  gate also (le_appendNode _ _ _ _) (fun _ => one) (Worth.two binary two three)

theorem distributeExpand (one : Evaluates last inputs (m 2) x)
    (two : Evaluates last inputs (m 3) y) (three : Evaluates last inputs (m 4) z) :
    Worth graph.op.length last inputs (distributeExpand m graph kind other)
      (other.gate (kind.gate x y) (kind.gate x z)) := by
  have first : Worth graph.op.length last inputs (appendNode graph kind (m 2) (m 3))
      (kind.gate x y) := .two binary one two
  have old := le_appendNode graph kind (m 2) (m 3)
  exact gate also (old.trans (le_appendNode _ _ _ _))
    (fun embeds => first (embeds.peel old).1)
    (gate binary old (fun _ => one) fun _ => three)

theorem consensusAdd (own : Evaluates last inputs root x)
    (one : Evaluates last inputs (m 4) y) (two : Evaluates last inputs (m 5) z) :
    Worth graph.op.length last inputs (consensusAdd m graph root kind other)
      (other.gate x (kind.gate y z)) :=
  gate also (le_appendNode _ _ _ _) (fun _ => own) (Worth.two binary one two)

theorem absorbInverse (own : Evaluates last inputs root x) (one : Evaluates last inputs (m 1) y) :
    Worth graph.op.length last inputs (absorbInverse m graph root kind other)
      (other.gate x (kind.gate x y)) :=
  gate also (le_appendNode _ _ _ _) (fun _ => own) (Worth.two binary own one)

end

end Worth

end Worth

/-! ## What redirecting keeps -/

/-- `last` is `graph` with some nodes added, whose gates refer to `target` in
place of `root`. -/
structure Redirected (graph last : GraphBody) (root target : Nat) : Prop where
  inside : graph.op.length ≤ last.op.length
  opAt : ∀ node < graph.op.length, last.opAt node = graph.opAt node
  leaf : ∀ node < graph.op.length, graph.opAt node ∈ [.input, .const] →
    last.arg0At node = graph.arg0At node
  arg0At : ∀ node < graph.op.length, graph.opAt node ∈ [.and, .or, .not, .output] →
    last.arg0At node = if graph.arg0At node = root then target else graph.arg0At node
  arg1At : ∀ node < graph.op.length, graph.opAt node ∈ [.and, .or] →
    last.arg1At node = if graph.arg1At node = root then target else graph.arg1At node

section

variable {graph grown last : GraphBody} {added root target node : Nat}

theorem Extends.redirected (extended : Extends graph grown added) :
    Redirected graph (grown.redirect graph.op.length root target) root target := by
  have first {node : Nat} (old : node < graph.op.length) : node < grown.arg0.length :=
    extended.arg0.symm ▸ extended.old old
  refine ⟨?_, extended.opAt, fun node old code => ?_, fun node old code => ?_,
    fun node old code => ?_⟩
  · exact extended.length ▸ Nat.le_add_right _ _
  · rw [GraphBody.redirect_arg0At (first old), if_neg, extended.arg0At node old]
    rintro ⟨_, gate, _⟩
    rw [extended.opAt node old] at gate
    revert code gate
    cases graph.opAt node <;> decide
  · rw [GraphBody.redirect_arg0At (first old), extended.opAt node old, extended.arg0At node old]
    exact if_congr (by simp [old, code]) rfl rfl
  · rw [GraphBody.redirect_arg1At (extended.arg1.symm ▸ extended.old old),
      extended.opAt node old, extended.arg1At node old]
    exact if_congr (by simp [old, code]) rfl rfl

theorem Extends.embeds (extended : Extends graph grown added) :
    Embeds graph.op.length grown (grown.redirect graph.op.length root target) :=
  ⟨extended.arg0, extended.arg1, fun _ later here => ⟨here, rfl,
    (GraphBody.redirect_arg0At (extended.arg0.symm ▸ here)).trans
      (if_neg fun moved => absurd moved.1 (Nat.not_lt.mpr later)),
    (GraphBody.redirect_arg1At (extended.arg1.symm ▸ here)).trans
      (if_neg fun moved => absurd moved.1 (Nat.not_lt.mpr later))⟩⟩

theorem GraphBody.child_arg0 (inside : node < graph.op.length)
    (code : graph.opAt node ∈ [.and, .or, .not, .output]) :
    graph.Child node (graph.arg0At node) := by
  refine ⟨inside, ?_⟩
  unfold childrenAt
  revert code
  cases graph.opAt node <;> simp

theorem GraphBody.child_arg1 (inside : node < graph.op.length)
    (code : graph.opAt node ∈ [.and, .or]) : graph.Child node (graph.arg1At node) := by
  refine ⟨inside, ?_⟩
  unfold childrenAt
  revert code
  cases graph.opAt node <;> simp

/-- Nodes keep their values if what replaces the root has the root's value
wherever they refer to it. -/
theorem Redirected.evaluates {inputs value} (redirected : Redirected graph last root target)
    (among : Nat → Prop)
    (closed : ∀ node child, among node → graph.Child node child → among child ∧
      (child = root → ∀ value, Evaluates graph inputs root value →
        Evaluates last inputs target value)) (evaluates : Evaluates graph inputs node value)
    (here : among node) :
    Evaluates last inputs node value := by
  have inside {node : Nat} (old : node < graph.op.length) := old.trans_le redirected.inside
  have code {node : Nat} {code : OpCode} (old : node < graph.op.length)
      (own : graph.opAt node = code) : last.opAt node = code :=
    (redirected.opAt node old).trans own
  have moved {node child : Nat} {value : Bool} (here : among node)
      (reference : graph.Child node child) (own : Evaluates graph inputs child value)
      (ih : among child → Evaluates last inputs child value) :
      Evaluates last inputs (if child = root then target else child) value := by
    obtain ⟨also, onto⟩ := closed node child here reference
    split
    · next same => exact onto same value (same ▸ own)
    · exact ih also
  have first {node : Nat} {value : Bool} (here : among node) (old : node < graph.op.length)
      (gate : graph.opAt node ∈ [.and, .or, .not, .output])
      (own : Evaluates graph inputs (graph.arg0At node) value)
      (ih : among (graph.arg0At node) → Evaluates last inputs (graph.arg0At node) value) :
      Evaluates last inputs (last.arg0At node) value := by
    rw [redirected.arg0At node old gate]
    exact moved here (GraphBody.child_arg0 old gate) own ih
  have second {node : Nat} {value : Bool} (here : among node) (old : node < graph.op.length)
      (gate : graph.opAt node ∈ [.and, .or])
      (own : Evaluates graph inputs (graph.arg1At node) value)
      (ih : among (graph.arg1At node) → Evaluates last inputs (graph.arg1At node) value) :
      Evaluates last inputs (last.arg1At node) value := by
    rw [redirected.arg1At node old gate]
    exact moved here (GraphBody.child_arg1 old gate) own ih
  induction evaluates with
  | input old own =>
    rw [← redirected.leaf _ old (by simp [own])]
    exact .input (inside old) (code old own)
  | const old own =>
    rw [← redirected.leaf _ old (by simp [own])]
    exact .const (inside old) (code old own)
  | not old own left ih =>
    exact .not (inside old) (code old own) (first here old (by simp [own]) left ih)
  | output old own left ih =>
    exact .output (inside old) (code old own) (first here old (by simp [own]) left ih)
  | and old own left right leftHypothesis rightHypothesis =>
    exact .and (inside old) (code old own) (first here old (by simp [own]) left leftHypothesis)
      (second here old (by simp [own]) right rightHypothesis)
  | or old own left right leftHypothesis rightHypothesis =>
    exact .or (inside old) (code old own) (first here old (by simp [own]) left leftHypothesis)
      (second here old (by simp [own]) right rightHypothesis)

end

end GraphZero.Whittle
