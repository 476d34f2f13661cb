import GraphZero.Foundation.Result
import GraphZero.Foundation.Sequences
import GraphZero.Whittle.Graph

/-!
# Compaction

Compacting a graph keeps the inputs and what the output depends on, in their
order, and renumbers every reference to match.
-/

namespace GraphZero.Whittle

open Foundation List

namespace GraphBody

variable {graph : GraphBody}

/-- What `validate` checks. -/
structure Valid (graph : GraphBody) : Prop where
  nodes : graph.op.length ≠ 0
  arg0 : graph.arg0.length = graph.op.length
  arg1 : graph.arg1.length = graph.op.length
  capacity : graph.op.length ≤ graph.capacity.toNat
  output : graph.outputNode < graph.op.length
  arity : graph.arity.toNat ≤ graph.op.length
  inputs : ∀ node < graph.arity.toNat,
    graph.opAt node = .input ∧ graph.arg0At node = node

theorem inputsInPlace_eq_true : graph.inputsInPlace = true ↔ ∀ node < graph.arity.toNat,
      graph.opAt node = .input ∧ graph.arg0At node = node := by
  simp [inputsInPlace]

theorem validate_eq_ok : graph.validate = .ok () ↔ graph.Valid := by
  unfold validate
  dsimp only
  constructor
  · intro checked
    split at checked
    · cases checked
    split at checked
    · cases checked
    split at checked
    · cases checked
    split at checked
    · cases checked
    split at checked
    · cases checked
    split at checked
    · next nodes arrays capacity output arity inputs =>
      rw [not_or, not_not, not_not] at arrays
      exact ⟨nodes, arrays.1, arrays.2, Nat.le_of_not_lt capacity,
        Nat.lt_of_not_le output, Nat.le_of_not_lt arity,
        inputsInPlace_eq_true.mp inputs⟩
    · cases checked
  · intro valid
    rw [if_neg valid.nodes, if_neg, if_neg, if_neg, if_neg, if_pos]
    · exact inputsInPlace_eq_true.mpr valid.inputs
    · exact Nat.not_lt.mpr valid.arity
    · exact Nat.not_le.mpr valid.output
    · exact Nat.not_lt.mpr valid.capacity
    · rw [not_or, not_not, not_not]
      exact ⟨valid.arg0, valid.arg1⟩

theorem new_eq_ok {arity capacity outputNode op arg0 arg1} :
    new arity capacity outputNode op arg0 arg1 = .ok graph ↔
      graph = ⟨arity, capacity, outputNode, op, arg0, arg1⟩ ∧ graph.validate = .ok () := by
  unfold GraphBody.new
  rw [bind_eq_ok_iff]
  constructor
  · rintro ⟨valid, same⟩
    cases same
    exact ⟨rfl, valid⟩
  · rintro ⟨rfl, valid⟩
    exact ⟨valid, rfl⟩

theorem map_range_getD {α : Type} (items : List α) (default : α) :
    ((List.range items.length).map fun index => items.getD index default) = items := by
  apply ext_getElem
  · rw [length_map, length_range]
  · intro index _ inside
    rw [getElem_map, getElem_range, getD_eq_getElem _ _ inside]

theorem Valid.length_lt_noNode (valid : graph.Valid) : graph.op.length < noNode := by
  have small : graph.capacity.toNat < 2 ^ 16 := graph.capacity.toNat_lt
  have few := valid.capacity
  unfold noNode
  omega

def InRange (graph : GraphBody) : Prop :=
  ∀ node < graph.op.length, ∀ child ∈ graph.childrenAt node,
    child < graph.op.length

/-- The value of the first node depends on the second one. -/
def Child (graph : GraphBody) (node child : Nat) : Prop :=
  node < graph.op.length ∧ child ∈ graph.childrenAt node

def Reachable (graph : GraphBody) (node : Nat) : Prop :=
  Relation.ReflTransGen graph.Child graph.outputNode node

/-- Everything the output depends on is there. -/
def Closed (graph : GraphBody) : Prop :=
  ∀ node, graph.Reachable node → node < graph.op.length

theorem InRange.closed (inRange : graph.InRange) (valid : graph.Valid) : graph.Closed := by
  intro node path
  cases path with
  | refl => exact valid.output
  | tail _ child => exact inRange _ child.1 _ child.2

theorem length_childrenAt_le (graph : GraphBody) (node : Nat) :
    (graph.childrenAt node).length ≤ 2 := by
  unfold childrenAt
  cases graph.opAt node with
  | input => exact Nat.zero_le 2
  | const => exact Nat.zero_le 2
  | not => exact Nat.le_succ 1
  | output => exact Nat.le_succ 1
  | and => exact le_rfl
  | or => exact le_rfl

theorem pushChildren_eq_ok {node} (inside : node < graph.op.length) :
    graph.pushChildren node = .ok (graph.childrenAt node).reverse := by
  unfold pushChildren children
  rw [if_neg (Nat.not_le.mpr inside), if_pos inside]
  rfl

theorem leads_pushChildren {node child} :
    Leads graph.pushChildren node child ↔ graph.Child node child := by
  constructor
  · rintro ⟨found, pushed, member⟩
    by_cases inside : node < graph.op.length
    · rw [pushChildren_eq_ok inside] at pushed
      cases pushed
      exact ⟨inside, mem_reverse.mp member⟩
    · unfold pushChildren at pushed
      rw [if_pos (Nat.le_of_not_lt inside)] at pushed
      cases pushed
  · rintro ⟨inside, member⟩
    exact ⟨_, pushChildren_eq_ok inside, mem_reverse.mpr member⟩

variable {marked : List Nat}

theorem mem_of_reachable_eq_ok (done : graph.reachable = .ok marked) (node : Nat) :
    node ∈ marked ↔ graph.Reachable node := by
  rw [(traversed_of_traverse done).mem_iff]
  have same : Leads graph.pushChildren = graph.Child := by
    ext node child
    exact leads_pushChildren
  rw [same]
  rfl

theorem closed_of_reachable_eq_ok (done : graph.reachable = .ok marked) : graph.Closed := by
  intro node path
  obtain ⟨found, pushed⟩ := (traversed_of_traverse done).known node
    ((mem_of_reachable_eq_ok done node).mpr path)
  by_contra outside
  unfold pushChildren at pushed
  rw [if_pos (Nat.le_of_not_lt outside)] at pushed
  cases pushed

theorem InRange.exists_reachable (inRange : graph.InRange)
    (valid : graph.Valid) : ∃ marked, graph.reachable = .ok marked := by
  refine @exists_traverse _ _ _ _ _ _ _ _ (Finset.range graph.op.length)
    (fun _ => 2) (fun node member => ?_) ?_ ?_
  · have inside := Finset.mem_range.mp member
    refine ⟨_, pushChildren_eq_ok inside, ?_, fun child here => ?_⟩
    · rw [length_reverse]
      exact graph.length_childrenAt_le node
    · exact Finset.mem_range.mpr (inRange node inside child (mem_reverse.mp here))
  · exact forall_mem_singleton.mpr (Finset.mem_range.mpr valid.output)
  · unfold roundsLeft
    rw [Finset.filter_true_of_mem fun _ _ => not_mem_nil,
      Finset.sum_const_nat fun _ _ => rfl, Finset.card_range,
      length_singleton]
    omega

theorem mem_keep {node} : node ∈ graph.keep marked ↔ node < graph.op.length ∧
      (node < graph.arity.toNat ∨ node ∈ marked) := by
  simp [keep]

theorem pairwise_keep (graph : GraphBody) (marked : List Nat) :
    (graph.keep marked).Pairwise (· < ·) :=
  pairwise_lt_range.filter _

theorem length_keep_le (graph : GraphBody) (marked : List Nat) :
    (graph.keep marked).length ≤ graph.op.length := by
  have few := length_filter_le (fun node =>
    decide (node < graph.arity.toNat) || decide (node ∈ marked))
    (List.range graph.op.length)
  rw [length_range] at few
  exact few

theorem Valid.range_prefix_keep (valid : graph.Valid) (marked : List Nat) :
    List.range graph.arity.toNat <+: graph.keep marked := by
  obtain ⟨others, whole⟩ := Nat.exists_eq_add_of_le valid.arity
  unfold keep
  rw [whole, range_add, filter_append, filter_eq_self.mpr]
  · exact prefix_append _ _
  · intro node member
    rw [decide_eq_true (mem_range.mp member)]
    rfl

end GraphBody

/-! ## Renumbering -/

variable {keep : List Nat} {old new nodes : Nat}

theorem getElem?_renumber_of_not_mem {node} (absent : node ∉ keep) (table : List Nat)
    (start : Nat) :
    ((keep.zipIdx start).foldl (fun remap (old, new) => remap.set old new)
      table)[node]? = table[node]? := by
  induction keep generalizing table start with
  | nil => rfl
  | cons first rest ih =>
    rw [mem_cons, not_or] at absent
    rw [zipIdx_cons, foldl_cons, ih absent.2, getElem?_set_ne (Ne.symm absent.1)]

theorem getElem?_renumber (table : List Nat) (start : Nat) (distinct : keep.Nodup)
    (small : ∀ node ∈ keep, node < table.length)
    (own : keep[new]? = some old) :
    ((keep.zipIdx start).foldl (fun remap (old, new) => remap.set old new)
      table)[old]? = some (start + new) := by
  induction keep generalizing table start new with
  | nil => cases own
  | cons first rest ih =>
    obtain ⟨absent, distinct⟩ := nodup_cons.mp distinct
    obtain ⟨here, small⟩ := forall_mem_cons.mp small
    rw [zipIdx_cons, foldl_cons]
    cases new with
    | zero =>
      cases own
      rw [getElem?_renumber_of_not_mem absent]
      exact getElem?_set_self here
    | succ new =>
      rw [ih _ (start + 1) distinct _ own]
      · exact congrArg some (Nat.succ_add_eq_add_succ start new)
      · intro node member
        rw [length_set]
        exact small node member

section

variable {keep : List Nat} {old new : Nat} (distinct : keep.Nodup)
  (small : ∀ node ∈ keep, node < nodes)
include distinct small

theorem getElem?_remap (own : keep[new]? = some old) : (remap nodes keep)[old]? = some new := by
  unfold remap
  rw [getElem?_renumber _ 0 distinct _ own, Nat.zero_add]
  rw [length_replicate]
  exact small

theorem remapped_eq_ok (few : keep.length < noNode) (own : keep[new]? = some old) :
    remapped (remap nodes keep) old = .ok new := by
  have inside : new < keep.length := (List.getElem?_eq_some_iff.mp own).1
  unfold remapped
  rw [getElem?_remap distinct small own]
  exact if_neg (by omega)

end

/-- `target` is `graph` with the nodes of `keep` only, in that order. -/
structure Renumbered (graph target : GraphBody) (keep : List Nat) : Prop where
  arity : target.arity = graph.arity
  capacity : target.capacity = graph.capacity
  length : target.op.length = keep.length
  output : keep[target.outputNode]? = some graph.outputNode
  opAt : ∀ new old, keep[new]? = some old → target.opAt new = graph.opAt old
  children : ∀ new old, keep[new]? = some old →
    (target.childrenAt new).map (keep[·]?) = (graph.childrenAt old).map some
  inputs : ∀ new old, keep[new]? = some old → graph.opAt old = .input →
    target.arg0At new = graph.arg0At old
  constants : ∀ new old, keep[new]? = some old → graph.opAt old = .const →
    (target.arg0At new ≠ 0 ↔ graph.arg0At old ≠ 0)

inductive RemappedRow (graph : GraphBody) (keep : List Nat) (old : Nat) : OpCode × Nat × Nat → Prop
  | input (code : graph.opAt old = .input) :
    RemappedRow graph keep old (.input, graph.arg0At old, noNode)
  | const (code : graph.opAt old = .const) :
    RemappedRow graph keep old (.const, (decide (graph.arg0At old ≠ 0)).toNat, noNode)
  | not {arg0} (code : graph.opAt old = .not) (first : keep[arg0]? = some (graph.arg0At old)) :
    RemappedRow graph keep old (.not, arg0, noNode)
  | output {arg0} (code : graph.opAt old = .output) (first : keep[arg0]? = some (graph.arg0At old))
    :
    RemappedRow graph keep old (.output, arg0, noNode)
  | and {arg0 arg1} (code : graph.opAt old = .and) (first : keep[arg0]? = some (graph.arg0At old))
    (second : keep[arg1]? = some (graph.arg1At old)) :
    RemappedRow graph keep old (.and, arg0, arg1)
  | or {arg0 arg1} (code : graph.opAt old = .or) (first : keep[arg0]? = some (graph.arg0At old))
    (second : keep[arg1]? = some (graph.arg1At old)) :
    RemappedRow graph keep old (.or, arg0, arg1)

theorem exists_remapNode {graph nodes keep old} (distinct : keep.Nodup)
    (small : ∀ node ∈ keep, node < nodes) (few : keep.length < noNode)
    (kept : ∀ child ∈ graph.childrenAt old, child ∈ keep) :
    ∃ row, graph.remapNode (remap nodes keep) old = .ok row ∧ RemappedRow graph keep old row := by
  have found {child : Nat} (member : child ∈ graph.childrenAt old) :
      ∃ new, keep[new]? = some child ∧ remapped (remap nodes keep) child = .ok new := by
    obtain ⟨new, own⟩ := mem_iff_getElem?.mp (kept child member)
    exact ⟨new, own, remapped_eq_ok distinct small few own⟩
  unfold GraphBody.childrenAt at found
  unfold GraphBody.remapNode
  cases code : graph.opAt old with
  | input => exact ⟨_, rfl, .input code⟩
  | const => exact ⟨_, rfl, .const code⟩
  | not =>
    simp only [code] at found
    obtain ⟨arg0, first, done⟩ := found mem_cons_self
    simp only [done]
    exact ⟨_, rfl, .not code first⟩
  | output =>
    simp only [code] at found
    obtain ⟨arg0, first, done⟩ := found mem_cons_self
    simp only [done]
    exact ⟨_, rfl, .output code first⟩
  | and =>
    simp only [code] at found
    obtain ⟨arg0, first, done⟩ := found mem_cons_self
    obtain ⟨arg1, second, also⟩ := found (mem_cons_of_mem _ mem_cons_self)
    simp only [done, also]
    exact ⟨_, rfl, .and code first second⟩
  | or =>
    simp only [code] at found
    obtain ⟨arg0, first, done⟩ := found mem_cons_self
    obtain ⟨arg1, second, also⟩ := found (mem_cons_of_mem _ mem_cons_self)
    simp only [done, also]
    exact ⟨_, rfl, .or code first second⟩

section Rows

variable {graph : GraphBody} {keep : List Nat} {outputNode : Nat} {rows : List (OpCode × Nat × Nat)}

def GraphBody.ofRows (graph : GraphBody) (outputNode : Nat)
    (rows : List (OpCode × Nat × Nat)) : GraphBody where
  arity := graph.arity
  capacity := graph.capacity
  outputNode
  op := rows.map (·.1)
  arg0 := rows.map (·.2.1)
  arg1 := rows.map (·.2.2)

theorem GraphBody.ofRows_at {new row} (own : rows[new]? = some row) :
    (graph.ofRows outputNode rows).opAt new = row.1 ∧
      (graph.ofRows outputNode rows).arg0At new = row.2.1 ∧
      (graph.ofRows outputNode rows).arg1At new = row.2.2 := by
  unfold ofRows opAt arg0At arg1At
  rw [getD_eq_getElem?_getD, getD_eq_getElem?_getD,
    getD_eq_getElem?_getD, getElem?_map, getElem?_map,
    getElem?_map, own]
  exact ⟨rfl, rfl, rfl⟩

theorem renumbered_ofRows (each : List.Forall₂ (RemappedRow graph keep) keep rows)
    (output : keep[outputNode]? = some graph.outputNode) :
    Renumbered graph (graph.ofRows outputNode rows) keep := by
  have row {new old : Nat} (own : keep[new]? = some old) : ∃ row, RemappedRow graph keep old row ∧
        (graph.ofRows outputNode rows).opAt new = row.1 ∧
        (graph.ofRows outputNode rows).arg0At new = row.2.1 ∧
        (graph.ofRows outputNode rows).arg1At new = row.2.2 := by
    obtain ⟨row, found, remapped⟩ := forall₂_getElem? each own
    exact ⟨row, remapped, GraphBody.ofRows_at found⟩
  refine ⟨rfl, rfl, ?_, output, fun new old own => ?_, fun new old own => ?_,
    fun new old own code => ?_, fun new old own code => ?_⟩
  · exact (length_map _).trans each.length_eq.symm
  · obtain ⟨_, remapped, op, _⟩ := row own
    rw [op]
    cases remapped with
    | _ => symm; assumption
  · obtain ⟨_, remapped, op, arg0, arg1⟩ := row own
    unfold GraphBody.childrenAt
    rw [op, arg0, arg1]
    cases remapped with
    | input code => simp only [code, map_nil]
    | const code => simp only [code, map_nil]
    | not code first => simp only [code, map_cons, map_nil, first]
    | output code first => simp only [code, map_cons, map_nil, first]
    | and code first second => simp only [code, map_cons, map_nil, first, second]
    | or code first second => simp only [code, map_cons, map_nil, first, second]
  · obtain ⟨_, remapped, _, arg0, _⟩ := row own
    rw [arg0]
    cases remapped with
    | input => rfl
    | const other => cases code.symm.trans other
    | not other => cases code.symm.trans other
    | output other => cases code.symm.trans other
    | and other => cases code.symm.trans other
    | or other => cases code.symm.trans other
  · obtain ⟨_, remapped, _, arg0, _⟩ := row own
    rw [arg0]
    cases remapped with
    | const =>
      by_cases zero : graph.arg0At old = 0
      · simp [zero]
      · simp [zero]
    | input other => cases code.symm.trans other
    | not other => cases code.symm.trans other
    | output other => cases code.symm.trans other
    | and other => cases code.symm.trans other
    | or other => cases code.symm.trans other

theorem valid_ofRows (valid : graph.Valid) (first : List.range graph.arity.toNat <+: keep)
    (few : keep.length ≤ graph.op.length)
    (each : List.Forall₂ (RemappedRow graph keep) keep rows)
    (output : keep[outputNode]? = some graph.outputNode) :
    (graph.ofRows outputNode rows).Valid := by
  have renumbered := renumbered_ofRows each output
  have length := renumbered.length
  have inside : outputNode < keep.length := (List.getElem?_eq_some_iff.mp output).1
  have inputs := first.length_le
  rw [length_range] at inputs
  refine ⟨?_, ?_, ?_, ?_, ?_, ?_, fun node input => ?_⟩
  · omega
  · exact (length_map _).trans (length_map _).symm
  · exact (length_map _).trans (length_map _).symm
  · rw [length]
    exact few.trans valid.capacity
  · rw [length]
    exact inside
  · rw [length]
    exact inputs
  · obtain ⟨code, own⟩ := valid.inputs node input
    have place : keep[node]? = some node := by
      obtain ⟨rest, rfl⟩ := first
      rw [getElem?_append_left (by rwa [length_range])]
      exact getElem?_range input
    rw [renumbered.opAt node node place, renumbered.inputs node node place code]
    exact ⟨code, own⟩

end Rows

/-! ## Renumbered graphs -/

/-- The nodes that stay, in their order. -/
structure Kept (graph : GraphBody) (keep : List Nat) : Prop where
  inputs : List.range graph.arity.toNat <+: keep
  increasing : keep.Pairwise (· < ·)
  mem_iff : ∀ node, node ∈ keep ↔ node < graph.op.length ∧
    (node < graph.arity.toNat ∨ graph.Reachable node)

variable {graph : GraphBody} {keep : List Nat}

section

variable (kept : Kept graph keep)
include kept

theorem Kept.distinct : keep.Nodup :=
  kept.increasing.imp Nat.ne_of_lt

theorem Kept.getElem?_input {node} (input : node < graph.arity.toNat) :
    keep[node]? = some node := by
  obtain ⟨rest, rfl⟩ := kept.inputs
  rw [getElem?_append_left (by rwa [length_range])]
  exact getElem?_range input

theorem Kept.same {first second old : Nat}
    (own : keep[first]? = some old) (also : keep[second]? = some old) :
    first = second :=
  (getElem?_inj (List.getElem?_eq_some_iff.mp own).1 kept.distinct).mp (own.trans also.symm)

theorem Kept.exists_position (closed : graph.Closed) {node} (path : graph.Reachable node) :
    ∃ new : Nat, keep[new]? = some node :=
  mem_iff_getElem?.mp <| (kept.mem_iff node).mpr ⟨closed node path, .inr path⟩

theorem Kept.child_mem (closed : graph.Closed) (valid : graph.Valid) {node child}
    (member : node ∈ keep) (reference : child ∈ graph.childrenAt node) : child ∈ keep := by
  obtain ⟨inside, input | path⟩ := (kept.mem_iff node).mp member
  · unfold GraphBody.childrenAt at reference
    rw [(valid.inputs node input).1] at reference
    cases reference
  · have path : graph.Reachable child := path.tail ⟨inside, reference⟩
    exact (kept.mem_iff child).mpr ⟨closed child path, .inr path⟩

end

namespace Renumbered

variable {graph target : GraphBody} {keep : List Nat}

theorem refl (inRange : graph.InRange) (valid : graph.Valid) :
    Renumbered graph graph (List.range graph.op.length) := by
  have same {new old : Nat} (own : (List.range graph.op.length)[new]? =
      some old) : new = old ∧ new < graph.op.length := by
    obtain ⟨inside, value⟩ := List.getElem?_eq_some_iff.mp own
    rw [length_range] at inside
    rw [getElem_range] at value
    exact ⟨value, inside⟩
  refine ⟨rfl, rfl, length_range.symm, getElem?_range valid.output,
    fun new old own => ?_, fun new old own => ?_, fun new old own _ => ?_,
    fun new old own _ => ?_⟩
  · rw [(same own).1]
  · obtain ⟨rfl, inside⟩ := same own
    exact map_congr_left fun child member =>
      getElem?_range (inRange new inside child member)
  · rw [(same own).1]
  · rw [(same own).1]

section

variable (renumbered : Renumbered graph target keep)
include renumbered

variable {new : Nat}

theorem exists_source (inside : new < target.op.length) : ∃ old, keep[new]? = some old := by
  rw [renumbered.length] at inside
  exact ⟨_, getElem?_eq_getElem inside⟩

theorem exists_child {old child} (own : keep[new]? = some old)
    (reference : child ∈ target.childrenAt new) :
    ∃ oldChild ∈ graph.childrenAt old, keep[child]? = some oldChild := by
  have image := mem_map_of_mem (f := (keep[·]?)) reference
  rw [renumbered.children new old own] at image
  obtain ⟨oldChild, member, same⟩ := mem_map.mp image
  exact ⟨oldChild, member, same.symm⟩

theorem exists_child_of_mem {old oldChild} (own : keep[new]? = some old)
    (reference : oldChild ∈ graph.childrenAt old) :
    ∃ child ∈ target.childrenAt new, keep[child]? = some oldChild := by
  have image := mem_map_of_mem (f := some) reference
  rw [← renumbered.children new old own] at image
  exact mem_map.mp image

theorem inRange : target.InRange := by
  intro new inside child reference
  obtain ⟨old, own⟩ := renumbered.exists_source inside
  obtain ⟨_, _, found⟩ := renumbered.exists_child own reference
  rw [renumbered.length]
  exact (List.getElem?_eq_some_iff.mp found).1

theorem reachable (kept : Kept graph keep) (closed : graph.Closed)
    {old : Nat} (path : graph.Reachable old)
    (own : keep[new]? = some old) : target.Reachable new := by
  induction path generalizing new with
  | refl =>
    obtain rfl := kept.same own renumbered.output
    exact .refl
  | tail path child ih =>
    obtain ⟨mid, here⟩ := kept.exists_position closed path
    obtain ⟨next, reference, found⟩ := renumbered.exists_child_of_mem here child.2
    obtain rfl := kept.same own found
    refine (ih here).tail ⟨?_, reference⟩
    rw [renumbered.length]
    exact (List.getElem?_eq_some_iff.mp here).1

end

end Renumbered

section Compaction

variable {graph : GraphBody}

theorem kept_of_reachable_eq_ok (valid : graph.Valid) {marked}
    (done : graph.reachable = .ok marked) : Kept graph (graph.keep marked) where
  inputs := valid.range_prefix_keep marked
  increasing := graph.pairwise_keep marked
  mem_iff node := by
    rw [GraphBody.mem_keep, GraphBody.mem_of_reachable_eq_ok done]

theorem compactGraph_eq_self (valid : graph.Valid) (inRange : graph.InRange)
    (all : ∀ node < graph.op.length, node < graph.arity.toNat ∨ graph.Reachable node) :
    compactGraph graph = .ok graph := by
  obtain ⟨marked, done⟩ := inRange.exists_reachable valid
  have whole : graph.keep marked = List.range graph.op.length := by
    refine filter_eq_self.mpr fun node member => ?_
    rw [Bool.or_eq_true, decide_eq_true_eq, decide_eq_true_eq,
      GraphBody.mem_of_reachable_eq_ok done]
    exact all node (mem_range.mp member)
  unfold compactGraph
  rw [GraphBody.validate_eq_ok.mpr valid, done]
  change (if _ then _ else _) = _
  rw [whole, length_range, if_pos ⟨decide_eq_true rfl, rfl⟩]
  rfl

theorem exists_compactGraph_of_marked (valid : graph.Valid) {marked}
    (done : graph.reachable = .ok marked) :
    ∃ target keep, compactGraph graph = .ok target ∧ target.Valid ∧
      Kept graph keep ∧ Renumbered graph target keep := by
  have closed := GraphBody.closed_of_reachable_eq_ok done
  have kept := kept_of_reachable_eq_ok valid done
  by_cases identity : graph.keep marked = List.range (graph.keep marked).length ∧
      (graph.keep marked).length = graph.op.length
  · refine ⟨graph, graph.keep marked, ?_, valid, kept, ?_⟩
    · unfold compactGraph
      rw [GraphBody.validate_eq_ok.mpr valid, done]
      change (if _ then _ else _) = _
      rw [if_pos ⟨decide_eq_true identity.1, identity.2⟩]
      rfl
    · have whole : graph.keep marked = List.range graph.op.length := identity.2 ▸ identity.1
      rw [whole] at kept ⊢
      refine .refl (fun node inside child reference => ?_) valid
      exact mem_range.mp (kept.child_mem closed valid (mem_range.mpr inside) reference)
  · have small (node : Nat) (member : node ∈ graph.keep marked) :
        node < graph.op.length := ((kept.mem_iff node).mp member).1
    have few : (graph.keep marked).length < noNode :=
      (graph.length_keep_le marked).trans_lt valid.length_lt_noNode
    obtain ⟨rows, remapped, each⟩ := exists_mapM_eq_ok fun old member =>
      exists_remapNode kept.distinct small few fun child reference =>
        kept.child_mem closed valid member reference
    obtain ⟨outputNode, output⟩ := kept.exists_position closed .refl
    have renumbered := renumbered_ofRows each output
    have target := valid_ofRows valid kept.inputs (graph.length_keep_le marked) each output
    refine ⟨graph.ofRows outputNode rows, graph.keep marked, ?_, target, kept, renumbered⟩
    unfold compactGraph
    rw [GraphBody.validate_eq_ok.mpr valid, done]
    change (if _ then _ else _) = _
    rw [if_neg fun same => identity ⟨of_decide_eq_true same.1, same.2⟩,
      remapped, remapped_eq_ok kept.distinct small few output]
    change ((graph.ofRows outputNode rows).validate >>= fun _ =>
      pure (graph.ofRows outputNode rows)) = _
    rw [GraphBody.validate_eq_ok.mpr target]
    rfl

theorem exists_compactGraph (valid : graph.Valid) (inRange : graph.InRange) :
    ∃ target keep, compactGraph graph = .ok target ∧ target.Valid ∧
      Kept graph keep ∧ Renumbered graph target keep := by
  obtain ⟨marked, done⟩ := inRange.exists_reachable valid
  exact exists_compactGraph_of_marked valid done

/-- Compaction checks the references that validation leaves out. -/
theorem inRange_of_compactGraph {compact} (done : compactGraph graph = .ok compact) :
    compact.InRange := by
  obtain ⟨_, accepted, rest⟩ := ok_of_bind done
  obtain ⟨marked, found, _⟩ := ok_of_bind rest
  obtain ⟨target, keep, same, _, _, renumbered⟩ :=
    exists_compactGraph_of_marked (GraphBody.validate_eq_ok.mp accepted) found
  cases done.symm.trans same
  exact renumbered.inRange

theorem Kept.length_le {keep} (kept : Kept graph keep) : keep.length ≤ graph.op.length := by
  have part := subperm_of_subset kept.distinct fun node member =>
    mem_range.mpr ((kept.mem_iff node).mp member).1
  exact part.length_le.trans_eq length_range

end Compaction

end GraphZero.Whittle
