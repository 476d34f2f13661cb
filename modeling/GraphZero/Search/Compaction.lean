import GraphZero.Foundation.Result
import GraphZero.Foundation.Sequences
import GraphZero.Search.MctsTree
import GraphZero.Search.Reuse

/-!
# Compacted subtrees

Both searches keep the subtree of a chosen node: a traversal numbers the nodes
that can be reached, and the copies of these nodes refer to each other by the
new numbers.  The result is isomorphic to the part below the chosen node.
-/

namespace GraphZero.Search

open Engine Foundation List

section Arena

variable {N : Type}

/-- The child of a node, in an arena whose nodes name children by index. -/
def ChildOf (children : N → List Nat) (nodes : List N) (index child : Nat) : Prop :=
  ∃ node, nodes[index]? = some node ∧ child ∈ children node

/-- Every child index is that of a node. -/
def Closed (children : N → List Nat) (nodes : List N) : Prop :=
  ∀ node ∈ nodes, ∀ child ∈ children node, child < nodes.length

instance (children : N → List Nat) (nodes : List N) : Decidable (Closed children nodes) :=
  inferInstanceAs (Decidable (∀ node ∈ nodes, ∀ child ∈ children node, child < nodes.length))

/-- The nodes of `compacted` are those that can be reached from `root`, each of
them once and the root first.  `renumbered order old new` says that `new` is
`old` with every child renumbered to its position in `order`. -/
def IsSubtreeAt (children : N → List Nat)
    (renumbered : List Nat → N → N → Prop) (nodes : List N) (root : Nat)
    (compacted : List N) : Prop :=
  ∃ order : List Nat, order.Nodup ∧ order.head? = some root ∧ (∀ index, index ∈ order ↔
      Relation.ReflTransGen (ChildOf children nodes) root index) ∧
    List.Forall₂ (fun old new => ∃ node, nodes[old]? = some node ∧
      renumbered order node new) order compacted

variable {order : List Nat}

theorem exists_idxOf? {old} (member : old ∈ order) :
    ∃ new, order.idxOf? old = some new ∧ order[new]? = some old := by
  cases found : order.idxOf? old with
  | none =>
    rw [idxOf?_eq_none_iff] at found
    exact absurd member found
  | some new =>
    obtain ⟨inside, same, _⟩ := findIdx?_eq_some_iff_getElem.mp found
    refine ⟨new, rfl, ?_⟩
    rw [getElem?_eq_getElem inside, beq_iff_eq.mp same]

variable {ε : Type} {children : N → List Nat} {nodes : List N}
  {next : Nat → Except ε (List Nat)} {unfinished : ε}

/-- The next indices of a node are those of its children. -/
def Follows (children : N → List Nat) (nodes : List N) (next : Nat → Except ε (List Nat)) : Prop :=
  ∀ index found, next index = .ok found ↔ ∃ node, nodes[index]? = some node ∧ children node = found

theorem Follows.leads (follows : Follows children nodes next) {index child} :
    Leads next index child ↔ ChildOf children nodes index child := by
  constructor
  · rintro ⟨found, leads, member⟩
    obtain ⟨node, here, rfl⟩ := (follows index found).mp leads
    exact ⟨node, here, member⟩
  · rintro ⟨node, here, member⟩
    exact ⟨_, (follows index _).mpr ⟨node, here, rfl⟩, member⟩

theorem sum_children (nodes : List N) : ∑ index ∈ Finset.range nodes.length,
      ((nodes[index]?.map fun node => (children node).length).getD 0) =
        (nodes.map fun node => (children node).length).sum := by
  induction nodes with
  | nil => rfl
  | cons node nodes ih =>
    rw [length_cons, Finset.sum_range_succ', map_cons, sum_cons, ← ih, Nat.add_comm]
    rfl

theorem Follows.exists_traverse (follows : Follows children nodes next)
    (closed : Closed children nodes) {root fuel} (inside : root < nodes.length)
    (enough : 1 + (nodes.map fun node => (children node).length).sum ≤ fuel) :
    ∃ order, traverse next unfinished fuel [root] [] = .ok order := by
  have known : ∀ index ∈ Finset.range nodes.length, ∃ found, next index = .ok found ∧
        found.length ≤ (nodes[index]?.map fun node => (children node).length).getD 0 ∧
        ∀ child ∈ found, child ∈ Finset.range nodes.length := by
    intro index member
    obtain ⟨node, found⟩ : ∃ node, nodes[index]? = some node :=
      ⟨_, getElem?_eq_getElem (Finset.mem_range.mp member)⟩
    refine ⟨children node, (follows index _).mpr ⟨node, found, rfl⟩, ?_, fun child below => ?_⟩
    · rw [found]
      exact le_rfl
    · exact Finset.mem_range.mpr (closed node (mem_of_getElem? found) child below)
  refine Foundation.exists_traverse known
    (forall_mem_singleton.mpr (Finset.mem_range.mpr inside)) ?_
  have all : (Finset.range nodes.length).filter (· ∉ ([] : List Nat)) = Finset.range nodes.length :=
    Finset.filter_true_of_mem fun _ _ => not_mem_nil
  unfold roundsLeft
  rw [all, sum_children]
  exact enough

theorem Follows.exists_subtree (follows : Follows children nodes next) {renumbered fuel root}
    (traversed : traverse next unfinished fuel [root] [] = .ok order)
    {copy : List Nat → Nat → Except ε N}
    (copies : ∀ index node, nodes[index]? = some node → (∀ child ∈ children node, child ∈ order) →
        ∃ new, copy order index = .ok new ∧ renumbered order node new) :
    ∃ compacted, order.mapM (copy order) = .ok compacted ∧
      IsSubtreeAt children renumbered nodes root compacted := by
  have visited := traversed_of_traverse traversed
  have reached (index : Nat) : index ∈ order ↔
      Relation.ReflTransGen (ChildOf children nodes) root index := by
    rw [visited.mem_iff]
    have same : Leads next = ChildOf children nodes :=
      funext₂ fun _ _ => propext follows.leads
    rw [same]
  have each : ∀ index ∈ order, ∃ new, copy order index = .ok new ∧
      ∃ node, nodes[index]? = some node ∧ renumbered order node new := by
    intro index member
    obtain ⟨found, known⟩ := visited.known index member
    obtain ⟨node, here, rfl⟩ := (follows index found).mp known
    obtain ⟨new, done, holds⟩ := copies index node here fun child below =>
      (reached child).mpr (((reached index).mp member).tail ⟨node, here, below⟩)
    exact ⟨new, done, node, here, holds⟩
  obtain ⟨compacted, copied, all⟩ := exists_mapM_eq_ok each
  exact ⟨compacted, copied, order, visited.distinct, visited.first, reached, all⟩

theorem IsSubtreeAt.closed {renumbered root compacted}
    (subtree : IsSubtreeAt children renumbered nodes root compacted)
    (places : ∀ order old new, renumbered order old new →
      ∀ child ∈ children new, child < order.length) :
    Closed children compacted := by
  obtain ⟨order, _, _, _, each⟩ := subtree
  intro new member child below
  obtain ⟨old, _, node, _, same⟩ := forall₂_mem_right each member
  rw [← each.length_eq]
  exact places order node new same child below

theorem exists_of_rel_some {α β : Type} {relates} {slot : Option α} {value : β}
    (same : Option.Rel relates slot (some value)) :
    ∃ old, relates old value := by
  cases same with
  | some holds => exact ⟨_, holds⟩

theorem lt_length_of_place {old new} (place : order[new]? = some old) : new < order.length :=
  (List.getElem?_eq_some_iff.mp place).1

end Arena

/-! ## The single-agent tree -/

section Mcts

variable {G C F : Type}

/-- The same statistics with the child, if there is one, renumbered. -/
def ActionStats.Renumbered (order : List Nat) (old new : ActionStats F) : Prop :=
  ∃ child, new = { old with child } ∧
    Option.Rel (fun oldChild newChild => order[newChild]? = some oldChild) old.child child

/-- The same node with its children renumbered. -/
def MctsNode.Renumbered (order : List Nat) (old new : MctsNode G C F) : Prop :=
  ∃ actions, new = { old with actions } ∧
    List.Forall₂ (ActionStats.Renumbered order) old.actions actions

variable {order : List Nat}

theorem renumbered_remapNode {node : MctsNode G C F}
    (below : ∀ child ∈ node.children, child ∈ order) :
    node.Renumbered order (MctsTree.remapNode order node) := by
  refine ⟨_, rfl, ?_⟩
  rw [forall₂_map_right_iff]
  refine forall₂_same.mpr fun stats member => ⟨_, rfl, ?_⟩
  cases own : stats.child with
  | none => exact .none
  | some child =>
    obtain ⟨new, found, place⟩ := exists_idxOf? (below child
        (mem_filterMap.mpr ⟨stats, member, own⟩))
    change Option.Rel _ _ (order.idxOf? child)
    rw [found]
    exact .some place

theorem follows_childrenAt (nodes : List (MctsNode G C F)) :
    Follows MctsNode.children nodes (MctsTree.childrenAt nodes) := by
  intro index found
  unfold MctsTree.childrenAt
  cases nodes[index]? with
  | none => exact ⟨nofun, nofun⟩
  | some node =>
    refine ⟨fun same => ⟨node, rfl, Except.ok.inj same⟩, ?_⟩
    rintro ⟨other, same, rfl⟩
    cases same
    rfl

/-- What a compaction returns: the subtree, with the statistics of its nodes,
and what is known of it as a whole. -/
structure MctsTree.Compacts (tree : MctsTree G C F) (rootIndex : Nat)
    (result : MctsTree G C F × ReplayGraphContext × SearchHandleBatch G C) :
    Prop where
  subtree : IsSubtreeAt MctsNode.children MctsNode.Renumbered tree.nodes rootIndex result.1.nodes
  root : ∃ node, tree.nodes[rootIndex]? = some node ∧ result.2.1 = node.context ∧
    result.1.carriedRootVisits = node.visits.sum
  evalCount : result.1.evalCount = 0
  carriedNodes : result.1.carriedNodes = result.1.nodes.length
  handles : result.2.2 =
    { graphs := result.1.nodes.map (·.graph)
      candidates := result.1.nodes.flatMap fun node =>
        node.candidates.map (·.handle) }

theorem MctsNode.Renumbered.visits
    {old new : MctsNode G C F} (renumbered : old.Renumbered order new) :
    new.visits = old.visits := by
  obtain ⟨actions, rfl, each⟩ := renumbered
  refine (map_eq_of_forall₂ each fun one other same => ?_).symm
  obtain ⟨child, rfl, _⟩ := same
  rfl

theorem MctsNode.Renumbered.inRange
    {old new : MctsNode G C F} (renumbered : old.Renumbered order new) :
    ∀ child ∈ new.children, child < order.length := by
  obtain ⟨actions, rfl, each⟩ := renumbered
  intro child below
  obtain ⟨stats, member, own⟩ := mem_filterMap.mp below
  obtain ⟨before, _, target, rfl, place⟩ := forall₂_mem_right each member
  obtain rfl : target = some child := own
  obtain ⟨_, place⟩ : ∃ oldChild, order[child]? = some oldChild := exists_of_rel_some place
  exact lt_length_of_place place

theorem MctsTree.exists_compactSubtree {tree : MctsTree G C F}
    (closed : Closed MctsNode.children tree.nodes) {rootIndex : Nat}
    (inside : rootIndex < tree.nodes.length) :
    ∃ result, tree.compactSubtree rootIndex = .ok result ∧ tree.Compacts rootIndex result := by
  have follows := follows_childrenAt tree.nodes
  obtain ⟨order, traversed⟩ : ∃ order, oldIndices tree.nodes rootIndex =
      .ok order := follows.exists_traverse closed inside le_rfl
  have copies : ∀ index (node : MctsNode G C F),
      tree.nodes[index]? = some node → (∀ child ∈ node.children, child ∈ order) →
          ∃ new, copyNode tree.nodes order index = .ok new ∧ node.Renumbered order new := by
    intro index node found below
    unfold copyNode
    rw [found]
    exact ⟨_, rfl, renumbered_remapNode below⟩
  obtain ⟨compacted, copied, subtree⟩ := follows.exists_subtree traversed copies
  have whole := subtree
  obtain ⟨visited, _, first, _, each⟩ := whole
  cases each with
  | nil => cases first
  | @cons old root visited rest here others =>
    obtain rfl : old = rootIndex := Option.some.inj first
    obtain ⟨node, found, renumbered⟩ := here
    have visits := congrArg List.sum renumbered.visits
    have context : root.context = node.context := by
      obtain ⟨actions, rfl, _⟩ := renumbered
      rfl
    refine ⟨carried (root :: rest) root, ?_, subtree, ⟨node, found, context, visits⟩, rfl, rfl, rfl⟩
    unfold compactSubtree
    rw [traversed]
    change (order.mapM (copyNode tree.nodes order) >>= _) = _
    rw [copied]
    rfl

end Mcts

section Symmetric

variable {G C F : Type}

/-- The same target, or the node at its new place. -/
inductive BranchTarget.Renumbered (order : List Nat) : BranchTarget F → BranchTarget F → Prop
  | node {old new} (place : order[new]? = some old) :
    Renumbered order (.node old) (.node new)
  | terminal (value : F) : Renumbered order (.terminal value) (.terminal value)

def Branch.Renumbered (order : List Nat) (old new : Branch F) : Prop :=
  ∃ target, new = { old with target } ∧ old.target.Renumbered order target

/-- The same statistics with the branch, if there is one, renumbered. -/
def ActionEdge.Renumbered (order : List Nat) (old new : ActionEdge G F) : Prop :=
  ∃ branch, new = { old with branch } ∧ Option.Rel (Branch.Renumbered order) old.branch branch

/-- The same node with the targets of its edges and of its pass renumbered. -/
def Node.Renumbered (order : List Nat) (old new : Node G C F) : Prop :=
  ∃ edges pass, new = { old with edges, pass } ∧
    List.Forall₂ (ActionEdge.Renumbered order) old.edges edges ∧
    Option.Rel (Branch.Renumbered order) old.pass pass

variable {order : List Nat}

theorem BranchTarget.Renumbered.inRange
    {old new : BranchTarget F} (renumbered : old.Renumbered order new) :
    ∀ child ∈ new.node?, child < order.length := by
  intro child leads
  cases renumbered with
  | node place =>
    cases leads
    exact lt_length_of_place place
  | terminal => cases leads

theorem inRange_of_branch {old : Option (Branch F)} {branch : Branch F}
    (renumbered : Option.Rel (Branch.Renumbered order) old (some branch)) :
    ∀ child ∈ branch.target.node?, child < order.length := by
  obtain ⟨before, target, rfl, place⟩ := exists_of_rel_some renumbered
  exact place.inRange

theorem Node.Renumbered.inRange {old new : Node G C F} (renumbered : old.Renumbered order new) :
    ∀ child ∈ new.children, child < order.length := by
  obtain ⟨edges, pass, rfl, each, slot⟩ := renumbered
  intro child below
  obtain ⟨branch, member, leads⟩ := mem_filterMap.mp below
  rcases mem_append.mp member with passed | acted
  · obtain rfl : pass = some branch := Option.mem_toList.mp passed
    exact inRange_of_branch slot child leads
  · obtain ⟨edge, edgeMember, own⟩ := mem_filterMap.mp acted
    obtain ⟨before, _, target, rfl, same⟩ := forall₂_mem_right each edgeMember
    obtain rfl : target = some branch := own
    exact inRange_of_branch same child leads

/-- The nodes a branch leads to are numbered. -/
def Retained (order : List Nat) (slot : Option (Branch F)) : Prop :=
  ∀ branch ∈ slot, ∀ child ∈ branch.target.node?, child ∈ order

theorem exists_remapSlot {slot : Option (Branch F)} (retained : Retained order slot) :
    ∃ new, remapSlot order slot = .ok new ∧ Option.Rel (Branch.Renumbered order) slot new := by
  cases slot with
  | none => exact ⟨none, rfl, .none⟩
  | some branch =>
    obtain ⟨target, flip⟩ := branch
    cases target with
    | terminal value => exact ⟨_, rfl, .some ⟨_, rfl, .terminal value⟩⟩
    | node child =>
      obtain ⟨new, found, place⟩ := exists_idxOf? (retained _ rfl child rfl)
      refine ⟨some ⟨.node new, flip⟩, ?_, .some ⟨_, rfl, .node place⟩⟩
      unfold remapSlot remapBranch
      simp only [found]
      rfl

theorem exists_remapNode {node : Node G C F} (below : ∀ child ∈ node.children, child ∈ order) :
    ∃ new, remapNode order node = .ok new ∧ node.Renumbered order new := by
  have retained (branch : Branch F)
      (member : branch ∈ node.pass.toList ++ node.edges.filterMap (·.branch))
      (child : Nat) (leads : child ∈ branch.target.node?) : child ∈ order :=
    below child (mem_filterMap.mpr ⟨branch, member, leads⟩)
  have each : ∀ edge ∈ node.edges, ∃ new, (do
        let branch ← remapSlot order edge.branch
        pure { edge with branch } : Except (SearchFailure F) _) = .ok new ∧
        edge.Renumbered order new := by
    intro edge member
    have slot : Retained order edge.branch := fun branch own => retained branch
      (mem_append_right _ (mem_filterMap.mpr ⟨edge, member, own⟩))
    obtain ⟨branch, done, same⟩ := exists_remapSlot slot
    refine ⟨{ edge with branch }, ?_, branch, rfl, same⟩
    rw [done]
    rfl
  obtain ⟨edges, mapped, renumbered⟩ := exists_mapM_eq_ok each
  have slot : Retained order node.pass := fun branch own => retained branch
    (mem_append_left _ (Option.mem_toList.mpr own))
  obtain ⟨pass, done, same⟩ := exists_remapSlot slot
  refine ⟨{ node with edges, pass }, ?_, edges, pass, rfl, renumbered, same⟩
  unfold remapNode
  rw [mapped]
  rw [done]
  rfl

/-- The next indices of a node in the symmetric tree. -/
def symmetricChildrenAt (nodes : List (Node G C F)) (index : Nat) :
    Except (SearchFailure F) (List Nat) :=
  match nodes[index]? with
  | some node => .ok node.children
  | none => .error (.internal "invalid symmetric subtree node index")

theorem follows_symmetricChildrenAt (nodes : List (Node G C F)) :
    Follows Node.children nodes (symmetricChildrenAt nodes) := by
  intro index found
  unfold symmetricChildrenAt
  cases nodes[index]? with
  | none => simp only [reduceCtorEq, false_and, exists_false]
  | some node =>
    refine ⟨fun same => ⟨node, rfl, Except.ok.inj same⟩, ?_⟩
    rintro ⟨other, same, rfl⟩
    cases same
    rfl

theorem visitSubtree_eq_traverse (nodes : List (Node G C F)) (fuel : Nat) (stack order : List Nat) :
    visitSubtree nodes fuel stack order =
      traverse (symmetricChildrenAt nodes) .unfinished fuel stack order := by
  induction fuel generalizing stack order with
  | zero => cases stack <;> rfl
  | succ fuel ih =>
    cases stack with
    | nil => rfl
    | cons index stack =>
      unfold visitSubtree Foundation.traverse symmetricChildrenAt
      cases nodes[index]? with
      | none => rfl
      | some node =>
        simp only [ih]
        rfl

/-- The renumbered copy of a node of the symmetric tree. -/
def symmetricCopy (nodes : List (Node G C F)) (order : List Nat)
    (index : Nat) : Except (SearchFailure F) (Node G C F) :=
  match nodes[index]? with
  | none => .error .panicked
  | some node => remapNode order node

theorem exists_compactSubtree {nodes : List (Node G C F)}
    (closed : Closed Node.children nodes) {rootIndex fuel : Nat}
    (inside : rootIndex < nodes.length)
    (enough : 1 + (nodes.map fun node => node.children.length).sum ≤ fuel) :
    ∃ compacted, compactSubtree nodes fuel rootIndex = .ok compacted ∧
      IsSubtreeAt Node.children Node.Renumbered nodes rootIndex compacted := by
  have follows := follows_symmetricChildrenAt nodes
  obtain ⟨order, traversed⟩ : ∃ order, traverse (symmetricChildrenAt nodes)
      SearchFailure.unfinished fuel [rootIndex] [] = .ok order :=
    follows.exists_traverse closed inside enough
  have copies : ∀ (index : Nat) (node : Node G C F),
      nodes[index]? = some node → (∀ child ∈ node.children, child ∈ order) →
        ∃ new, symmetricCopy nodes order index = .ok new ∧ node.Renumbered order new := by
    intro index node found below
    unfold symmetricCopy
    rw [found]
    exact exists_remapNode below
  obtain ⟨compacted, copied, subtree⟩ := follows.exists_subtree traversed copies
  refine ⟨compacted, ?_, subtree⟩
  unfold compactSubtree
  rw [visitSubtree_eq_traverse, traversed]
  exact copied

end Symmetric

namespace CompactionSample

def context (graph : BitVec 128) : ReplayGraphContext := ⟨⟨1, 1, graph⟩, 1⟩

def mctsNode (graph : Nat) (children : List Nat) : MctsNode Nat Nat Unit where
  graph
  context := context (BitVec.ofNat 128 graph)
  candidates := []
  actions := children.map fun child => ⟨(), (), some child, 2, (), (), false⟩
  value := ()
  terminal := false
  modelVersion := 0

/-- Two of the nodes lead to each other, and two to the last one. -/
def tree : MctsTree Nat Nat Unit where
  nodes := [mctsNode 10 [1, 2], mctsNode 11 [3], mctsNode 12 [3, 1], mctsNode 13 []]
  evalCount := 4
  carriedNodes := 0
  carriedRootVisits := 0

def board (graph : Nat) : Board Nat where
  graphs := ⟨graph, graph⟩
  contexts := ⟨none, none⟩
  rewrites := ⟨0, 0⟩
  inactive := ⟨false, false⟩
  stopped := ⟨false, false⟩
  player := .one

def node (graph : Nat) (children : List Nat) (pass : Option Nat) : Node Nat Nat Unit where
  board := board graph
  context := context (BitVec.ofNat 128 graph)
  candidates := []
  candidateMetadata := []
  logits := []
  priors := []
  value := ()
  modelVersion := 0
  masked := []
  edges := children.map fun child =>
    ⟨some ⟨.node child, true⟩, none, none, 1, ()⟩
  pass := pass.map fun child => ⟨.node child, false⟩

def nodes : List (Node Nat Nat Unit) :=
  [node 10 [1, 2] none, node 11 [] (some 3), node 12 [3] (some 1), node 13 [] none]

end CompactionSample

/-- In every arena whose child indices are in range, both compactions succeed
and return the part below the chosen node. -/
theorem compactSubtree_isomorphic {G C F : Type} : (∀ (tree : MctsTree G C F) (rootIndex : Nat),
      Closed MctsNode.children tree.nodes → rootIndex < tree.nodes.length →
        ∃ result, tree.compactSubtree rootIndex = .ok result ∧ tree.Compacts rootIndex result ∧
          Closed MctsNode.children result.1.nodes) ∧
    (∀ (nodes : List (Node G C F)) (rootIndex fuel : Nat),
      Closed Node.children nodes → rootIndex < nodes.length →
        1 + (nodes.map fun node => node.children.length).sum ≤ fuel →
          ∃ compacted, compactSubtree nodes fuel rootIndex = .ok compacted ∧
            IsSubtreeAt Node.children Node.Renumbered nodes rootIndex compacted ∧
            Closed Node.children compacted) := by
  constructor
  · intro tree rootIndex closed inside
    obtain ⟨result, done, compacts⟩ := MctsTree.exists_compactSubtree closed inside
    exact ⟨result, done, compacts, compacts.subtree.closed fun _ _ _ same => same.inRange⟩
  · intro nodes rootIndex fuel closed inside enough
    obtain ⟨compacted, done, subtree⟩ := exists_compactSubtree closed inside enough
    exact ⟨compacted, done, subtree, subtree.closed fun _ _ _ same => same.inRange⟩

theorem compactSubtree_isomorphic_shared :
    (∃ result, CompactionSample.tree.compactSubtree 2 = .ok result ∧
      CompactionSample.tree.Compacts 2 result ∧
      result.1.nodes.map (·.children) = [[1, 2], [], [1]]) ∧
    ∃ compacted, compactSubtree CompactionSample.nodes 6 2 = .ok compacted ∧
      IsSubtreeAt Node.children Node.Renumbered CompactionSample.nodes 2 compacted ∧
      compacted.map Node.children = [[1, 2], [2], []] := by
  obtain ⟨single, symmetric⟩ := @compactSubtree_isomorphic Nat Nat Unit
  obtain ⟨result, done, compacts, _⟩ := single CompactionSample.tree 2 (by decide) (by decide)
  obtain ⟨compacted, copied, subtree, _⟩ :=
    symmetric CompactionSample.nodes 2 6 (by decide) (by decide) (by decide)
  refine ⟨⟨result, done, compacts, ?_⟩, compacted, copied, subtree, ?_⟩
  · have children : (CompactionSample.tree.compactSubtree 2).toOption.map
        (fun result => result.1.nodes.map (·.children)) = some [[1, 2], [], [1]] := by
      decide +kernel
    rw [done] at children
    exact Option.some.inj children
  · have children : (compactSubtree CompactionSample.nodes 6 2).toOption.map
        (List.map Node.children) = some [[1, 2], [2], []] := by
      decide +kernel
    rw [copied] at children
    exact Option.some.inj children

end GraphZero.Search
