import GraphZero.Search.MctsShape

/-!
# The shape of a reused tree

The tree that a move takes over from the one before is a sound tree again.
Its nodes are those of the old tree below the chosen action, so the old root
is none of them.
-/

namespace GraphZero.Search

open Engine Foundation List

variable {G C F : Type}

/-! ## Renumbered nodes -/

theorem eq_none_of_rel_none {α β : Type} {relates : α → β → Prop} {value}
    (related : Option.Rel relates none value) :
    value = none := by
  cases related
  rfl

namespace MctsNode

variable {order : List Nat} {old new : MctsNode G C F}

theorem Renumbered.candidates (renumbered : old.Renumbered order new) :
    new.candidates = old.candidates := by
  obtain ⟨actions, rfl, _⟩ := renumbered
  rfl

theorem Renumbered.graph (renumbered : old.Renumbered order new) : new.graph = old.graph := by
  obtain ⟨actions, rfl, _⟩ := renumbered
  rfl

theorem Renumbered.map_actions {β : Type} {view : ActionStats F → β}
    (renumbered : old.Renumbered order new)
    (keeps : ∀ stats child, view { stats with child } = view stats) :
    new.actions.map view = old.actions.map view := by
  obtain ⟨actions, rfl, each⟩ := renumbered
  refine (map_eq_of_forall₂ each fun one other same => ?_).symm
  obtain ⟨child, rfl, _⟩ := same
  exact (keeps one child).symm

theorem Renumbered.view {β : Type} {view : ActionStats F → β}
    (renumbered : old.Renumbered order new)
    (keeps : ∀ stats child, view { stats with child } = view stats)
    (action : Nat) :
    new.actions[action]?.map view = old.actions[action]?.map view := by
  rw [← getElem?_map, ← getElem?_map, renumbered.map_actions keeps]

theorem Renumbered.visitsAt (renumbered : old.Renumbered order new)
    (action : Nat) : new.visitsAt action = old.visitsAt action :=
  congrArg (·.getD 0) (@Renumbered.view G C F order old new _ ActionStats.visits renumbered
      (fun _ _ => rfl) action)

theorem Renumbered.isMasked (renumbered : old.Renumbered order new)
    (action : Nat) : new.isMasked action = old.isMasked action := by
  rw [isMasked_eq, isMasked_eq]
  exact congrArg (·.getD true) (@Renumbered.view G C F order old new _ ActionStats.masked renumbered
      (fun _ _ => rfl) action)

theorem Renumbered.length_actions (renumbered : old.Renumbered order new) :
    new.actions.length = old.actions.length := by
  obtain ⟨actions, rfl, each⟩ := renumbered
  exact each.length_eq.symm

theorem Renumbered.childAt (renumbered : old.Renumbered order new) (action : Nat) :
    Option.Rel (fun before after => order[after]? = some before)
      (old.childAt action) (new.childAt action) := by
  obtain ⟨actions, rfl, each⟩ := renumbered
  unfold MctsNode.childAt
  cases found : old.actions[action]? with
  | none =>
    have outside : actions.length ≤ action := by
      rw [← each.length_eq]
      exact List.getElem?_eq_none_iff.mp found
    rw [getElem?_eq_none outside]
    exact .none
  | some stats =>
    obtain ⟨other, here, child, rfl, place⟩ := forall₂_getElem? each found
    rw [here]
    exact place

theorem Renumbered.sound (renumbered : old.Renumbered order new)
    (sound : old.Sound) : new.Sound where
  whole := by
    rw [renumbered.length_actions, renumbered.candidates]
    exact sound.whole
  stays := by
    have place := renumbered.childAt old.stop
    have same : new.stop = old.stop := congrArg List.length renumbered.candidates
    rw [sound.stays] at place
    rw [same]
    exact eq_none_of_rel_none place
  opened := by
    obtain ⟨action, opened⟩ := sound.opened
    exact ⟨action, (renumbered.isMasked action).trans opened⟩
  visited := by
    intro action visits
    rw [renumbered.visitsAt] at visits
    have place := renumbered.childAt action
    refine (sound.visited action visits).imp (fun stops => ?_) fun leads vacant => ?_
    · have same : new.stop = old.stop := congrArg List.length renumbered.candidates
      unfold isStop at stops ⊢
      rw [same]
      exact stops
    · rw [vacant] at place
      generalize old.childAt action = child at leads place
      cases place
      exact leads rfl

end MctsNode

namespace MctsTree

variable {tree : MctsTree G C F} {rootIndex : Nat}
  {result : MctsTree G C F × ReplayGraphContext × SearchHandleBatch G C}

theorem exists_childAt_of_child {index child node} (found : tree.nodes[index]? = some node)
    (below : child ∈ node.children) :
    ∃ action, tree.childAt index action = some child := by
  obtain ⟨stats, member, leads⟩ := mem_filterMap.mp below
  obtain ⟨action, known⟩ := mem_iff_getElem?.mp member
  exact ⟨action, (childAt_of_found found known).trans leads⟩

theorem Sound.closed (sound : tree.Sound) : Closed MctsNode.children tree.nodes := by
  intro node member child below
  obtain ⟨index, found⟩ := mem_iff_getElem?.mp member
  obtain ⟨action, leads⟩ := exists_childAt_of_child found below
  exact sound.inside index action child leads

theorem childAt_of_compacted {order nodes}
    (each : List.Forall₂ (fun old new => ∃ node, tree.nodes[old]? =
      some node ∧ node.Renumbered order new) order nodes) (compacted : result.1.nodes = nodes)
    {index action child} (leads : result.1.childAt index action = some child) :
    ∃ old oldChild, order[index]? = some old ∧ order[child]? = some oldChild ∧
        tree.childAt old action = some oldChild := by
  unfold childAt at leads
  rw [compacted] at leads
  obtain ⟨new, here, own⟩ := Option.bind_eq_some_iff.mp leads
  obtain ⟨old, place, node, found, renumbered⟩ := forall₂_getElem?_right each here
  have moved := renumbered.childAt action
  rw [own] at moved
  cases before : node.childAt action with
  | none =>
    rw [before] at moved
    cases moved
  | some oldChild =>
    rw [before] at moved
    cases moved with
    | some same =>
      refine ⟨old, oldChild, place, same, ?_⟩
      unfold childAt
      rw [found]
      exact before

theorem Sound.compacted (sound : tree.Sound)
    (compacts : tree.Compacts rootIndex result) : result.1.Sound := by
  obtain ⟨order, _, _, _, each⟩ := compacts.subtree
  refine ⟨fun new member => ?_, fun index action child leads => ?_, ?_⟩
  · obtain ⟨old, _, node, found, renumbered⟩ := forall₂_mem_right each member
    exact renumbered.sound (sound.whole found)
  · obtain ⟨_, oldChild, _, place, _⟩ := childAt_of_compacted each rfl leads
    rw [← each.length_eq]
    exact lt_length_of_place place
  · obtain ⟨rank, grows⟩ := sound.grounded
    refine ⟨fun index => rank (order[index]?.getD 0), fun index action child leads => ?_⟩
    obtain ⟨old, oldChild, place, childPlace, before⟩ := childAt_of_compacted each rfl leads
    dsimp only
    rw [place, childPlace]
    exact grows old action oldChild before

theorem Compacts.exists_root (compacts : tree.Compacts rootIndex result) :
    ∃ order old root, tree.nodes[rootIndex]? = some old ∧
      result.1.nodes[0]? = some root ∧ old.Renumbered order root := by
  obtain ⟨order, _, first, _, each⟩ := compacts.subtree
  have place : order[0]? = some rootIndex := by
    rw [← head?_eq_getElem?]
    exact first
  obtain ⟨root, here, old, found, renumbered⟩ := forall₂_getElem? each place
  exact ⟨order, old, root, found, here, renumbered⟩

theorem Sound.ne_zero_of_below (sound : tree.Sound) {action index}
    (first : tree.childAt 0 action = some rootIndex)
    (below : Relation.ReflTransGen (ChildOf MctsNode.children tree.nodes)
      rootIndex index) : index ≠ 0 := by
  obtain ⟨rank, grows⟩ := sound.grounded
  have above : rank 0 < rank index := by
    induction below with
    | refl => exact grows 0 action rootIndex first
    | @tail index child _ step ih =>
      obtain ⟨node, found, member⟩ := step
      obtain ⟨taken, leads⟩ := exists_childAt_of_child found member
      exact ih.trans (grows index taken child leads)
  rintro rfl
  exact Nat.lt_irrefl _ above

def graphs (tree : MctsTree G C F) : List G :=
  tree.nodes.map (·.graph)

/-- A reused tree refers to each graph at most as often as the old tree below
its root does. -/
theorem Sound.graphs_compacted (sound : tree.Sound) (compacts : tree.Compacts rootIndex result)
    {action} (first : tree.childAt 0 action = some rootIndex) :
    (result.1.graphs : Multiset G) ≤ tree.graphs.tail := by
  obtain ⟨order, nodup, _, reached, each⟩ := compacts.subtree
  let view (index : Nat) : Option G := tree.nodes[index]?.map (·.graph)
  have copied : order.map view = result.1.graphs.map some := by
    refine (map_eq_of_forall₂ each fun old new related => ?_).trans (map_map ..).symm
    obtain ⟨node, found, renumbered⟩ := related
    change tree.nodes[old]?.map (·.graph) = some new.graph
    rw [found, renumbered.graph]
    rfl
  have others : (List.range' 1 (tree.nodes.length - 1)).map view = tree.graphs.tail.map some := by
    refine ext_getElem ?_ fun index here there => ?_
    · unfold graphs
      simp
    · simp only [length_map, length_range'] at here
      have inside : index + 1 < tree.nodes.length := by omega
      simp [view, graphs, Nat.add_comm 1 index, getElem?_eq_getElem inside]
  have below : order.Subperm (List.range' 1 (tree.nodes.length - 1)) := by
    refine subperm_of_subset nodup fun index member => ?_
    have away := sound.ne_zero_of_below first ((reached index).mp member)
    obtain ⟨new, _, node, found, _⟩ := forall₂_mem_right each.flip member
    have inside := (List.getElem?_eq_some_iff.mp found).1
    rw [mem_range'_1]
    omega
  have mapped := @Multiset.map_le_map _ _ view _ _ (Multiset.coe_le.mpr below)
  rw [Multiset.map_coe, Multiset.map_coe, copied, others,
    ← Multiset.map_coe, ← Multiset.map_coe] at mapped
  exact (Multiset.map_le_map_iff (Option.some_injective G)).mp mapped

end MctsTree

/-- A task that goes on with the subtree of an action. -/
structure MctsRootTask.Reuses {R : Type} (strategy : MctsStrategy R G C F)
    (task : MctsRootTask R G C F) (action : Nat)
    (move : MctsSearchContext F) (next : MctsRootTask R G C F)
    (handles : SearchHandleBatch G C) : Prop where
  asks : next.Asks
  context : next.context = move
  compacts : ∃ childIndex copied, task.tree.childAt 0 action = some childIndex ∧
    task.tree.Compacts childIndex (next.tree, copied, handles)
  stand : ∃ node, next.tree.nodes[0]? = some node ∧ next.stand =
      ⟨next.tree, .searching ⟨strategy.startRoot node move, 0, none⟩⟩

theorem MctsRootTask.reuses_of_reusedChildTask {R : Type} {strategy}
    {task next : MctsRootTask R G C F} {action root expectedContext context handles}
    (sound : task.tree.Sound)
    (done : task.reusedChildTask strategy action root expectedContext context =
      .ok (some (next, handles))) :
    task.Reuses strategy action context next handles := by
  unfold reusedChildTask at done
  cases known : task.tree.nodes.head?.bind fun node => node.actions[action]? with
  | none =>
    rw [known] at done
    cases done
  | some stats =>
    rw [known] at done
    cases child : stats.child with
    | none =>
      simp only [child] at done
      cases done
    | some childIndex =>
      simp only [child] at done
      have leads : task.tree.childAt 0 action = some childIndex := by
        obtain ⟨node, first, here⟩ := Option.bind_eq_some_iff.mp known
        rw [head?_eq_getElem?] at first
        exact (MctsTree.childAt_of_found first here).trans child
      obtain ⟨⟨tree, rootContext, copied⟩, compacted, compacts⟩ :=
        MctsTree.exists_compactSubtree sound.closed (sound.inside _ _ _ leads)
      change (task.tree.compactSubtree childIndex >>= _) = _ at done
      rw [compacted] at done
      change (if rootContext ≠ expectedContext then _ else _) = _ at done
      split at done
      · cases done
      cases first : tree.nodes.head? with
      | none =>
        rw [first] at done
        cases done
      | some node =>
        rw [first] at done
        cases done
        refine ⟨⟨nofun, nofun⟩, rfl, ⟨_, _, leads, compacts⟩, node, ?_, rfl⟩
        rw [← head?_eq_getElem?]
        exact first

end GraphZero.Search
