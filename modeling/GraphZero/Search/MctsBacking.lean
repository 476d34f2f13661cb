import GraphZero.Search.MctsReuse

/-!
# The graphs that a search refers to

The nodes of a search refer to graphs that the engine has handed over.  Below
the root these are graphs of the move, and the graph of a chosen node is one
of them.
-/

namespace GraphZero.Search

open Engine Foundation Effect

variable {R G C F : Type}

/-- The graph that is about to become a node. -/
def MctsPhase.awaited : MctsPhase R G → Multiset G
  | expanding graph _ => {graph}
  | _ => 0

/-- The graphs below the root of a search. -/
def MctsStand.below (stand : MctsStand R G C F) : Multiset G :=
  (stand.tree.graphs.tail : Multiset G) + stand.phase.awaited

/-- The graph that a move takes into the search. -/
def MctsMove.graphs : MctsMove G → Multiset G
  | leave graph => {graph}
  | _ => 0

namespace MctsTree

variable {tree : MctsTree G C F}

theorem graphs_modifyNode {index change} (keeps : ∀ node, (change node).graph = node.graph) :
    (tree.modifyNode index change).graphs = tree.graphs :=
  map_modify keeps tree.nodes index

theorem graphs_maskAction (index action : Nat) :
    (tree.maskAction index action).graphs = tree.graphs := by
  refine graphs_modifyNode fun node => ?_
  unfold MctsNode.mask
  dsimp only
  split <;> rfl

theorem graphs_backup [Scalar F] (path : List MctsEdge) (value : F) :
    (tree.backup path value).graphs = tree.graphs := by
  unfold backup
  induction path generalizing tree with
  | nil => rfl
  | cons edge path ih =>
    rw [List.foldl_cons, ih]
    exact graphs_modifyNode fun _ => rfl

theorem graphs_append (leaf : MctsNode G C F) :
    (tree.append leaf).graphs = tree.graphs ++ [leaf.graph] :=
  List.map_append

theorem graphs_attach (edge : MctsEdge) (leaf : MctsNode G C F) :
    (tree.attach edge leaf).graphs = tree.graphs ++ [leaf.graph] :=
  (graphs_modifyNode (by exact fun _ => rfl)).trans (graphs_append leaf)

end MctsTree

theorem tail_append_le {α : Type} (items : List α) (last : α) :
    ((items ++ [last]).tail : Multiset α) ≤ (items.tail : Multiset α) + {last} := by
  cases items with
  | nil => exact Multiset.zero_le _
  | cons first rest => exact le_refl _

section Search

variable [Scalar F] {strategy : MctsStrategy R G C F}

theorem below_of_searches {move stand next} (moves : Searches strategy move stand next) :
    next.below ≤ stand.below + move.graphs := by
  have same (tree other : MctsTree G C F) (phase : MctsPhase R G)
      (kept : other.graphs = tree.graphs) (quiet : phase.awaited = 0)
      (before : MctsPhase R G) (given : Multiset G) :
      MctsStand.below ⟨other, phase⟩ ≤ MctsStand.below ⟨tree, before⟩ + given := by
    unfold MctsStand.below
    rw [kept, quiet, add_zero, add_assoc]
    exact Multiset.le_add_right _ _
  cases moves with
  | begin | apply | enter => exact same _ _ _ rfl rfl _ _
  | stop | revisit => exact same _ _ _ (MctsTree.graphs_backup _ _) rfl _ _
  | turnBack => exact same _ _ _ (MctsTree.graphs_maskAction _ _) rfl _ _
  | leave under found known vacant graph =>
    exact add_le_add_left (Multiset.le_add_right _ 0) _
  | attach under last evaluated =>
    unfold MctsStand.below
    rw [MctsTree.graphs_backup, MctsTree.graphs_attach]
    exact (add_zero _).le.trans ((tail_append_le _ _).trans (add_zero _).ge)

variable {stand next : MctsStand R G C F}

theorem below_of_searchesTo
    (moves : SearchesTo strategy stand next) : next.below ≤ stand.below := by
  induction moves with
  | refl => exact le_refl _
  | tail _ step ih => exact (below_of_searches step).trans ((add_zero _).le.trans ih)

theorem MctsStand.Sound.moves (sound : stand.Sound) (moves : SearchesTo strategy stand next) :
    next.Sound := by
  induction moves with
  | refl => exact sound
  | tail _ step ih => exact ih.move step

end Search

/-! ## Root tasks -/

/-- What was selected is a stop, or the node that an action leads to. -/
def MctsTree.Selected (tree : MctsTree G C F) (result : MctsRootResult G C F) : Prop :=
  result.selectedAction.isStop = true ∨ ∃ childIndex child,
    tree.childAt 0 result.selectedActionIndex = some childIndex ∧
      tree.nodes[childIndex]? = some child ∧ result.selectedAfter = child.graph

theorem MctsTree.selectedNode_eq_ok {tree : MctsTree G C F} {node selected action}
    (moves : node.isStop action = false) (found : tree.selectedNode node action = .ok selected) :
    ∃ child, node.childAt action = some child ∧ tree.nodes[child]? = some selected := by
  unfold selectedNode at found
  rw [moves] at found
  unfold MctsNode.childAt
  cases known : (node.actions[action]?).map (·.child) with
  | none =>
    rw [known] at found
    cases found
  | some child =>
    rw [known] at found
    cases child with
    | none => cases found
    | some child =>
      refine ⟨child, rfl, ?_⟩
      cases there : tree.nodes[child]? with
      | none => simp [there] at found
      | some other => simpa [there] using found

theorem MctsRootTask.selected_of_rootResult {task : MctsRootTask R G C F} {run root chosen result}
    (found : task.tree.nodes[0]? = some root)
    (done : task.rootResult run root chosen = .ok result) :
    task.tree.Selected result := by
  obtain ⟨after, selected, done⟩ := ok_of_bind done
  obtain ⟨afterContext, _, done⟩ := ok_of_bind done
  obtain ⟨action, taken, done⟩ := ok_of_bind done
  cases known : task.rootContext with
  | none =>
    rw [known] at done
    cases done
  | some rootContext =>
    rw [known] at done
    obtain ⟨ref, _, done⟩ := ok_of_bind done
    obtain ⟨summary, _, done⟩ := ok_of_bind done
    cases done
    cases stops : root.isStop chosen.selected with
    | true =>
      left
      unfold MctsNode.searchAction at taken
      rw [stops] at taken
      cases taken
      rfl
    | false =>
      right
      unfold MctsTree.selectedAfter at selected
      cases here : task.tree.selectedNode root chosen.selected with
      | error failure =>
        rw [here] at selected
        cases selected
      | ok node =>
        rw [here] at selected
        cases selected
        obtain ⟨child, leads, there⟩ := MctsTree.selectedNode_eq_ok stops here
        refine ⟨child, node, ?_, there, rfl⟩
        unfold MctsTree.childAt
        rw [found]
        exact leads

/-- The search refers to no other graphs than `graphs` below its root. -/
structure MctsRootTask.Backed (task : MctsRootTask R G C F) (graphs : Multiset G) : Prop where
  asks : task.Asks
  sound : task.stand.Sound
  below : task.stand.below ≤ graphs

/-- A search that has come to its end. -/
structure MctsRootTask.Ended (task : MctsRootTask R G C F)
    (graphs : Multiset G) (result : MctsRootResult G C F) : Prop where
  sound : task.tree.Sound
  below : (task.tree.graphs.tail : Multiset G) ≤ graphs
  selected : task.tree.Selected result

namespace MctsRootTask

theorem backed_new (config : MctsConfig) (identity : EngineIdentity) (root : G)
    (context : MctsSearchContext F) (graphs : Multiset G) :
    (new config identity root context : MctsRootTask R G C F).Backed graphs where
  asks := ⟨nofun, nofun⟩
  sound :=
    { tree := ⟨nofun, nofun, fun _ => 0, nofun⟩
      phase := rfl }
  below := Multiset.zero_le _

variable {task : MctsRootTask R G C F} {graphs : Multiset G}

theorem Backed.setVisited (backed : task.Backed graphs) (visited : Finset ReplayGraphContext) :
    (task.setVisited visited).Backed graphs :=
  ⟨⟨backed.asks.emits, backed.asks.awaits⟩, backed.sound, backed.below⟩

section Steps

variable [Scalar F] {strategy : MctsStrategy R G C F}

theorem Backed.poll (backed : task.Backed graphs) (fuel : Nat) :
    (MctsRootTask.poll strategy fuel).EndsAt (fun polled final =>
        match polled with
        | .work _ | .blocked => final.Backed graphs
        | .done result => final.Ended graphs result)
      (fun _ _ => True) task := by
  refine EndsAt.mono (@endsAt_poll R G C F _ strategy (fun _ => 0) task False
    False.elim backed.asks fuel False.elim) ?_ fun _ _ _ => trivial
  rintro (work | _ | result) final polled
  · obtain ⟨moves, asks, _⟩ := polled
    exact ⟨asks, backed.sound.moves moves, (below_of_searchesTo moves).trans backed.below⟩
  · obtain rfl : final = task := polled
    exact backed
  · obtain ⟨_, _, run, root, chosen, moves, finishes⟩ := polled
    have below := (below_of_searchesTo moves).trans backed.below
    refine ⟨(backed.sound.moves moves).tree, ?_,
      selected_of_rootResult finishes.found finishes.result⟩
    exact (Multiset.le_add_right _ _).trans below

def resultGraphs : SearchWorkResult G C F → Multiset G
  | .apply applied => {applied.after}
  | _ => 0

theorem Backed.resume (backed : task.Backed graphs) (token : WorkToken)
    (result : SearchWorkResult G C F) :
    (MctsRootTask.resume strategy token result).EndsAt
      (fun _ final => final.Backed (graphs + resultGraphs result))
      (fun _ _ => True) task := by
  refine EndsAt.mono (@endsAt_resume R G C F _ strategy task False backed.asks
    token result) ?_ fun _ _ _ => trivial
  rintro _ final ⟨asks, _, resumed⟩
  have more : graphs ≤ graphs + resultGraphs result := Multiset.le_add_right _ _
  cases resumed with
  | waits same =>
    refine ⟨asks, ?_, ?_⟩
    · rw [same]
      exact backed.sound
    · rw [same]
      exact backed.below.trans more
  | @opens root leaf phase evaluated found same =>
    have empty : task.tree.nodes = [] := by
      have on := backed.sound.phase
      change task.phase.On task.tree at on
      rw [phase] at on
      exact on
    refine ⟨asks, ?_, ?_⟩
    · rw [same]
      refine ⟨.root empty evaluated, ?_, nofun⟩
      exact List.concat_ne_nil _ _
    · rw [same]
      change ((task.tree.append leaf).graphs.tail : Multiset G) + 0 ≤ _
      rw [MctsTree.graphs_append, MctsTree.graphs, empty]
      exact Multiset.zero_le _
  | @moves move moves root created =>
    refine ⟨asks, backed.sound.move moves, ?_⟩
    refine (below_of_searches moves).trans (add_le_add backed.below ?_)
    cases move with
    | onward | turnBack => exact Multiset.zero_le _
    | leave graph =>
      obtain ⟨applied, rfl, rfl⟩ := created graph rfl
      exact le_refl _

end Steps

theorem Ended.mem {result} (ended : task.Ended graphs result)
    (goes : result.selectedAction.isStop = false) :
    result.selectedAfter ∈ graphs := by
  rcases ended.selected with stops | ⟨childIndex, child, leads, there, same⟩
  · rw [goes] at stops
    cases stops
  refine Multiset.mem_of_le ended.below ?_
  rw [same, Multiset.mem_coe]
  obtain ⟨before, rfl⟩ : ∃ before, childIndex = before + 1 :=
    Nat.exists_eq_succ_of_ne_zero (ended.sound.ne_zero_of_below leads .refl)
  refine List.mem_of_getElem? (i := before) ?_
  rw [List.getElem?_tail]
  unfold MctsTree.graphs
  rw [List.getElem?_map, there]
  rfl

theorem Ended.reused {strategy result} (ended : task.Ended graphs result)
    (goes : result.selectedAction.isStop = false) {expectedContext context next handles}
    (done : task.reusedChildTask strategy result.selectedActionIndex
      result.selectedAfter expectedContext context = .ok (some (next, handles))) :
    ∃ below : List G, handles.graphs = result.selectedAfter :: below ∧
      ((result.selectedAfter :: below : List G) : Multiset G) ≤ graphs ∧
        ∀ kept : Multiset G, (below : Multiset G) ≤ kept → next.Backed kept := by
  rcases ended.selected with stops | ⟨childIndex, child, leads, there, same⟩
  · rw [goes] at stops
    cases stops
  obtain ⟨asks, _, ⟨_, copied, first, compacts⟩, node, root, stand⟩ :=
    reuses_of_reusedChildTask ended.sound done
  obtain rfl := Option.some.inj (leads.symm.trans first)
  obtain ⟨order, old, other, found, here, renumbered⟩ := compacts.exists_root
  obtain rfl := Option.some.inj (there.symm.trans found)
  obtain rfl := Option.some.inj (root.symm.trans here)
  have graph : node.graph = result.selectedAfter := renumbered.graph.trans same.symm
  have graphs : next.tree.graphs = result.selectedAfter :: next.tree.graphs.tail := by
    rw [← graph]
    unfold MctsTree.graphs
    cases nodes : next.tree.nodes with
    | nil =>
      rw [nodes] at root
      cases root
    | cons first rest =>
      rw [nodes] at root
      cases root
      rfl
  have handed : handles.graphs = next.tree.graphs :=
    congrArg SearchHandleBatch.graphs compacts.handles
  refine ⟨next.tree.graphs.tail, handed.trans graphs, ?_, fun kept enough => ⟨asks, ?_, ?_⟩⟩
  · rw [← graphs]
    exact (ended.sound.graphs_compacted compacts leads).trans ended.below
  · rw [stand]
    refine ⟨ended.sound.compacted compacts, ?_, nofun⟩
    intro empty
    rw [empty] at root
    cases root
  · rw [stand]
    exact (add_zero _).le.trans enough

end MctsRootTask

end GraphZero.Search
