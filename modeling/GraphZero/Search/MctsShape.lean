import GraphZero.Search.Compaction
import GraphZero.Search.MctsMoves

/-!
# The shape of a search tree

Whatever happens to a search, its tree stays a tree: children are further from
the root than their parents, every node has an action to take, and an action
that was visited is a stop or has led to a node.  A simulation is on a walk
from the root.
-/

namespace GraphZero.Search

open Engine Foundation List

variable {R G C F : Type}

/-! ## Nodes -/

variable {α : Type}

theorem map_modify {β : Type} {view : α → β} {change}
    (keeps : ∀ item, view (change item) = view item) (items : List α) (index : Nat) :
    (items.modify index change).map view = items.map view := by
  refine ext_getElem? fun position => ?_
  rw [getElem?_map, getElem?_map, getElem?_modify]
  cases items[position]? with
  | none => rfl
  | some item =>
    by_cases here : index = position
    · exact congrArg some ((congrArg view (if_pos here)).trans (keeps item))
    · exact congrArg some (congrArg view (if_neg here))

theorem mem_of_mem_modify {change} {items : List α} {index item}
    (member : item ∈ items.modify index change) :
    item ∈ items ∨ ∃ old, items[index]? = some old ∧ item = change old := by
  obtain ⟨position, found⟩ := mem_iff_getElem?.mp member
  rw [getElem?_modify, Option.map_eq_map, Option.map_eq_some_iff] at found
  obtain ⟨old, here, rfl⟩ := found
  by_cases same : index = position
  · subst same
    exact .inr ⟨old, here, if_pos rfl⟩
  · rw [if_neg same]
    exact .inl (mem_of_getElem? here)

namespace MctsNode

def childAt (node : MctsNode G C F) (action : Nat) : Option Nat :=
  (node.actions[action]?.map (·.child)).join

def visitsAt (node : MctsNode G C F) (action : Nat) : Nat :=
  (node.actions[action]?.map (·.visits)).getD 0

structure Sound (node : MctsNode G C F) : Prop where
  whole : node.actions.length = node.candidates.length + 1
  stays : node.childAt node.stop = none
  opened : ∃ action, node.isMasked action = false
  visited : ∀ action, 0 < node.visitsAt action →
    node.isStop action = true ∨ node.childAt action ≠ none

theorem isMasked_eq (node : MctsNode G C F) (action : Nat) : node.isMasked action =
      (node.actions[action]?.map (·.masked)).getD true := by
  unfold isMasked
  cases node.actions[action]? <;> rfl

section Changes

variable {node : MctsNode G C F} {action : Nat} {change : ActionStats F → ActionStats F}

theorem actions_modify (other : Nat) : (node.modify action change).actions[other]? =
      node.actions[other]?.map fun stats =>
        if action = other then change stats else stats := by
  change (node.actions.modify action change)[other]? = _
  rw [getElem?_modify]
  rfl

theorem map_actions_modify {β : Type} {view : ActionStats F → β}
    (keeps : ∀ stats, view (change stats) = view stats) (other : Nat) :
    (node.modify action change).actions[other]?.map view = node.actions[other]?.map view := by
  rw [← getElem?_map, ← getElem?_map]
  exact congrArg (·[other]?) (map_modify keeps node.actions action)

theorem childAt_modify (keeps : ∀ stats, (change stats).child = stats.child) (other : Nat) :
    (node.modify action change).childAt other = node.childAt other :=
  congrArg Option.join (map_actions_modify keeps other)

theorem visitsAt_modify (keeps : ∀ stats, (change stats).visits = stats.visits) (other : Nat) :
    (node.modify action change).visitsAt other = node.visitsAt other :=
  congrArg (·.getD 0) (map_actions_modify keeps other)

theorem isMasked_modify (keeps : ∀ stats, (change stats).masked = stats.masked) (other : Nat) :
    (node.modify action change).isMasked other = node.isMasked other := by
  rw [isMasked_eq, isMasked_eq]
  exact congrArg (·.getD true) (map_actions_modify keeps other)

variable {child : Nat}

theorem childAt_setChild_of_ne {other} (different : action ≠ other) :
    (node.setChild action child).childAt other = node.childAt other := by
  unfold childAt setChild
  rw [actions_modify]
  cases node.actions[other]? with
  | none => rfl
  | some stats => exact congrArg ActionStats.child (if_neg different)

theorem childAt_setChild : (node.setChild action child).childAt action =
      if action < node.actionCount then some child
      else node.childAt action := by
  unfold childAt setChild actionCount
  rw [actions_modify]
  by_cases inside : action < node.actions.length
  · rw [getElem?_eq_getElem inside, if_pos inside, Option.map_some, Option.map_some, if_pos rfl]
    rfl
  · rw [getElem?_eq_none (Nat.le_of_not_lt inside), if_neg inside]
    rfl

theorem Sound.setChild (sound : node.Sound) (moves : node.isStop action = false) :
    (node.setChild action child).Sound where
  whole := (length_modify ..).trans sound.whole
  stays := by
    have other : action ≠ node.stop := of_decide_eq_false moves
    exact (childAt_setChild_of_ne other).trans sound.stays
  opened := by
    obtain ⟨free, opened⟩ := sound.opened
    exact ⟨free, (isMasked_modify (by exact fun _ => rfl) free).trans opened⟩
  visited := by
    intro other visits
    unfold MctsNode.setChild at visits
    rw [visitsAt_modify (by exact fun _ => rfl)] at visits
    refine (sound.visited other visits).imp id fun leads => ?_
    by_cases same : action = other
    · subst same
      rw [childAt_setChild]
      split
      · nofun
      · exact leads
    · rw [childAt_setChild_of_ne same]
      exact leads

end Changes

section Masks

variable {node : MctsNode G C F} {action : Nat}

theorem map_actions_mask {β : Type} {view : ActionStats F → β} (keeps : ∀ stats masked,
      view { stats with masked } = view stats) (other : Nat) :
    (node.mask action).actions[other]?.map view = node.actions[other]?.map view := by
  unfold mask
  dsimp only
  split
  · exact (map_actions_modify (fun stats => keeps stats false) other).trans
      (map_actions_modify (fun stats => keeps stats true) other)
  · exact map_actions_modify (fun stats => keeps stats true) other

theorem childAt_mask (other : Nat) : (node.mask action).childAt other = node.childAt other :=
  congrArg Option.join (map_actions_mask (by exact fun _ _ => rfl) other)

theorem visitsAt_mask (other : Nat) : (node.mask action).visitsAt other = node.visitsAt other :=
  congrArg (·.getD 0) (map_actions_mask (by exact fun _ _ => rfl) other)

theorem candidates_mask : (node.mask action).candidates = node.candidates := by
  unfold mask
  dsimp only
  split <;> rfl

theorem length_actions_mask : (node.mask action).actions.length = node.actions.length := by
  unfold mask
  dsimp only
  split
  · exact (length_modify ..).trans (length_modify ..)
  · exact length_modify ..

theorem exists_open_mask (whole : node.actions.length = node.candidates.length + 1) :
    ∃ free, (node.mask action).isMasked free = false := by
  unfold mask
  dsimp only
  split
  · refine ⟨node.stop, ?_⟩
    have inside : node.stop < node.actions.length := by
      unfold stop
      omega
    rw [isMasked_eq, actions_modify, actions_modify, getElem?_eq_getElem inside]
    simp
  next left =>
  rw [all_eq_true] at left
  push Not at left
  obtain ⟨stats, member, opened⟩ := left
  obtain ⟨free, found⟩ := mem_iff_getElem?.mp (mem_of_mem_take member)
  refine ⟨free, ?_⟩
  rw [isMasked_eq, found]
  simpa using opened

theorem Sound.mask (sound : node.Sound) : (node.mask action).Sound where
  whole := by
    rw [length_actions_mask, candidates_mask]
    exact sound.whole
  stays := by
    rw [childAt_mask]
    have same : (node.mask action).stop = node.stop := congrArg List.length candidates_mask
    rw [same]
    exact sound.stays
  opened := exists_open_mask sound.whole
  visited := by
    intro other visits
    rw [visitsAt_mask] at visits
    rw [childAt_mask]
    have same : (node.mask action).isStop other = node.isStop other := by
      unfold isStop stop
      rw [candidates_mask]
    rw [same]
    exact sound.visited other visits

end Masks

section Visits

variable [Scalar F] {node : MctsNode G C F} {action : Nat}

theorem childAt_visit (value : F) (other : Nat) :
    (node.visit action value).childAt other = node.childAt other :=
  childAt_modify (by exact fun _ => rfl) other

theorem isMasked_visit (value : F) (other : Nat) :
    (node.visit action value).isMasked other = node.isMasked other :=
  isMasked_modify (by exact fun _ => rfl) other

theorem visitsAt_visit (value : F) (other : Nat) : (node.visit action value).visitsAt other =
      if action = other ∧ other < node.actionCount then
        node.visitsAt other + 1
      else node.visitsAt other := by
  unfold visitsAt visit actionCount
  rw [actions_modify]
  by_cases inside : other < node.actions.length
  · by_cases same : action = other
    · simp [same, inside]
    · simp [same]
  · simp [inside]

theorem Sound.visit (sound : node.Sound) (value : F)
    (takes : node.isStop action = true ∨ node.childAt action ≠ none) :
    (node.visit action value).Sound where
  whole := (length_modify ..).trans sound.whole
  stays := (childAt_visit value _).trans sound.stays
  opened := by
    obtain ⟨free, opened⟩ := sound.opened
    exact ⟨free, (isMasked_visit value free).trans opened⟩
  visited := by
    intro other visits
    rw [childAt_visit]
    by_cases same : action = other
    · subst same
      exact takes
    · rw [visitsAt_visit, if_neg fun both => same both.1] at visits
      exact sound.visited other visits

theorem length_softmax (values : List F) : (softmax values).length = values.length := by
  unfold softmax
  split
  · exact length_replicate
  dsimp only
  split
  · exact length_map ..
  · rw [length_map, length_map]

section

variable {graph : G} {context : ReplayGraphContext} {candidates : List (CandidateEntry C F)}
  {output : EvalOutput F} {maskStop terminal : Bool}

theorem exists_of_actions_new {action stats}
    (found : (MctsNode.new graph context candidates output maskStop
      terminal).actions[action]? = some stats) :
    stats.child = none ∧ stats.visits = 0 ∧ stats.masked = (maskStop && !candidates.isEmpty &&
        decide (action = candidates.length)) := by
  unfold MctsNode.new at found
  rw [getElem?_map, Option.map_eq_some_iff] at found
  obtain ⟨⟨⟨logit, prior⟩, index⟩, here, rfl⟩ := found
  rw [getElem?_zipIdx, Option.map_eq_some_iff] at here
  obtain ⟨pair, _, same⟩ := here
  obtain ⟨_, rfl⟩ := Prod.mk.inj same
  exact ⟨rfl, rfl, by rw [Nat.zero_add]⟩

theorem length_actions_new : (MctsNode.new graph context candidates output maskStop
      terminal).actions.length = output.policyLogits.length := by
  unfold MctsNode.new
  rw [length_map, length_zipIdx, length_zip, length_softmax, Nat.min_self]

end

variable {node : MctsNode G C F}

theorem Evaluated.childAt (evaluated : node.Evaluated)
    (action : Nat) : node.childAt action = none := by
  obtain ⟨graph, context, candidates, output, maskStop, terminal, _, rfl⟩ := evaluated
  unfold MctsNode.childAt
  cases found : (MctsNode.new graph context candidates output maskStop
      terminal).actions[action]? with
  | none => rfl
  | some stats => exact (exists_of_actions_new found).1

theorem Evaluated.visitsAt
    (evaluated : node.Evaluated) (action : Nat) : node.visitsAt action = 0 := by
  obtain ⟨graph, context, candidates, output, maskStop, terminal, _, rfl⟩ := evaluated
  unfold MctsNode.visitsAt
  cases found : (MctsNode.new graph context candidates output maskStop
      terminal).actions[action]? with
  | none => rfl
  | some stats => exact (exists_of_actions_new found).2.1

theorem Evaluated.sound (evaluated : node.Evaluated) : node.Sound where
  whole := by
    obtain ⟨_, _, _, _, _, _, fits, rfl⟩ := evaluated
    exact length_actions_new.trans fits
  stays := evaluated.childAt _
  opened := by
    obtain ⟨graph, context, candidates, output, maskStop, terminal, fits, rfl⟩ := evaluated
    have inside : 0 < (MctsNode.new graph context candidates output maskStop
        terminal).actions.length := by
      rw [length_actions_new, fits]
      exact Nat.succ_pos _
    refine ⟨0, ?_⟩
    have found := getElem?_eq_getElem inside
    rw [isMasked_eq, found]
    change ActionStats.masked _ = false
    rw [(exists_of_actions_new found).2.2]
    cases candidates with
    | nil => simp
    | cons candidate rest => simp
  visited := by
    intro action visits
    rw [evaluated.visitsAt] at visits
    exact absurd visits (Nat.lt_irrefl 0)

end Visits

end MctsNode

namespace MctsTree

def childAt (tree : MctsTree G C F) (index action : Nat) : Option Nat :=
  tree.nodes[index]?.bind (·.childAt action)

structure Sound (tree : MctsTree G C F) : Prop where
  nodes : ∀ node ∈ tree.nodes, node.Sound
  inside : ∀ index action child, tree.childAt index action = some child → child < tree.nodes.length
  grounded : ∃ rank : Nat → Nat, ∀ index action child,
    tree.childAt index action = some child → rank index < rank child

/-- The edges from the root to the node at `index`. -/
inductive Walks (tree : MctsTree G C F) : List MctsEdge → Nat → Prop
  | root : Walks tree [] 0
  | step {path index action child} (before : Walks tree path index)
    (leads : tree.childAt index action = some child) :
    Walks tree (path ++ [⟨index, action⟩]) child

theorem Walks.mono {tree grown : MctsTree G C F} {path index} (walks : tree.Walks path index)
    (keeps : ∀ index action child, tree.childAt index action = some child →
      grown.childAt index action = some child) : grown.Walks path index := by
  induction walks with
  | root => exact .root
  | step before leads ih => exact .step ih (keeps _ _ _ leads)

/-- The edge has led to a node, or it is a stop. -/
def Takes (tree : MctsTree G C F) (edge : MctsEdge) : Prop :=
  ∀ node, tree.nodes[edge.nodeIndex]? = some node →
    node.isStop edge.action = true ∨ node.childAt edge.action ≠ none

theorem takes_of_childAt {tree : MctsTree G C F} {index action child}
    (leads : tree.childAt index action = some child) :
    tree.Takes ⟨index, action⟩ := by
  intro node found
  right
  unfold childAt at leads
  have same : tree.nodes[index]? = some node := found
  rw [same] at leads
  exact fun none => nomatch none.symm.trans leads

theorem Walks.takes {tree : MctsTree G C F} {path index} (walks : tree.Walks path index) :
    ∀ edge ∈ path, tree.Takes edge := by
  induction walks with
  | root => exact fun _ member => by cases member
  | step before leads ih =>
    intro edge member
    rcases mem_append.mp member with old | new
    · exact ih edge old
    · rw [mem_singleton.mp new]
      exact takes_of_childAt leads

section Changes

variable {tree : MctsTree G C F} {index : Nat} {change : MctsNode G C F → MctsNode G C F}

theorem nodes_modifyNode (other : Nat) : (tree.modifyNode index change).nodes[other]? =
      tree.nodes[other]?.map fun node =>
        if index = other then change node else node := by
  change (tree.nodes.modify index change)[other]? = _
  rw [getElem?_modify]
  rfl

theorem length_modifyNode : (tree.modifyNode index change).nodes.length = tree.nodes.length :=
  length_modify ..

theorem childAt_modifyNode (keeps : ∀ node action, (change node).childAt action =
      node.childAt action) (other action : Nat) :
    (tree.modifyNode index change).childAt other action = tree.childAt other action := by
  unfold childAt
  rw [nodes_modifyNode]
  cases tree.nodes[other]? with
  | none => rfl
  | some node =>
    by_cases here : index = other
    · exact (congrArg (MctsNode.childAt · action) (if_pos here)).trans (keeps node action)
    · exact congrArg (MctsNode.childAt · action) (if_neg here)

theorem Sound.modifyNode (sound : tree.Sound) (keeps : ∀ node action, (change node).childAt action =
      node.childAt action)
    (each : ∀ node, tree.nodes[index]? = some node → node.Sound →
      (change node).Sound) : (tree.modifyNode index change).Sound where
  nodes := by
    intro node member
    rcases mem_of_mem_modify member with old | ⟨old, found, rfl⟩
    · exact sound.nodes node old
    · exact each old found (sound.nodes old (mem_of_getElem? found))
  inside := by
    intro other action child leads
    rw [length_modifyNode]
    rw [childAt_modifyNode keeps] at leads
    exact sound.inside other action child leads
  grounded := by
    obtain ⟨rank, grows⟩ := sound.grounded
    refine ⟨rank, fun other action child leads => ?_⟩
    rw [childAt_modifyNode keeps] at leads
    exact grows other action child leads

theorem Sound.maskAction (sound : tree.Sound) (action : Nat) :
    (tree.maskAction index action).Sound :=
  sound.modifyNode (fun _ => MctsNode.childAt_mask) fun _ _ own => own.mask

theorem childAt_maskAction (action other taken : Nat) :
    (tree.maskAction index action).childAt other taken = tree.childAt other taken :=
  childAt_modifyNode (fun _ => MctsNode.childAt_mask) other taken

variable [Scalar F]

theorem length_backup (path : List MctsEdge) (value : F) :
    (tree.backup path value).nodes.length = tree.nodes.length := by
  unfold backup
  induction path generalizing tree with
  | nil => rfl
  | cons edge path ih =>
    rw [foldl_cons, ih]
    exact length_modifyNode

variable {edge : MctsEdge}

theorem Takes.visit {other} (takes : tree.Takes other) (value : F) :
    (tree.modifyNode edge.nodeIndex fun node =>
      node.visit edge.action value).Takes other := by
  intro node found
  rw [nodes_modifyNode, Option.map_eq_some_iff] at found
  obtain ⟨old, here, rfl⟩ := found
  have before := takes old here
  split
  · rw [MctsNode.childAt_visit]
    exact before
  · exact before

theorem Sound.backup (sound : tree.Sound) {path} (taken : ∀ edge ∈ path, tree.Takes edge)
    (value : F) :
    (tree.backup path value).Sound := by
  unfold MctsTree.backup
  induction path generalizing tree with
  | nil => exact sound
  | cons edge path ih =>
    refine ih ?_ fun other member =>
      (taken other (mem_cons_of_mem _ member)).visit value
    exact sound.modifyNode (fun _ => MctsNode.childAt_visit value)
      fun node found own => own.visit value (taken edge mem_cons_self node found)

variable {leaf : MctsNode G C F}

omit [Scalar F] in
theorem nodes_append_of_lt {other} (inside : other < tree.nodes.length) :
    (tree.append leaf).nodes[other]? = tree.nodes[other]? :=
  getElem?_append_left inside

omit [Scalar F] in
theorem childAt_eq_none {other} (outside : tree.nodes.length ≤ other) (action : Nat) :
    tree.childAt other action = none := by
  unfold childAt
  rw [getElem?_eq_none outside]
  rfl

theorem childAt_append (evaluated : leaf.Evaluated) (other action : Nat) :
    (tree.append leaf).childAt other action = tree.childAt other action := by
  rcases Nat.lt_or_ge other tree.nodes.length with inside | outside
  · unfold childAt
    rw [nodes_append_of_lt inside]
  rw [childAt_eq_none outside]
  rcases Nat.eq_or_lt_of_le outside with rfl | beyond
  · have last : (tree.append leaf).nodes[tree.nodes.length]? = some leaf :=
      getElem?_concat_length
    unfold childAt
    rw [last]
    exact evaluated.childAt action
  · refine childAt_eq_none ?_ action
    exact (length_append ..).trans_le beyond

theorem childAt_attach (evaluated : leaf.Evaluated) {parent}
    (found : tree.nodes[edge.nodeIndex]? = some parent) (offered : edge.action < parent.actionCount)
    (other action : Nat) :
    (tree.attach edge leaf).childAt other action =
      if edge.nodeIndex = other ∧ edge.action = action then
        some tree.nodes.length
      else tree.childAt other action := by
  have before : (tree.append leaf).childAt other action =
      tree.childAt other action := childAt_append evaluated other action
  rw [← before]
  unfold attach setChild childAt
  rw [nodes_modifyNode]
  by_cases here : edge.nodeIndex = other
  · subst here
    have inside := (List.getElem?_eq_some_iff.mp found).1
    rw [nodes_append_of_lt inside, found]
    by_cases same : edge.action = action
    · subst same
      simp [MctsNode.childAt_setChild, offered]
    · simp [same, MctsNode.childAt_setChild_of_ne same]
  · cases (tree.append leaf).nodes[other]? with
    | none => simp [here]
    | some node => simp [here]

omit [Scalar F] in
theorem length_attach : (tree.attach edge leaf).nodes.length = tree.nodes.length + 1 :=
  length_modifyNode.trans length_append

theorem Sound.attach (sound : tree.Sound) (evaluated : leaf.Evaluated) {parent}
    (found : tree.nodes[edge.nodeIndex]? = some parent) (offered : edge.action < parent.actionCount)
    (moves : parent.isStop edge.action = false) :
    (tree.attach edge leaf).Sound where
  nodes := by
    intro node member
    have inside := (List.getElem?_eq_some_iff.mp found).1
    rcases mem_of_mem_modify member with old | ⟨old, here, rfl⟩
    · rcases mem_append.mp old with old | new
      · exact sound.nodes node old
      · rw [mem_singleton.mp new]
        exact evaluated.sound
    · rw [nodes_append_of_lt inside, found] at here
      obtain rfl := Option.some.inj here
      exact (sound.nodes _ (mem_of_getElem? found)).setChild moves
  inside := by
    intro other action child leads
    rw [length_attach]
    rw [childAt_attach evaluated found offered] at leads
    split at leads
    · cases leads
      exact Nat.lt_succ_self _
    · exact (sound.inside other action child leads).trans (Nat.lt_succ_self _)
  grounded := by
    obtain ⟨rank, grows⟩ := sound.grounded
    have below := (List.getElem?_eq_some_iff.mp found).1
    refine ⟨Function.update rank tree.nodes.length
      (rank edge.nodeIndex + 1), fun other action child leads => ?_⟩
    rw [childAt_attach evaluated found offered] at leads
    split at leads
    · next same =>
      cases leads
      rw [Function.update_self, Function.update_of_ne (by omega), same.1]
      exact Nat.lt_succ_self _
    · have child := sound.inside other action child leads
      have inside : other < tree.nodes.length := by
        by_contra outside
        rw [childAt_eq_none (Nat.le_of_not_lt outside)] at leads
        cases leads
      rw [Function.update_of_ne (by omega), Function.update_of_ne (by omega)]
      exact grows other action _ leads

end Changes

end MctsTree

/-! ## Searches -/

def MctsTree.Offers (tree : MctsTree G C F) (index action : Nat) : Prop :=
  ∃ node, tree.nodes[index]? = some node ∧ action < node.candidates.length

/-- Where the simulation of a search may be. -/
def MctsPhase.On (tree : MctsTree G C F) : MctsPhase R G → Prop
  | opening => tree.nodes = []
  | searching run => tree.nodes ≠ [] ∧ ∀ descent,
      run.descent = some descent → tree.Walks descent.path descent.nodeIndex
  | applying run action => tree.nodes ≠ [] ∧ ∃ descent,
      run.descent = some descent ∧ tree.Walks descent.path descent.nodeIndex ∧
          tree.Offers descent.nodeIndex action
  | expanding _ run => ∃ descent path index action,
      run.descent = some descent ∧ descent.path = path ++ [⟨index, action⟩] ∧
        tree.Walks path index ∧ tree.Offers index action ∧ tree.childAt index action = none
  | ended => True

structure MctsStand.Sound (stand : MctsStand R G C F) : Prop where
  tree : stand.tree.Sound
  phase : stand.phase.On stand.tree

theorem ne_nil_of_length_eq {first second : List α}
    (same : second.length = first.length) (some : first ≠ []) :
    second ≠ [] := by
  rw [← length_pos_iff] at some ⊢
  omega

theorem forall_mem_concat {good : α → Prop} {items last} (all : ∀ item ∈ items, good item)
    (holds : good last) :
    ∀ item ∈ items ++ [last], good item := by
  intro item member
  rcases mem_append.mp member with old | new
  · exact all item old
  · rw [mem_singleton.mp new]
    exact holds

theorem MctsTree.Sound.whole {tree : MctsTree G C F} (sound : tree.Sound) {index : Nat} {node}
    (found : tree.nodes[index]? = some node) : node.Sound :=
  sound.nodes node (mem_of_getElem? found)

theorem MctsTree.childAt_of_found {tree : MctsTree G C F} {index action node stats}
    (found : tree.nodes[index]? = some node) (known : node.actions[action]? = some stats) :
    tree.childAt index action = stats.child := by
  unfold MctsTree.childAt MctsNode.childAt
  rw [found, Option.bind_some, known]
  rfl

section Moves

variable [Scalar F] {strategy : MctsStrategy R G C F}

theorem MctsTree.Sound.root {tree : MctsTree G C F} {leaf} (nothing : tree.nodes = [])
    (evaluated : leaf.Evaluated) :
    (tree.append leaf).Sound := by
  have nodes : (tree.append leaf).nodes = [leaf] := by
    change tree.nodes ++ [leaf] = [leaf]
    rw [nothing]
    rfl
  have none (index action : Nat) : (tree.append leaf).childAt index action = none := by
    rw [MctsTree.childAt_append evaluated]
    refine MctsTree.childAt_eq_none ?_ action
    rw [nothing]
    exact Nat.zero_le _
  refine ⟨fun node member => ?_, fun index action child leads => ?_,
    fun _ => 0, fun index action child leads => ?_⟩
  · rw [nodes] at member
    rw [mem_singleton.mp member]
    exact evaluated.sound
  · cases (none index action).symm.trans leads
  · cases (none index action).symm.trans leads

theorem MctsStand.Sound.finish {tree : MctsTree G C F} (sound : tree.Sound) {path}
    (taken : ∀ edge ∈ path, tree.Takes edge) (some : tree.nodes ≠ []) (value : F)
    (run : RunState R) :
    MctsStand.Sound ⟨tree.backup path value, .searching run.completeSimulation⟩ := by
  refine ⟨sound.backup taken value, ?_, nofun⟩
  exact ne_nil_of_length_eq (MctsTree.length_backup path value) some

theorem MctsStand.Sound.move {move : MctsMove G} {stand next} (sound : stand.Sound)
    (moves : Searches strategy move stand next) : next.Sound := by
  obtain ⟨tree, phase⟩ := sound
  cases moves with
  | begin idle found chosen =>
    refine ⟨tree, phase.1, fun descent under => ?_⟩
    obtain rfl := Option.some.inj under
    exact .root
  | stop under found chosen stops =>
    refine MctsStand.Sound.finish tree ?_ phase.1 _ _
    refine forall_mem_concat (phase.2 _ under).takes ?_
    intro node same
    obtain rfl := Option.some.inj (found.symm.trans same)
    exact .inl stops
  | apply under found chosen offered =>
    have walks := phase.2 _ under
    refine ⟨tree, phase.1, _, rfl, walks, _, found, ?_⟩
    exact (List.getElem?_eq_some_iff.mp offered).1
  | turnBack under =>
    obtain ⟨nonempty, descent, same, walks, offers⟩ := phase
    refine ⟨tree.maskAction _, ?_, fun other here => ?_⟩
    · exact ne_nil_of_length_eq MctsTree.length_modifyNode nonempty
    · obtain rfl := Option.some.inj (same.symm.trans here)
      refine walks.mono fun index action child leads => ?_
      rw [MctsTree.childAt_maskAction]
      exact leads
  | enter under found known leads childFound =>
    obtain ⟨nonempty, descent, same, walks, offers⟩ := phase
    obtain rfl := Option.some.inj (under.symm.trans same)
    refine ⟨tree, nonempty, fun other here => ?_⟩
    obtain rfl := Option.some.inj here
    exact walks.step ((MctsTree.childAt_of_found found known).trans leads)
  | revisit under found known leads childFound =>
    obtain ⟨nonempty, descent, same, walks, offers⟩ := phase
    obtain rfl := Option.some.inj (under.symm.trans same)
    refine MctsStand.Sound.finish tree ?_ nonempty _ _
    exact forall_mem_concat walks.takes (MctsTree.takes_of_childAt
      ((MctsTree.childAt_of_found found known).trans leads))
  | leave under found known vacant =>
    obtain ⟨nonempty, descent, same, walks, offers⟩ := phase
    obtain rfl := Option.some.inj (under.symm.trans same)
    exact ⟨tree, _, _, _, _, rfl, rfl, walks, offers,
      (MctsTree.childAt_of_found found known).trans vacant⟩
  | attach under last evaluated =>
    obtain ⟨descent, path, index, action, same, whole, walks,
      ⟨node, found, offered⟩, vacant⟩ := phase
    obtain rfl := Option.some.inj (under.symm.trans same)
    rw [whole, getLast?_concat] at last
    obtain rfl := Option.some.inj last
    have own := tree.whole found
    have inside : action < node.actionCount := by
      unfold MctsNode.actionCount
      rw [own.whole]
      omega
    have moves : node.isStop action = false := decide_eq_false (Nat.ne_of_lt offered)
    have grown : (MctsTree.attach _ ⟨index, action⟩ _).Sound :=
      tree.attach evaluated found inside moves
    refine MctsStand.Sound.finish grown ?_ ?_ _ _
    · rw [whole]
      refine forall_mem_concat (MctsTree.Walks.takes (walks.mono
        fun other taken child leads => ?_)) (MctsTree.takes_of_childAt
          ((MctsTree.childAt_attach evaluated found inside _ _).trans (if_pos ⟨rfl, rfl⟩)))
      rw [MctsTree.childAt_attach evaluated found inside, if_neg]
      · exact leads
      · rintro ⟨rfl, rfl⟩
        cases vacant.symm.trans leads
    · refine length_pos_iff.mp ?_
      rw [MctsTree.length_attach]
      exact Nat.succ_pos _

end Moves

end GraphZero.Search
