import GraphZero.Search.WaveMoves

/-!
# The end of a turn

What a root task does when its simulations are done, and what it carries over
to the task after it.
-/

namespace GraphZero.Search

open Engine Foundation Effect List

variable {G C F : Type}

theorem alike_of_remapNode {order} {old new : Node G C F}
    (remapped : remapNode order old = .ok new) : old.Alike new := by
  obtain ⟨edges, walked, rest⟩ := ok_of_bind remapped
  obtain ⟨pass, _, rest⟩ := ok_of_bind rest
  cases rest
  refine ⟨rfl, rfl, rfl, rfl, ?_⟩
  refine (forall₂_of_mapM_eq_ok walked).imp fun before after moved => ?_
  obtain ⟨branch, _, rest⟩ := ok_of_bind moved
  cases rest
  exact ⟨rfl, rfl⟩

variable {nodes : List (Node G C F)} {fuel : Nat}

theorem visitSubtree_prefix {stack order visited}
    (done : visitSubtree nodes fuel stack order = .ok visited) :
    order <+: visited := by
  induction fuel generalizing stack order with
  | zero =>
    cases stack with
    | nil =>
      cases done
      exact prefix_refl _
    | cons index stack => cases done
  | succ fuel ih =>
    cases stack with
    | nil =>
      cases done
      exact prefix_refl _
    | cons index stack =>
      unfold visitSubtree at done
      cases found : nodes[index]? with
      | none =>
        rw [found] at done
        cases done
      | some node =>
        rw [found] at done
        dsimp only at done
        by_cases seen : index ∈ order
        · rw [if_pos seen] at done
          exact ih done
        · rw [if_neg seen] at done
          exact (prefix_append _ _).trans (ih done)

theorem visitSubtree_head {rootIndex visited}
    (done : visitSubtree nodes fuel [rootIndex] [] = .ok visited) :
    visited.head? = some rootIndex := by
  cases fuel with
  | zero => cases done
  | succ fuel =>
    unfold visitSubtree at done
    cases found : nodes[rootIndex]? with
    | none =>
      rw [found] at done
      cases done
    | some node =>
      rw [found] at done
      dsimp only at done
      obtain ⟨rest, rfl⟩ := visitSubtree_prefix done
      rfl

theorem compactSubtree_eq_ok {kept} {rootIndex : Nat}
    (done : compactSubtree nodes fuel rootIndex = .ok kept) :
    (∀ new ∈ kept, ∃ old ∈ nodes, old.Alike new) ∧
      ∃ old new, nodes[rootIndex]? = some old ∧ kept.head? = some new ∧ old.Alike new := by
  obtain ⟨order, visited, rest⟩ := ok_of_bind done
  have each := forall₂_of_mapM_eq_ok rest
  have each := each.imp fun oldIndex new moved =>
    show ∃ old, nodes[oldIndex]? = some old ∧ old.Alike new by
      cases found : nodes[oldIndex]? with
      | none =>
        rw [found] at moved
        cases moved
      | some old =>
        rw [found] at moved
        exact ⟨old, rfl, alike_of_remapNode moved⟩
  constructor
  · intro new member
    obtain ⟨position, inside, rfl⟩ := mem_iff_getElem.mp member
    have source := each.get (each.length_eq ▸ inside) inside
    obtain ⟨old, found, same⟩ := source
    exact ⟨old, mem_of_getElem? found, same⟩
  · have head := visitSubtree_head visited
    cases each with
    | nil => cases head
    | cons first _ =>
      cases head
      obtain ⟨old, found, same⟩ := first
      exact ⟨old, _, found, rfl, same⟩

/-! ## The chosen action -/

section Finish

variable {task final : RootTask G C F} [DecidableEq G] [DecidableEq C]

/-- The task keeps no subtree, or that of the chosen action. -/
inductive Carries (task : RootTask G C F) (expected : Board G) : RootTask G C F → Prop where
  | nothing : Carries task expected task
  | subtree {nodes old new} (unused : task.reused = none)
    (source : ∀ kept ∈ nodes, ∃ old ∈ task.nodes, old.Alike kept) (member : old ∈ task.nodes)
    (head : nodes.head? = some new) (same : old.Alike new) (board : old.board = expected) :
    Carries task expected (carryOver task nodes)

theorem carries_of_prepareReuse {selected expected value}
    (done : (prepareReuse (C := C) (F := F) fuel selected
      expected).perform task = (.ok value, final)) :
    Carries task expected final := by
  replace done := get_bind_eq_ok done
  split at done
  · split at done
    · obtain ⟨_, _, failed, _⟩ := perform_bind_eq_ok done
      exact absurd failed perform_throw_ne_ok
    next unused =>
    obtain ⟨edge, mid, looked, rest⟩ := perform_bind_eq_ok done
    obtain ⟨_, _, _, rfl⟩ := edgeAt_eq_ok looked
    split at rest
    · cases rest
      exact .nothing
    obtain ⟨root, mid, found, rest⟩ := perform_bind_eq_ok rest
    obtain ⟨rootFound, rfl⟩ := require_eq_ok found
    split at rest
    · next board =>
      obtain ⟨nodes, mid, compacted, rest⟩ := perform_bind_eq_ok rest
      obtain ⟨compact, rfl⟩ := settled_eq_ok compacted
      cases rest
      obtain ⟨source, old, new, oldFound, head, same⟩ := compactSubtree_eq_ok compact
      cases rootFound.symm.trans oldFound
      exact .subtree (by simpa using unused) source
        (mem_of_getElem? rootFound) head same board
    · cases rest
      exact .nothing
  · cases done
    exact .nothing

/-- The chosen graph leaves the task, from one of its lists. -/
inductive Transfers (task : RootTask G C F) (selected : G) : RootTask G C F → Prop where
  | reused {reused} (carried : task.reused = some reused) (held : selected ∈ reused.createdGraphs) :
    Transfers task selected
      { task with
        reused := some
          { reused with
            createdGraphs := reused.createdGraphs.erase selected } }
  | created (held : selected ∈ task.createdGraphs) :
    Transfers task selected { task with createdGraphs := task.createdGraphs.erase selected }

omit [DecidableEq C] in
theorem transfers_of_transferSelectedGraph {selected value}
    (done : (transferSelectedGraph (C := C) (F := F) selected).perform
      task = (.ok value, final)) : Transfers task selected final := by
  have created {value : PUnit} (done : (transferSelectedGraph.fromCreated selected task).perform
        task = (.ok value, final)) : Transfers task selected final := by
    unfold transferSelectedGraph.fromCreated at done
    split at done
    · next held =>
      cases done
      exact .created held
    · exact absurd done perform_throw_ne_ok
  replace done := get_bind_eq_ok done
  cases carried : task.reused with
  | none =>
    rw [carried] at done
    exact created done
  | some reused =>
    rw [carried] at done
    dsimp only at done
    split at done
    · next held =>
      cases done
      exact .reused carried held
    · exact created done

variable [Scalar F]

inductive Finishes (task : RootTask G C F) (run : Run F) :
    SymmetricRootResult G C F → RootTask G C F → Prop where
  | pass {root} (rootFound : task.nodes.head? = some root)
    (none : selectRoot task.config root run = none) :
    Finishes task run (.pass root.board.player root.context)
      { task.releaseAllCreated with state := .done }
  | action {root selected move step carried given} (rootFound : task.nodes.head? = some root)
    (chosen : selectRoot task.config root run = some selected)
    (moved : selectedMove task root selected = .ok move)
    (finished : finishedStep task root run selected move = .ok step)
    (carries : Carries task (normalizeActivePlayer task.config.maxSteps
        (successorBoard root (root.isStop selected) move)) carried)
    (transfers : if root.isStop selected = true then given = carried
      else Transfers carried move.after given) :
    Finishes task run (.action
        { step
          player := root.board.player
          selectedAfter := move.after
          selectedAfterContext := move.afterContext
          stats := rootStats task run })
      { given.releaseAllCreated with state := .done }

theorem finishes_of_finishAction {selected root run result}
    (rootFound : task.nodes.head? = some root)
    (chosen : selectRoot task.config root run = some selected)
    (done : (finishAction fuel root run selected).perform task = (.ok result, final)) :
    Finishes task run result final := by
  replace done := get_bind_eq_ok done
  obtain ⟨move, mid, choice, rest⟩ := perform_bind_eq_ok done
  obtain ⟨moved, rfl⟩ := settled_eq_ok choice
  obtain ⟨step, mid, recorded, rest⟩ := perform_bind_eq_ok rest
  obtain ⟨finished, rfl⟩ := settled_eq_ok recorded
  obtain ⟨_, carried, prepared, rest⟩ := perform_bind_eq_ok rest
  have carries := carries_of_prepareReuse prepared
  split at rest
  · next goes =>
    obtain ⟨_, given, transferred, rest⟩ := perform_bind_eq_ok rest
    cases rest
    refine .action rootFound chosen moved finished carries ?_
    rw [if_neg (by simpa using goes)]
    exact transfers_of_transferSelectedGraph transferred
  · next stops =>
    cases rest
    refine .action rootFound chosen moved finished carries ?_
    rw [if_pos (by simpa using stops)]

theorem finishes_of_finishRoot {run polled}
    (done : (finishRoot fuel run).perform task = (.ok polled, final)) :
    ∃ result, polled = .done result ∧ Finishes task run result final := by
  replace done := get_bind_eq_ok done
  obtain ⟨root, mid, looked, rest⟩ := perform_bind_eq_ok done
  obtain ⟨rootFound, rfl⟩ := require_eq_ok looked
  obtain ⟨_, mid, checked, rest⟩ := perform_bind_eq_ok rest
  obtain ⟨_, rfl⟩ := settled_eq_ok checked
  split at rest
  · next none =>
    cases rest
    exact ⟨_, rfl, .pass rootFound none⟩
  · next selected chosen =>
    obtain ⟨result, mid, acted, rest⟩ := perform_bind_eq_ok rest
    cases rest
    exact ⟨result, rfl, finishes_of_finishAction rootFound chosen acted⟩

end Finish

section Reuse

variable {task final : RootTask G C F} [Scalar F]

/-- The task over the carried subtree, if there is one. -/
inductive Reuses (task : RootTask G C F) (visited : PerPlayer (Finset ReplayGraphContext)) :
    Option (RootTask G C F) → RootTask G C F → Prop where
  | nothing (unused : task.reused = none) :
    Reuses task visited none task
  | subtree {reused root run} (carried : task.reused = some reused)
    (head : reused.nodes.head? = some root)
    (started : startRun (reusedTask task visited reused root) = .ok run) :
    Reuses task visited
      (some { reusedTask task visited reused root with
        state := .waveRunning (.start run) })
      { task with reused := none }

theorem reuses_of_takeReusedTask {visited reused}
    (done : (takeReusedTask visited).perform task = (.ok reused, final)) :
    Reuses task visited reused final := by
  replace done := get_bind_eq_ok done
  cases carried : task.reused with
  | none =>
    rw [carried] at done
    cases done
    exact .nothing carried
  | some tree =>
    rw [carried] at done
    replace done := modify_bind_eq_ok done
    cases head : tree.nodes.head? with
    | none =>
      rw [head] at done
      obtain ⟨_, _, _, failed⟩ := perform_bind_eq_ok done
      exact absurd failed perform_throw_ne_ok
    | some root =>
      rw [head] at done
      dsimp only at done
      cases started : startRun (reusedTask task visited tree root) with
      | error failure =>
        rw [started] at done
        obtain ⟨_, _, _, failed⟩ := perform_bind_eq_ok done
        exact absurd failed perform_throw_ne_ok
      | ok run =>
        rw [started] at done
        cases done
        exact .subtree carried head started

/-- A carried root is the board of the episode; what either knows of the
contexts, both know. -/
inductive Aligns [DecidableEq G] (task : RootTask G C F) (expected : Board G) :
    PerPlayer (Option ReplayGraphContext) → RootTask G C F → Prop where
  | aligned {root contexts} (head : task.nodes.head? = some root)
    (board : { root.board with contexts := expected.contexts } = expected)
    (agrees : ∀ player, alignContext (F := F)
      (root.board.contexts.of player) (expected.contexts.of player) = .ok (contexts.of player))
    (known : contexts.of root.board.player = some root.context) :
    Aligns task expected contexts
      { task.setNode 0
          { root with board := { root.board with contexts } } with
        rootContext := some root.context }

omit [Scalar F] in
theorem aligns_of_alignRootBoard [DecidableEq G] {expected contexts}
    (done : (alignRootBoard expected).perform task =
      (.ok contexts, final)) : Aligns task expected contexts final := by
  replace done := get_bind_eq_ok done
  obtain ⟨root, mid, looked, rest⟩ := perform_bind_eq_ok done
  obtain ⟨head, rfl⟩ := require_eq_ok looked
  dsimp only at rest
  split at rest
  · obtain ⟨_, _, failed, _⟩ := perform_bind_eq_ok rest
    exact absurd failed perform_throw_ne_ok
  next board =>
  obtain ⟨one, first, oneFound, afterOne⟩ := perform_bind_eq_ok rest
  obtain ⟨oneSame, rfl⟩ := settled_eq_ok oneFound
  obtain ⟨two, second, twoFound, afterTwo⟩ := perform_bind_eq_ok afterOne
  obtain ⟨twoSame, rfl⟩ := settled_eq_ok twoFound
  obtain ⟨_, third, placed, rest⟩ := perform_bind_eq_ok afterTwo
  obtain ⟨same, sameFound, rfl⟩ := modifyNode_eq_ok placed
  rw [← head?_eq_getElem?, head] at sameFound
  cases sameFound
  split at rest
  · obtain ⟨_, _, failed, _⟩ := perform_bind_eq_ok rest
    exact absurd failed perform_throw_ne_ok
  next known =>
  cases rest
  rw [not_not] at board known
  refine .aligned head board (fun player => ?_) known
  cases player with
  | one => exact oneSame
  | two => exact twoSame

end Reuse

end GraphZero.Search
