import GraphZero.Search.Wave
import Mathlib.Algebra.Group.Prod
import Mathlib.Data.Multiset.OrderedMonoid
import Mathlib.Tactic.Abel

/-!
# The handles of a root task

Every engine handle a root task receives is in one of its lists until the
task gives it away.  The tree refers to handles but does not own any, so what
only changes the tree is neutral.
-/

namespace GraphZero.Search

open Engine Foundation Effect List

/-- Handles of graphs and of candidates. -/
abbrev Holdings (G C : Type) : Type := Multiset G × Multiset C

/-- A failure that ends the episode in good order, unlike a panic. -/
def SearchFailure.Kept {F : Type} (failure : SearchFailure F) : Prop :=
  failure ≠ .panicked ∧ failure ≠ .unfinished

variable {G C F : Type}

def holdingsOf (graphs : List G) (candidates : List C) : Holdings G C :=
  (graphs, candidates)

@[simp]
theorem holdingsOf_nil : holdingsOf ([] : List G) ([] : List C) = 0 := rfl

theorem holdingsOf_append (graphs moreGraphs : List G) (candidates moreCandidates : List C) :
    holdingsOf (graphs ++ moreGraphs) (candidates ++ moreCandidates) =
      holdingsOf graphs candidates + holdingsOf moreGraphs moreCandidates := by
  unfold holdingsOf
  rfl

theorem eq_zero_of_add_eq_zero {first second : Holdings G C}
    (none : first + second = 0) : first = 0 :=
  Prod.ext (add_eq_zero.mp (congrArg Prod.fst none)).1 (add_eq_zero.mp (congrArg Prod.snd none)).1

def graphOf (graph : G) : Holdings G C := holdingsOf [graph] []

namespace SearchHandleBatch

def holdings (batch : SearchHandleBatch G C) : Holdings G C :=
  holdingsOf batch.graphs batch.candidates

@[simp]
theorem holdings_empty : (empty : SearchHandleBatch G C).holdings = 0 :=
  rfl

@[simp]
theorem holdings_append (first second : SearchHandleBatch G C) :
    (first.append second).holdings = first.holdings + second.holdings :=
  holdingsOf_append _ _ _ _

end SearchHandleBatch

def ReusedTree.holdings (reused : ReusedTree G C F) : Holdings G C :=
  holdingsOf reused.createdGraphs reused.createdCandidates

/-- The graph that a result hands over to the episode. -/
def SymmetricRootResult.holdings : SymmetricRootResult G C F → Holdings G C
  | .action result =>
    if result.step.action.isStop then 0
    else graphOf result.selectedAfter
  | .pass _ _ => 0

def SearchPoll.holdings {R : Type} (outgo : R → Holdings G C) : SearchPoll G C F R → Holdings G C
  | .done result => outgo result
  | _ => 0

namespace RootTask

def reusedHoldings (task : RootTask G C F) : Holdings G C :=
  (task.reused.map ReusedTree.holdings).getD 0

def holdings (task : RootTask G C F) : Holdings G C :=
  holdingsOf task.createdGraphs task.createdCandidates +
    holdingsOf task.speculativeGraphs [] + task.releasable.holdings + task.reusedHoldings

theorem holdings_releaseAllCreated (task : RootTask G C F) :
    task.releaseAllCreated.holdings = task.holdings := by
  have created : holdingsOf (task.createdGraphs ++ task.speculativeGraphs) task.createdCandidates =
      holdingsOf task.createdGraphs task.createdCandidates +
        holdingsOf task.speculativeGraphs [] := by
    rw [← holdingsOf_append, append_nil]
  change holdingsOf [] [] + holdingsOf [] [] +
    (task.releasable.append _).holdings + task.reusedHoldings = _
  rw [SearchHandleBatch.holdings_append]
  unfold SearchHandleBatch.holdings holdings
  rw [created, holdingsOf_nil]
  unfold SearchHandleBatch.holdings
  abel

theorem holdings_takeReleasable (task : RootTask G C F) :
    task.takeReleasable.2.holdings + task.takeReleasable.1.holdings = task.holdings := by
  change holdingsOf task.createdGraphs task.createdCandidates +
    holdingsOf task.speculativeGraphs [] + SearchHandleBatch.empty.holdings + task.reusedHoldings +
        task.releasable.holdings = _
  rw [SearchHandleBatch.holdings_empty]
  unfold holdings
  abel

theorem holdings_takeAllHandles (task : RootTask G C F) :
    task.takeAllHandles.1.holdings = task.holdings ∧ task.takeAllHandles.2.holdings = 0 := by
  rw [← holdings_releaseAllCreated]
  have same : task.releaseAllCreated.holdings = task.releaseAllCreated.releasable.holdings +
        task.releaseAllCreated.reusedHoldings := by
    change holdingsOf [] [] + holdingsOf [] [] + _ + _ = _
    rw [holdingsOf_nil, zero_add, zero_add]
  rw [same]
  unfold takeAllHandles reusedHoldings
  dsimp only
  cases reused : task.releaseAllCreated.reused with
  | none =>
    constructor
    · exact (add_zero (task.releaseAllCreated.releasable.holdings)).symm
    · change holdingsOf [] [] + holdingsOf [] [] +
        SearchHandleBatch.empty.holdings + RootTask.reusedHoldings _ = 0
      unfold reusedHoldings takeReleasable
      rw [reused]
      rfl
  | some tree =>
    constructor
    · exact SearchHandleBatch.holdings_append _ _
    · rfl

def frame (task : RootTask G C F) : RootTask G C F :=
  { task with nodes := [], evalCount := 0 }

end RootTask

/-! ## Changes of the tree -/

/-- The computation changes nothing but the tree. -/
abbrev TreeOnly {α : Type} (computation : RootEffect G C F α) : Prop :=
  computation.Keeps RootTask.frame

section TreeOnly

variable {α : Type}

variable {τ : Type} {view : RootTask G C F → τ}

theorem keeps_internal (message : String) : (internal message : RootEffect G C F α).Keeps view :=
  keeps_throw _

theorem keeps_require (value : Option α) (failure : SearchFailure F) :
    (require value failure : RootEffect G C F α).Keeps view := by
  cases value with
  | none => exact keeps_throw failure
  | some value => exact keeps_pure value

theorem keeps_settled (result : Except (SearchFailure F) α) :
    (settled result : RootEffect G C F α).Keeps view := by
  cases result with
  | error failure => exact keeps_throw failure
  | ok value => exact keeps_pure value

theorem keeps_evaluated (result : Except (EvalError F) α) :
    (evaluated result : RootEffect G C F α).Keeps view := by
  cases result with
  | error failure => exact keeps_throw _
  | ok value => exact keeps_pure value

theorem treeOnly_setNodes (nodes : List (Node G C F)) : TreeOnly (setNodes nodes) :=
  keeps_modify fun _ => rfl

theorem treeOnly_pushNode (node : Node G C F) : TreeOnly (pushNode node) :=
  keeps_modify fun _ => rfl

theorem treeOnly_countEval : TreeOnly (countEval : RootEffect G C F _) :=
  keeps_modify fun _ => rfl

theorem keeps_nodeAt (index : Nat) : (nodeAt index : RootEffect G C F _).Keeps view :=
  Keeps.bind keeps_get fun _ => keeps_require _ _

theorem keeps_edgeAt (node action : Nat) : (edgeAt node action : RootEffect G C F _).Keeps view :=
  Keeps.bind (keeps_nodeAt node) fun _ => keeps_require _ _

theorem treeOnly_modifyNode (index : Nat) (change : Node G C F → Node G C F) :
    TreeOnly (modifyNode index change) := by
  refine Keeps.bind (keeps_nodeAt index) fun _ => ?_
  exact Keeps.bind keeps_get fun _ => treeOnly_setNodes _

theorem treeOnly_modifyEdge (node action : Nat) (change : ActionEdge G F → ActionEdge G F) :
    TreeOnly (modifyEdge (C := C) node action change) := by
  refine Keeps.bind (keeps_edgeAt node action) fun _ => ?_
  exact treeOnly_modifyNode node _

variable [Scalar F]

theorem treeOnly_maskAction (node action : Nat) :
    TreeOnly (maskAction node action : RootEffect G C F _) :=
  treeOnly_modifyNode node _

theorem treeOnly_backupSteps (steps : List PathStep) (value : F) :
    TreeOnly (backupSteps steps value : RootEffect G C F _) := by
  induction steps generalizing value with
  | nil => exact keeps_pure _
  | cons step steps ih =>
    cases step with
    | decision node action flip =>
      refine Keeps.bind (treeOnly_modifyEdge node action _) fun _ => ?_
      exact ih _
    | transform flip => exact ih _

theorem treeOnly_backupAll (outcomes : List (Descent × F)) :
    TreeOnly (backupAll outcomes : RootEffect G C F _) := by
  induction outcomes with
  | nil => exact keeps_pure _
  | cons outcome outcomes ih =>
    obtain ⟨descent, value⟩ := outcome
    refine Keeps.bind (treeOnly_backupSteps _ value) fun _ => ?_
    exact ih

omit [Scalar F] in
theorem treeOnly_installBranch (slot : AttachSlot) (branch : Branch F) :
    TreeOnly (installBranch slot branch : RootEffect G C F _) := by
  cases slot with
  | action node action =>
    refine Keeps.bind (keeps_edgeAt node action) fun edge => ?_
    split
    · exact Keeps.bind (keeps_throw _) fun _ =>
        Keeps.bind (treeOnly_modifyEdge node action _) fun _ =>
          keeps_pure _
    · exact Keeps.bind (treeOnly_modifyEdge node action _) fun _ =>
        keeps_pure _
  | pass node =>
    refine Keeps.bind (keeps_nodeAt node) fun found => ?_
    split
    · exact Keeps.bind (keeps_throw _) fun _ =>
        Keeps.bind (treeOnly_modifyNode node _) fun _ => keeps_pure _
    · exact Keeps.bind (treeOnly_modifyNode node _) fun _ => keeps_pure _

omit [Scalar F] in
theorem treeOnly_targetValue (target : BranchTarget F) :
    TreeOnly (targetValue target : RootEffect G C F _) := by
  cases target with
  | node index => exact Keeps.bind (keeps_nodeAt index) fun _ => keeps_pure _
  | terminal value => exact keeps_pure value

omit [Scalar F] in
theorem treeOnly_attachTarget (descent : Descent) (attach : Attach) (target : BranchTarget F) :
    TreeOnly (attachTarget descent attach target : RootEffect G C F _) := by
  refine Keeps.bind (treeOnly_installBranch _ _) fun step => ?_
  refine Keeps.bind (treeOnly_targetValue target) fun value => ?_
  exact keeps_pure _

theorem treeOnly_completeWaveEval (descent : Descent) (board : Board G)
    (attach : Attach) (expansion : Expansion C F) (request : EvalRequest F)
    (output : EvalOutput F) :
    TreeOnly (completeWaveEval descent board attach expansion request output) := by
  refine Keeps.bind (keeps_evaluated _) fun _ => ?_
  refine Keeps.bind keeps_get fun task => ?_
  refine Keeps.bind (treeOnly_pushNode _) fun _ => ?_
  refine Keeps.bind treeOnly_countEval fun _ => ?_
  exact treeOnly_attachTarget descent attach _

theorem treeOnly_completeTerminalEval (descent : Descent) (attach : Attach)
    (request : EvalRequest F) (output : EvalOutput F) :
    TreeOnly (completeTerminalEval descent attach request output : RootEffect G C F _) := by
  refine Keeps.bind (keeps_evaluated _) fun _ => ?_
  refine Keeps.bind treeOnly_countEval fun _ => ?_
  exact treeOnly_attachTarget descent attach _

theorem treeOnly_followBranch (config : GumbelMctsConfig F)
    (descent : Descent) (node : Node G C F) (action : Nat)
    (edge : ActionEdge G F) (branch : Branch F) :
    TreeOnly (followBranch config descent node action edge branch) := by
  unfold followBranch
  dsimp only
  split
  · exact keeps_pure _
  split
  · exact Keeps.bind (treeOnly_maskAction _ action) fun _ => keeps_pure _
  · exact keeps_pure _

end TreeOnly

/-! ## Changes of the handles -/

/-- The computation takes `income` and hands `outgo` back. -/
abbrev Conserves {α : Type} (income : Holdings G C)
    (computation : RootEffect G C F α) (outgo : α → Holdings G C) : Prop :=
  computation.Balances SearchFailure.Kept RootTask.holdings income outgo

/-- The computation leaves the handles alone. -/
abbrev Neutral {α : Type} (computation : RootEffect G C F α) : Prop :=
  Conserves 0 computation fun _ => 0

section Handles

variable {α : Type}

theorem neutral_of_keeps {computation : RootEffect G C F α}
    (keeps : computation.Keeps fun task => task) : Neutral computation :=
  Keeps.balances (keeps.comp RootTask.holdings)

theorem TreeOnly.neutral {computation : RootEffect G C F α}
    (treeOnly : TreeOnly computation) : Neutral computation :=
  Keeps.balances (treeOnly.comp RootTask.holdings)

variable {income : Holdings G C}

theorem conserves_get : Conserves (F := F) income get fun _ => income :=
  fun _ => balancedAt_of_ok rfl rfl

theorem conserves_nodeAt (index : Nat) :
    Conserves (F := F) income (nodeAt index) fun _ => income := by
  refine Balances.bind conserves_get fun task => ?_
  cases task.nodes[index]? with
  | none => exact balances_throw fun kept => absurd rfl kept.1
  | some node => exact balances_pure rfl

section

variable {change : RootTask G C F → RootTask G C F}
  (same : ∀ task, (change task).holdings = task.holdings)
include same

theorem conserves_modify : Conserves income (modify change) fun _ => income :=
  balances_modify fun task => congrArg (· + income) (same task)

theorem neutral_modify : Neutral (modify change) :=
  conserves_modify same

end

theorem neutral_setState (state : RootTaskState G C F) : Neutral (setState state) :=
  neutral_modify fun _ => rfl

theorem neutral_nextToken : Neutral (nextToken : RootEffect G C F _) :=
  fun _ => balancedAt_of_ok rfl rfl

theorem conserves_createGraph (graph : G) :
    Conserves (C := C) (F := F) (graphOf graph) (createGraph graph) fun _ => 0 := by
  refine balances_modify fun task => ?_
  have grown : holdingsOf (task.createdGraphs ++ [graph]) task.createdCandidates =
        holdingsOf task.createdGraphs task.createdCandidates + graphOf graph := by
    rw [graphOf, ← holdingsOf_append, append_nil]
  change holdingsOf (task.createdGraphs ++ [graph]) task.createdCandidates +
    holdingsOf task.speculativeGraphs [] + task.releasable.holdings + task.reusedHoldings + 0 = _
  rw [grown]
  unfold RootTask.holdings
  abel

theorem conserves_createCandidates (candidates : List C) :
    Conserves (G := G) (F := F) (holdingsOf [] candidates)
      (createCandidates candidates) fun _ => 0 := by
  refine balances_modify fun task => ?_
  have grown : holdingsOf task.createdGraphs (task.createdCandidates ++ candidates) =
        holdingsOf task.createdGraphs task.createdCandidates + holdingsOf [] candidates := by
    rw [← holdingsOf_append, append_nil]
  change holdingsOf task.createdGraphs (task.createdCandidates ++ candidates) +
      holdingsOf task.speculativeGraphs [] + task.releasable.holdings + task.reusedHoldings + 0 = _
  rw [grown]
  unfold RootTask.holdings
  abel

theorem conserves_speculateGraph (graph : G) :
    Conserves (C := C) (F := F) (graphOf graph) (speculateGraph graph) fun _ => 0 := by
  refine balances_modify fun task => ?_
  have grown : holdingsOf (task.speculativeGraphs ++ [graph]) ([] : List C) =
        holdingsOf task.speculativeGraphs [] + graphOf graph := by
    rw [graphOf, ← holdingsOf_append, append_nil]
  change holdingsOf task.createdGraphs task.createdCandidates +
    holdingsOf (task.speculativeGraphs ++ [graph]) [] +
      task.releasable.holdings + task.reusedHoldings + 0 = _
  rw [grown]
  unfold RootTask.holdings
  abel

theorem conserves_releaseGraph (graph : G) :
    Conserves (C := C) (F := F) (graphOf graph) (releaseGraph graph) fun _ => 0 := by
  refine balances_modify fun task => ?_
  have grown : holdingsOf (task.releasable.graphs ++ [graph]) task.releasable.candidates =
        task.releasable.holdings + graphOf graph := by
    rw [SearchHandleBatch.holdings, graphOf, ← holdingsOf_append, append_nil]
  change holdingsOf task.createdGraphs task.createdCandidates +
    holdingsOf task.speculativeGraphs [] + holdingsOf (task.releasable.graphs ++ [graph])
        task.releasable.candidates + task.reusedHoldings + 0 = _
  rw [grown]
  unfold RootTask.holdings
  abel

theorem neutral_releaseAllCreated : Neutral (releaseAllCreated : RootEffect G C F _) :=
  neutral_modify RootTask.holdings_releaseAllCreated

variable [DecidableEq G]

theorem holdingsOf_erase {graph : G} {graphs} (member : graph ∈ graphs) (candidates : List C) :
    holdingsOf (graphs.erase graph) candidates + graphOf graph = holdingsOf graphs candidates := by
  unfold graphOf
  rw [← holdingsOf_append, append_nil]
  unfold holdingsOf
  have same : (graphs.erase graph ++ [graph]).Perm graphs :=
    (perm_append_singleton graph _).trans (perm_cons_erase member).symm
  rw [Multiset.coe_eq_coe.mpr same]

theorem conserves_consumeSpeculativeGraph (graph : G) :
    Conserves (C := C) (F := F) 0 (consumeSpeculativeGraph graph) fun _ => graphOf graph := by
  intro task
  by_cases member : graph ∈ task.speculativeGraphs
  · have done : (consumeSpeculativeGraph graph).perform task = (.ok ⟨⟩, { task with
          speculativeGraphs := task.speculativeGraphs.erase graph }) := by
      refine perform_bind_ok (perform_get task) |>.trans ?_
      rw [if_pos member]
      rfl
    refine balancedAt_of_ok done ?_
    change holdingsOf task.createdGraphs task.createdCandidates +
      holdingsOf (task.speculativeGraphs.erase graph) [] +
        task.releasable.holdings + task.reusedHoldings + graphOf graph = _
    unfold RootTask.holdings
    rw [← holdingsOf_erase member]
    abel
  · have failed : (consumeSpeculativeGraph graph).perform task =
        (.error (.internal "untracked speculative symmetric graph"), task) := by
      refine perform_bind_ok (perform_get task) |>.trans ?_
      rw [if_neg member]
      rfl
    refine balancedAt_of_error failed fun _ => ?_
    rw [add_zero]

theorem neutral_discardSpeculativeGraph (graph : G) :
    Neutral (discardSpeculativeGraph graph : RootEffect G C F _) := by
  refine Balances.bind (conserves_consumeSpeculativeGraph graph) fun _ => ?_
  exact conserves_releaseGraph graph

end Handles

end GraphZero.Search
