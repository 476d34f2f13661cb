import GraphZero.Search.MctsBacking
import GraphZero.Search.MctsEpisode
import GraphZero.Search.RootHandles

/-!
# The handles of a single-agent episode

Every handle that an episode receives is in one of its lists until it is given
back or reported.  After a move, the graph of the chosen node goes on the path
and what the next search refers to stays.
-/

namespace GraphZero.Search

open Engine Foundation Effect List

variable {R G C F : Type}

/-! ## Parting the handles of a move -/

section Partition

variable {α : Type} [DecidableEq α]

open MctsEpisodeTask

theorem perm_splitHandles (selected carried handles : List α) :
    ((splitHandles selected carried handles).1 ++ (splitHandles selected carried handles).2.1 ++
        (splitHandles selected carried handles).2.2).Perm handles := by
  induction handles generalizing selected carried with
  | nil => exact .nil
  | cons handle rest ih =>
    unfold splitHandles
    split
    · exact (ih (selected.erase handle) carried).cons handle
    split
    · refine List.Perm.trans ?_ ((ih selected (carried.erase handle)).cons handle)
      rw [append_assoc, append_assoc, cons_append]
      exact perm_middle
    · refine List.Perm.trans perm_middle ?_
      exact (ih selected carried).cons handle

theorem count_path_splitHandles (selected carried handles : List α) (handle : α) :
    (splitHandles selected carried handles).1.count handle =
      min (handles.count handle) (selected.count handle) := by
  induction handles generalizing selected carried with
  | nil => exact (Nat.zero_min _).symm
  | cons first rest ih =>
    unfold splitHandles
    by_cases member : first ∈ selected
    · have one := count_pos_iff.mpr member
      rw [if_pos member]
      rw [count_cons, ih, count_cons, count_erase]
      by_cases same : first = handle
      · subst same
        simp
        omega
      · simp [same]
    · have none := count_eq_zero.mpr member
      rw [if_neg member]
      split
      all_goals
        rw [ih, count_cons]
        by_cases same : first = handle
        · subst same
          simp [none]
        · simp [same]

theorem count_next_splitHandles (selected carried handles : List α) (handle : α) :
    (splitHandles selected carried handles).2.1.count handle =
      min (handles.count handle - selected.count handle) (carried.count handle) := by
  induction handles generalizing selected carried with
  | nil => simp [splitHandles]
  | cons first rest ih =>
    unfold splitHandles
    by_cases member : first ∈ selected
    · have one := count_pos_iff.mpr member
      rw [if_pos member]
      rw [ih, count_cons, count_erase]
      by_cases same : first = handle
      · subst same
        simp
        omega
      · simp [same]
    · have none := count_eq_zero.mpr member
      rw [if_neg member]
      by_cases kept : first ∈ carried
      · have one := count_pos_iff.mpr kept
        rw [if_pos kept]
        rw [count_cons, ih, count_cons, count_erase]
        by_cases same : first = handle
        · subst same
          simp [none]
          omega
        · simp [same]
      · have zero := count_eq_zero.mpr kept
        rw [if_neg kept]
        rw [ih, count_cons]
        by_cases same : first = handle
        · subst same
          simp [zero]
        · simp [same]

theorem path_splitHandles {selected : α} {carried handles} (there : selected ∈ handles) :
    (splitHandles [selected] carried handles).1 = [selected] := by
  have same : (splitHandles [selected] carried handles).1.Perm [selected] := by
    rw [perm_iff_count]
    intro handle
    rw [count_path_splitHandles, Nat.min_eq_right]
    by_cases here : handle = selected
    · rw [here, count_singleton_self]
      exact count_pos_iff.mpr there
    · rw [count_eq_zero.mpr fun member =>
        here (mem_singleton.mp member)]
      exact Nat.zero_le _
  exact perm_singleton.mp same

theorem path_splitHandles_nil (carried handles : List α) :
    (splitHandles [] carried handles).1 = [] := by
  refine eq_nil_iff_forall_not_mem.mpr fun handle member => ?_
  have one := count_pos_iff.mpr member
  rw [count_path_splitHandles] at one
  simp at one

theorem below_splitHandles {selected} {below handles : List α}
    (there : ((selected :: below : List α) : Multiset α) ≤ handles) :
    (below : Multiset α) ≤ (splitHandles [selected] (selected :: below) handles).2.1 := by
  rw [Multiset.le_iff_count] at there ⊢
  intro handle
  have enough := there handle
  rw [Multiset.coe_count, Multiset.coe_count, count_cons] at enough
  rw [Multiset.coe_count, Multiset.coe_count, count_next_splitHandles,
    count_cons, count_cons, count_nil]
  omega

end Partition

/-! ## The handles of an episode -/

/-- The graph that a step comes to; a stop comes to none. -/
def MctsStep.graph? (step : MctsStep G C F) : Option G :=
  if step.action.isStop then none else some step.after

/-- The graphs that the steps have come to, one after the other. -/
def chosenGraphs (steps : List (MctsStep G C F)) : List G :=
  steps.filterMap MctsStep.graph?

theorem chosenGraphs_concat (steps : List (MctsStep G C F)) (step : MctsStep G C F) :
    chosenGraphs (steps ++ [step]) = chosenGraphs steps ++ step.graph?.toList := by
  unfold chosenGraphs
  rw [filterMap_append]
  cases graph : step.graph? with
  | none => rw [filterMap_cons_none graph]; rfl
  | some graph' => rw [filterMap_cons_some graph]; rfl

def MctsEpisode.created (episode : MctsEpisode G C F) : Holdings G C :=
  holdingsOf episode.createdGraphs episode.createdCandidates

namespace MctsEpisodeTask

def holdings (task : MctsEpisodeTask R G C F) : Holdings G C :=
  task.releasable.holdings + holdingsOf task.pathGraphs [] +
    holdingsOf task.moveGraphs task.moveCandidates

/-- The episode that is done and not reported yet. -/
def unreported (task : MctsEpisodeTask R G C F) : Option (MctsEpisode G C F) :=
  match task.state with
  | .doneResult episode => some episode
  | _ => none

theorem unreported_eq_none {task : MctsEpisodeTask R G C F}
    (other : ∀ episode, task.state ≠ .doneResult episode) :
    task.unreported = none := by
  unfold unreported
  split
  · next episode same => exact absurd same (other episode)
  · rfl

inductive Holds (task : MctsEpisodeTask R G C F) : MctsRootTask R G C F → Prop
  | state {rootTask}
    (here : task.state =
    .root rootTask) : Holds task rootTask
  | pending {rootTask token inner} (out : task.pending = some (.root token inner rootTask)) :
    Holds task rootTask

section

variable (task : MctsEpisodeTask R G C F)
include task

theorem holdings_takeReleasable : task.takeReleasable.1.holdings + task.takeReleasable.2.holdings =
      task.holdings := by
  change task.releasable.holdings + (SearchHandleBatch.empty.holdings +
    holdingsOf task.pathGraphs [] + holdingsOf task.moveGraphs task.moveCandidates) = _
  unfold holdings
  abel

theorem holdings_takeAllHandles :
    task.takeAllHandles.1.holdings = task.holdings ∧ task.takeAllHandles.2.holdings = 0 := by
  refine ⟨?_, rfl⟩
  have whole : task.takeAllHandles.1.holdings =
      holdingsOf (task.releasable.graphs ++ task.pathGraphs ++ task.moveGraphs)
        ((task.releasable.candidates ++ []) ++ task.moveCandidates) := by
    rw [append_nil]
    rfl
  rw [whole, holdingsOf_append, holdingsOf_append]
  rfl

theorem holdings_trackCreatedHandles (result : SearchWorkResult G C F) :
    (task.trackCreatedHandles result).holdings = task.holdings + result.holdings := by
  cases result with
  | expand expanded =>
    have grown : holdingsOf task.moveGraphs (task.moveCandidates ++ expanded.handles) =
          holdingsOf task.moveGraphs task.moveCandidates + holdingsOf [] expanded.handles := by
      rw [← holdingsOf_append, append_nil]
    change task.releasable.holdings + holdingsOf task.pathGraphs [] + holdingsOf task.moveGraphs
        (task.moveCandidates ++ expanded.handles) = _
    rw [grown, ← add_assoc]
    rfl
  | apply applied =>
    have grown : holdingsOf (task.moveGraphs ++ [applied.after]) task.moveCandidates =
          holdingsOf task.moveGraphs task.moveCandidates + graphOf applied.after := by
      rw [graphOf, ← holdingsOf_append, append_nil]
    change task.releasable.holdings + holdingsOf task.pathGraphs [] +
      holdingsOf (task.moveGraphs ++ [applied.after]) task.moveCandidates = _
    rw [grown, ← add_assoc]
    rfl
  | measurePair | eval => exact (add_zero _).symm

theorem kept_trackCreatedHandles (result : SearchWorkResult G C F) :
    (task.trackCreatedHandles result).state = task.state ∧
      (task.trackCreatedHandles result).pending = task.pending ∧
        ((task.trackCreatedHandles result).pathGraphs = task.pathGraphs ∧
          (task.trackCreatedHandles result).steps = task.steps) ∧
            ((task.trackCreatedHandles result).moveGraphs : Multiset G) =
              task.moveGraphs + MctsRootTask.resultGraphs result := by
  cases result with
  | expand | eval | measurePair => exact ⟨rfl, rfl, ⟨rfl, rfl⟩, (add_zero _).symm⟩
  | apply applied => exact ⟨rfl, rfl, ⟨rfl, rfl⟩, (Multiset.coe_add _ _).symm⟩

end

section Partition

variable [DecidableEq G] [DecidableEq C]

theorem holdings_partitionMoveHandles (task : MctsEpisodeTask R G C F)
    (carried : SearchHandleBatch G C) (selected : Option G) :
    (task.partitionMoveHandles carried selected).holdings = task.holdings := by
  have graphs := perm_splitHandles selected.toList carried.graphs task.moveGraphs
  have candidates := perm_splitHandles [] carried.candidates task.moveCandidates
  rw [path_splitHandles_nil, nil_append] at candidates
  unfold holdings
  have moved : holdingsOf task.moveGraphs task.moveCandidates = holdingsOf
        ((splitHandles selected.toList carried.graphs task.moveGraphs).1 ++
          (splitHandles selected.toList carried.graphs task.moveGraphs).2.1 ++
            (splitHandles selected.toList carried.graphs task.moveGraphs).2.2)
        ([] ++ (splitHandles [] carried.candidates task.moveCandidates).2.1 ++
          (splitHandles [] carried.candidates task.moveCandidates).2.2) := by
    unfold holdingsOf
    rw [Multiset.coe_eq_coe.mpr graphs, nil_append, Multiset.coe_eq_coe.mpr candidates]
  rw [moved, holdingsOf_append, holdingsOf_append]
  change holdingsOf (task.releasable.graphs ++ _) (task.releasable.candidates ++ _) +
    holdingsOf (task.pathGraphs ++ _) ([] ++ []) + holdingsOf _ _ = _
  rw [holdingsOf_append, holdingsOf_append]
  unfold SearchHandleBatch.holdings partitionMoveHandles
  abel

theorem path_partition_none (task : MctsEpisodeTask R G C F) (carried : SearchHandleBatch G C) :
    (task.partitionMoveHandles carried none).pathGraphs = task.pathGraphs := by
  refine (congrArg (task.pathGraphs ++ ·)
    (path_splitHandles_nil carried.graphs task.moveGraphs)).trans ?_
  exact append_nil _

theorem path_partition_some {task : MctsEpisodeTask R G C F} (carried : SearchHandleBatch G C)
    {selected} (there : selected ∈ task.moveGraphs) :
    (task.partitionMoveHandles carried (some selected)).pathGraphs =
      task.pathGraphs ++ [selected] :=
  congrArg (task.pathGraphs ++ ·) (path_splitHandles there)

end Partition

/-! ### Rounds -/

/-- What holds of an episode that is under way and was given the graphs
`owned`. -/
structure Sound (owned : List G) (task : MctsEpisodeTask R G C F) : Prop where
  backed : ∀ rootTask, task.Holds rootTask → rootTask.Backed (task.moveGraphs : Multiset G)
  path : task.pathGraphs = owned ++ chosenGraphs task.steps
  quiet : task.unreported = none

/-- The episode is done, and all handles are in its report. -/
structure Reports (owned : List G) (task : MctsEpisodeTask R G C F)
    (episode : MctsEpisode G C F) : Prop where
  state : task.state = .doneResult episode
  idle : task.pending = none
  emptied : task.holdings = 0
  path : ∃ rest, episode.created = holdingsOf (owned ++ chosenGraphs episode.steps) [] + rest

/-- The work that is out is that of the move, or the measurement. -/
def PendingFor (pending : PendingEpisodeWork R G C F) : MctsWork G C F → Prop
  | .search work => ∃ inner rootTask, pending = .root work.token inner rootTask
  | .measure work => ∃ reason, pending = .measure work.token reason

variable {owned : List G} {task : MctsEpisodeTask R G C F}

/-- A failure leaves the handles where they are. -/
def Fails (owned : List G) (task : MctsEpisodeTask R G C F) (given : Holdings G C)
    (_ : SearchFailure F) (final : MctsEpisodeTask R G C F) : Prop :=
  final.holdings = task.holdings + given ∧ final.unreported = none ∧
    final.pathGraphs = owned ++ chosenGraphs final.steps

section Rounds

variable [DecidableEq G] [DecidableEq C] [Scalar F] {strategy : MctsStrategy R G C F}

def AfterRound (owned : List G) (task : MctsEpisodeTask R G C F) :
    Unit ⊕ MctsPoll G C F (MctsEpisode G C F) → MctsEpisodeTask R G C F → Prop
  | .inl (), final | .inr .blocked, final =>
    final.Sound owned ∧ final.holdings = task.holdings ∧ final.pending = none
  | .inr (.work work), final =>
    final.Sound owned ∧ final.holdings = task.holdings ∧
      ∃ pending, final.pending = some pending ∧ PendingFor pending work
  | .inr (.done _), _ => False

omit [DecidableEq G] [DecidableEq C] in
theorem backed_newRootTask (task : MctsEpisodeTask R G C F) (stepIndex : Nat)
    (root : G) (graphs : Multiset G) :
    (task.rootTaskAt stepIndex root).Backed graphs := by
  unfold rootTaskAt
  dsimp only
  split
  · exact (MctsRootTask.backed_new _ _ _ _ graphs).setVisited _
  · exact MctsRootTask.backed_new _ _ _ _ graphs

/-- The search of the next move may go on with the subtree that was kept. -/
def Carries (task : MctsEpisodeTask R G C F) (result : MctsRootResult G C F)
    (reused : Option (MctsRootTask R G C F × SearchHandleBatch G C)) : Prop :=
  ∀ next handles, reused = some (next, handles) →
    ∃ below : List G, handles.graphs = result.selectedAfter :: below ∧
      ((result.selectedAfter :: below : List G) : Multiset G) ≤ task.moveGraphs ∧
        ∀ kept : Multiset G, (below : Multiset G) ≤ kept → next.Backed kept

variable {reused : Option (MctsRootTask R G C F × SearchHandleBatch G C)}
  {rootTask : MctsRootTask R G C F}

omit [DecidableEq G] [DecidableEq C] in
theorem backed_nextState {moved : MctsEpisodeTask R G C F} {stops graphs}
    (carries : stops = false → ∀ next handles, reused = some (next, handles) → next.Backed graphs)
    (here : moved.nextState stops (reused.map Prod.fst) = .root rootTask) :
    rootTask.Backed graphs := by
  unfold nextState at here
  cases stops with
  | true => cases here
  | false =>
    rw [if_neg Bool.false_ne_true] at here
    split at here
    · cases here
    rcases reused with _ | ⟨next, handles⟩
    · cases here
      exact backed_newRootTask _ _ _ _
    · have backed := carries rfl next handles rfl
      obtain rfl := MctsEpisodeState.root.inj here
      split
      · exact backed.setVisited _
      · exact backed

omit [DecidableEq G] [DecidableEq C] in
theorem nextState_ne_doneResult (moved : MctsEpisodeTask R G C F)
    (stops : Bool) (reused : Option (MctsRootTask R G C F))
    (episode : MctsEpisode G C F) :
    moved.nextState stops reused ≠ .doneResult episode := by
  unfold nextState
  split
  · nofun
  split
  · nofun
  · split <;> nofun

variable {result : MctsRootResult G C F}

omit [Scalar F] in
theorem path_takeStep (path : task.pathGraphs = owned ++ chosenGraphs task.steps)
    (there : result.selectedAction.isStop = false → result.selectedAfter ∈ task.moveGraphs)
    (stepRef : SearchStepRef) (carried : SearchHandleBatch G C) :
    ((task.takeStep result (task.stepOf result stepRef)).partitionMoveHandles carried
          (if result.selectedAction.isStop then none
            else some result.selectedAfter)).pathGraphs =
      owned ++ chosenGraphs (task.steps ++ [task.stepOf result stepRef]) := by
  rw [chosenGraphs_concat, ← append_assoc, ← path]
  have graph : (task.stepOf result stepRef).graph? = if result.selectedAction.isStop then none
        else some result.selectedAfter := rfl
  rw [graph]
  cases goes : result.selectedAction.isStop with
  | true =>
    have kept := path_partition_none (task.takeStep result (task.stepOf result stepRef)) carried
    exact Eq.trans kept (append_nil _).symm
  | false =>
    have moved : result.selectedAfter ∈ (task.takeStep result
      (task.stepOf result stepRef)).moveGraphs := there goes
    exact path_partition_some carried moved

theorem endsAt_finishRootResult (idle : task.pending = none)
    (path : task.pathGraphs = owned ++ chosenGraphs task.steps)
    (quiet : task.unreported = none)
    (there : result.selectedAction.isStop = false → result.selectedAfter ∈ task.moveGraphs)
    (carries : result.selectedAction.isStop = false → task.Carries result reused) :
    (finishRootResult result reused).EndsAt (fun _ final => AfterRound owned task (.inl ()) final)
      (Fails owned task 0) task := by
  refine endsAt_get_bind ?_
  dsimp only
  cases SearchStepRef.new (task.currentContext.getD result.rootContext)
      result.selectedActionRef result.selectedAfterContext with
  | error failure => exact endsAt_throw ⟨(add_zero _).symm, quiet, path⟩
  | ok stepRef =>
    have kept := (task.takeStep result (task.stepOf result stepRef)).holdings_partitionMoveHandles
        ((reused.map Prod.snd).getD .empty)
        (if result.selectedAction.isStop then none
          else some result.selectedAfter)
    refine ⟨⟨?_, ?_, ?_⟩, kept, idle⟩
    · rintro rootTask (here | out)
      · exact backed_nextState (fun goes next handles same => by
          obtain ⟨below, carried, enough, backs⟩ := carries goes next handles same
          rw [goes, same]
          refine backs _ ?_
          have stays := below_splitHandles enough
          rw [← carried] at stays
          exact stays) here
      · cases out.symm.trans idle
    · exact path_takeStep path there stepRef _
    · exact unreported_eq_none (nextState_ne_doneResult _ _ _)

omit [DecidableEq G] [DecidableEq C] in
theorem carries_of_reusedRootTask (ended : rootTask.Ended (task.moveGraphs : Multiset G) result)
    (goes : result.selectedAction.isStop = false)
    (done : task.reusedRootTask strategy rootTask result = .ok reused) :
    task.Carries result reused := by
  intro next handles same
  subst same
  unfold reusedRootTask at done
  dsimp only at done
  split at done
  · cases done
  · exact ended.reused goes done

theorem endsAt_finishRootTask (idle : task.pending = none)
    (path : task.pathGraphs = owned ++ chosenGraphs task.steps)
    (quiet : task.unreported = none)
    (ended : rootTask.Ended (task.moveGraphs : Multiset G) result) :
    (finishRootTask strategy rootTask result).EndsAt
      (fun _ final => AfterRound owned task (.inl ()) final)
      (Fails owned task 0) task := by
  have failed (failure : SearchFailure F) : Fails owned task 0 failure task :=
    ⟨(add_zero _).symm, quiet, path⟩
  unfold finishRootTask
  cases rootTask.rootContext with
  | none => exact endsAt_throw (failed _)
  | some rootContext =>
    dsimp only
    split
    · exact endsAt_throw (failed _)
    refine endsAt_get_bind ?_
    cases done : task.reusedRootTask strategy rootTask result with
    | error failure => exact endsAt_throw (failed _)
    | ok reused =>
      exact endsAt_finishRootResult idle path quiet ended.mem
        fun goes => carries_of_reusedRootTask ended goes done

theorem endsAt_pollRoot (idle : task.pending = none)
    (path : task.pathGraphs = owned ++ chosenGraphs task.steps)
    (state : task.state = .done)
    (backed : rootTask.Backed (task.moveGraphs : Multiset G)) (fuel : Nat) :
    (pollRoot strategy fuel rootTask).EndsAt (AfterRound owned task) (Fails owned task 0) task := by
  have quiet : task.unreported = none := by
    refine unreported_eq_none fun episode same => ?_
    cases state.symm.trans same
  unfold pollRoot
  rcases polled : (MctsRootTask.poll strategy fuel).perform rootTask with
    ⟨failure | (work | _ | result), final⟩
  · exact endsAt_throw ⟨(add_zero _).symm, quiet, path⟩
  · have going := (backed.poll fuel).ok polled
    refine ⟨⟨?_, path, quiet⟩, rfl, _, rfl, ?_⟩
    · rintro other (here | out)
      · cases state.symm.trans here
      · cases out
        exact going
    · exact ⟨work.token, final, by rw [SearchWork.token_retokenize]⟩
  · have going := (backed.poll fuel).ok polled
    refine ⟨⟨?_, path, rfl⟩, rfl, idle⟩
    rintro other (here | out)
    · cases here
      exact going
    · cases idle.symm.trans out
  · refine EndsAt.bind (endsAt_finishRootTask idle path quiet
      ((backed.poll fuel).ok polled)) fun _ _ after => ?_
    exact endsAt_pure after

theorem endsAt_round (sound : task.Sound owned) (idle : task.pending = none) (fuel : Nat) :
    (round strategy fuel).EndsAt (AfterRound owned task) (Fails owned task 0) task := by
  have path := sound.path
  refine endsAt_get_bind (endsAt_modify_bind ?_)
  have failed (failure : SearchFailure F) :
      Fails owned task 0 failure { task with state := .done } :=
    ⟨(add_zero _).symm, rfl, path⟩
  cases state : task.state with
  | start =>
    refine ⟨⟨?_, path, ?_⟩, rfl, idle⟩
    · rintro rootTask (here | out)
      · dsimp only at here
        split at here
        · cases here
        · cases here
          exact backed_newRootTask _ _ _ _
      · cases idle.symm.trans out
    · refine unreported_eq_none fun episode => ?_
      dsimp only
      split <;> nofun
  | root rootTask =>
    exact @endsAt_pollRoot R G C F owned { task with state := .done } _ _ _
      strategy rootTask idle path rfl (sound.backed _ (.state state)) fuel
  | measure stopReason =>
    refine ⟨⟨?_, path, rfl⟩, rfl, _, rfl, _, rfl⟩
    rintro rootTask (here | out)
    · cases here
    · cases out
  | doneResult episode =>
    have quiet := sound.quiet
    unfold unreported at quiet
    rw [state] at quiet
    cases quiet
  | done => exact endsAt_throw (failed _)

theorem endsAt_poll (sound : task.Sound owned) (idle : task.pending = none) (fuel : Nat) :
    (poll strategy fuel).EndsAt (fun polled => AfterRound owned task (.inr polled))
    (Fails owned task 0) task := by
  refine endsAt_get_bind ?_
  rw [idle]
  refine endsAt_loop_of_cut (fun _ mid => AfterRound owned task (.inl ()) mid)
    (fun _ mid inside => ?_) (fun _ mid inside => ?_)
    ⟨sound, rfl, idle⟩
  · obtain ⟨sound, same, idle⟩ := inside
    refine EndsAt.mono (endsAt_round sound idle fuel) ?_ ?_
    · rintro (_ | work | _ | episode) final after
      · exact ⟨after.1, after.2.1.trans same, after.2.2⟩
      · exact ⟨after.1, after.2.1.trans same, after.2.2⟩
      · exact ⟨after.1, after.2.1.trans same, after.2.2⟩
      · exact after
    · rintro failure final ⟨kept, rest⟩
      exact ⟨kept.trans (congrArg (· + 0) same), rest⟩
  · exact ⟨inside.2.1.trans (add_zero _).symm, inside.1.quiet, inside.1.path⟩

omit [DecidableEq G] [DecidableEq C] in
theorem endsAt_resumeRoot {token inner} (sound : task.Sound owned)
    (out : task.pending = some (.root token inner rootTask)) (result : SearchWorkResult G C F) :
    (resumeRoot strategy inner rootTask result).EndsAt (fun _ final => final.Sound owned ∧
        final.holdings = task.holdings + result.holdings ∧ final.pending = none)
      (Fails owned task result.holdings) task := by
  refine endsAt_modify_bind ?_
  have backed := sound.backed _ (.pending out)
  obtain ⟨sameState, samePending, path, moved⟩ :=
    ({ task with pending := none } : MctsEpisodeTask R G C F).kept_trackCreatedHandles result
  have tracked := ({ task with
    pending := none } : MctsEpisodeTask R G C F).holdings_trackCreatedHandles result
  have kept := path.1.trans (sound.path.trans (congrArg (owned ++ chosenGraphs ·) path.2.symm))
  rcases resumed : (MctsRootTask.resume strategy inner result).perform
    rootTask with ⟨failure | done, final⟩
  · refine endsAt_throw ⟨tracked, ?_, kept⟩
    unfold unreported
    rw [sameState]
    exact sound.quiet
  · refine ⟨⟨?_, ?_, rfl⟩, tracked, samePending⟩
    · rintro other (here | waits)
      · cases here
        have going := (backed.resume inner result).ok resumed
        rw [← moved] at going
        exact going
      · cases samePending.symm.trans waits
    · exact kept

omit [DecidableEq G] [DecidableEq C] [Scalar F] in
theorem reports_complete (sound : task.Sound owned)
    (stopReason : MctsStopReason) (measure : MeasureResult G F) :
    (complete stopReason measure).EndsAt (fun _ final => ∃ episode : MctsEpisode G C F,
        Reports owned final episode ∧ episode.created = task.holdings)
      (Fails owned task 0) task := by
  have created : (task.completed stopReason measure).created =
      task.holdings := task.holdings_takeAllHandles.1
  refine ⟨task.completed stopReason measure, ⟨rfl, rfl, rfl,
    task.releasable.holdings + holdingsOf task.moveGraphs task.moveCandidates, ?_⟩, created⟩
  rw [created]
  unfold holdings
  rw [sound.path]
  change _ = holdingsOf (owned ++ chosenGraphs task.steps) [] + _
  abel

end Rounds

end MctsEpisodeTask

end GraphZero.Search
