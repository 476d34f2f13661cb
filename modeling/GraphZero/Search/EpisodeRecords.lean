import GraphZero.Search.RootBoards

/-!
# What an episode keeps on record

The players' steps, the contexts they are in and the contexts they have left
change only when a turn ends.  This holds of rounds that fail as well.
-/

namespace GraphZero.Search

open Engine Foundation Effect

variable {G C F : Type}

/-- The record is the same, up to contexts that became known. -/
structure EpisodeTask.Learns (task final : EpisodeTask G C F) : Prop where
  config : final.config = task.config
  identity : final.identity = task.identity
  visited : final.visited = task.visited
  actors : ∀ player, ∃ context,
    final.actors.of player = { task.actors.of player with context := context } ∧
      ∀ known, (task.actors.of player).context = some known → context = some known

/-- What a round does to the record: nothing, or it ends a turn. -/
inductive EpisodeTask.Records [Scalar F] [DecidableEq G] [DecidableEq C]
    (fuel : Nat) (task final : EpisodeTask G C F) : Prop
  | kept (learns : task.Learns final)
  | turned {rootTask next result} (state : task.state = .root rootTask)
    (polls : Polls fuel rootTask (.done result) next) (turn : result.player = task.player)
    (learns : (task.leaveRoot next result).Learns final)

section Records

variable {task mid final : EpisodeTask G C F}

theorem learns_of_same (config : final.config = task.config)
    (identity : final.identity = task.identity)
    (visited : final.visited = task.visited)
    (actors : final.actors = task.actors) : task.Learns final :=
  ⟨config, identity, visited, fun player =>
    ⟨(task.actors.of player).context, by rw [actors], fun _ known => known⟩⟩

theorem EpisodeTask.Learns.refl (task : EpisodeTask G C F) : task.Learns task :=
  learns_of_same rfl rfl rfl rfl

theorem EpisodeTask.Learns.trans (first : task.Learns mid)
    (second : mid.Learns final) : task.Learns final := by
  refine ⟨second.config.trans first.config, second.identity.trans first.identity,
    second.visited.trans first.visited, fun player => ?_⟩
  obtain ⟨between, here, keeps⟩ := first.actors player
  obtain ⟨context, there, remains⟩ := second.actors player
  rw [here] at there remains
  exact ⟨context, there, fun known found => remains known (keeps known found)⟩

theorem learns_appendReleasable (task : EpisodeTask G C F) (handles : SearchHandleBatch G C) :
    task.Learns (task.appendReleasable handles) :=
  learns_of_same rfl rfl rfl rfl

theorem learns_drainRoot (all : Bool) (task : EpisodeTask G C F) :
    task.Learns (task.drainRoot all) := by
  unfold EpisodeTask.drainRoot
  split
  · exact learns_of_same rfl rfl rfl rfl
  · exact .refl task

theorem learns_takeReleasable (task : EpisodeTask G C F) : task.Learns task.takeReleasable.2 :=
  (learns_drainRoot false task).trans (learns_of_same rfl rfl rfl rfl)

theorem learns_takeAllHandles (task : EpisodeTask G C F) : task.Learns task.takeAllHandles.2 :=
  ((learns_drainRoot true task).trans (learns_takeReleasable _)).trans
    (learns_of_same rfl rfl rfl rfl)

theorem learns_started (task : EpisodeTask G C F) : task.Learns task.started := by
  unfold EpisodeTask.started
  split
  · exact learns_of_same rfl rfl rfl rfl
  split
  · exact learns_of_same rfl rfl rfl rfl
  · exact learns_of_same rfl rfl rfl rfl

theorem learns_turned (task : EpisodeTask G C F) : task.Learns task.turned := by
  unfold EpisodeTask.turned
  split
  · exact learns_of_same rfl rfl rfl rfl
  · exact .refl task

theorem alignContext_known {carried live aligned known}
    (agrees : alignContext (F := F) carried live = .ok aligned) (found : live = some known) :
    aligned = some known := by
  subst found
  cases carried with
  | none =>
    cases agrees
    rfl
  | some other =>
    unfold alignContext at agrees
    dsimp only at agrees
    split at agrees
    · cases agrees
    · cases agrees
      rfl

theorem learns_continued [DecidableEq G] {reused aligned contexts}
    (aligns : Aligns reused task.board contexts aligned) :
    task.Learns (task.continued aligned contexts) := by
  cases aligns with
  | aligned head board agrees known =>
    refine ⟨rfl, rfl, rfl, fun player => ⟨contexts.of player, ?_,
      fun found here => alignContext_known (agrees player) ?_⟩⟩
    · cases player with
      | one | two => rfl
    · cases player with
      | one | two => exact here

variable [Scalar F] [DecidableEq G] [DecidableEq C] {fuel : Nat}

theorem EpisodeTask.Records.learns (records : task.Records fuel mid)
    (learns : mid.Learns final) : task.Records fuel final := by
  cases records with
  | kept before => exact .kept (before.trans learns)
  | turned state polls turn before => exact .turned state polls turn (before.trans learns)

omit [Scalar F] [DecidableEq C] in
theorem learns_startReused {reused} : (startReused reused).LeavesAt (task.Learns) task := by
  refine LeavesAt.bind (learns_turned task) fun _ next same learns => ?_
  refine leavesAt_get_bind ?_
  cases ran : (alignRootBoard next.board).perform reused with
  | mk aligned last =>
    cases aligned with
    | error failure => exact learns.trans (learns_of_same rfl rfl rfl rfl)
    | ok contexts =>
      dsimp only
      split
      · exact learns.trans (learns_of_same rfl rfl rfl rfl)
      · exact learns.trans (learns_continued (aligns_of_alignRootBoard ran))

omit [Scalar F] [DecidableEq G] [DecidableEq C] in
theorem learns_of_finishTurn_error {result failure}
    (failed : (finishTurn result).perform task = (.error failure, final)) :
    task.Learns final := by
  replace failed := (perform_bind_ok (perform_get task)).symm.trans failed
  cases result with
  | pass player context =>
    dsimp only at failed
    split at failed
    · cases failed
      exact .refl task
    · cases failed
  | action result =>
    dsimp only at failed
    split at failed
    · split at failed
      · cases failed
        exact learns_of_same rfl rfl rfl rfl
      · cases failed
        exact .refl task
    · cases failed

omit [DecidableEq C] in
theorem leaves_finishRootTask {good rootTask result}
    (keeps : ∀ mid next, good mid → mid.Learns next → good next) (here : good task)
    (turned : result.player = task.player → good (task.afterTurn result)) :
    (finishRootTask rootTask result).LeavesAt good task := by
  refine leavesAt_get_bind ?_
  split
  · exact keeps _ _ here (learns_of_same rfl rfl rfl rfl)
  have finished : (finishTurn result).LeavesAt good task := by
    unfold LeavesAt
    rcases done : (finishTurn result).perform task with ⟨failure | value, next⟩
    · exact keeps _ _ here (learns_of_finishTurn_error done)
    · obtain ⟨same, rfl⟩ := finishTurn_eq_ok done
      exact turned same
  refine LeavesAt.attempt_bind finished fun outcome next _ good => ?_
  cases outcome with
  | error failure => exact keeps _ _ good (learns_of_same rfl rfl rfl rfl)
  | ok value =>
    refine leavesAt_get_bind ?_
    cases (takeReusedTask next.visited).perform rootTask with
    | mk reused last =>
      have left : (abandonRoot last).LeavesAt _ next :=
        keeps _ _ good (learns_of_same rfl rfl rfl rfl)
      refine LeavesAt.bind left fun _ _ _ good => ?_
      cases reused with
      | error failure => exact good
      | ok carried =>
        cases carried with
        | none => exact good
        | some reused => exact keeps _ _ good learns_startReused

theorem leaves_pollRoot {rootTask good}
    (keeps : ∀ mid next, good mid → mid.Learns next → good next) (here : good task)
    (turned : ∀ result next, Polls fuel rootTask (.done result) next → result.player = task.player →
        good (EpisodeTask.afterTurn (task.appendReleasable next.takeReleasable.1) result)) :
    (pollRoot fuel rootTask).LeavesAt good task := by
  unfold pollRoot
  cases ran : (RootTask.poll fuel).perform rootTask with
  | mk polled next =>
    cases polled with
    | error failure => exact keeps _ _ here (learns_of_same rfl rfl rfl rfl)
    | ok polled =>
      have drained := keeps _ _ here (learns_appendReleasable task next.takeReleasable.1)
      refine LeavesAt.bind drained fun _ mid same held => ?_
      cases same
      cases polled with
      | work work | blocked => exact keeps _ _ held (learns_of_same rfl rfl rfl rfl)
      | done result =>
        refine LeavesAt.bind ?_ fun _ _ _ good => good
        refine leaves_finishRootTask keeps held fun same => ?_
        exact turned result next (polls_of_poll ran) same

theorem records_episodeRound (fuel : Nat) (task : EpisodeTask G C F) :
    (episodeRound fuel).LeavesAt (task.Records fuel) task := by
  refine leavesAt_get_bind ?_
  have emptied : (setEpisodeState .done).LeavesAt (task.Records fuel) task :=
    .kept (learns_of_same rfl rfl rfl rfl)
  refine LeavesAt.bind emptied fun _ next same kept => ?_
  cases same
  cases state : task.state with
  | turn => exact kept.learns (learns_started _)
  | root rootTask =>
    refine leaves_pollRoot (fun _ _ => EpisodeTask.Records.learns) kept ?_
    intro result next polls turn
    exact .turned state polls turn (.refl _)
  | measurePair | doneResult _ | done => exact kept.learns (learns_of_same rfl rfl rfl rfl)

omit [DecidableEq C] in
theorem learns_resumeRoot {pending result} :
    (resumeRoot pending result).LeavesAt task.Learns task := by
  refine leavesAt_get_bind ?_
  cases task.state with
  | root rootTask =>
    have emptied : task.Learns { task with
        rootPending := task.rootPending.erase pending, state := .done } :=
      learns_of_same rfl rfl rfl rfl
    refine LeavesAt.bind emptied fun _ next same learns => ?_
    cases (RootTask.resume pending.inner result).perform rootTask with
    | mk resumed last =>
      cases resumed with
      | error failure => exact learns.trans (learns_of_same rfl rfl rfl rfl)
      | ok value => exact learns.trans (learns_of_same rfl rfl rfl rfl)
  | turn | measurePair | doneResult _ | done => exact .refl task

omit [DecidableEq C] in
theorem learns_of_resume_error {token result failure}
    (failed : (EpisodeTask.resume token result).perform task =
      (.error failure, final)) : task.Learns final := by
  unfold EpisodeTask.resume at failed
  rw [perform_get_bind] at failed
  cases found : task.rootPending.find? (·.outer == token) with
  | some pending =>
    rw [found] at failed
    exact learns_resumeRoot.eq failed
  | none =>
    rw [found] at failed
    rcases resumeMeasure_eq_error failed with rfl | rfl
    · exact .refl _
    · exact learns_of_same rfl rfl rfl rfl

end Records

end GraphZero.Search
