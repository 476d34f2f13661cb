import GraphZero.Search.EpisodeSystem

/-!
# The phases of a root task

A root task expands and evaluates its root before it has a tree, and waits
for nothing else while its simulations run.  These change the tree and the
lists of handles only.
-/

namespace GraphZero.Search

open Engine Foundation Effect

variable {G C F : Type}

/-- The task without its tree, its handles and its counters. -/
def RootTask.setting (task : RootTask G C F) : RootTask G C F :=
  { task with
    nodes := []
    createdGraphs := []
    speculativeGraphs := []
    createdCandidates := []
    releasable := .empty
    evalCount := 0
    nextToken := 0
    state := .done }

section Steps

variable {task final : RootTask G C F}

theorem RootTask.AlikeTree.setting_eq (alike : task.AlikeTree final) :
    final.setting = task.setting := by
  rw [alike.others]
  rfl

variable [Scalar F]

theorem Applies.setting_eq {descent index action applied next}
    (applies : Applies task descent index action applied final next) :
    final.setting = task.setting := by
  cases applies with
  | turnedBack | created => rfl

theorem Advances.setting_eq {state next work} (advances : Advances task state work final next) :
    final.setting = task.setting := by
  cases advances with
  | complete valid installs found => exact installs.alikeTree.setting_eq
  | completeTerminal valid installs => exact installs.alikeTree.setting_eq
  | pass | follow | turnBack | stop | apply | expand | terminal | eval
  | wait => rfl

variable [DecidableEq G]

theorem Receives.setting_eq {preflight state next result}
    (receives : Receives preflight task state result final next) :
    final.setting = task.setting := by
  cases receives with
  | applied late applies => exact applies.setting_eq
  | speculated | stuck | expanded | evaluated | terminalEvaluated => rfl

variable {wave last : WaveRun G C F}

theorem WaveStep.setting_eq {work} (step : WaveStep task wave work final last) :
    final.setting = task.setting := by
  cases step with
  | advance split advances => exact advances.setting_eq
  | install split held applies => exact applies.setting_eq
  | settle ended counted => exact (alikeTree_of_backupAll counted).setting_eq
  | launch | discard | resolved => rfl

theorem WaveRuns.setting_eq (runs : WaveRuns task wave final last) : final.setting = task.setting :=
  runs.keeps (fun mid _ => mid.setting = task.setting)
    (fun _ _ _ _ inside step => step.setting_eq.trans inside) rfl

theorem Hands.setting_eq {work} (hands : Hands task wave (some work) final last) :
    final.setting = task.setting := by
  obtain ⟨mid, between, runs, step⟩ := hands
  exact step.setting_eq.trans runs.setting_eq

end Steps

def RootTaskState.opening : RootTaskState G C F → Bool
  | resolve _ | eval _ _ => true
  | waveRunning _ | doneResult _ | done => false

structure RootTask.Phased (task : RootTask G C F) : Prop where
  opening : task.pending.isSome = true ∨ task.state.opening = true →
    task.nodes = []
  running : ∀ wave, task.state = .waveRunning wave → task.pending = none
  unused : task.reused = none

/-- A task that is not done after a poll is in one of its phases. -/
def PhasedAfter : SearchPoll G C F (SymmetricRootResult G C F) → RootTask G C F → Prop
  | .work _, final | .blocked, final => final.Phased
  | .done _, _ => True

section Phases

variable [Scalar F] [DecidableEq G] [DecidableEq C] {task final : RootTask G C F}

omit [Scalar F] [DecidableEq G] [DecidableEq C] in
theorem RootTask.Phased.running_of_setting {wave} (idle : task.pending = none)
    (unused : task.reused = none) (same : final.setting = task.setting) :
    { final with state := .waveRunning wave }.Phased where
  opening := by
    have pending : final.pending = task.pending := (congrArg RootTask.pending same :)
    rintro (waits | opens)
    · rw [pending, idle] at waits
      cases waits
    · cases opens
  running _ _ := (congrArg RootTask.pending same :).trans idle
  unused := (congrArg RootTask.reused same :).trans unused

theorem Polls.phased {fuel polled} (phased : task.Phased) (polls : Polls fuel task polled final) :
    PhasedAfter polled final := by
  have opened {pending : Option (RootTaskPending G C F)} (opening : task.state.opening = true) :
      { task.tick with state := .done, pending }.Phased :=
    ⟨fun _ => phased.opening (.inr opening), fun _ running => (by cases running), phased.unused⟩
  cases polls with
  | blocked waits => exact phased
  | resolve idle state turn => exact opened (state ▸ rfl)
  | eval idle state asked => exact opened (state ▸ rfl)
  | wave idle state ends =>
    cases ends with
    | work hands => exact .running_of_setting idle phased.unused hands.setting_eq
    | blocked runs waits => exact .running_of_setting idle phased.unused runs.setting_eq
    | finished runs ended finish =>
      obtain ⟨result, rfl, finishes⟩ := finishes_of_finishRoot finish
      trivial
  | result idle state => trivial

omit [DecidableEq C] in
theorem Resumes.phased {token result} (phased : task.Phased)
    (resumes : Resumes task token result final) :
    final.Phased := by
  cases resumes with
  | wave running split waits receives =>
    exact .running_of_setting (phased.running _ running) phased.unused receives.setting_eq
  | pass pending known empty | expand pending known offered =>
    exact ⟨fun _ => phased.opening (.inl (pending ▸ rfl)),
      fun _ running => (by cases running), phased.unused⟩
  | eval pending valid started =>
    refine ⟨?_, fun _ _ => rfl, phased.unused⟩
    rintro (waits | opens)
    · cases waits
    · cases opens

omit [DecidableEq G] [DecidableEq C] in
theorem Reuses.phased {left reused visited} (reuses : Reuses task visited (some reused) left) :
    reused.Phased := by
  cases reuses with
  | @subtree tree root run carried head started =>
    have same : (reusedTask task visited tree root).pending = none ∧
        (reusedTask task visited tree root).reused = none := by
      unfold reusedTask refreshReusedNoBacktrackMasks
      split
      · exact ⟨rfl, rfl⟩
      · exact ⟨rfl, rfl⟩
    refine ⟨?_, fun _ _ => same.1, same.2⟩
    rintro (waits | opens)
    · rw [same.1] at waits
      cases waits
    · cases opens

omit [Scalar F] [DecidableEq C] in
theorem Aligns.phased {expected contexts} (phased : task.Phased)
    (aligns : Aligns task expected contexts final) :
    final.Phased := by
  cases aligns with
  | aligned head board agrees known =>
    refine ⟨fun opens => ?_, phased.running, phased.unused⟩
    have none := phased.opening opens
    rw [none] at head
    cases head

omit [Scalar F] [DecidableEq G] [DecidableEq C] in
theorem RootTask.Phased.takeReleasable (phased : task.Phased) : task.takeReleasable.2.Phased :=
  ⟨phased.opening, phased.running, phased.unused⟩

omit [Scalar F] [DecidableEq G] [DecidableEq C] in
theorem phased_rootTask (task : EpisodeTask G C F) : task.rootTask.Phased :=
  ⟨fun _ => rfl, fun _ running => (by cases running), rfl⟩

end Phases

end GraphZero.Search
