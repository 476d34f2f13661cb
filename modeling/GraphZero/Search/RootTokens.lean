import GraphZero.Foundation.Tickets
import GraphZero.Search.RootHandles
import GraphZero.Search.TurnEnds

/-!
# What a root task waits for

The open tickets of a root task are those of its simulations, or that of the
work before the first wave.  Polling opens the ticket of the work it hands
out, a result closes the ticket it is for, and a task that is done has none.
-/

namespace GraphZero.Search

open Engine Foundation Effect List

variable {G C F : Type}

def WorkToken.ticket (token : WorkToken) (kind : WorkKind) : Nat × WorkKind :=
  (token.value, kind)

def SearchWork.ticket (work : SearchWork G C F) : Nat × WorkKind :=
  work.token.ticket work.kind

/-- The result a simulation waits for. -/
def WaveSimulationState.awaits : WaveSimulationState G C F → Option (Nat × WorkKind)
  | .applyPending token _ _ _ => some (token.ticket .apply)
  | .expandPending token _ _ _ => some (token.ticket .expand)
  | .evalPending token _ _ _ _ _ | .terminalEvalPending token _ _ _ => some (token.ticket .eval)
  | _ => none

def WaveRun.awaits (wave : WaveRun G C F) : List (Nat × WorkKind) :=
  wave.active.filterMap WaveSimulationState.awaits

def RootTaskState.awaits : RootTaskState G C F → List (Nat × WorkKind)
  | .waveRunning wave => wave.awaits
  | _ => []

def RootTaskPending.ticket (pending : RootTaskPending G C F) : Nat × WorkKind :=
  pending.token.ticket pending.kind

def RootTask.awaits (task : RootTask G C F) : List (Nat × WorkKind) :=
  (task.pending.map RootTaskPending.ticket).toList ++ task.state.awaits

/-- What decides which tickets are open, apart from the wave. -/
def RootTask.clock (task : RootTask G C F) : Nat × Option (RootTaskPending G C F) :=
  (task.nextToken, task.pending)

section Steps

variable {task final : RootTask G C F}

theorem Installs.clock_eq {branch slot step} (installs : Installs task branch slot final step) :
    final.clock = task.clock := by
  cases installs with
  | action found edgeFound vacant => rfl
  | pass found vacant => rfl

theorem awaits_waveTargetState (descent : Descent) (target : BranchTarget F) :
    (waveTargetState (G := G) (C := C) descent target).awaits = none := by
  cases target with
  | node index => rfl
  | terminal value => rfl

theorem awaits_advancePass (descent : Descent) (node : Node G C F) :
    (advancePass descent node).awaits = none := by
  unfold advancePass
  split
  · exact awaits_waveTargetState _ _
  · rfl

variable [Scalar F]

theorem Applies.awaits_eq {descent index action applied next}
    (applies : Applies task descent index action applied final next) :
    next.awaits = none ∧ final.clock = task.clock := by
  cases applies with
  | turnedBack found barred => exact ⟨rfl, rfl⟩
  | created found edgeFound accepted fresh => exact ⟨rfl, rfl⟩

theorem Advances.awaits_eq {state next} (advances : Advances task state none final next) :
    next.awaits = state.awaits ∧ final.clock = task.clock := by
  cases advances with
  | pass found stuck => exact ⟨awaits_advancePass _ _, rfl⟩
  | follow found chosen edgeFound expanded fresh => exact ⟨awaits_waveTargetState _ _, rfl⟩
  | turnBack found chosen edgeFound expanded applied barred => exact ⟨rfl, rfl⟩
  | stop found chosen edgeFound unexpanded stops => exact ⟨rfl, rfl⟩
  | complete valid installs found => exact ⟨rfl, installs.clock_eq⟩
  | completeTerminal valid installs => exact ⟨rfl, installs.clock_eq⟩
  | wait => exact ⟨rfl, rfl⟩

theorem Advances.awaits_of_work {state next work}
    (advances : Advances task state (some work) final next) :
    state.awaits = none ∧ next.awaits = some work.ticket ∧
      work.token = ⟨task.nextToken⟩ ∧ final = task.tick := by
  cases advances with
  | apply found chosen edgeFound unexpanded candidateFound => exact ⟨rfl, rfl, rfl, rfl⟩
  | expand turn => exact ⟨rfl, rfl, rfl, rfl⟩
  | terminal finished known asked => exact ⟨rfl, rfl, rfl, rfl⟩
  | eval asked => exact ⟨rfl, rfl, rfl, rfl⟩

theorem Receives.awaited [DecidableEq G] {preflight state next token result}
    (receives : Receives preflight task state result final next)
    (waits : state.pendingToken = some token) :
    state.awaits = some (token.ticket result.kind) := by
  cases receives <;> cases waits <;> rfl

theorem Receives.awaits_eq [DecidableEq G] {preflight state next result}
    (receives : Receives preflight task state result final next) :
    next.awaits = none ∧ final.clock = task.clock := by
  cases receives with
  | speculated early => exact ⟨rfl, rfl⟩
  | applied late applies => exact applies.awaits_eq
  | stuck known empty => exact ⟨rfl, rfl⟩
  | expanded known offered => exact ⟨rfl, rfl⟩
  | evaluated => exact ⟨rfl, rfl⟩
  | terminalEvaluated => exact ⟨rfl, rfl⟩

omit [Scalar F] in
theorem awaits_withActive (wave : WaveRun G C F) (before after : List (WaveSimulationState G C F))
    (state : WaveSimulationState G C F) :
    (wave.withActive (before ++ state :: after)).awaits =
      before.filterMap WaveSimulationState.awaits ++ (state.awaits.toList ++
          after.filterMap WaveSimulationState.awaits) := by
  unfold WaveRun.awaits WaveRun.withActive
  rw [filterMap_append, filterMap_cons]
  cases state.awaits <;> rfl

omit [Scalar F] in
theorem awaits_of_split {wave : WaveRun G C F} {before after state}
    (split : wave.active = before ++ state :: after) :
    wave.awaits = before.filterMap WaveSimulationState.awaits ++ (state.awaits.toList ++
        after.filterMap WaveSimulationState.awaits) := by
  rw [← awaits_withActive wave, WaveRun.withActive_self split]

theorem awaits_launchWave (root : Node G C F) {wave} (idle : wave.active = []) :
    (launchWave task root wave).awaits = [] := by
  unfold WaveRun.awaits
  rw [filterMap_eq_nil_iff]
  intro state member
  unfold launchWave at member
  split at member
  · rw [idle] at member
    exact absurd member not_mem_nil
  dsimp only at member
  rw [idle, nil_append] at member
  obtain ⟨action, _, rfl⟩ := mem_map.mp member
  rfl

omit [Scalar F] in
theorem awaits_of_outcomes {wave : WaveRun G C F} {outcomes}
    (ended : wave.active.mapM (·.outcome?) = some outcomes) :
    wave.awaits = [] := by
  unfold WaveRun.awaits
  rw [filterMap_eq_nil_iff]
  intro state member
  obtain ⟨outcome, out⟩ : ∃ outcome, state.outcome? = some outcome := by
    have each := forall₂_of_mapM_eq_some ended
    obtain ⟨position, inside, rfl⟩ := mem_iff_getElem.mp member
    exact ⟨_, each.get inside (each.length_eq ▸ inside)⟩
  cases state <;> first | rfl | cases out

theorem clock_of_backupAll {outcomes}
    (counted : (backupAll outcomes).perform task = (.ok ⟨⟩, final)) :
    final.clock = task.clock := by
  have same := congrArg RootTask.clock ((treeOnly_backupAll outcomes).eq counted)
  exact same

variable [DecidableEq G]

variable {wave last : WaveRun G C F}

theorem WaveStep.awaits_eq (step : WaveStep task wave none final last) :
    last.awaits = wave.awaits ∧ final.clock = task.clock := by
  cases step with
  | launch idle found =>
    refine ⟨?_, rfl⟩
    rw [awaits_launchWave _ idle]
    unfold WaveRun.awaits
    rw [idle]
    rfl
  | advance split advances =>
    obtain ⟨same, clock⟩ := advances.awaits_eq
    refine ⟨?_, clock⟩
    rw [awaits_withActive, awaits_of_split split, same]
  | install split held applies =>
    obtain ⟨none, clock⟩ := applies.awaits_eq
    refine ⟨?_, clock⟩
    rw [awaits_withActive, awaits_of_split split, none]
    rfl
  | discard split held =>
    refine ⟨?_, rfl⟩
    rw [awaits_of_split split]
    unfold WaveRun.awaits WaveRun.withActive
    rw [filterMap_append]
    rfl
  | resolved => exact ⟨rfl, rfl⟩
  | settle ended counted =>
    refine ⟨?_, clock_of_backupAll counted⟩
    rw [awaits_of_outcomes ended]
    rfl

theorem WaveStep.awaits_of_work {work : SearchWork G C F}
    (step : WaveStep task wave (some work) final last) :
    last.awaits.Perm (work.ticket :: wave.awaits) ∧
      work.token = ⟨task.nextToken⟩ ∧ final = task.tick := by
  cases step with
  | advance split advances =>
    obtain ⟨before, after, token, ticked⟩ := advances.awaits_of_work
    refine ⟨?_, token, ticked⟩
    rw [awaits_withActive, awaits_of_split split, before, after]
    exact perm_middle

theorem WaveRuns.awaits_eq (runs : WaveRuns task wave final last) :
    last.awaits = wave.awaits ∧ final.clock = task.clock := by
  refine WaveRuns.keeps (fun reached between =>
      between.awaits = wave.awaits ∧ reached.clock = task.clock)
    (fun _ _ _ _ same step => ?_) ⟨rfl, rfl⟩ runs
  obtain ⟨awaits, clock⟩ := step.awaits_eq
  exact ⟨awaits.trans same.1, clock.trans same.2⟩

end Steps

/-! ## The root task -/

/-- What a task gives away that only has to be polled. -/
def RootTaskState.held : RootTaskState G C F → Holdings G C
  | .doneResult result => result.holdings
  | _ => 0

/-- The open tickets of a task are in order, and a result that waits to be
polled is a pass. -/
structure RootTask.Waiting (task : RootTask G C F) : Prop where
  issued : Issued task.nextToken task.awaits
  alone : task.pending.isSome = true → task.state.awaits = []
  passes : task.state.held = 0

theorem RootTask.awaits_of_running {task : RootTask G C F} {wave} (idle : task.pending = none)
    (state : task.state = .waveRunning wave) :
    task.awaits = wave.awaits := by
  unfold awaits
  rw [idle, state]
  rfl

theorem RootTask.waiting_of_running {task : RootTask G C F} {wave} (idle : task.pending = none)
    (issued : Issued task.nextToken wave.awaits) :
    ({ task with state := .waveRunning wave }.Waiting) ∧
      { task with state := .waveRunning wave }.awaits = wave.awaits := by
  have same : { task with state := .waveRunning wave }.awaits =
      wave.awaits := awaits_of_running idle rfl
  refine ⟨⟨?_, fun waits => ?_, rfl⟩, same⟩
  · rw [same]
    exact issued
  · rw [idle] at waits
    cases waits

/-- What a poll says about the tickets. -/
def TicketsAfter {R : Type} (awaited : List (Nat × WorkKind))
    (polled : SearchPoll G C F R) (final : RootTask G C F) : Prop :=
  match polled with
  | .work work => final.Waiting ∧ final.awaits.Perm (work.ticket :: awaited)
  | .blocked => final.Waiting ∧ final.awaits.Perm awaited
  | .done _ => awaited = []

section Root

variable [Scalar F] [DecidableEq G] [DecidableEq C] {task final : RootTask G C F}

omit [DecidableEq C] in
theorem Hands.tickets {wave last work} (hands : Hands task wave (some work) final last)
    (idle : task.pending = none) (issued : Issued task.nextToken wave.awaits) :
    final.pending = none ∧ last.awaits.Perm (work.ticket :: wave.awaits) ∧
      Issued final.nextToken last.awaits := by
  obtain ⟨mid, between, runs, step⟩ := hands
  obtain ⟨same, clock⟩ := runs.awaits_eq
  obtain ⟨opened, token, rfl⟩ := step.awaits_of_work
  have clock := Prod.mk.injEq .. |>.mp clock
  rw [same] at opened
  refine ⟨clock.2.trans idle, opened, ?_⟩
  have ticket : work.ticket = (task.nextToken, work.kind) := by
    unfold SearchWork.ticket
    rw [token, clock.1]
    rfl
  have next : mid.tick.nextToken = task.nextToken + 1 := congrArg (· + 1) clock.1
  rw [next]
  rw [ticket] at opened
  exact (issued.issue work.kind).perm opened

theorem Polls.tickets {fuel : Nat} {polled} (waiting : task.Waiting)
    (polls : Polls fuel task polled final) :
    TicketsAfter task.awaits polled final := by
  cases polls with
  | blocked waits => exact ⟨waiting, .refl _⟩
  | resolve idle state turn | eval idle state asked =>
    have none : task.awaits = [] := by
      unfold RootTask.awaits
      rw [idle, state]
      rfl
    rw [none]
    exact ⟨⟨(Issued.nil _).issue _, fun _ => rfl, rfl⟩, .refl _⟩
  | wave idle state ends =>
    have awaited := RootTask.awaits_of_running idle state
    have issued := waiting.issued
    rw [awaited] at issued ⊢
    cases ends with
    | work hands =>
      obtain ⟨alone, opened, issued⟩ := hands.tickets idle issued
      obtain ⟨waits, same⟩ := RootTask.waiting_of_running alone issued
      refine ⟨waits, ?_⟩
      rw [same]
      exact opened
    | blocked runs waits =>
      obtain ⟨same, clock⟩ := runs.awaits_eq
      have clock := Prod.mk.injEq .. |>.mp clock
      rw [← same] at issued ⊢
      have issued : Issued _ _ := clock.1 ▸ issued
      obtain ⟨waits, reached⟩ := RootTask.waiting_of_running (clock.2.trans idle) issued
      refine ⟨waits, ?_⟩
      rw [reached]
    | finished runs between finish =>
      obtain ⟨same, _⟩ := runs.awaits_eq
      obtain ⟨result, rfl, _⟩ := finishes_of_finishRoot finish
      rw [← same]
      unfold WaveRun.awaits
      rw [between]
      rfl
  | result idle state =>
    unfold RootTask.awaits
    rw [idle, state]
    rfl

omit [DecidableEq C] in
theorem Resumes.tickets {token : WorkToken} {result} (waiting : task.Waiting)
    (resumes : Resumes task token result final) :
    final.Waiting ∧ task.awaits.Perm (token.ticket result.kind :: final.awaits) := by
  have closed (later : final.nextToken = task.nextToken) (opened : task.awaits.Perm
        (token.ticket result.kind :: final.awaits)) :
      Issued final.nextToken final.awaits := by
    rw [later]
    exact (waiting.issued.perm opened.symm).close
  have early {pending : RootTaskPending G C F} (waits : task.pending = some pending) :
      task.awaits.Perm [pending.ticket] := by
    unfold RootTask.awaits
    rw [waiting.alone (Option.isSome_of_eq_some waits), waits]
    exact .refl _
  cases resumes with
  | @wave wave before after state next _ mid running split waits receives =>
      obtain ⟨none, clock⟩ := receives.awaits_eq
      have clock := Prod.mk.injEq .. |>.mp clock
      have opened : task.awaits.Perm (token.ticket result.kind ::
          { mid with
            state := .waveRunning (wave.withActive (before ++ next :: after)) }.awaits) := by
        unfold RootTask.awaits RootTaskState.awaits
        rw [running, clock.2]
        dsimp only
        rw [awaits_withActive, awaits_of_split split, none, receives.awaited waits]
        simp only [Option.toList_some, Option.toList_none, cons_append, nil_append]
        rw [← append_assoc, ← append_assoc]
        exact perm_middle
      have idle : task.pending.isSome ≠ true := by
        intro pending
        have none := waiting.alone pending
        unfold RootTaskState.awaits at none
        rw [running] at none
        dsimp only at none
        rw [awaits_of_split split, receives.awaited waits] at none
        simp at none
      refine ⟨⟨closed clock.1 opened, fun pending => ?_, rfl⟩, opened⟩
      exact absurd (clock.2 ▸ pending) idle
  | pass pending known empty | expand pending known offered | eval pending valid started =>
    have opened := early pending
    exact ⟨⟨closed rfl opened, fun _ => rfl, rfl⟩, opened⟩

end Root

theorem WaveSimulationState.token_of_awaits {state : WaveSimulationState G C F} {ticket}
    (waits : state.awaits = some ticket) :
    state.pendingToken = some ⟨ticket.1⟩ := by
  cases state <;> cases waits <;> rfl

theorem WaveSimulationState.awaits_of_token {state : WaveSimulationState G C F} {token}
    (waits : state.pendingToken = some token) :
    ∃ kind, state.awaits = some (token.ticket kind) := by
  cases state <;> cases waits <;> exact ⟨_, rfl⟩

theorem splitPending_of_hasPending {token} {active : List (WaveSimulationState G C F)}
    (waits : active.any (fun state => state.pendingToken == some token) = true) :
    ∃ parts, splitPending token active = some parts := by
  induction active with
  | nil => cases waits
  | cons state rest ih =>
    unfold splitPending
    by_cases here : state.pendingToken = some token
    · rw [if_pos here]
      exact ⟨_, rfl⟩
    · rw [if_neg here]
      rw [any_cons, beq_eq_false_iff_ne.mpr here, Bool.false_or] at waits
      obtain ⟨parts, found⟩ := ih waits
      rw [found]
      exact ⟨_, rfl⟩

section Answers

variable [Scalar F] [DecidableEq G]

theorem resumeSimulation_of_awaits {preflight state ticket} {result : SearchWorkResult G C F}
    (waits : state.awaits = some ticket) (answered : ticket.2 = result.kind) :
    ∃ resumed, resumeSimulation preflight state result = some resumed := by
  cases state <;> cases waits <;> cases result <;>
    first | exact ⟨_, rfl⟩ | cases answered

theorem balancedAt_resume [DecidableEq C] {task : RootTask G C F} {token : WorkToken} {result}
    (waiting : task.Waiting) (asked : token.ticket result.kind ∈ task.awaits) :
    (RootTask.resume token result).BalancedAt SearchFailure.Kept
      RootTask.holdings result.holdings (fun _ => 0) task := by
  refine balancedAt_get_bind ?_
  have early (ofPending : token.ticket result.kind ∈
      (task.pending.map RootTaskPending.ticket).toList) :
      (resumePending token result).BalancedAt SearchFailure.Kept
        RootTask.holdings result.holdings (fun _ => 0) task := by
    cases pending : task.pending with
    | none =>
      rw [pending] at ofPending
      cases ofPending
    | some awaited =>
      rw [pending] at ofPending
      have same := mem_singleton.mp ofPending
      obtain ⟨number, answered⟩ := Prod.mk.injEq .. |>.mp same
      have named : token = awaited.token := congrArg WorkToken.mk number
      rw [named]
      exact balancedAt_resumePending pending answered
  cases running : task.state with
  | waveRunning wave =>
    have awaits : task.awaits = (task.pending.map RootTaskPending.ticket).toList ++
          wave.awaits := by
      unfold RootTask.awaits
      rw [running]
      rfl
    dsimp only
    split
    · next waits =>
      obtain ⟨⟨before, state, after⟩, found⟩ := splitPending_of_hasPending waits
      obtain ⟨split, here⟩ := eq_of_splitPending found
      obtain ⟨kind, ticket⟩ := WaveSimulationState.awaits_of_token here
      have member : token.ticket kind ∈ task.awaits := by
        rw [awaits, awaits_of_split split, ticket]
        simp
      have same : kind = result.kind := waiting.issued.purpose_eq member asked
      obtain ⟨resumed, matched⟩ := resumeSimulation_of_awaits ticket same
      exact balancedAt_resumeWave found matched task
    next idle =>
    refine early ?_
    rw [awaits] at asked
    refine (mem_append.mp asked).resolve_right fun inWave => ?_
    obtain ⟨state, member, ticket⟩ := mem_filterMap.mp inWave
    refine idle (any_eq_true.mpr ⟨state, member, ?_⟩)
    rw [WaveSimulationState.token_of_awaits ticket]
    exact beq_self_eq_true _
  | resolve _ | eval _ _ | doneResult _ | done =>
    refine early ?_
    unfold RootTask.awaits at asked
    rw [running] at asked
    simpa [RootTaskState.awaits] using asked

end Answers

end GraphZero.Search
