import GraphZero.Foundation.Transition
import GraphZero.Orchestrator.AdmissionQueue

/-!
# Runs of the admission controller

Every lane asks, acts on what it was granted and reports how much of that it
used; meanwhile it asks for nothing else.  All of this happens in any order.
-/

namespace GraphZero.Orchestrator

open Foundation

structure AdmissionGrant (lanes : Nat) where
  lane : Fin lanes
  time : Duration
  count : Nat
  bootstrap : Bool
  gap : Option Duration
  /-- The queue, and the workers of the lane, just before. -/
  order : List (Fin lanes)
  waiting : Nat
  deriving DecidableEq

structure AdmissionRun (F : Type) (lanes : Nat) where
  schedule : AdaptiveAdmissionSchedule F lanes
  workersPerLane : Nat
  /-- When the last request was made. -/
  clock : Duration
  /-- The grants that lanes are acting on. -/
  pending : Fin lanes → Option AdmissionDecision
  /-- The lanes that have made a request. -/
  asked : Fin lanes → Bool
  grants : List (AdmissionGrant lanes)
  /-- How many bootstrap grants were handed back. -/
  handedBack : Nat

namespace AdmissionRun

variable {F : Type} {lanes : Nat}

inductive Label (lanes : Nat) where
  | request (now : Duration) (lane : Fin lanes)
    (idleWorkers capacityWork capacityBusyNs outstanding : Nat)
  | finishAdmission (lane : Fin lanes) (admitted : Nat)
    (rootsExhausted : Bool)
  | clearLane (lane : Fin lanes)
  | observeEpisodeWork (evaluations : Nat)

/-- Workers that were granted to a lane and that it has not reported on. -/
def granted (run : AdmissionRun F lanes) (lane : Fin lanes) : Nat :=
  match run.pending lane with
  | some decision => decision.limit
  | none => 0

section Steps

variable [Seconds F]

def start (schedule : AdaptiveAdmissionSchedule F lanes)
    (workersPerLane : Nat) : AdmissionRun F lanes where
  schedule
  workersPerLane
  clock := 0
  pending _ := none
  asked _ := false
  grants := []
  handedBack := 0

def afterRequest (run : AdmissionRun F lanes) (now : Duration)
    (lane : Fin lanes) (observed : AdaptiveAdmissionSchedule F lanes)
    (decision : AdmissionDecision)
    (schedule : AdaptiveAdmissionSchedule F lanes) : AdmissionRun F lanes :=
  { run with
    schedule
    clock := now
    pending := Function.update run.pending lane (if 0 < decision.limit then some decision else none)
    asked := Function.update run.asked lane true
    grants := run.grants ++ if 0 < decision.limit then
        [{ lane
           time := now
           count := decision.limit
           bootstrap := decide (0 < decision.bootstrapGrants)
           gap := observed.admissionGap.join
           order := observed.waitingOrder
           waiting := observed.waiting lane }]
      else [] }

def next (run : AdmissionRun F lanes) : Label lanes → Option (AdmissionRun F lanes)
  | .request now lane idleWorkers capacityWork capacityBusyNs outstanding =>
    let observed := run.schedule.observed lane idleWorkers capacityWork capacityBusyNs outstanding
    if run.pending lane = none ∧ run.clock ≤ now ∧ now ≤ durationMax ∧
        idleWorkers ≤ run.workersPerLane then
      (run.schedule.request now lane idleWorkers capacityWork capacityBusyNs
        outstanding).map fun (decision, schedule) =>
          run.afterRequest now lane observed.discardEmptyFront decision schedule
    else none
  | .finishAdmission lane admitted rootsExhausted =>
    match run.pending lane with
    | none => none
    | some decision =>
      if admitted ≤ decision.limit then
        let unused := decision.limit - admitted
        let bootstrap := decide (0 < decision.bootstrapGrants)
        let schedule := run.schedule.restoreUnused lane unused bootstrap
        some { run with
          schedule :=
            if rootsExhausted then schedule.clearLane lane else schedule
          pending := Function.update run.pending lane none
          handedBack := run.handedBack + (decide (0 < unused) && bootstrap).toNat }
      else none
  | .clearLane lane =>
    if run.pending lane = none then
      some { run with schedule := run.schedule.clearLane lane }
    else none
  | .observeEpisodeWork evaluations =>
    some { run with
      schedule := run.schedule.observeEpisodeWork evaluations }

def Started (run : AdmissionRun F lanes) : Prop :=
  ∃ totalWorkers evaluatorProcesses targetOutstanding config schedule,
    totalWorkers ≤ usizeMax ∧ AdaptiveAdmissionSchedule.new totalWorkers evaluatorProcesses
        targetOutstanding config = some schedule ∧
      run = start schedule (totalWorkers / lanes)

end Steps

end AdmissionRun

/-- Every order of requests, reports, clears and finished episodes. -/
def admissionSystem (F : Type) [Seconds F] (lanes : Nat) :
    TransitionSystem (AdmissionRun F lanes) (AdmissionRun.Label lanes) where
  initial := AdmissionRun.Started
  step run label next := run.next label = some next

/-! ## What is granted -/

namespace AdaptiveAdmissionSchedule

variable {F : Type} {lanes : Nat} {schedule : AdaptiveAdmissionSchedule F lanes}
  {lane : Fin lanes} {now : Duration} {gap : Option Duration}

/-- The front lane gets the first worker, or one that is due. -/
inductive Granted (schedule : AdaptiveAdmissionSchedule F lanes)
    (now : Duration) (lane : Fin lanes) (gap : Option Duration) :
    (front bootstrap paced : Bool) → Prop
  | bootstrap (front : schedule.waitingOrder.head? = some lane)
    (first : schedule.bootstrapAdmitted = false) :
    Granted schedule now lane gap true true false
  | paced (front : schedule.waitingOrder.head? = some lane)
    (later : schedule.bootstrapAdmitted = true) (known : gap.isSome = true)
    (due : schedule.nextAdmission ≤ now) :
    Granted schedule now lane gap true false true
  | nothing {front}
    (refused : schedule.waitingOrder.head? = some lane → schedule.bootstrapAdmitted = true ∧
        (gap.isSome = true → now < schedule.nextAdmission)) :
    Granted schedule now lane gap front false false

theorem granted (schedule : AdaptiveAdmissionSchedule F lanes)
    (now : Duration) (lane : Fin lanes) (gap : Option Duration) :
    ∃ front bootstrap paced, Granted schedule now lane gap front bootstrap paced ∧
      schedule.grant now lane gap = schedule.letIn now lane gap front bootstrap paced := by
  unfold grant
  by_cases front : schedule.waitingOrder.head? = some lane
  · rw [decide_eq_true front]
    cases first : schedule.bootstrapAdmitted with
    | false => exact ⟨true, true, false, .bootstrap front first, rfl⟩
    | true =>
      by_cases known : gap.isSome = true
      · by_cases due : schedule.nextAdmission ≤ now
        · refine ⟨true, false, true, .paced front first known due, ?_⟩
          rw [known, decide_eq_true due]
          rfl
        · refine ⟨true, false, false, .nothing fun _ => ⟨first, fun _ => Nat.not_le.mp due⟩, ?_⟩
          rw [decide_eq_false due]
          dsimp only
          rw [Bool.and_false]
          rfl
      · refine ⟨true, false, false, .nothing fun _ => ⟨first, fun own => absurd own known⟩, ?_⟩
        rw [Bool.not_eq_true] at known
        rw [known]
        dsimp only
        rfl
  · rw [decide_eq_false front]
    exact ⟨false, false, false, .nothing fun own => absurd own front, rfl⟩

@[simp]
theorem queueLane_nextAdmission :
    (schedule.queueLane lane).nextAdmission = schedule.nextAdmission := by
  unfold queueLane
  split
  · rfl
  · rfl

@[simp]
theorem queueLane_bootstrapAdmitted : (schedule.queueLane lane).bootstrapAdmitted =
      schedule.bootstrapAdmitted := by
  unfold queueLane
  split
  · rfl
  · rfl

variable {count : Nat}

@[simp]
theorem takeFromLane_nextAdmission : (schedule.takeFromLane lane count).nextAdmission =
      schedule.nextAdmission := by
  unfold takeFromLane discardEmptyFront
  dsimp only
  split
  · exact queueLane_nextAdmission
  · rfl

@[simp]
theorem takeFromLane_bootstrapAdmitted : (schedule.takeFromLane lane count).bootstrapAdmitted =
      schedule.bootstrapAdmitted := by
  unfold takeFromLane discardEmptyFront
  dsimp only
  split
  · exact queueLane_bootstrapAdmitted
  · rfl

@[simp]
theorem takeFromLane_waiting : (schedule.takeFromLane lane count).waiting =
      Function.update schedule.waiting lane (schedule.waiting lane - count) := by
  have same : schedule.waiting lane - min (schedule.waiting lane) count =
      schedule.waiting lane - count := by omega
  unfold takeFromLane
  dsimp only
  rw [same]
  split
  · exact queueLane_waiting
  · rfl

section Admitting

variable {front bootstrap paced : Bool}

theorem letIn_waiting : (schedule.letIn now lane gap front bootstrap paced).2.waiting =
      Function.update schedule.waiting lane
        (schedule.waiting lane - (bootstrap.toNat + paced.toNat)) := by
  unfold letIn
  cases bootstrap with
  | false | true =>
    cases paced with
    | false => exact takeFromLane_waiting
    | true => exact takeFromLane_waiting

theorem letIn_bootstrapAdmitted :
    (schedule.letIn now lane gap front bootstrap paced).2.bootstrapAdmitted =
      (schedule.bootstrapAdmitted || bootstrap) := by
  unfold letIn
  cases bootstrap with
  | false =>
    rw [Bool.or_false]
    cases paced with
    | false => exact takeFromLane_bootstrapAdmitted
    | true => exact takeFromLane_bootstrapAdmitted
  | true =>
    rw [Bool.or_true]
    cases paced with
    | false => exact takeFromLane_bootstrapAdmitted
    | true => exact takeFromLane_bootstrapAdmitted

theorem letIn_nextAdmission : (schedule.letIn now lane gap front bootstrap paced).2.nextAdmission =
      if bootstrap || paced then dueAt now gap schedule.nextAdmission
      else schedule.nextAdmission := by
  unfold letIn
  cases bootstrap with
  | false =>
    cases paced with
    | false => exact takeFromLane_nextAdmission
    | true => exact congrArg (dueAt now gap) takeFromLane_nextAdmission
  | true =>
    cases paced with
    | false => exact congrArg (dueAt now gap) takeFromLane_nextAdmission
    | true => exact congrArg (dueAt now gap) takeFromLane_nextAdmission

variable {asked : Fin lanes → Prop}

theorem Lined.letIn (lined : schedule.Lined asked) :
    (schedule.letIn now lane gap front bootstrap paced).2.Lined asked := by
  have start : Lined asked (if bootstrap then
      { schedule with bootstrapAdmitted := true } else schedule) := by
    split
    · exact ⟨lined.distinct, lined.marked, lined.waits⟩
    · exact lined
  unfold AdaptiveAdmissionSchedule.letIn
  dsimp only
  split
  · obtain ⟨distinct, marked, waits⟩ := start.takeFromLane
    exact ⟨distinct, marked, waits⟩
  · exact start.takeFromLane

theorem Counted.letIn (counted : schedule.Counted) :
    (schedule.letIn now lane gap front bootstrap paced).2.Counted := by
  have start : Counted (if bootstrap then
      { schedule with bootstrapAdmitted := true } else schedule) := by
    split
    · exact counted
    · exact counted
  unfold AdaptiveAdmissionSchedule.letIn
  dsimp only
  split
  · exact start.takeFromLane
  · exact start.takeFromLane

end Admitting

/-- Two schedules that differ in what is known of the evaluator only. -/
structure SameQueue (schedule target : AdaptiveAdmissionSchedule F lanes) : Prop where
  waiting : target.waiting = schedule.waiting
  queued : target.queued = schedule.queued
  waitingOrder : target.waitingOrder = schedule.waitingOrder
  totalWaiting : target.totalWaiting = schedule.totalWaiting
  nextAdmission : target.nextAdmission = schedule.nextAdmission
  bootstrapAdmitted : target.bootstrapAdmitted = schedule.bootstrapAdmitted

section SameQueue

variable {target : AdaptiveAdmissionSchedule F lanes} {asked : Fin lanes → Prop}

theorem Lined.same (lined : schedule.Lined asked)
    (same : SameQueue schedule target) : target.Lined asked where
  distinct := same.waitingOrder ▸ lined.distinct
  marked := by
    rw [same.waitingOrder, same.queued]
    exact lined.marked
  waits := by
    rw [same.waiting, same.queued]
    exact lined.waits

theorem Counted.same (counted : schedule.Counted)
    (same : SameQueue schedule target) : target.Counted := by
  unfold Counted
  rw [same.totalWaiting, same.waiting]
  exact counted

variable [Seconds F]

theorem sameQueue_observeEvalCapacity (schedule : AdaptiveAdmissionSchedule F lanes)
    (capacityWork capacityBusyNs outstanding : Nat) :
    SameQueue schedule (schedule.observeEvalCapacity capacityWork capacityBusyNs outstanding) := by
  unfold observeEvalCapacity
  dsimp only
  split
  · exact ⟨rfl, rfl, rfl, rfl, rfl, rfl⟩
  split
  · exact ⟨rfl, rfl, rfl, rfl, rfl, rfl⟩
  split
  · exact ⟨rfl, rfl, rfl, rfl, rfl, rfl⟩
  · exact ⟨rfl, rfl, rfl, rfl, rfl, rfl⟩

theorem sameQueue_observeEpisodeWork
    (schedule : AdaptiveAdmissionSchedule F lanes) (evaluations : Nat) :
    SameQueue schedule (schedule.observeEpisodeWork evaluations) := by
  unfold observeEpisodeWork
  split
  · exact ⟨rfl, rfl, rfl, rfl, rfl, rfl⟩
  · exact ⟨rfl, rfl, rfl, rfl, rfl, rfl⟩

theorem observed_eq (schedule : AdaptiveAdmissionSchedule F lanes) (lane : Fin lanes)
    (idleWorkers capacityWork capacityBusyNs outstanding : Nat) :
    let target := schedule.observed lane idleWorkers capacityWork capacityBusyNs outstanding
    target.waiting = Function.update schedule.waiting lane idleWorkers ∧
      target.nextAdmission = schedule.nextAdmission ∧
      target.bootstrapAdmitted = schedule.bootstrapAdmitted := by
  have same := schedule.sameQueue_observeEvalCapacity capacityWork capacityBusyNs outstanding
  refine ⟨?_, ?_, ?_⟩
  · unfold observed setWaiting
    simp only [discardEmptyFront_waiting, queueLane_waiting, same.waiting]
  · exact queueLane_nextAdmission.trans same.nextAdmission
  · exact queueLane_bootstrapAdmitted.trans same.bootstrapAdmitted

end SameQueue

end AdaptiveAdmissionSchedule

end GraphZero.Orchestrator
