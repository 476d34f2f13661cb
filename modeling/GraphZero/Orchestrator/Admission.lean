import GraphZero.Foundation.Scalar

/-!
# Adaptive admission

Lanes ask for leave to start episodes.  They wait in a queue, one of them is
let in at once, and after that one worker at a time is admitted at the pace at
which the evaluator completes the work of an episode.
-/

namespace GraphZero.Orchestrator

open Foundation

abbrev Duration : Type := Nat

def usizeMax : Nat := 2 ^ 64 - 1

/-- The longest duration: all seconds of 64 bits and the last nanosecond. -/
def durationMax : Duration := 2 ^ 64 * 1000000000 - 1

def durationSaturatingAdd (left right : Duration) : Duration :=
  min (left + right) durationMax

def usizeSaturatingAdd (left right : Nat) : Nat :=
  min (left + right) usizeMax

def retryStep : Duration := 1000000

/-- A floating point type whose values can be read as seconds. -/
class Seconds (F : Type) extends Scalar F where
  /-- The duration of some seconds; there is none where the conversion
  panics. -/
  toDuration : F → Option Duration

def capacitySampleBusyNs : Nat := 1000000000

structure AdmissionSmoothingConfig where
  initialEpisodeEvalWork : Nat
  positive : 0 < initialEpisodeEvalWork

structure AdmissionDecision where
  limit : Nat
  bootstrapGrants : Nat
  pacedGrants : Nat
  retryAfter : Option Duration

def AdmissionDecision.default : AdmissionDecision := ⟨0, 0, 0, none⟩

structure AdaptiveAdmissionSchedule (F : Type) (lanes : Nat) where
  waiting : Fin lanes → Nat
  queued : Fin lanes → Bool
  /-- The lanes that wait, the front first. -/
  waitingOrder : List (Fin lanes)
  totalWaiting : Nat
  nextAdmission : Duration
  bootstrapAdmitted : Bool
  evaluatorProcesses : Nat
  targetOutstanding : Nat
  lastCapacityWork : Nat
  lastCapacityBusyNs : Nat
  allowShortCapacitySample : Bool
  evalCapacityEma : Option F
  outstandingEma : Option F
  episodeEvalWorkEma : Option F

section Schedule

variable {F : Type} {lanes : Nat} [Seconds F]

def maxPressureGain : F := Scalar.ofRat (3 / 2)

def ema (previous : Option F) (sample alpha : F) : F :=
  match previous with
  | none => sample
  | some previous => previous + alpha * (sample - previous)

namespace AdaptiveAdmissionSchedule

def new (totalWorkers evaluatorProcesses targetOutstanding : Nat)
    (config : AdmissionSmoothingConfig) :
    Option (AdaptiveAdmissionSchedule F lanes) :=
  if totalWorkers % lanes ≠ 0 then none
  else some
    { waiting := fun _ => totalWorkers / lanes
      queued := fun _ => false
      waitingOrder := []
      totalWaiting := totalWorkers
      nextAdmission := 0
      bootstrapAdmitted := false
      evaluatorProcesses
      targetOutstanding
      lastCapacityWork := 0
      lastCapacityBusyNs := 0
      allowShortCapacitySample := false
      evalCapacityEma := none
      outstandingEma := none
      episodeEvalWorkEma :=
        some (Scalar.ofNat config.initialEpisodeEvalWork) }

variable (schedule : AdaptiveAdmissionSchedule F lanes)

/-- The lanes behind those at the front that have nobody waiting. -/
def discardFrom (waiting : Fin lanes → Nat) :
    (order : List (Fin lanes)) → (queued : Fin lanes → Bool) → List (Fin lanes) × (Fin lanes → Bool)
  | [], queued => ([], queued)
  | lane :: order, queued =>
    if waiting lane = 0 then
      discardFrom waiting order (Function.update queued lane false)
    else (lane :: order, queued)

def discardEmptyFront : AdaptiveAdmissionSchedule F lanes :=
  let (waitingOrder, queued) := discardFrom schedule.waiting schedule.waitingOrder schedule.queued
  { schedule with waitingOrder, queued }

def queueLane (lane : Fin lanes) : AdaptiveAdmissionSchedule F lanes :=
  if 0 < schedule.waiting lane ∧ schedule.queued lane = false then
    { schedule with
      waitingOrder := schedule.waitingOrder ++ [lane]
      queued := Function.update schedule.queued lane true }
  else schedule

def setWaiting (lane : Fin lanes) (idleWorkers : Nat) : AdaptiveAdmissionSchedule F lanes :=
  let previous := schedule.waiting lane
  let schedule := { schedule with
    totalWaiting :=
      usizeSaturatingAdd (schedule.totalWaiting - previous) idleWorkers
    waiting := Function.update schedule.waiting lane idleWorkers }
  (schedule.queueLane lane).discardEmptyFront

/-- The lane at the front goes behind the others, if it still waits. -/
def takeFromLane (lane : Fin lanes) (count : Nat) : AdaptiveAdmissionSchedule F lanes :=
  let taken := min (schedule.waiting lane) count
  let schedule := { schedule with
    waiting := Function.update schedule.waiting lane (schedule.waiting lane - taken)
    totalWaiting := schedule.totalWaiting - taken }
  let schedule :=
    if schedule.waitingOrder.head? = some lane then
      queueLane
        { schedule with
          waitingOrder := schedule.waitingOrder.tail
          queued := Function.update schedule.queued lane false }
        lane
    else schedule
  schedule.discardEmptyFront

def clearLane (lane : Fin lanes) : AdaptiveAdmissionSchedule F lanes :=
  discardEmptyFront
    { schedule with
      totalWaiting := schedule.totalWaiting - schedule.waiting lane
      waiting := Function.update schedule.waiting lane 0 }

def restoreUnused (lane : Fin lanes) (unused : Nat) (bootstrap : Bool) :
    AdaptiveAdmissionSchedule F lanes :=
  if unused = 0 then schedule
  else
    queueLane
      { schedule with
        bootstrapAdmitted := schedule.bootstrapAdmitted && !bootstrap
        waiting := Function.update schedule.waiting lane
          (usizeSaturatingAdd (schedule.waiting lane) unused)
        totalWaiting := usizeSaturatingAdd schedule.totalWaiting unused }
      lane

def observeEpisodeWork (evaluations : Nat) : AdaptiveAdmissionSchedule F lanes :=
  if evaluations = 0 then schedule
  else { schedule with
    allowShortCapacitySample :=
      schedule.allowShortCapacitySample || schedule.evalCapacityEma.isNone
    episodeEvalWorkEma := some (ema schedule.episodeEvalWorkEma
      (Scalar.ofNat evaluations) (Scalar.ofRat (1 / 10))) }

def observeEvalCapacity (capacityWork capacityBusyNs outstanding : Nat) :
    AdaptiveAdmissionSchedule F lanes :=
  let work := capacityWork - schedule.lastCapacityWork
  let busyNs := capacityBusyNs - schedule.lastCapacityBusyNs
  let seen := { schedule with
    lastCapacityWork := capacityWork
    lastCapacityBusyNs := capacityBusyNs }
  if capacityWork < schedule.lastCapacityWork ∨
      capacityBusyNs < schedule.lastCapacityBusyNs then seen
  else if work = 0 ∨ (busyNs < capacitySampleBusyNs ∧
      schedule.allowShortCapacitySample = false) then schedule
  else
    let seen := { seen with allowShortCapacitySample := false }
    let perProcessRate : F := Scalar.ofNat work * Scalar.ofNat 1000000000 / Scalar.ofNat busyNs
    let capacity := perProcessRate * Scalar.ofNat schedule.evaluatorProcesses
    if Scalar.isFinite capacity && Scalar.less Scalar.zero capacity then
      { seen with
        evalCapacityEma := some (ema schedule.evalCapacityEma capacity (Scalar.ofRat (1 / 5)))
        outstandingEma := some (ema schedule.outstandingEma (Scalar.ofNat outstanding)
            (Scalar.ofRat (1 / 5))) }
    else seen

def pressureGain : F :=
  match schedule.outstandingEma with
  | none => Scalar.one
  | some outstanding =>
    Scalar.clamp (Scalar.ofNat schedule.targetOutstanding / Scalar.max outstanding Scalar.one)
      Scalar.one maxPressureGain

/-- The time between two admissions, where it is known; there is no answer
where it cannot be expressed. -/
def admissionGap : Option (Option Duration) :=
  match schedule.episodeEvalWorkEma, schedule.evalCapacityEma with
  | some work, some capacity =>
    let seconds := work / (capacity * schedule.pressureGain)
    if !Scalar.isFinite seconds || Scalar.lessEq seconds Scalar.zero then
      some none
    else
      (Seconds.toDuration (Scalar.max seconds (Scalar.ofRat (1 / 1000000)))).map some
  | _, _ => some none

def retryAfter (now : Duration) (lane : Fin lanes) (front : Bool)
    (gap : Option Duration) : Option Duration :=
  if 0 < schedule.waiting lane then
    some <| if front && gap.isSome then
        max (schedule.nextAdmission - now) retryStep
      else retryStep
  else none

/-- When the next worker is due after one that was let in. -/
def dueAt (now : Duration) (gap : Option Duration) (before : Duration) : Duration :=
  match gap with
  | some gap => durationSaturatingAdd now gap
  | none => before

/-- The first worker of all, one that is due, or none is let in. -/
def letIn (now : Duration) (lane : Fin lanes) (gap : Option Duration)
    (front bootstrap paced : Bool) :
    AdmissionDecision × AdaptiveAdmissionSchedule F lanes :=
  let limit := bootstrap.toNat + paced.toNat
  let schedule :=
    if bootstrap then { schedule with bootstrapAdmitted := true }
    else schedule
  let schedule := schedule.takeFromLane lane limit
  let schedule :=
    if 0 < limit then
      { schedule with nextAdmission := dueAt now gap schedule.nextAdmission }
    else schedule
  (⟨limit, bootstrap.toNat, paced.toNat, schedule.retryAfter now lane front gap⟩, schedule)

/-- What a lane with workers that could start an episode is granted. -/
def grant (now : Duration) (lane : Fin lanes) (gap : Option Duration) :
    AdmissionDecision × AdaptiveAdmissionSchedule F lanes :=
  let front := decide (schedule.waitingOrder.head? = some lane)
  let bootstrap := front && !schedule.bootstrapAdmitted
  let paced := front && !bootstrap && gap.isSome && decide (schedule.nextAdmission ≤ now)
  schedule.letIn now lane gap front bootstrap paced

/-- What is known once a lane has told how many workers it has. -/
def observed (lane : Fin lanes) (idleWorkers capacityWork capacityBusyNs outstanding : Nat) :
    AdaptiveAdmissionSchedule F lanes :=
  (schedule.observeEvalCapacity capacityWork capacityBusyNs outstanding).setWaiting lane idleWorkers

def request (now : Duration) (lane : Fin lanes)
    (idleWorkers capacityWork capacityBusyNs outstanding : Nat) :
    Option (AdmissionDecision × AdaptiveAdmissionSchedule F lanes) :=
  let schedule := schedule.observed lane idleWorkers capacityWork capacityBusyNs outstanding
  if idleWorkers = 0 then some (.default, schedule)
  else
    schedule.discardEmptyFront.admissionGap.map fun gap =>
      schedule.discardEmptyFront.grant now lane gap

end AdaptiveAdmissionSchedule

end Schedule

end GraphZero.Orchestrator
