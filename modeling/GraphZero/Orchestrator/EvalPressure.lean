import GraphZero.Foundation.Transition
import Mathlib.Data.List.Count
import Mathlib.Algebra.GroupWithZero.Nat

/-!
# Evaluation pressure

Lanes reserve an evaluation for each episode they are granted.  The first
evaluation that an episode submits consumes its reservation, and what a grant
leaves over is returned; an episode that ends before it has submitted one keeps
its reservation for ever.
-/

namespace GraphZero.Orchestrator

open Foundation

/-- The counters that all lanes and the batcher share.  `saturated` tells whether
a subtraction ever asked for more than there was. -/
structure EvalPressure where
  outstanding : Nat
  reserved : Nat
  saturated : Bool

namespace EvalPressure

variable (pressure : EvalPressure)

def reserve (count : Nat) : EvalPressure :=
  { pressure with reserved := pressure.reserved + count }

def cancelReservations (count : Nat) : EvalPressure :=
  { pressure with
    reserved := pressure.reserved - count
    saturated := pressure.saturated || pressure.reserved < count }

def complete (count : Nat) : EvalPressure :=
  { pressure with
    outstanding := pressure.outstanding - count
    saturated := pressure.saturated || pressure.outstanding < count }

def cancelSubmission : EvalPressure :=
  pressure.complete 1

def submit (reserved : Bool) : EvalPressure :=
  let submitted := { pressure with outstanding := pressure.outstanding + 1 }
  if reserved then submitted.cancelReservations 1 else submitted

end EvalPressure

/-- What a lane was granted, while it admits episodes. -/
structure Grant where
  lane : Nat
  limit : Nat
  deriving DecidableEq

structure ActiveEpisode where
  lane : Nat
  pressureReserved : Bool
  deriving DecidableEq

/-- The counters, the open grants and the active episodes of all lanes, and what
happened so far. -/
structure PressureRun where
  pressure : EvalPressure
  grants : List Grant
  episodes : List ActiveEpisode
  submitted : Nat
  completed : Nat
  granted : Nat
  consumed : Nat
  returned : Nat

inductive PressureMove
  | request (lane limit : Nat)
  | finishAdmission (grant : Grant) (admitted : Nat)
  | failAdmission (grant : Grant)
  | admitPaced (lane count : Nat)
  | submit (episode : ActiveEpisode) (sent : Bool)
  | complete (count : Nat)
  | finishEpisode (episode : ActiveEpisode)
  | failLane (lane : Nat)

namespace PressureRun

variable (run : PressureRun)

/-- The episodes that go on when a lane ends. -/
def others (episodes : List ActiveEpisode) (lane : Nat) : List ActiveEpisode :=
  episodes.filter (·.lane ≠ lane)

/-- One move.  A lane is told its limit, admits episodes and settles its grant
before it does anything else; an error ends it with all its episodes. -/
def next : PressureMove → Option PressureRun
  | .request lane limit =>
    if ∀ grant ∈ run.grants, grant.lane ≠ lane then
      some { run with
        pressure := run.pressure.reserve limit
        grants := ⟨lane, limit⟩ :: run.grants
        granted := run.granted + limit }
    else none
  | .finishAdmission grant admitted =>
    if grant ∈ run.grants ∧ admitted ≤ grant.limit then
      some { run with
        pressure := run.pressure.cancelReservations (grant.limit - admitted)
        grants := run.grants.erase grant
        episodes := List.replicate admitted ⟨grant.lane, true⟩ ++ run.episodes
        returned := run.returned + (grant.limit - admitted) }
    else none
  | .failAdmission grant =>
    if grant ∈ run.grants then
      some { run with
        pressure := run.pressure.cancelReservations grant.limit
        grants := run.grants.erase grant
        episodes := others run.episodes grant.lane
        returned := run.returned + grant.limit }
    else none
  | .admitPaced lane count =>
    some { run with episodes := List.replicate count ⟨lane, false⟩ ++ run.episodes }
  | .submit episode sent =>
    if episode ∈ run.episodes then
      let submitted := { run with
        pressure := run.pressure.submit episode.pressureReserved
        consumed := run.consumed + episode.pressureReserved.toNat }
      let rest := run.episodes.erase episode
      some (if sent then { submitted with
          episodes := ⟨episode.lane, false⟩ :: rest
          submitted := run.submitted + 1 }
        else { submitted with
          pressure := submitted.pressure.cancelSubmission
          episodes := others rest episode.lane })
    else none
  | .complete count =>
    if run.completed + count ≤ run.submitted then
      some { run with
        pressure := run.pressure.complete count
        completed := run.completed + count }
    else none
  | .finishEpisode episode =>
    if episode ∈ run.episodes then some { run with episodes := run.episodes.erase episode }
    else none
  | .failLane lane =>
    if ∀ grant ∈ run.grants, grant.lane ≠ lane then
      some { run with episodes := others run.episodes lane }
    else none

def ended : PressureMove → List ActiveEpisode
  | .finishEpisode episode => [episode]
  | .failLane lane | .failAdmission ⟨lane, _⟩ => run.episodes.filter (·.lane = lane)
  | .submit episode false => (run.episodes.erase episode).filter (·.lane = episode.lane)
  | _ => []

/-- No episode ends before it has submitted an evaluation. -/
def Allows (move : PressureMove) : Prop :=
  ∀ episode ∈ run.ended move, episode.pressureReserved = false

/-- The granted episodes that have neither submitted an evaluation nor ended. -/
def held : Nat :=
  (run.grants.map Grant.limit).sum + run.episodes.countP ActiveEpisode.pressureReserved

end PressureRun

def pressureSystem : TransitionSystem PressureRun PressureMove where
  initial run := run = ⟨⟨0, 0, false⟩, [], [], 0, 0, 0, 0, 0⟩
  step run move target := run.next move = some target

/-- Every counter is what it stands for. -/
structure Accounted (run : PressureRun) : Prop where
  outstanding : run.pressure.outstanding + run.completed = run.submitted
  reserved : run.pressure.reserved = run.held
  unsaturated : run.pressure.saturated = false
  once : run.granted = run.consumed + run.returned + run.held

variable {run target : PressureRun} {move : PressureMove} {episodes : List ActiveEpisode}

theorem countP_others {lane}
    (spent : ∀ episode ∈ episodes.filter (·.lane = lane), episode.pressureReserved = false) :
    (PressureRun.others episodes lane).countP ActiveEpisode.pressureReserved =
      episodes.countP ActiveEpisode.pressureReserved := by
  rw [PressureRun.others, List.countP_filter]
  refine List.countP_congr fun episode member => ?_
  by_cases same : episode.lane = lane
  · simp [same, spent episode (List.mem_filter.mpr ⟨member, by simpa using same⟩)]
  · simp [same]

theorem countP_erase {episode} (member : episode ∈ episodes) :
    episodes.countP ActiveEpisode.pressureReserved =
      (episodes.erase episode).countP ActiveEpisode.pressureReserved +
        episode.pressureReserved.toNat := by
  rw [(List.perm_cons_erase member).countP_eq, List.countP_cons]
  cases episode.pressureReserved <;> rfl

theorem sum_erase {grants : List Grant} {grant} (member : grant ∈ grants) :
    (grants.map Grant.limit).sum = grant.limit + ((grants.erase grant).map Grant.limit).sum := by
  rw [((List.perm_cons_erase member).map _).sum_nat, List.map_cons, List.sum_cons]

theorem Accounted.next (accounted : Accounted run) (allowed : run.Allows move)
    (moved : run.next move = some target) : Accounted target := by
  obtain ⟨outstanding, reserved, unsaturated, once⟩ := accounted
  unfold PressureRun.held at reserved once
  cases move with
  | request lane limit =>
    obtain ⟨_, same⟩ := Option.ite_none_right_eq_some.mp moved
    cases same
    refine ⟨outstanding, ?_, unsaturated, ?_⟩
    all_goals
      simp only [PressureRun.held, EvalPressure.reserve, List.map_cons, List.sum_cons]
      omega
  | finishAdmission grant admitted =>
    obtain ⟨⟨member, few⟩, same⟩ := Option.ite_none_right_eq_some.mp moved
    cases same
    have total := sum_erase member
    refine ⟨outstanding, ?_, ?_, ?_⟩
    all_goals
      simp only [PressureRun.held, EvalPressure.cancelReservations, List.countP_append,
        List.countP_replicate, unsaturated, Bool.false_or, decide_eq_false_iff_not, if_true]
      omega
  | failAdmission grant =>
    obtain ⟨member, same⟩ := Option.ite_none_right_eq_some.mp moved
    cases same
    have total := sum_erase member
    have kept := countP_others allowed
    refine ⟨outstanding, ?_, ?_, ?_⟩
    all_goals
      simp only [PressureRun.held, EvalPressure.cancelReservations, unsaturated, Bool.false_or,
        decide_eq_false_iff_not, kept]
      omega
  | admitPaced lane count =>
    cases moved
    refine ⟨outstanding, ?_, unsaturated, ?_⟩
    all_goals
      simp only [PressureRun.held, List.countP_append, List.countP_replicate, Bool.false_eq_true,
        if_false]
      omega
  | submit episode sent =>
    obtain ⟨member, same⟩ := Option.ite_none_right_eq_some.mp moved
    cases same
    have total := countP_erase member
    obtain ⟨lane, pressureReserved⟩ := episode
    cases sent with
    | false =>
      have kept := countP_others allowed
      cases pressureReserved
      all_goals
        refine ⟨?_, ?_, ?_, ?_⟩
        all_goals
          simp only [PressureRun.held, EvalPressure.submit, EvalPressure.cancelSubmission,
            EvalPressure.complete, EvalPressure.cancelReservations, unsaturated, kept,
            Bool.toNat_true, Bool.toNat_false, Bool.false_or, decide_eq_false_iff_not, if_true,
            Bool.false_eq_true, if_false, Bool.or_eq_false_iff] at total ⊢
          omega
    | true =>
      cases pressureReserved
      all_goals
        refine ⟨?_, ?_, ?_, ?_⟩
        all_goals
          simp only [PressureRun.held, EvalPressure.submit, EvalPressure.cancelReservations,
            unsaturated, Bool.toNat_true, Bool.toNat_false, Bool.false_or,
            decide_eq_false_iff_not, if_true, Bool.false_eq_true, if_false,
            List.countP_cons] at total ⊢ <;> omega
  | complete count =>
    obtain ⟨few, same⟩ := Option.ite_none_right_eq_some.mp moved
    cases same
    refine ⟨?_, reserved, ?_, once⟩
    all_goals
      simp only [EvalPressure.complete, unsaturated, Bool.false_or, decide_eq_false_iff_not]
      omega
  | finishEpisode episode =>
    obtain ⟨member, same⟩ := Option.ite_none_right_eq_some.mp moved
    cases same
    have total := countP_erase member
    rw [allowed episode (List.mem_singleton_self _), Bool.toNat_false] at total
    refine ⟨outstanding, ?_, unsaturated, ?_⟩
    all_goals
      simp only [PressureRun.held]
      omega
  | failLane lane =>
    obtain ⟨_, same⟩ := Option.ite_none_right_eq_some.mp moved
    cases same
    have kept := countP_others allowed
    refine ⟨outstanding, ?_, unsaturated, ?_⟩
    all_goals
      simp only [PressureRun.held, kept]
      omega

/-- While no episode ends before its first evaluation, every counter is what it
stands for. -/
theorem reservations_accounted
    (reached : (pressureSystem.guarded PressureRun.Allows).Reachable run) : Accounted run := by
  refine reached.invariant ?_ fun _ _ _ accounted moved => accounted.next moved.1 moved.2
  rintro _ rfl
  exact ⟨rfl, rfl, rfl, rfl⟩

/-- An episode submits an evaluation, is answered and ends. -/
theorem accounted_of_episode : Accounted ⟨⟨0, 0, false⟩, [], [], 1, 1, 1, 1, 0⟩ := by
  refine reservations_accounted ⟨_, rfl, [.request 0 1, .finishAdmission ⟨0, 1⟩ 1,
    .submit ⟨0, true⟩ true, .complete 1, .finishEpisode ⟨0, false⟩], ?_⟩
  refine .cons ⟨?_, rfl⟩ (.cons ⟨?_, rfl⟩ (.cons ⟨?_, rfl⟩ (.cons ⟨?_, rfl⟩ (.single ⟨?_, rfl⟩))))
  all_goals simp [PressureRun.Allows, PressureRun.ended]

/-- The root of a granted episode has no candidate: both players pass, and the
reservation stays. -/
theorem reservation_kept : pressureSystem.Reachable ⟨⟨0, 1, false⟩, [], [], 0, 0, 1, 0, 0⟩ ∧
    PressureRun.held ⟨⟨0, 1, false⟩, [], [], 0, 0, 1, 0, 0⟩ = 0 :=
  ⟨⟨_, rfl, [.request 0 1, .finishAdmission ⟨0, 1⟩ 1, .finishEpisode ⟨0, true⟩],
    .of_foldlM id rfl⟩, rfl⟩

end GraphZero.Orchestrator
