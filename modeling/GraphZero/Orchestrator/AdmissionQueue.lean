import GraphZero.Orchestrator.Admission
import Mathlib.Algebra.BigOperators.Fin
import Mathlib.Algebra.Order.BigOperators.Group.Finset

/-!
# The queue of lanes

A lane stands in the queue at most once, exactly if it is marked, and the
workers that wait are counted once for all lanes together.
-/

namespace GraphZero.Orchestrator

open Foundation List

namespace AdaptiveAdmissionSchedule

variable {F : Type} {lanes : Nat} {schedule : AdaptiveAdmissionSchedule F lanes}
  {asked : Fin lanes → Prop} {lane other : Fin lanes}

/-- Of the lanes that have asked, those with workers that wait are queued. -/
structure Lined (asked : Fin lanes → Prop)
    (schedule : AdaptiveAdmissionSchedule F lanes) : Prop where
  distinct : schedule.waitingOrder.Nodup
  marked : ∀ lane, lane ∈ schedule.waitingOrder ↔ schedule.queued lane = true
  waits : ∀ lane, asked lane → 0 < schedule.waiting lane → schedule.queued lane = true

def Counted (schedule : AdaptiveAdmissionSchedule F lanes) : Prop :=
  schedule.totalWaiting = ∑ lane, schedule.waiting lane

theorem Lined.weaken {fewer} (lined : schedule.Lined asked)
    (less : ∀ lane, fewer lane → asked lane) : schedule.Lined fewer :=
  { lined with waits := fun lane own => lined.waits lane (less lane own) }

theorem discardFrom_eq (waiting : Fin lanes → Nat) (order : List (Fin lanes))
    (queued : Fin lanes → Bool) :
    ∃ dropped, order = dropped ++ (discardFrom waiting order queued).1 ∧
      (∀ lane ∈ dropped, waiting lane = 0) ∧
      (∀ lane ∈ (discardFrom waiting order queued).1.head?, 0 < waiting lane) ∧
      ∀ lane, (discardFrom waiting order queued).2 lane = true ↔
        queued lane = true ∧ lane ∉ dropped := by
  induction order generalizing queued with
  | nil =>
    refine ⟨[], rfl, forall_mem_nil _, nofun, fun lane => ?_⟩
    exact (and_iff_left not_mem_nil).symm
  | cons first order ih =>
    unfold discardFrom
    split
    · next nobody =>
      obtain ⟨dropped, whole, empty, front, marks⟩ := ih (Function.update queued first false)
      refine ⟨first :: dropped, congrArg (first :: ·) whole,
        forall_mem_cons.mpr ⟨nobody, empty⟩, front, fun lane => ?_⟩
      rw [marks, mem_cons, not_or]
      by_cases same : lane = first
      · rw [same, Function.update_self]
        exact iff_of_false (fun both => Bool.noConfusion both.1) fun both => both.2.1 rfl
      · rw [Function.update_of_ne same, and_iff_right same]
    next somebody =>
    refine ⟨[], rfl, forall_mem_nil _, fun lane here => ?_,
      fun lane => (and_iff_left not_mem_nil).symm⟩
    cases here
    exact Nat.pos_of_ne_zero somebody

@[simp]
theorem discardEmptyFront_waiting : schedule.discardEmptyFront.waiting = schedule.waiting :=
  rfl

@[simp]
theorem discardEmptyFront_totalWaiting :
    schedule.discardEmptyFront.totalWaiting = schedule.totalWaiting :=
  rfl

theorem Lined.discardEmptyFront (lined : schedule.Lined asked) :
    schedule.discardEmptyFront.Lined asked := by
  obtain ⟨dropped, whole, empty, _, marks⟩ :=
    discardFrom_eq schedule.waiting schedule.waitingOrder schedule.queued
  have distinct := lined.distinct
  rw [whole] at distinct
  obtain ⟨_, rest, apart⟩ := nodup_append.mp distinct
  refine ⟨rest, fun lane => ?_, fun lane own some => ?_⟩
  · refine Iff.trans ?_ (marks lane).symm
    rw [← lined.marked, whole, mem_append]
    constructor
    · intro later
      exact ⟨.inr later, fun dropped => apart _ dropped _ later rfl⟩
    · rintro ⟨dropped | later, kept⟩
      · exact absurd dropped kept
      · exact later
  · refine (marks lane).mpr ⟨lined.waits lane own some, fun dropped => ?_⟩
    exact absurd (empty lane dropped) some.ne'

theorem discardEmptyFront_eq_self (front : ∀ lane ∈ schedule.waitingOrder.head?,
      0 < schedule.waiting lane) :
    schedule.discardEmptyFront = schedule := by
  unfold AdaptiveAdmissionSchedule.discardEmptyFront
  cases order : schedule.waitingOrder with
  | nil =>
    unfold discardFrom
    rw [← order]
  | cons first rest =>
    have some : 0 < schedule.waiting first := front first (by rw [order]; rfl)
    unfold discardFrom
    rw [if_neg some.ne', ← order]

@[simp]
theorem queueLane_waiting : (schedule.queueLane lane).waiting = schedule.waiting := by
  unfold queueLane
  split
  · rfl
  · rfl

@[simp]
theorem queueLane_totalWaiting :
    (schedule.queueLane lane).totalWaiting = schedule.totalWaiting := by
  unfold queueLane
  split
  · rfl
  · rfl

theorem queueLane_order : schedule.waitingOrder <+: (schedule.queueLane lane).waitingOrder := by
  unfold queueLane
  split
  · exact prefix_append _ _
  · exact prefix_rfl

theorem Lined.queueLane (lined : schedule.Lined fun other => asked other ∧ other ≠ lane) :
    (schedule.queueLane lane).Lined asked := by
  unfold AdaptiveAdmissionSchedule.queueLane
  split
  · next possible =>
    obtain ⟨some, free⟩ := possible
    have absent : lane ∉ schedule.waitingOrder := by
      rw [lined.marked, free]
      exact Bool.false_ne_true
    refine ⟨?_, fun other => ?_, fun other own waits => ?_⟩
    · refine nodup_append.mpr ⟨lined.distinct, nodup_singleton _, ?_⟩
      rintro first earlier last here rfl
      exact absent (mem_singleton.mp here ▸ earlier)
    · dsimp only
      rw [mem_append, mem_singleton, lined.marked]
      by_cases same : other = lane
      · rw [same, Function.update_self]
        exact iff_of_true (.inr rfl) rfl
      · rw [Function.update_of_ne same, or_iff_left same]
    · by_cases same : other = lane
      · rw [same]
        exact Function.update_self lane true schedule.queued
      · exact (Function.update_of_ne same true schedule.queued).trans
          (lined.waits other ⟨own, same⟩ waits)
  next impossible =>
  refine ⟨lined.distinct, lined.marked, fun other own waits => ?_⟩
  by_cases same : other = lane
  · rw [same] at waits ⊢
    rw [not_and, Bool.not_eq_false] at impossible
    exact impossible waits
  · exact lined.waits other ⟨own, same⟩ waits

section

variable (lined : schedule.Lined asked)
include lined

theorem Lined.changing (lane : Fin lanes) {waiting total bootstrap} :
    Lined (fun other => asked other ∧ other ≠ lane) { schedule with
      waiting := Function.update schedule.waiting lane waiting
      totalWaiting := total
      bootstrapAdmitted := bootstrap } where
  distinct := lined.distinct
  marked := lined.marked
  waits other own waits := by
    dsimp only at waits
    rw [Function.update_of_ne own.2] at waits
    exact lined.waits other own.1 waits

theorem Lined.setWaiting {idleWorkers} :
    (schedule.setWaiting lane idleWorkers).Lined fun other => asked other ∨ other = lane := by
  refine Lined.discardEmptyFront (Lined.queueLane ?_)
  refine (lined.changing lane).weaken fun other own => ?_
  exact ⟨own.1.resolve_right own.2, own.2⟩

theorem Lined.fewer (total : Nat) {waiting} (less : waiting ≤ schedule.waiting lane) :
    Lined asked { schedule with
      waiting := Function.update schedule.waiting lane waiting
      totalWaiting := total } where
  distinct := lined.distinct
  marked := lined.marked
  waits other own waits := by
    dsimp only at waits
    by_cases same : other = lane
    · rw [same] at own waits ⊢
      rw [Function.update_self] at waits
      exact lined.waits lane own (waits.trans_le less)
    · rw [Function.update_of_ne same] at waits
      exact lined.waits other own waits

theorem Lined.takeFromLane {count} : (schedule.takeFromLane lane count).Lined asked := by
  have taken := lined.fewer (schedule.totalWaiting - min (schedule.waiting lane) count)
    (Nat.sub_le (schedule.waiting lane) (min (schedule.waiting lane) count))
  refine Lined.discardEmptyFront ?_
  split
  · next front =>
    obtain ⟨rest, order⟩ := head?_eq_some_iff.mp front
    have distinct := lined.distinct
    rw [order] at distinct
    obtain ⟨absent, rest⟩ := nodup_cons.mp distinct
    refine Lined.queueLane ⟨?_, fun other => ?_, fun other own waits => ?_⟩
    · rw [order]
      exact rest
    · change other ∈ schedule.waitingOrder.tail ↔
        Function.update schedule.queued lane false other = true
      rw [order, tail_cons]
      by_cases same : other = lane
      · rw [same, Function.update_self]
        exact iff_of_false absent Bool.false_ne_true
      · rw [Function.update_of_ne same, ← lined.marked, order, mem_cons, or_iff_right same]
    · change Function.update schedule.queued lane false other = true
      rw [Function.update_of_ne own.2]
      exact taken.waits other own.1 waits
  · exact taken

theorem Lined.clearLane : (schedule.clearLane lane).Lined asked :=
  Lined.discardEmptyFront (lined.fewer _ (Nat.zero_le _))

theorem Lined.restoreUnused {unused bootstrap} :
    (schedule.restoreUnused lane unused bootstrap).Lined asked := by
  unfold AdaptiveAdmissionSchedule.restoreUnused
  split
  · exact lined
  · exact Lined.queueLane (lined.changing lane)

end

theorem sum_update (values : Fin lanes → Nat) (lane : Fin lanes) (value : Nat) :
    (∑ other, Function.update values lane value other) + values lane =
      (∑ other, values other) + value := by
  have same : ∑ other ∈ Finset.univ.erase lane, Function.update values lane value other =
      ∑ other ∈ Finset.univ.erase lane, values other :=
    Finset.sum_congr rfl fun other member =>
      Function.update_of_ne (Finset.ne_of_mem_erase member) _ _
  rw [← Finset.add_sum_erase _ _ (Finset.mem_univ lane), same,
    ← Finset.add_sum_erase Finset.univ values (Finset.mem_univ lane),
    Function.update_self]
  omega

section

variable (counted : schedule.Counted)
include counted

theorem Counted.le_total : schedule.waiting lane ≤ schedule.totalWaiting := by
  rw [counted]
  exact Finset.single_le_sum_of_canonicallyOrdered (Finset.mem_univ lane)

theorem Counted.setWaiting {idleWorkers}
    (small : ∑ other, Function.update schedule.waiting lane idleWorkers other ≤ usizeMax) :
    (schedule.setWaiting lane idleWorkers).Counted := by
  have sum := sum_update schedule.waiting lane idleWorkers
  have part : schedule.waiting lane ≤ schedule.totalWaiting := counted.le_total
  unfold Counted at counted
  unfold Counted AdaptiveAdmissionSchedule.setWaiting usizeSaturatingAdd
  simp only [discardEmptyFront_totalWaiting, queueLane_totalWaiting,
    discardEmptyFront_waiting, queueLane_waiting]
  omega

theorem Counted.takeFromLane {count} : (schedule.takeFromLane lane count).Counted := by
  have sum := sum_update schedule.waiting lane
    (schedule.waiting lane - min (schedule.waiting lane) count)
  unfold Counted at counted
  unfold Counted AdaptiveAdmissionSchedule.takeFromLane
  dsimp only
  split
  · simp only [discardEmptyFront_totalWaiting, queueLane_totalWaiting,
      discardEmptyFront_waiting, queueLane_waiting]
    omega
  · simp only [discardEmptyFront_totalWaiting, discardEmptyFront_waiting]
    omega

theorem Counted.clearLane : (schedule.clearLane lane).Counted := by
  have sum := sum_update schedule.waiting lane 0
  unfold Counted at counted
  unfold Counted AdaptiveAdmissionSchedule.clearLane
  simp only [discardEmptyFront_totalWaiting, discardEmptyFront_waiting]
  omega

theorem Counted.restoreUnused {unused bootstrap}
    (small : ∑ other, Function.update schedule.waiting lane
      (schedule.waiting lane + unused) other ≤ usizeMax) :
    (schedule.restoreUnused lane unused bootstrap).Counted := by
  have part : schedule.waiting lane ≤ schedule.totalWaiting := counted.le_total
  unfold AdaptiveAdmissionSchedule.restoreUnused
  split
  · exact counted
  have sum := sum_update schedule.waiting lane (schedule.waiting lane + unused)
  unfold Counted at counted
  unfold Counted usizeSaturatingAdd
  simp only [queueLane_totalWaiting, queueLane_waiting]
  rw [min_eq_left (by omega), min_eq_left (by omega)]
  omega

end

end AdaptiveAdmissionSchedule

end GraphZero.Orchestrator
