import GraphZero.Orchestrator.AdmissionBookkeeping

/-!
# The order of admissions

The lane at the front of the queue waits until it is granted a worker, unless
it asks too early: a refused request also sends it behind the other lanes that
wait.
-/

namespace GraphZero.Orchestrator

open Foundation List

namespace AdaptiveAdmissionSchedule

variable {F : Type} {lanes : Nat} {schedule : AdaptiveAdmissionSchedule F lanes}
  {lane other : Fin lanes}

/-- The lane is the first one and has workers that wait. -/
def AtFront (schedule : AdaptiveAdmissionSchedule F lanes) (lane : Fin lanes) : Prop :=
  schedule.waitingOrder.head? = some lane ∧ 0 < schedule.waiting lane

theorem head?_discardFrom (waiting : Fin lanes → Nat)
    (order : List (Fin lanes)) (queued : Fin lanes → Bool) :
    (discardFrom waiting order queued).1.head? =
      order.find? fun lane => decide (0 < waiting lane) := by
  induction order generalizing queued with
  | nil => rfl
  | cons first order ih =>
    unfold discardFrom
    split
    · next nobody =>
      rw [ih, find?_cons_of_neg]
      rw [nobody, decide_eq_true_eq]
      exact lt_irrefl 0
    · next somebody =>
      rw [find?_cons_of_pos]
      · rfl
      · exact decide_eq_true (Nat.pos_of_ne_zero somebody)

section

variable (front : schedule.AtFront lane)
include front

theorem AtFront.discardEmptyFront : schedule.discardEmptyFront.AtFront lane := by
  refine ⟨?_, front.2⟩
  obtain ⟨rest, order⟩ := head?_eq_some_iff.mp front.1
  refine (head?_discardFrom _ _ _).trans ?_
  rw [order]
  exact find?_cons_of_pos (decide_eq_true front.2)

theorem AtFront.queueLane : (schedule.queueLane other).AtFront lane := by
  obtain ⟨rest, order⟩ := head?_eq_some_iff.mp front.1
  obtain ⟨behind, whole⟩ : schedule.waitingOrder <+:
    (schedule.queueLane other).waitingOrder := queueLane_order
  refine ⟨?_, ?_⟩
  · rw [← whole, order]
    rfl
  · rw [queueLane_waiting]
    exact front.2

theorem AtFront.changing {waiting total bootstrap} (some : other = lane → 0 < waiting) :
    AtFront { schedule with
      waiting := Function.update schedule.waiting other waiting
      totalWaiting := total
      bootstrapAdmitted := bootstrap } lane := by
  refine ⟨front.1, ?_⟩
  dsimp only
  by_cases same : lane = other
  · rw [same, Function.update_self]
    exact some same.symm
  · rw [Function.update_of_ne same]
    exact front.2

theorem AtFront.clearLane (apart : other ≠ lane) : (schedule.clearLane other).AtFront lane :=
  AtFront.discardEmptyFront (front.changing fun same => absurd same apart)

theorem AtFront.restoreUnused {unused bootstrap} :
    (schedule.restoreUnused other unused bootstrap).AtFront lane := by
  unfold AdaptiveAdmissionSchedule.restoreUnused
  split
  · exact front
  · next some =>
    refine AtFront.queueLane (front.changing fun _ => ?_)
    exact lt_min (by omega) (by decide)

theorem AtFront.takeFromLane (apart : other ≠ lane) {count} :
    (schedule.takeFromLane other count).AtFront lane := by
  refine AtFront.discardEmptyFront ?_
  rw [if_neg]
  · exact front.changing fun same => absurd same apart
  · intro own
    exact apart (Option.some.inj (own.symm.trans front.1))

end

variable {asked : Fin lanes → Prop}

theorem Lined.not_mem_rest (lined : schedule.Lined asked) {rest}
    (order : schedule.waitingOrder = lane :: rest) : lane ∉ rest := by
  have distinct := lined.distinct
  rw [order] at distinct
  exact (nodup_cons.mp distinct).1

theorem AtFront.takeFromLane_zero (front : schedule.AtFront lane) (lined : schedule.Lined asked) :
    (schedule.takeFromLane lane 0).AtFront lane ↔ ∀ other ∈ schedule.waitingOrder, other ≠ lane →
        schedule.waiting other = 0 := by
  obtain ⟨rest, order⟩ := head?_eq_some_iff.mp front.1
  have absent := lined.not_mem_rest order
  have waiting : (schedule.takeFromLane lane 0).waiting = schedule.waiting := by
    rw [takeFromLane_waiting, Nat.sub_zero, Function.update_eq_self]
  have moved : (schedule.takeFromLane lane 0).waitingOrder.head? =
      (rest ++ [lane]).find? fun lane =>
        decide (0 < schedule.waiting lane) := by
    unfold AdaptiveAdmissionSchedule.takeFromLane
    simp only [Nat.min_zero, Nat.sub_zero, Function.update_eq_self, front.1, if_pos]
    refine (head?_discardFrom _ _ _).trans ?_
    unfold AdaptiveAdmissionSchedule.queueLane
    rw [if_pos ⟨front.2, Function.update_self lane false schedule.queued⟩, order]
    rfl
  unfold AtFront
  rw [moved, waiting, and_iff_left front.2, order, find?_append]
  constructor
  · intro first other member apart
    have behind := (mem_cons.mp member).resolve_left apart
    cases found : rest.find? fun lane =>
        decide (0 < schedule.waiting lane) with
    | none =>
      have nobody := find?_eq_none.mp found other behind
      rw [decide_eq_true_eq, Nat.not_lt, Nat.le_zero] at nobody
      exact nobody
    | some earlier =>
      rw [found] at first
      cases first
      exact absurd (mem_of_find?_eq_some found) absent
  · intro alone
    have nobody : (rest.find? fun lane =>
        decide (0 < schedule.waiting lane)) = none := by
      refine find?_eq_none.mpr fun other member => ?_
      have none := alone other (mem_cons_of_mem _ member) fun same => absent (same ▸ member)
      rw [none, decide_eq_true_eq]
      exact lt_irrefl 0
    rw [nobody, Option.none_or, find?_cons_of_pos]
    exact decide_eq_true front.2

theorem AtFront.queueLane_eq_self (front : schedule.AtFront lane) (lined : schedule.Lined asked) :
    schedule.queueLane lane = schedule := by
  unfold AdaptiveAdmissionSchedule.queueLane
  rw [if_neg]
  rintro ⟨_, free⟩
  have queued := (lined.marked lane).mp (mem_of_head? front.1)
  exact Bool.noConfusion (queued.symm.trans free)

section Asking

variable [Seconds F] {idleWorkers capacityWork capacityBusyNs outstanding : Nat}

theorem AtFront.observed (front : schedule.AtFront lane) (some : other = lane → 0 < idleWorkers) :
    (schedule.observed other idleWorkers capacityWork capacityBusyNs outstanding).AtFront lane := by
  have same := schedule.sameQueue_observeEvalCapacity capacityWork capacityBusyNs outstanding
  have seen : (schedule.observeEvalCapacity capacityWork capacityBusyNs
      outstanding).AtFront lane := by
    refine ⟨?_, ?_⟩
    · rw [same.waitingOrder]
      exact front.1
    · rw [same.waiting]
      exact front.2
  exact AtFront.discardEmptyFront (AtFront.queueLane (seen.changing some))

omit [Seconds F] in
theorem AtFront.discardEmptyFront_eq_self (front : schedule.AtFront lane) :
    schedule.discardEmptyFront = schedule := by
  refine AdaptiveAdmissionSchedule.discardEmptyFront_eq_self fun first own => ?_
  cases front.1.symm.trans own
  exact front.2

theorem AtFront.observed_waitingOrder {asked} (front : schedule.AtFront lane)
    (lined : schedule.Lined asked) (some : 0 < idleWorkers) :
    (schedule.observed lane idleWorkers capacityWork capacityBusyNs
      outstanding).waitingOrder = schedule.waitingOrder := by
  have same := schedule.sameQueue_observeEvalCapacity capacityWork capacityBusyNs outstanding
  unfold AdaptiveAdmissionSchedule.observed setWaiting
  generalize schedule.observeEvalCapacity capacityWork capacityBusyNs outstanding = seen at *
  have place : seen.AtFront lane := by
    refine ⟨?_, ?_⟩
    · rw [same.waitingOrder]
      exact front.1
    · rw [same.waiting]
      exact front.2
  have changed : AtFront { seen with
      totalWaiting := usizeSaturatingAdd (seen.totalWaiting - seen.waiting lane) idleWorkers
      waiting := Function.update seen.waiting lane idleWorkers } lane :=
    place.changing fun _ => some
  dsimp only
  rw [changed.queueLane_eq_self ((lined.same same).changing lane),
    changed.discardEmptyFront_eq_self]
  exact same.waitingOrder

theorem admissionGap_observed : (schedule.observed other idleWorkers capacityWork capacityBusyNs
        outstanding).admissionGap =
      (schedule.observeEvalCapacity capacityWork capacityBusyNs outstanding).admissionGap := by
  unfold AdaptiveAdmissionSchedule.observed setWaiting AdaptiveAdmissionSchedule.queueLane
  dsimp only
  split
  · rfl
  · rfl

end Asking

end AdaptiveAdmissionSchedule

namespace AdmissionRun

variable {F : Type} [Seconds F] {lanes : Nat}
  {run target : AdmissionRun F lanes} {label : Label lanes} {lane : Fin lanes}

/-- The lane gives up the requests it has made. -/
def Label.Clears (lane : Fin lanes) : Label lanes → Prop
  | .request _ asking idleWorkers _ _ _ => asking = lane ∧ idleWorkers = 0
  | .finishAdmission reporting _ rootsExhausted => reporting = lane ∧ rootsExhausted = true
  | .clearLane cleared => cleared = lane
  | .observeEpisodeWork _ => False

/-- The front lane asks for workers while none is due and others wait behind
it. -/
def Early (run : AdmissionRun F lanes) : Label lanes → Prop
  | .request now asking idleWorkers capacityWork capacityBusyNs outstanding =>
    run.schedule.waitingOrder.head? = some asking ∧ idleWorkers ≠ 0 ∧
      run.schedule.bootstrapAdmitted = true ∧
      ((run.schedule.observeEvalCapacity capacityWork capacityBusyNs
          outstanding).admissionGap.join.isSome = true →
        now < run.schedule.nextAdmission) ∧
      ∃ other ∈ run.schedule.waitingOrder, other ≠ asking ∧ 0 < run.schedule.waiting other
  | _ => False

/-- In between the lane was let in before any other one, or it still is at the
front. -/
def InPlace (run : AdmissionRun F lanes) (lane : Fin lanes)
    (target : AdmissionRun F lanes) : Prop :=
  ∃ later, target.grants = run.grants ++ later ∧ match later with
    | [] => target.schedule.AtFront lane
    | first :: _ => first.lane = lane

omit [Seconds F] in
theorem InPlace.refl (front : run.schedule.AtFront lane) : run.InPlace lane run :=
  ⟨[], (append_nil _).symm, front⟩

omit [Seconds F] in
theorem inPlace_of_grants (grants : target.grants = run.grants) :
    run.InPlace lane target ↔ target.schedule.AtFront lane := by
  constructor
  · rintro ⟨later, own, place⟩
    rw [grants] at own
    obtain rfl := self_eq_append_right.mp own
    exact place
  · intro front
    exact ⟨[], grants.trans (append_nil _).symm, front⟩

omit [Seconds F] in
theorem InPlace.trans {mid} (before : run.InPlace lane mid)
    (after : mid.schedule.AtFront lane → mid.InPlace lane target)
    (grown : mid.grants <+: target.grants) : run.InPlace lane target := by
  obtain ⟨earlier, own, place⟩ := before
  cases earlier with
  | nil =>
    obtain ⟨later, whole, place⟩ := after place
    rw [own, append_nil] at whole
    exact ⟨later, whole, place⟩
  | cons first rest =>
    obtain ⟨more, whole⟩ := grown
    rw [own, append_assoc] at whole
    exact ⟨(first :: rest) ++ more, whole.symm, place⟩

theorem grants_grown (step : run.next label = some target) : run.grants <+: target.grants := by
  cases label with
  | request now asking idleWorkers capacityWork capacityBusyNs outstanding =>
    dsimp only [next] at step
    split at step
    · obtain ⟨_, _, rfl⟩ := Option.map_eq_some_iff.mp step
      exact prefix_append _ _
    · cases step
  | finishAdmission reporting admitted rootsExhausted =>
    dsimp only [next] at step
    split at step
    · cases step
    split at step
    · cases step
      exact prefix_rfl
    · cases step
  | clearLane cleared =>
    dsimp only [next] at step
    split at step
    · cases step
      exact prefix_rfl
    · cases step
  | observeEpisodeWork evaluations =>
    cases step
    exact prefix_rfl

section Answers

variable {now : Duration} {asking : Fin lanes}
  {idleWorkers capacityWork capacityBusyNs outstanding : Nat} {decision : AdmissionDecision}
  {observed schedule : AdaptiveAdmissionSchedule F lanes}

theorem afterRequest_grants_of_eq_zero (nothing : decision.limit = 0) :
    (run.afterRequest now asking observed decision schedule).grants = run.grants := by
  unfold afterRequest
  dsimp only
  rw [nothing, if_neg (lt_irrefl 0), append_nil]

theorem inPlace_afterRequest_of_pos (some : 0 < decision.limit) : run.InPlace asking
      (run.afterRequest now asking observed decision schedule) := by
  unfold InPlace afterRequest
  dsimp only
  rw [if_pos some]
  exact ⟨_, rfl, rfl⟩

theorem inPlace_request_of_ne (front : run.schedule.AtFront lane) (apart : asking ≠ lane)
    (step : run.next (.request now asking idleWorkers capacityWork
      capacityBusyNs outstanding) = some target) :
    run.InPlace lane target := by
  dsimp only [next] at step
  split at step
  case isFalse => cases step
  obtain ⟨⟨decision, schedule⟩, answer, rfl⟩ := Option.map_eq_some_iff.mp step
  have seen : (run.schedule.observed asking idleWorkers capacityWork
      capacityBusyNs outstanding).AtFront lane :=
    front.observed fun same => absurd same apart
  unfold AdaptiveAdmissionSchedule.request at answer
  generalize run.schedule.observed asking idleWorkers capacityWork
    capacityBusyNs outstanding = observed at *
  split at answer
  · cases answer
    exact (inPlace_of_grants (afterRequest_grants_of_eq_zero rfl)).mpr seen
  obtain ⟨gap, _, answered⟩ := Option.map_eq_some_iff.mp answer
  obtain ⟨isFront, first, paced, granted, same⟩ :=
    observed.discardEmptyFront.granted now asking gap
  have place := seen.discardEmptyFront
  rw [answered] at same
  obtain rfl : decision = (observed.discardEmptyFront.letIn now asking gap
    isFront first paced).1 := congrArg Prod.fst same
  obtain rfl : schedule = (observed.discardEmptyFront.letIn now asking gap
    isFront first paced).2 := congrArg Prod.snd same
  cases granted with
  | bootstrap own first => exact absurd (Option.some.inj (own.symm.trans place.1)) apart
  | paced own later known due => exact absurd (Option.some.inj (own.symm.trans place.1)) apart
  | nothing refused =>
    exact (inPlace_of_grants (afterRequest_grants_of_eq_zero rfl)).mpr (place.takeFromLane apart)

theorem inPlace_request_self (sound : run.Sound)
    (front : run.schedule.AtFront lane) (some : idleWorkers ≠ 0)
    (step : run.next (.request now lane idleWorkers capacityWork
      capacityBusyNs outstanding) = .some target) :
    run.InPlace lane target ↔ ¬ run.Early (.request now lane idleWorkers capacityWork capacityBusyNs
        outstanding) := by
  dsimp only [next] at step
  split at step
  case isFalse => cases step
  next possible =>
  obtain ⟨⟨decision, schedule⟩, answer, rfl⟩ := Option.map_eq_some_iff.mp step
  have pos := Nat.pos_of_ne_zero some
  have seen : (run.schedule.observed lane idleWorkers capacityWork
      capacityBusyNs outstanding).AtFront lane :=
    front.observed fun _ => pos
  have order : (run.schedule.observed lane idleWorkers capacityWork
      capacityBusyNs outstanding).waitingOrder = run.schedule.waitingOrder :=
    front.observed_waitingOrder sound.lined pos
  obtain ⟨lined, _⟩ := sound.observed lane capacityWork capacityBusyNs outstanding possible.2.2.2
  obtain ⟨waiting, next, bootstrap⟩ :=
    AdaptiveAdmissionSchedule.observed_eq run.schedule lane idleWorkers
      capacityWork capacityBusyNs outstanding
  have pays : (run.schedule.observed lane idleWorkers capacityWork
      capacityBusyNs outstanding).admissionGap = _ :=
    AdaptiveAdmissionSchedule.admissionGap_observed
  unfold AdaptiveAdmissionSchedule.request at answer
  rw [if_neg some, seen.discardEmptyFront_eq_self] at answer
  unfold Early
  dsimp only
  rw [← pays, ← order, ← next, ← bootstrap]
  generalize run.schedule.observed lane idleWorkers capacityWork
    capacityBusyNs outstanding = observed at *
  obtain ⟨gap, known, answered⟩ := Option.map_eq_some_iff.mp answer
  obtain ⟨isFront, first, paced, granted, same⟩ := observed.granted now lane gap
  rw [answered] at same
  obtain rfl : decision = (observed.letIn now lane gap isFront first paced).1 :=
    congrArg Prod.fst same
  obtain rfl : schedule = (observed.letIn now lane gap isFront first paced).2 :=
    congrArg Prod.snd same
  have join : observed.admissionGap.join = gap := by
    rw [known]
    rfl
  rw [join]
  cases granted with
  | bootstrap own first =>
    refine iff_of_true (inPlace_afterRequest_of_pos Nat.one_pos) ?_
    rintro ⟨_, _, later, _⟩
    exact Bool.noConfusion (first.symm.trans later)
  | paced own later known due =>
    refine iff_of_true (inPlace_afterRequest_of_pos Nat.one_pos) ?_
    rintro ⟨_, _, _, early, _⟩
    exact absurd (early known) (Nat.not_lt.mpr due)
  | nothing refused =>
    rw [inPlace_of_grants (afterRequest_grants_of_eq_zero rfl)]
    obtain ⟨later, early⟩ := refused seen.1
    have behind (other : Fin lanes) (apart : other ≠ lane) :
        observed.waiting other = run.schedule.waiting other := by
      rw [waiting, Function.update_of_ne apart]
    refine Iff.trans (seen.takeFromLane_zero lined) ?_
    constructor
    · rintro alone ⟨_, _, _, _, other, member, apart, waits⟩
      rw [← behind other apart] at waits
      exact absurd (alone other member apart) waits.ne'
    · intro notEarly other member apart
      rw [behind other apart]
      by_contra waits
      exact notEarly ⟨seen.1, some, later, early, other, member, apart, Nat.pos_of_ne_zero waits⟩

end Answers

/-- The lane at the front keeps its place in a step exactly if it does not
ask early. -/
theorem inPlace_iff_of_next (sound : run.Sound)
    (front : run.schedule.AtFront lane) (kept : ¬ label.Clears lane)
    (step : run.next label = some target) :
    run.InPlace lane target ↔ ¬ run.Early label := by
  cases label with
  | request now asking idleWorkers capacityWork capacityBusyNs outstanding =>
    by_cases same : asking = lane
    · rw [same] at step kept ⊢
      exact inPlace_request_self sound front (fun nobody => kept ⟨rfl, nobody⟩) step
    · refine iff_of_true (inPlace_request_of_ne front same step) ?_
      rintro ⟨own, _⟩
      exact same (Option.some.inj (own.symm.trans front.1))
  | finishAdmission reporting admitted rootsExhausted =>
    refine iff_of_true ?_ fun early => early
    dsimp only [next] at step
    split at step
    · cases step
    split at step
    case isFalse => cases step
    cases step
    refine (inPlace_of_grants rfl).mpr ?_
    split
    · next exhausted =>
      exact front.restoreUnused.clearLane fun same =>
        kept ⟨same, exhausted⟩
    · exact front.restoreUnused
  | clearLane cleared =>
    refine iff_of_true ?_ fun early => early
    dsimp only [next] at step
    split at step
    · cases step
      exact (inPlace_of_grants rfl).mpr (front.clearLane kept)
    · cases step
  | observeEpisodeWork evaluations =>
    refine iff_of_true ?_ fun early => early
    cases step
    have same := run.schedule.sameQueue_observeEpisodeWork evaluations
    refine (inPlace_of_grants rfl).mpr ⟨?_, ?_⟩
    · rw [same.waitingOrder]
      exact front.1
    · rw [same.waiting]
      exact front.2

/-- A lane at the front keeps its place until it is let in or gives up, in
every run without early requests. -/
theorem inPlace_of_run {labels : List (Label lanes)}
    (reachable : (admissionSystem F lanes).Reachable run)
    (front : run.schedule.AtFront lane)
    (steps : ((admissionSystem F lanes).guarded
      fun run label => ¬ run.Early label).Run run labels target)
    (kept : ∀ label ∈ labels, ¬ label.Clears lane) :
    run.InPlace lane target := by
  have both : target.Sound ∧ run.InPlace lane target := by
    refine @TransitionSystem.Run.invariant_of_labels _ _ _
      (fun state => state.Sound ∧ run.InPlace lane state) _ _ _ _ steps kept
      (fun state label next kept good step => ?_)
      ⟨sound_of_reachable reachable, .refl front⟩
    obtain ⟨sound, place⟩ := good
    refine ⟨sound.move step.2, place.trans (fun front => ?_) (grants_grown step.2)⟩
    exact (inPlace_iff_of_next sound front kept step.2).mpr step.1
  exact both.2

end AdmissionRun

namespace AdmissionSample

theorem exists_waiting : ∃ run : AdmissionRun (Exact ℚ) 2,
      (admissionSystem (Exact ℚ) 2).Reachable run ∧ run.schedule.AtFront 0 ∧
        (∃ target, patient.foldlM AdmissionRun.next run = some target) ∧
        ∃ target, overtaken.foldlM AdmissionRun.next run = some target ∧
          target.grants.map (·.lane) = run.grants.map (·.lane) ++ [1] := by
  have seen : (admissions waiting).map (fun run =>
      (decide (run.schedule.waitingOrder.head? = some 0), decide (0 < run.schedule.waiting 0),
        (patient.foldlM AdmissionRun.next run).isSome,
        (overtaken.foldlM AdmissionRun.next run).map fun target =>
          decide (target.grants.map (·.lane) = run.grants.map (·.lane) ++ [1]))) =
      some (true, true, true, some true) := by
    decide +kernel
  obtain ⟨run, followed, facts⟩ := Option.map_eq_some_iff.mp seen
  obtain ⟨first, facts⟩ := Prod.mk.inj facts
  obtain ⟨waits, facts⟩ := Prod.mk.inj facts
  obtain ⟨patient, overtaken⟩ := Prod.mk.inj facts
  obtain ⟨target, moved, lanes⟩ := Option.map_eq_some_iff.mp overtaken
  exact ⟨run, reachable_of_admissions followed, ⟨of_decide_eq_true first, of_decide_eq_true waits⟩,
    Option.isSome_iff_exists.mp patient, target, moved,
    of_decide_eq_true lanes⟩

end AdmissionSample

namespace AdmissionRun

theorem inPlace_of_patient : ∃ run target : AdmissionRun (Exact ℚ) 2,
      run.schedule.AtFront 0 ∧ run.InPlace 0 target := by
  obtain ⟨run, reachable, front, ⟨target, moved⟩, _⟩ := AdmissionSample.exists_waiting
  have step : run.next (.request 1 1 2 0 0 1) = some target := by
    rw [← moved]
    exact (bind_pure _).symm
  refine ⟨run, target, front, inPlace_of_run reachable front
    (TransitionSystem.Run.single ⟨?_, step⟩) fun label member => ?_⟩
  · rintro ⟨own, _⟩
    cases front.1.symm.trans own
  · cases mem_singleton.mp member
    rintro ⟨own, _⟩
    cases own

/-- A refused request sends the front lane behind one that is let in next. -/
theorem not_inPlace : ∃ (run target : AdmissionRun (Exact ℚ) 2) (lane : Fin 2)
        (labels : List (Label 2)),
      (admissionSystem (Exact ℚ) 2).Reachable run ∧ run.schedule.AtFront lane ∧
        (admissionSystem (Exact ℚ) 2).Run run labels target ∧
        (∀ label ∈ labels, ¬ label.Clears lane) ∧
        ¬ run.InPlace lane target := by
  obtain ⟨run, reachable, front, _, target, moved, lanes⟩ := AdmissionSample.exists_waiting
  refine ⟨run, target, 0, AdmissionSample.overtaken, reachable, front,
    TransitionSystem.Run.of_foldlM (fun step => step) moved, ?_, ?_⟩
  · refine forall_mem_cons.mpr ⟨fun own => absurd own.2 (by decide),
      forall_mem_singleton.mpr fun own => absurd own.1 (by decide)⟩
  rintro ⟨later, whole, place⟩
  rw [whole, map_append] at lanes
  have other := append_cancel_left lanes
  cases later with
  | nil => cases other
  | cons first rest =>
    have own : first.lane = 1 := (List.cons.inj other).1
    exact absurd (place.symm.trans own) (by decide)

end AdmissionRun

end GraphZero.Orchestrator
