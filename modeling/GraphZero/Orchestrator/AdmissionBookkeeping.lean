import GraphZero.Orchestrator.AdmissionSystem
import Mathlib.Data.Rat.Floor

/-!
# Bookkeeping of admissions

In every run the workers that wait are counted once, lanes stand in the queue
at most once and those with workers do, only the front lane is granted
anything, and a paced grant comes no earlier than the last gap allows.
-/

namespace GraphZero.Orchestrator

open Foundation List

namespace AdmissionRun

variable {F : Type} [Seconds F] {lanes : Nat}
  {run target : AdmissionRun F lanes} {label : Label lanes}

/-- When the next worker is due after those that were let in. -/
def dueAfter (grants : List (AdmissionGrant lanes)) : Duration :=
  grants.foldl (fun due grant =>
    AdaptiveAdmissionSchedule.dueAt grant.time grant.gap due) 0

structure Sound (run : AdmissionRun F lanes) : Prop where
  lined : run.schedule.Lined (run.asked · = true)
  counted : run.schedule.Counted
  share : ∀ lane, run.schedule.waiting lane + run.granted lane ≤ run.workersPerLane
  small : lanes * run.workersPerLane ≤ usizeMax
  fronts : ∀ grant ∈ run.grants, grant.order.head? = some grant.lane ∧ grant.count ≤ grant.waiting
  bootstraps : (run.grants.filter (·.bootstrap)).length ≤
    run.handedBack + run.schedule.bootstrapAdmitted.toNat
  due : run.schedule.nextAdmission = dueAfter run.grants
  paced : ∀ before grant after, run.grants = before ++ grant :: after →
    grant.bootstrap = false → dueAfter before ≤ grant.time

theorem sum_le {values : Fin lanes → Nat} {share} (each : ∀ lane, values lane ≤ share) :
    ∑ lane, values lane ≤ lanes * share := by
  have sum := Finset.sum_le_card_nsmul Finset.univ values share fun lane _ => each lane
  rwa [Finset.card_univ, Fintype.card_fin, smul_eq_mul] at sum

theorem sound_of_started (started : run.Started) : run.Sound := by
  obtain ⟨totalWorkers, _, _, _, schedule, small, made, rfl⟩ := started
  unfold AdaptiveAdmissionSchedule.new at made
  split at made
  · cases made
  next even =>
  cases made
  have whole : totalWorkers = lanes * (totalWorkers / lanes) :=
    (Nat.mul_div_cancel' (Nat.dvd_of_mod_eq_zero (not_not.mp even))).symm
  refine ⟨⟨nodup_nil, fun lane => ?_, nofun⟩, ?_, fun lane => le_rfl,
    ?_, forall_mem_nil _, le_rfl, rfl, fun before grant after own => ?_⟩
  · exact iff_of_false not_mem_nil Bool.false_ne_true
  · change totalWorkers = ∑ lane : Fin lanes, totalWorkers / lanes
    rw [Finset.sum_const, Finset.card_univ, Fintype.card_fin, smul_eq_mul]
    exact whole
  · exact whole ▸ small
  · have none := congrArg List.length own
    rw [length_append, length_cons] at none
    change 0 = _ at none
    omega

/-! ## Requests -/

theorem Sound.observed (sound : run.Sound) (lane : Fin lanes)
    {idleWorkers : Nat} (capacityWork capacityBusyNs outstanding : Nat)
    (room : idleWorkers ≤ run.workersPerLane) :
    let observed := run.schedule.observed lane idleWorkers capacityWork capacityBusyNs outstanding
    observed.Lined (Function.update run.asked lane true · = true) ∧ observed.Counted := by
  have same := run.schedule.sameQueue_observeEvalCapacity capacityWork capacityBusyNs outstanding
  refine ⟨?_, ?_⟩
  · refine ((sound.lined.same same).setWaiting).weaken fun other own => ?_
    by_cases here : other = lane
    · exact .inr here
    · rw [Function.update_of_ne here] at own
      exact .inl own
  · refine (sound.counted.same same).setWaiting (le_trans ?_ sound.small)
    refine sum_le fun other => ?_
    by_cases here : other = lane
    · rw [here, Function.update_self]
      exact room
    · rw [Function.update_of_ne here, same.waiting]
      exact (Nat.le_add_right _ _).trans (sound.share other)

section

variable {grants : List (AdmissionGrant lanes)} {grant : AdmissionGrant lanes}

theorem dueAfter_concat :
    dueAfter (grants ++ [grant]) = AdaptiveAdmissionSchedule.dueAt grant.time grant.gap
        (dueAfter grants) := by
  unfold dueAfter
  rw [foldl_append]
  rfl

theorem length_bootstraps_concat : ((grants ++ [grant]).filter (·.bootstrap)).length =
      (grants.filter (·.bootstrap)).length + grant.bootstrap.toNat := by
  rw [filter_append, length_append, filter_singleton]
  cases grant.bootstrap with
  | false => rfl
  | true => rfl

end

theorem forall_split_concat {α : Type} {items item} {good : List α → α → Prop}
    (all : ∀ before item after, items = before ++ item :: after → good before item)
    (last : good items item) :
    ∀ before other after, items ++ [item] = before ++ other :: after → good before other := by
  intro before other after split
  rcases eq_nil_or_concat after with rfl | ⟨rest, final, rfl⟩
  · obtain ⟨rfl, own⟩ := append_inj' split rfl
    cases own
    exact last
  · rw [concat_eq_append, ← cons_append, ← append_assoc] at split
    exact all before other rest (append_inj' split rfl).1

variable {schedule : AdaptiveAdmissionSchedule F lanes}

theorem Sound.afterRequest (sound : run.Sound) (left : Nat) {now lane decision observed}
    (lined : schedule.Lined (Function.update run.asked lane true · = true))
    (counted : schedule.Counted)
    (waiting : schedule.waiting = Function.update run.schedule.waiting lane left)
    (room : left + decision.limit ≤ run.workersPerLane)
    (front : 0 < decision.limit → observed.waitingOrder.head? = some lane ∧
        decision.limit ≤ observed.waiting lane)
    (bootstrap : schedule.bootstrapAdmitted.toNat =
      run.schedule.bootstrapAdmitted.toNat + decision.bootstrapGrants)
    (granted : decision.bootstrapGrants ≤ decision.limit)
    (due : schedule.nextAdmission = if 0 < decision.limit then
        AdaptiveAdmissionSchedule.dueAt now observed.admissionGap.join run.schedule.nextAdmission
      else run.schedule.nextAdmission)
    (paced : 0 < decision.limit → decision.bootstrapGrants = 0 → run.schedule.nextAdmission ≤ now) :
    (run.afterRequest now lane observed decision schedule).Sound := by
  have share (other : Fin lanes) : schedule.waiting other +
          (run.afterRequest now lane observed decision schedule).granted
            other ≤ run.workersPerLane := by
    unfold AdmissionRun.granted AdmissionRun.afterRequest
    dsimp only
    rw [waiting]
    by_cases here : other = lane
    · rw [here, Function.update_self, Function.update_self]
      split
      · next own =>
        split at own
        · cases own
          exact room
        · cases own
      · exact (Nat.le_add_right _ _).trans room
    · rw [Function.update_of_ne here, Function.update_of_ne here]
      exact sound.share other
  unfold AdmissionRun.afterRequest at share ⊢
  by_cases some : 0 < decision.limit
  · simp only [if_pos some] at share due ⊢
    refine {
      lined, counted, share
      small := sound.small
      fronts := forall_mem_append.mpr ⟨sound.fronts, forall_mem_singleton.mpr (front some)⟩
      bootstraps := ?_
      due := ?_
      paced := ?_ }
    · have before := sound.bootstraps
      have few : (decide (0 < decision.bootstrapGrants)).toNat ≤ decision.bootstrapGrants := by
        by_cases first : 0 < decision.bootstrapGrants
        · rw [decide_eq_true first]
          exact first
        · rw [decide_eq_false first]
          exact Nat.zero_le _
      rw [length_bootstraps_concat, bootstrap]
      dsimp only
      omega
    · rw [dueAfter_concat, ← sound.due]
      exact due
    · refine forall_split_concat sound.paced fun own => ?_
      rw [← sound.due]
      rw [decide_eq_false_iff_not, Nat.not_lt, Nat.le_zero] at own
      exact paced some own
  · have nothing : decision.bootstrapGrants = 0 := by omega
    simp only [if_neg some, append_nil] at share due ⊢
    refine {
      lined, counted, share
      small := sound.small
      fronts := sound.fronts
      bootstraps := ?_
      due := due.trans sound.due
      paced := sound.paced }
    rw [bootstrap, nothing]
    exact sound.bootstraps

theorem Sound.request (sound : run.Sound)
    {now lane idleWorkers capacityWork capacityBusyNs outstanding}
    (done : run.next (.request now lane idleWorkers capacityWork
      capacityBusyNs outstanding) = some target) : target.Sound := by
  dsimp only [next] at done
  split at done
  case isFalse => cases done
  next possible =>
  obtain ⟨free, _, _, room⟩ := possible
  obtain ⟨⟨decision, schedule⟩, asked, rfl⟩ := Option.map_eq_some_iff.mp done
  obtain ⟨lined, counted⟩ := sound.observed lane capacityWork capacityBusyNs outstanding room
  obtain ⟨waiting, next, bootstrap⟩ :=
    AdaptiveAdmissionSchedule.observed_eq run.schedule lane idleWorkers
      capacityWork capacityBusyNs outstanding
  unfold AdaptiveAdmissionSchedule.request at asked
  generalize run.schedule.observed lane idleWorkers capacityWork
    capacityBusyNs outstanding = observed at *
  split at asked
  · next nobody =>
    cases asked
    refine sound.afterRequest idleWorkers lined counted waiting room nofun ?_ le_rfl next nofun
    rw [bootstrap]
    rfl
  next somebody =>
  obtain ⟨gap, known, answered⟩ := Option.map_eq_some_iff.mp asked
  have join : observed.discardEmptyFront.admissionGap.join = gap := by
    rw [known]
    rfl
  have left (count : Nat) : Function.update observed.discardEmptyFront.waiting lane
          (observed.discardEmptyFront.waiting lane - count) =
        Function.update run.schedule.waiting lane (idleWorkers - count) := by
    rw [AdaptiveAdmissionSchedule.discardEmptyFront_waiting, waiting,
      Function.update_self, Function.update_idem]
  have some : 1 ≤ observed.discardEmptyFront.waiting lane := by
    rw [AdaptiveAdmissionSchedule.discardEmptyFront_waiting, waiting, Function.update_self]
    exact Nat.pos_of_ne_zero somebody
  have fits (count : Nat) (one : count ≤ 1) :
      idleWorkers - count + count ≤ run.workersPerLane := by omega
  have counted : observed.discardEmptyFront.Counted := counted
  have bootstrap : observed.discardEmptyFront.bootstrapAdmitted =
    run.schedule.bootstrapAdmitted := bootstrap
  obtain ⟨front, first, paced, granted, same⟩ := observed.discardEmptyFront.granted now lane gap
  rw [answered] at same
  obtain rfl : decision = (observed.discardEmptyFront.letIn now lane gap front
    first paced).1 := congrArg Prod.fst same
  obtain rfl : schedule = (observed.discardEmptyFront.letIn now lane gap front
    first paced).2 := congrArg Prod.snd same
  refine sound.afterRequest (idleWorkers - (first.toNat + paced.toNat))
    lined.discardEmptyFront.letIn counted.letIn
    (AdaptiveAdmissionSchedule.letIn_waiting.trans (left _)) ?_ ?_ ?_
    (Nat.le_add_right _ _) ?_ ?_
  · refine fits _ ?_
    cases granted with
    | _ => decide
  · intro limit
    cases granted with
    | bootstrap front first => exact ⟨front, some⟩
    | paced front later known due => exact ⟨front, some⟩
    | nothing refused => cases limit
  · rw [AdaptiveAdmissionSchedule.letIn_bootstrapAdmitted]
    cases granted with
    | bootstrap front first =>
      rw [← bootstrap, first]
      rfl
    | paced front later known due | nothing refused =>
      rw [Bool.or_false, bootstrap]
      rfl
  · rw [AdaptiveAdmissionSchedule.letIn_nextAdmission, join, ← next]
    cases granted with
    | _ => rfl
  · intro limit later
    rw [← next]
    cases granted with
    | bootstrap front first => cases later
    | paced front later known due => exact due
    | nothing refused => cases limit

/-! ## Reports -/

omit [Seconds F] in
theorem Sound.keeping (sound : run.Sound) {pending handedBack}
    (lined : schedule.Lined (run.asked · = true)) (counted : schedule.Counted)
    (share : ∀ lane, schedule.waiting lane +
      AdmissionRun.granted { run with pending } lane ≤ run.workersPerLane)
    (bootstrap : run.handedBack + run.schedule.bootstrapAdmitted.toNat ≤
      handedBack + schedule.bootstrapAdmitted.toNat)
    (next : schedule.nextAdmission = run.schedule.nextAdmission) :
    Sound { run with schedule, pending, handedBack } where
  lined := lined
  counted := counted
  share := share
  small := sound.small
  fronts := sound.fronts
  bootstraps := sound.bootstraps.trans bootstrap
  due := next.trans sound.due
  paced := sound.paced

omit [Seconds F] in
theorem Sound.clearLane (sound : run.Sound) {lane} :
    Sound { run with schedule := run.schedule.clearLane lane } := by
  refine sound.keeping sound.lined.clearLane sound.counted.clearLane (fun other => ?_) le_rfl rfl
  refine le_trans (Nat.add_le_add_right ?_ _) (sound.share other)
  change Function.update run.schedule.waiting lane 0 other ≤ _
  by_cases here : other = lane
  · rw [here, Function.update_self]
    exact Nat.zero_le _
  · rw [Function.update_of_ne here]

omit [Seconds F] in
theorem restoreUnused_eq {lane unused} (bootstrap : Bool)
    (small : schedule.waiting lane + unused ≤ usizeMax) :
    let target := schedule.restoreUnused lane unused bootstrap
    target.waiting = Function.update schedule.waiting lane (schedule.waiting lane + unused) ∧
      target.nextAdmission = schedule.nextAdmission ∧
      target.bootstrapAdmitted = (schedule.bootstrapAdmitted &&
          !(decide (0 < unused) && bootstrap)) := by
  unfold AdaptiveAdmissionSchedule.restoreUnused
  by_cases none : unused = 0
  · rw [if_pos none, none, Nat.add_zero, Function.update_eq_self]
    exact ⟨rfl, rfl, (Bool.and_true _).symm⟩
  rw [if_neg none, decide_eq_true (Nat.pos_of_ne_zero none)]
  simp only [AdaptiveAdmissionSchedule.queueLane_waiting,
    AdaptiveAdmissionSchedule.queueLane_nextAdmission,
    AdaptiveAdmissionSchedule.queueLane_bootstrapAdmitted, Bool.true_and,
    and_true]
  unfold usizeSaturatingAdd
  rw [min_eq_left small]

omit [Seconds F] in
theorem Sound.restored (sound : run.Sound) {lane : Fin lanes} {decision}
    (own : run.pending lane = some decision) {unused} (few : unused ≤ decision.limit)
    (bootstrap : Bool) :
    Sound { run with
      schedule := run.schedule.restoreUnused lane unused bootstrap
      pending := Function.update run.pending lane none
      handedBack := run.handedBack + (decide (0 < unused) && bootstrap).toNat } := by
  have before := sound.share lane
  unfold AdmissionRun.granted at before
  rw [own] at before
  have each (other : Fin lanes) : Function.update run.schedule.waiting lane
        (run.schedule.waiting lane + unused) other + AdmissionRun.granted { run with
            pending := Function.update run.pending lane none } other ≤
        run.workersPerLane := by
    unfold AdmissionRun.granted
    dsimp only
    by_cases here : other = lane
    · rw [here, Function.update_self, Function.update_self]
      exact (Nat.add_le_add_left few _).trans before
    · rw [Function.update_of_ne here, Function.update_of_ne here]
      exact sound.share other
  have sum := (sum_le fun other => (Nat.le_add_right _ _).trans (each other)).trans sound.small
  have single : run.schedule.waiting lane + unused ≤ usizeMax := by
    refine le_trans ?_ sum
    have part := Finset.single_le_sum_of_canonicallyOrdered
      (f := Function.update run.schedule.waiting lane
        (run.schedule.waiting lane + unused)) (Finset.mem_univ lane)
    rwa [Function.update_self] at part
  obtain ⟨waiting, next, admitted⟩ := restoreUnused_eq bootstrap single
  refine sound.keeping sound.lined.restoreUnused
    (sound.counted.restoreUnused sum) (fun other => ?_) ?_ next
  · rw [waiting]
    exact each other
  rw [admitted]
  cases run.schedule.bootstrapAdmitted with
  | false => exact Nat.le_add_right _ _
  | true =>
    cases decide (0 < unused) && bootstrap with
    | false => exact le_rfl
    | true => exact le_rfl

theorem Sound.finishAdmission (sound : run.Sound) {lane admitted rootsExhausted}
    (done : run.next (.finishAdmission lane admitted rootsExhausted) =
      some target) : target.Sound := by
  dsimp only [next] at done
  split at done
  case h_1 => cases done
  next decision own =>
  split at done
  case isFalse => cases done
  next fits =>
  cases done
  have restored := sound.restored own (Nat.sub_le decision.limit admitted)
    (decide (0 < decision.bootstrapGrants))
  cases rootsExhausted with
  | false => exact restored
  | true => exact restored.clearLane

theorem Sound.move (sound : run.Sound) (done : run.next label = some target) : target.Sound := by
  cases label with
  | request now lane idleWorkers capacityWork capacityBusyNs outstanding => exact sound.request done
  | finishAdmission lane admitted rootsExhausted => exact sound.finishAdmission done
  | clearLane lane =>
    dsimp only [next] at done
    split at done
    · cases done
      exact sound.clearLane
    · cases done
  | observeEpisodeWork evaluations =>
    cases done
    have same := run.schedule.sameQueue_observeEpisodeWork evaluations
    refine sound.keeping (sound.lined.same same) (sound.counted.same same)
      (fun other => ?_) ?_ same.nextAdmission
    · rw [same.waiting]
      exact sound.share other
    · rw [same.bootstrapAdmitted]

theorem sound_of_reachable (reachable : (admissionSystem F lanes).Reachable run) : run.Sound :=
  reachable.invariant (fun _ => sound_of_started) fun _ _ _ sound step => sound.move step

/-- What holds of the books in every state. -/
structure Bookkept (run : AdmissionRun F lanes) : Prop where
  total : run.schedule.totalWaiting = ∑ lane, run.schedule.waiting lane
  distinct : run.schedule.waitingOrder.Nodup
  marked : ∀ lane, lane ∈ run.schedule.waitingOrder ↔ run.schedule.queued lane = true
  queued : ∀ lane, run.asked lane = true → 0 < run.schedule.waiting lane →
    lane ∈ run.schedule.waitingOrder
  fronts : ∀ grant ∈ run.grants, grant.order.head? = some grant.lane ∧ grant.count ≤ grant.waiting
  bootstraps : (run.grants.filter (·.bootstrap)).length ≤ 1 + run.handedBack
  /-- A paced grant comes after the last gap that was computed. -/
  paced : ∀ (before : List (AdmissionGrant lanes)) earlier (between : List (AdmissionGrant lanes))
      later (after : List (AdmissionGrant lanes)),
    run.grants = before ++ earlier :: (between ++ later :: after) →
      later.bootstrap = false → (∀ grant ∈ between, grant.gap = none) →
        ∀ gap, earlier.gap = some gap → durationSaturatingAdd earlier.time gap ≤ later.time

theorem dueAfter_append {grants between : List (AdmissionGrant lanes)}
    (unknown : ∀ grant ∈ between, grant.gap = none) :
    dueAfter (grants ++ between) = dueAfter grants := by
  induction between using List.reverseRecOn with
  | nil => rw [append_nil]
  | append_singleton between grant ih =>
    rw [← append_assoc, dueAfter_concat, unknown grant mem_concat_self]
    exact ih fun other member =>
      unknown other (mem_append_left _ member)

theorem bookkept_of_reachable
    (reachable : (admissionSystem F lanes).Reachable run) : run.Bookkept := by
  have sound := sound_of_reachable reachable
  refine {
    total := sound.counted
    distinct := sound.lined.distinct
    marked := sound.lined.marked
    queued := fun lane asked some =>
      (sound.lined.marked lane).mpr (sound.lined.waits lane asked some)
    fronts := sound.fronts
    bootstraps := ?_
    paced := fun before earlier between later after split own unknown gap known => ?_ }
  · have one : run.schedule.bootstrapAdmitted.toNat ≤ 1 := Bool.toNat_le _
    have bootstraps := sound.bootstraps
    omega
  · have due := sound.paced (before ++ [earlier] ++ between) later after (by rw [split]; simp) own
    rw [dueAfter_append unknown, dueAfter_concat, known] at due
    exact due

/-- Two consecutive paced grants are apart by the gap computed at the
first. -/
def PacedApart (run : AdmissionRun F lanes) : Prop :=
  ∀ (before : List (AdmissionGrant lanes)) earlier (between : List (AdmissionGrant lanes)) later
    (after : List (AdmissionGrant lanes)),
    run.grants = before ++ earlier :: (between ++ later :: after) →
      earlier.bootstrap = false → later.bootstrap = false →
        (∀ grant ∈ between, grant.bootstrap = true) →
          earlier.time < later.time → ∀ gap, earlier.gap = some gap →
            earlier.time + gap ≤ later.time

end AdmissionRun

/-- Seconds in exact arithmetic, to the nanosecond. -/
instance : Seconds (Exact ℚ) where
  toDuration
    | .finite seconds =>
      let nanoseconds := ⌊seconds * 1000000000 + 1 / 2⌋
      if 0 ≤ nanoseconds ∧ nanoseconds ≤ durationMax then
        some nanoseconds.toNat
      else none
    | _ => none

namespace AdmissionSample

def admissions (labels : List (AdmissionRun.Label 2)) : Option (AdmissionRun (Exact ℚ) 2) :=
  (AdaptiveAdmissionSchedule.new 4 1 1 ⟨1000, by decide⟩).bind fun schedule =>
    labels.foldlM AdmissionRun.next (.start schedule 2)

theorem reachable_of_admissions {labels run} (followed : admissions labels = some run) :
    (admissionSystem (Exact ℚ) 2).Reachable run := by
  obtain ⟨schedule, made, followed⟩ := Option.bind_eq_some_iff.mp followed
  exact ⟨_, ⟨4, 1, 1, _, schedule, by decide, made, rfl⟩, labels,
    TransitionSystem.Run.of_foldlM (fun step => step) followed⟩

def seconds (count : Nat) : Duration := count * 1000000000

/-- The second lane gets a worker with a gap of ten seconds before the first
one hands back the bootstrap grant, and the evaluator turns out to be faster
when that is granted again. -/
def returned : List (AdmissionRun.Label 2) := [ .request 0 0 1 0 0 1,
  .request (seconds 10) 1 2 1000 (seconds 10) 1,
  .finishAdmission 1 1 false,
  .finishAdmission 0 0 false,
  .request (seconds 11) 1 1 5600 (seconds 11) 1,
  .finishAdmission 1 1 false,
  .request (seconds 12) 0 1 5600 (seconds 11) 1]

def first : AdmissionGrant 2 where
  lane := 0
  time := 0
  count := 1
  bootstrap := true
  gap := none
  order := [0]
  waiting := 1

def second : AdmissionGrant 2 where
  lane := 1
  time := seconds 10
  count := 1
  bootstrap := false
  gap := some (seconds 10)
  order := [1]
  waiting := 2

def again : AdmissionGrant 2 where
  lane := 1
  time := seconds 11
  count := 1
  bootstrap := true
  gap := some (seconds 1)
  order := [1, 0]
  waiting := 1

def last : AdmissionGrant 2 where
  lane := 0
  time := seconds 12
  count := 1
  bootstrap := false
  gap := some (seconds 1)
  order := [0]
  waiting := 1

def returnedGrants : List (AdmissionGrant 2) :=
  [first, second, again, last]

/-- The first lane is at the front with one worker. -/
def waiting : List (AdmissionRun.Label 2) := [ .request 0 0 2 0 0 1, .finishAdmission 0 1 false,
  .request 0 1 2 0 0 1]

/-- It asks again, and the other lane is let in. -/
def overtaken : List (AdmissionRun.Label 2) := [ .request 1 0 1 0 0 1,
  .request (seconds 10) 1 2 1000 (seconds 10) 1]

def patient : List (AdmissionRun.Label 2) := [ .request 1 1 2 0 0 1]

end AdmissionSample

theorem AdmissionSample.exists_returned : ∃ run : AdmissionRun (Exact ℚ) 2,
      (admissionSystem (Exact ℚ) 2).Reachable run ∧ run.grants = returnedGrants := by
  have seen : (admissions returned).map (·.grants) = some returnedGrants := by
    decide +kernel
  obtain ⟨run, followed, grants⟩ := Option.map_eq_some_iff.mp seen
  exact ⟨run, reachable_of_admissions followed, grants⟩

namespace AdmissionRun

theorem bookkept_of_returned : ∃ run : AdmissionRun (Exact ℚ) 2,
      run.grants = AdmissionSample.returnedGrants ∧ run.Bookkept := by
  obtain ⟨run, reachable, grants⟩ := AdmissionSample.exists_returned
  exact ⟨run, grants, bookkept_of_reachable reachable⟩

/-- A bootstrap grant starts a new interval, which may be shorter. -/
theorem not_pacedApart : ∃ run : AdmissionRun (Exact ℚ) 2,
      (admissionSystem (Exact ℚ) 2).Reachable run ∧ ¬ run.PacedApart := by
  obtain ⟨run, reachable, grants⟩ := AdmissionSample.exists_returned
  refine ⟨run, reachable, fun apart => ?_⟩
  have late := apart [AdmissionSample.first] AdmissionSample.second
    [AdmissionSample.again] AdmissionSample.last [] grants rfl rfl (by decide)
    (by decide) _ rfl
  exact absurd late (by decide)

end AdmissionRun

end GraphZero.Orchestrator
