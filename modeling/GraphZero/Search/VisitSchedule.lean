import GraphZero.Foundation.Increments
import GraphZero.Search.Schedule
import Mathlib.Data.UInt

/-!
# The schedule of considered visits

A schedule counts visits in 32 bits.  It is as long as the search, and the
actions it was made for can play it to its end whichever of those that are due
goes first, if and only if none of its rounds is beyond the counters.
-/

namespace GraphZero.Search

open Foundation List

variable {simulations log2max considered : Nat}

/-- The schedule in the counters of the code, which have 32 bits: the counter
of an action wraps around in its `2 ^ 32`-th round. -/
def visitCounters (maxConsidered simulations : Nat) : List UInt32 :=
  (consideredVisitSequence maxConsidered simulations).map UInt32.ofNat

/-- The rounds in which the simulations that are not placed yet are placed.  A
round visits each of the `considered` leading actions once. -/
def scheduleRounds (simulations log2max : Nat) : (fuel considered placed : Nat) → Nat
  | 0, _, _ => 0
  | fuel + 1, considered, placed =>
    if simulations ≤ placed then 0
    else
      let extra := max (simulations / (log2max * considered)) 1
      min extra ((simulations - placed + considered - 1) / considered) +
        scheduleRounds simulations log2max fuel (max (considered / 2) 2)
          (placed + extra * considered)

theorem raises_rounds (leading : List Nat) (others : Multiset Nat) (rounds : Nat) :
    Raises (· + 1) ((List.range rounds).flatMap fun round => leading.map (· + round))
      (leading + others) (leading.map (· + rounds) + others) := by
  induction rounds with
  | zero =>
    simp only [range_zero, flatMap_nil, Nat.add_zero, map_id']
    exact .nil _
  | succ rounds ih =>
    rw [range_succ, flatMap_append]
    refine ih.append ?_
    have next := @raises_each _ (· + 1) (leading.map (· + rounds)) others
    simpa [Function.comp_def, Nat.add_assoc] using next

theorem exists_raises_visitPhases {fuel} {visits sequence : List Nat} {start}
    (before : Raises (· + 1) sequence start visits) :
    ∃ final, Raises (· + 1) (visitPhases simulations log2max fuel visits considered sequence)
      start final := by
  induction fuel generalizing visits considered sequence with
  | zero => exact ⟨_, before⟩
  | succ fuel ih =>
    unfold visitPhases
    split
    · exact ⟨_, before⟩
    refine ih ?_
    have phase := raises_rounds (visits.take considered) (visits.drop considered)
      (max (simulations / (log2max * considered)) 1)
    rw [Multiset.coe_add, Multiset.coe_add, take_append_drop] at phase
    exact before.append phase

theorem le_length_visitPhases {fuel visits sequence} (nonempty : 0 < visits.length)
    (leading : 0 < considered) (enough : simulations ≤ sequence.length + fuel) :
    simulations ≤ (visitPhases simulations log2max fuel visits considered sequence).length := by
  induction fuel generalizing visits considered sequence with
  | zero => exact enough
  | succ fuel ih =>
    unfold visitPhases
    split
    · next done => exact done
    refine ih (by simp; omega) (by omega) ?_
    have first : visits.take considered ≠ [] := by
      simp [take_eq_nil_iff, leading.ne', ne_nil_of_length_pos nonempty]
    have rounds : 0 < ((List.range (max (simulations / (log2max * considered)) 1)).flatMap
        fun round => (visits.take considered).map (· + round)).length := by
      refine length_pos_iff.mpr fun empty => first ?_
      have none := flatMap_eq_nil_iff.mp empty 0 (mem_range.mpr (by omega))
      exact map_eq_nil_iff.mp none
    rw [length_append]
    omega

theorem length_visitCounters (pos : 0 < considered) :
    (visitCounters considered simulations).length =
      if considered ≤ 1 then simulations % 2 ^ 32 else simulations := by
  unfold visitCounters consideredVisitSequence
  split
  · simp
  rw [length_map, length_take, Nat.min_eq_left]
  refine le_length_visitPhases ?_ pos (Nat.le_add_left _ _)
  rwa [length_replicate]

theorem exists_raises_consideredVisitSequence (pos : 0 < considered) :
    ∃ final, Raises (· + 1) (consideredVisitSequence considered simulations)
      (List.replicate considered 0) final := by
  unfold consideredVisitSequence
  split
  · obtain rfl : considered = 1 := by omega
    have counted := raises_rounds [0] 0 (simulations % 2 ^ 32)
    simp only [map_singleton, Nat.zero_add, flatMap_singleton'] at counted
    exact ⟨_, counted⟩
  · obtain ⟨final, whole⟩ := @exists_raises_visitPhases simulations (Nat.clog 2 considered)
      considered simulations (List.replicate considered 0) [] _ (.nil _)
    rw [← take_append_drop simulations (visitPhases ..)] at whole
    obtain ⟨mid, first, _⟩ := whole.split
    exact ⟨mid, first⟩

section Rounds

variable {start placed : Nat} {tail : List Nat}

theorem scheduleRounds_of_le {fuel} (done : simulations ≤ placed) :
    scheduleRounds simulations log2max fuel considered placed = 0 := by
  cases fuel with
  | zero => rfl
  | succ fuel => exact if_pos done

theorem rounds_eq (pos : 0 < considered) (extra : Nat) :
    ((List.range extra).flatMap fun round => (List.replicate considered start).map (· + round)) =
      (List.range (extra * considered)).map fun index => start + index / considered := by
  induction extra with
  | zero => simp
  | succ extra ih =>
    rw [range_succ, flatMap_append, ih, Nat.succ_mul, range_add, map_append, flatMap_singleton,
      map_replicate, map_map]
    congr 1
    refine (eq_replicate_iff.mpr ⟨by simp, ?_⟩).symm
    intro visit member
    obtain ⟨index, inside, rfl⟩ := mem_map.mp member
    simp only [Function.comp_apply]
    rw [Nat.mul_comm, Nat.mul_add_div pos, Nat.div_eq_of_lt (mem_range.mp inside), Nat.add_zero]

/-- What the schedule goes on with when its leading actions have `start` visits
each. -/
structure ScheduleTail (simulations log2max fuel considered start placed : Nat)
    (tail : List Nat) : Prop where
  sorted : tail.Pairwise (· ≤ ·)
  least : ∀ visit ∈ tail, start ≤ visit
  first : 0 < fuel → placed < simulations → tail.take considered = List.replicate considered start
  mem_iff : ∀ visit, visit ∈ tail.take (simulations - placed) ↔ start ≤ visit ∧
    visit < start + scheduleRounds simulations log2max fuel considered placed

theorem ScheduleTail.nil {fuel} (none : fuel = 0 ∨ simulations ≤ placed) :
    ScheduleTail simulations log2max fuel considered start placed [] where
  sorted := .nil
  least := by simp
  first := by omega
  mem_iff visit := by
    have rounds : scheduleRounds simulations log2max fuel considered placed = 0 := by
      rcases none with rfl | done
      · rfl
      · exact scheduleRounds_of_le done
    rw [rounds]
    simp

/-- A phase of `extra` rounds and what comes after it. -/
theorem ScheduleTail.phase {fuel extra} (pos : 0 < considered)
    (rounds : extra = max (simulations / (log2max * considered)) 1) (open' : placed < simulations)
    (later : ScheduleTail simulations log2max fuel (max (considered / 2) 2) (start + extra)
      (placed + extra * considered) tail) :
    ScheduleTail simulations log2max (fuel + 1) considered start placed
      ((List.range (extra * considered)).map (fun index => start + index / considered) ++
        tail) where
  sorted := by
    refine pairwise_append.mpr ⟨?_, later.sorted, ?_⟩
    · refine pairwise_map.mpr (pairwise_lt_range.imp ?_)
      intro index other less
      exact Nat.add_le_add_left (Nat.div_le_div_right less.le) _
    · intro visit member after laterMember
      obtain ⟨index, inside, rfl⟩ := mem_map.mp member
      have low : index / considered < extra :=
        Nat.div_lt_of_lt_mul (Nat.mul_comm extra _ ▸ mem_range.mp inside)
      have high := later.least after laterMember
      omega
  least visit member := by
    rcases mem_append.mp member with member | member
    · obtain ⟨index, _, rfl⟩ := mem_map.mp member
      exact Nat.le_add_right _ _
    · exact (Nat.le_add_right _ _).trans (later.least visit member)
  first _ _ := by
    have whole : considered ≤ extra * considered := Nat.le_mul_of_pos_left _ (by omega)
    rw [take_append_of_le_length (by simpa using whole), ← map_take, take_range,
      Nat.min_eq_left whole]
    refine eq_replicate_iff.mpr ⟨by simp, ?_⟩
    intro visit member
    obtain ⟨index, inside, rfl⟩ := mem_map.mp member
    rw [Nat.div_eq_of_lt (mem_range.mp inside), Nat.add_zero]
  mem_iff visit := by
    have phase : visit ∈ (List.range (min (simulations - placed) (extra * considered))).map
        (fun index => start + index / considered) ↔ start ≤ visit ∧
          visit < start + min extra ((simulations - placed + considered - 1) / considered) := by
      rw [mem_map]
      have ceil : (simulations - placed + considered - 1) / considered =
          (simulations - placed - 1) / considered + 1 := by
        rw [← Nat.add_div_right _ pos]
        congr 1
        omega
      rw [ceil]
      constructor
      · rintro ⟨index, inside, rfl⟩
        rw [mem_range, Nat.lt_min] at inside
        have inner : index / considered < extra :=
          Nat.div_lt_of_lt_mul (Nat.mul_comm extra _ ▸ inside.2)
        have outer : index / considered ≤ (simulations - placed - 1) / considered :=
          Nat.div_le_div_right (by omega)
        exact ⟨Nat.le_add_right _ _,
          Nat.add_lt_add_left (Nat.lt_min.mpr ⟨inner, Nat.lt_succ_of_le outer⟩) _⟩
      · rintro ⟨low, high⟩
        have inner : visit - start < extra := by omega
        have outer : visit - start ≤ (simulations - placed - 1) / considered := by omega
        have fits := (Nat.le_div_iff_mul_le pos).mp outer
        refine ⟨(visit - start) * considered, mem_range.mpr (Nat.lt_min.mpr ⟨by omega, ?_⟩), ?_⟩
        · exact Nat.mul_lt_mul_of_pos_right inner pos
        · rw [Nat.mul_div_cancel _ pos]
          omega
    rw [take_append, mem_append, ← map_take, take_range, phase, length_map, length_range,
      Nat.sub_sub, later.mem_iff, scheduleRounds, if_neg open'.not_ge, ← rounds]
    dsimp only
    by_cases last : simulations ≤ placed + extra * considered
    · rw [scheduleRounds_of_le last]
      omega
    · have more : extra ≤ (simulations - placed + considered - 1) / considered :=
        (Nat.le_div_iff_mul_le pos).mpr (by omega)
      omega

theorem exists_visitPhases {fuel others sequence} (two : 2 ≤ considered) :
    ∃ tail, visitPhases simulations log2max fuel (List.replicate considered start ++ others)
        considered sequence = sequence ++ tail ∧
      ScheduleTail simulations log2max fuel considered start sequence.length tail := by
  induction fuel generalizing considered start others sequence with
  | zero => exact ⟨[], (append_nil _).symm, .nil (.inl rfl)⟩
  | succ fuel ih =>
    unfold visitPhases
    split
    · next done => exact ⟨[], (append_nil _).symm, .nil (.inr done)⟩
    next open' =>
    generalize rounds : max (simulations / (log2max * considered)) 1 = extra
    dsimp only
    rw [take_left' length_replicate, drop_left' length_replicate, rounds_eq (by omega),
      map_replicate]
    have fewer : considered = max (considered / 2) 2 + (considered - max (considered / 2) 2) := by
      omega
    obtain ⟨tail, phases, later⟩ := @ih (max (considered / 2) 2) (start + extra)
      (List.replicate (considered - max (considered / 2) 2) (start + extra) ++ others)
      (sequence ++ (List.range (extra * considered)).map fun index => start + index / considered)
      (Nat.le_max_right _ _)
    rw [← append_assoc, replicate_append_replicate, ← fewer] at phases
    rw [length_append, length_map, length_range] at later
    exact ⟨_, phases.trans (append_assoc _ _ _),
      later.phase (by omega) rounds.symm (Nat.lt_of_not_le open')⟩

end Rounds

section Counters

theorem exists_scheduleTail (two : 2 ≤ considered) :
    ∃ tail, consideredVisitSequence considered simulations = tail.take simulations ∧
      ScheduleTail simulations (Nat.clog 2 considered) simulations considered 0 0 tail := by
  obtain ⟨tail, phases, shape⟩ := @exists_visitPhases simulations (Nat.clog 2 considered)
    considered 0 simulations [] [] two
  rw [append_nil, nil_append] at phases
  exact ⟨tail, by rw [consideredVisitSequence, if_neg (by omega), phases], shape⟩

theorem toNat_visitCounters
    (small : ∀ visit ∈ consideredVisitSequence considered simulations, visit < 2 ^ 32) :
    (visitCounters considered simulations).map UInt32.toNat =
      consideredVisitSequence considered simulations := by
  rw [visitCounters, map_map]
  refine (map_congr_left fun visit member => ?_).trans (map_id _)
  exact UInt32.toNat_ofNat_of_lt' (small visit member)

theorem mem_of_replays {before after target visits} (pos : 0 < considered)
    (here : consideredVisitSequence considered simulations = before ++ target :: after)
    (replays : Replays (· + 1) before (List.replicate considered 0) visits) : target ∈ visits := by
  obtain ⟨final, raises⟩ := @exists_raises_consideredVisitSequence simulations _ pos
  rw [here] at raises
  exact replays.finds raises

/-- The first counter that has wrapped names an action without visits, and the
actions before it were each visited in the first round. -/
theorem exists_stuck (two : 2 ≤ considered) (beyond : 2 ^ 32 <
      scheduleRounds simulations (Nat.clog 2 considered) simulations considered 0) :
    ∃ before target after visits,
      (visitCounters considered simulations).map UInt32.toNat = before ++ target :: after ∧
        Replays (· + 1) before (List.replicate considered 0) visits ∧ target ∉ visits := by
  obtain ⟨tail, schedule, shape⟩ := @exists_scheduleTail simulations _ two
  have wraps := (shape.mem_iff (2 ^ 32)).mpr ⟨Nat.zero_le _, by omega⟩
  have some' : 0 < simulations := by
    refine Nat.pos_of_ne_zero fun none => ?_
    rw [none] at beyond
    exact absurd beyond (Nat.not_lt_zero _)
  obtain ⟨before, after, split, fresh⟩ := eq_append_cons_of_mem wraps
  rw [Nat.sub_zero] at split
  have small : ∀ visit ∈ before, visit < 2 ^ 32 := by
    intro visit member
    have sorted := shape.sorted.sublist (take_sublist simulations tail)
    rw [split] at sorted
    have low := (pairwise_append.mp sorted).2.2 visit member (2 ^ 32) mem_cons_self
    exact lt_of_le_of_ne low fun same => fresh (same ▸ member)
  obtain ⟨final, raises⟩ := @exists_raises_consideredVisitSequence simulations considered (by omega)
  rw [schedule, split] at raises
  obtain ⟨_, first, _⟩ := raises.split
  obtain ⟨visits, replays⟩ := Replays.exists_replays first
  refine ⟨before, 0, after.map fun visit => visit % 2 ^ 32, visits, ?_, replays, ?_⟩
  · have kept : before.map (fun visit => visit % 2 ^ 32) = before :=
      (map_congr_left fun visit member => Nat.mod_eq_of_lt (small visit member)).trans (map_id _)
    rw [visitCounters, schedule, split, map_map, map_append, map_cons]
    exact congrArg (· ++ 0 :: after.map fun visit => visit % 2 ^ 32) kept
  have round := shape.first some' some'
  rw [← take_append_drop simulations tail, split, append_assoc, cons_append] at round
  have whole : considered ≤ before.length := by
    by_contra short
    have member : 2 ^ 32 ∈ List.replicate considered 0 := by
      rw [← round, take_append, mem_append]
      obtain ⟨more, left⟩ :=
        Nat.exists_eq_succ_of_ne_zero (by omega : considered - before.length ≠ 0)
      rw [left, take_succ_cons]
      exact .inr mem_cons_self
    exact absurd (eq_of_mem_replicate member) (by norm_num)
  rw [take_append_of_le_length whole] at round
  have zeros := (take_sublist considered before).count_le 0
  rw [round, count_replicate_self] at zeros
  have counted := replays.raises.count_zero
  rw [Multiset.coe_count, Multiset.coe_count, count_replicate_self] at counted
  exact count_eq_zero.mp (by omega)

end Counters

/-- The schedule is as long as the search and always leads on, whichever action
is visited, exactly if no counter wraps in the rounds it is made of.  One
action is scheduled for the number of simulations cut to 32 bits. -/
theorem visitCounters_realised_iff (pos : 0 < considered) :
    ((visitCounters considered simulations).length = simulations ∧ ∀ before target after visits,
        (visitCounters considered simulations).map UInt32.toNat = before ++ target :: after →
        Replays (· + 1) before (List.replicate considered 0) visits → target ∈ visits) ↔
      considered = 1 ∧ simulations < 2 ^ 32 ∨ 2 ≤ considered ∧
        scheduleRounds simulations (Nat.clog 2 considered) simulations considered 0 ≤ 2 ^ 32 := by
  rw [length_visitCounters pos]
  constructor
  · rintro ⟨long, leads⟩
    split at long
    · exact .inl ⟨by omega, long ▸ Nat.mod_lt _ (by norm_num)⟩
    next two =>
    refine .inr ⟨by omega, Nat.le_of_not_lt fun beyond => ?_⟩
    obtain ⟨before, target, after, visits, here, replays, missing⟩ :=
      exists_stuck (by omega) beyond
    exact missing (leads before target after visits here replays)
  · rintro (⟨rfl, small⟩ | ⟨two, inside⟩)
    · rw [if_pos le_rfl, toNat_visitCounters]
      · exact ⟨Nat.mod_eq_of_lt small, fun _ _ _ _ => mem_of_replays pos⟩
      · intro visit member
        rw [consideredVisitSequence, if_pos le_rfl, mem_range] at member
        exact member.trans (Nat.mod_lt _ (by norm_num))
    · rw [if_neg (by omega), toNat_visitCounters]
      · exact ⟨rfl, fun _ _ _ _ => mem_of_replays pos⟩
      · intro visit member
        obtain ⟨tail, schedule, shape⟩ := @exists_scheduleTail simulations _ two
        rw [schedule] at member
        have low := ((shape.mem_iff visit).mp member).2
        omega

theorem visitCounters_realised_three : (visitCounters 3 5).length = 5 :=
  ((@visitCounters_realised_iff 5 3 (by decide)).mpr
    (.inr ⟨by decide, by decide⟩)).1

theorem visitCounters_cut : (visitCounters 1 (2 ^ 32)).length ≠ 2 ^ 32 := by
  rw [length_visitCounters Nat.one_pos, if_pos le_rfl, Nat.mod_self]
  norm_num

end GraphZero.Search
