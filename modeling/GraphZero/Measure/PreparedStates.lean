import GraphZero.Foundation.Transition
import Mathlib.Data.List.Perm.Basic
import Mathlib.Data.PNat.Defs

/-!
# The prepared states of a compiler lane

A lane of the measurement agent keeps the states it restored, the one used last
at the back.  A measurement restores or reuses one of them, prepares it and
measures it; any of these may fail, which ends the measurement.
-/

namespace GraphZero.Measure

open GraphZero.Foundation List

variable {κ γ : Type}

structure PreparedStateCacheEntry (κ γ : Type) where
  key : κ
  graph : γ
  prepared : Bool
  deriving DecidableEq

/-- What the lane asked of its engine with success, and which states it used. -/
inductive LaneEvent (κ γ : Type)
  | restored (key : κ) (graph : γ)
  | prepared (graph : γ)
  | released (graph : γ)
  | used (key : κ)

/-- A lane, the state that is being measured, and what happened, latest first. -/
structure CompilerEngineLane (κ γ : Type) where
  preparedStates : List (PreparedStateCacheEntry κ γ)
  measuring : Option (κ × γ)
  log : List (LaneEvent κ γ)

inductive LaneMove (κ γ : Type)
  | restoreOrReuse (key : κ) (restored : Option γ)
  | prepare (succeeds : Bool)
  | finish
  | drop

inductive PrepareError
  | absent
  | compileFailed

namespace CompilerEngineLane

variable [DecidableEq κ] [DecidableEq γ] (lane : CompilerEngineLane κ γ)

def releaseOf (entry : PreparedStateCacheEntry κ γ) : LaneEvent κ γ :=
  .released entry.graph

/-- `restore_or_reuse`, the engine's answer to `restore_graph` given. -/
def restoreOrReuse (capacity : ℕ+) (key : κ) (restored : Option γ) : CompilerEngineLane κ γ :=
  match lane.preparedStates.find? (·.key = key) with
  | some entry => {
      preparedStates := lane.preparedStates.eraseP (·.key = key) ++ [entry]
      measuring := some (key, entry.graph)
      log := .used key :: lane.log }
  | none =>
    match restored with
    | none => lane
    | some graph =>
      let evicted := if lane.preparedStates.length = capacity then 1 else 0
      { preparedStates := lane.preparedStates.drop evicted ++ [⟨key, graph, false⟩]
        measuring := some (key, graph)
        log := .used key :: (lane.preparedStates.take evicted).map releaseOf ++
          .restored key graph :: lane.log }

/-- `prepare`, told whether the engine succeeds. -/
def prepare (graph : γ) (succeeds : Bool) : Except PrepareError Unit × CompilerEngineLane κ γ :=
  match lane.preparedStates.find? (·.graph = graph) with
  | none => (.error .absent, lane)
  | some entry =>
    if entry.prepared then (.ok (), lane)
    else if succeeds then
      (.ok (), { lane with
        preparedStates := lane.preparedStates.modify
          (lane.preparedStates.findIdx (·.graph = graph)) ({ · with prepared := true })
        log := .prepared graph :: lane.log })
    else (.error .compileFailed, lane)

/-- One move.  A measurement takes a lane for itself. -/
def next (capacity : ℕ+) : LaneMove κ γ → Option (CompilerEngineLane κ γ)
  | .restoreOrReuse key restored =>
    if lane.measuring = none then some (lane.restoreOrReuse capacity key restored) else none
  | .prepare succeeds => lane.measuring.map fun subject => (lane.prepare subject.2 succeeds).2
  | .finish => some { lane with measuring := none }
  | .drop =>
    if lane.measuring = none then
      some ⟨[], none, lane.preparedStates.map releaseOf ++ lane.log⟩
    else none

def restoredGraphs (log : List (LaneEvent κ γ)) : List γ :=
  log.filterMap fun | .restored _ graph => some graph | _ => none

def releasedGraphs (log : List (LaneEvent κ γ)) : List γ :=
  log.filterMap fun | .released graph => some graph | _ => none

end CompilerEngineLane

open CompilerEngineLane

def laneSystem [DecidableEq κ] [DecidableEq γ] (capacity : ℕ+) :
    TransitionSystem (CompilerEngineLane κ γ) (LaneMove κ γ) where
  initial lane := lane = ⟨[], none, []⟩
  step lane move target := lane.next capacity move = some target

variable {log : List (LaneEvent κ γ)} {entry : PreparedStateCacheEntry κ γ}

/-- Since some use of `later`, `earlier` was not used. -/
def UsedBefore (log : List (LaneEvent κ γ)) (earlier later : κ) : Prop :=
  ∃ recent before, log = recent ++ .used later :: before ∧ .used earlier ∉ recent

/-- The entry's graph was prepared after the entry was restored. -/
def PreparedSince (log : List (LaneEvent κ γ)) (entry : PreparedStateCacheEntry κ γ) : Prop :=
  ∃ recent before, log = recent ++ .prepared entry.graph :: before ∧
    ∀ graph, .restored entry.key graph ∉ recent

theorem UsedBefore.more {earlier later} (before : UsedBefore log earlier later)
    (new : List (LaneEvent κ γ)) (quiet : .used earlier ∉ new) :
    UsedBefore (new ++ log) earlier later := by
  obtain ⟨recent, old, rfl, unused⟩ := before
  exact ⟨new ++ recent, old, (append_assoc ..).symm, by simp [quiet, unused]⟩

theorem PreparedSince.more (since : PreparedSince log entry) (new : List (LaneEvent κ γ))
    (quiet : ∀ graph, .restored entry.key graph ∉ new) : PreparedSince (new ++ log) entry := by
  obtain ⟨recent, old, rfl, kept⟩ := since
  exact ⟨new ++ recent, old, (append_assoc ..).symm, fun graph => by simp [quiet, kept]⟩

theorem restoredGraphs_released (entries : List (PreparedStateCacheEntry κ γ)) :
    restoredGraphs (entries.map releaseOf ++ log) = restoredGraphs log := by
  induction entries with
  | nil => rfl
  | cons _ _ ih => exact ih

theorem releasedGraphs_released (entries : List (PreparedStateCacheEntry κ γ)) :
    releasedGraphs (entries.map releaseOf ++ log) =
      entries.map PreparedStateCacheEntry.graph ++ releasedGraphs log := by
  induction entries with
  | nil => rfl
  | cons entry _ ih => exact congrArg (entry.graph :: ·) ih

/-- What holds of a lane between its moves. -/
structure LaneHolds (capacity : ℕ+) (lane : CompilerEngineLane κ γ) : Prop where
  distinct : (lane.preparedStates.map PreparedStateCacheEntry.key).Nodup
  bounded : lane.preparedStates.length ≤ capacity
  recency : (lane.preparedStates.map PreparedStateCacheEntry.key).Pairwise (UsedBefore lane.log)
  inUse : ∀ subject, lane.measuring = some subject →
    subject ∈ lane.preparedStates.map fun entry => (entry.key, entry.graph)
  references : (restoredGraphs lane.log).Perm
    (releasedGraphs lane.log ++ lane.preparedStates.map PreparedStateCacheEntry.graph)
  prepared : ∀ entry ∈ lane.preparedStates, entry.prepared → PreparedSince lane.log entry

theorem exists_of_find? {α : Type} {test items} {item : α} (found : items.find? test = some item) :
    ∃ front back, items = front ++ item :: back ∧ items.eraseP test = front ++ back ∧
      ∀ change, items.modify (items.findIdx test) change = front ++ change item :: back := by
  induction items with
  | nil => cases found
  | cons first items ih =>
    by_cases here : test first
    · rw [find?_cons_of_pos here] at found
      cases found
      exact ⟨[], items, rfl, by simp [here], fun change => by simp [findIdx_cons, here]⟩
    · rw [find?_cons_of_neg here] at found
      obtain ⟨front, back, rfl, erased, modified⟩ := ih found
      exact ⟨first :: front, back, rfl, by simp [here, erased],
        fun change => by simp [findIdx_cons, here, modified]⟩

variable [DecidableEq κ] {capacity : ℕ+} {lane target : CompilerEngineLane κ γ}
  {move : LaneMove κ γ} {key : κ}

theorem LaneHolds.reuse (holds : LaneHolds capacity lane)
    (found : lane.preparedStates.find? (·.key = key) = some entry) :
    LaneHolds capacity ⟨lane.preparedStates.eraseP (·.key = key) ++ [entry],
      some (key, entry.graph), .used key :: lane.log⟩ := by
  obtain rfl : entry.key = key := by simpa using find?_some found
  obtain ⟨front, back, split, erased, _⟩ := exists_of_find? found
  have moved : (lane.preparedStates.eraseP (·.key = entry.key) ++ [entry]).Perm
      lane.preparedStates := by
    rw [erased, split, append_assoc]
    exact (perm_append_singleton _ _).append_left _
  have distinct := (moved.map PreparedStateCacheEntry.key).nodup_iff.mpr holds.distinct
  refine ⟨distinct, moved.length_eq ▸ holds.bounded, ?_, ?_,
    holds.references.trans ((moved.map _).symm.append_left _), ?_⟩
  · rw [map_append] at distinct ⊢
    refine pairwise_append.mpr ⟨?_, pairwise_singleton _ _, ?_⟩
    · refine ((holds.recency.sublist ((eraseP_sublist).map _)).imp_of_mem ?_)
      intro earlier later member _ before
      refine before.more [.used entry.key] fun again => ?_
      cases mem_singleton.mp again
      exact (nodup_append.mp distinct).2.2 _ member _ (mem_singleton_self _) rfl
    · intro earlier _ later last
      cases mem_singleton.mp last
      exact ⟨[], lane.log, rfl, not_mem_nil⟩
  · intro subject same
    cases same
    exact mem_map_of_mem (mem_append_right _ (mem_singleton_self entry))
  · intro other member prepared
    exact (holds.prepared other (moved.mem_iff.mp member) prepared).more [.used entry.key] (by simp)

theorem LaneHolds.restore {graph evicted kept} (holds : LaneHolds capacity lane)
    (split : lane.preparedStates = evicted ++ kept)
    (unknown : lane.preparedStates.find? (·.key = key) = none) (room : kept.length < capacity) :
    LaneHolds capacity ⟨kept ++ [⟨key, graph, false⟩], some (key, graph),
      .used key :: evicted.map releaseOf ++ .restored key graph :: lane.log⟩ := by
  obtain ⟨states, measuring, log⟩ := lane
  obtain rfl : states = evicted ++ kept := split
  have other : ∀ entry ∈ kept, entry.key ≠ key := fun entry among same => by
    simpa [same] using find?_eq_none.mp unknown entry (mem_append_right _ among)
  let new : List (LaneEvent κ γ) := .used key :: evicted.map releaseOf ++ [.restored key graph]
  have latest : .used key :: evicted.map releaseOf ++ .restored key graph :: log = new ++ log := by
    simp [new]
  have fewer := sublist_append_right evicted kept
  refine ⟨?_, ?_, ?_, ?_, ?_, ?_⟩
  · rw [map_append, nodup_append]
    refine ⟨holds.distinct.sublist (fewer.map _), pairwise_singleton _ _, ?_⟩
    intro earlier member later last
    cases mem_singleton.mp last
    obtain ⟨entry, among, rfl⟩ := mem_map.mp member
    exact other entry among
  · rw [length_append, length_singleton]
    exact room
  · rw [map_append, latest]
    refine pairwise_append.mpr ⟨?_, pairwise_singleton _ _, ?_⟩
    · refine (holds.recency.sublist (fewer.map _)).imp_of_mem ?_
      intro earlier later member _ before
      obtain ⟨entry, among, rfl⟩ := mem_map.mp member
      exact before.more new (by simp [new, releaseOf, other entry among])
    · intro earlier _ later last
      cases mem_singleton.mp last
      exact ⟨[], _, rfl, not_mem_nil⟩
  · intro subject same
    cases same
    exact mem_map_of_mem (mem_append_right _ (mem_singleton_self _))
  · change (restoredGraphs (evicted.map releaseOf ++ .restored key graph :: log)).Perm
      (releasedGraphs (evicted.map releaseOf ++ .restored key graph :: log) ++ _)
    rw [restoredGraphs_released, releasedGraphs_released, map_append, ← append_assoc]
    refine (holds.references.cons graph).trans ?_
    refine (perm_append_singleton _ _).symm.trans (List.Perm.append_right _ ?_)
    rw [map_append, ← append_assoc]
    exact perm_append_comm.append_right _
  · intro entry member prepared
    rcases mem_append.mp member with old | last
    · rw [latest]
      exact (holds.prepared entry (fewer.subset old) prepared).more new
        (by simp [new, releaseOf, other entry old])
    · cases mem_singleton.mp last
      cases prepared

theorem LaneHolds.restoreOrReuse {restored} (holds : LaneHolds capacity lane) :
    LaneHolds capacity (lane.restoreOrReuse capacity key restored) := by
  unfold CompilerEngineLane.restoreOrReuse
  split
  · next found => exact holds.reuse found
  next unknown =>
  split
  · exact holds
  refine holds.restore (take_append_drop _ _).symm unknown ?_
  have bounded := holds.bounded
  have pos := capacity.pos
  rw [length_drop]
  split <;> omega

variable [DecidableEq γ]

theorem LaneHolds.prepare {graph : γ} {succeeds} (holds : LaneHolds capacity lane) :
    LaneHolds capacity (lane.prepare graph succeeds).2 := by
  unfold CompilerEngineLane.prepare
  split
  · exact holds
  next entry found =>
  split
  · exact holds
  split
  · obtain ⟨front, back, split, _, modified⟩ := exists_of_find? found
    have here : entry.graph = graph := by simpa using find?_some found
    have keys : ∀ {α} {read : PreparedStateCacheEntry κ γ → α},
        (∀ entry, read { entry with prepared := true } = read entry) →
        (front ++ { entry with prepared := true } :: back).map read =
          lane.preparedStates.map read := fun same => by simp [split, same]
    rw [modified]
    refine ⟨?_, ?_, ?_, ?_, ?_, ?_⟩
    · rw [keys fun _ => rfl]
      exact holds.distinct
    · simpa [split] using holds.bounded
    · rw [keys fun _ => rfl]
      exact holds.recency.imp fun before => before.more [.prepared graph] (by simp)
    · intro subject measured
      rw [keys fun _ => rfl]
      exact holds.inUse subject measured
    · rw [keys fun _ => rfl]
      exact holds.references
    · intro other member prepared
      by_cases old : other ∈ lane.preparedStates
      · exact (holds.prepared other old prepared).more [.prepared graph] (by simp)
      have new : other = { entry with prepared := true } := by
        rw [split] at old
        simp only [mem_append, mem_cons, not_or] at member old
        tauto
      subst new
      exact ⟨[], lane.log, by simp [here], fun _ => not_mem_nil⟩
  · exact holds

theorem LaneHolds.next (holds : LaneHolds capacity lane)
    (moved : lane.next capacity move = some target) : LaneHolds capacity target := by
  cases move with
  | restoreOrReuse key restored =>
    obtain ⟨_, same⟩ := Option.ite_none_right_eq_some.mp moved
    cases same
    exact holds.restoreOrReuse
  | prepare succeeds =>
    obtain ⟨subject, _, same⟩ := Option.map_eq_some_iff.mp moved
    cases same
    exact holds.prepare
  | finish =>
    cases moved
    exact { holds with inUse := nofun }
  | drop =>
    obtain ⟨_, same⟩ := Option.ite_none_right_eq_some.mp moved
    cases same
    refine ⟨nodup_nil, Nat.zero_le _, .nil, nofun, ?_, forall_mem_nil _⟩
    rw [restoredGraphs_released, releasedGraphs_released, map_nil, append_nil]
    exact holds.references.trans perm_append_comm

/-- What holds of a lane in every run.  Once it is dropped all it restored is
released, and preparing the state in use never fails because it is absent. -/
theorem laneHolds_of_reachable (reached : (laneSystem capacity).Reachable lane) :
    LaneHolds capacity lane ∧
      (∀ target, (laneSystem capacity).step lane .drop target →
        (restoredGraphs target.log).Perm (releasedGraphs target.log)) ∧
      ∀ subject, lane.measuring = some subject → ∀ succeeds,
        (lane.prepare subject.2 succeeds).1 ≠ .error .absent := by
  have holds : LaneHolds capacity lane := by
    refine reached.invariant ?_ fun _ _ _ holds moved => holds.next moved
    rintro _ rfl
    exact ⟨nodup_nil, Nat.zero_le _, .nil, nofun, .refl _, forall_mem_nil _⟩
  refine ⟨holds, fun target dropped => ?_, fun subject measured succeeds absent => ?_⟩
  · have left := (holds.next dropped).references
    obtain ⟨_, same⟩ := Option.ite_none_right_eq_some.mp dropped
    cases same
    rwa [map_nil, append_nil] at left
  obtain ⟨entry, member, rfl⟩ := mem_map.mp (holds.inUse subject measured)
  unfold CompilerEngineLane.prepare at absent
  split at absent
  · next unknown => simpa using find?_eq_none.mp unknown entry member
  split at absent
  · cases absent
  · split at absent <;> cases absent

theorem laneHolds_of_two : LaneHolds 1 (⟨[⟨1, 5, false⟩], some (1, 5),
    [.used 1, .released 4, .restored 1 5, .used 0, .restored 0 4]⟩ : CompilerEngineLane Nat Nat) :=
  (laneHolds_of_reachable ⟨_, rfl, [.restoreOrReuse 0 (some 4), .finish,
    .restoreOrReuse 1 (some 5)], .of_foldlM id rfl⟩).1

end GraphZero.Measure
