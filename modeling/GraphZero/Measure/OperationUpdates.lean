import GraphZero.Measure.LeaseConsistency

/-!
# Operations are sequences of updates

From a sound state, each operation of the coordinator is a run of
`Update`s, and the lemmas say of which kinds.  An operation that takes an
agent's session away erases the agent first and requeues its jobs afterwards;
the same state is reached by requeueing first, and that order keeps every
intermediate state sound.  `connect` is reordered in the same way: it
registers an idle session and recovers the leases one by one.
-/

namespace GraphZero.Measure

open Foundation Wire List

/-- `next` is reached by updates of which `allowed` holds. -/
def UpdatesWithin (allowed : Change → Prop) (state next : CoordinatorState) : Prop :=
  ∃ changes, Updates state changes next ∧ ∀ change ∈ changes, allowed change

namespace UpdatesWithin

variable {allowed wider : Change → Prop} {first second third :
  CoordinatorState}

theorem refl (state : CoordinatorState) : UpdatesWithin allowed state state :=
  ⟨[], TransitionSystem.Run.refl state, by simp⟩

theorem single {change} (update : Update first change second) (permitted : allowed change) :
    UpdatesWithin allowed first second := by
  refine ⟨[change], TransitionSystem.Run.single update, ?_⟩
  simpa using permitted

theorem trans (before : UpdatesWithin allowed first second)
    (after : UpdatesWithin allowed second third) :
    UpdatesWithin allowed first third := by
  obtain ⟨changes, run, permitted⟩ := before
  obtain ⟨laterChanges, laterRun, laterPermitted⟩ := after
  refine ⟨changes ++ laterChanges, run.append laterRun, ?_⟩
  intro change member
  rcases mem_append.mp member with earlier | later
  · exact permitted change earlier
  · exact laterPermitted change later

theorem mono (updates : UpdatesWithin allowed first second)
    (weaker : ∀ change, allowed change → wider change) :
    UpdatesWithin wider first second := by
  obtain ⟨changes, run, permitted⟩ := updates
  exact ⟨changes, run, fun change member =>
    weaker change (permitted change member)⟩

theorem consistent (updates : UpdatesWithin allowed first second)
    (start : Consistent first) : Consistent second := by
  obtain ⟨changes, run, _⟩ := updates
  exact consistent_updates run start

theorem invariant {good : CoordinatorState → Prop} (updates : UpdatesWithin allowed first second)
    (preserved : ∀ state change next, Consistent state → good state →
      allowed change → Update state change next → good next)
    (sound : Consistent first) (start : good first) : good second := by
  obtain ⟨changes, run, permitted⟩ := updates
  have step : ∀ state change next, allowed change → (Consistent state ∧ good state) →
        updateSystem.step state change next → (Consistent next ∧ good next) := by
    rintro state change next permitted ⟨sound, holds⟩ update
    exact ⟨consistent_update update sound, preserved state change next sound holds permitted update⟩
  exact (run.invariant_of_labels permitted step ⟨sound, start⟩).2

theorem relates {related : CoordinatorState → CoordinatorState → Prop}
    (updates : UpdatesWithin allowed first second)
    (reflexive : ∀ state, related state state)
    (composed : ∀ start state change next, Consistent state →
      related start state → allowed change → Update state change next → related start next)
    (sound : Consistent first) : related first second :=
  updates.invariant (fun state change next sound before allowed update =>
      composed first state change next sound before allowed update)
    sound (reflexive first)

end UpdatesWithin

/-- A change that only ends leases or sessions. -/
inductive Change.Ending : Change → Prop
  | requeued (jobId : JobId) : Ending (.requeued jobId)
  | disconnected (deviceId : DeviceId) : Ending (.disconnected deviceId)

/-- A change scheduling may make with these draws. -/
inductive Change.Scheduling (draws : List LeaseId) : Change → Prop
  | ending {change} (ends : change.Ending) : Scheduling draws change
  | offered (jobId : JobId) {leaseId} (drawn : leaseId ∈ draws) :
    Scheduling draws (.offered jobId leaseId)

section HeldLeases

variable {state next : CoordinatorState} {jobId : JobId} {leaseId : LeaseId}

theorem HoldsLease.of_insert {changed job rewritten other} (held : HoldsLease next jobId leaseId)
    (same : next.jobs = other.jobs.insert changed rewritten)
    (found : other.jobs.get? changed = some job)
    (fewer : ∀ active, rewritten.state.lease = some active ∨ rewritten.recovery = some active →
        ∃ earlier, (job.state.lease = some earlier ∨ job.recovery = some earlier) ∧
            earlier.leaseId = active.leaseId) :
    HoldsLease other jobId leaseId := by
  obtain ⟨holder, active, holderFound, lease, identity⟩ := held
  rw [same, Table.get?_insert] at holderFound
  split at holderFound
  · next here =>
    cases holderFound
    obtain ⟨earlier, earlierLease, earlierId⟩ := fewer active lease
    exact ⟨job, earlier, here ▸ found, earlierLease, earlierId.trans identity⟩
  · exact ⟨holder, active, holderFound, lease, identity⟩

theorem HoldsLease.of_erase {erased other} (held : HoldsLease next jobId leaseId)
    (same : next.jobs = other.jobs.erase erased) :
    HoldsLease other jobId leaseId ∧ jobId ≠ erased := by
  obtain ⟨holder, active, holderFound, lease, identity⟩ := held
  rw [same, Table.get?_erase] at holderFound
  split at holderFound
  · cases holderFound
  · next different =>
    exact ⟨⟨holder, active, holderFound, lease, identity⟩, different⟩

theorem holdsLease_of_update {change} (sound : Consistent state)
    (update : Update state change next) (held : HoldsLease next jobId leaseId) :
    HoldsLease state jobId leaseId ∨ change = .offered jobId leaseId := by
  cases update with
  | enqueue unknown uncommitted queued unrecoverable requester =>
    rename_i admittedId job artifacts artifactBytes
    obtain ⟨holder, active, found, lease, identity⟩ := held
    rw [Table.get?_insert] at found
    split at found
    · cases found
      rw [queued, unrecoverable] at lease
      simp at lease
    · exact Or.inl ⟨holder, active, found, lease, identity⟩
  | offer waiting found connected admitted session fresh =>
    rename_i offeredId job agent offered channels
    obtain ⟨holder, active, holderFound, lease, identity⟩ := held
    simp only [recordOffer] at holderFound
    rw [Table.get?_insert] at holderFound
    split at holderFound
    · next here =>
      cases holderFound
      have offeredHere : offered.leaseId = leaseId := by
        simp only [JobState.lease_offered, Option.some.injEq, reduceCtorEq, or_false] at lease
        rw [lease, identity]
      exact Or.inr (by rw [here, offeredHere])
    · exact Or.inl ⟨holder, active, holderFound, lease, identity⟩
  | requeue found leased accepted =>
    rename_i requeuedId job active preserveForRecovery
    obtain ⟨agent, connected, requeued⟩ :=
      requeueActive_eq sound found leased preserveForRecovery
    rw [requeued] at held
    refine Or.inl (held.of_insert rfl found ?_)
    intro kept lease
    cases preserveForRecovery with
    | false => simp at lease
    | true =>
      have same : active = kept := by simpa using lease
      exact ⟨active, Or.inl leased, congrArg _ same⟩
  | renew found leased =>
    rename_i renewedId job active deadline
    refine Or.inl (held.of_insert rfl found ?_)
    intro kept lease
    rcases lease with renewed | recovered
    · cases renewed
      exact ⟨active, Or.inl leased, rfl⟩
    · exact ⟨kept, Or.inr recovered, rfl⟩
  | rebind found recovered connected =>
    rename_i reboundId job agent active deadline
    refine Or.inl (held.of_insert rfl found ?_)
    intro kept lease
    rcases lease with rebound | lost
    · cases rebound
      exact ⟨active, Or.inr recovered, rfl⟩
    · cases lost
  | connect absent idle => exact Or.inl held
  | disconnect connected idle => exact Or.inl held
  | credit connected => exact Or.inl held
  | cancel found =>
    obtain ⟨artifacts, bytes, channels, agents, cancelled, _⟩ := cancelJob_eq sound found
    rw [cancelled] at held
    exact Or.inl (held.of_erase rfl).1
  | settle found running connected recorded =>
    rename_i settledId job active agent report receipts digest
    obtain ⟨artifacts, bytes, replies, settled, _⟩ := settleJob_eq job
      settledId (connected : { state with receipts }.agents.get? _ = _) report
    rw [settled] at held
    exact Or.inl (held.of_erase rfl).1
  | communicate recorded => exact Or.inl held

theorem holdsLease_of_updates {changes} (updates : Updates state changes next)
    (sound : Consistent state) (held : HoldsLease next jobId leaseId) :
    HoldsLease state jobId leaseId ∨ .offered jobId leaseId ∈ changes := by
  induction updates with
  | refl => exact Or.inl held
  | snoc run update ih =>
    have mid := consistent_updates run sound
    rcases holdsLease_of_update mid update held with before | offered
    · rcases ih before with start | earlier
      · exact Or.inl start
      · exact Or.inr (mem_append_left _ earlier)
    · exact Or.inr (by simp [offered])

theorem holdsLease_of_ending (updates : UpdatesWithin Change.Ending state next)
    (sound : Consistent state) (held : HoldsLease next jobId leaseId) :
    HoldsLease state jobId leaseId := by
  obtain ⟨changes, run, ends⟩ := updates
  rcases holdsLease_of_updates run sound held with before | offered
  · exact before
  · cases ends _ offered

end HeldLeases

/-! ## Leases that end -/

section Ending

variable {state : CoordinatorState} {jobId : JobId} {leaseId : LeaseId}
  {active : ActiveLease}

theorem updates_requeueActive (leased : leaseOf state.jobs jobId = some active) :
    UpdatesWithin Change.Ending state (requeueActive state jobId active false) := by
  unfold leaseOf at leased
  rw [Option.bind_eq_some_iff] at leased
  obtain ⟨job, found, lease⟩ := leased
  exact .single (.requeue found lease (by simp)) (.requeued jobId)

theorem leaseOf_requeueActive (sound : Consistent state)
    (leased : leaseOf state.jobs jobId = some active)
    (preserveForRecovery : Bool) (tested : JobId) :
    leaseOf (requeueActive state jobId active preserveForRecovery).jobs tested =
      if tested = jobId then none else leaseOf state.jobs tested := by
  unfold leaseOf at leased
  rw [Option.bind_eq_some_iff] at leased
  obtain ⟨job, found, lease⟩ := leased
  obtain ⟨agent, _, requeued⟩ := requeueActive_eq sound found lease preserveForRecovery
  rw [requeued, leaseOf_insert]
  rfl

theorem updates_requeueAll {entries : List (JobId × ActiveLease)} (sound : Consistent state)
    (distinct : (entries.map Prod.fst).Nodup)
    (leased : ∀ entry ∈ entries, leaseOf state.jobs entry.1 = some entry.2) :
    UpdatesWithin Change.Ending state (entries.foldl
        (fun state entry => requeueActive state entry.1 entry.2 false)
        state) := by
  induction entries generalizing state with
  | nil => exact .refl state
  | cons entry entries ih =>
    have here := leased entry (by simp)
    have first := updates_requeueActive here
    rw [map_cons, nodup_cons] at distinct
    apply first.trans
    apply ih (first.consistent sound) distinct.2
    intro other member
    have different : other.1 ≠ entry.1 := by
      intro same
      exact distinct.1 (mem_map.mpr ⟨other, member, same⟩)
    rw [leaseOf_requeueActive sound here, if_neg different]
    exact leased other (mem_cons_of_mem entry member)

variable {order : IterationOrder JobId} {deviceId : DeviceId} {entries : List (JobId × LeaseId)}
  {agent : AgentSession}

theorem mem_expiredLeases {now} : (jobId, active) ∈ expiredLeases order state now ↔
      leaseOf state.jobs jobId = some active ∧ active.deadline ≤ now := by
  simp only [expiredLeases, mem_filterMap, leaseOf,
    Option.bind_eq_some_iff, Option.ite_none_right_eq_some,
    Option.some.injEq, Prod.mk.injEq, IterationOrder.mem_visit]
  constructor
  · rintro ⟨visited, _, job, found, lease, leased, expired, rfl, rfl⟩
    exact ⟨⟨job, found, leased⟩, expired⟩
  · rintro ⟨⟨job, found, leased⟩, expired⟩
    exact ⟨jobId, Table.mem_keys_of_get? found, job, found, active, leased, expired, rfl, rfl⟩

theorem nodup_expiredLeases (order : IterationOrder JobId)
    (state : CoordinatorState) (now : Instant) :
    ((expiredLeases order state now).map Prod.fst).Nodup := by
  have visited := order.nodup_visit state.jobs.nodup_keys
  unfold expiredLeases
  rw [map_filterMap]
  apply visited.filterMap
  intro first second key firstKey secondKey
  simp only [Option.mem_def, Option.map_eq_some_iff,
    Option.bind_eq_some_iff, Option.ite_none_right_eq_some,
    Option.some.injEq] at firstKey secondKey
  obtain ⟨_, ⟨_, _, _, _, _, rfl⟩, rfl⟩ := firstKey
  obtain ⟨_, ⟨_, _, _, _, _, rfl⟩, same⟩ := secondKey
  exact same.symm

theorem updates_expireLeases (order : IterationOrder JobId) (now : Instant)
    (sound : Consistent state) :
    UpdatesWithin Change.Ending state (expireLeases order state now) :=
  updates_requeueAll sound (nodup_expiredLeases order state now)
    fun _ member => (mem_expiredLeases.mp member).1

theorem not_holdsLease_requeueActive (sound : Consistent state)
    (leased : leaseOf state.jobs jobId = some active) :
    ¬ HoldsLease (requeueActive state jobId active false) jobId leaseId := by
  unfold leaseOf at leased
  rw [Option.bind_eq_some_iff] at leased
  obtain ⟨job, found, lease⟩ := leased
  obtain ⟨agent, _, requeued⟩ := requeueActive_eq sound found lease false
  rintro ⟨holder, kept, holderFound, held, _⟩
  rw [requeued, Table.get?_insert_self] at holderFound
  cases holderFound
  simp at held

theorem not_holdsLease_requeueAll {entries : List (JobId × ActiveLease)} (sound : Consistent state)
    (distinct : (entries.map Prod.fst).Nodup)
    (leased : ∀ entry ∈ entries, leaseOf state.jobs entry.1 = some entry.2)
    (member : (jobId, active) ∈ entries) :
    ¬ HoldsLease (entries.foldl
      (fun state entry => requeueActive state entry.1 entry.2 false) state) jobId leaseId := by
  induction entries generalizing state with
  | nil => cases member
  | cons entry entries ih =>
    have here := leased entry (by simp)
    have first := (updates_requeueActive here).consistent sound
    rw [map_cons, nodup_cons] at distinct
    have rest : ∀ other ∈ entries,
        leaseOf (requeueActive state entry.1 entry.2 false).jobs other.1 = some other.2 := by
      intro other later
      have different : other.1 ≠ entry.1 := by
        intro same
        exact distinct.1 (mem_map.mpr ⟨other, later, same⟩)
      rw [leaseOf_requeueActive sound here, if_neg different]
      exact leased other (mem_cons_of_mem entry later)
    rcases mem_cons.mp member with same | later
    · subst same
      intro held
      exact not_holdsLease_requeueActive sound here
        (holdsLease_of_ending (updates_requeueAll first distinct.2 rest) first held)
    · exact ih first distinct.2 rest later

theorem not_holdsLease_expireLeases {now : Instant} (sound : Consistent state)
    (leased : leaseOf state.jobs jobId = some active)
    (expired : active.deadline ≤ now) :
    ¬ HoldsLease (expireLeases order state now) jobId leaseId :=
  not_holdsLease_requeueAll sound (nodup_expiredLeases order state now)
    (fun _ member => (mem_expiredLeases.mp member).1)
    (mem_expiredLeases.mpr ⟨leased, expired⟩)

theorem updates_requeueLeased (state : CoordinatorState) (jobId : JobId) (leaseId : LeaseId) :
    UpdatesWithin Change.Ending state (requeueLeased state jobId leaseId) := by
  unfold requeueLeased
  split
  · exact .refl state
  next job found =>
  split
  · next active offered =>
    split
    · exact .single (.requeue found (by rw [offered]; rfl) (by simp))
        (.requeued jobId)
    · exact .refl state
  · next active running =>
    split
    · exact .single (.requeue found (by rw [running]; rfl) (fun _ => running))
        (.requeued jobId)
    · exact .refl state
  · exact .refl state

theorem updates_requeueLeasedAll (entries : List (JobId × LeaseId)) (state : CoordinatorState) :
    UpdatesWithin Change.Ending state (entries.foldl
        (fun state entry => requeueLeased state entry.1 entry.2) state) := by
  induction entries generalizing state with
  | nil => exact .refl state
  | cons entry entries ih => exact (updates_requeueLeased state entry.1 entry.2).trans (ih _)

/-! ### An agent that leaves -/

def eraseAgent (state : CoordinatorState) (deviceId : DeviceId) : CoordinatorState :=
  { state with agents := state.agents.erase deviceId }

theorem requeueActive_eraseAgent (state : CoordinatorState) (jobId : JobId)
    (active : ActiveLease) (preserveForRecovery : Bool) :
    requeueActive (eraseAgent state active.deviceId) jobId active preserveForRecovery =
      eraseAgent (requeueActive state jobId active preserveForRecovery) active.deviceId := by
  have jobSide : requeueJob (eraseAgent state active.deviceId) jobId active preserveForRecovery =
        eraseAgent (requeueJob state jobId active preserveForRecovery) active.deviceId := by
    unfold requeueJob eraseAgent
    simp only
    split <;> rfl
  have gone : ∀ other : CoordinatorState,
      releaseLease (eraseAgent other active.deviceId) jobId active =
        eraseAgent other active.deviceId := by
    intro other
    simp [releaseLease, eraseAgent]
  have forgotten : ∀ other : CoordinatorState,
      eraseAgent (releaseLease other jobId active) active.deviceId =
        eraseAgent other active.deviceId := by
    intro other
    unfold releaseLease
    split
    · rfl
    split
    · simp [eraseAgent]
    · rfl
  rw [requeueActive, jobSide, gone, requeueActive, forgotten]

/-- An entry of the map of `deviceId` names no lease of another device. -/
def OwnEntry (state : CoordinatorState) (deviceId : DeviceId) (entry : JobId × LeaseId) : Prop :=
  ∀ active, leaseOf state.jobs entry.1 = some active →
    active.leaseId = entry.2 → active.deviceId = deviceId

theorem requeueLeased_eraseAgent (own : OwnEntry state deviceId (jobId, leaseId)) :
    requeueLeased (eraseAgent state deviceId) jobId leaseId =
      eraseAgent (requeueLeased state jobId leaseId) deviceId := by
  unfold requeueLeased
  rw [show (eraseAgent state deviceId).jobs = state.jobs from rfl]
  cases found : state.jobs.get? jobId with
  | none => rfl
  | some job =>
    cases lease : job.state with
    | queued => simp only [lease]
    | offered active =>
      simp only [lease]
      split
      · next same =>
        have device := own active (by rw [leaseOf_of_get? found, lease]; rfl) same
        subst device
        exact requeueActive_eraseAgent state jobId active false
      · rfl
    | running active =>
      simp only [lease]
      split
      · next same =>
        have device := own active (by rw [leaseOf_of_get? found, lease]; rfl) same
        subst device
        exact requeueActive_eraseAgent state jobId active true
      · rfl

section

variable (sound : Consistent state)
include sound

theorem leaseOf_requeueLeased (jobId : JobId) (leaseId : LeaseId) (tested : JobId) :
    leaseOf (requeueLeased state jobId leaseId).jobs tested = leaseOf state.jobs tested ∨
      leaseOf (requeueLeased state jobId leaseId).jobs tested = none := by
  unfold requeueLeased
  split
  · exact Or.inl rfl
  next job found =>
  split
  · next active offered =>
    split
    · rw [leaseOf_requeueActive sound (by rw [leaseOf_of_get? found, offered]; rfl)]
      split
      · exact Or.inr rfl
      · exact Or.inl rfl
    · exact Or.inl rfl
  · next active running =>
    split
    · rw [leaseOf_requeueActive sound (by rw [leaseOf_of_get? found, running]; rfl)]
      split
      · exact Or.inr rfl
      · exact Or.inl rfl
    · exact Or.inl rfl
  · exact Or.inl rfl

theorem leaseOf_requeueLeased_self (leased : leaseOf state.jobs jobId = some active) :
    leaseOf (requeueLeased state jobId active.leaseId).jobs jobId = none := by
  have both := leased
  unfold leaseOf at leased
  rw [Option.bind_eq_some_iff] at leased
  obtain ⟨job, found, lease⟩ := leased
  rcases JobState.lease_eq_some_iff.mp lease with offered | running
  · simp only [requeueLeased, found, offered, if_true]
    rw [leaseOf_requeueActive sound both, if_pos rfl]
  · simp only [requeueLeased, found, running, if_true]
    rw [leaseOf_requeueActive sound both, if_pos rfl]

theorem ownEntry_requeueLeased {deviceId entry} (own : OwnEntry state deviceId entry)
    (jobId : JobId) (leaseId : LeaseId) :
    OwnEntry (requeueLeased state jobId leaseId) deviceId entry := by
  intro active leased same
  rcases leaseOf_requeueLeased sound jobId leaseId entry.1 with
    kept | ended
  · exact own active (kept ▸ leased) same
  · rw [ended] at leased
    cases leased

theorem foldl_requeueLeased_eraseAgent (own : ∀ entry ∈ entries, OwnEntry state deviceId entry) :
    entries.foldl (fun state entry => requeueLeased state entry.1 entry.2)
        (eraseAgent state deviceId) =
      eraseAgent (entries.foldl (fun state entry => requeueLeased state entry.1 entry.2) state)
          deviceId := by
  induction entries generalizing state with
  | nil => rfl
  | cons entry entries ih =>
    rw [foldl_cons, foldl_cons, requeueLeased_eraseAgent (own entry (by simp))]
    apply ih
    · exact (updates_requeueLeased state entry.1 entry.2).consistent sound
    · intro other member
      exact ownEntry_requeueLeased sound (own other (mem_cons_of_mem entry member)) entry.1 entry.2

theorem leaseOf_foldl_requeueLeased
    (handled : leaseOf state.jobs jobId = none ∨ ∃ active, leaseOf state.jobs jobId = some active ∧
        (jobId, active.leaseId) ∈ entries) :
    leaseOf (entries.foldl (fun state entry => requeueLeased state entry.1 entry.2) state).jobs
        jobId = none := by
  induction entries generalizing state with
  | nil =>
    rcases handled with ended | ⟨active, _, member⟩
    · exact ended
    · cases member
  | cons entry entries ih =>
    have later := (updates_requeueLeased state entry.1 entry.2).consistent sound
    apply ih later
    rcases leaseOf_requeueLeased sound entry.1 entry.2 jobId with
      kept | ended
    · rw [kept]
      rcases handled with ended | ⟨active, leased, member⟩
      · exact Or.inl ended
      rcases mem_cons.mp member with here | there
      · subst here
        rw [leaseOf_requeueLeased_self sound leased] at kept
        rw [leased] at kept
        cases kept
      · exact Or.inr ⟨active, leased, there⟩
    · exact Or.inl ended

end

theorem mem_activeEntries {order} :
    (jobId, leaseId) ∈ activeEntries order agent ↔ agent.active.get? jobId = some leaseId := by
  simp only [activeEntries, mem_filterMap, Option.map_eq_some_iff,
    Prod.mk.injEq, IterationOrder.mem_visit]
  constructor
  · rintro ⟨_, _, _, found, rfl, rfl⟩
    exact found
  · intro found
    exact ⟨jobId, Table.mem_keys_of_get? found, leaseId, found, rfl, rfl⟩

theorem leaseOf_of_foldl_requeueLeased (sound : Consistent state) (survives : leaseOf (entries.foldl
      (fun state entry => requeueLeased state entry.1 entry.2) state).jobs jobId = some active) :
    leaseOf state.jobs jobId = some active := by
  induction entries generalizing state with
  | nil => exact survives
  | cons entry entries ih =>
    have later := (updates_requeueLeased state entry.1 entry.2).consistent sound
    have first := ih later survives
    rcases leaseOf_requeueLeased sound entry.1 entry.2 jobId with
      kept | ended
    · rwa [kept] at first
    · rw [ended] at first
      cases first

theorem agents_requeueJob (state : CoordinatorState) (jobId : JobId) (active : ActiveLease)
    (preserveForRecovery : Bool) :
    (requeueJob state jobId active preserveForRecovery).agents = state.agents := by
  unfold requeueJob
  split <;> rfl

theorem agent_requeueActive (connected : state.agents.get? deviceId = some agent)
    (jobId : JobId) (active : ActiveLease) (preserveForRecovery : Bool) :
    ∃ map, (requeueActive state jobId active preserveForRecovery).agents.get? deviceId =
        some { agent with active := map } := by
  have jobSide := agents_requeueJob state jobId active preserveForRecovery
  unfold requeueActive releaseLease
  rw [jobSide]
  split
  · exact ⟨agent.active, by rw [jobSide, connected]⟩
  next holder held =>
  split
  · rw [Table.get?_insert]
    by_cases here : deviceId = active.deviceId
    · rw [← here, connected] at held
      cases held
      rw [if_pos here]
      exact ⟨_, rfl⟩
    · rw [if_neg here]
      exact ⟨agent.active, connected⟩
  · exact ⟨agent.active, by rw [jobSide, connected]⟩

theorem agent_requeueLeased (connected : state.agents.get? deviceId = some agent)
    (jobId : JobId) (leaseId : LeaseId) :
    ∃ map, (requeueLeased state jobId leaseId).agents.get? deviceId =
      some { agent with active := map } := by
  unfold requeueLeased
  split
  · exact ⟨agent.active, connected⟩
  split
  · split
    · exact agent_requeueActive connected jobId _ _
    · exact ⟨agent.active, connected⟩
  · split
    · exact agent_requeueActive connected jobId _ _
    · exact ⟨agent.active, connected⟩
  · exact ⟨agent.active, connected⟩

theorem agent_foldl_requeueLeased {deviceId agent}
    (connected : state.agents.get? deviceId = some agent) :
    ∃ map, (entries.foldl (fun state entry => requeueLeased state entry.1 entry.2)
        state).agents.get? deviceId = some { agent with active := map } := by
  induction entries generalizing state agent with
  | nil => exact ⟨agent.active, connected⟩
  | cons entry entries ih =>
    obtain ⟨map, next⟩ := agent_requeueLeased connected entry.1 entry.2
    have rest := ih next
    exact rest

theorem absent_requeueActive (absent : state.agents.get? deviceId = none)
    (jobId : JobId) (active : ActiveLease) (preserveForRecovery : Bool) :
    (requeueActive state jobId active preserveForRecovery).agents.get? deviceId = none := by
  have jobSide := agents_requeueJob state jobId active preserveForRecovery
  unfold requeueActive releaseLease
  rw [jobSide]
  split
  · rw [jobSide, absent]
  next holder held =>
  split
  · rw [Table.get?_insert_of_ne, absent]
    intro here
    rw [← here, absent] at held
    cases held
  · rw [jobSide, absent]

theorem absent_requeueLeased (absent : state.agents.get? deviceId = none)
    (jobId : JobId) (leaseId : LeaseId) :
    (requeueLeased state jobId leaseId).agents.get? deviceId = none := by
  unfold requeueLeased
  split
  · exact absent
  split
  · split
    · exact absent_requeueActive absent jobId _ _
    · exact absent
  · split
    · exact absent_requeueActive absent jobId _ _
    · exact absent
  · exact absent

theorem absent_removeAgentSession (order : SessionId → IterationOrder JobId)
    (state : CoordinatorState) (deviceId : DeviceId) :
    (removeAgentSession order state deviceId).agents.get? deviceId = none := by
  unfold removeAgentSession
  split
  · assumption
  next agent connected =>
  have erased : ({ state with
      agents := state.agents.erase deviceId } : CoordinatorState).agents.get? deviceId = none :=
    Table.get?_erase_self _ _
  revert erased
  generalize ({ state with agents := state.agents.erase deviceId } : CoordinatorState) = current
  intro absent
  induction activeEntries order agent generalizing current with
  | nil => exact absent
  | cons entry entries ih => exact ih _ (absent_requeueLeased absent entry.1 entry.2)

theorem updates_removeAgentSession (order : SessionId → IterationOrder JobId)
    (deviceId : DeviceId) (sound : Consistent state) :
    UpdatesWithin Change.Ending state (removeAgentSession order state deviceId) := by
  unfold removeAgentSession
  split
  · exact .refl state
  next agent connected =>
  let entries := activeEntries order agent
  have own : ∀ entry ∈ entries, OwnEntry state deviceId entry := by
    intro entry member active leased _
    obtain ⟨holder, held, device, _⟩ :=
      sound.leased connected (mem_activeEntries.mp member)
    rw [leased] at held
    cases held
    exact device
  let requeued := entries.foldl (fun state entry => requeueLeased state entry.1 entry.2) state
  have requeues : UpdatesWithin Change.Ending state requeued :=
    updates_requeueLeasedAll entries state
  have after : Consistent requeued := requeues.consistent sound
  obtain ⟨map, still⟩ : ∃ map, requeued.agents.get? deviceId = some { agent with active := map } :=
    agent_foldl_requeueLeased connected
  have idle : ∀ jobId, map.get? jobId = none := by
    intro jobId
    cases entry : map.get? jobId with
    | none => rfl
    | some leaseId =>
      -- The lease would have survived although its entry is handled.
      obtain ⟨active, leased, device, _, _⟩ := after.leased still entry
      have before := leaseOf_of_foldl_requeueLeased sound leased
      obtain ⟨holder, connectedHolder, _, held⟩ := sound.holder before
      rw [device, connected] at connectedHolder
      cases connectedHolder
      have ended : leaseOf requeued.jobs jobId = none := leaseOf_foldl_requeueLeased sound
          (Or.inr ⟨active, before, mem_activeEntries.mpr held⟩)
      rw [ended] at leased
      cases leased
  have commuted := foldl_requeueLeased_eraseAgent sound own
  change UpdatesWithin Change.Ending state (entries.foldl
    (fun state entry => requeueLeased state entry.1 entry.2) (eraseAgent state deviceId))
  rw [commuted]
  exact requeues.trans (.single (.disconnect still idle) (.disconnected deviceId))

end Ending

section Scheduling

variable {state next : CoordinatorState} {jobId : JobId} {job : Job}
  {deviceId : DeviceId} {agent : AgentSession}

theorem findAssignment_eq_some
    (assigned : findAssignment state = some (jobId, job, deviceId, agent)) :
    jobId ∈ state.queue ∧ state.jobs.get? jobId = some job ∧
      state.agents.get? deviceId = some agent ∧
      agentMatches agent job = true := by
  obtain ⟨queued, waiting, candidate⟩ := exists_of_findSome?_eq_some assigned
  rw [Option.bind_eq_some_iff] at candidate
  obtain ⟨queuedJob, found, holder⟩ := candidate
  obtain ⟨device, _, chosen⟩ := exists_of_findSome?_eq_some holder
  rw [Option.bind_eq_some_iff] at chosen
  obtain ⟨session, connected, matched⟩ := chosen
  simp only [Option.ite_none_right_eq_some, Option.some.injEq, Prod.mk.injEq] at matched
  obtain ⟨admitted, rfl, rfl, rfl, rfl⟩ := matched
  exact ⟨waiting, found, connected, admitted⟩

theorem updates_offer (config : CoordinatorConfig) (order : SessionId → IterationOrder JobId)
    (sound : Consistent state)
    (assigned : findAssignment state = some (jobId, job, deviceId, agent)) {draw}
    (fresh : ∀ other, ¬ HoldsLease state other draw.1) :
    UpdatesWithin (Change.Scheduling [draw.1]) state
      (offer config order state jobId job deviceId agent draw) := by
  obtain ⟨waiting, found, connected, admitted⟩ := findAssignment_eq_some assigned
  let active := offerLease config deviceId agent draw
  let sent := trySend state.channels agent.commandTx (leaseCommand config job jobId active)
  have offered : UpdatesWithin (Change.Scheduling [draw.1]) state
      { recordOffer state jobId job agent active with channels := sent.2 } :=
    .single (.offer waiting found connected admitted rfl fresh)
      (.offered jobId (by simp [active, offerLease]))
  change UpdatesWithin _ state (if sent.1 then
    { recordOffer state jobId job agent active with channels := sent.2 }
    else removeAgentSession order
      { recordOffer state jobId job agent active with channels := sent.2 }
      deviceId)
  split
  · exact offered
  · exact offered.trans ((updates_removeAgentSession order deviceId
      (offered.consistent sound)).mono fun _ => .ending)

/-- The draws of `schedule` are unused and distinct. -/
def FreshDraws (draws : List LeaseId) (state : CoordinatorState) : Prop :=
  draws.Nodup ∧ ∀ leaseId ∈ draws, ∀ jobId, ¬ HoldsLease state jobId leaseId

theorem FreshDraws.after {allowed draws} (fresh : FreshDraws draws state)
    (updates : UpdatesWithin allowed state next) (sound : Consistent state)
    (apart : ∀ jobId leaseId, allowed (.offered jobId leaseId) →
      leaseId ∉ draws) : FreshDraws draws next := by
  obtain ⟨changes, run, permitted⟩ := updates
  refine ⟨fresh.1, fun leaseId drawn jobId held => ?_⟩
  rcases holdsLease_of_updates run sound held with before | offered
  · exact fresh.2 leaseId drawn jobId before
  · exact apart jobId leaseId (permitted _ offered) drawn

theorem FreshDraws.ending {draws} (fresh : FreshDraws draws state)
    (updates : UpdatesWithin Change.Ending state next) (sound : Consistent state) :
    FreshDraws draws next :=
  fresh.after updates sound (by rintro jobId leaseId ⟨⟩)

theorem updates_schedule {config order draws} (sound : Consistent state)
    (fresh : FreshDraws (draws.map Prod.fst) state)
    (scheduled : schedule config order draws state = some next) :
    UpdatesWithin (Change.Scheduling (draws.map Prod.fst)) state next := by
  induction draws generalizing state with
  | nil =>
    unfold schedule at scheduled
    split at scheduled
    · cases scheduled
      exact .refl _
    · cases scheduled
  | cons draw draws ih =>
    unfold schedule at scheduled
    split at scheduled
    · cases scheduled
      exact .refl _
    next jobId job deviceId agent assigned =>
    have nodup := nodup_cons.mp fresh.1
    have offered := updates_offer config order sound assigned (fresh.2 draw.1 (by simp))
    have rest : FreshDraws (draws.map Prod.fst) state :=
      ⟨nodup.2, fun leaseId member => fresh.2 leaseId (mem_cons_of_mem _ member)⟩
    have later := rest.after offered sound (by
      rintro jobId leaseId (⟨⟨⟩⟩ | ⟨_, used⟩) member
      rw [mem_singleton.mp used] at member
      exact nodup.1 member)
    have remaining := ih (offered.consistent sound) later scheduled
    refine (offered.mono ?_).trans (remaining.mono ?_)
    · rintro change (ends | ⟨jobId, drawn⟩)
      · exact .ending ends
      · exact .offered jobId (by
          rw [mem_singleton.mp drawn]
          simp)
    · rintro change (ends | ⟨jobId, drawn⟩)
      · exact .ending ends
      · exact .offered jobId (mem_cons_of_mem _ drawn)

end Scheduling

end GraphZero.Measure
