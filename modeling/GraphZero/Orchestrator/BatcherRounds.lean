import GraphZero.Orchestrator.BatcherMoves

/-!
# Rounds of the batcher

A round collects a batch and submits it.  What the deferred jobs gave to the
batch when the round began comes first in it, and what they kept comes first
among those that are deferred after it.
-/

namespace GraphZero.Orchestrator.Batcher

open Engine Foundation Search List

variable {World P R F : Type} {lanes : Nat} [Scalar F] {context : BatcherContext World P R F lanes}
  {state : Batcher World P R F lanes}

/-! ## Collecting -/

theorem Told.receive {next : Batcher World P R F lanes} (told : state.Told context)
    (received : state.received <+: next.received)
    (submitted : next.submitted = state.submitted)
    (refused : next.refused = state.refused)
    (accepted : next.accepted = state.accepted)
    (sizes : next.batchSizes = state.batchSizes)
    (replies : next.replies = state.replies) : next.Told context where
  inOrder model := by
    unfold submittedJobs
    rw [submitted]
    exact (told.inOrder model).trans (isPrefix_jobsOf received)
  calls := submitted ▸ told.calls
  count := submitted ▸ accepted ▸ told.count
  answers := by
    unfold answered
    rw [submitted, accepted]
    exact told.answers
  sizes := by
    unfold answered
    rw [submitted, accepted, sizes]
    exact told.sizes
  replies := by
    unfold answered
    rw [submitted, accepted, replies]
    exact told.replies
  unanswered := by
    rw [submitted, accepted, refused]
    exact told.unanswered

/-- The batch can still get jobs of the model. -/
def Suits (state : Batcher World P R F lanes) (model : ModelGeneration) : Prop :=
  ∀ other, state.batchModel = some other → other = model

/-- A collection that began in `begun`.  A job that suits the batch and waits
had no room. -/
structure Collecting (context : BatcherContext World P R F lanes)
    (begun state : Batcher World P R F lanes) : Prop where
  sound : state.Sound context
  unmodelled : state.batch = [] → state.batchModel = none
  passed : ∀ model, state.Suits model →
    Passed context.collator.batchCapacity model state.batch state.deferred
  submitted : state.submitted = begun.submitted
  batch : begun.batch <+: state.batch
  full : begun.batch.length = context.collator.batchCapacity → state.batch = begun.batch
  deferred : begun.deferred <+: state.deferred
  inFlight : state.inFlight.length ≤ begun.inFlight.length

section Collecting

variable {begun : Batcher World P R F lanes} {job : FeaturizedEvalJob lanes R}

theorem Sound.beginBatch (sound : state.Sound context)
    (room : state.batch.length < context.collator.batchCapacity)
    (suits : state.Suits job.model)
    (passed : jobsOf job.model state.deferred = []) :
    (Batcher.beginBatch job state).Sound context where
  told := sound.told.receive (prefix_append _ _) rfl rfl rfl rfl rfl
  kept model := by
    change jobsOf model (state.received ++ [job]) = jobsOf model state.submittedJobs ++
        (jobsOf model (state.batch ++ [job]) ++ jobsOf model state.deferred)
    rw [jobsOf_append, jobsOf_append, sound.kept]
    by_cases own : job.model = model
    · rw [← own, passed]
      simp only [append_nil, append_assoc]
    · rw [jobsOf_singleton_of_ne own]
      simp only [append_nil]
  oneModel other member := by
    rcases mem_append.1 member with old | new
    · rw [suits _ (sound.oneModel other old)]
      rfl
    · rw [mem_singleton.1 new]
      rfl
  batchFits := by
    change (state.batch ++ [job]).length ≤ _
    rw [length_append]
    exact room
  deferredFits := sound.deferredFits
  flights := sound.flights
  clock := sound.clock
  unrefused := sound.unrefused

theorem Collecting.beginBatch (collecting : Collecting context begun state)
    (room : state.batch.length < context.collator.batchCapacity)
    (suits : state.Suits job.model) :
    Collecting context begun (Batcher.beginBatch job state) := by
  have passed := (collecting.passed _ suits).resolve_right (Nat.not_le.2 room)
  exact {
    sound := collecting.sound.beginBatch room suits passed
    unmodelled := fun empty =>
      absurd empty (append_ne_nil_of_right_ne_nil _ (by simp))
    passed := fun model suitsModel => by
      rw [← suitsModel job.model rfl]
      exact .inl passed
    submitted := collecting.submitted
    batch := collecting.batch.trans (prefix_append _ _)
    full := fun full => by
      rw [collecting.full full] at room
      omega
    deferred := collecting.deferred
    inFlight := collecting.inFlight }

omit [Scalar F] in
theorem push_eq_beginBatch (same : state.batchModel = some job.model) :
    push job state = Batcher.beginBatch job state := by
  unfold push Batcher.beginBatch
  rw [← same]

theorem Collecting.defer (collecting : Collecting context begun state)
    {model : ModelGeneration} (modelled : state.batchModel = some model)
    (different : job.model ≠ model)
    (room : state.deferred.length < context.collator.batchCapacity) :
    Collecting context begun (Batcher.defer job state) where
  sound := {
    told := collecting.sound.told.receive (prefix_append _ _) rfl rfl rfl rfl rfl
    kept := fun tested => by
      change jobsOf tested (state.received ++ [job]) =
        jobsOf tested state.submittedJobs ++ (jobsOf tested state.batch ++
          jobsOf tested (state.deferred ++ [job]))
      rw [jobsOf_append, jobsOf_append, collecting.sound.kept]
      simp only [append_assoc]
    oneModel := collecting.sound.oneModel
    batchFits := collecting.sound.batchFits
    deferredFits := by
      change (state.deferred ++ [job]).length ≤ _
      rw [length_append]
      exact room
    flights := collecting.sound.flights
    clock := collecting.sound.clock
    unrefused := collecting.sound.unrefused }
  unmodelled := collecting.unmodelled
  passed tested suits := by
    refine (collecting.passed tested suits).imp_left fun none => ?_
    change jobsOf tested (state.deferred ++ [job]) = []
    rw [jobsOf_append, none, jobsOf_singleton_of_ne]
    · rfl
    · rw [← suits model modelled]
      exact different
  submitted := collecting.submitted
  batch := collecting.batch
  full := collecting.full
  deferred := collecting.deferred.trans (prefix_append _ _)
  inFlight := collecting.inFlight

theorem Collecting.same {next} (collecting : Collecting context begun state)
    (same : state.SameVariables next) : Collecting context begun next := by
  have sound := collecting.sound.same same
  obtain ⟨world, rfl⟩ := same
  exact { collecting with sound }

theorem Collecting.closeIntake (collecting : Collecting context begun state) :
    Collecting context begun state.closeIntake :=
  { collecting with
    sound := { collecting.sound with
      told := { collecting.sound.told with } } }

theorem Collecting.drained {next} (collecting : Collecting context begun state)
    (drained : state.Drained context next) :
    Collecting context begun next where
  sound := drained.sound
  unmodelled := by
    rw [drained.jobs.batch, drained.jobs.batchModel]
    exact collecting.unmodelled
  passed model := by
    unfold Suits
    rw [drained.jobs.batch, drained.jobs.batchModel, drained.jobs.deferred]
    exact collecting.passed model
  submitted := drained.jobs.submitted.trans collecting.submitted
  batch := drained.jobs.batch ▸ collecting.batch
  full := drained.jobs.batch ▸ collecting.full
  deferred := drained.jobs.deferred ▸ collecting.deferred
  inFlight := by
    rw [drained.inFlight, length_tail]
    exact (Nat.sub_le _ _).trans collecting.inFlight

/-- How many turns of the collection there may be. -/
def turnsLeft (capacity : Nat) (state : Batcher World P R F lanes) : Nat :=
  (capacity - state.batch.length) + (capacity - state.deferred.length) + state.inFlight.length

omit [Scalar F] in
theorem turnsLeft_beginBatch {capacity} (room : state.batch.length < capacity) :
    (Batcher.beginBatch job state).turnsLeft capacity < state.turnsLeft capacity := by
  have longer : (Batcher.beginBatch job state).turnsLeft capacity =
      (capacity - (state.batch ++ [job]).length) +
        (capacity - state.deferred.length) + state.inFlight.length := rfl
  rw [longer, length_append, length_singleton, turnsLeft]
  omega

omit [Scalar F] in
theorem turnsLeft_defer {capacity} (room : state.deferred.length < capacity) :
    (Batcher.defer job state).turnsLeft capacity < state.turnsLeft capacity := by
  have longer : (Batcher.defer job state).turnsLeft capacity = (capacity - state.batch.length) +
        (capacity - (state.deferred ++ [job]).length) + state.inFlight.length := rfl
  rw [longer, length_append, length_singleton, turnsLeft]
  omega

/-- A turn that goes on leaves fewer turns. -/
def Continues (context : BatcherContext World P R F lanes)
    (begun state next : Batcher World P R F lanes) : Prop :=
  (Collecting context begun next ∧ next.deferred.length < context.collator.batchCapacity) ∧
      next.turnsLeft context.collator.batchCapacity < state.turnsLeft context.collator.batchCapacity

theorem endsAt_placeJob (collecting : Collecting context begun state)
    (room : state.batch.length < context.collator.batchCapacity)
    (waits : state.deferred.length < context.collator.batchCapacity)
    (job : FeaturizedEvalJob lanes R) :
    (placeJob context.collator.batchCapacity job).EndsAt
      (Effect.Rounds (fun _ => Continues context begun state) fun _ => Collecting context begun)
      (Stops context) state := by
  have joins (suits : state.Suits job.model) :
      Continues context begun state (Batcher.beginBatch job state) :=
    ⟨⟨collecting.beginBatch room suits, waits⟩, turnsLeft_beginBatch room⟩
  refine Effect.endsAt_get_bind ?_
  cases modelled : state.batchModel with
  | none => exact joins fun other same => by rw [modelled] at same; cases same
  | some model =>
    dsimp only
    split
    · rename_i same
      have suits : state.Suits job.model := fun other known => by
        rw [modelled] at known
        rw [← Option.some.inj known, same]
      have joined := joins suits
      rw [← push_eq_beginBatch (modelled.trans (congrArg some same.symm))] at joined
      exact joined
    · rename_i different
      have deferred := collecting.defer modelled different waits
      refine Effect.endsAt_set_bind ?_
      split
      · exact deferred
      · rename_i room
        exact ⟨⟨deferred, Nat.not_le.1 room⟩, turnsLeft_defer waits⟩

theorem endsAt_collectTurn (collecting : Collecting context begun state)
    (waits : state.deferred.length < context.collator.batchCapacity) :
    (collectTurn context).EndsAt (Effect.Rounds (fun _ => Continues context begun state)
        fun _ => Collecting context begun)
      (Stops context) state := by
  refine Effect.endsAt_get_bind ?_
  split
  · exact collecting
  rename_i short
  have room := Nat.not_le.1 short
  split
  · rename_i idle
    rw [Bool.and_eq_true, List.isEmpty_iff, List.isEmpty_iff] at idle
    refine endsAt_ask_bind fun answer world _ => ?_
    have same := collecting.same ⟨world, rfl⟩
    cases answer with
    | none => exact same.closeIntake
    | some job =>
      refine Effect.endsAt_modify_bind ⟨⟨same.beginBatch room ?_, waits⟩, turnsLeft_beginBatch room⟩
      intro other known
      have none : state.batchModel = none := collecting.unmodelled idle.1
      cases none.symm.trans known
  split
  · refine endsAt_ask_bind fun event world _ => ?_
    have same := collecting.same ⟨world, rfl⟩
    cases event with
    | job job => exact endsAt_placeJob same room waits job
    | disconnected => exact same.closeIntake
    | timeout =>
      dsimp only
      split
      · exact same
      rename_i busy
      refine Effect.EndsAt.bind (endsAt_drainOldest same.sound) ?_
      intro _ next drained
      refine ⟨⟨same.drained drained, ?_⟩, ?_⟩
      · rw [drained.jobs.deferred]
        exact waits
      have some : state.inFlight ≠ [] := fun none => busy (by rw [none]; rfl)
      have long := length_pos_iff.2 some
      unfold turnsLeft
      rw [drained.jobs.deferred, drained.jobs.batch, drained.inFlight, length_tail]
      dsimp only
      omega
  · exact collecting

theorem endsAt_collect (collecting : Collecting context state state)
    (waits : state.deferred.length < context.collator.batchCapacity)
    (room : state.inFlight.length < evalPipelineDepth) :
    (collect context).EndsAt (fun _ => Collecting context state) (Stops context) state := by
  refine Effect.endsAt_loop (fun _ next => Collecting context state next ∧
      next.deferred.length < context.collator.batchCapacity)
    (fun _ next => next.turnsLeft context.collator.batchCapacity)
    (fun _ _ inside => endsAt_collectTurn inside.1 inside.2)
    ⟨collecting, waits⟩ ?_
  unfold turnsLeft
  omega

end Collecting

/-! ## Gathering -/

structure Resting (context : BatcherContext World P R F lanes)
    (state : Batcher World P R F lanes) : Prop where
  sound : state.Sound context
  batch : state.batch = []
  room : state.inFlight.length < evalPipelineDepth

/-- The batch begins with what the waiting jobs gave, alone if it is full;
what they kept waits first. -/
def Serves (capacity : Nat) (batch deferred : List (FeaturizedEvalJob lanes R)) :
    (waiting : List (FeaturizedEvalJob lanes R)) → Prop
  | [] => True
  | first :: rest =>
    let sorted := sortDeferred capacity first.model rest [first] []
    sorted.1 <+: batch ∧ (sorted.1.length = capacity → batch = sorted.1) ∧
      (∀ job ∈ batch, job.model = first.model) ∧ sorted.2 <+: deferred

structure Gathered (context : BatcherContext World P R F lanes)
    (state next : Batcher World P R F lanes) : Prop where
  sound : next.Sound context
  submitted : next.submitted = state.submitted
  room : next.inFlight.length < evalPipelineDepth
  served : Serves context.collator.batchCapacity next.batch next.deferred state.deferred

theorem Resting.same {next} (resting : state.Resting context) (same : state.SameVariables next) :
    next.Resting context := by
  have sound := resting.sound.same same
  obtain ⟨world, rfl⟩ := same
  exact { resting with sound }

theorem Resting.prepare (resting : state.Resting context) : state.prepare.Sound context where
  told := { resting.sound.told with }
  kept model := by
    have kept := resting.sound.kept model
    rw [resting.batch] at kept
    exact kept
  oneModel := nofun
  batchFits := Nat.zero_le _
  deferredFits := resting.sound.deferredFits
  flights := resting.sound.flights
  clock := resting.sound.clock
  unrefused := resting.sound.unrefused

section TakeDeferred

variable {first : FeaturizedEvalJob lanes R} {rest : List (FeaturizedEvalJob lanes R)}

omit [Scalar F] in
theorem takeDeferred_nil {capacity} (none : state.deferred = []) :
    state.takeDeferred capacity = state := by
  unfold takeDeferred
  rw [none]

omit [Scalar F] in
theorem takeDeferred_cons {capacity} (some : state.deferred = first :: rest) :
    state.takeDeferred capacity = let sorted := sortDeferred capacity first.model rest [first] []
      { state with
        batchModel := Option.some first.model
        batch := sorted.1
        deferred := sorted.2 } := by
  unfold takeDeferred
  rw [some]

theorem Resting.takeDeferred (resting : state.Resting context) {begun}
    (taken : state.prepare.takeDeferred context.collator.batchCapacity = begun) :
    Collecting context begun begun ∧ begun.deferred.length < context.collator.batchCapacity := by
  have sound := resting.prepare
  cases waiting : state.deferred with
  | nil =>
    have waiting : state.prepare.deferred = [] := waiting
    rw [takeDeferred_nil waiting] at taken
    subst taken
    refine ⟨⟨sound, fun _ => rfl, fun model _ => .inl ?_, rfl,
      prefix_rfl, fun _ => rfl, prefix_rfl, Nat.le_refl _⟩, ?_⟩
    · rw [waiting]
      rfl
    · rw [waiting]
      exact context.collator.capacity_pos
  | cons first rest =>
    have waiting : state.prepare.deferred = first :: rest := waiting
    rw [takeDeferred_cons waiting] at taken
    have sorted := sorted_sortDeferred context.collator.capacity_pos first rest
    have fits := sound.deferredFits
    rw [waiting, length_cons] at fits
    subst taken
    exact ⟨{
      sound := {
        told := { sound.told with }
        kept := fun model => by
          have kept := sound.kept model
          rw [waiting, ← sorted.inOrder] at kept
          exact kept
        oneModel := fun job member =>
          congrArg some (sorted.oneModel job member).symm
        batchFits := sorted.fits
        deferredFits := sorted.short.trans (Nat.le_of_succ_le fits)
        flights := sound.flights
        clock := sound.clock
        unrefused := sound.unrefused }
      unmodelled := fun empty => absurd empty sorted.ne_nil
      passed := fun model suits => by
        rw [← suits first.model rfl]
        exact sorted.passed
      submitted := rfl
      batch := prefix_rfl
      full := fun _ => rfl
      deferred := prefix_rfl
      inFlight := Nat.le_refl _ }, sorted.short.trans_lt fits⟩

theorem Collecting.serves {begun}
    (taken : state.prepare.takeDeferred context.collator.batchCapacity = begun) {next}
    (collecting : Collecting context begun next) :
    Serves context.collator.batchCapacity next.batch next.deferred state.deferred := by
  cases waiting : state.deferred with
  | nil => trivial
  | cons first rest =>
    have waiting : state.prepare.deferred = first :: rest := waiting
    rw [takeDeferred_cons waiting] at taken
    have sorted := sorted_sortDeferred context.collator.capacity_pos first rest
    subst taken
    refine ⟨collecting.batch, collecting.full, fun job member => ?_, collecting.deferred⟩
    have head : first ∈ next.batch :=
      (sorted.begins.trans collecting.batch).subset (mem_cons_self)
    have same := (collecting.sound.oneModel job member).symm.trans
      (collecting.sound.oneModel first head)
    exact Option.some.inj same

end TakeDeferred

theorem endsAt_gather (resting : state.Resting context) :
    (gather context).EndsAt (fun _ => state.Gathered context) (Stops context) state := by
  refine Effect.endsAt_modify_bind (Effect.endsAt_get_bind ?_)
  split
  · rename_i collects
    obtain ⟨collecting, waits⟩ := resting.takeDeferred rfl
    refine Effect.endsAt_set_bind ?_
    have same : (state.prepare.takeDeferred
        context.collator.batchCapacity).inFlight = state.inFlight ∧ (state.prepare.takeDeferred
            context.collator.batchCapacity).submitted = state.submitted := by
      unfold takeDeferred
      split
      · exact ⟨rfl, rfl⟩
      · exact ⟨rfl, rfl⟩
    refine (endsAt_collect collecting waits (same.1 ▸ resting.room)).mono
      (fun _ next collected => ?_) (fun _ _ stops => stops)
    exact {
      sound := collected.sound
      submitted := collected.submitted.trans same.2
      room := collected.inFlight.trans_lt (same.1 ▸ resting.room)
      served := collected.serves rfl }
  · rename_i unable
    have none : state.deferred = [] := by
      by_contra some
      refine unable (Bool.and_eq_true_iff.2 ⟨decide_eq_true resting.room, ?_⟩)
      have waits : (!state.deferred.isEmpty) = true := by simpa using some
      exact Bool.or_eq_true_iff.2 (.inr waits)
    exact {
      sound := resting.prepare
      submitted := rfl
      room := resting.room
      served := by
        rw [none]
        trivial }

/-! ## Submitting -/

structure Submitted (context : BatcherContext World P R F lanes)
    (state : Batcher World P R F lanes) (submitted : Bool)
    (next : Batcher World P R F lanes) : Prop where
  sound : next.Sound context
  batch : next.batch = []
  submittedJobs : next.submittedJobs = state.submittedJobs ++ state.batch
  deferred : next.deferred = state.deferred
  flies : next.inFlight.length = state.inFlight.length + if submitted then 1 else 0

section

variable (sound : state.Sound context)
include sound

theorem Sound.fits {model} (nonempty : state.batch ≠ []) (modelled : state.batchModel = some model)
    {bytes} (collated : context.collator.collateInto (state.batch.map (·.row)) = some bytes) :
    Submission.Fits context (submission model bytes state.batch) where
  nonempty
  fits := sound.batchFits
  oneModel job member :=
    Option.some.inj ((sound.oneModel job member).symm.trans modelled)
  bytes := collated
  actionCounts := rfl
  issued := nofun

theorem Sound.call {call} (fits : call.Fits context) (jobs : call.jobs = state.batch)
    {next : Batcher World P R F lanes} (submitted : next.submitted = state.submitted ++ [call])
    (received : next.received = state.received) (accepted : next.accepted = state.accepted)
    (sizes : next.batchSizes = state.batchSizes) (replies : next.replies = state.replies) :
    next.Told context := by
  have pairs : next.answered = state.answered := by
    unfold answered
    rw [submitted, accepted, zip_append_of_length_le _ sound.told.count]
  have more : next.submitted.length = state.submitted.length + 1 := by
    rw [submitted]
    exact length_append
  have count := sound.told.count
  exact {
    inOrder := fun model => by
      unfold submittedJobs
      rw [received, submitted, flatMap_append, flatMap_singleton,
        jobsOf_append, jobs, sound.kept, ← append_assoc]
      exact prefix_append _ _
    calls := fun other member => by
      rw [submitted] at member
      rcases mem_append.1 member with old | new
      · exact sound.told.calls other old
      · exact mem_singleton.1 new ▸ fits
    count := by
      rw [accepted, more]
      omega
    answers := pairs ▸ sound.told.answers
    sizes := by
      rw [sizes, pairs]
      exact sound.told.sizes
    replies := by
      rw [replies, pairs]
      exact sound.told.replies
    unanswered := fun _ => by
      rw [accepted, more]
      omega }

theorem Sound.submitted {call} (fits : call.Fits context) (jobs : call.jobs = state.batch)
    {pending : P} (handle : call.pending = some pending) {capacityAccounted}
    (clock : context.evalPressure = true → capacityAccounted = true) (world : World) :
    state.Submitted context true
      { state with
        world
        capacityAccounted
        batch := []
        submitted := state.submitted ++ [call]
        inFlight := state.inFlight ++ [⟨call.jobs.map (·.route), pending, call.model⟩] } where
  sound := {
    told := sound.call fits jobs rfl rfl rfl rfl rfl
    kept := fun model => by
      unfold submittedJobs
      rw [flatMap_append, flatMap_singleton, jobsOf_append, jobs,
        jobsOf_nil, nil_append, append_assoc]
      exact sound.kept model
    oneModel := nofun
    batchFits := Nat.zero_le _
    deferredFits := sound.deferredFits
    flights := by
      rw [map_append, drop_append_of_le_length sound.told.count, map_append, sound.flights,
        map_singleton, map_singleton, handle]
      rfl
    clock := fun counts _ => clock counts
    unrefused := sound.unrefused }
  batch := rfl
  submittedJobs := by
    unfold submittedJobs
    rw [flatMap_append, flatMap_singleton, jobs]
  deferred := rfl
  flies := length_append

theorem Sound.submit {call} (fits : call.Fits context) (jobs : call.jobs = state.batch)
    {capacityAccounted : Bool} (clock : context.evalPressure = true → capacityAccounted = true)
    (world : World) :
    (Batcher.submit context call).EndsAt (fun _ => state.Submitted context true) (Stops context)
      { state with world, capacityAccounted, batch := [] } := by
  refine endsAt_ask_bind fun pending last given => ?_
  have fits : Submission.Fits context { call with pending } :=
    { fits with issued := fun handle same => ⟨world, (congrArg Prod.fst given).trans same⟩ }
  refine Effect.endsAt_get_bind ?_
  cases pending with
  | none =>
    refine Effect.endsAt_set_bind ?_
    exact {
      told := sound.call fits jobs rfl rfl rfl rfl rfl
      outside := .backend
      refusal := fun _ => rfl }
  | some pending => exact sound.submitted fits jobs rfl clock last

theorem endsAt_submitBatch :
    (submitBatch context).EndsAt (state.Submitted context) (Stops context) state := by
  refine Effect.endsAt_get_bind ?_
  split
  · rename_i empty
    rw [List.isEmpty_iff] at empty
    exact {
      sound
      batch := empty
      submittedJobs := by rw [empty, append_nil]
      deferred := rfl
      flies := rfl }
  rename_i nonempty
  rw [List.isEmpty_iff] at nonempty
  split
  · rename_i unmodelled
    obtain ⟨job, member⟩ := exists_mem_of_ne_nil _ nonempty
    cases unmodelled.symm.trans (sound.oneModel job member)
  rename_i model modelled
  refine Effect.endsAt_set_bind ?_
  have oneModel : state.batch.any (·.model ≠ model) = false := by
    refine any_eq_false.2 fun other present => ?_
    have same := modelled.symm.trans (sound.oneModel other present)
    simpa using (Option.some.inj same).symm
  simp only [oneModel, Bool.false_eq_true, if_false]
  have told : Told context { state with batch := [] } := { sound.told with }
  cases collated : context.collator.collateInto (state.batch.map (·.row)) with
  | none => exact sound.stops told rfl .collation
  | some bytes =>
    refine Effect.endsAt_modify_bind ?_
    have clock : context.evalPressure = true →
        (state.inFlight.isEmpty || state.capacityAccounted) = true := by
      intro counts
      by_cases idle : state.inFlight = []
      · rw [idle]
        rfl
      · rw [sound.clock counts idle, Bool.or_true]
    refine Effect.EndsAt.bind ((endsAt_releaseReleasableModels context).mono
        (fun _ _ same => same) ?_) ?_
    · rintro _ next ⟨rfl, world, rfl⟩
      exact sound.stops { sound.told with } rfl .backend
    · rintro _ next ⟨world, rfl⟩
      refine Effect.EndsAt.bind (sound.submit
        (sound.fits nonempty modelled collated) rfl clock world) ?_
      exact fun _ _ submitted => submitted

end

end GraphZero.Orchestrator.Batcher
