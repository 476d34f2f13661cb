import GraphZero.Orchestrator.Batcher

/-!
# What the batcher keeps

`Told` is what can be said of the submissions and the replies at any time,
`Sound` ties them to the variables of a batcher that goes on.
-/

namespace GraphZero.Orchestrator

open Engine Foundation Search List

variable {World P R F : Type} {lanes : Nat}

def jobsOf (model : ModelGeneration) (jobs : List (FeaturizedEvalJob lanes R)) :
    List (FeaturizedEvalJob lanes R) :=
  jobs.filter (·.model = model)

section JobsOf

variable {model : ModelGeneration} {jobs more : List (FeaturizedEvalJob lanes R)}

@[simp]
theorem jobsOf_nil : jobsOf model ([] : List (FeaturizedEvalJob lanes R)) = [] :=
  rfl

@[simp]
theorem jobsOf_append : jobsOf model (jobs ++ more) = jobsOf model jobs ++ jobsOf model more :=
  filter_append _ _

theorem jobsOf_eq_nil {other} (all : ∀ job ∈ jobs, job.model = other) (different : other ≠ model) :
    jobsOf model jobs = [] := by
  refine filter_eq_nil_iff.2 fun job member same => different ?_
  rw [← all job member]
  exact of_decide_eq_true same

theorem jobsOf_singleton_of_ne {job : FeaturizedEvalJob lanes R}
    (different : job.model ≠ model) : jobsOf model [job] = [] :=
  jobsOf_eq_nil (fun _ member => congrArg _ (mem_singleton.1 member)) different

theorem isPrefix_jobsOf (leads : jobs <+: more) : jobsOf model jobs <+: jobsOf model more :=
  leads.filter _

end JobsOf

namespace Batcher

/-! ## The deferred jobs -/

section Sorting

variable {capacity : Nat} {model : ModelGeneration}
  {rest batch kept : List (FeaturizedEvalJob lanes R)}

theorem isPrefix_sortDeferred : batch <+: (sortDeferred capacity model rest batch kept).1 ∧
      kept <+: (sortDeferred capacity model rest batch kept).2 := by
  induction rest generalizing batch kept with
  | nil => exact ⟨prefix_rfl, prefix_rfl⟩
  | cons job rest ih =>
    rw [sortDeferred]
    split
    · have later := @ih (batch ++ [job]) kept
      exact ⟨(prefix_append _ _).trans later.1, later.2⟩
    · have later := @ih batch (kept ++ [job])
      exact ⟨later.1, (prefix_append _ _).trans later.2⟩

theorem length_sortDeferred_le (fits : batch.length ≤ capacity) :
    (sortDeferred capacity model rest batch kept).1.length ≤ capacity := by
  induction rest generalizing batch kept with
  | nil => exact fits
  | cons job rest ih =>
    rw [sortDeferred]
    split
    · rename_i joins
      refine ih ?_
      rw [length_append]
      exact joins.1
    · exact ih fits

theorem length_kept_sortDeferred_le : (sortDeferred capacity model rest batch kept).2.length ≤
      kept.length + rest.length := by
  induction rest generalizing batch kept with
  | nil => exact Nat.le_refl _
  | cons job rest ih =>
    rw [sortDeferred]
    split
    · refine ih.trans ?_
      rw [length_cons]
      omega
    · refine ih.trans ?_
      rw [length_append, length_singleton, length_cons]
      omega

theorem sortDeferred_oneModel (all : ∀ job ∈ batch, job.model = model) :
    ∀ job ∈ (sortDeferred capacity model rest batch kept).1, job.model = model := by
  induction rest generalizing batch kept with
  | nil => exact all
  | cons job rest ih =>
    rw [sortDeferred]
    split
    · rename_i joins
      refine ih fun other member => ?_
      rcases mem_append.1 member with old | new
      · exact all other old
      · rw [mem_singleton.1 new]
        exact joins.2
    · exact ih all

/-- A job of the model that was passed over had no room. -/
def Passed (capacity : Nat) (model : ModelGeneration)
    (batch kept : List (FeaturizedEvalJob lanes R)) : Prop :=
  jobsOf model kept = [] ∨ capacity ≤ batch.length

theorem passed_sortDeferred (passed : Passed capacity model batch kept) : Passed capacity model
      (sortDeferred capacity model rest batch kept).1
      (sortDeferred capacity model rest batch kept).2 := by
  induction rest generalizing batch kept with
  | nil => exact passed
  | cons job rest ih =>
    rw [sortDeferred]
    split
    · rename_i joins
      refine ih (passed.imp_right fun full => ?_)
      exact absurd joins.1 (Nat.not_lt.2 full)
    · rename_i stays
      refine ih ?_
      by_cases same : job.model = model
      · right
        exact Nat.not_lt.1 fun room => stays ⟨room, same⟩
      · refine passed.imp_left fun none => ?_
        rw [jobsOf_append, none, jobsOf_singleton_of_ne same]
        rfl

theorem jobsOf_sortDeferred (all : ∀ job ∈ batch, job.model = model)
    (passed : Passed capacity model batch kept) (tested : ModelGeneration) :
    jobsOf tested (sortDeferred capacity model rest batch kept).1 ++
        jobsOf tested (sortDeferred capacity model rest batch kept).2 =
      jobsOf tested batch ++ jobsOf tested kept ++ jobsOf tested rest := by
  induction rest generalizing batch kept with
  | nil => exact (append_nil _).symm
  | cons job rest ih =>
    have head : jobsOf tested (job :: rest) = jobsOf tested [job] ++ jobsOf tested rest :=
      filter_append [job] rest
    rw [sortDeferred, head]
    split
    · rename_i joins
      have none : jobsOf model kept = [] := passed.resolve_right (Nat.not_le.2 joins.1)
      rw [ih _ (.inl none), jobsOf_append]
      · by_cases same : job.model = tested
        · rw [← same, joins.2, none]
          simp only [append_nil, append_assoc]
        · rw [jobsOf_singleton_of_ne same]
          simp only [append_nil, nil_append]
      · intro other member
        rcases mem_append.1 member with old | new
        · exact all other old
        · rw [mem_singleton.1 new]
          exact joins.2
    · rename_i stays
      have later : Passed capacity model batch (kept ++ [job]) := by
        by_cases same : job.model = model
        · exact .inr (Nat.not_lt.1 fun room => stays ⟨room, same⟩)
        · refine passed.imp_left fun none => ?_
          rw [jobsOf_append, none, jobsOf_singleton_of_ne same]
          rfl
      rw [ih all later, jobsOf_append]
      simp only [append_assoc]

theorem sortDeferred_append {more} :
    sortDeferred capacity model (rest ++ more) batch kept = sortDeferred capacity model more
        (sortDeferred capacity model rest batch kept).1
        (sortDeferred capacity model rest batch kept).2 := by
  induction rest generalizing batch kept with
  | nil => rfl
  | cons job rest ih =>
    rw [cons_append, sortDeferred, sortDeferred]
    split
    · exact ih
    · exact ih

/-- What the first of the waiting jobs and the others of its model give to a
batch, and what is kept of the others. -/
structure Sorted (capacity : Nat) (first : FeaturizedEvalJob lanes R)
    (rest batch kept : List (FeaturizedEvalJob lanes R)) : Prop where
  begins : [first] <+: batch
  fits : batch.length ≤ capacity
  short : kept.length ≤ rest.length
  oneModel : ∀ job ∈ batch, job.model = first.model
  passed : Passed capacity first.model batch kept
  inOrder : ∀ tested, jobsOf tested batch ++ jobsOf tested kept = jobsOf tested (first :: rest)

theorem Sorted.ne_nil {first} (sorted : Sorted capacity first rest batch kept) : batch ≠ [] := by
  intro empty
  have begins := sorted.begins
  rw [empty] at begins
  exact cons_ne_nil _ _ (prefix_nil.1 begins)

theorem sorted_sortDeferred (room : 0 < capacity) (first : FeaturizedEvalJob lanes R)
    (rest : List (FeaturizedEvalJob lanes R)) :
    Sorted capacity first rest (sortDeferred capacity first.model rest [first] []).1
      (sortDeferred capacity first.model rest [first] []).2 := by
  have all : ∀ job ∈ [first], job.model = first.model :=
    fun _ member => congrArg _ (mem_singleton.1 member)
  have passed : Passed capacity first.model [first] [] := .inl rfl
  exact {
    begins := isPrefix_sortDeferred.1
    fits := length_sortDeferred_le room
    short := length_kept_sortDeferred_le.trans (Nat.zero_add _).le
    oneModel := sortDeferred_oneModel all
    passed := passed_sortDeferred passed
    inOrder := fun tested => by
      rw [jobsOf_sortDeferred all passed, jobsOf_nil, append_nil,
        ← jobsOf_append, singleton_append] }

end Sorting

section Calls

variable {α β : Type} {succeeds : β → Batcher World P R F lanes → Prop}
  {fails : BatcherFailure → Batcher World P R F lanes → Prop} {state : Batcher World P R F lanes}

theorem endsAt_ask_bind {call} {rest : α → BatcherEffect World P R F lanes β}
    (tail : ∀ value world, call state.world = (value, world) →
      (rest value).EndsAt succeeds fails { state with world }) :
    (ask call >>= rest).EndsAt succeeds fails state :=
  tail _ _ rfl

theorem endsAt_lift_bind {result} {rest : α → BatcherEffect World P R F lanes β}
    (good : ∀ value, result = .ok value → (rest value).EndsAt succeeds fails state)
    (bad : ∀ error, result = .error error → fails (.engine error) state) :
    (lift result >>= rest).EndsAt succeeds fails state := by
  cases result with
  | ok value => exact good value rfl
  | error error => exact bad error rfl

def SameVariables (state next : Batcher World P R F lanes) : Prop :=
  ∃ world, next = { state with world }

theorem endsAt_releaseReleasableModels (context : BatcherContext World P R F lanes) :
    (releaseReleasableModels context).EndsAt (fun _ => state.SameVariables) (fun failure next =>
        failure = .internal "feature eval backend failed" ∧ state.SameVariables next)
      state := by
  refine endsAt_ask_bind fun models world _ => ?_
  refine Effect.EndsAt.bind (Effect.endsAt_mapM ?_ models (⟨world, rfl⟩ : state.SameVariables _))
    fun _ _ same => same
  rintro model _ ⟨other, rfl⟩
  refine endsAt_ask_bind fun answer last _ => ?_
  cases answer with
  | some _ => exact ⟨last, rfl⟩
  | none => exact ⟨rfl, last, rfl⟩

end Calls

end Batcher

/-- The backend is called with the rows of some jobs of one model, and a handle
is what it gave for them. -/
structure Submission.Fits (context : BatcherContext World P R F lanes)
    (call : Submission lanes P R) : Prop where
  nonempty : call.jobs ≠ []
  fits : call.jobs.length ≤ context.collator.batchCapacity
  oneModel : ∀ job ∈ call.jobs, job.model = call.model
  bytes : context.collator.collateInto (call.jobs.map (·.row)) = some call.bytes
  actionCounts : call.actionCounts = call.jobs.map (·.actionCount)
  issued : ∀ pending, call.pending = some pending → ∃ world : World,
    (context.submitForModel call.model call.bytes call.actionCounts world).1 = some pending

def Submission.routing (call : Submission lanes P R) : BatcherRouting lanes :=
  call.jobs.map (·.route)

section Answers

variable [Scalar F]

def RowOutput.Fits (row : RowOutput F) (actionCount : UInt32) : Prop :=
  row.policyLogits.length = actionCount.toNat ∧ Scalar.isFinite row.value = true ∧
      ∀ logit ∈ row.policyLogits, Scalar.isFinite logit = true

/-- The outputs are what the handle of the call was received for, and have a
good row for each of its jobs. -/
structure BackendOutputs.Answers (context : BatcherContext World P R F lanes)
    (outputs : BackendOutputs F) (call : Submission lanes P R) : Prop where
  received : ∃ pending world, call.pending = some pending ∧
    (context.receive pending world).1 = some outputs
  version : outputs.modelVersion = call.model.version
  rows : List.Forall₂ RowOutput.Fits outputs.rows (call.jobs.map (·.actionCount))

end Answers

namespace Batcher

/-- The submissions with the outputs that came for them. -/
def answered (state : Batcher World P R F lanes) : List (Submission lanes P R × BackendOutputs F) :=
  state.submitted.zip state.accepted

variable [Scalar F] {context : BatcherContext World P R F lanes}

/-- What holds of the submissions and the replies at any time. -/
structure Told (context : BatcherContext World P R F lanes)
    (state : Batcher World P R F lanes) : Prop where
  /-- The jobs of a model are submitted as they came. -/
  inOrder : ∀ model,
    jobsOf model state.submittedJobs <+: jobsOf model state.received
  calls : ∀ call ∈ state.submitted, call.Fits context
  count : state.accepted.length ≤ state.submitted.length
  answers : ∀ pair ∈ state.answered, pair.2.Answers context pair.1
  sizes : state.batchSizes = state.answered.map (·.1.jobs.length)
  /-- The rows go back where the jobs came from, and nothing else does. -/
  replies : state.replies = state.answered.flatMap fun pair => rowReplies pair.1.routing pair.2
  /-- A refused batch gets no answer. -/
  unanswered : state.refused = true → state.accepted.length < state.submitted.length

/-- A batcher that goes on: what it told, and what it still has. -/
structure Sound (context : BatcherContext World P R F lanes)
    (state : Batcher World P R F lanes) : Prop where
  told : state.Told context
  kept : ∀ model, jobsOf model state.received = jobsOf model state.submittedJobs ++
      (jobsOf model state.batch ++ jobsOf model state.deferred)
  oneModel : ∀ job ∈ state.batch, state.batchModel = some job.model
  batchFits : state.batch.length ≤ context.collator.batchCapacity
  deferredFits : state.deferred.length ≤ context.collator.batchCapacity
  /-- The batches in flight are the submissions without outputs. -/
  flights : (state.inFlight.map fun batch => (batch.routing, some batch.pending, batch.model)) =
    (state.submitted.drop state.accepted.length).map fun call =>
      (call.routing, call.pending, call.model)
  clock : context.evalPressure = true → state.inFlight ≠ [] → state.capacityAccounted = true
  unrefused : state.refused = false

/-- The errors of what the batcher works with. -/
inductive Outside (context : BatcherContext World P R F lanes) : BatcherFailure → Prop where
  | backend : Outside context (.internal "feature eval backend failed")
  | collation : Outside context (.internal "feature collation failed")
  | version :
    Outside context (.internal "evaluator served the wrong model version")
  | outputs {outputs : BackendOutputs F} {actionCounts error}
    (bad : validateBackendOutputs outputs actionCounts = .error error) :
    Outside context (.engine error)
  | publish {model world error} (bad : (context.publish model world).1 = .error error) :
    Outside context (.engine error)

/-- How the batcher stops with an error. -/
structure Stops (context : BatcherContext World P R F lanes)
    (failure : BatcherFailure) (state : Batcher World P R F lanes) :
    Prop where
  told : state.Told context
  outside : Outside context failure
  refusal : state.refused = true → failure = .internal "feature eval backend failed"

section Frames

variable {state : Batcher World P R F lanes}

variable {next : Batcher World P R F lanes}

theorem Told.same (told : state.Told context) (same : state.SameVariables next) :
    next.Told context := by
  obtain ⟨world, rfl⟩ := same
  exact { told with }

theorem Sound.same (sound : state.Sound context) (same : state.SameVariables next) :
    next.Sound context := by
  have told := sound.told.same same
  obtain ⟨world, rfl⟩ := same
  exact { sound with told }

theorem Sound.stops {failure} (sound : state.Sound context) (told : next.Told context)
    (same : next.refused = state.refused) (outside : Outside context failure) :
    Stops context failure next where
  told
  outside
  refusal refused := by
    rw [same, sound.unrefused] at refused
    cases refused

end Frames

/-! ## Draining -/

theorem forall₂_of_validateRows {rows : List (RowOutput F)} {actionCounts}
    (same : rows.length = actionCounts.length) (valid : validateRows rows actionCounts = .ok ()) :
    List.Forall₂ RowOutput.Fits rows actionCounts := by
  induction rows generalizing actionCounts with
  | nil =>
    rw [length_eq_zero_iff.1 same.symm]
    exact .nil
  | cons row rows ih =>
    cases actionCounts with
    | nil => cases same
    | cons actionCount actionCounts =>
      unfold validateRows at valid
      by_cases long : row.policyLogits.length = actionCount.toNat
      · rw [if_neg (not_not_intro long)] at valid
        by_cases bad : Scalar.isFinite row.value = false ∨
            row.policyLogits.any (Scalar.isFinite · = false)
        · rw [if_pos bad] at valid
          cases valid
        · rw [if_neg bad] at valid
          rw [not_or, Bool.not_eq_false, any_eq_true] at bad
          refine .cons ⟨long, bad.1, fun logit member => ?_⟩ (ih (Nat.succ.inj same) valid)
          refine Bool.not_eq_false _ ▸ fun infinite => ?_
          exact bad.2 ⟨logit, member, decide_eq_true infinite⟩
      · rw [if_pos long] at valid
        cases valid

theorem answers_of_validateBackendOutputs {outputs : BackendOutputs F} {call}
    (received : ∃ pending world, call.pending = some pending ∧
      (context.receive pending world).1 = some outputs)
    (version : outputs.modelVersion = call.model.version)
    (valid : validateBackendOutputs outputs
      (call.jobs.map (·.actionCount)) = .ok ()) : outputs.Answers context call := by
  unfold validateBackendOutputs at valid
  by_cases same : outputs.rows.length = (call.jobs.map (·.actionCount)).length
  · rw [if_neg (not_not_intro same)] at valid
    exact ⟨received, version, forall₂_of_validateRows same valid⟩
  · rw [if_pos same] at valid
    cases valid

theorem zip_append_singleton {α β : Type} {calls rest : List α} {call outputs} (output : β)
    (next : calls.drop outputs.length = call :: rest) :
    calls.zip (outputs ++ [output]) = calls.zip outputs ++ [(call, output)] := by
  induction outputs generalizing calls with
  | nil =>
    rw [length_nil, drop_zero] at next
    rw [next]
    simp
  | cons first outputs ih =>
    cases calls with
    | nil => simp at next
    | cons head calls => exact congrArg ((head, first) :: ·) (ih next)

theorem zip_append_of_length_le {α β : Type} {calls} {outputs : List β} (more : List α)
    (count : outputs.length ≤ calls.length) :
    (calls ++ more).zip outputs = calls.zip outputs := by
  induction outputs generalizing calls with
  | nil => rw [zip_nil_right, zip_nil_right]
  | cons first outputs ih =>
    cases calls with
    | nil => exact absurd count (Nat.not_succ_le_zero _)
    | cons head calls => exact congrArg ((head, first) :: ·) (ih (Nat.le_of_succ_le_succ count))

section Draining

variable {state : Batcher World P R F lanes}

/-- The jobs and the calls are as they were. -/
structure SameJobs (state next : Batcher World P R F lanes) : Prop where
  batch : next.batch = state.batch
  batchModel : next.batchModel = state.batchModel
  deferred : next.deferred = state.deferred
  received : next.received = state.received
  submitted : next.submitted = state.submitted
  intakeOpen : next.intakeOpen = state.intakeOpen

omit [Scalar F] in
theorem SameJobs.submittedJobs {next} (same : state.SameJobs next) :
    next.submittedJobs = state.submittedJobs := by
  unfold Batcher.submittedJobs
  rw [same.submitted]

theorem Sound.oldest (sound : state.Sound context) {oldest rest}
    (flying : state.inFlight = oldest :: rest) :
    ∃ call calls, state.submitted.drop state.accepted.length = call :: calls ∧
      oldest.routing = call.routing ∧ call.pending = some oldest.pending ∧
      oldest.model = call.model ∧
      (rest.map fun batch => (batch.routing, some batch.pending, batch.model)) =
        calls.map fun call => (call.routing, call.pending, call.model) := by
  have flights := sound.flights
  rw [flying, map_cons] at flights
  obtain ⟨call, calls, split, same, others⟩ := map_eq_cons_iff.1 flights.symm
  obtain ⟨routing, same⟩ := Prod.mk.inj same
  obtain ⟨pending, model⟩ := Prod.mk.inj same
  exact ⟨call, calls, split, routing.symm, pending, model.symm, others.symm⟩

theorem Sound.reply (sound : state.Sound context) {oldest : InFlightBatch lanes P} {rest}
    (flying : state.inFlight = oldest :: rest) {outputs asked}
    (received : (context.receive oldest.pending asked).1 = some outputs)
    (version : outputs.modelVersion = oldest.model.version)
    (valid : validateBackendOutputs outputs (oldest.routing.map (·.actionCount)) = .ok ())
    (capacityAccounted : Bool)
    (clock : context.evalPressure = true → rest ≠ [] → capacityAccounted = true) (world : World) :
    Sound context
      { Batcher.reply oldest.routing outputs state with
        world, capacityAccounted, inFlight := rest } := by
  obtain ⟨call, calls, next, routing, pending, model, flights⟩ := sound.oldest flying
  have answers : outputs.Answers context call := by
    refine answers_of_validateBackendOutputs ⟨_, asked, pending, received⟩ (model ▸ version) ?_
    rw [routing, Submission.routing, map_map] at valid
    exact valid
  have pairs := zip_append_singleton outputs next
  have size : oldest.routing.length = call.jobs.length := by
    rw [routing, Submission.routing, length_map]
  have more : state.accepted.length < state.submitted.length := by
    have long := congrArg List.length next
    rw [length_drop, length_cons] at long
    omega
  exact {
    told := {
      inOrder := sound.told.inOrder
      calls := sound.told.calls
      count := by
        change (state.accepted ++ [outputs]).length ≤ _
        rw [length_append]
        exact more
      answers := by
        change ∀ pair ∈ state.submitted.zip (state.accepted ++ [outputs]), _
        rw [pairs]
        intro pair member
        rcases mem_append.1 member with old | new
        · exact sound.told.answers pair old
        · rw [mem_singleton.1 new]
          exact answers
      sizes := by
        change state.batchSizes ++ [oldest.routing.length] =
          (state.submitted.zip (state.accepted ++ [outputs])).map _
        rw [pairs, map_append, size, sound.told.sizes]
        rfl
      replies := by
        change state.replies ++ rowReplies oldest.routing outputs =
          (state.submitted.zip (state.accepted ++ [outputs])).flatMap _
        rw [pairs, flatMap_append, routing, sound.told.replies, flatMap_singleton]
        rfl
      unanswered := fun refused =>
        absurd (sound.unrefused.symm.trans refused) Bool.false_ne_true }
    kept := sound.kept
    oneModel := sound.oneModel
    batchFits := sound.batchFits
    deferredFits := sound.deferredFits
    flights := by
      change (rest.map _) = (state.submitted.drop (state.accepted ++ [outputs]).length).map _
      rw [flights, length_append, length_singleton, ← drop_drop, next]
      rfl
    clock
    unrefused := sound.unrefused }

/-- What is left when the oldest batch has been drained. -/
structure Drained (context : BatcherContext World P R F lanes)
    (state next : Batcher World P R F lanes) : Prop where
  sound : next.Sound context
  jobs : state.SameJobs next
  inFlight : next.inFlight = state.inFlight.tail

theorem Drained.same {next last} (drained : state.Drained context next)
    (same : next.SameVariables last) : state.Drained context last := by
  have sound := drained.sound.same same
  obtain ⟨world, rfl⟩ := same
  exact { drained with sound, jobs := { drained.jobs with } }

theorem Drained.release {next} (drained : state.Drained context next) :
    (releaseReleasableModels context).EndsAt
      (fun _ => state.Drained context) (Stops context) next := by
  refine (endsAt_releaseReleasableModels context).mono (fun _ last same => drained.same same) ?_
  rintro _ last ⟨rfl, same⟩
  have told := drained.sound.told.same same
  obtain ⟨world, rfl⟩ := same
  exact drained.sound.stops told rfl .backend

theorem endsAt_drainOldest (sound : state.Sound context) :
    (drainOldest context).EndsAt (fun _ => state.Drained context) (Stops context) state := by
  refine Effect.endsAt_get_bind ?_
  cases flying : state.inFlight with
  | nil =>
    refine Effect.endsAt_pure ⟨sound, ⟨rfl, rfl, rfl, rfl, rfl, rfl⟩, ?_⟩
    rw [flying]
    rfl
  | cons oldest inFlight =>
    have stops : ∀ failure world, Outside context failure →
        Stops context failure { state with world, inFlight } :=
      fun _ _ => sound.stops { sound.told with } rfl
    refine Effect.endsAt_set_bind ?_
    refine endsAt_ask_bind fun answer world received => ?_
    cases answer with
    | none => exact Effect.endsAt_throw (stops _ world .backend)
    | some outputs =>
      by_cases version : outputs.modelVersion = oldest.model.version
      · simp only [ne_eq, version, not_true_eq_false, if_false]
        refine endsAt_lift_bind (fun _ valid => ?_) (fun error bad => stops _ world (.outputs bad))
        refine endsAt_ask_bind fun answer last published => ?_
        refine endsAt_lift_bind (fun _ _ => ?_) (fun error bad => ?_)
        · have drained world capacityAccounted
              (clock : context.evalPressure = true → inFlight ≠ [] → capacityAccounted = true) :
              state.Drained context
                { Batcher.reply oldest.routing outputs state with
                  world, capacityAccounted, inFlight } :=
            ⟨sound.reply flying (congrArg Prod.fst received) version valid capacityAccounted clock
              world, ⟨rfl, rfl, rfl, rfl, rfl, rfl⟩, by rw [flying]; rfl⟩
          refine Effect.endsAt_modify_bind ?_
          refine Effect.EndsAt.bind (?_ : (accountCapacity context).EndsAt
              (fun _ => state.Drained context) _ _)
            fun _ _ drained => drained.release
          refine Effect.endsAt_get_bind ?_
          cases pressure : context.evalPressure with
          | false =>
            refine drained last state.capacityAccounted fun counts => ?_
            exact absurd (pressure.symm.trans counts) Bool.false_ne_true
          | true =>
            have counted : state.capacityAccounted = true :=
              sound.clock pressure (flying ▸ cons_ne_nil _ _)
            have again : inFlight ≠ [] → (!inFlight.isEmpty) = true :=
              fun some => by simpa using some
            change Effect.EndsAt _ _ (if state.capacityAccounted then _ else _) _
            rw [if_pos counted]
            exact drained last _ fun _ => again
        · rw [bad] at published
          exact stops _ last (.publish (congrArg Prod.fst published))
      · simp only [ne_eq, version, not_false_eq_true, if_true]
        exact Effect.endsAt_throw (stops _ world .version)

end Draining

end Batcher

end GraphZero.Orchestrator
