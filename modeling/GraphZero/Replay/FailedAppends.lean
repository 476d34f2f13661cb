import GraphZero.Replay.AppendOnlyLog

/-!
# Appends that fail

An append validates, writes one batch, publishes the counters and runs a
retention cycle; any of these may fail, and the call returns the failure.
Before the batch is written nothing has changed.  After it everything but the
floors has: an append whose retention cycle fails is stored and reported as
failed.
-/

namespace GraphZero.Replay

open GraphZero.Foundation

/-! ## The calls -/

/-- The floating-point operations on the bits of costs and averages. -/
structure CostArithmetic where
  cost : ReplayEpisodeRecord → UInt64
  blend : UInt64 → UInt64 → UInt64
  less : UInt64 → UInt64 → Bool
  /-- The next symmetric metrics of a pair. -/
  symmetric : List UInt64 → EpisodeAppend → EpisodeAppend → List UInt64

/-- The metrics an append stores beside the counters. -/
structure StoreMetrics where
  costEmaBits : UInt64
  bestCostBits : UInt64
  symmetric : List UInt64

def nextEmaBits (arithmetic : CostArithmetic) (previous value : UInt64) : UInt64 :=
  if previous = 0 then value else arithmetic.blend previous value

def nextBestCostBits (arithmetic : CostArithmetic) (previous cost : UInt64) : UInt64 :=
  if previous = 0 ∨ arithmetic.less cost previous = true then cost
  else previous

/-- One call of `append_episode` or `append_episode_pair`. -/
inductive AppendRequest where
  | episode (episode : EpisodeAppend)
  | pair (primary secondary : EpisodeAppend)
  deriving DecidableEq

namespace AppendRequest

def episodes : AppendRequest → List EpisodeAppend
  | episode only => [only]
  | pair primary secondary => [primary, secondary]

/-- The record that supplies the game counters and the costs. -/
def primary : AppendRequest → EpisodeAppend
  | episode only => only
  | pair primary _ => primary

def stage (codec : ReplayCodec) (checks : ContentChecks)
    (store : ReplayStore) : AppendRequest → ReplayResult StagedAppend
  | episode only => store.appendEpisode codec checks only
  | pair primary secondary => store.appendEpisodePair codec checks primary secondary

def ids (store : ReplayStore) : AppendRequest → List UInt64
  | episode _ => [store.nextEpisodeSeq]
  | pair _ _ => [store.nextEpisodeSeq, store.nextEpisodeSeq + 1]

def nextMetrics (arithmetic : CostArithmetic) (dataMode : ReplayDataMode)
    (metrics : StoreMetrics) (request : AppendRequest) : StoreMetrics :=
  let cost := arithmetic.cost request.primary.record
  { costEmaBits := nextEmaBits arithmetic metrics.costEmaBits cost
    bestCostBits := nextBestCostBits arithmetic metrics.bestCostBits cost
    symmetric :=
      match request with
      | episode _ => metrics.symmetric
      | pair primary secondary =>
        if dataMode.isSymmetricSelfplay = true then
          arithmetic.symmetric metrics.symmetric primary secondary
        else
          metrics.symmetric }

end AppendRequest

/-- What an append may change: the database, with its metrics beside the
modelled tables, and the memory of the open store. -/
structure StoreState where
  database : Database
  persistedMetrics : StoreMetrics
  store : ReplayStore
  metrics : StoreMetrics

/-- The failures of the database that an append meets: before its batch, at
the batch, or at a call of a retention cycle past its threshold. -/
structure AppendFaults where
  read : Option ReplayError
  write : Option ReplayError
  cycle : Option ReplayError

/-- A retention cycle whose database calls may fail. -/
def enforceRetentionUnder (fault : Option ReplayError) (database : Database) (store : ReplayStore) :
    ReplayResult (Option ReplayStore.RetentionWrite) :=
  match store.retainRows with
  | none => .ok none
  | some retain =>
    if ReplayStore.saturatingSub store.producedRows store.retainedFloor ≤
        ReplayStore.retentionThreshold retain then
      .ok none
    else
      match fault with
      | some failure => .error failure
      | none => store.enforceRetention database

/-- The state once the batch is written and its counters are published. -/
def StoreState.counted (state : StoreState) (staged : StagedAppend)
    (metrics : StoreMetrics) : StoreState :=
  { database := state.database.write staged.batch
    persistedMetrics := metrics
    store := state.store.publish staged.counters
    metrics }

def finishAppend (faults : AppendFaults) (state : StoreState)
    (staged : StagedAppend) (metrics : StoreMetrics) (ids : List UInt64) :
    ReplayResult (List UInt64) × StoreState :=
  match faults.write with
  | some failure => (.error failure, state)
  | none =>
    let counted := state.counted staged metrics
    match enforceRetentionUnder faults.cycle counted.database counted.store with
    | .error failure => (.error failure, counted)
    | .ok none => (.ok ids, counted)
    | .ok (some retention) =>
      (.ok ids,
        { counted with
          database := counted.database.write retention.batch
          store :=
            { counted.store with retainedFloor := retention.newFloor } })

/-- A call of `append_episode` or `append_episode_pair`. -/
def append (codec : ReplayCodec) (checks : ContentChecks)
    (arithmetic : CostArithmetic) (faults : AppendFaults)
    (state : StoreState) (request : AppendRequest) :
    ReplayResult (List UInt64) × StoreState :=
  match faults.read with
  | some failure => (.error failure, state)
  | none =>
    match request.stage codec checks state.store with
    | .error failure => (.error failure, state)
    | .ok staged =>
      finishAppend faults state staged
        (request.nextMetrics arithmetic state.store.currentDataMode state.metrics)
        (request.ids state.store)

/-- A step of the store, or a retention cycle that a failing database cut
short. -/
inductive FaultyLabel where
  | step (label : Label)
  | cycleFault

inductive FaultyStep (codec : ReplayCodec) : World → FaultyLabel → World → Prop
  | step {world next label} (step : Step codec world label next) :
    FaultyStep codec world (.step label) next
  | cycleFault {database store} :
    FaultyStep codec ⟨database, .counted store⟩ .cycleFault ⟨database, .idle store⟩

/-- The store on a database whose calls may fail. -/
def faultySystem (codec : ReplayCodec) : TransitionSystem World FaultyLabel where
  initial world := world = World.initial
  step := FaultyStep codec

theorem consistent_of_reachable {codec world} (reachable : (faultySystem codec).Reachable world) :
    ∃ episodes log memory, Consistent codec episodes log memory world := by
  apply reachable.invariant
  · rintro start rfl
    exact ⟨_, _, _, consistent_initial codec⟩
  rintro state label next ⟨episodes, log, memory, sound⟩ step
  cases step with
  | step step =>
    obtain ⟨nextLog, nextMemory, kept, _⟩ := sound.step step
    exact ⟨_, nextLog, nextMemory, kept⟩
  | cycleFault =>
    have present := sound.schema.of_ne_closed (by simp)
    exact ⟨episodes, log, memory, sound.persisted, sound.phase, Or.inl present⟩

theorem reachable_of_storeRun {codec labels world}
    (run : (storeSystem codec).Run World.initial labels world) :
    (faultySystem codec).Reachable world := by
  apply run.invariant
  · intro state label next reachable step
    have after : (faultySystem codec).Reaches state next :=
      (TransitionSystem.Reaches.refl state).step (FaultyStep.step step)
    exact reachable.reaches after
  · exact ⟨World.initial, rfl, TransitionSystem.Reaches.refl _⟩

/-! ## When a retention cycle completes -/

/-- With `produced` rows, a retention cycle stays below its threshold or finds
its cutoff row. -/
def CutoffStored (database : Database) (store : ReplayStore) (produced : UInt64) : Prop :=
  ∀ retain, store.retainRows = some retain →
    ReplayStore.saturatingSub produced store.retainedFloor ≤ ReplayStore.retentionThreshold retain ∨
      ∃ deleted, readFloor database .deletedFloor = .ok deleted ∧
        deleted ≤ (produced - retain).toNat ∧
        (produced - retain).toNat < produced.toNat

/-- With `produced` rows, a retention cycle makes no call past its threshold
that the database fails. -/
def CycleUndisturbed (fault : Option ReplayError) (store : ReplayStore)
    (produced : UInt64) : Prop :=
  fault = none ∨ ∀ retain, store.retainRows = some retain →
    ReplayStore.saturatingSub produced store.retainedFloor ≤ ReplayStore.retentionThreshold retain

section Retention

variable {codec : ReplayCodec} {episodes : List EpisodeAppend}
  {log : RetainedLog ReplayRow} {memory : ReplayStore} {database : Database}

section

variable (persisted : Persisted codec episodes log memory database)
include persisted

theorem Persisted.readFloor_deleted : readFloor database .deletedFloor = .ok log.deleted :=
  persisted.logView.deletedFloor

theorem Persisted.alignedFloor_isOk_iff {target} :
    (∃ newFloor, ReplayStore.alignedFloor database target = .ok newFloor) ↔
      log.deleted ≤ target.toNat ∧ target.toNat < memory.producedRows.toNat := by
  constructor
  · intro ⟨newFloor, aligned⟩
    obtain ⟨kept, place, found, _⟩ := persisted.alignedFloor_eq_ok_iff.mp aligned
    have below := lt_totalLength_of_locate found
    rw [persisted.totalLength_eq, ← persisted.producedRows] at below
    exact ⟨kept, below⟩
  · intro ⟨kept, below⟩
    have inLog : target.toNat < totalLength log.segments := by
      rw [persisted.totalLength_eq, ← persisted.producedRows]
      exact below
    obtain ⟨place, found⟩ := exists_locate inLog
    have small : target.toNat - place.2 < UInt64.size :=
      Nat.lt_of_le_of_lt (Nat.sub_le _ _) target.toNat_lt_size
    exact ⟨UInt64.ofNat (target.toNat - place.2),
      persisted.alignedFloor_eq_ok_iff.mpr ⟨kept, place, found, UInt64.toNat_ofNat_of_lt' small⟩⟩

theorem Persisted.enforceRetention_isOk_iff :
    (∃ result, memory.enforceRetention database = .ok result) ↔
      CutoffStored database memory memory.producedRows := by
  unfold CutoffStored
  cases bounded : memory.retainRows with
  | none =>
    refine iff_of_true ⟨none, ?_⟩ (by rintro _ ⟨⟩)
    rw [ReplayStore.enforceRetention, bounded]
  | some retain =>
    by_cases within : ReplayStore.saturatingSub memory.producedRows
          memory.retainedFloor ≤ ReplayStore.retentionThreshold retain
    · refine iff_of_true ⟨none, ?_⟩ ?_
      · rw [ReplayStore.enforceRetention, bounded]
        simp only [if_pos within]
      · rintro _ ⟨⟩
        exact Or.inl within
    have aligns : (∃ newFloor, ReplayStore.alignedFloor database (cutoff memory retain) =
          .ok newFloor) ↔ _ := persisted.alignedFloor_isOk_iff
    constructor
    · rintro ⟨result, succeeded⟩
      rintro _ ⟨⟩
      refine Or.inr ⟨log.deleted, persisted.readFloor_deleted, ?_⟩
      apply aligns.mp
      rcases persisted.enforceRetention_cases bounded within with
        ⟨failure, _, failed⟩ | ⟨newFloor, aligned, _⟩
      · rw [failed] at succeeded
        cases succeeded
      · exact ⟨newFloor, aligned⟩
    · intro stored
      rcases stored retain rfl with below | ⟨deleted, read, kept⟩
      · exact absurd below within
      rw [persisted.readFloor_deleted] at read
      cases read
      obtain ⟨newFloor, aligned⟩ := aligns.mpr kept
      rcases persisted.enforceRetention_cases bounded within with
        ⟨failure, failed, _⟩ | ⟨_, _, ⟨_, unmoved⟩ | ⟨_, _, moved, _⟩⟩
      · rw [failed] at aligned
        cases aligned
      · exact ⟨_, unmoved⟩
      · exact ⟨_, moved⟩

theorem Persisted.enforceRetentionUnder_isOk_iff {fault} :
    (∃ result, enforceRetentionUnder fault database memory = .ok result) ↔
      CutoffStored database memory memory.producedRows ∧
        CycleUndisturbed fault memory memory.producedRows := by
  have undisturbed := persisted.enforceRetention_isOk_iff
  unfold enforceRetentionUnder CycleUndisturbed
  cases bounded : memory.retainRows with
  | none =>
    refine iff_of_true ⟨none, rfl⟩ ⟨?_, Or.inr nofun⟩
    intro retain same
    rw [bounded] at same
    cases same
  | some retain =>
    dsimp only
    by_cases within : ReplayStore.saturatingSub memory.producedRows
          memory.retainedFloor ≤ ReplayStore.retentionThreshold retain
    · rw [if_pos within]
      refine iff_of_true ⟨none, rfl⟩ ⟨?_, Or.inr ?_⟩
      · intro other same
        rw [bounded] at same
        cases same
        exact Or.inl within
      · rintro _ ⟨⟩
        exact within
    · rw [if_neg within]
      cases fault with
      | none =>
        rw [and_iff_left (Or.inl rfl)]
        exact undisturbed
      | some failure =>
        refine iff_of_false ?_ ?_
        · rintro ⟨result, ⟨⟩⟩
        · intro ⟨_, either⟩
          cases either with
          | inl impossible => cases impossible
          | inr quiet => exact within (quiet retain rfl)

end

theorem enforceRetention_of_under {fault retention}
    (moved : enforceRetentionUnder fault database memory = .ok (some retention)) :
    memory.enforceRetention database = .ok (some retention) := by
  unfold enforceRetentionUnder at moved
  split at moved
  · cases moved
  split at moved
  · cases moved
  split at moved
  · cases moved
  · exact moved

end Retention

/-! ## What a call leaves behind -/

theorem stagedFrom_of_stage {codec checks store} {request : AppendRequest} {staged}
    (accepted : request.stage codec checks store = .ok staged) :
    StagedFrom codec store request.episodes staged := by
  cases request with
  | episode only => exact stagedFrom_of_appendEpisode accepted
  | pair primary secondary => exact stagedFrom_of_appendEpisodePair accepted

/-- Every episode of the request is stored under the sequence it was given. -/
def RequestStored (codec : ReplayCodec) (database : Database)
    (store : ReplayStore) (request : AppendRequest) : Prop :=
  ∀ index episode, request.episodes[index]? = some episode → EpisodeStored codec database
      (store.nextEpisodeSeq + UInt64.ofNat index) episode

section Counted

variable {codec : ReplayCodec} {episodes : List EpisodeAppend} {log : RetainedLog ReplayRow}
  {memory : ReplayStore} {database : Database} {request : AppendRequest} {staged : StagedAppend}

section

variable (persisted : Persisted codec episodes log memory database)
  (stagedFrom : StagedFrom codec memory request.episodes staged)
include persisted stagedFrom

theorem Persisted.producedRows_publish : (memory.publish staged.counters).producedRows =
      memory.producedRows + UInt64.ofNat (totalRows request.episodes) := by
  have written := persisted.append stagedFrom
  have total := written.producedRows
  have bound := (memory.publish staged.counters).producedRows.toNat_lt_size
  rw [totalRows_append, ← persisted.producedRows] at total
  have small : totalRows request.episodes < UInt64.size := by omega
  have size : UInt64.size = 2 ^ 64 := rfl
  apply UInt64.toNat_inj.mp
  rw [UInt64.toNat_add, UInt64.toNat_ofNat_of_lt' small, total]
  exact (Nat.mod_eq_of_lt (by omega)).symm

theorem Persisted.nextEpisodeSeq_publish_ne : (memory.publish staged.counters).nextEpisodeSeq ≠
      memory.nextEpisodeSeq := by
  intro same
  have written := (persisted.append stagedFrom).nextEpisodeSeq
  rw [same, persisted.nextEpisodeSeq, List.length_append] at written
  have some : 0 < request.episodes.length := by
    cases request <;> exact Nat.succ_pos _
  omega

end

theorem Persisted.requestStored {laterLog laterMemory laterDatabase}
    (before : memory.nextEpisodeSeq.toNat = episodes.length)
    (later : Persisted codec (episodes ++ request.episodes) laterLog laterMemory laterDatabase)
    (kept : laterLog.firstSegment ≤ episodes.length) :
    RequestStored codec laterDatabase memory request := by
  intro index episode found
  have within := (List.getElem?_eq_some_iff.mp found).1
  have total := later.nextEpisodeSeq
  have bound := laterMemory.nextEpisodeSeq.toNat_lt_size
  rw [List.length_append] at total
  have small : index < UInt64.size := by omega
  have size : UInt64.size = 2 ^ 64 := rfl
  have position : (memory.nextEpisodeSeq + UInt64.ofNat index).toNat = episodes.length + index := by
    rw [UInt64.toNat_add, UInt64.toNat_ofNat_of_lt' small, before]
    exact Nat.mod_eq_of_lt (by omega)
  apply later.episodeStored
  · rw [position]
    exact kept.trans (Nat.le_add_right _ _)
  · rw [position, List.getElem?_append_right (Nat.le_add_right _ _), Nat.add_sub_cancel_left]
    exact found

theorem Persisted.cutoffStored_publish_iff
    (persisted : Persisted codec episodes log memory database)
    (stagedFrom : StagedFrom codec memory request.episodes staged) {produced} :
    CutoffStored (database.write staged.batch) (memory.publish staged.counters) produced ↔
      CutoffStored database memory produced := by
  have deleted := persisted.readFloor_deleted
  have laterDeleted := (persisted.append stagedFrom).readFloor_deleted
  unfold CutoffStored
  rw [deleted, laterDeleted]
  exact Iff.rfl

end Counted

/-- The call reports a failure only for a state it left alone, and its
episodes are stored together or not at all. -/
structure FailsCleanly (codec : ReplayCodec) (checks : ContentChecks)
    (arithmetic : CostArithmetic) (faults : AppendFaults)
    (state : StoreState) (request : AppendRequest) : Prop where
  unchanged : ∀ failure next,
    append codec checks arithmetic faults state request = (.error failure, next) → next = state
  whole : ∀ result next,
    append codec checks arithmetic faults state request = (result, next) →
      next.database = state.database ∨ RequestStored codec next.database state.store request

/-- Nothing is written, or the retention cycle after the write completes. -/
def WrittenCompletes (codec : ReplayCodec) (checks : ContentChecks)
    (faults : AppendFaults) (state : StoreState) (request : AppendRequest) :
    Prop :=
  let produced := state.store.producedRows + UInt64.ofNat (totalRows request.episodes)
  faults.read ≠ none ∨
  (∀ staged, request.stage codec checks state.store ≠ .ok staged) ∨
  faults.write ≠ none ∨
  CutoffStored state.database state.store produced ∧
    CycleUndisturbed faults.cycle state.store produced

section Finish

variable {codec : ReplayCodec} {faults : AppendFaults} {state : StoreState}
  {episodes : List EpisodeAppend} {log : RetainedLog ReplayRow}
  {request : AppendRequest} {staged : StagedAppend} {metrics : StoreMetrics}

section

variable (persisted : Persisted codec episodes log state.store state.database)
  (stagedFrom : StagedFrom codec state.store request.episodes staged)
include persisted stagedFrom

/-- The episodes of a written request are stored before its retention cycle,
and the floors it moves leave them stored. -/
theorem Persisted.requestStored_counted :
    RequestStored codec (state.counted staged metrics).database state.store request := by
  have written := persisted.append stagedFrom
  apply Persisted.requestStored persisted.nextEpisodeSeq written
  rw [RetainedLog.firstSegment_append]
  exact persisted.keptFrom_le_length log.deleted_begins

theorem Persisted.requestStored_retained {retention}
    (moved : enforceRetentionUnder faults.cycle (state.counted staged metrics).database
      (state.counted staged metrics).store = .ok (some retention)) :
    RequestStored codec ((state.counted staged metrics).database.write retention.batch)
      state.store request := by
  have written := persisted.append stagedFrom
  have moves := written.retentionMoves (enforceRetention_of_under moved)
  have retained := written.retain moves
  apply Persisted.requestStored persisted.nextEpisodeSeq retained
  have kept : keptFrom (log.append (rowSegments request.episodes)).segments
      log.retained = keptFrom log.segments log.retained :=
    keptFrom_append log.retained_begins _
  have bound := persisted.keptFrom_le_length log.retained_begins
  rw [← kept] at bound
  exact bound

theorem Persisted.cycleCompletes_iff :
    (∃ result, enforceRetentionUnder faults.cycle (state.counted staged metrics).database
      (state.counted staged metrics).store = .ok result) ↔
      CutoffStored state.database state.store (state.store.producedRows +
            UInt64.ofNat (totalRows request.episodes)) ∧
        CycleUndisturbed faults.cycle state.store (state.store.producedRows +
            UInt64.ofNat (totalRows request.episodes)) := by
  have written := persisted.append stagedFrom
  have completes : (∃ result, enforceRetentionUnder faults.cycle
      (state.counted staged metrics).database
      (state.counted staged metrics).store = .ok result) ↔ _ :=
    written.enforceRetentionUnder_isOk_iff
  rw [persisted.producedRows_publish stagedFrom,
    persisted.cutoffStored_publish_iff stagedFrom] at completes
  exact completes

theorem Persisted.finishAppend_failsCleanly_iff
    (undisturbed : faults.write = none) (ids : List UInt64) :
    ((∀ failure next,
        finishAppend faults state staged metrics ids = (.error failure, next) → next = state) ∧
      ∀ result next, finishAppend faults state staged metrics ids = (result, next) →
          next.database = state.database ∨ RequestStored codec next.database state.store request) ↔
      ∃ result, enforceRetentionUnder faults.cycle (state.counted staged metrics).database
        (state.counted staged metrics).store = .ok result := by
  unfold finishAppend
  rw [undisturbed]
  dsimp only
  cases cycle : enforceRetentionUnder faults.cycle (state.counted staged metrics).database
      (state.counted staged metrics).store with
  | error failure =>
    refine iff_of_false ?_ nofun
    intro ⟨unchanged, _⟩
    have same := unchanged failure _ rfl
    have counters := congrArg (fun later => later.store.nextEpisodeSeq) same
    exact persisted.nextEpisodeSeq_publish_ne stagedFrom counters
  | ok result =>
    refine iff_of_true ⟨?_, ?_⟩ ⟨result, rfl⟩
    · intro failure next outcome
      cases result <;> cases outcome
    intro outcome next finished
    apply Or.inr
    cases result with
    | none =>
      cases finished
      exact persisted.requestStored_counted stagedFrom
    | some retention =>
      cases finished
      exact persisted.requestStored_retained stagedFrom cycle

end

end Finish

/-- In every reachable state of an open store, an append fails cleanly exactly
when nothing is written or its retention cycle completes. -/
theorem failsCleanly_iff {codec : ReplayCodec} {checks : ContentChecks}
    {arithmetic : CostArithmetic} {faults : AppendFaults} {state : StoreState}
    {request : AppendRequest}
    (reachable : (faultySystem codec).Reachable ⟨state.database, .idle state.store⟩) :
    FailsCleanly codec checks arithmetic faults state request ↔
      WrittenCompletes codec checks faults state request := by
  obtain ⟨episodes, log, memory, sound⟩ := consistent_of_reachable reachable
  have same : state.store = memory := sound.phase
  have persisted := sound.persisted
  rw [← same] at persisted
  have refused : (∃ failure, append codec checks arithmetic faults state
      request = (.error failure, state)) →
        FailsCleanly codec checks arithmetic faults state request := by
    intro ⟨failure, result⟩
    constructor
    · intro other next outcome
      rw [result] at outcome
      cases outcome
      rfl
    · intro other next outcome
      rw [result] at outcome
      cases outcome
      exact Or.inl rfl
  unfold WrittenCompletes
  cases read : faults.read with
  | some failure =>
    refine iff_of_true (refused ⟨failure, ?_⟩) (Or.inl nofun)
    unfold append
    rw [read]
  | none =>
    cases stages : request.stage codec checks state.store with
    | error failure =>
      refine iff_of_true (refused ⟨failure, ?_⟩) (Or.inr (Or.inl nofun))
      unfold append
      rw [read]
      rw [stages]
    | ok staged =>
      cases writes : faults.write with
      | some failure =>
        refine iff_of_true (refused ⟨failure, ?_⟩) (Or.inr (Or.inr (Or.inl nofun)))
        unfold append finishAppend
        rw [read]
        rw [stages, writes]
      | none =>
        have stagedFrom := stagedFrom_of_stage stages
        have appended : append codec checks arithmetic faults state
            request = finishAppend faults state staged (request.nextMetrics arithmetic
                state.store.currentDataMode state.metrics)
              (request.ids state.store) := by
          unfold append
          rw [read]
          rw [stages]
        rw [or_iff_right (not_not_intro rfl), or_iff_right, or_iff_right (not_not_intro rfl),
          ← persisted.cycleCompletes_iff stagedFrom,
          ← persisted.finishAppend_failsCleanly_iff stagedFrom writes
            (request.ids state.store), ← appended]
        · exact ⟨fun clean => ⟨clean.unchanged, clean.whole⟩,
            fun ⟨unchanged, whole⟩ => ⟨unchanged, whole⟩⟩
        · intro refuses
          exact refuses staged rfl

namespace Sample

/-- The game of the sample episode costs one. -/
def arithmetic : CostArithmetic where
  cost _ := 0x3ff0000000000000
  blend previous _ := previous
  less _ _ := false
  symmetric metrics _ _ := metrics

def undisturbed : AppendFaults where
  read := none
  write := none
  cycle := none

def newState (retain : UInt64) : StoreState where
  database := openedDatabase
  persistedMetrics := { costEmaBits := 0, bestCostBits := 0, symmetric := [] }
  store := openedStore retain
  metrics := { costEmaBits := 0, bestCostBits := 0, symmetric := [] }

/-- The append of one row to a new store that retains none. -/
def failedAppend : ReplayResult (List UInt64) × StoreState :=
  append codec checks arithmetic undisturbed (newState 0) (.episode episode)

theorem reachable_newState (retain : UInt64) : (faultySystem codec).Reachable
      ⟨(newState retain).database, .idle (newState retain).store⟩ :=
  reachable_of_storeRun (run_openLabels retain)

end Sample

/-- Eight rows of retention, one row to append. -/
theorem failsCleanly_sample : FailsCleanly Sample.codec Sample.checks Sample.arithmetic
        Sample.undisturbed (Sample.newState 8) (.episode Sample.episode) ↔
      WrittenCompletes Sample.codec Sample.checks Sample.undisturbed
        (Sample.newState 8) (.episode Sample.episode) :=
  failsCleanly_iff (Sample.reachable_newState 8)

/-- With no rows of retention the first append looks for a cutoff row past the
last one: the call fails, and the episode is stored and counted. -/
theorem failedAppend_stores : (faultySystem Sample.codec).Reachable
        ⟨(Sample.newState 0).database, .idle (Sample.newState 0).store⟩ ∧
      ¬ FailsCleanly Sample.codec Sample.checks Sample.arithmetic
        Sample.undisturbed (Sample.newState 0) (.episode Sample.episode) ∧
      Sample.failedAppend.1 = .error (.storage "missing row index entry at retention target") ∧
      (Sample.newState 0).database.get .episodes (episodeKey 0) = none ∧
      Sample.failedAppend.2.database.get .episodes (episodeKey 0) = some [2] ∧
      (Sample.newState 0).store.producedRows = 0 ∧
      Sample.failedAppend.2.store.producedRows = 1 ∧
      (Sample.newState 0).metrics.bestCostBits = 0 ∧
      Sample.failedAppend.2.metrics.bestCostBits = 0x3ff0000000000000 := by
  refine ⟨Sample.reachable_newState 0, ?_, rfl, rfl, rfl, rfl, rfl, rfl, rfl⟩
  intro clean
  have same := clean.unchanged (.storage "missing row index entry at retention target")
    Sample.failedAppend.2 rfl
  have counters := congrArg (fun state => state.store.producedRows) same
  exact absurd counters (by decide)

end GraphZero.Replay
