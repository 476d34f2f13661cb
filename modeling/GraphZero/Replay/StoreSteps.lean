import GraphZero.Replay.Consistency

/-!
# Steps of the store

Each step keeps a world sound.  An append extends the log by the rows of
its episodes; a retention write carries out the cut at the published floor and
announces the next one.
-/

namespace GraphZero.Replay

open GraphZero.Foundation List

/-! ## Appends -/

/-- What an accepted append of `more` staged. -/
structure StagedFrom (codec : ReplayCodec) (store : ReplayStore)
    (more : List EpisodeAppend) (staged : StagedAppend) : Prop where
  numbered : ∀ episode ∈ more, Numbered 0 episode.rows
  staging : ∃ ops sequences completedGames episodesStopped,
    stageEpisodes codec more ⟨store.nextEpisodeSeq, store.producedRows⟩ = .ok (ops, sequences) ∧
      staged = stageCounters ops sequences completedGames episodesStopped

section

variable {codec : ReplayCodec} {checks : ContentChecks} {store : ReplayStore}

theorem stagedFrom_of_appendEpisode {episode staged}
    (accepted : store.appendEpisode codec checks episode = .ok staged) :
    StagedFrom codec store [episode] staged := by
  obtain ⟨_, accepted⟩ := ok_of_guard accepted
  obtain ⟨_, _, accepted⟩ := ok_of_bind accepted
  obtain ⟨_, valid, accepted⟩ := ok_of_bind accepted
  obtain ⟨completedGames, _, accepted⟩ := ok_of_bind accepted
  obtain ⟨⟨ops, sequences⟩, staging, accepted⟩ := ok_of_bind accepted
  cases accepted
  constructor
  · intro other member
    rw [mem_singleton.mp member]
    exact (shape_of_validateEpisode valid).1
  · exact ⟨ops, sequences, completedGames, _, staging, rfl⟩

theorem stagedFrom_of_appendEpisodePair {primary secondary staged}
    (accepted : store.appendEpisodePair codec checks primary secondary = .ok staged) :
    StagedFrom codec store [primary, secondary] staged := by
  obtain ⟨_, _, accepted⟩ := ok_of_bind accepted
  obtain ⟨_, _, accepted⟩ := ok_of_bind accepted
  obtain ⟨_, primaryValid, accepted⟩ := ok_of_bind accepted
  obtain ⟨_, secondaryValid, accepted⟩ := ok_of_bind accepted
  have numbered : ∀ episode ∈ [primary, secondary], Numbered 0 episode.rows := by
    intro episode member
    rcases mem_cons.mp member with same | member
    · rw [same]
      exact (shape_of_validateEpisode primaryValid).1
    · rw [mem_singleton.mp member]
      exact (shape_of_validateEpisode secondaryValid).1
  refine ⟨numbered, ?_⟩
  split at accepted
  · obtain ⟨_, _, accepted⟩ := ok_of_bind accepted
    obtain ⟨_, _, accepted⟩ := ok_of_bind accepted
    obtain ⟨completedGames, _, accepted⟩ := ok_of_bind accepted
    obtain ⟨⟨ops, sequences⟩, staging, accepted⟩ := ok_of_bind accepted
    cases accepted
    exact ⟨ops, sequences, completedGames, _, staging, rfl⟩
  · obtain ⟨_, _, accepted⟩ := ok_of_bind accepted
    obtain ⟨completedGames, _, accepted⟩ := ok_of_bind accepted
    obtain ⟨⟨ops, sequences⟩, staging, accepted⟩ := ok_of_bind accepted
    cases accepted
    exact ⟨ops, sequences, completedGames, _, staging, rfl⟩

end

section Steps

variable {codec : ReplayCodec} {episodes : List EpisodeAppend}
  {log : RetainedLog ReplayRow} {memory : ReplayStore} {database : Database}

theorem Persisted.keptFrom_le_length (persisted : Persisted codec episodes log memory database)
    {number} (begins : BeginsSegment log.segments number) :
    keptFrom log.segments number ≤ episodes.length := by
  have below := Foundation.keptFrom_le_length begins
  rw [persisted.segments, length_rowSegments] at below
  rw [persisted.segments]
  exact below

theorem Persisted.append {more staged} (persisted : Persisted codec episodes log memory database)
    (stagedFrom : StagedFrom codec memory more staged) :
    Persisted codec (episodes ++ more) (log.append (rowSegments more))
      (memory.publish staged.counters) (database.write staged.batch) := by
  obtain ⟨numbered, ops, sequences, completedGames, episodesStopped, staging, rfl⟩ := stagedFrom
  have kept : log.firstSegment ≤ episodes.length := persisted.keptFrom_le_length log.deleted_begins
  have rowsKept : log.deleted ≤ totalRows episodes := by
    have bound := log.retained_le_total
    rw [persisted.totalLength_eq] at bound
    exact Nat.le_trans log.deleted_le_retained bound
  have written := persisted.tables.writeEpisodes persisted.nextEpisodeSeq
    persisted.producedRows kept rowsKept numbered staging
  have puts := isPut_of_stageEpisodes staging
  have batch : database.write (stageCounters ops sequences completedGames episodesStopped).batch =
        (database.write ops).write [.putMeta .nextEpisodeSeq (encodeU64 sequences.nextEpisode),
           .putMeta .producedRows (encodeU64 sequences.nextRow),
           .putMeta .completedGames (encodeU64 completedGames),
           .putMeta .episodesStopped (encodeU64 episodesStopped)] := by
    rw [stageCounters, Database.write_append]
  rw [batch]
  constructor
  · rw [rowSegments_append, ← persisted.segments]
    rfl
  · intro episode member
    rcases mem_append.mp member with old | new
    · exact persisted.appendable episode old
    · exact appendable_of_stageEpisodes numbered staging episode new
  · rw [RetainedLog.firstSegment_append]
    apply written.1.of_get
    intro family key
    simp [Database.write_cons, Database.get_apply]
  · exact written.2.1
  · exact written.2.2
  · exact persisted.retained
  · have metas := persisted.metas
    have unchanged : ∀ key, (database.write ops).getMeta key = database.getMeta key :=
      getMeta_write_of_isPut puts
    constructor
    · exact metas.deletedFloor.of_getMeta
        (by simp [Database.write_cons, Database.getMeta_apply, unchanged])
    · exact metas.retainedFloor.of_getMeta
        (by simp [Database.write_cons, Database.getMeta_apply, unchanged])
    · exact metas.consumedRows.of_getMeta
        (by simp [Database.write_cons, Database.getMeta_apply, unchanged])
    · refine Or.inr ?_
      simp [Database.write_cons, Database.getMeta_apply, stageCounters, ReplayStore.publish]
    · refine Or.inr ?_
      simp [Database.write_cons, Database.getMeta_apply, stageCounters, ReplayStore.publish]
    · have stored := metas.dataMode
      simp [StoredDataMode, Database.write_cons, Database.getMeta_apply,
        unchanged, ReplayStore.publish]
      exact stored

theorem Persisted.appended_schema {more staged}
    (_persisted : Persisted codec episodes log memory database)
    (stagedFrom : StagedFrom codec memory more staged) :
    (database.write staged.batch).getMeta .schemaVersion = database.getMeta .schemaVersion := by
  obtain ⟨_, ops, sequences, completedGames, episodesStopped, staging, rfl⟩ := stagedFrom
  have puts := isPut_of_stageEpisodes staging
  rw [stageCounters, Database.write_append]
  simp [Database.write_cons, Database.getMeta_apply, getMeta_write_of_isPut puts]

/-! ## Retention -/

theorem Persisted.alignedFloor_eq_ok_iff (persisted : Persisted codec episodes log memory database)
    {target newFloor} :
    ReplayStore.alignedFloor database target = .ok newFloor ↔ log.deleted ≤ target.toNat ∧
        ∃ place, locate log.segments target.toNat = some place ∧
          newFloor.toNat = target.toNat - place.2 := by
  by_cases stored : log.deleted ≤ target.toNat ∧ target.toNat < totalRows episodes
  · obtain ⟨kept, below⟩ := stored
    have inLog : target.toNat < totalLength (rowSegments episodes) := below
    obtain ⟨place, found⟩ := exists_locate inLog
    obtain ⟨episodeSeq, step, rfl, present⟩ := persisted.rowIndex_of_locate kept found
    obtain ⟨_, _, _, position⟩ := locate_eq_some_iff.mp found
    have stepBelow : step.toNat ≤ target.toNat := by
      rw [position]
      exact Nat.le_add_left _ _
    have stepNat : (UInt64.ofNat step.toNat).toNat = step.toNat := by
      apply UInt64.toNat_ofNat_of_lt'
      exact Nat.lt_trans step.toNat_lt (by decide)
    have difference : (target - UInt64.ofNat step.toNat).toNat = target.toNat - step.toNat := by
      rw [UInt64.toNat_sub_of_le _ _ (by
        rw [UInt64.le_iff_toNat_le, stepNat]
        exact stepBelow), stepNat]
    have computed : ReplayStore.alignedFloor database target =
        .ok (target - UInt64.ofNat step.toNat) := by
      rw [ReplayStore.alignedFloor, present]
      simp [orStorage, bind, Except.bind, pure, Except.pure]
    rw [computed, Except.ok.injEq, persisted.locate_eq, found]
    constructor
    · intro same
      exact ⟨kept, _, rfl, by rw [← same, difference]⟩
    · rintro ⟨_, place, same, floor⟩
      cases same
      apply UInt64.toNat_inj.mp
      rw [difference, floor]
  · have missing : database.get .rowIndex (rowIndexKey target) = none :=
      persisted.rowIndex_isNone (by omega)
    have computed : ReplayStore.alignedFloor database target =
        storage "missing row index entry at retention target" := by
      rw [ReplayStore.alignedFloor, missing]
      rfl
    rw [computed]
    constructor
    · intro impossible
      cases impossible
    · rintro ⟨kept, place, found, _⟩
      have below := lt_totalLength_of_locate found
      rw [persisted.totalLength_eq] at below
      exact absurd ⟨kept, below⟩ stored

theorem Persisted.episodeAtFloor (persisted : Persisted codec episodes log memory database)
    (floor : UInt64) (missing corrupt : String)
    (kept : log.deleted ≤ floor.toNat)
    (begins : BeginsSegment log.segments floor.toNat) :
    ∃ episodeSeq, ReplayStore.episodeAtFloor database floor missing corrupt = .ok episodeSeq ∧
      episodeSeq.toNat = keptFrom log.segments floor.toNat := by
  by_cases zero : floor = 0
  · refine ⟨0, ?_, ?_⟩
    · rw [ReplayStore.episodeAtFloor, if_pos zero]
    · rw [zero]
      rfl
  · rcases begins with isZero | ⟨index, found⟩
    · exact absurd (UInt64.toNat_inj.mp isZero) zero
    have pos : floor.toNat ≠ 0 := fun isZero =>
      zero (UInt64.toNat_inj.mp isZero)
    have kept' := keptFrom_of_locate pos found
    rw [persisted.locate_eq] at found
    obtain ⟨episodeSeq, step, same, present⟩ := persisted.rowIndex_of_locate kept found
    have indexSame : index = episodeSeq.toNat := congrArg Prod.fst same
    refine ⟨episodeSeq, ?_, by rw [kept', indexSame]⟩
    rw [ReplayStore.episodeAtFloor, if_neg zero, present]
    simp [orStorage, bind, Except.bind]

/-- What a retention cycle writes when it moves the floors. -/
structure RetentionMoves (log : RetainedLog ReplayRow)
    (memory : ReplayStore) (retention : ReplayStore.RetentionWrite) :
    Prop where
  later : log.retained ≤ retention.newFloor.toNat
  begins : ∃ index, locate log.segments retention.newFloor.toNat = some (index, 0)
  batch : ∃ deleted deletedEpisode floorEpisode : UInt64,
    deleted.toNat = log.deleted ∧ deletedEpisode.toNat = log.firstSegment ∧
      floorEpisode.toNat = keptFrom log.segments log.retained ∧
      retention.batch = ReplayStore.retentionBatch deleted memory.retainedFloor
          retention.newFloor deletedEpisode floorEpisode

theorem Persisted.deleted_fits (persisted : Persisted codec episodes log memory database) :
    (UInt64.ofNat log.deleted).toNat = log.deleted := by
  apply UInt64.toNat_ofNat_of_lt'
  have bound := memory.retainedFloor.toNat_lt_size
  rw [persisted.retained] at bound
  exact Nat.lt_of_le_of_lt log.deleted_le_retained bound

/-- The cycle past its threshold, up to the cutoff row. -/
def cutoff (memory : ReplayStore) (retain : UInt64) : UInt64 :=
  memory.producedRows - retain

section

variable (persisted : Persisted codec episodes log memory database)
include persisted

theorem Persisted.enforceRetention_cases {retain} (bounded : memory.retainRows = some retain)
    (exceeded : ¬ ReplayStore.saturatingSub memory.producedRows memory.retainedFloor ≤
        ReplayStore.retentionThreshold retain) :
    (∃ failure, ReplayStore.alignedFloor database (cutoff memory retain) = .error failure ∧
      memory.enforceRetention database = .error failure) ∨
    (∃ newFloor, ReplayStore.alignedFloor database (cutoff memory retain) = .ok newFloor ∧
      (newFloor ≤ memory.retainedFloor ∧ memory.enforceRetention database = .ok none ∨
        ¬ newFloor ≤ memory.retainedFloor ∧ ∃ retention, memory.enforceRetention database =
              .ok (some retention) ∧
            retention.newFloor = newFloor ∧
            RetentionMoves log memory retention)) := by
  cases aligned : ReplayStore.alignedFloor database (cutoff memory retain) with
  | error failure =>
    refine Or.inl ⟨failure, rfl, ?_⟩
    rw [cutoff] at aligned
    unfold ReplayStore.enforceRetention
    rw [bounded]
    simp only [if_neg exceeded, aligned, bind, Except.bind]
  | ok newFloor =>
    refine Or.inr ⟨newFloor, rfl, ?_⟩
    obtain ⟨kept, place, found, floorNat⟩ := persisted.alignedFloor_eq_ok_iff.mp aligned
    rw [cutoff] at aligned
    by_cases unmoved : newFloor ≤ memory.retainedFloor
    · refine Or.inl ⟨unmoved, ?_⟩
      unfold ReplayStore.enforceRetention
      rw [bounded]
      simp only [if_neg exceeded, aligned, bind, Except.bind, if_pos unmoved, pure, Except.pure]
    refine Or.inr ⟨unmoved, ?_⟩
    obtain ⟨stored, read, same⟩ := persisted.metas.deletedFloor.read
    have deletedNat : (UInt64.ofNat log.deleted).toNat = log.deleted := persisted.deleted_fits
    obtain ⟨deletedEpisode, deletedOk, deletedSame⟩ :=
      persisted.episodeAtFloor (UInt64.ofNat log.deleted) "missing row index entry at deleted floor"
        "corrupt row key at deleted floor"
        (by rw [deletedNat]) (by rw [deletedNat]; exact log.deleted_begins)
    obtain ⟨floorEpisode, floorOk, floorSame⟩ := persisted.episodeAtFloor memory.retainedFloor
        "missing row index entry at retained floor"
        "corrupt row key at retained floor"
        (by rw [persisted.retained]; exact log.deleted_le_retained)
        (by rw [persisted.retained]; exact log.retained_begins)
    let retention : ReplayStore.RetentionWrite :=
      { batch :=
          ReplayStore.retentionBatch (UInt64.ofNat log.deleted)
            memory.retainedFloor newFloor deletedEpisode floorEpisode
        newFloor := newFloor }
    refine ⟨retention, ?_, rfl, ?_, ?_, UInt64.ofNat log.deleted,
      deletedEpisode, floorEpisode, deletedNat, ?_, ?_, rfl⟩
    · unfold ReplayStore.enforceRetention
      rw [bounded]
      simp only [if_neg exceeded, aligned, bind, Except.bind,
        if_neg unmoved, read, same, deletedOk, floorOk, pure, Except.pure,
        retention]
    · rw [UInt64.le_iff_toNat_le, persisted.retained] at unmoved
      exact Nat.le_of_not_le unmoved
    · exact ⟨place.1, by rw [floorNat]; exact locate_start found⟩
    · rw [deletedSame, deletedNat]
      rfl
    · rw [floorSame, persisted.retained]

theorem Persisted.retentionMoves {retention}
    (moved : memory.enforceRetention database = .ok (some retention)) :
    RetentionMoves log memory retention := by
  cases bounded : memory.retainRows with
  | none =>
    rw [ReplayStore.enforceRetention, bounded] at moved
    cases moved
  | some retain =>
    by_cases within : ReplayStore.saturatingSub memory.producedRows
          memory.retainedFloor ≤ ReplayStore.retentionThreshold retain
    · rw [ReplayStore.enforceRetention, bounded] at moved
      simp only [if_pos within] at moved
      cases moved
    rcases persisted.enforceRetention_cases bounded within with
      ⟨_, _, failed⟩ | ⟨_, _, ⟨_, kept⟩ | ⟨_, other, same, _, moves⟩⟩
    · rw [failed] at moved
      cases moved
    · rw [kept] at moved
      cases moved
    · rw [same] at moved
      cases moved
      exact moves

theorem Persisted.retain {retention} (moves : RetentionMoves log memory retention) :
    Persisted codec episodes (log.advance retention.newFloor.toNat moves.later moves.begins)
      { memory with retainedFloor := retention.newFloor }
      (database.write retention.batch) := by
  obtain ⟨deleted, deletedEpisode, floorEpisode, deletedNat, deletedSame,
    floorSame, batch⟩ := moves.batch
  have tables := persisted.tables
  rw [← deletedSame, ← deletedNat] at tables
  have ordered : deletedEpisode.toNat ≤ floorEpisode.toNat := by
    rw [deletedSame, floorSame]
    exact log.firstSegment_le_keptFrom_retained
  have floors : deleted.toNat ≤ memory.retainedFloor.toNat := by
    rw [deletedNat, persisted.retained]
    exact log.deleted_le_retained
  have written : StoredTables codec episodes floorEpisode.toNat
      memory.retainedFloor.toNat (database.write retention.batch) := by
    rw [batch]
    exact tables.writeRetention ordered floors
  rw [floorSame, persisted.retained] at written
  constructor
  · exact persisted.segments
  · exact persisted.appendable
  · exact written
  · exact persisted.nextEpisodeSeq
  · exact persisted.producedRows
  · rfl
  · have metas := persisted.metas
    rw [batch]
    unfold ReplayStore.retentionBatch
    constructor
    · refine Or.inr ?_
      have floor : UInt64.ofNat log.retained = memory.retainedFloor := by
        rw [← persisted.retained, UInt64.ofNat_toNat]
      simp only [RetainedLog.advance, floor]
      simp [Database.write_cons, Database.getMeta_apply]
    · refine Or.inr ?_
      simp [Database.write_cons, Database.getMeta_apply]
    · exact metas.consumedRows.of_getMeta (by simp [Database.write_cons, Database.getMeta_apply])
    · exact metas.completedGames.of_getMeta (by simp [Database.write_cons, Database.getMeta_apply])
    · exact metas.episodesStopped.of_getMeta (by simp [Database.write_cons, Database.getMeta_apply])
    · have stored := metas.dataMode
      simpa [StoredDataMode, Database.write_cons, Database.getMeta_apply] using stored

end

section

variable (persisted : Persisted codec episodes log memory database)
include persisted

theorem Persisted.bindContract {bound dataMode admitted batch}
    (accepted : memory.ensureContract dataMode admitted = .ok (batch, bound)) :
    Persisted codec episodes log bound (database.write batch) ∧
      (database.write batch).getMeta .schemaVersion = database.getMeta .schemaVersion := by
  obtain ⟨_, checked, accepted⟩ := ok_of_bind accepted
  obtain ⟨_, _, accepted⟩ := ok_of_bind accepted
  cases accepted
  have metas := persisted.metas
  cases stored : memory.dataMode with
  | none =>
    have batch : (if (none : Option ReplayDataMode).isNone = true then
        [BatchOp.putMeta .dataMode dataMode.bytes] else []) =
          [.putMeta .dataMode dataMode.bytes] := rfl
    rw [batch]
    refine ⟨?_, by rw [getMeta_write_single]; rfl⟩
    refine persisted.of_metas _ (get_write_single database _ _) rfl rfl rfl ?_
    constructor
    · exact metas.deletedFloor.write_other (by decide)
    · exact metas.retainedFloor.write_other (by decide)
    · exact metas.consumedRows.write_other (by decide)
    · exact metas.completedGames.write_other (by decide)
    · exact metas.episodesStopped.write_other (by decide)
    · rfl
  | some mode =>
    have same : mode = dataMode := by
      unfold ReplayStore.checkDataMode at checked
      rw [stored] at checked
      by_contra different
      simp [different] at checked
    have unchanged : { memory with dataMode := some dataMode } = memory := by
      rw [← same, ← stored]
    rw [unchanged]
    exact ⟨persisted, rfl⟩

theorem Persisted.consume (consumedRows : UInt64) :
    Persisted codec episodes log { memory with consumedRows := consumedRows } (database.write
          [.putMeta .consumedRows (encodeU64 consumedRows)]) ∧
      (database.write [.putMeta .consumedRows (encodeU64 consumedRows)]).getMeta
          .schemaVersion = database.getMeta .schemaVersion := by
  have metas := persisted.metas
  refine ⟨?_, by rw [getMeta_write_single]; rfl⟩
  refine persisted.of_metas _ (get_write_single database _ _) rfl rfl rfl ?_
  constructor
  · exact metas.deletedFloor.write_other (by decide)
  · exact metas.retainedFloor.write_other (by decide)
  · exact Counter.written database .consumedRows 0 consumedRows
  · exact metas.completedGames.write_other (by decide)
  · exact metas.episodesStopped.write_other (by decide)
  · rw [StoredDataMode, getMeta_write_single, if_neg (by decide)]
    exact metas.dataMode

/-- A value that is only written is part of nothing that is read back. -/
theorem Persisted.writeOnly {key} (only : WriteOnly key) (value : Bytes) :
    Persisted codec episodes log memory (database.write [.putMeta key value]) ∧
      (database.write [.putMeta key value]).getMeta .schemaVersion =
        database.getMeta .schemaVersion := by
  have unchanged : ∀ other, ¬ WriteOnly other →
      (database.write [.putMeta key value]).getMeta other = database.getMeta other := by
    intro other readBack
    have different : other ≠ key := fun same => readBack (same ▸ only)
    rw [getMeta_write_single, if_neg different]
  refine ⟨?_, unchanged _ (by simp [WriteOnly])⟩
  exact persisted.of_metas _ (get_write_single database _ _) rfl rfl rfl
    (persisted.metas.of_getMeta unchanged)

theorem Persisted.openWrite {op} (pending : op ∈ memory.openWrites) :
    Persisted codec episodes log memory (database.write [op]) ∧
      (database.write [op]).getMeta .schemaVersion = database.getMeta .schemaVersion := by
  have cases : op = .putMeta .nextEpisodeSeq (encodeU64 memory.nextEpisodeSeq) ∨
      op = .putMeta .producedRows (encodeU64 memory.producedRows) ∨
      op = .putMeta .completedGames (encodeU64 memory.completedGames) := by
    simpa [ReplayStore.openWrites] using pending
  rcases cases with rfl | rfl | rfl
  · exact persisted.writeOnly (Or.inl rfl) _
  · exact persisted.writeOnly (Or.inr rfl) _
  · have metas := persisted.metas
    refine ⟨?_, by rw [getMeta_write_single]; rfl⟩
    refine persisted.of_metas _ (get_write_single database _ _) rfl rfl rfl ?_
    constructor
    · exact metas.deletedFloor.write_other (by decide)
    · exact metas.retainedFloor.write_other (by decide)
    · exact metas.consumedRows.write_other (by decide)
    · exact Counter.written database .completedGames _ _
    · exact metas.episodesStopped.write_other (by decide)
    · rw [StoredDataMode, getMeta_write_single, if_neg (by decide)]
      exact metas.dataMode

end

end Steps

/-! ## One step -/

theorem SchemaHolds.of_ne_closed {memory world} (schema : SchemaHolds memory world)
    (running : world.phase ≠ .closed) :
    world.database.getMeta .schemaVersion = some (encodeU32 schemaVersion) := by
  rcases schema with present | ⟨closed, _⟩
  · exact present
  · exact absurd closed running

/-- A retention cycle deletes the rows below `deleted`. -/
def Cuts (world : World) (deleted : Nat) : Prop :=
  ∃ store retention, world.phase = .counted store ∧
    store.enforceRetention world.database = .ok (some retention) ∧
    deleted = store.retainedFloor.toNat

/-- A world that a step with `label` may lead to. -/
def Follows (codec : ReplayCodec) (episodes : List EpisodeAppend)
    (log : RetainedLog ReplayRow) (world : World) (label : Label)
    (next : World) : Prop :=
  ∃ nextLog nextMemory,
    Consistent codec (episodes ++ label.appended) nextLog nextMemory next ∧
      log.Moves (rowSegments label.appended) nextLog ∧
      (nextLog.deleted = log.deleted ∨
        label = .enforceRetention (.ok ()) ∧ Cuts world nextLog.deleted)

section Steps

variable {codec : ReplayCodec} {episodes : List EpisodeAppend}
  {log : RetainedLog ReplayRow} {memory : ReplayStore} {world next : World} {label : Label}

theorem Consistent.stay {updated} (sound : Consistent codec episodes log updated next)
    (nothing : label.appended = []) :
    Follows codec episodes log world label next := by
  refine ⟨log, updated, ?_, ?_, Or.inl rfl⟩
  · rw [nothing, append_nil]
    exact sound
  · rw [nothing]
    exact .stay log

theorem Persisted.floor_lt_produced {database}
    (persisted : Persisted codec episodes log memory database) :
    memory.retainedFloor.toNat < memory.producedRows.toNat ∨ memory.retainedFloor.toNat = 0 := by
  rw [persisted.retained, persisted.producedRows, ← persisted.totalLength_eq]
  rcases log.retained_begins with zero | ⟨index, found⟩
  · exact Or.inr zero
  · exact Or.inl (lt_totalLength_of_locate found)

variable {store : ReplayStore}

theorem Consistent.append {database more staged}
    (sound : Consistent codec episodes log memory ⟨database, .idle store⟩)
    (stagedFrom : StagedFrom codec store more staged) (appended : label.appended = more) :
    Follows codec episodes log world label
      ⟨database.write staged.batch, .appended store staged.counters⟩ := by
  have persisted := sound.persisted
  have same : store = memory := sound.phase
  have present := sound.schema.of_ne_closed (by simp)
  rw [same] at stagedFrom
  have written := persisted.append stagedFrom
  have schema := persisted.appended_schema stagedFrom
  rw [Follows, appended]
  refine ⟨_, _, ⟨written, ⟨by rw [same], ?_, ?_⟩, Or.inl ?_⟩,
    .append log _, Or.inl rfl⟩
  · rw [same, persisted.producedRows, written.producedRows, totalRows_append]
    exact Nat.le_add_right _ _
  · rw [same]
    exact persisted.floor_lt_produced
  · exact schema.trans present

theorem RetentionMoves.schema {retention} (moves : RetentionMoves log memory retention)
    (database : Database) :
    (database.write retention.batch).getMeta .schemaVersion = database.getMeta .schemaVersion := by
  obtain ⟨deleted, deletedEpisode, floorEpisode, _, _, _, batch⟩ := moves.batch
  rw [batch, ReplayStore.retentionBatch]
  simp [Database.write_cons, Database.getMeta_apply]

theorem PhaseHolds.withVisible {phase deleted consumedRows}
    (holds : PhaseHolds memory deleted phase) (current : phase.visible = some store) :
    PhaseHolds { memory with consumedRows := consumedRows } deleted
      (phase.withVisible { store with consumedRows := consumedRows }) := by
  cases phase with
  | closed => cases current
  | opening store pending => cases current
  | idle visible =>
    cases current
    rw [holds]
    rfl
  | appended visible counters =>
    cases current
    obtain ⟨same, bound⟩ := holds
    rw [← same] at bound ⊢
    exact ⟨rfl, bound⟩
  | counted visible =>
    cases current
    rw [holds]
    rfl
  | retired visible newFloor =>
    cases current
    obtain ⟨same, bound⟩ := holds
    rw [← same]
    exact ⟨rfl, bound⟩

theorem PhaseHolds.visible_consumed {phase deleted} (holds : PhaseHolds memory deleted phase)
    (current : phase.visible = some store) :
    store.consumedRows = memory.consumedRows ∧ phase ≠ .closed := by
  cases phase with
  | closed => cases current
  | opening store pending => cases current
  | idle visible | counted visible =>
    cases current
    exact ⟨by rw [holds], by simp⟩
  | appended visible counters =>
    cases current
    exact ⟨by rw [← holds.1]; rfl, by simp⟩
  | retired visible newFloor =>
    cases current
    exact ⟨by rw [← holds.1], by simp⟩

theorem Consistent.step (sound : Consistent codec episodes log memory world)
    (step : Step codec world label next) :
    Follows codec episodes log world label next := by
  have persisted := sound.persisted
  cases step with
  | openStore recovered =>
    rename_i database retainRows schema store
    obtain ⟨written, schemaOk, kept, present⟩ := sound.ensureSchema
    rw [ReplayStore.openWithRetention, schemaOk] at recovered
    simp only [bind, Except.bind, kept.load retainRows, pure, Except.pure,
      Except.ok.injEq, Prod.mk.injEq] at recovered
    obtain ⟨rfl, rfl⟩ := recovered
    have metas := kept.metas
    have opened := kept.of_metas { memory with retainRows := retainRows }
      (fun _ _ => rfl) rfl rfl rfl
      { deletedFloor := metas.deletedFloor
        retainedFloor := metas.retainedFloor
        consumedRows := metas.consumedRows
        completedGames := metas.completedGames
        episodesStopped := metas.episodesStopped
        dataMode := metas.dataMode }
    exact Consistent.stay ⟨opened, ⟨rfl, fun op member => member⟩, Or.inl present⟩ rfl
  | openMismatched failed =>
    obtain ⟨written, schemaOk, _⟩ := sound.ensureSchema
    rw [schemaOk] at failed
    cases failed
  | openUnreadable schemaOk failed =>
    obtain ⟨written, writtenOk, kept, _⟩ := sound.ensureSchema
    rw [writtenOk] at schemaOk
    cases schemaOk
    rw [kept.load] at failed
    cases failed
  | openWrite =>
    obtain ⟨same, writes⟩ := sound.phase
    have present := sound.schema.of_ne_closed (by simp)
    have written := persisted.openWrite (writes _ (mem_cons_self ..))
    have later := fun op member => writes op (mem_cons_of_mem _ member)
    exact Consistent.stay ⟨written.1, ⟨same, later⟩, Or.inl (written.2.trans present)⟩ rfl
  | opened =>
    have present := sound.schema.of_ne_closed (by simp)
    exact Consistent.stay ⟨persisted, sound.phase.1, Or.inl present⟩ rfl
  | ensureContract accepted =>
    rename_i database store bound dataMode admitted batch
    have same : store = memory := sound.phase
    have present := sound.schema.of_ne_closed (by simp)
    rw [same] at accepted
    have written := persisted.bindContract accepted
    exact Consistent.stay ⟨written.1, rfl, Or.inl (written.2.trans present)⟩ rfl
  | contractRefused refused => exact sound.stay rfl
  | appendEpisode accepted => exact sound.append (stagedFrom_of_appendEpisode accepted) rfl
  | episodeRefused refused => exact sound.stay rfl
  | appendEpisodePair accepted =>
    exact sound.append (stagedFrom_of_appendEpisodePair accepted) rfl
  | pairRefused refused => exact sound.stay rfl
  | publishCounters =>
    have present := sound.schema.of_ne_closed (by simp)
    exact Consistent.stay ⟨persisted, sound.phase.1, Or.inl present⟩ rfl
  | retentionIdle kept =>
    have present := sound.schema.of_ne_closed (by simp)
    exact Consistent.stay ⟨persisted, sound.phase, Or.inl present⟩ rfl
  | retentionWrite moved =>
    rename_i database store retention
    have same : store = memory := sound.phase
    have present := sound.schema.of_ne_closed (by simp)
    rw [same] at moved ⊢
    have moves := persisted.retentionMoves moved
    have written := persisted.retain moves
    have schema := moves.schema database
    refine ⟨_, _, ⟨?_, ⟨rfl, persisted.retained⟩,
      Or.inl (schema.trans present)⟩, .advance log _ moves.later
        moves.begins, Or.inr ⟨rfl, memory, retention, rfl, moved, persisted.retained.symm⟩⟩
    rw [show Label.appended (.enforceRetention (.ok ())) = [] from rfl, append_nil]
    exact written
  | retentionFailed failed =>
    have present := sound.schema.of_ne_closed (by simp)
    exact Consistent.stay ⟨persisted, sound.phase, Or.inl present⟩ rfl
  | publishFloor =>
    have present := sound.schema.of_ne_closed (by simp)
    exact Consistent.stay ⟨persisted, sound.phase.1, Or.inl present⟩ rfl
  | recordConsumed current recorded =>
    rename_i database phase store updated count batch
    obtain ⟨consumedRows, _, recorded⟩ := ok_of_bind recorded
    cases recorded
    have running := (sound.phase.visible_consumed current).2
    have present := sound.schema.of_ne_closed running
    have written := persisted.consume consumedRows
    exact Consistent.stay ⟨written.1, sound.phase.withVisible current,
        Or.inl (written.2.trans present)⟩ rfl
  | consumedRefused current refused => exact sound.stay rfl
  | crash =>
    refine Consistent.stay ⟨persisted, trivial, ?_⟩ rfl
    rcases sound.schema with present | ⟨_, empty⟩
    · exact Or.inl present
    · exact Or.inr ⟨rfl, empty⟩

theorem consistent_of_run {labels} (run : (storeSystem codec).Run World.initial labels world) :
    ∃ log memory, Consistent codec (appendedEpisodes labels) log memory world := by
  apply run.history fun labels world => ∃ log memory,
    Consistent codec (appendedEpisodes labels) log memory world
  · rintro earlier state label next ⟨log, memory, sound⟩ step
    obtain ⟨nextLog, nextMemory, kept, _, _⟩ := sound.step step
    refine ⟨nextLog, nextMemory, ?_⟩
    rw [appendedEpisodes, flatMap_append, flatMap_singleton]
    exact kept
  · exact ⟨_, _, consistent_initial codec⟩

end Steps

end GraphZero.Replay
