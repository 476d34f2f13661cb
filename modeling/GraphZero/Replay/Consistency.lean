import GraphZero.Replay.Recovery

/-!
# The store against the append-only log

A world is sound with the episodes that were appended, a retained log of
their rows, and the memory that opening the database would recover.  Every
step keeps a world sound, and moves the log by an append, by one cut, or
not at all.
-/

namespace GraphZero.Replay

open GraphZero.Foundation

/-! ## What is persisted -/

/-- The counters of the `meta` family against the memory they recover. -/
structure MetaHolds (memory : ReplayStore) (deleted : Nat) (database : Database) : Prop where
  deletedFloor : Counter database .deletedFloor 0 (UInt64.ofNat deleted)
  retainedFloor : Counter database .retainedFloor 0 memory.retainedFloor
  consumedRows : Counter database .consumedRows 0 memory.consumedRows
  completedGames : Counter database .completedGames memory.nextEpisodeSeq memory.completedGames
  episodesStopped : Counter database .episodesStopped 0 memory.episodesStopped
  dataMode : StoredDataMode database memory.dataMode

/-- The database after `episodes` were appended and the cuts of `log` made. -/
structure Persisted (codec : ReplayCodec) (episodes : List EpisodeAppend)
    (log : RetainedLog ReplayRow) (memory : ReplayStore)
    (database : Database) : Prop where
  segments : log.segments = rowSegments episodes
  appendable : ∀ episode ∈ episodes, Appendable codec episode
  tables : StoredTables codec episodes log.firstSegment log.deleted database
  nextEpisodeSeq : memory.nextEpisodeSeq.toNat = episodes.length
  producedRows : memory.producedRows.toNat = totalRows episodes
  retained : memory.retainedFloor.toNat = log.retained
  metas : MetaHolds memory log.deleted database

/-- The counters that the last `open` has still to write back or that memory
does not show yet. -/
def PhaseHolds (memory : ReplayStore) (deleted : Nat) : Phase → Prop
  | .closed => True
  | .opening store pending => store = memory ∧ ∀ op ∈ pending, op ∈ memory.openWrites
  | .idle store | .counted store => store = memory
  | .appended store counters =>
    store.publish counters = memory ∧ store.producedRows.toNat ≤ memory.producedRows.toNat ∧
      (store.retainedFloor.toNat < store.producedRows.toNat ∨ store.retainedFloor.toNat = 0)
  | .retired store newFloor =>
    { store with retainedFloor := newFloor } = memory ∧ store.retainedFloor.toNat = deleted

/-- The schema version is written before anything else. -/
def SchemaHolds (memory : ReplayStore) (world : World) : Prop :=
  world.database.getMeta .schemaVersion = some (encodeU32 schemaVersion) ∨ world.phase = .closed ∧
      world.database.getMeta .schemaVersion = none ∧
      memory.consumedRows = 0 ∧ memory.completedGames = 0

structure Consistent (codec : ReplayCodec) (episodes : List EpisodeAppend)
    (log : RetainedLog ReplayRow) (memory : ReplayStore) (world : World) :
    Prop where
  persisted : Persisted codec episodes log memory world.database
  phase : PhaseHolds memory log.deleted world.phase
  schema : SchemaHolds memory world

/-- The memory of a store that nothing was appended to. -/
def emptyMemory : ReplayStore where
  dataMode := none
  nextEpisodeSeq := 0
  completedGames := 0
  episodesStopped := 0
  producedRows := 0
  consumedRows := 0
  retainedFloor := 0
  retainRows := none

theorem consistent_initial (codec : ReplayCodec) :
    Consistent codec [] RetainedLog.empty emptyMemory World.initial where
  persisted :=
    { segments := rfl
      appendable := by simp
      tables := storedTables_empty codec
      nextEpisodeSeq := rfl
      producedRows := rfl
      retained := rfl
      metas :=
        { deletedFloor := Or.inl ⟨Database.getMeta_empty _, rfl⟩
          retainedFloor := Or.inl ⟨Database.getMeta_empty _, rfl⟩
          consumedRows := Or.inl ⟨Database.getMeta_empty _, rfl⟩
          completedGames := Or.inl ⟨Database.getMeta_empty _, rfl⟩
          episodesStopped := Or.inl ⟨Database.getMeta_empty _, rfl⟩
          dataMode := Database.getMeta_empty _ } }
  phase := trivial
  schema := Or.inr ⟨rfl, Database.getMeta_empty _, rfl, rfl⟩

/-- Two counters are written for other readers and never read back. -/
def WriteOnly (key : MetaKey) : Prop :=
  key = .nextEpisodeSeq ∨ key = .producedRows

theorem MetaHolds.of_getMeta {memory deleted database other}
    (holds : MetaHolds memory deleted database)
    (same : ∀ key, ¬ WriteOnly key → other.getMeta key = database.getMeta key) :
    MetaHolds memory deleted other where
  deletedFloor := holds.deletedFloor.of_getMeta (same _ (by simp [WriteOnly]))
  retainedFloor :=
    holds.retainedFloor.of_getMeta (same _ (by simp [WriteOnly]))
  consumedRows := holds.consumedRows.of_getMeta (same _ (by simp [WriteOnly]))
  completedGames :=
    holds.completedGames.of_getMeta (same _ (by simp [WriteOnly]))
  episodesStopped :=
    holds.episodesStopped.of_getMeta (same _ (by simp [WriteOnly]))
  dataMode := by
    rw [StoredDataMode, same _ (by simp [WriteOnly])]
    exact holds.dataMode

theorem StoredTables.of_get {codec episodes first deleted database other}
    (tables : StoredTables codec episodes first deleted database)
    (same : ∀ family key, other.get family key = database.get family key) :
    StoredTables codec episodes first deleted other where
  episodeFamily key value := by
    rw [same]
    exact tables.episodeFamily key value
  rowFamily key value := by
    rw [same]
    exact tables.rowFamily key value
  rowIndexFamily key value := by
    rw [same]
    exact tables.rowIndexFamily key value

section Persisted

variable {codec : ReplayCodec} {episodes : List EpisodeAppend}
  {log : RetainedLog ReplayRow} {memory : ReplayStore} {database other : Database}

section

variable (persisted : Persisted codec episodes log memory database)
include persisted

theorem Persisted.totalLength_eq : totalLength log.segments = totalRows episodes := by
  rw [persisted.segments, totalRows]

theorem Persisted.locate_eq (number : Nat) :
    locate log.segments number = locate (rowSegments episodes) number := by
  rw [persisted.segments]

theorem Persisted.of_metas (updated : ReplayStore)
    (same : ∀ family key, other.get family key = database.get family key)
    (nextEpisodeSeq : updated.nextEpisodeSeq = memory.nextEpisodeSeq)
    (producedRows : updated.producedRows = memory.producedRows)
    (retainedFloor : updated.retainedFloor = memory.retainedFloor)
    (metas : MetaHolds updated log.deleted other) :
    Persisted codec episodes log updated other where
  segments := persisted.segments
  appendable := persisted.appendable
  tables := persisted.tables.of_get same
  nextEpisodeSeq := by rw [nextEpisodeSeq, persisted.nextEpisodeSeq]
  producedRows := by rw [producedRows, persisted.producedRows]
  retained := by rw [retainedFloor, persisted.retained]
  metas := metas

theorem Persisted.row_of_locate {number place}
    (found : locate (rowSegments episodes) number = some place) :
    ∃ (seq : UInt64) (episode : EpisodeAppend) (row : ReplayRow),
      place = (seq.toNat, row.stepIndex.toNat) ∧ episodes[seq.toNat]? = some episode ∧
        episode.rows[row.stepIndex.toNat]? = some row := by
  obtain ⟨segment, present, below, _⟩ := locate_eq_some_iff.mp found
  rw [rowSegments, List.getElem?_map, Option.map_eq_some_iff] at present
  obtain ⟨episode, episodePresent, rfl⟩ := present
  have inLog := lt_length_of_getElem? episodePresent
  have bound := memory.nextEpisodeSeq.toNat_lt
  rw [persisted.nextEpisodeSeq] at bound
  have seqNat : (UInt64.ofNat place.1).toNat = place.1 :=
    UInt64.toNat_ofNat_of_lt' (Nat.lt_trans inLog bound)
  have member : episode ∈ episodes := List.mem_of_getElem? episodePresent
  have rowPresent : episode.rows[place.2]? = some episode.rows[place.2] :=
    List.getElem?_eq_getElem below
  have numbered := (persisted.appendable episode member).numbered place.2 _ rowPresent
  rw [Nat.zero_add] at numbered
  refine ⟨UInt64.ofNat place.1, episode, episode.rows[place.2], ?_, ?_, ?_⟩
  · rw [seqNat, numbered]
  · rw [seqNat, episodePresent]
  · rw [numbered, rowPresent]

theorem Persisted.rowIndex_of_locate {seq place} (kept : log.deleted ≤ seq.toNat)
    (found : locate (rowSegments episodes) seq.toNat = some place) :
    ∃ (episodeSeq : UInt64) (step : UInt32),
      place = (episodeSeq.toNat, step.toNat) ∧ database.get .rowIndex (rowIndexKey seq) =
          some (rowKey episodeSeq step) := by
  obtain ⟨episodeSeq, episode, row, same, _⟩ := persisted.row_of_locate found
  refine ⟨episodeSeq, row.stepIndex, same, ?_⟩
  apply (persisted.tables.rowIndexFamily _ _).mpr
  exact ⟨seq, episodeSeq, row.stepIndex, kept, by rw [found, same], rfl, rfl⟩

theorem Persisted.rowIndex_isNone {seq}
    (outside : seq.toNat < log.deleted ∨ totalRows episodes ≤ seq.toNat) :
    database.get .rowIndex (rowIndexKey seq) = none := by
  cases found : database.get .rowIndex (rowIndexKey seq) with
  | none => rfl
  | some value =>
    obtain ⟨other, episodeSeq, step, kept, place, same, _⟩ :=
      (persisted.tables.rowIndexFamily _ _).mp found
    have seqSame : seq = other := rowIndexKey_injective same
    have below := lt_totalLength_of_locate place
    rw [← totalRows] at below
    rw [seqSame] at outside
    omega

end

/-! ## Reopening -/

section

variable (persisted : Persisted codec episodes log memory database)
include persisted

theorem Persisted.recoverNextEpisodeSeq :
    recoverNextEpisodeSeq database = .ok memory.nextEpisodeSeq := by
  have fits := memory.nextEpisodeSeq.toNat_lt_size
  have count : memory.nextEpisodeSeq = UInt64.ofNat episodes.length := by
    rw [← persisted.nextEpisodeSeq, UInt64.ofNat_toNat]
  rw [persisted.nextEpisodeSeq] at fits
  rw [count]
  apply recoverNextSeq_eq fits
  · intro key value found
    obtain ⟨seq, episode, _, present, same, _⟩ :=
      (persisted.tables.episodeFamily key value).mp found
    exact ⟨seq, lt_length_of_getElem? present, same⟩
  intro pos
  have lastNat : (UInt64.ofNat (episodes.length - 1)).toNat =
      episodes.length - 1 := UInt64.toNat_ofNat_of_lt' (by omega)
  have lastPresent : episodes[episodes.length - 1]? = some episodes[episodes.length - 1] :=
    List.getElem?_eq_getElem (by omega)
  obtain ⟨bytes, encoded⟩ := (persisted.appendable _ (List.mem_of_getElem? lastPresent)).record
  have first := keptFrom_lt_length log.deleted_begins
    (by rw [persisted.segments, length_rowSegments]; exact pos)
  rw [persisted.segments, length_rowSegments, ← persisted.segments] at first
  refine ⟨bytes, (persisted.tables.episodeFamily _ _).mpr ?_⟩
  refine ⟨_, episodes[episodes.length - 1], ?_, ?_, rfl, encoded⟩
  · rw [lastNat]
    exact Nat.le_sub_one_of_lt first
  · rw [lastNat, lastPresent]

theorem Persisted.recoverNextRowSeq : recoverNextRowSeq database = .ok memory.producedRows := by
  have fits := memory.producedRows.toNat_lt_size
  have count : memory.producedRows = UInt64.ofNat (totalRows episodes) := by
    rw [← persisted.producedRows, UInt64.ofNat_toNat]
  rw [persisted.producedRows] at fits
  rw [count]
  apply recoverNextSeq_eq fits
  · intro key value found
    obtain ⟨seq, episodeSeq, step, _, place, same, _⟩ :=
      (persisted.tables.rowIndexFamily key value).mp found
    exact ⟨seq, lt_totalLength_of_locate place, same⟩
  intro pos
  have lastNat : (UInt64.ofNat (totalRows episodes - 1)).toNat =
      totalRows episodes - 1 := UInt64.toNat_ofNat_of_lt' (by omega)
  have belowTotal : totalRows episodes - 1 < totalLength (rowSegments episodes) := by
    rw [← totalRows]
    omega
  obtain ⟨place, found⟩ := exists_locate belowTotal
  have deleted := log.deleted_begins.lt_totalLength (by rw [persisted.totalLength_eq]; exact pos)
  rw [persisted.totalLength_eq] at deleted
  obtain ⟨episodeSeq, step, _, present⟩ := persisted.rowIndex_of_locate
    (by rw [lastNat]; omega) (by rw [lastNat]; exact found)
  exact ⟨_, present⟩

theorem Persisted.load (retainRows : Option UInt64) :
    ReplayStore.load database retainRows = .ok { memory with retainRows := retainRows } := by
  obtain ⟨consumed, consumedRead, consumedSame⟩ := persisted.metas.consumedRows.read
  obtain ⟨completed, completedRead, completedSame⟩ := persisted.metas.completedGames.read
  obtain ⟨stopped, stoppedRead, stoppedSame⟩ := persisted.metas.episodesStopped.read
  obtain ⟨floor, floorRead, floorSame⟩ := persisted.metas.retainedFloor.read
  rw [ReplayStore.load, persisted.recoverNextEpisodeSeq,
    persisted.recoverNextRowSeq, consumedRead, completedRead, stoppedRead,
    floorRead, persisted.metas.dataMode.read]
  simp only [bind, Except.bind, pure, Except.pure, consumedSame,
    completedSame, stoppedSame, floorSame]

end

end Persisted

section

variable {codec : ReplayCodec} {episodes : List EpisodeAppend} {log : RetainedLog ReplayRow}
  {memory : ReplayStore} {world : World} (sound : Consistent codec episodes log memory world)
include sound

theorem Consistent.ensureSchema : ∃ schema, ensureSchema world.database = .ok schema ∧
      Persisted codec episodes log memory (world.database.write schema) ∧
      (world.database.write schema).getMeta .schemaVersion = some (encodeU32 schemaVersion) := by
  have persisted := sound.persisted
  rcases sound.schema with present | ⟨_, missing, consumed, completed⟩
  · refine ⟨[], ?_, persisted, present⟩
    rw [GraphZero.Replay.ensureSchema, present]
    simp
  refine ⟨_, by rw [GraphZero.Replay.ensureSchema, missing], ?_, ?_⟩
  · apply persisted.of_metas memory _ rfl rfl rfl
    · have metas := persisted.metas
      constructor
      · exact metas.deletedFloor.of_getMeta (by simp [Database.write_cons, Database.getMeta_apply])
      · exact metas.retainedFloor.of_getMeta (by simp [Database.write_cons, Database.getMeta_apply])
      · refine Or.inr ?_
        rw [consumed]
        simp [Database.write_cons, Database.getMeta_apply]
      · refine Or.inr ?_
        rw [completed]
        simp [Database.write_cons, Database.getMeta_apply]
      · exact metas.episodesStopped.of_getMeta
          (by simp [Database.write_cons, Database.getMeta_apply])
      · rw [StoredDataMode, ← metas.dataMode]
        simp [Database.write_cons, Database.getMeta_apply]
    · intro family key
      simp [Database.write_cons, Database.get_apply]
  · simp [Database.write_cons, Database.getMeta_apply]

theorem Consistent.openWithRetention (retainRows : Option UInt64) :
    ∃ schema, ReplayStore.openWithRetention world.database retainRows =
        .ok (schema, { memory with retainRows := retainRows }) := by
  obtain ⟨schema, schemaOk, persisted, _⟩ := sound.ensureSchema
  refine ⟨schema, ?_⟩
  rw [ReplayStore.openWithRetention, schemaOk]
  simp only [bind, Except.bind, persisted.load, pure, Except.pure]

end

end GraphZero.Replay
