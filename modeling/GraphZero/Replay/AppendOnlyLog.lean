import GraphZero.Replay.StoreSteps

/-!
# The replay store is an append-only log

Seen from outside, the store is the log of everything that was appended, less
a prefix of whole episodes.  This holds in every world of every run, also
while a process opens the database, between the writes of an append, and after
a crash.  Only a retention bound so large that its threshold wraps around
makes a retention cycle fail.
-/

namespace GraphZero.Replay

open GraphZero.Foundation List

def readFloor (database : Database) (key : MetaKey) : ReplayResult Nat :=
  (readMetaU64 database key).map fun stored => (stored.getD 0).toNat

/-- The record and every row of the episode are stored. -/
structure EpisodeStored (codec : ReplayCodec) (database : Database)
    (seq : UInt64) (episode : EpisodeAppend) : Prop where
  record : ∃ bytes, codec.encodeEpisode episode.record = .ok bytes ∧
    database.get .episodes (episodeKey seq) = some bytes
  rows : ∀ row ∈ episode.rows, ∃ bytes, codec.encodeRow row = .ok bytes ∧
    database.get .rows (rowKey seq row.stepIndex) = some bytes

/-- Neither the record nor any row of the episode is stored. -/
structure EpisodeGone (database : Database) (seq : UInt64) : Prop where
  record : database.get .episodes (episodeKey seq) = none
  rows : ∀ step, database.get .rows (rowKey seq step) = none

/-- A row sequence resolves to where it was appended, and to its row. -/
structure Resolves (codec : ReplayCodec) (episodes : List EpisodeAppend)
    (database : Database) (seq episodeSeq : UInt64) (row : ReplayRow) :
    Prop where
  appendedAs : locate (rowSegments episodes) seq.toNat =
    some (episodeSeq.toNat, row.stepIndex.toNat)
  inEpisode : ∃ episode, episodes[episodeSeq.toNat]? = some episode ∧
    episode.rows[row.stepIndex.toNat]? = some row
  index : database.get .rowIndex (rowIndexKey seq) = some (rowKey episodeSeq row.stepIndex)
  stored : ∃ bytes, codec.encodeRow row = .ok bytes ∧
    database.get .rows (rowKey episodeSeq row.stepIndex) = some bytes

/-- What a database says about the appended `episodes` once the rows below
`deleted` are gone. -/
structure LogView (codec : ReplayCodec) (episodes : List EpisodeAppend)
    (deleted retained : Nat) (database : Database) : Prop where
  deletedFloor : readFloor database .deletedFloor = .ok deleted
  retainedFloor : readFloor database .retainedFloor = .ok retained
  ordered : deleted ≤ retained ∧ retained ≤ totalRows episodes
  deletedFirst : 0 < totalRows episodes →
    ∃ episodeSeq, locate (rowSegments episodes) deleted = some (episodeSeq, 0)
  retainedFirst : 0 < totalRows episodes → ∃ episodeSeq,
      locate (rowSegments episodes) retained = some (episodeSeq, 0)
  keys : ∀ key,
    (∃ value, database.get .rowIndex key = some value) ↔ ∃ seq : UInt64, deleted ≤ seq.toNat ∧
        seq.toNat < totalRows episodes ∧ key = rowIndexKey seq
  resolves : ∀ seq : UInt64,
    deleted ≤ seq.toNat → seq.toNat < totalRows episodes →
      ∃ episodeSeq row, Resolves codec episodes database seq episodeSeq row
  whole : ∀ (seq : UInt64) episode, episodes[seq.toNat]? = some episode →
    EpisodeStored codec database seq episode ∨ EpisodeGone database seq

/-- Opening recovers the counters of the log, and the memory that the last
process had, whatever was under way. -/
structure Recovers (episodes : List EpisodeAppend) (retained : Nat) (world : World) : Prop where
  counters : ∀ retainRows, ∃ schema memory,
    ReplayStore.openWithRetention world.database retainRows = .ok (schema, memory) ∧
      memory.nextEpisodeSeq.toNat = episodes.length ∧
      memory.producedRows.toNat = totalRows episodes ∧
      memory.retainedFloor.toNat = retained
  memory : ∀ store, world.phase.settled = some store → ∀ retainRows, ∃ schema,
      ReplayStore.openWithRetention world.database retainRows =
        .ok (schema, { store with retainRows := retainRows })

/-- A retention bound is at least one row. -/
def Label.RetainsRows : Label → Prop
  | .openStore (some retain) _ => 1 ≤ retain.toNat
  | _ => True

/-- The threshold of a quarter more than the bound is a 64-bit number. -/
def Label.ThresholdFits : Label → Prop
  | .openStore (some retain) _ => retain.toNat + retain.toNat / 4 < UInt64.size
  | _ => True

section View

variable {codec : ReplayCodec} {episodes : List EpisodeAppend}
  {log : RetainedLog ReplayRow} {memory : ReplayStore} {database : Database}

theorem Persisted.floor_of_counter {key value} (counter : Counter database key 0 value) :
    readFloor database key = .ok value.toNat := by
  obtain ⟨stored, read, same⟩ := counter.read
  rw [readFloor, read, ← same]
  rfl

section

variable (persisted : Persisted codec episodes log memory database)
include persisted

variable {seq : UInt64} {episode : EpisodeAppend}

theorem Persisted.row_stored {row} {position : Nat} (kept : log.firstSegment ≤ seq.toNat)
    (present : episodes[seq.toNat]? = some episode) (inRows : episode.rows[position]? = some row) :
    ∃ bytes, codec.encodeRow row = .ok bytes ∧
      database.get .rows (rowKey seq row.stepIndex) = some bytes := by
  have appendable := persisted.appendable episode (mem_of_getElem? present)
  obtain ⟨bytes, encoded⟩ := appendable.rows row (mem_of_getElem? inRows)
  have numbered := appendable.numbered position row inRows
  rw [Nat.zero_add] at numbered
  refine ⟨bytes, encoded, (persisted.tables.rowFamily _ _).mpr ?_⟩
  exact ⟨seq, row.stepIndex, episode, row, kept, present, by rw [numbered, inRows], rfl, encoded⟩

theorem Persisted.resolves (kept : log.deleted ≤ seq.toNat)
    (below : seq.toNat < totalRows episodes) :
    ∃ episodeSeq row, Resolves codec episodes database seq episodeSeq row := by
  obtain ⟨place, found⟩ := exists_locate below
  obtain ⟨episodeSeq, episode, row, rfl, present, inRows⟩ := persisted.row_of_locate found
  have inLog : locate log.segments seq.toNat = some (episodeSeq.toNat, row.stepIndex.toNat) := by
    rw [persisted.locate_eq, found]
  have segment := (log.firstSegment_le_iff inLog).mpr kept
  refine ⟨episodeSeq, row, found, ⟨episode, present, inRows⟩, ?_,
    persisted.row_stored segment present inRows⟩
  apply (persisted.tables.rowIndexFamily _ _).mpr
  exact ⟨seq, episodeSeq, row.stepIndex, kept, found, rfl, rfl⟩

theorem Persisted.episodeStored (kept : log.firstSegment ≤ seq.toNat)
    (present : episodes[seq.toNat]? = some episode) :
    EpisodeStored codec database seq episode := by
  have appendable := persisted.appendable episode (mem_of_getElem? present)
  constructor
  · obtain ⟨bytes, encoded⟩ := appendable.record
    refine ⟨bytes, encoded, (persisted.tables.episodeFamily _ _).mpr ?_⟩
    exact ⟨seq, episode, kept, present, rfl, encoded⟩
  · intro row member
    obtain ⟨position, inRows⟩ := getElem?_of_mem member
    exact persisted.row_stored kept present inRows

theorem Persisted.whole (present : episodes[seq.toNat]? = some episode) :
    EpisodeStored codec database seq episode ∨ EpisodeGone database seq := by
  by_cases kept : log.firstSegment ≤ seq.toNat
  · exact Or.inl (persisted.episodeStored kept present)
  right
  constructor
  · cases found : database.get .episodes (episodeKey seq) with
    | none => rfl
    | some bytes =>
      obtain ⟨other, _, later, _, same, _⟩ := (persisted.tables.episodeFamily _ _).mp found
      rw [episodeKey_injective same] at kept
      exact absurd later kept
  · intro step
    cases found : database.get .rows (rowKey seq step) with
    | none => rfl
    | some bytes =>
      obtain ⟨other, _, _, _, later, _, _, same, _⟩ := (persisted.tables.rowFamily _ _).mp found
      rw [(rowKey_injective same).1] at kept
      exact absurd later kept

theorem Persisted.logView : LogView codec episodes log.deleted log.retained database := by
  have begins : ∀ {number : Nat}, BeginsSegment log.segments number → 0 < totalRows episodes →
        ∃ episodeSeq, locate (rowSegments episodes) number = some (episodeSeq, 0) := by
    intro number begins pos
    rw [← persisted.segments]
    exact begins.exists_locate (by rw [persisted.totalLength_eq]; exact pos)
  constructor
  · have read := Persisted.floor_of_counter persisted.metas.deletedFloor
    rw [persisted.deleted_fits] at read
    exact read
  · have read := Persisted.floor_of_counter persisted.metas.retainedFloor
    rw [persisted.retained] at read
    exact read
  · have bound := log.retained_le_total
    rw [persisted.totalLength_eq] at bound
    exact ⟨log.deleted_le_retained, bound⟩
  · exact begins log.deleted_begins
  · exact begins log.retained_begins
  · intro key
    constructor
    · rintro ⟨value, found⟩
      obtain ⟨seq, episodeSeq, step, kept, place, same, _⟩ :=
        (persisted.tables.rowIndexFamily _ _).mp found
      exact ⟨seq, kept, lt_totalLength_of_locate place, same⟩
    · rintro ⟨seq, kept, below, rfl⟩
      obtain ⟨episodeSeq, row, resolved⟩ := persisted.resolves kept below
      exact ⟨_, resolved.index⟩
  · intro seq kept below
    exact persisted.resolves kept below
  · intro seq episode present
    exact persisted.whole present

end

theorem PhaseHolds.settled {phase deleted store} (holds : PhaseHolds memory deleted phase)
    (current : phase.settled = some store) : store = memory := by
  cases phase with
  | closed => cases current
  | opening opened pending =>
    cases current
    exact holds.1
  | idle visible | counted visible =>
    cases current
    exact holds
  | appended visible counters | retired visible newFloor =>
    cases current
    exact holds.1

theorem Consistent.recovers {world} (sound : Consistent codec episodes log memory world) :
    Recovers episodes log.retained world := by
  have persisted := sound.persisted
  constructor
  · intro retainRows
    obtain ⟨schema, opened⟩ := sound.openWithRetention retainRows
    exact ⟨schema, _, opened, persisted.nextEpisodeSeq, persisted.producedRows, persisted.retained⟩
  · intro store current retainRows
    rw [sound.phase.settled current]
    exact sound.openWithRetention retainRows

/-! ## Retention does not fail -/

theorem Persisted.enforceRetention_ok (persisted : Persisted codec episodes log memory database)
    (fits : ∀ retain, memory.retainRows = some retain → 1 ≤ retain.toNat ∧
        retain.toNat + retain.toNat / 4 < UInt64.size) :
    ∃ result, memory.enforceRetention database = .ok result := by
  cases bounded : memory.retainRows with
  | none =>
    refine ⟨none, ?_⟩
    rw [ReplayStore.enforceRetention, bounded]
  | some retain =>
    obtain ⟨pos, threshold⟩ := fits retain bounded
    by_cases within : ReplayStore.saturatingSub memory.producedRows
          memory.retainedFloor ≤ ReplayStore.retentionThreshold retain
    · refine ⟨none, ?_⟩
      rw [ReplayStore.enforceRetention, bounded]
      simp only [if_pos within]
    have quarter : (retain / 4).toNat = retain.toNat / 4 := by
      rfl
    have thresholdNat : (ReplayStore.retentionThreshold retain).toNat =
        retain.toNat + retain.toNat / 4 := by
      exact Nat.mod_eq_of_lt threshold
    have bound := log.retained_le_total
    rw [persisted.totalLength_eq, ← persisted.producedRows, ← persisted.retained] at bound
    have difference : (ReplayStore.saturatingSub memory.producedRows memory.retainedFloor).toNat =
            memory.producedRows.toNat - memory.retainedFloor.toNat := by
      rw [ReplayStore.saturatingSub, if_neg (by
        rw [UInt64.lt_iff_toNat_lt]
        omega)]
      exact UInt64.toNat_sub_of_le _ _ (UInt64.le_iff_toNat_le.mpr bound)
    have past := within
    rw [UInt64.le_iff_toNat_le, thresholdNat, difference] at past
    have cutoffNat : (cutoff memory retain).toNat = memory.producedRows.toNat - retain.toNat :=
      UInt64.toNat_sub_of_le _ _ (by
        rw [UInt64.le_iff_toNat_le]
        omega)
    have retained := persisted.retained
    have ordered := log.deleted_le_retained
    have inLog : (cutoff memory retain).toNat < totalLength log.segments := by
      rw [persisted.totalLength_eq, ← persisted.producedRows, cutoffNat]
      omega
    have kept : log.deleted ≤ (cutoff memory retain).toNat := by
      omega
    rcases persisted.enforceRetention_cases bounded within with
      ⟨failure, failed, _⟩ | ⟨_, _, ⟨_, unmoved⟩ | ⟨_, _, moved, _⟩⟩
    · obtain ⟨place, found⟩ := exists_locate inLog
      have small : (cutoff memory retain).toNat - place.2 < UInt64.size :=
        Nat.lt_of_le_of_lt (Nat.sub_le _ _) (cutoff memory retain).toNat_lt_size
      have aligned := persisted.alignedFloor_eq_ok_iff.mpr
        ⟨kept, place, found, UInt64.toNat_ofNat_of_lt' small⟩
      rw [failed] at aligned
      cases aligned
    · exact ⟨_, unmoved⟩
    · exact ⟨_, moved⟩

end View

theorem Step.retainRows {codec world next label store} (step : Step codec world label next)
    (running : next.phase.settled = some store) :
    label = .openStore store.retainRows (.ok ()) ∨ ∃ before, world.phase.settled = some before ∧
        before.retainRows = store.retainRows := by
  cases step with
  | openStore recovered =>
    left
    cases running
    obtain ⟨_, _, recovered⟩ := ok_of_bind recovered
    obtain ⟨_, loaded, result⟩ := ok_of_bind recovered
    cases result
    obtain ⟨_, _, loaded⟩ := ok_of_bind loaded
    obtain ⟨_, _, loaded⟩ := ok_of_bind loaded
    obtain ⟨_, _, loaded⟩ := ok_of_bind loaded
    obtain ⟨_, _, loaded⟩ := ok_of_bind loaded
    obtain ⟨_, _, loaded⟩ := ok_of_bind loaded
    obtain ⟨_, _, loaded⟩ := ok_of_bind loaded
    obtain ⟨_, _, loaded⟩ := ok_of_bind loaded
    cases loaded
    rfl
  | openMismatched | openUnreadable | crash => cases running
  | openWrite | opened | contractRefused | episodeRefused | pairRefused
  | publishCounters | retentionIdle | retentionFailed | publishFloor
  | consumedRefused => exact Or.inr ⟨_, running, rfl⟩
  | ensureContract accepted =>
    cases running
    obtain ⟨_, _, accepted⟩ := ok_of_bind accepted
    obtain ⟨_, _, accepted⟩ := ok_of_bind accepted
    cases accepted
    exact Or.inr ⟨_, rfl, rfl⟩
  | appendEpisode | appendEpisodePair | retentionWrite =>
    cases running
    exact Or.inr ⟨_, rfl, rfl⟩
  | recordConsumed current recorded =>
    rename_i database phase visible updated count batch
    obtain ⟨_, _, recorded⟩ := ok_of_bind recorded
    cases recorded
    right
    cases phase with
    | closed | opening => cases current
    | idle | counted | appended | retired =>
      cases current
      cases running
      exact ⟨_, rfl, rfl⟩

theorem retainRows_of_run {codec labels world store}
    (run : (storeSystem codec).Run World.initial labels world)
    (running : world.phase.settled = some store) :
    .openStore store.retainRows (.ok ()) ∈ labels := by
  have bounded : ∀ store, world.phase.settled = some store →
      .openStore store.retainRows (.ok ()) ∈ labels := by
    apply run.history fun labels world =>
      ∀ store, world.phase.settled = some store → Label.openStore store.retainRows (.ok ()) ∈ labels
    · intro earlier state label next ih step store running
      rcases Step.retainRows step running with opened | ⟨before, earlierRuns, same⟩
      · rw [opened]
        simp
      · rw [← same]
        exact mem_append_left _ (ih before earlierRuns)
    · intro store running
      cases running
  exact bounded store running

/-- In every run whose retention thresholds fit, the store is the log of what
it appended: the row index, the rows and the episodes hold whole episodes from
the deletion floor on, a retention cycle never fails, and opening recovers the
counters and the memory. -/
theorem store_is_appendOnlyLog {codec : ReplayCodec} {labels : List Label} {world : World}
    (run : (storeSystem codec).Run World.initial labels world)
    (retains : ∀ label ∈ labels, label.RetainsRows)
    (fits : ∀ label ∈ labels, label.ThresholdFits) :
    ∃ deleted retained,
      LogView codec (appendedEpisodes labels) deleted retained world.database ∧
        Recovers (appendedEpisodes labels) retained world ∧
        ∀ store, world.phase = .counted store →
          ∃ result, store.enforceRetention world.database = .ok result := by
  obtain ⟨log, memory, sound⟩ := consistent_of_run run
  refine ⟨log.deleted, log.retained, sound.persisted.logView, sound.recovers, ?_⟩
  intro store counted
  have running : world.phase.settled = some store := by
    rw [counted]
    rfl
  have same : store = memory := sound.phase.settled running
  have opened := retainRows_of_run run running
  rw [same]
  apply sound.persisted.enforceRetention_ok
  intro retain bounded
  rw [same, bounded] at opened
  exact ⟨retains _ opened, fits _ opened⟩

/-! ## A bound whose threshold wraps around -/

namespace Sample

def kindByte : ReplayRowKind → UInt8
  | .decision => 0
  | .terminal => 1

def decodeRow : Bytes → ReplayResult ReplayRow
  | [] => storage "unexpected end"
  | kind :: rest =>
    if kind = 0 then
      .ok ⟨.decision, UInt32.ofNat (ofBeBytes (rest.take 4)), rest.drop 4⟩
    else
      .ok ⟨.terminal, UInt32.ofNat (ofBeBytes (rest.take 4)), rest.drop 4⟩

def encodeRow (row : ReplayRow) : Bytes :=
  kindByte row.kind :: encodeU32 row.stepIndex ++ row.content

theorem decodeRow_encodeRow (row : ReplayRow) : decodeRow (encodeRow row) = .ok row := by
  have front : (encodeU32 row.stepIndex ++ row.content).take 4 =
      encodeU32 row.stepIndex := take_left' (length_toBeBytes 4 _)
  have back : (encodeU32 row.stepIndex ++ row.content).drop 4 =
      row.content := drop_left' (length_toBeBytes 4 _)
  rw [encodeRow, cons_append, decodeRow, front, back, encodeU32, ofBeBytes_four]
  cases row with
  | mk kind stepIndex content =>
    cases kind with
    | decision => rfl
    | terminal => rfl

/-- Kind, step index and content, one after the other. -/
def codec : ReplayCodec where
  encodeEpisode record := .ok record.content
  encodeRow row := .ok (encodeRow row)
  decodeRow := decodeRow
  storedRow := id
  decodeRow_encodeRow := by
    intro row bytes encoded
    cases encoded
    exact decodeRow_encodeRow row

def checks : ContentChecks where
  engineIdentity _ := .ok ()
  record _ _ := .ok ()
  featureRows _ := .ok ()
  featureRow _ := .ok ()
  decisionRow _ _ _ _ := .ok ()
  terminalRow _ _ _ _ := .ok ()
  symmetricMetrics _ _ := .ok ()

def episode : EpisodeAppend where
  record := { steps := [[1]], stopped := false, rowCount := 1, content := [2] }
  rows := [⟨.decision, 0, [3]⟩]

def openLabels (retain : UInt64) : List Label :=
  [.openStore (some retain) (.ok ()), .openWrite, .openWrite, .openWrite, .opened]

/-- The store after opening a new database. -/
def openedStore (retain : UInt64) : ReplayStore :=
  { emptyMemory with retainRows := some retain }

def openedDatabase : Database :=
  Database.empty.write [.putMeta .schemaVersion (encodeU32 schemaVersion),
     .putMeta .nextEpisodeSeq (encodeU64 0),
     .putMeta .completedGames (encodeU64 0),
     .putMeta .producedRows (encodeU64 0),
     .putMeta .consumedRows (encodeU64 0),
     .putMeta .nextEpisodeSeq (encodeU64 0),
     .putMeta .producedRows (encodeU64 0),
     .putMeta .completedGames (encodeU64 0)]

theorem run_openLabels (retain : UInt64) : (storeSystem codec).Run World.initial (openLabels retain)
      ⟨openedDatabase, .idle (openedStore retain)⟩ := by
  have started : (storeSystem codec).step World.initial
      (.openStore (some retain) (.ok ())) _ := Step.openStore rfl
  exact .cons started (.cons Step.openWrite (.cons Step.openWrite
    (.cons Step.openWrite (.single Step.opened))))

/-- Opening a new database and appending one episode to it. -/
def appendLabels (retain : UInt64) : List Label :=
  openLabels retain ++
    [.appendEpisode checks episode (.ok ()), .publishCounters]

/-- The store after the appended episode. -/
def countedStore (retain : UInt64) : ReplayStore :=
  { openedStore retain with
    nextEpisodeSeq := 1
    completedGames := 1
    producedRows := 1 }

def appendedDatabase : Database :=
  openedDatabase.write
    [.put .episodes (episodeKey 0) [2], .put .rows (rowKey 0 0) (encodeRow ⟨.decision, 0, [3]⟩),
     .put .rowIndex (rowIndexKey 0) (rowKey 0 0),
     .putMeta .nextEpisodeSeq (encodeU64 1),
     .putMeta .producedRows (encodeU64 1),
     .putMeta .completedGames (encodeU64 1),
     .putMeta .episodesStopped (encodeU64 0)]

theorem run_appendLabels (retain : UInt64) :
    (storeSystem codec).Run World.initial (appendLabels retain)
      ⟨appendedDatabase, .counted (countedStore retain)⟩ := by
  have staged : (storeSystem codec).step ⟨openedDatabase, .idle (openedStore retain)⟩
      (.appendEpisode checks episode (.ok ())) _ := Step.appendEpisode rfl
  exact (run_openLabels retain).append (.cons staged (.single Step.publishCounters))

end Sample

/-- Eight rows of retention, one row appended. -/
theorem store_is_appendOnlyLog_sample : ∃ deleted retained,
      LogView Sample.codec [Sample.episode] deleted retained Sample.appendedDatabase ∧
        Recovers [Sample.episode] retained
          ⟨Sample.appendedDatabase, .counted (Sample.countedStore 8)⟩ ∧
        ∀ store, Phase.counted (Sample.countedStore 8) = .counted store → ∃ result,
              store.enforceRetention Sample.appendedDatabase = .ok result :=
  store_is_appendOnlyLog (Sample.run_appendLabels 8)
    (by simp [Sample.appendLabels, Sample.openLabels, Label.RetainsRows])
    (by
      simp [Sample.appendLabels, Sample.openLabels, Label.ThresholdFits, UInt64.size])

/-- The threshold of this bound is `2 ^ 64`, which wraps around to zero: the
first cycle looks for a cutoff row below row zero. -/
theorem retention_fails_of_wrapped_threshold : ∃ labels world store,
      (storeSystem Sample.codec).Run World.initial labels world ∧
        (∀ label ∈ labels, label.RetainsRows) ∧
        world.phase = .counted store ∧
        store.enforceRetention world.database =
          .error (.storage "missing row index entry at retention target") := by
  refine ⟨_, _, _, Sample.run_appendLabels 14757395258967641293, ?_, rfl, ?_⟩
  · simp [Sample.appendLabels, Sample.openLabels, Label.RetainsRows]
  · rfl

end GraphZero.Replay
