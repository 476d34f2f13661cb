import GraphZero.Replay.Database

/-!
# The replay store

An open store keeps its counters in memory and writes every append as one
batch: the records, their rows, the row index and the counters.  Retention
moves two floors.  The keys below the floor published by the previous cycle
are deleted, and the new floor only takes effect for readers, so a sampler
that clamped to a floor keeps its rows through the next cycle.

Arithmetic on counters is that of unsigned 64-bit integers: it wraps where the
source does not check it.
-/

namespace GraphZero.Replay

open GraphZero.Foundation

structure AppendSequences where
  nextEpisode : UInt64
  nextRow : UInt64

def increment (value : UInt64) (message : String) : ReplayResult UInt64 :=
  orStorage (checkedAdd value 1) message

def stageRows (codec : ReplayCodec) (episodeSeq : UInt64) :
    List ReplayRow → UInt64 → ReplayResult (List BatchOp × UInt64)
  | [], nextRow => .ok ([], nextRow)
  | row :: rest, nextRow => do
      let key := rowKey episodeSeq row.stepIndex
      let value ← codec.encodeRow row
      let afterRow ← increment nextRow "row sequence overflow"
      let (ops, lastRow) ← stageRows codec episodeSeq rest afterRow
      return (.put .rows key value :: .put .rowIndex (rowIndexKey nextRow) key :: ops, lastRow)

def stageEpisodes (codec : ReplayCodec) : List EpisodeAppend → AppendSequences →
      ReplayResult (List BatchOp × AppendSequences)
  | [], sequences => .ok ([], sequences)
  | episode :: rest, sequences => do
      let value ← codec.encodeEpisode episode.record
      let (rowOps, nextRow) ← stageRows codec sequences.nextEpisode episode.rows sequences.nextRow
      let nextEpisode ← increment sequences.nextEpisode "episode id overflow"
      let (ops, final) ← stageEpisodes codec rest ⟨nextEpisode, nextRow⟩
      return (.put .episodes (episodeKey sequences.nextEpisode) value :: rowOps ++ ops, final)

/-! ## The open store -/

/-- What an open store holds in memory. -/
structure ReplayStore where
  dataMode : Option ReplayDataMode
  nextEpisodeSeq : UInt64
  completedGames : UInt64
  episodesStopped : UInt64
  producedRows : UInt64
  consumedRows : UInt64
  /-- Rows below this sequence may be gone; sampling clamps to it. -/
  retainedFloor : UInt64
  retainRows : Option UInt64

/-- The counters an append publishes once its batch is written. -/
structure AppendCounters where
  nextEpisodeSeq : UInt64
  completedGames : UInt64
  episodesStopped : UInt64
  producedRows : UInt64

structure StagedAppend where
  batch : List BatchOp
  counters : AppendCounters

/-- The staged operations followed by the counters they lead to. -/
def stageCounters (ops : List BatchOp) (sequences : AppendSequences)
    (completedGames episodesStopped : UInt64) : StagedAppend where
  batch := ops ++ [.putMeta .nextEpisodeSeq (encodeU64 sequences.nextEpisode),
     .putMeta .producedRows (encodeU64 sequences.nextRow),
     .putMeta .completedGames (encodeU64 completedGames),
     .putMeta .episodesStopped (encodeU64 episodesStopped)]
  counters :=
    { nextEpisodeSeq := sequences.nextEpisode
      completedGames := completedGames
      episodesStopped := episodesStopped
      producedRows := sequences.nextRow }

namespace ReplayStore

/-- The memory once an append's counters are stored. -/
def publish (store : ReplayStore) (counters : AppendCounters) : ReplayStore :=
  { store with
    nextEpisodeSeq := counters.nextEpisodeSeq
    completedGames := counters.completedGames
    episodesStopped := counters.episodesStopped
    producedRows := counters.producedRows }

def currentDataMode (store : ReplayStore) : ReplayDataMode :=
  store.dataMode.getD .standard

/-- What `stopped` adds to the counter of stopped episodes. -/
def stoppedCount (record : ReplayEpisodeRecord) : UInt64 :=
  if record.stopped then 1 else 0

def appendEpisode (codec : ReplayCodec) (checks : ContentChecks)
    (store : ReplayStore) (episode : EpisodeAppend) :
    ReplayResult StagedAppend := do
  let dataMode := store.currentDataMode
  if dataMode.isSymmetricSelfplay = true then
    throw .invalidRecord
  checks.engineIdentity episode.record
  validateEpisode checks dataMode episode
  let completedGames ← orStorage (checkedAdd store.completedGames 1)
      "completed game counter overflow"
  let (ops, sequences) ← stageEpisodes codec [episode] ⟨store.nextEpisodeSeq, store.producedRows⟩
  return stageCounters ops sequences completedGames
    (store.episodesStopped + stoppedCount episode.record)

/-- Appends both perspectives of one paired game in one batch.  The primary
record supplies the game counters. -/
def appendEpisodePair (codec : ReplayCodec) (checks : ContentChecks)
    (store : ReplayStore) (primary secondary : EpisodeAppend) :
    ReplayResult StagedAppend := do
  let dataMode := store.currentDataMode
  checks.engineIdentity primary.record
  checks.engineIdentity secondary.record
  validateEpisode checks dataMode primary
  validateEpisode checks dataMode secondary
  if dataMode.isSymmetricSelfplay = true then
    checks.symmetricMetrics primary secondary
  let _secondSeq ← orStorage (checkedAdd store.nextEpisodeSeq 1) "episode id overflow"
  let completedGames ← orStorage (checkedAdd store.completedGames 1)
      "completed game counter overflow"
  let (ops, sequences) ← stageEpisodes codec [primary, secondary]
      ⟨store.nextEpisodeSeq, store.producedRows⟩
  return stageCounters ops sequences completedGames
    (store.episodesStopped + stoppedCount primary.record)

/-- A retention cycle that moves the floors. -/
structure RetentionWrite where
  batch : List BatchOp
  newFloor : UInt64

def saturatingSub (value amount : UInt64) : UInt64 :=
  if value < amount then 0 else value - amount

/-- How many rows past the floor trigger a cycle. -/
def retentionThreshold (retain : UInt64) : UInt64 :=
  retain + retain / 4

/-- The episode at a floor, read from the row index. -/
def episodeAtFloor (database : Database) (floor : UInt64)
    (missing corrupt : String) : ReplayResult UInt64 :=
  if floor = 0 then
    .ok 0
  else do
    let key ← orStorage (database.get .rowIndex (rowIndexKey floor)) missing
    orStorage (decodeEpisodeFromRowKey key) corrupt

/-- The floor at the first row of the episode that holds the cutoff row. -/
def alignedFloor (database : Database) (target : UInt64) : ReplayResult UInt64 := do
  let key ← orStorage (database.get .rowIndex (rowIndexKey target))
      "missing row index entry at retention target"
  let step ← orStorage (decodeStepFromRowKey key) "corrupt row key at retention target"
  return target - UInt64.ofNat step.toNat

def retentionBatch (deleted floor newFloor deletedEpisode floorEpisode : UInt64) : List BatchOp :=
  [.deleteRange .rowIndex (rowIndexKey deleted) (rowIndexKey floor),
   .deleteRange .rows (rowKey deletedEpisode 0) (rowKey floorEpisode 0),
   .deleteRange .episodes (episodeKey deletedEpisode) (episodeKey floorEpisode),
   .putMeta .deletedFloor (encodeU64 floor),
   .putMeta .retainedFloor (encodeU64 newFloor)]

/-- What the cycle after an append writes, if the floor moves. -/
def enforceRetention (database : Database) (store : ReplayStore) :
    ReplayResult (Option RetentionWrite) :=
  match store.retainRows with
  | none => .ok none
  | some retain =>
    let producedRows := store.producedRows
    let floor := store.retainedFloor
    if saturatingSub producedRows floor ≤ retentionThreshold retain then
      .ok none
    else do
      let newFloor ← alignedFloor database (producedRows - retain)
      if newFloor ≤ floor then
        return none
      else
        let stored ← readMetaU64 database .deletedFloor
        let deleted := stored.getD 0
        let deletedEpisode ← episodeAtFloor database deleted
            "missing row index entry at deleted floor"
            "corrupt row key at deleted floor"
        let floorEpisode ← episodeAtFloor database floor "missing row index entry at retained floor"
            "corrupt row key at retained floor"
        return some
          { batch :=
              retentionBatch deleted floor newFloor deletedEpisode floorEpisode
            newFloor := newFloor }

/-- The memory that opening recovers from the database. -/
def load (database : Database) (retainRows : Option UInt64) : ReplayResult ReplayStore := do
  let nextEpisodeSeq ← recoverNextEpisodeSeq database
  let producedRows ← recoverNextRowSeq database
  let consumedRows ← readMetaU64 database .consumedRows
  let completedGames ← readMetaU64 database .completedGames
  let episodesStopped ← readMetaU64 database .episodesStopped
  let retainedFloor ← readMetaU64 database .retainedFloor
  let dataMode ← readDataMode database
  let store : ReplayStore :=
    { dataMode := dataMode
      nextEpisodeSeq := nextEpisodeSeq
      completedGames := completedGames.getD nextEpisodeSeq
      episodesStopped := episodesStopped.getD 0
      producedRows := producedRows
      consumedRows := consumedRows.getD 0
      retainedFloor := retainedFloor.getD 0
      retainRows := retainRows }
  return store

/-- The counters that opening writes back, one write each. -/
def openWrites (store : ReplayStore) : List BatchOp :=
  [.putMeta .nextEpisodeSeq (encodeU64 store.nextEpisodeSeq),
   .putMeta .producedRows (encodeU64 store.producedRows),
   .putMeta .completedGames (encodeU64 store.completedGames)]

/-- Opens a database: the schema batch, and what is recovered after it. -/
def openWithRetention (database : Database) (retainRows : Option UInt64) :
    ReplayResult (List BatchOp × ReplayStore) := do
  let schema ← ensureSchema database
  let store ← load (database.write schema) retainRows
  return (schema, store)

/-- A bound data mode is kept, and only the standard one fits a store that
already has episodes. -/
def checkDataMode (store : ReplayStore) (dataMode : ReplayDataMode) : ReplayResult Unit :=
  match store.dataMode with
  | some stored => if stored ≠ dataMode then .error .dataModeMismatch else .ok ()
  | none =>
    if 0 < store.nextEpisodeSeq ∧ dataMode ≠ .standard then
      .error .dataModeMismatch
    else
      .ok ()

/-- Binds the data mode of a store.  `admitted` is the verdict on the other
parts of the contract. -/
def ensureContract (store : ReplayStore) (dataMode : ReplayDataMode)
    (admitted : ReplayResult Unit) :
    ReplayResult (List BatchOp × ReplayStore) := do
  store.checkDataMode dataMode
  admitted
  let batch :=
    if store.dataMode.isNone then
      [BatchOp.putMeta .dataMode dataMode.bytes]
    else
      []
  return (batch, { store with dataMode := some dataMode })

/-- The learner-consumption accounting of a sample. -/
def recordConsumed (store : ReplayStore) (count : UInt64) :
    ReplayResult (List BatchOp × ReplayStore) := do
  let consumedRows ← orStorage (checkedAdd store.consumedRows count) "consumed row counter overflow"
  return ([.putMeta .consumedRows (encodeU64 consumedRows)],
    { store with consumedRows := consumedRows })

end ReplayStore

end GraphZero.Replay
