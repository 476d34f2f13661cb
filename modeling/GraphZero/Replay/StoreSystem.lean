import GraphZero.Foundation.Transition
import GraphZero.Replay.StoredTables

/-!
# Runs of the replay store

A run is a sequence of atomic writes and of stores to the counters in memory,
with the process ending at any point between them.  Appends and retention run
under one write lock, so a store is in one phase of one append at a time.
-/

namespace GraphZero.Replay

open GraphZero.Foundation

/-- Where the process that owns the database is. -/
inductive Phase where
  /-- No process has the database open. -/
  | closed
  /-- The counters that opening writes back are `pending`. -/
  | opening (store : ReplayStore) (pending : List BatchOp)
  | idle (store : ReplayStore)
  /-- An append is written; its counters are not in memory yet. -/
  | appended (store : ReplayStore) (counters : AppendCounters)
  /-- The counters are published; retention comes next. -/
  | counted (store : ReplayStore)
  /-- A retention cycle is written; its floor is not in memory yet. -/
  | retired (store : ReplayStore) (newFloor : UInt64)

structure World where
  database : Database
  phase : Phase

inductive Label where
  | openStore (retainRows : Option UInt64) (result : ReplayResult Unit)
  | openWrite
  | opened
  | ensureContract (dataMode : ReplayDataMode) (admitted result : ReplayResult Unit)
  | appendEpisode (checks : ContentChecks) (episode : EpisodeAppend)
    (result : ReplayResult Unit)
  | appendEpisodePair (checks : ContentChecks)
    (primary secondary : EpisodeAppend) (result : ReplayResult Unit)
  | publishCounters
  | enforceRetention (result : ReplayResult Unit)
  | publishFloor
  | recordConsumed (count : UInt64) (result : ReplayResult Unit)
  | crash

def Label.appended : Label → List EpisodeAppend
  | .appendEpisode _ episode (.ok ()) => [episode]
  | .appendEpisodePair _ primary secondary (.ok ()) => [primary, secondary]
  | _ => []

/-- The episodes that a run appends, in order. -/
def appendedEpisodes (labels : List Label) : List EpisodeAppend :=
  labels.flatMap Label.appended

namespace Phase

/-- The memory that a reader of the open store sees. -/
def visible : Phase → Option ReplayStore
  | closed | opening .. => none
  | idle store | appended store _ | counted store | retired store _ => some store

/-- The memory once the stores that are under way are done. -/
def settled : Phase → Option ReplayStore
  | closed => none
  | opening store _ | idle store | counted store => some store
  | appended store counters => some (store.publish counters)
  | retired store newFloor => some { store with retainedFloor := newFloor }

/-- The phase after an update of the visible memory. -/
def withVisible (phase : Phase) (store : ReplayStore) : Phase :=
  match phase with
  | closed => closed
  | opening current pending => opening current pending
  | idle _ => idle store
  | appended _ counters => appended store counters
  | counted _ => counted store
  | retired _ newFloor => retired store newFloor

end Phase

/-- One step of the process or of its surroundings. -/
inductive Step (codec : ReplayCodec) : World → Label → World → Prop
  | openStore {database retainRows schema store}
    (recovered : ReplayStore.openWithRetention database retainRows = .ok (schema, store)) :
    Step codec ⟨database, .closed⟩ (.openStore retainRows (.ok ()))
      ⟨database.write schema, .opening store store.openWrites⟩
  | openMismatched {database retainRows failure} (failed : ensureSchema database = .error failure) :
    Step codec ⟨database, .closed⟩ (.openStore retainRows (.error failure)) ⟨database, .closed⟩
  | openUnreadable {database retainRows schema failure}
    (schemaOk : ensureSchema database = .ok schema)
    (failed : ReplayStore.load (database.write schema) retainRows = .error failure) :
    Step codec ⟨database, .closed⟩ (.openStore retainRows (.error failure))
      ⟨database.write schema, .closed⟩
  | openWrite {database store op pending} :
    Step codec ⟨database, .opening store (op :: pending)⟩ .openWrite
      ⟨database.write [op], .opening store pending⟩
  | opened {database store} :
    Step codec ⟨database, .opening store []⟩ .opened ⟨database, .idle store⟩
  | ensureContract {database store bound dataMode admitted batch}
    (accepted : store.ensureContract dataMode admitted = .ok (batch, bound)) :
    Step codec ⟨database, .idle store⟩ (.ensureContract dataMode admitted (.ok ()))
      ⟨database.write batch, .idle bound⟩
  | contractRefused {database store dataMode admitted failure}
    (refused : store.ensureContract dataMode admitted = .error failure) :
    Step codec ⟨database, .idle store⟩ (.ensureContract dataMode admitted (.error failure))
      ⟨database, .idle store⟩
  | appendEpisode {database store checks episode staged}
    (accepted : store.appendEpisode codec checks episode = .ok staged) :
    Step codec ⟨database, .idle store⟩ (.appendEpisode checks episode (.ok ()))
      ⟨database.write staged.batch, .appended store staged.counters⟩
  | episodeRefused {database store checks episode failure}
    (refused : store.appendEpisode codec checks episode = .error failure) :
    Step codec ⟨database, .idle store⟩ (.appendEpisode checks episode (.error failure))
      ⟨database, .idle store⟩
  | appendEpisodePair {database store checks primary secondary staged}
    (accepted : store.appendEpisodePair codec checks primary secondary = .ok staged) :
    Step codec ⟨database, .idle store⟩ (.appendEpisodePair checks primary secondary (.ok ()))
      ⟨database.write staged.batch, .appended store staged.counters⟩
  | pairRefused {database store checks primary secondary failure}
    (refused : store.appendEpisodePair codec checks primary secondary = .error failure) :
    Step codec ⟨database, .idle store⟩
      (.appendEpisodePair checks primary secondary (.error failure))
      ⟨database, .idle store⟩
  | publishCounters {database store counters} :
    Step codec ⟨database, .appended store counters⟩ .publishCounters
      ⟨database, .counted (store.publish counters)⟩
  | retentionIdle {database store} (kept : store.enforceRetention database = .ok none) :
    Step codec ⟨database, .counted store⟩ (.enforceRetention (.ok ())) ⟨database, .idle store⟩
  | retentionWrite {database store retention}
    (moved : store.enforceRetention database = .ok (some retention)) :
    Step codec ⟨database, .counted store⟩ (.enforceRetention (.ok ()))
      ⟨database.write retention.batch, .retired store retention.newFloor⟩
  | retentionFailed {database store failure}
    (failed : store.enforceRetention database = .error failure) :
    Step codec ⟨database, .counted store⟩
      (.enforceRetention (.error failure)) ⟨database, .idle store⟩
  | publishFloor {database store newFloor} :
    Step codec ⟨database, .retired store newFloor⟩ .publishFloor
      ⟨database, .idle { store with retainedFloor := newFloor }⟩
  | recordConsumed {database phase store updated count batch} (current : phase.visible = some store)
    (recorded : store.recordConsumed count = .ok (batch, updated)) :
    Step codec ⟨database, phase⟩ (.recordConsumed count (.ok ()))
      ⟨database.write batch, phase.withVisible updated⟩
  | consumedRefused {database phase store count failure} (current : phase.visible = some store)
    (refused : store.recordConsumed count = .error failure) :
    Step codec ⟨database, phase⟩ (.recordConsumed count (.error failure)) ⟨database, phase⟩
  | crash {database phase} :
    Step codec ⟨database, phase⟩ .crash ⟨database, .closed⟩

def World.initial : World :=
  ⟨Database.empty, .closed⟩

def storeSystem (codec : ReplayCodec) : TransitionSystem World Label where
  initial world := world = World.initial
  step := Step codec

end GraphZero.Replay
