import GraphZero.Replay.AppendOnlyLog
import GraphZero.Replay.Sample

/-!
# Samplers beside the writer

Samplers take no lock.  Each loads the floor, then the count, then reads the
keys of what it drew and the rows under them, and any number of writer steps
may come between two of these.  A sample of terminal rows also looks up the
episode of the first row of its window and loads the end of the episodes
before it draws.  The process ending takes its samplers with it.
-/

namespace GraphZero.Replay

open GraphZero.Foundation

inductive SampleKind where
  | rows
  | terminals

inductive Sampler where
  | idle
  | floorLoaded (kind : SampleKind) (config : SampleConfig) (floor : UInt64)
  /-- A sample of terminal rows, which has not drawn yet. -/
  | counted (config : SampleConfig) (window : SampleWindow)
  /-- Its window begins in the episode `first`. -/
  | located (config : SampleConfig) (window : SampleWindow) (first : UInt64)
  | drawn (config : SampleConfig) (window : SampleWindow) (picks : Picks)
  | resolved (config : SampleConfig) (window : SampleWindow)
    (picks : Picks) (keys : List (UInt64 × Bytes))
  | read (config : SampleConfig) (window : SampleWindow)
    (picks : Picks) (rows : List (UInt64 × ReplayRow))
  | finished (config : SampleConfig) (window : SampleWindow)
    (picks : Picks) (result : ReplayResult (List (UInt64 × ReplayRow)))

namespace Sampler

/-- A session starts a sample when its last one is over. -/
def Ready : Sampler → Prop
  | idle | finished .. => True
  | _ => False

/-- After the count is loaded: `none` when a draw does not end. -/
def afterCount (config : SampleConfig) (window : SampleWindow) (kind : SampleKind) :
    Option Sampler :=
  if window.IsEmpty then
    some (finished config window (.rows []) (.error .empty))
  else
    match kind with
    | .rows => (window.draw config).map fun sequences => drawn config window (.rows sequences)
    | .terminals => some (counted config window)

def afterFirst (config : SampleConfig) (window : SampleWindow) : ReplayResult UInt64 → Sampler
  | .ok first => located config window first
  | .error failure => finished config window (.rows []) (.error failure)

/-- After the end of the episodes is loaded. -/
def afterEnd (config : SampleConfig) (window : SampleWindow) (first last : UInt64) :
    Option Sampler :=
  if last ≤ first then
    some (finished config window (.rows []) (.error .empty))
  else
    (config.drawEpisodes first last).map fun sequences =>
      drawn config window (.episodes first last sequences)

def afterKeys (config : SampleConfig) (window : SampleWindow) (picks : Picks) :
    ReplayResult (List (UInt64 × Bytes)) → Sampler
  | .ok keys => resolved config window picks keys
  | .error failure => finished config window picks (.error failure)

def afterRows (config : SampleConfig) (window : SampleWindow) (picks : Picks) :
    ReplayResult (List (UInt64 × ReplayRow)) → Sampler
  | .ok rows => read config window picks rows
  | .error failure => finished config window picks (.error failure)

end Sampler

structure SamplingWorld where
  world : World
  samplers : Nat → Sampler

inductive SamplingLabel where
  | store (label : Label)
  | loadFloor (session : Nat) (kind : SampleKind) (config : SampleConfig)
  | loadCount (session : Nat)
  | findFirst (session : Nat)
  | loadEnd (session : Nat)
  | multiGetKeys (session : Nat)
  | multiGetRows (session : Nat)
  /-- The rows go to a caller that does not account for them. -/
  | inspected (session : Nat)
  /-- The rows go to the learner, which consumes them. -/
  | consumed (session : Nat)

def SamplingLabel.appended : SamplingLabel → List EpisodeAppend
  | .store label => label.appended
  | _ => []

/-- The episodes that a run appends, in order. -/
def sampledEpisodes (labels : List SamplingLabel) : List EpisodeAppend :=
  labels.flatMap SamplingLabel.appended

/-- The samplers after `session` has moved on. -/
def moveTo (samplers : Nat → Sampler) (session : Nat) (sampler : Sampler) : Nat → Sampler :=
  Function.update samplers session sampler

inductive SamplingStep (codec : RecordCodec) : SamplingWorld → SamplingLabel → SamplingWorld → Prop
  | store {world next samplers label} (step : Step codec.toReplayCodec world label next)
    (runsOn : next.phase.visible.isSome) :
    SamplingStep codec ⟨world, samplers⟩ (.store label) ⟨next, samplers⟩
  | storeAlone {world next samplers label} (step : Step codec.toReplayCodec world label next)
    (notOpen : next.phase.visible = none) :
    SamplingStep codec ⟨world, samplers⟩ (.store label) ⟨next, fun _ => .idle⟩
  | loadFloor {world samplers store session kind config} (ready : (samplers session).Ready)
    (current : world.phase.visible = some store) :
    SamplingStep codec ⟨world, samplers⟩ (.loadFloor session kind config)
      ⟨world, moveTo samplers session (.floorLoaded kind config store.retainedFloor)⟩
  | loadCount {world samplers store session kind config floor after}
    (loaded : samplers session = .floorLoaded kind config floor)
    (current : world.phase.visible = some store)
    (moved : Sampler.afterCount config ⟨floor, store.producedRows⟩ kind = some after) :
    SamplingStep codec ⟨world, samplers⟩ (.loadCount session)
      ⟨world, moveTo samplers session after⟩
  | findFirst {world samplers session config window}
    (counted : samplers session = .counted config window) :
    SamplingStep codec ⟨world, samplers⟩ (.findFirst session)
      ⟨world, moveTo samplers session (Sampler.afterFirst config window
        (episodeForRowSequence world.database (window.start config)))⟩
  | loadEnd {world samplers store session config window first after}
    (located : samplers session = .located config window first)
    (current : world.phase.visible = some store)
    (moved : Sampler.afterEnd config window first store.nextEpisodeSeq = some after) :
    SamplingStep codec ⟨world, samplers⟩ (.loadEnd session)
      ⟨world, moveTo samplers session after⟩
  | multiGetKeys {world samplers session config window picks}
    (drawn : samplers session = .drawn config window picks) :
    SamplingStep codec ⟨world, samplers⟩ (.multiGetKeys session)
      ⟨world, moveTo samplers session
        (Sampler.afterKeys config window picks (picks.resolve codec world.database))⟩
  | multiGetRows {world samplers session config window picks keys}
    (resolved : samplers session = .resolved config window picks keys) :
    SamplingStep codec ⟨world, samplers⟩ (.multiGetRows session)
      ⟨world, moveTo samplers session
        (Sampler.afterRows config window picks (picks.read codec world.database keys))⟩
  | inspected {world samplers session config window sequences rows}
    (read : samplers session = .read config window (.rows sequences) rows) :
    SamplingStep codec ⟨world, samplers⟩ (.inspected session)
      ⟨world, moveTo samplers session (.finished config window (.rows sequences) (.ok rows))⟩
  | consumed {world samplers store updated session config window picks rows batch}
    (read : samplers session = .read config window picks rows)
    (current : world.phase.visible = some store)
    (recorded : store.recordConsumed config.batch = .ok (batch, updated)) :
    SamplingStep codec ⟨world, samplers⟩ (.consumed session)
      ⟨⟨world.database.write batch, world.phase.withVisible updated⟩,
        moveTo samplers session (.finished config window picks (.ok rows))⟩
  | consumedRefused {world samplers store session config window picks rows failure}
    (read : samplers session = .read config window picks rows)
    (current : world.phase.visible = some store)
    (refused : store.recordConsumed config.batch = .error failure) :
    SamplingStep codec ⟨world, samplers⟩ (.consumed session)
      ⟨world, moveTo samplers session (.finished config window picks (.error failure))⟩

def SamplingWorld.initial : SamplingWorld :=
  ⟨World.initial, fun _ => .idle⟩

def samplingSystem (codec : RecordCodec) : TransitionSystem SamplingWorld SamplingLabel where
  initial state := state = SamplingWorld.initial
  step := SamplingStep codec

/-! ## What the writer may do beside a sample -/

/-- The oldest row that the loaded floor and count leave to a sample. -/
def SampleWindow.oldest (window : SampleWindow) (config : SampleConfig) : Nat :=
  max window.floor.toNat (window.produced.toNat - config.windowRows.toNat)

/-- The oldest row of a sample that still has something to read. -/
def Sampler.oldest? : Sampler → Option Nat
  | counted config window | located config window _
  | drawn config window _ | resolved config window .. => some (window.oldest config)
  | idle | floorLoaded .. | read .. | finished .. => none

/-- No row that is left to the sample of `session` is gone when it loads the
count, or goes before it has read. -/
def Spares (state : SamplingWorld) (session : Nat) : SamplingLabel → Prop
  | .store (.enforceRetention _) =>
    ∀ cut, Cuts state.world cut → ∀ oldest, (state.samplers session).oldest? = some oldest →
      cut ≤ oldest
  | .loadCount counting =>
    counting = session → ∀ kind config floor,
      state.samplers session = .floorLoaded kind config floor →
        ∀ store, state.world.phase.visible = some store →
          ∀ deleted, readFloor state.world.database .deletedFloor = .ok deleted →
            deleted ≤ SampleWindow.oldest ⟨floor, store.producedRows⟩ config
  | _ => True

/-- The episodes that terminal rows are drawn from have one each. -/
def EndsInTerminals (codec : RecordCodec) (state : SamplingWorld) : SamplingLabel → Prop
  | .loadEnd session =>
    ∀ config window first, state.samplers session = .located config window first →
      ∀ store, state.world.phase.visible = some store → ∀ (seq : UInt64) bytes record,
        first ≤ seq → seq < store.nextEpisodeSeq →
        state.world.database.get .episodes (episodeKey seq) = some bytes →
        codec.decodeEpisode bytes = .ok record → record.HasTerminal
  | _ => True

/-- The consumption counter has room for what is accounted for. -/
def HasRoom (state : SamplingWorld) : SamplingLabel → Prop
  | .consumed session =>
    ∀ store, state.world.phase.visible = some store → ∀ config window picks rows,
      state.samplers session = .read config window picks rows →
        store.consumedRows.toNat + config.batch.toNat < UInt64.size
  | _ => True

structure SparesSamples (codec : RecordCodec) (state : SamplingWorld) (label : SamplingLabel) :
    Prop where
  spares : ∀ session, Spares state session label
  terminals : EndsInTerminals codec state label
  room : HasRoom state label

end GraphZero.Replay
