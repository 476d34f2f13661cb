import GraphZero.Replay.SamplingSystem

/-!
# Samples stay in their window

A sample draws from the rows between a floor and a count that it loaded one
after the other.  The rows it may read stay where they are as long as no
retention cycle deletes past the first of them.  A cycle deletes below the
floor of the cycle before, so a sample is safe while at most one cycle is
written beside it, and not beyond.
-/

namespace GraphZero.Replay

open GraphZero.Foundation List

/-- The row that was appended as the `number`th: a row of the episode at
`episodeSeq`. -/
structure AppendedAt (episodes : List EpisodeAppend) (number : Nat) (episodeSeq : UInt64)
    (episode : EpisodeAppend) (row : ReplayRow) : Prop where
  place : locate (rowSegments episodes) number = some (episodeSeq.toNat, row.stepIndex.toNat)
  present : episodes[episodeSeq.toNat]? = some episode
  inRows : episode.rows[row.stepIndex.toNat]? = some row

/-- The row that was appended at `seq`, as it comes back from storage. -/
def SampledAs (codec : RecordCodec) (episodes : List EpisodeAppend)
    (seq : UInt64) (sampled : UInt64 × ReplayRow) : Prop :=
  ∃ episode row, AppendedAt episodes seq.toNat sampled.1 episode row ∧
    sampled.2 = codec.storedRow row

/-- The terminal row of the episode at `seq`, which was appended from `start`
on. -/
def TerminalAs (codec : RecordCodec) (episodes : List EpisodeAppend) (start seq : UInt64)
    (sampled : UInt64 × ReplayRow) : Prop :=
  ∃ number episode row, AppendedAt episodes number seq episode row ∧ start.toNat ≤ number ∧
    row.kind = .terminal ∧ sampled = (seq, codec.storedRow row)

/-- The key of the row that was appended at `seq`. -/
def ResolvedAs (episodes : List EpisodeAppend) (seq : UInt64) (resolved : UInt64 × Bytes) : Prop :=
  ∃ episode row, AppendedAt episodes seq.toNat resolved.1 episode row ∧
    resolved.2 = rowKey resolved.1 row.stepIndex

/-- The episode at `seq` was appended with a terminal row. -/
def Terminated (episodes : List EpisodeAppend) (seq : UInt64) : Prop :=
  ∃ episode, episodes[seq.toNat]? = some episode ∧ episode.record.HasTerminal

/-- The key of the terminal row of the episode at `seq`. -/
def TerminalKeyAs (episodes : List EpisodeAppend) (seq : UInt64) (resolved : UInt64 × Bytes) :
    Prop :=
  ∃ episode, episodes[seq.toNat]? = some episode ∧ episode.record.HasTerminal ∧
    resolved = (seq, rowKey seq (UInt32.ofNat episode.record.steps.length))

/-- The rows lie in the window; the episodes go from that of its first row to
an end that was loaded after the count. -/
def Picks.Within (episodes : List EpisodeAppend) (config : SampleConfig) (window : SampleWindow) :
    Picks → Prop
  | .rows sequences => ∀ seq ∈ sequences,
    (window.start config).toNat ≤ seq.toNat ∧ seq.toNat < window.produced.toNat
  | .episodes first last sequences =>
    (∃ step, locate (rowSegments episodes) (window.start config).toNat =
      some (first.toNat, step)) ∧
    ∀ seq ∈ sequences, first.toNat ≤ seq.toNat ∧ seq.toNat < last.toNat ∧
      Terminated episodes seq

/-- What a sample with rows to draw from draws. -/
structure DrawnFrom (episodes : List EpisodeAppend) (config : SampleConfig)
    (window : SampleWindow) (picks : Picks) : Prop where
  floor_lt : window.floor.toNat < window.produced.toNat
  isExact : window.Exact config
  count : picks.sequences.length = config.batch.toNat
  within : picks.Within episodes config window

def KeysOf (episodes : List EpisodeAppend) : Picks → List (UInt64 × Bytes) → Prop
  | .rows sequences => List.Forall₂ (ResolvedAs episodes) sequences
  | .episodes _ _ sequences => List.Forall₂ (TerminalKeyAs episodes) sequences

def RowsOf (codec : RecordCodec) (episodes : List EpisodeAppend) (start : UInt64) :
    Picks → List (UInt64 × ReplayRow) → Prop
  | .rows sequences => List.Forall₂ (SampledAs codec episodes) sequences
  | .episodes _ _ sequences => List.Forall₂ (TerminalAs codec episodes start) sequences

/-- A sample returns the rows it drew, or says that there are none. -/
def SampleOutcome (codec : RecordCodec) (episodes : List EpisodeAppend)
    (config : SampleConfig) (window : SampleWindow) (picks : Picks) :
    ReplayResult (List (UInt64 × ReplayRow)) → Prop
  | .ok rows =>
    DrawnFrom episodes config window picks ∧
      RowsOf codec episodes (window.start config) picks rows
  | .error failure => failure = .empty ∧ window.produced = 0 ∧ window.Exact config

/-- A window with rows, none of which is gone or was not yet counted. -/
structure WindowHolds (deleted : Nat) (visible : Option ReplayStore) (config : SampleConfig)
    (window : SampleWindow) : Prop where
  floor_lt : window.floor.toNat < window.produced.toNat
  isExact : window.Exact config
  kept : deleted ≤ (window.start config).toNat
  counted : ∃ store, visible = some store ∧ window.produced.toNat ≤ store.producedRows.toNat

/-- The samplers against the appended episodes and the deletion cut. -/
def SamplerHolds (codec : RecordCodec) (episodes : List EpisodeAppend)
    (deleted : Nat) (visible : Option ReplayStore) : Sampler → Prop
  | .idle => True
  | .floorLoaded _ _ floor =>
    ∃ store, visible = some store ∧ (floor.toNat < store.producedRows.toNat ∨ floor.toNat = 0)
  | .counted config window => WindowHolds deleted visible config window
  | .located config window first =>
    WindowHolds deleted visible config window ∧
      ∃ step, locate (rowSegments episodes) (window.start config).toNat = some (first.toNat, step)
  | .drawn config window picks =>
    WindowHolds deleted visible config window ∧ DrawnFrom episodes config window picks
  | .resolved config window picks keys =>
    WindowHolds deleted visible config window ∧ DrawnFrom episodes config window picks ∧
      KeysOf episodes picks keys
  | .read config window picks rows =>
    DrawnFrom episodes config window picks ∧
      RowsOf codec episodes (window.start config) picks rows
  | .finished config window picks result =>
    SampleOutcome codec episodes config window picks result

/-- The counters of a store that its readers see count the rows of its
episodes. -/
structure CountsRows (episodes : List EpisodeAppend) (store : ReplayStore) : Prop where
  episodes_le : store.nextEpisodeSeq.toNat ≤ episodes.length
  rows_eq : store.producedRows.toNat = totalRows (episodes.take store.nextEpisodeSeq.toNat)

structure SamplingHolds (codec : RecordCodec) (episodes : List EpisodeAppend)
    (log : RetainedLog ReplayRow) (memory : ReplayStore)
    (state : SamplingWorld) : Prop where
  consistent : Consistent codec.toReplayCodec episodes log memory state.world
  shaped : ∀ episode ∈ episodes, episode.Shaped
  counts : ∀ store, state.world.phase.visible = some store → CountsRows episodes store
  samplers : ∀ session,
    SamplerHolds codec episodes log.deleted state.world.phase.visible (state.samplers session)

/-! ## Appending keeps what was sampled -/

section Growth

variable {codec : RecordCodec} {episodes : List EpisodeAppend}

variable {more : List EpisodeAppend}

theorem getElem?_append_of_some {index : Nat} {episode}
    (present : episodes[index]? = some episode) :
    (episodes ++ more)[index]? = some episode := by
  rw [getElem?_append_left (lt_length_of_getElem? present), present]

theorem locate_append_of_some {number place}
    (found : locate (rowSegments episodes) number = some place) :
    locate (rowSegments (episodes ++ more)) number = some place := by
  rw [rowSegments_append, locate_append_of_lt (lt_totalLength_of_locate found), found]

theorem AppendedAt.append {number : Nat} {episodeSeq episode row}
    (appended : AppendedAt episodes number episodeSeq episode row) :
    AppendedAt (episodes ++ more) number episodeSeq episode row :=
  ⟨locate_append_of_some appended.place, getElem?_append_of_some appended.present, appended.inRows⟩

variable {config : SampleConfig} {window : SampleWindow} {picks : Picks}

theorem DrawnFrom.append (drawn : DrawnFrom episodes config window picks) :
    DrawnFrom (episodes ++ more) config window picks := by
  refine ⟨drawn.floor_lt, drawn.isExact, drawn.count, ?_⟩
  have within := drawn.within
  cases picks with
  | rows sequences => exact within
  | episodes first last sequences =>
    obtain ⟨⟨step, found⟩, each⟩ := within
    refine ⟨⟨step, locate_append_of_some found⟩, fun seq member => ?_⟩
    obtain ⟨above, below, episode, present, hasTerminal⟩ := each seq member
    exact ⟨above, below, episode, getElem?_append_of_some present, hasTerminal⟩

theorem KeysOf.append {keys} (keysOf : KeysOf episodes picks keys) :
    KeysOf (episodes ++ more) picks keys := by
  cases picks with
  | rows sequences =>
    exact List.Forall₂.imp (fun _ _ ⟨episode, row, appended, same⟩ =>
      ⟨episode, row, appended.append, same⟩) keysOf
  | episodes first last sequences =>
    exact List.Forall₂.imp (fun _ _ ⟨episode, present, rest⟩ =>
      ⟨episode, getElem?_append_of_some present, rest⟩) keysOf

theorem RowsOf.append {start rows} (rowsOf : RowsOf codec episodes start picks rows) :
    RowsOf codec (episodes ++ more) start picks rows := by
  cases picks with
  | rows sequences =>
    exact List.Forall₂.imp (fun _ _ ⟨episode, row, appended, same⟩ =>
      ⟨episode, row, appended.append, same⟩) rowsOf
  | episodes first last sequences =>
    exact List.Forall₂.imp (fun _ _ ⟨number, episode, row, appended, rest⟩ =>
      ⟨number, episode, row, appended.append, rest⟩) rowsOf

theorem SampleOutcome.append {result}
    (outcome : SampleOutcome codec episodes config window picks result) :
    SampleOutcome codec (episodes ++ more) config window picks result := by
  cases result with
  | ok rows => exact ⟨outcome.1.append, outcome.2.append⟩
  | error failure => exact outcome

theorem CountsRows.append {store} (counts : CountsRows episodes store) :
    CountsRows (episodes ++ more) store := by
  have fewer := counts.episodes_le
  constructor
  · rw [length_append]
    omega
  · rw [take_append_of_le_length fewer]
    exact counts.rows_eq

variable {deleted nextDeleted : Nat} {visible nextVisible : Option ReplayStore}

theorem WindowHolds.step (holds : WindowHolds deleted visible config window)
    (grows : ∀ store, visible = some store → ∃ nextStore, nextVisible = some nextStore ∧
        store.producedRows.toNat ≤ nextStore.producedRows.toNat)
    (spared : nextDeleted = deleted ∨ nextDeleted ≤ window.oldest config) :
    WindowHolds nextDeleted nextVisible config window := by
  obtain ⟨floor_lt, isExact, kept, store, current, below⟩ := holds
  obtain ⟨after, later, more⟩ := grows store current
  refine ⟨floor_lt, isExact, ?_, after, later, Nat.le_trans below more⟩
  have starts := isExact.start_eq_max
  rcases spared with same | above
  · rw [same]
    exact kept
  · rw [SampleWindow.oldest] at above
    omega

theorem SamplerHolds.step {sampler} (holds : SamplerHolds codec episodes deleted visible sampler)
    (grows : ∀ store, visible = some store → ∃ nextStore, nextVisible = some nextStore ∧
        store.producedRows.toNat ≤ nextStore.producedRows.toNat)
    (spared : nextDeleted = deleted ∨
      ∀ oldest, sampler.oldest? = some oldest → nextDeleted ≤ oldest) :
    SamplerHolds codec (episodes ++ more) nextDeleted nextVisible sampler := by
  cases sampler with
  | idle => trivial
  | floorLoaded kind config floor =>
    obtain ⟨before, same, floorBelow⟩ := holds
    obtain ⟨after, afterSame, later⟩ := grows before same
    exact ⟨after, afterSame, by omega⟩
  | counted config window =>
    exact WindowHolds.step holds grows (spared.imp_right fun each => each _ rfl)
  | located config window first =>
    obtain ⟨window, step, found⟩ := holds
    exact ⟨window.step grows (spared.imp_right fun each => each _ rfl), step,
      locate_append_of_some found⟩
  | drawn config window picks =>
    exact ⟨holds.1.step grows (spared.imp_right fun each => each _ rfl), holds.2.append⟩
  | resolved config window picks keys =>
    exact ⟨holds.1.step grows (spared.imp_right fun each => each _ rfl), holds.2.1.append,
      holds.2.2.append⟩
  | read config window picks rows => exact ⟨holds.1.append, holds.2.append⟩
  | finished config window picks result => exact SampleOutcome.append holds

end Growth

section Reads

variable {codec : RecordCodec} {episodes : List EpisodeAppend}
  {log : RetainedLog ReplayRow} {memory : ReplayStore} {database : Database}

/-- The terminal row of an episode from that of `first` on comes after
`first`. -/
theorem EpisodeAppend.Shaped.terminalAt {episode seq first step} {firstSeq : UInt64}
    (shaped : episode.Shaped) (numbered : Numbered 0 episode.rows)
    (present : episodes[seq.toNat]? = some episode) (hasTerminal : episode.record.HasTerminal)
    (found : locate (rowSegments episodes) first = some (firstSeq.toNat, step))
    (ordered : firstSeq.toNat ≤ seq.toNat) :
    ∃ number row, AppendedAt episodes number seq episode row ∧ first ≤ number ∧
      row.kind = .terminal ∧
      row.stepIndex = UInt32.ofNat episode.record.steps.length := by
  obtain ⟨row, last, terminal⟩ := shaped.terminal hasTerminal
  have place := numbered _ row last
  rw [Nat.zero_add] at place
  have segment : (rowSegments episodes)[seq.toNat]? = some episode.rows := by
    rw [rowSegments, List.getElem?_map, present]
    rfl
  have located : locate (rowSegments episodes)
      (segmentStart (rowSegments episodes) seq.toNat + row.stepIndex.toNat) =
        some (seq.toNat, row.stepIndex.toNat) :=
    locate_eq_some_iff.mpr ⟨_, segment, by rw [place]; exact lt_length_of_getElem? last, rfl⟩
  refine ⟨_, row, ⟨located, present, by rw [place]; exact last⟩, ?_, terminal, ?_⟩
  · apply Nat.le_of_not_lt
    intro before
    have sameSeq : firstSeq.toNat = seq.toNat :=
      Nat.le_antisymm ordered (locate_index_mono located found (Nat.le_of_lt before))
    obtain ⟨rows, firstSegment, below, start⟩ := locate_eq_some_iff.mp found
    simp only [sameSeq, segment, Option.some.injEq] at firstSegment start
    have counted := shaped.counted
    rw [ReplayEpisodeRecord.HasTerminal] at hasTerminal
    rw [← firstSegment] at below
    omega
  · rw [← place, UInt32.ofNat_toNat]

section

variable (persisted : Persisted codec.toReplayCodec episodes log memory database) {seq : UInt64}
include persisted

theorem Persisted.resolveRow (kept : log.deleted ≤ seq.toNat)
    (below : seq.toNat < totalRows episodes) :
    ∃ resolved, resolveRow database seq = .ok resolved ∧ ResolvedAs episodes seq resolved := by
  obtain ⟨episodeSeq, row, resolves⟩ := persisted.resolves kept below
  obtain ⟨episode, present, inRows⟩ := resolves.inEpisode
  refine ⟨(episodeSeq, rowKey episodeSeq row.stepIndex), ?_, episode, row,
    ⟨resolves.appendedAs, present, inRows⟩, rfl⟩
  rw [Replay.resolveRow, resolves.index]
  simp only [orStorage, bind, Except.bind, decodeEpisodeFromRowKey_rowKey, pure, Except.pure]

/-- A row that was deleted is missed by the sample that drew it. -/
theorem Persisted.resolveRow_of_deleted (gone : seq.toNat < log.deleted) :
    Replay.resolveRow database seq = .error (.storage "missing row index entry") := by
  rw [Replay.resolveRow, persisted.rowIndex_isNone (Or.inl gone)]
  rfl

theorem Persisted.episodeForRowSequence (kept : log.deleted ≤ seq.toNat)
    (below : seq.toNat < totalRows episodes) :
    ∃ first step, episodeForRowSequence database seq = .ok first ∧
      locate (rowSegments episodes) seq.toNat = some (first.toNat, step) := by
  obtain ⟨first, row, resolves⟩ := persisted.resolves kept below
  refine ⟨first, row.stepIndex.toNat, ?_, resolves.appendedAs⟩
  rw [Replay.episodeForRowSequence, resolves.index]
  simp only [orStorage, bind, Except.bind, decodeEpisodeFromRowKey_rowKey]

theorem Persisted.readRow {resolved} (kept : log.deleted ≤ seq.toNat)
    (resolvedAs : ResolvedAs episodes seq resolved) :
    ∃ sampled, readRow codec.toReplayCodec database resolved = .ok sampled ∧
      SampledAs codec episodes seq sampled := by
  obtain ⟨episode, row, appended, same⟩ := resolvedAs
  have inLog : locate log.segments seq.toNat = some (resolved.1.toNat, row.stepIndex.toNat) := by
    rw [persisted.locate_eq, appended.place]
  have segment := (log.firstSegment_le_iff inLog).mpr kept
  obtain ⟨bytes, encoded, stored⟩ := persisted.row_stored segment appended.present appended.inRows
  refine ⟨(resolved.1, codec.storedRow row), ?_, episode, row, appended, rfl⟩
  rw [Replay.readRow, same, stored]
  simp [orStorage, bind, Except.bind, codec.decodeRow_encodeRow encoded, pure, Except.pure]

variable {start : UInt64} {first step : Nat}
  (kept : log.deleted ≤ start.toNat)
  (found : locate (rowSegments episodes) start.toNat = some (first, step))
  (ordered : first ≤ seq.toNat)
include kept found ordered

theorem Persisted.firstSegment_le : log.firstSegment ≤ seq.toNat := by
  have inLog : locate log.segments start.toNat = some (first, step) := by
    rw [persisted.locate_eq, found]
  exact Nat.le_trans ((log.firstSegment_le_iff inLog).mpr kept) ordered

theorem Persisted.recordStored {episode} (present : episodes[seq.toNat]? = some episode) :
    ∃ bytes, database.get .episodes (episodeKey seq) = some bytes ∧
      codec.decodeEpisode bytes = .ok episode.record := by
  have stored := persisted.episodeStored (persisted.firstSegment_le kept found ordered) present
  obtain ⟨bytes, encoded, read⟩ := stored.record
  exact ⟨bytes, read, codec.decodeEpisode_encodeEpisode encoded⟩

theorem Persisted.terminalKey (terminated : Terminated episodes seq) :
    ∃ key, terminalKey codec database seq = .ok key ∧ TerminalKeyAs episodes seq key := by
  obtain ⟨episode, present, hasTerminal⟩ := terminated
  obtain ⟨bytes, stored, decoded⟩ := persisted.recordStored kept found ordered present
  refine ⟨_, ?_, episode, present, hasTerminal, rfl⟩
  rw [ReplayEpisodeRecord.HasTerminal] at hasTerminal
  have fits : ¬ UInt32.size ≤ episode.record.steps.length := by
    have bound := episode.record.rowCount.toNat_lt_size
    omega
  rw [Replay.terminalKey, stored]
  simp only [orStorage, bind, Except.bind, decoded]
  rw [if_neg (not_not.mpr hasTerminal), if_neg fits]
  rfl

theorem Persisted.readTerminal {resolved} (shaped : ∀ episode ∈ episodes, episode.Shaped)
    (keyAs : TerminalKeyAs episodes seq resolved) :
    ∃ sampled, readTerminal codec database resolved = .ok sampled ∧
      TerminalAs codec episodes start seq sampled := by
  obtain ⟨episode, present, hasTerminal, rfl⟩ := keyAs
  have member := mem_of_getElem? present
  have firstFits : (UInt64.ofNat first).toNat = first :=
    UInt64.toNat_ofNat_of_lt' (Nat.lt_of_le_of_lt ordered seq.toNat_lt_size)
  obtain ⟨number, row, appended, later, terminal, place⟩ :=
    (shaped episode member).terminalAt (persisted.appendable episode member).numbered present
      hasTerminal (by rw [firstFits]; exact found) (by rw [firstFits]; exact ordered)
  obtain ⟨bytes, encoded, stored⟩ := persisted.row_stored
    (persisted.firstSegment_le kept found ordered) present appended.inRows
  refine ⟨(seq, codec.storedRow row), ?_, number, episode, row, appended, later, terminal, rfl⟩
  rw [Replay.readTerminal, ← place, stored]
  simp [orStorage, bind, Except.bind, codec.decodeRow_encodeRow encoded, pure, Except.pure,
    codec.storedRow_kind, terminal]

end

theorem exists_mapM_ok {α β : Type} {lookup : α → ReplayResult β} {inputs Related}
    (each : ∀ input ∈ inputs, ∃ output, lookup input = .ok output ∧ Related input output) :
    ∃ outputs, inputs.mapM lookup = .ok outputs ∧ List.Forall₂ Related inputs outputs := by
  induction inputs with
  | nil => exact ⟨[], rfl, .nil⟩
  | cons input rest ih =>
    obtain ⟨output, found, related⟩ := each input (mem_cons_self ..)
    obtain ⟨outputs, restFound, restRelated⟩ := ih
      fun other member => each other (mem_cons_of_mem _ member)
    refine ⟨output :: outputs, ?_, .cons related restRelated⟩
    rw [mapM_cons, found, restFound]
    rfl

/-- Looking up what belongs to the inputs one after the other finds what
belongs to them. -/
theorem exists_mapM_ok_of_forall₂ {α β γ : Type} {lookup : β → ReplayResult γ} {inputs keys Keyed}
    {Related : α → γ → Prop} (keyed : List.Forall₂ Keyed inputs keys)
    (each : ∀ input ∈ inputs, ∀ key, Keyed input key → ∃ output, lookup key = .ok output ∧
      Related input output) :
    ∃ outputs, keys.mapM lookup = .ok outputs ∧ List.Forall₂ Related inputs outputs := by
  induction keyed with
  | nil => exact ⟨[], rfl, .nil⟩
  | cons first _ ih =>
    obtain ⟨output, found, related⟩ := each _ (mem_cons_self ..) _ first
    obtain ⟨outputs, restFound, restRelated⟩ := ih
      fun other member => each other (mem_cons_of_mem _ member)
    refine ⟨output :: outputs, ?_, .cons related restRelated⟩
    rw [mapM_cons, found, restFound]
    rfl

variable {config : SampleConfig} {window : SampleWindow} {picks : Picks}

section

variable (persisted : Persisted codec.toReplayCodec episodes log memory database)
  (drawn : DrawnFrom episodes config window picks)
  (kept : log.deleted ≤ (window.start config).toNat)
include persisted drawn kept

theorem Persisted.resolve (below : window.produced.toNat ≤ totalRows episodes) :
    ∃ keys, picks.resolve codec database = .ok keys ∧ KeysOf episodes picks keys := by
  have within := drawn.within
  cases picks with
  | rows sequences =>
    refine exists_mapM_ok fun seq member => ?_
    have range := within seq member
    exact persisted.resolveRow (Nat.le_trans kept range.1) (Nat.lt_of_lt_of_le range.2 below)
  | episodes first last sequences =>
    obtain ⟨⟨step, found⟩, each⟩ := within
    refine exists_mapM_ok fun seq member => ?_
    exact persisted.terminalKey kept found (each seq member).1 (each seq member).2.2

theorem Persisted.read {keys : List (UInt64 × Bytes)}
    (shaped : ∀ episode ∈ episodes, episode.Shaped) (keysOf : KeysOf episodes picks keys) :
    ∃ rows, picks.read codec database keys = .ok rows ∧
      RowsOf codec episodes (window.start config) picks rows := by
  have within := drawn.within
  cases picks with
  | rows sequences =>
    exact exists_mapM_ok_of_forall₂ keysOf fun seq member key keyed =>
      persisted.readRow (Nat.le_trans kept (within seq member).1) keyed
  | episodes first last sequences =>
    obtain ⟨⟨step, found⟩, each⟩ := within
    exact exists_mapM_ok_of_forall₂ keysOf fun seq member key keyed =>
      persisted.readTerminal kept found (each seq member).1 shaped keyed

end

end Reads

section Samplers

variable {codec : RecordCodec} {episodes : List EpisodeAppend} {deleted : Nat}
  {store : ReplayStore} {config : SampleConfig} {window : SampleWindow} {after : Sampler}

theorem SamplerHolds.afterCount {kind floor}
    (holds : SamplerHolds codec episodes deleted (some store) (.floorLoaded kind config floor))
    (kept : deleted ≤ SampleWindow.oldest ⟨floor, store.producedRows⟩ config)
    (moved : Sampler.afterCount config ⟨floor, store.producedRows⟩ kind = some after) :
    SamplerHolds codec episodes deleted (some store) after := by
  obtain ⟨current, same, floorBelow⟩ := holds
  cases same
  have ordered : floor.toNat ≤ store.producedRows.toNat := by omega
  have isExact : (SampleWindow.mk floor store.producedRows).Exact config :=
    SampleWindow.exact_of_le config ordered
  by_cases nothing : (SampleWindow.mk floor store.producedRows).IsEmpty
  · unfold Sampler.afterCount at moved
    rw [if_pos nothing] at moved
    cases moved
    refine ⟨rfl, ?_, isExact⟩
    rcases nothing with notAbove | zero
    · rw [UInt64.le_iff_toNat_le] at notAbove
      have countZero : store.producedRows.toNat = 0 := by
        simp only at notAbove
        omega
      exact UInt64.toNat_inj.mp countZero
    · exact zero
  · unfold Sampler.afterCount at moved
    rw [if_neg nothing] at moved
    have floorLt : floor.toNat < store.producedRows.toNat := by
      apply Nat.lt_of_not_le
      intro notBelow
      exact nothing (Or.inl (UInt64.le_iff_toNat_le.mpr notBelow))
    have startMax := isExact.start_eq_max
    have holds : WindowHolds deleted (some store) config ⟨floor, store.producedRows⟩ :=
      ⟨floorLt, isExact, by rw [startMax]; exact kept, store, rfl, Nat.le_refl _⟩
    cases kind with
    | terminals =>
      cases moved
      exact holds
    | rows =>
      obtain ⟨sequences, draws, same⟩ := Option.map_eq_some_iff.mp moved
      cases same
      have startAt := isExact.start_eq
      have countFits := store.producedRows.toNat_lt_size
      have sizeBound := isExact.size_eq
      simp only at startAt sizeBound
      have spec := drawSequences_spec (isExact.size_pos nothing) (by omega) draws
      refine ⟨holds, floorLt, isExact, spec.1, fun seq member => ?_⟩
      have range := spec.2 seq member
      simp only
      omega

theorem SamplerHolds.afterEnd {visible first}
    (holds : SamplerHolds codec episodes deleted visible (.located config window first))
    (below : first.toNat < store.nextEpisodeSeq.toNat)
    (terminated : ∀ seq : UInt64, first ≤ seq → seq < store.nextEpisodeSeq →
      Terminated episodes seq)
    (moved : Sampler.afterEnd config window first store.nextEpisodeSeq = some after) :
    SamplerHolds codec episodes deleted visible after := by
  obtain ⟨holds, step, found⟩ := holds
  have above : ¬ store.nextEpisodeSeq ≤ first := by
    rw [UInt64.le_iff_toNat_le]
    omega
  rw [Sampler.afterEnd, if_neg above] at moved
  obtain ⟨sequences, draws, same⟩ := Option.map_eq_some_iff.mp moved
  cases same
  have span : (store.nextEpisodeSeq - first).toNat =
      store.nextEpisodeSeq.toNat - first.toNat :=
    UInt64.toNat_sub_of_le _ _ (UInt64.le_iff_toNat_le.mpr (Nat.le_of_lt below))
  have endFits := store.nextEpisodeSeq.toNat_lt_size
  have pos : 0 < store.nextEpisodeSeq - first := by
    rw [UInt64.lt_iff_toNat_lt, span]
    exact Nat.sub_pos_of_lt below
  have spec := drawSequences_spec pos (by omega) draws
  refine ⟨holds, holds.floor_lt, holds.isExact, spec.1, ⟨step, found⟩, fun seq member => ?_⟩
  have range := spec.2 seq member
  refine ⟨range.1, by omega, terminated seq (UInt64.le_iff_toNat_le.mpr range.1) ?_⟩
  rw [UInt64.lt_iff_toNat_lt]
  omega

end Samplers

section Steps

variable {codec : ReplayCodec} {episodes : List EpisodeAppend}
  {log : RetainedLog ReplayRow} {memory : ReplayStore}

theorem Consistent.visible {world store} (sound : Consistent codec episodes log memory world)
    (current : world.phase.visible = some store) :
    store.producedRows.toNat ≤ totalRows episodes ∧
      (store.retainedFloor.toNat < store.producedRows.toNat ∨ store.retainedFloor.toNat = 0) ∧
      log.deleted ≤ store.retainedFloor.toNat := by
  have persisted := sound.persisted
  have produced := persisted.producedRows
  have retained := persisted.retained
  have ordered := log.deleted_le_retained
  have floorBelow := persisted.floor_lt_produced
  have phase := sound.phase
  cases same : world.phase with
  | closed | opening =>
    rw [same] at current
    cases current
  | idle before | counted before =>
    rw [same] at current phase
    cases current
    rw [PhaseHolds] at phase
    rw [phase]
    omega
  | appended before counters =>
    rw [same] at current phase
    cases current
    obtain ⟨published, below, floor⟩ := phase
    have floorSame : store.retainedFloor = memory.retainedFloor := by
      rw [← published]
      rfl
    rw [floorSame] at floor ⊢
    omega
  | retired before newFloor =>
    rw [same] at current phase
    cases current
    obtain ⟨published, deleted⟩ := phase
    have countSame : store.producedRows = memory.producedRows := by
      rw [← published]
    rw [countSame, deleted]
    omega

theorem Consistent.visible_mono {world next label store nextStore}
    (sound : Consistent codec episodes log memory world) (step : Step codec world label next)
    (current : world.phase.visible = some store) (later : next.phase.visible = some nextStore) :
    store.producedRows.toNat ≤ nextStore.producedRows.toNat ∧
      (label = .publishFloor ∨ nextStore.retainedFloor = store.retainedFloor) := by
  cases step with
  | openStore | openMismatched | openUnreadable | openWrite | opened => cases current
  | crash => cases later
  | ensureContract accepted =>
    cases current
    cases later
    obtain ⟨_, _, accepted⟩ := ok_of_bind accepted
    obtain ⟨_, _, accepted⟩ := ok_of_bind accepted
    cases accepted
    exact ⟨Nat.le_refl _, Or.inr rfl⟩
  | publishCounters =>
    cases current
    cases later
    obtain ⟨published, below, _⟩ := sound.phase
    rw [published]
    exact ⟨below, Or.inr (by rw [← published]; rfl)⟩
  | recordConsumed visible recorded =>
    rename_i database phase before updated count batch
    obtain ⟨_, _, recorded⟩ := ok_of_bind recorded
    cases recorded
    cases phase with
    | closed | opening => cases current
    | idle | counted | appended | retired =>
      cases visible
      cases current
      cases later
      exact ⟨Nat.le_refl _, Or.inr rfl⟩
  | consumedRefused visible =>
    rw [current] at later
    cases later
    exact ⟨Nat.le_refl _, Or.inr rfl⟩
  | contractRefused | appendEpisode | episodeRefused | appendEpisodePair
  | pairRefused | retentionIdle | retentionWrite | retentionFailed =>
    cases current
    cases later
    exact ⟨Nat.le_refl _, Or.inr rfl⟩
  | publishFloor =>
    cases current
    cases later
    exact ⟨Nat.le_refl _, Or.inl rfl⟩

theorem withVisible_visible {phase : Phase} {store updated} (current : phase.visible = some store) :
    (phase.withVisible updated).visible = some updated := by
  cases phase with
  | closed | opening => cases current
  | idle | counted | appended | retired => rfl

theorem Step.visible_isSome {world next : World} {label store} (step : Step codec world label next)
    (current : world.phase.visible = some store) (alive : label ≠ .crash) :
    ∃ nextStore, next.phase.visible = some nextStore := by
  cases step with
  | openStore | openMismatched | openUnreadable | openWrite | opened => cases current
  | crash => exact absurd rfl alive
  | recordConsumed visible => exact ⟨_, withVisible_visible visible⟩
  | consumedRefused => exact ⟨store, current⟩
  | _ => exact ⟨_, rfl⟩

theorem Persisted.countsRows {database} (persisted : Persisted codec episodes log memory database)
    {store} (sameEpisodes : store.nextEpisodeSeq = memory.nextEpisodeSeq)
    (sameRows : store.producedRows = memory.producedRows) : CountsRows episodes store := by
  constructor
  · rw [sameEpisodes, persisted.nextEpisodeSeq]
  · rw [sameEpisodes, sameRows, persisted.nextEpisodeSeq, take_length, persisted.producedRows]

/-- Only while an append is published do readers see an earlier store. -/
theorem Consistent.countsRows {world} (sound : Consistent codec episodes log memory world)
    (published : ∀ store counters, world.phase ≠ .appended store counters) {store}
    (current : world.phase.visible = some store) : CountsRows episodes store := by
  have persisted := sound.persisted
  have phase := sound.phase
  cases same : world.phase with
  | closed | opening =>
    rw [same] at current
    cases current
  | idle before | counted before =>
    rw [same] at current phase
    cases current
    rw [PhaseHolds] at phase
    exact persisted.countsRows (by rw [phase]) (by rw [phase])
  | appended before counters => exact absurd same (published before counters)
  | retired before newFloor =>
    rw [same] at current phase
    cases current
    exact persisted.countsRows (by rw [← phase.1]) (by rw [← phase.1])

theorem Consistent.countsRows_step {world next label nextLog nextMemory}
    (sound : Consistent codec episodes log memory world)
    (later : Consistent codec (episodes ++ label.appended) nextLog nextMemory next)
    (step : Step codec world label next)
    (counts : ∀ store, world.phase.visible = some store → CountsRows episodes store) {store}
    (current : next.phase.visible = some store) :
    CountsRows (episodes ++ label.appended) store := by
  by_cases published : ∀ store counters, next.phase ≠ .appended store counters
  · exact later.countsRows published current
  cases step with
  | appendEpisode | appendEpisodePair =>
    cases current
    exact (sound.countsRows (by simp) rfl).append
  | recordConsumed visible recorded =>
    rename_i database phase before updated count batch
    obtain ⟨_, _, recorded⟩ := ok_of_bind recorded
    cases recorded
    have before := counts _ visible
    cases phase with
    | closed | opening => cases visible
    | idle | counted | appended | retired =>
      cases visible
      cases current
      exact ⟨before.append.episodes_le, before.append.rows_eq⟩
  | consumedRefused visible => exact (counts _ current).append
  | _ => exact absurd (by simp) published

theorem Step.shaped {world next label} (step : Step codec world label next) :
    ∀ episode ∈ label.appended, episode.Shaped := by
  cases step with
  | appendEpisode accepted =>
    obtain ⟨_, accepted⟩ := ok_of_guard accepted
    obtain ⟨_, _, accepted⟩ := ok_of_bind accepted
    obtain ⟨_, valid, _⟩ := ok_of_bind accepted
    rintro episode member
    cases mem_singleton.mp member
    exact shaped_of_validateEpisode valid
  | appendEpisodePair accepted =>
    obtain ⟨_, _, accepted⟩ := ok_of_bind accepted
    obtain ⟨_, _, accepted⟩ := ok_of_bind accepted
    obtain ⟨_, primary, accepted⟩ := ok_of_bind accepted
    obtain ⟨_, secondary, _⟩ := ok_of_bind accepted
    rintro episode member
    rcases mem_cons.mp member with rfl | member
    · exact shaped_of_validateEpisode primary
    · cases mem_singleton.mp member
      exact shaped_of_validateEpisode secondary
  | _ => simp [Label.appended]

end Steps

section Steps

variable {codec : RecordCodec} {episodes : List EpisodeAppend}
  {log : RetainedLog ReplayRow} {memory : ReplayStore}

/-- What a step of the writer makes of the store; a retention cycle cuts as
`Cuts` says. -/
theorem SamplingHolds.writer {world next samplers label}
    (holds : SamplingHolds codec episodes log memory ⟨world, samplers⟩)
    (step : Step codec.toReplayCodec world label next) :
    ∃ (nextLog : RetainedLog ReplayRow) (nextMemory : ReplayStore),
      Consistent codec.toReplayCodec (episodes ++ label.appended) nextLog nextMemory next ∧
        (∀ episode ∈ episodes ++ label.appended, episode.Shaped) ∧
        (∀ store, next.phase.visible = some store → CountsRows (episodes ++ label.appended) store) ∧
        (nextLog.deleted = log.deleted ∨
          label = .enforceRetention (.ok ()) ∧ Cuts world nextLog.deleted) := by
  obtain ⟨nextLog, nextMemory, kept, _, cuts⟩ := holds.consistent.step step
  refine ⟨nextLog, nextMemory, kept, ?_,
    fun store => holds.consistent.countsRows_step kept step holds.counts, cuts⟩
  intro episode member
  rcases mem_append.mp member with before | new
  · exact holds.shaped episode before
  · exact step.shaped episode new

theorem SamplingHolds.store {world next samplers label}
    (holds : SamplingHolds codec episodes log memory ⟨world, samplers⟩)
    (spares : ∀ session, Spares ⟨world, samplers⟩ session (.store label))
    (step : Step codec.toReplayCodec world label next) (runsOn : next.phase.visible.isSome) :
    ∃ nextLog nextMemory,
      SamplingHolds codec (episodes ++ label.appended) nextLog nextMemory ⟨next, samplers⟩ := by
  obtain ⟨nextLog, nextMemory, kept, shaped, counts, cuts⟩ := holds.writer step
  refine ⟨nextLog, nextMemory, kept, shaped, counts, fun session => ?_⟩
  obtain ⟨nextStore, later⟩ := Option.isSome_iff_exists.mp runsOn
  apply (holds.samplers session).step
  · intro store current
    exact ⟨nextStore, later, (holds.consistent.visible_mono step current later).1⟩
  · rcases cuts with same | ⟨retention, cut⟩
    · exact Or.inl same
    · have sparing := spares session
      rw [retention] at sparing
      exact Or.inr (sparing _ cut)

theorem SamplingHolds.move {state session sampler}
    (holds : SamplingHolds codec episodes log memory state)
    (moved : SamplerHolds codec episodes log.deleted state.world.phase.visible sampler) :
    SamplingHolds codec episodes log memory
      ⟨state.world, moveTo state.samplers session sampler⟩ := by
  refine ⟨holds.consistent, holds.shaped, holds.counts, fun other => ?_⟩
  change SamplerHolds codec episodes log.deleted state.world.phase.visible
    (moveTo state.samplers session sampler other)
  by_cases same : other = session
  · rw [moveTo, same, Function.update_self]
    exact moved
  · rw [moveTo, Function.update_of_ne same]
    exact holds.samplers other

section

variable {state : SamplingWorld} (holds : SamplingHolds codec episodes log memory state)
  {config : SampleConfig} {window : SampleWindow}
  (opened : WindowHolds log.deleted state.world.phase.visible config window)
include holds opened

theorem SamplingHolds.produced_le : window.produced.toNat ≤ totalRows episodes := by
  obtain ⟨store, current, below⟩ := opened.counted
  exact Nat.le_trans below (holds.consistent.visible current).1

/-- The first episode of a window is one that its readers have seen. -/
theorem SamplingHolds.first_lt {first : UInt64} {step store}
    (current : state.world.phase.visible = some store)
    (found : locate (rowSegments episodes) (window.start config).toNat =
      some (first.toNat, step)) :
    first.toNat < store.nextEpisodeSeq.toNat := by
  obtain ⟨seen, same, below⟩ := opened.counted
  rw [current, Option.some.injEq] at same
  rw [← same, (holds.counts store current).rows_eq] at below
  have starts := opened.isExact.start_eq_max
  have pos : 0 < config.windowRows.toNat := config.windowRows_pos
  have floorBelow := opened.floor_lt
  have inside : (window.start config).toNat <
      totalRows (episodes.take store.nextEpisodeSeq.toNat) := by omega
  obtain ⟨place, inTaken⟩ := exists_locate inside
  have same : rowSegments episodes = rowSegments (episodes.take store.nextEpisodeSeq.toNat) ++
        rowSegments (episodes.drop store.nextEpisodeSeq.toNat) := by
    rw [← rowSegments_append, take_append_drop]
  rw [same, locate_append_of_lt inside, inTaken, Option.some.injEq] at found
  obtain ⟨segment, present, _⟩ := locate_eq_some_iff.mp inTaken
  have bound := lt_length_of_getElem? present
  rw [found, rowSegments, length_map, length_take] at bound
  simp only at bound
  omega

end

theorem SamplingHolds.step {state next : SamplingWorld} {label}
    (holds : SamplingHolds codec episodes log memory state)
    (allowed : SparesSamples codec state label) (step : SamplingStep codec state label next) :
    ∃ nextLog nextMemory, SamplingHolds codec (episodes ++ label.appended) nextLog nextMemory
        next := by
  have unchanged : ∀ {other : SamplingWorld},
      SamplingHolds codec episodes log memory other → ∃ nextLog nextMemory,
          SamplingHolds codec (episodes ++ []) nextLog nextMemory other :=
    fun kept => ⟨log, memory, by rw [append_nil]; exact kept⟩
  have persisted := holds.consistent.persisted
  cases step with
  | store step runsOn => exact holds.store allowed.spares step runsOn
  | storeAlone step notOpen =>
    obtain ⟨nextLog, nextMemory, kept, shaped, counts, _⟩ := holds.writer step
    exact ⟨nextLog, nextMemory, kept, shaped, counts, fun _ => trivial⟩
  | loadFloor ready current =>
    rename_i world samplers store session kind config
    apply unchanged
    apply holds.move
    exact ⟨store, current, (holds.consistent.visible current).2.1⟩
  | loadCount loaded current moved =>
    rename_i world samplers store session kind config floor after
    have sampler := holds.samplers session
    simp only [loaded, current] at sampler
    have kept := allowed.spares session rfl kind config floor loaded store current log.deleted
      persisted.logView.deletedFloor
    apply unchanged
    apply holds.move
    rw [current]
    exact sampler.afterCount kept moved
  | findFirst counted =>
    rename_i world samplers session config window
    have opened := holds.samplers session
    simp only [counted] at opened
    have starts := opened.isExact.start_eq_max
    have pos : 0 < config.windowRows.toNat := config.windowRows_pos
    have floorBelow := opened.floor_lt
    have produced := holds.produced_le opened
    obtain ⟨first, step, found, place⟩ :=
      persisted.episodeForRowSequence opened.kept (by omega)
    apply unchanged
    apply holds.move
    rw [found]
    exact ⟨opened, step, place⟩
  | loadEnd located current moved =>
    rename_i world samplers store session config window first after
    have sampler := holds.samplers session
    simp only [located] at sampler
    obtain ⟨opened, step, found⟩ := sampler
    apply unchanged
    apply holds.move
    refine SamplerHolds.afterEnd ⟨opened, step, found⟩ (holds.first_lt opened current found) ?_
      moved
    intro seq above below
    have bound := (holds.counts store current).episodes_le
    rw [UInt64.lt_iff_toNat_lt] at below
    rw [UInt64.le_iff_toNat_le] at above
    have present := getElem?_eq_getElem (Nat.lt_of_lt_of_le below bound)
    obtain ⟨bytes, stored, decoded⟩ :=
      persisted.recordStored opened.kept found above present
    exact ⟨_, present, allowed.terminals config window first located store current seq bytes _
      (UInt64.le_iff_toNat_le.mpr above) (UInt64.lt_iff_toNat_lt.mpr below) stored decoded⟩
  | multiGetKeys drawn =>
    rename_i world samplers session config window picks
    have sampler := holds.samplers session
    simp only [drawn] at sampler
    obtain ⟨opened, drawnFrom⟩ := sampler
    obtain ⟨keys, found, keysOf⟩ :=
      persisted.resolve drawnFrom opened.kept (holds.produced_le opened)
    apply unchanged
    apply holds.move
    rw [found]
    exact ⟨opened, drawnFrom, keysOf⟩
  | multiGetRows resolved =>
    rename_i world samplers session config window picks keys
    have sampler := holds.samplers session
    simp only [resolved] at sampler
    obtain ⟨opened, drawnFrom, keysOf⟩ := sampler
    obtain ⟨rows, found, rowsOf⟩ := persisted.read drawnFrom opened.kept holds.shaped keysOf
    apply unchanged
    apply holds.move
    rw [found]
    exact ⟨drawnFrom, rowsOf⟩
  | inspected read =>
    rename_i world samplers session config window sequences rows
    have sampler := holds.samplers session
    simp only [read] at sampler
    apply unchanged
    apply holds.move
    exact sampler
  | consumed read current recorded =>
    rename_i world samplers store updated session config window picks rows batch
    have sampler := holds.samplers session
    simp only [read] at sampler
    have recordedStep : Step codec.toReplayCodec world (.recordConsumed config.batch (.ok ()))
        ⟨world.database.write batch, world.phase.withVisible updated⟩ :=
      Step.recordConsumed current recorded
    have runsOn : (world.phase.withVisible updated).visible =
        some updated := withVisible_visible current
    have spared : ∀ session, Spares ⟨world, samplers⟩ session
        (.store (.recordConsumed config.batch (.ok ()))) := fun _ => trivial
    obtain ⟨nextLog, nextMemory, kept⟩ := holds.store spared recordedStep
      (by simp only [runsOn, Option.isSome_some])
    have finished : SampleOutcome codec episodes config window picks (.ok rows) := sampler
    exact ⟨nextLog, nextMemory, kept.move finished.append⟩
  | consumedRefused read current refused =>
    rename_i world samplers store session config window picks rows failure
    have room := allowed.room store current config window picks rows read
    obtain ⟨sum, sumIs⟩ : ∃ sum, checkedAdd store.consumedRows config.batch = some sum := by
      rw [checkedAdd, if_pos room]
      exact ⟨_, rfl⟩
    unfold ReplayStore.recordConsumed at refused
    rw [sumIs] at refused
    cases refused

end Steps

/-! ## Every run -/

theorem samplingHolds_initial (codec : RecordCodec) :
    SamplingHolds codec [] RetainedLog.empty emptyMemory SamplingWorld.initial where
  consistent := consistent_initial codec.toReplayCodec
  shaped := by simp
  counts _ current := by cases current
  samplers _ := trivial

/-- In every run whose writer spares the samples beside it, a sample returns
rows that were appended at the sequences it drew from its window, or the
terminal rows of the episodes it drew, or reports that there were none; its
window does not underflow. -/
theorem sampling_stays_in_window {codec : RecordCodec}
    {labels : List SamplingLabel} {state : SamplingWorld}
    (run : ((samplingSystem codec).guarded (SparesSamples codec)).Run SamplingWorld.initial
      labels state)
    (session : Nat) {config : SampleConfig} {window : SampleWindow} {picks : Picks}
    {result : ReplayResult (List (UInt64 × ReplayRow))}
    (finished : state.samplers session = .finished config window picks result) :
    SampleOutcome codec (sampledEpisodes labels) config window picks result := by
  have holds : ∃ log memory,
      SamplingHolds codec (sampledEpisodes labels) log memory state := by
    apply run.history fun labels state => ∃ log memory,
      SamplingHolds codec (sampledEpisodes labels) log memory state
    · rintro earlier mid label next ⟨log, memory, holds⟩ ⟨allowed, step⟩
      rw [sampledEpisodes, flatMap_append, flatMap_singleton]
      exact holds.step allowed step
    · exact ⟨_, _, samplingHolds_initial codec⟩
  obtain ⟨log, memory, holds⟩ := holds
  have sampler := holds.samplers session
  rw [finished] at sampler
  exact sampler

/-! ## One cycle beside a sample -/

/-- Until another floor is published, nothing is deleted past the floor that a
sample has loaded, also not by a cycle written beside it: a sample is spared
unless two cycles move the floors beside it. -/
theorem spared_by_one_cycle {codec earlier beside world later loaded}
    (reached : (storeSystem codec).Run World.initial earlier world)
    (current : world.phase.visible = some loaded) (run : (storeSystem codec).Run world beside later)
    (alone : ∀ label ∈ beside, label ≠ .publishFloor ∧ label ≠ .crash) :
    (∀ cut, Cuts later cut → cut ≤ loaded.retainedFloor.toNat) ∧
      ∀ deleted, readFloor later.database .deletedFloor = .ok deleted →
        deleted ≤ loaded.retainedFloor.toNat := by
  obtain ⟨log, memory, sound⟩ := consistent_of_run (reached.append run)
  have kept : ∃ store, later.phase.visible = some store ∧
      store.retainedFloor = loaded.retainedFloor := by
    refine (run.transfer (storeSystem codec) (fun world => (∃ episodes log memory,
      Consistent codec episodes log memory world) ∧ ∃ store, world.phase.visible = some store ∧
        store.retainedFloor = loaded.retainedFloor) ?_ ?_).2.2
    · rintro world label next member ⟨⟨episodes, log, memory, sound⟩, store, seen, same⟩ step
      obtain ⟨nextLog, nextMemory, kept, _⟩ := sound.step step
      refine ⟨step, ⟨_, nextLog, nextMemory, kept⟩, ?_⟩
      obtain ⟨unpublished, alive⟩ := alone label member
      obtain ⟨nextStore, later⟩ := step.visible_isSome seen alive
      rcases (sound.visible_mono step seen later).2 with published | floor
      · exact absurd published unpublished
      · exact ⟨nextStore, later, floor.trans same⟩
    · obtain ⟨log, memory, sound⟩ := consistent_of_run reached
      exact ⟨⟨_, log, memory, sound⟩, loaded, current, rfl⟩
  obtain ⟨store, seen, same⟩ := kept
  rw [← same]
  constructor
  · rintro cut ⟨counted, retention, phase, _, rfl⟩
    rw [phase] at seen
    cases seen
    exact Nat.le_refl _
  · intro deleted read
    rw [sound.persisted.logView.deletedFloor] at read
    cases read
    exact (sound.visible seen).2.2

namespace Sample

/-- One row of window, and one draw. -/
def config : SampleConfig where
  batch := 1
  windowRows := 1
  seed := 0
  batch_pos := by decide
  windowRows_pos := by decide

def ending : EpisodeAppend where
  record := { steps := [[1]], stopped := false, rowCount := 2, content := [2] }
  rows := [⟨.decision, 0, [3]⟩, ⟨.terminal, 1, [4]⟩]

/-- Refuses every record but that of `ending`. -/
def recordCodec : RecordCodec where
  toReplayCodec :=
    { codec with
      encodeEpisode := fun record =>
        if record = ending.record then .ok [2] else .error .invalidRecord }
  decodeEpisode bytes := if bytes = [2] then .ok ending.record else .error .invalidRecord
  decodeEpisode_encodeEpisode := by
    intro record bytes encoded
    by_cases same : record = ending.record
    · simp only [if_pos same] at encoded
      cases encoded
      rw [same]
      rfl
    · simp only [if_neg same] at encoded
      cases encoded
  storedRow_kind _ := rfl

/-- The runs below keep two rows, in episodes of two rows each. -/
abbrev twoRows : TransitionSystem SamplingWorld SamplingLabel :=
  (samplingSystem recordCodec).guarded (SparesSamples recordCodec)

/-- The store after `count` episodes, with `floor` published. -/
def keptStore (count floor : UInt64) : ReplayStore :=
  { openedStore 2 with
    nextEpisodeSeq := count
    completedGames := count
    producedRows := 2 * count
    retainedFloor := floor }

def appendedTo (database : Database) (count : UInt64) : Database :=
  database.write [.put .episodes (episodeKey count) [2],
     .put .rows (rowKey count 0) (encodeRow ⟨.decision, 0, [3]⟩),
     .put .rowIndex (rowIndexKey (2 * count)) (rowKey count 0),
     .put .rows (rowKey count 1) (encodeRow ⟨.terminal, 1, [4]⟩),
     .put .rowIndex (rowIndexKey (2 * count + 1)) (rowKey count 1),
     .putMeta .nextEpisodeSeq (encodeU64 (count + 1)),
     .putMeta .producedRows (encodeU64 (2 * count + 2)),
     .putMeta .completedGames (encodeU64 (count + 1)),
     .putMeta .episodesStopped (encodeU64 0)]

def cutTo (database : Database) (floor newFloor floorEpisode : UInt64) : Database :=
  database.write (ReplayStore.retentionBatch 0 floor newFloor 0 floorEpisode)

def firstDatabase : Database :=
  appendedTo openedDatabase 0

def secondDatabase : Database :=
  cutTo (appendedTo firstDatabase 1) 0 2 0

def thirdDatabase : Database :=
  cutTo (appendedTo secondDatabase 2) 2 4 1

/-- A database open for `count` episodes and `floor`, beside `samplers`. -/
def kept (database : Database) (count floor : UInt64) (samplers : Nat → Sampler) : SamplingWorld :=
  ⟨⟨database, .idle (keptStore count floor)⟩, samplers⟩

def noSamplers : Nat → Sampler :=
  fun _ => .idle

def rowSamplers : Nat → Sampler :=
  moveTo (moveTo noSamplers 0 (.floorLoaded .rows config 0)) 0 (.drawn config ⟨0, 2⟩ (.rows [1]))

/-- One sample has drawn the row one, and one the episode zero. -/
def drawnSamplers : Nat → Sampler :=
  moveTo (moveTo (moveTo (moveTo rowSamplers 1 (.floorLoaded .terminals config 0))
    1 (.counted config ⟨0, 2⟩)) 1 (.located config ⟨0, 2⟩ 0))
    1 (.drawn config ⟨0, 2⟩ (.episodes 0 1 [0]))

/-- Opening a new database and appending one episode. -/
def firstLabels : List SamplingLabel :=
  [.store (.openStore (some 2) (.ok ())), .store .openWrite,
   .store .openWrite, .store .openWrite, .store .opened,
   .store (.appendEpisode checks ending (.ok ())), .store .publishCounters,
   .store (.enforceRetention (.ok ()))]

def drawLabels : List SamplingLabel :=
  [.loadFloor 0 .rows config, .loadCount 0, .loadFloor 1 .terminals config, .loadCount 1,
   .findFirst 1, .loadEnd 1]

/-- Appending one episode and moving the floors. -/
def cycleLabels : List SamplingLabel :=
  [.store (.appendEpisode checks ending (.ok ())), .store .publishCounters,
   .store (.enforceRetention (.ok ())), .store .publishFloor]

theorem hasTerminal_of_decodeEpisode {bytes record}
    (decoded : recordCodec.decodeEpisode bytes = .ok record) : record.HasTerminal := by
  change (if bytes = [2] then _ else _) = _ at decoded
  split at decoded
  · cases decoded
    rfl
  · cases decoded

/-- The floor that a cycle would delete below. -/
def cutFloor : Phase → UInt64
  | .counted store => store.retainedFloor
  | _ => 0

/-- Nothing is deleted as long as the floor is zero. -/
theorem twoRows_step {state next label} (step : SamplingStep recordCodec state label next)
    (room : HasRoom state label) (floor : cutFloor state.world.phase = 0)
    (deleted : readFloor state.world.database .deletedFloor = .ok 0) :
    twoRows.step state label next := by
  refine ⟨⟨fun session => ?_, ?_, room⟩, step⟩
  · unfold Spares
    split
    · rintro cut ⟨store, retention, counted, _, rfl⟩ oldest _
      rw [counted, cutFloor] at floor
      rw [floor]
      exact Nat.zero_le _
    · intro _ kind config loaded _ store _ gone read
      rw [deleted] at read
      cases read
      exact Nat.zero_le _
    · trivial
  · unfold EndsInTerminals
    split
    · intro _ _ _ _ _ _ _ _ _ _ _ _ decoded
      exact hasTerminal_of_decodeEpisode decoded
    · trivial

theorem run_first : twoRows.Run SamplingWorld.initial firstLabels
      (kept firstDatabase 1 0 noSamplers) := by
  have started : twoRows.step SamplingWorld.initial (.store (.openStore (some 2) (.ok ()))) _ :=
    twoRows_step (.storeAlone (Step.openStore rfl) rfl) trivial rfl rfl
  have appended : twoRows.step (kept openedDatabase 0 0 noSamplers)
      (.store (.appendEpisode checks ending (.ok ()))) _ :=
    twoRows_step (.store (Step.appendEpisode rfl) rfl) trivial rfl rfl
  exact .cons started (.cons (twoRows_step (.storeAlone Step.openWrite rfl) trivial rfl rfl)
    (.cons (twoRows_step (.storeAlone Step.openWrite rfl) trivial rfl rfl)
    (.cons (twoRows_step (.storeAlone Step.openWrite rfl) trivial rfl rfl)
    (.cons (twoRows_step (.store Step.opened rfl) trivial rfl rfl)
    (.cons appended
    (.cons (twoRows_step (.store Step.publishCounters rfl) trivial rfl rfl)
    (.single (twoRows_step (.store (Step.retentionIdle rfl) rfl) trivial rfl rfl))))))))

theorem run_draw : twoRows.Run (kept firstDatabase 1 0 noSamplers) drawLabels
      (kept firstDatabase 1 0 drawnSamplers) := by
  have rows : twoRows.step (kept firstDatabase 1 0 noSamplers) (.loadFloor 0 .rows config) _ :=
    twoRows_step (.loadFloor trivial rfl) trivial rfl rfl
  have terminals : twoRows.step (kept firstDatabase 1 0 rowSamplers)
      (.loadFloor 1 .terminals config) _ :=
    twoRows_step (.loadFloor trivial rfl) trivial rfl rfl
  exact .cons rows (.cons (twoRows_step (.loadCount rfl rfl rfl) trivial rfl rfl) (.cons terminals
    (.cons (twoRows_step (.loadCount rfl rfl rfl) trivial rfl rfl)
    (.cons (twoRows_step (.findFirst rfl) trivial rfl rfl)
    (.single (twoRows_step (.loadEnd rfl rfl rfl) trivial rfl rfl))))))

theorem run_second : twoRows.Run (kept firstDatabase 1 0 drawnSamplers) cycleLabels
      (kept secondDatabase 2 2 drawnSamplers) := by
  have appended : twoRows.step (kept firstDatabase 1 0 drawnSamplers)
      (.store (.appendEpisode checks ending (.ok ()))) _ :=
    twoRows_step (.store (Step.appendEpisode rfl) rfl) trivial rfl rfl
  exact .cons appended (.cons (twoRows_step (.store Step.publishCounters rfl) trivial rfl rfl)
    (.cons (twoRows_step (.store (Step.retentionWrite rfl) rfl) trivial rfl rfl)
    (.single (twoRows_step (.store Step.publishFloor rfl) trivial rfl rfl))))

theorem run_third : (samplingSystem recordCodec).Run (kept secondDatabase 2 2 drawnSamplers)
      cycleLabels (kept thirdDatabase 3 4 drawnSamplers) := by
  have appended : (samplingSystem recordCodec).step (kept secondDatabase 2 2 drawnSamplers)
      (.store (.appendEpisode checks ending (.ok ()))) _ :=
    .store (Step.appendEpisode rfl) rfl
  exact .cons appended (.cons (.store Step.publishCounters rfl)
    (.cons (.store (Step.retentionWrite rfl) rfl)
    (.single (.store Step.publishFloor rfl))))

theorem run_reads : ∃ state, twoRows.Run (kept secondDatabase 2 2 drawnSamplers)
      [.multiGetKeys 0, .multiGetRows 0, .inspected 0,
       .multiGetKeys 1, .multiGetRows 1, .consumed 1] state ∧
      state.samplers 0 = .finished config ⟨0, 2⟩ (.rows [1]) (.ok [(0, ⟨.terminal, 1, [4]⟩)]) ∧
      state.samplers 1 =
        .finished config ⟨0, 2⟩ (.episodes 0 1 [0]) (.ok [(0, ⟨.terminal, 1, [4]⟩)]) := by
  refine ⟨_, .cons (twoRows_step (.multiGetKeys rfl) trivial rfl rfl)
    (.cons (twoRows_step (.multiGetRows rfl) trivial rfl rfl)
    (.cons (twoRows_step (.inspected rfl) trivial rfl rfl)
    (.cons (twoRows_step (.multiGetKeys rfl) trivial rfl rfl)
    (.cons (twoRows_step (.multiGetRows rfl) trivial rfl rfl)
    (.single (twoRows_step (.consumed rfl rfl rfl) ?_ rfl rfl)))))), rfl, rfl⟩
  rintro store ⟨⟩ config window picks rows ⟨⟩
  decide

end Sample

/-- One cycle beside the two samples: they return the rows they drew. -/
theorem sampling_stays_in_window_sample :
    SampleOutcome Sample.recordCodec [Sample.ending, Sample.ending] Sample.config ⟨0, 2⟩
        (.rows [1]) (.ok [(0, ⟨.terminal, 1, [4]⟩)]) ∧
      SampleOutcome Sample.recordCodec [Sample.ending, Sample.ending] Sample.config ⟨0, 2⟩
        (.episodes 0 1 [0]) (.ok [(0, ⟨.terminal, 1, [4]⟩)]) := by
  obtain ⟨state, reads, rows, terminals⟩ := Sample.run_reads
  have run := ((Sample.run_first.append Sample.run_draw).append Sample.run_second).append reads
  exact ⟨sampling_stays_in_window run 0 rows, sampling_stays_in_window run 1 terminals⟩

/-- Two cycles beside the samples: the second deletes what they drew. -/
theorem sampling_fails_of_two_cycles : ∃ labels state,
      (samplingSystem Sample.recordCodec).Run SamplingWorld.initial labels state ∧
        state.samplers 0 = .finished Sample.config ⟨0, 2⟩ (.rows [1])
          (.error (.storage "missing row index entry")) ∧
        state.samplers 1 = .finished Sample.config ⟨0, 2⟩ (.episodes 0 1 [0])
          (.error (.storage "missing episode record")) := by
  have reads : (samplingSystem Sample.recordCodec).Run
      (Sample.kept Sample.thirdDatabase 3 4 Sample.drawnSamplers)
      [.multiGetKeys 0, .multiGetKeys 1] _ :=
    .cons (SamplingStep.multiGetKeys rfl) (.single (SamplingStep.multiGetKeys rfl))
  have before := ((Sample.run_first.append Sample.run_draw).append Sample.run_second).of_guarded
  exact ⟨_, _, (before.append Sample.run_third).append reads, rfl, rfl⟩

end GraphZero.Replay
