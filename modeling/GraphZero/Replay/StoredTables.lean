import GraphZero.Foundation.SegmentedLog
import GraphZero.Replay.Store

/-!
# What the column families hold

The three ordered families are determined by the appended episodes and two
cuts: the first episode and the first row that retention has left.  A staged
append extends the episodes, a retention cycle moves the cuts.
-/

namespace GraphZero.Replay

open GraphZero.Foundation List

def rowSegments (episodes : List EpisodeAppend) : List (List ReplayRow) :=
  episodes.map EpisodeAppend.rows

@[simp]
theorem rowSegments_append (first second : List EpisodeAppend) :
    rowSegments (first ++ second) = rowSegments first ++ rowSegments second :=
  map_append

@[simp]
theorem length_rowSegments (episodes : List EpisodeAppend) :
    (rowSegments episodes).length = episodes.length :=
  length_map _

def totalRows (episodes : List EpisodeAppend) : Nat :=
  totalLength (rowSegments episodes)

theorem totalRows_append (first second : List EpisodeAppend) :
    totalRows (first ++ second) = totalRows first + totalRows second := by
  rw [totalRows, rowSegments_append, totalLength_append, totalRows, totalRows]

theorem totalRows_single (episode : EpisodeAppend) : totalRows [episode] = episode.rows.length := by
  simp [totalRows, rowSegments]

def EpisodeEntry (codec : ReplayCodec) (episodes : List EpisodeAppend)
    (first : Nat) (key value : Bytes) : Prop :=
  ∃ (seq : UInt64) (episode : EpisodeAppend),
    first ≤ seq.toNat ∧ episodes[seq.toNat]? = some episode ∧
      key = episodeKey seq ∧
      codec.encodeEpisode episode.record = .ok value

def RowEntry (codec : ReplayCodec) (episodes : List EpisodeAppend)
    (first : Nat) (key value : Bytes) : Prop :=
  ∃ (seq : UInt64) (step : UInt32) (episode : EpisodeAppend) (row : ReplayRow),
    first ≤ seq.toNat ∧ episodes[seq.toNat]? = some episode ∧
      episode.rows[step.toNat]? = some row ∧
      key = rowKey seq step ∧ codec.encodeRow row = .ok value

/-- An entry of the `row_index` family. -/
def IndexEntry (episodes : List EpisodeAppend) (deleted : Nat) (key value : Bytes) : Prop :=
  ∃ (seq episodeSeq : UInt64) (step : UInt32),
    deleted ≤ seq.toNat ∧ locate (rowSegments episodes) seq.toNat =
        some (episodeSeq.toNat, step.toNat) ∧
      key = rowIndexKey seq ∧ value = rowKey episodeSeq step

/-- The families hold exactly what was appended from the cuts on. -/
structure StoredTables (codec : ReplayCodec) (episodes : List EpisodeAppend)
    (first deleted : Nat) (database : Database) : Prop where
  episodeFamily : ∀ key value,
    database.get .episodes key = some value ↔ EpisodeEntry codec episodes first key value
  rowFamily : ∀ key value,
    database.get .rows key = some value ↔ RowEntry codec episodes first key value
  rowIndexFamily : ∀ key value,
    database.get .rowIndex key = some value ↔ IndexEntry episodes deleted key value

theorem storedTables_empty (codec : ReplayCodec) : StoredTables codec [] 0 0 Database.empty := by
  constructor
  · intro key value
    simp [EpisodeEntry]
  · intro key value
    simp [RowEntry]
  · intro key value
    simp [IndexEntry, rowSegments, locate]

theorem getElem?_concat_eq_some {α : Type} {items} {last found : α} {index} :
    (items ++ [last])[index]? = some found ↔
      items[index]? = some found ∨ index = items.length ∧ last = found := by
  rcases Nat.lt_trichotomy index items.length with before | same | after
  · rw [getElem?_append_left before]
    constructor
    · exact Or.inl
    · rintro (inItems | ⟨atEnd, _⟩)
      · exact inItems
      · omega
  · subst same
    simp
  · have outside : (items ++ [last])[index]? = none := by
      apply getElem?_eq_none
      simp only [length_append, length_singleton]
      omega
    have outsideItems : items[index]? = none := getElem?_eq_none (Nat.le_of_lt after)
    rw [outside, outsideItems]
    simp only [reduceCtorEq, false_or, false_iff, not_and]
    intro same
    omega

theorem lt_length_of_getElem? {α : Type} {items : List α} {index found}
    (present : items[index]? = some found) :
    index < items.length :=
  (List.getElem?_eq_some_iff.mp present).1

/-! ## One more episode, one more row -/

section Growth

variable {codec : ReplayCodec} {episodes : List EpisodeAppend}
  {record : ReplayEpisodeRecord} {rows : List ReplayRow} {first deleted : Nat} {database : Database}

variable {seq : UInt64} {key value : Bytes} {row : ReplayRow}

variable {encoded : Bytes}

theorem episodeEntry_concat_iff {key value} (atEnd : seq.toNat = episodes.length)
    (kept : first ≤ episodes.length) (stored : codec.encodeEpisode record = .ok encoded) :
    EpisodeEntry codec (episodes ++ [⟨record, rows⟩]) first key value ↔
      key = episodeKey seq ∧ encoded = value ∨ EpisodeEntry codec episodes first key value := by
  constructor
  · rintro ⟨found, episode, later, present, same, bytes⟩
    rcases getElem?_concat_eq_some.mp present with earlier | ⟨last, same'⟩
    · exact Or.inr ⟨found, episode, later, earlier, same, bytes⟩
    · have foundSeq : found = seq := UInt64.toNat_inj.mp (by rw [last, atEnd])
      rw [← same', stored] at bytes
      cases bytes
      exact Or.inl ⟨by rw [same, foundSeq], rfl⟩
  · rintro (⟨same, bytes⟩ | ⟨found, episode, later, present, same, bytes⟩)
    · refine ⟨seq, ⟨record, rows⟩, by omega, ?_, same, by rw [stored, bytes]⟩
      exact getElem?_concat_eq_some.mpr (Or.inr ⟨atEnd, rfl⟩)
    · refine ⟨found, episode, later, ?_, same, bytes⟩
      exact getElem?_concat_eq_some.mpr (Or.inl present)

theorem rowEntry_concat_nil_iff : RowEntry codec (episodes ++ [⟨record, []⟩]) first key value ↔
      RowEntry codec episodes first key value := by
  constructor
  · rintro ⟨seq, step, episode, row, later, present, rowPresent, rest⟩
    rcases getElem?_concat_eq_some.mp present with earlier | ⟨_, same⟩
    · exact ⟨seq, step, episode, row, later, earlier, rowPresent, rest⟩
    · rw [← same] at rowPresent
      simp at rowPresent
  · rintro ⟨seq, step, episode, row, later, present, rest⟩
    exact ⟨seq, step, episode, row, later, getElem?_concat_eq_some.mpr (Or.inl present), rest⟩

theorem rowEntry_concat_row_iff {key value} (atEnd : seq.toNat = episodes.length)
    (kept : first ≤ episodes.length) (numbered : row.stepIndex.toNat = rows.length)
    (stored : codec.encodeRow row = .ok encoded) :
    RowEntry codec (episodes ++ [⟨record, rows ++ [row]⟩]) first key value ↔
      key = rowKey seq row.stepIndex ∧ encoded = value ∨
        RowEntry codec (episodes ++ [⟨record, rows⟩]) first key value := by
  constructor
  · rintro ⟨found, step, episode, foundRow, later, present, rowPresent, same, bytes⟩
    rcases getElem?_concat_eq_some.mp present with earlier | ⟨last, same'⟩
    · exact Or.inr ⟨found, step, episode, foundRow, later,
        getElem?_concat_eq_some.mpr (Or.inl earlier), rowPresent, same, bytes⟩
    rw [← same'] at rowPresent
    rcases getElem?_concat_eq_some.mp rowPresent with
      earlierRow | ⟨lastRow, sameRow⟩
    · exact Or.inr ⟨found, step, ⟨record, rows⟩, foundRow, later,
        getElem?_concat_eq_some.mpr (Or.inr ⟨last, rfl⟩), earlierRow, same,
        bytes⟩
    · have foundSeq : found = seq := UInt64.toNat_inj.mp (by rw [last, atEnd])
      have foundStep : step = row.stepIndex := UInt32.toNat_inj.mp (by rw [lastRow, numbered])
      rw [← sameRow, stored] at bytes
      cases bytes
      exact Or.inl ⟨by rw [same, foundSeq, foundStep], rfl⟩
  · rintro (⟨same, bytes⟩ | ⟨found, step, episode, foundRow, later, present, rowPresent, same,
        bytes⟩)
    · refine ⟨seq, row.stepIndex, ⟨record, rows ++ [row]⟩, row, by omega, ?_,
        ?_, same, by rw [stored, bytes]⟩
      · exact getElem?_concat_eq_some.mpr (Or.inr ⟨atEnd, rfl⟩)
      · exact getElem?_concat_eq_some.mpr (Or.inr ⟨numbered, rfl⟩)
    · rcases getElem?_concat_eq_some.mp present with earlier | ⟨last, same'⟩
      · exact ⟨found, step, episode, foundRow, later,
          getElem?_concat_eq_some.mpr (Or.inl earlier), rowPresent, same,
          bytes⟩
      · rw [← same'] at rowPresent
        refine ⟨found, step, ⟨record, rows ++ [row]⟩, foundRow, later,
          getElem?_concat_eq_some.mpr (Or.inr ⟨last, rfl⟩), ?_, same, bytes⟩
        exact getElem?_concat_eq_some.mpr (Or.inl rowPresent)

theorem locate_rowSegments_concat (number : Nat) :
    locate (rowSegments (episodes ++ [⟨record, rows⟩])) number = if number < totalRows episodes then
        locate (rowSegments episodes) number
      else if number < totalRows episodes + rows.length then
        some (episodes.length, number - totalRows episodes)
      else
        none := by
  have last : rowSegments [⟨record, rows⟩] = [rows] := rfl
  rw [rowSegments_append, last, locate_append_single, length_rowSegments, totalRows]

theorem indexEntry_concat_nil_iff : IndexEntry (episodes ++ [⟨record, []⟩]) deleted key value ↔
      IndexEntry episodes deleted key value := by
  have same : ∀ number, locate (rowSegments (episodes ++ [⟨record, []⟩])) number =
        locate (rowSegments episodes) number := by
    intro number
    rw [locate_rowSegments_concat]
    by_cases below : number < totalRows episodes
    · rw [if_pos below]
    · have outside : locate (rowSegments episodes) number = none := by
        rw [← Option.not_isSome_iff_eq_none, locate_isSome_iff]
        exact below
      rw [if_neg below, if_neg (by simpa using below), outside]
  simp only [IndexEntry, same]

theorem indexEntry_concat_row_iff {seq next row key value} (atEnd : seq.toNat = episodes.length)
    (nextRow : next.toNat = totalRows episodes + rows.length) (kept : deleted ≤ next.toNat)
    (numbered : row.stepIndex.toNat = rows.length) :
    IndexEntry (episodes ++ [⟨record, rows ++ [row]⟩]) deleted key value ↔
      key = rowIndexKey next ∧ rowKey seq row.stepIndex = value ∨
        IndexEntry (episodes ++ [⟨record, rows⟩]) deleted key value := by
  have grown : ∀ number, locate (rowSegments (episodes ++ [⟨record, rows ++ [row]⟩])) number =
        if number = next.toNat then
          some (seq.toNat, row.stepIndex.toNat)
        else
          locate (rowSegments (episodes ++ [⟨record, rows⟩])) number := by
    intro number
    rw [locate_rowSegments_concat, locate_rowSegments_concat, length_append, length_singleton]
    by_cases isNext : number = next.toNat
    · rw [if_pos isNext, if_neg (by omega), if_pos (by omega), atEnd,
        numbered]
      congr 2
      omega
    · rw [if_neg isNext]
      by_cases below : number < totalRows episodes
      · rw [if_pos below, if_pos below]
      · rw [if_neg below, if_neg below]
        by_cases inLast : number < totalRows episodes + rows.length
        · rw [if_pos inLast, if_pos (by omega)]
        · rw [if_neg inLast, if_neg (by omega)]
  constructor
  · rintro ⟨found, episodeSeq, step, later, place, same, bytes⟩
    rw [grown] at place
    by_cases isNext : found.toNat = next.toNat
    · rw [if_pos isNext] at place
      simp only [Option.some.injEq, Prod.mk.injEq] at place
      have foundNext : found = next := UInt64.toNat_inj.mp isNext
      have seqSame : seq = episodeSeq := UInt64.toNat_inj.mp place.1
      have stepSame : row.stepIndex = step := UInt32.toNat_inj.mp place.2
      exact Or.inl ⟨by rw [same, foundNext], by rw [bytes, seqSame, stepSame]⟩
    · rw [if_neg isNext] at place
      exact Or.inr ⟨found, episodeSeq, step, later, place, same, bytes⟩
  · rintro (⟨same, bytes⟩ | ⟨found, episodeSeq, step, later, place, same, bytes⟩)
    · refine ⟨next, seq, row.stepIndex, kept, ?_, same, bytes.symm⟩
      rw [grown, if_pos rfl]
    refine ⟨found, episodeSeq, step, later, ?_, same, bytes⟩
    have below := lt_totalLength_of_locate place
    have total : totalLength (rowSegments (episodes ++ [⟨record, rows⟩])) =
        totalRows episodes + rows.length := by
      rw [← totalRows, totalRows_append, totalRows_single]
    rw [grown, if_neg (by omega), place]

theorem insert_eq_some_iff {old} {Entry : Bytes → Prop} {isKey : Prop} [Decidable isKey] {value}
    (entries : ∀ value, old = some value ↔ Entry value) (fresh : isKey → ∀ value, ¬ Entry value) :
    (if isKey then some encoded else old) = some value ↔ isKey ∧ encoded = value ∨ Entry value := by
  by_cases same : isKey
  · rw [if_pos same, Option.some.injEq]
    constructor
    · exact fun equal => Or.inl ⟨same, equal⟩
    · rintro (⟨_, equal⟩ | entry)
      · exact equal
      · exact absurd entry (fresh same value)
  · rw [if_neg same, entries value]
    constructor
    · exact Or.inr
    · rintro (⟨taken, _⟩ | entry)
      · exact absurd taken same
      · exact entry

theorem StoredTables.putEpisode (tables : StoredTables codec episodes first deleted database)
    (atEnd : seq.toNat = episodes.length) (kept : first ≤ episodes.length)
    (stored : codec.encodeEpisode record = .ok encoded) :
    StoredTables codec (episodes ++ [⟨record, []⟩]) first deleted
      (database.apply (.put .episodes (episodeKey seq) encoded)) := by
  constructor
  · intro key value
    rw [episodeEntry_concat_iff atEnd kept stored, Database.get_apply]
    simp only [true_and]
    apply insert_eq_some_iff (tables.episodeFamily key)
    rintro rfl other ⟨found, episode, _, present, same, _⟩
    have foundSeq : found = seq := (episodeKey_injective same).symm
    have below := lt_length_of_getElem? present
    rw [foundSeq, atEnd] at below
    exact Nat.lt_irrefl _ below
  · intro key value
    rw [rowEntry_concat_nil_iff, Database.get_apply]
    simpa using tables.rowFamily key value
  · intro key value
    rw [indexEntry_concat_nil_iff, Database.get_apply]
    simpa using tables.rowIndexFamily key value

theorem StoredTables.putRow {seq next : UInt64} {row} (tables :
      StoredTables codec (episodes ++ [⟨record, rows⟩]) first deleted database)
    (atEnd : seq.toNat = episodes.length) (kept : first ≤ episodes.length)
    (nextRow : next.toNat = totalRows episodes + rows.length) (rowsKept : deleted ≤ next.toNat)
    (numbered : row.stepIndex.toNat = rows.length) (stored : codec.encodeRow row = .ok encoded) :
    StoredTables codec (episodes ++ [⟨record, rows ++ [row]⟩]) first deleted
      ((database.apply (.put .rows (rowKey seq row.stepIndex) encoded)).apply
        (.put .rowIndex (rowIndexKey next) (rowKey seq row.stepIndex))) := by
  constructor
  · intro key value
    have same := tables.episodeFamily key value
    simp only [Database.get_apply, reduceCtorEq, false_and, if_false]
    rw [same]
    constructor
    · rintro ⟨found, episode, later, present, rest⟩
      rcases getElem?_concat_eq_some.mp present with earlier | ⟨last, same'⟩
      · exact ⟨found, episode, later, getElem?_concat_eq_some.mpr (Or.inl earlier), rest⟩
      · subst same'
        exact ⟨found, ⟨record, rows ++ [row]⟩, later,
          getElem?_concat_eq_some.mpr (Or.inr ⟨last, rfl⟩), rest⟩
    · rintro ⟨found, episode, later, present, rest⟩
      rcases getElem?_concat_eq_some.mp present with earlier | ⟨last, same'⟩
      · exact ⟨found, episode, later, getElem?_concat_eq_some.mpr (Or.inl earlier), rest⟩
      · subst same'
        exact ⟨found, ⟨record, rows⟩, later, getElem?_concat_eq_some.mpr (Or.inr ⟨last, rfl⟩), rest⟩
  · intro key value
    rw [rowEntry_concat_row_iff atEnd kept numbered stored]
    simp only [Database.get_apply, reduceCtorEq, false_and, if_false, true_and]
    apply insert_eq_some_iff (tables.rowFamily key)
    rintro rfl other ⟨found, step, episode, foundRow, _, present, rowPresent, same, _⟩
    obtain ⟨seqSame, stepSame⟩ := rowKey_injective same
    rcases getElem?_concat_eq_some.mp present with earlier | ⟨_, same'⟩
    · have below := lt_length_of_getElem? earlier
      rw [← seqSame, atEnd] at below
      exact Nat.lt_irrefl _ below
    · rw [← same'] at rowPresent
      have below := lt_length_of_getElem? rowPresent
      rw [← stepSame, numbered] at below
      exact Nat.lt_irrefl _ below
  · intro key value
    rw [indexEntry_concat_row_iff atEnd nextRow rowsKept numbered]
    simp only [Database.get_apply, reduceCtorEq, false_and, if_false, true_and]
    apply insert_eq_some_iff (tables.rowIndexFamily key)
    rintro rfl other ⟨found, episodeSeq, step, _, place, same, _⟩
    have foundNext : next = found := rowIndexKey_injective same
    have below := lt_totalLength_of_locate place
    have total : totalLength (rowSegments (episodes ++ [⟨record, rows⟩])) =
        totalRows episodes + rows.length := by
      rw [← totalRows, totalRows_append, totalRows_single]
    rw [← foundNext, total] at below
    omega

end Growth

variable {codec : ReplayCodec} {first last seq : UInt64}

variable {episodes : List EpisodeAppend} {database : Database}

theorem StoredTables.writeRows {record rows more first deleted seq next last ops}
    (tables : StoredTables codec (episodes ++ [⟨record, rows⟩]) first deleted database)
    (atEnd : seq.toNat = episodes.length) (kept : first ≤ episodes.length)
    (nextRow : next.toNat = totalRows episodes + rows.length) (rowsKept : deleted ≤ next.toNat)
    (numbered : Numbered rows.length more)
    (staged : stageRows codec seq more next = .ok (ops, last)) :
    StoredTables codec (episodes ++ [⟨record, rows ++ more⟩]) first deleted (database.write ops) ∧
      last.toNat = next.toNat + more.length := by
  induction more generalizing rows database next ops with
  | nil =>
    cases staged
    rw [append_nil, Database.write_nil, length_nil, Nat.add_zero]
    exact ⟨tables, rfl⟩
  | cons row more ih =>
    obtain ⟨encoded, stored, staged⟩ := ok_of_bind staged
    obtain ⟨afterRow, incremented, staged⟩ := ok_of_bind staged
    obtain ⟨⟨restOps, restLast⟩, restStaged, result⟩ := ok_of_bind staged
    cases result
    have after : afterRow.toNat = next.toNat + 1 :=
      checkedAdd_eq_some_iff.mp (ok_of_orStorage incremented)
    have position : row.stepIndex.toNat = rows.length := by
      simpa using numbered 0 row rfl
    have grown := tables.putRow atEnd kept nextRow rowsKept position stored
    have restNumbered : Numbered (rows ++ [row]).length more := by
      intro index later found
      have place := numbered (index + 1) later (by simpa using found)
      rw [length_append, length_singleton]
      omega
    have rest := ih grown (by rw [length_append, length_singleton]; omega)
      (by omega) restNumbered restStaged
    rw [append_assoc, singleton_append] at rest
    rw [Database.write_cons, Database.write_cons, length_cons]
    exact ⟨rest.1, by omega⟩

theorem StoredTables.writeEpisodes {more first deleted sequences final ops}
    (tables : StoredTables codec episodes first deleted database)
    (nextEpisode : sequences.nextEpisode.toNat = episodes.length)
    (nextRow : sequences.nextRow.toNat = totalRows episodes) (kept : first ≤ episodes.length)
    (rowsKept : deleted ≤ totalRows episodes) (numbered : ∀ episode ∈ more, Numbered 0 episode.rows)
    (staged : stageEpisodes codec more sequences = .ok (ops, final)) :
    StoredTables codec (episodes ++ more) first deleted (database.write ops) ∧
      final.nextEpisode.toNat = (episodes ++ more).length ∧
      final.nextRow.toNat = totalRows (episodes ++ more) := by
  induction more generalizing episodes database sequences ops with
  | nil =>
    cases staged
    rw [append_nil, Database.write_nil]
    exact ⟨tables, nextEpisode, nextRow⟩
  | cons episode more ih =>
    obtain ⟨encoded, stored, staged⟩ := ok_of_bind staged
    obtain ⟨⟨rowOps, lastRow⟩, rowsStaged, staged⟩ := ok_of_bind staged
    obtain ⟨afterEpisode, incremented, staged⟩ := ok_of_bind staged
    obtain ⟨⟨restOps, restFinal⟩, restStaged, result⟩ := ok_of_bind staged
    cases result
    have after : afterEpisode.toNat = sequences.nextEpisode.toNat + 1 :=
      checkedAdd_eq_some_iff.mp (ok_of_orStorage incremented)
    have opened := tables.putEpisode nextEpisode kept stored
    have filled := opened.writeRows nextEpisode kept
      (by rw [nextRow, length_nil, Nat.add_zero]) (by omega)
      (numbered episode (mem_cons_self ..)) rowsStaged
    rw [nil_append] at filled
    have single : episodes ++ [⟨episode.record, episode.rows⟩] = episodes ++ [episode] := rfl
    rw [single] at filled
    have episodeAfter : afterEpisode.toNat = (episodes ++ [episode]).length := by
      rw [length_append, length_singleton]
      omega
    have rowAfter : lastRow.toNat = totalRows (episodes ++ [episode]) := by
      rw [totalRows_append, totalRows_single]
      omega
    have rest := ih filled.1 episodeAfter rowAfter (by omega) (by omega)
      (fun other member => numbered other (mem_cons_of_mem _ member))
      restStaged
    rw [append_assoc, singleton_append] at rest
    rw [cons_append, Database.write_cons, Database.write_append]
    exact rest

theorem inRange_rowIndexKey :
    Database.inRange (rowIndexKey first) (rowIndexKey last) (rowIndexKey seq) = true ↔
      first.toNat ≤ seq.toNat ∧ seq.toNat < last.toNat := by
  have lower : rowIndexKey first ≤ rowIndexKey seq ↔ first.toNat ≤ seq.toNat := by
    rw [← List.not_lt, rowIndexKey_lt_iff, Nat.not_lt]
  rw [Database.inRange, Bool.and_eq_true, decide_eq_true_iff,
    decide_eq_true_iff, lower, rowIndexKey_lt_iff]

theorem inRange_episodeKey :
    Database.inRange (episodeKey first) (episodeKey last) (episodeKey seq) = true ↔
      first.toNat ≤ seq.toNat ∧ seq.toNat < last.toNat :=
  inRange_rowIndexKey

theorem inRange_rowKey {step} :
    Database.inRange (rowKey first 0) (rowKey last 0) (rowKey seq step) = true ↔
      first.toNat ≤ seq.toNat ∧ seq.toNat < last.toNat := by
  have lower : rowKey first 0 ≤ rowKey seq step ↔ first.toNat ≤ seq.toNat := by
    rw [← List.not_lt, rowKey_lt_rowKey_zero_iff, Nat.not_lt]
  rw [Database.inRange, Bool.and_eq_true, decide_eq_true_iff,
    decide_eq_true_iff, lower, rowKey_lt_rowKey_zero_iff]

theorem delete_eq_some_iff {old} {dropped : Prop} [Decidable dropped] {value : Bytes} :
    (if dropped then none else old) = some value ↔ ¬ dropped ∧ old = some value := by
  by_cases taken : dropped
  · simp [taken]
  · simp [taken]

theorem StoredTables.writeRetention {deleted floor newFloor deletedEpisode floorEpisode}
    (tables : StoredTables codec episodes deletedEpisode.toNat deleted.toNat database)
    (episodesOrdered : deletedEpisode.toNat ≤ floorEpisode.toNat)
    (floorsOrdered : deleted.toNat ≤ floor.toNat) :
    StoredTables codec episodes floorEpisode.toNat floor.toNat (database.write
        (ReplayStore.retentionBatch deleted floor newFloor deletedEpisode floorEpisode)) := by
  unfold ReplayStore.retentionBatch
  constructor
  · intro key value
    simp only [Database.write_cons, Database.write_nil, Database.get_apply,
      reduceCtorEq, false_and, if_false, true_and]
    rw [delete_eq_some_iff, tables.episodeFamily]
    constructor
    · rintro ⟨kept, seq, episode, later, present, same, bytes⟩
      rw [same, inRange_episodeKey] at kept
      exact ⟨seq, episode, by omega, present, same, bytes⟩
    · rintro ⟨seq, episode, later, present, same, bytes⟩
      refine ⟨?_, seq, episode, by omega, present, same, bytes⟩
      rw [same, inRange_episodeKey]
      omega
  · intro key value
    simp only [Database.write_cons, Database.write_nil, Database.get_apply,
      reduceCtorEq, false_and, if_false, true_and]
    rw [delete_eq_some_iff, tables.rowFamily]
    constructor
    · rintro ⟨kept, seq, step, episode, row, later, present, rowPresent, same, bytes⟩
      rw [same, inRange_rowKey] at kept
      exact ⟨seq, step, episode, row, by omega, present, rowPresent, same,
        bytes⟩
    · rintro ⟨seq, step, episode, row, later, present, rowPresent, same, bytes⟩
      refine ⟨?_, seq, step, episode, row, by omega, present, rowPresent, same,
        bytes⟩
      rw [same, inRange_rowKey]
      omega
  · intro key value
    simp only [Database.write_cons, Database.write_nil, Database.get_apply,
      reduceCtorEq, false_and, if_false, true_and]
    rw [delete_eq_some_iff, tables.rowIndexFamily]
    constructor
    · rintro ⟨kept, seq, episodeSeq, step, later, place, same, bytes⟩
      rw [same, inRange_rowIndexKey] at kept
      exact ⟨seq, episodeSeq, step, by omega, place, same, bytes⟩
    · rintro ⟨seq, episodeSeq, step, later, place, same, bytes⟩
      refine ⟨?_, seq, episodeSeq, step, by omega, place, same, bytes⟩
      rw [same, inRange_rowIndexKey]
      omega

end GraphZero.Replay
