import GraphZero.Replay.StoreSystem

/-!
# What opening recovers

Opening scans the last keys for the sequence counters and reads the other
counters from the `meta` family.  On a database that holds what was appended,
the recovered memory is the memory that was lost.
-/

namespace GraphZero.Replay

open GraphZero.Foundation List

/-- An episode that an append accepted. -/
structure Appendable (codec : ReplayCodec) (episode : EpisodeAppend) : Prop where
  record : ∃ bytes, codec.encodeEpisode episode.record = .ok bytes
  rows : ∀ row ∈ episode.rows, ∃ bytes, codec.encodeRow row = .ok bytes
  numbered : Numbered 0 episode.rows

variable {codec : ReplayCodec} {database : Database} {key : MetaKey}
  {absent value : UInt64}

variable {ops : List BatchOp}

theorem encoded_of_stageRows {seq next last rows}
    (staged : stageRows codec seq rows next = .ok (ops, last)) :
    ∀ row ∈ rows, ∃ bytes, codec.encodeRow row = .ok bytes := by
  induction rows generalizing next ops with
  | nil => simp
  | cons head rest ih =>
    obtain ⟨encoded, stored, staged⟩ := ok_of_bind staged
    obtain ⟨_, _, staged⟩ := ok_of_bind staged
    obtain ⟨⟨_, _⟩, restStaged, result⟩ := ok_of_bind staged
    cases result
    intro row member
    rcases mem_cons.mp member with same | later
    · exact ⟨encoded, same ▸ stored⟩
    · exact ih restStaged row later

theorem appendable_of_stageEpisodes {episodes sequences final}
    (numbered : ∀ episode ∈ episodes, Numbered 0 episode.rows)
    (staged : stageEpisodes codec episodes sequences = .ok (ops, final)) :
    ∀ episode ∈ episodes, Appendable codec episode := by
  induction episodes generalizing sequences ops with
  | nil => simp
  | cons head rest ih =>
    obtain ⟨encoded, stored, staged⟩ := ok_of_bind staged
    obtain ⟨_, rowsStaged, staged⟩ := ok_of_bind staged
    obtain ⟨_, _, staged⟩ := ok_of_bind staged
    obtain ⟨⟨_, _⟩, restStaged, result⟩ := ok_of_bind staged
    cases result
    intro episode member
    rcases mem_cons.mp member with same | later
    · rw [same]
      exact
        { record := ⟨encoded, stored⟩
          rows := encoded_of_stageRows rowsStaged
          numbered := numbered head (mem_cons_self ..) }
    · exact ih (fun other inRest => numbered other (mem_cons_of_mem _ inRest))
        restStaged episode later

/-- A `put` into one of the ordered families. -/
def BatchOp.IsPut (op : BatchOp) : Prop :=
  ∃ family key value, op = .put family key value

theorem isPut_of_stageRows {seq next last rows}
    (staged : stageRows codec seq rows next = .ok (ops, last)) :
    ∀ op ∈ ops, op.IsPut := by
  induction rows generalizing next ops with
  | nil =>
    cases staged
    simp
  | cons head rest ih =>
    obtain ⟨_, _, staged⟩ := ok_of_bind staged
    obtain ⟨_, _, staged⟩ := ok_of_bind staged
    obtain ⟨⟨restOps, _⟩, restStaged, result⟩ := ok_of_bind staged
    cases result
    intro op member
    rcases mem_cons.mp member with same | member
    · exact ⟨_, _, _, same⟩
    · rcases mem_cons.mp member with same | later
      · exact ⟨_, _, _, same⟩
      · exact ih restStaged op later

theorem isPut_of_stageEpisodes {episodes sequences final}
    (staged : stageEpisodes codec episodes sequences = .ok (ops, final)) :
    ∀ op ∈ ops, op.IsPut := by
  induction episodes generalizing sequences ops with
  | nil =>
    cases staged
    simp
  | cons head rest ih =>
    obtain ⟨_, _, staged⟩ := ok_of_bind staged
    obtain ⟨⟨rowOps, _⟩, rowsStaged, staged⟩ := ok_of_bind staged
    obtain ⟨_, _, staged⟩ := ok_of_bind staged
    obtain ⟨⟨restOps, _⟩, restStaged, result⟩ := ok_of_bind staged
    cases result
    intro op member
    rcases mem_cons.mp member with same | member
    · exact ⟨_, _, _, same⟩
    · rcases mem_append.mp member with inRows | later
      · exact isPut_of_stageRows rowsStaged op inRows
      · exact ih restStaged op later

theorem getMeta_write_of_isPut (puts : ∀ op ∈ ops, op.IsPut) (key : MetaKey) :
    (database.write ops).getMeta key = database.getMeta key := by
  induction ops generalizing database with
  | nil => rfl
  | cons op rest ih =>
    obtain ⟨family, opKey, value, same⟩ := puts op (mem_cons_self ..)
    rw [Database.write_cons, ih (fun other member => puts other (mem_cons_of_mem _ member)),
      Database.getMeta_apply, same]

theorem readMetaU64_of_encoded (stored : database.getMeta key = some (encodeU64 value)) :
    readMetaU64 database key = .ok (some value) := by
  rw [readMetaU64, stored]
  simp

/-- A counter of the `meta` family, which is `absent` until it is written. -/
def Counter (database : Database) (key : MetaKey) (absent value : UInt64) : Prop :=
  database.getMeta key = none ∧ value = absent ∨ database.getMeta key = some (encodeU64 value)

theorem Counter.read (counter : Counter database key absent value) :
    ∃ stored, readMetaU64 database key = .ok stored ∧ stored.getD absent = value := by
  rcases counter with ⟨missing, same⟩ | present
  · refine ⟨none, ?_, same.symm⟩
    rw [readMetaU64, missing]
  · exact ⟨some value, readMetaU64_of_encoded present, rfl⟩

theorem Counter.of_getMeta {first second key absent value}
    (counter : Counter first key absent value) (same : second.getMeta key = first.getMeta key) :
    Counter second key absent value := by
  rw [Counter, same]
  exact counter

theorem getMeta_write_single (database : Database) (key tested : MetaKey) (value : Bytes) :
    (database.write [.putMeta key value]).getMeta tested =
      if tested = key then some value else database.getMeta tested := by
  rw [Database.write_cons, Database.write_nil, Database.getMeta_apply]

theorem Counter.write_other {key written absent value bytes}
    (counter : Counter database key absent value) (different : key ≠ written) :
    Counter (database.write [.putMeta written bytes]) key absent value := by
  apply counter.of_getMeta
  rw [getMeta_write_single, if_neg different]

theorem Counter.written (database : Database) (key : MetaKey) (absent value : UInt64) :
    Counter (database.write [.putMeta key (encodeU64 value)]) key absent value := by
  refine Or.inr ?_
  rw [getMeta_write_single, if_pos rfl]

theorem get_write_single (database : Database) (key : MetaKey)
    (value : Bytes) (family : Family) (tested : Bytes) :
    (database.write [.putMeta key value]).get family tested = database.get family tested := by
  rw [Database.write_cons, Database.write_nil, Database.get_apply]

def StoredDataMode (database : Database) (mode : Option ReplayDataMode) : Prop :=
  database.getMeta .dataMode = mode.map ReplayDataMode.bytes

theorem StoredDataMode.read {mode} (stored : StoredDataMode database mode) :
    readDataMode database = .ok mode := by
  rw [readDataMode, stored]
  cases mode with
  | none => rfl
  | some bound => simp

theorem recoverNextSeq_eq {family message count} (fits : count < UInt64.size)
    (keys : ∀ key value, database.get family key = some value →
      ∃ seq : UInt64, seq.toNat < count ∧ key = rowIndexKey seq)
    (last : 0 < count → ∃ value, database.get family
        (rowIndexKey (UInt64.ofNat (count - 1))) = some value) :
    recoverNextSeq database family message = .ok (UInt64.ofNat count) := by
  by_cases nothing : count = 0
  · have noKey : database.lastKey? family = none := by
      apply Database.lastKey?_eq_none_iff.mpr
      intro key
      cases found : database.get family key with
      | none => rfl
      | some value =>
        obtain ⟨seq, below, _⟩ := keys key value found
        omega
    rw [recoverNextSeq, noKey, nothing]
    rfl
  · obtain ⟨value, present⟩ := last (Nat.pos_of_ne_zero nothing)
    have lastNat : (UInt64.ofNat (count - 1)).toNat = count - 1 :=
      UInt64.toNat_ofNat_of_lt' (by omega)
    cases found : database.lastKey? family with
    | none =>
      rw [Database.lastKey?_eq_none_iff.mp found] at present
      cases present
    | some key =>
      obtain ⟨keyValue, keyPresent⟩ := Database.get_lastKey? found
      obtain ⟨seq, below, same⟩ := keys key keyValue keyPresent
      have ordered := Database.le_lastKey? found present
      rw [same, ← List.not_lt, rowIndexKey_lt_iff, lastNat, Nat.not_lt] at ordered
      have next : checkedAdd seq 1 = some (UInt64.ofNat count) := by
        apply checkedAdd_eq_some_iff.mpr
        rw [UInt64.toNat_ofNat_of_lt' fits]
        have one : (1 : UInt64).toNat = 1 := rfl
        omega
      rw [recoverNextSeq, found]
      simp only [same, decodeU64Key_rowIndexKey, Option.bind_some, next]
      rfl

end GraphZero.Replay
