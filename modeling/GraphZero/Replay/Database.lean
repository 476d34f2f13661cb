import GraphZero.Foundation.Table
import GraphZero.Replay.Records

/-!
# The database under the replay store

Four column families: `meta` under fixed names, and three ordered by key
bytes.  A write batch is applied as one step, its operations in order.
-/

namespace GraphZero.Replay

open GraphZero.Foundation

/-- The column families ordered by key bytes. -/
inductive Family where
  | episodes
  | rows
  | rowIndex
  deriving DecidableEq

structure Database where
  metaValues : Table MetaKey Bytes
  families : Family → Table Bytes Bytes

inductive BatchOp where
  | putMeta (key : MetaKey) (value : Bytes)
  | put (family : Family) (key value : Bytes)
  /-- Removes the keys from `first` up to, but not including, `last`. -/
  | deleteRange (family : Family) (first last : Bytes)

namespace Database

/-- A new database with its column families. -/
def empty : Database where
  metaValues := ∅
  families := fun _ => ∅

instance : Inhabited Database := ⟨empty⟩

def get (database : Database) (family : Family) (key : Bytes) : Option Bytes :=
  (database.families family).get? key

def getMeta (database : Database) (key : MetaKey) : Option Bytes :=
  database.metaValues.get? key

def inRange (first last key : Bytes) : Bool :=
  decide (first ≤ key) && decide (key < last)

def apply (database : Database) : BatchOp → Database
  | .putMeta key value => { database with metaValues := database.metaValues.insert key value }
  | .put family key value =>
    { database with
      families := Function.update database.families family
        ((database.families family).insert key value) }
  | .deleteRange family first last =>
    { database with
      families := Function.update database.families family
        ((database.families family).eraseWhere (inRange first last)) }

/-- Applies the operations of one batch in order. -/
def write (database : Database) (batch : List BatchOp) : Database :=
  batch.foldl apply database

/-- The key at which an iterator from the end starts. -/
def lastKey? (database : Database) (family : Family) : Option Bytes :=
  (database.families family).lastKey?

end Database

/-- `checked_add` on the unsigned 64-bit integers. -/
def checkedAdd (value amount : UInt64) : Option UInt64 :=
  if value.toNat + amount.toNat < UInt64.size then
    some (value + amount)
  else
    none

def storage {α : Type} (message : String) : ReplayResult α :=
  .error (.storage message)

/-- `ok_or_else` with a storage error. -/
def orStorage {α : Type} (value : Option α) (message : String) : ReplayResult α :=
  match value with
  | some found => .ok found
  | none => storage message

/-- The batch that initializes a database without a schema version. -/
def ensureSchema (database : Database) : ReplayResult (List BatchOp) :=
  match database.getMeta .schemaVersion with
  | some bytes =>
    if decodeU32 bytes = some schemaVersion then
      .ok []
    else
      .error .schemaMismatch
  | none =>
    .ok [.putMeta .schemaVersion (encodeU32 schemaVersion), .putMeta .nextEpisodeSeq (encodeU64 0),
       .putMeta .completedGames (encodeU64 0),
       .putMeta .producedRows (encodeU64 0),
       .putMeta .consumedRows (encodeU64 0)]

/-- One past the last sequence number that is a key of `family`. -/
def recoverNextSeq (database : Database) (family : Family)
    (message : String) : ReplayResult UInt64 :=
  match database.lastKey? family with
  | some key => orStorage ((decodeU64Key key).bind fun value => checkedAdd value 1) message
  | none => .ok 0

def recoverNextEpisodeSeq (database : Database) : ReplayResult UInt64 :=
  recoverNextSeq database .episodes "corrupt episode key"

def recoverNextRowSeq (database : Database) : ReplayResult UInt64 :=
  recoverNextSeq database .rowIndex "corrupt row index key"

def readMetaU64 (database : Database) (key : MetaKey) : ReplayResult (Option UInt64) :=
  match database.getMeta key with
  | none => .ok none
  | some bytes =>
    match decodeU64 bytes with
    | some value => .ok (some value)
    | none => storage "corrupt meta u64"

def readDataMode (database : Database) : ReplayResult (Option ReplayDataMode) :=
  match database.getMeta .dataMode with
  | none => .ok none
  | some bytes =>
    match ReplayDataMode.fromBytes bytes with
    | some mode => .ok (some mode)
    | none => .error .dataModeMismatch

namespace Database

@[simp]
theorem getMeta_empty (key : MetaKey) : empty.getMeta key = none :=
  Table.get?_empty key

@[simp]
theorem get_empty (family : Family) (key : Bytes) : empty.get family key = none :=
  Table.get?_empty key

section

variable (database : Database)
include database

theorem getMeta_apply (op : BatchOp) (tested : MetaKey) :
    (database.apply op).getMeta tested = match op with
      | .putMeta key value => if tested = key then some value else database.getMeta tested
      | .put .. | .deleteRange .. => database.getMeta tested := by
  cases op with
  | putMeta key value => exact Table.get?_insert _ _ _ _
  | put family key value => rfl
  | deleteRange family first last => rfl

theorem get_apply (op : BatchOp) (tested : Family) (testedKey : Bytes) :
    (database.apply op).get tested testedKey = match op with
      | .putMeta .. => database.get tested testedKey
      | .put family key value =>
        if tested = family ∧ testedKey = key then
          some value
        else
          database.get tested testedKey
      | .deleteRange family first last =>
        if tested = family ∧ inRange first last testedKey = true then
          none
        else
          database.get tested testedKey := by
  cases op with
  | putMeta key value => rfl
  | put family key value =>
    unfold get apply
    by_cases same : tested = family
    · subst same
      simp [Table.get?_insert]
    · simp [same]
  | deleteRange family first last =>
    unfold get apply
    by_cases same : tested = family
    · subst same
      simp [Table.get?_eraseWhere]
    · simp [same]

@[simp]
theorem write_nil : database.write [] = database := rfl

theorem write_cons (op : BatchOp) (batch : List BatchOp) :
    database.write (op :: batch) = (database.apply op).write batch := rfl

theorem write_append (first second : List BatchOp) :
    database.write (first ++ second) = (database.write first).write second := by
  rw [write, write, write, List.foldl_append]

end

variable {database : Database} {family : Family}

theorem lastKey?_eq_none_iff :
    database.lastKey? family = none ↔ ∀ key, database.get family key = none :=
  Table.lastKey?_eq_none_iff

theorem get_lastKey? {last} (found : database.lastKey? family = some last) :
    ∃ value, database.get family last = some value :=
  Table.mem_keys_iff.mp (Table.mem_keys_of_lastKey? found)

theorem le_lastKey? {last key value} (found : database.lastKey? family = some last)
    (present : database.get family key = some value) : key ≤ last :=
  Table.le_of_lastKey? found (Table.mem_keys_of_get? present)

end Database

theorem checkedAdd_eq_some_iff {value amount sum} : checkedAdd value amount = some sum ↔
      sum.toNat = value.toNat + amount.toNat := by
  have bound := sum.toNat_lt
  by_cases fits : value.toNat + amount.toNat < UInt64.size
  · have exact_sum : (value + amount).toNat = value.toNat + amount.toNat := by
      exact Nat.mod_eq_of_lt fits
    rw [checkedAdd, if_pos fits, Option.some.injEq, ← UInt64.toNat_inj, exact_sum]
    exact eq_comm
  · rw [checkedAdd, if_neg fits]
    simp only [reduceCtorEq, false_iff]
    intro same
    exact fits (same ▸ bound)

theorem ok_of_orStorage {α : Type} {value message} {found : α}
    (success : orStorage value message = .ok found) :
    value = some found := by
  cases value with
  | none => cases success
  | some inner =>
    cases success
    rfl

end GraphZero.Replay
