import Mathlib.Algebra.BigOperators.Group.List.Lemmas
import Mathlib.Data.List.AList
import Mathlib.Data.List.Sort
import Mathlib.Algebra.GroupWithZero.Nat

/-!
# Finite tables

Hash maps and ordered maps are both modelled by Mathlib's association lists
with duplicate-free keys.  The lemmas below give the entry of an updated table
as one conditional, so that a goal about several updates is a case split on
keys.

A hash map has no order of its own: `IterationOrder` is one possible order in
which its keys are visited, and a theorem that quantifies over every
`IterationOrder` holds for every order.  An ordered map visits its keys in
increasing order, which is `Table.sortedKeys`.
-/

namespace GraphZero.Foundation

open List

universe u v

/-- A finite map from `κ` to `ν`. -/
@[ext]
structure Table (κ : Type u) (ν : Type v) where
  assoc : AList (fun _ : κ => ν)

namespace Table

variable {κ : Type u} {ν : Type v}

def empty : Table κ ν :=
  ⟨∅⟩

instance : EmptyCollection (Table κ ν) := ⟨empty⟩
instance : Inhabited (Table κ ν) := ⟨empty⟩

def keys (table : Table κ ν) : List κ :=
  table.assoc.keys

def size (table : Table κ ν) : Nat :=
  table.keys.length

theorem nodup_keys (table : Table κ ν) : table.keys.Nodup :=
  table.assoc.keys_nodup

@[simp]
theorem keys_empty : (∅ : Table κ ν).keys = [] := rfl

@[simp]
theorem size_empty : (∅ : Table κ ν).size = 0 := rfl

/-- The keys of an ordered map in the order its iterator visits them. -/
def sortedKeys [LE κ] [DecidableLE κ] (table : Table κ ν) : List κ :=
  table.keys.insertionSort (· ≤ ·)

@[simp]
theorem mem_sortedKeys [LE κ] [DecidableLE κ] {key} {table : Table κ ν} :
    key ∈ table.sortedKeys ↔ key ∈ table.keys :=
  (perm_insertionSort (· ≤ ·) table.keys).mem_iff

variable [DecidableEq κ]

def get? (table : Table κ ν) (key : κ) : Option ν :=
  table.assoc.lookup key

def insert (table : Table κ ν) (key : κ) (value : ν) : Table κ ν :=
  ⟨table.assoc.insert key value⟩

def erase (table : Table κ ν) (key : κ) : Table κ ν :=
  ⟨table.assoc.erase key⟩

def contains (table : Table κ ν) (key : κ) : Bool :=
  (table.get? key).isSome

@[simp]
theorem get?_empty (key : κ) : (∅ : Table κ ν).get? key = none :=
  AList.lookup_empty key

theorem get?_insert (table : Table κ ν) (key tested : κ) (value : ν) :
    (table.insert key value).get? tested =
      if tested = key then some value else table.get? tested := by
  by_cases same : tested = key
  · subst same
    rw [if_pos rfl]
    exact AList.lookup_insert table.assoc
  · rw [if_neg same]
    exact AList.lookup_insert_ne same

theorem get?_erase (table : Table κ ν) (key tested : κ) : (table.erase key).get? tested =
      if tested = key then none else table.get? tested := by
  by_cases same : tested = key
  · subst same
    rw [if_pos rfl]
    exact AList.lookup_erase tested table.assoc
  · rw [if_neg same]
    exact AList.lookup_erase_ne same

@[simp]
theorem get?_insert_self (table : Table κ ν) (key : κ) (value : ν) :
    (table.insert key value).get? key = some value := by
  rw [get?_insert, if_pos rfl]

@[simp]
theorem get?_erase_self (table : Table κ ν) (key : κ) : (table.erase key).get? key = none := by
  rw [get?_erase, if_pos rfl]

variable {table : Table κ ν} {key : κ}

variable {value : ν}

theorem get?_insert_of_ne {key tested} (different : tested ≠ key) :
    (table.insert key value).get? tested = table.get? tested := by
  rw [get?_insert, if_neg different]

theorem get?_erase_of_ne {key tested} (different : tested ≠ key) :
    (table.erase key).get? tested = table.get? tested := by
  rw [get?_erase, if_neg different]

theorem mem_keys_iff : key ∈ table.keys ↔ ∃ value, table.get? key = some value := by
  unfold keys get?
  rw [← AList.mem_keys, ← AList.lookup_isSome, Option.isSome_iff_exists]

theorem mem_keys_of_get? (found : table.get? key = some value) : key ∈ table.keys :=
  mem_keys_iff.mpr ⟨value, found⟩

theorem get?_eq_none_iff : table.get? key = none ↔ key ∉ table.keys :=
  AList.lookup_eq_none

@[simp]
theorem contains_iff : table.contains key = true ↔ key ∈ table.keys := by
  rw [contains, Option.isSome_iff_exists, mem_keys_iff]

theorem contains_eq_false_iff : table.contains key = false ↔ table.get? key = none := by
  rw [contains, Option.isSome_eq_false_iff, Option.isNone_iff_eq_none]

theorem keys_insert (table : Table κ ν) (key : κ) (value : ν) :
    (table.insert key value).keys = key :: table.keys.erase key :=
  AList.keys_insert table.assoc

theorem keys_erase (table : Table κ ν) (key : κ) : (table.erase key).keys = table.keys.erase key :=
  AList.keys_erase key table.assoc

theorem mem_keys_erase {key tested} :
    tested ∈ (table.erase key).keys ↔ tested ∈ table.keys ∧ tested ≠ key := by
  rw [keys_erase, table.nodup_keys.mem_erase_iff]
  exact And.comm

theorem size_insert_of_absent (absent : table.get? key = none) :
    (table.insert key value).size = table.size + 1 := by
  have absentKey : key ∉ table.keys := get?_eq_none_iff.mp absent
  rw [size, keys_insert, erase_of_not_mem absentKey, length_cons, size]

theorem size_insert_of_present (present : key ∈ table.keys) :
    (table.insert key value).size = table.size := by
  have pos : 0 < table.keys.length := length_pos_of_mem present
  rw [size, keys_insert, length_cons, length_erase_of_mem present, size]
  omega

theorem size_erase_of_present (present : key ∈ table.keys) :
    (table.erase key).size + 1 = table.size := by
  have pos : 0 < table.keys.length := length_pos_of_mem present
  rw [size, keys_erase, length_erase_of_mem present, size]
  omega

theorem size_insert_le (table : Table κ ν) (key : κ) (value : ν) :
    (table.insert key value).size ≤ table.size + 1 := by
  by_cases present : key ∈ table.keys
  · rw [size_insert_of_present present]
    omega
  · rw [size_insert_of_absent (get?_eq_none_iff.mpr present)]

theorem size_erase_le (table : Table κ ν) (key : κ) : (table.erase key).size ≤ table.size := by
  rw [size, size, keys_erase]
  exact length_erase_le

@[simp]
theorem insert_insert_self (table : Table κ ν) (key : κ) (first second : ν) :
    (table.insert key first).insert key second = table.insert key second := by
  apply Table.ext
  apply AList.ext
  simp [insert, AList.insert, List.kinsert, kerase_cons_eq]

@[simp]
theorem erase_insert_self (table : Table κ ν) (key : κ) (value : ν) :
    (table.insert key value).erase key = table.erase key := by
  apply Table.ext
  apply AList.ext
  change kerase key (table.assoc.insert key value).entries = kerase key table.assoc.entries
  exact kerase_cons_eq rfl

/-- Removes every entry whose key satisfies `drop`. -/
def eraseWhere (table : Table κ ν) (drop : κ → Bool) : Table κ ν :=
  (table.keys.filter drop).foldl erase table

theorem get?_foldl_erase (table : Table κ ν) (dropped : List κ) (tested : κ) :
    (dropped.foldl erase table).get? tested =
      if tested ∈ dropped then none else table.get? tested := by
  induction dropped generalizing table with
  | nil => simp
  | cons key dropped ih =>
    rw [foldl_cons, ih, get?_erase]
    by_cases same : tested = key
    · simp [same]
    · simp [same]

theorem get?_eraseWhere (table : Table κ ν) (drop : κ → Bool) (tested : κ) :
    (table.eraseWhere drop).get? tested =
      if drop tested = true then none else table.get? tested := by
  rw [eraseWhere, get?_foldl_erase]
  by_cases dropped : drop tested = true
  · rw [if_pos dropped]
    by_cases present : tested ∈ table.keys
    · rw [if_pos (mem_filter.mpr ⟨present, dropped⟩)]
    · have absent : table.get? tested = none := get?_eq_none_iff.mpr present
      rw [absent, ite_self]
  · have kept : tested ∉ table.keys.filter drop := fun member =>
      dropped (mem_filter.mp member).2
    rw [if_neg dropped, if_neg kept]

def any (table : Table κ ν) (test : κ → ν → Bool) : Bool :=
  table.keys.any fun key => (table.get? key).any (test key)

@[simp]
theorem any_iff {test} : table.any test = true ↔
      ∃ key value, table.get? key = some value ∧ test key value = true := by
  simp only [any, any_eq_true, Option.any_eq_true]
  constructor
  · rintro ⟨key, _, value, found, passes⟩
    exact ⟨key, value, found, passes⟩
  · rintro ⟨key, value, found, passes⟩
    exact ⟨key, mem_keys_of_get? found, value, found, passes⟩

/-- The sum of `weight` over the entries. -/
def total (weight : ν → Nat) (table : Table κ ν) : Nat :=
  (table.keys.map fun key => (table.get? key).elim 0 weight).sum

@[simp]
theorem total_empty (weight : ν → Nat) : (∅ : Table κ ν).total weight = 0 := rfl

theorem total_erase_of_present (weight : ν → Nat) (found : table.get? key = some value) :
    weight value + (table.erase key).total weight = table.total weight := by
  have present : key ∈ table.keys := mem_keys_of_get? found
  have split := sum_map_erase (fun key => (table.get? key).elim 0 weight) present
  have same : ∀ other ∈ table.keys.erase key,
      ((table.erase key).get? other).elim 0 weight = (table.get? other).elim 0 weight := by
    intro other member
    have different : other ≠ key := by
      rintro rfl
      exact table.nodup_keys.not_mem_erase member
    rw [get?_erase_of_ne different]
  rw [found, Option.elim_some] at split
  rw [total, total, keys_erase, map_congr_left same]
  exact split

theorem total_insert_of_absent (weight : ν → Nat) (absent : table.get? key = none) :
    (table.insert key value).total weight = weight value + table.total weight := by
  have fresh : key ∉ table.keys := get?_eq_none_iff.mp absent
  have same : ∀ other ∈ table.keys,
      ((table.insert key value).get? other).elim 0 weight = (table.get? other).elim 0 weight := by
    intro other member
    have different : other ≠ key := by
      rintro rfl
      exact fresh member
    rw [get?_insert_of_ne different]
  rw [total, total, keys_insert, erase_of_not_mem fresh, map_cons,
    sum_cons, get?_insert_self, Option.elim_some,
    map_congr_left same]

theorem total_insert_of_present {earlier} (weight : ν → Nat)
    (found : table.get? key = some earlier) :
    weight earlier + (table.insert key value).total weight = weight value + table.total weight := by
  have inserted := total_erase_of_present weight (table.get?_insert_self key value)
  have erased := total_erase_of_present weight found
  rw [erase_insert_self] at inserted
  omega

theorem le_total_of_get? (weight : ν → Nat) (found : table.get? key = some value) :
    weight value ≤ table.total weight := by
  have split := total_erase_of_present weight found
  omega

section Ordered

variable [LE κ] [DecidableLE κ]

/-- The key an ordered map's iterator finds when it starts at the end. -/
def lastKey? (table : Table κ ν) : Option κ :=
  table.sortedKeys.getLast?

theorem lastKey?_eq_none_iff {table : Table κ ν} :
    table.lastKey? = none ↔ ∀ key, table.get? key = none := by
  rw [lastKey?, getLast?_eq_none_iff, eq_nil_iff_forall_not_mem]
  constructor
  · intro nothing key
    exact get?_eq_none_iff.mpr fun member =>
      nothing key (mem_sortedKeys.mpr member)
  · intro nothing key member
    exact get?_eq_none_iff.mp (nothing key) (mem_sortedKeys.mp member)

omit [DecidableEq κ] in
theorem mem_keys_of_lastKey? {table : Table κ ν} {last : κ}
    (found : table.lastKey? = some last) : last ∈ table.keys :=
  mem_sortedKeys.mp (mem_of_getLast? found)

omit [DecidableEq κ] in
theorem le_of_lastKey? [Std.Total (α := κ) (· ≤ ·)]
    [IsTrans κ (· ≤ ·)] {table : Table κ ν} {last key : κ}
    (found : table.lastKey? = some last) (present : key ∈ table.keys) :
    key ≤ last := by
  have sorted : table.sortedKeys.Pairwise (· ≤ ·) := pairwise_insertionSort (· ≤ ·) table.keys
  obtain ⟨before, split⟩ := getLast?_eq_some_iff.mp found
  have member : key ∈ before ++ [last] := by
    rw [← split]
    exact mem_sortedKeys.mpr present
  rw [split] at sorted
  rcases mem_append.mp member with earlier | same
  · exact (pairwise_append.mp sorted).2.2 key earlier last (mem_singleton_self last)
  · rw [mem_singleton.mp same]
    have total : last ≤ last ∨ last ≤ last := Std.Total.total last last
    exact total.elim id id

end Ordered

end Table

/-- One order in which the iterator of a hash map may visit its keys. -/
structure IterationOrder (κ : Type u) where
  visit : List κ → List κ
  perm : ∀ keys, (visit keys).Perm keys

namespace IterationOrder

variable {κ : Type u}

/-- The order of insertion, latest first. -/
def stored : IterationOrder κ :=
  ⟨id, fun keys => List.Perm.refl keys⟩

instance : Inhabited (IterationOrder κ) := ⟨stored⟩

theorem mem_visit (order : IterationOrder κ) {key keys} : key ∈ order.visit keys ↔ key ∈ keys :=
  (order.perm keys).mem_iff

theorem nodup_visit (order : IterationOrder κ) {keys} (nodup : keys.Nodup) :
    (order.visit keys).Nodup :=
  (order.perm keys).nodup_iff.mpr nodup

end IterationOrder

end GraphZero.Foundation
