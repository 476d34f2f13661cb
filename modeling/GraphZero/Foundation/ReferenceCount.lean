import GraphZero.Foundation.Table

/-!
# Reference counts

A table whose records count references, against a demand for each key.  The
counts are exact when every record counts what is demanded of its key and
exists only while something is.
-/

namespace GraphZero.Foundation

universe u v

variable {κ : Type u} {ρ : Type v} [DecidableEq κ]

def countAt (references : ρ → Nat) (table : Table κ ρ) (key : κ) : Nat :=
  match table.get? key with
  | none => 0
  | some record => references record

theorem countAt_of_get? {references table} {key : κ} {record : ρ}
    (found : table.get? key = some record) :
    countAt references table key = references record := by
  rw [countAt, found]

theorem countAt_of_absent {references} {table : Table κ ρ} {key} (absent : table.get? key = none) :
    countAt references table key = 0 := by
  rw [countAt, absent]

/-- Every record counts the references demanded of its key, which are some. -/
structure Counts (references : ρ → Nat) (demand : κ → Nat) (table : Table κ ρ) : Prop where
  exact : ∀ key, countAt references table key = demand key
  positive : ∀ key record, table.get? key = some record → 0 < references record

namespace Counts

variable {references : ρ → Nat} {demand later : κ → Nat} {table : Table κ ρ}
  {key : κ} {record : ρ}

theorem empty (references : ρ → Nat) : Counts references (fun _ => 0) (∅ : Table κ ρ) :=
  ⟨fun _ => rfl, by simp⟩

section

variable (counts : Counts references demand table)
include counts

theorem demand_of_get? (found : table.get? key = some record) : references record = demand key := by
  rw [← counts.exact, countAt_of_get? found]

theorem demand_of_absent (absent : table.get? key = none) : demand key = 0 := by
  rw [← counts.exact, countAt_of_absent absent]

theorem exists_iff (key : κ) : (∃ record, table.get? key = some record) ↔ 0 < demand key := by
  constructor
  · intro ⟨record, found⟩
    rw [← counts.demand_of_get? found]
    exact counts.positive key record found
  · intro demanded
    cases found : table.get? key with
    | none =>
      have unused := counts.demand_of_absent found
      omega
    | some record => exact ⟨record, rfl⟩

theorem insert (demanded : references record = later key) (pos : 0 < references record)
    (same : ∀ other, other ≠ key → later other = demand other) :
    Counts references later (table.insert key record) := by
  constructor
  · intro other
    unfold countAt
    rw [Table.get?_insert]
    by_cases here : other = key
    · rw [if_pos here, here]
      exact demanded
    · rw [if_neg here, same other here]
      exact counts.exact other
  · intro other found present
    rw [Table.get?_insert] at present
    split at present
    · cases present
      exact pos
    · exact counts.positive other found present

theorem erase (unused : later key = 0) (same : ∀ other, other ≠ key → later other = demand other) :
    Counts references later (table.erase key) := by
  constructor
  · intro other
    unfold countAt
    rw [Table.get?_erase]
    by_cases here : other = key
    · rw [if_pos here, here, unused]
    · rw [if_neg here, same other here]
      exact counts.exact other
  · intro other found present
    rw [Table.get?_erase] at present
    split at present
    · cases present
    · exact counts.positive other found present

theorem congr (same : ∀ key, later key = demand key) : Counts references later table :=
  ⟨fun key => (counts.exact key).trans (same key).symm, counts.positive⟩

end

end Counts

end GraphZero.Foundation
