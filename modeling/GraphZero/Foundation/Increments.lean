import Mathlib.Data.List.Range
import Mathlib.Data.Multiset.MapFold

/-!
# Counts that are raised by a schedule

A schedule names one count after the other; each step raises a count of that
size.  Whoever follows a schedule that can be played to its end always finds a
count of the size it names.
-/

namespace GraphZero.Foundation

variable {α : Type} {next : α → α}

/-- The targets are met by counts one after the other. -/
inductive Raises (next : α → α) : List α → Multiset α → Multiset α → Prop
  | nil (counts : Multiset α) : Raises next [] counts counts
  | cons {target targets others final} (rest : Raises next targets (next target ::ₘ others) final) :
    Raises next (target :: targets) (target ::ₘ others) final

namespace Raises

variable {targets more : List α} {first mid final other : Multiset α}

theorem append (before : Raises next targets first mid)
    (after : Raises next more mid final) : Raises next (targets ++ more) first final := by
  induction before with
  | nil => exact after
  | cons _ ih => exact .cons (ih after)

theorem split (whole : Raises next (targets ++ more) first final) :
    ∃ mid, Raises next targets first mid ∧ Raises next more mid final := by
  induction targets generalizing first with
  | nil => exact ⟨first, .nil first, whole⟩
  | cons target targets ih =>
    cases whole with
    | cons rest =>
      obtain ⟨mid, before, after⟩ := ih rest
      exact ⟨mid, .cons before, after⟩

theorem unique (one : Raises next targets first final) (two : Raises next targets first other) :
    final = other := by
  induction one generalizing other with
  | nil =>
    cases two
    rfl
  | @cons target targets others final rest ih =>
    generalize same : target ::ₘ others = counts at two
    cases two with
    | cons rest =>
      obtain rfl := (Multiset.cons_inj_right target).mp same
      exact ih rest

theorem count_zero {targets first final} (raises : Raises (· + 1) targets first final) :
    final.count 0 + targets.count 0 = first.count 0 := by
  induction raises with
  | nil => exact Nat.add_zero _
  | @cons target targets others final rest ih =>
    rw [Multiset.count_cons_of_ne (Nat.succ_ne_zero target).symm] at ih
    rw [Multiset.count_cons, List.count_cons, ← ih, Nat.add_assoc]
    simp [@eq_comm Nat 0]

end Raises

theorem raises_each (leading : List α) (others : Multiset α) :
    Raises next leading (leading + others) (leading.map next + others) := by
  induction leading generalizing others with
  | nil => exact .nil _
  | cons count leading ih =>
    have rest := ih (next count ::ₘ others)
    rw [Multiset.add_cons, Multiset.add_cons] at rest
    rw [List.map_cons, ← Multiset.cons_coe, ← Multiset.cons_coe, Multiset.cons_add,
      Multiset.cons_add]
    exact .cons rest

/-- One by one, each target raises a count of its size, whichever it is. -/
inductive Replays (next : α → α) : List α → List α → List α → Prop
  | nil (counts : List α) : Replays next [] counts counts
  | cons {target targets counts final index} (due : counts[index]? = some target)
    (rest : Replays next targets (counts.set index (next target)) final) :
    Replays next (target :: targets) counts final

namespace Replays

variable {targets more counts final : List α}

theorem raises (replays : Replays next targets counts final) :
    Raises next targets counts final := by
  induction replays with
  | nil => exact .nil _
  | @cons target targets counts final index due _ ih =>
    obtain ⟨inside, rfl⟩ := List.getElem?_eq_some_iff.mp due
    rw [Multiset.coe_eq_coe.mpr (List.set_perm_cons_eraseIdx inside _), ← Multiset.cons_coe] at ih
    rw [← Multiset.coe_eq_coe.mpr (List.getElem_cons_eraseIdx_perm inside), ← Multiset.cons_coe]
    exact .cons ih

/-- Whoever has replayed a part of a schedule that can be played to its end
finds the next target. -/
theorem finds {target whole} (raises : Raises next (targets ++ target :: more) counts whole)
    (replays : Replays next targets counts final) : target ∈ final := by
  obtain ⟨mid, before, after⟩ := raises.split
  rw [← Multiset.mem_coe, replays.raises.unique before]
  cases after
  exact Multiset.mem_cons_self _ _

/-- A schedule that can be played to its end can be replayed. -/
theorem exists_replays {whole} (raises : Raises next targets counts whole) :
    ∃ final, Replays next targets counts final := by
  induction targets generalizing counts with
  | nil => exact ⟨counts, .nil counts⟩
  | cons target targets ih =>
    generalize start : (counts : Multiset α) = before at raises
    cases raises with
    | @cons _ _ others _ rest =>
      have member : target ∈ counts := by
        rw [← Multiset.mem_coe, start]
        exact Multiset.mem_cons_self target others
      obtain ⟨index, due⟩ := List.mem_iff_getElem?.mp member
      obtain ⟨inside, here⟩ := List.getElem?_eq_some_iff.mp due
      have left : ((counts.eraseIdx index : List α) : Multiset α) = others := by
        rw [← Multiset.cons_inj_right target, ← start, Multiset.cons_coe, ← here]
        exact Multiset.coe_eq_coe.mpr (List.getElem_cons_eraseIdx_perm inside)
      rw [← left, Multiset.cons_coe, ← Multiset.coe_eq_coe.mpr
        (List.set_perm_cons_eraseIdx inside _)] at rest
      obtain ⟨final, replays⟩ := ih rest
      exact ⟨final, .cons due replays⟩

end Replays

end GraphZero.Foundation
