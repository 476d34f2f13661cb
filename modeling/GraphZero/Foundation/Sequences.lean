import Mathlib.Data.List.Chain
import Mathlib.Data.List.Nodup
import Mathlib.Data.Nat.ModEq

/-!
# Sequences

Lists related position by position, links joined end to end, and the places
that a ring hands out in turn.
-/

namespace GraphZero.Foundation

open List

section Pointwise

universe u v w

variable {α : Type u} {β : Type v} {γ : Type w} {relates : α → β → Prop}

variable {first : List α} {second : List β}

variable {index : Nat}

theorem forall₂_getElem? (all : List.Forall₂ relates first second) {left}
    (found : first[index]? = some left) :
    ∃ right, second[index]? = some right ∧ relates left right := by
  induction all generalizing index with
  | nil => cases found
  | cons here _ ih =>
    cases index with
    | zero =>
      cases found
      exact ⟨_, rfl, here⟩
    | succ index => exact ih found

theorem forall₂_getElem?_right (all : List.Forall₂ relates first second) {right}
    (found : second[index]? = some right) :
    ∃ left, first[index]? = some left ∧ relates left right :=
  forall₂_getElem? all.flip found

theorem forall₂_mem_right (all : List.Forall₂ relates first second) {right}
    (member : right ∈ second) : ∃ left ∈ first, relates left right := by
  obtain ⟨index, found⟩ := mem_iff_getElem?.mp member
  obtain ⟨left, leftFound, here⟩ := forall₂_getElem?_right all found
  exact ⟨left, mem_of_getElem? leftFound, here⟩

theorem map_eq_of_forall₂ {left} {right : β → γ} (all : List.Forall₂ relates first second)
    (same : ∀ one other, relates one other → left one = right other) :
    first.map left = second.map right := by
  induction all with
  | nil => rfl
  | cons here _ ih => rw [map_cons, map_cons, same _ _ here, ih]

theorem pairwise_of_forall₂ {apart between}
    (carries : ∀ left right leftImage rightImage, apart left right →
      relates left leftImage → relates right rightImage → between leftImage rightImage)
    {first second} (all : List.Forall₂ relates first second) (pairs : first.Pairwise apart) :
    second.Pairwise between := by
  induction all with
  | nil => exact .nil
  | @cons left leftImage first second here rest ih =>
    obtain ⟨head, tail⟩ := pairwise_cons.mp pairs
    refine pairwise_cons.mpr ⟨fun rightImage member => ?_, ih tail⟩
    obtain ⟨right, there, same⟩ := forall₂_mem_right rest member
    exact carries _ _ _ _ (head right there) here same

theorem forall₂_trans {mid whole}
    (composes : ∀ first second third, relates first second →
      mid second third → whole first third) {first second} {third : List γ}
    (before : List.Forall₂ relates first second) (after : List.Forall₂ mid second third) :
    List.Forall₂ whole first third := by
  induction before generalizing third with
  | nil =>
    cases after
    exact .nil
  | cons here _ ih =>
    cases after with
    | cons there rest => exact .cons (composes _ _ _ here there) (ih rest)

theorem forall₂_set {similar items} {old new : α} (same : ∀ item, similar item item)
    (found : items[index]? = some old) (changed : similar old new) :
    List.Forall₂ similar items (items.set index new) := by
  induction items generalizing index with
  | nil => cases found
  | cons item items ih =>
    cases index with
    | zero =>
      cases found
      exact .cons changed (forall₂_same.mpr fun item _ => same item)
    | succ index => exact .cons (same item) (ih found)

end Pointwise

section Chain

universe u v

variable {α : Type u} {β : Type v} {source target : α → β}

/-- The links lead from the first place to the last. -/
def Connects (source target : α → β) : β → List α → β → Prop
  | first, [], last => first = last
  | first, link :: rest, last =>
    source link = first ∧ Connects source target (target link) rest last

theorem Connects.concat {first last links link} (connects : Connects source target first links last)
    (here : source link = last) :
    Connects source target first (links ++ [link]) (target link) := by
  induction links generalizing first with
  | nil =>
    cases connects
    exact ⟨here, rfl⟩
  | cons head rest ih => exact ⟨connects.1, ih connects.2⟩

theorem isChain_concat {R items} {item : α} (chain : items.IsChain R)
    (follows : ∀ last, items.getLast? = some last → R last item) :
    (items ++ [item]).IsChain R := by
  refine isChain_append.mpr ⟨chain, isChain_singleton item, fun last found next head => ?_⟩
  cases head
  exact follows last found

end Chain

/-! ## Places of a ring

As long as no more are out than the ring has, the place that comes next is not
one of them. -/

/-- The places that a ring hands out for `count` requests from `start` on. -/
def ringPlaces (depth start count : Nat) : List Nat :=
  (List.range count).map fun offset => (start + offset) % depth

section Ring

variable {depth start count : Nat}

theorem ringPlaces_concat : ringPlaces depth start (count + 1) =
      ringPlaces depth start count ++ [(start + count) % depth] := by
  rw [ringPlaces, range_succ, map_append]
  rfl

theorem ringPlaces_cons : ringPlaces depth start (count + 1) =
      start % depth :: ringPlaces depth (start + 1) count := by
  rw [ringPlaces, range_succ_eq_map, map_cons, map_map, Nat.add_zero]
  refine congrArg (start % depth :: ·) (map_congr_left fun offset _ => ?_)
  exact congrArg (· % depth) (by simp only [Nat.succ_eq_add_one]; omega)

theorem next_notMem_ringPlaces (room : count < depth) :
    (start + count) % depth ∉ ringPlaces depth start count := by
  intro member
  obtain ⟨offset, inside, same⟩ := mem_map.mp member
  have before := mem_range.mp inside
  have equal : start + offset ≡ start + count [MOD depth] := same
  have offsets := Nat.ModEq.add_left_cancel' start equal
  have small : offset % depth = offset := Nat.mod_eq_of_lt (by omega)
  have large : count % depth = count := Nat.mod_eq_of_lt room
  rw [Nat.ModEq, small, large] at offsets
  omega

theorem nodup_ringPlaces (room : count ≤ depth) : (ringPlaces depth start count).Nodup := by
  induction count with
  | zero => exact nodup_nil
  | succ count ih =>
    rw [ringPlaces_concat]
    refine (ih (by omega)).append
      (nodup_singleton _) ?_
    rw [disjoint_singleton]
    exact next_notMem_ringPlaces (by omega)

end Ring

end GraphZero.Foundation
