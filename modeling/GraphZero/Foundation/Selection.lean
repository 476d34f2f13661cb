import Mathlib.Data.List.Induction
import Mathlib.Data.List.Perm.Basic
import Mathlib.Data.List.Perm.Lattice
import Mathlib.Data.List.Sort

/-!
# Selecting the best

Of every group of items the best one is kept, and of those the best `width`
are selected, best first.  The items are met one by one: a table holds the best
one so far of every group, and a heap the best `width` of the table with the
worst one on top.  Where no two items rank alike the outcome depends neither on
the order in which the items come nor on the order of the table.
-/

namespace GraphZero.Foundation

open List

variable {α γ κ : Type} [DecidableEq γ] [LinearOrder κ] (group : α → γ) (rank : α → κ)

/-- Put the item in the place of its group, if it is better than what is
there. -/
def keepBest : (best : List α) → (item : α) → List α
  | [], item => [item]
  | other :: best, item =>
    if group other = group item then
      (if rank other < rank item then item else other) :: best
    else other :: keepBest best item

def bestOfGroups (items : List α) : List α :=
  items.foldl (keepBest group rank) []

/-- The order of a comparison that compares places. -/
@[reducible]
def orderOfComparison (compares : α → α → Ordering) (place : α → κ)
    (injective : Function.Injective place)
    (agree : ∀ left right, compares left right = compare (place left) (place right)) :
    LinearOrder α where
  le left right := compares left right ≠ .gt
  lt left right := compares left right = .lt
  le_refl item := by
    rw [agree, compare_eq_iff_eq.mpr rfl]
    exact nofun
  le_trans first second third := by
    simp only [agree, ne_eq, compare_gt_iff_gt, not_lt]
    exact le_trans
  lt_iff_le_not_ge left right := by
    simp only [agree, ne_eq, compare_gt_iff_gt, compare_lt_iff_lt, not_lt, not_le]
    exact ⟨fun less => ⟨less.le, less⟩, And.right⟩
  le_antisymm left right := by
    simp only [agree, ne_eq, compare_gt_iff_gt, not_lt]
    exact fun below above => injective (le_antisymm below above)
  le_total left right := by
    simp only [agree, ne_eq, compare_gt_iff_gt, not_lt]
    exact le_total _ _
  toDecidableLE left right :=
    inferInstanceAs (Decidable (compares left right ≠ .gt))
  toDecidableLT left right :=
    inferInstanceAs (Decidable (compares left right = .lt))

section Heap

def worst : List α → Option α
  | [] => none
  | item :: heap =>
    match worst heap with
    | none => some item
    | some other => if rank other < rank item then some other else some item

/-- The heap without one item of the given rank. -/
def popRank (bound : κ) (heap : List α) : List α :=
  heap.eraseP fun item => decide (rank item = bound)

/-- Keep the item if there is room, or in place of a worse one. -/
def pushTop (width : Nat) (heap : List α) (item : α) : List α :=
  if heap.length < width then heap ++ [item]
  else
    match worst rank heap with
    | none => heap
    | some other =>
      if rank other < rank item then
        popRank rank (rank other) heap ++ [item]
      else heap

/-- The heap after all items; how it lays its items out is up to it. -/
def topOf (layout : List α → List α) (width : Nat) (items : List α) : List α :=
  items.foldl (fun heap item => layout (pushTop rank width heap item)) []

end Heap

/-- Best first; items that rank alike stay in their order. -/
def sortBest (items : List α) : List α :=
  items.insertionSort fun left right => rank right ≤ rank left

/-- The orders in which a table is gone through, a heap lays out its items
and a heap is emptied. -/
structure Containers (α : Type) where
  visited : List α → List α
  layout : List α → List α
  drained : List α → List α
  visited_perm : ∀ items, (visited items).Perm items
  layout_perm : ∀ items, (layout items).Perm items
  drained_perm : ∀ items, (drained items).Perm items

def selectBest (containers : Containers α) (width : Nat) (items : List α) : List α :=
  sortBest rank (containers.drained (topOf rank containers.layout width
      (containers.visited (bestOfGroups group rank items))))

/-- A best item, and of several the last one. -/
def lastBest : List α → Option α
  | [] => none
  | item :: items =>
    match lastBest items with
    | none => some item
    | some other => if rank other < rank item then some item else some other

def IsBest (items : List α) (item : α) : Prop :=
  ∀ other ∈ items, group other = group item → rank other ≤ rank item

instance (items : List α) : DecidablePred (IsBest group rank items) :=
  fun item => inferInstanceAs (Decidable (∀ other ∈ items,
    group other = group item → rank other ≤ rank item))

/-- What is to be selected: the best one of every group, of those the best
`width`, best first. -/
def selection (width : Nat) (items : List α) : List α :=
  (sortBest rank (items.filter fun item =>
    decide (IsBest group rank items item))).take width

variable {group rank}

theorem sortBest_perm (items : List α) : (sortBest rank items).Perm items :=
  perm_insertionSort _ items

theorem pairwise_sortBest (items : List α) : (sortBest rank items).Pairwise fun left right =>
      rank right ≤ rank left := by
  exact pairwise_insertionSort _ items

theorem eq_of_sorted {first second : List α} (same : first.Perm second)
    (distinct : (first.map rank).Nodup)
    (left : first.Pairwise fun left right => rank right ≤ rank left)
    (right : second.Pairwise fun left right => rank right ≤ rank left) :
    first = second := by
  refine List.Perm.eq_of_pairwise (fun one other here there up down => ?_) left right same
  exact inj_on_of_nodup_map distinct here (same.mem_iff.mpr there) (le_antisymm down up)

/-! ## The table -/

/-- The table holds one item of every group it has met, none of which is
worse than those met. -/
structure Table.Holds (group : α → γ) (rank : α → κ) (met best : List α) : Prop where
  distinct : (best.map group).Nodup
  among : ∀ item ∈ best, item ∈ met
  covers : ∀ item ∈ met, ∃ other ∈ best, group other = group item ∧ rank item ≤ rank other

variable {best : List α} {item : α} {heap : List α} {width : Nat}

theorem group_mem_keepBest {place} : place ∈ (keepBest group rank best item).map group ↔
      place ∈ best.map group ∨ place = group item := by
  induction best with
  | nil => simp [keepBest]
  | cons other best ih =>
    unfold keepBest
    split
    · next same =>
      have own : group (if rank other < rank item then item else other) = group item := by
        split
        · rfl
        · exact same
      rw [map_cons, map_cons, own, mem_cons, mem_cons, same]
      tauto
    · rw [map_cons, map_cons, mem_cons, mem_cons, ih]
      tauto

theorem nodup_keepBest (distinct : (best.map group).Nodup) :
    ((keepBest group rank best item).map group).Nodup := by
  induction best with
  | nil => exact nodup_singleton _
  | cons other best ih =>
    rw [map_cons, nodup_cons] at distinct
    unfold keepBest
    split
    · next same =>
      rw [map_cons, nodup_cons]
      refine ⟨?_, distinct.2⟩
      split
      · exact same ▸ distinct.1
      · exact distinct.1
    · next apart =>
      rw [map_cons, nodup_cons, group_mem_keepBest]
      exact ⟨not_or.mpr ⟨distinct.1, apart⟩, ih distinct.2⟩

theorem mem_of_mem_keepBest {item kept} (member : kept ∈ keepBest group rank best item) :
    kept ∈ best ∨ kept = item := by
  induction best with
  | nil => exact .inr (mem_singleton.mp member)
  | cons other best ih =>
    unfold keepBest at member
    split at member
    · rcases mem_cons.mp member with rfl | member
      · split
        · exact .inr rfl
        · exact .inl mem_cons_self
      · exact .inl (mem_cons_of_mem _ member)
    · rcases mem_cons.mp member with rfl | member
      · exact .inl mem_cons_self
      · exact (ih member).imp (mem_cons_of_mem _) id

theorem exists_keepBest {item old} (met : old ∈ best ∨ old = item) :
    ∃ kept ∈ keepBest group rank best item, group kept = group old ∧ rank old ≤ rank kept := by
  induction best with
  | nil =>
    obtain rfl := met.resolve_left not_mem_nil
    exact ⟨old, mem_singleton.mpr rfl, rfl, le_rfl⟩
  | cons other best ih =>
    unfold keepBest
    split
    · next same =>
      by_cases behind : old ∈ best
      · exact ⟨old, mem_cons_of_mem _ behind, rfl, le_rfl⟩
      refine ⟨_, mem_cons_self, ?_⟩
      have here : old = other ∨ old = item := by
        rcases met with member | new
        · exact .inl ((mem_cons.mp member).resolve_right behind)
        · exact .inr new
      split
      · next better =>
        rcases here with rfl | rfl
        · exact ⟨same.symm, better.le⟩
        · exact ⟨rfl, le_rfl⟩
      · next better =>
        rcases here with rfl | rfl
        · exact ⟨rfl, le_rfl⟩
        · exact ⟨same, not_lt.mp better⟩
    · by_cases first : old = other
      · exact ⟨other, mem_cons_self, by rw [first], by rw [first]⟩
      · obtain ⟨kept, member, own, better⟩ := ih (met.imp_left fun member =>
            (mem_cons.mp member).resolve_left first)
        exact ⟨kept, mem_cons_of_mem _ member, own, better⟩

theorem Table.Holds.keepBest {met best} (holds : Table.Holds group rank met best) (item : α) :
    Table.Holds group rank (met ++ [item]) (keepBest group rank best item) where
  distinct := nodup_keepBest holds.distinct
  among kept member := by
    rcases mem_of_mem_keepBest member with old | rfl
    · exact mem_append_left _ (holds.among kept old)
    · exact mem_concat_self
  covers other member := by
    rcases mem_append.mp member with old | new
    · obtain ⟨there, here, own, better⟩ := holds.covers other old
      obtain ⟨kept, member, same, still⟩ :=
        @exists_keepBest _ _ _ _ _ group rank _ item _ (.inl here)
      exact ⟨kept, member, same.trans own, better.trans still⟩
    · have own : other = item := mem_singleton.mp new
      exact exists_keepBest (.inr own)

theorem holds_bestOfGroups (items : List α) :
    Table.Holds group rank items (bestOfGroups group rank items) := by
  induction items using List.reverseRecOn with
  | nil => exact ⟨nodup_nil, forall_mem_nil _, forall_mem_nil _⟩
  | append_singleton items item ih =>
    unfold bestOfGroups
    rw [foldl_append]
    exact ih.keepBest item

theorem mem_bestOfGroups {items} (distinct : (items.map rank).Nodup) {item} :
    item ∈ bestOfGroups group rank items ↔ item ∈ items ∧ IsBest group rank items item := by
  have holds : Table.Holds group rank items _ := holds_bestOfGroups items
  have one {first second : α} (here : first ∈ bestOfGroups group rank items)
      (there : second ∈ bestOfGroups group rank items)
      (same : group first = group second) : first = second :=
    inj_on_of_nodup_map holds.distinct here there same
  constructor
  · intro member
    refine ⟨holds.among item member, fun other met same => ?_⟩
    obtain ⟨kept, there, own, better⟩ := holds.covers other met
    obtain rfl := one there member (own.trans same)
    exact better
  · rintro ⟨member, best⟩
    obtain ⟨kept, here, own, better⟩ := holds.covers item member
    have least := best kept (holds.among kept here) own
    obtain rfl := inj_on_of_nodup_map distinct member
      (holds.among kept here) (le_antisymm better least)
    exact here

/-! ## The heap -/

/-- The heap and what was left out make up what was met, and nothing that was
left out is better than what is in the heap. -/
structure Heap.Holds (rank : α → κ) (width : Nat) (met heap : List α) : Prop where
  parts : ∃ rest, met.Perm (heap ++ rest) ∧ ∀ item ∈ heap, ∀ other ∈ rest, rank other ≤ rank item
  length : heap.length = min width met.length

theorem worst_eq_some {item} (found : worst rank heap = some item) :
    item ∈ heap ∧ ∀ other ∈ heap, rank item ≤ rank other := by
  induction heap generalizing item with
  | nil => cases found
  | cons first heap ih =>
    unfold worst at found
    cases below : worst rank heap with
    | none =>
      simp only [below] at found
      cases found
      cases heap with
      | nil => exact ⟨mem_cons_self, forall_mem_singleton.mpr le_rfl⟩
      | cons second heap =>
        unfold worst at below
        split at below
        · cases below
        split at below
        · cases below
        · cases below
    | some other =>
      obtain ⟨member, least⟩ := ih below
      simp only [below] at found
      split at found
      · next less =>
        cases found
        exact ⟨mem_cons_of_mem _ member, forall_mem_cons.mpr ⟨less.le, least⟩⟩
      · next less =>
        cases found
        exact ⟨mem_cons_self, forall_mem_cons.mpr
          ⟨le_rfl, fun one here => (not_lt.mp less).trans (least one here)⟩⟩

theorem worst_eq_none (empty : worst rank heap = none) : heap = [] := by
  cases heap with
  | nil => rfl
  | cons item heap =>
    unfold worst at empty
    split at empty
    · cases empty
    split at empty
    · cases empty
    · cases empty

theorem exists_popRank {item} (member : item ∈ heap) :
    ∃ popped, rank popped = rank item ∧ heap.Perm (popped :: popRank rank (rank item) heap) := by
  have own : decide (rank item = rank item) = true := decide_eq_true rfl
  obtain ⟨popped, before, after, _, same, whole, left⟩ :=
    @exists_of_eraseP _ (fun other => decide (rank other = rank item))
      _ _ member own
  refine ⟨popped, of_decide_eq_true same, ?_⟩
  unfold popRank
  rw [left, whole]
  exact perm_middle

theorem Heap.Holds.push {met heap} (holds : Heap.Holds rank width met heap) (pos : 0 < width)
    (item : α) :
    Heap.Holds rank width (met ++ [item]) (pushTop rank width heap item) := by
  obtain ⟨⟨rest, parts, better⟩, length⟩ := holds
  have total := parts.length_eq
  rw [length_append] at total
  unfold pushTop
  split
  · next room =>
    have nothing : rest = [] := length_eq_zero_iff.mp (by omega)
    rw [nothing, append_nil] at parts
    refine ⟨⟨[], ?_, fun _ _ => forall_mem_nil _⟩, ?_⟩
    · rw [append_nil]
      exact parts.append_right [item]
    · rw [length_append, length_append, length_singleton]
      omega
  next full =>
  split
  · next empty =>
    rw [worst_eq_none empty] at full
    exact absurd pos full
  next other found =>
  obtain ⟨member, least⟩ := worst_eq_some found
  split
  · next less =>
    obtain ⟨popped, same, split⟩ := @exists_popRank _ _ _ rank _ _ member
    generalize popRank rank (rank other) heap = left at split
    have size := split.length_eq
    rw [length_cons] at size
    have kept (one : α) (here : one ∈ left) : one ∈ heap :=
      split.mem_iff.mpr (mem_cons_of_mem _ here)
    refine ⟨⟨popped :: rest, ?_, fun one here gone out => ?_⟩, ?_⟩
    · refine ((parts.trans (split.append_right rest)).append_right [item]).trans ?_
      rw [append_assoc, cons_append, append_assoc]
      refine perm_middle.symm.trans ?_
      refine List.Perm.append_left left ?_
      exact ((perm_append_singleton item rest).cons popped).trans (List.Perm.swap item popped rest)
    · have least : rank other ≤ rank one := by
        rcases mem_append.mp here with old | new
        · exact (worst_eq_some found).2 one (kept one old)
        · rw [mem_singleton.mp new]
          exact less.le
      rcases mem_cons.mp out with rfl | out
      · exact same.trans_le least
      · exact (better other member gone out).trans least
    · rw [length_append, length_append, length_singleton]
      omega
  next less =>
  refine ⟨⟨rest ++ [item], ?_, fun kept here left out => ?_⟩, ?_⟩
  · rw [← append_assoc]
    exact parts.append_right [item]
  · rcases mem_append.mp out with old | new
    · exact better kept here left old
    · rw [mem_singleton.mp new]
      exact (not_lt.mp less).trans (least kept here)
  · rw [length_append, length_singleton]
    omega

theorem Heap.Holds.perm {met heap other} (holds : Heap.Holds rank width met heap)
    (same : other.Perm heap) :
    Heap.Holds rank width met other := by
  obtain ⟨⟨rest, parts, better⟩, length⟩ := holds
  refine ⟨⟨rest, parts.trans (same.symm.append_right rest),
    fun item here => ?_⟩, same.length_eq.trans length⟩
  exact better item (same.mem_iff.mp here)

theorem holds_topOf {layout} (pos : 0 < width) (laid : ∀ items, (layout items).Perm items)
    (items : List α) :
    Heap.Holds rank width items (topOf rank layout width items) := by
  induction items using List.reverseRecOn with
  | nil =>
    exact ⟨⟨[], List.Perm.refl _, fun _ _ => forall_mem_nil _⟩, (Nat.min_zero width).symm⟩
  | append_singleton items item ih =>
    unfold topOf
    rw [foldl_append]
    exact (ih.push pos item).perm (laid _)

/-- A heap that was filled with items that all rank differently holds the
first ones of their order. -/
theorem sortBest_of_holds {met heap drained : List α}
    (holds : Heap.Holds rank width met heap) (same : drained.Perm heap)
    (distinct : (met.map rank).Nodup) :
    sortBest rank drained = (sortBest rank met).take width := by
  obtain ⟨⟨rest, parts, better⟩, length⟩ := holds
  have whole : sortBest rank met = sortBest rank drained ++ sortBest rank rest := by
    refine eq_of_sorted ?_ ?_ (pairwise_sortBest met) ?_
    · exact (sortBest_perm met).trans (parts.trans
        ((same.symm.trans (sortBest_perm drained).symm).append (sortBest_perm rest).symm))
    · exact ((sortBest_perm met).map rank).nodup_iff.mpr distinct
    · refine pairwise_append.mpr ⟨pairwise_sortBest drained,
        pairwise_sortBest rest, fun item here other there => ?_⟩
      exact better item (same.mem_iff.mp ((sortBest_perm drained).mem_iff.mp here)) other
        ((sortBest_perm rest).mem_iff.mp there)
  have size : (sortBest rank drained).length = min width met.length :=
    ((sortBest_perm drained).trans same).length_eq.trans length
  rw [whole]
  rcases Nat.le_total width met.length with few | many
  · rw [Nat.min_eq_left few] at size
    rw [← size, take_left]
  have nothing : rest = [] := by
    have total := parts.length_eq
    rw [length_append, length, Nat.min_eq_right many] at total
    exact length_eq_zero_iff.mp (by omega)
  have nil : sortBest rank ([] : List α) = [] := rfl
  rw [nothing, nil, append_nil, take_of_length_le]
  exact size.trans_le (Nat.min_le_left _ _)

section SelectBest

variable {containers : Containers α} {width : Nat} {items : List α}

section

variable (pos : 0 < width)
include pos

theorem holds_selectBest : Heap.Holds rank width (bestOfGroups group rank items)
      (selectBest group rank containers width items) := by
  have holds : Heap.Holds rank width (containers.visited (bestOfGroups group rank items)) _ :=
    holds_topOf pos containers.layout_perm _
  have sorted : Heap.Holds rank width _ (selectBest group rank containers width items) :=
    holds.perm ((sortBest_perm _).trans (containers.drained_perm _))
  obtain ⟨⟨rest, parts, better⟩, length⟩ := sorted
  have same := containers.visited_perm (bestOfGroups group rank items)
  exact ⟨⟨rest, same.symm.trans parts, better⟩, length.trans (by rw [same.length_eq])⟩

theorem length_selectBest_le : (selectBest group rank containers width items).length ≤ width :=
  (holds_selectBest pos).length.trans_le (Nat.min_le_left _ _)

theorem nodup_selectBest : ((selectBest group rank containers width items).map group).Nodup := by
  have heap : Heap.Holds rank width (bestOfGroups group rank items)
      (selectBest group rank containers width items) :=
    holds_selectBest pos
  obtain ⟨rest, parts, _⟩ := heap.parts
  have table : Table.Holds group rank items _ := holds_bestOfGroups items
  have distinct := table.distinct
  rw [(parts.map group).nodup_iff, map_append] at distinct
  exact distinct.of_append_left

theorem mem_of_mem_selectBest {item}
    (member : item ∈ selectBest group rank containers width items) :
    item ∈ items := by
  have heap : Heap.Holds rank width (bestOfGroups group rank items)
      (selectBest group rank containers width items) :=
    holds_selectBest pos
  obtain ⟨rest, parts, _⟩ := heap.parts
  have table : Table.Holds group rank items _ := holds_bestOfGroups items
  exact table.among item (parts.mem_iff.mpr (mem_append_left _ member))

theorem exists_selectBest {item} (member : item ∈ items) :
    ∃ kept ∈ selectBest group rank containers width items, rank item ≤ rank kept := by
  have heap : Heap.Holds rank width (bestOfGroups group rank items)
      (selectBest group rank containers width items) :=
    holds_selectBest pos
  obtain ⟨⟨rest, parts, better⟩, length⟩ := heap
  have table : Table.Holds group rank items _ := holds_bestOfGroups items
  obtain ⟨own, here, _, most⟩ := table.covers item member
  rcases mem_append.mp (parts.mem_iff.mp here) with kept | left
  · exact ⟨own, kept, most⟩
  · have some : 0 < (bestOfGroups group rank items).length := length_pos_of_mem here
    obtain ⟨kept, there⟩ := exists_mem_of_length_pos (length.symm ▸ Nat.lt_min.mpr ⟨pos, some⟩)
    exact ⟨kept, there, most.trans (better kept there own left)⟩

/-- Where no two items rank alike the selected ones are the best ones, in
whatever order the items come and whatever the orders of the containers. -/
theorem selectBest_eq_selection {met : List α}
    (arrived : met.Perm items) (distinct : (items.map rank).Nodup) :
    selectBest group rank containers width met = selection group rank width items := by
  have apart : (met.map rank).Nodup := (arrived.map rank).nodup_iff.mpr distinct
  have single : (bestOfGroups group rank met).Nodup :=
    .of_map group (holds_bestOfGroups met).distinct
  have kept : (bestOfGroups group rank met).Perm
      (items.filter fun item => decide (IsBest group rank items item)) := by
    refine (perm_ext_iff_of_nodup single
      ((List.Nodup.of_map rank distinct).filter _)).mpr fun item => ?_
    rw [mem_bestOfGroups apart, mem_filter, decide_eq_true_eq, arrived.mem_iff]
    unfold IsBest
    simp only [arrived.mem_iff]
  have different : ((items.filter fun item =>
      decide (IsBest group rank items item)).map rank).Nodup :=
    distinct.sublist (filter_sublist.map rank)
  have visited := (containers.visited_perm _).trans kept
  unfold selectBest selection
  rw [sortBest_of_holds (holds_topOf pos containers.layout_perm _)
    (containers.drained_perm _) ((visited.map rank).nodup_iff.mpr different)]
  congr 1
  refine eq_of_sorted ((sortBest_perm _).trans (visited.trans
    (sortBest_perm _).symm)) ?_ (pairwise_sortBest _) (pairwise_sortBest _)
  exact ((sortBest_perm _).map rank).nodup_iff.mpr ((visited.map rank).nodup_iff.mpr different)

end

end SelectBest

theorem lastBest_eq_some {items item} (found : lastBest rank items = some item) :
    item ∈ items ∧ ∀ other ∈ items, rank other ≤ rank item := by
  induction items generalizing item with
  | nil => cases found
  | cons first items ih =>
    unfold lastBest at found
    cases below : lastBest rank items with
    | none =>
      simp only [below] at found
      cases found
      cases items with
      | nil => exact ⟨mem_cons_self, forall_mem_singleton.mpr le_rfl⟩
      | cons second items =>
        unfold lastBest at below
        split at below
        · cases below
        split at below
        · cases below
        · cases below
    | some other =>
      obtain ⟨member, most⟩ := ih below
      simp only [below] at found
      split at found
      · next less =>
        cases found
        exact ⟨mem_cons_self, forall_mem_cons.mpr
          ⟨le_rfl, fun one here => (most one here).trans less.le⟩⟩
      · next less =>
        cases found
        exact ⟨mem_cons_of_mem _ member, forall_mem_cons.mpr ⟨not_lt.mp less, most⟩⟩

theorem exists_lastBest {items} (nonempty : items ≠ []) :
    ∃ item, lastBest rank items = some item := by
  cases items with
  | nil => exact absurd rfl nonempty
  | cons first items =>
    unfold lastBest
    split
    · exact ⟨first, rfl⟩
    split
    · exact ⟨first, rfl⟩
    · next other _ _ => exact ⟨other, rfl⟩

end GraphZero.Foundation
