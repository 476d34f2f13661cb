import Mathlib.Data.List.Basic
import Mathlib.Algebra.GroupWithZero.Nat

/-!
# Segmented logs

An append-only log is a list of segments, each a list of entries.  Entries are
numbered through the whole log; `locate` turns a number into the segment and
the position in it.  A retained log drops a prefix of whole segments in two
moves: a cut is announced first and carried out when the next one is
announced, so that a reader who started from the announced cut still finds its
entries.
-/

namespace GraphZero.Foundation

universe u

variable {α : Type u}

/-- Number of entries in all segments. -/
def totalLength (segments : List (List α)) : Nat :=
  (segments.map List.length).sum

/-- The number of the first entry of the segment at `index`. -/
def segmentStart (segments : List (List α)) (index : Nat) : Nat :=
  totalLength (segments.take index)

/-- The segment that holds entry `number`, and the position there. -/
def locate : List (List α) → Nat → Option (Nat × Nat)
  | [], _ => none
  | segment :: rest, number =>
    if number < segment.length then
      some (0, number)
    else
      (locate rest (number - segment.length)).map fun place =>
        (place.1 + 1, place.2)

@[simp]
theorem totalLength_nil : totalLength ([] : List (List α)) = 0 := rfl

@[simp]
theorem totalLength_cons (segment : List α) (rest : List (List α)) :
    totalLength (segment :: rest) = segment.length + totalLength rest := by
  simp [totalLength]

@[simp]
theorem totalLength_append (first second : List (List α)) : totalLength (first ++ second) =
      totalLength first + totalLength second := by
  simp [totalLength]

@[simp]
theorem segmentStart_zero (segments : List (List α)) : segmentStart segments 0 = 0 := rfl

@[simp]
theorem segmentStart_cons_succ (segment : List α) (rest : List (List α)) (index : Nat) :
    segmentStart (segment :: rest) (index + 1) = segment.length + segmentStart rest index := by
  simp [segmentStart]

variable {segments : List (List α)} {number : Nat} {place : Nat × Nat}

theorem locate_eq_some_iff :
    locate segments number = some place ↔ ∃ segment, segments[place.1]? = some segment ∧
        place.2 < segment.length ∧
        number = segmentStart segments place.1 + place.2 := by
  obtain ⟨index, position⟩ := place
  induction segments generalizing number index with
  | nil => simp [locate]
  | cons first rest ih =>
    by_cases inFirst : number < first.length
    · rw [locate, if_pos inFirst]
      cases index with
      | zero =>
        simp only [Option.some.injEq, Prod.mk.injEq, true_and,
          List.getElem?_cons_zero, segmentStart_zero, Nat.zero_add]
        constructor
        · intro same
          exact ⟨first, rfl, by omega, same⟩
        · rintro ⟨segment, found, below, same⟩
          exact same
      | succ index =>
        simp only [Option.some.injEq, Prod.mk.injEq, segmentStart_cons_succ]
        constructor
        · intro same
          omega
        · rintro ⟨segment, found, below, same⟩
          omega
    · rw [locate, if_neg inFirst, Option.map_eq_some_iff]
      cases index with
      | zero =>
        simp only [Prod.mk.injEq, List.getElem?_cons_zero,
          Option.some.injEq, segmentStart_zero, Nat.zero_add]
        constructor
        · rintro ⟨place, found, impossible, samePosition⟩
          omega
        · rintro ⟨segment, rfl, below, same⟩
          omega
      | succ index =>
        have tail := @ih (number - first.length) index
        simp only [Prod.mk.injEq, List.getElem?_cons_succ, segmentStart_cons_succ]
        constructor
        · rintro ⟨⟨innerIndex, innerPosition⟩, found, sameIndex, samePosition⟩
          have indexEq : innerIndex = index := by omega
          subst indexEq samePosition
          obtain ⟨segment, present, below, same⟩ := tail.mp found
          simp only at same
          exact ⟨segment, present, below, by omega⟩
        · rintro ⟨segment, present, below, same⟩
          have found := tail.mpr ⟨segment, present, below, by simp only; omega⟩
          exact ⟨(index, position), found, rfl, rfl⟩

theorem locate_isSome_iff : (locate segments number).isSome ↔ number < totalLength segments := by
  induction segments generalizing number with
  | nil => simp [locate]
  | cons first rest ih =>
    by_cases inFirst : number < first.length
    · rw [locate, if_pos inFirst]
      simp only [Option.isSome_some, totalLength_cons, true_iff]
      omega
    · rw [locate, if_neg inFirst, Option.isSome_map, ih, totalLength_cons]
      omega

theorem exists_locate (below : number < totalLength segments) :
    ∃ place, locate segments number = some place :=
  Option.isSome_iff_exists.mp (locate_isSome_iff.mpr below)

theorem lt_totalLength_of_locate (found : locate segments number = some place) :
    number < totalLength segments := by
  apply locate_isSome_iff.mp
  rw [found]
  rfl

theorem locate_append (first second : List (List α)) (number : Nat) :
    locate (first ++ second) number = if number < totalLength first then
        locate first number
      else
        (locate second (number - totalLength first)).map fun place =>
          (place.1 + first.length, place.2) := by
  induction first generalizing number with
  | nil => simp
  | cons segment rest ih =>
    rw [List.cons_append, locate, locate, ih, totalLength_cons, List.length_cons]
    by_cases inSegment : number < segment.length
    · rw [if_pos inSegment, if_pos inSegment, if_pos (by omega)]
    rw [if_neg inSegment, if_neg inSegment]
    by_cases inRest : number - segment.length < totalLength rest
    · rw [if_pos inRest, if_pos (by omega)]
    · rw [if_neg inRest, if_neg (by omega), Option.map_map,
        Nat.sub_sub]
      congr 1

theorem locate_append_of_lt {first second : List (List α)} {number}
    (below : number < totalLength first) :
    locate (first ++ second) number = locate first number := by
  rw [locate_append, if_pos below]

theorem locate_append_single (segments : List (List α)) (last : List α) (number : Nat) :
    locate (segments ++ [last]) number = if number < totalLength segments then
        locate segments number
      else if number < totalLength segments + last.length then
        some (segments.length, number - totalLength segments)
      else
        none := by
  rw [locate_append]
  by_cases below : number < totalLength segments
  · rw [if_pos below, if_pos below]
  rw [if_neg below, if_neg below, locate]
  by_cases inLast : number < totalLength segments + last.length
  · rw [if_pos inLast, if_pos (by omega), Option.map_some]
    simp
  · rw [if_neg inLast, if_neg (by omega)]
    rfl

theorem segmentStart_mono (segments : List (List α)) {first second} (ordered : first ≤ second) :
    segmentStart segments first ≤ segmentStart segments second := by
  induction segments generalizing first second with
  | nil => simp [segmentStart]
  | cons segment rest ih =>
    cases first with
    | zero => simp
    | succ first =>
      cases second with
      | zero => omega
      | succ second =>
        have tails := @ih first second (by omega)
        simp only [segmentStart_cons_succ]
        omega

theorem segmentStart_succ {index segment} (found : segments[index]? = some segment) :
    segmentStart segments (index + 1) = segmentStart segments index + segment.length := by
  have taken : segments.take (index + 1) = segments.take index ++ [segment] := by
    rw [List.take_add_one, found]
    rfl
  rw [segmentStart, taken, totalLength_append, totalLength_cons,
    totalLength_nil, segmentStart, Nat.add_zero]

theorem locate_index_mono {firstNumber secondNumber first second}
    (firstFound : locate segments firstNumber = some first)
    (secondFound : locate segments secondNumber = some second)
    (ordered : firstNumber ≤ secondNumber) : first.1 ≤ second.1 := by
  obtain ⟨firstSegment, _, firstBelow, firstSame⟩ := locate_eq_some_iff.mp firstFound
  obtain ⟨secondSegment, secondPresent, secondBelow, secondSame⟩ :=
    locate_eq_some_iff.mp secondFound
  by_contra later
  have next := segmentStart_succ secondPresent
  have after : second.1 + 1 ≤ first.1 := by omega
  have starts := segmentStart_mono segments after
  omega

/-! ## Cuts between segments -/

/-- `number` begins a segment, or nothing precedes it. -/
def BeginsSegment (segments : List (List α)) (number : Nat) : Prop :=
  number = 0 ∨ ∃ index, locate segments number = some (index, 0)

/-- The first segment that a cut at `number` keeps. -/
def keptFrom (segments : List (List α)) (number : Nat) : Nat :=
  if number = 0 then
    0
  else
    match locate segments number with
    | none => 0
    | some place => place.1

@[simp]
theorem keptFrom_zero (segments : List (List α)) : keptFrom segments 0 = 0 := rfl

theorem keptFrom_of_locate (pos : number ≠ 0) (found : locate segments number = some place) :
    keptFrom segments number = place.1 := by
  rw [keptFrom, if_neg pos, found]

section

variable {first : List (List α)} {number : Nat} (begins : BeginsSegment first number)
  (second : List (List α))
include begins second

theorem BeginsSegment.append : BeginsSegment (first ++ second) number := by
  rcases begins with zero | ⟨index, found⟩
  · exact Or.inl zero
  · refine Or.inr ⟨index, ?_⟩
    rw [locate_append_of_lt (lt_totalLength_of_locate found), found]

theorem keptFrom_append : keptFrom (first ++ second) number = keptFrom first number := by
  rcases begins with zero | ⟨index, found⟩
  · rw [zero, keptFrom_zero, keptFrom_zero]
  · rw [keptFrom, keptFrom, locate_append_of_lt (lt_totalLength_of_locate found)]

end

theorem locate_start (found : locate segments number = some place) :
    locate segments (number - place.2) = some (place.1, 0) := by
  obtain ⟨segment, present, below, same⟩ := locate_eq_some_iff.mp found
  apply locate_eq_some_iff.mpr
  exact ⟨segment, present, by simp only; omega, by simp only; omega⟩

theorem keptFrom_le_iff {cut number place} (begins : BeginsSegment segments cut)
    (found : locate segments number = some place) :
    keptFrom segments cut ≤ place.1 ↔ cut ≤ number := by
  rcases begins with zero | ⟨index, cutFound⟩
  · rw [zero, keptFrom_zero]
    simp
  by_cases zero : cut = 0
  · rw [zero, keptFrom_zero]
    simp
  rw [keptFrom_of_locate zero cutFound]
  constructor
  · intro kept
    obtain ⟨segment, present, below, same⟩ := locate_eq_some_iff.mp found
    obtain ⟨cutSegment, cutPresent, cutBelow, cutSame⟩ := locate_eq_some_iff.mp cutFound
    have starts := segmentStart_mono segments kept
    omega
  · intro ordered
    exact locate_index_mono cutFound found ordered

theorem keptFrom_mono {first second} (firstBegins : BeginsSegment segments first)
    (secondBegins : BeginsSegment segments second) (ordered : first ≤ second) :
    keptFrom segments first ≤ keptFrom segments second := by
  by_cases zero : second = 0
  · have firstZero : first = 0 := by omega
    rw [firstZero, keptFrom_zero]
    exact Nat.zero_le _
  · rcases secondBegins with isZero | ⟨index, found⟩
    · exact absurd isZero zero
    · rw [keptFrom_of_locate zero found]
      exact (keptFrom_le_iff firstBegins found).mpr ordered

section

variable (begins : BeginsSegment segments number)
include begins

theorem BeginsSegment.lt_totalLength (pos : 0 < totalLength segments) :
    number < totalLength segments := by
  rcases begins with zero | ⟨index, found⟩
  · omega
  · exact lt_totalLength_of_locate found

theorem BeginsSegment.exists_locate (pos : 0 < totalLength segments) :
    ∃ index, locate segments number = some (index, 0) := by
  rcases begins with zero | found
  · obtain ⟨place, found⟩ := Foundation.exists_locate pos
    have start := locate_start found
    rw [Nat.zero_sub] at start
    exact ⟨place.1, by rw [zero, start]⟩
  · exact found

theorem keptFrom_lt_length (nonempty : 0 < segments.length) :
    keptFrom segments number < segments.length := by
  by_cases zero : number = 0
  · rw [zero, keptFrom_zero]
    exact nonempty
  · rcases begins with isZero | ⟨index, found⟩
    · exact absurd isZero zero
    · obtain ⟨segment, present, _⟩ := locate_eq_some_iff.mp found
      rw [keptFrom_of_locate zero found]
      exact (List.getElem?_eq_some_iff.mp present).1

theorem keptFrom_le_length : keptFrom segments number ≤ segments.length := by
  by_cases nonempty : 0 < segments.length
  · exact Nat.le_of_lt (keptFrom_lt_length begins nonempty)
  · have none : segments = [] := List.length_eq_zero_iff.mp (Nat.eq_zero_of_not_pos nonempty)
    rw [none]
    unfold keptFrom
    simp [locate]

end

/-- An append-only log with its two cuts: entries below `deleted` are gone,
entries below `retained` go with the next cut. -/
structure RetainedLog (α : Type u) where
  segments : List (List α)
  deleted : Nat
  retained : Nat
  deleted_le_retained : deleted ≤ retained
  retained_le_total : retained ≤ totalLength segments
  deleted_begins : BeginsSegment segments deleted
  retained_begins : BeginsSegment segments retained

namespace RetainedLog

def empty : RetainedLog α where
  segments := []
  deleted := 0
  retained := 0
  deleted_le_retained := Nat.le_refl 0
  retained_le_total := Nat.zero_le _
  deleted_begins := Or.inl rfl
  retained_begins := Or.inl rfl

instance : Inhabited (RetainedLog α) := ⟨empty⟩

def append (log : RetainedLog α) (more : List (List α)) : RetainedLog α where
  segments := log.segments ++ more
  deleted := log.deleted
  retained := log.retained
  deleted_le_retained := log.deleted_le_retained
  retained_le_total := by
    have bound := log.retained_le_total
    rw [totalLength_append]
    omega
  deleted_begins := log.deleted_begins.append more
  retained_begins := log.retained_begins.append more

/-- Carries out the announced cut and announces the start of the segment at
`place`. -/
def advance (log : RetainedLog α) (cut : Nat) (later : log.retained ≤ cut)
    (begins : ∃ index, locate log.segments cut = some (index, 0)) :
    RetainedLog α where
  segments := log.segments
  deleted := log.retained
  retained := cut
  deleted_le_retained := later
  retained_le_total := by
    obtain ⟨index, found⟩ := begins
    exact Nat.le_of_lt (lt_totalLength_of_locate found)
  deleted_begins := log.retained_begins
  retained_begins := Or.inr begins

/-- How one step of the log's owner may move it, and what the step appends. -/
inductive Moves : RetainedLog α → List (List α) → RetainedLog α → Prop
  | stay (log : RetainedLog α) : Moves log [] log
  | append (log : RetainedLog α) (more : List (List α)) :
    Moves log more (log.append more)
  | advance (log : RetainedLog α) (cut : Nat) (later : log.retained ≤ cut)
    (begins : ∃ index, locate log.segments cut = some (index, 0)) :
    Moves log [] (log.advance cut later begins)

def firstSegment (log : RetainedLog α) : Nat :=
  keptFrom log.segments log.deleted

@[simp]
theorem firstSegment_append (log : RetainedLog α) (more : List (List α)) :
    (log.append more).firstSegment = log.firstSegment :=
  keptFrom_append log.deleted_begins more

theorem firstSegment_le_iff (log : RetainedLog α) {number place}
    (found : locate log.segments number = some place) :
    log.firstSegment ≤ place.1 ↔ log.deleted ≤ number :=
  keptFrom_le_iff log.deleted_begins found

theorem firstSegment_le_keptFrom_retained (log : RetainedLog α) :
    log.firstSegment ≤ keptFrom log.segments log.retained :=
  keptFrom_mono log.deleted_begins log.retained_begins log.deleted_le_retained

end RetainedLog

end GraphZero.Foundation
