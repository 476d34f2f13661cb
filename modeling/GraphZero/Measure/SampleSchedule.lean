import GraphZero.Measure.ReportChecks

/-!
# The samples of a report as a schedule

The coordinator walks once over the samples with one counter for each subject.
What it accepts is a statement about the whole list: the schedule indices
count the list, and the indices of each subject count the samples of that
subject, however the subjects are interleaved.
-/

namespace GraphZero.Measure

open Wire List

def subjectSampleIndices (samples : List MeasurementSample) (subject : Nat) : List Nat :=
  (samples.filter (·.logicalIndex == subject)).map MeasurementSample.subjectSampleIndex

/-- Schedule and subjects are counted from zero without a gap.  The wire holds
a schedule index in 32 bits. -/
structure Scheduled (subjectCount : Nat) (samples : List MeasurementSample) : Prop where
  schedule : samples.map MeasurementSample.scheduleIndex =
    (List.range samples.length).map (· % 2 ^ 32)
  known : ∀ sample ∈ samples, sample.logicalIndex < subjectCount
  counted : ∀ subject < subjectCount,
    subjectSampleIndices samples subject = List.range (subjectSampleIndices samples subject).length

/-- The samples of the subject are numbered from `start` on, in 32 bits. -/
def NumberedFrom (start subject : Nat) (samples : List MeasurementSample) : Prop :=
  ∀ index sample, samples[index]? = some sample → sample.logicalIndex = subject →
      sample.subjectSampleIndex = start + priorSamples samples index subject ∧
        start + priorSamples samples index subject + 1 < 2 ^ 32

section Subject

variable {first : MeasurementSample} {rest samples : List MeasurementSample} {start subject : Nat}

theorem numberedFrom_cons_self (same : first.logicalIndex = subject) :
    NumberedFrom start subject (first :: rest) ↔
      (first.subjectSampleIndex = start ∧ start + 1 < 2 ^ 32) ∧
        NumberedFrom (start + 1) subject rest := by
  have shifted : ∀ prior, start + (prior + 1) = start + 1 + prior := by
    intro prior
    omega
  constructor
  · intro numbered
    refine ⟨numbered 0 first rfl same, ?_⟩
    intro index sample found subjectSame
    have later := numbered (index + 1) sample found subjectSame
    rwa [priorSamples_cons, if_pos same, shifted] at later
  · intro ⟨head, numbered⟩ index sample found subjectSame
    cases index with
    | zero =>
      cases found
      exact head
    | succ index =>
      rw [priorSamples_cons, if_pos same, shifted]
      exact numbered index sample found subjectSame

theorem numberedFrom_cons_of_ne (different : first.logicalIndex ≠ subject) :
    NumberedFrom start subject (first :: rest) ↔ NumberedFrom start subject rest := by
  constructor
  · intro numbered index sample found subjectSame
    have later := numbered (index + 1) sample found subjectSame
    rwa [priorSamples_cons, if_neg different] at later
  · intro numbered index sample found subjectSame
    cases index with
    | zero =>
      cases found
      exact absurd subjectSame different
    | succ index =>
      rw [priorSamples_cons, if_neg different]
      exact numbered index sample found subjectSame

theorem subjectSampleIndices_cons_self (same : first.logicalIndex = subject) :
    subjectSampleIndices (first :: rest) subject =
      first.subjectSampleIndex :: subjectSampleIndices rest subject := by
  unfold subjectSampleIndices
  rw [filter_cons_of_pos (by simpa using same), map_cons]

theorem subjectSampleIndices_cons_of_ne (different : first.logicalIndex ≠ subject) :
    subjectSampleIndices (first :: rest) subject = subjectSampleIndices rest subject := by
  unfold subjectSampleIndices
  rw [filter_cons_of_neg (by simpa using different)]

theorem numberedFrom_iff : NumberedFrom start subject samples ↔
      subjectSampleIndices samples subject =
          List.range' start (subjectSampleIndices samples subject).length ∧
        (subjectSampleIndices samples subject = [] ∨
          start + (subjectSampleIndices samples subject).length < 2 ^ 32) := by
  induction samples generalizing start with
  | nil => exact iff_of_true nofun ⟨rfl, Or.inl rfl⟩
  | cons first rest ih =>
    by_cases same : first.logicalIndex = subject
    · rw [numberedFrom_cons_self same, subjectSampleIndices_cons_self same,
        ih, length_cons, range'_succ,
        List.cons.injEq]
      generalize subjectSampleIndices rest subject = indices
      constructor
      · rintro ⟨⟨head, fits⟩, range, small⟩
        refine ⟨⟨head, range⟩, Or.inr ?_⟩
        rcases small with rfl | small
        · exact fits
        · omega
      · rintro ⟨⟨head, range⟩, small⟩
        have fits := small.resolve_left (cons_ne_nil _ _)
        exact ⟨⟨head, by omega⟩, range, Or.inr (by omega)⟩
    · rw [numberedFrom_cons_of_ne same, subjectSampleIndices_cons_of_ne same]
      exact ih

end Subject

theorem map_scheduleIndex_iff {samples : List MeasurementSample} :
    samples.map MeasurementSample.scheduleIndex = (List.range samples.length).map (· % 2 ^ 32) ↔
      ∀ (index : Nat) sample,
        samples[index]? = some sample → sample.scheduleIndex = index % 2 ^ 32 := by
  constructor
  · intro same index sample found
    have inside := (List.getElem?_eq_some_iff.mp found).1
    have here := congrArg (·[index]?) same
    simp only [getElem?_map, found, getElem?_range inside,
      Option.map_some, Option.some.injEq] at here
    exact here
  · intro each
    apply ext_getElem?
    intro index
    rw [getElem?_map, getElem?_map]
    cases found : samples[index]? with
    | none =>
      have outside := List.getElem?_eq_none_iff.mp found
      rw [getElem?_eq_none (by rwa [length_range])]
      rfl
    | some sample =>
      have inside := (List.getElem?_eq_some_iff.mp found).1
      rw [getElem?_range inside, Option.map_some, Option.map_some, each index sample found]

theorem contiguous_iff {subjectCount samples} :
    Contiguous subjectCount samples ↔ (∀ (index : Nat) sample, samples[index]? = some sample →
        sample.scheduleIndex = index % 2 ^ 32) ∧
      (∀ sample ∈ samples, sample.logicalIndex < subjectCount) ∧
      ∀ subject < subjectCount, NumberedFrom 0 subject samples := by
  constructor
  · intro contiguous
    refine ⟨fun index sample found => (contiguous index sample found).schedule, ?_, ?_⟩
    · intro sample member
      obtain ⟨index, found⟩ := mem_iff_getElem?.mp member
      exact (contiguous index sample found).subject
    · intro subject _ index sample found same
      have placed := contiguous index sample found
      rw [Nat.zero_add, ← same]
      exact ⟨placed.numbered, placed.fits⟩
  · intro ⟨schedule, known, numbered⟩ index sample found
    have inside := known sample (mem_of_getElem? found)
    have place := numbered _ inside index sample found rfl
    rw [Nat.zero_add] at place
    exact ⟨schedule index sample found, inside, place.1, place.2⟩

/-- The coordinator accepts the samples exactly if they are scheduled and no
subject has more of them than its counter holds. -/
theorem validateSamples_iff_scheduled (samples : List MeasurementSample) (subjectCount : Nat) :
    validateSamples samples 0 (List.replicate subjectCount 0) = .ok () ↔
      Scheduled subjectCount samples ∧ ∀ subject < subjectCount,
          (subjectSampleIndices samples subject).length < 2 ^ 32 := by
  rw [validateSamples_iff, contiguous_iff, ← map_scheduleIndex_iff]
  constructor
  · intro ⟨schedule, known, numbered⟩
    refine ⟨⟨schedule, known, ?_⟩, ?_⟩
    · intro subject inside
      rw [range_eq_range']
      exact (numberedFrom_iff.mp (numbered subject inside)).1
    · intro subject inside
      rcases (numberedFrom_iff.mp (numbered subject inside)).2 with
        nothing | small
      · rw [nothing]
        exact Nat.two_pow_pos 32
      · rwa [Nat.zero_add] at small
  · intro ⟨scheduled, small⟩
    refine ⟨scheduled.schedule, scheduled.known, ?_⟩
    intro subject inside
    apply numberedFrom_iff.mpr
    rw [← range_eq_range', Nat.zero_add]
    exact ⟨scheduled.counted subject inside, Or.inr (small subject inside)⟩

def singleSubject (count : Nat) : List MeasurementSample :=
  (List.range count).map fun index => ⟨index, 0, index, 0, 0⟩

theorem map_scheduleIndex_singleSubject (count : Nat) :
    (singleSubject count).map MeasurementSample.scheduleIndex = List.range count := by
  unfold singleSubject
  rw [map_map]
  exact map_id _

theorem subjectSampleIndices_singleSubject (count : Nat) :
    subjectSampleIndices (singleSubject count) 0 = List.range count := by
  unfold subjectSampleIndices singleSubject
  rw [filter_map, map_map]
  have every : List.filter ((fun sample : MeasurementSample => sample.logicalIndex == 0) ∘
        fun index => ⟨index, 0, index, 0, 0⟩) (List.range count) =
      List.range count :=
    filter_eq_self.mpr fun _ _ => rfl
  rw [every]
  exact map_id _

theorem length_singleSubject (count : Nat) : (singleSubject count).length = count := by
  unfold singleSubject
  rw [length_map, length_range]

theorem forall_mem_singleSubject {count} :
    ∀ sample ∈ singleSubject count, sample.scheduleIndex < count ∧
      sample.logicalIndex < 1 ∧ sample.subjectSampleIndex < count := by
  intro sample member
  obtain ⟨index, inside, rfl⟩ := mem_map.mp member
  have below := mem_range.mp inside
  exact ⟨below, Nat.one_pos, below⟩

/-- The list of `2 ^ 32` samples of one subject counts schedule and subject
from zero without a gap, every index fits its field, and it is refused. -/
theorem validateSamples_refuses_full_counter :
    (singleSubject (2 ^ 32)).map MeasurementSample.scheduleIndex =
        List.range (singleSubject (2 ^ 32)).length ∧
      (∀ sample ∈ singleSubject (2 ^ 32), sample.scheduleIndex < 2 ^ 32 ∧
        sample.logicalIndex < 1 ∧ sample.subjectSampleIndex < 2 ^ 32) ∧
      (∀ subject < 1, subjectSampleIndices (singleSubject (2 ^ 32)) subject = List.range
          (subjectSampleIndices (singleSubject (2 ^ 32)) subject).length) ∧
      validateSamples (singleSubject (2 ^ 32)) 0 (List.replicate 1 0) ≠ .ok () := by
  refine ⟨?_, ?_, ?_, ?_⟩
  · rw [map_scheduleIndex_singleSubject, length_singleSubject]
  · exact forall_mem_singleSubject
  · intro subject inside
    rw [Nat.lt_one_iff.mp inside, subjectSampleIndices_singleSubject, length_range]
  · intro accepted
    have small := ((validateSamples_iff_scheduled _ 1).mp accepted).2 0 Nat.one_pos
    rw [subjectSampleIndices_singleSubject, length_range] at small
    exact lt_irrefl _ small

end GraphZero.Measure
