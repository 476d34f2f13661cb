import GraphZero.Replay.EpisodeChecks

/-!
# What the checks of an episode establish

The row counts leave no place for a decision row past the last step, so the
checks never index out of bounds, and an accepted list of rows is the decision
rows of the steps followed by at most one terminal row.
-/

namespace GraphZero.Replay.Contents

open GraphZero.Engine List
open GraphZero.Features
open GraphZero.Foundation

/-! ## Checks and what they establish -/

/-- The check does not index out of bounds, and what it lets pass meets
`post`. -/
def Meets {α : Type} (check : Checked α) (post : α → Prop) : Prop :=
  match check with
  | .ok value => post value
  | .error (.refused _) => True
  | .error .indexOutOfBounds => False

section Meets

variable {α β : Type} {post : α → Prop} {final : β → Prop}

theorem Meets.bind {first rest} (before : Meets first post)
    (after : ∀ value, post value → Meets (rest value) final) :
    Meets (first >>= rest) final := by
  cases first with
  | ok value => exact after value before
  | error failure =>
    cases failure with
    | refused failure => trivial
    | indexOutOfBounds => exact before

variable {check : Checked α}

theorem Meets.inBounds (meets : Meets check post) : check ≠ .error .indexOutOfBounds := by
  rintro rfl
  exact meets

theorem Meets.accepted {value} (meets : Meets check post) (accepted : check = .ok value) :
    post value := by
  rw [accepted] at meets
  exact meets

theorem Meets.weaken {other} (meets : Meets check post)
    (weaker : ∀ value, post value → other value) :
    Meets check other := by
  cases check with
  | ok value => exact weaker value meets
  | error failure =>
    cases failure with
    | refused failure => trivial
    | indexOutOfBounds => exact meets

theorem meets_require (condition : Bool) (failure : ReplayError) :
    Meets (require condition failure) fun _ => condition = true := by
  cases condition with
  | false => trivial
  | true => exact rfl

theorem meets_elementAt {items : List α} {index} (inside : index < items.length) :
    Meets (elementAt items index) fun item => items[index]? = some item := by
  unfold elementAt
  rw [getElem?_eq_getElem inside]
  exact rfl

end Meets

theorem meets_validateValueTarget (value : Option F32) (dataMode : ReplayDataMode) :
    Meets (validateValueTarget value dataMode) fun _ => True := by
  unfold validateValueTarget require
  split
  · split <;> trivial
  · split <;> trivial
  · trivial

theorem meets_validateTargets (row : ReplayRow) (dataMode : ReplayDataMode) : Meets (do
      validateValueTarget row.valueTarget dataMode
      validateHorizonValueTargets row.horizonValueTargets dataMode)
      fun _ => True := by
  apply (meets_validateValueTarget _ _).bind
  intro _ _
  unfold validateHorizonValueTargets require
  split
  · split <;> trivial
  · trivial
  · trivial

theorem meets_validateAdmission (record : ReplayEpisodeRecord) :
    Meets (validateAdmission record) fun _ => True := by
  unfold validateAdmission require
  split
  · trivial
  · split <;> trivial

theorem meets_validateOutcome (record : ReplayEpisodeRecord) (dataMode : ReplayDataMode) :
    Meets (validateOutcome record dataMode) fun _ => True := by
  apply (meets_require _ _).bind
  intro _ _
  apply (meets_require _ _).bind
  intro _ _
  apply (meets_validateValueTarget _ _).bind
  intro _ _
  apply (meets_require _ _).bind
  intro _ _
  exact (meets_require _ _).weaken fun _ _ => trivial

section Rows

variable {scope : EpisodeScope} {record : ReplayEpisodeRecord}
  {row : ReplayRow} {rows : List ReplayRow} {history : List PortableSearchActionRef}
  {dataMode : ReplayDataMode} {index : Nat}

theorem meets_validateTerminalRow : Meets (validateTerminalRow record row history dataMode)
      fun _ => True := by
  apply (meets_require _ _).bind
  intro _ _
  exact meets_validateTargets row dataMode

theorem meets_validateRowFrame : Meets (validateRowFrame scope index row)
      fun _ => row.stepIndex.toNat = index := by
  apply (meets_require _ _).bind
  intro _ fits
  apply (meets_require _ _).bind
  intro _ same
  have small : index < UInt32.size := of_decide_eq_true fits
  have position : row.stepIndex.toNat = index := by
    rw [eq_of_beq same, UInt32.toNat_ofNat_of_lt' small]
  apply (meets_require _ _).bind
  intro _ _
  exact (meets_require _ _).weaken fun _ _ => position

/-! ## The rows of a valid episode -/

/-- The row is the decision of the step at `index`, after the actions of the
steps before it. -/
structure IsDecisionOf (record : ReplayEpisodeRecord) (index : Nat) (row : ReplayRow) : Prop where
  kind : row.kind = .decision
  position : row.stepIndex.toNat = index
  step : ∃ step, record.steps[index]? = some step ∧
    row.state = step.before ∧ row.selectedAction = some step.action
  history : row.actionHistory = (record.steps.take index).map SearchStepRef.action

/-- The rows are the decisions of the steps from `index` on, and at most a
terminal row behind them. -/
def Follows (record : ReplayEpisodeRecord) (index : Nat) (rows : List ReplayRow) : Prop :=
  ∃ decisions terminal, rows = decisions ++ terminal ∧
    index + decisions.length = record.steps.length ∧
    (∀ position row, decisions[position]? = some row → IsDecisionOf record (index + position) row) ∧
    terminal.length ≤ 1 ∧ ∀ row ∈ terminal, row.kind = .terminal

theorem Follows.ended (ended : index = record.steps.length)
    (single : rows.length ≤ 1) (kinds : ∀ row ∈ rows, row.kind = .terminal) :
    Follows record index rows := by
  refine ⟨[], rows, rfl, ended, ?_, single, kinds⟩
  intro position row found
  simp at found

theorem Follows.cons (here : IsDecisionOf record index row)
    (rest : Follows record (index + 1) rows) :
    Follows record index (row :: rows) := by
  obtain ⟨decisions, terminal, split, counted, each, single, kinds⟩ := rest
  refine ⟨row :: decisions, terminal, by rw [split, cons_append], ?_, ?_,
    single, kinds⟩
  · rw [length_cons]
    omega
  intro position other found
  cases position with
  | zero =>
    cases found
    exact here
  | succ position =>
    have later := each position other found
    rwa [Nat.add_assoc, Nat.add_comm 1] at later

theorem meets_validateDecisionRow (kind : row.kind = .decision)
    (position : row.stepIndex.toNat = index)
    (inside : index < record.steps.length) :
    Meets (validateDecisionRow record row
      ((record.steps.take index).map SearchStepRef.action) dataMode)
      fun _ => IsDecisionOf record index row := by
  unfold validateDecisionRow
  rw [position]
  apply (meets_elementAt inside).bind
  intro step present
  apply (meets_require _ _).bind
  intro _ same
  simp only [Bool.and_eq_true, beq_iff_eq] at same
  obtain ⟨⟨⟨⟨_, state⟩, selected⟩, histories⟩, _⟩ := same
  have decision : IsDecisionOf record index row :=
    { kind, position
      step := ⟨step, present, state, selected⟩
      history := histories }
  apply (meets_require _ _).bind
  intro _ _
  apply (meets_require _ _).bind
  intro _ _
  apply (meets_require _ _).bind
  intro _ _
  exact (meets_validateTargets row dataMode).weaken fun _ _ => decision

theorem take_succ_actions {step} (found : record.steps[index]? = some step) :
    (record.steps.take index).map SearchStepRef.action ++ [step.action] =
      (record.steps.take (index + 1)).map SearchStepRef.action := by
  rw [take_add_one, found, map_append]
  rfl

theorem terminalRowCount_cons (row : ReplayRow) (rows : List ReplayRow) :
    terminalRowCount (row :: rows) =
      (if row.kind = .terminal then 1 else 0) + terminalRowCount rows := by
  unfold terminalRowCount
  cases kind : row.kind <;> simp [kind, Nat.add_comm]

theorem terminalRowCount_le (rows : List ReplayRow) : terminalRowCount rows ≤ rows.length :=
  length_filter_le _ _

theorem meets_validateRows (room : index + rows.length =
      scope.record.steps.length + terminalRowCount rows)
    (single : terminalRowCount rows ≤ 1) :
    Meets (validateRows scope index ((scope.record.steps.take index).map SearchStepRef.action) rows)
      fun _ => Follows scope.record index rows := by
  induction rows generalizing index with
  | nil => exact .ended room (Nat.zero_le 1) (forall_mem_nil _)
  | cons row rest ih =>
    have most := terminalRowCount_le rest
    rw [terminalRowCount_cons] at room single
    rw [length_cons] at room
    apply meets_validateRowFrame.bind
    intro _ position
    cases kind : row.kind with
    | decision =>
      rw [kind, if_neg (by decide)] at room single
      -- A decision row leaves at least as many rows as steps behind it.
      have inside : index < scope.record.steps.length := by omega
      apply (meets_validateDecisionRow kind position inside).bind
      intro _ decision
      apply (meets_elementAt inside).bind
      intro step present
      rw [take_succ_actions present]
      exact (ih (by omega) (by omega)).weaken
        fun _ follows => .cons decision follows
    | terminal =>
      apply (meets_require _ _).bind
      intro _ placed
      rw [Bool.and_eq_true, beq_iff_eq] at placed
      have last : rest = [] := eq_nil_of_length_eq_zero (by omega)
      rw [last]
      apply meets_validateTerminalRow.bind
      intro _ _
      exact .ended placed.1 le_rfl (forall_mem_singleton.mpr kind)

theorem meets_validateEpisode (record : ReplayEpisodeRecord)
    (rows : List ReplayRow) (featureSchemaHash : Option FeatureSchemaHash)
    (dataMode : ReplayDataMode) :
    Meets (validateEpisode record rows featureSchemaHash dataMode)
      fun _ => Follows record 0 rows := by
  apply (meets_require _ _).bind
  intro _ _
  apply (meets_validateAdmission record).bind
  intro _ _
  apply (meets_validateOutcome record dataMode).bind
  intro _ _
  apply (meets_require _ _).bind
  intro _ _
  apply (meets_require _ _).bind
  intro _ counts
  simp only [Bool.and_eq_true, beq_iff_eq, Bool.not_eq_true',
    decide_eq_false_iff_not, Nat.not_lt] at counts
  apply (meets_require _ _).bind
  intro _ _
  exact meets_validateRows (by rw [Nat.zero_add]; exact counts.1) counts.2

end Rows

/-- The checks end with a verdict on every record and list of rows.  In an
accepted episode the rows are the decisions of the steps in order, each after
the actions before it, and at most one terminal row behind them. -/
theorem validateEpisode_verdict (record : ReplayEpisodeRecord)
    (rows : List ReplayRow) (featureSchemaHash : Option FeatureSchemaHash)
    (dataMode : ReplayDataMode) :
    validateEpisode record rows featureSchemaHash dataMode ≠ .error .indexOutOfBounds ∧
      (validateEpisode record rows featureSchemaHash dataMode = .ok () →
        (∀ index < record.steps.length, ∃ row,
          rows[index]? = some row ∧ IsDecisionOf record index row) ∧
        (rows.drop record.steps.length).length ≤ 1 ∧
        ∀ row ∈ rows.drop record.steps.length, row.kind = .terminal) := by
  have meets := meets_validateEpisode record rows featureSchemaHash dataMode
  refine ⟨meets.inBounds, ?_⟩
  intro accepted
  obtain ⟨decisions, terminal, split, counted, each, single, kinds⟩ := meets.accepted accepted
  rw [Nat.zero_add] at counted
  have behind : rows.drop record.steps.length = terminal := by
    rw [split, drop_left' counted]
  rw [behind]
  refine ⟨?_, single, kinds⟩
  intro index inside
  rw [← counted] at inside
  have found := getElem?_eq_getElem inside
  have decision := each index _ found
  rw [Nat.zero_add] at decision
  refine ⟨_, ?_, decision⟩
  rw [split, getElem?_append_left inside, found]

theorem validateEpisode_verdict_sample :
    validateEpisode Sample.record [Sample.row] none .standard = .ok () ∧
      ∃ row, [Sample.row][0]? = some row ∧ IsDecisionOf Sample.record 0 row := by
  have accepted : validateEpisode Sample.record [Sample.row] none .standard = .ok () := by
    decide +kernel
  have verdict := (validateEpisode_verdict Sample.record [Sample.row] none .standard).2 accepted
  exact ⟨accepted, verdict.1 0 (by decide)⟩

end GraphZero.Replay.Contents
