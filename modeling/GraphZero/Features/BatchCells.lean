import GraphZero.Features.BatchLayout
import GraphZero.Features.RowRoundTrip

/-!
# The cells of a row

What a row writes, section by section: each item of the row goes to a cell of
its own, inside the cells that the section has for the row.
-/

namespace GraphZero.Features

open Foundation List

def numbered {β : Type} (items : List β) : List (Nat × β) :=
  items.zipIdx.map fun item => (item.2, item.1)

def FeatureRow.state (row : FeatureRow) : OpponentStateFeatures where
  nodeCount := row.nodeCount
  nodeTokens := row.nodeTokens
  nodeAttrs := row.nodeAttrs
  edges := row.edges
  position := row.position

def PositionFeatures.scalars (position : PositionFeatures) : List F32 :=
  [f32OfU32 position.rootStep, f32OfU32 position.leafDepth,
    position.budgetFraction, position.budgetStep]

def OpponentStateFeatures.cells (state : OpponentStateFeatures) : StateSection → List (List UInt8)
  | .nodeCount => [u32Bytes state.nodeCount]
  | .nodeTokens => state.nodeTokens.map u16Bytes
  | .nodeAttrs => state.nodeAttrs.map bf16Bytes
  | .edgeCount => [lenBytes state.edges.length]
  | .edgeSrc => state.edges.map fun edge => u32Bytes edge.src
  | .edgeDst => state.edges.map fun edge => u32Bytes edge.dst
  | .edgeType => state.edges.map fun edge => u8Bytes edge.edgeType
  | .position => state.position.scalars.map bf16Bytes

/-- The cells of a row; the subjects of an action have `s` of them. -/
def FeatureRow.cells (s : Nat) (row : FeatureRow) : BatchSection → List (Nat × List UInt8)
  | .own part => numbered (row.state.cells part)
  | .opponent part => numbered (row.opponent.elim [] fun opponent => opponent.cells part)
  | .actionCount => numbered [lenBytes row.actions.length]
  | .actionKind =>
    numbered (row.actions.map fun action =>
      u16Bytes action.kindToken.toUInt16)
  | .actionPrior => numbered (row.actions.map fun action => bf16Bytes action.staticPrior)
  | .subjectCount =>
    numbered (row.actions.map fun action =>
      u8Bytes (UInt8.ofNat action.subjects.length))
  | .actionSubjects =>
    rowCells s (fun action : ActionFeature =>
      numbered (action.subjects.map u32Bytes)) row.actions.zipIdx
  | .opponentReward => numbered [bf16Bytes row.position.opponentReward]
  | .opponentPresent => numbered [boolBytes row.position.opponentPresent]
  | .opponentStatePresent => numbered (row.opponent.elim [] fun _ => [u8Bytes 1])

section Writes

variable (layout : BatchLayout) (rowIndex : Nat)

def stateCellWrites (state : OpponentStateFeatures) : List (CellWrite StateSection) :=
  [⟨.nodeCount, rowIndex, u32Bytes state.nodeCount⟩] ++ (state.nodeTokens.zipIdx.map fun item =>
      ⟨.nodeTokens, rowIndex * layout.n + item.2, u16Bytes item.1⟩) ++
    (state.nodeAttrs.zipIdx.map fun item =>
      ⟨.nodeAttrs, rowIndex * layout.n * layout.d + item.2,
        bf16Bytes item.1⟩) ++
    [⟨.edgeCount, rowIndex, lenBytes state.edges.length⟩] ++
    (state.edges.zipIdx.flatMap fun item =>
      [⟨.edgeSrc, rowIndex * layout.e + item.2, u32Bytes item.1.src⟩,
        ⟨.edgeDst, rowIndex * layout.e + item.2, u32Bytes item.1.dst⟩,
        ⟨.edgeType, rowIndex * layout.e + item.2, u8Bytes item.1.edgeType⟩])

def positionCellWrites (position : PositionFeatures) : List (CellWrite StateSection) :=
  [⟨.position, rowIndex * 4, bf16Bytes (f32OfU32 position.rootStep)⟩,
    ⟨.position, rowIndex * 4 + 1, bf16Bytes (f32OfU32 position.leafDepth)⟩,
    ⟨.position, rowIndex * 4 + 2, bf16Bytes position.budgetFraction⟩,
    ⟨.position, rowIndex * 4 + 3, bf16Bytes position.budgetStep⟩]

def actionCellWrites (item : ActionFeature × Nat) : List (CellWrite BatchSection) :=
  [⟨.actionKind, rowIndex * layout.a + item.2, u16Bytes item.1.kindToken.toUInt16⟩,
    ⟨.actionPrior, rowIndex * layout.a + item.2, bf16Bytes item.1.staticPrior⟩,
    ⟨.subjectCount, rowIndex * layout.a + item.2,
      u8Bytes (UInt8.ofNat item.1.subjects.length)⟩] ++
    item.1.subjects.zipIdx.map fun subject =>
      ⟨.actionSubjects, (rowIndex * layout.a + item.2) * layout.s + subject.2, u32Bytes subject.1⟩

/-- The same write, to a section of the batch. -/
def inBatch (place : StateSection → BatchSection)
    (write : CellWrite StateSection) : CellWrite BatchSection :=
  ⟨place write.segment, write.cell, write.bytes⟩

def opponentCellWrites : Option OpponentStateFeatures → List (CellWrite BatchSection)
  | none => []
  | some opponent =>
    [⟨.opponentStatePresent, rowIndex, u8Bytes 1⟩] ++
      (stateCellWrites layout rowIndex opponent).map (inBatch .opponent) ++
      (positionCellWrites rowIndex opponent.position).map (inBatch .opponent)

def cellWrites (row : FeatureRow) : List (CellWrite BatchSection) :=
  (stateCellWrites layout rowIndex row.state).map (inBatch .own) ++
    [⟨.actionCount, rowIndex, lenBytes row.actions.length⟩] ++
    row.actions.zipIdx.flatMap (actionCellWrites layout rowIndex) ++
    (positionCellWrites rowIndex row.position).map (inBatch .own) ++
    [⟨.opponentReward, rowIndex, bf16Bytes row.position.opponentReward⟩,
      ⟨.opponentPresent, rowIndex, boolBytes row.position.opponentPresent⟩] ++
    opponentCellWrites layout rowIndex row.opponent

end Writes

/-! ## The writes are the cells -/

section Flat

variable {layout : BatchLayout} {rowIndex : Nat}

structure Places (layout : BatchLayout) (offsets : StateOffsets)
    (place : StateSection → BatchSection) : Prop where
  offset : ∀ part, layout.offset (place part) = offsets.offset part
  width : ∀ part, (place part).width = part.width

theorem places_own : Places layout layout.own .own :=
  ⟨fun _ => rfl, fun _ => rfl⟩

theorem places_opponent : Places layout layout.opponent .opponent :=
  ⟨fun _ => rfl, fun _ => rfl⟩

variable {offsets : StateOffsets} {place : StateSection → BatchSection}

theorem flat_inBatch (places : Places layout offsets place) (write : CellWrite StateSection) :
    (inBatch place write).flat layout.segment =
      ⟨offsets.offset write.segment + write.cell * write.segment.width, write.bytes⟩ := by
  change (⟨layout.offset (place write.segment) +
    write.cell * (place write.segment).width, write.bytes⟩ : BufferWrite) = _
  rw [places.offset, places.width]

theorem stateWrites_eq (places : Places layout offsets place) (state : OpponentStateFeatures) :
    stateWrites layout rowIndex offsets state.nodeCount state.nodeTokens
        state.nodeAttrs state.edges =
      ((stateCellWrites layout rowIndex state).map (inBatch place)).map
        (·.flat layout.segment) := by
  simp only [stateWrites, stateCellWrites, map_append, map_cons,
    map_nil, map_map, map_flatMap, Function.comp_def,
    flat_inBatch places, StateSection.width, StateOffsets.offset,
    Nat.mul_one, Nat.add_assoc]
  rfl

theorem positionWrites_eq (places : Places layout offsets place) (position : PositionFeatures) :
    positionWrites rowIndex offsets position =
      ((positionCellWrites rowIndex position).map (inBatch place)).map (·.flat layout.segment) := by
  simp only [positionWrites, positionCellWrites, map_cons, map_nil,
    flat_inBatch places, StateSection.width, StateOffsets.offset,
    Nat.add_mul, Nat.mul_assoc, Nat.add_assoc]
  rfl

theorem opponentWrites_eq (opponent : Option OpponentStateFeatures) :
    opponentWrites layout rowIndex opponent = (opponentCellWrites layout rowIndex opponent).map
        (·.flat layout.segment) := by
  cases opponent with
  | none => rfl
  | some opponent =>
    rw [opponentWrites, opponentCellWrites, map_append, map_append, stateWrites_eq places_opponent,
      positionWrites_eq places_opponent]
    have flag : writeU8At (layout.opponentStatePresent + rowIndex) 1 =
        (⟨.opponentStatePresent, rowIndex, u8Bytes 1⟩ :
          CellWrite BatchSection).flat layout.segment := by
      change _ = (⟨layout.opponentStatePresent + rowIndex * 1, _⟩ : BufferWrite)
      rw [Nat.mul_one]
      rfl
    rw [flag]
    rfl

variable {schema : FeatureSchema}

theorem actionWrites_eq {nodeCount isLast action actionIndex}
    (valid : ValidAction schema.config nodeCount action isLast) :
    actionWrites layout rowIndex action actionIndex =
      .ok ((actionCellWrites layout rowIndex (action, actionIndex)).map
        (·.flat layout.segment)) := by
  have narrow := schema.narrow
  have kind := UInt32.lt_iff_toNat_lt.1 valid.kindToken.2
  have subjects := valid.subjectCount
  have fits : action.kindToken.toNat < 2 ^ 16 := by omega
  have few : ¬ 2 ^ 8 ≤ action.subjects.length := by omega
  unfold actionWrites narrowIndex
  rw [if_pos fits]
  change (if 2 ^ 8 ≤ action.subjects.length then _ else _) = _
  rw [if_neg few]
  have count : writeU8At (layout.subjectCount + rowIndex * layout.a + actionIndex)
      (UInt8.ofNat action.subjects.length) =
      (⟨.subjectCount, rowIndex * layout.a + actionIndex,
        u8Bytes (UInt8.ofNat action.subjects.length)⟩ :
        CellWrite BatchSection).flat layout.segment := by
    change _ = (⟨layout.subjectCount + (rowIndex * layout.a + actionIndex) * 1, _⟩ : BufferWrite)
    rw [Nat.mul_one, Nat.add_assoc]
    rfl
  rw [count, actionCellWrites, map_append, map_map]
  rfl

variable (layout rowIndex) in
theorem actionsWrites_eq {nodeCount actions} (first : Nat)
    (valid : ValidActions schema.config nodeCount actions) :
    ∃ writes,
      (actions.zipIdx first).mapM (fun (action, actionIndex) =>
        actionWrites layout rowIndex action actionIndex) = .ok writes ∧
      writes.flatten = ((actions.zipIdx first).flatMap
          (actionCellWrites layout rowIndex)).map (·.flat layout.segment) := by
  induction actions generalizing first with
  | nil => exact ⟨[], rfl, rfl⟩
  | cons action rest ih =>
    obtain ⟨writes, later, same⟩ := ih (first + 1) valid.2
    refine ⟨(actionCellWrites layout rowIndex (action, first)).map
      (·.flat layout.segment) :: writes, ?_, ?_⟩
    · rw [zipIdx_cons, mapM_cons]
      dsimp only
      rw [actionWrites_eq valid.1, later]
      rfl
    · rw [flatten_cons, same, zipIdx_cons, flatMap_cons, map_append]

theorem rowWrites_eq_ok {row} (valid : ValidRow row schema) : rowWrites layout rowIndex row =
      .ok ((cellWrites layout rowIndex row).map (·.flat layout.segment)) := by
  obtain ⟨actions, success, same⟩ := actionsWrites_eq layout rowIndex 0 valid.actions
  have present : writeU8At (layout.opponentPresent + rowIndex)
      (if row.position.opponentPresent then 1 else 0) =
      (⟨.opponentPresent, rowIndex, boolBytes row.position.opponentPresent⟩ :
        CellWrite BatchSection).flat layout.segment := by
    change _ = (⟨layout.opponentPresent + rowIndex * 1, _⟩ : BufferWrite)
    rw [Nat.mul_one]
    rfl
  unfold rowWrites
  rw [success]
  change Except.ok _ = _
  rw [same, present, opponentWrites_eq, positionWrites_eq places_own]
  have own : stateWrites layout rowIndex layout.own row.nodeCount
      row.nodeTokens row.nodeAttrs row.edges = _ :=
    stateWrites_eq places_own row.state
  rw [own]
  simp only [cellWrites, map_append]
  rfl

end Flat

section Sections

variable {layout : BatchLayout} {rowIndex : Nat}

/-- The cells of a row in a section with `stride` cells a row. -/
def shifted {β : Type} (rowIndex stride : Nat) (cells : List (Nat × β)) : List (Nat × β) :=
  cells.map fun entry => (rowIndex * stride + entry.1, entry.2)

theorem writesTo_append {ι : Type} [DecidableEq ι] (target : ι) (writes more : List (CellWrite ι)) :
    writesTo target (writes ++ more) = writesTo target writes ++ writesTo target more :=
  filterMap_append

theorem writesTo_inBatch {place} (target : BatchSection) (writes : List (CellWrite StateSection)) :
    writesTo target (writes.map (inBatch place)) = writes.filterMap fun write =>
        if place write.segment = target then some (write.cell, write.bytes)
        else none :=
  filterMap_map

variable (layout rowIndex) in
theorem writesTo_state (state : OpponentStateFeatures) (part : StateSection) :
    writesTo part (stateCellWrites layout rowIndex state) ++
        writesTo part (positionCellWrites rowIndex state.position) =
      shifted rowIndex (layout.stateStride part) (numbered (state.cells part)) := by
  cases part <;> simp [writesTo, stateCellWrites, positionCellWrites, shifted, numbered,
      OpponentStateFeatures.cells, BatchLayout.stateStride,
      PositionFeatures.scalars, zipIdx_map, filterMap_flatMap,
      ← map_eq_flatMap, Function.comp_def, Nat.mul_assoc]

theorem writesTo_opponent (opponent : Option OpponentStateFeatures) (part : StateSection) :
    writesTo (.opponent part) (opponentCellWrites layout rowIndex opponent) =
      shifted rowIndex (layout.stateStride part)
        (numbered (opponent.elim [] fun opponent => opponent.cells part)) := by
  cases opponent with
  | none => rfl
  | some opponent =>
    rw [opponentCellWrites, writesTo_append, writesTo_append, writesTo_inBatch, writesTo_inBatch]
    simp only [BatchSection.opponent.injEq]
    exact writesTo_state layout rowIndex opponent part

variable {target : BatchSection}

theorem writesTo_opponent_eq_nil (elsewhere : ∀ part, .opponent part ≠ target)
    (unflagged : target ≠ .opponentStatePresent)
    (opponent : Option OpponentStateFeatures) :
    writesTo target (opponentCellWrites layout rowIndex opponent) = [] := by
  cases opponent with
  | none => rfl
  | some opponent =>
    rw [opponentCellWrites, writesTo_append, writesTo_append, writesTo_inBatch, writesTo_inBatch]
    simp [writesTo, elsewhere, unflagged.symm]

theorem writesTo_own_eq_nil (elsewhere : ∀ part, .own part ≠ target)
    (writes : List (CellWrite StateSection)) :
    writesTo target (writes.map (inBatch .own)) = [] := by
  rw [writesTo_inBatch]
  simp [elsewhere]

theorem writesTo_actions (target : BatchSection) (actions : List (ActionFeature × Nat)) :
    writesTo target (actions.flatMap (actionCellWrites layout rowIndex)) =
      actions.flatMap fun item =>
        writesTo target (actionCellWrites layout rowIndex item) :=
  filterMap_flatMap

theorem writesTo_cellWrites_of_plain (own : ∀ part, .own part ≠ target)
    (opponent : ∀ part, .opponent part ≠ target)
    (unflagged : target ≠ .opponentStatePresent) (row : FeatureRow) :
    writesTo target (cellWrites layout rowIndex row) = writesTo target
          [⟨.actionCount, rowIndex, lenBytes row.actions.length⟩] ++
        (row.actions.zipIdx.flatMap fun item =>
          writesTo target (actionCellWrites layout rowIndex item)) ++
        writesTo target [⟨.opponentReward, rowIndex, bf16Bytes row.position.opponentReward⟩,
            ⟨.opponentPresent, rowIndex, boolBytes row.position.opponentPresent⟩] := by
  unfold cellWrites
  simp only [writesTo_append, writesTo_actions, writesTo_own_eq_nil own,
    writesTo_opponent_eq_nil opponent unflagged, nil_append,
    append_nil]

theorem writesTo_cellWrites (row : FeatureRow) (target : BatchSection) :
    writesTo target (cellWrites layout rowIndex row) =
      shifted rowIndex (layout.stride target) (row.cells layout.s target) := by
  cases target with
  | own part =>
    have state := writesTo_state layout rowIndex row.state part
    have others : writesTo (.own part) (opponentCellWrites layout rowIndex row.opponent) = [] :=
      writesTo_opponent_eq_nil (by rintro _ ⟨⟩) (by rintro ⟨⟩) row.opponent
    unfold cellWrites
    simp only [writesTo_append, writesTo_actions, others, writesTo_inBatch, BatchSection.own.injEq]
    rw [BatchLayout.stride, FeatureRow.cells, ← state]
    simp [writesTo, actionCellWrites, FeatureRow.state]
  | opponent part =>
    have own : ∀ writes : List (CellWrite StateSection),
        writesTo (BatchSection.opponent part) (writes.map (inBatch .own)) =
          [] := writesTo_own_eq_nil (by rintro _ ⟨⟩)
    unfold cellWrites
    simp only [writesTo_append, writesTo_actions, own, writesTo_opponent]
    simp [writesTo, actionCellWrites, FeatureRow.cells, BatchLayout.stride]
  | opponentStatePresent =>
    have own : ∀ writes : List (CellWrite StateSection),
        writesTo BatchSection.opponentStatePresent (writes.map (inBatch .own)) = [] :=
      writesTo_own_eq_nil (by rintro _ ⟨⟩)
    unfold cellWrites
    simp only [writesTo_append, writesTo_actions, own]
    cases same : row.opponent with
    | none =>
      simp [writesTo, actionCellWrites, opponentCellWrites, shifted,
        numbered, FeatureRow.cells, same]
    | some opponent =>
      rw [opponentCellWrites, writesTo_append, writesTo_append, writesTo_inBatch, writesTo_inBatch]
      simp [writesTo, actionCellWrites, shifted, numbered,
        FeatureRow.cells, same, BatchLayout.stride]
  | _ =>
    refine (writesTo_cellWrites_of_plain (by rintro _ ⟨⟩) (by rintro _ ⟨⟩) (by rintro ⟨⟩)
      row).trans ?_
    simp [writesTo, actionCellWrites, shifted, numbered, FeatureRow.cells,
      BatchLayout.stride, rowCells, zipIdx_map, map_flatMap,
      ← map_eq_flatMap, Function.comp_def, Nat.add_mul, Nat.mul_assoc,
      Nat.add_assoc]

end Sections

end GraphZero.Features
