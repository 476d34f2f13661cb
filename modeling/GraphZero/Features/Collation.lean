import GraphZero.Features.BatchReading

/-!
# Collation is faithful

A collated batch, when it is parsed again, shows each row in its place and
padding everywhere else.  The capacity is cut off to 32 bits in the header, so
this holds as long as the capacity fits.
-/

namespace GraphZero.Features

open Foundation List

/-- The scalars as the wire carries them. -/
def PositionFeatures.values (position : PositionFeatures) : PositionValues :=
  ((f32OfU32 position.rootStep).rounded, (f32OfU32 position.leafDepth).rounded,
    position.budgetFraction.rounded, position.budgetStep.rounded)

def FeatureBatchView.showing (schema : FeatureSchema) (capacity : Nat)
    (rows : List FeatureRow) : FeatureBatchView :=
  let n := schema.config.maxNodes.toNat
  let e := schema.config.maxEdges.toNat
  let a := schema.config.maxActions.toNat
  let s := schema.config.maxSubjects.toNat
  let d := schema.config.nodeAttrDim.toNat
  { schemaHash := schema.hash
    batchCapacity := UInt32.ofNat capacity
    rowCount := UInt32.ofNat rows.length
    maxNodes := schema.config.maxNodes
    maxEdges := schema.config.maxEdges
    maxActions := schema.config.maxActions
    maxSubjects := schema.config.maxSubjects
    nodeAttrDim := schema.config.nodeAttrDim.toUInt32
    nodeCount := perRow rows capacity 0 fun row => row.nodeCount
    nodeTokens := spread rows capacity n 0 fun row node =>
      row.nodeTokens[node]?
    nodeAttrs := spread rows capacity (n * d) .zero fun row attr =>
      row.nodeAttrs[attr]?.map F32.rounded
    edgeCount := perRow rows capacity 0 fun row =>
      UInt32.ofNat row.edges.length
    edgeSrc := spread rows capacity e 0 fun row edge =>
      row.edges[edge]?.map FeatureEdge.src
    edgeDst := spread rows capacity e 0 fun row edge =>
      row.edges[edge]?.map FeatureEdge.dst
    edgeType := spread rows capacity e 0 fun row edge =>
      row.edges[edge]?.map FeatureEdge.edgeType
    actionCount := perRow rows capacity 0 fun row =>
      UInt32.ofNat row.actions.length
    actionKind := spread rows capacity a 0 fun row action =>
      row.actions[action]?.map ActionFeature.kindToken
    actionPrior := spread rows capacity a .zero fun row action =>
      row.actions[action]?.map fun action => action.staticPrior.rounded
    subjectCount := spread rows capacity a 0 fun row action =>
      row.actions[action]?.map fun action =>
        UInt8.ofNat action.subjects.length
    actionSubjects :=
      spread rows capacity (a * s) 0xffffffff fun row subject =>
        row.actions[subject / s]?.bind fun action =>
          action.subjects[subject % s]?
    position := perRow rows capacity blankValues fun row =>
      row.position.values
    opponentReward := perRow rows capacity .zero fun row =>
      row.position.opponentReward.rounded
    opponentPresent := perRow rows capacity 0 fun row =>
      if row.position.opponentPresent then 1 else 0
    opponentStatePresent := perRow rows capacity 0 fun row =>
      if row.opponent.isSome then 1 else 0
    opponentNodeCount := perRow rows capacity 0 fun row =>
      row.opponent.elim 0 fun opponent => opponent.nodeCount
    opponentNodeTokens := spread rows capacity n 0 fun row node =>
      row.opponent.bind fun opponent => opponent.nodeTokens[node]?
    opponentNodeAttrs := spread rows capacity (n * d) .zero fun row attr =>
      row.opponent.bind fun opponent =>
        opponent.nodeAttrs[attr]?.map F32.rounded
    opponentEdgeCount := perRow rows capacity 0 fun row =>
      row.opponent.elim 0 fun opponent => UInt32.ofNat opponent.edges.length
    opponentEdgeSrc := spread rows capacity e 0 fun row edge =>
      row.opponent.bind fun opponent =>
        opponent.edges[edge]?.map FeatureEdge.src
    opponentEdgeDst := spread rows capacity e 0 fun row edge =>
      row.opponent.bind fun opponent =>
        opponent.edges[edge]?.map FeatureEdge.dst
    opponentEdgeType := spread rows capacity e 0 fun row edge =>
      row.opponent.bind fun opponent =>
        opponent.edges[edge]?.map FeatureEdge.edgeType
    opponentPosition := perRow rows capacity blankValues fun row =>
      row.opponent.elim blankValues fun opponent => opponent.position.values }

section Parsing

variable {schema : FeatureSchema} {capacity : Nat} {rows : List FeatureRow} {bytes : List UInt8}

theorem layout_collatedHeader (fits : capacity < 2 ^ 32) :
    (collatedHeader schema capacity rows.length).layout = BatchLayout.new schema capacity := by
  unfold BatchHeader.layout BatchLayout.new collatedHeader
  rw [UInt32.toNat_ofNat_of_lt' fits, UInt16.toNat_toUInt32]

theorem map_own_cells {α : Type} {decode : List UInt8 → α} {s} (row : FeatureRow)
    (part : StateSection) (column : Nat) :
    (lastWritten (row.cells s (.own part)) column).map decode =
      ((row.state.cells part).map decode)[column]? := by
  rw [FeatureRow.cells, lastWritten_numbered, getElem?_map]

theorem map_opponent_cells {α : Type} {decode : List UInt8 → α} {s} (row : FeatureRow)
    (part : StateSection) (column : Nat) :
    (lastWritten (row.cells s (.opponent part)) column).map decode =
      row.opponent.bind fun opponent =>
        ((opponent.cells part).map decode)[column]? := by
  rw [FeatureRow.cells, lastWritten_numbered]
  cases row.opponent with
  | none => rfl
  | some opponent => exact (getElem?_map ..).symm

/-! ## Each section -/

section State

variable (state : OpponentStateFeatures)

theorem map_nodeTokens_cells : (state.cells .nodeTokens).map u16Of = state.nodeTokens := by
  simp [OpponentStateFeatures.cells, Function.comp_def]

theorem map_nodeAttrs_cells : (state.cells .nodeAttrs).map bf16Of =
      state.nodeAttrs.map F32.rounded := by
  simp [OpponentStateFeatures.cells, Function.comp_def]

theorem map_edgeSrc_cells : (state.cells .edgeSrc).map u32Of = state.edges.map FeatureEdge.src := by
  simp [OpponentStateFeatures.cells, Function.comp_def]

theorem map_edgeDst_cells : (state.cells .edgeDst).map u32Of = state.edges.map FeatureEdge.dst := by
  simp [OpponentStateFeatures.cells, Function.comp_def]

theorem map_edgeType_cells : (state.cells .edgeType).map u8Of =
      state.edges.map FeatureEdge.edgeType := by
  simp [OpponentStateFeatures.cells, Function.comp_def]

end State

section Sections

variable {layout : BatchLayout} (shows : Shows layout rows bytes)

include shows

theorem readU16Vec_nodeTokens : readU16Vec bytes layout.nodeTokens (layout.b * layout.n) =
      .ok (spread rows layout.b layout.n 0 fun row column =>
        row.nodeTokens[column]?) := by
  refine (readU16Vec_of_shows shows (.own .nodeTokens) rfl).trans
    (congrArg Except.ok (map_cellAt_eq rfl fun row _ column _ => ?_))
  rw [map_own_cells, map_nodeTokens_cells]
  rfl

theorem readBf16Vec_nodeAttrs :
    readBf16Vec bytes layout.nodeAttrs (layout.b * layout.n * layout.d) =
      .ok (spread rows layout.b (layout.n * layout.d) .zero fun row column =>
        row.nodeAttrs[column]?.map F32.rounded) := by
  rw [Nat.mul_assoc]
  refine (readBf16Vec_of_shows shows (.own .nodeAttrs) rfl).trans
    (congrArg Except.ok (map_cellAt_eq bf16Of_blank fun row _ column _ => ?_))
  rw [map_own_cells, map_nodeAttrs_cells, getElem?_map]
  rfl

theorem readU32Vec_edgeSrc : readU32Vec bytes layout.edgeSrc (layout.b * layout.e) =
      .ok (spread rows layout.b layout.e 0 fun row column =>
        row.edges[column]?.map FeatureEdge.src) := by
  refine (readU32Vec_of_shows shows (.own .edgeSrc) rfl).trans
    (congrArg Except.ok (map_cellAt_eq rfl fun row _ column _ => ?_))
  rw [map_own_cells, map_edgeSrc_cells, getElem?_map]
  rfl

theorem readU32Vec_edgeDst : readU32Vec bytes layout.edgeDst (layout.b * layout.e) =
      .ok (spread rows layout.b layout.e 0 fun row column =>
        row.edges[column]?.map FeatureEdge.dst) := by
  refine (readU32Vec_of_shows shows (.own .edgeDst) rfl).trans
    (congrArg Except.ok (map_cellAt_eq rfl fun row _ column _ => ?_))
  rw [map_own_cells, map_edgeDst_cells, getElem?_map]
  rfl

theorem readBytes_edgeType : readBytes bytes layout.edgeType (layout.b * layout.e) =
      .ok (spread rows layout.b layout.e 0 fun row column =>
        row.edges[column]?.map FeatureEdge.edgeType) := by
  refine (readBytes_of_shows shows (.own .edgeType) rfl).trans
    (congrArg Except.ok (map_cellAt_eq rfl fun row _ column _ => ?_))
  rw [map_own_cells, map_edgeType_cells, getElem?_map]
  rfl

theorem readU16Vec_opponentNodeTokens :
    readU16Vec bytes layout.opponentNodeTokens (layout.b * layout.n) =
      .ok (spread rows layout.b layout.n 0 fun row column =>
        row.opponent.bind fun opponent =>
          opponent.nodeTokens[column]?) := by
  refine (readU16Vec_of_shows shows (.opponent .nodeTokens) rfl).trans
    (congrArg Except.ok (map_cellAt_eq rfl fun row _ column _ => ?_))
  simp only [map_opponent_cells, map_nodeTokens_cells]

theorem readBf16Vec_opponentNodeAttrs :
    readBf16Vec bytes layout.opponentNodeAttrs (layout.b * layout.n * layout.d) =
      .ok (spread rows layout.b (layout.n * layout.d) .zero fun row column =>
        row.opponent.bind fun opponent =>
          opponent.nodeAttrs[column]?.map F32.rounded) := by
  rw [Nat.mul_assoc]
  refine (readBf16Vec_of_shows shows (.opponent .nodeAttrs) rfl).trans
    (congrArg Except.ok (map_cellAt_eq bf16Of_blank fun row _ column _ => ?_))
  simp only [map_opponent_cells, map_nodeAttrs_cells, getElem?_map]

theorem readU32Vec_opponentEdgeSrc : readU32Vec bytes layout.opponentEdgeSrc (layout.b * layout.e) =
      .ok (spread rows layout.b layout.e 0 fun row column =>
        row.opponent.bind fun opponent =>
          opponent.edges[column]?.map FeatureEdge.src) := by
  refine (readU32Vec_of_shows shows (.opponent .edgeSrc) rfl).trans
    (congrArg Except.ok (map_cellAt_eq rfl fun row _ column _ => ?_))
  simp only [map_opponent_cells, map_edgeSrc_cells, getElem?_map]

theorem readU32Vec_opponentEdgeDst : readU32Vec bytes layout.opponentEdgeDst (layout.b * layout.e) =
      .ok (spread rows layout.b layout.e 0 fun row column =>
        row.opponent.bind fun opponent =>
          opponent.edges[column]?.map FeatureEdge.dst) := by
  refine (readU32Vec_of_shows shows (.opponent .edgeDst) rfl).trans
    (congrArg Except.ok (map_cellAt_eq rfl fun row _ column _ => ?_))
  simp only [map_opponent_cells, map_edgeDst_cells, getElem?_map]

theorem readBytes_opponentEdgeType : readBytes bytes layout.opponentEdgeType (layout.b * layout.e) =
      .ok (spread rows layout.b layout.e 0 fun row column =>
        row.opponent.bind fun opponent =>
          opponent.edges[column]?.map FeatureEdge.edgeType) := by
  refine (readBytes_of_shows shows (.opponent .edgeType) rfl).trans
    (congrArg Except.ok (map_cellAt_eq rfl fun row _ column _ => ?_))
  simp only [map_opponent_cells, map_edgeType_cells, getElem?_map]

theorem readU32Vec_nodeCount : readU32Vec bytes layout.nodeCount layout.b =
      .ok (perRow rows layout.b 0 fun row =>
        row.nodeCount) := by
  refine (readU32Vec_single shows (.own .nodeCount) rfl rfl).trans
    (congrArg Except.ok (map_cellAt_eq_perRow rfl rfl fun row _ => ?_))
  exact u32Of_u32Bytes _

theorem readU32Vec_edgeCount : readU32Vec bytes layout.edgeCount layout.b =
      .ok (perRow rows layout.b 0 fun row =>
        UInt32.ofNat row.edges.length) := by
  refine (readU32Vec_single shows (.own .edgeCount) rfl rfl).trans
    (congrArg Except.ok (map_cellAt_eq_perRow rfl rfl fun row _ => ?_))
  exact u32Of_lenBytes _

theorem readPositionVec_position : readPositionVec bytes layout.position layout.b =
      .ok (perRow rows layout.b blankValues fun row =>
        row.position.values) := by
  refine readPositionVec_of_shows shows (.own .position) rfl rfl rfl fun row _ => ?_
  unfold scalarOf
  simp only [FeatureRow.cells, lastWritten_numbered]
  simp [OpponentStateFeatures.cells, FeatureRow.state,
    PositionFeatures.scalars, PositionFeatures.values]

theorem readU32Vec_opponentNodeCount : readU32Vec bytes layout.opponentNodeCount layout.b =
      .ok (perRow rows layout.b 0 fun row =>
        row.opponent.elim 0 fun opponent =>
          opponent.nodeCount) := by
  refine (readU32Vec_single shows (.opponent .nodeCount) rfl rfl).trans
    (congrArg Except.ok (map_cellAt_eq_perRow rfl rfl fun row _ => ?_))
  rw [FeatureRow.cells, lastWritten_numbered]
  cases row.opponent with
  | none => rfl
  | some opponent => exact u32Of_u32Bytes _

theorem readU32Vec_opponentEdgeCount : readU32Vec bytes layout.opponentEdgeCount layout.b =
      .ok (perRow rows layout.b 0 fun row =>
        row.opponent.elim 0 fun opponent =>
          UInt32.ofNat opponent.edges.length) := by
  refine (readU32Vec_single shows (.opponent .edgeCount) rfl rfl).trans
    (congrArg Except.ok (map_cellAt_eq_perRow rfl rfl fun row _ => ?_))
  rw [FeatureRow.cells, lastWritten_numbered]
  cases row.opponent with
  | none => rfl
  | some opponent => exact u32Of_lenBytes _

theorem readPositionVec_opponentPosition : readPositionVec bytes layout.opponentPosition layout.b =
      .ok (perRow rows layout.b blankValues fun row =>
        row.opponent.elim blankValues fun opponent =>
          opponent.position.values) := by
  refine readPositionVec_of_shows shows (.opponent .position) rfl rfl rfl fun row _ => ?_
  unfold scalarOf
  simp only [FeatureRow.cells, lastWritten_numbered]
  cases row.opponent with
  | none => exact congrArg₂ Prod.mk bf16Of_blank (congrArg₂ Prod.mk
      bf16Of_blank (congrArg₂ Prod.mk bf16Of_blank bf16Of_blank))
  | some opponent =>
    simp [OpponentStateFeatures.cells, PositionFeatures.scalars, PositionFeatures.values]

theorem readU32Vec_actionCount : readU32Vec bytes layout.actionCount layout.b =
      .ok (perRow rows layout.b 0 fun row =>
        UInt32.ofNat row.actions.length) := by
  refine (readU32Vec_single shows .actionCount rfl rfl).trans
    (congrArg Except.ok (map_cellAt_eq_perRow rfl rfl fun row _ => ?_))
  exact u32Of_lenBytes _

theorem readU16WidenedVec_actionKind (valid : ∀ row ∈ rows, ValidRow row schema) :
    readU16WidenedVec bytes layout.actionKind (layout.b * layout.a) =
      .ok (spread rows layout.b layout.a 0 fun row column =>
        row.actions[column]?.map ActionFeature.kindToken) := by
  refine (readU16WidenedVec_of_shows shows .actionKind rfl).trans
    (congrArg Except.ok (map_cellAt_eq rfl fun row member column _ => ?_))
  rw [FeatureRow.cells, lastWritten_numbered, getElem?_map, Option.map_map]
  refine Option.map_congr fun action found => ?_
  have narrow := schema.narrow.1
  obtain ⟨isLast, validAction⟩ := (valid row member).actions.of_mem (mem_of_getElem? found)
  have below := UInt32.lt_iff_toNat_lt.1 validAction.kindToken.2
  rw [Function.comp_apply, widenedOf, u16Of_u16Bytes, ← UInt32.toNat_inj,
    UInt16.toNat_toUInt32, UInt32.toNat_toUInt16]
  omega

theorem readBf16Vec_actionPrior : readBf16Vec bytes layout.actionPrior (layout.b * layout.a) =
      .ok (spread rows layout.b layout.a .zero fun row column =>
        row.actions[column]?.map fun action =>
          action.staticPrior.rounded) := by
  refine (readBf16Vec_of_shows shows .actionPrior rfl).trans
    (congrArg Except.ok (map_cellAt_eq bf16Of_blank fun row _ column _ => ?_))
  rw [FeatureRow.cells, lastWritten_numbered, getElem?_map, Option.map_map]
  exact Option.map_congr fun action _ => bf16Of_bf16Bytes _

theorem readBytes_subjectCount : readBytes bytes layout.subjectCount (layout.b * layout.a) =
      .ok (spread rows layout.b layout.a 0 fun row column =>
        row.actions[column]?.map fun action =>
          UInt8.ofNat action.subjects.length) := by
  refine (readBytes_of_shows shows .subjectCount rfl).trans
    (congrArg Except.ok (map_cellAt_eq rfl fun row _ column _ => ?_))
  rw [FeatureRow.cells, lastWritten_numbered, getElem?_map, Option.map_map]
  rfl

theorem readU32Vec_actionSubjects (few : ∀ row ∈ rows, ∀ action ∈ row.actions,
      action.subjects.length ≤ layout.s) :
    readU32Vec bytes layout.actionSubjects (layout.b * layout.a * layout.s) =
      .ok (spread rows layout.b (layout.a * layout.s) 0xffffffff fun row column =>
          row.actions[column / layout.s]?.bind fun action =>
            action.subjects[column % layout.s]?) := by
  rw [Nat.mul_assoc]
  refine (readU32Vec_of_shows shows .actionSubjects rfl).trans
    (congrArg Except.ok (map_cellAt_eq rfl fun row member column narrow =>
      ?_))
  have pos : 0 < layout.s := by
    refine Nat.pos_of_ne_zero fun none => ?_
    change column < layout.a * layout.s at narrow
    rw [none, Nat.mul_zero] at narrow
    exact Nat.not_lt_zero _ narrow
  have inside : ∀ action ∈ row.actions, ∀ entry ∈ numbered (action.subjects.map u32Bytes),
        entry.1 < layout.s := by
    intro action here entry own
    have place := (mem_numbered own).1
    rw [length_map] at place
    exact Nat.lt_of_lt_of_le place (few row member action here)
  have cells := lastWritten_rowCells inside 0 (column / layout.s) (Nat.mod_lt column pos)
  rw [Nat.zero_add, Nat.div_add_mod'] at cells
  rw [FeatureRow.cells, cells]
  cases row.actions[column / layout.s]? with
  | none => rfl
  | some action =>
    rw [Option.bind_some, Option.bind_some, lastWritten_numbered, getElem?_map, Option.map_map]
    exact (Option.map_congr fun subject _ => u32Of_u32Bytes subject).trans Option.map_id'

theorem readBf16Vec_opponentReward : readBf16Vec bytes layout.opponentReward layout.b =
      .ok (perRow rows layout.b .zero fun row =>
        row.position.opponentReward.rounded) := by
  refine (readBf16Vec_single shows .opponentReward rfl rfl).trans (congrArg Except.ok
      (map_cellAt_eq_perRow rfl bf16Of_blank fun row _ => ?_))
  exact bf16Of_bf16Bytes _

theorem readBytes_opponentPresent : readBytes bytes layout.opponentPresent layout.b =
      .ok (perRow rows layout.b 0 fun row =>
        if row.position.opponentPresent then 1 else 0) := by
  refine (readBytes_single shows .opponentPresent rfl rfl).trans
    (congrArg Except.ok (map_cellAt_eq_perRow rfl rfl fun row _ => ?_))
  exact u8Of_boolBytes _

theorem readBytes_opponentStatePresent : readBytes bytes layout.opponentStatePresent layout.b =
      .ok (perRow rows layout.b 0 fun row =>
        if row.opponent.isSome then 1 else 0) := by
  refine (readBytes_single shows .opponentStatePresent rfl rfl).trans
    (congrArg Except.ok (map_cellAt_eq_perRow rfl rfl fun row _ => ?_))
  rw [FeatureRow.cells, lastWritten_numbered]
  cases row.opponent <;> rfl

end Sections

theorem parse_eq_ok (valid : ∀ row ∈ rows, ValidRow row schema)
    (shows : Shows (BatchLayout.new schema capacity) rows bytes)
    (headed : Headed (collatedHeader schema capacity rows.length) bytes)
    (length : bytes.length = (BatchLayout.new schema capacity).totalLen)
    (inhabited : rows ≠ []) (limit : rows.length ≤ capacity)
    (fits : capacity < 2 ^ 32) :
    FeatureBatchView.parse bytes = .ok (FeatureBatchView.showing schema capacity rows) := by
  have long : batchHeaderLen ≤ bytes.length := by
    rw [length]
    exact BatchLayout.le_totalLen ..
  have header : BatchHeader.parse bytes = .ok (collatedHeader schema capacity rows.length) := by
    have pos := length_pos_iff.2 inhabited
    have capacityFits : (UInt32.ofNat capacity).toNat = capacity := UInt32.toNat_ofNat_of_lt' fits
    have rowsFit : (UInt32.ofNat rows.length).toNat = rows.length :=
      UInt32.toNat_ofNat_of_lt' (Nat.lt_of_le_of_lt limit fits)
    rw [parse_of_headed headed long, if_neg, if_neg]
    · change ¬ UInt32.ofNat capacity < UInt32.ofNat rows.length
      rw [UInt32.lt_iff_toNat_lt, capacityFits, rowsFit]
      omega
    · change ¬ UInt32.ofNat capacity = 0
      rw [← UInt32.toNat_inj, capacityFits]
      change ¬ capacity = 0
      omega
  have few : ∀ row ∈ rows, ∀ action ∈ row.actions,
      action.subjects.length ≤ (BatchLayout.new schema capacity).s := by
    intro row member action inside
    obtain ⟨isLast, validAction⟩ := (valid row member).actions.of_mem inside
    exact validAction.subjectCount
  unfold FeatureBatchView.parse
  simp only [header, checked, Except.mapError, ok_bind,
    layout_collatedHeader fits, length, ne_eq, not_true_eq_false, if_false,
    readU32Vec_nodeCount shows, readU16Vec_nodeTokens shows,
    readBf16Vec_nodeAttrs shows, readU32Vec_edgeCount shows,
    readU32Vec_edgeSrc shows, readU32Vec_edgeDst shows,
    readBytes_edgeType shows, readU32Vec_actionCount shows,
    readU16WidenedVec_actionKind shows valid, readBf16Vec_actionPrior shows,
    readBytes_subjectCount shows, readU32Vec_actionSubjects shows few,
    readPositionVec_position shows, readBf16Vec_opponentReward shows,
    readBytes_opponentPresent shows, readBytes_opponentStatePresent shows,
    readU32Vec_opponentNodeCount shows, readU16Vec_opponentNodeTokens shows,
    readBf16Vec_opponentNodeAttrs shows, readU32Vec_opponentEdgeCount shows,
    readU32Vec_opponentEdgeSrc shows, readU32Vec_opponentEdgeDst shows,
    readBytes_opponentEdgeType shows, readPositionVec_opponentPosition shows]
  rfl

theorem parse_ne_ok (headed : Headed (collatedHeader schema capacity rows.length) bytes)
    (length : bytes.length = (BatchLayout.new schema capacity).totalLen)
    (long : 2 ^ 32 ≤ capacity) (view : FeatureBatchView) :
    FeatureBatchView.parse bytes ≠ .ok view := by
  intro parsed
  have behind : batchHeaderLen ≤ bytes.length := by
    rw [length]
    exact BatchLayout.le_totalLen ..
  have cutOff : (UInt32.ofNat capacity).toNat < capacity :=
    Nat.lt_of_lt_of_le (UInt32.toNat_lt _) long
  have shorter := BatchLayout.totalLen_lt capacity
    schema.config.maxNodes.toNat schema.config.maxEdges.toNat
    schema.config.maxActions.toNat schema.config.maxSubjects.toNat
    schema.config.nodeAttrDim.toNat cutOff
  obtain ⟨header, headerParsed, parsed⟩ := ok_of_bind parsed
  have same : header = collatedHeader schema capacity rows.length := by
    have own := ok_of_mapError headerParsed
    rw [parse_of_headed headed behind] at own
    split at own
    · cases own
    split at own
    · cases own
    · cases own
      rfl
  obtain ⟨whole, -⟩ := throw_bind_else_eq_ok_iff.1 parsed
  rw [same, length] at whole
  refine whole fun equal => ?_
  change (BatchLayout.new schema capacity).totalLen =
    (BatchLayout.fromDims (UInt32.ofNat capacity).toNat
      schema.config.maxNodes.toNat schema.config.maxEdges.toNat
      schema.config.maxActions.toNat schema.config.maxSubjects.toNat
      schema.config.nodeAttrDim.toUInt32.toNat).totalLen at equal
  exact absurd equal (Nat.ne_of_gt shorter)

end Parsing

/-! ## Faithfulness -/

/-- The sections neither overlap nor leave the batch, and lie at
boundaries. -/
structure LaysOut (layout : BatchLayout) : Prop where
  disjoint : ∀ first second : BatchSection, first ≠ second →
    (layout.segment first).ending ≤ (layout.segment second).offset ∨
      (layout.segment second).ending ≤ (layout.segment first).offset
  aligned : ∀ place : BatchSection, (layout.segment place).offset % 4 = 0
  inside : ∀ place : BatchSection,
    batchHeaderLen ≤ (layout.segment place).offset ∧ (layout.segment place).ending ≤ layout.totalLen

structure Narrow (row : FeatureRow) : Prop where
  edges : (UInt32.ofNat row.edges.length).toNat = row.edges.length
  opponentEdges : ∀ opponent ∈ row.opponent,
    (UInt32.ofNat opponent.edges.length).toNat = opponent.edges.length
  actions : (UInt32.ofNat row.actions.length).toNat = row.actions.length
  kindTokens : ∀ action ∈ row.actions,
    action.kindToken.toUInt16.toUInt32 = action.kindToken
  subjects : ∀ action ∈ row.actions,
    (UInt8.ofNat action.subjects.length).toNat = action.subjects.length

/-- The batch is laid out soundly, and is collated and parsed as the rows that
were given. -/
structure CollatesFaithfully (schema : FeatureSchema) (capacity : Nat)
    (rows : List FeatureRow) : Prop where
  laysOut : LaysOut (BatchLayout.new schema capacity)
  narrow : ∀ row ∈ rows, Narrow row
  shown : ∃ bytes, collate schema capacity rows = .ok bytes ∧ FeatureBatchView.parse bytes =
      .ok (FeatureBatchView.showing schema capacity rows)

section Faithful

variable {schema : FeatureSchema} {capacity : Nat} {rows : List FeatureRow}

theorem laysOut_new (schema : FeatureSchema) (capacity : Nat) :
    LaysOut (BatchLayout.new schema capacity) := by
  have laid : LaidOut (BatchLayout.new schema capacity).segment
      batchHeaderLen (BatchLayout.new schema capacity).totalLen :=
    BatchLayout.laidOut_segment ..
  exact ⟨laid.apart, BatchLayout.offset_aligned _ _ _ _ _ _,
    fun place => ⟨laid.begins place, laid.ends place⟩⟩

theorem toNat_ofNat_of_le {length} {limit : UInt32} (fits : length ≤ limit.toNat) :
    (UInt32.ofNat length).toNat = length :=
  UInt32.toNat_ofNat_of_lt' (Nat.lt_of_le_of_lt fits limit.toNat_lt)

theorem narrow_of_valid {row} (valid : ValidRow row schema) : Narrow row where
  edges := toNat_ofNat_of_le valid.state.edgeCount
  opponentEdges opponent member :=
    toNat_ofNat_of_le (valid.opponent opponent member).1.edgeCount
  actions := toNat_ofNat_of_le valid.actionCount
  kindTokens action member := by
    obtain ⟨isLast, validAction⟩ := valid.actions.of_mem member
    have below := UInt32.lt_iff_toNat_lt.1 validAction.kindToken.2
    have narrow := schema.narrow.1
    rw [← UInt32.toNat_inj, UInt16.toNat_toUInt32, UInt32.toNat_toUInt16]
    omega
  subjects action member := by
    obtain ⟨isLast, validAction⟩ := valid.actions.of_mem member
    exact UInt8.toNat_ofNat_of_lt' (Nat.lt_of_le_of_lt validAction.subjectCount schema.narrow.2)

theorem shows_of_collated {bytes}
    (length : bytes.length = (BatchLayout.new schema capacity).totalLen)
    (cells : ∀ place cell, cell < ((BatchLayout.new schema capacity).segment place).count →
      slice bytes (((BatchLayout.new schema capacity).segment place).cellAt cell) place.width =
        cellAt (BatchLayout.new schema capacity) rows place cell) :
    Shows (BatchLayout.new schema capacity) rows bytes :=
  ⟨fun place => by
    rw [length]
    exact ((laysOut_new schema capacity).inside place).2, cells⟩

theorem capacity_lt_of_shown (valid : ∀ row ∈ rows, ValidRow row schema)
    (inhabited : rows ≠ []) (limit : rows.length ≤ capacity)
    (short : (BatchLayout.new schema capacity).totalLen < 2 ^ 63)
    (shown : CollatesFaithfully schema capacity rows) : capacity < 2 ^ 32 := by
  obtain ⟨bytes, collated, parsed⟩ := shown.shown
  obtain ⟨written, success, length, headed, -⟩ := collate_eq_ok valid inhabited limit short
  cases collated.symm.trans success
  exact Nat.lt_of_not_le fun long => parse_ne_ok headed length long _ parsed

theorem accepted_of_collate_eq_ok {bytes} (collated : collate schema capacity rows = .ok bytes) :
    rows ≠ [] ∧ rows.length ≤ capacity ∧ (∀ row ∈ rows, ValidRow row schema) ∧
      (BatchLayout.new schema capacity).totalLen < 2 ^ 63 := by
  obtain ⟨inhabited, collated⟩ := throw_bind_else_eq_ok_iff.1 collated
  obtain ⟨limit, collated⟩ := throw_bind_else_eq_ok_iff.1 collated
  obtain ⟨⟨⟩, valid, collated⟩ := ok_of_bind collated
  obtain ⟨cleared, resized, -⟩ := ok_of_bind collated
  refine ⟨fun none => inhabited (List.isEmpty_iff.2 none), Nat.not_lt.1 limit,
    forM_validate_iff.1 (ok_of_mapError valid), ?_⟩
  unfold resize at resized
  split at resized
  · assumption
  · cases resized

/-- Valid rows are collated faithfully exactly if their capacity is a 32 bit
number and the batch is not too long for a vector. -/
theorem collatesFaithfully_iff (valid : ∀ row ∈ rows, row.validate schema = .ok ())
    (inhabited : rows ≠ []) (limit : rows.length ≤ capacity) :
    CollatesFaithfully schema capacity rows ↔ capacity < 2 ^ 32 ∧
        (BatchLayout.new schema capacity).totalLen < 2 ^ 63 := by
  have accepted : ∀ row ∈ rows, ValidRow row schema := fun row member =>
    validate_iff.1 (valid row member)
  constructor
  · intro faithful
    obtain ⟨bytes, collated, -⟩ := faithful.shown
    have short := (accepted_of_collate_eq_ok collated).2.2.2
    exact ⟨capacity_lt_of_shown accepted inhabited limit short faithful, short⟩
  · intro ⟨fits, short⟩
    obtain ⟨bytes, collated, length, headed, cells⟩ := collate_eq_ok accepted inhabited limit short
    have parsed := parse_eq_ok accepted (shows_of_collated length cells)
      headed length inhabited limit fits
    exact ⟨laysOut_new schema capacity,
      fun row member => narrow_of_valid (accepted row member), bytes,
      collated, parsed⟩

/-- A batch of two cells for each item, with one row. -/
theorem collatesFaithfully_of_small_batch :
    CollatesFaithfully Sample.schema 2 [Sample.row .zero] := by
  have accepted : ∀ row ∈ [Sample.row .zero],
      row.validate Sample.schema = .ok () := by
    decide +kernel
  have limits : 2 < 2 ^ 32 ∧ (BatchLayout.new Sample.schema 2).totalLen < 2 ^ 63 := by
    decide +kernel
  exact (collatesFaithfully_iff accepted (by decide) (by decide)).2 limits

/-- The header cannot hold a capacity of `2 ^ 32`. -/
theorem wide_capacity_is_refused :
    ¬ ∀ (schema : FeatureSchema) (capacity : Nat) (rows : List FeatureRow),
      (∀ row ∈ rows, row.validate schema = .ok ()) → rows ≠ [] →
        rows.length ≤ capacity → CollatesFaithfully schema capacity rows := by
  intro all
  have accepted : ∀ row ∈ [Sample.row .zero],
      row.validate Sample.schema = .ok () := by
    decide +kernel
  have short : (BatchLayout.new Sample.schema (2 ^ 32)).totalLen < 2 ^ 63 := by
    decide +kernel
  have limit : [Sample.row .zero].length ≤ 2 ^ 32 := by decide
  have small := capacity_lt_of_shown
    (fun row member => validate_iff.1 (accepted row member)) (by decide)
    limit short (all _ _ _ accepted (by decide) limit)
  exact absurd small (by decide)

end Faithful

end GraphZero.Features
