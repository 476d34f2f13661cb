import GraphZero.Features.BatchCells

/-!
# The cells of a collated batch

After the padding, the header and the rows are written, each cell of the batch
holds what its row has there, or padding.
-/

namespace GraphZero.Features

open Foundation List

section Buffers

theorem writeAll_append (writes more : List BufferWrite) (buffer : List UInt8) :
    writeAll (writes ++ more) buffer = (writeAll writes buffer).bind (writeAll more) := by
  induction writes generalizing buffer with
  | nil => rfl
  | cons write writes ih =>
    rw [cons_append, writeAll, writeAll]
    cases writeAt write buffer with
    | none => rfl
    | some result => exact ih result

theorem checked_bind {α β : Type} (value : α) (next : α → BatchResult β) :
    (checked (.ok value) >>= next) = next value :=
  rfl

theorem perform_append (writes more : List BufferWrite) (buffer : List UInt8) :
    perform (writes ++ more) buffer = perform writes buffer >>= perform more := by
  unfold perform
  rw [writeAll_append]
  cases writeAll writes buffer <;> rfl

theorem slice_replicate {length offset width byte} (inside : offset + width ≤ length) :
    slice (List.replicate length byte) offset width = List.replicate width byte := by
  unfold slice
  rw [drop_replicate, take_replicate]
  congr 1
  omega

theorem slice_writeAt_inside {buffer result write} (written : writeAt write buffer = some result)
    {start width} (inside : start + width ≤ write.bytes.length) :
    slice result (write.offset + start) width = slice write.bytes start width := by
  refine ext_getElem? fun place => ?_
  rw [getElem?_slice, getElem?_slice]
  split
  · rw [getElem?_writeAt written, if_pos ⟨by omega, by omega⟩]
    congr 1
    omega
  · rfl

end Buffers

/-- What a cell holds that no row uses. -/
def BatchSection.padding : BatchSection → UInt8
  | .actionSubjects => 0xff
  | _ => 0

section Padding

variable {layout : BatchLayout}

def Padded (layout : BatchLayout) (buffer : List UInt8) : Prop :=
  ∀ place cell, cell < (layout.segment place).count →
    slice buffer ((layout.segment place).cellAt cell) place.width =
      List.replicate place.width place.padding

theorem padded_subjectPadding {lower} (laid : LaidOut layout.segment lower layout.totalLen)
    (subjects : layout.b * layout.a * layout.s * 4 = (layout.segment .actionSubjects).count * 4) :
    ∃ result, perform [subjectPadding layout] (List.replicate layout.totalLen 0) = .ok result ∧
      result.length = layout.totalLen ∧ Padded layout result := by
  have ends := laid.ends .actionSubjects
  have room : (subjectPadding layout).offset + (subjectPadding layout).bytes.length ≤
        (List.replicate layout.totalLen (0 : UInt8)).length := by
    unfold subjectPadding
    rw [length_replicate, length_replicate, subjects]
    exact ends
  have written : writeAt (subjectPadding layout)
      (List.replicate layout.totalLen 0) = some _ := if_pos room
  refine ⟨_, ?_, (length_writeAt written).trans (length_replicate ..), fun place cell inside => ?_⟩
  · unfold perform writeAll
    rw [written]
    rfl
  have bounds := Segment.cellAt_le_ending inside
  have own := laid.ends place
  by_cases here : place = .actionSubjects
  · subst here
    have few : cell * 4 + 4 ≤ (layout.segment .actionSubjects).count * 4 := by
      omega
    have inner : cell * 4 + 4 ≤ (subjectPadding layout).bytes.length := by
      unfold subjectPadding
      rw [length_replicate, subjects]
      exact few
    refine (slice_writeAt_inside written inner).trans ?_
    unfold subjectPadding at inner ⊢
    rw [length_replicate] at inner
    exact slice_replicate inner
  · have apart := laid.apart place .actionSubjects here
    have blank : place.padding = 0 := by
      cases place <;> first | rfl | exact absurd rfl here
    have long : (subjectPadding layout).offset + (subjectPadding layout).bytes.length =
          (layout.segment .actionSubjects).ending := by
      unfold subjectPadding
      rw [length_replicate, subjects]
      rfl
    rw [blank]
    have width : (layout.segment place).width = place.width := rfl
    refine (slice_writeAt_of_disjoint written ?_).trans (slice_replicate (by omega))
    change _ ≤ (layout.segment .actionSubjects).offset ∨ _
    omega

end Padding

/-! ## Header -/

inductive HeaderField where
  | magic
  | version
  | schemaHash
  | batchCapacity
  | rowCount
  | maxNodes
  | maxEdges
  | maxActions
  | maxSubjects
  | nodeAttrDim
  deriving DecidableEq

namespace HeaderField

def segment : HeaderField → Segment
  | .magic => ⟨0, 4, 1⟩
  | .version => ⟨4, 4, 1⟩
  | .schemaHash => ⟨8, 32, 1⟩
  | .batchCapacity => ⟨40, 4, 1⟩
  | .rowCount => ⟨44, 4, 1⟩
  | .maxNodes => ⟨48, 4, 1⟩
  | .maxEdges => ⟨52, 4, 1⟩
  | .maxActions => ⟨56, 4, 1⟩
  | .maxSubjects => ⟨60, 4, 1⟩
  | .nodeAttrDim => ⟨64, 4, 1⟩

theorem laidOut_segment : LaidOut segment 0 batchHeaderLen where
  apart first second different := by
    cases first <;> cases second <;>
      first | exact absurd rfl different | decide
  begins _ := Nat.zero_le _
  ends field := by cases field <;> decide

end HeaderField

def BatchHeader.fieldBytes (header : BatchHeader) : HeaderField → List UInt8
  | .magic => batchMagic
  | .version => u32Bytes (UInt32.ofNat batchEncodingVersion)
  | .schemaHash => header.schemaHash.bytes
  | .batchCapacity => u32Bytes header.batchCapacity
  | .rowCount => u32Bytes header.rowCount
  | .maxNodes => u32Bytes header.maxNodes
  | .maxEdges => u32Bytes header.maxEdges
  | .maxActions => u32Bytes header.maxActions
  | .maxSubjects => u32Bytes header.maxSubjects
  | .nodeAttrDim => u32Bytes header.nodeAttrDim

def collatedHeader (schema : FeatureSchema) (capacity rowCount : Nat) : BatchHeader where
  schemaHash := schema.hash
  batchCapacity := UInt32.ofNat capacity
  rowCount := UInt32.ofNat rowCount
  maxNodes := schema.config.maxNodes
  maxEdges := schema.config.maxEdges
  maxActions := schema.config.maxActions
  maxSubjects := schema.config.maxSubjects
  nodeAttrDim := schema.config.nodeAttrDim.toUInt32

section Header

def Headed (header : BatchHeader) (buffer : List UInt8) : Prop :=
  ∀ field : HeaderField,
    slice buffer field.segment.offset field.segment.width = header.fieldBytes field

def headerCellWrites (header : BatchHeader) : List (CellWrite HeaderField) :=
  [HeaderField.magic, .version, .schemaHash, .batchCapacity, .rowCount,
    .maxNodes, .maxEdges, .maxActions, .maxSubjects, .nodeAttrDim].map
      fun field => ⟨field, 0, header.fieldBytes field⟩

theorem batchHeader_eq (schema : FeatureSchema) (capacity rowCount : Nat) :
    batchHeader schema capacity rowCount =
      (headerCellWrites (collatedHeader schema capacity rowCount)).map
        (·.flat HeaderField.segment) :=
  rfl

theorem length_fieldBytes (header : BatchHeader) (field : HeaderField) :
    (header.fieldBytes field).length = field.segment.width := by
  cases field with
  | schemaHash => exact header.schemaHash.length_eq
  | magic => rfl
  | _ => exact length_u32Bytes _

theorem perform_batchHeader (schema : FeatureSchema) (capacity rowCount : Nat) {buffer}
    (long : batchHeaderLen ≤ buffer.length) :
    ∃ result, perform (batchHeader schema capacity rowCount) buffer = .ok result ∧
      result.length = buffer.length ∧
      Headed (collatedHeader schema capacity rowCount) result ∧
      ∀ offset width, batchHeaderLen ≤ offset →
        slice result offset width = slice buffer offset width := by
  have fits : ∀ write ∈ headerCellWrites (collatedHeader schema capacity rowCount),
      write.Fits HeaderField.segment := by
    intro write member
    obtain ⟨field, -, rfl⟩ := mem_map.1 member
    refine ⟨?_, length_fieldBytes _ field⟩
    cases field <;> exact Nat.one_pos
  obtain ⟨result, written, length, cells, outside⟩ :=
    writeAll_cells HeaderField.laidOut_segment fits long
  refine ⟨result, ?_, length, fun field => ?_,
    fun offset width behind => outside offset width (.inr behind)⟩
  · unfold perform
    rw [batchHeader_eq, written]
  · have cell := cells field 0 (by cases field <;> exact Nat.one_pos)
    unfold Segment.cellAt at cell
    rw [Nat.zero_mul, Nat.add_zero] at cell
    refine cell.trans ?_
    cases field <;> rfl

end Header

section Rows

variable {layout : BatchLayout} {schema : FeatureSchema}

def rowsCellWrites (layout : BatchLayout) (rows : List (FeatureRow × Nat)) :
    List (CellWrite BatchSection) :=
  rows.flatMap fun item => cellWrites layout item.2 item.1

theorem writeRows_eq {rows : List FeatureRow}
    (valid : ∀ row ∈ rows, ValidRow row schema) (first : Nat)
    (buffer : List UInt8) :
    writeRows layout (rows.zipIdx first) buffer =
      perform ((rowsCellWrites layout (rows.zipIdx first)).map (·.flat layout.segment)) buffer := by
  induction rows generalizing first buffer with
  | nil => rfl
  | cons row rows ih =>
    have own := valid row mem_cons_self
    have later (written : List UInt8) := ih (fun other member => valid other
      (mem_cons_of_mem _ member)) (first + 1) written
    rw [zipIdx_cons, writeRows, rowWrites_eq_ok own, checked_bind]
    unfold rowsCellWrites
    rw [flatMap_cons, map_append, perform_append]
    exact congrArg (perform _ buffer >>= ·) (funext later)

theorem writesTo_rowsCellWrites (target : BatchSection) (rows : List (FeatureRow × Nat)) :
    writesTo target (rowsCellWrites layout rows) = rowCells (layout.stride target)
        (fun row : FeatureRow => row.cells layout.s target) rows := by
  refine filterMap_flatMap.trans ?_
  exact congrArg (List.flatMap · rows) (funext fun item =>
    writesTo_cellWrites item.1 target)

theorem mem_numbered {β : Type} {items} {entry : Nat × β} (member : entry ∈ numbered items) :
    entry.1 < items.length ∧ entry.2 ∈ items := by
  obtain ⟨⟨item, place⟩, here, rfl⟩ := mem_map.1 member
  have found := mem_zipIdx' here
  exact ⟨found.1, found.2 ▸ getElem_mem _⟩

theorem numbered_fit {items : List (List UInt8)} {stride width} (few : items.length ≤ stride)
    (wide : ∀ item ∈ items, item.length = width) :
    ∀ entry ∈ numbered items, entry.1 < stride ∧ entry.2.length = width := fun _ member =>
  ⟨Nat.lt_of_lt_of_le (mem_numbered member).1 few, wide _ (mem_numbered member).2⟩

theorem length_of_mem_map {α : Type} {items : List α} {width} {encode : α → List UInt8}
    (each : ∀ item, (encode item).length = width) :
    ∀ item ∈ items.map encode, item.length = width := fun item member => by
  obtain ⟨value, -, rfl⟩ := mem_map.1 member
  exact each value

variable (capacity : Nat)

theorem state_cells_fit {state : OpponentStateFeatures}
    (valid : ValidState state.nodeCount state.nodeTokens state.nodeAttrs
      state.edges schema.config) (part : StateSection) :
    (state.cells part).length ≤ (BatchLayout.new schema capacity).stateStride part ∧
      ∀ item ∈ state.cells part, item.length = part.width := by
  have nodes : state.nodeCount.toNat ≤ schema.config.maxNodes.toNat :=
    UInt32.le_iff_toNat_le.1 valid.nodes
  cases part with
  | nodeCount =>
    exact ⟨Nat.le_refl 1, fun item member => by
      cases mem_singleton.1 member
      exact length_u32Bytes _⟩
  | nodeTokens =>
    refine ⟨?_, length_of_mem_map length_u16Bytes⟩
    unfold OpponentStateFeatures.cells
    rw [length_map, valid.tokenCount]
    exact nodes
  | nodeAttrs =>
    refine ⟨?_, length_of_mem_map length_bf16Bytes⟩
    unfold OpponentStateFeatures.cells
    rw [length_map, valid.attrCount]
    exact Nat.mul_le_mul_right _ nodes
  | edgeCount =>
    exact ⟨Nat.le_refl 1, fun item member => by
      cases mem_singleton.1 member
      exact length_u32Bytes _⟩
  | edgeSrc | edgeDst =>
    refine ⟨?_, length_of_mem_map fun _ => length_u32Bytes _⟩
    unfold OpponentStateFeatures.cells
    rw [length_map]
    exact valid.edgeCount
  | edgeType =>
    refine ⟨?_, length_of_mem_map fun _ => rfl⟩
    unfold OpponentStateFeatures.cells
    rw [length_map]
    exact valid.edgeCount
  | position => exact ⟨Nat.le_refl 4, length_of_mem_map length_bf16Bytes⟩

theorem cells_fit {row : FeatureRow} (valid : ValidRow row schema) (place : BatchSection) :
    ∀ entry ∈ row.cells (BatchLayout.new schema capacity).s place,
      entry.1 < (BatchLayout.new schema capacity).stride place ∧ entry.2.length = place.width := by
  have actions : row.actions.length ≤ (BatchLayout.new schema capacity).a := valid.actionCount
  cases place with
  | own part =>
    have fit : (row.state.cells part).length ≤ _ ∧ _ := state_cells_fit capacity valid.state part
    exact numbered_fit fit.1 fit.2
  | opponent part =>
    cases same : row.opponent with
    | none =>
      intro entry member
      rw [FeatureRow.cells, same] at member
      cases member
    | some opponent =>
      have fit := state_cells_fit capacity (valid.opponent opponent same).1 part
      rw [FeatureRow.cells, same]
      exact numbered_fit fit.1 fit.2
  | actionSubjects =>
    intro entry member
    obtain ⟨⟨action, place⟩, here, own⟩ := mem_flatMap.1 member
    obtain ⟨subject, inner, rfl⟩ := mem_map.1 own
    have found := mem_zipIdx' here
    obtain ⟨isLast, validAction⟩ := valid.actions.of_mem (found.2 ▸ getElem_mem _ :
        action ∈ row.actions)
    have column := (mem_numbered inner).1
    rw [length_map] at column
    have few : subject.1 < (BatchLayout.new schema capacity).s :=
      Nat.lt_of_lt_of_le column validAction.subjectCount
    have whole : (place + 1) * (BatchLayout.new schema capacity).s ≤
        (BatchLayout.new schema capacity).a * (BatchLayout.new schema capacity).s :=
      Nat.mul_le_mul_right _ (Nat.le_trans found.1 actions)
    rw [Nat.succ_mul] at whole
    refine ⟨?_, length_of_mem_map length_u32Bytes _ (mem_numbered inner).2⟩
    unfold BatchLayout.stride
    dsimp only
    omega
  | actionCount =>
    exact numbered_fit (Nat.le_refl 1) fun item member => by
      cases mem_singleton.1 member
      exact length_u32Bytes _
  | actionKind =>
    refine numbered_fit ?_ (length_of_mem_map fun _ => length_u16Bytes _)
    rw [length_map]
    exact actions
  | actionPrior =>
    refine numbered_fit ?_ (length_of_mem_map fun _ => length_bf16Bytes _)
    rw [length_map]
    exact actions
  | subjectCount =>
    refine numbered_fit ?_ (length_of_mem_map fun _ => rfl)
    rw [length_map]
    exact actions
  | opponentReward =>
    exact numbered_fit (Nat.le_refl 1) fun item member => by
      cases mem_singleton.1 member
      exact length_bf16Bytes _
  | opponentPresent =>
    exact numbered_fit (Nat.le_refl 1) fun item member => by
      cases mem_singleton.1 member
      rfl
  | opponentStatePresent =>
    refine numbered_fit ?_ fun item member => ?_
    · cases row.opponent with
      | none => exact Nat.zero_le 1
      | some opponent => exact Nat.le_refl 1
    · cases same : row.opponent with
      | none =>
        rw [same] at member
        cases member
      | some opponent =>
        rw [same] at member
        cases mem_singleton.1 member
        rfl

end Rows

/-! ## The batch -/

def cellAt (layout : BatchLayout) (rows : List FeatureRow)
    (place : BatchSection) (cell : Nat) : List UInt8 :=
  (rows[cell / layout.stride place]?.bind fun row =>
    lastWritten (row.cells layout.s place) (cell % layout.stride place)).getD
      (List.replicate place.width place.padding)

section Batch

variable {schema : FeatureSchema} {capacity : Nat} {rows : List FeatureRow}

theorem fits_of_rowsCellWrites (valid : ∀ row ∈ rows, ValidRow row schema)
    (limit : rows.length ≤ capacity) :
    ∀ write ∈ rowsCellWrites (BatchLayout.new schema capacity) rows.zipIdx,
      write.Fits (BatchLayout.new schema capacity).segment := by
  intro write member
  have written : (write.cell, write.bytes) ∈ writesTo write.segment
      (rowsCellWrites (BatchLayout.new schema capacity) rows.zipIdx) :=
    mem_filterMap.2 ⟨write, member, if_pos rfl⟩
  rw [writesTo_rowsCellWrites] at written
  obtain ⟨⟨row, rowIndex⟩, here, own⟩ := mem_flatMap.1 written
  obtain ⟨entry, inner, same⟩ := mem_map.1 own
  obtain ⟨sameCell, sameBytes⟩ := Prod.mk.inj same
  have found := mem_zipIdx' here
  have fit := cells_fit capacity (valid row (found.2 ▸ getElem_mem _)) write.segment entry inner
  rw [sameBytes] at fit
  refine ⟨?_, fit.2⟩
  have whole : (rowIndex + 1) * (BatchLayout.new schema capacity).stride write.segment ≤
        capacity * (BatchLayout.new schema capacity).stride write.segment :=
    Nat.mul_le_mul_right _ (Nat.le_trans found.1 limit)
  rw [Nat.succ_mul] at whole
  rw [← sameCell]
  change rowIndex * _ + entry.1 < capacity * _
  omega

theorem lastWritten_rowsCellWrites (valid : ∀ row ∈ rows, ValidRow row schema)
    (place : BatchSection) {cell}
    (inside : cell < ((BatchLayout.new schema capacity).segment place).count) :
    lastWritten (writesTo place
        (rowsCellWrites (BatchLayout.new schema capacity) rows.zipIdx)) cell =
      rows[cell / (BatchLayout.new schema capacity).stride place]?.bind fun row => lastWritten
          (row.cells (BatchLayout.new schema capacity).s place)
          (cell % (BatchLayout.new schema capacity).stride place) := by
  have pos : 0 < (BatchLayout.new schema capacity).stride place := by
    refine Nat.pos_of_ne_zero fun none => ?_
    unfold BatchLayout.segment at inside
    rw [none, Nat.mul_zero] at inside
    exact Nat.not_lt_zero _ inside
  have place_eq := Nat.div_add_mod' cell ((BatchLayout.new schema capacity).stride place)
  have row := lastWritten_rowCells (fun row member entry inner =>
      (cells_fit capacity (valid row member) place entry inner).1) 0
    (cell / (BatchLayout.new schema capacity).stride place)
    (Nat.mod_lt cell pos)
  rw [Nat.zero_add, place_eq] at row
  rw [writesTo_rowsCellWrites]
  exact row

theorem forM_validate_iff : rows.forM (fun row => row.validate schema) = .ok () ↔
      ∀ row ∈ rows, ValidRow row schema := by
  induction rows with
  | nil => exact iff_of_true rfl nofun
  | cons row rows ih =>
    change (row.validate schema >>= fun _ =>
      rows.forM fun row => row.validate schema) = _ ↔ _
    rw [bind_eq_ok_iff, validate_iff, ih, forall_mem_cons]

theorem collate_eq_ok (valid : ∀ row ∈ rows, ValidRow row schema)
    (inhabited : rows ≠ []) (limit : rows.length ≤ capacity)
    (fits : (BatchLayout.new schema capacity).totalLen < 2 ^ 63) :
    ∃ bytes, collate schema capacity rows = .ok bytes ∧
      bytes.length = (BatchLayout.new schema capacity).totalLen ∧
      Headed (collatedHeader schema capacity rows.length) bytes ∧
      ∀ place cell, cell < ((BatchLayout.new schema capacity).segment place).count →
        slice bytes (((BatchLayout.new schema capacity).segment place).cellAt cell) place.width =
          cellAt (BatchLayout.new schema capacity) rows place cell := by
  have laid : LaidOut (BatchLayout.new schema capacity).segment
      batchHeaderLen (BatchLayout.new schema capacity).totalLen :=
    BatchLayout.laidOut_segment ..
  have long : batchHeaderLen ≤
      (BatchLayout.new schema capacity).totalLen := BatchLayout.le_totalLen ..
  obtain ⟨padded, padding, paddedLength, blank⟩ :=
    padded_subjectPadding laid (congrArg (· * 4) (Nat.mul_assoc ..))
  obtain ⟨headed, heading, headedLength, fields, behind⟩ :=
    perform_batchHeader schema capacity rows.length (paddedLength ▸ long)
  obtain ⟨bytes, written, length, cells, outside⟩ :=
    writeAll_cells laid (fits_of_rowsCellWrites valid limit) (headedLength.trans paddedLength).ge
  refine ⟨bytes, ?_, ?_, fun field => ?_, fun place cell inside => ?_⟩
  · have accepted := forM_validate_iff.2 valid
    unfold collate
    rw [if_neg (by rwa [List.isEmpty_iff]), if_neg (Nat.not_lt.2 limit),
      accepted]
    change (resize _ >>= _) = _
    unfold resize
    rw [if_pos fits]
    change (perform [subjectPadding _] _ >>= _) = _
    rw [padding]
    change (perform (batchHeader ..) _ >>= _) = _
    rw [heading]
    change writeRows _ _ _ = _
    rw [writeRows_eq valid]
    unfold perform
    rw [written]
  · rw [length, headedLength, paddedLength]
  · rw [outside _ _ (.inl ?_)]
    · exact fields field
    · cases field <;> decide
  · have start := (Segment.cellAt_le_ending inside).1
    have first := laid.begins place
    have own := cells place cell inside
    rw [lastWritten_rowsCellWrites valid place inside,
      behind _ _ (Nat.le_trans first start)] at own
    change slice bytes _ place.width = _ at own
    rw [own]
    change Option.getD _ (slice padded _ place.width) = _
    rw [blank place cell inside]
    rfl

end Batch

end GraphZero.Features
