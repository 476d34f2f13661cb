import GraphZero.Features.PythonBatch

/-!
# Both languages read the same batch

What is read from a section in one language is read in the other one too, so
both see the same rows in a collated batch.
-/

namespace GraphZero.Features.Python

open Foundation List

section Sections

variable {bytes : List UInt8} {offset count : Nat} {shape : List Nat}

theorem length_slice {width} (inside : offset + width ≤ bytes.length) :
    (slice bytes offset width).length = width := by
  unfold slice
  rw [length_take, length_drop]
  omega

variable {cell : List UInt8}

theorem toNat_u16Of (wide : cell.length = 2) : (u16Of cell).toNat = ofLeBytes cell := by
  have fits := Decoder.ofLeBytes_lt cell
  rw [wide] at fits
  exact UInt16.toNat_ofNat_of_lt' fits

theorem toNat_u32Of (wide : cell.length = 4) : (u32Of cell).toNat = ofLeBytes cell := by
  have fits := Decoder.ofLeBytes_lt cell
  rw [wide] at fits
  exact UInt32.toNat_ofNat_of_lt' fits

theorem bf16Of_eq (wide : cell.length = 2) :
    (⟨UInt32.ofNat (ofLeBytes cell) <<< 16⟩ : F32) = bf16Of cell := by
  have fits := Decoder.ofLeBytes_lt cell
  rw [wide] at fits
  have small : ofLeBytes cell < 2 ^ 32 := Nat.lt_trans fits (by decide)
  have same : UInt32.ofNat (ofLeBytes cell) = (u16Of cell).toUInt32 := by
    rw [← UInt32.toNat_inj, UInt16.toNat_toUInt32, toNat_u16Of wide]
    exact UInt32.toNat_ofNat_of_lt' small
  rw [same]
  rfl

theorem array_eq {dtype : DType} (inside : offset + shape.prod * dtype.itemsize ≤ bytes.length) :
    array bytes offset dtype shape = .ok {
        dtype
        shape
        data := (List.range shape.prod).map fun index =>
          ofLeBytes (slice bytes (offset + index * dtype.itemsize) dtype.itemsize) } := by
  unfold array
  rw [if_neg (by omega), if_neg (by omega)]
  rfl

theorem cell_inside {width place} (inside : offset + count * width ≤ bytes.length)
    (below : place < count) :
    offset + place * width + width ≤ bytes.length := by
  have whole : (place + 1) * width ≤ count * width := Nat.mul_le_mul_right _ below
  rw [Nat.succ_mul] at whole
  omega

theorem array_of_readU32Vec {values} (read : readU32Vec bytes offset count = .ok values)
    (inside : offset + count * 4 ≤ bytes.length) (size : shape.prod = count) :
    array bytes offset .u4 shape = .ok ⟨.u4, shape, values.map UInt32.toNat⟩ := by
  have same : readU32Vec bytes offset count = .ok _ :=
    readVec_eq fun place below => readU32At_eq (cell_inside inside below)
  cases read.symm.trans same
  subst size
  rw [array_eq inside, map_map]
  congr 2
  refine map_congr_left fun place member => ?_
  have room := cell_inside inside (mem_range.1 member)
  exact (toNat_u32Of (length_slice room)).symm

theorem array_of_readU16Vec {values} (read : readU16Vec bytes offset count = .ok values)
    (inside : offset + count * 2 ≤ bytes.length) (size : shape.prod = count) :
    array bytes offset .u2 shape = .ok ⟨.u2, shape, values.map UInt16.toNat⟩ := by
  have same : readU16Vec bytes offset count = .ok _ :=
    readVec_eq fun place below => readU16At_eq (cell_inside inside below)
  cases read.symm.trans same
  subst size
  rw [array_eq inside, map_map]
  congr 2
  refine map_congr_left fun place member => ?_
  have room := cell_inside inside (mem_range.1 member)
  exact (toNat_u16Of (length_slice room)).symm

theorem array_of_readU16WidenedVec {values}
    (read : readU16WidenedVec bytes offset count = .ok values)
    (inside : offset + count * 2 ≤ bytes.length) (size : shape.prod = count) :
    array bytes offset .u2 shape = .ok ⟨.u2, shape, values.map UInt32.toNat⟩ := by
  have same : readU16WidenedVec bytes offset count = .ok ((List.range count).map fun place =>
        widenedOf (slice bytes (offset + place * 2) 2)) :=
    readVec_eq fun place below => by
      rw [readU16At_eq (cell_inside inside below)]
      rfl
  cases read.symm.trans same
  subst size
  rw [array_eq inside, map_map]
  congr 2
  refine map_congr_left fun place member => ?_
  have room := cell_inside inside (mem_range.1 member)
  exact (toNat_u16Of (length_slice room)).symm.trans (UInt16.toNat_toUInt32 _).symm

theorem array_of_readBytes {values} (read : readBytes bytes offset count = .ok values)
    (inside : offset + count ≤ bytes.length) (size : shape.prod = count) :
    array bytes offset .u1 shape = .ok ⟨.u1, shape, values.map UInt8.toNat⟩ := by
  unfold readBytes at read
  rw [if_pos inside] at read
  cases read
  subst size
  have room : offset + shape.prod * 1 ≤ bytes.length := by omega
  have single : array bytes offset .u1 shape = .ok _ := array_eq room
  rw [single]
  refine congrArg (fun data => Except.ok (IntArray.mk .u1 shape data)) ?_
  refine ext_getElem? fun place => ?_
  rw [getElem?_map, getElem?_map, getElem?_slice]
  by_cases below : place < shape.prod
  · have here : offset + place < bytes.length := by omega
    have cell : slice bytes (offset + place * 1) 1 = [bytes[offset + place]] := by
      refine ext_getElem? fun other => ?_
      rw [getElem?_slice, Nat.mul_one]
      cases other with
      | zero =>
        exact getElem?_eq_getElem here
      | succ other =>
        rw [if_neg (by omega)]
        rfl
    rw [getElem?_range below, if_pos below,
      getElem?_eq_getElem here, Option.map_some, Option.map_some]
    change some (ofLeBytes (slice bytes (offset + place * 1) 1)) = _
    rw [cell]
    rfl
  · have beyond : (List.range shape.prod)[place]? = none :=
      getElem?_eq_none (by rw [length_range]; omega)
    rw [beyond, if_neg below]
    rfl

theorem bf16Array_of_readBf16Vec {values} (read : readBf16Vec bytes offset count = .ok values)
    (inside : offset + count * 2 ≤ bytes.length) (size : shape.prod = count) :
    bf16Array bytes offset shape = .ok ⟨shape, values⟩ := by
  have same : readBf16Vec bytes offset count = .ok _ :=
    readVec_eq fun place below => readBf16At_eq (cell_inside inside below)
  cases read.symm.trans same
  subst size
  have raw : array bytes offset .u2 shape = .ok _ := array_eq inside
  unfold bf16Array
  rw [raw, ok_bind, map_map]
  refine congrArg (fun data => Except.ok (FloatArray.mk shape data)) ?_
  refine map_congr_left fun place member => ?_
  have room := cell_inside inside (mem_range.1 member)
  rw [Function.comp_apply]
  exact bf16Of_eq (length_slice room)

theorem map_range_mul_four {β : Type} (cell : Nat → β) (rows : Nat) :
    (List.range (rows * 4)).map cell = (List.range rows).flatMap fun row =>
        [cell (row * 4), cell (row * 4 + 1), cell (row * 4 + 2), cell (row * 4 + 3)] := by
  induction rows with
  | zero => rfl
  | succ rows ih =>
    have last : List.range (rows + 1) = List.range rows ++ [rows] := range_succ
    have cells : List.range (rows * 4 + 4) = List.range (rows * 4) ++
          [rows * 4, rows * 4 + 1, rows * 4 + 2, rows * 4 + 3] := by
      simp only [range_succ, append_assoc, cons_append, nil_append]
    rw [Nat.succ_mul, last, flatMap_append, ← ih, cells, map_append]
    rfl

theorem bf16Array_of_readPositionVec {values}
    (read : readPositionVec bytes offset count = .ok values)
    (inside : offset + count * 8 ≤ bytes.length) :
    bf16Array bytes offset [count, 4] = .ok ⟨[count, 4], values.flatMap scalarList⟩ := by
  have cell : ∀ start, start + 2 ≤ bytes.length →
      readBf16At bytes start = .ok (bf16Of (slice bytes start 2)) :=
    fun start => readBf16At_eq
  have same : readPositionVec bytes offset count = .ok ((List.range count).map fun row =>
        (bf16Of (slice bytes (offset + row * 8) 2), bf16Of (slice bytes (offset + row * 8 + 2) 2),
          bf16Of (slice bytes (offset + row * 8 + 4) 2),
          bf16Of (slice bytes (offset + row * 8 + 6) 2))) := by
    refine readVec_eq fun row below => ?_
    unfold readPositionAt
    rw [cell _ (by omega), ok_bind, cell _ (by omega), ok_bind,
      cell _ (by omega), ok_bind, cell _ (by omega), ok_bind]
    rfl
  cases read.symm.trans same
  have flat : readBf16Vec bytes offset (count * 4) = .ok ((List.range (count * 4)).map fun place =>
        bf16Of (slice bytes (offset + place * 2) 2)) :=
    readVec_eq fun place below => cell _ (by omega)
  rw [bf16Array_of_readBf16Vec flat (by omega) (by simp)]
  refine congrArg (fun data => Except.ok (FloatArray.mk [count, 4] data)) ?_
  rw [map_range_mul_four, flatMap_map]
  refine congrArg (List.flatMap · (List.range count)) (funext fun row => ?_)
  have start : ∀ column, offset + (row * 4 + column) * 2 = offset + row * 8 + column * 2 := by
    intro column
    omega
  rw [start 1, start 2, start 3]
  have first : offset + row * 4 * 2 = offset + row * 8 := by omega
  rw [first]
  rfl

end Sections

section Collated

variable {schema : FeatureSchema} {capacity : Nat} {rows : List FeatureRow}
  {bytes : List UInt8} {header : BatchHeader}

def dimsOfRust (header : BatchHeader) : SchemaDims where
  featureSchemaHash := header.schemaHash
  batchCapacity := header.batchCapacity.toNat
  rowCount := header.rowCount.toNat
  maxNodes := header.maxNodes.toNat
  maxEdges := header.maxEdges.toNat
  maxActions := header.maxActions.toNat
  maxSubjects := header.maxSubjects.toNat
  nodeAttrDim := header.nodeAttrDim.toNat

theorem u32_of_headed (headed : Headed header bytes) (field : HeaderField) {value}
    (holds : header.fieldBytes field = u32Bytes value) (wide : field.segment.width = 4) :
    u32 bytes field.segment.offset = value.toNat := by
  have fits : value.toNat < 256 ^ 4 := value.toNat_lt
  have own := headed field
  rw [wide, holds] at own
  unfold u32
  rw [own]
  exact ofLeBytes_toLeBytes fits

theorem parseDims_of_headed (headed : Headed header bytes) (long : batchHeaderLen ≤ bytes.length) :
    parseDims bytes = validateDims (dimsOfRust header) >>= fun _ =>
        pure (dimsOfRust header) := by
  have magic : slice bytes 0 4 = batchMagic := headed .magic
  have version : u32 bytes 4 = batchEncodingVersion := u32_of_headed headed .version rfl rfl
  have schemaHash : hashFromBytes (slice bytes 8 32) = .ok header.schemaHash := by
    have own : slice bytes 8 32 = header.schemaHash.bytes := headed .schemaHash
    unfold hashFromBytes
    rw [dif_pos (own ▸ header.schemaHash.length_eq)]
    congr 1
    exact FeatureSchemaHash.mk.injEq .. ▸ own
  have capacity : u32 bytes 40 = header.batchCapacity.toNat :=
    u32_of_headed headed .batchCapacity rfl rfl
  have rowCount : u32 bytes 44 = header.rowCount.toNat := u32_of_headed headed .rowCount rfl rfl
  have maxNodes : u32 bytes 48 = header.maxNodes.toNat := u32_of_headed headed .maxNodes rfl rfl
  have maxEdges : u32 bytes 52 = header.maxEdges.toNat := u32_of_headed headed .maxEdges rfl rfl
  have maxActions : u32 bytes 56 = header.maxActions.toNat :=
    u32_of_headed headed .maxActions rfl rfl
  have maxSubjects : u32 bytes 60 = header.maxSubjects.toNat :=
    u32_of_headed headed .maxSubjects rfl rfl
  have nodeAttrDim : u32 bytes 64 = header.nodeAttrDim.toNat :=
    u32_of_headed headed .nodeAttrDim rfl rfl
  unfold parseDims
  simp only [if_neg (Nat.not_lt.2 long), if_neg (not_not_intro magic),
    if_neg (not_not_intro version), schemaHash, ok_bind, capacity, rowCount,
    maxNodes, maxEdges, maxActions, maxSubjects, nodeAttrDim]
  rfl

theorem positive_config (schema : FeatureSchema) :
    schema.config.maxNodes ≠ 0 ∧ schema.config.maxEdges ≠ 0 ∧
      schema.config.maxActions ≠ 0 ∧ schema.config.maxSubjects ≠ 0 := by
  have valid := schema.valid
  unfold validateConfig at valid
  simp only [throw_bind_else_eq_ok_iff] at valid
  obtain ⟨-, -, -, -, nodes, edges, actions, subjects, -⟩ := valid
  exact ⟨nodes, edges, actions, subjects⟩

theorem parseDims_eq_ok (headed : Headed (collatedHeader schema capacity rows.length) bytes)
    (long : batchHeaderLen ≤ bytes.length) (inhabited : rows ≠ [])
    (limit : rows.length ≤ capacity) (fits : capacity < 2 ^ 32) :
    parseDims bytes = .ok (dimsOfRust (collatedHeader schema capacity rows.length)) := by
  have pos := length_pos_iff.2 inhabited
  obtain ⟨nodes, edges, actions, subjects⟩ := positive_config schema
  have capacityFits : (UInt32.ofNat capacity).toNat = capacity := UInt32.toNat_ofNat_of_lt' fits
  have rowsFit : (UInt32.ofNat rows.length).toNat = rows.length :=
    UInt32.toNat_ofNat_of_lt' (Nat.lt_of_le_of_lt limit fits)
  have nonzero : ∀ value : UInt32, value ≠ 0 → ¬ value.toNat = 0 :=
    fun value different zero => different (UInt32.toNat_inj.1 zero)
  rw [parseDims_of_headed headed long]
  unfold validateDims dimsOfRust collatedHeader
  dsimp only
  rw [capacityFits, rowsFit, if_neg (by omega), if_neg (by omega),
    if_neg (nonzero _ nodes), if_neg (nonzero _ edges),
    if_neg (nonzero _ actions), if_neg (nonzero _ subjects)]
  rfl

end Collated

section Arrays

variable {layout : BatchLayout} {rows : List FeatureRow} {bytes : List UInt8}
  (shows : Shows layout rows bytes) (place : BatchSection)

include shows

theorem inside_of_shows {width} (wide : place.width = width) :
    layout.offset place + layout.b * layout.stride place * width ≤ bytes.length := by
  have inside := shows.inside place
  unfold Segment.ending BatchLayout.segment at inside
  rw [wide] at inside
  exact inside

theorem inside_single {width} (wide : place.width = width) (single : layout.stride place = 1) :
    layout.offset place + layout.b * width ≤ bytes.length := by
  have inside := inside_of_shows shows place wide
  rw [single, Nat.mul_one] at inside
  exact inside

theorem inside_single' (wide : place.width = 1) (single : layout.stride place = 1) :
    layout.offset place + layout.b ≤ bytes.length := by
  have inside := inside_single shows place wide single
  rw [Nat.mul_one] at inside
  exact inside

theorem inside_bytes (wide : place.width = 1) :
    layout.offset place + layout.b * layout.stride place ≤ bytes.length := by
  have inside := inside_of_shows shows place wide
  rw [Nat.mul_one] at inside
  exact inside

theorem inside_attrs (wide : place.width = 2) (attrs : layout.stride place = layout.n * layout.d) :
    layout.offset place + layout.b * layout.n * layout.d * 2 ≤ bytes.length := by
  have inside := inside_of_shows shows place wide
  rw [attrs, ← Nat.mul_assoc] at inside
  exact inside

theorem inside_subjects : layout.actionSubjects + layout.b * layout.a * layout.s * 4 ≤
      bytes.length := by
  have inside := inside_of_shows shows .actionSubjects rfl
  change layout.actionSubjects + layout.b * (layout.a * layout.s) * 4 ≤ bytes.length at inside
  rw [← Nat.mul_assoc] at inside
  exact inside

theorem inside_position (wide : place.width = 2) (four : layout.stride place = 4) :
    layout.offset place + layout.b * 8 ≤ bytes.length := by
  have inside := inside_of_shows shows place wide
  rw [four] at inside
  omega

omit shows in
theorem prod_two (first second : Nat) : [first, second].prod = first * second := by
  rw [prod_cons, prod_singleton]

omit shows in
theorem prod_three (first second third : Nat) :
    [first, second, third].prod = first * second * third := by
  rw [prod_cons, prod_two, Nat.mul_assoc]

omit shows in
theorem attrArray_of_read {offset values}
    (read : readBf16Vec bytes offset (layout.b * layout.n * layout.d) = .ok values)
    (inside : offset + layout.b * layout.n * layout.d * 2 ≤ bytes.length) :
    attrArray bytes layout offset = .ok (if layout.d ≠ 0 then
        some ⟨[layout.b, layout.n, layout.d], values⟩ else none) := by
  unfold attrArray
  split
  · rw [bf16Array_of_readBf16Vec read inside (prod_three ..)]
    rfl
  · rfl

end Arrays

section Agreement

variable {schema : FeatureSchema} {capacity : Nat} {rows : List FeatureRow} {bytes : List UInt8}

theorem parse_eq_ok (valid : ∀ row ∈ rows, ValidRow row schema)
    (shows : Shows (BatchLayout.new schema capacity) rows bytes)
    (headed : Headed (collatedHeader schema capacity rows.length) bytes)
    (length : bytes.length = (BatchLayout.new schema capacity).totalLen)
    (inhabited : rows ≠ []) (limit : rows.length ≤ capacity)
    (fits : capacity < 2 ^ 32) :
    BatchView.parse bytes = .ok (BatchView.ofRust
        (FeatureBatchView.showing schema capacity rows)) := by
  have long : batchHeaderLen ≤ bytes.length := by
    rw [length]
    exact BatchLayout.le_totalLen ..
  have few : ∀ row ∈ rows, ∀ action ∈ row.actions,
      action.subjects.length ≤ (BatchLayout.new schema capacity).s := by
    intro row member action inside
    obtain ⟨isLast, validAction⟩ := (valid row member).actions.of_mem inside
    exact validAction.subjectCount
  have dims := parseDims_eq_ok headed long inhabited limit fits
  have same : (dimsOfRust (collatedHeader schema capacity rows.length)).layout =
        BatchLayout.new schema capacity :=
    (layout_eq ..).trans (layout_collatedHeader fits)
  unfold BatchView.parse
  simp only [dims, ok_bind, same, length, ne_eq, not_true_eq_false, if_false,
    attrArray_of_read (readBf16Vec_nodeAttrs shows) (inside_attrs shows (.own .nodeAttrs) rfl rfl),
    attrArray_of_read (readBf16Vec_opponentNodeAttrs shows)
      (inside_attrs shows (.opponent .nodeAttrs) rfl rfl),
    array_of_readU32Vec (readU32Vec_nodeCount shows)
      (inside_single shows (.own .nodeCount) rfl rfl) prod_singleton,
    array_of_readU16Vec (readU16Vec_nodeTokens shows)
      (inside_of_shows shows (.own .nodeTokens) rfl) (prod_two ..),
    array_of_readU32Vec (readU32Vec_edgeCount shows)
      (inside_single shows (.own .edgeCount) rfl rfl) prod_singleton,
    array_of_readU32Vec (readU32Vec_edgeSrc shows)
      (inside_of_shows shows (.own .edgeSrc) rfl) (prod_two ..),
    array_of_readU32Vec (readU32Vec_edgeDst shows)
      (inside_of_shows shows (.own .edgeDst) rfl) (prod_two ..),
    array_of_readBytes (readBytes_edgeType shows)
      (inside_bytes shows (.own .edgeType) rfl) (prod_two ..),
    bf16Array_of_readPositionVec (readPositionVec_position shows)
      (inside_position shows (.own .position) rfl rfl),
    array_of_readU32Vec (readU32Vec_opponentNodeCount shows)
      (inside_single shows (.opponent .nodeCount) rfl rfl) prod_singleton,
    array_of_readU16Vec (readU16Vec_opponentNodeTokens shows)
      (inside_of_shows shows (.opponent .nodeTokens) rfl) (prod_two ..),
    array_of_readU32Vec (readU32Vec_opponentEdgeCount shows)
      (inside_single shows (.opponent .edgeCount) rfl rfl) prod_singleton,
    array_of_readU32Vec (readU32Vec_opponentEdgeSrc shows)
      (inside_of_shows shows (.opponent .edgeSrc) rfl) (prod_two ..),
    array_of_readU32Vec (readU32Vec_opponentEdgeDst shows)
      (inside_of_shows shows (.opponent .edgeDst) rfl) (prod_two ..),
    array_of_readBytes (readBytes_opponentEdgeType shows)
      (inside_bytes shows (.opponent .edgeType) rfl) (prod_two ..),
    bf16Array_of_readPositionVec (readPositionVec_opponentPosition shows)
      (inside_position shows (.opponent .position) rfl rfl),
    array_of_readU32Vec (readU32Vec_actionCount shows)
      (inside_single shows .actionCount rfl rfl) prod_singleton,
    array_of_readU16WidenedVec (readU16WidenedVec_actionKind shows valid)
      (inside_of_shows shows .actionKind rfl) (prod_two ..),
    bf16Array_of_readBf16Vec (readBf16Vec_actionPrior shows)
      (inside_of_shows shows .actionPrior rfl) (prod_two ..),
    array_of_readBytes (readBytes_subjectCount shows)
      (inside_bytes shows .subjectCount rfl) (prod_two ..),
    array_of_readU32Vec (readU32Vec_actionSubjects shows few)
      (inside_subjects shows) (prod_three ..),
    bf16Array_of_readBf16Vec (readBf16Vec_opponentReward shows)
      (inside_single shows .opponentReward rfl rfl) prod_singleton,
    array_of_readBytes (readBytes_opponentPresent shows)
      (inside_single' shows .opponentPresent rfl rfl) prod_singleton,
    array_of_readBytes (readBytes_opponentStatePresent shows)
      (inside_single' shows .opponentStatePresent rfl rfl) prod_singleton]
  have capacityFits : (UInt32.ofNat capacity).toNat = capacity := UInt32.toNat_ofNat_of_lt' fits
  unfold BatchView.ofRust dimsOfRust collatedHeader FeatureBatchView.showing
  rw [capacityFits, UInt16.toNat_toUInt32]
  rfl

theorem parse_ne_ok (headed : Headed (collatedHeader schema capacity rows.length) bytes)
    (length : bytes.length = (BatchLayout.new schema capacity).totalLen)
    (long : 2 ^ 32 ≤ capacity) (view : BatchView) :
    BatchView.parse bytes ≠ .ok view := by
  intro parsed
  have behind : batchHeaderLen ≤ bytes.length := by
    rw [length]
    exact BatchLayout.le_totalLen ..
  have cutOff : (UInt32.ofNat capacity).toNat < capacity :=
    Nat.lt_of_lt_of_le (UInt32.toNat_lt _) long
  have shorter := BatchLayout.totalLen_lt capacity
    schema.config.maxNodes.toNat schema.config.maxEdges.toNat
    schema.config.maxActions.toNat schema.config.maxSubjects.toNat
    schema.config.nodeAttrDim.toNat cutOff
  obtain ⟨dims, dimsParsed, parsed⟩ := ok_of_bind parsed
  rw [parseDims_of_headed headed behind, bind_eq_ok_iff] at dimsParsed
  obtain ⟨-, same⟩ := dimsParsed
  cases same
  obtain ⟨whole, -⟩ := throw_bind_else_eq_ok_iff.1 parsed
  refine whole fun equal => ?_
  rw [length] at equal
  change (BatchLayout.new schema capacity).totalLen =
    (BatchLayout.fromDims (UInt32.ofNat capacity).toNat
      schema.config.maxNodes.toNat schema.config.maxEdges.toNat
      schema.config.maxActions.toNat schema.config.maxSubjects.toNat
      schema.config.nodeAttrDim.toUInt32.toNat).totalLen at equal
  exact absurd equal (Nat.ne_of_gt shorter)

/-- Python accepts the batch and reads the rows that were collated, and lays
out the sections in the same way. -/
structure ReadsAlike (schema : FeatureSchema) (capacity : Nat)
    (rows : List FeatureRow) (bytes : List UInt8) : Prop where
  layout : Python.layout capacity schema.config.maxNodes.toNat
    schema.config.maxEdges.toNat schema.config.maxActions.toNat
    schema.config.maxSubjects.toNat schema.config.nodeAttrDim.toNat =
      BatchLayout.new schema capacity
  rust : FeatureBatchView.parse bytes = .ok (FeatureBatchView.showing schema capacity rows)
  python : BatchView.parse bytes =
    .ok (BatchView.ofRust (FeatureBatchView.showing schema capacity rows))

theorem capacity_lt_of_readsAlike (collated : collate schema capacity rows = .ok bytes)
    (alike : ReadsAlike schema capacity rows bytes) : capacity < 2 ^ 32 := by
  obtain ⟨inhabited, limit, valid, short⟩ := accepted_of_collate_eq_ok collated
  obtain ⟨written, success, length, headed, -⟩ := collate_eq_ok valid inhabited limit short
  cases collated.symm.trans success
  exact Nat.lt_of_not_le fun long =>
    parse_ne_ok headed length long _ alike.python

/-- A collated batch is read alike exactly if its capacity is a 32 bit
number. -/
theorem readsAlike_iff (collated : collate schema capacity rows = .ok bytes) :
    ReadsAlike schema capacity rows bytes ↔ capacity < 2 ^ 32 := by
  constructor
  · exact capacity_lt_of_readsAlike collated
  intro fits
  obtain ⟨inhabited, limit, valid, short⟩ := accepted_of_collate_eq_ok collated
  obtain ⟨written, success, length, headed, cells⟩ := collate_eq_ok valid inhabited limit short
  cases collated.symm.trans success
  have shows := shows_of_collated length cells
  exact ⟨layout_eq .., Features.parse_eq_ok valid shows headed length inhabited limit fits,
    parse_eq_ok valid shows headed length inhabited limit fits⟩

/-- A batch for two rows, with one row. -/
theorem readsAlike_of_small_batch :
    ∃ bytes, collate Sample.schema 2 [Sample.row .zero] = .ok bytes ∧
      ReadsAlike Sample.schema 2 [Sample.row .zero] bytes := by
  have accepted : ∀ row ∈ [Sample.row .zero],
      row.validate Sample.schema = .ok () := by
    decide +kernel
  have short : (BatchLayout.new Sample.schema 2).totalLen < 2 ^ 63 := by
    decide +kernel
  obtain ⟨bytes, collated, -⟩ := collate_eq_ok
    (fun row member => validate_iff.1 (accepted row member)) (by decide)
    (by decide : [Sample.row .zero].length ≤ 2) short
  exact ⟨bytes, collated, (readsAlike_iff collated).2 (by decide)⟩

/-- The header cannot hold a capacity of `2 ^ 32`, and what it holds instead
is refused. -/
theorem cut_off_capacity_is_refused :
    ¬ ∀ (schema : FeatureSchema) (capacity : Nat) (rows : List FeatureRow)
      (bytes : List UInt8), collate schema capacity rows = .ok bytes →
        ReadsAlike schema capacity rows bytes := by
  intro all
  have accepted : ∀ row ∈ [Sample.row .zero],
      row.validate Sample.schema = .ok () := by
    decide +kernel
  have short : (BatchLayout.new Sample.schema (2 ^ 32)).totalLen < 2 ^ 63 := by
    decide +kernel
  have limit : [Sample.row .zero].length ≤ 2 ^ 32 := by decide
  obtain ⟨bytes, collated, -⟩ := collate_eq_ok
    (fun row member => validate_iff.1 (accepted row member)) (by decide)
    limit short
  have small := capacity_lt_of_readsAlike collated (all _ _ _ _ collated)
  exact absurd small (by decide)

end Agreement

end GraphZero.Features.Python
