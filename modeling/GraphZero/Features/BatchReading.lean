import GraphZero.Features.CollatedCells

/-!
# Reading the cells of a batch

What the header and the sections of a batch are read as, given what its cells
hold.
-/

namespace GraphZero.Features

open Foundation List

/-! ## Numbers of a cell -/

def u16Of (bytes : List UInt8) : UInt16 := UInt16.ofNat (ofLeBytes bytes)

def u32Of (bytes : List UInt8) : UInt32 := UInt32.ofNat (ofLeBytes bytes)

def bf16Of (bytes : List UInt8) : F32 := bf16BitsToF32 (u16Of bytes)

def widenedOf (bytes : List UInt8) : UInt32 := (u16Of bytes).toUInt32

def u8Of (bytes : List UInt8) : UInt8 := bytes.headD 0

section Numbers

@[simp]
theorem u16Of_u16Bytes (value : UInt16) : u16Of (u16Bytes value) = value := by
  have fits : value.toNat < 256 ^ 2 := value.toNat_lt
  unfold u16Of u16Bytes
  rw [ofLeBytes_toLeBytes fits, UInt16.ofNat_toNat]

@[simp]
theorem u32Of_u32Bytes (value : UInt32) : u32Of (u32Bytes value) = value := by
  have fits : value.toNat < 256 ^ 4 := value.toNat_lt
  unfold u32Of u32Bytes
  rw [ofLeBytes_toLeBytes fits, UInt32.ofNat_toNat]

@[simp]
theorem bf16Of_bf16Bytes (value : F32) : bf16Of (bf16Bytes value) = value.rounded := by
  unfold bf16Of bf16Bytes
  rw [u16Of_u16Bytes, F32.rounded]

@[simp]
theorem u8Of_u8Bytes (value : UInt8) : u8Of (u8Bytes value) = value :=
  rfl

@[simp]
theorem u32Of_lenBytes (length : Nat) : u32Of (lenBytes length) = UInt32.ofNat length :=
  u32Of_u32Bytes _

@[simp]
theorem u8Of_boolBytes (value : Bool) : u8Of (boolBytes value) = if value then 1 else 0 :=
  rfl

theorem bf16Of_blank : bf16Of (List.replicate 2 0) = .zero := by
  decide

end Numbers

section Reading

variable {bytes : List UInt8} {offset : Nat}

theorem readU16At_eq (inside : offset + 2 ≤ bytes.length) :
    readU16At bytes offset = .ok (u16Of (slice bytes offset 2)) := by
  unfold readU16At readNumberAt
  rw [if_pos inside]
  rfl

theorem readU32At_eq (inside : offset + 4 ≤ bytes.length) :
    readU32At bytes offset = .ok (u32Of (slice bytes offset 4)) := by
  unfold readU32At readNumberAt
  rw [if_pos inside]
  rfl

theorem readBf16At_eq (inside : offset + 2 ≤ bytes.length) :
    readBf16At bytes offset = .ok (bf16Of (slice bytes offset 2)) := by
  unfold readBf16At readNumberAt
  rw [if_pos inside]
  rfl

theorem readVec_eq {α : Type} {read width count} {value : Nat → α}
    (each : ∀ place < count, read (offset + place * width) = .ok (value place)) :
    readVec read offset width count = .ok ((List.range count).map value) := by
  unfold readVec
  rw [mapM_eq_ok fun place member => each place (mem_range.1 member)]
  rfl

end Reading

section Header

variable {bytes : List UInt8} {header : BatchHeader}

theorem readU32At_of_headed (headed : Headed header bytes) (long : batchHeaderLen ≤ bytes.length)
    (field : HeaderField) {value} (holds : header.fieldBytes field = u32Bytes value)
    (wide : field.segment.width = 4) :
    readU32At bytes field.segment.offset = .ok value := by
  have ends := HeaderField.laidOut_segment.ends field
  have inside : field.segment.offset + 4 ≤ bytes.length := by
    have count : field.segment.count = 1 := by cases field <;> rfl
    unfold Segment.ending at ends
    rw [count, wide] at ends
    omega
  have own := headed field
  rw [wide, holds] at own
  rw [readU32At_eq inside, own, u32Of_u32Bytes]

theorem parse_of_headed (headed : Headed header bytes) (long : batchHeaderLen ≤ bytes.length) :
    BatchHeader.parse bytes = if header.batchCapacity = 0 then
        .error (.invalidEncoding "zero batch capacity")
      else if header.batchCapacity < header.rowCount then
        .error (.invalidEncoding "row count exceeds capacity")
      else
        .ok header := by
  have magic : slice bytes 0 4 = batchMagic := headed .magic
  have version : readU32At bytes 4 = .ok (UInt32.ofNat batchEncodingVersion) :=
    readU32At_of_headed headed long .version rfl rfl
  have schemaHash : readHashAt bytes 8 = .ok header.schemaHash := by
    have own : slice bytes 8 32 = header.schemaHash.bytes := headed .schemaHash
    unfold readHashAt
    rw [dif_pos (own ▸ header.schemaHash.length_eq)]
    congr 1
    exact FeatureSchemaHash.mk.injEq .. ▸ own
  have capacity : readU32At bytes 40 = .ok header.batchCapacity :=
    readU32At_of_headed headed long .batchCapacity rfl rfl
  have rowCount : readU32At bytes 44 = .ok header.rowCount :=
    readU32At_of_headed headed long .rowCount rfl rfl
  have maxNodes : readU32At bytes 48 = .ok header.maxNodes :=
    readU32At_of_headed headed long .maxNodes rfl rfl
  have maxEdges : readU32At bytes 52 = .ok header.maxEdges :=
    readU32At_of_headed headed long .maxEdges rfl rfl
  have maxActions : readU32At bytes 56 = .ok header.maxActions :=
    readU32At_of_headed headed long .maxActions rfl rfl
  have maxSubjects : readU32At bytes 60 = .ok header.maxSubjects :=
    readU32At_of_headed headed long .maxSubjects rfl rfl
  have nodeAttrDim : readU32At bytes 64 = .ok header.nodeAttrDim :=
    readU32At_of_headed headed long .nodeAttrDim rfl rfl
  unfold BatchHeader.parse
  simp only [if_neg (Nat.not_lt.2 long), if_neg (not_not_intro magic),
    version, schemaHash, capacity, rowCount, maxNodes, maxEdges, maxActions,
    maxSubjects, nodeAttrDim, ok_bind]
  by_cases zero : header.batchCapacity = 0
  · rfl
  · by_cases overfull : header.batchCapacity < header.rowCount
    · rfl
    · rfl

end Header

/-! ## The sections -/

section Values

variable {α : Type} (rows : List FeatureRow) (capacity : Nat)

def perRow (blank : α) (value : FeatureRow → α) : List α :=
  (List.range capacity).map fun place =>
    (rows[place]?.map value).getD blank

/-- So many values of each row, as far as the row has them. -/
def spread (stride : Nat) (blank : α) (value : FeatureRow → Nat → Option α) : List α :=
  (List.range (capacity * stride)).map fun place =>
    (rows[place / stride]?.bind fun row =>
      value row (place % stride)).getD blank

end Values

def blankValues : PositionValues := (.zero, .zero, .zero, .zero)

/-- The cells of the batch hold what the rows have. -/
structure Shows (layout : BatchLayout) (rows : List FeatureRow) (bytes : List UInt8) : Prop where
  inside : ∀ place, (layout.segment place).ending ≤ bytes.length
  cells : ∀ place cell, cell < (layout.segment place).count →
    slice bytes ((layout.segment place).cellAt cell) place.width = cellAt layout rows place cell

section Sections

variable {layout : BatchLayout} {rows : List FeatureRow} {bytes : List UInt8} {α : Type}

theorem lastWritten_numbered {β : Type} (items : List β) (cell : Nat) :
    lastWritten (numbered items) cell = items[cell]? := by
  have own : lastWritten (items.zipIdx.map fun item => (item.2, id item.1))
      (0 + cell) = items[cell]?.map id := lastWritten_zipIdx 0 cell
  rw [Nat.zero_add, Option.map_id_fun, id] at own
  exact own

theorem Shows.cell_inside (shows : Shows layout rows bytes) (place : BatchSection) {cell}
    (counted : cell < (layout.segment place).count) :
    (layout.segment place).cellAt cell + place.width ≤ bytes.length :=
  Nat.le_trans (Segment.cellAt_le_ending counted).2 (shows.inside place)

theorem Shows.slice_eq (shows : Shows layout rows bytes) (place : BatchSection) {width cell}
    (wide : place.width = width) (counted : cell < layout.b * layout.stride place) :
    layout.offset place + cell * width + width ≤ bytes.length ∧
      slice bytes (layout.offset place + cell * width) width = cellAt layout rows place cell := by
  subst wide
  exact ⟨shows.cell_inside place counted, shows.cells place cell counted⟩

theorem map_cellAt_eq {place decode} {blank : α} {value}
    (padding : decode (List.replicate place.width place.padding) = blank)
    (each : ∀ row ∈ rows, ∀ column < layout.stride place,
      (lastWritten (row.cells layout.s place) column).map decode = value row column) :
    (List.range (layout.b * layout.stride place)).map
        (fun cell => decode (cellAt layout rows place cell)) =
      spread rows layout.b (layout.stride place) blank value := by
  refine map_congr_left fun cell member => ?_
  have inside := mem_range.1 member
  have pos : 0 < layout.stride place := by
    refine Nat.pos_of_ne_zero fun none => ?_
    rw [none, Nat.mul_zero] at inside
    exact Nat.not_lt_zero _ inside
  unfold cellAt
  cases found : rows[cell / layout.stride place]? with
  | none => exact padding
  | some row =>
    have own := each row (mem_of_getElem? found) _ (Nat.mod_lt cell pos)
    rw [Option.bind_some, Option.bind_some, ← own, ← padding]
    cases lastWritten (row.cells layout.s place) (cell % layout.stride place) <;> rfl

theorem map_cellAt_eq_perRow {place} {decode : List UInt8 → α} {blank value}
    (single : layout.stride place = 1)
    (padding : decode (List.replicate place.width place.padding) = blank)
    (each : ∀ row ∈ rows, decode ((lastWritten (row.cells layout.s place) 0).getD
        (List.replicate place.width place.padding)) = value row) :
    (List.range layout.b).map (fun cell => decode (cellAt layout rows place cell)) =
      perRow rows layout.b blank value := by
  refine map_congr_left fun cell _ => ?_
  unfold cellAt
  rw [single, Nat.div_one, Nat.mod_one]
  cases found : rows[cell]? with
  | none => exact padding
  | some row => exact each row (mem_of_getElem? found)

variable (shows : Shows layout rows bytes) (place : BatchSection)

include shows in
theorem readU16Vec_of_shows (wide : place.width = 2) : readU16Vec bytes (layout.offset place)
        (layout.b * layout.stride place) =
      .ok ((List.range (layout.b * layout.stride place)).map fun cell =>
        u16Of (cellAt layout rows place cell)) := by
  refine readVec_eq fun cell inside => ?_
  obtain ⟨room, own⟩ := shows.slice_eq place wide inside
  rw [readU16At_eq room, own]

include shows in
theorem readU16WidenedVec_of_shows (wide : place.width = 2) :
    readU16WidenedVec bytes (layout.offset place) (layout.b * layout.stride place) =
      .ok ((List.range (layout.b * layout.stride place)).map fun cell =>
        widenedOf (cellAt layout rows place cell)) := by
  refine readVec_eq fun cell inside => ?_
  obtain ⟨room, own⟩ := shows.slice_eq place wide inside
  rw [readU16At_eq room, own]
  rfl

include shows in
theorem readU32Vec_of_shows (wide : place.width = 4) : readU32Vec bytes (layout.offset place)
        (layout.b * layout.stride place) =
      .ok ((List.range (layout.b * layout.stride place)).map fun cell =>
        u32Of (cellAt layout rows place cell)) := by
  refine readVec_eq fun cell inside => ?_
  obtain ⟨room, own⟩ := shows.slice_eq place wide inside
  rw [readU32At_eq room, own]

include shows in
theorem readU32Vec_single (wide : place.width = 4) (single : layout.stride place = 1) :
    readU32Vec bytes (layout.offset place) layout.b = .ok ((List.range layout.b).map fun cell =>
        u32Of (cellAt layout rows place cell)) := by
  have read := readU32Vec_of_shows shows place wide
  rw [single, Nat.mul_one] at read
  exact read

include shows in
theorem readBf16At_of_shows (wide : place.width = 2) {cell}
    (inside : cell < layout.b * layout.stride place) :
    readBf16At bytes (layout.offset place + cell * 2) =
      .ok (bf16Of (cellAt layout rows place cell)) := by
  obtain ⟨room, own⟩ := shows.slice_eq place wide inside
  rw [readBf16At_eq room, own]

include shows in
theorem readBf16Vec_of_shows (wide : place.width = 2) : readBf16Vec bytes (layout.offset place)
        (layout.b * layout.stride place) =
      .ok ((List.range (layout.b * layout.stride place)).map fun cell =>
        bf16Of (cellAt layout rows place cell)) :=
  readVec_eq fun _ inside => readBf16At_of_shows shows place wide inside

include shows in
theorem readBytes_of_shows (wide : place.width = 1) : readBytes bytes (layout.offset place)
        (layout.b * layout.stride place) =
      .ok ((List.range (layout.b * layout.stride place)).map fun cell =>
        u8Of (cellAt layout rows place cell)) := by
  have ends := shows.inside place
  unfold Segment.ending BatchLayout.segment at ends
  rw [wide, Nat.mul_one] at ends
  unfold readBytes
  rw [if_pos ends]
  congr 1
  refine ext_getElem? fun cell => ?_
  rw [getElem?_slice, getElem?_map]
  by_cases inside : cell < layout.b * layout.stride place
  · have own := shows.cells place cell inside
    have room : layout.offset place + cell < bytes.length := by
      dsimp only at ends
      omega
    have first : (cellAt layout rows place cell)[0]? = some bytes[layout.offset place + cell] := by
      rw [← own, getElem?_slice, wide, if_pos Nat.one_pos]
      unfold Segment.cellAt BatchLayout.segment
      rw [wide, Nat.mul_one, Nat.add_zero]
      exact getElem?_eq_getElem room
    rw [if_pos inside, getElem?_range inside, Option.map_some, u8Of,
      headD_eq_head?_getD, head?_eq_getElem?, first]
    exact getElem?_eq_getElem room
  · have beyond : (List.range (layout.b * layout.stride place))[cell]? = none :=
      getElem?_eq_none (by rw [length_range]; omega)
    rw [if_neg inside, beyond]
    rfl

include shows in
theorem readBytes_single (wide : place.width = 1) (single : layout.stride place = 1) :
    readBytes bytes (layout.offset place) layout.b = .ok ((List.range layout.b).map fun cell =>
        u8Of (cellAt layout rows place cell)) := by
  have read := readBytes_of_shows shows place wide
  rw [single, Nat.mul_one] at read
  exact read

include shows in
theorem readBf16Vec_single (wide : place.width = 2) (single : layout.stride place = 1) :
    readBf16Vec bytes (layout.offset place) layout.b = .ok ((List.range layout.b).map fun cell =>
        bf16Of (cellAt layout rows place cell)) := by
  have read := readBf16Vec_of_shows shows place wide
  rw [single, Nat.mul_one] at read
  exact read

def scalarOf (layout : BatchLayout) (place : BatchSection)
    (row : FeatureRow) (column : Nat) : F32 :=
  bf16Of ((lastWritten (row.cells layout.s place) column).getD
    (List.replicate place.width place.padding))

theorem bf16Of_cellAt {place} (wide : place.width = 2) (blank : place.padding = 0)
    (four : layout.stride place = 4) (row column : Nat) (narrow : column < 4) :
    bf16Of (cellAt layout rows place (row * 4 + column)) =
      (rows[row]?.map fun item => scalarOf layout place item column).getD .zero := by
  have quotient : (row * 4 + column) / 4 = row := by omega
  have remainder : (row * 4 + column) % 4 = column := by omega
  unfold cellAt scalarOf
  rw [four, quotient, remainder]
  cases rows[row]? with
  | none =>
    rw [wide, blank]
    exact bf16Of_blank
  | some item => rfl

include shows in
theorem readPositionVec_of_shows (wide : place.width = 2) (blank : place.padding = 0)
    (four : layout.stride place = 4) {value}
    (each : ∀ row ∈ rows, (scalarOf layout place row 0, scalarOf layout place row 1,
        scalarOf layout place row 2, scalarOf layout place row 3) = value row) :
    readPositionVec bytes (layout.offset place) layout.b =
      .ok (perRow rows layout.b blankValues value) := by
  refine readVec_eq fun row inside => ?_
  have scalar : ∀ column < 4, readBf16At bytes (layout.offset place + row * 8 + column * 2) =
        .ok ((rows[row]?.map fun item =>
          scalarOf layout place item column).getD .zero) := by
    intro column narrow
    have counted : row * 4 + column < layout.b * layout.stride place := by
      rw [four]
      omega
    have start : layout.offset place + row * 8 + column * 2 =
        layout.offset place + (row * 4 + column) * 2 := by
      omega
    rw [start, readBf16At_of_shows shows place wide counted,
      bf16Of_cellAt wide blank four row column narrow]
  have rootStep : readBf16At bytes (layout.offset place + row * 8) = .ok _ := scalar 0 (by decide)
  have leafDepth : readBf16At bytes (layout.offset place + row * 8 + 2) =
      .ok _ := scalar 1 (by decide)
  have budgetFraction : readBf16At bytes (layout.offset place + row * 8 + 4) = .ok _ :=
    scalar 2 (by decide)
  have budgetStep : readBf16At bytes (layout.offset place + row * 8 + 6) =
      .ok _ := scalar 3 (by decide)
  unfold readPositionAt
  rw [rootStep, ok_bind, leafDepth, ok_bind, budgetFraction, ok_bind, budgetStep, ok_bind]
  cases found : rows[row]? with
  | none => rfl
  | some item => exact congrArg Except.ok (each item (mem_of_getElem? found))

end Sections

end GraphZero.Features
