import GraphZero.Features.BatchLayout

/-!
# Batches of any bytes

The offsets of a batch are computed in machine words from whatever dimensions
its header has.  As long as no word overflows, no read leaves the bytes.
-/

namespace GraphZero.Features

open Foundation List

/-! ## Machine words -/

/-- A result that does not fit a word is an overflow: it panics, or wraps where
overflows are not checked. -/
def word (value : Nat) : BatchResult Nat :=
  if value < 2 ^ 64 then .ok value else .error .panicked

/-- The factors multiplied one after the other. -/
def wordProduct (first : Nat) (rest : List Nat) : BatchResult Nat :=
  rest.foldlM (fun product factor => word (product * factor)) first

def wordAlign4 (value : Nat) : BatchResult Nat := do
  let raised ← word (value + 3)
  pure (raised / 4 * 4)

/-- Places a section of a length behind the cursor. -/
def wordSection (length : BatchResult Nat) (cursor : Nat) : BatchResult Nat := do
  let length ← length
  let offset ← wordAlign4 cursor
  word (offset + length)

/-- The end of the sections, rounded up. -/
def wordSections (lengths : List (BatchResult Nat)) (cursor : Nat) : BatchResult Nat := do
  let last ← lengths.foldlM (fun cursor length => wordSection length cursor) cursor
  wordAlign4 last

/-- The same sections, of lengths that may be too large for a word. -/
def SectionsFit (lengths : List Nat) (cursor : Nat) : Prop :=
  segmentsEnd cursor lengths + 3 < 2 ^ 64

instance (lengths : List Nat) (cursor : Nat) : Decidable (SectionsFit lengths cursor) :=
  inferInstanceAs (Decidable (_ < _))

section Words

variable {value : Nat}

theorem word_of_lt (fits : value < 2 ^ 64) : word value = .ok value :=
  if_pos fits

theorem word_of_le (large : 2 ^ 64 ≤ value) : word value = .error .panicked :=
  if_neg (Nat.not_lt.mpr large)

theorem word_bind_mul {factor} (pos : 0 < factor) :
    (word value >>= fun product => word (product * factor)) = word (value * factor) := by
  by_cases fits : value < 2 ^ 64
  · rw [word_of_lt fits]
    rfl
  · have large := Nat.not_lt.mp fits
    rw [word_of_le large, word_of_le (large.trans (Nat.le_mul_of_pos_right value pos))]
    rfl

theorem wordSections_eq (lengths : List Nat) (cursor : Nat) :
    wordSections (lengths.map word) cursor = if SectionsFit lengths cursor then
        .ok (align4 (segmentsEnd cursor lengths))
      else .error .panicked := by
  induction lengths generalizing cursor with
  | nil =>
    change wordAlign4 cursor = _
    change (word (segmentsEnd cursor [] + 3) >>= _) = _
    by_cases fits : SectionsFit [] cursor
    · rw [word_of_lt fits, if_pos fits]
      rfl
    · rw [word_of_le (Nat.not_lt.mp fits), if_neg fits]
      rfl
  | cons length lengths ih =>
    have placed : wordSections ((length :: lengths).map word) cursor =
        (wordSection (word length) cursor >>= wordSections (lengths.map word)) := by
      unfold wordSections
      rw [map_cons, foldlM_cons]
      cases wordSection (word length) cursor <;> rfl
    have below : cursor ≤ segmentsEnd (align4 cursor + length) lengths := (le_align4 cursor).trans
        ((Nat.le_add_right _ _).trans le_segmentsEnd)
    have within : align4 cursor + length ≤
        segmentsEnd (align4 cursor + length) lengths := le_segmentsEnd
    rw [placed]
    by_cases fits : align4 cursor + length < 2 ^ 64 ∧ cursor + 3 < 2 ^ 64
    · have step : wordSection (word length) cursor = .ok (align4 cursor + length) := by
        unfold wordSection wordAlign4
        rw [word_of_lt (by omega : length < 2 ^ 64), word_of_lt fits.2]
        exact word_of_lt fits.1
      rw [step]
      exact ih _
    · have large : ¬ SectionsFit (length :: lengths) cursor := by
        change ¬ segmentsEnd (align4 cursor + length) lengths + 3 < 2 ^ 64
        omega
      rw [if_neg large]
      have step : wordSection (word length) cursor = .error .panicked := by
        unfold wordSection wordAlign4
        by_cases small : length < 2 ^ 64
        · rw [word_of_lt small]
          by_cases aligned : cursor + 3 < 2 ^ 64
          · rw [word_of_lt aligned]
            exact word_of_le (Nat.not_lt.mp fun sum => fits ⟨sum, aligned⟩)
          · rw [word_of_le (Nat.not_lt.mp aligned)]
            rfl
        · rw [word_of_le (Nat.not_lt.mp small)]
          rfl
      rw [step]
      rfl

end Words

namespace BatchLayout

section Dims

variable (b n e a s d : Nat)

/-- The lengths of the sections, multiplied as the source does. -/
def wordLengths : List (BatchResult Nat) :=
  [wordProduct b [4], wordProduct b [n, 2], wordProduct b [n, d, 2],
    wordProduct b [4], wordProduct b [e, 4], wordProduct b [e, 4],
    wordProduct b [e], wordProduct b [4], wordProduct b [a, 2],
    wordProduct b [a, 2], wordProduct b [a], wordProduct b [a, s, 4],
    wordProduct b [4, 2], wordProduct b [2], wordProduct b [],
    wordProduct b [], wordProduct b [12], wordProduct b [4],
    wordProduct b [n, 2], wordProduct b [n, d, 2], wordProduct b [4],
    wordProduct b [e, 4], wordProduct b [e, 4], wordProduct b [e],
    wordProduct b [4, 2]]

def fromDimsWords : BatchResult BatchLayout := do
  let _ ← wordSections (wordLengths b n e a s d) batchHeaderLen
  pure (fromDims b n e a s d)

end Dims

variable {b n e a s d : Nat}

theorem word_mul_of_lt {first second} (left : first < 2 ^ 32) (right : second < 2 ^ 32) :
    first * second < 2 ^ 64 := by
  have less := Nat.mul_lt_mul'' left right
  exact less.trans_eq (by norm_num)

theorem wordLengths_eq (capacity : b < 2 ^ 32) (nodes : n < 2 ^ 32) (actions : a < 2 ^ 32) :
    wordLengths b n e a s d = (lengths b n e a s d).map word := by
  have single (value : Nat) (fits : value < 2 ^ 64) :
      wordProduct value [] = word value := (word_of_lt fits).symm
  have pair (first second : Nat) : wordProduct first [second] = word (first * second) := by
    unfold wordProduct
    rw [foldlM_cons]
    cases word (first * second) <;> rfl
  have triple (first second : Nat) {third : Nat} (pos : 0 < third) :
      wordProduct first [second, third] = word (first * second * third) := by
    rw [← word_bind_mul pos]
    unfold wordProduct
    rw [foldlM_cons]
    congr 1
    funext product
    rw [foldlM_cons]
    cases word (product * third) <;> rfl
  have four (first second third : Nat) {fourth : Nat}
      (pos : 0 < fourth) (fits : first * second < 2 ^ 64) :
      wordProduct first [second, third, fourth] = word (first * second * third * fourth) := by
    rw [← word_bind_mul pos]
    unfold wordProduct
    rw [foldlM_cons, word_of_lt fits]
    change (word (first * second * third) >>= _) = _
    congr 1
    funext product
    rw [foldlM_cons]
    cases word (product * fourth) <;> rfl
  have nodesFit := word_mul_of_lt capacity nodes
  have actionsFit := word_mul_of_lt capacity actions
  unfold wordLengths lengths
  simp only [map_cons, map_nil, pair, single b (capacity.trans (by norm_num)),
    triple _ _ (by norm_num : 0 < 2), triple _ _ (by norm_num : 0 < 4),
    four _ _ _ (by norm_num : 0 < 2) nodesFit,
    four _ _ _ (by norm_num : 0 < 4) actionsFit]

end BatchLayout

/-- The offsets that the dimensions of a header give fit machine words. -/
def BatchHeader.Fits (header : BatchHeader) : Prop :=
  SectionsFit (BatchLayout.lengths header.batchCapacity.toNat
    header.maxNodes.toNat header.maxEdges.toNat header.maxActions.toNat
    header.maxSubjects.toNat header.nodeAttrDim.toNat) batchHeaderLen

def BatchHeader.layoutWords (header : BatchHeader) : BatchResult BatchLayout :=
  BatchLayout.fromDimsWords header.batchCapacity.toNat header.maxNodes.toNat
    header.maxEdges.toNat header.maxActions.toNat header.maxSubjects.toNat
    header.nodeAttrDim.toNat

section Headers

variable {header : BatchHeader}

theorem BatchHeader.layoutWords_of_fits (fits : header.Fits) :
    header.layoutWords = .ok header.layout := by
  unfold layoutWords BatchLayout.fromDimsWords
  rw [BatchLayout.wordLengths_eq header.batchCapacity.toNat_lt
    header.maxNodes.toNat_lt header.maxActions.toNat_lt, wordSections_eq]
  unfold Fits at fits
  rw [if_pos fits]
  rfl

theorem BatchHeader.layoutWords_of_not_fits (large : ¬ header.Fits) :
    header.layoutWords = .error .panicked := by
  unfold layoutWords BatchLayout.fromDimsWords
  rw [BatchLayout.wordLengths_eq header.batchCapacity.toNat_lt
    header.maxNodes.toNat_lt header.maxActions.toNat_lt, wordSections_eq]
  unfold Fits at large
  rw [if_neg large]
  rfl

end Headers

/-! ## Parsing -/

/-- Parsing with offsets in machine words.  Behind the check of the length the
offsets are those inside the bytes. -/
def FeatureBatchView.parseWords (bytes : List UInt8) : BatchResult FeatureBatchView := do
  let header ← checked (BatchHeader.parse bytes)
  let _ ← header.layoutWords
  FeatureBatchView.parse bytes

def validateBatchActionCounts (bytes : List UInt8) (expected : List UInt32) : BatchResult Unit := do
  let header ← checked (BatchHeader.parse bytes)
  if expected.length ≠ header.rowCount.toNat then
    throw (.error (.invalidEncoding "action count length mismatch"))
  let layout ← header.layoutWords
  if bytes.length ≠ layout.totalLen then
    throw (.error (.invalidEncoding "bad batch length"))
  checked (expected.zipIdx.forM fun (expected, rowIndex) => do
    if header.maxActions < expected then
      throw (.actionOverflow header.maxActions expected.toNat)
    let actual ← readU32At bytes (layout.actionCount + rowIndex * 4)
    if actual ≠ expected then
      throw (.invalidEncoding "action count mismatch"))

theorem checked_ne_panicked {α : Type} (result : FeatureResult α) :
    checked result ≠ .error .panicked := by
  cases result <;> exact nofun

/-- A computation that returns a value. -/
def Succeeds {α : Type} (result : BatchResult α) : Prop :=
  ∃ value, result = .ok value

theorem Succeeds.bind {α β : Type} {first} {next : α → BatchResult β} (head : Succeeds first)
    (tail : ∀ value, Succeeds (next value)) : Succeeds (first >>= next) := by
  obtain ⟨value, done⟩ := head
  rw [done]
  exact tail value

section Sections

variable {bytes : List UInt8} {layout : BatchLayout} {place : BatchSection}

theorem readNumberAt_eq {message width offset} (inside : offset + width ≤ bytes.length) :
    readNumberAt message width bytes offset = .ok (ofLeBytes (slice bytes offset width)) :=
  if_pos inside

theorem succeeds_readVec {α : Type} {read : Nat → FeatureResult α} {offset width count}
    (each : ∀ index < count, ∃ value, read (offset + index * width) = .ok value) :
    Succeeds (readVec read offset width count) := by
  have all : ∀ index ∈ List.range count, ∃ value,
      read (offset + index * width) = .ok value ∧ True :=
    fun index member => (each index (mem_range.mp member)).imp fun _ done => ⟨done, trivial⟩
  obtain ⟨values, done, _⟩ := exists_mapM_eq_ok all
  unfold readVec
  rw [done]
  exact ⟨values, rfl⟩

def Inside (layout : BatchLayout) (place : BatchSection) (bytes : List UInt8) : Prop :=
  (layout.segment place).ending ≤ bytes.length

theorem Inside.cell (inside : Inside layout place bytes) {index}
    (counted : index < layout.b * layout.stride place) :
    layout.offset place + index * place.width + place.width ≤ bytes.length :=
  (Segment.cellAt_le_ending counted).2.trans inside

variable {count : Nat}

theorem Inside.readU32Vec (inside : Inside layout place bytes) (wide : place.width = 4)
    (counted : layout.b * layout.stride place = count) :
    Succeeds (readU32Vec bytes (layout.offset place) count) := by
  refine succeeds_readVec fun index less => ?_
  have cell := inside.cell (counted ▸ less)
  rw [wide] at cell
  unfold readU32At
  rw [readNumberAt_eq cell]
  exact ⟨_, rfl⟩

section

variable (inside : Inside layout place bytes) (wide : place.width = 2)
  (counted : layout.b * layout.stride place = count)
include inside wide counted

theorem Inside.readU16Vec : Succeeds (readU16Vec bytes (layout.offset place) count) := by
  refine succeeds_readVec fun index less => ?_
  have cell := inside.cell (counted ▸ less)
  rw [wide] at cell
  unfold readU16At
  rw [readNumberAt_eq cell]
  exact ⟨_, rfl⟩

theorem Inside.readU16WidenedVec :
    Succeeds (readU16WidenedVec bytes (layout.offset place) count) := by
  refine succeeds_readVec fun index less => ?_
  have cell := inside.cell (counted ▸ less)
  rw [wide] at cell
  unfold readU16At
  rw [readNumberAt_eq cell]
  exact ⟨_, rfl⟩

end

theorem exists_readBf16At {offset} (inside : offset + 2 ≤ bytes.length) :
    ∃ value, readBf16At bytes offset = .ok value := by
  unfold readBf16At
  rw [readNumberAt_eq inside]
  exact ⟨_, rfl⟩

theorem Inside.readBf16Vec (inside : Inside layout place bytes) (wide : place.width = 2)
    (counted : layout.b * layout.stride place = count) :
    Succeeds (readBf16Vec bytes (layout.offset place) count) := by
  refine succeeds_readVec fun index less => exists_readBf16At ?_
  have cell := inside.cell (counted ▸ less)
  rwa [wide] at cell

theorem Inside.readBytes (inside : Inside layout place bytes) (wide : place.width = 1)
    (counted : layout.b * layout.stride place = count) :
    Succeeds (readBytes bytes (layout.offset place) count) := by
  have whole : layout.offset place + count ≤ bytes.length := by
    unfold Inside Segment.ending BatchLayout.segment at inside
    rw [wide, counted, Nat.mul_one] at inside
    exact inside
  unfold Features.readBytes
  rw [if_pos whole]
  exact ⟨_, rfl⟩

theorem Inside.readPositionVec (inside : Inside layout place bytes)
    (wide : place.width = 2) (four : layout.stride place = 4) :
    Succeeds (readPositionVec bytes (layout.offset place) layout.b) := by
  refine succeeds_readVec fun index less => ?_
  have room : layout.offset place + index * 8 + 8 ≤ bytes.length := by
    unfold Inside Segment.ending BatchLayout.segment at inside
    rw [wide, four] at inside
    dsimp only at inside
    omega
  obtain ⟨_, first⟩ := exists_readBf16At
    (by omega : layout.offset place + index * 8 + 2 ≤ bytes.length)
  obtain ⟨_, second⟩ := exists_readBf16At
    (by omega : layout.offset place + index * 8 + 2 + 2 ≤ bytes.length)
  obtain ⟨_, third⟩ := exists_readBf16At
    (by omega : layout.offset place + index * 8 + 4 + 2 ≤ bytes.length)
  obtain ⟨_, fourth⟩ := exists_readBf16At
    (by omega : layout.offset place + index * 8 + 6 + 2 ≤ bytes.length)
  unfold readPositionAt
  rw [first, second, third, fourth]
  exact ⟨_, rfl⟩

end Sections

variable {header : BatchHeader} {bytes : List UInt8}

theorem inside_of_length (length : bytes.length = header.layout.totalLen) (place : BatchSection) :
    Inside header.layout place bytes :=
  ((BatchLayout.laidOut_segment _ _ _ _ _ _).ends place).trans length.ge

theorem succeeds_parse (parsed : BatchHeader.parse bytes = .ok header)
    (length : bytes.length = header.layout.totalLen) :
    Succeeds (FeatureBatchView.parse bytes) := by
  have inside := inside_of_length length
  have one := Nat.mul_one header.layout.b
  have attrs := (Nat.mul_assoc header.layout.b header.layout.n header.layout.d).symm
  have subjects := (Nat.mul_assoc header.layout.b header.layout.a header.layout.s).symm
  unfold FeatureBatchView.parse
  rw [parsed]
  change Succeeds (if bytes.length ≠ header.layout.totalLen then _ else _)
  rw [if_neg (not_not.mpr length)]
  refine ((inside (.own .nodeCount)).readU32Vec rfl one).bind fun _ => ?_
  refine ((inside (.own .nodeTokens)).readU16Vec rfl rfl).bind fun _ => ?_
  refine ((inside (.own .nodeAttrs)).readBf16Vec rfl attrs).bind fun _ => ?_
  refine ((inside (.own .edgeCount)).readU32Vec rfl one).bind fun _ => ?_
  refine ((inside (.own .edgeSrc)).readU32Vec rfl rfl).bind fun _ => ?_
  refine ((inside (.own .edgeDst)).readU32Vec rfl rfl).bind fun _ => ?_
  refine ((inside (.own .edgeType)).readBytes rfl rfl).bind fun _ => ?_
  refine ((inside .actionCount).readU32Vec rfl one).bind fun _ => ?_
  refine ((inside .actionKind).readU16WidenedVec rfl rfl).bind fun _ => ?_
  refine ((inside .actionPrior).readBf16Vec rfl rfl).bind fun _ => ?_
  refine ((inside .subjectCount).readBytes rfl rfl).bind fun _ => ?_
  refine ((inside .actionSubjects).readU32Vec rfl subjects).bind fun _ => ?_
  refine ((inside (.own .position)).readPositionVec rfl rfl).bind fun _ => ?_
  refine ((inside .opponentReward).readBf16Vec rfl one).bind fun _ => ?_
  refine ((inside .opponentPresent).readBytes rfl one).bind fun _ => ?_
  refine ((inside .opponentStatePresent).readBytes rfl one).bind fun _ => ?_
  refine ((inside (.opponent .nodeCount)).readU32Vec rfl one).bind fun _ => ?_
  refine ((inside (.opponent .nodeTokens)).readU16Vec rfl rfl).bind fun _ => ?_
  refine ((inside (.opponent .nodeAttrs)).readBf16Vec rfl attrs).bind fun _ => ?_
  refine ((inside (.opponent .edgeCount)).readU32Vec rfl one).bind fun _ => ?_
  refine ((inside (.opponent .edgeSrc)).readU32Vec rfl rfl).bind fun _ => ?_
  refine ((inside (.opponent .edgeDst)).readU32Vec rfl rfl).bind fun _ => ?_
  refine ((inside (.opponent .edgeType)).readBytes rfl rfl).bind fun _ => ?_
  refine ((inside (.opponent .position)).readPositionVec rfl rfl).bind fun _ => ?_
  exact ⟨_, rfl⟩

theorem parse_of_length_ne (parsed : BatchHeader.parse bytes = .ok header)
    (length : bytes.length ≠ header.layout.totalLen) :
    FeatureBatchView.parse bytes = .error (.error (.invalidEncoding "bad batch length")) := by
  unfold FeatureBatchView.parse
  rw [parsed]
  change (if bytes.length ≠ header.layout.totalLen then _ else _) = _
  rw [if_pos length]
  rfl

/-- Neither reading ends in a panic, whatever counts are expected, and with the
right length every section is read. -/
structure ReadSafely (bytes : List UInt8) : Prop where
  parse : FeatureBatchView.parseWords bytes ≠ .error .panicked
  counts : ∀ expected,
    validateBatchActionCounts bytes expected ≠ .error .panicked
  sections : ∀ header, BatchHeader.parse bytes = .ok header →
    bytes.length = header.layout.totalLen → (∀ place, Inside header.layout place bytes) ∧
        Succeeds (FeatureBatchView.parseWords bytes)

/-- Either the header is rejected, or the offsets fit. -/
def LayoutFits (bytes : List UInt8) : Prop :=
  ∀ header, BatchHeader.parse bytes = .ok header → header.Fits

/-- The readings are safe exactly where the layout fits machine words. -/
theorem readSafely_iff (bytes : List UInt8) : ReadSafely bytes ↔ LayoutFits bytes := by
  constructor
  · intro safe header parsed
    by_contra large
    refine safe.parse ?_
    unfold FeatureBatchView.parseWords
    rw [parsed]
    change (header.layoutWords >>= _) = _
    rw [BatchHeader.layoutWords_of_not_fits large]
    rfl
  intro fits
  cases parsed : BatchHeader.parse bytes with
  | error failure =>
    refine ⟨?_, fun expected => ?_, fun header other => ?_⟩
    · unfold FeatureBatchView.parseWords
      rw [parsed]
      exact nofun
    · unfold validateBatchActionCounts
      rw [parsed]
      exact nofun
    · cases parsed.symm.trans other
  | ok header =>
    have layout := BatchHeader.layoutWords_of_fits (fits header parsed)
    have words : FeatureBatchView.parseWords bytes = FeatureBatchView.parse bytes := by
      unfold FeatureBatchView.parseWords
      rw [parsed]
      change (header.layoutWords >>= _) = _
      rw [layout]
      rfl
    refine ⟨?_, fun expected => ?_, fun other same length => ?_⟩
    · rw [words]
      by_cases length : bytes.length = header.layout.totalLen
      · obtain ⟨view, done⟩ := succeeds_parse parsed length
        rw [done]
        exact nofun
      · rw [parse_of_length_ne parsed length]
        exact nofun
    · unfold validateBatchActionCounts
      rw [parsed]
      change (if expected.length ≠ header.rowCount.toNat then _ else _) ≠ _
      split
      · exact nofun
      rw [layout]
      change (if bytes.length ≠ header.layout.totalLen then _ else _) ≠ _
      split
      · exact nofun
      · exact checked_ne_panicked _
    · cases parsed.symm.trans same
      rw [words]
      exact ⟨inside_of_length length, succeeds_parse parsed length⟩

/-- A header alone, with dimensions as large as they can be. -/
def overflowingHeader : List UInt8 :=
  batchMagic ++ toLeBytes 4 batchEncodingVersion ++ List.replicate 60 0xff

/-- Both readings of such a header overflow. -/
theorem overflowingHeader_panics :
    FeatureBatchView.parseWords overflowingHeader = .error .panicked ∧
      ¬ ReadSafely overflowingHeader := by
  have panics : FeatureBatchView.parseWords overflowingHeader = .error .panicked := by
    decide +kernel
  exact ⟨panics, fun safe => safe.parse panics⟩

end GraphZero.Features
