import GraphZero.Evaluator.Outputs
import Mathlib.Algebra.Group.Action.Defs

/-!
# Reading outputs

The client knows how many actions each row has, and tells the two layouts
apart by the length alone.
-/

namespace GraphZero.Evaluator

open Foundation Features List

structure RowOutput where
  policyLogits : List F32
  value : F32

def readF32At (bytes : List UInt8) (offset : Nat) : FeatureResult F32 := do
  let bits ← readNumberAt "f32 truncated" 4 bytes offset
  return ⟨UInt32.ofNat bits⟩

def outputMaxActions (bytes : List UInt8) : FeatureResult Nat := do
  return (← readU32At bytes 12).toNat

/-- A length that fits a machine word. -/
def checkedLength (length : Nat) : FeatureResult Nat :=
  if length < 2 ^ 64 then .ok length
  else .error (.invalidEncoding "output length overflow")

def compactOutputLen (actionCounts : List UInt32) : FeatureResult Nat := do
  let logits ← actionCounts.foldlM (fun total count => checkedLength (total + count.toNat)) 0
  let values ← checkedLength (actionCounts.length * 4)
  let policies ← checkedLength (logits * 4)
  let head ← checkedLength (outputHeaderLen + values)
  checkedLength (head + policies)

def outputCapacity (bytes : List UInt8) (rowCount maxActions : Nat) : FeatureResult Nat := do
  if bytes.length < outputHeaderLen then
    throw (.invalidEncoding "output header truncated")
  let bodyLen := bytes.length - outputHeaderLen
  let rowWidth ← checkedLength ((1 + maxActions) * 4)
  if maxActions = 0 ∨ rowWidth = 0 ∨ bodyLen % rowWidth ≠ 0 then
    throw (.invalidEncoding "bad output length")
  let capacity := bodyLen / rowWidth
  if capacity < rowCount then
    throw (.invalidEncoding "output row count exceeds capacity")
  pure capacity

def outputLengthValid (bytes : List UInt8) (actionCounts : List UInt32)
    (maxActions : Nat) (expectedDenseCapacity : Option Nat) :
    FeatureResult Bool := do
  let compactLen ← compactOutputLen actionCounts
  if bytes.length = compactLen then pure true
  else
    let capacity ← outputCapacity bytes actionCounts.length maxActions
    match expectedDenseCapacity with
    | some expected => pure (decide (capacity = expected))
    | none => pure true

def decodeRow (bytes : List UInt8) (maxActions rowIndex offset : Nat)
    (actionCount : UInt32) : FeatureResult RowOutput := do
  if maxActions < actionCount.toNat then
    throw (.actionOverflow (UInt32.ofNat maxActions) actionCount.toNat)
  let value ← readF32At bytes (outputHeaderLen + rowIndex * 4)
  let policyLogits ← (List.range actionCount.toNat).mapM fun action =>
    readF32At bytes (offset + action * 4)
  pure { policyLogits, value }

/-- The logits of a row begin where those of the row before end. -/
def decodeCompact (bytes : List UInt8) (maxActions : Nat) :
    (rowIndex offset : Nat) → List UInt32 → FeatureResult (List RowOutput)
  | _, _, [] => pure []
  | rowIndex, offset, actionCount :: rest => do
      let row ← decodeRow bytes maxActions rowIndex offset actionCount
      let rows ← decodeCompact bytes maxActions (rowIndex + 1) (offset + actionCount.toNat * 4) rest
      pure (row :: rows)

/-- Every row has room for all actions. -/
def decodeDense (bytes : List UInt8) (maxActions policy : Nat)
    (actionCounts : List UInt32) : FeatureResult (List RowOutput) :=
  actionCounts.zipIdx.mapM fun (actionCount, rowIndex) =>
    decodeRow bytes maxActions rowIndex (policy + rowIndex * maxActions * 4) actionCount

def decodeOutputs (bytes : List UInt8) (actionCounts : List UInt32) :
    FeatureResult (List RowOutput) := do
  if bytes.length < outputHeaderLen then
    throw (.invalidEncoding "output header truncated")
  if slice bytes 0 4 ≠ outputMagic then
    throw (.invalidEncoding "bad output magic")
  let version ← readU32At bytes 4
  if version.toNat ≠ batchEncodingVersion then
    throw (.invalidEncoding "unsupported output version")
  let rowCount := (← readU32At bytes 8).toNat
  if rowCount ≠ actionCounts.length then
    throw (.invalidEncoding "output row count mismatch")
  let maxActions := (← readU32At bytes 12).toNat
  let valid ← outputLengthValid bytes actionCounts maxActions none
  if valid = false then throw (.invalidEncoding "bad output length")
  let compactLen ← compactOutputLen actionCounts
  if bytes.length = compactLen then
    decodeCompact bytes maxActions 0 (outputHeaderLen + rowCount * 4) actionCounts
  else
    let capacity ← outputCapacity bytes rowCount maxActions
    decodeDense bytes maxActions (outputHeaderLen + capacity * 4) actionCounts

/-- What a collator does before: the width and the capacity must be its own. -/
def collatorDecodeOutputs (schema : FeatureSchema) (batchCapacity : Nat)
    (bytes : List UInt8) (actionCounts : List UInt32) :
    FeatureResult (List RowOutput) := do
  let maxActions ← outputMaxActions bytes
  if maxActions ≠ schema.config.maxActions.toNat then
    throw (.invalidEncoding "output action width mismatch")
  let valid ← outputLengthValid bytes actionCounts maxActions (some batchCapacity)
  if valid = false then throw (.invalidEncoding "bad output length")
  decodeOutputs bytes actionCounts

/-- The encoder's own buffer and the fields of the header must be possible:
no buffer is longer than the largest signed size, and both counts are packed
into four bytes. -/
def OutputEncoder.write (encoder : OutputEncoder) (outputs : OutputArrays)
    (rowCount : Nat) (actionCounts : Option (List Nat)) :
    ServeResult (List UInt8) :=
  if 2 ^ 63 ≤ encoder.length then
    .error (.uncaught "cannot fit 'int' into an index-sized integer")
  else if 2 ^ 32 ≤ rowCount ∨ 2 ^ 32 ≤ encoder.maxActions then
    .error (.uncaught "argument out of range")
  else
    match actionCounts with
    | some counts => encoder.encode outputs rowCount counts
    | none =>
      if encoder.capacity < rowCount then
        .error (.uncaught "row_count exceeds capacity")
      else if outputs.width ≠ encoder.maxActions then
        .error (.uncaught "logit width mismatch")
      else if outputs.rows < rowCount then
        .error (.uncaught "not enough rows")
      else .ok (encoder.encodeDense outputs rowCount)

/-! ## Reading what was written -/

section Bytes

variable {before after : List UInt8}

theorem slice_append (before after piece : List UInt8) :
    slice (before ++ (piece ++ after)) before.length piece.length = piece := by
  unfold slice
  rw [drop_left, take_left]

theorem readNumberAt_append {message width value} (fits : value < 256 ^ width) :
    readNumberAt message width (before ++ (toLeBytes width value ++ after))
      before.length = .ok value := by
  have own : slice (before ++ (toLeBytes width value ++ after)) before.length
      width = toLeBytes width value := by
    have whole := slice_append before after (toLeBytes width value)
    rwa [length_toLeBytes] at whole
  unfold readNumberAt
  rw [own, ofLeBytes_toLeBytes fits, if_pos]
  simp only [length_append, length_toLeBytes]
  omega

theorem readF32At_floats (before : List UInt8) {floats : List F32} {place value}
    (found : floats[place]? = some value) :
    readF32At (before ++ floats.flatMap floatBytes) (before.length + place * 4) = .ok value := by
  have inside := (List.getElem?_eq_some_iff.mp found).1
  have here := (List.getElem?_eq_some_iff.mp found).2
  have split : before ++ floats.flatMap floatBytes =
      (before ++ (floats.take place).flatMap floatBytes) ++
        (floatBytes value ++ (floats.drop (place + 1)).flatMap floatBytes) := by
    rw [append_assoc, ← flatMap_cons, ← here, getElem_cons_drop, ← flatMap_append, take_append_drop]
  have length : (before ++ (floats.take place).flatMap floatBytes).length =
      before.length + place * 4 := by
    rw [length_append, OutputEncoder.length_flatMap_const fun _ _ =>
      length_floatBytes _, length_take_of_le inside.le]
  have bits : value.bits.toNat < 256 ^ 4 := value.bits.toNat_lt
  unfold readF32At
  rw [split, ← length, floatBytes, readNumberAt_append bits]
  change (Except.ok ⟨UInt32.ofNat value.bits.toNat⟩ : FeatureResult F32) = _
  rw [UInt32.ofNat_toNat]

end Bytes

section Rows

variable {bytes : List UInt8} {maxActions : Nat} {values : Nat → F32} {logits : Nat → Nat → F32}

theorem decodeRow_eq {rowIndex offset actionCount} (bounded : actionCount.toNat ≤ maxActions)
    (value : readF32At bytes (outputHeaderLen + rowIndex * 4) = .ok (values rowIndex))
    (each : ∀ action < actionCount.toNat,
      readF32At bytes (offset + action * 4) = .ok (logits rowIndex action)) :
    decodeRow bytes maxActions rowIndex offset actionCount =
      .ok ⟨(List.range actionCount.toNat).map (logits rowIndex), values rowIndex⟩ := by
  unfold decodeRow
  rw [if_neg (Nat.not_lt.mpr bounded), value]
  rw [mapM_eq_ok fun action member => each action (mem_range.mp member)]
  rfl

def outputRows (values : Nat → F32) (logits : Nat → Nat → F32)
    (actionCounts : List UInt32) (first : Nat) : List RowOutput :=
  (actionCounts.zipIdx first).map fun (actionCount, row) =>
    ⟨(List.range actionCount.toNat).map (logits row), values row⟩

/-- The logits of the rows, one row behind the other. -/
def compactLogits (logits : Nat → Nat → F32) (actionCounts : List UInt32)
    (first : Nat) : List F32 :=
  (actionCounts.zipIdx first).flatMap fun (actionCount, row) =>
    (List.range actionCount.toNat).map (logits row)

theorem decodeCompact_eq {actionCounts first offset}
    (bounded : ∀ count ∈ actionCounts, count.toNat ≤ maxActions)
    (value : ∀ row < actionCounts.length,
      readF32At bytes (outputHeaderLen + (first + row) * 4) = .ok (values (first + row)))
    (logit : ∀ place value,
      (compactLogits logits actionCounts first)[place]? = some value →
        readF32At bytes (offset + place * 4) = .ok value) :
    decodeCompact bytes maxActions first offset actionCounts =
      .ok (outputRows values logits actionCounts first) := by
  induction actionCounts generalizing first offset with
  | nil => rfl
  | cons actionCount actionCounts ih =>
    have length : ((List.range actionCount.toNat).map
        (logits first)).length = actionCount.toNat := by
      rw [length_map, length_range]
    have here : ∀ action < actionCount.toNat,
        readF32At bytes (offset + action * 4) = .ok (logits first action) := by
      intro action less
      refine logit action _ ?_
      unfold compactLogits
      rw [zipIdx_cons, flatMap_cons, getElem?_append_left (length.symm ▸ less), getElem?_map,
        getElem?_range less]
      rfl
    have there : ∀ place found,
        (compactLogits logits actionCounts (first + 1))[place]? = some found →
          readF32At bytes (offset + actionCount.toNat * 4 + place * 4) = .ok found := by
      intro place found known
      have own := logit (actionCount.toNat + place) found (by
        unfold compactLogits
        rw [zipIdx_cons, flatMap_cons, getElem?_append_right (length.symm ▸ Nat.le_add_right _ _),
          length, Nat.add_sub_cancel_left]
        exact known)
      rwa [Nat.add_mul, ← Nat.add_assoc] at own
    have row : decodeRow bytes maxActions first offset actionCount =
        .ok ⟨(List.range actionCount.toNat).map (logits first),
          values first⟩ :=
      decodeRow_eq (bounded actionCount mem_cons_self) (value 0 (Nat.succ_pos _)) here
    have rest := ih (fun count member => bounded count (mem_cons_of_mem _ member))
      (fun other less => by
        have own := value (other + 1) (Nat.succ_lt_succ less)
        rwa [← Nat.add_assoc, Nat.add_right_comm] at own) there
    rw [decodeCompact, row, rest]
    rfl

theorem decodeDense_eq {actionCounts policy}
    (bounded : ∀ count ∈ actionCounts, count.toNat ≤ maxActions)
    (value : ∀ row < actionCounts.length,
      readF32At bytes (outputHeaderLen + row * 4) = .ok (values row))
    (logit : ∀ row < actionCounts.length, ∀ action < maxActions,
      readF32At bytes (policy + row * maxActions * 4 + action * 4) = .ok (logits row action)) :
    decodeDense bytes maxActions policy actionCounts =
      .ok (outputRows values logits actionCounts 0) := by
  refine mapM_eq_ok fun item member => ?_
  obtain ⟨_, inside, own⟩ := mem_zipIdx member
  rw [Nat.zero_add] at inside
  have small := bounded item.1 (own ▸ getElem_mem _)
  exact decodeRow_eq small (value item.2 inside) fun action less =>
    logit item.2 inside action (less.trans_le small)

end Rows

theorem getElem?_flatMap_of_length {α β : Type} {items : List α} {piece : α → List β}
    {width row column item} (each : ∀ item ∈ items, (piece item).length = width)
    (found : items[row]? = some item) (inside : column < width) :
    (items.flatMap piece)[row * width + column]? = (piece item)[column]? := by
  induction items generalizing row with
  | nil => cases found
  | cons first items ih =>
    have length := each first mem_cons_self
    rw [flatMap_cons]
    cases row with
    | zero =>
      cases found
      rw [Nat.zero_mul, Nat.zero_add, getElem?_append_left (length.symm ▸ inside)]
    | succ row =>
      have far : (piece first).length ≤ (row + 1) * width + column := by
        rw [length, Nat.succ_mul]
        omega
      have place : (row + 1) * width + column - (piece first).length = row * width + column := by
        rw [length, Nat.succ_mul]
        omega
      rw [getElem?_append_right far, place]
      exact ih (fun item member =>
        each item (mem_cons_of_mem _ member)) found

section Layouts

variable {encoder : OutputEncoder} {outputs : OutputArrays} {actionCounts : List UInt32}

def compactFloats (outputs : OutputArrays) (actionCounts : List UInt32) : List F32 :=
  (List.range actionCounts.length).map outputs.values ++ compactLogits outputs.logits actionCounts 0

theorem encodeCompact_eq : encoder.encodeCompact outputs actionCounts.length
        (actionCounts.map (·.toNat)) =
      encoder.header actionCounts.length ++
        (compactFloats outputs actionCounts).flatMap floatBytes := by
  unfold OutputEncoder.encodeCompact compactFloats compactLogits
  rw [append_assoc, flatMap_append, flatMap_map, flatMap_assoc, zipIdx_map, flatMap_map]
  congr 2
  refine flatMap_congr fun item _ => ?_
  rw [flatMap_map]
  rfl

def denseValue (outputs : OutputArrays) (rowCount row : Nat) : F32 :=
  if row < rowCount then outputs.values row else .zero

def denseLogit (outputs : OutputArrays) (rowCount row action : Nat) : F32 :=
  if row < rowCount then outputs.logits row action else .zero

def denseFloats (encoder : OutputEncoder) (outputs : OutputArrays) (rowCount : Nat) : List F32 :=
  (List.range encoder.capacity).map (denseValue outputs rowCount) ++
    (List.range encoder.capacity).flatMap fun row =>
      (List.range encoder.maxActions).map (denseLogit outputs rowCount row)

theorem encodeDense_eq {rowCount} : encoder.encodeDense outputs rowCount =
      encoder.header rowCount ++ (denseFloats encoder outputs rowCount).flatMap floatBytes := by
  unfold OutputEncoder.encodeDense denseFloats
  dsimp only
  rw [flatMap_append, flatMap_map, flatMap_assoc, ← append_assoc]
  congr 1
  refine flatMap_congr fun row _ => ?_
  rw [flatMap_map]
  rfl

theorem eq_of_sum_eq {counts : List Nat} {most} (bounded : ∀ count ∈ counts, count ≤ most)
    (full : counts.length * most ≤ counts.sum) :
    ∀ count ∈ counts, count = most := by
  induction counts with
  | nil => exact nofun
  | cons count counts ih =>
    obtain ⟨here, others⟩ := forall_mem_cons.mp bounded
    have rest := sum_le_card_nsmul counts most others
    rw [smul_eq_mul] at rest
    rw [length_cons, sum_cons, Nat.succ_mul] at full
    exact forall_mem_cons.mpr ⟨by omega, ih others (by omega)⟩

theorem compactLogits_eq {logits most} (full : ∀ count ∈ actionCounts, count.toNat = most) :
    compactLogits logits actionCounts 0 = (List.range actionCounts.length).flatMap fun row =>
        (List.range most).map (logits row) := by
  have numbers : List.range actionCounts.length = (actionCounts.zipIdx 0).map (·.2) := by
    rw [zipIdx_map_snd, range_eq_range']
  rw [numbers, flatMap_map]
  refine flatMap_congr fun item member => ?_
  obtain ⟨_, _, own⟩ := mem_zipIdx member
  have count := full item.1 (own ▸ getElem_mem _)
  change (List.range item.1.toNat).map (logits item.2) = _
  rw [count]

/-- Where the lengths are the same, every row is there with all its actions,
and the layouts are one. -/
theorem encodeCompact_eq_encodeDense (fits : actionCounts.length ≤ encoder.capacity)
    (bounded : ∀ count ∈ actionCounts, count.toNat ≤ encoder.maxActions)
    (same : (encoder.encodeCompact outputs actionCounts.length
        (actionCounts.map (·.toNat))).length =
      (encoder.encodeDense outputs actionCounts.length).length) :
    encoder.encodeCompact outputs actionCounts.length (actionCounts.map (·.toNat)) =
      encoder.encodeDense outputs actionCounts.length := by
  have small : ∀ count ∈ actionCounts.map (·.toNat), count ≤ encoder.maxActions := by
    intro count member
    obtain ⟨own, inside, rfl⟩ := mem_map.mp member
    exact bounded own inside
  have most := sum_le_card_nsmul _ _ small
  rw [smul_eq_mul, length_map] at most
  rw [OutputEncoder.length_encodeCompact, OutputEncoder.length_encodeDense,
    OutputEncoder.length] at same
  have less : actionCounts.length * encoder.maxActions ≤
      encoder.capacity * encoder.maxActions := Nat.mul_le_mul_right _ fits
  have all : actionCounts.length = encoder.capacity := by omega
  have full : ∀ count ∈ actionCounts, count.toNat = encoder.maxActions := by
    intro count member
    refine eq_of_sum_eq small ?_ _ (mem_map_of_mem member)
    rw [length_map]
    omega
  rw [encodeCompact_eq, encodeDense_eq]
  congr 2
  unfold compactFloats denseFloats
  rw [compactLogits_eq full, all]
  congr 1
  · refine map_congr_left fun row member => ?_
    exact (if_pos (mem_range.mp member)).symm
  · refine flatMap_congr fun row member => ?_
    refine map_congr_left fun action _ => ?_
    exact (if_pos (mem_range.mp member)).symm

end Layouts

section Lengths

variable {actionCounts : List UInt32} {bytes : List UInt8}

theorem checkedLength_eq {length} (fits : length < 2 ^ 64) : checkedLength length = .ok length :=
  if_pos fits

theorem foldlM_checkedLength {start} (fits : start + (actionCounts.map (·.toNat)).sum < 2 ^ 64) :
    actionCounts.foldlM (fun total count => checkedLength (total + count.toNat)) start =
      .ok (start + (actionCounts.map (·.toNat)).sum) := by
  induction actionCounts generalizing start with
  | nil => rfl
  | cons count actionCounts ih =>
    rw [map_cons, sum_cons, ← Nat.add_assoc] at fits ⊢
    rw [foldlM_cons, checkedLength_eq (by omega)]
    exact ih fits

theorem compactOutputLen_eq (fits : outputHeaderLen + actionCounts.length * 4 +
      (actionCounts.map (·.toNat)).sum * 4 < 2 ^ 64) :
    compactOutputLen actionCounts = .ok (outputHeaderLen + actionCounts.length * 4 +
        (actionCounts.map (·.toNat)).sum * 4) := by
  have total : actionCounts.foldlM (fun total count => checkedLength (total + count.toNat)) 0 =
        .ok (actionCounts.map (·.toNat)).sum := by
    rw [foldlM_checkedLength (by omega), Nat.zero_add]
  unfold compactOutputLen
  rw [total]
  change (checkedLength (actionCounts.length * 4) >>= fun values =>
    checkedLength ((actionCounts.map (·.toNat)).sum * 4) >>= fun policies =>
      checkedLength (outputHeaderLen + values) >>= fun head =>
        checkedLength (head + policies)) = _
  rw [checkedLength_eq (by omega), checkedLength_eq (by omega)]
  change (checkedLength (outputHeaderLen + actionCounts.length * 4) >>= fun head => checkedLength
      (head + (actionCounts.map (·.toNat)).sum * 4)) = _
  rw [checkedLength_eq (by omega)]
  exact checkedLength_eq fits

theorem outputCapacity_eq {capacity maxActions rowCount} (length : bytes.length =
      outputHeaderLen + capacity * ((1 + maxActions) * 4)) (small : (1 + maxActions) * 4 < 2 ^ 64)
    (pos : 0 < maxActions) (fits : rowCount ≤ capacity) :
    outputCapacity bytes rowCount maxActions = .ok capacity := by
  have body : bytes.length - outputHeaderLen = capacity * ((1 + maxActions) * 4) := by omega
  have wide : 0 < (1 + maxActions) * 4 := by omega
  unfold outputCapacity
  rw [if_neg (by omega)]
  rw [checkedLength_eq small]
  change (if _ then _ else _) = _
  rw [body, if_neg (by rw [Nat.mul_mod_left]; omega),
    Nat.mul_div_cancel _ wide]
  rw [if_neg (Nat.not_lt.mpr fits)]
  rfl

end Lengths

section RoundTrip

variable {encoder : OutputEncoder} {outputs : OutputArrays}
  {actionCounts : List UInt32} {body : List UInt8}

/-- The fields of the header of an output. -/
structure HeaderReads (bytes : List UInt8) (rowCount maxActions : Nat) : Prop where
  long : outputHeaderLen ≤ bytes.length
  magic : slice bytes 0 4 = outputMagic
  version : readU32At bytes 4 = .ok (UInt32.ofNat batchEncodingVersion)
  rowCount : readU32At bytes 8 = .ok (UInt32.ofNat rowCount)
  maxActions : readU32At bytes 12 = .ok (UInt32.ofNat maxActions)

theorem readU32At_append (before after : List UInt8) {value} (fits : value < 2 ^ 32) :
    readU32At (before ++ (toLeBytes 4 value ++ after)) before.length =
      .ok (UInt32.ofNat value) := by
  unfold readU32At
  rw [readNumberAt_append fits]
  rfl

theorem headerReads (encoder : OutputEncoder) {rowCount} (rows : rowCount < 2 ^ 32)
    (actions : encoder.maxActions < 2 ^ 32) (body : List UInt8) :
    HeaderReads (encoder.header rowCount ++ body) rowCount encoder.maxActions := by
  have magic : encoder.header rowCount ++ body =
      [] ++ (outputMagic ++ (toLeBytes 4 batchEncodingVersion ++ (toLeBytes 4 rowCount ++
          (toLeBytes 4 encoder.maxActions ++ body)))) := by
    simp [OutputEncoder.header]
  have version : encoder.header rowCount ++ body =
      outputMagic ++ (toLeBytes 4 batchEncodingVersion ++
        (toLeBytes 4 rowCount ++ (toLeBytes 4 encoder.maxActions ++ body))) :=
    magic
  have count : encoder.header rowCount ++ body =
      (outputMagic ++ toLeBytes 4 batchEncodingVersion) ++
        (toLeBytes 4 rowCount ++ (toLeBytes 4 encoder.maxActions ++ body)) := by
    rw [version, append_assoc]
  have most : encoder.header rowCount ++ body = (outputMagic ++ toLeBytes 4 batchEncodingVersion ++
        toLeBytes 4 rowCount) ++ (toLeBytes 4 encoder.maxActions ++ body) := by
    rw [count, append_assoc (outputMagic ++ _)]
  refine ⟨?_, ?_, ?_, ?_, ?_⟩
  · rw [length_append, OutputEncoder.length_header]
    exact Nat.le_add_right _ _
  · exact slice_append [] _ outputMagic
  · exact readU32At_append outputMagic _ (by decide)
  · exact readU32At_append (outputMagic ++ toLeBytes 4 batchEncodingVersion) _ rows
  · have read := readU32At_append (outputMagic ++
      toLeBytes 4 batchEncodingVersion ++ toLeBytes 4 rowCount) body actions
    exact read

variable {bytes : List UInt8} {maxActions : Nat}

theorem decodeOutputs_eq (reads : HeaderReads bytes actionCounts.length maxActions)
    (rows : actionCounts.length < 2 ^ 32) (actions : maxActions < 2 ^ 32) :
    decodeOutputs bytes actionCounts = (do
      let valid ← outputLengthValid bytes actionCounts maxActions none
      if valid = false then throw (.invalidEncoding "bad output length")
      let compactLen ← compactOutputLen actionCounts
      if bytes.length = compactLen then
        decodeCompact bytes maxActions 0 (outputHeaderLen + actionCounts.length * 4) actionCounts
      else
        let capacity ← outputCapacity bytes actionCounts.length maxActions
        decodeDense bytes maxActions (outputHeaderLen + capacity * 4) actionCounts) := by
  have rowCount : (UInt32.ofNat actionCounts.length).toNat =
      actionCounts.length := UInt32.toNat_ofNat_of_lt' rows
  have most : (UInt32.ofNat maxActions).toNat = maxActions := UInt32.toNat_ofNat_of_lt' actions
  unfold decodeOutputs
  rw [if_neg (Nat.not_lt.mpr reads.long)]
  rw [if_neg (not_not.mpr reads.magic), reads.version]
  rw [reads.rowCount]
  change (if (UInt32.ofNat actionCounts.length).toNat ≠ _ then _ else _) = _
  rw [rowCount, if_neg (not_not.mpr rfl), reads.maxActions]
  change (outputLengthValid bytes actionCounts (UInt32.ofNat maxActions).toNat none >>= _) = _
  rw [most]

theorem outputLengthValid_of_compact {expected}
    (length : compactOutputLen actionCounts = .ok bytes.length) :
    outputLengthValid bytes actionCounts maxActions expected = .ok true := by
  unfold outputLengthValid
  rw [length]
  exact if_pos rfl

theorem decodeOutputs_of_compact (reads : HeaderReads bytes actionCounts.length maxActions)
    (rows : actionCounts.length < 2 ^ 32) (actions : maxActions < 2 ^ 32)
    (length : compactOutputLen actionCounts = .ok bytes.length) :
    decodeOutputs bytes actionCounts = decodeCompact bytes maxActions 0
        (outputHeaderLen + actionCounts.length * 4) actionCounts := by
  rw [decodeOutputs_eq reads rows actions, outputLengthValid_of_compact length, length]
  exact if_pos rfl

theorem outputLengthValid_of_dense {expected capacity compactLen}
    (shorter : compactOutputLen actionCounts = .ok compactLen) (other : bytes.length ≠ compactLen)
    (known : outputCapacity bytes actionCounts.length maxActions = .ok capacity)
    (own : expected = none ∨ expected = some capacity) :
    outputLengthValid bytes actionCounts maxActions expected = .ok true := by
  unfold outputLengthValid
  rw [shorter]
  change (if bytes.length = compactLen then _ else _) = _
  rw [if_neg other, known]
  rcases own with rfl | rfl
  · rfl
  · change Except.ok (decide (capacity = capacity)) = _
    rw [decide_eq_true rfl]

theorem decodeOutputs_of_dense {capacity compactLen}
    (reads : HeaderReads bytes actionCounts.length maxActions) (rows : actionCounts.length < 2 ^ 32)
    (actions : maxActions < 2 ^ 32) (shorter : compactOutputLen actionCounts = .ok compactLen)
    (other : bytes.length ≠ compactLen)
    (known : outputCapacity bytes actionCounts.length maxActions = .ok capacity) :
    decodeOutputs bytes actionCounts = decodeDense bytes maxActions (outputHeaderLen + capacity * 4)
        actionCounts := by
  rw [decodeOutputs_eq reads rows actions,
    outputLengthValid_of_dense shorter other known (.inl rfl), shorter]
  change (if bytes.length = compactLen then _ else _) = _
  rw [if_neg other, known]
  rfl

theorem readF32At_header (encoder : OutputEncoder) (rowCount : Nat) {place : Nat}
    {floats : List F32} {value} (found : floats[place]? = some value) :
    readF32At (encoder.header rowCount ++ floats.flatMap floatBytes)
      (outputHeaderLen + place * 4) = .ok value := by
  have read := readF32At_floats (encoder.header rowCount) found
  rwa [OutputEncoder.length_header] at read

theorem decodeOutputs_encodeCompact (rows : actionCounts.length < 2 ^ 32)
    (actions : encoder.maxActions < 2 ^ 32)
    (bounded : ∀ count ∈ actionCounts, count.toNat ≤ encoder.maxActions)
    (length : compactOutputLen actionCounts = .ok (encoder.encodeCompact outputs actionCounts.length
        (actionCounts.map (·.toNat))).length) :
    decodeOutputs (encoder.encodeCompact outputs actionCounts.length
        (actionCounts.map (·.toNat))) actionCounts =
      .ok (outputRows outputs.values outputs.logits actionCounts 0) := by
  rw [encodeCompact_eq] at length ⊢
  rw [decodeOutputs_of_compact (headerReads encoder rows actions _) rows actions length]
  have count : ((List.range actionCounts.length).map outputs.values).length =
      actionCounts.length := by
    rw [length_map, length_range]
  refine decodeCompact_eq bounded (fun row less => ?_) fun place value found => ?_
  · rw [Nat.zero_add]
    refine readF32At_header _ _ ?_
    unfold compactFloats
    rw [getElem?_append_left (count.symm ▸ less), getElem?_map, getElem?_range less]
    rfl
  · have own : (compactFloats outputs actionCounts)[actionCounts.length + place]? = some value := by
      unfold compactFloats
      rw [getElem?_append_right (count.symm ▸ Nat.le_add_right _ _), count, Nat.add_sub_cancel_left]
      exact found
    have read := readF32At_header encoder actionCounts.length own
    rwa [Nat.add_mul, ← Nat.add_assoc] at read

theorem decodeDense_encodeDense (fits : actionCounts.length ≤ encoder.capacity)
    (bounded : ∀ count ∈ actionCounts, count.toNat ≤ encoder.maxActions) :
    decodeDense (encoder.encodeDense outputs actionCounts.length)
        encoder.maxActions (outputHeaderLen + encoder.capacity * 4)
        actionCounts =
      .ok (outputRows outputs.values outputs.logits actionCounts 0) := by
  have count : ((List.range encoder.capacity).map
      (denseValue outputs actionCounts.length)).length = encoder.capacity := by
    rw [length_map, length_range]
  rw [encodeDense_eq]
  refine decodeDense_eq bounded (fun row less => ?_) fun row less action inside => ?_
  · refine readF32At_header _ _ ?_
    unfold denseFloats
    rw [getElem?_append_left (count.symm ▸ less.trans_le fits),
      getElem?_map, getElem?_range (less.trans_le fits)]
    exact congrArg some (if_pos less)
  have own : (denseFloats encoder outputs actionCounts.length)[
      encoder.capacity + (row * encoder.maxActions + action)]? =
        some (outputs.logits row action) := by
    unfold denseFloats
    rw [getElem?_append_right (count.symm ▸ Nat.le_add_right _ _), count,
      Nat.add_sub_cancel_left, getElem?_flatMap_of_length (fun _ _ => by
        rw [length_map, length_range])
        (getElem?_range (less.trans_le fits)) inside,
      getElem?_map, getElem?_range inside]
    exact congrArg some (if_pos less)
  have read := readF32At_header encoder actionCounts.length own
  have place : outputHeaderLen + (encoder.capacity + (row * encoder.maxActions + action)) * 4 =
        outputHeaderLen + encoder.capacity * 4 + row * encoder.maxActions * 4 + action * 4 := by
    ring
  rwa [place] at read

theorem layout_of_write {given payload}
    (own : given = none ∨ given = some (actionCounts.map (·.toNat)))
    (written : encoder.write outputs actionCounts.length given = .ok payload) :
    encoder.length < 2 ^ 63 ∧ actionCounts.length < 2 ^ 32 ∧ encoder.maxActions < 2 ^ 32 ∧
      (payload = encoder.encodeDense outputs actionCounts.length ∨
        payload = encoder.encodeCompact outputs actionCounts.length
          (actionCounts.map (·.toNat))) := by
  unfold OutputEncoder.write at written
  split at written
  · cases written
  next small =>
  split at written
  · cases written
  next packed =>
  rw [not_or, Nat.not_le, Nat.not_le] at packed
  refine ⟨Nat.lt_of_not_le small, packed.1, packed.2, ?_⟩
  rcases own with rfl | rfl
  · dsimp only at written
    split at written
    · cases written
    split at written
    · cases written
    split at written
    · cases written
    cases written
    exact .inl rfl
  · dsimp only [OutputEncoder.encode] at written
    split at written
    · cases written
    split at written
    · cases written
    split at written
    · cases written
    split at written
    · cases written
    split at written
    · cases written
    split at written
    · cases written
      exact .inl rfl
    split at written
    · cases written
    cases written
    exact .inr rfl

/-- What both readers say of bytes whose layout is known. -/
structure ReadsAs (bytes : List UInt8) (capacity maxActions : Nat)
    (actionCounts : List UInt32) (rows : List RowOutput) : Prop where
  decoded : decodeOutputs bytes actionCounts = .ok rows
  collator : ∀ schema : FeatureSchema,
    schema.config.maxActions.toNat = maxActions →
      collatorDecodeOutputs schema capacity bytes actionCounts = .ok rows

theorem readsAs_of_valid {capacity rows} (reads : HeaderReads bytes actionCounts.length maxActions)
    (small : maxActions < 2 ^ 32)
    (valid : outputLengthValid bytes actionCounts maxActions (some capacity) = .ok true)
    (decoded : decodeOutputs bytes actionCounts = .ok rows) :
    ReadsAs bytes capacity maxActions actionCounts rows := by
  have most : (UInt32.ofNat maxActions).toNat = maxActions := UInt32.toNat_ofNat_of_lt' small
  refine ⟨decoded, fun schema width => ?_⟩
  unfold collatorDecodeOutputs outputMaxActions
  rw [reads.maxActions]
  change (if (UInt32.ofNat maxActions).toNat ≠ _ then _ else _) = _
  rw [most, if_neg (not_not.mpr width.symm)]
  rw [valid]
  exact decoded

end RoundTrip

/-- The two layouts are never taken for each other, and every row comes back
as it was computed. -/
theorem outputs_roundTrip {capacity maxActions : Nat} {encoder : OutputEncoder}
    (made : OutputEncoder.new capacity maxActions = .ok encoder)
    {actionCounts : List UInt32} (fits : actionCounts.length ≤ capacity)
    (bounded : ∀ count ∈ actionCounts, count.toNat ≤ maxActions) :
    (∀ outputs : OutputArrays,
      (encoder.encodeCompact outputs actionCounts.length (actionCounts.map (·.toNat))).length =
        (encoder.encodeDense outputs actionCounts.length).length →
      encoder.encodeCompact outputs actionCounts.length (actionCounts.map (·.toNat)) =
        encoder.encodeDense outputs actionCounts.length) ∧
    ∀ (outputs : OutputArrays) (given : Option (List Nat)) (payload : List UInt8),
      (given = none ∨ given = some (actionCounts.map (·.toNat))) →
      encoder.write outputs actionCounts.length given = .ok payload →
      ReadsAs payload capacity maxActions actionCounts
        (outputRows outputs.values outputs.logits actionCounts 0) := by
  have pos : 0 < maxActions ∧ encoder = ⟨capacity, maxActions⟩ := by
    unfold OutputEncoder.new at made
    split at made
    · cases made
    split at made
    · cases made
    · cases made
      exact ⟨Nat.pos_of_ne_zero ‹_›, rfl⟩
  obtain ⟨pos, rfl⟩ := pos
  refine ⟨fun outputs => encodeCompact_eq_encodeDense fits bounded,
    fun outputs given payload own written => ?_⟩
  obtain ⟨small, rows, packed, layout⟩ := layout_of_write own written
  have actions : maxActions < 2 ^ 32 := packed
  have few : ∀ count ∈ actionCounts.map (·.toNat), count ≤ maxActions := by
    intro count member
    obtain ⟨own, inside, rfl⟩ := mem_map.mp member
    exact bounded own inside
  have most := sum_le_card_nsmul _ _ few
  rw [smul_eq_mul, length_map] at most
  have less : actionCounts.length * maxActions ≤ capacity * maxActions :=
    Nat.mul_le_mul_right _ fits
  unfold OutputEncoder.length outputHeaderLen at small
  dsimp only at small
  have shorter : compactOutputLen actionCounts = .ok _ :=
    compactOutputLen_eq (by unfold outputHeaderLen; omega)
  have compact : ReadsAs (OutputEncoder.encodeCompact ⟨capacity, maxActions⟩ outputs
        actionCounts.length (actionCounts.map (·.toNat))) capacity maxActions
      actionCounts
      (outputRows outputs.values outputs.logits actionCounts 0) := by
    have length : compactOutputLen actionCounts =
        .ok (OutputEncoder.encodeCompact ⟨capacity, maxActions⟩ outputs
          actionCounts.length (actionCounts.map (·.toNat))).length := by
      rw [OutputEncoder.length_encodeCompact]
      exact shorter
    refine readsAs_of_valid ?_ actions (outputLengthValid_of_compact length)
      (decodeOutputs_encodeCompact rows actions bounded length)
    exact headerReads ⟨capacity, maxActions⟩ rows actions _
  rcases layout with rfl | rfl
  · by_cases same : (OutputEncoder.encodeCompact ⟨capacity, maxActions⟩ outputs
        actionCounts.length (actionCounts.map (·.toNat))).length =
      (OutputEncoder.encodeDense ⟨capacity, maxActions⟩ outputs actionCounts.length).length
    · rw [← encodeCompact_eq_encodeDense fits bounded same]
      exact compact
    rw [OutputEncoder.length_encodeCompact] at same
    have known : outputCapacity (OutputEncoder.encodeDense ⟨capacity, maxActions⟩ outputs
          actionCounts.length) actionCounts.length maxActions =
        .ok capacity := by
      refine outputCapacity_eq ?_ (by omega) pos fits
      rw [OutputEncoder.length_encodeDense, OutputEncoder.length]
      ring
    have reads : HeaderReads (OutputEncoder.encodeDense ⟨capacity, maxActions⟩ outputs
          actionCounts.length) actionCounts.length maxActions := by
      exact headerReads ⟨capacity, maxActions⟩ rows actions _
    refine readsAs_of_valid reads actions
      (outputLengthValid_of_dense shorter (Ne.symm same) known (.inr rfl)) ?_
    rw [decodeOutputs_of_dense reads rows actions shorter (Ne.symm same) known]
    exact decodeDense_encodeDense fits bounded
  · exact compact

/-- A row with one action, of two rows with two each. -/
theorem outputs_roundTrip_of_one_row : ReadsAs (OutputEncoder.encodeCompact ⟨2, 2⟩
        ⟨2, 2, fun _ => ⟨0x3f800000⟩, fun _ _ => ⟨0x40000000⟩⟩ 1 [1])
      2 2 [1] [⟨[⟨0x40000000⟩], ⟨0x3f800000⟩⟩] := by
  have fits : ([1] : List UInt32).length ≤ 2 := by decide
  have bounded : ∀ count ∈ ([1] : List UInt32), count.toNat ≤ 2 := by
    intro count member
    cases mem_singleton.mp member
    exact Nat.le_succ 1
  have written : OutputEncoder.write ⟨2, 2⟩
      ⟨2, 2, fun _ => ⟨0x3f800000⟩, fun _ _ => ⟨0x40000000⟩⟩ 1 (some [1]) =
        .ok (OutputEncoder.encodeCompact ⟨2, 2⟩
          ⟨2, 2, fun _ => ⟨0x3f800000⟩, fun _ _ => ⟨0x40000000⟩⟩ 1 [1]) :=
    rfl
  exact (outputs_roundTrip rfl fits bounded).2 _ (some [1]) _ (.inr rfl) written

end GraphZero.Evaluator
