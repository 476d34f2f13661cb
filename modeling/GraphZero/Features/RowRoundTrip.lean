import GraphZero.Features.RowCodec

/-!
# A row comes back rounded

What is written of a valid row is read again as the row with its floats
rounded, unless a float is rounded to infinity or a count does not fit into 32
bits: the reader then rejects what the writer accepted.
-/

namespace GraphZero.Features

open Foundation Reader List

/-! ## Rounding -/

def PositionFeatures.rounded (position : PositionFeatures) : PositionFeatures :=
  { position with
    budgetFraction := position.budgetFraction.rounded
    budgetStep := position.budgetStep.rounded
    opponentReward := position.opponentReward.rounded }

def ActionFeature.rounded (action : ActionFeature) : ActionFeature :=
  { action with staticPrior := action.staticPrior.rounded }

def OpponentStateFeatures.rounded (opponent : OpponentStateFeatures) : OpponentStateFeatures :=
  { opponent with
    nodeAttrs := opponent.nodeAttrs.map (·.rounded)
    position := opponent.position.rounded }

/-- The row with each float as the wire carries it. -/
def FeatureRow.rounded (row : FeatureRow) : FeatureRow :=
  { row with
    nodeAttrs := row.nodeAttrs.map (·.rounded)
    actions := row.actions.map (·.rounded)
    position := row.position.rounded
    opponent := row.opponent.map (·.rounded) }

def PositionFeatures.floats (position : PositionFeatures) : List F32 :=
  [position.budgetFraction, position.budgetStep, position.opponentReward]

def OpponentStateFeatures.floats (opponent : OpponentStateFeatures) : List F32 :=
  opponent.nodeAttrs ++ opponent.position.floats

def FeatureRow.floats (row : FeatureRow) : List F32 :=
  row.nodeAttrs ++ row.actions.map (·.staticPrior) ++ (row.position.floats ++
      row.opponent.toList.flatMap OpponentStateFeatures.floats)

theorem forall_position_floats {position : PositionFeatures} {holds : F32 → Prop} :
    (∀ value ∈ position.floats, holds value) ↔
      holds position.budgetFraction ∧ holds position.budgetStep ∧
        holds position.opponentReward := by
  unfold PositionFeatures.floats
  simp only [forall_mem_cons, not_mem_nil, false_imp_iff, implies_true, and_true]

theorem forall_floats {row : FeatureRow} {holds : F32 → Prop} :
    (∀ value ∈ row.floats, holds value) ↔ ((∀ attr ∈ row.nodeAttrs, holds attr) ∧
        ∀ action ∈ row.actions, holds action.staticPrior) ∧
      (∀ value ∈ row.position.floats, holds value) ∧
        ∀ opponent ∈ row.opponent, ∀ value ∈ opponent.floats, holds value := by
  unfold FeatureRow.floats
  simp only [forall_mem_append, forall_mem_map, mem_flatMap,
    Option.mem_toList, forall_exists_index, and_imp]
  refine and_congr_right fun _ => and_congr_right fun _ => ?_
  exact ⟨fun all opponent present value member =>
    all value opponent present member,
    fun all value opponent present member =>
      all opponent present value member⟩

/-- No float is rounded to infinity and the attributes can be counted. -/
structure FeatureRow.Fits (row : FeatureRow) : Prop where
  floats : ∀ value ∈ row.floats, value.RoundsFinite
  attrCount : row.nodeAttrs.length < 2 ^ 32
  opponentAttrCount : ∀ opponent ∈ row.opponent,
    opponent.nodeAttrs.length < 2 ^ 32

section Validity

variable {schema : FeatureSchema} {row : FeatureRow}

theorem validState_rounded {nodeCount nodeTokens nodeAttrs edges}
    (valid : ValidState nodeCount nodeTokens nodeAttrs edges schema.config)
    (rounds : ∀ attr ∈ nodeAttrs, attr.RoundsFinite) :
    ValidState nodeCount nodeTokens (nodeAttrs.map (·.rounded)) edges schema.config :=
  { valid with
    attrCount := (length_map _).trans valid.attrCount
    attrs := forall_mem_map.2 fun attr member =>
      (F32.isFinite_rounded_iff (valid.attrs attr member)).2 (rounds attr member) }

theorem validPosition_rounded {position : PositionFeatures} (valid : ValidPosition position)
    (rounds : ∀ value ∈ position.floats, value.RoundsFinite) :
    ValidPosition position.rounded := by
  obtain ⟨fraction, step, reward⟩ := forall_position_floats.1 rounds
  exact {
    budgetFraction := (F32.isFinite_rounded_iff valid.budgetFraction).2 fraction
    budgetStep := (F32.isFinite_rounded_iff valid.budgetStep).2 step
    opponentReward := (F32.isFinite_rounded_iff valid.opponentReward).2 reward
    absent := fun none => F32.isZero_rounded (valid.absent none) }

theorem validActions_rounded {nodeCount actions}
    (valid : ValidActions schema.config nodeCount actions)
    (rounds : ∀ action ∈ actions, action.staticPrior.RoundsFinite) :
    ValidActions schema.config nodeCount (actions.map (·.rounded)) := by
  induction actions with
  | nil => trivial
  | cons action rest ih =>
    refine ⟨?_, ih valid.2 fun other member => rounds other (.tail _ member)⟩
    have last : (rest.map (·.rounded)).isEmpty = rest.isEmpty := by
      cases rest <;> rfl
    rw [last]
    have head := rounds action mem_cons_self
    exact {
      kindToken := valid.1.kindToken
      staticPrior := (F32.isFinite_rounded_iff valid.1.staticPrior).2 head
      subjectCount := valid.1.subjectCount
      subjects := valid.1.subjects
      stops := valid.1.stops
      payload := fun isLast => ⟨(valid.1.payload isLast).1,
        F32.isZero_rounded (valid.1.payload isLast).2⟩ }

theorem validRow_rounded (valid : ValidRow row schema)
    (rounds : ∀ value ∈ row.floats, value.RoundsFinite) :
    ValidRow row.rounded schema := by
  obtain ⟨⟨attrs, priors⟩, position, opponent⟩ := forall_floats.1 rounds
  exact {
    state := validState_rounded valid.state attrs
    actionCount := (length_map _).le.trans valid.actionCount
    actions := validActions_rounded valid.actions priors
    position := validPosition_rounded valid.position position
    opponent := fun state member => by
      obtain ⟨original, present, rfl⟩ := Option.mem_map.1 member
      obtain ⟨body, place⟩ := valid.opponent original present
      have floats := forall_mem_append.1 (opponent original present)
      exact ⟨validState_rounded body floats.1, validPosition_rounded place floats.2⟩ }

end Validity

section Writing

@[simp]
theorem bf16Bytes_rounded (value : F32) : bf16Bytes value.rounded = bf16Bytes value :=
  congrArg u16Bytes (F32.f32ToBf16Bits_rounded value)

def stateBytes (nodeTokens : List UInt16) (nodeAttrs : List F32)
    (edges : List FeatureEdge) : List UInt8 :=
  lenBytes nodeTokens.length ++ nodeTokens.flatMap u16Bytes ++
    (lenBytes nodeAttrs.length ++ nodeAttrs.flatMap bf16Bytes ++
      (lenBytes edges.length ++ edges.flatMap edgeBytes))

def actionBytes (action : ActionFeature) : List UInt8 :=
  u16Bytes action.kindToken.toUInt16 ++ bf16Bytes action.staticPrior ++
    (u8Bytes (UInt8.ofNat action.subjects.length) ++ action.subjects.flatMap u32Bytes)

def opponentBytes : Option OpponentStateFeatures → List UInt8
  | none => u8Bytes 0
  | some opponent =>
    u8Bytes 1 ++ (u32Bytes opponent.nodeCount ++
      (stateBytes opponent.nodeTokens opponent.nodeAttrs opponent.edges ++
        positionBytes opponent.position))

def fieldBytes (row : FeatureRow) : List UInt8 :=
  u32Bytes row.nodeCount ++ (stateBytes row.nodeTokens row.nodeAttrs row.edges ++
      (lenBytes row.actions.length ++ row.actions.flatMap actionBytes ++
        (positionBytes row.position ++ opponentBytes row.opponent)))

variable {schema : FeatureSchema} {row : FeatureRow}

variable {nodeCount : UInt32}

theorem writeStateBody_eq_ok {nodeTokens nodeAttrs edges}
    (same : nodeTokens.length = nodeCount.toNat) :
    writeStateBody nodeCount nodeTokens nodeAttrs edges =
      .ok (stateBytes nodeTokens nodeAttrs edges) := by
  unfold writeStateBody
  rw [if_neg (not_not_intro same)]
  rfl

theorem FeatureSchema.narrow (schema : FeatureSchema) :
    schema.config.actionKindVocabSize.toNat ≤ 2 ^ 16 ∧ schema.config.maxSubjects.toNat < 2 ^ 8 := by
  have valid := schema.valid
  unfold validateConfig at valid
  simp only [throw_bind_else_eq_ok_iff] at valid
  omega

theorem writeAction_eq_ok {action isLast}
    (valid : ValidAction schema.config nodeCount action isLast) :
    writeAction action = .ok (actionBytes action) := by
  have narrow := schema.narrow
  have kind := valid.kindToken.2
  have subjects := valid.subjectCount
  rw [UInt32.lt_iff_toNat_lt] at kind
  unfold writeAction narrowIndex
  rw [if_pos (by omega)]
  change (if 2 ^ 8 ≤ action.subjects.length then _ else _) = _
  rw [if_neg (by omega)]
  rfl

theorem writeActions_eq_ok {actions} (valid : ValidActions schema.config nodeCount actions) :
    writeActions actions = .ok (actions.flatMap actionBytes) := by
  induction actions with
  | nil => rfl
  | cons action rest ih =>
    unfold writeActions
    rw [writeAction_eq_ok valid.1, ih valid.2]
    rfl

theorem writeOpponent_eq_ok {opponent} (valid : ∀ state ∈ opponent,
      ValidState state.nodeCount state.nodeTokens state.nodeAttrs state.edges
        schema.config ∧ ValidPosition state.position) :
    writeOpponent opponent = .ok (opponentBytes opponent) := by
  cases opponent with
  | none => rfl
  | some state =>
    unfold writeOpponent
    dsimp only
    rw [writeStateBody_eq_ok (valid state rfl).1.tokenCount]
    rfl

theorem encodeFeatureRow_eq_ok (valid : ValidRow row schema) : encodeFeatureRow row schema =
      .ok (rowHeader schema ++ fieldBytes row) := by
  unfold encodeFeatureRow
  rw [validate_iff.2 valid, writeStateBody_eq_ok valid.state.tokenCount,
    writeActions_eq_ok valid.actions, writeOpponent_eq_ok valid.opponent]
  rfl

end Writing

/-! ## What is read -/

section Reading

theorem toLeBytes_one (value : UInt8) : toLeBytes 1 value.toNat = u8Bytes value := by
  simp [toLeBytes, u8Bytes]

theorem reads_u8 (value : UInt8) : u8.Reads (u8Bytes value) value := by
  have reads : u8.Reads (toLeBytes 1 value.toNat) (UInt8.ofNat value.toNat) :=
    (Decoder.reads_number value.toNat_lt).map _
  rwa [UInt8.ofNat_toNat, toLeBytes_one] at reads

theorem reads_u16 (value : UInt16) : u16.Reads (u16Bytes value) value := by
  have reads : u16.Reads (u16Bytes value) (UInt16.ofNat value.toNat) :=
    (Decoder.reads_number value.toNat_lt).map _
  rwa [UInt16.ofNat_toNat] at reads

theorem reads_u32 (value : UInt32) : u32.Reads (u32Bytes value) value := by
  have reads : u32.Reads (u32Bytes value) (UInt32.ofNat value.toNat) :=
    (Decoder.reads_number value.toNat_lt).map _
  rwa [UInt32.ofNat_toNat] at reads

theorem reads_bf16 (value : F32) : bf16.Reads (bf16Bytes value) value.rounded := by
  have reads : bf16.Reads (bf16Bytes value)
      (bf16BitsToF32 (UInt16.ofNat (f32ToBf16Bits value).toNat)) :=
    (Decoder.reads_number (f32ToBf16Bits value).toNat_lt).map _
  rwa [UInt16.ofNat_toNat, F32.bf16BitsToF32_f32ToBf16Bits] at reads

theorem reads_len {length} (fits : length < 2 ^ 32) : len.Reads (lenBytes length) length := by
  have reads := (reads_u32 (UInt32.ofNat length)).map UInt32.toNat
  rw [UInt32.toNat_ofNat_of_lt' fits] at reads
  exact reads

theorem reads_ensureCount {α : Type} {decoder bytes} {value : α} {count width}
    (reads : decoder.Reads bytes value) (enough : count * width ≤ bytes.length) :
    (ensureCount count width >>= fun _ => decoder).Reads bytes value := by
  intro rest
  have long : ¬ (bytes ++ rest).length < count * width := by
    rw [length_append]
    omega
  have passes : (ensureCount count width).decode (bytes ++ rest) = .ok ((), bytes ++ rest) := by
    change (if (bytes ++ rest).length < count * width then _ else _ : Reader Unit).decode _ = _
    rw [if_neg long]
    rfl
  change ((ensureCount count width).decode (bytes ++ rest) >>= _) = _
  rw [passes]
  exact reads rest

@[simp]
theorem length_u16Bytes (value : UInt16) : (u16Bytes value).length = 2 :=
  length_toLeBytes 2 _

@[simp]
theorem length_u32Bytes (value : UInt32) : (u32Bytes value).length = 4 :=
  length_toLeBytes 4 _

@[simp]
theorem length_bf16Bytes (value : F32) : (bf16Bytes value).length = 2 :=
  length_toLeBytes 2 _

theorem length_flatMap_eq {α : Type} {items : List α} {width} {encode : α → List UInt8}
    (each : ∀ item, (encode item).length = width) :
    (items.flatMap encode).length = items.length * width := by
  induction items with
  | nil => exact (Nat.zero_mul _).symm
  | cons item items ih =>
    rw [flatMap_cons, length_append, each, ih, length_cons]
    ring

theorem reads_u16Vec {values : List UInt16} (fits : values.length < 2 ^ 32) :
    u16Vec.Reads (lenBytes values.length ++ values.flatMap u16Bytes) values := by
  refine (reads_len fits).bind (reads_ensureCount ?_ ?_)
  · have reads := Decoder.reads_repeated (fun value (_ : value ∈ values) => reads_u16 value)
    rw [map_id'] at reads
    exact reads
  · exact (length_flatMap_eq length_u16Bytes).ge

theorem reads_bf16Vec {values : List F32} (fits : values.length < 2 ^ 32) :
    bf16Vec.Reads (lenBytes values.length ++ values.flatMap bf16Bytes)
      (values.map (·.rounded)) := by
  refine (reads_len fits).bind (reads_ensureCount ?_ ?_)
  · exact Decoder.reads_repeated fun value _ => reads_bf16 value
  · exact (length_flatMap_eq length_bf16Bytes).ge

variable {schema : FeatureSchema} {row : FeatureRow} {nodeCount : UInt32}

theorem reads_readEdge {edge} (inside : edge.src < nodeCount ∧ edge.dst < nodeCount) :
    (readEdge nodeCount).Reads (edgeBytes edge) edge := by
  unfold edgeBytes
  refine (reads_u32 edge.src).bind ((reads_u32 edge.dst).bind ?_)
  refine (reads_u8 edge.edgeType).bind_nil (Decoder.Reads.unless ?_ (Decoder.reads_pure edge))
  rw [not_or, UInt32.not_le, UInt32.not_le]
  exact inside

theorem reads_readStateBody {nodeTokens : List UInt16} {nodeAttrs edges}
    (valid : ValidState nodeCount nodeTokens nodeAttrs edges schema.config)
    (rounds : ∀ attr ∈ nodeAttrs, attr.RoundsFinite) (counted : nodeAttrs.length < 2 ^ 32) :
    (readStateBody nodeCount).Reads (stateBytes nodeTokens nodeAttrs edges)
      (nodeTokens, nodeAttrs.map (·.rounded), edges) := by
  have tokenCount : nodeTokens.length < 2 ^ 32 := by
    rw [valid.tokenCount]
    exact nodeCount.toNat_lt
  have edgeCount : edges.length < 2 ^ 32 := valid.edgeCount.trans_lt schema.config.maxEdges.toNat_lt
  refine Decoder.Reads.unless valid.positive ?_
  refine (reads_u16Vec tokenCount).bind ?_
  refine Decoder.Reads.unless (not_not_intro valid.tokenCount) ?_
  refine (reads_bf16Vec counted).bind ?_
  refine Decoder.Reads.unless ?_ ?_
  · simp only [any_map, any_eq_true, not_exists, not_and,
      Function.comp, decide_eq_true_eq, Bool.not_eq_false]
    intro attr member
    exact (F32.isFinite_rounded_iff (valid.attrs attr member)).2 (rounds attr member)
  · refine (reads_len edgeCount).bind ?_
    have reads := Decoder.reads_repeated fun edge (member : edge ∈ edges) =>
      reads_readEdge ⟨(valid.edges edge member).1, (valid.edges edge member).2.1⟩
    rw [map_id'] at reads
    exact reads.map _

theorem reads_readSubject {subject} (inside : subject < nodeCount) :
    (readSubject nodeCount).Reads (u32Bytes subject) subject :=
  (reads_u32 subject).bind_nil (Decoder.Reads.unless (UInt32.not_le.2 inside)
      (Decoder.reads_pure subject))

theorem reads_readAction {action isLast} (valid : ValidAction schema.config nodeCount action isLast)
    (rounds : action.staticPrior.RoundsFinite) :
    (readAction nodeCount).Reads (actionBytes action) action.rounded := by
  have narrow := schema.narrow
  have kind := valid.kindToken.2
  have subjectCount := valid.subjectCount
  rw [UInt32.lt_iff_toNat_lt] at kind
  have widened : action.kindToken.toUInt16.toUInt32 = action.kindToken := by
    rw [← UInt32.toNat_inj, UInt16.toNat_toUInt32, UInt32.toNat_toUInt16]
    exact Nat.mod_eq_of_lt (by omega)
  have counted : (UInt8.ofNat action.subjects.length).toNat = action.subjects.length :=
    UInt8.toNat_ofNat_of_lt' (by change _ < 256; omega)
  unfold actionBytes
  rw [append_assoc]
  refine (reads_u16 _).bind ((reads_bf16 _).bind ?_)
  refine Decoder.Reads.unless ?_ ?_
  · rw [Bool.not_eq_false]
    exact (F32.isFinite_rounded_iff valid.staticPrior).2 rounds
  refine (reads_u8 _).bind ?_
  rw [counted, widened]
  have reads := Decoder.reads_repeated fun subject (member : subject ∈ action.subjects) =>
      reads_readSubject (valid.subjects subject member)
  rw [map_id'] at reads
  exact reads.map _

theorem reads_readActions {actions} (valid : ValidActions schema.config nodeCount actions)
    (rounds : ∀ action ∈ actions, action.staticPrior.RoundsFinite) :
    (Decoder.repeated (readAction nodeCount) actions.length).Reads
      (actions.flatMap actionBytes) (actions.map (·.rounded)) := by
  refine Decoder.reads_repeated fun action member => ?_
  obtain ⟨isLast, holds⟩ := valid.of_mem member
  exact reads_readAction holds (rounds action member)

theorem reads_bool (value : Bool) : u8.Reads (boolBytes value) (if value then 1 else 0) :=
  reads_u8 _

theorem reads_readPosition {position} (valid : ValidPosition position)
    (rounds : ∀ value ∈ position.floats, value.RoundsFinite) :
    readPosition.Reads (positionBytes position) position.rounded := by
  have finite := validPosition_rounded valid rounds
  unfold positionBytes
  refine (reads_u32 _).bind ((reads_u32 _).bind ?_)
  refine (reads_bf16 _).bind ((reads_bf16 _).bind ((reads_bf16 _).bind ?_))
  refine (reads_bool _).bind_nil ?_
  have present : decide ((if position.opponentPresent then (1 : UInt8)
      else 0) ≠ 0) = position.opponentPresent := by
    cases position.opponentPresent <;> rfl
  rw [present]
  refine Decoder.Reads.unless ?_ (Decoder.Reads.unless ?_ (Decoder.reads_pure _))
  · simp only [not_or, Bool.not_eq_false]
    exact ⟨finite.budgetFraction, finite.budgetStep, finite.opponentReward⟩
  · simp only [not_and, Bool.not_eq_false]
    exact finite.absent

theorem reads_readOpponent {opponent} (valid : ∀ state ∈ opponent,
      ValidState state.nodeCount state.nodeTokens state.nodeAttrs state.edges
        schema.config ∧ ValidPosition state.position)
    (rounds : ∀ state ∈ opponent, ∀ value ∈ state.floats, value.RoundsFinite)
    (counted : ∀ state ∈ opponent, state.nodeAttrs.length < 2 ^ 32) :
    readOpponent.Reads (opponentBytes opponent) (opponent.map (·.rounded)) := by
  cases opponent with
  | none => exact (reads_u8 0).bind_nil (Decoder.reads_pure none)
  | some state =>
    obtain ⟨body, position⟩ := valid state rfl
    have floats := rounds state rfl
    refine (reads_u8 1).bind ((reads_u32 _).bind ?_)
    refine (reads_readStateBody body ?_ (counted state rfl)).bind ?_
    · exact fun attr member => floats attr (mem_append_left _ member)
    · refine (reads_readPosition position ?_).map _
      exact fun value member =>
        floats value (mem_append_right _ member)

theorem reads_readRow (valid : ValidRow row schema) (fits : row.Fits) :
    readRow.Reads (fieldBytes row) row.rounded := by
  have actionCount : row.actions.length < 2 ^ 32 :=
    valid.actionCount.trans_lt schema.config.maxActions.toNat_lt
  obtain ⟨⟨attrs, priors⟩, position, opponent⟩ := forall_floats.1 fits.floats
  unfold fieldBytes
  rw [append_assoc (lenBytes row.actions.length)]
  refine (reads_u32 _).bind ?_
  refine (reads_readStateBody valid.state attrs fits.attrCount).bind ?_
  refine (reads_len actionCount).bind ?_
  refine (reads_readActions valid.actions priors).bind ?_
  refine (reads_readPosition valid.position position).bind ?_
  exact (reads_readOpponent valid.opponent opponent fits.opponentAttrCount).map _

theorem decodeFeatureRow_of_reads {fields result} (reads : readRow.Reads fields result) :
    decodeFeatureRow (rowHeader schema ++ fields) = .ok result := by
  have length : (rowHeader schema).length = rowHeaderLen := by
    unfold rowHeader
    rw [length_append, length_append, length_toLeBytes, schema.hash.length_eq]
    rfl
  have magicLength : rowMagic.length = 4 := rfl
  have header : parseRowHeader (rowHeader schema ++ fields) =
      .ok (((rowHeader schema ++ fields).drop 8).take 32) := by
    have long : ¬ (rowHeader schema ++ fields).length < rowHeaderLen := by
      rw [length_append, length]
      omega
    have shape : rowHeader schema ++ fields = rowMagic ++ (toLeBytes 4 encodingVersion ++
          (schema.hash.bytes ++ fields)) := by
      unfold rowHeader
      rw [append_assoc, append_assoc]
    have magic : (rowHeader schema ++ fields).take 4 = rowMagic := by
      rw [shape]
      exact take_left' magicLength
    have version : ofLeBytes (((rowHeader schema ++ fields).drop 4).take 4) = encodingVersion := by
      rw [shape, drop_left' magicLength, take_left' (length_toLeBytes 4 encodingVersion)]
      exact ofLeBytes_toLeBytes (by decide)
    unfold parseRowHeader
    rw [if_neg long, magic, version]
    rfl
  have body := reads []
  rw [append_nil] at body
  unfold decodeFeatureRow
  rw [header, drop_left' length]
  rw [body]
  rfl

end Reading

section Decoded

variable {row : FeatureRow}

theorem returns_len : len.Returns (· < 2 ^ 32) :=
  (Decoder.returns_true _).bind fun count _ =>
    Decoder.returns_pure count.toNat_lt

theorem returns_bf16Vec : bf16Vec.Returns (·.length < 2 ^ 32) := by
  refine returns_len.bind fun count fits => ?_
  refine (Decoder.returns_true _).bind fun _ _ => ?_
  intro input values rest decoded
  have exact := ((Decoder.returns_true bf16).repeated count input values rest decoded).1
  exact exact ▸ fits

theorem returns_readStateBody (nodeCount : UInt32) : (readStateBody nodeCount).Returns fun body =>
      body.2.1.length < 2 ^ 32 ∧ ∀ attr ∈ body.2.1, attr.isFinite = true := by
  refine Decoder.Returns.unless fun _ => ?_
  refine (Decoder.returns_true _).bind fun nodeTokens _ => ?_
  refine Decoder.Returns.unless fun _ => ?_
  refine returns_bf16Vec.bind fun nodeAttrs counted => ?_
  refine Decoder.Returns.unless fun finite => ?_
  refine (Decoder.returns_true _).bind fun edgeCount _ => ?_
  refine (Decoder.returns_true _).bind fun edges _ => ?_
  refine Decoder.returns_pure ⟨counted, ?_⟩
  simpa using finite

theorem returns_readAction (nodeCount : UInt32) :
    (readAction nodeCount).Returns (·.staticPrior.isFinite = true) := by
  refine (Decoder.returns_true _).bind fun kindToken _ => ?_
  refine (Decoder.returns_true _).bind fun staticPrior _ => ?_
  refine Decoder.Returns.unless fun finite => ?_
  refine (Decoder.returns_true _).bind fun subjectCount _ => ?_
  refine (Decoder.returns_true _).bind fun subjects _ => ?_
  exact Decoder.returns_pure (Bool.eq_true_of_not_eq_false finite)

theorem returns_readPosition : readPosition.Returns fun position =>
      ∀ value ∈ position.floats, value.isFinite = true := by
  refine (Decoder.returns_true _).bind fun rootStep _ => ?_
  refine (Decoder.returns_true _).bind fun leafDepth _ => ?_
  refine (Decoder.returns_true _).bind fun budgetFraction _ => ?_
  refine (Decoder.returns_true _).bind fun budgetStep _ => ?_
  refine (Decoder.returns_true _).bind fun opponentReward _ => ?_
  refine (Decoder.returns_true _).bind fun opponentPresent _ => ?_
  refine Decoder.Returns.unless fun finite => ?_
  refine Decoder.Returns.unless fun _ => Decoder.returns_pure ?_
  simpa [PositionFeatures.floats] using finite

theorem returns_readOpponent : readOpponent.Returns fun opponent => ∀ state ∈ opponent,
      state.nodeAttrs.length < 2 ^ 32 ∧ ∀ value ∈ state.floats, value.isFinite = true := by
  refine (Decoder.returns_true _).bind fun present _ => ?_
  refine Decoder.Returns.ite (fun _ => ?_) fun _ => Decoder.returns_pure nofun
  refine (Decoder.returns_true _).bind fun nodeCount _ => ?_
  refine (returns_readStateBody nodeCount).bind fun body fine => ?_
  refine returns_readPosition.bind fun position finite => ?_
  refine Decoder.returns_pure fun state member => ?_
  cases member
  exact ⟨fine.1, forall_mem_append.2 ⟨fine.2, finite⟩⟩

/-- The floats of a row that is read are finite and its attributes can be
counted. -/
structure Decoded (row : FeatureRow) : Prop where
  floats : ∀ value ∈ row.floats, value.isFinite = true
  attrCount : row.nodeAttrs.length < 2 ^ 32
  opponentAttrCount : ∀ opponent ∈ row.opponent,
    opponent.nodeAttrs.length < 2 ^ 32

theorem returns_readRow : readRow.Returns Decoded := by
  refine (Decoder.returns_true _).bind fun nodeCount _ => ?_
  refine (returns_readStateBody nodeCount).bind fun body fine => ?_
  refine (Decoder.returns_true _).bind fun actionCount _ => ?_
  refine ((returns_readAction nodeCount).repeated actionCount).bind fun actions priors => ?_
  refine returns_readPosition.bind fun position finite => ?_
  refine returns_readOpponent.bind fun opponent states => ?_
  refine Decoder.returns_pure ⟨forall_floats.2 ⟨⟨fine.2, priors.2⟩, finite,
    fun state member => (states state member).2⟩, fine.1,
    fun state member => (states state member).1⟩

theorem decoded_of_decodeFeatureRow {bytes} (done : decodeFeatureRow bytes = .ok row) :
    Decoded row := by
  obtain ⟨_, _, done⟩ := ok_of_bind done
  obtain ⟨read, decoded, done⟩ := ok_of_bind done
  obtain ⟨_, done⟩ := throw_bind_else_eq_ok_iff.1 done
  cases done
  exact returns_readRow _ _ _ decoded

end Decoded

section RoundTrip

variable {schema : FeatureSchema} {row : FeatureRow}

theorem flatMap_bf16Bytes_rounded (values : List F32) : (values.map (·.rounded)).flatMap bf16Bytes =
      values.flatMap bf16Bytes := by
  rw [flatMap_map]
  exact congrArg values.flatMap (funext bf16Bytes_rounded)

theorem stateBytes_rounded (nodeTokens : List UInt16)
    (nodeAttrs : List F32) (edges : List FeatureEdge) :
    stateBytes nodeTokens (nodeAttrs.map (·.rounded)) edges =
      stateBytes nodeTokens nodeAttrs edges := by
  unfold stateBytes
  rw [flatMap_bf16Bytes_rounded, length_map]

theorem positionBytes_rounded (position : PositionFeatures) :
    positionBytes position.rounded = positionBytes position := by
  unfold positionBytes PositionFeatures.rounded
  simp only [bf16Bytes_rounded]

theorem actionBytes_rounded (action : ActionFeature) :
    actionBytes action.rounded = actionBytes action := by
  unfold actionBytes ActionFeature.rounded
  simp only [bf16Bytes_rounded]

theorem opponentBytes_rounded (opponent : Option OpponentStateFeatures) :
    opponentBytes (opponent.map (·.rounded)) = opponentBytes opponent := by
  cases opponent with
  | none => rfl
  | some state =>
    unfold opponentBytes OpponentStateFeatures.rounded
    simp only [Option.map_some, stateBytes_rounded, positionBytes_rounded]

theorem fieldBytes_rounded (row : FeatureRow) : fieldBytes row.rounded = fieldBytes row := by
  unfold fieldBytes FeatureRow.rounded
  simp only [stateBytes_rounded, positionBytes_rounded,
    opponentBytes_rounded, length_map, flatMap_map,
    actionBytes_rounded]

theorem attrs_fit {nodeCount nodeTokens nodeAttrs edges}
    (valid : ValidState nodeCount nodeTokens nodeAttrs edges schema.config)
    (finite : ∀ attr ∈ nodeAttrs.map (·.rounded), attr.isFinite = true) :
    ∀ attr ∈ nodeAttrs, attr.RoundsFinite :=
  fun attr member => (F32.isFinite_rounded_iff (valid.attrs attr member)).1
    (finite _ (mem_map_of_mem member))

theorem position_fits {position : PositionFeatures} (valid : ValidPosition position)
    (finite : ∀ value ∈ position.rounded.floats, value.isFinite = true) :
    ∀ value ∈ position.floats, value.RoundsFinite := by
  obtain ⟨fraction, step, reward⟩ := forall_position_floats.1 finite
  exact forall_position_floats.2 ⟨(F32.isFinite_rounded_iff valid.budgetFraction).1 fraction,
      (F32.isFinite_rounded_iff valid.budgetStep).1 step,
      (F32.isFinite_rounded_iff valid.opponentReward).1 reward⟩

theorem fits_of_decoded (valid : ValidRow row schema)
    (decoded : Decoded row.rounded) : row.Fits := by
  obtain ⟨⟨attrs, priors⟩, position, opponent⟩ := forall_floats.1 decoded.floats
  have opponentState : ∀ state ∈ row.opponent, state.rounded ∈ row.rounded.opponent :=
    fun _ member => Option.mem_map_of_mem _ member
  have stops : ∀ action ∈ row.actions, action.staticPrior.RoundsFinite := by
    intro action member
    obtain ⟨isLast, holds⟩ := valid.actions.of_mem member
    exact (F32.isFinite_rounded_iff holds.staticPrior).1
      (priors action.rounded (mem_map_of_mem member))
  have states : ∀ state ∈ row.opponent, ∀ value ∈ state.floats, value.RoundsFinite := by
    intro state member
    obtain ⟨body, place⟩ := valid.opponent state member
    have floats := forall_mem_append.1 (opponent state.rounded (opponentState state member))
    exact forall_mem_append.2 ⟨attrs_fit body floats.1, position_fits place floats.2⟩
  exact {
    floats := forall_floats.2 ⟨⟨attrs_fit valid.state attrs, stops⟩,
      position_fits valid.position position, states⟩
    attrCount := (length_map _).ge.trans_lt decoded.attrCount
    opponentAttrCount := fun state member =>
      (length_map _).ge.trans_lt (decoded.opponentAttrCount state.rounded
          (opponentState state member)) }

/-- The row is written, read back rounded, and written again alike. -/
def RoundTrips (row : FeatureRow) (schema : FeatureSchema) : Prop :=
  ∃ bytes, encodeFeatureRow row schema = .ok bytes ∧ decodeFeatureRow bytes = .ok row.rounded ∧
      encodeFeatureRow row.rounded schema = .ok bytes

/-- A valid row comes back exactly if no float is rounded to infinity and its
attributes can be counted. -/
theorem roundTrips_iff (accepted : row.validate schema = .ok ()) :
    RoundTrips row schema ↔ row.Fits := by
  have valid := validate_iff.1 accepted
  constructor
  · rintro ⟨bytes, encoded, decoded, -⟩
    exact fits_of_decoded valid (decoded_of_decodeFeatureRow decoded)
  · intro fits
    refine ⟨_, encodeFeatureRow_eq_ok valid,
      decodeFeatureRow_of_reads (reads_readRow valid fits), ?_⟩
    rw [encodeFeatureRow_eq_ok (validRow_rounded valid fits.floats), fieldBytes_rounded]

end RoundTrip

namespace Sample

def config : FeatureSchemaConfig where
  name := "sample"
  nodeVocabSize := 4
  nodeAttrDim := 1
  edgeTypeCount := 1
  actionKindVocabSize := 3
  maxNodes := 2
  maxEdges := 2
  maxActions := 2
  maxSubjects := 2
  opponentRewardScale := ⟨0x3f800000⟩
  expanderDegree := 0
  expanderSeed := 0

def schema : FeatureSchema where
  config
  hash := ⟨List.replicate 32 0, rfl⟩
  valid := by decide +kernel

/-- One node with an attribute, and a stop. -/
def row (attr : F32) : FeatureRow where
  nodeCount := 1
  nodeTokens := [1]
  nodeAttrs := [attr]
  edges := [⟨0, 0, 0⟩]
  actions := [⟨2, ⟨0x3f8ccccd⟩, [0]⟩, ⟨1, F32.zero, []⟩]
  position := ⟨0, 0, ⟨0x3f800000⟩, F32.zero, F32.zero, false⟩
  opponent := none

def largest : F32 := ⟨0x7f7fffff⟩

end Sample

/-- A row with the largest finite float is written and cannot be read. -/
theorem largest_is_lost : ¬ ∀ (row : FeatureRow) (schema : FeatureSchema),
      row.validate schema = .ok () → RoundTrips row schema := by
  intro all
  have accepted : (Sample.row Sample.largest).validate Sample.schema = .ok () := by
    decide +kernel
  obtain ⟨bytes, encoded, decoded, -⟩ := all _ _ accepted
  have lost : (encodeFeatureRow (Sample.row Sample.largest) Sample.schema).bind decodeFeatureRow =
        .error (.invalidEncoding "non-finite node attr") := by
    decide +kernel
  rw [encoded] at lost
  cases decoded.symm.trans lost

theorem roundTrips_of_small_row : RoundTrips (Sample.row ⟨0x3dcccccd⟩) Sample.schema :=
  (roundTrips_iff (by decide +kernel)).mpr ⟨by decide, by decide, nofun⟩

end GraphZero.Features
