import GraphZero.Features.Bfloat
import GraphZero.Foundation.Result

/-!
# Feature rows

What a model sees of a position: the graph as tokens, attributes and edges,
the actions, and where the game stands.  A schema bounds all of it.
-/

namespace GraphZero.Features

inductive FeatureError where
  | invalidSchema (message : String)
  | nodeOverflow (max actual : UInt32)
  | edgeOverflow (max : UInt32) (actual : Nat)
  | actionOverflow (max : UInt32) (actual : Nat)
  | subjectOverflow (max : UInt32) (actual : Nat)
  | invalidRow (message : String)
  | batchOverflow (capacity actual : Nat)
  | emptyBatch
  | invalidEncoding (message : String)
  deriving DecidableEq

abbrev FeatureResult (α : Type) : Type := Except FeatureError α

/-- The version of the rows and the training targets. -/
def encodingVersion : Nat := 6

def batchEncodingVersion : Nat := 6

def stopActionKindToken : UInt32 := 1

structure FeatureSchemaConfig where
  name : String
  nodeVocabSize : UInt16
  nodeAttrDim : UInt16
  edgeTypeCount : UInt8
  actionKindVocabSize : UInt32
  maxNodes : UInt32
  maxEdges : UInt32
  maxActions : UInt32
  maxSubjects : UInt32
  opponentRewardScale : F32
  expanderDegree : UInt8
  expanderSeed : UInt64
  deriving DecidableEq

def validateConfig (config : FeatureSchemaConfig) : FeatureResult Unit := do
  if config.name.isEmpty then
    throw (.invalidSchema "name must be non-empty")
  if config.nodeVocabSize < 2 then
    throw (.invalidSchema "node_vocab_size must be >= 2")
  if config.actionKindVocabSize < 3 then
    throw (.invalidSchema "action_kind_vocab_size must be >= 3")
  if 2 ^ 16 < config.actionKindVocabSize.toNat then
    throw (.invalidSchema "action_kind_vocab_size exceeds u16 wire width")
  if config.maxNodes = 0 then
    throw (.invalidSchema "max_nodes must be positive")
  if config.maxEdges = 0 then
    throw (.invalidSchema "max_edges must be positive")
  if config.maxActions = 0 then
    throw (.invalidSchema "max_actions must be positive")
  if config.maxSubjects = 0 then
    throw (.invalidSchema "max_subjects must be positive")
  if 2 ^ 8 - 1 < config.maxSubjects.toNat then
    throw (.invalidSchema "max_subjects exceeds u8 wire width")
  if config.opponentRewardScale.isFinite = false ∨
      config.opponentRewardScale.isPositive = false then
    throw (.invalidSchema "opponent_reward_scale must be finite and positive")
  if 0 < config.expanderDegree then
    if config.edgeTypeCount = 0 then
      throw (.invalidSchema "edge_type_count must include expander type")
    let required := config.expanderDegree.toNat * config.maxNodes.toNat + 1
    if 2 ^ 32 ≤ required then
      throw (.invalidSchema "expander edge budget overflow")
    if config.maxEdges.toNat < required then
      throw (.invalidSchema "max_edges too small for expander_degree")

structure FeatureSchemaHash where
  bytes : List UInt8
  length_eq : bytes.length = 32
  deriving DecidableEq

/-- A valid configuration and what it hashes to. -/
structure FeatureSchema where
  config : FeatureSchemaConfig
  hash : FeatureSchemaHash
  valid : validateConfig config = .ok ()

/-! ## Rows -/

structure FeatureEdge where
  src : UInt32
  dst : UInt32
  edgeType : UInt8
  deriving DecidableEq

structure ActionFeature where
  kindToken : UInt32
  staticPrior : F32
  subjects : List UInt32
  deriving DecidableEq

structure PositionFeatures where
  rootStep : UInt32
  leafDepth : UInt32
  budgetFraction : F32
  budgetStep : F32
  opponentReward : F32
  opponentPresent : Bool
  deriving DecidableEq

structure OpponentStateFeatures where
  nodeCount : UInt32
  nodeTokens : List UInt16
  nodeAttrs : List F32
  edges : List FeatureEdge
  position : PositionFeatures
  deriving DecidableEq

structure FeatureRow where
  nodeCount : UInt32
  nodeTokens : List UInt16
  nodeAttrs : List F32
  edges : List FeatureEdge
  actions : List ActionFeature
  position : PositionFeatures
  opponent : Option OpponentStateFeatures
  deriving DecidableEq

def validateTokens (config : FeatureSchemaConfig) : List UInt16 → FeatureResult Unit
  | [] => pure ()
  | token :: rest => do
      if token = 0 ∨ config.nodeVocabSize ≤ token then
        throw (.invalidRow "node token out of range")
      validateTokens config rest

def validateEdges (config : FeatureSchemaConfig) (nodeCount : UInt32) :
    List FeatureEdge → FeatureResult Unit
  | [] => pure ()
  | edge :: rest => do
      if nodeCount ≤ edge.src ∨ nodeCount ≤ edge.dst then
        throw (.invalidRow "edge endpoint out of range")
      if config.edgeTypeCount ≤ edge.edgeType then
        throw (.invalidRow "edge type out of range")
      validateEdges config nodeCount rest

def validateState (nodeCount : UInt32) (nodeTokens : List UInt16)
    (nodeAttrs : List F32) (edges : List FeatureEdge)
    (config : FeatureSchemaConfig) : FeatureResult Unit := do
  if nodeCount = 0 then
    throw (.invalidRow "node_count must be positive")
  if config.maxNodes < nodeCount then
    throw (.nodeOverflow config.maxNodes nodeCount)
  if nodeTokens.length ≠ nodeCount.toNat then
    throw (.invalidRow "node token length mismatch")
  validateTokens config nodeTokens
  if nodeAttrs.length ≠ nodeCount.toNat * config.nodeAttrDim.toNat then
    throw (.invalidRow "node attr length mismatch")
  if nodeAttrs.any (·.isFinite = false) then
    throw (.invalidRow "non-finite node attr")
  if config.maxEdges.toNat < edges.length then
    throw (.edgeOverflow config.maxEdges edges.length)
  validateEdges config nodeCount edges

def validatePosition (position : PositionFeatures) : FeatureResult Unit := do
  if position.budgetFraction.isFinite = false ∨ position.budgetStep.isFinite = false ∨
        position.opponentReward.isFinite = false then
    throw (.invalidRow "non-finite position feature")
  if position.opponentPresent = false ∧ position.opponentReward.isZero = false then
    throw (.invalidRow "absent opponent must have zero reward")

/-- The check of one action; the last one stops. -/
def validateAction (config : FeatureSchemaConfig) (nodeCount : UInt32)
    (action : ActionFeature) (isLast : Bool) : FeatureResult Unit := do
  if action.kindToken = 0 ∨ config.actionKindVocabSize ≤ action.kindToken then
    throw (.invalidRow "action kind token out of range")
  if action.staticPrior.isFinite = false then
    throw (.invalidRow "non-finite action static prior")
  if config.maxSubjects.toNat < action.subjects.length then
    throw (.subjectOverflow config.maxSubjects action.subjects.length)
  if action.subjects.any (nodeCount ≤ ·) then
    throw (.invalidRow "action subject out of range")
  if action.kindToken = stopActionKindToken then
    if isLast = false then
      throw (.invalidRow "STOP action must be last")
    if action.subjects.isEmpty = false ∨ action.staticPrior.isZero = false then
      throw (.invalidRow "STOP action payload must be empty")
  else if isLast then
    throw (.invalidRow "last action must be STOP")

def validateActions (config : FeatureSchemaConfig) (nodeCount : UInt32) :
    List ActionFeature → FeatureResult Unit
  | [] => pure ()
  | action :: rest => do
      validateAction config nodeCount action rest.isEmpty
      validateActions config nodeCount rest

def FeatureRow.validate (row : FeatureRow) (schema : FeatureSchema) : FeatureResult Unit := do
  let config := schema.config
  validateState row.nodeCount row.nodeTokens row.nodeAttrs row.edges config
  if config.maxActions.toNat < row.actions.length then
    throw (.actionOverflow config.maxActions row.actions.length)
  validateActions config row.nodeCount row.actions
  validatePosition row.position
  match row.opponent with
  | none => pure ()
  | some opponent =>
    validateState opponent.nodeCount opponent.nodeTokens opponent.nodeAttrs opponent.edges config
    validatePosition opponent.position

/-! ## Valid rows -/

structure ValidState (nodeCount : UInt32) (nodeTokens : List UInt16)
    (nodeAttrs : List F32) (edges : List FeatureEdge)
    (config : FeatureSchemaConfig) : Prop where
  positive : nodeCount ≠ 0
  nodes : nodeCount ≤ config.maxNodes
  tokenCount : nodeTokens.length = nodeCount.toNat
  tokens : ∀ token ∈ nodeTokens, token ≠ 0 ∧ token < config.nodeVocabSize
  attrCount : nodeAttrs.length = nodeCount.toNat * config.nodeAttrDim.toNat
  attrs : ∀ attr ∈ nodeAttrs, attr.isFinite = true
  edgeCount : edges.length ≤ config.maxEdges.toNat
  edges : ∀ edge ∈ edges, edge.src < nodeCount ∧ edge.dst < nodeCount ∧
    edge.edgeType < config.edgeTypeCount

structure ValidPosition (position : PositionFeatures) : Prop where
  budgetFraction : position.budgetFraction.isFinite = true
  budgetStep : position.budgetStep.isFinite = true
  opponentReward : position.opponentReward.isFinite = true
  absent : position.opponentPresent = false → position.opponentReward.isZero = true

structure ValidAction (config : FeatureSchemaConfig) (nodeCount : UInt32)
    (action : ActionFeature) (isLast : Bool) : Prop where
  kindToken : action.kindToken ≠ 0 ∧ action.kindToken < config.actionKindVocabSize
  staticPrior : action.staticPrior.isFinite = true
  subjectCount : action.subjects.length ≤ config.maxSubjects.toNat
  subjects : ∀ subject ∈ action.subjects, subject < nodeCount
  stops : action.kindToken = stopActionKindToken ↔ isLast = true
  payload : isLast = true → action.subjects = [] ∧ action.staticPrior.isZero = true

/-- The actions are valid and the last one alone stops. -/
def ValidActions (config : FeatureSchemaConfig) (nodeCount : UInt32) : List ActionFeature → Prop
  | [] => True
  | action :: rest =>
    ValidAction config nodeCount action rest.isEmpty ∧ ValidActions config nodeCount rest

theorem ValidActions.of_mem {config nodeCount actions action}
    (valid : ValidActions config nodeCount actions) (member : action ∈ actions) :
    ∃ isLast, ValidAction config nodeCount action isLast := by
  induction actions with
  | nil => cases member
  | cons first rest ih =>
    rcases List.mem_cons.1 member with rfl | later
    · exact ⟨rest.isEmpty, valid.1⟩
    · exact ih valid.2 later

structure ValidRow (row : FeatureRow) (schema : FeatureSchema) : Prop where
  state : ValidState row.nodeCount row.nodeTokens row.nodeAttrs row.edges schema.config
  actionCount : row.actions.length ≤ schema.config.maxActions.toNat
  actions : ValidActions schema.config row.nodeCount row.actions
  position : ValidPosition row.position
  opponent : ∀ opponent ∈ row.opponent,
    ValidState opponent.nodeCount opponent.nodeTokens opponent.nodeAttrs
      opponent.edges schema.config ∧ ValidPosition opponent.position

section Validation

open Foundation

variable {config : FeatureSchemaConfig} {nodeCount : UInt32}
  {nodeTokens : List UInt16} {nodeAttrs : List F32} {edges : List FeatureEdge}

theorem validateTokens_iff : validateTokens config nodeTokens = .ok () ↔
      ∀ token ∈ nodeTokens, token ≠ 0 ∧ token < config.nodeVocabSize := by
  induction nodeTokens with
  | nil => exact iff_of_true rfl nofun
  | cons token rest ih =>
    unfold validateTokens
    rw [throw_bind_else_eq_ok_iff, ih, List.forall_mem_cons, not_or, UInt16.not_le]

theorem validateEdges_iff : validateEdges config nodeCount edges = .ok () ↔
      ∀ edge ∈ edges, edge.src < nodeCount ∧ edge.dst < nodeCount ∧
        edge.edgeType < config.edgeTypeCount := by
  induction edges with
  | nil => exact iff_of_true rfl nofun
  | cons edge rest ih =>
    unfold validateEdges
    rw [throw_bind_else_eq_ok_iff, throw_bind_else_eq_ok_iff,
      ih, List.forall_mem_cons, not_or, UInt32.not_le,
      UInt32.not_le, UInt8.not_le, and_assoc, and_assoc, and_assoc]

theorem validateState_iff : validateState nodeCount nodeTokens nodeAttrs edges config = .ok () ↔
      ValidState nodeCount nodeTokens nodeAttrs edges config := by
  unfold validateState
  rw [throw_bind_else_eq_ok_iff, throw_bind_else_eq_ok_iff,
    throw_bind_else_eq_ok_iff, bind_eq_ok_iff, throw_bind_else_eq_ok_iff,
    throw_bind_else_eq_ok_iff, throw_bind_else_eq_ok_iff,
    validateTokens_iff, validateEdges_iff, UInt32.not_lt, not_not,
    Nat.not_lt, not_not]
  have attrs : ¬ nodeAttrs.any (·.isFinite = false) = true ↔
      ∀ attr ∈ nodeAttrs, attr.isFinite = true := by
    simp
  rw [attrs]
  constructor
  · rintro ⟨pos, nodes, tokenCount, tokens, attrCount, attrs, edgeCount, edges⟩
    exact ⟨pos, nodes, tokenCount, tokens, attrCount, attrs, edgeCount, edges⟩
  · rintro ⟨pos, nodes, tokenCount, tokens, attrCount, attrs, edgeCount, edges⟩
    exact ⟨pos, nodes, tokenCount, tokens, attrCount, attrs, edgeCount, edges⟩

theorem validatePosition_iff {position} :
    validatePosition position = .ok () ↔ ValidPosition position := by
  unfold validatePosition
  rw [throw_bind_else_eq_ok_iff, throw_else_eq_ok_iff]
  simp only [not_or, not_and, Bool.not_eq_false]
  constructor
  · rintro ⟨⟨budgetFraction, budgetStep, opponentReward⟩, absent, -⟩
    exact ⟨budgetFraction, budgetStep, opponentReward, absent⟩
  · rintro ⟨budgetFraction, budgetStep, opponentReward, absent⟩
    exact ⟨⟨budgetFraction, budgetStep, opponentReward⟩, absent, rfl⟩

theorem validateAction_iff {action isLast} :
    validateAction config nodeCount action isLast = .ok () ↔
      ValidAction config nodeCount action isLast := by
  unfold validateAction
  rw [throw_bind_else_eq_ok_iff, throw_bind_else_eq_ok_iff,
    throw_bind_else_eq_ok_iff, throw_bind_else_eq_ok_iff, not_or,
    UInt32.not_le, Bool.not_eq_false, Nat.not_lt]
  have subjects : ¬ action.subjects.any (nodeCount ≤ ·) = true ↔
      ∀ subject ∈ action.subjects, subject < nodeCount := by
    simp
  rw [subjects]
  by_cases stop : action.kindToken = stopActionKindToken
  · rw [if_pos stop, throw_bind_else_eq_ok_iff, throw_else_eq_ok_iff]
    simp only [not_or, Bool.not_eq_false, List.isEmpty_iff]
    constructor
    · rintro ⟨kindToken, staticPrior, subjectCount, subjects, last, payload, -⟩
      exact ⟨kindToken, staticPrior, subjectCount, subjects,
        iff_of_true stop last, fun _ => payload⟩
    · rintro ⟨kindToken, staticPrior, subjectCount, subjects, stops, payload⟩
      have last := stops.1 stop
      exact ⟨kindToken, staticPrior, subjectCount, subjects, last, payload last, rfl⟩
  · rw [if_neg stop, throw_else_eq_ok_iff]
    constructor
    · rintro ⟨kindToken, staticPrior, subjectCount, subjects, last, -⟩
      exact ⟨kindToken, staticPrior, subjectCount, subjects,
        iff_of_false stop last, fun isLast => absurd isLast last⟩
    · rintro ⟨kindToken, staticPrior, subjectCount, subjects, stops, -⟩
      exact ⟨kindToken, staticPrior, subjectCount, subjects, fun last => stop (stops.2 last), rfl⟩

theorem validateActions_iff {actions} :
    validateActions config nodeCount actions = .ok () ↔ ValidActions config nodeCount actions := by
  induction actions with
  | nil => exact iff_of_true rfl trivial
  | cons action rest ih =>
    unfold validateActions ValidActions
    rw [bind_eq_ok_iff, validateAction_iff, ih]

theorem validate_iff {row schema} : row.validate schema = .ok () ↔ ValidRow row schema := by
  unfold FeatureRow.validate
  rw [bind_eq_ok_iff, throw_bind_else_eq_ok_iff, bind_eq_ok_iff,
    bind_eq_ok_iff, validateState_iff, Nat.not_lt, validateActions_iff,
    validatePosition_iff]
  cases same : row.opponent with
  | none =>
    constructor
    · rintro ⟨state, actionCount, actions, position, -⟩
      exact ⟨state, actionCount, actions, position,
        fun _ member => by rw [same] at member; cases member⟩
    · rintro ⟨state, actionCount, actions, position, -⟩
      exact ⟨state, actionCount, actions, position, rfl⟩
  | some opponent =>
    rw [bind_eq_ok_iff, validateState_iff, validatePosition_iff]
    constructor
    · rintro ⟨state, actionCount, actions, position, both⟩
      refine ⟨state, actionCount, actions, position, fun _ member => ?_⟩
      rw [same] at member
      cases member
      exact both
    · rintro ⟨state, actionCount, actions, position, both⟩
      exact ⟨state, actionCount, actions, position, both _ same⟩

end Validation

end GraphZero.Features
