import GraphZero.Engine.Refs
import GraphZero.Foundation.Effect
import GraphZero.Foundation.Scalar

/-!
# Search work

A search does not call the engine or the model: it hands out work under a
token and is resumed with the result.  `G` and `C` are the engine's handles
for graphs and candidates and `F` its scalars.
-/

namespace GraphZero.Search

open Engine Foundation

inductive EvalError (F : Type) where
  | emptyActions
  | missingStop
  | duplicateStop (first second : Nat)
  | stopNotLast (index last : Nat)
  | actionContextMismatch (expected actual : ReplayGraphContext)
  | actionKindMismatch (actionIndex : Nat)
  | nonFiniteStaticPrior (actionIndex : Nat) (staticPrior : F)
  | policyLenMismatch (expected actual : Nat)
  | nonFinitePolicyLogit (index : Nat) (value : F)
  | nonFiniteValue (value : F)
  deriving DecidableEq

inductive EvalActionMetadata (F : Type) where
  | candidate (kind : CandidateKindId) (tags : CandidateTags)
    (staticPrior : F)
  | stop
  deriving DecidableEq

structure EvalAction (F : Type) where
  actionRef : PortableSearchActionRef
  metadata : EvalActionMetadata F
  deriving DecidableEq

namespace EvalAction

variable {F : Type}

def candidate (reference : PortableCandidateRef) (kind : CandidateKindId)
    (tags : CandidateTags) (staticPrior : F) : EvalAction F :=
  ⟨.candidate reference, .candidate kind tags staticPrior⟩

def stop (context : ReplayGraphContext) : EvalAction F :=
  ⟨.stop context, .stop⟩

end EvalAction

structure EvalPositionContext (F : Type) where
  rootStep : UInt32
  leafDepth : UInt32
  budgetFraction : F
  budgetStep : F
  deriving DecidableEq

structure EvalRequest (F : Type) where
  context : ReplayGraphContext
  actions : List (EvalAction F)
  position : EvalPositionContext F
  deriving DecidableEq

structure EvalOutput (F : Type) where
  modelVersion : ModelVersion
  policyLogits : List F
  value : F

section Validation

variable {F : Type} [Scalar F]

/-- The check of the actions from `index` on; `stopIndex` is where a stop was
seen. -/
def validateActions (context : ReplayGraphContext) :
    List (EvalAction F) → (index : Nat) → (stopIndex : Option Nat) →
      Except (EvalError F) (Option Nat)
  | [], _, stopIndex => .ok stopIndex
  | action :: rest, index, stopIndex => do
      let actual := action.actionRef.context
      if actual ≠ context then
        throw (.actionContextMismatch context actual)
      match action.metadata, action.actionRef with
      | .candidate _ _ staticPrior, .candidate _ =>
        if Scalar.isFinite staticPrior = false then
          throw (.nonFiniteStaticPrior index staticPrior)
        validateActions context rest (index + 1) stopIndex
      | .stop, .stop _ =>
        match stopIndex with
        | some first => throw (.duplicateStop first index)
        | none => validateActions context rest (index + 1) (some index)
      | _, _ => throw (.actionKindMismatch index)

def EvalRequest.validateRef (request : EvalRequest F) : Except (EvalError F) Unit := do
  if request.actions.isEmpty then
    throw .emptyActions
  match ← validateActions request.context request.actions 0 none with
  | none => throw .missingStop
  | some stopIndex =>
    let last := request.actions.length - 1
    if stopIndex ≠ last then
      throw (.stopNotLast stopIndex last)

def EvalRequest.withPosition (context : ReplayGraphContext)
    (actions : List (EvalAction F)) (position : EvalPositionContext F) :
    Except (EvalError F) (EvalRequest F) := do
  let request : EvalRequest F := ⟨context, actions, position⟩
  request.validateRef
  pure request

def validateLogits : List F → (index : Nat) → Except (EvalError F) Unit
  | [], _ => .ok ()
  | value :: rest, index =>
    if Scalar.isFinite value = false then
      .error (.nonFinitePolicyLogit index value)
    else
      validateLogits rest (index + 1)

def EvalOutput.validateFor (output : EvalOutput F)
    (request : EvalRequest F) : Except (EvalError F) Unit := do
  if output.policyLogits.length ≠ request.actions.length then
    throw (.policyLenMismatch request.actions.length output.policyLogits.length)
  validateLogits output.policyLogits 0
  if Scalar.isFinite output.value = false then
    throw (.nonFiniteValue output.value)

end Validation

/-! ## Work and its results -/

structure WorkToken where
  value : Nat
  deriving DecidableEq

structure ExpandWork (G : Type) where
  token : WorkToken
  graph : G
  options : CandidateOptions
  deriving DecidableEq

structure ApplyWork (G C : Type) where
  token : WorkToken
  graph : G
  candidate : C
  deriving DecidableEq

structure MeasurePairWork (G : Type) where
  token : WorkToken
  /-- The graph of player one, then that of player two. -/
  graphs : G × G
  options : MeasureOptions
  deriving DecidableEq

structure EvalOpponentWork (G F : Type) where
  graph : G
  position : EvalPositionContext F
  deriving DecidableEq

structure EvalWork (G C F : Type) where
  token : WorkToken
  graph : G
  candidates : List C
  request : EvalRequest F
  measureOptions : MeasureOptions
  opponent : Option (EvalOpponentWork G F)
  deriving DecidableEq

inductive WorkKind where
  | expand
  | apply
  | measurePair
  | eval
  deriving DecidableEq

inductive SearchWork (G C F : Type) where
  | expand (work : ExpandWork G)
  | apply (work : ApplyWork G C)
  | measurePair (work : MeasurePairWork G)
  | eval (work : EvalWork G C F)
  deriving DecidableEq

namespace SearchWork

variable {G C F : Type}

def token : SearchWork G C F → WorkToken
  | expand work => work.token
  | apply work => work.token
  | measurePair work => work.token
  | eval work => work.token

def kind : SearchWork G C F → WorkKind
  | expand _ => .expand
  | apply _ => .apply
  | measurePair _ => .measurePair
  | eval _ => .eval

/-- The same work under another token. -/
def retokenize (token : WorkToken) : SearchWork G C F → SearchWork G C F
  | expand work => expand { work with token }
  | apply work => apply { work with token }
  | measurePair work => measurePair { work with token }
  | eval work => eval { work with token }

@[simp]
theorem token_retokenize (token : WorkToken) (work : SearchWork G C F) :
    (work.retokenize token).token = token := by
  cases work <;> rfl

@[simp]
theorem kind_retokenize (token : WorkToken) (work : SearchWork G C F) :
    (work.retokenize token).kind = work.kind := by
  cases work <;> rfl

end SearchWork

structure ExpandedCandidate (C F : Type) where
  candidate : C
  candidateHash : CandidateHash
  kind : CandidateKindId
  tags : CandidateTags
  staticPrior : F

structure ExpandResult (C F : Type) where
  graphHash : GraphHash
  candidates : List (ExpandedCandidate C F)

structure ApplyResult (G : Type) where
  after : G
  afterHash : GraphHash
  rejected : Bool

inductive SearchWorkResult (G C F : Type) where
  | expand (result : ExpandResult C F)
  | apply (result : ApplyResult G)
  | measurePair (first second : MeasureResult G F)
  | eval (output : EvalOutput F)

def SearchWorkResult.kind {G C F : Type} : SearchWorkResult G C F → WorkKind
  | expand _ => .expand
  | apply _ => .apply
  | measurePair _ _ => .measurePair
  | eval _ => .eval

/-- The result is of the kind the work asks for. -/
def SearchWorkResult.answers {G C F : Type}
    (result : SearchWorkResult G C F) (work : SearchWork G C F) : Prop :=
  result.kind = work.kind

instance {G C F : Type} (result : SearchWorkResult G C F)
    (work : SearchWork G C F) : Decidable (result.answers work) :=
  inferInstanceAs (Decidable (_ = _))

inductive SearchPoll (G C F R : Type) where
  | work (work : SearchWork G C F)
  | blocked
  | done (result : R)

structure SearchHandleBatch (G C : Type) where
  graphs : List G
  candidates : List C

namespace SearchHandleBatch

variable {G C : Type}

def empty : SearchHandleBatch G C := ⟨[], []⟩

def append (first second : SearchHandleBatch G C) : SearchHandleBatch G C :=
  ⟨first.graphs ++ second.graphs, first.candidates ++ second.candidates⟩

end SearchHandleBatch

/-- Why a search computation stops without a result: an engine error, an
index out of range, or a loop that has not come to its end. -/
inductive SearchFailure (F : Type) where
  | internal (message : String)
  | evaluation (error : EvalError F)
  | panicked
  | unfinished
  deriving DecidableEq

end GraphZero.Search
