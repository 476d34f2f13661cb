import GraphZero.Foundation.Result
import GraphZero.Whittle.Graph

/-!
# Rewrite rules

The candidates of a graph are found by matching every node against every rule;
the inverse rules need no match.  Applying one adds the nodes of the
replacement, makes every gate refer to it in place of the matched node and
compacts the graph.
-/

namespace GraphZero.Whittle

open Foundation

abbrev maxMatched : Nat := 8

inductive RuleId where
  | andFalse
  | andTrue
  | orFalse
  | orTrue
  | notFalse
  | notTrue
  | andIdempotent
  | orIdempotent
  | andComplement
  | orComplement
  | doubleNegation
  | commuteAnd
  | commuteOr
  | associateAndLeft
  | associateAndRight
  | associateOrLeft
  | associateOrRight
  | absorbOrAnd
  | absorbAndOr
  | deMorganNotAnd
  | deMorganNotOr
  | deMorganOrNots
  | deMorganAndNots
  | distributeOrFactor
  | distributeOrExpand
  | distributeAndFactor
  | distributeAndExpand
  | consensusOrAdd
  | consensusOrRemove
  | consensusAndAdd
  | consensusAndRemove
  | andFalseInverse
  | andTrueInverse
  | orFalseInverse
  | orTrueInverse
  | notFalseInverse
  | notTrueInverse
  | andIdempotentInverse
  | orIdempotentInverse
  | andComplementInverse
  | orComplementInverse
  | doubleNegationInverse
  | absorbOrAndInverse
  | absorbAndOrInverse

inductive RuleError where
  | unknownRule (rule : Nat)
  | badMatchLength
  | invalidCandidate (message : String)
  | capacityExceeded
  | graph (error : GraphError)
  deriving DecidableEq

namespace RuleId

def fromU16 : Nat → Except RuleError RuleId
  | 0 => .ok .andFalse
  | 1 => .ok .andTrue
  | 2 => .ok .orFalse
  | 3 => .ok .orTrue
  | 4 => .ok .notFalse
  | 5 => .ok .notTrue
  | 6 => .ok .andIdempotent
  | 7 => .ok .orIdempotent
  | 8 => .ok .andComplement
  | 9 => .ok .orComplement
  | 10 => .ok .doubleNegation
  | 11 => .ok .commuteAnd
  | 12 => .ok .commuteOr
  | 13 => .ok .associateAndLeft
  | 14 => .ok .associateAndRight
  | 15 => .ok .associateOrLeft
  | 16 => .ok .associateOrRight
  | 17 => .ok .absorbOrAnd
  | 18 => .ok .absorbAndOr
  | 19 => .ok .deMorganNotAnd
  | 20 => .ok .deMorganNotOr
  | 21 => .ok .deMorganOrNots
  | 22 => .ok .deMorganAndNots
  | 23 => .ok .distributeOrFactor
  | 24 => .ok .distributeOrExpand
  | 25 => .ok .distributeAndFactor
  | 26 => .ok .distributeAndExpand
  | 27 => .ok .consensusOrAdd
  | 28 => .ok .consensusOrRemove
  | 29 => .ok .consensusAndAdd
  | 30 => .ok .consensusAndRemove
  | 31 => .ok .andFalseInverse
  | 32 => .ok .andTrueInverse
  | 33 => .ok .orFalseInverse
  | 34 => .ok .orTrueInverse
  | 35 => .ok .notFalseInverse
  | 36 => .ok .notTrueInverse
  | 37 => .ok .andIdempotentInverse
  | 38 => .ok .orIdempotentInverse
  | 39 => .ok .andComplementInverse
  | 40 => .ok .orComplementInverse
  | 41 => .ok .doubleNegationInverse
  | 42 => .ok .absorbOrAndInverse
  | 43 => .ok .absorbAndOrInverse
  | rule => .error (.unknownRule rule)

def asU16 : RuleId → Nat
  | .andFalse => 0
  | .andTrue => 1
  | .orFalse => 2
  | .orTrue => 3
  | .notFalse => 4
  | .notTrue => 5
  | .andIdempotent => 6
  | .orIdempotent => 7
  | .andComplement => 8
  | .orComplement => 9
  | .doubleNegation => 10
  | .commuteAnd => 11
  | .commuteOr => 12
  | .associateAndLeft => 13
  | .associateAndRight => 14
  | .associateOrLeft => 15
  | .associateOrRight => 16
  | .absorbOrAnd => 17
  | .absorbAndOr => 18
  | .deMorganNotAnd => 19
  | .deMorganNotOr => 20
  | .deMorganOrNots => 21
  | .deMorganAndNots => 22
  | .distributeOrFactor => 23
  | .distributeOrExpand => 24
  | .distributeAndFactor => 25
  | .distributeAndExpand => 26
  | .consensusOrAdd => 27
  | .consensusOrRemove => 28
  | .consensusAndAdd => 29
  | .consensusAndRemove => 30
  | .andFalseInverse => 31
  | .andTrueInverse => 32
  | .orFalseInverse => 33
  | .orTrueInverse => 34
  | .notFalseInverse => 35
  | .notTrueInverse => 36
  | .andIdempotentInverse => 37
  | .orIdempotentInverse => 38
  | .andComplementInverse => 39
  | .orComplementInverse => 40
  | .doubleNegationInverse => 41
  | .absorbOrAndInverse => 42
  | .absorbAndOrInverse => 43

end RuleId

def reverseConstantFoldingRule : RuleId → Bool
  | .andFalseInverse | .andTrueInverse | .orFalseInverse | .orTrueInverse
  | .notFalseInverse | .notTrueInverse => true
  | _ => false

/-- How many nodes a replacement adds. -/
def replacementExtraNodes : RuleId → Int
  | .andFalse | .andTrue | .orFalse | .orTrue | .andIdempotent | .orIdempotent
  | .absorbOrAnd | .absorbAndOr | .consensusOrRemove | .consensusAndRemove
  | .doubleNegation => 0
  | .andFalseInverse | .andTrueInverse | .orFalseInverse | .orTrueInverse
  | .notFalseInverse | .notTrueInverse | .andIdempotentInverse
  | .orIdempotentInverse | .andComplementInverse | .orComplementInverse
  | .notFalse | .notTrue | .andComplement | .orComplement | .commuteAnd
  | .commuteOr => 1
  | .doubleNegationInverse | .absorbOrAndInverse | .absorbAndOrInverse
  | .associateAndLeft | .associateAndRight | .associateOrLeft
  | .associateOrRight | .deMorganOrNots | .deMorganAndNots
  | .distributeOrFactor | .distributeAndFactor | .consensusOrAdd
  | .consensusAndAdd => 2
  | _ => 3

structure RawCandidate where
  ruleId : Nat
  root : Nat
  matchLen : Nat
  matched : Fin maxMatched → Nat

namespace RawCandidate

def matchedSlice (candidate : RawCandidate) : List Nat :=
  (List.ofFn candidate.matched).take candidate.matchLen

/-- The numbers that identify a candidate. -/
def key (candidate : RawCandidate) : List Nat :=
  candidate.ruleId :: candidate.root :: candidate.matchLen :: List.ofFn candidate.matched

end RawCandidate

namespace GraphBody

variable (graph : GraphBody)

def signalRef (node : Nat) : Bool :=
  decide (node < graph.op.length) && decide (graph.opAt node ≠ .output)

def constSignal (node : Nat) : Option Bool :=
  match graph.opAt node with
  | .const => some (decide (graph.arg0At node ≠ 0))
  | _ => none

def notSignal (node : Nat) : Option Nat :=
  match graph.opAt node with
  | .not =>
    if graph.signalRef (graph.arg0At node) then some (graph.arg0At node)
    else none
  | _ => none

/-- The arguments of a gate of the given kind. -/
def pairFor (kind : OpCode) (node : Nat) : Option (Nat × Nat) :=
  if graph.opAt node = kind ∧ graph.signalRef (graph.arg0At node) ∧
      graph.signalRef (graph.arg1At node) then
    some (graph.arg0At node, graph.arg1At node)
  else none

def firstConst (value : Bool) : Option Nat :=
  (List.range graph.op.length).find? fun node =>
    decide (graph.constSignal node = some value)

/-- The node is a gate of the given kind with these arguments. -/
def binaryOf (node : Nat) (kind : OpCode) (left right : Nat) : Bool :=
  match graph.pairFor kind node with
  | some (a, b) =>
    (decide (a = left) && decide (b = right)) || (decide (a = right) && decide (b = left))
  | none => false

end GraphBody

structure Builder where
  includeReverseConstantFolding : Bool
  remainingCapacity : Int
  limit : Option Nat
  items : List RawCandidate
  seen : List (List Nat)

/-- A rule that matches at a node, with the other matched nodes. -/
structure RuleMatch where
  rule : RuleId
  root : Nat
  rest : List Nat

namespace RuleMatch

def candidate (ruleMatch : RuleMatch) : RawCandidate where
  ruleId := ruleMatch.rule.asU16
  root := ruleMatch.root
  matchLen := ruleMatch.rest.length + 1
  matched position := (ruleMatch.root :: ruleMatch.rest).getD position.val 0

end RuleMatch

namespace Builder

def new (graph : GraphBody) (includeReverseConstantFolding : Bool)
    (limit : Option Nat) : Builder where
  includeReverseConstantFolding
  remainingCapacity := (graph.capacity.toNat : Int) - graph.op.length
  limit
  items := []
  seen := []

def isFull (out : Builder) : Bool :=
  match out.limit with
  | some limit => decide (limit ≤ out.items.length)
  | none => false

def add (out : Builder) (ruleMatch : RuleMatch) : Except RuleError Builder :=
  if out.isFull then .ok out
  else if !out.includeReverseConstantFolding &&
      reverseConstantFoldingRule ruleMatch.rule then .ok out
  else if out.remainingCapacity < replacementExtraNodes ruleMatch.rule then
    .ok out
  else if maxMatched < ruleMatch.rest.length + 1 then .error .badMatchLength
  else
    let candidate := ruleMatch.candidate
    if candidate.key ∈ out.seen then .ok out
    else
      .ok { out with
        items := out.items ++ [candidate]
        seen := candidate.key :: out.seen }

def addAll (out : Builder) (found : List RuleMatch) : Except RuleError Builder :=
  found.foldlM add out

end Builder

/-! ## Matches -/

/-- The rules of a gate with two arguments.  `kind` is the gate itself and
`other` the dual one. -/
structure BinaryRules where
  kind : OpCode
  other : OpCode
  idempotent : RuleId
  complement : RuleId
  commute : RuleId
  associateRight : RuleId
  associateLeft : RuleId
  absorb : RuleId
  expand : RuleId
  deMorgan : RuleId
  factor : RuleId
  consensusAdd : RuleId
  consensusRemove : RuleId

def andRules : BinaryRules where
  kind := .and
  other := .or
  idempotent := .andIdempotent
  complement := .andComplement
  commute := .commuteAnd
  associateRight := .associateAndRight
  associateLeft := .associateAndLeft
  absorb := .absorbAndOr
  expand := .distributeOrExpand
  deMorgan := .deMorganAndNots
  factor := .distributeAndFactor
  consensusAdd := .consensusAndAdd
  consensusRemove := .consensusAndRemove

def orRules : BinaryRules where
  kind := .or
  other := .and
  idempotent := .orIdempotent
  complement := .orComplement
  commute := .commuteOr
  associateRight := .associateOrRight
  associateLeft := .associateOrLeft
  absorb := .absorbOrAnd
  expand := .distributeAndExpand
  deMorgan := .deMorganOrNots
  factor := .distributeOrFactor
  consensusAdd := .consensusOrAdd
  consensusRemove := .consensusOrRemove

def matchIf (condition : Bool) (rule : RuleId) (root : Nat) (rest : List Nat) : List RuleMatch :=
  if condition then [⟨rule, root, rest⟩] else []

/-- The pair in both orders, the second one if the parts differ. -/
def bothOrders (pair : Nat × Nat) : List (Nat × Nat) :=
  if pair.1 = pair.2 then [pair] else [pair, (pair.2, pair.1)]

/-- The same, but nothing where the parts are equal. -/
def strictOrders (pair : Nat × Nat) : List (Nat × Nat) :=
  if pair.1 = pair.2 then [] else [pair, (pair.2, pair.1)]

namespace GraphBody

variable (graph : GraphBody)

/-- The first argument combined with something else, and its negation with a
third node. -/
def consensusAddBindings (rule : RuleId) (termOp : OpCode)
    (root first second : Nat) : List RuleMatch :=
  match graph.pairFor termOp first, graph.pairFor termOp second with
  | some firstPair, some secondPair =>
    (bothOrders firstPair).flatMap fun (a, b) =>
      (bothOrders secondPair).flatMap fun (notA, c) =>
        matchIf (decide (graph.notSignal notA = some a)) rule root [first, second, a, b, c, notA]
  | _, _ => []

def consensusRemoveBindings (rule : RuleId) (innerOp consensusOp : OpCode)
    (root innerNode consensusTerm : Nat) : List RuleMatch :=
  match graph.pairFor innerOp innerNode with
  | none => []
  | some pair =>
    (strictOrders pair).flatMap fun (first, second) =>
      match graph.pairFor consensusOp first,
        graph.pairFor consensusOp second with
      | some firstPair, some secondPair =>
        (bothOrders firstPair).flatMap fun (a, b) =>
          (bothOrders secondPair).flatMap fun (notA, c) =>
            matchIf (decide (graph.notSignal notA = some a) &&
                graph.binaryOf consensusTerm consensusOp b c)
              rule root
              [innerNode, consensusTerm, first, second, a, b, c]
      | _, _ => []

def andConstantMatches (root left right : Nat) : List RuleMatch :=
  let leftConst := graph.constSignal left
  let rightConst := graph.constSignal right
  let rightOrder := decide (left ≠ right)
  matchIf (leftConst = some false) .andFalse root [left] ++
    matchIf (leftConst = some true) .andTrue root [left, right] ++
    matchIf (rightOrder && rightConst = some false) .andFalse root [right] ++
    matchIf (rightOrder && rightConst = some true) .andTrue root [right, left]

def orConstantMatches (root left right : Nat) : List RuleMatch :=
  let leftConst := graph.constSignal left
  let rightConst := graph.constSignal right
  let rightOrder := decide (left ≠ right)
  matchIf (leftConst = some false) .orFalse root [left, right] ++
    matchIf (leftConst = some true) .orTrue root [left] ++
    matchIf (rightOrder && rightConst = some false) .orFalse root [right, left] ++
    matchIf (rightOrder && rightConst = some true) .orTrue root [right]

/-- An argument of the dual kind: it may absorb the other one, and the gate
distributes over it. -/
def dualMatches (rules : BinaryRules) (root node other : Nat) : List RuleMatch :=
  match graph.pairFor rules.other node with
  | none => []
  | some (a, b) =>
    matchIf (a = other) rules.absorb root [other, node, b] ++
      matchIf (b = other && a ≠ b) rules.absorb root [other, node, a] ++
      [⟨rules.expand, root, [node, other, a, b]⟩]

/-- Two arguments of the dual kind with a common part. -/
def factorMatches (rules : BinaryRules) (root left right : Nat) : List RuleMatch :=
  match graph.pairFor rules.other left, graph.pairFor rules.other right with
  | some leftPair, some rightPair =>
    (strictOrders leftPair).flatMap fun (la, lb) =>
      (strictOrders rightPair).flatMap fun (ra, rc) =>
        matchIf (la = ra) rules.factor root [left, right, la, lb, rc]
  | _, _ => []

def binaryMatches (rules : BinaryRules) (constants : List RuleMatch)
    (root left right : Nat) : List RuleMatch :=
  let leftNot := graph.notSignal left
  let rightNot := graph.notSignal right
  let rightOrder := decide (left ≠ right)
  constants ++ matchIf (left = right) rules.idempotent root [left] ++
    matchIf (rightNot = some left) rules.complement root [left, right] ++
    matchIf (rightOrder && leftNot = some right) rules.complement root [right, left] ++
    [⟨rules.commute, root, [left, right]⟩] ++
    (match graph.pairFor rules.kind left with
      | some (a, b) => [⟨rules.associateRight, root, [left, a, b, right]⟩]
      | none => []) ++
    (match graph.pairFor rules.kind right with
      | some (a, b) => [⟨rules.associateLeft, root, [right, left, a, b]⟩]
      | none => []) ++
    graph.dualMatches rules root right left ++
    (if rightOrder then graph.dualMatches rules root left right else []) ++
    (match leftNot, rightNot with
      | some leftInner, some rightInner =>
        [⟨rules.deMorgan, root, [left, right, leftInner, rightInner]⟩]
      | _, _ => []) ++
    graph.factorMatches rules root left right ++
    graph.consensusAddBindings rules.consensusAdd rules.other root left right ++
    (if rightOrder then
      graph.consensusAddBindings rules.consensusAdd rules.other root right left
    else []) ++
    graph.consensusRemoveBindings rules.consensusRemove rules.kind rules.other root left right ++
    (if rightOrder then
      graph.consensusRemoveBindings rules.consensusRemove rules.kind rules.other root right left
    else [])

def notMatches (root left : Nat) : List RuleMatch :=
  matchIf (graph.constSignal left = some false) .notFalse root [left] ++
    matchIf (graph.constSignal left = some true) .notTrue root [left] ++
    (match graph.notSignal left with
      | some inner => [⟨.doubleNegation, root, [left, inner]⟩]
      | none => []) ++
    (match graph.pairFor .and left with
      | some (a, b) => [⟨.deMorganNotAnd, root, [left, a, b]⟩]
      | none => []) ++
    (match graph.pairFor .or left with
      | some (a, b) => [⟨.deMorganNotOr, root, [left, a, b]⟩]
      | none => [])

def matchesAt (root : Nat) : List RuleMatch :=
  let left := graph.arg0At root
  let right := graph.arg1At root
  match graph.opAt root with
  | .and =>
    if (graph.pairFor .and root).isSome then
      graph.binaryMatches andRules (graph.andConstantMatches root left right) root left right
    else []
  | .or =>
    if (graph.pairFor .or root).isSome then
      graph.binaryMatches orRules (graph.orConstantMatches root left right) root left right
    else []
  | .not => if (graph.notSignal root).isSome then graph.notMatches root left else []
  | _ => []

/-- The inverse rules that need nothing but the node, or a constant. -/
def inverseMatches (root : Nat) : List RuleMatch :=
  let falseConst := graph.firstConst false
  let trueConst := graph.firstConst true
  [⟨.andIdempotentInverse, root, []⟩, ⟨.orIdempotentInverse, root, []⟩,
    ⟨.doubleNegationInverse, root, []⟩, ⟨.absorbOrAndInverse, root, [root]⟩,
    ⟨.absorbAndOrInverse, root, [root]⟩] ++
    (match trueConst with
      | some node => [⟨.andTrueInverse, root, [node]⟩]
      | none => []) ++
    (match falseConst with
      | some node => [⟨.orFalseInverse, root, [node]⟩]
      | none => []) ++
    (match graph.constSignal root with
      | none => []
      | some false =>
        ⟨.andFalseInverse, root, [root]⟩ :: (match trueConst with
            | some node => [⟨.notTrueInverse, root, [node]⟩]
            | none => [])
      | some true =>
        ⟨.orTrueInverse, root, [root]⟩ :: (match falseConst with
            | some node => [⟨.notFalseInverse, root, [node]⟩]
            | none => []))

/-- A constant as a node combined with its negation. -/
def complementMatches (root witness : Nat) : List RuleMatch :=
  match graph.notSignal witness, graph.constSignal root with
  | some inner, some false => [⟨.andComplementInverse, root, [inner, witness]⟩]
  | some inner, some true => [⟨.orComplementInverse, root, [inner, witness]⟩]
  | _, _ => []

end GraphBody

/-- The candidates of one node, unless there are enough. -/
def Builder.visit (found : Nat → List RuleMatch) (out : Builder)
    (node : Nat) : Except RuleError Builder :=
  if out.isFull then .ok out else out.addAll (found node)

/-- The inverse rules at a node, with every negation as a witness where the
node is a constant. -/
def Builder.visitInverse (graph : GraphBody) (out : Builder) (root : Nat) :
    Except RuleError Builder :=
  if out.isFull then .ok out
  else if graph.opAt root = .output then .ok out
  else do
    let out ← out.addAll (graph.inverseMatches root)
    if graph.opAt root = .const then
      (List.range graph.op.length).foldlM (Builder.visit (graph.complementMatches root)) out
    else pure out

def enumerateGraphLimited (graph : GraphBody)
    (includeReverseConstantFolding : Bool) (limit : Option Nat) :
    Except RuleError (List RawCandidate) := do
  let nodes := List.range graph.op.length
  let out := Builder.new graph includeReverseConstantFolding limit
  let out ← nodes.foldlM (Builder.visit graph.matchesAt) out
  let out ← nodes.foldlM (Builder.visitInverse graph) out
  pure out.items

def enumerateGraph (graph : GraphBody) (includeReverseConstantFolding : Bool) :
    Except RuleError (List RawCandidate) :=
  enumerateGraphLimited graph includeReverseConstantFolding none

/-! ## Application -/

def appendNode (graph : GraphBody) (code : OpCode) (a b : Nat) : GraphBody × Nat :=
  ({ graph with
      op := graph.op ++ [code]
      arg0 := graph.arg0 ++ [a]
      arg1 := graph.arg1 ++ [b] },
    graph.op.length)

section Replacements

variable (m : Fin maxMatched → Nat) (graph : GraphBody)

def associateLeft (code : OpCode) : GraphBody × Nat :=
  let (graph, first) := appendNode graph code (m 2) (m 3)
  appendNode graph code first (m 4)

def associateRight (code : OpCode) : GraphBody × Nat :=
  let (graph, first) := appendNode graph code (m 3) (m 4)
  appendNode graph code (m 2) first

/-- The negation of a gate, by negating its arguments. -/
def deMorganNot (code : OpCode) : GraphBody × Nat :=
  let (graph, na) := appendNode graph .not (m 2) noNode
  let (graph, nb) := appendNode graph .not (m 3) noNode
  appendNode graph code na nb

/-- A gate of negations, by negating it. -/
def deMorganNots (code : OpCode) : GraphBody × Nat :=
  let (graph, first) := appendNode graph code (m 3) (m 4)
  appendNode graph .not first noNode

def distributeFactor (firstCode secondCode : OpCode) : GraphBody × Nat :=
  let (graph, first) := appendNode graph firstCode (m 4) (m 5)
  appendNode graph secondCode (m 3) first

def distributeExpand (inner outer : OpCode) : GraphBody × Nat :=
  let (graph, first) := appendNode graph inner (m 2) (m 3)
  let (graph, second) := appendNode graph inner (m 2) (m 4)
  appendNode graph outer first second

def consensusAdd (root : Nat) (firstCode secondCode : OpCode) : GraphBody × Nat :=
  let (graph, first) := appendNode graph firstCode (m 4) (m 5)
  appendNode graph secondCode root first

/-- A node combined with something else and with itself. -/
def absorbInverse (root : Nat) (firstCode secondCode : OpCode) : GraphBody × Nat :=
  let (graph, first) := appendNode graph firstCode root (m 1)
  appendNode graph secondCode root first

def doubleNegationInverse (root : Nat) : GraphBody × Nat :=
  let (graph, first) := appendNode graph .not root noNode
  appendNode graph .not first noNode

/-- The graph with the nodes of the replacement, and the node that takes the
place of `root`. -/
def replacement (root : Nat) : RuleId → GraphBody × Nat
  | .andFalse | .orTrue => (graph, m 1)
  | .andTrue | .orFalse => (graph, m 2)
  | .andIdempotent | .orIdempotent | .absorbOrAnd | .absorbAndOr
  | .consensusOrRemove | .consensusAndRemove => (graph, m 1)
  | .doubleNegation => (graph, m 2)
  | .andFalseInverse => appendNode graph .and (m 1) root
  | .andTrueInverse => appendNode graph .and root (m 1)
  | .orFalseInverse => appendNode graph .or root (m 1)
  | .orTrueInverse => appendNode graph .or (m 1) root
  | .notFalseInverse | .notTrueInverse => appendNode graph .not (m 1) noNode
  | .andIdempotentInverse => appendNode graph .and root root
  | .orIdempotentInverse => appendNode graph .or root root
  | .andComplementInverse => appendNode graph .and (m 1) (m 2)
  | .orComplementInverse => appendNode graph .or (m 1) (m 2)
  | .doubleNegationInverse => doubleNegationInverse graph root
  | .absorbOrAndInverse => absorbInverse m graph root .and .or
  | .absorbAndOrInverse => absorbInverse m graph root .or .and
  | .notFalse | .orComplement => appendNode graph .const 1 noNode
  | .notTrue | .andComplement => appendNode graph .const 0 noNode
  | .commuteAnd => appendNode graph .and (m 2) (m 1)
  | .commuteOr => appendNode graph .or (m 2) (m 1)
  | .associateAndLeft => associateLeft m graph .and
  | .associateOrLeft => associateLeft m graph .or
  | .associateAndRight => associateRight m graph .and
  | .associateOrRight => associateRight m graph .or
  | .deMorganNotAnd => deMorganNot m graph .or
  | .deMorganNotOr => deMorganNot m graph .and
  | .deMorganOrNots => deMorganNots m graph .and
  | .deMorganAndNots => deMorganNots m graph .or
  | .distributeOrFactor => distributeFactor m graph .or .and
  | .distributeAndFactor => distributeFactor m graph .and .or
  | .distributeOrExpand => distributeExpand m graph .and .or
  | .distributeAndExpand => distributeExpand m graph .or .and
  | .consensusOrAdd => consensusAdd m graph root .and .or
  | .consensusAndAdd => consensusAdd m graph root .or .and

end Replacements

def buildReplacement (candidate : RawCandidate) (graph : GraphBody) :
    Except RuleError (GraphBody × Nat) :=
  replacement candidate.matched graph candidate.root <$> RuleId.fromU16 candidate.ruleId

/-- Among the first `nodes` nodes, those that refer to `root` refer to
`target` instead. -/
def GraphBody.redirect (graph : GraphBody) (nodes root target : Nat) : GraphBody :=
  { graph with
    arg0 := graph.arg0.mapIdx fun node arg =>
      if node < nodes ∧ graph.opAt node ∈ [.and, .or, .not, .output] ∧ arg = root then target
      else arg
    arg1 := graph.arg1.mapIdx fun node arg =>
      if node < nodes ∧ graph.opAt node ∈ [.and, .or] ∧ arg = root then target
      else arg }

def applyGraph (graph : GraphBody) (candidate : RawCandidate) : Except RuleError GraphBody :=
  if graph.op.length ≤ candidate.root then
    .error (.invalidCandidate "candidate root out of range")
  else if ∃ node ∈ candidate.matchedSlice, graph.op.length ≤ node then
    .error (.invalidCandidate "candidate matched node out of range")
  else do
    let (out, target) ← buildReplacement candidate graph
    if out.capacity.toNat < out.op.length then
      throw .capacityExceeded
    else
      (compactGraph (out.redirect graph.op.length candidate.root target)).mapError .graph

end GraphZero.Whittle
