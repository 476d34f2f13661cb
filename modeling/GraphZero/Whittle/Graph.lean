import GraphZero.Foundation.Traversal
import Mathlib.Data.List.GetD
import Mathlib.Data.UInt

/-!
# Whittle graphs

A circuit of gates.  The inputs are its first nodes; every other node that the
output does not depend on is dropped when a graph is compacted, and those that
stay are renumbered in order.
-/

namespace GraphZero.Whittle

open Foundation

def noNode : Nat := 2 ^ 32 - 1

inductive OpCode where
  | input
  | const
  | and
  | or
  | not
  | output
  deriving DecidableEq

inductive GraphError where
  | invalidInput (message : String)
  /-- The rounds given to a loop do not suffice; the source has no such
  error. -/
  | unfinished
  deriving DecidableEq

structure GraphBody where
  arity : UInt16
  capacity : UInt16
  outputNode : Nat
  op : List OpCode
  arg0 : List Nat
  arg1 : List Nat

namespace GraphBody

variable (graph : GraphBody)

def opAt (node : Nat) : OpCode := graph.op.getD node .input

def arg0At (node : Nat) : Nat := graph.arg0.getD node 0

def arg1At (node : Nat) : Nat := graph.arg1.getD node 0

/-- The first nodes are the inputs in order. -/
def inputsInPlace : Bool :=
  (List.range graph.arity.toNat).all fun node =>
    decide (graph.opAt node = .input) && decide (graph.arg0At node = node)

def validate : Except GraphError Unit :=
  let nodes := graph.op.length
  if nodes = 0 then .error (.invalidInput "graph must contain nodes")
  else if graph.arg0.length ≠ nodes ∨ graph.arg1.length ≠ nodes then
    .error (.invalidInput "graph arrays differ in length")
  else if graph.capacity.toNat < nodes then
    .error (.invalidInput "capacity below node count")
  else if nodes ≤ graph.outputNode then
    .error (.invalidInput "output_node out of range")
  else if nodes < graph.arity.toNat then
    .error (.invalidInput "arity exceeds node count")
  else if graph.inputsInPlace then .ok ()
  else .error (.invalidInput "input nodes must occupy ids 0..arity-1")

def new (arity capacity : UInt16) (outputNode : Nat) (op : List OpCode)
    (arg0 arg1 : List Nat) : Except GraphError GraphBody := do
  let body : GraphBody := { arity, capacity, outputNode, op, arg0, arg1 }
  body.validate
  pure body

/-- What the value of a node depends on. -/
def childrenAt (node : Nat) : List Nat :=
  match graph.opAt node with
  | .input | .const => []
  | .not | .output => [graph.arg0At node]
  | .and | .or => [graph.arg0At node, graph.arg1At node]

def children (node : Nat) : Except GraphError (List Nat) :=
  if node < graph.op.length then .ok (graph.childrenAt node)
  else .error (.invalidInput "node out of range")

/-- What a node puts on the stack, the top first. -/
def pushChildren (node : Nat) : Except GraphError (List Nat) :=
  if graph.op.length ≤ node then .error (.invalidInput "bad node reference")
  else List.reverse <$> graph.children node

def reachable : Except GraphError (List Nat) :=
  traverse graph.pushChildren .unfinished (2 * graph.op.length + 1) [graph.outputNode] []

def keep (reachable : List Nat) : List Nat :=
  (List.range graph.op.length).filter fun node =>
    decide (node < graph.arity.toNat) || decide (node ∈ reachable)

end GraphBody

/-- The new number of every node that stays. -/
def remap (nodes : Nat) (keep : List Nat) : List Nat :=
  keep.zipIdx.foldl (fun remap (old, new) => remap.set old new) (List.replicate nodes noNode)

def remapped (remap : List Nat) (node : Nat) : Except GraphError Nat :=
  match remap[node]? with
  | none => .error (.invalidInput "bad node reference")
  | some mapped =>
    if mapped = noNode then
      .error (.invalidInput "unreachable child reference")
    else .ok mapped

/-- A node with its references renumbered. -/
def GraphBody.remapNode (graph : GraphBody) (remap : List Nat) (node : Nat) :
    Except GraphError (OpCode × Nat × Nat) :=
  match graph.opAt node with
  | .input => .ok (.input, graph.arg0At node, noNode)
  | .const => .ok (.const, (decide (graph.arg0At node ≠ 0)).toNat, noNode)
  | .not => do
      let arg0 ← remapped remap (graph.arg0At node)
      pure (.not, arg0, noNode)
  | .output => do
      let arg0 ← remapped remap (graph.arg0At node)
      pure (.output, arg0, noNode)
  | .and => do
      let arg0 ← remapped remap (graph.arg0At node)
      let arg1 ← remapped remap (graph.arg1At node)
      pure (.and, arg0, arg1)
  | .or => do
      let arg0 ← remapped remap (graph.arg0At node)
      let arg1 ← remapped remap (graph.arg1At node)
      pure (.or, arg0, arg1)

def compactGraph (graph : GraphBody) : Except GraphError GraphBody := do
  graph.validate
  let reachable ← graph.reachable
  let keep := graph.keep reachable
  let identity := decide (keep = List.range keep.length)
  if identity ∧ keep.length = graph.op.length then pure graph
  else
    let remap := remap graph.op.length keep
    let rows ← keep.mapM (graph.remapNode remap)
    let outputNode ← remapped remap graph.outputNode
    GraphBody.new graph.arity graph.capacity outputNode
      (rows.map (·.1)) (rows.map (·.2.1)) (rows.map (·.2.2))

end GraphZero.Whittle
