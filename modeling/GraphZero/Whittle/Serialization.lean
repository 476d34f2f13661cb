import GraphZero.Foundation.Decoder
import GraphZero.Whittle.Compaction

/-!
# The bytes of a graph

A graph is written as a header and one record for each node.  Reading takes
what writing wrote and nothing else: no two byte strings are read as the same
graph.
-/

namespace GraphZero.Whittle

open Foundation List

def OpCode.asI8 : OpCode → Int8
  | .input => 0
  | .const => 1
  | .and => 2
  | .or => 3
  | .not => 4
  | .output => 5

/-- What ends a reading that has no graph. -/
inductive Wav1Failure where
  | graph (error : GraphError)
  | badOp (op : Int8)
  /-- An index beyond the bytes. -/
  | panicked

abbrev Wav1Result (α : Type) : Type := Except Wav1Failure α

def invalidWav1 (message : String) : Wav1Failure :=
  .graph (.invalidInput message)

def OpCode.fromI8 (value : Int8) : Wav1Result OpCode :=
  match value.toInt with
  | 0 => .ok .input
  | 1 => .ok .const
  | 2 => .ok .and
  | 3 => .ok .or
  | 4 => .ok .not
  | 5 => .ok .output
  | _ => .error (.badOp value)

def wav1Magic : List UInt8 := [0x57, 0x41, 0x56, 0x31]

abbrev Node : Type := OpCode × Nat × Nat

def nodeBytes (node : Node) : List UInt8 :=
  [node.1.asI8.toUInt8] ++ (toLeBytes 4 node.2.1 ++ toLeBytes 4 node.2.2)

def GraphBody.nodes (graph : GraphBody) : List Node :=
  (List.range graph.op.length).map fun node =>
    (graph.opAt node, graph.arg0At node, graph.arg1At node)

def wav1Header (graph : GraphBody) : List UInt8 :=
  toLeBytes 2 graph.arity.toNat ++ (toLeBytes 2 graph.capacity.toNat ++
    (toLeBytes 4 graph.op.length ++ toLeBytes 4 graph.outputNode))

def serializeWav1 (graph : GraphBody) : List UInt8 :=
  wav1Magic ++ (wav1Header graph ++ graph.nodes.flatMap nodeBytes)

abbrev Wav1Reader (α : Type) : Type := Decoder Wav1Failure α

/-- The next bytes as a number; each is read at its index. -/
def readLe (width : Nat) : Wav1Reader Nat := Decoder.number .panicked width

def readWav1Header : Wav1Reader (UInt16 × UInt16 × Nat × Nat) := do
  let arity ← readLe 2
  let capacity ← readLe 2
  let nodeCount ← readLe 4
  let outputNode ← readLe 4
  pure (UInt16.ofNat arity, UInt16.ofNat capacity, nodeCount, outputNode)

def readOp : Wav1Reader OpCode := do
  let byte ← readLe 1
  Decoder.given (OpCode.fromI8 (UInt8.ofNat byte).toInt8)

def readNode : Wav1Reader Node := do
  let op ← readOp
  let arg0 ← readLe 4
  let arg1 ← readLe 4
  pure (op, arg0, arg1)

def deserializeWav1 (bytes : List UInt8) : Wav1Result GraphBody := do
  if bytes.length < 16 ∨ bytes.take 4 ≠ wav1Magic then
    throw (invalidWav1 "bad WAV1 graph artifact")
  let ((arity, capacity, nodeCount, outputNode), records) ← readWav1Header.decode (bytes.drop 4)
  if bytes.length ≠ 16 + nodeCount * 9 then
    throw (invalidWav1 "wrong WAV1 graph artifact length")
  let (nodes, _) ← (Decoder.repeated readNode nodeCount).decode records
  (GraphBody.new arity capacity outputNode (nodes.map (·.1))
    (nodes.map (·.2.1)) (nodes.map (·.2.2))).mapError Wav1Failure.graph

/-- The words of a graph are as wide as the source's. -/
structure GraphBody.Words (graph : GraphBody) : Prop where
  outputNode : graph.outputNode < 2 ^ 32
  arg0 : ∀ arg ∈ graph.arg0, arg < 2 ^ 32
  arg1 : ∀ arg ∈ graph.arg1, arg < 2 ^ 32

theorem fromI8_asI8 (op : OpCode) : OpCode.fromI8 op.asI8.toUInt8.toInt8 = .ok op := by
  cases op <;> rfl

theorem asI8_of_fromI8 {value op} (read : OpCode.fromI8 value = .ok op) : value = op.asI8 := by
  apply Int8.toInt_inj.mp
  unfold OpCode.fromI8 at read
  split at read
  · next number => cases read; exact number
  · next number => cases read; exact number
  · next number => cases read; exact number
  · next number => cases read; exact number
  · next number => cases read; exact number
  · next number => cases read; exact number
  · cases read

theorem fromI8_ne_panicked (value : Int8) : OpCode.fromI8 value ≠ .error .panicked := by
  unfold OpCode.fromI8
  split <;> exact nofun

def NodeWords (node : Node) : Prop :=
  node.2.1 < 256 ^ 4 ∧ node.2.2 < 256 ^ 4

theorem reads_readOp (op : OpCode) : readOp.Reads [op.asI8.toUInt8] op := by
  have small : op.asI8.toUInt8.toNat < 256 ^ 1 := op.asI8.toUInt8.toNat_lt
  have byte : (readLe 1).Reads _ _ := Decoder.reads_number small
  have bytes : toLeBytes 1 op.asI8.toUInt8.toNat = [op.asI8.toUInt8] := by
    cases op <;> rfl
  rw [bytes] at byte
  refine byte.bind_nil (Decoder.reads_given ?_)
  rw [UInt8.ofNat_toNat, fromI8_asI8]

theorem reads_readNode {node} (words : NodeWords node) : readNode.Reads (nodeBytes node) node :=
  (reads_readOp node.1).bind ((Decoder.reads_number words.1).bind
    ((Decoder.reads_number words.2).map _))

theorem takes_readOp : readOp.Takes fun op bytes => bytes = [op.asI8.toUInt8] ∧ True := by
  refine Decoder.takes_number.bind fun byte bytes taken => ?_
  obtain ⟨rfl, small⟩ := taken
  refine Decoder.takes_given fun op known => ⟨?_, trivial⟩
  have low : byte % 256 = byte := Nat.mod_eq_of_lt small
  rw [append_nil, ← asI8_of_fromI8 known, toLeBytes, low]
  rfl

theorem takes_readNode : readNode.Takes fun node bytes =>
      bytes = nodeBytes node ∧ NodeWords node := by
  refine takes_readOp.bind fun op bytes opcode => ?_
  refine Decoder.takes_number.bind fun arg0 first left => ?_
  refine Decoder.takes_number.bind fun arg1 second right => ?_
  obtain ⟨rfl, _⟩ := opcode
  obtain ⟨rfl, small⟩ := left
  obtain ⟨rfl, little⟩ := right
  refine Decoder.takes_pure ⟨?_, small, little⟩
  rfl

theorem suffices_readNode : readNode.Suffices 9 (· ≠ .panicked) := by
  have opcode : readOp.Suffices (1 + 0) (· ≠ .panicked) := by
    refine Decoder.suffices_number.bind fun byte => ?_
    refine Decoder.suffices_given fun failure failed => ?_
    rintro rfl
    exact fromI8_ne_panicked _ failed
  have whole : readNode.Suffices (1 + 0 + (4 + (4 + 0))) (· ≠ .panicked) :=
    opcode.bind fun op => Decoder.suffices_number.bind fun arg0 =>
      Decoder.suffices_number.bind fun arg1 => Decoder.suffices_pure _
  exact whole

/-! ## Headers -/

theorem reads_readWav1Header {graph} (few : graph.op.length < 256 ^ 4)
    (small : graph.outputNode < 256 ^ 4) :
    readWav1Header.Reads (wav1Header graph)
      (graph.arity, graph.capacity, graph.op.length, graph.outputNode) := by
  have fields : (graph.arity, graph.capacity, graph.op.length,
      graph.outputNode) = (UInt16.ofNat graph.arity.toNat,
        UInt16.ofNat graph.capacity.toNat, graph.op.length,
        graph.outputNode) := by
    rw [UInt16.ofNat_toNat, UInt16.ofNat_toNat]
  rw [fields]
  exact (Decoder.reads_number graph.arity.toNat_lt).bind
    ((Decoder.reads_number graph.capacity.toNat_lt).bind ((Decoder.reads_number few).bind
        ((Decoder.reads_number small).map _)))

theorem takes_readWav1Header : readWav1Header.Takes fun fields bytes =>
      bytes = toLeBytes 2 fields.1.toNat ++ (toLeBytes 2 fields.2.1.toNat ++
        (toLeBytes 4 fields.2.2.1 ++ toLeBytes 4 fields.2.2.2)) ∧
      fields.2.2.1 < 2 ^ 32 ∧ fields.2.2.2 < 2 ^ 32 := by
  refine Decoder.takes_number.bind fun arity first left => ?_
  refine Decoder.takes_number.bind fun capacity second right => ?_
  refine Decoder.takes_number.bind fun nodeCount third count => ?_
  refine Decoder.takes_number.bind fun outputNode fourth output => ?_
  obtain ⟨rfl, arityFits⟩ := left
  obtain ⟨rfl, capacityFits⟩ := right
  obtain ⟨rfl, countFits⟩ := count
  obtain ⟨rfl, outputFits⟩ := output
  refine Decoder.takes_pure ⟨?_, countFits, outputFits⟩
  rw [append_nil, UInt16.toNat_ofNat_of_lt' arityFits, UInt16.toNat_ofNat_of_lt' capacityFits]

theorem suffices_readWav1Header {failing} : readWav1Header.Suffices 12 failing := by
  have whole : readWav1Header.Suffices (2 + (2 + (4 + (4 + 0)))) failing :=
    Decoder.suffices_number.bind fun _ => Decoder.suffices_number.bind
      fun _ => Decoder.suffices_number.bind fun _ =>
        Decoder.suffices_number.bind fun _ => Decoder.suffices_pure _
  exact whole

section Graphs

variable {graph : GraphBody} {bytes : List UInt8}

theorem length_wav1Header : (wav1Header graph).length = 12 := by
  simp [wav1Header]

theorem length_nodeBytes (node : Node) : (nodeBytes node).length = 9 := by
  simp [nodeBytes]

theorem length_nodesBytes (nodes : List Node) :
    (nodes.flatMap nodeBytes).length = nodes.length * 9 := by
  induction nodes with
  | nil => rfl
  | cons node nodes ih =>
    rw [flatMap_cons, length_append, ih, length_nodeBytes, length_cons, Nat.succ_mul, Nat.add_comm]

theorem length_nodes : graph.nodes.length = graph.op.length := by
  rw [GraphBody.nodes, length_map, length_range]

theorem length_serializeWav1 : (serializeWav1 graph).length = 16 + graph.op.length * 9 := by
  rw [serializeWav1, length_append, length_append,
    length_wav1Header, length_nodesBytes, length_nodes, ← Nat.add_assoc]
  rfl

theorem GraphBody.Valid.nodes_op : graph.nodes.map (·.1) = graph.op := by
  rw [GraphBody.nodes, map_map]
  exact GraphBody.map_range_getD graph.op .input

theorem GraphBody.Valid.nodes_arg0 (valid : graph.Valid) :
    graph.nodes.map (·.2.1) = graph.arg0 := by
  rw [GraphBody.nodes, map_map, ← valid.arg0]
  exact GraphBody.map_range_getD graph.arg0 0

theorem GraphBody.Valid.nodes_arg1 (valid : graph.Valid) :
    graph.nodes.map (·.2.2) = graph.arg1 := by
  rw [GraphBody.nodes, map_map, ← valid.arg1]
  exact GraphBody.map_range_getD graph.arg1 0

theorem GraphBody.Words.node (words : graph.Words) {node} (member : node ∈ graph.nodes)
    (valid : graph.Valid) : NodeWords node := by
  have left : node.2.1 ∈ graph.nodes.map (·.2.1) := mem_map_of_mem member
  have right : node.2.2 ∈ graph.nodes.map (·.2.2) := mem_map_of_mem member
  rw [valid.nodes_arg0] at left
  rw [valid.nodes_arg1] at right
  exact ⟨words.arg0 _ left, words.arg1 _ right⟩

theorem deserializeWav1_serializeWav1 (checked : graph.validate = .ok ()) (words : graph.Words) :
    deserializeWav1 (serializeWav1 graph) = .ok graph := by
  have valid := GraphBody.validate_eq_ok.mp checked
  have few : graph.op.length < 256 ^ 4 := Nat.lt_trans valid.length_lt_noNode (by decide)
  have header := reads_readWav1Header few words.outputNode (graph.nodes.flatMap nodeBytes)
  have all : (Decoder.repeated readNode graph.nodes.length).Reads
      (graph.nodes.flatMap nodeBytes) (graph.nodes.map id) :=
    Decoder.reads_repeated fun node member =>
      reads_readNode (words.node member valid)
  have records := all []
  rw [append_nil, map_id, length_nodes] at records
  have long : ¬ ((serializeWav1 graph).length < 16 ∨ (serializeWav1 graph).take 4 ≠ wav1Magic) := by
    rw [length_serializeWav1, not_or, not_not]
    exact ⟨by omega, rfl⟩
  have behind : (serializeWav1 graph).drop 4 =
      wav1Header graph ++ graph.nodes.flatMap nodeBytes := rfl
  have new : GraphBody.new graph.arity graph.capacity graph.outputNode graph.op
      graph.arg0 graph.arg1 = .ok graph := GraphBody.new_eq_ok.mpr ⟨rfl, checked⟩
  unfold deserializeWav1
  rw [if_neg long, behind, header]
  change (if _ then _ else _) = _
  rw [if_neg (not_not.mpr length_serializeWav1), records]
  change (GraphBody.new graph.arity graph.capacity graph.outputNode
    (graph.nodes.map (·.1)) (graph.nodes.map (·.2.1))
    (graph.nodes.map (·.2.2))).mapError Wav1Failure.graph = _
  rw [GraphBody.Valid.nodes_op, valid.nodes_arg0, valid.nodes_arg1, new]
  rfl

theorem nodes_of_map (arity capacity : UInt16) (outputNode : Nat) (nodes : List Node) :
    GraphBody.nodes ⟨arity, capacity, outputNode, nodes.map (·.1),
      nodes.map (·.2.1), nodes.map (·.2.2)⟩ = nodes := by
  apply ext_getElem
  · rw [length_nodes, length_map]
  · intro node _ inside
    simp [GraphBody.nodes, GraphBody.opAt, GraphBody.arg0At, GraphBody.arg1At, inside]

theorem serializeWav1_of_deserializeWav1 (read : deserializeWav1 bytes = .ok graph) :
    graph.validate = .ok () ∧ graph.Words ∧ serializeWav1 graph = bytes := by
  obtain ⟨start, read⟩ := throw_bind_else_eq_ok_iff.mp read
  rw [not_or, not_not] at start
  obtain ⟨⟨⟨arity, capacity, nodeCount, outputNode⟩, records⟩, header, read⟩ := ok_of_bind read
  obtain ⟨length, read⟩ := throw_bind_else_eq_ok_iff.mp read
  obtain ⟨⟨nodes, rest⟩, body, read⟩ := ok_of_bind read
  obtain ⟨rfl, checked⟩ := GraphBody.new_eq_ok.mp (ok_of_mapError read)
  obtain ⟨first, front, fields, _, small⟩ := takes_readWav1Header _ _ _ header
  obtain ⟨second, rfl, written, count, words⟩ := takes_readNode.repeated nodeCount _ _ _ body
  refine ⟨checked, ⟨small, ?_, ?_⟩, ?_⟩
  · intro arg member
    obtain ⟨node, inside, rfl⟩ := mem_map.mp member
    exact (words node inside).1
  · intro arg member
    obtain ⟨node, inside, rfl⟩ := mem_map.mp member
    exact (words node inside).2
  -- The length leaves nothing behind the last node.
  · have whole := take_append_drop 4 bytes
    rw [start.2, front] at whole
    have total := congrArg List.length whole
    have twelve : first.length = 12 := by
      rw [fields]
      simp
    have nine : second.length = nodeCount * 9 := by
      rw [written, length_nodesBytes, count]
    have four : wav1Magic.length = 4 := rfl
    simp only [length_append] at total
    have none : rest = [] := length_eq_zero_iff.mp (by omega)
    rw [none, append_nil] at whole
    rw [← whole, serializeWav1, nodes_of_map, ← written, wav1Header, fields, length_map, count]

theorem deserializeWav1_ne_panicked (bytes : List UInt8) :
    deserializeWav1 bytes ≠ .error .panicked := by
  intro ended
  unfold deserializeWav1 at ended
  split at ended
  · cases ended
  next start =>
  have never : readWav1Header.Suffices 12 fun _ => False := suffices_readWav1Header
  have header := never (bytes.drop 4) (by rw [length_drop]; omega)
  cases first : readWav1Header.decode (bytes.drop 4) with
  | error failure =>
    rw [first] at header
    exact header
  | ok fields =>
    rw [first] at ended header
    change (if _ then _ else _) = _ at ended
    split at ended
    · cases ended
    next other =>
    have length : bytes.length = 16 + fields.1.2.2.1 * 9 := not_not.mp other
    rw [length_drop] at header
    have body := suffices_readNode.repeated fields.1.2.2.1 fields.2 (by omega)
    cases second : (Decoder.repeated readNode fields.1.2.2.1).decode fields.2 with
    | error failure =>
      rw [second] at ended body
      cases ended
      exact body rfl
    | ok nodes =>
      rw [second] at ended
      change (GraphBody.new _ _ _ _ _ _).mapError Wav1Failure.graph = _ at ended
      cases made : GraphBody.new fields.1.1 fields.1.2.1 fields.1.2.2.2
          (nodes.1.map (·.1)) (nodes.1.map (·.2.1))
          (nodes.1.map (·.2.2)) with
      | error failure | ok graph =>
        rw [made] at ended
        cases ended

end Graphs

/-- Graphs and the bytes that are read as one correspond; all other bytes are
rejected. -/
theorem wav1_roundTrips : (∀ graph : GraphBody, graph.validate = .ok () → graph.Words →
      deserializeWav1 (serializeWav1 graph) = .ok graph) ∧
    (∀ bytes graph, deserializeWav1 bytes = .ok graph → graph.validate = .ok () ∧ graph.Words ∧
        serializeWav1 graph = bytes) ∧
    ∀ bytes, (∀ graph, serializeWav1 graph = bytes → graph.validate = .ok () → ¬ graph.Words) →
      ∃ failure, deserializeWav1 bytes = .error failure ∧ failure ≠ .panicked := by
  refine ⟨fun _ => deserializeWav1_serializeWav1,
    fun _ _ => serializeWav1_of_deserializeWav1, fun bytes foreign => ?_⟩
  cases read : deserializeWav1 bytes with
  | error failure =>
    refine ⟨failure, rfl, ?_⟩
    rintro rfl
    exact deserializeWav1_ne_panicked bytes read
  | ok graph =>
    obtain ⟨checked, words, same⟩ := serializeWav1_of_deserializeWav1 read
    exact absurd words (foreign graph same checked)

def bufferGraph : GraphBody where
  arity := 1
  capacity := 2
  outputNode := 1
  op := [.input, .output]
  arg0 := [0, 0]
  arg1 := [noNode, noNode]

theorem wav1_roundTrips_at_a_buffer :
    deserializeWav1 (serializeWav1 bufferGraph) = .ok bufferGraph ∧
      ∃ failure, deserializeWav1 [0x57] = .error failure ∧ failure ≠ .panicked := by
  have checked : bufferGraph.validate = .ok () := rfl
  have words : bufferGraph.Words := by
    constructor <;> decide
  refine ⟨wav1_roundTrips.1 bufferGraph checked words,
    wav1_roundTrips.2.2 [0x57] fun graph same _ _ => ?_⟩
  have length := congrArg List.length same
  rw [length_serializeWav1] at length
  change 16 + _ = 1 at length
  omega

end GraphZero.Whittle
