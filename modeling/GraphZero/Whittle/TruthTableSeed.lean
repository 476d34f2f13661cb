import GraphZero.Whittle.Meaning
import Mathlib.Data.Nat.Bitwise

/-!
# Seeds from truth tables

A generator draws a few assignments of the inputs and builds the sum of their
products, or its complement.  Nodes are only ever appended, so what a node
means stays what it is.
-/

namespace GraphZero.Whittle

open Foundation List

inductive WhittleGeneratorConfigError where
  | zeroArity
  | arityTooLarge (max actual : UInt16)
  | capacityTooSmall
  | invalidExceptionTermRange
  | zeroExceptionTerms
  | invalidPrewalkRange
  | seedGraphExceedsCapacity

structure WhittleGraphGeneratorConfig where
  arity : UInt16
  capacity : UInt16
  exceptionTermsMin : UInt16
  exceptionTermsMax : UInt16
  prewalkStepsMin : UInt16
  prewalkStepsMax : UInt16

def WhittleGraphGeneratorConfig.validate (config : WhittleGraphGeneratorConfig) :
    Except WhittleGeneratorConfigError WhittleGraphGeneratorConfig :=
  if config.arity = 0 then .error .zeroArity
  else if 16 < config.arity then .error (.arityTooLarge 16 config.arity)
  else if config.capacity < config.arity + 1 then .error .capacityTooSmall
  else if config.exceptionTermsMax < config.exceptionTermsMin then
    .error .invalidExceptionTermRange
  else if config.exceptionTermsMax = 0 then .error .zeroExceptionTerms
  else if config.prewalkStepsMax < config.prewalkStepsMin then
    .error .invalidPrewalkRange
  else .ok config

/-- What ends the building of a seed that has no graph. -/
inductive SeedFailure where
  | config (error : WhittleGeneratorConfigError)
  | panicked
  /-- The draws given do not suffice; the source draws on. -/
  | unfinished

/-- What the random number generator gives, in the order it is asked. -/
structure SeedChoices where
  termCount : Nat
  assignments : List Nat
  exceptionsAreTrue : Bool

namespace WhittleGraphGeneratorConfig

variable (config : WhittleGraphGeneratorConfig)

def bitCount : Nat := 1 <<< config.arity.toNat

def maxTerms : Nat :=
  min config.exceptionTermsMax.toNat (config.bitCount / 2)

def minTerms : Nat := min config.exceptionTermsMin.toNat config.maxTerms

/-- The choices are in the ranges asked for, and go on until enough different
assignments are drawn. -/
structure Legal (choices : SeedChoices) : Prop where
  least : config.minTerms ≤ choices.termCount
  most : choices.termCount ≤ config.maxTerms
  bounded : ∀ assignment ∈ choices.assignments, assignment < config.bitCount
  enough : choices.termCount ≤ choices.assignments.toFinset.card

end WhittleGraphGeneratorConfig

/-- Draws until so many assignments are different. -/
def sampleAssignments (termCount : Nat) :
    (selected draws : List Nat) → Except SeedFailure (List Nat)
  | selected, [] =>
    if selected.length < termCount then .error .unfinished
    else .ok selected
  | selected, assignment :: draws =>
    if selected.length < termCount then
      if assignment ∈ selected then sampleAssignments termCount selected draws
      else sampleAssignments termCount (selected ++ [assignment]) draws
    else .ok selected

/-! ## Building -/

abbrev SeedNode : Type := OpCode × Nat × Nat

/-- The nodes so far, and which of them are negated inputs. -/
structure Seed where
  nodes : List SeedNode
  negRef : List (Option Nat)

namespace Seed

def start (arity : Nat) : Seed where
  nodes := (List.range arity).map fun input => (.input, input, noNode)
  negRef := List.replicate arity none

def appendNode (seed : Seed) (code : OpCode) (a b : Nat) : Nat × Seed :=
  (seed.nodes.length, { seed with nodes := seed.nodes ++ [(code, a, b)] })

/-- The input, or its negation, made when it is first needed. -/
def literal (seed : Seed) (assignment var : Nat) : Nat × Seed :=
  if (assignment >>> var) &&& 1 = 1 then (var, seed)
  else
    match seed.negRef.getD var none with
    | some node => (node, seed)
    | none =>
      let (node, grown) := seed.appendNode .not var noNode
      (node, { grown with negRef := grown.negRef.set var (some node) })

def conjoin (assignment : Nat) : Option Nat × Seed → Nat → Option Nat × Seed
  | (termRoot, seed), var =>
    let (literal, seed) := seed.literal assignment var
    match termRoot with
    | some term =>
      let (node, seed) := seed.appendNode .and term literal
      (some node, seed)
    | none => (some literal, seed)

def term (seed : Seed) (arity assignment : Nat) : Option Nat × Seed :=
  (List.range arity).foldl (conjoin assignment) (none, seed)

def disjoin (arity : Nat) : Option Nat × Seed → Nat → Except SeedFailure (Option Nat × Seed)
  | (dnfRoot, seed), assignment =>
    match seed.term arity assignment with
    | (none, _) => .error .panicked
    | (some term, seed) =>
      match dnfRoot with
      | some dnf =>
        let (node, seed) := seed.appendNode .or dnf term
        .ok (some node, seed)
      | none => .ok (some term, seed)

/-- The sum or its complement, and the output behind it. -/
def finish (seed : Seed) (dnf : Nat) (exceptionsAreTrue : Bool) : Nat × Seed :=
  let (root, whole) :=
    if exceptionsAreTrue then (dnf, seed)
    else seed.appendNode .not dnf noNode
  whole.appendNode .output root noNode

end Seed

/-- The graph of the nodes, if the capacity allows. -/
def seedGraph (config : WhittleGraphGeneratorConfig) (output : Nat)
    (seed : Seed) : Except SeedFailure GraphBody := do
  let exceeds := SeedFailure.config .seedGraphExceedsCapacity
  if config.capacity.toNat < seed.nodes.length then throw exceeds
  let body ← (GraphBody.new config.arity config.capacity output
    (seed.nodes.map (·.1)) (seed.nodes.map (·.2.1))
    (seed.nodes.map (·.2.2))).mapError fun _ => exceeds
  (compactGraph body).mapError fun _ => exceeds

def truthTableSeed (config : WhittleGraphGeneratorConfig)
    (choices : SeedChoices) : Except SeedFailure GraphBody := do
  let arity := config.arity.toNat
  let selected ← sampleAssignments choices.termCount [] choices.assignments
  let (dnfRoot, seed) ← selected.foldlM (Seed.disjoin arity) (none, Seed.start arity)
  match dnfRoot with
  | none => .error .panicked
  | some dnf =>
    let (output, seed) := seed.finish dnf choices.exceptionsAreTrue
    seedGraph config output seed

section Drawing

variable {termCount : Nat} {selected draws drawn : List Nat}

theorem drawn_of_sampleAssignments (distinct : selected.Nodup) (few : selected.length ≤ termCount)
    (sampled : sampleAssignments termCount selected draws = .ok drawn) :
    drawn.Nodup ∧ drawn.length = termCount ∧
      ∀ assignment ∈ drawn, assignment ∈ selected ∨ assignment ∈ draws := by
  induction draws generalizing selected with
  | nil =>
    rw [sampleAssignments] at sampled
    split at sampled
    · cases sampled
    next full =>
    cases sampled
    exact ⟨distinct, by omega, fun _ member => .inl member⟩
  | cons assignment draws ih =>
    rw [sampleAssignments] at sampled
    split at sampled
    · split at sampled
      · obtain ⟨nodup, length, origin⟩ := ih distinct few sampled
        refine ⟨nodup, length, fun other member => ?_⟩
        exact (origin other member).imp_right (mem_cons_of_mem _)
      next fresh =>
      obtain ⟨nodup, length, origin⟩ := ih (nodup_append.mpr ⟨distinct, nodup_singleton _, by
          rintro first member _ (_ | ⟨_, ⟨⟩⟩) rfl
          exact fresh member⟩)
        (by rw [length_append, length_singleton]; omega)
        sampled
      refine ⟨nodup, length, fun other member => ?_⟩
      rcases origin other member with before | later
      · rcases mem_append.mp before with before | here
        · exact .inl before
        · rw [mem_singleton.mp here]
          exact .inr mem_cons_self
      · exact .inr (mem_cons_of_mem _ later)
    · cases sampled
      exact ⟨distinct, by omega, fun _ member => .inl member⟩

theorem exists_sampleAssignments (enough : termCount ≤ (selected ++ draws).toFinset.card) :
    ∃ drawn, sampleAssignments termCount selected draws = .ok drawn := by
  induction draws generalizing selected with
  | nil =>
    rw [append_nil] at enough
    have length := enough.trans (toFinset_card_le selected)
    refine ⟨selected, ?_⟩
    rw [sampleAssignments, if_neg (Nat.not_lt.mpr length)]
  | cons assignment draws ih =>
    rw [sampleAssignments]
    split
    · split
      next known =>
        refine ih (enough.trans_eq ?_)
        congr 1
        ext other
        simp only [mem_toFinset, mem_append, mem_cons]
        constructor
        · rintro (before | rfl | later)
          · exact .inl before
          · exact .inl known
          · exact .inr later
        · exact Or.imp_right .inr
      next fresh =>
      refine ih (enough.trans_eq ?_)
      rw [append_assoc, singleton_append]
    · exact ⟨selected, rfl⟩

end Drawing

/-! ## What a node means -/

/-- The nodes are the first ones of the graph. -/
def Continues (graph : GraphBody) (nodes : List SeedNode) : Prop :=
  ∀ place node, nodes[place]? = some node → place < graph.op.length ∧ graph.opAt place = node.1 ∧
      graph.arg0At place = node.2.1 ∧ graph.arg1At place = node.2.2

theorem Continues.of_prefix {graph nodes more} (extending : Continues graph more)
    (first : nodes <+: more) :
    Continues graph nodes := by
  intro place node found
  obtain ⟨rest, rfl⟩ := first
  refine extending place node ?_
  rw [getElem?_append_left (List.getElem?_eq_some_iff.mp found).1]
  exact found

/-- What the value of a node depends on. -/
def nodeChildren : SeedNode → List Nat
  | (.input, _, _) | (.const, _, _) => []
  | (.not, arg0, _) | (.output, arg0, _) => [arg0]
  | (.and, arg0, arg1) | (.or, arg0, arg1) => [arg0, arg1]

namespace Seed

/-- In every graph that begins with these nodes the node computes
`function`. -/
structure Means (seed : Seed) (node : Nat) (function : (Nat → Bool) → Bool) : Prop where
  inside : node < seed.nodes.length
  evaluates : ∀ graph, Continues graph seed.nodes → ∀ inputs,
    Evaluates graph inputs node (function inputs)

theorem Means.mono {seed grown : Seed} {node function} (means : seed.Means node function)
    (first : seed.nodes <+: grown.nodes) : grown.Means node function :=
  ⟨means.inside.trans_le first.length_le,
    fun graph extending => means.evaluates graph (extending.of_prefix first)⟩

/-- Nodes refer to earlier ones, the inputs are in place, and every negated
input was marked once. -/
structure Sound (arity gates : Nat) (negated : Nat → Bool) (seed : Seed) : Prop where
  inputs : ∀ var < arity, seed.nodes[var]? = some (.input, var, noNode)
  back : ∀ place node, seed.nodes[place]? = some node → ∀ child ∈ nodeChildren node, child < place
  slots : seed.negRef.length = arity
  means : ∀ var node, seed.negRef[var]? = some (some node) →
    seed.Means node fun inputs => !inputs var
  marks : ∀ var < arity, (seed.negRef.getD var none).isSome = negated var
  size : seed.nodes.length = arity + seed.negRef.countP Option.isSome + gates

section Steps

variable {arity gates : Nat} {negated : Nat → Bool} {seed : Seed} {assignment var : Nat}

variable {code : OpCode} {a b : Nat}

theorem prefix_appendNode : seed.nodes <+: (seed.appendNode code a b).2.nodes :=
  prefix_append _ _

theorem getElem?_appendNode :
    (seed.appendNode code a b).2.nodes[(seed.appendNode code a b).1]? = some (code, a, b) := by
  change (seed.nodes ++ [(code, a, b)])[seed.nodes.length]? = _
  rw [getElem?_append_right (Nat.le_refl _), Nat.sub_self]
  rfl

theorem lt_appendNode : (seed.appendNode code a b).1 < (seed.appendNode code a b).2.nodes.length :=
  (List.getElem?_eq_some_iff.mp getElem?_appendNode).1

theorem Sound.appendNode (sound : seed.Sound arity gates negated) {code} {a b : Nat}
    (children : ∀ child ∈ nodeChildren (code, a, b), child < seed.nodes.length) :
    (seed.appendNode code a b).2.Sound arity (gates + 1) negated where
  inputs input inside := by
    have own := sound.inputs input inside
    change (seed.nodes ++ [(code, a, b)])[input]? = _
    rw [getElem?_append_left (List.getElem?_eq_some_iff.mp own).1]
    exact own
  back place node found := by
    change (seed.nodes ++ [(code, a, b)])[place]? = _ at found
    by_cases old : place < seed.nodes.length
    · rw [getElem?_append_left old] at found
      exact sound.back place node found
    have inside := (List.getElem?_eq_some_iff.mp found).1
    rw [length_append, length_singleton] at inside
    have last : place = seed.nodes.length := by omega
    rw [last] at found ⊢
    rw [getElem?_append_right (Nat.le_refl _), Nat.sub_self] at found
    cases found
    exact children
  slots := sound.slots
  means input node found :=
    (sound.means input node found).mono prefix_appendNode
  marks := sound.marks
  size := by
    change (seed.nodes ++ [(code, a, b)]).length = _
    rw [length_append, length_singleton, sound.size]
    rfl

section

variable {first second : Nat} {left right : (Nat → Bool) → Bool} (one : seed.Means first left)
  (other : seed.Means second right)
include one other

theorem means_and :
    (seed.appendNode .and first second).2.Means (seed.appendNode .and first second).1
      fun inputs => left inputs && right inputs where
  inside := lt_appendNode
  evaluates graph extending inputs := by
    obtain ⟨inside, code, arg0, arg1⟩ := extending _ _ getElem?_appendNode
    refine .and inside code ?_ ?_
    · rw [arg0]
      exact (one.mono prefix_appendNode).evaluates graph extending inputs
    · rw [arg1]
      exact (other.mono prefix_appendNode).evaluates graph extending inputs

theorem means_or : (seed.appendNode .or first second).2.Means (seed.appendNode .or first second).1
      fun inputs => left inputs || right inputs where
  inside := lt_appendNode
  evaluates graph extending inputs := by
    obtain ⟨inside, code, arg0, arg1⟩ := extending _ _ getElem?_appendNode
    refine .or inside code ?_ ?_
    · rw [arg0]
      exact (one.mono prefix_appendNode).evaluates graph extending inputs
    · rw [arg1]
      exact (other.mono prefix_appendNode).evaluates graph extending inputs

end

theorem means_not {node : Nat} {function} (means : seed.Means node function) :
    (seed.appendNode .not node noNode).2.Means (seed.appendNode .not node noNode).1
      fun inputs => !function inputs where
  inside := lt_appendNode
  evaluates graph extending inputs := by
    obtain ⟨inside, code, arg0, _⟩ := extending _ _ getElem?_appendNode
    refine .not inside code ?_
    rw [arg0]
    exact (means.mono prefix_appendNode).evaluates graph extending inputs

theorem means_output {node : Nat} {function} (means : seed.Means node function) :
    (seed.appendNode .output node noNode).2.Means
      (seed.appendNode .output node noNode).1 function where
  inside := lt_appendNode
  evaluates graph extending inputs := by
    obtain ⟨inside, code, arg0, _⟩ := extending _ _ getElem?_appendNode
    refine .output inside code ?_
    rw [arg0]
    exact (means.mono prefix_appendNode).evaluates graph extending inputs

theorem Sound.means_input (sound : seed.Sound arity gates negated)
    (inside : var < arity) : seed.Means var fun inputs => inputs var where
  inside := (List.getElem?_eq_some_iff.mp (sound.inputs var inside)).1
  evaluates graph extending inputs := by
    obtain ⟨inside, code, arg0, _⟩ := extending _ _ (sound.inputs var inside)
    have value : Evaluates graph inputs var (inputs (graph.arg0At var)) := .input inside code
    rw [arg0] at value
    exact value

theorem bit_eq_one_iff : (assignment >>> var) &&& 1 = 1 ↔ assignment.testBit var = true := by
  rw [Nat.and_one_is_mod, Nat.shiftRight_eq_div_pow,
    Nat.testBit_eq_decide_div_mod_eq, decide_eq_true_eq]

/-- Every variable so far, and those that the assignment has false. -/
def marked (negated : Nat → Bool) (assignment vars var : Nat) : Bool :=
  negated var || (decide (var < vars) && !assignment.testBit var)

theorem marked_succ {negated vars} : marked negated assignment (vars + 1) var =
      (marked negated assignment vars var || (var == vars && !assignment.testBit vars)) := by
  unfold marked
  by_cases here : var = vars
  · subst here
    simp
  · have same : var < vars + 1 ↔ var < vars := by omega
    simp [here, same]

theorem Sound.congr {other} (sound : seed.Sound arity gates negated)
    (same : ∀ var < arity, negated var = other var) :
    seed.Sound arity gates other :=
  { sound with
    marks := fun var inside =>
      (sound.marks var inside).trans (same var inside) }

theorem Sound.mark (sound : seed.Sound arity gates negated)
    (inside : var < arity) (free : seed.negRef.getD var none = none) :
    let (node, grown) := seed.appendNode .not var noNode
    Seed.Sound arity gates (fun other => negated other || (other == var))
      { grown with negRef := grown.negRef.set var (some node) } := by
  have grown := sound.appendNode fun child (member : child ∈ nodeChildren (.not, var, noNode)) => by
    rcases member with _ | ⟨_, ⟨⟩⟩
    exact (sound.means_input inside).inside
  have slot : var < seed.negRef.length := sound.slots.symm ▸ inside
  refine ⟨grown.inputs, grown.back, ?_, fun input node found => ?_, fun input small => ?_, ?_⟩
  · exact (length_set ..).trans sound.slots
  · by_cases here : var = input
    · subst here
      rw [getElem?_set_self slot] at found
      cases found
      exact (means_not (sound.means_input inside)).mono prefix_rfl
    · rw [getElem?_set_ne here] at found
      exact (sound.means input node found).mono prefix_appendNode
  · have before := sound.marks input small
    rw [getD_eq_getElem?_getD] at before ⊢
    by_cases here : var = input
    · subst here
      rw [getElem?_set_self slot]
      simp
    · rw [getElem?_set_ne here, before]
      simp [Ne.symm here]
  · have size := sound.size
    rw [getD_eq_getElem _ _ slot] at free
    rw [countP_set slot, free, length_append, length_singleton]
    simp only [Option.isSome_none, Option.isSome_some, if_true, Bool.false_eq_true, if_false]
    omega

theorem literal_spec (assignment : Nat)
    (sound : seed.Sound arity gates negated) (inside : var < arity) :
    (seed.literal assignment var).2.Sound arity gates (fun other => negated other ||
          (other == var && !assignment.testBit var)) ∧
      seed.nodes <+: (seed.literal assignment var).2.nodes ∧
      (seed.literal assignment var).2.Means (seed.literal assignment var).1
        fun inputs => inputs var == assignment.testBit var := by
  unfold literal
  by_cases bit : assignment.testBit var = true
  · rw [if_pos (bit_eq_one_iff.mpr bit)]
    refine ⟨sound.congr fun other _ => ?_, prefix_rfl, ?_⟩
    · simp [bit]
    · have means := sound.means_input inside
      simpa [bit] using means
  rw [if_neg fun one => bit (bit_eq_one_iff.mp one)]
  cases known : seed.negRef.getD var none with
  | some node =>
    have slot : var < seed.negRef.length := sound.slots.symm ▸ inside
    have found : seed.negRef[var]? = some (some node) := by
      rw [getD_eq_getElem _ _ slot] at known
      rw [getElem?_eq_getElem slot, known]
    refine ⟨sound.congr fun other small => ?_, prefix_rfl, ?_⟩
    · by_cases here : other = var
      · have mark := sound.marks var inside
        rw [known] at mark
        subst here
        simp [← mark]
      · simp [here]
    · simpa [bit] using sound.means var node found
  | none =>
    refine ⟨?_, prefix_appendNode, ?_⟩
    · refine (sound.mark inside known).congr fun other _ => ?_
      simp [bit]
    · have means : (seed.appendNode .not var noNode).2.Means (seed.appendNode .not var noNode).1
          fun inputs => inputs var == assignment.testBit var := by
        simpa [bit] using means_not (sound.means_input inside)
      exact means.mono prefix_rfl

/-- The inputs agree with the assignment on the first variables. -/
def agrees (assignment vars : Nat) (inputs : Nat → Bool) : Bool :=
  (List.range vars).all fun var => inputs var == assignment.testBit var

theorem agrees_succ {vars inputs} : agrees assignment (vars + 1) inputs =
      (agrees assignment vars inputs && (inputs vars == assignment.testBit vars)) := by
  rw [agrees, range_succ, all_append]
  simp [agrees]

theorem conjoin_spec (assignment : Nat) (sound : seed.Sound arity gates negated) {vars : Nat}
    (inside : vars + 1 ≤ arity) :
    ∃ root grown,
      (List.range (vars + 1)).foldl (conjoin assignment) (none, seed) = (some root, grown) ∧
        grown.Sound arity (gates + vars) (marked negated assignment (vars + 1)) ∧
        seed.nodes <+: grown.nodes ∧
        grown.Means root (agrees assignment (vars + 1)) := by
  induction vars with
  | zero =>
    obtain ⟨literal, first, means⟩ := literal_spec assignment sound inside
    refine ⟨_, _, rfl, literal.congr fun var _ => ?_, first, ?_⟩
    · rw [marked_succ]
      unfold marked
      rw [decide_eq_false (Nat.not_lt_zero var), Bool.false_and, Bool.or_false]
    · have same : agrees assignment (0 + 1) = fun inputs => inputs 0 == assignment.testBit 0 := by
        funext inputs
        simp [agrees]
      rw [same]
      exact means
  | succ vars ih =>
    obtain ⟨root, grown, done, holds, first, means⟩ := ih (by omega)
    obtain ⟨literal, second, value⟩ := literal_spec assignment holds inside
    rw [range_succ, foldl_append, done]
    refine ⟨_, _, rfl, ?_, ?_, ?_⟩
    · refine (literal.appendNode ?_).congr fun var _ => ?_
      · rintro child (_ | ⟨_, _ | ⟨_, ⟨⟩⟩⟩)
        · exact (means.mono second).inside
        · exact value.inside
      · exact marked_succ.symm
    · exact (first.trans second).trans prefix_appendNode
    · have both := means_and (means.mono second) value
      have same : agrees assignment (vars + 1 + 1) = fun inputs =>
          agrees assignment (vars + 1) inputs &&
            (inputs (vars + 1) == assignment.testBit (vars + 1)) := by
        funext inputs
        exact agrees_succ
      rw [same]
      exact both

end Steps

section Sums

variable {arity gates : Nat} {seed : Seed} {selected before : List Nat}

/-- The inputs that some assignment has false. -/
def negatedBy (selected : List Nat) (var : Nat) : Bool :=
  selected.any fun assignment => !assignment.testBit var

/-- The inputs are one of the assignments. -/
def agreesSome (arity : Nat) (selected : List Nat) (inputs : Nat → Bool) : Bool :=
  selected.any fun assignment => agrees assignment arity inputs

theorem term_spec (sound : seed.Sound (arity + 1) gates (negatedBy before)) (assignment : Nat) :
    ∃ root grown, seed.term (arity + 1) assignment = (some root, grown) ∧
      grown.Sound (arity + 1) (gates + arity) (negatedBy (before ++ [assignment])) ∧
      seed.nodes <+: grown.nodes ∧
      grown.Means root (agrees assignment (arity + 1)) := by
  obtain ⟨root, grown, done, holds, first, means⟩ :=
    conjoin_spec assignment sound (Nat.le_refl (arity + 1))
  refine ⟨root, grown, done, holds.congr fun var inside => ?_, first, means⟩
  unfold marked negatedBy
  simp [inside]

theorem disjoin_spec {root : Nat} (sound : seed.Sound (arity + 1) gates (negatedBy before))
    (means : seed.Means root (agreesSome (arity + 1) before)) :
    ∃ sum grown, selected.foldlM (disjoin (arity + 1)) (some root, seed) = .ok (some sum, grown) ∧
        grown.Sound (arity + 1) (gates + selected.length * (arity + 1))
          (negatedBy (before ++ selected)) ∧
        grown.Means sum (agreesSome (arity + 1) (before ++ selected)) := by
  induction selected generalizing seed before gates root with
  | nil =>
    rw [append_nil, length_nil, Nat.zero_mul]
    exact ⟨root, seed, rfl, sound, means⟩
  | cons assignment selected ih =>
    obtain ⟨term, mid, done, holds, first, product⟩ := term_spec sound assignment
    have next := holds.appendNode fun child (member : child ∈ nodeChildren (.or, root, term)) => by
      rcases member with _ | ⟨_, _ | ⟨_, ⟨⟩⟩⟩
      · exact (means.mono first).inside
      · exact product.inside
    have either := means_or (means.mono first) product
    have same : agreesSome (arity + 1) (before ++ [assignment]) =
        fun inputs => agreesSome (arity + 1) before inputs ||
          agrees assignment (arity + 1) inputs := by
      funext inputs
      unfold agreesSome
      simp
    rw [← same] at either
    obtain ⟨sum, grown, rest, sized, value⟩ := ih next either
    refine ⟨sum, grown, ?_, ?_, ?_⟩
    · rw [foldlM_cons]
      have step : disjoin (arity + 1) (some root, seed) assignment =
          .ok (some (mid.appendNode .or root term).1, (mid.appendNode .or root term).2) := by
        simp only [disjoin, done]
      rw [step]
      exact rest
    · rw [append_assoc, singleton_append] at sized
      have count : gates + arity + 1 + selected.length * (arity + 1) =
          gates + (assignment :: selected).length * (arity + 1) := by
        rw [length_cons, Nat.succ_mul]
        omega
      rw [← count]
      exact sized
    · rw [append_assoc, singleton_append] at value
      exact value

end Sums

section Whole

variable {arity : Nat} {selected : List Nat}

theorem sound_start : (start arity).Sound arity 0 (negatedBy []) where
  inputs var inside := by
    simp [start, inside]
  back place node found := by
    obtain ⟨input, _, rfl⟩ := mem_map.mp (mem_of_getElem? found)
    exact nofun
  slots := length_replicate
  means var node found := by
    have member := mem_of_getElem? found
    cases eq_of_mem_replicate member
  marks var inside := by
    simp [start, negatedBy]
  size := by
    simp [start]

theorem exists_dnf (pos : 0 < arity) (drawn : selected ≠ []) : ∃ root seed,
      selected.foldlM (disjoin arity) (none, start arity) = .ok (some root, seed) ∧
        seed.Sound arity (selected.length * arity - 1) (negatedBy selected) ∧
        seed.Means root (agreesSome arity selected) := by
  obtain ⟨arity, rfl⟩ := Nat.exists_eq_succ_of_ne_zero pos.ne'
  cases selected with
  | nil => exact absurd rfl drawn
  | cons assignment selected =>
    obtain ⟨term, mid, done, holds, _, product⟩ := term_spec sound_start assignment
    have single : agreesSome (arity + 1) [assignment] = agrees assignment (arity + 1) := by
      funext inputs
      simp [agreesSome]
    obtain ⟨sum, grown, rest, sized, value⟩ := disjoin_spec holds (single ▸ product)
    refine ⟨sum, grown, ?_, ?_, value⟩
    · rw [foldlM_cons]
      have step : disjoin (arity + 1) (none, start (arity + 1)) assignment =
          .ok (some term, mid) := by
        simp only [disjoin, done]
      rw [step]
      exact rest
    · have count : 0 + arity + selected.length * (arity + 1) =
          (assignment :: selected).length * (arity + 1) - 1 := by
        rw [length_cons, Nat.succ_mul]
        omega
      rw [← count]
      exact sized

theorem Sound.countP {gates negated} {seed : Seed} (sound : seed.Sound arity gates negated) :
    seed.negRef.countP Option.isSome = (List.range arity).countP negated := by
  have entries := GraphBody.map_range_getD seed.negRef none
  rw [sound.slots] at entries
  rw [← entries, countP_map]
  refine countP_congr fun var member => ?_
  rw [← sound.marks var (mem_range.mp member)]
  rfl

end Whole

end Seed

def seedSize (arity : Nat) (selected : List Nat) (exceptionsAreTrue : Bool) : Nat :=
  arity + (List.range arity).countP (Seed.negatedBy selected) +
    (selected.length * arity - 1) + (if exceptionsAreTrue then 0 else 1) + 1

section Graphs

variable {arity capacity : UInt16} {output : Nat} {nodes : List SeedNode}

def seedBody (arity capacity : UInt16) (output : Nat) (nodes : List SeedNode) : GraphBody where
  arity
  capacity
  outputNode := output
  op := nodes.map (·.1)
  arg0 := nodes.map (·.2.1)
  arg1 := nodes.map (·.2.2)

theorem length_seedBody : (seedBody arity capacity output nodes).op.length = nodes.length :=
  length_map _

theorem extends_seedBody (arity capacity : UInt16) (output : Nat) (nodes : List SeedNode) :
    Continues (seedBody arity capacity output nodes) nodes := by
  intro place node found
  have inside := (List.getElem?_eq_some_iff.mp found).1
  have body : seedBody arity capacity output nodes =
      (seedBody arity capacity output nodes).ofRows output nodes := rfl
  rw [body]
  exact ⟨length_seedBody.symm ▸ inside, GraphBody.ofRows_at found⟩

theorem childrenAt_seedBody {place node} (found : nodes[place]? = some node) :
    (seedBody arity capacity output nodes).childrenAt place = nodeChildren node := by
  obtain ⟨_, code, arg0, arg1⟩ :=
    extends_seedBody arity capacity output nodes place node found
  unfold GraphBody.childrenAt
  rw [code, arg0, arg1]
  obtain ⟨op, first, second⟩ := node
  cases op <;> rfl

variable {gates : Nat} {negated : Nat → Bool} {seed : Seed}

theorem back_seedBody (sound : seed.Sound arity.toNat gates negated) (node : Nat)
    (inside : node < (seedBody arity capacity output seed.nodes).op.length) :
    ∀ child ∈ (seedBody arity capacity output seed.nodes).childrenAt node, child < node := by
  intro child member
  rw [length_seedBody] at inside
  have found := getElem?_eq_getElem inside
  rw [childrenAt_seedBody found] at member
  exact sound.back node _ found child member

theorem valid_seedBody (sound : seed.Sound arity.toNat gates negated)
    (fits : seed.nodes.length ≤ capacity.toNat)
    (inside : output < seed.nodes.length) :
    (seedBody arity capacity output seed.nodes).Valid := by
  refine ⟨?_, ?_, ?_, ?_, ?_, ?_, fun var small => ?_⟩
  · rw [length_seedBody]
    omega
  · exact (length_map _).trans length_seedBody.symm
  · exact (length_map _).trans length_seedBody.symm
  · rw [length_seedBody]
    exact fits
  · rw [length_seedBody]
    exact inside
  · rw [length_seedBody, sound.size]
    change arity.toNat ≤ _
    omega
  · obtain ⟨_, code, arg0, _⟩ :=
      extends_seedBody arity capacity output seed.nodes _ _ (sound.inputs var small)
    exact ⟨code, arg0⟩

theorem exists_compact_seedBody {function} (sound : seed.Sound arity.toNat gates negated)
    (means : seed.Means output function) (fits : seed.nodes.length ≤ capacity.toNat) :
    ∃ compact, compactGraph (seedBody arity capacity output seed.nodes) = .ok compact ∧
        compact.validate = .ok () ∧ compact.arity = arity ∧
        compact.Computes function := by
  have valid := valid_seedBody sound fits means.inside
  have inRange : (seedBody arity capacity output seed.nodes).InRange :=
    fun node inside child member =>
      (back_seedBody sound node inside child member).trans inside
  obtain ⟨compact, keep, done, compacted⟩ := exists_compacted
    (GraphBody.validate_eq_ok.mpr valid) inRange
    (GraphBody.acyclic_of_lt (back_seedBody sound))
  obtain ⟨other, whole, computes⟩ := compacted.computes
  refine ⟨compact, done, compacted.valid, compacted.renumbered.arity, fun inputs value => ?_⟩
  have same : function inputs = other inputs := (whole inputs _).mp
      (means.evaluates _ (extends_seedBody _ _ _ _) inputs)
  rw [computes inputs value, same]

end Graphs

section Seeds

variable {config : WhittleGraphGeneratorConfig} {choices : SeedChoices}

theorem positive_of_validate (accepted : config.validate = .ok config) :
    0 < config.arity.toNat := by
  unfold WhittleGraphGeneratorConfig.validate at accepted
  split at accepted
  · cases accepted
  next nonzero =>
  rcases Nat.eq_zero_or_pos config.arity.toNat with zero | pos
  · exact absurd (UInt16.toNat_inj.mp zero) nonzero
  · exact pos

variable {negated : Nat → Bool} {seed : Seed} {function : (Nat → Bool) → Bool}

theorem Seed.Sound.unary {arity gates root code} (sound : seed.Sound arity gates negated)
    (means : seed.Means root function) (one : nodeChildren (code, root, noNode) = [root]) :
    (seed.appendNode code root noNode).2.Sound arity (gates + 1) negated :=
  sound.appendNode fun child member => by
    rw [one, mem_singleton] at member
    exact member ▸ means.inside

theorem finish_spec {arity gates dnf} (sound : seed.Sound arity gates negated)
    (means : seed.Means dnf function) (exceptionsAreTrue : Bool) :
    (seed.finish dnf exceptionsAreTrue).2.Sound arity
        (gates + (if exceptionsAreTrue then 0 else 1) + 1) negated ∧
      (seed.finish dnf exceptionsAreTrue).2.Means (seed.finish dnf exceptionsAreTrue).1
        fun inputs => function inputs == exceptionsAreTrue := by
  cases exceptionsAreTrue with
  | true =>
    have same : (fun inputs => function inputs == true) = function := by
      funext inputs
      exact beq_true _
    rw [same]
    exact ⟨sound.unary means rfl, Seed.means_output means⟩
  | false =>
    have same : (fun inputs => function inputs == false) = fun inputs => !function inputs := by
      funext inputs
      exact beq_false _
    have complement := Seed.means_not means
    rw [same]
    exact ⟨(sound.unary means rfl).unary complement rfl, Seed.means_output complement⟩

theorem truthTableSeed_eq {selected dnf}
    (sampled : sampleAssignments choices.termCount [] choices.assignments = .ok selected)
    (done : selected.foldlM (Seed.disjoin config.arity.toNat)
      (none, Seed.start config.arity.toNat) = .ok (some dnf, seed)) :
    truthTableSeed config choices = seedGraph config (seed.finish dnf choices.exceptionsAreTrue).1
        (seed.finish dnf choices.exceptionsAreTrue).2 := by
  unfold truthTableSeed
  rw [sampled]
  change (selected.foldlM (Seed.disjoin config.arity.toNat)
    (none, Seed.start config.arity.toNat) >>= _ : Except SeedFailure GraphBody) = _
  rw [done]
  rfl

theorem exists_seedGraph {gates output} (sound : seed.Sound config.arity.toNat gates negated)
    (means : seed.Means output function) (fits : seed.nodes.length ≤ config.capacity.toNat) :
    ∃ graph, seedGraph config output seed = .ok graph ∧
      graph.validate = .ok () ∧ graph.arity = config.arity ∧
      graph.Computes function := by
  obtain ⟨compact, shrunk, valid, arity, computes⟩ := exists_compact_seedBody sound means fits
  have made : GraphBody.new config.arity config.capacity output
      (seed.nodes.map (·.1)) (seed.nodes.map (·.2.1))
      (seed.nodes.map (·.2.2)) = .ok (seedBody config.arity config.capacity output seed.nodes) :=
    GraphBody.new_eq_ok.mpr ⟨rfl, GraphBody.validate_eq_ok.mpr
      (valid_seedBody sound fits means.inside)⟩
  refine ⟨compact, ?_, valid, arity, computes⟩
  unfold seedGraph
  rw [if_neg (Nat.not_lt.mpr fits), made]
  change (compactGraph _).mapError _ = _
  rw [shrunk]
  rfl

/-- Where assignments are drawn, the graph is the sum of their products or its
complement, and is refused only if it has more nodes than the capacity. -/
theorem truthTableSeed_computes (accepted : config.validate = .ok config)
    (legal : config.Legal choices) (drawn : 0 < choices.termCount) :
    ∃ selected,
      sampleAssignments choices.termCount [] choices.assignments = .ok selected ∧
        selected.Nodup ∧ selected.length = choices.termCount ∧
        (∀ assignment ∈ selected, assignment < config.bitCount) ∧
        if seedSize config.arity.toNat selected choices.exceptionsAreTrue ≤
            config.capacity.toNat then
          ∃ graph, truthTableSeed config choices = .ok graph ∧
            graph.validate = .ok () ∧ graph.arity = config.arity ∧
            graph.Computes fun inputs =>
              Seed.agreesSome config.arity.toNat selected inputs == choices.exceptionsAreTrue
        else
          truthTableSeed config choices = .error (.config .seedGraphExceedsCapacity) := by
  obtain ⟨selected, sampled⟩ :
      ∃ selected, sampleAssignments choices.termCount [] choices.assignments =
        .ok selected := exists_sampleAssignments legal.enough
  obtain ⟨distinct, length, origin⟩ := drawn_of_sampleAssignments
    nodup_nil (Nat.zero_le _) sampled
  refine ⟨selected, sampled, distinct, length, fun assignment member => ?_, ?_⟩
  · rcases origin assignment member with ⟨⟨⟩⟩ | draw
    exact legal.bounded assignment draw
  have nonempty : selected ≠ [] := by
    rintro rfl
    change 0 = _ at length
    omega
  obtain ⟨dnf, seed, done, sound, means⟩ := Seed.exists_dnf (positive_of_validate accepted) nonempty
  obtain ⟨built, value⟩ := finish_spec sound means choices.exceptionsAreTrue
  have size : (seed.finish dnf choices.exceptionsAreTrue).2.nodes.length =
      seedSize config.arity.toNat selected choices.exceptionsAreTrue := by
    rw [built.size, built.countP, seedSize]
    omega
  rw [truthTableSeed_eq sampled done, ← size]
  split
  · next fits => exact exists_seedGraph built value fits
  next large =>
  unfold seedGraph
  rw [if_pos (Nat.lt_of_not_le large)]
  rfl

end Seeds

namespace Sample

/-- One input, and at most one assignment drawn. -/
def oneInput (capacity exceptionTermsMin : UInt16) : WhittleGraphGeneratorConfig where
  arity := 1
  capacity
  exceptionTermsMin
  exceptionTermsMax := 1
  prewalkStepsMin := 0
  prewalkStepsMax := 0

end Sample

/-- A negated input that is drawn. -/
theorem truthTableSeed_computes_a_negation : ∃ graph,
      truthTableSeed (Sample.oneInput 3 1) ⟨1, [0], true⟩ = .ok graph ∧ graph.Computes fun inputs =>
          Seed.agreesSome 1 [0] inputs == true := by
  have legal : (Sample.oneInput 3 1).Legal ⟨1, [0], true⟩ := by
    constructor <;> decide
  obtain ⟨selected, sampled, _, _, _, result⟩ := truthTableSeed_computes rfl legal (by decide)
  cases sampled
  obtain ⟨graph, done, _, _, computes⟩ := result
  exact ⟨graph, done, computes⟩

/-- Configurations that are accepted and draws that are legal, where there is
no graph: the capacity is below the size, or nothing is drawn. -/
theorem truthTableSeed_fails : ((Sample.oneInput 2 1).validate = .ok (Sample.oneInput 2 1) ∧
      (Sample.oneInput 2 1).Legal ⟨1, [0], true⟩ ∧
      truthTableSeed (Sample.oneInput 2 1) ⟨1, [0], true⟩ =
        .error (.config .seedGraphExceedsCapacity)) ∧
    (Sample.oneInput 3 0).validate = .ok (Sample.oneInput 3 0) ∧
      (Sample.oneInput 3 0).Legal ⟨0, [], true⟩ ∧
      truthTableSeed (Sample.oneInput 3 0) ⟨0, [], true⟩ = .error .panicked := by
  refine ⟨⟨rfl, ?_, rfl⟩, rfl, ?_, rfl⟩
  · constructor <;> decide
  · constructor <;> decide

end GraphZero.Whittle
