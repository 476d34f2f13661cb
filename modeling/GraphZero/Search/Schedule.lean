import GraphZero.Search.Work
import Mathlib.Data.Nat.Log

/-!
# Root schedules

What the Gumbel search computes before it looks at the tree: root noise, the
actions a root considers, and the visit counts its simulations go through.
-/

namespace GraphZero.Search

open Engine Foundation

variable {F : Type} [Scalar F]

/-- Configuration of the symmetric search.  A search runs at least one
simulation and considers at least one action. -/
structure GumbelMctsConfig (F : Type) where
  maxSteps : Nat
  simulations : Nat
  simulations_pos : 0 < simulations
  maxConsideredActions : Nat
  maxConsideredActions_pos : 0 < maxConsideredActions
  seed : UInt64
  gumbelScale : F
  cVisit : F
  cScale : F
  gumbelNoiseOverlap : F
  treeReuse : Bool
  exportPosition : Bool
  maskStop : Bool
  noBacktrack : Bool
  candidateOptions : CandidateOptions
  measureOptions : MeasureOptions

/-- The last of the greatest elements. -/
def maxBy {α : Type} (compare : α → α → Ordering) : List α → Option α
  | [] => none
  | first :: rest =>
    some (rest.foldl (fun best next => if compare best next = .gt then best else next) first)

theorem mem_of_maxBy {α : Type} {compare items} {best : α}
    (found : maxBy compare items = some best) :
    best ∈ items := by
  cases items with
  | nil => cases found
  | cons first rest =>
    cases found
    induction rest generalizing first with
    | nil => exact List.mem_singleton_self first
    | cons next rest ih =>
      rw [List.foldl_cons]
      by_cases stays : compare first next = .gt
      · rw [if_pos stays]
        have member := ih first
        simp only [List.mem_cons] at member ⊢
        tauto
      · rw [if_neg stays]
        have member := ih next
        tauto

/-- Normalized exponentials of the finite values; without one the result is
uniform. -/
def softmax (values : List F) : List F :=
  match Scalar.maximum (values.filter Scalar.isFinite) with
  | none => List.replicate values.length (Scalar.one / Scalar.ofNat values.length)
  | some greatest =>
    let out := values.map fun value =>
      if Scalar.isFinite value then Scalar.exp (value - greatest)
      else Scalar.zero
    let total := Scalar.sum out
    if Scalar.lessEq total Scalar.zero || !Scalar.isFinite total then
      let legal := (values.filter Scalar.isFinite).length
      let uniform := Scalar.one / Scalar.ofNat (max legal 1)
      values.map fun value =>
        if Scalar.isFinite value then uniform else Scalar.zero
    else
      out.map fun value => value / total

def rootSeed (seed : UInt64) (rootStep : UInt32) : UInt64 :=
  seed ^^^ (0x9e3779b97f4a7c15 * (rootStep.toUInt64 + 1))

structure GumbelRng where
  state : UInt64

namespace GumbelRng

def nextU64 (rng : GumbelRng) : UInt64 × GumbelRng :=
  let state := rng.state + 0x9e3779b97f4a7c15
  let first := (state ^^^ (state >>> 30)) * 0xbf58476d1ce4e5b9
  let second := (first ^^^ (first >>> 27)) * 0x94d049bb133111eb
  (second ^^^ (second >>> 31), ⟨state⟩)

def unit (rng : GumbelRng) : F × GumbelRng :=
  let (word, rng) := rng.nextU64
  let value := word >>> 40
  let unit := (Scalar.ofNat value.toNat + Scalar.ofRat (1 / 2)) / Scalar.ofNat (2 ^ 24)
  let margin : F := Scalar.ofRat (1 / 10000000)
  (Scalar.clamp unit margin (Scalar.one - margin), rng)

def gumbels (scale : F) : (count : Nat) → GumbelRng → List F
  | 0, _ => []
  | count + 1, rng =>
    let (unit, rng) := rng.unit (F := F)
    scale * (-(Scalar.ln (-(Scalar.ln unit)))) :: gumbels scale count rng

end GumbelRng

def sampleRootGumbels (count : Nat) (scale : F) (rng : GumbelRng) : List F :=
  if scale == Scalar.zero then List.replicate count Scalar.zero
  else rng.gumbels scale count

/-- The mass of the first `count` logits at `scale`. -/
def topMass (sortedDesc : List F) (count : Nat) (scale : F) : F :=
  let greatest := sortedDesc.headD Scalar.zero
  let weights := sortedDesc.map fun logit =>
    Scalar.exp ((logit - greatest) / scale)
  Scalar.sum (weights.take count) / Scalar.sum weights

/-- Halvings of the interval from `lower` to `upper`, towards the scale at
which the top mass is `target`. -/
def bisectScale (legal : List F) (considered : Nat) (target : F) :
    (rounds : Nat) → (lower upper : F) → F
  | 0, lower, upper => Scalar.ofRat (1 / 2) * (lower + upper)
  | rounds + 1, lower, upper =>
    let mid := Scalar.ofRat (1 / 2) * (lower + upper)
    if Scalar.less target (topMass legal considered mid) then
      bisectScale legal considered target rounds mid upper
    else
      bisectScale legal considered target rounds lower mid

def overlapNoiseScale (logits : List F) (considered : Nat) (overlap baseScale : F) : F :=
  let legal := logits.filter Scalar.isFinite
  if legal.length ≤ considered then baseScale
  else
    let legal := legal.insertionSort fun left right =>
      Scalar.totalCmp right left ≠ .gt
    let floor := Scalar.ofNat considered / Scalar.ofNat legal.length + Scalar.ofRat (1 / 1000000)
    let target := Scalar.clamp (overlap + Scalar.ofRat (5 / 100)) floor
      (Scalar.ofRat (999999 / 1000000))
    bisectScale legal considered target 18 (Scalar.ofRat (1 / 1000)) (Scalar.ofRat 64)

/-- Greater scores first, then smaller positions. -/
def scoreOrder (scores : List F) (left right : Nat) : Ordering :=
  (Scalar.totalCmp (scores.getD right Scalar.zero)
    (scores.getD left Scalar.zero)).then (compare left right)

def considerationOrder (scores : List F) (actions : List Nat) : List Nat :=
  actions.insertionSort fun left right => scoreOrder scores left right ≠ .gt

def consideredActions (baseScores : List F) (maxConsidered : Nat) : List Nat :=
  (considerationOrder baseScores (List.range baseScores.length)).take maxConsidered

/-- The schedule once `sequence` is in place: the leading `considered` of
`visits` go on, halved after each phase. -/
def visitPhases (simulations log2max : Nat) :
    (fuel : Nat) → (visits : List Nat) → (considered : Nat) → (sequence : List Nat) → List Nat
  | 0, _, _, sequence => sequence
  | fuel + 1, visits, considered, sequence =>
    if simulations ≤ sequence.length then sequence
    else
      let extra := max (simulations / (log2max * considered)) 1
      let leading := visits.take considered
      let rounds := (List.range extra).flatMap fun round =>
        leading.map (· + round)
      visitPhases simulations log2max fuel (leading.map (· + extra) ++ visits.drop considered)
        (max (considered / 2) 2) (sequence ++ rounds)

/-- The visit counts that simulations are scheduled at. -/
def consideredVisitSequence (maxConsidered simulations : Nat) : List Nat :=
  if maxConsidered ≤ 1 then List.range (simulations % 2 ^ 32)
  else
    (visitPhases simulations (Nat.clog 2 maxConsidered) simulations
      (List.replicate maxConsidered 0) maxConsidered []).take simulations

def budgetFraction (maxSteps step : Nat) : F :=
  if maxSteps = 0 then Scalar.one
  else Scalar.ofNat (maxSteps - step) / Scalar.ofNat maxSteps

end GraphZero.Search
