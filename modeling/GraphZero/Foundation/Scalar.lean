import Mathlib.Algebra.Order.Ring.Abs
import Mathlib.Tactic.Linarith
import Mathlib.Tactic.Ring

/-!
# Scalars

`Scalar` names the operations of a floating point type and says nothing of
their results, so what is proved over it holds however they round.
`Exact` is the arithmetic of the same operations without rounding: an ordered
field with infinities and an undefined value.
-/

namespace GraphZero.Foundation

/-- The operations of a floating point type. -/
class Scalar (F : Type) extends
    Add F, Sub F, Mul F, Div F, Neg F, BEq F where
  /-- The value nearest to a rational number. -/
  ofRat : ℚ → F
  negInfinity : F
  isFinite : F → Bool
  less : F → F → Bool
  lessEq : F → F → Bool
  totalCmp : F → F → Ordering
  /-- The greater of two values. -/
  max : F → F → F
  abs : F → F
  exp : F → F
  ln : F → F
  tanh : F → F

namespace Scalar

variable {F : Type} [Scalar F]

def zero : F := ofRat 0

def one : F := ofRat 1

def ofNat (count : Nat) : F := ofRat count

def sum (values : List F) : F :=
  values.foldl (· + ·) zero

/-- The greatest of some values, if there are any. -/
def maximum : List F → Option F
  | [] => none
  | first :: rest => some (rest.foldl max first)

def clamp (value lower upper : F) : F :=
  if less value lower then lower
  else if less upper value then upper
  else value

end Scalar

/-! ## Exact arithmetic -/

/-- The functions that the operations of a field do not give. -/
class Transcendental (K : Type) [Field K] [LinearOrder K] where
  exp : K → K
  ln : K → K
  tanh : K → K
  exp_pos : ∀ value, 0 < exp value
  abs_tanh_le_one : ∀ value, |tanh value| ≤ 1

inductive Exact (K : Type) where
  | finite (value : K)
  | infinite (negative : Bool)
  | undefined
  deriving DecidableEq

namespace Exact

variable {K : Type}

section Operations

variable [Field K] [LinearOrder K]

def neg : Exact K → Exact K
  | finite value => finite (-value)
  | infinite negative => infinite (!negative)
  | undefined => undefined

def add : Exact K → Exact K → Exact K
  | finite left, finite right => finite (left + right)
  | finite _, infinite negative => infinite negative
  | infinite negative, finite _ => infinite negative
  | infinite left, infinite right => if left = right then infinite left else undefined
  | _, _ => undefined

def mul : Exact K → Exact K → Exact K
  | finite left, finite right => finite (left * right)
  | finite factor, infinite negative | infinite negative, finite factor =>
    if factor = 0 then undefined
    else infinite (negative != decide (factor < 0))
  | infinite left, infinite right => infinite (left != right)
  | _, _ => undefined

def div : Exact K → Exact K → Exact K
  | finite left, finite right =>
    if right ≠ 0 then finite (left / right)
    else if left = 0 then undefined
    else infinite (decide (left < 0))
  | finite _, infinite _ => finite 0
  | infinite negative, finite right => infinite (negative != decide (right < 0))
  | _, _ => undefined

def lessEq : Exact K → Exact K → Bool
  | finite left, finite right => decide (left ≤ right)
  | finite _, infinite negative => !negative
  | infinite negative, finite _ => negative
  | infinite left, infinite right => left || !right
  | _, _ => false

def less : Exact K → Exact K → Bool
  | finite left, finite right => decide (left < right)
  | finite _, infinite negative => !negative
  | infinite negative, finite _ => negative
  | infinite left, infinite right => left && !right
  | _, _ => false

/-- The order of all values; an undefined one is the greatest. -/
def totalCmp (left right : Exact K) : Ordering :=
  if left = right then .eq
  else if less left right ∨ right = undefined then .lt
  else .gt

instance [Transcendental K] : Scalar (Exact K) where
  add := add
  sub left right := add left (neg right)
  mul := mul
  div := div
  neg := neg
  beq left right := decide (left = right) && decide (left ≠ undefined)
  ofRat value := finite value
  negInfinity := infinite true
  isFinite
    | finite _ => true
    | _ => false
  less := less
  lessEq := lessEq
  totalCmp := totalCmp
  max left right :=
    if left = undefined ∨ less left right then right else left
  abs
    | finite value => finite |value|
    | infinite _ => infinite false
    | undefined => undefined
  exp
    | finite value => finite (Transcendental.exp value)
    | infinite true => finite 0
    | infinite false => infinite false
    | undefined => undefined
  ln
    | finite value =>
      if value = 0 then infinite true
      else if value < 0 then undefined
      else finite (Transcendental.ln value)
    | infinite false => infinite false
    | _ => undefined
  tanh
    | finite value => finite (Transcendental.tanh value)
    | infinite negative => finite (if negative then -1 else 1)
    | undefined => undefined

end Operations

end Exact

/-- Rational approximations around zero, which evaluate. -/
instance : Transcendental ℚ where
  exp value := 1 + value + value ^ 2
  ln value := value - 1
  tanh value := max (-1) (min value 1)
  exp_pos value := by nlinarith [sq_nonneg (value + 1 / 2)]
  abs_tanh_le_one value := by
    rw [abs_le]
    exact ⟨le_max_left _ _, max_le (by norm_num) (min_le_right _ _)⟩

end GraphZero.Foundation
