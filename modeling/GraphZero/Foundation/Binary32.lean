import Mathlib.Data.Int.Log
import Mathlib.Data.Nat.Log
import Mathlib.Data.Rat.Floor
import Mathlib.Tactic.NormNum
import Mathlib.Tactic.Positivity
import Mathlib.Tactic.Ring

/-!
# Single and double precision

A finite single precision value is a sign and a whole number of units of `2 ^ -149`, the
smallest pos one.  An exact result is a quotient of natural numbers of
units; `round` takes it to the nearest value with 24 significant bits, ties to
even, and to infinity from half a last place beyond the largest finite value.
-/

namespace GraphZero.Foundation

/-! ## Rounding -/

/-- The quotient to the nearest whole number, ties to even. -/
def roundEven (numerator denominator : Nat) : Nat :=
  let quotient := numerator / denominator
  let twice := 2 * (numerator % denominator)
  if twice < denominator then quotient
  else if denominator < twice then quotient + 1
  else quotient + quotient % 2

variable {numerator denominator bound : Nat}

section

variable (pos : 0 < denominator)
include pos

theorem roundEven_le (below : numerator ≤ denominator * bound) :
    roundEven numerator denominator ≤ bound := by
  have division := Nat.div_add_mod numerator denominator
  have quotient : numerator / denominator ≤ bound := Nat.div_le_of_le_mul below
  unfold roundEven
  dsimp only
  by_cases exact : numerator % denominator = 0
  · rw [if_pos (by omega)]
    exact quotient
  have strict : numerator / denominator < bound := by
    rcases Nat.lt_or_eq_of_le quotient with strict | equal
    · exact strict
    · rw [equal] at division
      omega
  split
  · exact quotient
  split
  · exact strict
  · omega

theorem le_roundEven (above : denominator * bound ≤ numerator) :
    bound ≤ roundEven numerator denominator := by
  have quotient : bound ≤ numerator / denominator := by
    rw [Nat.le_div_iff_mul_le pos, Nat.mul_comm]
    exact above
  unfold roundEven
  dsimp only
  split
  · exact quotient
  · split <;> omega

theorem roundEven_lt (below : 2 * numerator + denominator < denominator * (2 * bound)) :
    roundEven numerator denominator < bound := by
  have division := Nat.div_add_mod numerator denominator
  generalize quotientEq : numerator / denominator = quotient at division
  have quotientLt : quotient < bound := by
    by_contra large
    have more : denominator * bound ≤ denominator * quotient :=
      Nat.mul_le_mul_left _ (Nat.le_of_not_lt large)
    have doubled : denominator * (2 * bound) = 2 * (denominator * bound) := by ring
    omega
  unfold roundEven
  dsimp only
  rw [quotientEq]
  by_cases last : quotient + 1 = bound
  · have doubled : denominator * (2 * bound) = 2 * (denominator * quotient) + 2 * denominator := by
      rw [← last]
      ring
    rw [if_pos (by omega)]
    exact quotientLt
  · split
    · exact quotientLt
    · split <;> omega

theorem le_roundEven_of_half (even : bound % 2 = 0)
    (above : denominator * (2 * bound) ≤ 2 * numerator + denominator) :
    bound ≤ roundEven numerator denominator := by
  have division := Nat.div_add_mod numerator denominator
  have remainder := Nat.mod_lt numerator pos
  generalize quotientEq : numerator / denominator = quotient at division
  unfold roundEven
  dsimp only
  rw [quotientEq]
  have nearly : bound ≤ quotient + 1 := by
    by_contra small
    have less : denominator * (quotient + 2) ≤ denominator * bound :=
      Nat.mul_le_mul_left _ (by omega)
    have expanded : denominator * (quotient + 2) =
        denominator * quotient + 2 * denominator := by ring
    have doubled : denominator * (2 * bound) = 2 * (denominator * bound) := by ring
    omega
  by_cases reached : bound ≤ quotient
  · split
    · exact reached
    · split <;> omega
  · have last : bound = quotient + 1 := by omega
    have doubled : denominator * (2 * bound) = 2 * (denominator * quotient) + 2 * denominator := by
      rw [last]
      ring
    rw [if_neg (by omega)]
    split
    · omega
    · omega

end

/-- The exponent of the last of 24 significant bits of a value with this whole
part. -/
def lastPlace (whole : Nat) : Nat :=
  whole.log2 + 1 - 24

/-- The units of the rounded value, before the overflow check. -/
def roundUnits (numerator denominator : Nat) : Nat :=
  let place := 2 ^ lastPlace (numerator / denominator)
  roundEven numerator (denominator * place) * place

/-- From `2 ^ 128` on, in units, a rounded value is infinite. -/
def overflowExponent : Nat := 252 + 25

section Units

variable {numerator denominator exponent : Nat}

theorem log2_le_of_le {whole bound} (below : whole ≤ 2 ^ bound) : whole.log2 ≤ bound := by
  by_cases zero : whole = 0
  · rw [zero, Nat.log2_zero]
    exact Nat.zero_le _
  · have strict : whole < 2 ^ (bound + 1) := by
      omega
    exact Nat.le_of_lt_succ ((Nat.log2_lt zero).mpr strict)

theorem roundUnits_le_pow (pos : 0 < denominator) (below : numerator ≤ denominator * 2 ^ exponent) :
    roundUnits numerator denominator ≤ 2 ^ exponent := by
  have whole : numerator / denominator ≤ 2 ^ exponent := Nat.div_le_of_le_mul below
  have leading := log2_le_of_le whole
  have placed : lastPlace (numerator / denominator) ≤ exponent := by
    unfold lastPlace
    omega
  unfold roundUnits
  generalize lastPlace (numerator / denominator) = place at placed
  have split : 2 ^ exponent = 2 ^ (exponent - place) * 2 ^ place := by
    rw [← Nat.pow_add, Nat.sub_add_cancel placed]
  rw [split]
  apply Nat.mul_le_mul_right
  apply roundEven_le (Nat.mul_pos pos (by positivity))
  rw [Nat.mul_assoc, Nat.mul_comm (2 ^ place), ← split]
  exact below

theorem pow_le_roundUnits (pos : 0 < denominator) (above : denominator * 2 ^ exponent ≤ numerator) :
    2 ^ exponent ≤ roundUnits numerator denominator := by
  have whole : 2 ^ exponent ≤ numerator / denominator := by
    rw [Nat.le_div_iff_mul_le pos, Nat.mul_comm]
    exact above
  have nonzero : numerator / denominator ≠ 0 := by
    have power : 0 < 2 ^ exponent := by positivity
    omega
  have leading : 2 ^ lastPlace (numerator / denominator) ≤ numerator / denominator := by
    refine le_trans (Nat.pow_le_pow_right (by decide) ?_)
      (Nat.log2_self_le nonzero)
    unfold lastPlace
    omega
  unfold roundUnits
  generalize lastPlace (numerator / denominator) = place at leading
  have scaled : 0 < denominator * 2 ^ place := Nat.mul_pos pos (by positivity)
  by_cases placed : place ≤ exponent
  · have split : 2 ^ exponent = 2 ^ (exponent - place) * 2 ^ place := by
      rw [← Nat.pow_add, Nat.sub_add_cancel placed]
    rw [split]
    apply Nat.mul_le_mul_right
    apply le_roundEven scaled
    rw [Nat.mul_assoc, Nat.mul_comm (2 ^ place), ← split]
    exact above
  · have reached : 1 ≤ roundEven numerator (denominator * 2 ^ place) := by
      apply le_roundEven scaled
      rw [Nat.mul_one, Nat.mul_comm, ← Nat.le_div_iff_mul_le pos]
      exact leading
    have larger : 2 ^ exponent ≤ 2 ^ place := Nat.pow_le_pow_right (by decide) (by omega)
    exact larger.trans (Nat.le_mul_of_pos_left _ reached)

theorem lastPlace_eq {whole place} (lower : 2 ^ (place + 23) ≤ whole)
    (upper : whole < 2 ^ (place + 24)) : lastPlace whole = place := by
  have nonzero : whole ≠ 0 := by
    have power : 0 < 2 ^ (place + 23) := by positivity
    omega
  have leading : whole.log2 = place + 23 := (Nat.log2_eq_iff nonzero).mpr ⟨lower, upper⟩
  unfold lastPlace
  omega

/-- A sum that exceeds a power of two by a quarter of its last place at most
rounds back to it. -/
theorem roundUnits_le_of_saturated (below : numerator ≤ 2 ^ (exponent + 25) + 2 ^ exponent) :
    roundUnits numerator 1 ≤ 2 ^ (exponent + 25) := by
  by_cases small : numerator ≤ 2 ^ (exponent + 25)
  · exact roundUnits_le_pow Nat.one_pos (by rwa [Nat.one_mul])
  have place : lastPlace (numerator / 1) = exponent + 2 := by
    rw [Nat.div_one]
    apply lastPlace_eq
    · exact Nat.le_of_lt (Nat.lt_of_not_le small)
    · have double : 2 ^ (exponent + 2 + 24) = 2 * 2 ^ (exponent + 25) := by ring
      have larger : 2 ^ exponent < 2 ^ (exponent + 25) :=
        Nat.pow_lt_pow_right (by decide) (by omega)
      omega
  have step : 2 ^ (exponent + 2) = 4 * 2 ^ exponent := by ring
  have steps : 2 ^ (exponent + 25) = 2 ^ 23 * 2 ^ (exponent + 2) := by ring
  unfold roundUnits
  dsimp only
  rw [place, Nat.one_mul, steps]
  apply Nat.mul_le_mul_right
  apply Nat.le_of_lt_succ
  apply roundEven_lt (by positivity)
  omega

theorem roundUnits_lt_pow_iff (pos : 0 < denominator) :
    roundUnits numerator denominator < 2 ^ (exponent + 25) ↔
      numerator < denominator * ((2 ^ 25 - 1) * 2 ^ exponent) := by
  have half : 0 < denominator * 2 ^ exponent := Nat.mul_pos pos (by positivity)
  have binade : denominator * 2 ^ (exponent + 24) = 2 ^ 24 * (denominator * 2 ^ exponent) := by ring
  have limit : denominator * 2 ^ (exponent + 25) = 2 ^ 25 * (denominator * 2 ^ exponent) := by ring
  have threshold : denominator * ((2 ^ 25 - 1) * 2 ^ exponent) =
      (2 ^ 25 - 1) * (denominator * 2 ^ exponent) := by ring
  have scale : denominator * 2 ^ (exponent + 1) = 2 * (denominator * 2 ^ exponent) := by ring
  rw [threshold]
  by_cases small : numerator ≤ denominator * 2 ^ (exponent + 24)
  · have within := roundUnits_le_pow pos small
    have below : 2 ^ (exponent + 24) < 2 ^ (exponent + 25) :=
      Nat.pow_lt_pow_right (by decide) (by omega)
    exact iff_of_true (within.trans_lt below) (by omega)
  by_cases large : denominator * 2 ^ (exponent + 25) ≤ numerator
  · have beyond := pow_le_roundUnits pos large
    exact iff_of_false (Nat.not_lt.mpr beyond) (by omega)
  have place : lastPlace (numerator / denominator) = exponent + 1 := by
    apply lastPlace_eq
    · rw [Nat.le_div_iff_mul_le pos, Nat.mul_comm]
      exact Nat.le_of_lt (Nat.lt_of_not_le small)
    · rw [Nat.div_lt_iff_lt_mul pos, Nat.mul_comm]
      exact Nat.lt_of_not_le large
  have steps : 2 ^ (exponent + 25) = 2 ^ 24 * 2 ^ (exponent + 1) := by
    ring
  have positiveStep : 0 < 2 ^ (exponent + 1) := by positivity
  unfold roundUnits
  rw [place, steps, Nat.mul_lt_mul_right positiveStep, scale]
  generalize denominator * 2 ^ exponent = quarter at half ⊢
  constructor
  · intro below
    by_contra above
    have reached := @le_roundEven_of_half numerator (2 * quarter)
      (2 ^ 24) (by omega) (by norm_num) (by omega)
    omega
  · intro below
    exact roundEven_lt (by omega) (by omega)

end Units

/-! ## Values -/

inductive Binary32 where
  | nan
  | infinite (negative : Bool)
  | finite (negative : Bool) (units : Nat)
  deriving DecidableEq

namespace Binary32

def isFinite : Binary32 → Bool
  | finite _ _ => true
  | _ => false

/-- The value nearest to a quotient of units; infinite beyond the largest
finite one. -/
def round (negative : Bool) (numerator denominator : Nat) : Binary32 :=
  let units := roundUnits numerator denominator
  if units < 2 ^ overflowExponent then finite negative units
  else infinite negative

def unitsPerOne : Nat := 2 ^ 149

/-- The value of a literal or of an integer converted to single precision. -/
def ofRatio (numerator denominator : Nat) : Binary32 :=
  round false (numerator * unitsPerOne) denominator

def ofNat (value : Nat) : Binary32 :=
  ofRatio value 1

def zero : Binary32 := finite false 0

def negativeZero : Binary32 := finite true 0

/-- The sum of finite values; an exact zero is positive unless both are
negative. -/
def addUnits (left right : Bool × Nat) : Binary32 :=
  if left.1 = right.1 then
    round left.1 (left.2 + right.2) 1
  else if left.2 = right.2 then
    zero
  else if right.2 < left.2 then
    round left.1 (left.2 - right.2) 1
  else
    round right.1 (right.2 - left.2) 1

def add : Binary32 → Binary32 → Binary32
  | nan, _ => nan
  | _, nan => nan
  | infinite left, infinite right => if left = right then infinite left else nan
  | infinite left, finite _ _ => infinite left
  | finite _ _, infinite right => infinite right
  | finite left units, finite right otherUnits => addUnits (left, units) (right, otherUnits)

def mul : Binary32 → Binary32 → Binary32
  | nan, _ => nan
  | _, nan => nan
  | infinite left, infinite right => infinite (left != right)
  | infinite left, finite right units => if units = 0 then nan else infinite (left != right)
  | finite left units, infinite right => if units = 0 then nan else infinite (left != right)
  | finite left units, finite right otherUnits =>
    round (left != right) (units * otherUnits) unitsPerOne

def div : Binary32 → Binary32 → Binary32
  | nan, _ => nan
  | _, nan => nan
  | infinite _, infinite _ => nan
  | infinite left, finite right _ => infinite (left != right)
  | finite left _, infinite right => finite (left != right) 0
  | finite left units, finite right otherUnits =>
    if otherUnits = 0 then
      if units = 0 then nan else infinite (left != right)
    else
      round (left != right) (units * unitsPerOne) otherUnits

def signedUnits (negative : Bool) (units : Nat) : Int :=
  if negative then -units else units

def partialCmp : Binary32 → Binary32 → Option Ordering
  | nan, _ => none
  | _, nan => none
  | infinite left, infinite right => some (compare right left)
  | infinite left, finite _ _ => some (if left then .lt else .gt)
  | finite _ _, infinite right => some (if right then .gt else .lt)
  | finite left units, finite right otherUnits =>
    some (compare (signedUnits left units) (signedUnits right otherUnits))

def less (left right : Binary32) : Bool :=
  left.partialCmp right == some .lt

/-- The least whole number from the value on, saturated to 64 bits. -/
def ceilToUsize : Binary32 → Nat
  | nan => 0
  | infinite negative => if negative then 0 else 2 ^ 64 - 1
  | finite negative units =>
    if negative then 0
    else min ((units + (unitsPerOne - 1)) / unitsPerOne) (2 ^ 64 - 1)

/-- The units of `2 ^ -1074`, the smallest positive double, in the magnitude
of a finite double. -/
def doubleUnits (bits : UInt64) : Nat :=
  let exponent := bits.toNat / 2 ^ 52 % 2 ^ 11
  let fraction := bits.toNat % 2 ^ 52
  if exponent = 0 then fraction
  else (2 ^ 52 + fraction) * 2 ^ (exponent - 1)

/-- The double with these bits in single precision. -/
def ofDouble (bits : UInt64) : Binary32 :=
  let negative := bits.toNat / 2 ^ 63 == 1
  if bits.toNat / 2 ^ 52 % 2 ^ 11 = 2047 then
    if bits.toNat % 2 ^ 52 = 0 then infinite negative else nan
  else
    round negative (doubleUnits bits) (2 ^ 925)

section Bounds

variable {value other : Binary32} {bound : Nat}

theorem isFinite_round_iff {negative numerator denominator} (pos : 0 < denominator) :
    (round negative numerator denominator).isFinite = true ↔
      numerator < denominator * ((2 ^ 25 - 1) * 2 ^ 252) := by
  rw [← roundUnits_lt_pow_iff pos]
  unfold round overflowExponent
  dsimp only
  split
  case isTrue fits => exact iff_of_true rfl fits
  case isFalse overflow => exact iff_of_false Bool.false_ne_true overflow

theorem isFinite_ofDouble_iff {bits} (finite : bits.toNat / 2 ^ 52 % 2 ^ 11 ≠ 2047) :
    (ofDouble bits).isFinite = true ↔ doubleUnits bits < 2 ^ 925 * ((2 ^ 25 - 1) * 2 ^ 252) := by
  unfold ofDouble
  rw [if_neg finite]
  exact isFinite_round_iff (by positivity)

/-- A value from zero to a whole number of units. -/
def AtMost (bound : Nat) (value : Binary32) : Prop :=
  ∃ units, value = finite false units ∧ units ≤ bound

theorem AtMost.isFinite (limited : AtMost bound value) : value.isFinite = true := by
  obtain ⟨units, rfl, -⟩ := limited
  rfl

theorem AtMost.not_less_zero (limited : AtMost bound value) : value.less zero = false := by
  obtain ⟨units, rfl, -⟩ := limited
  have compared : compare (signedUnits false units) (signedUnits false 0) ≠ .lt := by
    rw [Ne, compare_lt_iff_lt]
    simp [signedUnits]
  simp [less, partialCmp, zero, compared]

variable {exponent : Nat}

theorem atMost_round {numerator denominator} (pos : 0 < denominator)
    (small : exponent < overflowExponent) (below : numerator ≤ denominator * 2 ^ exponent) :
    AtMost (2 ^ exponent) (round false numerator denominator) := by
  have units := roundUnits_le_pow pos below
  have fits : roundUnits numerator denominator < 2 ^ overflowExponent :=
    units.trans_lt (Nat.pow_lt_pow_right (by decide) small)
  refine ⟨roundUnits numerator denominator, ?_, units⟩
  unfold round
  rw [if_pos fits]

theorem atMost_zero (bound : Nat) : AtMost bound zero :=
  ⟨0, rfl, Nat.zero_le _⟩

theorem AtMost.mono {larger} (limited : AtMost bound value) (below : bound ≤ larger) :
    AtMost larger value := by
  obtain ⟨units, same, within⟩ := limited
  exact ⟨units, same, within.trans below⟩

theorem atMost_ofNat {number} (small : exponent + 149 < overflowExponent)
    (below : number ≤ 2 ^ exponent) :
    AtMost (2 ^ (exponent + 149)) (ofNat number) := by
  have units : number * unitsPerOne ≤ 1 * 2 ^ (exponent + 149) := by
    rw [Nat.one_mul, Nat.pow_add, unitsPerOne]
    exact Nat.mul_le_mul_right _ below
  unfold ofNat ofRatio
  exact atMost_round Nat.one_pos small units

theorem AtMost.negativeZero_add (limited : AtMost (2 ^ exponent) value)
    (small : exponent < overflowExponent) :
    AtMost (2 ^ exponent) (negativeZero.add value) := by
  obtain ⟨units, rfl, below⟩ := limited
  show AtMost (2 ^ exponent) (addUnits (true, 0) (false, units))
  unfold addUnits
  dsimp only
  rw [if_neg (by decide)]
  by_cases none : units = 0
  · rw [if_pos none.symm]
    exact atMost_zero _
  · rw [if_neg (Ne.symm none), if_neg (Nat.not_lt_zero units)]
    apply atMost_round Nat.one_pos small
    rw [Nat.one_mul]
    exact below

theorem AtMost.div_ofNat {divisor scale} (limited : AtMost (2 ^ (exponent + scale)) value)
    (small : exponent < overflowExponent) (divides : 2 ^ scale ≤ divisor) :
    AtMost (2 ^ exponent) (value.div (ofNat divisor)) := by
  obtain ⟨units, rfl, below⟩ := limited
  have divisorUnits : 2 ^ (149 + scale) ≤ roundUnits (divisor * unitsPerOne) 1 := by
    apply pow_le_roundUnits Nat.one_pos
    rw [Nat.one_mul, Nat.pow_add, Nat.mul_comm, unitsPerOne]
    exact Nat.mul_le_mul_right _ divides
  unfold ofNat ofRatio round
  dsimp only
  generalize roundUnits (divisor * unitsPerOne) 1 = rounded at divisorUnits
  have pos : 0 < rounded := lt_of_lt_of_le (by positivity) divisorUnits
  split
  case isTrue fits =>
    unfold div
    dsimp only
    rw [if_neg (Nat.ne_of_gt pos)]
    apply atMost_round pos small
    calc units * unitsPerOne
        ≤ 2 ^ (exponent + scale) * 2 ^ 149 :=
          Nat.mul_le_mul_right _ below
      _ = 2 ^ (149 + scale) * 2 ^ exponent := by
          rw [← Nat.pow_add, ← Nat.pow_add]
          congr 1
          omega
      _ ≤ rounded * 2 ^ exponent := Nat.mul_le_mul_right _ divisorUnits
  case isFalse overflow =>
    exact ⟨0, rfl, Nat.zero_le _⟩

theorem AtMost.add (accumulated : AtMost (2 ^ (exponent + 25)) value)
    (limited : AtMost (2 ^ exponent) other) (small : exponent + 25 < overflowExponent) :
    AtMost (2 ^ (exponent + 25)) (value.add other) := by
  obtain ⟨units, rfl, below⟩ := accumulated
  obtain ⟨otherUnits, rfl, otherBelow⟩ := limited
  have rounded : roundUnits (units + otherUnits) 1 ≤ 2 ^ (exponent + 25) :=
    roundUnits_le_of_saturated (Nat.add_le_add below otherBelow)
  have fits : roundUnits (units + otherUnits) 1 < 2 ^ overflowExponent :=
    rounded.trans_lt (Nat.pow_lt_pow_right (by decide) small)
  refine ⟨_, ?_, rounded⟩
  show addUnits (false, units) (false, otherUnits) = _
  unfold addUnits round
  rw [if_pos rfl, if_pos fits]

end Bounds

end Binary32

/-! ## Double precision -/

/-- The double nearest to a rational that is not negative, ties to even; what is
not below `2 ^ 1024` is no double. -/
def float64 (value : ℚ) : ℚ :=
  let place : ℚ := 2 ^ max (Int.log 2 value - 52) (-1074)
  roundEven (value / place).num.toNat (value / place).den * place

section Double

variable {value : ℚ}

theorem sub_half_le_roundEven (nonneg : 0 ≤ value) :
    value - 1 / 2 ≤ roundEven value.num.toNat value.den := by
  have pos : (0 : ℚ) < value.den := by exact_mod_cast value.den_pos
  have half : 2 * value.num.toNat ≤ value.den * (2 * roundEven value.num.toNat value.den + 1) := by
    have division := Nat.div_add_mod value.num.toNat value.den
    unfold roundEven
    dsimp only
    generalize value.num.toNat / value.den = quotient at division
    rw [Nat.mul_add, Nat.mul_left_comm]
    split
    · omega
    have remainder := Nat.mod_lt value.num.toNat value.den_pos
    split
    · rw [Nat.mul_add]
      omega
    · have more := Nat.mul_le_mul_left value.den (Nat.le_add_right quotient (quotient % 2))
      omega
  have whole : ((value.num.toNat : ℕ) : ℚ) = value * value.den := by
    rw [Rat.mul_den_eq_num, ← Int.cast_natCast, Int.toNat_of_nonneg (Rat.num_nonneg.mpr nonneg)]
  have cast : (2 * value.num.toNat : ℚ) ≤
      value.den * (2 * roundEven value.num.toNat value.den + 1) := by exact_mod_cast half
  have scaled : value.den * (2 * value) ≤
      value.den * (2 * roundEven value.num.toNat value.den + 1 : ℚ) := by linarith
  linarith [le_of_mul_le_mul_left scaled pos]

/-- Rounding to a double loses at most half of a last place. -/
theorem le_float64 (normal : 1 ≤ value) : value * (1 - 1 / 2 ^ 53) ≤ float64 value := by
  have pos : 0 < value := by linarith
  have leading : (2 : ℚ) ^ Int.log 2 value ≤ value := Int.zpow_log_le_self one_lt_two pos
  have exponent : 0 ≤ Int.log 2 value :=
    (Int.zpow_le_iff_le_log one_lt_two pos).mp (by simpa using normal)
  unfold float64
  rw [max_eq_left (by omega)]
  have place : (0 : ℚ) < 2 ^ (Int.log 2 value - 52) := zpow_pos two_pos _
  have rounded := mul_le_mul_of_nonneg_right
    (sub_half_le_roundEven (div_nonneg pos.le place.le)) place.le
  rw [sub_mul, div_mul_cancel₀ _ place.ne'] at rounded
  have last : (2 : ℚ) ^ (Int.log 2 value - 52) = 2 ^ Int.log 2 value / 2 ^ 52 := by
    rw [zpow_sub₀ two_ne_zero]
    norm_num
  linarith

theorem float64_pos (large : 1 / 2 ^ 1074 ≤ value) : 0 < float64 value := by
  have pos : 0 < value := lt_of_lt_of_le (by positivity) large
  have place : (0 : ℚ) < 2 ^ max (Int.log 2 value - 52) (-1074) := zpow_pos two_pos _
  have leading : (2 : ℚ) ^ Int.log 2 value ≤ value := Int.zpow_log_le_self one_lt_two pos
  have below : (2 : ℚ) ^ max (Int.log 2 value - 52) (-1074) ≤ value := by
    rcases max_choice (Int.log 2 value - 52) (-1074) with same | same
    · rw [same]
      have less : Int.log 2 value - 52 ≤ Int.log 2 value := by omega
      exact (zpow_le_zpow_right₀ one_le_two less).trans leading
    · rw [same]
      exact le_of_eq_of_le (by norm_num [zpow_neg]) large
  have scaled : 1 ≤ value / 2 ^ max (Int.log 2 value - 52) (-1074) := (one_le_div place).mpr below
  have half :=
    sub_half_le_roundEven (by linarith : 0 ≤ value / 2 ^ max (Int.log 2 value - 52) (-1074))
  refine mul_pos ?_ place
  linarith

end Double

end GraphZero.Foundation
