import GraphZero.Features.Bfloat
import Mathlib.Tactic.Linarith
import Mathlib.Tactic.Positivity

/-!
# Comparison of floats

A float that is a number compares as a signed magnitude: the bits below the
sign grow with the absolute value.  The two zeros are equal, and a NaN is
unequal to every float and neither below nor above one.  Widening to double
precision is exact, so it keeps the order.
-/

namespace GraphZero.Features

/-- A word read as a sign and a magnitude below `half`. -/
def signedMagnitude (half word : Nat) : Int :=
  if half ≤ word then -(word % half : Nat) else (word % half : Nat)

namespace F32

/-- Where a float that is a number stands among them. -/
def place (value : F32) : Int :=
  signedMagnitude (2 ^ 31) value.bits.toNat

def equals (left right : F32) : Bool :=
  !left.isNan && !right.isNan && left.place == right.place

def less (left right : F32) : Bool :=
  !left.isNan && !right.isNan && decide (left.place < right.place)

def lessEq (left right : F32) : Bool :=
  !left.isNan && !right.isNan && decide (left.place ≤ right.place)

def neg (value : F32) : F32 :=
  ⟨value.bits ^^^ 0x80000000⟩

def one : F32 := ⟨0x3f800000⟩

def negativeZero : F32 := ⟨0x80000000⟩

/-- `(-1.0..=1.0).contains(&value)` -/
def inUnitRange (value : F32) : Bool :=
  one.neg.lessEq value && value.lessEq one

/-- Where a float stands among all of them: a NaN lies beyond the infinity of
its sign, and the negative zero below the other one. -/
def totalPlace (value : F32) : Int :=
  if 2 ^ 31 ≤ value.bits.toNat then
    -(value.bits.toNat % 2 ^ 31 : Nat) - 1
  else value.bits.toNat

def totalCmp (left right : F32) : Ordering :=
  compare left.totalPlace right.totalPlace

variable {value : F32}

theorem place_eq_zero_iff : value.place = 0 ↔ value.bits.toNat % 2 ^ 31 = 0 := by
  unfold place signedMagnitude
  split <;> omega

theorem isNan_eq_false_of_isFinite (finite : value.isFinite = true) : value.isNan = false := by
  rw [isFinite_iff] at finite
  unfold isNan
  rw [decide_eq_false_iff_not]
  omega

theorem toNat_bits_neg (value : F32) : value.neg.bits.toNat =
      if value.bits.toNat < 2 ^ 31 then value.bits.toNat + 2 ^ 31
      else value.bits.toNat - 2 ^ 31 := by
  have word : value.bits.toNat < 2 ^ 32 := value.bits.toNat_lt
  have flipped : value.neg.bits.toNat = value.bits.toNat ^^^ 2 ^ 31 := UInt32.toNat_xor _ _
  rw [flipped]
  generalize value.bits.toNat = bits at word
  have low : (bits ^^^ 2 ^ 31) % 2 ^ 31 = bits % 2 ^ 31 := by
    rw [Nat.xor_mod_two_pow, Nat.mod_self, Nat.xor_zero]
  have high : (bits ^^^ 2 ^ 31) / 2 ^ 31 = bits / 2 ^ 31 ^^^ 1 := by
    rw [Nat.xor_div_two_pow, Nat.div_self (by decide)]
  have sign : bits / 2 ^ 31 = 0 ∨ bits / 2 ^ 31 = 1 := by omega
  rcases sign with pos | negative
  · rw [pos, Nat.zero_xor] at high
    split <;> omega
  · rw [negative, Nat.xor_self] at high
    split <;> omega

theorem place_neg (value : F32) : value.neg.place = -value.place := by
  have word : value.bits.toNat < 2 ^ 32 := value.bits.toNat_lt
  unfold place signedMagnitude
  rw [toNat_bits_neg]
  by_cases pos : value.bits.toNat < 2 ^ 31
  · rw [if_pos pos, if_pos (by omega), if_neg (by omega)]
    omega
  · rw [if_neg pos, if_neg (by omega), if_pos (by omega)]
    omega

theorem neg_eq_zero_iff : value.neg = zero ↔ value = negativeZero := by
  have flipped := toNat_bits_neg value
  constructor
  · intro same
    rw [same] at flipped
    change 0 = _ at flipped
    have bits : value.bits = 0x80000000 := UInt32.toNat_inj.mp (by
      change _ = 2 ^ 31
      split at flipped <;> omega)
    exact congrArg mk bits
  · rintro rfl
    rfl

theorem isFinite_neg (value : F32) : value.neg.isFinite = value.isFinite := by
  rw [Bool.eq_iff_iff, isFinite_iff, isFinite_iff, toNat_bits_neg]
  split <;> omega

theorem totalPlace_injective : Function.Injective totalPlace := by
  intro left right same
  have leftWord : left.bits.toNat < 2 ^ 32 := left.bits.toNat_lt
  have rightWord : right.bits.toNat < 2 ^ 32 := right.bits.toNat_lt
  have bits : left.bits.toNat = right.bits.toNat := by
    unfold totalPlace at same
    split at same <;> split at same <;> omega
  exact congrArg mk (UInt32.toNat_inj.mp bits)

theorem lessEq_of_totalPlace_le {left right : F32}
    (leftFinite : left.isFinite = true) (rightFinite : right.isFinite = true)
    (below : left.totalPlace ≤ right.totalPlace) :
    left.lessEq right = true := by
  have ordered : left.place ≤ right.place := by
    unfold totalPlace at below
    unfold place signedMagnitude
    split at below <;> split at below <;> omega
  unfold lessEq
  rw [isNan_eq_false_of_isFinite leftFinite,
    isNan_eq_false_of_isFinite rightFinite, decide_eq_true ordered]
  rfl

end F32

/-! ## Double precision -/

/-- A double precision float by its bits. -/
structure F64 where
  bits : UInt64

namespace F64

def isNan (value : F64) : Bool :=
  decide (0x7ff0000000000000 < value.bits.toNat % 2 ^ 63)

def place (value : F64) : Int :=
  signedMagnitude (2 ^ 63) value.bits.toNat

def less (left right : F64) : Bool :=
  !left.isNan && !right.isNan && decide (left.place < right.place)

/-- The bits below the sign when a single precision magnitude is widened.  A
subnormal one is normalized, and a NaN becomes a quiet one. -/
def widenedMagnitude (magnitude : Nat) : Nat :=
  if magnitude = 0 then 0
  else if magnitude < 2 ^ 23 then
    (magnitude.log2 + 873) * 2 ^ 52 + magnitude * 2 ^ (52 - magnitude.log2)
  else if magnitude < 0x7f800000 then
    896 * 2 ^ 52 + magnitude * 2 ^ 29
  else if magnitude = 0x7f800000 then
    0x7ff0000000000000
  else
    0x7ff8000000000000 + magnitude % 2 ^ 22 * 2 ^ 29

/-- `f64::from` -/
def ofF32 (value : F32) : F64 :=
  ⟨UInt64.ofNat (value.bits.toNat / 2 ^ 31 * 2 ^ 63 + widenedMagnitude (value.bits.toNat % 2 ^ 31))⟩

section Widening

variable {magnitude larger : Nat}

theorem widenedMagnitude_bounds (pos : magnitude ≠ 0) (subnormal : magnitude < 2 ^ 23) :
    (magnitude.log2 + 874) * 2 ^ 52 ≤ widenedMagnitude magnitude ∧
      widenedMagnitude magnitude < (magnitude.log2 + 875) * 2 ^ 52 := by
  have leading : magnitude.log2 < 23 := (Nat.log2_lt pos).mpr subnormal
  have lower : 2 ^ magnitude.log2 ≤ magnitude := Nat.log2_self_le pos
  have upper : magnitude < 2 ^ (magnitude.log2 + 1) := Nat.lt_log2_self
  have scaleLower : 2 ^ 52 ≤ magnitude * 2 ^ (52 - magnitude.log2) := by
    calc 2 ^ 52 = 2 ^ magnitude.log2 * 2 ^ (52 - magnitude.log2) := by
          rw [← Nat.pow_add]
          congr 1
          omega
      _ ≤ _ := Nat.mul_le_mul_right _ lower
  have scaleUpper : magnitude * 2 ^ (52 - magnitude.log2) < 2 ^ 53 := by
    calc magnitude * 2 ^ (52 - magnitude.log2) <
          2 ^ (magnitude.log2 + 1) * 2 ^ (52 - magnitude.log2) :=
          Nat.mul_lt_mul_of_pos_right upper (by positivity)
      _ = 2 ^ 53 := by
          rw [← Nat.pow_add]
          congr 1
          omega
  unfold widenedMagnitude
  rw [if_neg pos, if_pos subnormal]
  constructor <;> linarith

theorem widenedMagnitude_normal (normal : 2 ^ 23 ≤ magnitude) (finite : magnitude < 0x7f800000) :
    widenedMagnitude magnitude = 896 * 2 ^ 52 + magnitude * 2 ^ 29 := by
  unfold widenedMagnitude
  rw [if_neg (by omega), if_neg (by omega), if_pos finite]

theorem widenedMagnitude_lt (below : magnitude < larger) (finite : larger < 0x7f800000) :
    widenedMagnitude magnitude < widenedMagnitude larger := by
  by_cases normal : 2 ^ 23 ≤ larger
  · rw [widenedMagnitude_normal normal finite]
    by_cases zero : magnitude = 0
    · rw [zero]
      change 0 < _
      omega
    · by_cases alsoNormal : 2 ^ 23 ≤ magnitude
      · rw [widenedMagnitude_normal alsoNormal (by omega)]
        omega
      · have subnormal : magnitude < 2 ^ 23 := by omega
        have leading : magnitude.log2 < 23 := (Nat.log2_lt zero).mpr subnormal
        have bounds := widenedMagnitude_bounds zero subnormal
        omega
  · have subnormal : larger < 2 ^ 23 := by omega
    have pos : larger ≠ 0 := by omega
    have bounds := widenedMagnitude_bounds pos subnormal
    by_cases zero : magnitude = 0
    · rw [zero]
      change 0 < _
      omega
    have smaller := widenedMagnitude_bounds zero (by omega)
    have leading : magnitude.log2 ≤ larger.log2 :=
      (Nat.le_log2 pos).mpr ((Nat.log2_self_le zero).trans below.le)
    rcases Nat.lt_or_eq_of_le leading with strict | same
    · omega
    unfold widenedMagnitude
    rw [if_neg zero, if_pos (by omega), if_neg pos,
      if_pos subnormal, same]
    have scaled : magnitude * 2 ^ (52 - larger.log2) < larger * 2 ^ (52 - larger.log2) :=
      Nat.mul_lt_mul_of_pos_right below (by positivity)
    omega

theorem widenedMagnitude_finite (finite : magnitude < 0x7f800000) :
    widenedMagnitude magnitude < 0x7ff0000000000000 := by
  have most : widenedMagnitude magnitude ≤ widenedMagnitude 0x7f7fffff := by
    rcases Nat.lt_or_eq_of_le (Nat.le_of_lt_succ finite) with below | same
    · exact (widenedMagnitude_lt below (by decide)).le
    · rw [same]
  exact most.trans_lt (by decide)

theorem widenedMagnitude_eq_zero_iff (finite : magnitude < 0x7f800000) :
    widenedMagnitude magnitude = 0 ↔ magnitude = 0 := by
  constructor
  · intro nothing
    by_contra pos
    have more := widenedMagnitude_lt (Nat.pos_of_ne_zero pos) finite
    omega
  · intro zero
    rw [zero]
    rfl

theorem widenedMagnitude_lt_iff (finite : magnitude < 0x7f800000)
    (largerFinite : larger < 0x7f800000) :
    widenedMagnitude magnitude < widenedMagnitude larger ↔ magnitude < larger := by
  constructor
  · intro below
    by_contra above
    rcases Nat.lt_or_eq_of_le (Nat.le_of_not_lt above) with strict | same
    · exact absurd (widenedMagnitude_lt strict finite) below.asymm
    · rw [same] at below
      exact lt_irrefl _ below
  · intro below
    exact widenedMagnitude_lt below largerFinite

end Widening

section Finite

variable {left right value : F32}

theorem toNat_bits_ofF32 (finite : value.isFinite = true) :
    (ofF32 value).bits.toNat = value.bits.toNat / 2 ^ 31 * 2 ^ 63 +
      widenedMagnitude (value.bits.toNat % 2 ^ 31) := by
  rw [F32.isFinite_iff] at finite
  have word : value.bits.toNat < 2 ^ 32 := value.bits.toNat_lt
  have small := widenedMagnitude_finite finite
  exact UInt64.toNat_ofNat_of_lt' (by
    change _ < 2 ^ 64
    omega)

theorem bits_ofF32_eq_zero_iff (finite : value.isFinite = true) :
    (ofF32 value).bits = 0 ↔ value = F32.zero := by
  have wide := toNat_bits_ofF32 finite
  rw [F32.isFinite_iff] at finite
  have zero := widenedMagnitude_eq_zero_iff finite
  constructor
  · intro nothing
    rw [nothing] at wide
    change 0 = _ at wide
    have bits : value.bits = 0 := UInt32.toNat_inj.mp (by
      change _ = 0
      omega)
    exact congrArg F32.mk bits
  · intro same
    rw [same]
    rfl

theorem isNan_ofF32 (finite : value.isFinite = true) : (ofF32 value).isNan = false := by
  have wide := toNat_bits_ofF32 finite
  rw [F32.isFinite_iff] at finite
  have small := widenedMagnitude_finite finite
  unfold isNan
  rw [decide_eq_false_iff_not, wide]
  omega

theorem place_ofF32_lt_iff (leftFinite : left.isFinite = true)
    (rightFinite : right.isFinite = true) :
    (ofF32 left).place < (ofF32 right).place ↔ left.place < right.place := by
  unfold place F32.place signedMagnitude
  rw [toNat_bits_ofF32 leftFinite, toNat_bits_ofF32 rightFinite]
  rw [F32.isFinite_iff] at leftFinite rightFinite
  have leftSmall := widenedMagnitude_finite leftFinite
  have rightSmall := widenedMagnitude_finite rightFinite
  have rightZero := widenedMagnitude_eq_zero_iff rightFinite
  have below := widenedMagnitude_lt_iff leftFinite rightFinite
  have above := widenedMagnitude_lt_iff rightFinite leftFinite
  generalize widenedMagnitude (left.bits.toNat % 2 ^ 31) = leftWide at *
  generalize widenedMagnitude (right.bits.toNat % 2 ^ 31) = rightWide at *
  split <;> split <;> split <;> split <;> omega

end Finite

end F64

end GraphZero.Features
