import Mathlib.Data.Nat.Bits
import Mathlib.Data.Nat.Dist
import Mathlib.Tactic.NormNum
import Mathlib.Tactic.Ring

/-!
# Narrow wire scalars

Floats are given by their bits.  The wire carries the upper half of a single
precision float, rounded to nearest and to even at a tie; a float that is
close to the largest one is rounded to an infinite one.  A NaN is not rounded:
the bias that is added to its bits can carry into the sign.
-/

namespace GraphZero.Features

/-- A single precision float by its bits. -/
structure F32 where
  bits : UInt32
  deriving DecidableEq

namespace F32

/-- The exponent bits are not all set. -/
def isFinite (value : F32) : Bool :=
  (value.bits >>> 23) &&& 0xff != 0xff

def isNan (value : F32) : Bool :=
  decide (0x7f800000 < value.bits.toNat % 2 ^ 31)

/-- The float is zero, of either sign. -/
def isZero (value : F32) : Bool :=
  value.bits &&& 0x7fffffff == 0

/-- The float is greater than zero, or not a number. -/
def isPositive (value : F32) : Bool :=
  !value.isZero && (value.bits >>> 31 == 0 || !value.isFinite)

def zero : F32 := ⟨0⟩

end F32

def f32ToBf16Bits (value : F32) : UInt16 :=
  let rounding := (0x7fff : UInt32) + ((value.bits >>> 16) &&& 1)
  ((value.bits + rounding) >>> 16).toUInt16

def bf16BitsToF32 (bits : UInt16) : F32 :=
  ⟨bits.toUInt32 <<< 16⟩

section Words

theorem toNat_shiftRight_and {word shift mask : UInt32} {width} (small : shift.toNat < 32)
    (ones : mask.toNat = 2 ^ width - 1) :
    ((word >>> shift) &&& mask).toNat = word.toNat / 2 ^ shift.toNat % 2 ^ width := by
  rw [UInt32.toNat_and, UInt32.toNat_shiftRight, ones,
    Nat.and_two_pow_sub_one_eq_mod, Nat.mod_eq_of_lt small,
    Nat.shiftRight_eq_div_pow]

theorem toNat_and_mask {word mask : UInt32} {width} (ones : mask.toNat = 2 ^ width - 1) :
    (word &&& mask).toNat = word.toNat % 2 ^ width := by
  rw [UInt32.toNat_and, ones, Nat.and_two_pow_sub_one_eq_mod]

end Words

namespace F32

def rounded (value : F32) : F32 :=
  bf16BitsToF32 (f32ToBf16Bits value)

/-- Not so close to the largest float that it is rounded to infinity. -/
def RoundsFinite (value : F32) : Prop :=
  value.bits.toNat % 2 ^ 31 < 0x7f7f8000

instance (value : F32) : Decidable value.RoundsFinite :=
  inferInstanceAs (Decidable (_ < _))

theorem isFinite_iff (value : F32) :
    value.isFinite = true ↔ value.bits.toNat % 2 ^ 31 < 0x7f800000 := by
  have mask : ((value.bits >>> 23) &&& 0xff).toNat = value.bits.toNat / 2 ^ 23 % 2 ^ 8 :=
    toNat_shiftRight_and (by decide) rfl
  unfold isFinite
  rw [bne_iff_ne, ne_eq, ← UInt32.toNat_inj, mask]
  change ¬ _ = 255 ↔ _
  omega

theorem isZero_iff (value : F32) : value.isZero = true ↔ value.bits.toNat % 2 ^ 31 = 0 := by
  have mask : (value.bits &&& 0x7fffffff).toNat = value.bits.toNat % 2 ^ 31 := toNat_and_mask rfl
  unfold isZero
  rw [beq_iff_eq, ← UInt32.toNat_inj, mask]
  rfl

end F32

section Rounding

theorem toNat_f32ToBf16Bits (value : F32) : (f32ToBf16Bits value).toNat =
      (value.bits.toNat + (0x7fff + value.bits.toNat / 2 ^ 16 % 2)) % 2 ^ 32 / 2 ^ 16 := by
  have last : ((value.bits >>> 16) &&& 1).toNat = value.bits.toNat / 2 ^ 16 % 2 ^ 1 :=
    toNat_shiftRight_and (by decide) rfl
  unfold f32ToBf16Bits
  rw [UInt32.toNat_toUInt16, UInt32.toNat_shiftRight, UInt32.toNat_add,
    UInt32.toNat_add, last, Nat.shiftRight_eq_div_pow]
  change (_ + (0x7fff + _) % 2 ^ 32) % 2 ^ 32 / 2 ^ 16 % 2 ^ 16 = _
  omega

theorem toNat_bits_bf16BitsToF32 (bits : UInt16) :
    (bf16BitsToF32 bits).bits.toNat = bits.toNat * 2 ^ 16 := by
  have small : bits.toNat < 2 ^ 16 := bits.toNat_lt
  unfold bf16BitsToF32
  rw [UInt32.toNat_shiftLeft, UInt16.toNat_toUInt32, Nat.shiftLeft_eq]
  change bits.toNat * 2 ^ 16 % 2 ^ 32 = _
  omega

@[simp]
theorem f32ToBf16Bits_bf16BitsToF32 (bits : UInt16) :
    f32ToBf16Bits (bf16BitsToF32 bits) = bits := by
  have small : bits.toNat < 2 ^ 16 := bits.toNat_lt
  rw [← UInt16.toNat_inj, toNat_f32ToBf16Bits, toNat_bits_bf16BitsToF32,
    Nat.mul_div_cancel _ (by decide), Nat.mod_eq_of_lt (by omega)]
  omega

namespace F32

variable {value : F32}

theorem toNat_bits_rounded (value : F32) : value.rounded.bits.toNat =
      (value.bits.toNat + (0x7fff + value.bits.toNat / 2 ^ 16 % 2)) % 2 ^ 32 / 2 ^ 16 * 2 ^ 16 := by
  unfold rounded
  rw [toNat_bits_bf16BitsToF32, toNat_f32ToBf16Bits]

theorem bf16BitsToF32_f32ToBf16Bits (value : F32) :
    bf16BitsToF32 (f32ToBf16Bits value) = value.rounded :=
  rfl

@[simp]
theorem f32ToBf16Bits_rounded (value : F32) : f32ToBf16Bits value.rounded = f32ToBf16Bits value :=
  f32ToBf16Bits_bf16BitsToF32 _

@[simp]
theorem rounded_rounded (value : F32) : value.rounded.rounded = value.rounded :=
  congrArg bf16BitsToF32 (f32ToBf16Bits_rounded value)

theorem isFinite_rounded_iff (finite : value.isFinite = true) :
    value.rounded.isFinite = true ↔ value.RoundsFinite := by
  have word : value.bits.toNat < 2 ^ 32 := value.bits.toNat_lt
  rw [isFinite_iff] at finite ⊢
  have fits : value.bits.toNat + (0x7fff + value.bits.toNat / 2 ^ 16 % 2) < 2 ^ 32 := by omega
  rw [toNat_bits_rounded, RoundsFinite, Nat.mod_eq_of_lt fits]
  generalize value.bits.toNat = bits at word finite ⊢
  obtain ⟨upper, lower, small, rfl⟩ :
      ∃ upper lower, lower < 2 ^ 16 ∧ bits = 2 ^ 16 * upper + lower :=
    ⟨_, _, Nat.mod_lt _ (by decide), (Nat.div_add_mod _ _).symm⟩
  have half : (2 ^ 16 * upper + lower) / 2 ^ 16 = upper := by omega
  rw [half]
  have carry : (2 ^ 16 * upper + lower + (0x7fff + upper % 2)) / 2 ^ 16 =
      upper + (lower + (0x7fff + upper % 2)) / 2 ^ 16 := by omega
  rcases Nat.mod_two_eq_zero_or_one upper with even | odd
  · omega
  · omega

theorem isZero_rounded (zero : value.isZero = true) : value.rounded.isZero = true := by
  have word : value.bits.toNat < 2 ^ 32 := value.bits.toNat_lt
  rw [isZero_iff] at zero ⊢
  have fits : value.bits.toNat + (0x7fff + value.bits.toNat / 2 ^ 16 % 2) < 2 ^ 32 := by omega
  rw [toNat_bits_rounded, Nat.mod_eq_of_lt fits]
  omega

end F32

end Rounding

/-! ## Rounding to nearest -/

namespace F32

/-- The absolute value of the float with these lower bits, in units of the
least positive float.  An infinite float stands where the next one would be. -/
def units (low : Nat) : Nat :=
  if low / 2 ^ 23 = 0 then low
  else (2 ^ 23 + low % 2 ^ 23) * 2 ^ (low / 2 ^ 23 - 1)

def magnitude (value : F32) : Nat :=
  units (value.bits.toNat % 2 ^ 31)

/-- What the last bit of the upper half is worth. -/
def lastPlace (upper : Nat) : Nat :=
  2 ^ (upper / 2 ^ 7 - 1)

section Nearest

variable {upper lower : Nat}

variable {value : F32}

section Distances

variable {base rest gap other : Nat}

end Distances

end Nearest

end F32

attribute [irreducible] F32.rounded F32.isFinite F32.isZero

end GraphZero.Features
