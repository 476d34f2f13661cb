import Mathlib.Data.List.Lex
import Mathlib.Tactic.Ring

/-!
# Big-endian keys

An ordered store compares keys byte by byte.  Big-endian encodings of a fixed
width compare as the numbers they encode, and a key put together from fields
of fixed widths compares field by field.
-/

namespace GraphZero.Foundation

/-- The `width` low-order bytes of `value`, most significant first. -/
def toBeBytes : (width : Nat) → Nat → List UInt8
  | 0, _ => []
  | width + 1, value => UInt8.ofNat (value / 256 ^ width % 256) :: toBeBytes width value

/-- The number whose big-endian bytes are given. -/
def ofBeBytes : List UInt8 → Nat
  | [] => 0
  | byte :: rest => byte.toNat * 256 ^ rest.length + ofBeBytes rest

@[simp]
theorem length_toBeBytes (width value : Nat) : (toBeBytes width value).length = width := by
  induction width with
  | zero => rfl
  | succ width ih => rw [toBeBytes, List.length_cons, ih]

theorem toBeBytes_mod (width value : Nat) :
    toBeBytes width (value % 256 ^ width) = toBeBytes width value := by
  have general : ∀ lower upper, lower ≤ upper →
      toBeBytes lower (value % 256 ^ upper) = toBeBytes lower value := by
    intro lower upper bound
    induction lower with
    | zero => rfl
    | succ lower ih =>
      have exponents : 256 ^ upper = 256 ^ lower * (256 * 256 ^ (upper - lower - 1)) := by
        rw [← pow_succ', ← pow_add]
        congr 1
        omega
      have digit : value % 256 ^ upper / 256 ^ lower % 256 = value / 256 ^ lower % 256 := by
        rw [exponents, Nat.mod_mul_right_div_self, Nat.mod_mul_right_mod]
      rw [toBeBytes, toBeBytes, digit, ih (by omega)]
  exact general width width (Nat.le_refl width)

theorem ofBeBytes_toBeBytes {width value} (fits : value < 256 ^ width) :
    ofBeBytes (toBeBytes width value) = value := by
  induction width generalizing value with
  | zero =>
    have zero : value = 0 := by simpa using fits
    rw [zero]
    rfl
  | succ width ih =>
    have digit : value / 256 ^ width < 256 := by
      apply Nat.div_lt_of_lt_mul
      rwa [pow_succ] at fits
    have highByte : (UInt8.ofNat (value / 256 ^ width % 256)).toNat = value / 256 ^ width := by
      rw [Nat.mod_eq_of_lt digit]
      exact UInt8.toNat_ofNat_of_lt' digit
    have rest : ofBeBytes (toBeBytes width value) = value % 256 ^ width := by
      rw [← toBeBytes_mod]
      exact ih (Nat.mod_lt _ (Nat.pow_pos (by decide)))
    rw [toBeBytes, ofBeBytes, length_toBeBytes, highByte, rest, Nat.mul_comm]
    exact Nat.div_add_mod value (256 ^ width)

theorem append_lt_append_iff {left right} {leftRest rightRest : List UInt8}
    (width : left.length = right.length) :
    left ++ leftRest < right ++ rightRest ↔ left < right ∨ left = right ∧ leftRest < rightRest := by
  induction left generalizing right with
  | nil =>
    have empty : right = [] := List.length_eq_zero_iff.mp width.symm
    subst empty
    simp
  | cons byte left ih =>
    cases right with
    | nil => cases width
    | cons other right =>
      have tails : left.length = right.length := by simpa using width
      rw [List.cons_append, List.cons_append, List.cons_lt_cons_iff,
        List.cons_lt_cons_iff, ih tails]
      constructor
      · rintro (below | ⟨same, below | ⟨equal, rest⟩⟩)
        · exact Or.inl (Or.inl below)
        · exact Or.inl (Or.inr ⟨same, below⟩)
        · exact Or.inr ⟨by rw [same, equal], rest⟩
      · rintro ((below | ⟨same, below⟩) | ⟨equal, rest⟩)
        · exact Or.inl below
        · exact Or.inr ⟨same, Or.inl below⟩
        · cases equal
          exact Or.inr ⟨rfl, Or.inr ⟨rfl, rest⟩⟩

theorem toBeBytes_lt_iff {width left right} (leftFits : left < 256 ^ width)
    (rightFits : right < 256 ^ width) :
    toBeBytes width left < toBeBytes width right ↔ left < right := by
  induction width generalizing left right with
  | zero =>
    have leftZero : left = 0 := by simpa using leftFits
    have rightZero : right = 0 := by simpa using rightFits
    subst leftZero rightZero
    simp [toBeBytes]
  | succ width ih =>
    have pos : 0 < 256 ^ width := Nat.pow_pos (by decide)
    have leftDigit : left / 256 ^ width < 256 := by
      apply Nat.div_lt_of_lt_mul
      rwa [pow_succ] at leftFits
    have rightDigit : right / 256 ^ width < 256 := by
      apply Nat.div_lt_of_lt_mul
      rwa [pow_succ] at rightFits
    have tails : toBeBytes width left < toBeBytes width right ↔
        left % 256 ^ width < right % 256 ^ width := by
      rw [← toBeBytes_mod width left, ← toBeBytes_mod width right]
      exact ih (Nat.mod_lt _ pos) (Nat.mod_lt _ pos)
    have bytesBelow : UInt8.ofNat (left / 256 ^ width % 256) <
        UInt8.ofNat (right / 256 ^ width % 256) ↔ left / 256 ^ width < right / 256 ^ width := by
      rw [UInt8.lt_iff_toNat_lt, Nat.mod_eq_of_lt leftDigit,
        Nat.mod_eq_of_lt rightDigit, UInt8.toNat_ofNat_of_lt' leftDigit,
        UInt8.toNat_ofNat_of_lt' rightDigit]
    have bytesEqual : UInt8.ofNat (left / 256 ^ width % 256) =
        UInt8.ofNat (right / 256 ^ width % 256) ↔ left / 256 ^ width = right / 256 ^ width := by
      rw [← UInt8.toNat_inj, Nat.mod_eq_of_lt leftDigit,
        Nat.mod_eq_of_lt rightDigit, UInt8.toNat_ofNat_of_lt' leftDigit,
        UInt8.toNat_ofNat_of_lt' rightDigit]
    rw [toBeBytes, toBeBytes, List.cons_lt_cons_iff, bytesBelow, bytesEqual, tails]
    have leftParts := Nat.div_add_mod left (256 ^ width)
    have rightParts := Nat.div_add_mod right (256 ^ width)
    constructor
    · rintro (below | ⟨same, below⟩)
      · by_contra notBelow
        have quotients : right / 256 ^ width ≤ left / 256 ^ width :=
          Nat.div_le_div_right (Nat.not_lt.mp notBelow)
        omega
      · rw [← leftParts, ← rightParts, same]
        omega
    · intro below
      have quotients : left / 256 ^ width ≤ right / 256 ^ width :=
        Nat.div_le_div_right (Nat.le_of_lt below)
      rcases Nat.lt_or_eq_of_le quotients with lower | same
      · exact Or.inl lower
      · refine Or.inr ⟨same, ?_⟩
        rw [same] at leftParts
        omega

end GraphZero.Foundation
