import Mathlib.Data.List.Basic
import Mathlib.Data.Nat.Digits.Defs

/-!
# The names in a checkpoint directory

A checkpoint directory tells its entries apart by name alone: generations are
`version_<digits>`, a generation being written is `version_<digits>.tmp`, one
being deleted is `.version_<digits>.prune`, and every other plain name may be a
pointer.  The tests are those of `publish.py`, with Python's `str.isdigit`,
`int`, `removePrefix` and `removeSuffix`.
-/

namespace GraphZero.Checkpoints

open List

abbrev FileName := List Char

/-- Python's Unicode digits.  `str.isdigit` accepts the characters of numeric
type Digit and Decimal, `int` reads only the Decimal ones. -/
structure DigitTable where
  isDigit : Char → Bool
  decimal : Char → Option Nat
  isDigit_ascii : ∀ c, c.toNat < 128 → isDigit c = c.isDigit
  decimal_digitChar : ∀ digit, digit < 10 → decimal digit.digitChar = some digit

namespace DigitTable

variable (digits : DigitTable)

/-- `str.isdigit`. -/
def isdigit (text : List Char) : Bool :=
  !text.isEmpty && text.all digits.isDigit

/-- `int(text)` on a text of digits; `none` is its `ValueError`. -/
def int (text : List Char) : Option Nat :=
  text.foldlM (fun value c => (digits.decimal c).map (10 * value + ·)) 0

theorem isDigit_digitChar {digit} (small : digit < 10) : digits.isDigit digit.digitChar = true := by
  have plain : ∀ digit < 10,
      digit.digitChar.toNat < 128 ∧ digit.digitChar.isDigit = true := by decide
  rw [digits.isDigit_ascii _ (plain digit small).1]
  exact (plain digit small).2

@[simp]
theorem isdigit_toDigits (number : Nat) : digits.isdigit (Nat.toDigits 10 number) = true := by
  have decimals : ∀ c ∈ Nat.toDigits 10 number, digits.isDigit c = true := by
    induction number using Nat.strongRecOn with
    | _ number ih =>
      by_cases small : number < 10
      · rw [Nat.toDigits_of_lt_base small]
        simp [digits.isDigit_digitChar small]
      have split := Nat.toDigits_append_toDigits (b := 10) (n := number / 10)
        (d := number % 10) (by omega) (by omega) (by omega)
      have whole : 10 * (number / 10) + number % 10 = number := by omega
      rw [whole] at split
      rw [← split]
      intro c member
      rcases mem_append.mp member with front | last
      · exact ih (number / 10) (by omega) c front
      · rw [Nat.toDigits_of_lt_base (by omega), mem_singleton] at last
        rw [last]
        exact digits.isDigit_digitChar (by omega)
  have filled : (!(Nat.toDigits 10 number).isEmpty) = true := by simp
  simp only [isdigit, Bool.and_eq_true, all_eq_true]
  exact ⟨filled, decimals⟩

theorem dot_not_mem_of_isdigit {text} (numeric : digits.isdigit text = true) : '.' ∉ text := by
  intro member
  simp only [isdigit, Bool.and_eq_true, all_eq_true] at numeric
  have digit := numeric.2 '.' member
  rw [digits.isDigit_ascii '.' (by decide)] at digit
  exact absurd digit (by decide)

end DigitTable

def removePrefix (start text : List Char) : List Char :=
  if start.isPrefixOf text then text.drop start.length else text

def removeSuffix (ending text : List Char) : List Char :=
  if ending.isSuffixOf text then text.take (text.length - ending.length) else text

@[simp]
theorem removePrefix_append (start rest : List Char) :
    removePrefix start (start ++ rest) = rest := by
  have begins : start.isPrefixOf (start ++ rest) = true := by
    rw [List.isPrefixOf_iff_prefix]
    exact prefix_append start rest
  rw [removePrefix, if_pos begins, drop_left]

@[simp]
theorem removeSuffix_append (front ending : List Char) :
    removeSuffix ending (front ++ ending) = front := by
  have ends : ending.isSuffixOf (front ++ ending) = true := by
    rw [isSuffixOf_iff_suffix]
    exact suffix_append front ending
  rw [removeSuffix, if_pos ends, length_append, Nat.add_sub_cancel, take_left]

def versionName (index : Nat) : FileName :=
  "version_".toList ++ Nat.toDigits 10 index

def tmpName (name : FileName) : FileName :=
  name ++ ".tmp".toList

def tombstoneName (name : FileName) : FileName :=
  ".".toList ++ name ++ ".prune".toList

/-- The test of `prune_checkpoints` on a directory's name. -/
def isGenerationName (digits : DigitTable) (name : FileName) : Bool :=
  "version_".toList.isPrefixOf name && digits.isdigit (removePrefix "version_".toList name)

/-- The test of `_remove_prune_tombstones`. -/
def isTombstoneName (digits : DigitTable) (name : FileName) : Bool :=
  ".version_".toList.isPrefixOf name && ".prune".toList.isSuffixOf name && digits.isdigit
      (removeSuffix ".prune".toList (removePrefix ".version_".toList name))

def isPermanentCheckpointPointer (digits : DigitTable) (name : FileName) : Bool :=
  if !"step_".toList.isPrefixOf name || !".json".toList.isSuffixOf name then
    false
  else
    digits.isdigit (removeSuffix ".json".toList (removePrefix "step_".toList name))

/-- The pointers whose names `prune_checkpoints` knows. -/
def namedPointers : List FileName :=
  ["latest.json".toList, "best.json".toList, "arena.json".toList]

/-- The names under which `prune_checkpoints` looks for pointers. -/
def isRecognisedPointer (digits : DigitTable) (name : FileName) : Bool :=
  namedPointers.contains name || isPermanentCheckpointPointer digits name

section Names

variable {digits : DigitTable}

variable {name : FileName}

theorem isGenerationName_iff : isGenerationName digits name = true ↔
      ∃ suffix, name = "version_".toList ++ suffix ∧ digits.isdigit suffix = true := by
  simp only [isGenerationName, Bool.and_eq_true, isPrefixOf_iff_prefix]
  constructor
  · rintro ⟨⟨suffix, rfl⟩, numeric⟩
    exact ⟨suffix, rfl, numeric⟩
  · rintro ⟨suffix, rfl, numeric⟩
    exact ⟨prefix_append _ suffix, numeric⟩

@[simp]
theorem isGenerationName_versionName (index : Nat) :
    isGenerationName digits (versionName index) = true :=
  isGenerationName_iff.mpr ⟨_, rfl, digits.isdigit_toDigits index⟩

theorem isTombstoneName_tombstoneName (generation : isGenerationName digits name = true) :
    isTombstoneName digits (tombstoneName name) = true := by
  obtain ⟨suffix, rfl, numeric⟩ := isGenerationName_iff.mp generation
  have shape : tombstoneName ("version_".toList ++ suffix) =
      ".version_".toList ++ (suffix ++ ".prune".toList) := rfl
  have ends : ".prune".toList <:+ tombstoneName ("version_".toList ++ suffix) :=
    suffix_append _ _
  simp only [isTombstoneName, Bool.and_eq_true, isPrefixOf_iff_prefix, isSuffixOf_iff_suffix]
  rw [shape] at ends ⊢
  rw [removePrefix_append, removeSuffix_append]
  exact ⟨⟨prefix_append _ _, ends⟩, numeric⟩

theorem tombstoneName_injective {first second} (same : tombstoneName first = tombstoneName second) :
    first = second :=
  append_cancel_left (append_cancel_right same)

theorem isTombstoneName_of_isGenerationName (generation : isGenerationName digits name = true) :
    isTombstoneName digits name = false := by
  obtain ⟨suffix, rfl, _⟩ := isGenerationName_iff.mp generation
  rfl

end Names

end GraphZero.Checkpoints
