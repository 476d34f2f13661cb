import GraphZero.Foundation.FrameLog
import GraphZero.Foundation.Result

/-!
# Decoders

A decoder takes bytes from the front of its input and fails if they are not
what it expects.  `Reads` says that it takes exactly the given bytes and what
it makes of them, whatever follows; `Returns` says what every value it can
return is like.
-/

namespace GraphZero.Foundation

open List

universe u

abbrev Decoder (ε α : Type) : Type := StateT (List UInt8) (Except ε) α

namespace Decoder

variable {ε α β : Type}

def decode (decoder : Decoder ε α) (input : List UInt8) : Except ε (α × List UInt8) :=
  decoder input

/-- The next `width` bytes. -/
def take (short : ε) (width : Nat) : Decoder ε (List UInt8) :=
  fun input =>
    if input.length < width then .error short
    else .ok (input.take width, input.drop width)

/-- The number whose little-endian bytes come next. -/
def number (short : ε) (width : Nat) : Decoder ε Nat := do
  return ofLeBytes (← take short width)

/-- What is computed from no more bytes. -/
def given (result : Except ε α) : Decoder ε α :=
  fun input => result.map fun value => (value, input)

/-- So many values, one after the other. -/
def repeated (item : Decoder ε α) : (count : Nat) → Decoder ε (List α)
  | 0 => pure []
  | count + 1 => do
      let value ← item
      let rest ← repeated item count
      pure (value :: rest)

/-- The decoder takes `bytes` and returns `value`. -/
def Reads (decoder : Decoder ε α) (bytes : List UInt8) (value : α) : Prop :=
  ∀ rest, decoder.decode (bytes ++ rest) = .ok (value, rest)

theorem reads_pure (value : α) : (pure value : Decoder ε α).Reads [] value :=
  fun _ => rfl

theorem reads_given {result : Except ε α} {value} (known : result = .ok value) :
    (given result).Reads [] value := by
  intro rest
  rw [known]
  rfl

variable {first : Decoder ε α} {next : α → Decoder ε β}

theorem Reads.bind {bytes more value result} (head : first.Reads bytes value)
    (tail : (next value).Reads more result) :
    (first >>= next).Reads (bytes ++ more) result := by
  intro rest
  have half := head (more ++ rest)
  unfold decode at half ⊢
  change (first _ >>= fun read => next read.1 read.2) = _
  rw [append_assoc, half]
  exact tail rest

theorem Reads.bind_nil {bytes value result} (head : first.Reads bytes value)
    (tail : (next value).Reads [] result) :
    (first >>= next).Reads bytes result := by
  have whole := head.bind tail
  rw [append_nil] at whole
  exact whole

theorem Reads.map {decoder bytes value} (reads : decoder.Reads bytes value) (change : α → β) :
    (do return change (← decoder) : Decoder ε β).Reads bytes (change value) :=
  reads.bind_nil (reads_pure _)

variable {short : ε}

theorem reads_take {width bytes} (exact : bytes.length = width) :
    (take short width).Reads bytes bytes := by
  intro rest
  have long : ¬ (bytes ++ rest).length < width := by
    rw [length_append]
    omega
  unfold decode take
  rw [if_neg long, take_left' exact, drop_left' exact]

theorem reads_number {width value} (fits : value < 256 ^ width) :
    (number short width).Reads (toLeBytes width value) value := by
  have reads := (reads_take (length_toLeBytes width value) :
    (take short width).Reads _ _).map ofLeBytes
  rw [ofLeBytes_toLeBytes fits] at reads
  exact reads

variable {item : Decoder ε α}

theorem reads_repeated {γ : Type} {encode value} {items : List γ}
    (each : ∀ entry ∈ items, item.Reads (encode entry) (value entry)) :
    (repeated item items.length).Reads (items.flatMap encode) (items.map value) := by
  induction items with
  | nil => exact reads_pure []
  | cons entry items ih =>
    refine (each entry mem_cons_self).bind ?_
    exact (ih fun other member =>
      each other (mem_cons_of_mem entry member)).map _

variable {condition : Prop}

theorem Reads.unless [Decidable condition] {failing decoder : Decoder ε α} {bytes value}
    (passes : ¬ condition) (reads : decoder.Reads bytes value) :
    (if condition then failing else decoder).Reads bytes value := by
  rw [if_neg passes]
  exact reads

/-- Every value that the decoder returns is `good`. -/
def Returns (decoder : Decoder ε α) (good : α → Prop) : Prop :=
  ∀ input value rest, decoder.decode input = .ok (value, rest) → good value

section Returns

variable {good : α → Prop} {fine : β → Prop}

theorem returns_pure {value} (holds : good value) : (pure value : Decoder ε α).Returns good := by
  rintro _ _ _ ⟨⟩
  exact holds

theorem returns_true (decoder : Decoder ε α) : decoder.Returns fun _ => True :=
  fun _ _ _ _ => trivial

theorem Returns.bind  (head : first.Returns good)
    (tail : ∀ value, good value → (next value).Returns fine) :
    (first >>= next).Returns fine := by
  intro input result rest decoded
  obtain ⟨read, half, decoded⟩ := ok_of_bind decoded
  exact tail read.1 (head _ _ _ half) _ _ _ decoded

theorem Returns.unless [Decidable condition] {failure skipped decoder}
    (passed : ¬ condition → decoder.Returns good) :
    (if condition then
        (throw failure : Decoder ε PUnit) >>= skipped
      else
        decoder).Returns good := by
  split
  · intro _ _ _ decoded
    cases decoded
  · exact passed ‹_›

theorem Returns.ite [Decidable condition] {second} (yes : condition → first.Returns good)
    (no : ¬ condition → second.Returns good) :
    (if condition then first else second).Returns good := by
  split
  · exact yes ‹_›
  · exact no ‹_›

theorem returns_take {width} : (take short width).Returns (·.length = width) := by
  intro input value rest decoded
  unfold decode take at decoded
  split at decoded
  · cases decoded
  rename_i long
  cases decoded
  rw [length_take]
  omega

theorem ofLeBytes_lt (bytes : List UInt8) : ofLeBytes bytes < 256 ^ bytes.length := by
  induction bytes with
  | nil => exact Nat.one_pos
  | cons byte bytes ih =>
    have small : byte.toNat < 256 := byte.toNat_lt
    rw [ofLeBytes, length_cons, pow_succ]
    omega

theorem Returns.repeated (each : item.Returns good) (count : Nat) :
    (repeated item count).Returns fun values =>
      values.length = count ∧ ∀ value ∈ values, good value := by
  induction count with
  | zero => exact returns_pure ⟨rfl, nofun⟩
  | succ count ih =>
    refine each.bind fun value holds => ?_
    refine ih.bind fun rest fine => ?_
    refine returns_pure ⟨congrArg (· + 1) fine.1, fun other member => ?_⟩
    rcases mem_cons.1 member with rfl | later
    · exact holds
    · exact fine.2 other later

end Returns

/-- For every value that the decoder returns, it took bytes that fit it and
nothing more. -/
def Takes (decoder : Decoder ε α) (fits : α → List UInt8 → Prop) : Prop :=
  ∀ input value rest, decoder.decode input = .ok (value, rest) →
    ∃ bytes, input = bytes ++ rest ∧ fits value bytes

section Takes

variable {fits : α → List UInt8 → Prop} {suits : β → List UInt8 → Prop}

theorem takes_pure {value} (holds : fits value []) : (pure value : Decoder ε α).Takes fits := by
  rintro input _ _ ⟨⟩
  exact ⟨[], rfl, holds⟩

theorem takes_given {result : Except ε α} (known : ∀ value, result = .ok value → fits value []) :
    (given result).Takes fits := by
  intro input value rest decoded
  cases result with
  | error failure => cases decoded
  | ok value =>
    cases decoded
    exact ⟨[], rfl, known value rfl⟩

theorem Takes.bind  (head : first.Takes fits)
    (tail : ∀ value bytes, fits value bytes →
      (next value).Takes fun result more => suits result (bytes ++ more)) :
    (first >>= next).Takes suits := by
  intro input result rest decoded
  obtain ⟨read, half, decoded⟩ := ok_of_bind decoded
  obtain ⟨bytes, whole, holds⟩ := head _ _ _ half
  obtain ⟨more, behind, holds⟩ := tail _ _ holds _ _ _ decoded
  refine ⟨bytes ++ more, ?_, holds⟩
  rw [whole, behind, append_assoc]

theorem takes_take {width} : (take short width).Takes fun value bytes =>
      bytes = value ∧ value.length = width := by
  intro input value rest decoded
  have exact := returns_take input value rest decoded
  unfold decode take at decoded
  split at decoded
  · cases decoded
  · cases decoded
    exact ⟨_, (take_append_drop width input).symm, rfl, exact⟩

theorem takes_number {width} : (number short width).Takes fun value bytes =>
      bytes = toLeBytes width value ∧ value < 256 ^ width := by
  refine takes_take.bind fun value bytes taken => takes_pure ?_
  obtain ⟨rfl, exact⟩ := taken
  rw [append_nil, ← exact, toLeBytes_ofLeBytes]
  exact ⟨rfl, ofLeBytes_lt bytes⟩

theorem Takes.repeated {encode} {good : α → Prop}
    (each : item.Takes fun value bytes => bytes = encode value ∧ good value) (count : Nat) :
    (repeated item count).Takes fun values bytes =>
      bytes = values.flatMap encode ∧ values.length = count ∧ ∀ value ∈ values, good value := by
  induction count with
  | zero => exact takes_pure ⟨rfl, rfl, nofun⟩
  | succ count ih =>
    refine each.bind fun value bytes taken => ?_
    refine ih.bind fun values more others => ?_
    refine takes_pure ?_
    obtain ⟨rfl, holds⟩ := taken
    obtain ⟨rfl, length, fine⟩ := others
    refine ⟨?_, congrArg (· + 1) length, ?_⟩
    · rw [append_nil, flatMap_cons]
    · exact forall_mem_cons.mpr ⟨holds, fine⟩

end Takes

/-- From so many bytes the decoder takes just these, or fails in one of the
given ways. -/
def Suffices (decoder : Decoder ε α) (width : Nat) (failing : ε → Prop) : Prop :=
  ∀ input, width ≤ input.length → match decoder.decode input with
    | .ok (_, rest) => rest.length + width = input.length
    | .error failure => failing failure

section Suffices

variable {failing : ε → Prop}

theorem suffices_pure (value : α) : (pure value : Decoder ε α).Suffices 0 failing :=
  fun _ _ => rfl

theorem suffices_given {result : Except ε α}
    (fails : ∀ failure, result = .error failure → failing failure) :
    (given result).Suffices 0 failing := by
  intro input _
  cases result with
  | error failure => exact fails failure rfl
  | ok value => rfl

variable {width : Nat}

theorem Suffices.bind {more} (head : first.Suffices width failing)
    (tail : ∀ value, (next value).Suffices more failing) :
    (first >>= next).Suffices (width + more) failing := by
  intro input long
  have half := head input (by omega)
  change match first.decode input >>= fun read => (next read.1).decode read.2
    with | .ok (_, rest) => _ | .error failure => _
  cases read : first.decode input with
  | error failure =>
    rw [read] at half
    exact half
  | ok pair =>
    rw [read] at half
    have rest := tail pair.1 pair.2 (by
      omega)
    change match (next pair.1).decode pair.2 with
      | .ok (_, rest) => _ | .error failure => _
    cases behind : (next pair.1).decode pair.2 with
    | error failure =>
      rw [behind] at rest
      exact rest
    | ok result =>
      rw [behind] at rest
      omega

theorem suffices_take : (take short width).Suffices width failing := by
  intro input long
  unfold decode take
  rw [if_neg (Nat.not_lt.mpr long)]
  change (input.drop width).length + width = _
  rw [length_drop]
  omega

theorem suffices_number : (number short width).Suffices width failing :=
  suffices_take.bind fun _ => suffices_pure _

theorem Suffices.repeated (each : item.Suffices width failing) (count : Nat) :
    (repeated item count).Suffices (count * width) failing := by
  induction count with
  | zero =>
    rw [Nat.zero_mul]
    exact suffices_pure []
  | succ count ih =>
    have whole : (Decoder.repeated item (count + 1)).Suffices
        (width + (count * width + 0)) failing :=
      each.bind fun _ => ih.bind fun _ => suffices_pure _
    rw [Nat.succ_mul, Nat.add_comm (count * width)]
    exact whole

end Suffices

end Decoder

end GraphZero.Foundation
