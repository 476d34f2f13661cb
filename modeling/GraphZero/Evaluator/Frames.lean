import GraphZero.Engine.Refs
import GraphZero.Foundation.FrameLog

/-!
# Frames of the evaluator connection

A frame is four bytes of length, a byte for its type and a payload.  Client
and evaluator write whole frames; a reader may get the bytes in any pieces and
takes no byte behind the frame it reads.
-/

namespace GraphZero.Evaluator

open Foundation List

def maxFrame : Nat := 256 * 1024 * 1024

inductive FrameType where
  | hello
  | helloAck
  | eval
  | evalResult
  | ping
  | pong
  | error
  | modelRelease
  deriving DecidableEq

namespace FrameType

def code : FrameType → UInt8
  | hello => 1
  | helloAck => 2
  | eval => 3
  | evalResult => 4
  | ping => 5
  | pong => 6
  | error => 7
  | modelRelease => 8

def ofCode? : UInt8 → Option FrameType
  | 1 => some hello
  | 2 => some helloAck
  | 3 => some eval
  | 4 => some evalResult
  | 5 => some ping
  | 6 => some pong
  | 7 => some error
  | 8 => some modelRelease
  | _ => none

@[simp]
theorem ofCode?_code (frameType : FrameType) : ofCode? frameType.code = some frameType := by
  cases frameType <;> rfl

theorem code_of_ofCode? {byte} {frameType : FrameType} (known : ofCode? byte = some frameType) :
    frameType.code = byte := by
  unfold ofCode? at known
  split at known <;> cases known <;> rfl

end FrameType

inductive ErrorCode where
  | protocol
  | encoding
  | schema
  | capacity
  | malformed

def ErrorCode.number : ErrorCode → Nat
  | protocol => 1
  | encoding => 2
  | schema => 3
  | capacity => 4
  | malformed => 5

structure ProtocolError where
  code : ErrorCode
  message : String

/-- What ends the serving of a connection. -/
inductive ServeError where
  /-- It is sent to the client. -/
  | reported (error : ProtocolError)
  /-- It ends the process. -/
  | uncaught (message : String)

abbrev ServeResult (α : Type) : Type := Except ServeError α

def protocolError (code : ErrorCode) (message : String) : ServeError :=
  .reported ⟨code, message⟩

def maxErrorMessage : Nat := 512

def encodeError (error : ProtocolError) : List UInt8 :=
  let encoded := error.message.toUTF8.toList.take maxErrorMessage
  toLeBytes 4 error.code.number ++ toLeBytes 2 encoded.length ++ encoded

theorem length_encodeError_le (error : ProtocolError) : (encodeError error).length ≤ 518 := by
  have short : (error.message.toUTF8.toList.take maxErrorMessage).length ≤
      512 := length_take_le 512 _
  simp only [encodeError, length_append, length_toLeBytes]
  omega

structure Frame where
  frameType : FrameType
  payload : List UInt8
  deriving DecidableEq

namespace Frame

def body (frame : Frame) : List UInt8 :=
  frame.frameType.code :: frame.payload

def encode (frame : Frame) : List UInt8 :=
  Foundation.frame frame.body

theorem length_encode (frame : Frame) : frame.encode.length = 5 + frame.payload.length := by
  rw [encode, length_frame, body, length_cons]
  omega

theorem encode_ne_nil (frame : Frame) : frame.encode ≠ [] := by
  rw [← length_pos_iff, length_encode]
  omega

theorem body_injective : Function.Injective body := by
  intro left right same
  injection same with code payload
  have known := congrArg FrameType.ofCode? code
  rw [FrameType.ofCode?_code, FrameType.ofCode?_code] at known
  cases left
  cases right
  cases known
  exact congrArg (Frame.mk _) payload

end Frame

/-- The bytes that are written for a frame. -/
def writeFrame (frame : Frame) : ServeResult (List UInt8) :=
  if maxFrame < frame.body.length then
    .error (protocolError .protocol "frame exceeds maximum size")
  else .ok frame.encode

/-- What a reader knows once it has the first bytes of a frame. -/
inductive FrameRead where
  | incomplete
  | failed (error : ServeError)
  | frame (frame : Frame)

/-- How many more bytes the reader asks for. -/
def wanted (bytes : List UInt8) : Nat :=
  if bytes.length < 4 then 4 - bytes.length
  else 4 + ofLeBytes (bytes.take 4) - bytes.length

def readFrame (bytes : List UInt8) : FrameRead :=
  match readHead maxFrame bytes with
  | .incomplete => .incomplete
  | .malformed =>
    if ofLeBytes (bytes.take 4) = 0 then
      .failed (protocolError .malformed "empty frame")
    else .failed (protocolError .protocol "frame exceeds maximum size")
  | .record [] _ => .incomplete
  | .record (code :: payload) _ =>
    match FrameType.ofCode? code with
    | none => .failed (protocolError .protocol "unknown frame type")
    | some frameType => .frame ⟨frameType, payload⟩

/-! ## Streams of frames -/

def encodeAll (frames : List Frame) : List UInt8 :=
  frames.flatMap Frame.encode

@[simp]
theorem encodeAll_nil : encodeAll [] = [] := rfl

@[simp]
theorem encodeAll_cons (frame : Frame) (frames : List Frame) :
    encodeAll (frame :: frames) = frame.encode ++ encodeAll frames := rfl

@[simp]
theorem encodeAll_append (frames more : List Frame) :
    encodeAll (frames ++ more) = encodeAll frames ++ encodeAll more :=
  flatMap_append

def Frame.Admitted (frame : Frame) : Prop := frame.body.length ≤ maxFrame

section Streams

variable {bytes rest chunk : List UInt8} {frame other : Frame} {frames : List Frame}

theorem readHead_encode_append (admitted : frame.Admitted) (rest : List UInt8) :
    readHead maxFrame (frame.encode ++ rest) = .record frame.body rest :=
  readHead_frame_append (by decide) (cons_ne_nil _ _) admitted rest

theorem encode_append_inj {more} (admitted : frame.Admitted) (otherAdmitted : other.Admitted)
    (same : frame.encode ++ rest = other.encode ++ more) :
    frame = other ∧ rest = more := by
  have heads := congrArg (readHead maxFrame) same
  rw [readHead_encode_append admitted, readHead_encode_append otherAdmitted] at heads
  injection heads with body left
  exact ⟨Frame.body_injective body, left⟩

theorem readHead_of_incomplete (more : readFrame bytes = .incomplete) :
    readHead maxFrame bytes = .incomplete := by
  unfold readFrame at more
  split at more
  · assumption
  · split at more <;> cases more
  · next left head =>
    unfold readHead at head
    split at head
    · cases head
    dsimp only at head
    split at head
    · cases head
    next small =>
    split at head
    · cases head
    next complete =>
    injection head with taken _
    rw [take_eq_nil_iff] at taken
    rcases taken with zero | nothing
    · omega
    · rw [nothing, length_nil] at complete
      omega
  · split at more <;> cases more

theorem eq_encode_of_readFrame (read : readFrame bytes = .frame frame) :
    frame.Admitted ∧ ∃ left, bytes = frame.encode ++ left ∧
      readHead maxFrame bytes = .record frame.body left := by
  unfold readFrame at read
  split at read
  · cases read
  · split at read <;> cases read
  · cases read
  next code payload left head =>
  split at read
  · cases read
  next frameType known =>
  cases read
  have body : (⟨frameType, payload⟩ : Frame).body = code :: payload := by
    rw [Frame.body, FrameType.code_of_ofCode? known]
  have whole := head
  unfold readHead at whole
  split at whole
  · cases whole
  next long =>
  dsimp only at whole
  split at whole
  · cases whole
  next small =>
  split at whole
  · cases whole
  next complete =>
  injection whole with taken dropped
  have lengths : (code :: payload).length = ofLeBytes (bytes.take 4) := by
    rw [← taken, length_take]
    omega
  refine ⟨?_, left, ?_, body ▸ head⟩
  · unfold Frame.Admitted
    rw [body, lengths]
    omega
  · have four : (bytes.take 4).length = 4 := by
      rw [length_take]
      omega
    have header := toLeBytes_ofLeBytes (bytes.take 4)
    rw [four] at header
    rw [Frame.encode, Foundation.frame, body, lengths, header, ← taken,
      ← dropped, append_assoc, take_append_drop,
      take_append_drop]

theorem prefix_of_encodeAll_prefix {sent} (admitted : ∀ frame ∈ frames, frame.Admitted)
    (sentAdmitted : ∀ frame ∈ sent, frame.Admitted)
    (isPrefix : encodeAll frames <+: encodeAll sent) : frames <+: sent := by
  induction frames generalizing sent with
  | nil => exact nil_prefix
  | cons frame others ih =>
    obtain ⟨rest, stream⟩ := isPrefix
    rw [encodeAll_cons, append_assoc] at stream
    cases sent with
    | nil =>
      have nothing := congrArg List.length stream
      rw [encodeAll_nil, length_append, Frame.length_encode] at nothing
      simp at nothing
    | cons first more =>
      obtain ⟨same, remaining⟩ := encode_append_inj (admitted frame mem_cons_self)
        (sentAdmitted first mem_cons_self) stream
      rw [same, prefix_cons_inj]
      exact ih (fun other member =>
          admitted other (mem_cons_of_mem _ member))
        (fun other member =>
          sentAdmitted other (mem_cons_of_mem _ member))
        ⟨rest, remaining⟩

theorem wanted_pos (incomplete : readHead maxFrame bytes = .incomplete) : 0 < wanted bytes := by
  unfold wanted
  split
  · omega
  next four =>
  unfold readHead at incomplete
  rw [if_neg four] at incomplete
  dsimp only at incomplete
  split at incomplete
  · cases incomplete
  split at incomplete
  · next missing =>
    rw [length_drop] at missing
    omega
  · cases incomplete

theorem no_bytes_behind {payload left} (incomplete : readHead maxFrame bytes = .incomplete)
    (asked : chunk.length ≤ wanted bytes)
    (head : readHead maxFrame (bytes ++ chunk) = .record payload left) :
    left = [] := by
  have total := length_of_readHead_record head
  unfold wanted at asked
  unfold readHead at head
  split at head
  · cases head
  next long =>
  dsimp only at head
  split at head
  · cases head
  next small =>
  split at head
  · cases head
  next complete =>
  injection head with taken dropped
  rw [length_append] at total long
  split at asked
  · next short =>
    have nothing : payload.length = 0 ∧ left.length = 0 := by omega
    exact length_eq_zero_iff.mp nothing.2
  next four =>
  have header : (bytes ++ chunk).take 4 = bytes.take 4 :=
    take_append_of_le_length (by omega)
  rw [header] at taken small complete
  have lengths := congrArg List.length taken
  rw [length_take] at lengths
  unfold readHead at incomplete
  rw [if_neg four] at incomplete
  rw [if_neg small] at incomplete
  split at incomplete
  · next missing =>
    rw [length_drop] at missing
    refine length_eq_zero_iff.mp ?_
    omega
  · cases incomplete

end Streams

end GraphZero.Evaluator
