import Mathlib.Data.List.Basic
import Mathlib.Order.Lattice

/-!
# Identifiers and errors of the measurement service

The identifiers are byte strings of a fixed length; the length is part of the
type, so a value of the wrong length cannot be built.  `fromSlice` is the only
way from wire bytes to an identifier and fails on every other length.
-/

namespace GraphZero.Measure

abbrev Bytes := List UInt8

/-- Longest error message the service keeps, in UTF-8 bytes. -/
def maxErrorBytes : Nat := 512

/-- Longest prefix of `message` within `budget` UTF-8 bytes. -/
def boundedPrefix : (budget : Nat) → List Char → List Char
  | _, [] => []
  | budget, next :: rest =>
    if next.utf8Size ≤ budget then
      next :: boundedPrefix (budget - next.utf8Size) rest
    else
      []

def boundMessage (message : String) : String :=
  if message.utf8ByteSize ≤ maxErrorBytes then
    message
  else
    String.ofList (boundedPrefix maxErrorBytes message.toList)

inductive ServiceError where
  | configuration (message : String)
  | capacity (message : String)
  | authentication (message : String)
  | protocol (message : String)
  | transport (message : String)
  | timeout (message : String)
  | remoteFailure (code : UInt32) (message : String)
  | io (message : String)
  | closed
  deriving DecidableEq

abbrev ServiceResult := Except ServiceError

/-- The identifier types of the service. -/
inductive IdKind where
  | device
  | session
  | lease
  | requestNonce
  | artifactDigest
  | certificateFingerprint
  | deviceProfileHash
  | measurementKey
  | job

namespace IdKind

def byteLen : IdKind → Nat
  | device | session | lease | requestNonce => 16
  | artifactDigest | certificateFingerprint | deviceProfileHash
  | measurementKey | job => 32

def name : IdKind → String
  | device => "DeviceId"
  | session => "SessionId"
  | lease => "LeaseId"
  | requestNonce => "RequestNonce"
  | artifactDigest => "ArtifactDigest"
  | certificateFingerprint => "CertificateFingerprint"
  | deviceProfileHash => "DeviceProfileHash"
  | measurementKey => "MeasurementKey"
  | job => "JobId"

end IdKind

/-- An identifier: a byte string of the length its kind fixes. -/
@[ext]
structure Id (kind : IdKind) where
  bytes : Bytes
  length_eq : bytes.length = kind.byteLen
  deriving DecidableEq

namespace Id

variable {kind : IdKind}

/-- Identifiers compare lexicographically. -/
instance : LE (Id kind) :=
  ⟨fun left right => left.bytes ≤ right.bytes⟩

instance : DecidableLE (Id kind) := fun left right =>
  inferInstanceAs (Decidable (left.bytes ≤ right.bytes))

theorem le_total (left right : Id kind) : left ≤ right ∨ right ≤ left :=
  Std.Total.total (r := (· ≤ ·)) left.bytes right.bytes

theorem le_trans {first second third : Id kind}
    (lower : first ≤ second) (upper : second ≤ third) : first ≤ third :=
  List.le_trans lower upper

/-- Every byte equal to `byte`. -/
def filled (kind : IdKind) (byte : UInt8) : Id kind :=
  ⟨List.replicate kind.byteLen byte, List.length_replicate⟩

instance : Inhabited (Id kind) := ⟨filled kind 0⟩

def toVec (id : Id kind) : Bytes :=
  id.bytes

def fromSlice (bytes : Bytes) : ServiceResult (Id kind) :=
  if exact : bytes.length = kind.byteLen then
    .ok ⟨bytes, exact⟩
  else
    .error (.protocol (boundMessage
      s!"{kind.name} must be {kind.byteLen} bytes, got {bytes.length}"))

@[simp]
theorem fromSlice_toVec (id : Id kind) : fromSlice id.toVec = .ok id := by
  simp [fromSlice, toVec, id.length_eq]

theorem fromSlice_eq_ok_iff {bytes} {id : Id kind} :
    fromSlice bytes = .ok id ↔ bytes = id.toVec := by
  constructor
  · intro parsed
    unfold fromSlice at parsed
    split at parsed
    · cases parsed
      rfl
    · cases parsed
  · intro same
    subst same
    exact fromSlice_toVec id

theorem toVec_injective {left right : Id kind} (same : left.toVec = right.toVec) : left = right :=
  Id.ext same

end Id

abbrev DeviceId := Id .device
abbrev SessionId := Id .session
abbrev LeaseId := Id .lease
abbrev RequestNonce := Id .requestNonce
abbrev ArtifactDigest := Id .artifactDigest
abbrev CertificateFingerprint := Id .certificateFingerprint
abbrev DeviceProfileHash := Id .deviceProfileHash
abbrev MeasurementKey := Id .measurementKey
abbrev JobId := Id .job

/-- The value of a 32-byte hash function. -/
structure Digest where
  bytes : Bytes
  length_eq : bytes.length = 32
  deriving DecidableEq

structure GraphHash where
  bytes : Bytes
  length_eq : bytes.length = 32
  deriving DecidableEq

/-- The engine identity of `gz-engine`, whose parts have fixed widths. -/
structure CoreEngineIdentity where
  engineId : Bytes
  engineVersion : Bytes
  actionSetHash : Bytes
  engineId_length : engineId.length = 16
  engineVersion_length : engineVersion.length = 16
  actionSetHash_length : actionSetHash.length = 32
  deriving DecidableEq

inductive GraphArtifactFormat where
  | text
  | json
  | dot
  | binary
  | adapterSpecific (id : Nat)
  deriving DecidableEq

structure GraphArtifact where
  graphHash : Bytes
  format : GraphArtifactFormat
  bytes : Bytes
  graphHash_length : graphHash.length = 32
  deriving DecidableEq

end GraphZero.Measure
