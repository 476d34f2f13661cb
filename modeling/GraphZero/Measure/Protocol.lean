import GraphZero.Foundation.FrameLog
import GraphZero.Measure.Wire

/-!
# Submissions and their identities

The hash function and the generated message encoders are not part of the
repository: they are the fields of `Codec`.  What is hashed, and in which
order, is.
-/

namespace GraphZero.Measure

open Foundation Wire

def protocolMajor : Nat := 1
def protocolMinor : Nat := 1
def measurementProtocolVersion : Nat := 1

/-- The hash function and the generated protobuf codec; decoding fails with
the text of its error. -/
structure Codec where
  hash : Bytes → Digest
  encodeProfile : DeviceProfile → Bytes
  encodeReport : MeasureReport → Bytes
  decodeReport : Bytes → Except String MeasureReport

structure MeasureOptions where
  configHash : Bytes
  samples : Nat
  timeoutMs : Option Nat
  deterministic : Bool
  deriving DecidableEq

structure EncodedMeasureConfig where
  encoding : Nat
  payload : Bytes
  deriving DecidableEq

inductive MeasureSubmissionKind where
  | single
  | symmetricPair
  deriving DecidableEq

namespace MeasureSubmissionKind

def wire : MeasureSubmissionKind → MeasureKind
  | single => .single
  | symmetricPair => .symmetricPair

def subjectCount : MeasureSubmissionKind → Nat
  | single => 1
  | symmetricPair => 2

end MeasureSubmissionKind

structure MeasureSubmission where
  kind : MeasureSubmissionKind
  engine : CoreEngineIdentity
  subjects : List GraphArtifact
  options : MeasureOptions
  measureConfig : EncodedMeasureConfig
  targetDeviceProfileHash : DeviceProfileHash
  deriving DecidableEq

structure CommittedMeasurement where
  jobId : JobId
  report : MeasureReport

structure ArtifactDescriptor where
  digest : ArtifactDigest
  size : Nat
  formatKind : GraphArtifactFormatKind
  adapterFormatId : Nat
  deriving DecidableEq

def engineIdentityToWire (identity : CoreEngineIdentity) : EngineIdentity :=
  ⟨identity.engineId, identity.engineVersion, identity.actionSetHash⟩

/-- The check `engine_identity_from_wire` makes of each part. -/
def fixedBytes (name : String) (width : Nat) (bytes : Bytes) : ServiceResult Unit :=
  if bytes.length = width then
    .ok ()
  else
    .error (.protocol (boundMessage s!"{name} must be {width} bytes, got {bytes.length}"))

def engineIdentityFromWire (identity : EngineIdentity) : ServiceResult Unit := do
  fixedBytes "engine_id" 16 identity.engineId
  fixedBytes "engine_version" 16 identity.engineVersion
  fixedBytes "action_set_hash" 32 identity.actionSetHash

def artifactFormat : GraphArtifactFormat → GraphArtifactFormatKind × Nat
  | .text => (.text, 0)
  | .json => (.json, 0)
  | .dot => (.dot, 0)
  | .binary => (.binary, 0)
  | .adapterSpecific id => (.adapterSpecific, id)

/-- A domain tag: an ASCII label and a terminating zero byte. -/
def domainTag (label : String) : Bytes :=
  label.toList.map (fun letter => UInt8.ofNat letter.toNat) ++ [0]

def Codec.digestId (codec : Codec) (kind : IdKind)
    (wide : kind.byteLen = 32) (bytes : Bytes) : Id kind :=
  ⟨(codec.hash bytes).bytes, by rw [wide]; exact (codec.hash bytes).length_eq⟩

def artifactDescriptor (codec : Codec) (artifact : GraphArtifact) : ArtifactDescriptor :=
  let format := artifactFormat artifact.format
  { digest := codec.digestId .artifactDigest rfl
      (domainTag "gz-graph-artifact-v1" ++ toLeBytes 4 format.1.code ++
        toLeBytes 4 format.2 ++ artifact.bytes)
    size := artifact.bytes.length
    formatKind := format.1
    adapterFormatId := format.2 }

def deviceProfileHash (codec : Codec) (profile : DeviceProfile) : DeviceProfileHash :=
  codec.digestId .deviceProfileHash rfl
    (domainTag "gz-device-profile-v1" ++ codec.encodeProfile profile)

/-- What `measurement_key` hashes for one subject. -/
def subjectKeyBytes (logicalIndex : Nat)
    (subject : GraphArtifact) (descriptor : ArtifactDescriptor) : Bytes :=
  toLeBytes 4 logicalIndex ++ subject.graphHash ++ toLeBytes 4 descriptor.formatKind.code ++
    toLeBytes 4 descriptor.adapterFormatId ++
    descriptor.digest.toVec ++ toLeBytes 8 descriptor.size

def measurementKey (codec : Codec) (submission : MeasureSubmission)
    (descriptors : List ArtifactDescriptor) : MeasurementKey :=
  let subjectBytes := (submission.subjects.zip descriptors).zipIdx.map
    fun ((subject, descriptor), logicalIndex) =>
      subjectKeyBytes logicalIndex subject descriptor
  codec.digestId .measurementKey rfl (domainTag "gz-measure-key-v1" ++
      toLeBytes 4 submission.kind.wire.code ++
      submission.engine.engineId ++ submission.engine.engineVersion ++
      submission.engine.actionSetHash ++ submission.options.configHash ++
      submission.targetDeviceProfileHash.toVec ++
      toLeBytes 4 submission.subjects.length ++ subjectBytes.flatten)

def jobId (codec : Codec) (measurementKey : MeasurementKey) (requestNonce : RequestNonce) : JobId :=
  codec.digestId .job rfl (domainTag "gz-measure-job-v1" ++ measurementKey.toVec ++
      requestNonce.toVec)

end GraphZero.Measure
