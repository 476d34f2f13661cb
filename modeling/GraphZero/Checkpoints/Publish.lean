import GraphZero.Checkpoints.References
import GraphZero.Foundation.BigEndian

/-!
# Publishing, promoting and resolving checkpoints

`DirectorySource` follows a pointer to a version directory and accepts it only
when the weights and the model version agree with the manifest.  Publishing and
promoting are given by the calls that they make; each pointer write is completed
by its rename, and `PlannedStep.completes` says which pointer that is.
-/

namespace GraphZero.Checkpoints

open GraphZero.Foundation

/-- BLAKE2b with 32 bytes of digest, and the bytes that are on disk for a file's
contents. -/
structure Hashing where
  blake2b : Bytes → Bytes
  serialized : Contents → Bytes
  length_blake2b : ∀ bytes, (blake2b bytes).length = 32
  serialized_data : ∀ bytes, serialized (.data bytes) = bytes

/-- `_update_chunk`: the length in eight little-endian bytes, then the value. -/
def chunk (value : Bytes) : Bytes :=
  (toBeBytes 8 value.length).reverse ++ value

def modelVersionDomain : Bytes :=
  "gz-model-version-v1".toList.map fun c => UInt8.ofNat c.toNat

def Hashing.modelVersion (hashing : Hashing)
    (archConfigHash featureSchemaHash weightsHash : Bytes) : ModelVersion :=
  ⟨(hashing.blake2b (chunk modelVersionDomain ++ chunk archConfigHash ++
      chunk featureSchemaHash ++ chunk weightsHash)).take 16, by
    rw [List.length_take, hashing.length_blake2b]
    rfl⟩

/-- Why `DirectorySource` raises. -/
inductive ReadError where
  | missingPointer
  | invalidPointer
  | fieldsMismatch
  | badVersionDir
  | badModelVersion
  | missingManifest
  | badManifest (error : ManifestError)
  | missingWeights
  | weightsLengthMismatch
  | weightsHashMismatch
  | modelVersionMismatch
  deriving DecidableEq

/-- `ResolvedCheckpoint`; `versionDir` is where its weights lie. -/
structure ResolvedCheckpoint where
  manifest : CheckpointManifest
  versionDir : FileName
  deriving DecidableEq

section Reader

variable (hashing : Hashing) (root : Root)

def resolveVersion (versionDir : FileName) : Except ReadError ResolvedCheckpoint :=
  match Root.fileIn root versionDir manifestFileName with
  | none => throw .missingManifest
  | some file =>
    match CheckpointManifest.read file.contents with
    | .error error => throw (.badManifest error)
    | .ok manifest =>
      match Root.fileIn root versionDir manifest.weights.filename with
      | none => throw .missingWeights
      | some weights =>
        let bytes := hashing.serialized weights.contents
        let digest := hashing.blake2b bytes
        if (bytes.length : Int) ≠ manifest.weights.bytes then
          throw .weightsLengthMismatch
        else if hex digest ≠ manifest.weights.blake2b256 then
          throw .weightsHashMismatch
        else if hashing.modelVersion ((fromHex manifest.archConfigHash).getD [])
            manifest.featureSchemaHash digest ≠ manifest.modelVersion then
          throw .modelVersionMismatch
        else
          .ok ⟨manifest, versionDir⟩

def resolveLatest (pointer : FileName) : Except ReadError ResolvedCheckpoint :=
  match root.get? pointer with
  | none => throw .missingPointer
  | some (.file file) =>
    match file.contents with
    | .data _ => throw .invalidPointer
    | .json | .manifest _ => throw .fieldsMismatch
    | .pointer document =>
      match document.versionDir with
      | none => throw .badVersionDir
      | some versionDir =>
        if '/' ∈ versionDir ∨ versionDir = [] then
          throw .badVersionDir
        else
          match document.modelVersion with
          | none => throw .badModelVersion
          | some text =>
            if text.length ≠ 32 then
              throw .badModelVersion
            else
              match resolveVersion hashing root versionDir with
              | .error error => .error error
              | .ok resolved =>
                if resolved.manifest.modelVersion.hex ≠ text then
                  throw .modelVersionMismatch
                else
                  .ok resolved
  | some _ => throw .invalidPointer

end Reader

/-! ### The writers -/

/-- A call, and the pointer write that is complete once it has returned. -/
structure PlannedStep where
  call : FsStep
  completes : Option (FileName × FileName × CheckpointManifest) := none

def plain (calls : List FsStep) : List PlannedStep :=
  calls.map fun call => { call }

/-- `Path(name).name == name`, for names without NUL. -/
def isFileName (name : FileName) : Bool :=
  !name.contains '/' && !name.contains '\x00' && name != ".".toList

/-- `_write_checkpoint_pointer`.  The empty name and `..` pass its check, but
they name directories, and the rename onto one raises. -/
def pointerSteps (name versionDir : FileName) (manifest : CheckpointManifest) : List PlannedStep :=
  if isFileName name then
    plain [.write (tmpName name) (.pointer ⟨some versionDir, some manifest.modelVersion.hex⟩),
      .fsyncFile (tmpName name)] ++
    if name = [] ∨ name = "..".toList then
      plain [.refuse]
    else
      { call := .replace (tmpName name) name
        completes := some (name, versionDir, manifest) } ::
      plain [.fsyncDir]
  else
    plain [.refuse]

/-- The arguments of `publish_checkpoint` that reach the disk. -/
structure Publication where
  /-- What `save_state_dict` writes. -/
  weights : Bytes
  archConfigHash : Bytes
  featureSchemaHash : Bytes
  trainingStep : Int
  runId : List Char
  checkpointPointers : List FileName

def weightsFileName : FileName := "model.safetensors".toList

def latestName : FileName := "latest.json".toList

def Publication.manifest (hashing : Hashing) (publication : Publication) : CheckpointManifest where
  modelVersion := hashing.modelVersion publication.archConfigHash
    publication.featureSchemaHash (hashing.blake2b publication.weights)
  archConfigHash := hex publication.archConfigHash
  featureSchemaHash := publication.featureSchemaHash
  trainingStep := publication.trainingStep
  runId := publication.runId
  weights :=
    { filename := weightsFileName
      bytes := publication.weights.length
      blake2b256 := hex (hashing.blake2b publication.weights) }

/-- The pointers that a publication writes, in order. -/
def Publication.pointers (publication : Publication) : List FileName :=
  publication.checkpointPointers ++ [latestName]

section Writers

variable (hashing : Hashing) (digits : DigitTable) (order : IterationOrder FileName) (root : Root)

/-- The index that `_next_version_dir` finds; `none` is a `ValueError` of
`int`. -/
def nextVersionIndex : Option Nat :=
  (order.visit root.keys).foldlM (fun next name =>
    if !Root.isDir root name || !"version_".toList.isPrefixOf name ||
        ".tmp".toList.isSuffixOf name then
      some next
    else
      let suffix := removePrefix "version_".toList name
      if digits.isdigit suffix then
        (digits.int suffix).map fun index => max next (index + 1)
      else
        some next) 0

/-- Writing a new version directory and moving it into place. -/
def versionSteps (publication : Publication) (final : FileName) : List FsStep :=
  [.mkdir (tmpName final), .writeIn (tmpName final) weightsFileName (.data publication.weights),
    .fsyncFileIn (tmpName final) weightsFileName,
    .writeIn (tmpName final) manifestFileName (.manifest (publication.manifest hashing)),
    .fsyncFileIn (tmpName final) manifestFileName,
    .replace (tmpName final) final,
    .fsyncDir]

/-- The removal of what an interrupted publication left behind. -/
def clearTmpSteps (final : FileName) : List FsStep :=
  if root.contains (tmpName final) then
    rmtreeSteps order (tmpName final) (root.get? (tmpName final))
  else []

/-- `publish_checkpoint`. -/
def publishSteps (publication : Publication) : List PlannedStep :=
  match nextVersionIndex digits order root with
  | none => plain [.refuse]
  | some index =>
    plain (clearTmpSteps order root (versionName index)) ++
      plain (versionSteps hashing publication (versionName index)) ++
      publication.pointers.flatMap fun name =>
        pointerSteps name (versionName index) (publication.manifest hashing)

/-- The loop of `promote_checkpoint_pointer` over the listed names. -/
def findVersion (modelVersionHex : List Char) :
    List FileName → Except ManifestError (Option (FileName × CheckpointManifest))
  | [] => .ok none
  | name :: names =>
    if !Root.isDir root name || !"version_".toList.isPrefixOf name then
      findVersion modelVersionHex names
    else
      match Root.fileIn root name manifestFileName with
      | none => findVersion modelVersionHex names
      | some file =>
        match CheckpointManifest.read file.contents with
        | .error error => .error error
        | .ok manifest =>
          if manifest.modelVersion.hex = modelVersionHex then
            .ok (some (name, manifest))
          else
            findVersion modelVersionHex names

/-- `promote_checkpoint_pointer`. -/
def promoteSteps (name : FileName) (modelVersionHex : List Char) : List PlannedStep :=
  match findVersion root modelVersionHex (order.visit root.keys) with
  | .ok (some (versionDir, manifest)) => pointerSteps name versionDir manifest
  | _ => plain [.refuse]

/-- `ensure_checkpoint_pointer`. -/
def ensureSteps (name : FileName) : List PlannedStep :=
  if Root.isFile root name then []
  else
    match resolveLatest hashing root latestName with
    | .ok resolved => promoteSteps order root name resolved.manifest.modelVersion.hex
    | .error _ => plain [.refuse]

/-- `prune_checkpoints`, as the calls it makes. -/
def pruneCalls (retain : Int) (requested : List (List Char)) : List PlannedStep :=
  if retain < 0 then plain [.refuse]
  else if retain = 0 then []
  else
    match prunePlan digits order root retain.toNat requested with
    | .error _ => plain [.refuse]
    | .ok removals => plain (pruneSteps digits order root removals)

end Writers

/-- The operations on a checkpoint directory. -/
inductive Operation where
  | publish (publication : Publication)
  | promote (name : FileName) (modelVersionHex : List Char)
  | ensure (name : FileName)
  | prune (retain : Int) (protectedModelVersions : List (List Char))

/-- The calls of an operation that finds the directory `root`. -/
def Operation.steps (hashing : Hashing) (digits : DigitTable) (order : IterationOrder FileName)
    (root : Root) : Operation → List PlannedStep
  | .publish publication => publishSteps hashing digits order root publication
  | .promote name version => promoteSteps order root name version
  | .ensure name => ensureSteps hashing order root name
  | .prune retain requested => pruneCalls digits order root retain requested

/-- Arguments whose manifest its own reader accepts. -/
structure Publication.Readable (publication : Publication) : Prop where
  step : 0 ≤ publication.trainingStep
  run : publication.runId ≠ []
  archConfig : publication.archConfigHash.length = 32
  weights : publication.weights ≠ []

theorem length_hex (bytes : Bytes) : (hex bytes).length = 2 * bytes.length := by
  induction bytes with
  | nil => rfl
  | cons byte bytes ih =>
    have text : hex (byte :: bytes) =
        (byte.toNat / 16).digitChar :: (byte.toNat % 16).digitChar :: hex bytes := rfl
    rw [text, List.length_cons, List.length_cons, ih, List.length_cons]
    omega

theorem isHexField_hex {bytes length} (sized : bytes.length = length) :
    isHexField (hex bytes) length = true := by
  simp [isHexField, length_hex, sized, Nat.mul_comm]

theorem Publication.Readable.fromDict {publication : Publication}
    (readable : publication.Readable) (hashing : Hashing) :
    (publication.manifest hashing).fromDict = .ok (publication.manifest hashing) := by
  have size : ¬((publication.weights.length : Int) ≤ 0) := by
    have pos := List.length_pos_iff.mpr readable.weights
    omega
  have name : ¬('/' ∈ weightsFileName ∨
      weightsFileName ∈ [[], ".".toList, "..".toList]) := by decide
  have step : ¬publication.trainingStep < 0 := by
    have nonnegative := readable.step
    omega
  simp only [CheckpointManifest.fromDict, Publication.manifest, step, readable.run,
    isHexField_hex readable.archConfig,
    isHexField_hex (hashing.length_blake2b publication.weights), name, size,
    not_true_eq_false, if_false]
  rfl

/-- A version directory that holds what a publication wrote, flushed. -/
def HoldsPublication (hashing : Hashing) (files : Table FileName File)
    (manifest : CheckpointManifest) : Prop :=
  ∃ publication : Publication, publication.Readable ∧ publication.manifest hashing = manifest ∧
    files.get? manifestFileName = some ⟨.manifest manifest, true⟩ ∧
    files.get? weightsFileName = some ⟨.data publication.weights, true⟩

theorem HoldsPublication.resolveVersion_eq {hashing : Hashing} {files manifest}
    (holds : HoldsPublication hashing files manifest) {root versionDir}
    (found : root.get? versionDir = some (.directory files)) :
    resolveVersion hashing root versionDir = .ok ⟨manifest, versionDir⟩ := by
  obtain ⟨publication, readable, rfl, manifestFile, weightsFile⟩ := holds
  have manifestIn : Root.fileIn root versionDir manifestFileName =
      some ⟨.manifest (publication.manifest hashing), true⟩ := by
    simp only [Root.fileIn, found, manifestFile]
  have weightsIn : Root.fileIn root versionDir (publication.manifest hashing).weights.filename =
        some ⟨.data publication.weights, true⟩ := by
    simp only [Root.fileIn, found]
    exact weightsFile
  have read : CheckpointManifest.read (.manifest (publication.manifest hashing)) =
        .ok (publication.manifest hashing) := readable.fromDict hashing
  simp only [resolveVersion, manifestIn, read, weightsIn, hashing.serialized_data]
  simp [Publication.manifest]

end GraphZero.Checkpoints
