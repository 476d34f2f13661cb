import GraphZero.Checkpoints.Names
import GraphZero.Foundation.Table

/-!
# Checkpoint directories and the steps that change them

A directory maps names to files and to checkpoint directories, which hold files
only.  A file's contents are modelled by what its readers make of them, and
`synced` says whether its bytes have been flushed since they were written.

A file-system call that raises leaves the directory as it was.  `execute` runs
a list of calls up to the first that raises; a crash is a prefix of such a list.
-/

namespace GraphZero.Checkpoints

open GraphZero.Foundation

abbrev Bytes := List UInt8

/-- Two lower-case digits for each byte. -/
def hex (bytes : Bytes) : List Char :=
  bytes.flatMap fun byte =>
    [(byte.toNat / 16).digitChar, (byte.toNat % 16).digitChar]

def hexDigit? (c : Char) : Option Nat :=
  if c.isDigit then some (c.toNat - '0'.toNat)
  else if 'a' ≤ c ∧ c ≤ 'f' then some (c.toNat - 'a'.toNat + 10)
  else if 'A' ≤ c ∧ c ≤ 'F' then some (c.toNat - 'A'.toNat + 10)
  else none

/-- Space, `\t`, `\n`, `\v`, `\f` and `\r`. -/
def isSpace (c : Char) : Bool :=
  c == ' ' || (9 ≤ c.toNat && c.toNat ≤ 13)

/-- `bytes.fromhex`, which skips ASCII white space between bytes. -/
def fromHex : List Char → Option Bytes
  | [] => some []
  | [c] => if isSpace c then some [] else none
  | c :: d :: rest =>
    if isSpace c then
      fromHex (d :: rest)
    else do
      let high ← hexDigit? c
      let low ← hexDigit? d
      let bytes ← fromHex rest
      some (UInt8.ofNat (16 * high + low) :: bytes)

abbrev ModelVersion := { bytes : Bytes // bytes.length = 16 }

def ModelVersion.hex (version : ModelVersion) : List Char :=
  Checkpoints.hex version.val

/-- `WeightsInfo`; its format is always `safetensors`. -/
structure WeightsInfo where
  filename : FileName
  bytes : Int
  blake2b256 : List Char
  deriving DecidableEq

/-- `CheckpointManifest`, as far as its readers compare it with the disk. -/
structure CheckpointManifest where
  modelVersion : ModelVersion
  archConfigHash : List Char
  featureSchemaHash : Bytes
  trainingStep : Int
  runId : List Char
  weights : WeightsInfo
  deriving DecidableEq

/-- A JSON object with the two fields of a pointer; `none` is a value that is
not a string. -/
structure PointerDocument where
  versionDir : Option FileName
  modelVersion : Option (List Char)
  deriving DecidableEq

inductive Contents where
  | pointer (document : PointerDocument)
  | manifest (document : CheckpointManifest)
  /-- Any other JSON document. -/
  | json
  /-- No JSON text. -/
  | data (bytes : Bytes)
  deriving DecidableEq

structure File where
  contents : Contents
  synced : Bool

inductive Node where
  | file (file : File)
  | directory (files : Table FileName File)
  /-- Neither a regular file nor a directory. -/
  | other

abbrev Root := Table FileName Node

namespace Root

variable (root : Root)

def isDir (name : FileName) : Bool :=
  match root.get? name with
  | some (.directory _) => true
  | _ => false

def isFile (name : FileName) : Bool :=
  match root.get? name with
  | some (.file _) => true
  | _ => false

def fileIn (directory name : FileName) : Option File :=
  match root.get? directory with
  | some (.directory files) => files.get? name
  | _ => none

variable {root}

theorem isDir_iff {name} : Root.isDir root name = true ↔
      ∃ files, root.get? name = some (.directory files) := by
  unfold Root.isDir
  split
  next files found => simp [found]
  next absent =>
  simp only [Bool.false_eq_true, false_iff, not_exists]
  exact absent

theorem isFile_iff {name} :
    Root.isFile root name = true ↔ ∃ file, root.get? name = some (.file file) := by
  unfold Root.isFile
  split
  next file found => simp [found]
  next absent =>
  simp only [Bool.false_eq_true, false_iff, not_exists]
  exact absent

end Root

inductive FsStep where
  | mkdir (name : FileName)
  | write (name : FileName) (contents : Contents)
  | writeIn (directory name : FileName) (contents : Contents)
  | fsyncFile (name : FileName)
  | fsyncFileIn (directory name : FileName)
  | fsyncDir
  | replace (source target : FileName)
  | unlink (name : FileName)
  | unlinkIn (directory name : FileName)
  | rmdir (name : FileName)
  /-- The code raises before it reaches its next call. -/
  | refuse
  deriving DecidableEq

namespace FsStep

/-- `os.replace`: a file may take the place of a file and a directory that of an
empty directory. -/
def mayReplace : Node → Option Node → Bool
  | .directory _, none => true
  | .directory _, some (.directory files) => files.keys.isEmpty
  | .directory _, some _ => false
  | _, some (.directory _) => false
  | _, _ => true

/-- The directory after the call; `none` is an `OSError`. -/
def apply (root : Root) : FsStep → Option Root
  | .mkdir name => if root.contains name then none else some (root.insert name (.directory ∅))
  | .write name contents =>
    match root.get? name with
    | none | some (.file _) => some (root.insert name (.file ⟨contents, false⟩))
    | _ => none
  | .writeIn directory name contents =>
    match root.get? directory with
    | some (.directory files) =>
      some (root.insert directory (.directory (files.insert name ⟨contents, false⟩)))
    | _ => none
  | .fsyncFile name =>
    match root.get? name with
    | some (.file file) => some (root.insert name (.file { file with synced := true }))
    | some _ => some root
    | none => none
  | .fsyncFileIn directory name =>
    match root.get? directory with
    | some (.directory files) =>
      (files.get? name).map fun file =>
        root.insert directory (.directory (files.insert name { file with synced := true }))
    | _ => none
  | .fsyncDir => some root
  | .replace source target =>
    match root.get? source with
    | some node =>
      if mayReplace node (root.get? target) then
        some ((root.erase source).insert target node)
      else none
    | none => none
  | .unlink name =>
    match root.get? name with
    | some (.file _) | some .other => some (root.erase name)
    | _ => none
  | .unlinkIn directory name =>
    match root.get? directory with
    | some (.directory files) =>
      if files.contains name then
        some (root.insert directory (.directory (files.erase name)))
      else none
    | _ => none
  | .rmdir name =>
    match root.get? name with
    | some (.directory files) => if files.keys.isEmpty then some (root.erase name) else none
    | _ => none
  | .refuse => none

end FsStep

/-- Runs the calls in order; `false` when one of them raised. -/
def execute (root : Root) : List FsStep → Root × Bool
  | [] => (root, true)
  | step :: rest =>
    match step.apply root with
    | some next => execute next rest
    | none => (root, false)

@[simp]
theorem execute_nil (root : Root) : execute root [] = (root, true) := rfl

variable {root : Root}

theorem execute_cons {next step rest} (applied : step.apply root = some next) :
    execute root (step :: rest) = execute next rest := by
  simp only [execute, applied]

theorem execute_append {next first second} (finished : execute root first = (next, true)) :
    execute root (first ++ second) = execute next second := by
  induction first generalizing root with
  | nil =>
    obtain ⟨rfl, _⟩ := Prod.mk.inj finished
    rfl
  | cons step first ih =>
    simp only [execute, List.cons_append] at finished ⊢
    cases applied : step.apply root with
    | none => simp [applied] at finished
    | some mid =>
      rw [applied] at finished
      exact ih finished

/-- The calls of `rmtree` that empty the directory `name`. -/
def unlinkSteps (order : IterationOrder FileName) (name : FileName)
    (files : Table FileName File) : List FsStep :=
  (order.visit files.keys).map (.unlinkIn name)

/-- `shutil.rmtree` of what `node` says is at `name`. -/
def rmtreeSteps (order : IterationOrder FileName) (name : FileName) (node : Option Node) :
    List FsStep :=
  match node with
  | some (.directory files) => unlinkSteps order name files ++ [.rmdir name]
  | _ => [.rmdir name]

theorem execute_unlinkIn {name files} {listed : List FileName}
    (found : root.get? name = some (.directory files)) (distinct : listed.Nodup)
    (present : ∀ file ∈ listed, file ∈ files.keys) :
    ∃ after, execute root (listed.map (.unlinkIn name)) = (after, true) ∧
      (∀ other, other ≠ name → after.get? other = root.get? other) ∧
      ∃ left, after.get? name = some (.directory left) ∧
        ∀ file, file ∈ left.keys ↔ file ∈ files.keys ∧ file ∉ listed := by
  induction listed generalizing root files with
  | nil => exact ⟨root, rfl, fun _ _ => rfl, files, found, by simp⟩
  | cons first listed ih =>
    obtain ⟨fresh, distinct⟩ := List.nodup_cons.mp distinct
    have holds : files.contains first = true :=
      Table.contains_iff.mpr (present first List.mem_cons_self)
    have applied : (FsStep.unlinkIn name first).apply root =
        some (root.insert name (.directory (files.erase first))) := by
      simp only [FsStep.apply, found, if_pos holds]
    have stays : ∀ file ∈ listed, file ∈ (files.erase first).keys := by
      intro file member
      refine Table.mem_keys_erase.mpr ⟨present file (List.mem_cons_of_mem _ member), ?_⟩
      rintro rfl
      exact fresh member
    obtain ⟨after, done, others, left, there, keys⟩ :=
      ih (Table.get?_insert_self _ _ _) distinct stays
    refine ⟨after, by rw [List.map_cons, execute_cons applied, done], ?_, left,
      there, ?_⟩
    · intro other different
      rw [others other different, Table.get?_insert_of_ne different]
    · intro file
      rw [keys, Table.mem_keys_erase, List.mem_cons]
      tauto

theorem execute_rmtreeSteps (order : IterationOrder FileName) {name files}
    (found : root.get? name = some (.directory files)) :
    ∃ after, execute root (unlinkSteps order name files ++ [.rmdir name]) = (after, true) ∧
      ∀ other, after.get? other = if other = name then none else root.get? other := by
  obtain ⟨emptied, done, others, left, there, keys⟩ :=
    execute_unlinkIn found (order.nodup_visit files.nodup_keys)
      (fun file member => order.mem_visit.mp member)
  have bare : left.keys.isEmpty = true := by
    rw [List.isEmpty_iff, List.eq_nil_iff_forall_not_mem]
    intro file member
    have both := (keys file).mp member
    exact both.2 (order.mem_visit.mpr both.1)
  have removed : (FsStep.rmdir name).apply emptied = some (emptied.erase name) := by
    simp only [FsStep.apply, there, if_pos bare]
  refine ⟨emptied.erase name, ?_, ?_⟩
  · rw [unlinkSteps, execute_append done, execute_cons removed, execute_nil]
  · intro other
    rw [Table.get?_erase]
    by_cases same : other = name
    · rw [if_pos same, if_pos same]
    · rw [if_neg same, if_neg same, others other same]

end GraphZero.Checkpoints
