import GraphZero.Checkpoints.Publish
import GraphZero.Foundation.Transition

/-!
# Operations, crashes and power losses

Operations run one after the other, call by call.  A process may die between any
two calls.  A power loss does more: directory operations reach the disk in
order, so the directory falls back to some state since its last `fsync`, and a
file whose bytes were not flushed may hold anything.  The names inside a version
directory are not covered by any `fsync` of that directory, so they may be lost
as well.

`written` records, for each pointer, the checkpoint of the last write whose
rename took place; it is no part of the disk.
-/

namespace GraphZero.Checkpoints

open GraphZero.Foundation

/-- What each pointer was last made to refer to. -/
abbrev Written := Table FileName (FileName × CheckpointManifest)

structure Snapshot where
  root : Root
  written : Written

def PlannedStep.record (step : PlannedStep) (written : Written) : Written :=
  match step.completes with
  | none => written
  | some (name, target) => written.insert name target

structure World where
  current : Snapshot
  /-- The states since the last `fsync` of the directory. -/
  earlier : List Snapshot
  /-- What is left of the running operation. -/
  pending : List PlannedStep

inductive Label where
  | start (order : IterationOrder FileName) (operation : Operation)
  | call
  | die
  /-- The disk keeps the state `kept` steps back, as it finds `after`. -/
  | powerLoss (kept : Nat) (after : Root)

/-- The root directory is there, empty and durable. -/
def World.initial : World :=
  ⟨⟨∅, ∅⟩, [], []⟩

section Model

variable (hashing : Hashing) (digits : DigitTable)

/-- The steps of the processes; a call that raises ends its operation. -/
def World.next? (world : World) : Label → Option World
  | .start order operation =>
    if world.pending.isEmpty then
      some { world with
        pending := operation.steps hashing digits order world.current.root }
    else none
  | .call =>
    match world.pending with
    | [] => none
    | step :: rest =>
      match step.call.apply world.current.root with
      | none => some { world with pending := [] }
      | some root => some {
          current := ⟨root, step.record world.current.written⟩
          earlier :=
            if step.call = .fsyncDir then [] else world.current :: world.earlier
          pending := rest }
  | .die => some { world with pending := [] }
  | .powerLoss _ _ => none

/-- What a power loss may make of one entry. -/
def TornNode : Option Node → Option Node → Prop
  | none, after => after = none
  | some (.file file), after =>
    ∃ found, after = some (.file found) ∧ (file.synced = true → found = file)
  | some (.directory files), after =>
    ∃ found, after = some (.directory found) ∧ ∀ name,
        match files.get? name with
        | none => found.get? name = none
        | some file => file.synced = true →
            found.get? name = some file ∨ found.get? name = none
  | some .other, after => after = some .other

def Torn (before after : Root) : Prop :=
  ∀ name, TornNode (before.get? name) (after.get? name)

/-- The power loss drops no name of a flushed file from a version directory. -/
def KeepsEntries (before after : Root) : Prop :=
  ∀ directory files found,
    before.get? directory = some (.directory files) →
    after.get? directory = some (.directory found) →
    ∀ name file, files.get? name = some file → file.synced = true → found.get? name ≠ none

def World.Step (world : World) (label : Label) (next : World) : Prop :=
  match label with
  | .powerLoss kept after =>
    ∃ snapshot, (world.current :: world.earlier)[kept]? = some snapshot ∧
      Torn snapshot.root after ∧ next = ⟨⟨after, snapshot.written⟩, [], []⟩
  | label => world.next? hashing digits label = some next

def checkpointSystem : TransitionSystem World Label where
  initial world := world = World.initial
  step := World.Step hashing digits

/-- `version_<digits>.tmp`. -/
def isTmpName (name : FileName) : Bool :=
  ".tmp".toList.isSuffixOf name && isGenerationName digits (removeSuffix ".tmp".toList name)

/-- A directory that an interrupted operation left behind. -/
def isLeftoverDir (root : Root) (name : FileName) : Bool :=
  Root.isDir root name && (isTmpName digits name || isTombstoneName digits name)

/-- `directory` holds a readable manifest of the model version. -/
def HoldsVersion (root : Root) (directory : FileName) (version : List Char) : Prop :=
  ∃ file manifest, Root.fileIn root directory manifestFileName = some file ∧
    CheckpointManifest.read file.contents = .ok manifest ∧
    manifest.modelVersion.hex = version

/-- A temporary `version_` directory of the model version is listed only after
a generation of that version. -/
def TemporariesLater (order : IterationOrder FileName) (root : Root) (version : List Char) : Prop :=
  ∀ front directory back,
    order.visit root.keys = front ++ directory :: back →
    Root.isDir root directory = true → "version_".toList.isPrefixOf directory = true →
    isGenerationName digits directory = false → HoldsVersion root directory version →
    ∃ generation ∈ front, Root.isDir root generation = true ∧
      isGenerationName digits generation = true ∧
      HoldsVersion root generation version

/-- None of the pointers to write has a temporary file whose name is that of a
pointer. -/
structure WritesClear (written : Written) (names : List FileName) : Prop where
  pointers : ∀ name ∈ names, written.get? (tmpName name) = none
  sequence : names.Pairwise fun first second => first ≠ tmpName second

/-- No pointer to write collides with a leftover directory. -/
def AvoidsLeftovers (root : Root) (names : List FileName) : Prop :=
  ∀ name ∈ names, isLeftoverDir digits root name = false ∧
    isLeftoverDir digits root (tmpName name) = false

/-- The publications that write readable manifests under harmless names. -/
structure CarefulPublication (snapshot : Snapshot) (publication : Publication) : Prop where
  readable : publication.Readable
  clear : WritesClear snapshot.written publication.pointers
  avoids : AvoidsLeftovers digits snapshot.root publication.pointers

/-- The pointers that were written are read by the prune, or refer to
generations that are kept anyway. -/
def CarefulPrune (order : IterationOrder FileName) (snapshot : Snapshot)
    (retain : Int) (requested : List (List Char)) : Prop :=
  ∀ versions, Accepts digits order snapshot.root retain requested versions →
    ∀ pointer directory manifest,
      snapshot.written.get? pointer = some (directory, manifest) →
      isTombstoneName digits pointer = false ∧ (isRecognisedPointer digits pointer = true ∨
          ∀ generation ∈ versions, generation.name = directory →
            Recognised digits snapshot.root generation ∨ generation ∈ newest retain.toNat versions ∨
              generation.manifest.modelVersion.hex ∈ requested)

/-- The condition on each step under which nothing goes wrong. -/
def Careful (world : World) : Label → Prop
  | .start _ (.publish publication) => CarefulPublication digits world.current publication
  | .start order (.promote name version) =>
    world.current.written.get? (tmpName name) = none ∧
      TemporariesLater digits order world.current.root version
  | .start order (.ensure name) =>
    world.current.written.get? (tmpName name) = none ∧ ∀ resolved,
        resolveLatest hashing world.current.root latestName = .ok resolved →
        TemporariesLater digits order world.current.root resolved.manifest.modelVersion.hex
  | .start order (.prune retain requested) =>
    CarefulPrune digits order world.current retain requested
  | .powerLoss kept after =>
    ∀ snapshot, (world.current :: world.earlier)[kept]? = some snapshot →
      KeepsEntries snapshot.root after
  | .call | .die => True

end Model

end GraphZero.Checkpoints
