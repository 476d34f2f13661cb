import GraphZero.Checkpoints.Directory
import Mathlib.Data.Char

/-!
# Pruning a checkpoint directory

`prune_checkpoints` reads every generation and every pointer whose name it
knows, and only then starts to delete.  A generation is deleted in two moves: it
is renamed to a tombstone, and the tombstone is removed; tombstones that an
earlier run left behind are swept first.
-/

namespace GraphZero.Checkpoints

open GraphZero.Foundation List

/-- Why `CheckpointManifest.read` refuses a file. -/
inductive ManifestError where
  | invalidJson
  | fieldsMismatch
  | negativeTrainingStep
  | emptyRunId
  | badArchConfigHash
  | badWeightsFilename
  | weightsBytesNotPositive
  | badWeightsHash
  deriving DecidableEq

def isHexField (text : List Char) (byteLen : Nat) : Bool :=
  text.length == byteLen * 2 && (fromHex text).isSome

/-- `CheckpointManifest.from_dict` on a document with the right fields. -/
def CheckpointManifest.fromDict (document : CheckpointManifest) :
    Except ManifestError CheckpointManifest := do
  if document.trainingStep < 0 then throw .negativeTrainingStep
  if document.runId = [] then throw .emptyRunId
  if ¬isHexField document.archConfigHash 32 then throw .badArchConfigHash
  if '/' ∈ document.weights.filename ∨
      document.weights.filename ∈ [[], ".".toList, "..".toList] then
    throw .badWeightsFilename
  if document.weights.bytes ≤ 0 then throw .weightsBytesNotPositive
  if ¬isHexField document.weights.blake2b256 32 then throw .badWeightsHash
  return document

def CheckpointManifest.read : Contents → Except ManifestError CheckpointManifest
  | .manifest document => document.fromDict
  | .pointer _ | .json => throw .fieldsMismatch
  | .data _ => throw .invalidJson

/-! ### What prune reads -/

/-- Why `prune_checkpoints` raises. -/
inductive PruneError where
  | negativeRetention
  | missingManifest (directory : FileName)
  /-- `int(suffix)`: a digit that is not decimal. -/
  | badIndex (directory : FileName)
  | badManifest (error : ManifestError)
  | invalidPointer (name : FileName)
  | pointerFieldsMismatch (name : FileName)
  | missingCheckpoint (name : FileName)
  | badModelVersion (name : FileName)
  | modelVersionMismatch (name : FileName)
  | protectedNotFound (missing : List (List Char))
  | os
  deriving DecidableEq

/-- One entry of `versions`. -/
structure Generation where
  index : Nat
  name : FileName
  manifest : CheckpointManifest
  deriving DecidableEq

def manifestFileName : FileName := "manifest.json".toList

section Plan

variable (digits : DigitTable) (order : IterationOrder FileName) (root : Root)

def generationNames : List FileName :=
  (order.visit root.keys).filter fun name =>
    Root.isDir root name && isGenerationName digits name

def readGeneration (name : FileName) : Except PruneError Generation :=
  match Root.fileIn root name manifestFileName with
  | none => throw (.missingManifest name)
  | some file =>
    match digits.int (removePrefix "version_".toList name) with
    | none => throw (.badIndex name)
    | some index =>
      match CheckpointManifest.read file.contents with
      | .error error => throw (.badManifest error)
      | .ok manifest => .ok ⟨index, name, manifest⟩

/-- `versions`, oldest first. -/
def readGenerations : Except PruneError (List Generation) := do
  let versions ← (generationNames digits order root).mapM (readGeneration digits root)
  return versions.insertionSort fun first second => first.index ≤ second.index

/-- `versions[-retain:]`. -/
def newest (retain : Nat) (versions : List Generation) : List Generation :=
  versions.drop (versions.length - retain)

/-- `by_dir.get(directory)`. -/
def manifestOf (versions : List Generation) (directory : FileName) : Option CheckpointManifest :=
  (versions.find? (·.name = directory)).map Generation.manifest

def checkpointPointerTarget (versions : List Generation) (name : FileName) :
    Except PruneError (Option FileName) :=
  match root.get? name with
  | none => .ok none
  | some (.file file) =>
    match file.contents with
    | .data _ => throw (.invalidPointer name)
    | .json | .manifest _ => throw (.pointerFieldsMismatch name)
    | .pointer document =>
      match document.versionDir with
      | none => throw (.missingCheckpoint name)
      | some directory =>
        match manifestOf versions directory with
        | none => throw (.missingCheckpoint name)
        | some manifest =>
          match document.modelVersion with
          | none => throw (.badModelVersion name)
          | some text =>
            if (fromHex text).map List.length ≠ some 16 then
              throw (.badModelVersion name)
            else if manifest.modelVersion.hex ≠ text then
              throw (.modelVersionMismatch name)
            else
              .ok (some directory)
  | some _ => throw (.invalidPointer name)

def pointerNames : List FileName :=
  namedPointers ++ ((order.visit root.keys).filter fun name =>
      Root.isFile root name && isPermanentCheckpointPointer digits name).insertionSort (· ≤ ·)

/-- The generations that the pointers it knows refer to. -/
def referencedDirs (versions : List Generation) : Except PruneError (List FileName) := do
  let targets ← (pointerNames digits order root).mapM (checkpointPointerTarget root versions)
  return targets.reduceOption

/-- A protected version that no generation has. -/
def missingVersions (requested : List (List Char)) (versions : List Generation) :
    List (List Char) :=
  requested.filter fun version =>
    versions.all fun generation => generation.manifest.modelVersion.hex ≠ version

def protectedDirs (retain : Nat) (requested : List (List Char))
    (versions : List Generation) (referenced : List FileName) : List FileName :=
  (newest retain versions).map Generation.name ++ referenced ++ (versions.filter fun generation =>
      requested.contains generation.manifest.modelVersion.hex).map Generation.name

/-- The generations to delete; nothing has been deleted yet when this raises. -/
def prunePlan (retain : Nat) (requested : List (List Char)) :
    Except PruneError (List FileName) := do
  let versions ← readGenerations digits order root
  let referenced ← referencedDirs digits order root versions
  if missingVersions requested versions ≠ [] then
    throw (.protectedNotFound ((missingVersions requested versions).dedup.insertionSort (· ≤ ·)))
  return (versions.map Generation.name).filter fun name =>
    !(protectedDirs retain requested versions referenced).contains name

def tombstoneNames : List FileName :=
  (order.visit root.keys).filter (isTombstoneName digits)

def removePruneTombstones : List FsStep :=
  (tombstoneNames digits order root).flatMap (fun name =>
      match root.get? name with
      | some (.directory files) => rmtreeSteps order name (some (.directory files))
      | _ => [.unlink name]) ++
    if tombstoneNames digits order root = [] then [] else [.fsyncDir]

/-- The renames and the removal of the generations to delete. -/
def removalSteps (removals : List FileName) : List FsStep :=
  if removals = [] then []
  else
    removals.map (fun name => .replace name (tombstoneName name)) ++ [.fsyncDir] ++
      removals.flatMap (fun name =>
        rmtreeSteps order (tombstoneName name) (root.get? name)) ++ [.fsyncDir]

def pruneSteps (removals : List FileName) : List FsStep :=
  removePruneTombstones digits order root ++ removalSteps order root removals

/-- `prune_checkpoints`: what it returns or raises, and the directory after it. -/
def pruneCheckpoints (retain : Int) (protectedModelVersions : List (List Char)) :
    Except PruneError (List FileName) × Root :=
  if retain < 0 then
    (throw .negativeRetention, root)
  else if retain = 0 then
    (.ok [], root)
  else
    match prunePlan digits order root retain.toNat protectedModelVersions with
    | .error error => (.error error, root)
    | .ok removals =>
      match execute root (pruneSteps digits order root removals) with
      | (after, true) => (.ok removals, after)
      | (after, false) => (.error .os, after)

end Plan

/-! ### What the deletion changes -/

section Deletion

variable (digits : DigitTable) (order : IterationOrder FileName) (root : Root)

theorem execute_sweep {α : Type} (items : List α) (key : α → FileName)
    (there : α → Option Node) (steps : α → List FsStep)
    (distinct : (items.map key).Nodup)
    (removes : ∀ item ∈ items, ∀ current : Root, current.get? (key item) = there item →
      ∃ after, execute current (steps item) = (after, true) ∧ ∀ other, after.get? other =
          if other = key item then none else current.get? other)
    (agrees : ∀ item ∈ items, root.get? (key item) = there item) :
    ∃ after, execute root (items.flatMap steps) = (after, true) ∧ ∀ other, after.get? other =
        if other ∈ items.map key then none else root.get? other := by
  induction items generalizing root with
  | nil => exact ⟨root, rfl, fun other => by simp⟩
  | cons item items ih =>
    rw [map_cons, nodup_cons] at distinct
    obtain ⟨mid, first, changed⟩ := removes item mem_cons_self root
      (agrees item mem_cons_self)
    have still : ∀ next ∈ items, mid.get? (key next) = there next := by
      intro next member
      rw [changed, if_neg]
      · exact agrees next (mem_cons_of_mem _ member)
      · intro same
        exact distinct.1 (same ▸ mem_map_of_mem member)
    obtain ⟨after, rest, swept⟩ := ih mid distinct.2
      (fun next member => removes next (mem_cons_of_mem _ member)) still
    refine ⟨after, ?_, ?_⟩
    · rw [flatMap_cons, execute_append first, rest]
    · intro other
      rw [swept, changed]
      by_cases same : other = key item
      · simp [same]
      · simp [same]

theorem execute_removePruneTombstones :
    ∃ after, execute root (removePruneTombstones digits order root) = (after, true) ∧
      ∀ name, after.get? name =
        if isTombstoneName digits name = true then none else root.get? name := by
  have distinct : ((tombstoneNames digits order root).map id).Nodup := by
    rw [map_id]
    exact (order.nodup_visit root.nodup_keys).filter _
  obtain ⟨swept, done, changed⟩ := execute_sweep root
    (tombstoneNames digits order root) id root.get?
    (fun name =>
      match root.get? name with
      | some (.directory files) => rmtreeSteps order name (some (.directory files))
      | _ => [.unlink name])
    distinct
    (by
      intro name member current same
      have listed : name ∈ root.keys := order.mem_visit.mp (mem_of_mem_filter member)
      obtain ⟨node, found⟩ := Table.mem_keys_iff.mp listed
      simp only [id, found] at same ⊢
      cases node with
      | directory files => exact execute_rmtreeSteps order same
      | file file | other =>
        refine ⟨current.erase name, ?_, current.get?_erase name⟩
        simp only [execute, FsStep.apply, same])
    (fun name _ => rfl)
  have all : ∀ name, swept.get? name =
      if isTombstoneName digits name = true then none else root.get? name := by
    intro name
    have listed : name ∈ (tombstoneNames digits order root).map id ↔
        name ∈ root.keys ∧ isTombstoneName digits name = true := by
      rw [map_id, tombstoneNames, mem_filter, order.mem_visit]
    rw [changed]
    by_cases tombstone : isTombstoneName digits name = true
    · by_cases present : name ∈ root.keys
      · rw [if_pos (listed.mpr ⟨present, tombstone⟩), if_pos tombstone]
      · rw [Table.get?_eq_none_iff.mpr present, ite_self, ite_self]
    · rw [if_neg (fun member => tombstone (listed.mp member).2), if_neg tombstone]
  refine ⟨swept, ?_, all⟩
  rw [removePruneTombstones, execute_append done]
  split
  · rfl
  · rfl

section

variable {removals : List FileName} (distinct : removals.Nodup)
  (directories : ∀ name ∈ removals, Root.isDir root name = true)
  (generations : ∀ name ∈ removals, isGenerationName digits name = true)
include distinct directories generations

theorem execute_renames (swept : ∀ name ∈ removals, root.get? (tombstoneName name) = none) :
    ∃ after,
      execute root (removals.map fun name => .replace name (tombstoneName name)) = (after, true) ∧
      (∀ name ∈ removals, after.get? (tombstoneName name) = root.get? name) ∧
      (∀ name ∈ removals, after.get? name = none) ∧
      ∀ other, other ∉ removals → other ∉ removals.map tombstoneName →
        after.get? other = root.get? other := by
  induction removals generalizing root with
  | nil => exact ⟨root, rfl, by simp, by simp, fun _ _ _ => rfl⟩
  | cons name removals ih =>
    obtain ⟨fresh, distinct⟩ := nodup_cons.mp distinct
    have tombstoned : ∀ first ∈ name :: removals, ∀ second ∈ name :: removals,
        tombstoneName first ≠ second := by
      intro first firstMember second secondMember same
      have tombstone := isTombstoneName_tombstoneName (generations first firstMember)
      have generation := isTombstoneName_of_isGenerationName (generations second secondMember)
      rw [same, generation] at tombstone
      cases tombstone
    have here : name ∈ name :: removals := mem_cons_self
    have there : ∀ other ∈ removals, other ∈ name :: removals :=
      fun other member => mem_cons_of_mem _ member
    obtain ⟨files, found⟩ := Root.isDir_iff.mp (directories name here)
    have applied : (FsStep.replace name (tombstoneName name)).apply root =
        some ((root.erase name).insert (tombstoneName name) (.directory files)) := by
      simp only [FsStep.apply, found, swept name here, FsStep.mayReplace, if_true]
    have moved : ∀ other, ((root.erase name).insert (tombstoneName name)
        (.directory files)).get? other = if other = tombstoneName name then some (.directory files)
          else if other = name then none else root.get? other := by
      intro other
      rw [Table.get?_insert, Table.get?_erase]
    have untouched : ∀ other ∈ removals, ((root.erase name).insert (tombstoneName name)
          (.directory files)).get? other = root.get? other := by
      intro other member
      rw [moved, if_neg (tombstoned name here other (there other member)).symm, if_neg]
      rintro rfl
      exact fresh member
    obtain ⟨after, done, targets, gone, others⟩ := ih
      ((root.erase name).insert (tombstoneName name) (.directory files)) distinct
      (fun other member => by
        obtain ⟨held, at_other⟩ := Root.isDir_iff.mp (directories other (there other member))
        exact Root.isDir_iff.mpr ⟨held, by rw [untouched other member, at_other]⟩)
      (fun other member => generations other (there other member))
      (fun other member => by
        rw [moved, if_neg, if_neg (tombstoned other (there other member) name here)]
        · exact swept other (there other member)
        · intro same
          rw [tombstoneName_injective same] at member
          exact fresh member)
    have elsewhere : name ∉ removals.map tombstoneName := by
      intro member
      obtain ⟨other, otherMember, same⟩ := mem_map.mp member
      exact tombstoned other (there other otherMember) name here same
    have tombstoneElsewhere : tombstoneName name ∉ removals.map tombstoneName := by
      intro member
      obtain ⟨other, otherMember, same⟩ := mem_map.mp member
      rw [tombstoneName_injective same] at otherMember
      exact fresh otherMember
    have notListed : tombstoneName name ∉ removals := fun member =>
      tombstoned name here _ (there _ member) rfl
    refine ⟨after, ?_, ?_, ?_, ?_⟩
    · rw [map_cons, execute_cons applied, done]
    · intro other member
      rcases mem_cons.mp member with rfl | member
      · rw [others _ notListed tombstoneElsewhere, moved, if_pos rfl, found]
      · rw [targets other member, untouched other member]
    · intro other member
      rcases mem_cons.mp member with rfl | member
      · rw [others _ fresh elsewhere, moved,
          if_neg (tombstoned other here other here).symm, if_pos rfl]
      · exact gone other member
    · intro other unlisted unmarked
      rw [mem_cons, not_or] at unlisted
      rw [map_cons, mem_cons, not_or] at unmarked
      rw [others other unlisted.2 unmarked.2, moved, if_neg unmarked.1, if_neg unlisted.1]

theorem execute_pruneSteps :
    ∃ after, execute root (pruneSteps digits order root removals) = (after, true) ∧
      ∀ name, after.get? name = if isTombstoneName digits name = true ∨ name ∈ removals then none
        else root.get? name := by
  obtain ⟨swept, sweeping, clean⟩ := execute_removePruneTombstones digits order root
  rw [pruneSteps, execute_append sweeping, removalSteps]
  by_cases nothing : removals = []
  · subst nothing
    refine ⟨swept, by simp, fun name => ?_⟩
    rw [clean]
    simp
  rw [if_neg nothing]
  have kept : ∀ name ∈ removals, swept.get? name = root.get? name := by
    intro name member
    rw [clean, isTombstoneName_of_isGenerationName (generations name member)]
    rfl
  obtain ⟨renamed, renames, targets, gone, others⟩ := execute_renames digits swept distinct
      (fun name member => by
        obtain ⟨files, found⟩ := Root.isDir_iff.mp (directories name member)
        exact Root.isDir_iff.mpr ⟨files, by rw [kept name member, found]⟩)
      generations
      (fun name member => by
        rw [clean, if_pos (isTombstoneName_tombstoneName (generations name member))])
  obtain ⟨after, removing, removed⟩ := execute_sweep renamed removals tombstoneName root.get?
    (fun name => rmtreeSteps order (tombstoneName name) (root.get? name))
    (List.Nodup.map (fun _ _ same => tombstoneName_injective same) distinct)
    (by
      intro name member current same
      obtain ⟨files, found⟩ := Root.isDir_iff.mp (directories name member)
      rw [found] at same ⊢
      exact execute_rmtreeSteps order same)
    (fun name member => by rw [targets name member, kept name member])
  refine ⟨after, ?_, ?_⟩
  · rw [append_assoc, append_assoc, execute_append renames]
    have flushed : FsStep.fsyncDir.apply renamed = some renamed := rfl
    rw [singleton_append, execute_cons flushed, execute_append removing]
    rfl
  · intro name
    rw [removed]
    by_cases marked : name ∈ removals.map tombstoneName
    · obtain ⟨removal, member, rfl⟩ := mem_map.mp marked
      rw [if_pos marked,
        if_pos (Or.inl (isTombstoneName_tombstoneName (generations removal member)))]
    rw [if_neg marked]
    by_cases listed : name ∈ removals
    · rw [if_pos (Or.inr listed), gone name listed]
    · rw [others name listed marked, clean]
      simp [listed]

end

end Deletion

end GraphZero.Checkpoints
