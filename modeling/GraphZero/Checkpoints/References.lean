import GraphZero.Checkpoints.Prune
import GraphZero.Foundation.Result
import GraphZero.Foundation.Sequences
import Mathlib.Data.List.ReduceOption

/-!
# Which generations a prune deletes

A pointer may have any name, but `prune_checkpoints` reads only those under
`latest.json`, `best.json`, `arena.json` and `step_<digits>.json`.  It deletes
exactly the generations that nothing keeps if and only if every pointer under
another name refers to a generation that is kept for another reason.
-/

namespace GraphZero.Checkpoints

open GraphZero.Foundation List

@[simp]
theorem fromHex_hex (bytes : Bytes) : fromHex (hex bytes) = some bytes := by
  have digits : ∀ digit < 16,
      isSpace digit.digitChar = false ∧ hexDigit? digit.digitChar = some digit := by decide
  induction bytes with
  | nil => rfl
  | cons byte bytes ih =>
    have small : byte.toNat < 256 := byte.toNat_lt
    obtain ⟨plain, high⟩ := digits (byte.toNat / 16) (by omega)
    obtain ⟨_, low⟩ := digits (byte.toNat % 16) (by omega)
    have whole : 16 * (byte.toNat / 16) + byte.toNat % 16 = byte.toNat := by
      omega
    have text : hex (byte :: bytes) =
        (byte.toNat / 16).digitChar :: (byte.toNat % 16).digitChar :: hex bytes := rfl
    rw [text, fromHex, plain, high, low, ih]
    simp only [Bool.false_eq_true, if_false, Option.bind_eq_bind,
      Option.bind_some, whole, UInt8.ofNat_toNat]

theorem ModelVersion.length_fromHex (version : ModelVersion) :
    (fromHex version.hex).map List.length = some 16 := by
  rw [ModelVersion.hex, fromHex_hex, Option.map_some, version.property]

section References

variable {digits : DigitTable} {order : IterationOrder FileName} {root : Root}

/-- `pointer` is a file that names the generation, as `promote` writes it. -/
def RefersTo (root : Root) (pointer : FileName) (generation : Generation) : Prop :=
  ∃ synced, root.get? pointer = some (.file
    ⟨.pointer ⟨some generation.name, some generation.manifest.modelVersion.hex⟩, synced⟩)

/-- Some pointer that prune reads refers to the generation. -/
def Recognised (digits : DigitTable) (root : Root) (generation : Generation) : Prop :=
  ∃ pointer, isRecognisedPointer digits pointer = true ∧ RefersTo root pointer generation

/-- Among the newest, referenced by a pointer under some name, or protected. -/
def Retained (root : Root) (retain : Nat) (requested : List (List Char))
    (versions : List Generation) (generation : Generation) : Prop :=
  generation ∈ newest retain versions ∨ (∃ pointer, RefersTo root pointer generation) ∨
    generation.manifest.modelVersion.hex ∈ requested

/-- The generations that nothing retains are deleted; nothing else is changed,
tombstones apart. -/
structure DeletesExactly (digits : DigitTable) (root : Root) (retain : Nat)
    (requested : List (List Char)) (versions : List Generation)
    (removed : List FileName) (after : Root) : Prop where
  deleted : ∀ generation ∈ versions,
    ¬Retained root retain requested versions generation →
      generation.name ∈ removed ∧ after.get? generation.name = none
  kept : ∀ name, isTombstoneName digits name = false →
    (∀ generation ∈ versions, generation.name = name →
      Retained root retain requested versions generation) →
    name ∉ removed ∧ after.get? name = root.get? name

/-- What a prune is for: it deletes exactly what nothing retains, deletes
nothing when it raises, and a retention of zero disables it. -/
def PrunesExactly (digits : DigitTable) (order : IterationOrder FileName)
    (root : Root) (retain : Int) (requested : List (List Char))
    (call : Except PruneError (List FileName) × Root) : Prop :=
  match call.1 with
  | .error _ => call.2 = root
  | .ok removed =>
    if retain = 0 then removed = [] ∧ call.2 = root
    else ∃ versions, readGenerations digits order root = .ok versions ∧
      DeletesExactly digits root retain.toNat requested versions removed call.2

/-- The directory is one that prune does not refuse. -/
structure Accepts (digits : DigitTable) (order : IterationOrder FileName)
    (root : Root) (retain : Int) (requested : List (List Char))
    (versions : List Generation) : Prop where
  positive : 0 < retain
  generations : readGenerations digits order root = .ok versions
  pointers : ∀ pointer ∈ pointerNames digits order root,
    ∃ target, checkpointPointerTarget root versions pointer = .ok target
  available : missingVersions requested versions = []

/-- Every pointer under a name that prune does not know refers to a generation
that is kept anyway. -/
def OthersCovered (digits : DigitTable) (order : IterationOrder FileName)
    (root : Root) (retain : Int) (requested : List (List Char)) : Prop :=
  ∀ versions, Accepts digits order root retain requested versions →
    ∀ generation ∈ versions, ∀ pointer, RefersTo root pointer generation →
      isRecognisedPointer digits pointer = true ∨ Recognised digits root generation ∨
        generation ∈ newest retain.toNat versions ∨
        generation.manifest.modelVersion.hex ∈ requested

theorem readGeneration_eq_ok {name generation}
    (read : readGeneration digits root name = .ok generation) :
    generation.name = name ∧
      digits.int (removePrefix "version_".toList name) = some generation.index ∧
      ∃ file, Root.fileIn root name manifestFileName = some file ∧
        CheckpointManifest.read file.contents = .ok generation.manifest := by
  unfold readGeneration at read
  cases found : Root.fileIn root name manifestFileName with
  | none =>
    simp only [found] at read
    cases read
  | some file =>
    cases number : digits.int (removePrefix "version_".toList name) with
    | none =>
      simp only [found, number] at read
      cases read
    | some index =>
      cases manifest : CheckpointManifest.read file.contents with
      | error error =>
        simp only [found, number, manifest] at read
        cases read
      | ok document =>
        simp only [found, number, manifest, Except.ok.injEq] at read
        subst read
        exact ⟨rfl, rfl, file, rfl, manifest⟩

theorem mem_generationNames {name} : name ∈ generationNames digits order root ↔
      Root.isDir root name = true ∧ isGenerationName digits name = true := by
  rw [generationNames, mem_filter, order.mem_visit, Bool.and_eq_true]
  refine and_iff_right_of_imp fun both => ?_
  obtain ⟨files, found⟩ := Root.isDir_iff.mp both.1
  exact Table.mem_keys_of_get? found

/-- What `readGenerations` returns: every generation once, oldest first. -/
structure Listed (digits : DigitTable) (root : Root) (versions : List Generation) : Prop where
  distinct : (versions.map Generation.name).Nodup
  names : ∀ name, (∃ generation ∈ versions, generation.name = name) ↔
    Root.isDir root name = true ∧ isGenerationName digits name = true
  read : ∀ generation ∈ versions,
    readGeneration digits root generation.name = .ok generation
  sorted : versions.Pairwise fun first second => first.index ≤ second.index

theorem listed_of_readGenerations {versions}
    (done : readGenerations digits order root = .ok versions) :
    Listed digits root versions := by
  obtain ⟨unsorted, reads, same⟩ := ok_of_bind done
  cases same
  have each := forall₂_of_mapM_eq_ok reads
  have names : unsorted.map Generation.name = generationNames digits order root := by
    clear reads done
    generalize generationNames digits order root = names at each
    induction each with
    | nil => rfl
    | cons first rest ih => rw [map_cons, ih, (readGeneration_eq_ok first).1]
  let before (first second : Generation) : Prop := first.index ≤ second.index
  have permuted := perm_insertionSort before unsorted
  refine ⟨?_, ?_, ?_, ?_⟩
  · rw [(permuted.map Generation.name).nodup_iff, names]
    exact (order.nodup_visit root.nodup_keys).filter _
  · intro name
    rw [← @mem_generationNames digits order root, ← names, mem_map]
    exact exists_congr fun generation => and_congr_left fun _ => permuted.mem_iff
  · intro generation member
    rw [permuted.mem_iff] at member
    obtain ⟨name, _, read⟩ := forall₂_mem_right each member
    rw [(readGeneration_eq_ok read).1]
    exact read
  · exact pairwise_insertionSort before unsorted

namespace Listed

variable {versions : List Generation} (listed : Listed digits root versions)

include listed

theorem eq_of_name {first second} (firstMember : first ∈ versions)
    (secondMember : second ∈ versions) (same : first.name = second.name) :
    first = second := by
  have one := listed.read first firstMember
  have two := listed.read second secondMember
  rw [same, two] at one
  exact (Except.ok.inj one).symm

variable {generation : Generation}

theorem manifestOf_eq (member : generation ∈ versions) :
    manifestOf versions generation.name = some generation.manifest := by
  unfold manifestOf
  cases found : versions.find? (·.name = generation.name) with
  | none =>
    have differs := find?_eq_none.mp found generation member
    simp at differs
  | some other =>
    have same : other.name = generation.name := by
      simpa using find?_some found
    rw [Option.map_some, listed.eq_of_name (mem_of_find?_eq_some found) member same]

theorem checkpointPointerTarget_eq_iff (member : generation ∈ versions) {pointer} :
    checkpointPointerTarget root versions pointer = .ok (some generation.name) ↔
      RefersTo root pointer generation := by
  constructor
  · intro target
    unfold checkpointPointerTarget at target
    split at target
    next absent => cases target
    next file found =>
      obtain ⟨contents, synced⟩ := file
      cases contents with
      | data bytes => cases target
      | json | manifest document => cases target
      | pointer document =>
        obtain ⟨versionDir, modelVersion⟩ := document
        cases versionDir with
        | none => cases target
        | some directory =>
          cases known : manifestOf versions directory with
          | none => simp [known] at target
          | some manifest =>
            cases modelVersion with
            | none => simp [known] at target
            | some text =>
              simp only [known] at target
              split at target
              next => cases target
              next =>
              split at target
              next => cases target
              next same =>
              simp only [Except.ok.injEq, Option.some.injEq] at target
              subst target
              rw [listed.manifestOf_eq member, Option.some.injEq] at known
              subst known
              exact ⟨synced, by
                rw [found, not_not.mp same]⟩
    next => cases target
  · rintro ⟨synced, found⟩
    unfold checkpointPointerTarget
    simp only [found, listed.manifestOf_eq member,
      ModelVersion.length_fromHex, ne_eq, not_true_eq_false, if_false]

omit listed in
theorem mem_pointerNames {pointer} (file : Root.isFile root pointer = true) :
    pointer ∈ pointerNames digits order root ↔ isRecognisedPointer digits pointer = true := by
  obtain ⟨contents, found⟩ := Root.isFile_iff.mp file
  have present : pointer ∈ root.keys := Table.mem_keys_of_get? found
  simp only [pointerNames, isRecognisedPointer, mem_append,
    mem_insertionSort, mem_filter, order.mem_visit, Bool.and_eq_true,
    Bool.or_eq_true, contains_iff_mem, present, file, true_and]

theorem mem_referencedDirs {referenced}
    (done : referencedDirs digits order root versions = .ok referenced)
    (member : generation ∈ versions) :
    generation.name ∈ referenced ↔ Recognised digits root generation := by
  obtain ⟨targets, reads, same⟩ := ok_of_bind done
  cases same
  have each := forall₂_of_mapM_eq_ok reads
  rw [reduceOption_mem_iff]
  constructor
  · intro collected
    obtain ⟨pointer, pointerMember, target⟩ := forall₂_mem_right each collected
    have refers := (listed.checkpointPointerTarget_eq_iff member).mp target
    obtain ⟨synced, found⟩ := refers
    exact ⟨pointer, (mem_pointerNames (Root.isFile_iff.mpr ⟨_, found⟩)).mp
      pointerMember, synced, found⟩
  · rintro ⟨pointer, recognised, synced, found⟩
    have pointerMember : pointer ∈ pointerNames digits order root :=
      (mem_pointerNames (Root.isFile_iff.mpr ⟨_, found⟩)).mpr recognised
    obtain ⟨target, targetMember, read⟩ := forall₂_mem_right each.flip pointerMember
    rw [(listed.checkpointPointerTarget_eq_iff member).mpr ⟨synced, found⟩] at read
    rw [Except.ok.inj read]
    exact targetMember

end Listed

/-! ### The plan and its effect -/

/-- The generations that prune deletes: neither among the newest, nor referenced
by a pointer that it reads, nor protected. -/
def Doomed (digits : DigitTable) (root : Root) (retain : Nat)
    (requested : List (List Char)) (versions : List Generation)
    (generation : Generation) : Prop :=
  generation ∉ newest retain versions ∧ ¬Recognised digits root generation ∧
    generation.manifest.modelVersion.hex ∉ requested

variable {versions : List Generation} {retain : Int}
  {requested : List (List Char)}

theorem Listed.mem_removals_iff (listed : Listed digits root versions) {referenced}
    (done : referencedDirs digits order root versions = .ok referenced) {retain requested name} :
    (name ∈ (versions.map Generation.name).filter fun name =>
        !(protectedDirs retain requested versions referenced).contains name) ↔
      ∃ generation ∈ versions, generation.name = name ∧
        Doomed digits root retain requested versions generation := by
  have keeps : ∀ generation ∈ versions,
      (generation.name ∈ protectedDirs retain requested versions referenced ↔
        ¬Doomed digits root retain requested versions generation) := by
    intro generation member
    have among : ∀ chosen : List Generation, (∀ other ∈ chosen, other ∈ versions) →
        (generation.name ∈ chosen.map Generation.name ↔ generation ∈ chosen) := by
      intro chosen inside
      constructor
      · intro named
        obtain ⟨other, otherMember, same⟩ := mem_map.mp named
        rwa [listed.eq_of_name (inside other otherMember) member same] at otherMember
      · exact mem_map_of_mem
    rw [protectedDirs, mem_append, mem_append, among (newest retain versions)
        (fun other otherMember => mem_of_mem_drop otherMember),
      among _ (fun other otherMember => mem_of_mem_filter otherMember),
      listed.mem_referencedDirs done member, mem_filter,
      contains_iff_mem, Doomed]
    tauto
  simp only [mem_filter, mem_map, Bool.not_eq_true', Bool.eq_false_iff, ne_eq, contains_iff_mem]
  constructor
  · rintro ⟨⟨generation, member, rfl⟩, free⟩
    exact ⟨generation, member, rfl,
      not_not.mp fun kept => free ((keeps generation member).mpr kept)⟩
  · rintro ⟨generation, member, rfl, doomed⟩
    exact ⟨⟨generation, member, rfl⟩, fun kept => (keeps generation member).mp kept doomed⟩

theorem prunePlan_eq_ok {removals} (pos : 0 < retain)
    (done : prunePlan digits order root retain.toNat requested = .ok removals) :
    ∃ versions, Accepts digits order root retain requested versions ∧ removals.Nodup ∧
      ∀ name, name ∈ removals ↔ ∃ generation ∈ versions, generation.name = name ∧
        Doomed digits root retain.toNat requested versions generation := by
  obtain ⟨versions, reads, done⟩ := ok_of_bind done
  obtain ⟨referenced, pointers, done⟩ := ok_of_bind done
  obtain ⟨available, done⟩ := throw_bind_else_eq_ok_iff.mp done
  cases done
  have listed := listed_of_readGenerations reads
  obtain ⟨targets, each, _⟩ := ok_of_bind pointers
  refine ⟨versions, ⟨pos, reads, ?_, not_not.mp available⟩,
    listed.distinct.filter _, fun name => listed.mem_removals_iff pointers⟩
  intro pointer member
  obtain ⟨target, _, read⟩ := forall₂_mem_right (forall₂_of_mapM_eq_ok each).flip member
  exact ⟨target, read⟩

section

variable {versions : List Generation}
  (accepts : Accepts digits order root retain requested versions)
include accepts

theorem Accepts.prunePlan_isOk : ∃ removals,
      prunePlan digits order root retain.toNat requested = .ok removals := by
  have reads : ∀ pointers : List FileName, (∀ pointer ∈ pointers, ∃ target,
        checkpointPointerTarget root versions pointer = .ok target) →
      ∃ targets, pointers.mapM (checkpointPointerTarget root versions) = .ok targets := by
    intro pointers readable
    induction pointers with
    | nil => exact ⟨[], rfl⟩
    | cons pointer pointers ih =>
      obtain ⟨target, first⟩ := readable pointer mem_cons_self
      obtain ⟨targets, rest⟩ := ih fun other member =>
        readable other (mem_cons_of_mem _ member)
      exact ⟨target :: targets, by rw [mapM_cons, first, rest]; rfl⟩
  obtain ⟨targets, done⟩ := reads _ accepts.pointers
  have referenced : referencedDirs digits order root versions = .ok targets.reduceOption := by
    rw [referencedDirs, done]
    rfl
  refine ⟨(versions.map Generation.name).filter fun name =>
    !(protectedDirs retain.toNat requested versions targets.reduceOption).contains name, ?_⟩
  rw [prunePlan, accepts.generations]
  simp only [Bind.bind, Except.bind, referenced, accepts.available, ne_eq,
    not_true_eq_false, if_false]
  rfl

theorem Accepts.pruneCheckpoints_eq : ∃ removals after,
      pruneCheckpoints digits order root retain requested = (.ok removals, after) ∧
      (∀ name, name ∈ removals ↔ ∃ generation ∈ versions, generation.name = name ∧
        Doomed digits root retain.toNat requested versions generation) ∧
      ∀ name, after.get? name = if isTombstoneName digits name = true ∨ name ∈ removals then none
        else root.get? name := by
  obtain ⟨removals, plan⟩ := accepts.prunePlan_isOk
  obtain ⟨others, same, distinct, removed⟩ := prunePlan_eq_ok accepts.positive plan
  have one : others = versions := Except.ok.inj (same.generations.symm.trans accepts.generations)
  subst one
  have listed := listed_of_readGenerations accepts.generations
  have named : ∀ name ∈ removals,
      Root.isDir root name = true ∧ isGenerationName digits name = true := by
    intro name member
    obtain ⟨generation, generationMember, same, _⟩ := (removed name).mp member
    exact (listed.names name).mp ⟨generation, generationMember, same⟩
  obtain ⟨after, done, changed⟩ := execute_pruneSteps digits order root distinct
    (fun name member => (named name member).1)
    (fun name member => (named name member).2)
  have pos := accepts.positive
  refine ⟨removals, after, ?_, removed, changed⟩
  rw [pruneCheckpoints, if_neg (by omega), if_neg (by omega), plan]
  simp only [done]

end

theorem pruneCheckpoints_of_error {error}
    (raised : (pruneCheckpoints digits order root retain requested).1 = .error error) :
    (pruneCheckpoints digits order root retain requested).2 = root := by
  by_cases pos : 0 < retain
  · by_cases accepted : ∃ versions, Accepts digits order root retain requested versions
    · obtain ⟨versions, accepts⟩ := accepted
      obtain ⟨removals, after, done, _⟩ := accepts.pruneCheckpoints_eq
      rw [done] at raised
      cases raised
    · rw [pruneCheckpoints, if_neg (by omega), if_neg (by omega)]
      cases plan : prunePlan digits order root retain.toNat requested with
      | error error => rfl
      | ok removals =>
        obtain ⟨versions, accepts, _⟩ := prunePlan_eq_ok pos plan
        exact absurd ⟨versions, accepts⟩ accepted
  · rw [pruneCheckpoints]
    split
    · rfl
    · rw [if_pos (by omega)]

/-- A prune deletes exactly the generations that are neither among the newest,
nor referenced, nor protected, if and only if every pointer under a name that it
does not know refers to a generation that is kept anyway. -/
theorem pruneCheckpoints_exact_iff
    (digits : DigitTable) (order : IterationOrder FileName) (root : Root)
    (retain : Int) (requested : List (List Char)) :
    PrunesExactly digits order root retain requested
        (pruneCheckpoints digits order root retain requested) ↔
      OthersCovered digits order root retain requested := by
  by_cases accepted : ∃ versions,
      Accepts digits order root retain requested versions
  · obtain ⟨versions, accepts⟩ := accepted
    obtain ⟨removals, after, done, removed, changed⟩ := accepts.pruneCheckpoints_eq
    have listed := listed_of_readGenerations accepts.generations
    have nonzero : retain ≠ 0 := by
      have pos := accepts.positive
      omega
    have readsOne : ∀ others,
        readGenerations digits order root = .ok others → others = versions :=
      fun others reads => Except.ok.inj (reads.symm.trans accepts.generations)
    rw [done]
    simp only [PrunesExactly, nonzero, if_false]
    constructor
    · rintro ⟨others, reads, exact⟩ named acceptsNamed generation member pointer refers
      rw [readsOne others reads] at exact
      rw [readsOne named acceptsNamed.generations] at member ⊢
      by_contra uncovered
      simp only [not_or] at uncovered
      have doomed : generation.name ∈ removals :=
        (removed generation.name).mpr ⟨generation, member, rfl, uncovered.2.2.1,
          uncovered.2.1, uncovered.2.2.2⟩
      have numbered := (listed.names generation.name).mp ⟨generation, member, rfl⟩
      refine (exact.kept generation.name
        (isTombstoneName_of_isGenerationName numbered.2) ?_).1 doomed
      intro other otherMember same
      rw [listed.eq_of_name otherMember member same]
      exact Or.inr (Or.inl ⟨pointer, refers⟩)
    · intro covered
      refine ⟨versions, accepts.generations, ?_, ?_⟩
      · intro generation member dropped
        simp only [Retained, not_or] at dropped
        have doomed : generation.name ∈ removals := by
          refine (removed generation.name).mpr ⟨generation, member, rfl, dropped.1,
            ?_, dropped.2.2⟩
          rintro ⟨pointer, _, refers⟩
          exact dropped.2.1 ⟨pointer, refers⟩
        exact ⟨doomed, by rw [changed, if_pos (Or.inr doomed)]⟩
      · intro name plain retained
        have spared : name ∉ removals := by
          intro listedName
          obtain ⟨generation, member, same, doomed⟩ := (removed name).mp listedName
          rcases retained generation member same with new | ⟨pointer, refers⟩ | held
          · exact doomed.1 new
          · rcases covered versions accepts generation member pointer refers with
              recognised | recognised | new | held
            · exact doomed.2.1 ⟨pointer, recognised, refers⟩
            · exact doomed.2.1 recognised
            · exact doomed.1 new
            · exact doomed.2.2 held
          · exact doomed.2.2 held
        refine ⟨spared, ?_⟩
        rw [changed, if_neg]
        rintro (tombstone | member)
        · rw [plain] at tombstone
          cases tombstone
        · exact spared member
  · have covered : OthersCovered digits order root retain requested :=
      fun versions accepts => absurd ⟨versions, accepts⟩ accepted
    refine iff_of_true ?_ covered
    cases outcome : (pruneCheckpoints digits order root retain requested).1 with
    | error error =>
      simp only [PrunesExactly, outcome]
      exact pruneCheckpoints_of_error outcome
    | ok removed =>
      simp only [PrunesExactly, outcome]
      by_cases zero : retain = 0
      · rw [if_pos zero]
        subst zero
        exact ⟨(Except.ok.inj outcome).symm, rfl⟩
      exfalso
      by_cases negative : retain < 0
      · rw [pruneCheckpoints, if_pos negative] at outcome
        cases outcome
      rw [pruneCheckpoints, if_neg negative, if_neg zero] at outcome
      have pos : 0 < retain := by omega
      cases plan : prunePlan digits order root retain.toNat requested with
      | error error =>
        rw [plan] at outcome
        cases outcome
      | ok removals =>
        obtain ⟨versions, accepts, _⟩ := prunePlan_eq_ok pos plan
        exact accepted ⟨versions, accepts⟩

end References

namespace Sample

/-- The digits among the first 256 characters. -/
def latin : DigitTable where
  isDigit c := c.isDigit || ['²', '³', '¹'].contains c
  decimal c := if c.isDigit then some (c.toNat - '0'.toNat) else none
  isDigit_ascii c ascii := by
    have plain : ['²', '³', '¹'].contains c = false := by
      simp only [Bool.eq_false_iff, ne_eq, contains_iff_mem, mem_cons,
        not_mem_nil, or_false, not_or]
      refine ⟨?_, ?_, ?_⟩ <;>
        (rintro rfl; exact absurd ascii (by decide))
    rw [plain, Bool.or_false]
  decimal_digitChar := by decide

/-- A checkpoint whose weights are four bytes `seed`. -/
def manifest (seed : UInt8) : CheckpointManifest where
  modelVersion := ⟨List.replicate 16 seed, length_replicate⟩
  archConfigHash := hex (List.replicate 32 0)
  featureSchemaHash := List.replicate 32 0
  trainingStep := 1
  runId := "run".toList
  weights :=
    { filename := "model.safetensors".toList, bytes := 4,
      blake2b256 := hex (List.replicate 32 seed) }

def generationDir (seed : UInt8) : Node :=
  .directory (((∅ : Table FileName File).insert manifestFileName
      ⟨.manifest (manifest seed), true⟩).insert "model.safetensors".toList
        ⟨.data (List.replicate 4 seed), true⟩)

/-- A pointer to the generation `index`, as `promote` writes it. -/
def pointerTo (index : Nat) (seed : UInt8) : Node :=
  .file ⟨.pointer ⟨some (versionName index), some (manifest seed).modelVersion.hex⟩, true⟩

/-- Two generations; an actor plays the older one under a name of its own. -/
def pinned : Root :=
  ((((∅ : Root).insert (versionName 0) (generationDir 7)).insert
    (versionName 1) (generationDir 8)).insert "latest.json".toList (pointerTo 1 8)).insert
        "frozen.json".toList (pointerTo 0 7)

def older : Generation := ⟨0, versionName 0, manifest 7⟩
def newer : Generation := ⟨1, versionName 1, manifest 8⟩

theorem readGenerations_pinned : readGenerations latin .stored pinned = .ok [older, newer] := by
  decide +kernel

end Sample

/-- Keeping one generation deletes the one that `frozen.json` refers to. -/
theorem pruneCheckpoints_deletes_referenced : ¬PrunesExactly Sample.latin .stored Sample.pinned 1 []
      (pruneCheckpoints Sample.latin .stored Sample.pinned 1 []) := by
  have outcome : (pruneCheckpoints Sample.latin .stored Sample.pinned 1 []).1 =
        .ok [versionName 0] := by decide +kernel
  intro exact
  simp only [PrunesExactly, outcome] at exact
  obtain ⟨versions, reads, exact⟩ := exact
  cases reads
  refine (exact.kept (versionName 0) (by decide +kernel) ?_).1
    (mem_singleton_self _)
  intro generation member same
  rcases mem_pair.mp member with rfl | rfl
  · exact Or.inr (Or.inl ⟨"frozen.json".toList, true, rfl⟩)
  · exact absurd same (by decide +kernel)

end GraphZero.Checkpoints
