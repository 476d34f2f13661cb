import GraphZero.Checkpoints.SafeOperations

/-!
# What interrupted operations leave behind

A publication that was interrupted leaves a temporary directory and a prune
leaves tombstones.  An operation that finds them does what it would have done in
`cleanRoot`, the directory without them, and ends in the same directory up to
such leftovers.
-/

namespace GraphZero.Checkpoints

open GraphZero.Foundation List

/-! ### Calls on directories that agree -/

/-- The directories differ at most in the names that `drop` selects. -/
def AgreeOff (drop : FileName → Bool) (first second : Root) : Prop :=
  ∀ name, drop name = false → first.get? name = second.get? name

section Agreement

variable {drop : FileName → Bool} {first second : Root}

theorem AgreeOff.insert (agree : AgreeOff drop first second) (name : FileName) (node : Node) :
    AgreeOff drop (first.insert name node) (second.insert name node) := by
  intro other kept
  rw [Table.get?_insert, Table.get?_insert, agree other kept]

theorem AgreeOff.erase (agree : AgreeOff drop first second) (name : FileName) :
    AgreeOff drop (first.erase name) (second.erase name) := by
  intro other kept
  rw [Table.get?_erase, Table.get?_erase, agree other kept]

def SameOutcome (drop : FileName → Bool) : Option Root → Option Root → Prop
  | some first, some second => AgreeOff drop first second
  | none, none => True
  | _, _ => False

theorem SameOutcome.ite {drop} {condition : Prop} [Decidable condition] {left right left' right'}
    (yes : SameOutcome drop left left') (no : SameOutcome drop right right') :
    SameOutcome drop (if condition then left else right) (if condition then left' else right') := by
  split
  · exact yes
  · exact no

theorem sameOutcome_apply {step : FsStep} (touched : ∀ name ∈ step.names, drop name = false)
    (agree : AgreeOff drop first second) :
    SameOutcome drop (step.apply first) (step.apply second) := by
  have same : ∀ name ∈ step.names, first.get? name = second.get? name :=
    fun name member => agree name (touched name member)
  cases step with
  | mkdir name =>
    have here := same name (mem_singleton_self name)
    have contains : first.contains name = second.contains name := by
      rw [Table.contains, here, Table.contains]
    simp only [FsStep.apply, contains]
    exact SameOutcome.ite trivial (agree.insert name _)
  | write name contents =>
    simp only [FsStep.apply, same name (mem_singleton_self name)]
    split
    · exact agree.insert name _
    · exact agree.insert name _
    · trivial
  | writeIn directory name contents =>
    simp only [FsStep.apply, same directory (mem_singleton_self directory)]
    split
    · exact agree.insert directory _
    · trivial
  | fsyncFile name =>
    simp only [FsStep.apply, same name (mem_singleton_self name)]
    split
    · exact agree.insert name _
    · exact agree
    · trivial
  | fsyncFileIn directory name =>
    simp only [FsStep.apply, same directory (mem_singleton_self directory)]
    split
    next files _ =>
      cases files.get? name with
      | none => trivial
      | some file => exact agree.insert directory _
    next => trivial
  | fsyncDir => exact agree
  | replace source target =>
    have atSource := same source mem_cons_self
    have atTarget := same target (mem_cons_of_mem _ mem_cons_self)
    simp only [FsStep.apply, atSource, atTarget]
    split
    · exact SameOutcome.ite ((agree.erase source).insert target _) trivial
    · trivial
  | unlink name =>
    simp only [FsStep.apply, same name (mem_singleton_self name)]
    split
    · exact agree.erase name
    · exact agree.erase name
    · trivial
  | unlinkIn directory name =>
    simp only [FsStep.apply, same directory (mem_singleton_self directory)]
    split
    · exact SameOutcome.ite (agree.insert directory _) trivial
    · trivial
  | rmdir name =>
    simp only [FsStep.apply, same name (mem_singleton_self name)]
    split
    · exact SameOutcome.ite (agree.erase name) trivial
    · trivial
  | refuse => trivial

/-- The outcomes of a whole list of calls: both raise or neither does, and the
directories agree. -/
def SameRun (drop : FileName → Bool) (first second : Root × Bool) : Prop :=
  first.2 = second.2 ∧ AgreeOff drop first.1 second.1

theorem sameRun_execute {steps : List FsStep}
    (touched : ∀ step ∈ steps, ∀ name ∈ step.names, drop name = false)
    (agree : AgreeOff drop first second) :
    SameRun drop (execute first steps) (execute second steps) := by
  induction steps generalizing first second with
  | nil => exact ⟨rfl, agree⟩
  | cons step steps ih =>
    have outcome := sameOutcome_apply (touched step mem_cons_self) agree
    simp only [execute]
    cases here : step.apply first with
    | none =>
      cases there : step.apply second with
      | none => exact ⟨rfl, agree⟩
      | some next =>
        rw [here, there] at outcome
        exact outcome.elim
    | some next =>
      cases there : step.apply second with
      | none =>
        rw [here, there] at outcome
        exact outcome.elim
      | some other =>
        rw [here, there] at outcome
        exact ih (fun later member => touched later (mem_cons_of_mem _ member)) outcome

end Agreement

section Clean

variable {hashing : Hashing} {digits : DigitTable} {order : IterationOrder FileName} {root : Root}

def cleanRoot (digits : DigitTable) (root : Root) : Root :=
  root.eraseWhere (isLeftoverDir digits root)

theorem get?_cleanRoot (name : FileName) : (cleanRoot digits root).get? name =
      if isLeftoverDir digits root name = true then none else root.get? name :=
  Table.get?_eraseWhere root _ name

variable {name : FileName}

theorem get?_cleanRoot_of_kept (kept : isLeftoverDir digits root name = false) :
    (cleanRoot digits root).get? name = root.get? name := by
  rw [get?_cleanRoot, kept, if_neg Bool.false_ne_true]

theorem agreeOff_cleanRoot : AgreeOff (isLeftoverDir digits root) root (cleanRoot digits root) :=
  fun _ kept => (get?_cleanRoot_of_kept kept).symm

theorem isLeftoverDir_of_isGenerationName (generation : isGenerationName digits name = true) :
    isLeftoverDir digits root name = false := by
  have notTmp : isTmpName digits name = false := by
    rw [Bool.eq_false_iff]
    intro temporary
    simp only [isTmpName, Bool.and_eq_true, isSuffixOf_iff_suffix] at temporary
    obtain ⟨front, rfl⟩ := temporary.1
    have ordinary := isGenerationName_tmpName digits front
    rw [tmpName, generation] at ordinary
    cases ordinary
  rw [isLeftoverDir, notTmp, isTombstoneName_of_isGenerationName generation,
    Bool.or_false, Bool.and_false]

theorem isLeftoverDir_of_not_isDir (other : Root.isDir root name = false) :
    isLeftoverDir digits root name = false := by
  rw [isLeftoverDir, other, Bool.false_and]

theorem isLeftoverDir_tmpName {index files}
    (found : root.get? (tmpName (versionName index)) = some (.directory files)) :
    isLeftoverDir digits root (tmpName (versionName index)) = true := by
  have isDir : Root.isDir root (tmpName (versionName index)) = true :=
    Root.isDir_iff.mpr ⟨files, found⟩
  have ends : ".tmp".toList.isSuffixOf (tmpName (versionName index)) = true := by
    rw [isSuffixOf_iff_suffix]
    exact suffix_append _ _
  have front : removeSuffix ".tmp".toList (tmpName (versionName index)) =
      versionName index := removeSuffix_append _ _
  rw [isLeftoverDir, isDir, isTmpName, ends, front, isGenerationName_versionName]
  rfl

/-- The order in which the clean directory lists what is left. -/
def cleanOrder (digits : DigitTable) (order : IterationOrder FileName)
    (root : Root) : IterationOrder FileName where
  visit keys :=
    if keys = (cleanRoot digits root).keys then
      (order.visit root.keys).filter fun name => !isLeftoverDir digits root name
    else keys
  perm keys := by
    split
    next same =>
      subst same
      refine (perm_ext_iff_of_nodup ((order.nodup_visit root.nodup_keys).filter _)
        (Table.nodup_keys _)).mpr fun name => ?_
      rw [mem_filter, order.mem_visit, Table.mem_keys_iff,
        Table.mem_keys_iff, get?_cleanRoot]
      by_cases leftover : isLeftoverDir digits root name = true
      · simp [leftover]
      · simp [leftover]
    next => exact List.Perm.refl keys

theorem visit_cleanOrder : (cleanOrder digits order root).visit (cleanRoot digits root).keys =
      (order.visit root.keys).filter fun name =>
        !isLeftoverDir digits root name := by
  simp only [cleanOrder, if_true]

section Kept

variable {name : FileName}

section

variable (kept : isLeftoverDir digits root name = false)
include kept

theorem isDir_cleanRoot : Root.isDir (cleanRoot digits root) name = Root.isDir root name := by
  rw [Root.isDir, Root.isDir, get?_cleanRoot_of_kept kept]

theorem isFile_cleanRoot : Root.isFile (cleanRoot digits root) name = Root.isFile root name := by
  rw [Root.isFile, Root.isFile, get?_cleanRoot_of_kept kept]

theorem fileIn_cleanRoot (file : FileName) :
    Root.fileIn (cleanRoot digits root) name file = Root.fileIn root name file := by
  rw [Root.fileIn, Root.fileIn, get?_cleanRoot_of_kept kept]

end

end Kept

/-! ### Pruning -/

theorem filter_cleanOrder {inClean inRoot}
    (same : ∀ name, isLeftoverDir digits root name = false → inClean name = inRoot name)
    (skips : ∀ name, isLeftoverDir digits root name = true → inRoot name = false) :
    ((cleanOrder digits order root).visit (cleanRoot digits root).keys).filter inClean =
      (order.visit root.keys).filter inRoot := by
  rw [visit_cleanOrder, filter_filter]
  refine filter_congr fun name _ => ?_
  cases leftover : isLeftoverDir digits root name with
  | false => rw [same name leftover, Bool.not_false, Bool.and_true]
  | true => rw [skips name leftover, Bool.not_true, Bool.and_false]

theorem generationNames_cleanRoot : generationNames digits (cleanOrder digits order root)
        (cleanRoot digits root) =
      generationNames digits order root := by
  refine filter_cleanOrder ?_ ?_
  · intro name kept
    rw [isDir_cleanRoot kept]
  intro name leftover
  cases generation : isGenerationName digits name with
  | false => rw [Bool.and_false]
  | true =>
    rw [isLeftoverDir_of_isGenerationName generation] at leftover
    cases leftover

theorem mapM_congr_left {α β ε : Type} {first second : α → Except ε β}
    {items : List α} (same : ∀ item ∈ items, first item = second item) :
    items.mapM first = items.mapM second := by
  induction items with
  | nil => rfl
  | cons item items ih =>
    rw [mapM_cons, mapM_cons, same item mem_cons_self, ih fun other member =>
        same other (mem_cons_of_mem _ member)]

theorem readGenerations_cleanRoot : readGenerations digits (cleanOrder digits order root)
        (cleanRoot digits root) =
      readGenerations digits order root := by
  rw [readGenerations, readGenerations, generationNames_cleanRoot]
  have each : ∀ name ∈ generationNames digits order root,
      readGeneration digits (cleanRoot digits root) name = readGeneration digits root name := by
    intro name member
    have kept := @isLeftoverDir_of_isGenerationName digits root name
      (mem_generationNames.mp member).2
    rw [readGeneration, fileIn_cleanRoot kept, readGeneration]
  rw [mapM_congr_left each]

theorem pointerNames_cleanRoot :
    pointerNames digits (cleanOrder digits order root) (cleanRoot digits root) =
      pointerNames digits order root := by
  rw [pointerNames, pointerNames, @filter_cleanOrder digits order root _ fun name =>
    Root.isFile root name && isPermanentCheckpointPointer digits name]
  · intro name kept
    rw [isFile_cleanRoot kept]
  intro name leftover
  simp only [isLeftoverDir, Bool.and_eq_true] at leftover
  obtain ⟨files, found⟩ := Root.isDir_iff.mp leftover.1
  have notFile : Root.isFile root name = false := by
    rw [Root.isFile, found]
  rw [notFile, Bool.false_and]

theorem isLeftoverDir_of_mem_pointerNames {name} (member : name ∈ pointerNames digits order root) :
    isLeftoverDir digits root name = false := by
  rw [pointerNames, mem_append, mem_insertionSort] at member
  rcases member with known | permanent
  · have shape : ∀ other ∈ namedPointers, isTmpName digits other = false ∧
        isTombstoneName digits other = false := by
      intro other otherMember
      simp only [namedPointers, mem_cons, not_mem_nil, or_false] at otherMember
      rcases otherMember with rfl | rfl | rfl <;> exact ⟨rfl, rfl⟩
    rw [isLeftoverDir, (shape name known).1, (shape name known).2, Bool.or_false, Bool.and_false]
  · have file := (mem_filter.mp permanent).2
    rw [Bool.and_eq_true] at file
    obtain ⟨held, found⟩ := Root.isFile_iff.mp file.1
    exact isLeftoverDir_of_not_isDir (by rw [Root.isDir, found])

theorem prunePlan_cleanRoot (retain : Nat) (requested : List (List Char)) :
    prunePlan digits (cleanOrder digits order root) (cleanRoot digits root) retain requested =
      prunePlan digits order root retain requested := by
  have referenced : referencedDirs digits (cleanOrder digits order root)
      (cleanRoot digits root) = referencedDirs digits order root := by
    funext versions
    have each : ∀ name ∈ pointerNames digits order root,
        checkpointPointerTarget (cleanRoot digits root) versions name =
          checkpointPointerTarget root versions name := by
      intro name member
      rw [checkpointPointerTarget,
        get?_cleanRoot_of_kept (isLeftoverDir_of_mem_pointerNames member),
        checkpointPointerTarget]
    rw [referencedDirs, pointerNames_cleanRoot, mapM_congr_left each, referencedDirs]
  rw [prunePlan, readGenerations_cleanRoot, referenced, prunePlan]

theorem pruneCheckpoints_cleanRoot (retain : Int) (requested : List (List Char)) :
    (pruneCheckpoints digits order root retain requested).1 =
        (pruneCheckpoints digits (cleanOrder digits order root)
          (cleanRoot digits root) retain requested).1 ∧
      AgreeOff (isLeftoverDir digits root) (pruneCheckpoints digits order root retain requested).2
        (pruneCheckpoints digits (cleanOrder digits order root)
          (cleanRoot digits root) retain requested).2 := by
  have same := @prunePlan_cleanRoot digits order root retain.toNat requested
  rw [pruneCheckpoints, pruneCheckpoints]
  by_cases negative : retain < 0
  · rw [if_pos negative, if_pos negative]
    exact ⟨rfl, agreeOff_cleanRoot⟩
  by_cases zero : retain = 0
  · rw [if_neg negative, if_pos zero, if_neg negative, if_pos zero]
    exact ⟨rfl, agreeOff_cleanRoot⟩
  rw [if_neg negative, if_neg zero, if_neg negative, if_neg zero, same]
  cases plan : prunePlan digits order root retain.toNat requested with
  | error error => exact ⟨rfl, agreeOff_cleanRoot⟩
  | ok removals =>
    have pos : 0 < retain := by omega
    obtain ⟨versions, accepts, distinct, removed⟩ := prunePlan_eq_ok pos plan
    have listed := listed_of_readGenerations accepts.generations
    have numbered : ∀ name ∈ removals,
        Root.isDir root name = true ∧ isGenerationName digits name = true := by
      intro name member
      obtain ⟨generation, generationMember, named, _⟩ := (removed name).mp member
      exact (listed.names name).mp ⟨generation, generationMember, named⟩
    obtain ⟨after, done, changed⟩ := execute_pruneSteps digits order root distinct
      (fun name member => (numbered name member).1)
      (fun name member => (numbered name member).2)
    obtain ⟨cleanAfter, cleanDone, cleanChanged⟩ := execute_pruneSteps digits
      (cleanOrder digits order root) (cleanRoot digits root) distinct
      (fun name member => by
        rw [isDir_cleanRoot (isLeftoverDir_of_isGenerationName (numbered name member).2)]
        exact (numbered name member).1)
      (fun name member => (numbered name member).2)
    simp only [done, cleanDone]
    refine ⟨trivial, fun name kept => ?_⟩
    rw [changed, cleanChanged, get?_cleanRoot_of_kept kept]

/-! ### Publishing -/

theorem foldlM_filter {α β : Type} {first second keep} (items : List α)
    (skipped : ∀ item, keep item = false → ∀ value, first value item = some value)
    (same : ∀ item, keep item = true → ∀ value,
      second value item = first value item) (start : β) :
    (items.filter keep).foldlM second start = items.foldlM first start := by
  induction items generalizing start with
  | nil => rfl
  | cons item items ih =>
    cases kept : keep item with
    | false =>
      rw [filter_cons_of_neg (by simp [kept]), foldlM_cons,
        skipped item kept]
      exact ih start
    | true =>
      rw [filter_cons_of_pos kept, foldlM_cons, foldlM_cons, same item kept]
      cases first start item with
      | none => rfl
      | some next => exact ih next

theorem nextVersionIndex_cleanRoot : nextVersionIndex digits (cleanOrder digits order root)
        (cleanRoot digits root) =
      nextVersionIndex digits order root := by
  rw [nextVersionIndex, nextVersionIndex, visit_cleanOrder]
  refine foldlM_filter _ ?_ ?_ 0
  · intro name leftover value
    simp only [Bool.not_eq_false'] at leftover
    simp only [isLeftoverDir, isTmpName, isTombstoneName, Bool.and_eq_true,
      Bool.or_eq_true] at leftover
    refine if_pos ?_
    rcases leftover.2 with temporary | tombstone
    · rw [temporary.1, Bool.or_true]
    · obtain ⟨suffix, rfl⟩ := isPrefixOf_iff_prefix.mp tombstone.1.1
      have outside : "version_".toList.isPrefixOf (".version_".toList ++ suffix) = false := rfl
      rw [outside, Bool.not_false, Bool.or_true, Bool.true_or]
  · intro name kept value
    simp only [Bool.not_eq_true'] at kept
    rw [isDir_cleanRoot kept]

def callsOf (steps : List PlannedStep) : List FsStep :=
  steps.map PlannedStep.call

@[simp]
theorem callsOf_append (first second : List PlannedStep) :
    callsOf (first ++ second) = callsOf first ++ callsOf second :=
  map_append

@[simp]
theorem callsOf_plain (calls : List FsStep) : callsOf (plain calls) = calls := by
  rw [callsOf, plain, map_map]
  exact map_id calls

section

variable {name directory : FileName} {manifest : CheckpointManifest} {call : FsStep}
  (member : call ∈ callsOf (pointerSteps name directory manifest))
include member

theorem mem_callsOf_pointerSteps : (∃ contents, call = .write (tmpName name) contents) ∨
      call = .fsyncFile (tmpName name) ∨ call = .replace (tmpName name) name ∨
      call = .fsyncDir ∨ call = .refuse := by
  unfold pointerSteps at member
  split at member
  · rw [callsOf_append, mem_append] at member
    rcases member with first | second
    · rcases mem_pair.mp first with rfl | rfl
      · exact Or.inl ⟨_, rfl⟩
      · exact Or.inr (Or.inl rfl)
    split at second
    · rw [callsOf_plain, mem_singleton] at second
      simp [second]
    rw [callsOf, map_cons, mem_cons] at second
    rcases second with rfl | rest
    · exact Or.inr (Or.inr (Or.inl rfl))
    · have last : call ∈ callsOf (plain [.fsyncDir]) := rest
      rw [callsOf_plain, mem_singleton] at last
      simp [last]
  · rw [callsOf_plain, mem_singleton] at member
    simp [member]

theorem mem_names_of_pointerSteps {touched} (inside : touched ∈ call.names) :
    touched = name ∨ touched = tmpName name := by
  rcases mem_callsOf_pointerSteps member with ⟨contents, rfl⟩ | rfl | rfl | rfl | rfl
  · exact Or.inr (mem_singleton.mp inside)
  · exact Or.inr (mem_singleton.mp inside)
  · rcases mem_pair.mp inside with same | same
    · exact Or.inr same
    · exact Or.inl same
  · cases inside
  · cases inside

end

theorem mem_names_of_versionSteps {publication final call}
    (member : call ∈ versionSteps hashing publication final) {touched}
    (inside : touched ∈ call.names) :
    touched = final ∨ touched = tmpName final := by
  simp only [versionSteps, mem_cons, not_mem_nil, or_false] at member
  rcases member with rfl | rfl | rfl | rfl | rfl | rfl | rfl
  · exact Or.inr (mem_singleton.mp inside)
  · exact Or.inr (mem_singleton.mp inside)
  · exact Or.inr (mem_singleton.mp inside)
  · exact Or.inr (mem_singleton.mp inside)
  · exact Or.inr (mem_singleton.mp inside)
  · rcases mem_pair.mp inside with same | same
    · exact Or.inr same
    · exact Or.inl same
  · cases inside

/-- A publication goes the same way whatever was left behind: it raises or not,
and ends in the same directory up to the leftovers. -/
theorem execute_publishSteps_cleanRoot {publication}
    (avoids : AvoidsLeftovers digits root publication.pointers) :
    SameRun (isLeftoverDir digits root) (execute root
        (callsOf (publishSteps hashing digits order root publication)))
      (execute (cleanRoot digits root)
        (callsOf (publishSteps hashing digits (cleanOrder digits order root)
          (cleanRoot digits root) publication))) := by
  rw [publishSteps, publishSteps, nextVersionIndex_cleanRoot]
  cases nextVersionIndex digits order root with
  | none =>
    exact ⟨rfl, agreeOff_cleanRoot⟩
  | some index =>
    simp only [callsOf_append, callsOf_plain, append_assoc]
    generalize remainder : versionSteps hashing publication (versionName index) ++
      callsOf (publication.pointers.flatMap fun name =>
        pointerSteps name (versionName index) (publication.manifest hashing)) = rest
    let drop (name : FileName) : Bool :=
      isLeftoverDir digits root name && name != tmpName (versionName index)
    have weaker : ∀ first second : Root × Bool, SameRun drop first second →
        SameRun (isLeftoverDir digits root) first second := by
      intro first second same
      refine ⟨same.1, fun name kept => same.2 name ?_⟩
      simp only [drop, kept, Bool.false_and]
    have touched : ∀ step ∈ rest, ∀ name ∈ step.names, drop name = false := by
      subst remainder
      intro step member name inside
      have kept : isLeftoverDir digits root name = false ∨ name = tmpName (versionName index) := by
        rcases mem_append.mp member with version | pointer
        · rcases mem_names_of_versionSteps version inside with rfl | rfl
          · exact Or.inl (isLeftoverDir_of_isGenerationName (isGenerationName_versionName index))
          · exact Or.inr rfl
        · obtain ⟨planned, plannedMember, rfl⟩ := mem_map.mp pointer
          obtain ⟨other, otherMember, here⟩ := mem_flatMap.mp plannedMember
          rcases mem_names_of_pointerSteps (mem_map_of_mem here) inside with rfl | rfl
          · exact Or.inl (avoids _ otherMember).1
          · exact Or.inl (avoids other otherMember).2
      rcases kept with kept | rfl
      · simp only [drop, kept, Bool.false_and]
      · simp [drop]
    have agrees : ∀ start : Root,
        (∀ name, name ≠ tmpName (versionName index) → start.get? name = root.get? name) →
        start.get? (tmpName (versionName index)) =
          (cleanRoot digits root).get? (tmpName (versionName index)) →
        AgreeOff drop start (cleanRoot digits root) := by
      intro start elsewhere here name kept
      by_cases same : name = tmpName (versionName index)
      · rw [same, here]
      · have ordinary : isLeftoverDir digits root name = false := by
          simpa [drop, same] using kept
        rw [elsewhere name same, get?_cleanRoot_of_kept ordinary]
    unfold clearTmpSteps
    cases found : root.get? (tmpName (versionName index)) with
    | none =>
      have gone : (cleanRoot digits root).get? (tmpName (versionName index)) = none := by
        rw [get?_cleanRoot, found, ite_self]
      rw [Table.contains, found, Table.contains, gone]
      exact weaker _ _ (sameRun_execute touched
        (agrees root (fun _ _ => rfl) (by rw [found, gone])))
    | some node =>
      cases node with
      | directory files =>
        have gone : (cleanRoot digits root).get? (tmpName (versionName index)) = none := by
          rw [get?_cleanRoot, isLeftoverDir_tmpName found, if_pos rfl]
        obtain ⟨cleared, done, changed⟩ := execute_rmtreeSteps order found
        rw [Table.contains, found, Table.contains, gone]
        simp only [Option.isSome_some, if_true, Option.isSome_none,
          Bool.false_eq_true, if_false, nil_append, rmtreeSteps]
        rw [execute_append done]
        refine weaker _ _ (sameRun_execute touched (agrees cleared ?_ ?_))
        · intro name different
          rw [changed, if_neg different]
        · rw [changed, if_pos rfl, gone]
      | file file | other =>
        have kept : isLeftoverDir digits root (tmpName (versionName index)) = false :=
          isLeftoverDir_of_not_isDir (by rw [Root.isDir, found])
        have same := get?_cleanRoot_of_kept kept
        rw [Table.contains, found, Table.contains, same]
        simp only [Option.isSome_some, if_true, rmtreeSteps,
          cons_append, nil_append, execute, FsStep.apply, found,
          same]
        exact ⟨rfl, agreeOff_cleanRoot⟩

end Clean

end GraphZero.Checkpoints
