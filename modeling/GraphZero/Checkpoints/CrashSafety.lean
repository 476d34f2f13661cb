import GraphZero.Checkpoints.Leftovers

/-!
# Crash-safe publication

Over any run of publications, promotions and prunes, with processes dying and
power failing between any two calls, every pointer resolves to the checkpoint of
its last completed write, no publication touches an existing generation, and
leftover directories change nothing.  Each step must stay clear of four defects:
the pointers that prune does not read, a promotion that finds a temporary
directory first, pointers named like the files of another, and the version
directory that is never flushed itself.
-/

namespace GraphZero.Checkpoints

open GraphZero.Foundation List

section Safety

variable {hashing : Hashing} {digits : DigitTable} {order : IterationOrder FileName}
  {root : Root} {written : Written}

theorem Sound.resolveLatest_eq (sound : Sound hashing digits ⟨root, written⟩)
    {pointer directory manifest} (recorded : written.get? pointer = some (directory, manifest)) :
    resolveLatest hashing root pointer = .ok ⟨manifest, directory⟩ := by
  obtain ⟨onDisk, generation, files, found, holds⟩ :=
    sound.pointers pointer directory manifest recorded
  have there : root.get? directory = some (.directory files) := found
  have pointerFile : root.get? pointer = some (.file
      ⟨.pointer ⟨some directory, some manifest.modelVersion.hex⟩, true⟩) := onDisk
  have named : ¬('/' ∈ directory ∨ directory = []) := by
    obtain ⟨suffix, rfl, numeric⟩ := isGenerationName_iff.mp generation
    rintro (slash | empty)
    · rcases mem_append.mp slash with first | second
      · exact absurd first (by decide)
      · simp only [DigitTable.isdigit, Bool.and_eq_true, all_eq_true] at numeric
        have digit := numeric.2 '/' second
        rw [digits.isDigit_ascii '/' (by decide)] at digit
        exact absurd digit (by decide)
    · cases empty
  have length : manifest.modelVersion.hex.length = 32 := by
    rw [ModelVersion.hex, length_hex, manifest.modelVersion.property]
  simp only [resolveLatest, pointerFile, if_neg named, length,
    holds.resolveVersion_eq there, ne_eq, not_true_eq_false, if_false]

theorem Sound.cleanRoot (sound : Sound hashing digits ⟨root, written⟩) :
    Sound hashing digits ⟨cleanRoot digits root, written⟩ := by
  refine sound.of_kept ?_ ?_ ?_
  · intro name files _ found
    rw [get?_cleanRoot] at found
    split at found
    · cases found
    · exact found
  · intro pointer _ _ _ document onDisk
    rw [get?_cleanRoot_of_kept, onDisk]
    exact isLeftoverDir_of_not_isDir (by rw [Root.isDir, onDisk])
  · intro _ directory _ _ generation files found
    rw [get?_cleanRoot_of_kept (isLeftoverDir_of_isGenerationName generation), found]

/-! ### Existing generations -/

/-- The call does not reach into the directory `name`. -/
def FsStep.Spares (name : FileName) : FsStep → Prop
  | .writeIn directory _ _ | .fsyncFileIn directory _ | .unlinkIn directory _
  | .rmdir directory => directory ≠ name
  | .replace source _ => source ≠ name
  | _ => True

theorem FsStep.Spares.get?_eq {step : FsStep} {name files next} (spares : step.Spares name)
    (found : root.get? name = some (.directory files)) (filled : files.keys ≠ [])
    (applied : step.apply root = some next) :
    next.get? name = some (.directory files) := by
  obtain ⟨others, effect⟩ := FsStep.effect_of_apply applied
  have untouched : name ∉ step.names → next.get? name = some (.directory files) :=
    fun outside => by rw [others name outside, found]
  cases step with
  | mkdir other =>
    refine untouched fun inside => ?_
    obtain rfl := mem_singleton.mp inside
    have absent : root.get? name = none := effect.1
    rw [found] at absent
    cases absent
  | write other contents =>
    refine untouched fun inside => ?_
    obtain rfl := mem_singleton.mp inside
    rcases effect.1 with absent | ⟨file, held⟩
    · rw [found] at absent
      cases absent
    · rw [found] at held
      cases held
  | fsyncFile other =>
    rcases effect with ⟨file, held, _⟩ | same
    · refine untouched fun inside => ?_
      obtain rfl := mem_singleton.mp inside
      rw [found] at held
      cases held
    · by_cases here : name = other
      · rw [here, same, ← here, found]
      · exact untouched (by simpa [FsStep.names] using here)
  | writeIn directory file contents | fsyncFileIn directory file
  | unlinkIn directory file | rmdir directory =>
    exact untouched fun inside => spares (mem_singleton.mp inside).symm
  | fsyncDir => exact untouched (not_mem_nil)
  | refuse => exact effect.elim
  | unlink other =>
    refine untouched fun inside => ?_
    obtain rfl := mem_singleton.mp inside
    exact effect.1 files found
  | replace source target =>
    obtain ⟨node, _, allowed, _⟩ := effect
    refine untouched fun inside => ?_
    rcases mem_pair.mp inside with same | same
    · exact spares same.symm
    subst same
    rw [found] at allowed
    cases node with
    | directory old =>
      simp only [FsStep.mayReplace, List.isEmpty_iff] at allowed
      exact filled allowed
    | file file | other => cases allowed

theorem execute_spares {name : FileName} {files} (filled : files.keys ≠ []) {steps}
    (spares : ∀ step ∈ steps, step.Spares name) (found : root.get? name = some (.directory files)) :
    (execute root steps).1.get? name = some (.directory files) := by
  induction steps generalizing root with
  | nil => exact found
  | cons step steps ih =>
    simp only [execute]
    cases applied : step.apply root with
    | none => exact found
    | some next =>
      exact ih (fun later member => spares later (mem_cons_of_mem _ member))
        ((spares step mem_cons_self).get?_eq found filled applied)

theorem spares_of_mem_publishSteps {publication name}
    (generation : isGenerationName digits name = true) {step}
    (member : step ∈ callsOf (publishSteps hashing digits order root publication)) :
    step.Spares name := by
  have different : ∀ other, tmpName other ≠ name := by
    rintro other rfl
    rw [isGenerationName_tmpName] at generation
    cases generation
  unfold publishSteps at member
  split at member
  next =>
    rw [callsOf_plain, mem_singleton] at member
    rw [member]
    trivial
  next index _ =>
  rw [callsOf_append, callsOf_append, callsOf_plain, callsOf_plain,
    mem_append, mem_append] at member
  rcases member with (clearing | version) | pointer
  · unfold clearTmpSteps at clearing
    split at clearing
    · unfold rmtreeSteps at clearing
      split at clearing
      · rcases mem_append.mp clearing with inside | last
        · obtain ⟨file, _, rfl⟩ := mem_map.mp inside
          exact different _
        · rw [mem_singleton.mp last]
          exact different _
      · rw [mem_singleton.mp clearing]
        exact different _
    · cases clearing
  · simp only [versionSteps, mem_cons, not_mem_nil, or_false] at version
    rcases version with rfl | rfl | rfl | rfl | rfl | rfl | rfl
    · trivial
    all_goals first | exact different _ | trivial
  · obtain ⟨planned, plannedMember, rfl⟩ := mem_map.mp pointer
    obtain ⟨other, _, here⟩ := mem_flatMap.mp plannedMember
    rcases mem_callsOf_pointerSteps (mem_map_of_mem here) with
      ⟨contents, same⟩ | same | same | same | same <;> rw [same]
    · trivial
    · trivial
    · exact different other
    · trivial
    · trivial

/-! ### Runs -/

theorem Sound.of_torn {after} (sound : Sound hashing digits ⟨root, written⟩)
    (torn : Torn root after) (entries : KeepsEntries root after) :
    Sound hashing digits ⟨after, written⟩ := by
  have directories : ∀ name files, root.get? name = some (.directory files) →
      ∃ found, after.get? name = some (.directory found) ∧
        ∀ file held, files.get? file = some held → held.synced = true →
          found.get? file = some held := by
    intro name files there
    have tornHere := torn name
    rw [there] at tornHere
    obtain ⟨found, here, each⟩ := tornHere
    refine ⟨found, here, fun file held holds synced => ?_⟩
    have tornFile := each file
    rw [holds] at tornFile
    exact (tornFile synced).resolve_right
      (entries name files found there here file held holds synced)
  have complete : ∀ files found : Table FileName File, ∀ manifest,
      (∀ file held, files.get? file = some held → held.synced = true →
        found.get? file = some held) →
      HoldsPublication hashing files manifest →
      HoldsPublication hashing found manifest := by
    rintro files found manifest keeps ⟨publication, readable, same, first, second⟩
    exact ⟨publication, readable, same, keeps _ _ first rfl, keeps _ _ second rfl⟩
  constructor
  · intro name found generation here
    have tornHere := torn name
    cases there : root.get? name with
    | none =>
      rw [there] at tornHere
      rw [show after.get? name = none from tornHere] at here
      cases here
    | some node =>
      rw [there] at tornHere
      cases node with
      | file file =>
        obtain ⟨other, same, _⟩ := tornHere
        rw [show after.get? name = _ from same] at here
        cases here
      | other =>
        rw [show after.get? name = some .other from tornHere] at here
        cases here
      | directory files =>
        obtain ⟨manifest, holds⟩ := sound.generations name files generation there
        obtain ⟨kept, same, keeps⟩ := directories name files there
        rw [show after.get? name = _ from here] at same
        cases same
        exact ⟨manifest, complete files found manifest keeps holds⟩
  · intro pointer directory manifest recorded
    obtain ⟨onDisk, generation, files, there, holds⟩ :=
      sound.pointers pointer directory manifest recorded
    have tornHere := torn pointer
    rw [show root.get? pointer = _ from onDisk] at tornHere
    obtain ⟨file, here, synced⟩ := tornHere
    rw [synced rfl] at here
    obtain ⟨found, same, keeps⟩ := directories directory files there
    exact ⟨here, generation, found, same, complete files found manifest keeps holds⟩

theorem safeRun_of_careful {world operation} (sound : Sound hashing digits world.current)
    (careful : Careful hashing digits world (.start order operation)) :
    SafeRun hashing digits
      (operation.steps hashing digits order world.current.root) world.current := by
  cases operation with
  | publish publication => exact safeRun_publishSteps sound careful
  | promote name version => exact safeRun_promoteSteps sound careful.1 careful.2
  | prune retain requested => exact safeRun_pruneCalls sound careful
  | ensure name =>
    rw [Operation.steps, ensureSteps]
    split
    · exact sound
    split
    next resolved found =>
      exact safeRun_promoteSteps sound careful.1 (careful.2 resolved found)
    next =>
    exact safeRun_refuse sound

/-- The running operation stays sound, and so is every state that a power loss
may bring back. -/
structure Durable (hashing : Hashing) (digits : DigitTable) (world : World) : Prop where
  pending : SafeRun hashing digits world.pending world.current
  earlier : ∀ snapshot ∈ world.earlier, Sound hashing digits snapshot

theorem durable_step {world next label} (durable : Durable hashing digits world)
    (careful : Careful hashing digits world label)
    (step : World.Step hashing digits world label next) :
    Durable hashing digits next := by
  have sound := durable.pending.sound
  cases label with
  | start order operation =>
    simp only [World.Step, World.next?] at step
    split at step
    · cases step
      exact ⟨safeRun_of_careful sound careful, durable.earlier⟩
    · cases step
  | call =>
    simp only [World.Step, World.next?] at step
    have running := durable.pending
    split at step
    · cases step
    next planned rest pending =>
    rw [pending] at running
    split at step
    next =>
      cases step
      exact ⟨sound, durable.earlier⟩
    next applied =>
    cases step
    refine ⟨running.2 _ applied, ?_⟩
    split
    · exact forall_mem_nil _
    intro snapshot member
    rcases mem_cons.mp member with rfl | member
    · exact sound
    · exact durable.earlier snapshot member
  | die =>
    cases step
    exact ⟨sound, durable.earlier⟩
  | powerLoss kept after =>
    obtain ⟨snapshot, found, torn, rfl⟩ := step
    have soundThen : Sound hashing digits snapshot := by
      rcases mem_cons.mp (mem_of_getElem? found) with rfl | member
      · exact sound
      · exact durable.earlier snapshot member
    exact ⟨soundThen.of_torn torn (careful snapshot found), forall_mem_nil _⟩

/-- What crash-safe publication promises of a state. -/
structure CrashSafe (hashing : Hashing) (digits : DigitTable) (world : World) : Prop where
  /-- A pointer that was ever written resolves to the checkpoint of its last
  completed write. -/
  resolves : ∀ pointer directory manifest,
    world.current.written.get? pointer = some (directory, manifest) →
    resolveLatest hashing world.current.root pointer = .ok ⟨manifest, directory⟩
  /-- A publication, however far it gets, keeps every existing generation. -/
  keepsGenerations : ∀ order publication count name files,
    isGenerationName digits name = true →
    world.current.root.get? name = some (.directory files) →
    (execute world.current.root ((callsOf (publishSteps hashing digits order world.current.root
        publication)).take count)).1.get? name = some (.directory files)
  /-- Without the leftover directories, the pointers resolve to the same
  checkpoints. -/
  leftoversResolve : ∀ pointer directory manifest,
    world.current.written.get? pointer = some (directory, manifest) →
    resolveLatest hashing (cleanRoot digits world.current.root) pointer = .ok ⟨manifest, directory⟩
  /-- A publication goes as it would without them. -/
  leftoversPublish : ∀ order publication,
    CarefulPublication digits world.current publication →
    ∃ listing, SameRun (isLeftoverDir digits world.current.root) (execute world.current.root
        (callsOf (publishSteps hashing digits order world.current.root publication)))
      (execute (cleanRoot digits world.current.root) (callsOf (publishSteps hashing digits listing
          (cleanRoot digits world.current.root) publication)))
  /-- A prune raises, or deletes the same generations, as it would without
  them. -/
  leftoversPrune : ∀ order retain requested,
    ∃ listing,
      (pruneCheckpoints digits order world.current.root retain requested).1 =
        (pruneCheckpoints digits listing (cleanRoot digits world.current.root) retain requested).1 ∧
      AgreeOff (isLeftoverDir digits world.current.root)
        (pruneCheckpoints digits order world.current.root retain requested).2
        (pruneCheckpoints digits listing (cleanRoot digits world.current.root) retain requested).2

theorem Sound.crashSafe {world} (sound : Sound hashing digits world.current) :
    CrashSafe hashing digits world where
  resolves _ _ _ recorded := sound.resolveLatest_eq recorded
  keepsGenerations order publication count name files generation found := by
    obtain ⟨manifest, _, _, _, manifestFile, _⟩ := sound.generations name files generation found
    have filled : files.keys ≠ [] := ne_nil_of_mem (Table.mem_keys_of_get? manifestFile)
    exact execute_spares filled (fun step member => spares_of_mem_publishSteps generation
        (mem_of_mem_take member)) found
  leftoversResolve _ _ _ recorded := sound.cleanRoot.resolveLatest_eq recorded
  leftoversPublish order _ careful :=
    ⟨cleanOrder digits order world.current.root, execute_publishSteps_cleanRoot careful.avoids⟩
  leftoversPrune order retain requested :=
    ⟨cleanOrder digits order world.current.root, pruneCheckpoints_cleanRoot retain requested⟩

end Safety

/-- In every run whose steps all stay clear of the defects, publication is
crash-safe in every state. -/
theorem crashSafe_of_careful (hashing : Hashing) (digits : DigitTable) (world : World)
    (reachable : ((checkpointSystem hashing digits).guarded
      (Careful hashing digits)).Reachable world) :
    CrashSafe hashing digits world := by
  have durable : Durable hashing digits world := by
    refine reachable.invariant ?_ ?_
    · rintro start rfl
      exact ⟨sound_initial hashing digits, forall_mem_nil _⟩
    · intro state label next durable step
      exact durable_step durable step.1 step.2
  exact durable.pending.sound.crashSafe

/-! ### Two runs -/

namespace Sample

/-- A stand-in for BLAKE2b that tells the inputs below apart. -/
def hashing : Hashing where
  blake2b bytes := List.replicate 32 (bytes.foldl (· + ·) 0)
  serialized contents :=
    match contents with
    | .data bytes => bytes
    | _ => []
  length_blake2b _ := length_replicate
  serialized_data _ := rfl

def publication (seed : UInt8) : Publication where
  weights := List.replicate 4 seed
  archConfigHash := List.replicate 32 0
  featureSchemaHash := List.replicate 32 0
  trainingStep := 1
  runId := "run".toList
  checkpointPointers := []

theorem reaches_of_start {world next order operation labels}
    (careful : Careful hashing latin world (.start order operation))
    (calls : ∀ label ∈ labels, label = .call ∨ label = .die)
    (followed : (Label.start order operation :: labels).foldlM
      (World.next? hashing latin) world = some next) :
    ((checkpointSystem hashing latin).guarded (Careful hashing latin)).Reaches world next := by
  have rest : ∀ labels : List Label, (∀ label ∈ labels, label = .call ∨
      label = .die) → ∀ world, labels.foldlM (World.next? hashing latin) world = some next →
      ((checkpointSystem hashing latin).guarded (Careful hashing latin)).Reaches world next := by
    intro labels
    induction labels with
    | nil =>
      intro _ world same
      cases same
      exact TransitionSystem.Reaches.refl _
    | cons label labels ih =>
      intro plain world followed
      rw [foldlM_cons, Option.bind_eq_bind, Option.bind_eq_some_iff] at followed
      obtain ⟨mid, stepped, followed⟩ := followed
      have step : ((checkpointSystem hashing latin).guarded
          (Careful hashing latin)).step world label mid := by
        rcases plain label mem_cons_self with rfl | rfl
        · exact ⟨trivial, stepped⟩
        · exact ⟨trivial, stepped⟩
      exact TransitionSystem.Reaches.trans ⟨_, TransitionSystem.Run.single step⟩
        (ih (fun other member =>
          plain other (mem_cons_of_mem _ member)) mid followed)
  rw [foldlM_cons, Option.bind_eq_bind, Option.bind_eq_some_iff] at followed
  obtain ⟨mid, stepped, followed⟩ := followed
  have step : ((checkpointSystem hashing latin).guarded
      (Careful hashing latin)).step world (.start order operation) mid :=
    ⟨careful, stepped⟩
  exact TransitionSystem.Reaches.trans ⟨_, TransitionSystem.Run.single step⟩
    (rest labels calls mid followed)

theorem readable_publication (seed : UInt8) : (publication seed).Readable :=
  ⟨Int.one_nonneg, by simp [publication], by simp [publication],
    by simp [publication]⟩

def interrupted : List Label :=
  .start .stored (.publish (publication 7)) :: (List.replicate 5 .call ++ [.die])

/-- The same publication once more, over what the first left behind. -/
def repeated : List Label :=
  .start .stored (.publish (publication 7)) :: List.replicate 14 .call

end Sample

theorem crashSafe_of_careful_sample : ∃ world : World, world.current.written.get? latestName =
        some (versionName 0, (Sample.publication 7).manifest Sample.hashing) ∧
      CrashSafe Sample.hashing Sample.latin world := by
  have first : ((Sample.interrupted.foldlM
      (World.next? Sample.hashing Sample.latin) World.initial).bind fun world =>
        (Sample.repeated.foldlM (World.next? Sample.hashing Sample.latin) world).map fun final =>
          ((world.current.written.get? (tmpName latestName)).isNone &&
            !isLeftoverDir Sample.latin world.current.root latestName &&
            !isLeftoverDir Sample.latin world.current.root (tmpName latestName),
            final.current.written.get? latestName)) =
      some (true, some (versionName 0,
        (Sample.publication 7).manifest Sample.hashing)) := by
    decide +kernel
  obtain ⟨world, toWorld, first⟩ := Option.bind_eq_some_iff.mp first
  obtain ⟨final, toFinal, observed⟩ := Option.map_eq_some_iff.mp first
  obtain ⟨clear, recorded⟩ := Prod.mk.inj observed
  simp only [Bool.and_eq_true, Option.isNone_iff_eq_none, Bool.not_eq_true'] at clear
  have careful : ∀ snapshot : Snapshot,
      snapshot.written.get? (tmpName latestName) = none →
      isLeftoverDir Sample.latin snapshot.root latestName = false →
      isLeftoverDir Sample.latin snapshot.root (tmpName latestName) = false →
      CarefulPublication Sample.latin snapshot (Sample.publication 7) := by
    intro snapshot free noLatest noTmp
    have only : ∀ name ∈ (Sample.publication 7).pointers, name = latestName :=
      fun name member => mem_singleton.mp member
    refine ⟨Sample.readable_publication 7, ⟨?_, pairwise_singleton _ _⟩, ?_⟩
    · intro name member
      rw [only name member]
      exact free
    · intro name member
      rw [only name member]
      exact ⟨noLatest, noTmp⟩
  have before := @Sample.reaches_of_start World.initial world .stored
    (.publish (Sample.publication 7))
    (List.replicate 5 Label.call ++ [Label.die])
    (careful ⟨∅, ∅⟩ rfl rfl rfl)
    (fun label member => (mem_append.mp member).imp
      eq_of_mem_replicate mem_singleton.mp) toWorld
  have after := @Sample.reaches_of_start world final .stored
    (.publish (Sample.publication 7)) (List.replicate 14 Label.call)
    (careful world.current clear.1.1 clear.1.2 clear.2)
    (fun label member => Or.inl (eq_of_mem_replicate member)) toFinal
  exact ⟨final, recorded, crashSafe_of_careful Sample.hashing Sample.latin final
    ⟨World.initial, rfl, before.trans after⟩⟩

namespace Sample

def frozen : FileName := "frozen.json".toList

/-- Two publications, a pointer of its own to the first, and a prune. -/
def pinnedRun : List Label :=
  (.start .stored (.publish (publication 7)) :: List.replicate 11 .call : List Label) ++
    (.start .stored (.publish (publication 8)) :: List.replicate 11 .call : List Label) ++
    (.start .stored (.promote frozen ((publication 7).manifest hashing).modelVersion.hex) ::
      List.replicate 4 .call : List Label) ++
    (.start .stored (.prune 1 []) :: List.replicate 6 .call : List Label)

end Sample

/-- After the prune the pinned pointer resolves to nothing. -/
theorem crashSafe_fails_for_pinned_pointer :
    ¬∀ world, (checkpointSystem Sample.hashing Sample.latin).Reachable world →
      CrashSafe Sample.hashing Sample.latin world := by
  intro always
  have outcome : ((Sample.pinnedRun.foldlM
      (World.next? Sample.hashing Sample.latin) World.initial).map fun world =>
        (world.current.written.get? Sample.frozen,
          resolveLatest Sample.hashing world.current.root Sample.frozen)) =
      some (some (versionName 0, (Sample.publication 7).manifest Sample.hashing),
        .error .missingManifest) := by
    decide +kernel
  obtain ⟨world, followed, observed⟩ := Option.map_eq_some_iff.mp outcome
  obtain ⟨recorded, dangling⟩ := Prod.mk.inj observed
  have reaches : (checkpointSystem Sample.hashing Sample.latin).Run World.initial
      Sample.pinnedRun world := by
    refine TransitionSystem.Run.of_foldlM ?_ followed
    intro source label target stepped
    cases label with
    | powerLoss kept after => cases stepped
    | start order operation | call | die => exact stepped
  have safe := always world ⟨World.initial, rfl, _, reaches⟩
  have resolved := safe.resolves Sample.frozen _ _ recorded
  rw [dangling] at resolved
  cases resolved

end GraphZero.Checkpoints
