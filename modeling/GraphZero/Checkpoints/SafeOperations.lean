import GraphZero.Checkpoints.Durability

/-!
# Every call of a careful operation keeps the directory sound

`SafeRun` says that the directory is sound before each of the planned calls and
after the last.  One lemma for each operation proves it of its calls; the states
of every run follow.
-/

namespace GraphZero.Checkpoints

open GraphZero.Foundation List

/-- The directory stays sound however far the planned steps get. -/
def SafeRun (hashing : Hashing) (digits : DigitTable) : List PlannedStep → Snapshot → Prop
  | [], snapshot => Sound hashing digits snapshot
  | step :: rest, snapshot =>
    Sound hashing digits snapshot ∧ ∀ next, step.call.apply snapshot.root = some next →
        SafeRun hashing digits rest ⟨next, step.record snapshot.written⟩

theorem execute_cons_eq_true {root next step rest}
    (done : execute root (step :: rest) = (next, true)) :
    ∃ mid, step.apply root = some mid ∧ execute mid rest = (next, true) := by
  simp only [execute] at done
  cases applied : step.apply root with
  | none => simp [applied] at done
  | some mid =>
    rw [applied] at done
    exact ⟨mid, rfl, done⟩

theorem isGenerationName_tmpName (digits : DigitTable) (name : FileName) :
    isGenerationName digits (tmpName name) = false := by
  rw [Bool.eq_false_iff]
  intro generation
  obtain ⟨suffix, same, numeric⟩ := isGenerationName_iff.mp generation
  have dotted : '.' ∈ tmpName name := mem_append_right name (by decide)
  rw [same, mem_append] at dotted
  rcases dotted with first | second
  · exact absurd first (by decide)
  · exact digits.dot_not_mem_of_isdigit numeric second

theorem isGenerationName_of_isTombstoneName {digits name}
    (tombstone : isTombstoneName digits name = true) :
    isGenerationName digits name = false := by
  rw [Bool.eq_false_iff]
  intro generation
  rw [isTombstoneName_of_isGenerationName generation] at tombstone
  cases tombstone

section Operations

variable {hashing : Hashing} {digits : DigitTable} {order : IterationOrder FileName}
  {root : Root} {written : Written}

theorem SafeRun.sound {steps snapshot} (safe : SafeRun hashing digits steps snapshot) :
    Sound hashing digits snapshot := by
  cases steps with
  | nil => exact safe
  | cons step rest => exact safe.1

theorem safeRun_plain {calls rest} (sound : Sound hashing digits ⟨root, written⟩)
    (harmless : ∀ call ∈ calls, Harmless digits written call)
    (continues : ∀ next, execute root calls = (next, true) → Sound hashing digits ⟨next, written⟩ →
      SafeRun hashing digits rest ⟨next, written⟩) :
    SafeRun hashing digits (plain calls ++ rest) ⟨root, written⟩ := by
  induction calls generalizing root with
  | nil => exact continues root rfl sound
  | cons call calls ih =>
    refine ⟨sound, fun mid applied => ?_⟩
    refine ih (sound.of_harmless (harmless call mem_cons_self) applied)
      (fun other member => harmless other (mem_cons_of_mem _ member)) ?_
    intro next done
    exact continues next (by rw [execute_cons applied, done])

variable {rest : List PlannedStep} {next : Root} {name : FileName}

theorem safeRun_refuse (sound : Sound hashing digits ⟨root, written⟩) :
    SafeRun hashing digits (plain [.refuse] ++ rest) ⟨root, written⟩ :=
  ⟨sound, fun _ applied => by cases applied⟩

theorem safeRun_harmless {calls} (sound : Sound hashing digits ⟨root, written⟩)
    (harmless : ∀ call ∈ calls, Harmless digits written call) :
    SafeRun hashing digits (plain calls) ⟨root, written⟩ := by
  rw [← append_nil (plain calls)]
  exact safeRun_plain sound harmless fun _ _ after => after

/-! ### Pointer writes -/

theorem execute_write_fsync {contents}
    (done : execute root [.write name contents, .fsyncFile name] = (next, true)) :
    next.get? name = some (.file ⟨contents, true⟩) ∧
      (∀ files, root.get? name ≠ some (.directory files)) ∧
      ∀ other, other ≠ name → next.get? other = root.get? other := by
  obtain ⟨mid, first, done⟩ := execute_cons_eq_true done
  obtain ⟨last, second, done⟩ := execute_cons_eq_true done
  obtain ⟨rfl, _⟩ := Prod.mk.inj done
  obtain ⟨firstOthers, before, content⟩ := FsStep.effect_of_apply first
  obtain ⟨secondOthers, flushed⟩ := FsStep.effect_of_apply second
  refine ⟨?_, ?_, ?_⟩
  · simp only [FsStep.apply, content] at second
    rw [← Option.some.inj second, Table.get?_insert_self]
  · rcases before with absent | ⟨file, found⟩
    · simp [absent]
    · simp [found]
  · intro other different
    rw [secondOthers other (by simpa [FsStep.names] using different),
      firstOthers other (by simpa [FsStep.names] using different)]

section

variable {name directory : FileName} {manifest : CheckpointManifest} {files : Table FileName File}

theorem Sound.of_pointer_rename (sound : Sound hashing digits ⟨root, written⟩)
    (free : written.get? (tmpName name) = none)
    (document : root.get? (tmpName name) = some (.file
      ⟨.pointer ⟨some directory, some manifest.modelVersion.hex⟩, true⟩))
    (generation : isGenerationName digits directory = true)
    (found : root.get? directory = some (.directory files))
    (holds : HoldsPublication hashing files manifest)
    (applied : (FsStep.replace (tmpName name) name).apply root = some next) :
    Sound hashing digits ⟨next, written.insert name (directory, manifest)⟩ ∧
      next.get? directory = some (.directory files) := by
  obtain ⟨_, node, there, allowed, rfl⟩ := FsStep.effect_of_apply applied
  rw [document] at there
  obtain rfl := Option.some.inj there
  have noDirectory : ∀ other, root.get? name ≠ some (.directory other) := by
    intro other held
    rw [held] at allowed
    cases allowed
  have after : ∀ other, ((root.erase (tmpName name)).insert name (.file
      ⟨.pointer ⟨some directory, some manifest.modelVersion.hex⟩, true⟩)).get? other =
      if other = name then some (.file
        ⟨.pointer ⟨some directory, some manifest.modelVersion.hex⟩, true⟩)
      else if other = tmpName name then none else root.get? other := by
    intro other
    rw [Table.get?_insert, Table.get?_erase]
  -- Version directories are neither the pointer nor its temporary file.
  have keeps : ∀ other held, root.get? other = some (.directory held) →
      ((root.erase (tmpName name)).insert name (.file
        ⟨.pointer ⟨some directory, some manifest.modelVersion.hex⟩, true⟩)).get?
          other = some (.directory held) := by
    intro other held there
    rw [after, if_neg, if_neg, there]
    · rintro rfl
      rw [document] at there
      cases there
    · rintro rfl
      exact noDirectory held there
  refine ⟨⟨?_, ?_⟩, keeps directory files found⟩
  · intro other held numbered there
    rw [after] at there
    split at there
    · cases there
    split at there
    · cases there
    · exact sound.generations other held numbered there
  · intro pointer target targetManifest recorded
    rw [Table.get?_insert] at recorded
    split at recorded
    next same =>
      obtain ⟨rfl, rfl⟩ := Prod.mk.inj (Option.some.inj recorded)
      exact ⟨by rw [same, after, if_pos rfl], generation, files,
        keeps _ files found, holds⟩
    next different =>
    obtain ⟨onDisk, numbered, held, there, complete⟩ :=
      sound.pointers pointer target targetManifest recorded
    refine ⟨?_, numbered, held, keeps target held there, complete⟩
    rw [after, if_neg different, if_neg, onDisk]
    rintro rfl
    rw [free] at recorded
    cases recorded

theorem safeRun_pointerSteps {rest} (sound : Sound hashing digits ⟨root, written⟩)
    (free : written.get? (tmpName name) = none)
    (generation : isGenerationName digits directory = true)
    (found : root.get? directory = some (.directory files))
    (holds : HoldsPublication hashing files manifest)
    (continues : ∀ next, next.get? directory = some (.directory files) →
      Sound hashing digits ⟨next, written.insert name (directory, manifest)⟩ →
      SafeRun hashing digits rest ⟨next, written.insert name (directory, manifest)⟩) :
    SafeRun hashing digits (pointerSteps name directory manifest ++ rest) ⟨root, written⟩ := by
  unfold pointerSteps
  split
  next =>
    rw [append_assoc]
    refine safeRun_plain sound ?_ ?_
    · intro call member
      rcases mem_pair.mp member with rfl | rfl
      · exact free
      · trivial
    intro mid done soundMiddle
    split
    next => exact safeRun_refuse soundMiddle
    next =>
    refine ⟨soundMiddle, fun renamed applied => ?_⟩
    obtain ⟨document, noDirectory, others⟩ := execute_write_fsync done
    have there : mid.get? directory = some (.directory files) := by
      rw [others, found]
      rintro rfl
      exact noDirectory files found
    obtain ⟨soundRenamed, kept⟩ := soundMiddle.of_pointer_rename free
      document generation there holds applied
    refine ⟨soundRenamed, fun flushed same => ?_⟩
    obtain rfl := Option.some.inj same
    exact continues renamed kept soundRenamed
  next => exact safeRun_refuse sound

end

theorem safeRun_pointers {names directory manifest files}
    (sound : Sound hashing digits ⟨root, written⟩) (clear : WritesClear written names)
    (generation : isGenerationName digits directory = true)
    (found : root.get? directory = some (.directory files))
    (holds : HoldsPublication hashing files manifest) :
    SafeRun hashing digits (names.flatMap fun name => pointerSteps name directory manifest)
      ⟨root, written⟩ := by
  induction names generalizing root written with
  | nil => exact sound
  | cons name names ih =>
    obtain ⟨earlier, sequence⟩ := pairwise_cons.mp clear.sequence
    refine safeRun_pointerSteps sound (clear.pointers name mem_cons_self) generation found holds ?_
    intro next there soundNext
    refine ih soundNext ⟨?_, sequence⟩ there
    intro later member
    rw [Table.get?_insert_of_ne (earlier later member).symm]
    exact clear.pointers later (mem_cons_of_mem _ member)

/-! ### Publishing -/

theorem execute_versionFiles {publication : Publication} {name} (readable : publication.Readable)
    (done : execute root [.mkdir name, .writeIn name weightsFileName (.data publication.weights),
        .fsyncFileIn name weightsFileName,
        .writeIn name manifestFileName (.manifest (publication.manifest hashing)),
        .fsyncFileIn name manifestFileName] = (next, true)) :
    ∃ files, next.get? name = some (.directory files) ∧
      HoldsPublication hashing files (publication.manifest hashing) := by
  have different : weightsFileName ≠ manifestFileName := by decide
  obtain ⟨one, made, done⟩ := execute_cons_eq_true done
  obtain ⟨two, written, done⟩ := execute_cons_eq_true done
  obtain ⟨three, flushed, done⟩ := execute_cons_eq_true done
  obtain ⟨four, described, done⟩ := execute_cons_eq_true done
  obtain ⟨five, settled, done⟩ := execute_cons_eq_true done
  obtain ⟨rfl, _⟩ := Prod.mk.inj done
  obtain ⟨_, _, empty⟩ := FsStep.effect_of_apply made
  obtain ⟨_, files, found, two_get⟩ := FsStep.effect_of_apply written
  rw [empty] at found
  cases found
  obtain ⟨_, files, file, found, held, three_get⟩ := FsStep.effect_of_apply flushed
  rw [two_get] at found
  cases found
  cases held
  obtain ⟨_, files, found, four_get⟩ := FsStep.effect_of_apply described
  rw [three_get] at found
  cases found
  obtain ⟨_, files, file, found, held, five_get⟩ := FsStep.effect_of_apply settled
  rw [four_get] at found
  cases found
  cases held
  refine ⟨_, five_get, publication, readable, rfl, Table.get?_insert_self _ _ _, ?_⟩
  rw [Table.get?_insert_of_ne different, Table.get?_insert_of_ne different, Table.get?_insert_self]

theorem Sound.of_version_rename {final manifest files}
    (sound : Sound hashing digits ⟨root, written⟩)
    (generation : isGenerationName digits final = true)
    (found : root.get? (tmpName final) = some (.directory files))
    (holds : HoldsPublication hashing files manifest)
    (applied : (FsStep.replace (tmpName final) final).apply root = some next) :
    Sound hashing digits ⟨next, written⟩ ∧ next.get? final = some (.directory files) := by
  obtain ⟨_, node, there, allowed, rfl⟩ := FsStep.effect_of_apply applied
  rw [found] at there
  obtain rfl := Option.some.inj there
  -- A generation is never empty, so the rename finds nothing at its target.
  have fresh : root.get? final = none := by
    cases held : root.get? final with
    | none => rfl
    | some node =>
      rw [held] at allowed
      cases node with
      | file file | other => cases allowed
      | directory old =>
        obtain ⟨_, publication, _, _, manifestFile, _⟩ :=
          sound.generations final old generation held
        have listed := Table.mem_keys_of_get? manifestFile
        simp only [FsStep.mayReplace, List.isEmpty_iff] at allowed
        rw [allowed] at listed
        cases listed
  have elsewhere : ∀ other, other ≠ tmpName final → other ≠ final →
      ((root.erase (tmpName final)).insert final (.directory files)).get? other =
        root.get? other := fun other first second => by
    rw [Table.get?_insert_of_ne second, Table.get?_erase_of_ne first]
  refine ⟨⟨?_, ?_⟩, Table.get?_insert_self _ _ _⟩
  · intro other held numbered there
    by_cases same : other = final
    · rw [same, Table.get?_insert_self] at there
      cases there
      exact ⟨manifest, holds⟩
    · rw [elsewhere other (by
        rintro rfl
        rw [isGenerationName_tmpName] at numbered
        cases numbered) same] at there
      exact sound.generations other held numbered there
  · intro pointer target targetManifest recorded
    obtain ⟨onDisk, numbered, held, there, complete⟩ :=
      sound.pointers pointer target targetManifest recorded
    refine ⟨?_, numbered, held, ?_, complete⟩
    · rw [elsewhere, onDisk]
      · rintro rfl
        rw [found] at onDisk
        cases onDisk
      · rintro rfl
        rw [fresh] at onDisk
        cases onDisk
    · rw [elsewhere, there]
      · rintro rfl
        rw [isGenerationName_tmpName] at numbered
        cases numbered
      · rintro rfl
        rw [fresh] at there
        cases there

theorem harmless_rmtreeSteps (node : Option Node)
    (ordinary : isGenerationName digits name = false) :
    ∀ call ∈ rmtreeSteps order name node, Harmless digits written call := by
  intro call member
  unfold rmtreeSteps at member
  split at member
  next files =>
    rcases mem_append.mp member with inside | last
    · obtain ⟨file, _, rfl⟩ := mem_map.mp inside
      exact ordinary
    · rw [mem_singleton.mp last]
      exact ordinary
  next =>
  rw [mem_singleton.mp member]
  exact ordinary

theorem harmless_clearTmpSteps (final : FileName) :
    ∀ call ∈ clearTmpSteps order root final, Harmless digits written call := by
  unfold clearTmpSteps
  split
  · exact harmless_rmtreeSteps _ (isGenerationName_tmpName digits final)
  · exact forall_mem_nil _

theorem safeRun_publishSteps {publication : Publication}
    (sound : Sound hashing digits ⟨root, written⟩)
    (careful : CarefulPublication digits ⟨root, written⟩ publication) :
    SafeRun hashing digits (publishSteps hashing digits order root publication)
      ⟨root, written⟩ := by
  unfold publishSteps
  split
  next =>
    exact safeRun_refuse sound
  next index _ =>
  have ordinary := isGenerationName_tmpName digits (versionName index)
  rw [append_assoc]
  refine safeRun_plain sound (harmless_clearTmpSteps _) ?_
  intro cleared _ soundCleared
  have split : versionSteps hashing publication (versionName index) =
      [.mkdir (tmpName (versionName index)),
        .writeIn (tmpName (versionName index)) weightsFileName (.data publication.weights),
        .fsyncFileIn (tmpName (versionName index)) weightsFileName,
        .writeIn (tmpName (versionName index)) manifestFileName
          (.manifest (publication.manifest hashing)),
        .fsyncFileIn (tmpName (versionName index)) manifestFileName] ++
      [.replace (tmpName (versionName index)) (versionName index), .fsyncDir] := rfl
  rw [split, plain, map_append, append_assoc]
  refine safeRun_plain soundCleared ?_ ?_
  · intro call member
    simp only [mem_cons, not_mem_nil, or_false] at member
    rcases member with rfl | rfl | rfl | rfl | rfl <;> exact ordinary
  intro prepared done soundPrepared
  obtain ⟨files, found, holds⟩ := execute_versionFiles careful.readable done
  refine ⟨soundPrepared, fun renamed applied => ?_⟩
  obtain ⟨soundRenamed, there⟩ := soundPrepared.of_version_rename
    (isGenerationName_versionName index) found holds applied
  refine ⟨soundRenamed, fun flushed same => ?_⟩
  obtain rfl := Option.some.inj same
  exact safeRun_pointers soundRenamed careful.clear (isGenerationName_versionName index) there holds

/-! ### Promoting -/

theorem read_manifest_eq {contents manifest}
    (read : CheckpointManifest.read contents = .ok manifest) :
    contents = .manifest manifest := by
  cases contents with
  | manifest document =>
    have same : document = manifest := by
      iterate 6
        obtain ⟨_, rest⟩ := throw_bind_else_eq_ok_iff.mp read
        rename' rest => read
      exact Except.ok.inj read
    rw [same]
  | pointer document | json | data bytes => cases read

theorem findVersion_eq_some {version names directory manifest}
    (found : findVersion root version names = .ok (some (directory, manifest))) :
    ∃ front back, names = front ++ directory :: back ∧ Root.isDir root directory = true ∧
      "version_".toList.isPrefixOf directory = true ∧
      (∃ file, Root.fileIn root directory manifestFileName = some file ∧
        CheckpointManifest.read file.contents = .ok manifest) ∧
      manifest.modelVersion.hex = version ∧
      ∀ other ∈ front, isGenerationName digits other = true →
        Root.isDir root other = true → ¬HoldsVersion root other version := by
  induction names with
  | nil => cases found
  | cons name names ih =>
    have continues : (isGenerationName digits name = true →
        Root.isDir root name = true → ¬HoldsVersion root name version) →
        findVersion root version names = .ok (some (directory, manifest)) →
        ∃ front back, name :: names = front ++ directory :: back ∧
          Root.isDir root directory = true ∧ "version_".toList.isPrefixOf directory = true ∧
          (∃ file, Root.fileIn root directory manifestFileName = some file ∧
            CheckpointManifest.read file.contents = .ok manifest) ∧
          manifest.modelVersion.hex = version ∧
          ∀ other ∈ front, isGenerationName digits other = true → Root.isDir root other = true →
              ¬HoldsVersion root other version := by
      intro skipped later
      obtain ⟨front, back, split, isDir, named, read, same, others⟩ := ih later
      refine ⟨name :: front, back, by rw [split, cons_append], isDir, named, read, same, ?_⟩
      intro other member
      rcases mem_cons.mp member with rfl | member
      · exact skipped
      · exact others other member
    unfold findVersion at found
    split at found
    next outside =>
      refine continues ?_ found
      intro generation isDir
      simp only [isGenerationName, Bool.and_eq_true] at generation
      rw [isDir, generation.1] at outside
      cases outside
    next inside =>
    split at found
    next absent =>
      refine continues ?_ found
      rintro _ _ ⟨file, _, present, _⟩
      rw [absent] at present
      cases present
    next file present =>
    split at found
    next => cases found
    next other read =>
    split at found
    next same =>
      cases found
      simp only [Bool.or_eq_true, Bool.not_eq_true', not_or, Bool.not_eq_false] at inside
      exact ⟨[], names, rfl, inside.1, inside.2, ⟨file, present, read⟩, same, forall_mem_nil _⟩
    next different =>
    refine continues ?_ found
    rintro _ _ ⟨again, held, there, reads, same⟩
    rw [present] at there
    cases there
    rw [read] at reads
    cases reads
    exact different same

theorem safeRun_promoteSteps {version} (sound : Sound hashing digits ⟨root, written⟩)
    (free : written.get? (tmpName name) = none)
    (later : TemporariesLater digits order root version) :
    SafeRun hashing digits (promoteSteps order root name version) ⟨root, written⟩ := by
  unfold promoteSteps
  split
  next directory manifest found =>
    obtain ⟨front, back, split, isDir, named, ⟨file, present, read⟩, same, others⟩ :=
      @findVersion_eq_some digits root version _ directory manifest found
    have generation : isGenerationName digits directory = true := by
      by_contra ordinary
      rw [Bool.not_eq_true] at ordinary
      obtain ⟨other, member, otherDir, numbered, held⟩ :=
        later front directory back split isDir named ordinary ⟨file, manifest, present, read, same⟩
      exact others other member numbered otherDir held
    obtain ⟨files, there⟩ := Root.isDir_iff.mp isDir
    obtain ⟨other, holds⟩ := sound.generations directory files generation there
    have one : other = manifest := by
      obtain ⟨_, _, _, manifestFile, _⟩ := holds
      simp only [Root.fileIn, there] at present
      rw [manifestFile] at present
      cases present
      have contents := read_manifest_eq read
      injection contents
    subst one
    rw [← append_nil (pointerSteps _ _ _)]
    exact safeRun_pointerSteps sound free generation there holds fun _ _ soundNext => soundNext
  next =>
  exact safeRun_refuse sound

/-! ### Pruning -/

theorem safeRun_pruneCalls {retain requested} (sound : Sound hashing digits ⟨root, written⟩)
    (careful : CarefulPrune digits order ⟨root, written⟩ retain requested) :
    SafeRun hashing digits (pruneCalls digits order root retain requested) ⟨root, written⟩ := by
  have refused : SafeRun hashing digits (plain [.refuse]) ⟨root, written⟩ := by
    exact safeRun_refuse sound
  unfold pruneCalls
  split
  next => exact refused
  next nonnegative =>
  split
  next => exact sound
  next nonzero =>
  split
  next => exact refused
  next removals plan =>
  obtain ⟨versions, accepts, _, removed⟩ := prunePlan_eq_ok (by omega) plan
  have listed := listed_of_readGenerations accepts.generations
  have numbered : ∀ name ∈ removals,
      Root.isDir root name = true ∧ isGenerationName digits name = true := by
    intro name member
    obtain ⟨generation, generationMember, same, _⟩ := (removed name).mp member
    exact (listed.names name).mp ⟨generation, generationMember, same⟩
  have noTombstone : ∀ name, isTombstoneName digits name = true → written.get? name = none := by
    intro name tombstone
    cases recorded : written.get? name with
    | none => rfl
    | some target =>
      have plainName := (careful versions accepts name target.1 target.2 recorded).1
      rw [tombstone] at plainName
      cases plainName
  have noPointer : ∀ name ∈ removals, written.get? name = none := by
    intro name member
    cases recorded : written.get? name with
    | none => rfl
    | some target =>
      obtain ⟨onDisk, _⟩ := sound.pointers name target.1 target.2 recorded
      obtain ⟨files, found⟩ := Root.isDir_iff.mp (numbered name member).1
      rw [show root.get? name = _ from onDisk] at found
      cases found
  -- What prune removes is named by no pointer that was written.
  have unnamed : ∀ name ∈ removals, ∀ pointer directory manifest,
      written.get? pointer = some (directory, manifest) → directory ≠ name := by
    rintro name member pointer directory manifest recorded rfl
    obtain ⟨generation, generationMember, same, notNew, unread, unprotected⟩ :=
      (removed directory).mp member
    rcases (careful versions accepts pointer directory manifest recorded).2 with
      recognised | kept
    · refine unread ⟨pointer, recognised, true, ?_⟩
      obtain ⟨onDisk, _, files, found, holds⟩ := sound.pointers pointer directory manifest recorded
      obtain ⟨_, _, file, present, read⟩ :=
        readGeneration_eq_ok (listed.read generation generationMember)
      have one : generation.manifest = manifest := by
        obtain ⟨_, _, _, manifestFile, _⟩ := holds
        have there : root.get? directory = some (.directory files) := found
        simp only [same, Root.fileIn, there] at present
        rw [manifestFile] at present
        cases present
        have contents := read_manifest_eq read
        injection contents with equal
        exact equal.symm
      rw [same, one]
      exact onDisk
    · rcases kept generation generationMember same with recognised | new | held
      · exact unread recognised
      · exact notNew new
      · exact unprotected held
  refine safeRun_harmless sound ?_
  intro call member
  rw [pruneSteps, mem_append] at member
  rcases member with sweep | removal
  · rw [removePruneTombstones, mem_append] at sweep
    rcases sweep with sweep | flush
    · obtain ⟨name, nameMember, inside⟩ := mem_flatMap.mp sweep
      have tombstone : isTombstoneName digits name = true := (mem_filter.mp nameMember).2
      split at inside
      next files _ =>
        exact harmless_rmtreeSteps _ (isGenerationName_of_isTombstoneName tombstone) call inside
      next =>
      rw [mem_singleton.mp inside]
      exact noTombstone name tombstone
    · split at flush
      · cases flush
      · rw [mem_singleton.mp flush]
        trivial
  · rw [removalSteps] at removal
    split at removal
    · cases removal
    simp only [append_assoc, mem_append, mem_singleton, mem_flatMap, mem_map] at removal
    rcases removal with ⟨name, nameMember, rfl⟩ | rfl | ⟨name, nameMember, inside⟩ | rfl
    · have tombstone := isTombstoneName_tombstoneName (numbered name nameMember).2
      exact ⟨noPointer name nameMember, noTombstone _ tombstone,
        isGenerationName_of_isTombstoneName tombstone, unnamed name nameMember⟩
    · trivial
    · have tombstone := isTombstoneName_tombstoneName (numbered name nameMember).2
      exact harmless_rmtreeSteps _ (isGenerationName_of_isTombstoneName tombstone) call inside
    · trivial

end Operations

end GraphZero.Checkpoints
