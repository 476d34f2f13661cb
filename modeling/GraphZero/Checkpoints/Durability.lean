import GraphZero.Checkpoints.CrashModel

/-!
# What the calls of the operations keep

A sound directory holds only complete generations, and every pointer that was
written is on disk and names one of them.  Most calls are harmless to it: they
touch neither a generation nor a pointer that was written.  The others are the
rename that completes a generation and the one that completes a pointer.
-/

namespace GraphZero.Checkpoints

open GraphZero.Foundation

/-- Every generation is complete and every pointer that was written names one. -/
structure Sound (hashing : Hashing) (digits : DigitTable) (snapshot : Snapshot) : Prop where
  generations : ∀ name files, isGenerationName digits name = true →
    snapshot.root.get? name = some (.directory files) →
    ∃ manifest, HoldsPublication hashing files manifest
  pointers : ∀ pointer directory manifest,
    snapshot.written.get? pointer = some (directory, manifest) →
    snapshot.root.get? pointer = some (.file
        ⟨.pointer ⟨some directory, some manifest.modelVersion.hex⟩, true⟩) ∧
      isGenerationName digits directory = true ∧
      ∃ files, snapshot.root.get? directory = some (.directory files) ∧
        HoldsPublication hashing files manifest

theorem sound_initial (hashing : Hashing) (digits : DigitTable) : Sound hashing digits ⟨∅, ∅⟩ := by
  constructor
  · intro name files _ found
    cases found
  · intro pointer directory manifest found
    cases found

section Calls

variable {hashing : Hashing} {digits : DigitTable} {root next : Root} {written : Written}

def FsStep.names : FsStep → List FileName
  | .mkdir name | .write name _ | .writeIn name _ _ | .fsyncFile name
  | .fsyncFileIn name _ | .unlink name | .unlinkIn name _ | .rmdir name => [name]
  | .replace source target => [source, target]
  | .fsyncDir | .refuse => []

/-- What a successful call makes of the names it touches. -/
def FsStep.Effect (root next : Root) : FsStep → Prop
  | .mkdir name => root.get? name = none ∧ next.get? name = some (.directory ∅)
  | .write name contents =>
    (root.get? name = none ∨ ∃ file, root.get? name = some (.file file)) ∧
      next.get? name = some (.file ⟨contents, false⟩)
  | .writeIn directory name contents =>
    ∃ files, root.get? directory = some (.directory files) ∧ next.get? directory =
        some (.directory (files.insert name ⟨contents, false⟩))
  | .fsyncFile name =>
    (∃ file, root.get? name = some (.file file) ∧
      next.get? name = some (.file { file with synced := true })) ∨
    next.get? name = root.get? name
  | .fsyncFileIn directory name =>
    ∃ files file, root.get? directory = some (.directory files) ∧ files.get? name = some file ∧
      next.get? directory = some (.directory (files.insert name { file with synced := true }))
  | .fsyncDir => next = root
  | .replace source target =>
    ∃ node, root.get? source = some node ∧ mayReplace node (root.get? target) = true ∧
      next = (root.erase source).insert target node
  | .unlink name => (∀ files, root.get? name ≠ some (.directory files)) ∧ next.get? name = none
  | .unlinkIn directory _ =>
    ∃ files left, root.get? directory = some (.directory files) ∧
      next.get? directory = some (.directory left)
  | .rmdir name => (∃ files, root.get? name = some (.directory files)) ∧ next.get? name = none
  | .refuse => False

theorem FsStep.effect_of_apply {step : FsStep} (applied : step.apply root = some next) :
    (∀ other, other ∉ step.names → next.get? other = root.get? other) ∧ step.Effect root next := by
  have inserted : ∀ name node, next = root.insert name node →
      (∀ other, other ∉ [name] → next.get? other = root.get? other) ∧
        next.get? name = some node := by
    rintro name node rfl
    refine ⟨fun other outside => ?_, root.get?_insert_self name node⟩
    rw [List.mem_singleton] at outside
    exact Table.get?_insert_of_ne outside
  have erased : ∀ name, next = root.erase name →
      (∀ other, other ∉ [name] → next.get? other = root.get? other) ∧ next.get? name = none := by
    rintro name rfl
    refine ⟨fun other outside => ?_, root.get?_erase_self name⟩
    rw [List.mem_singleton] at outside
    exact Table.get?_erase_of_ne outside
  cases step with
  | mkdir name =>
    simp only [apply] at applied
    split at applied
    next => cases applied
    next absent =>
    obtain ⟨others, here⟩ := inserted name _ (Option.some.inj applied).symm
    rw [Bool.not_eq_true, Table.contains_eq_false_iff] at absent
    exact ⟨others, absent, here⟩
  | write name contents =>
    simp only [apply] at applied
    split at applied
    next absent =>
      obtain ⟨others, here⟩ := inserted name _ (Option.some.inj applied).symm
      exact ⟨others, Or.inl absent, here⟩
    next file found =>
      obtain ⟨others, here⟩ := inserted name _ (Option.some.inj applied).symm
      exact ⟨others, Or.inr ⟨file, found⟩, here⟩
    next => cases applied
  | writeIn directory name contents =>
    simp only [apply] at applied
    split at applied
    next files found =>
      obtain ⟨others, here⟩ := inserted directory _ (Option.some.inj applied).symm
      exact ⟨others, files, found, here⟩
    next => cases applied
  | fsyncFile name =>
    simp only [apply] at applied
    split at applied
    next file found =>
      obtain ⟨others, here⟩ := inserted name _ (Option.some.inj applied).symm
      exact ⟨others, Or.inl ⟨file, found, here⟩⟩
    next =>
      obtain rfl := Option.some.inj applied
      exact ⟨fun _ _ => rfl, Or.inr rfl⟩
    next => cases applied
  | fsyncFileIn directory name =>
    simp only [apply] at applied
    split at applied
    next files found =>
      obtain ⟨file, held, changed⟩ := Option.map_eq_some_iff.mp applied
      obtain ⟨others, here⟩ := inserted directory _ changed.symm
      exact ⟨others, files, file, found, held, here⟩
    next => cases applied
  | fsyncDir =>
    obtain rfl := Option.some.inj applied
    exact ⟨fun _ _ => rfl, rfl⟩
  | replace source target =>
    simp only [apply] at applied
    split at applied
    next node found =>
      split at applied
      next allowed =>
        have changed := (Option.some.inj applied).symm
        refine ⟨fun other outside => ?_, node, found, allowed, changed⟩
        simp only [names, List.mem_cons, List.not_mem_nil, or_false, not_or] at outside
        rw [changed, Table.get?_insert_of_ne outside.2, Table.get?_erase_of_ne outside.1]
      next => cases applied
    next => cases applied
  | unlink name =>
    simp only [apply] at applied
    split at applied
    next file found =>
      obtain ⟨others, here⟩ := erased name (Option.some.inj applied).symm
      exact ⟨others, by simp [found], here⟩
    next found =>
      obtain ⟨others, here⟩ := erased name (Option.some.inj applied).symm
      exact ⟨others, by simp [found], here⟩
    next => cases applied
  | unlinkIn directory name =>
    simp only [apply] at applied
    split at applied
    next files found =>
      split at applied
      next =>
        obtain ⟨others, here⟩ := inserted directory _ (Option.some.inj applied).symm
        exact ⟨others, files, _, found, here⟩
      next => cases applied
    next => cases applied
  | rmdir name =>
    simp only [apply] at applied
    split at applied
    next files found =>
      split at applied
      next =>
        obtain ⟨others, here⟩ := erased name (Option.some.inj applied).symm
        exact ⟨others, ⟨files, found⟩, here⟩
      next => cases applied
    next => cases applied
  | refuse => cases applied

/-- The call touches no generation and no pointer that was written; it may move
a generation away that no such pointer names. -/
def Harmless (digits : DigitTable) (written : Written) : FsStep → Prop
  | .mkdir name | .writeIn name _ _ | .fsyncFileIn name _ | .unlinkIn name _
  | .rmdir name => isGenerationName digits name = false
  | .write name _ | .unlink name => written.get? name = none
  | .replace source target =>
    written.get? source = none ∧ written.get? target = none ∧
      isGenerationName digits target = false ∧
      ∀ pointer directory manifest,
        written.get? pointer = some (directory, manifest) → directory ≠ source
  | .fsyncFile _ | .fsyncDir | .refuse => True

theorem Sound.of_kept (sound : Sound hashing digits ⟨root, written⟩)
    (generations : ∀ name files, isGenerationName digits name = true →
      next.get? name = some (.directory files) →
      root.get? name = some (.directory files))
    (pointers : ∀ pointer directory manifest, written.get? pointer = some (directory, manifest) →
      ∀ document, root.get? pointer = some (.file ⟨document, true⟩) →
        next.get? pointer = some (.file ⟨document, true⟩))
    (targets : ∀ pointer directory manifest, written.get? pointer = some (directory, manifest) →
      isGenerationName digits directory = true →
      ∀ files, root.get? directory = some (.directory files) →
        next.get? directory = some (.directory files)) :
    Sound hashing digits ⟨next, written⟩ := by
  constructor
  · intro name files generation found
    exact sound.generations name files generation (generations name files generation found)
  intro pointer directory manifest recorded
  obtain ⟨onDisk, generation, files, found, holds⟩ :=
    sound.pointers pointer directory manifest recorded
  exact ⟨pointers pointer directory manifest recorded _ onDisk, generation,
    files, targets pointer directory manifest recorded generation files found,
    holds⟩

theorem Sound.of_harmless {step : FsStep} (sound : Sound hashing digits ⟨root, written⟩)
    (harmless : Harmless digits written step)
    (applied : step.apply root = some next) :
    Sound hashing digits ⟨next, written⟩ := by
  obtain ⟨others, effect⟩ := FsStep.effect_of_apply applied
  -- A call on one name that is no generation and that was a directory.
  have directoryCall : ∀ name, step.names = [name] → isGenerationName digits name = false →
      (∀ file, root.get? name ≠ some (.file file)) →
      Sound hashing digits ⟨next, written⟩ := by
    intro name touched ordinary noFile
    rw [touched] at others
    have elsewhere : ∀ other, other ≠ name → next.get? other = root.get? other :=
      fun other different => others other (by simpa using different)
    refine sound.of_kept ?_ ?_ ?_
    · intro other files generation found
      rw [← elsewhere other (by rintro rfl; simp [ordinary] at generation), found]
    · intro pointer _ _ _ document onDisk
      rw [elsewhere pointer (by rintro rfl; exact noFile _ onDisk), onDisk]
    · intro _ directory _ _ generation files found
      rw [elsewhere directory (by rintro rfl; simp [ordinary] at generation),
        found]
  -- A call on one name that was no directory and is none.
  have fileCall : ∀ name, step.names = [name] →
      (∀ files, root.get? name ≠ some (.directory files)) →
      (∀ files, next.get? name ≠ some (.directory files)) →
      (∀ document, written.get? name ≠ none → root.get? name = some (.file ⟨document, true⟩) →
        next.get? name = some (.file ⟨document, true⟩)) →
      Sound hashing digits ⟨next, written⟩ := by
    intro name touched before after keeps
    rw [touched] at others
    have elsewhere : ∀ other, other ≠ name → next.get? other = root.get? other :=
      fun other different => others other (by simpa using different)
    refine sound.of_kept ?_ ?_ ?_
    · intro other files _ found
      rw [← elsewhere other (by rintro rfl; exact after files found), found]
    · intro pointer directory manifest recorded document onDisk
      by_cases same : pointer = name
      · subst same
        exact keeps document (by simp [recorded]) onDisk
      · rw [elsewhere pointer same, onDisk]
    · intro _ directory _ _ _ files found
      rw [elsewhere directory (by rintro rfl; exact before files found), found]
  cases step with
  | mkdir name => exact directoryCall name rfl harmless (by simp [effect.1])
  | writeIn name file contents =>
    obtain ⟨files, found, _⟩ := effect
    exact directoryCall name rfl harmless (by simp [found])
  | fsyncFileIn name file =>
    obtain ⟨files, held, found, _⟩ := effect
    exact directoryCall name rfl harmless (by simp [found])
  | unlinkIn name file =>
    obtain ⟨files, left, found, _⟩ := effect
    exact directoryCall name rfl harmless (by simp [found])
  | rmdir name =>
    obtain ⟨⟨files, found⟩, _⟩ := effect
    exact directoryCall name rfl harmless (by simp [found])
  | write name contents =>
    refine fileCall name rfl ?_ (by simp [effect.2]) ?_
    · rcases effect.1 with absent | ⟨file, found⟩
      · simp [absent]
      · simp [found]
    · intro _ recorded
      exact absurd harmless recorded
  | unlink name =>
    refine fileCall name rfl effect.1 (by simp [effect.2]) ?_
    intro _ recorded
    exact absurd harmless recorded
  | fsyncFile name =>
    rcases effect with ⟨file, found, after⟩ | same
    · refine fileCall name rfl (by simp [found]) (by simp [after]) ?_
      intro document _ onDisk
      rw [found] at onDisk
      cases onDisk
      exact after
    · have unchanged : ∀ other, next.get? other = root.get? other := by
        intro other
        by_cases here : other = name
        · rw [here, same]
        · exact others other (by simpa [FsStep.names] using here)
      refine sound.of_kept ?_ ?_ ?_
      · intro other files _ found
        rw [← unchanged, found]
      · intro pointer _ _ _ document onDisk
        rw [unchanged, onDisk]
      · intro _ directory _ _ _ files found
        rw [unchanged, found]
  | fsyncDir =>
    rw [effect]
    exact sound
  | refuse => exact effect.elim
  | replace source target =>
    obtain ⟨node, found, _, rfl⟩ := effect
    obtain ⟨freeSource, freeTarget, ordinary, unnamed⟩ := harmless
    have elsewhere : ∀ other, other ≠ source → other ≠ target →
        ((root.erase source).insert target node).get? other =
          root.get? other := fun other first second => by
      rw [Table.get?_insert_of_ne second, Table.get?_erase_of_ne first]
    refine sound.of_kept ?_ ?_ ?_
    · intro other files generation there
      have notTarget : other ≠ target := by
        rintro rfl
        simp [ordinary] at generation
      rw [Table.get?_insert_of_ne notTarget, Table.get?_erase] at there
      split at there
      · cases there
      · exact there
    · intro pointer _ _ recorded document onDisk
      rw [elsewhere pointer (by rintro rfl; simp [freeSource] at recorded)
        (by rintro rfl; simp [freeTarget] at recorded), onDisk]
    · intro pointer directory manifest recorded generation files there
      rw [elsewhere directory (unnamed pointer directory manifest recorded)
        (by rintro rfl; simp [ordinary] at generation), there]

end Calls

end GraphZero.Checkpoints
