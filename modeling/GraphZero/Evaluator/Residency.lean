import GraphZero.Evaluator.Backend

/-!
# What holds of the resident models

The two tables are inverse to each other and name exactly the resident
models.  No two places hold models of one version, and no more places are
taken than there are.
-/

namespace GraphZero.Evaluator

open Engine Foundation List

/-- The version that the loading thread has taken a place for. -/
def Loader.version : Loader → Option ModelVersion
  | .loading manifest => some manifest.modelVersion
  | _ => none

namespace Residency

structure Sound (residency : Residency) : Prop where
  inverse : ∀ generation version,
    residency.versionsByGeneration.get? generation = some version ↔
      ∃ slot, residency.slotsByVersion.get? version = some (generation, slot)
  named : ∀ {version generation slot},
    residency.slotsByVersion.get? version = some (generation, slot) → slot.modelVersion = version
  resident : ∀ version, version ∈ residency.residentVersions ↔
    (residency.slotsByVersion.get? version).isSome = true
  serving : residency.slotsByVersion.get? residency.active.modelVersion =
    some (residency.activeGeneration, residency.active)
  next : residency.nextGeneration = residency.activeGeneration + 1
  positive : 0 < residency.activeGeneration
  older : ∀ {generation version},
    residency.versionsByGeneration.get? generation = some version →
      0 < generation ∧ generation ≤ residency.activeGeneration
  loading : residency.loadingVersion = Loader.version residency.loader
  pendingApart : ∀ {slot}, residency.pending = some slot →
    slot.modelVersion ∉ residency.residentVersions ∧
      residency.loadingVersion ≠ some slot.modelVersion ∧
      residency.adoptingVersion ≠ some slot.modelVersion
  loadingApart : ∀ {version}, residency.loadingVersion = some version →
    version ∉ residency.residentVersions ∧ residency.adoptingVersion ≠ some version
  adoptingApart : ∀ {version}, residency.adoptingVersion = some version →
    version ∉ residency.residentVersions
  bounded : residency.occupied ≤ residency.maxResidentModelGenerations

variable {residency next : Residency} {manifest : Manifest} {runner : Runner} {slot : ServingSlot}

theorem adoptingVersion_of_new {limit} (made : new limit slot = .ok residency) :
    residency.adoptingVersion = none := by
  unfold new at made
  split at made
  · cases made
  · cases made
    rfl

theorem sound_new {limit} (made : new limit slot = .ok residency) : residency.Sound := by
  unfold new at made
  split at made
  · cases made
  next enough =>
  cases made
  have versions (generation : Nat) : ((∅ : Table Nat ModelVersion).insert initialModelGeneration
        slot.modelVersion).get? generation =
        if generation = 1 then some slot.modelVersion else none := by
    rw [Table.get?_insert, Table.get?_empty]
    rfl
  have slots (version : ModelVersion) :
      ((∅ : Table ModelVersion (Nat × ServingSlot)).insert slot.modelVersion
        (initialModelGeneration, slot)).get? version =
        if version = slot.modelVersion then some (1, slot) else none := by
    rw [Table.get?_insert, Table.get?_empty]
    rfl
  refine {
    inverse := fun generation version => ?_
    named := fun {version generation found} stored => ?_
    resident := fun version => ?_
    serving := ?_
    next := rfl
    positive := Nat.one_pos
    older := fun {generation version} stored => ?_
    loading := rfl
    pendingApart := nofun
    loadingApart := nofun
    adoptingApart := nofun
    bounded := ?_ }
  · rw [versions, slots]
    by_cases first : generation = 1
    · by_cases same : version = slot.modelVersion
      · simp [first, same]
      · simp [first, same, Ne.symm same]
    · by_cases same : version = slot.modelVersion
      · simp [first, same, Ne.symm first]
      · simp [first, same]
  · rw [slots] at stored
    split at stored
    · next same =>
      cases stored
      exact same.symm
    · cases stored
  · rw [slots, Finset.mem_singleton]
    by_cases same : version = slot.modelVersion
    · simp [same]
    · simp [same]
  · rw [slots, if_pos rfl]
    rfl
  · rw [versions] at stored
    split at stored
    · next first =>
      rw [first]
      exact ⟨Nat.one_pos, le_refl 1⟩
    · cases stored
  · change 1 + 0 + 0 + 0 ≤ limit
    omega

/-! ## The loading thread -/

theorem Sound.keepingTables (sound : residency.Sound)
    (slots : next.slotsByVersion = residency.slotsByVersion)
    (versions : next.versionsByGeneration = residency.versionsByGeneration)
    (residents : next.residentVersions = residency.residentVersions)
    (active : next.active = residency.active)
    (generation : next.activeGeneration = residency.activeGeneration)
    (nextGeneration : next.nextGeneration = residency.nextGeneration)
    (loading : next.loadingVersion = Loader.version next.loader)
    (pendingApart : ∀ {slot}, next.pending = some slot →
      slot.modelVersion ∉ residency.residentVersions ∧
        next.loadingVersion ≠ some slot.modelVersion ∧
        next.adoptingVersion ≠ some slot.modelVersion)
    (loadingApart : ∀ {version}, next.loadingVersion = some version →
      version ∉ residency.residentVersions ∧ next.adoptingVersion ≠ some version)
    (adoptingApart : ∀ {version}, next.adoptingVersion = some version →
      version ∉ residency.residentVersions)
    (bounded : next.occupied ≤ next.maxResidentModelGenerations) :
    next.Sound where
  inverse := by
    rw [slots, versions]
    exact sound.inverse
  named := by
    rw [slots]
    exact sound.named
  resident := by
    rw [slots, residents]
    exact sound.resident
  serving := by
    rw [slots, active, generation]
    exact sound.serving
  next := by
    rw [nextGeneration, generation]
    exact sound.next
  positive := by
    rw [generation]
    exact sound.positive
  older := by
    rw [versions, generation]
    exact sound.older
  loading := loading
  pendingApart := by
    rw [residents]
    exact pendingApart
  loadingApart := by
    rw [residents]
    exact loadingApart
  adoptingApart := by
    rw [residents]
    exact adoptingApart
  bounded := bounded

theorem Sound.identify (sound : residency.Sound) (engineIdentity : Option EngineIdentity) :
    ({ residency with engineIdentity } : Residency).Sound :=
  sound.keepingTables rfl rfl rfl rfl rfl rfl sound.loading
    sound.pendingApart sound.loadingApart sound.adoptingApart sound.bounded

theorem Sound.resolve (sound : residency.Sound)
    (done : residency.resolve manifest = some next) : next.Sound := by
  unfold Residency.resolve at done
  split at done
  · next waiting =>
    split at done
    · cases done
    cases done
    have loading : residency.loadingVersion = none := by
      rw [sound.loading, waiting]
      rfl
    exact sound.keepingTables rfl rfl rfl rfl rfl rfl loading
      sound.pendingApart sound.loadingApart sound.adoptingApart
      sound.bounded
  · cases done

variable {version : ModelVersion}

theorem admits_iff : residency.admits version = true ↔
      version ∉ residency.residentVersions ∧ residency.pending.map (·.modelVersion) ≠ some version ∧
        residency.loadingVersion ≠ some version ∧
        residency.adoptingVersion ≠ some version ∧
        residency.occupied < residency.maxResidentModelGenerations := by
  unfold admits
  rw [Bool.not_eq_true', decide_eq_false_iff_not]
  simp only [not_or, Nat.not_le, ne_eq]

theorem Sound.claim (sound : residency.Sound)
    (done : residency.claim = some next) : next.Sound := by
  unfold Residency.claim at done
  split at done
  · next manifest resolved =>
    injection done with done
    have idle : residency.loadingVersion = none := by
      rw [sound.loading, resolved]
      rfl
    split at done
    · next admitted =>
      obtain ⟨fresh, notPending, _, notAdopting, room⟩ := admits_iff.mp admitted
      subst done
      refine sound.keepingTables rfl rfl rfl rfl rfl rfl rfl
        (fun {slot} pending => ?_) (fun {version} loading => ?_)
        sound.adoptingApart ?_
      · obtain ⟨apart, _, other⟩ := sound.pendingApart pending
        refine ⟨apart, fun same => notPending ?_, other⟩
        rw [show residency.pending = some slot from pending]
        exact same.symm
      · injection loading with same
        exact same ▸ ⟨fresh, notAdopting⟩
      · unfold occupied at room ⊢
        rw [idle] at room
        simp only [Option.toList_none, Option.toList_some, length_nil, length_singleton] at room ⊢
        omega
    · subst done
      exact sound.keepingTables rfl rfl rfl rfl rfl rfl idle
        sound.pendingApart sound.loadingApart sound.adoptingApart
        sound.bounded
  · cases done

theorem Sound.refuse (sound : residency.Sound)
    (done : residency.refuse = some next) : next.Sound := by
  unfold Residency.refuse at done
  split at done
  · cases done
    refine sound.keepingTables rfl rfl rfl rfl rfl rfl rfl
      (fun {slot} pending => ?_) nofun sound.adoptingApart ?_
    · obtain ⟨apart, _, other⟩ := sound.pendingApart pending
      exact ⟨apart, nofun, other⟩
    · have bounded := sound.bounded
      unfold occupied at bounded ⊢
      simp only [Option.toList_none, length_nil]
      omega
  · cases done

theorem Sound.publish (sound : residency.Sound)
    (done : residency.publish runner = some next) : next.Sound := by
  unfold Residency.publish at done
  split at done
  · next manifest loading =>
    split at done
    · cases done
      have own : residency.loadingVersion = some manifest.modelVersion := by
        rw [sound.loading, loading]
        rfl
      obtain ⟨fresh, notAdopting⟩ := sound.loadingApart own
      refine sound.keepingTables rfl rfl rfl rfl rfl rfl rfl
        (fun {slot} pending => ?_) nofun sound.adoptingApart ?_
      · injection pending with same
        subst same
        exact ⟨fresh, nofun, notAdopting⟩
      · have bounded := sound.bounded
        unfold occupied at bounded ⊢
        rw [own] at bounded
        simp only [Option.toList_none, Option.toList_some, length_nil,
          length_singleton] at bounded ⊢
        omega
    · cases done
  · cases done

/-! ## The serving thread -/

theorem Sound.takePending (sound : residency.Sound) (idle : residency.adoptingVersion = none) :
    residency.takePending.2.Sound := by
  unfold Residency.takePending
  refine sound.keepingTables rfl rfl rfl rfl rfl rfl sound.loading nofun
    (fun {version} loading => ?_) (fun {version} adopting => ?_) ?_
  · refine ⟨(sound.loadingApart loading).1, fun adopting => ?_⟩
    obtain ⟨slot, pending, same⟩ := Option.map_eq_some_iff.mp adopting
    exact (sound.pendingApart pending).2.1 (same ▸ loading)
  · obtain ⟨slot, pending, same⟩ := Option.map_eq_some_iff.mp adopting
    exact same ▸ (sound.pendingApart pending).1
  · have bounded := sound.bounded
    unfold occupied at bounded ⊢
    rw [idle] at bounded
    cases waiting : residency.pending with
    | none =>
      rw [waiting] at bounded
      exact bounded
    | some slot =>
      rw [waiting] at bounded
      simp only [Option.map_some, Option.toList_none, Option.toList_some,
        length_nil, length_singleton] at bounded ⊢
      omega

theorem Sound.abandon (sound : residency.Sound) : (residency.abandon slot).Sound := by
  unfold Residency.abandon
  refine sound.keepingTables rfl rfl rfl rfl rfl rfl sound.loading
    (fun {slot} pending => ?_) (fun {version} loading => ?_) nofun ?_
  · obtain ⟨apart, other, _⟩ := sound.pendingApart pending
    exact ⟨apart, other, nofun⟩
  · exact ⟨(sound.loadingApart loading).1, nofun⟩
  · have bounded := sound.bounded
    unfold occupied at bounded ⊢
    simp only [Option.toList_none, length_nil]
    omega

theorem Sound.adopt (sound : residency.Sound)
    (adopting : residency.adoptingVersion = some slot.modelVersion) :
    (residency.adopt slot).Sound := by
  have fresh := sound.adoptingApart adopting
  have absent : residency.slotsByVersion.get? slot.modelVersion = none := by
    rw [sound.resident, Option.not_isSome_iff_eq_none] at fresh
    exact fresh
  have unused (version : ModelVersion) :
      residency.versionsByGeneration.get? residency.nextGeneration ≠ some version := by
    intro stored
    have older := (sound.older stored).2
    rw [sound.next] at older
    omega
  unfold Residency.adopt
  refine {
    inverse := fun generation version => ?_
    named := fun {version generation found} stored => ?_
    resident := fun version => ?_
    serving := Table.get?_insert_self _ _ _
    next := rfl
    positive := ?_
    older := fun {generation version} stored => ?_
    loading := sound.loading
    pendingApart := fun {waiting} pending => ?_
    loadingApart := fun {version} loading => ?_
    adoptingApart := by rintro _ ⟨⟩
    bounded := ?_ }
  · rw [Table.get?_insert, Table.get?_insert]
    by_cases newest : generation = residency.nextGeneration
    · subst newest
      rw [if_pos rfl]
      by_cases same : version = slot.modelVersion
      · simp [same]
      rw [if_neg same]
      refine iff_of_false (fun equal => same ?_) ?_
      · injection equal with equal
        exact equal.symm
      · rintro ⟨found, stored⟩
        exact unused version ((sound.inverse _ _).mpr ⟨found, stored⟩)
    · rw [if_neg newest, sound.inverse]
      by_cases same : version = slot.modelVersion
      · subst same
        rw [if_pos rfl, absent]
        refine iff_of_false (by rintro ⟨_, ⟨⟩⟩) ?_
        rintro ⟨found, equal⟩
        injection equal with equal
        exact newest (congrArg Prod.fst equal).symm
      · rw [if_neg same]
  · rw [Table.get?_insert] at stored
    split at stored
    · next same =>
      cases stored
      exact same.symm
    · exact sound.named stored
  · rw [Table.get?_insert, Finset.mem_insert, sound.resident]
    by_cases same : version = slot.modelVersion
    · simp [same]
    · simp [same]
  · have next := sound.next
    change 0 < residency.nextGeneration
    omega
  · rw [Table.get?_insert] at stored
    have next := sound.next
    change 0 < generation ∧ generation ≤ residency.nextGeneration
    split at stored
    · next newest =>
      omega
    · have older := sound.older stored
      omega
  · obtain ⟨apart, notLoading, notAdopting⟩ := sound.pendingApart pending
    refine ⟨?_, notLoading, by rintro ⟨⟩⟩
    rw [Finset.mem_insert, not_or]
    refine ⟨fun same => notAdopting ?_, apart⟩
    rw [adopting, same]
  · obtain ⟨apart, notAdopting⟩ := sound.loadingApart loading
    refine ⟨?_, by rintro ⟨⟩⟩
    rw [Finset.mem_insert, not_or]
    refine ⟨fun same => notAdopting ?_, apart⟩
    rw [adopting, same]
  · have bounded := sound.bounded
    unfold occupied at bounded ⊢
    rw [adopting] at bounded
    rw [Finset.card_insert_of_notMem fresh]
    simp only [Option.toList_none, Option.toList_some, length_nil, length_singleton] at bounded ⊢
    omega

variable {generation : Nat}

theorem releaseModelGeneration_eq_ok
    (done : residency.releaseModelGeneration generation version = .ok next) :
    generation ≠ residency.activeGeneration ∧
      residency.versionsByGeneration.get? generation = some version ∧
      next = { residency with
        versionsByGeneration := residency.versionsByGeneration.erase generation
        slotsByVersion := residency.slotsByVersion.erase version
        residentVersions := residency.residentVersions.erase version } := by
  unfold releaseModelGeneration at done
  split at done
  · cases done
  next other =>
  split at done
  · cases done
  next known =>
  split at done
  · cases done
  cases done
  exact ⟨other, not_not.mp known, rfl⟩

theorem Sound.release_isOk (sound : residency.Sound)
    (other : generation ≠ residency.activeGeneration)
    (known : residency.versionsByGeneration.get? generation = some version) :
    ∃ next, residency.releaseModelGeneration generation version = .ok next := by
  obtain ⟨slot, stored⟩ := (sound.inverse _ _).mp known
  unfold releaseModelGeneration
  rw [if_neg other, if_neg (not_not.mpr known), stored]
  exact ⟨_, if_neg (not_not.mpr rfl)⟩

theorem Sound.release (sound : residency.Sound)
    (done : residency.releaseModelGeneration generation version = .ok next) :
    next.Sound := by
  obtain ⟨other, known, rfl⟩ := releaseModelGeneration_eq_ok done
  obtain ⟨own, stored⟩ := (sound.inverse _ _).mp known
  refine {
    inverse := fun tested name => ?_
    named := fun {name tested found} kept => ?_
    resident := fun name => ?_
    serving := ?_
    next := sound.next
    positive := sound.positive
    older := fun {tested name} kept => ?_
    loading := sound.loading
    pendingApart := fun {slot} pending => ?_
    loadingApart := fun {name} loading => ?_
    adoptingApart := fun {name} adopting => ?_
    bounded := ?_ }
  · rw [Table.get?_erase, Table.get?_erase]
    by_cases same : name = version
    · subst same
      rw [if_pos rfl]
      refine iff_of_false (fun kept => ?_) (by rintro ⟨_, ⟨⟩⟩)
      split at kept
      · cases kept
      next different =>
      obtain ⟨found, there⟩ := (sound.inverse _ _).mp kept
      rw [stored] at there
      injection there with there
      exact different (congrArg Prod.fst there).symm
    · rw [if_neg same]
      by_cases gone : tested = generation
      · subst gone
        rw [if_pos rfl, ← sound.inverse, known]
        refine iff_of_false (by rintro ⟨⟩) fun equal => same ?_
        injection equal with equal
        exact equal.symm
      · rw [if_neg gone]
        exact sound.inverse tested name
  · rw [Table.get?_erase] at kept
    split at kept
    · cases kept
    · exact sound.named kept
  · rw [Finset.mem_erase, Table.get?_erase, sound.resident]
    by_cases same : name = version
    · simp [same]
    · simp [same]
  · rw [Table.get?_erase, if_neg]
    · exact sound.serving
    · intro same
      have serving := sound.serving
      rw [same, stored] at serving
      injection serving with serving
      exact other (congrArg Prod.fst serving)
  · rw [Table.get?_erase] at kept
    split at kept
    · cases kept
    · exact sound.older kept
  · obtain ⟨apart, rest⟩ := sound.pendingApart pending
    exact ⟨fun member => apart (Finset.mem_of_mem_erase member), rest⟩
  · obtain ⟨apart, rest⟩ := sound.loadingApart loading
    exact ⟨fun member => apart (Finset.mem_of_mem_erase member), rest⟩
  · exact fun member =>
      sound.adoptingApart adopting (Finset.mem_of_mem_erase member)
  · have bounded := sound.bounded
    have fewer := Finset.card_erase_le (s := residency.residentVersions) (a := version)
    unfold occupied at bounded ⊢
    dsimp only
    omega

theorem Sound.servingSlot_isOk (sound : residency.Sound)
    (member : version ∈ residency.residentVersions) :
    ∃ slot, residency.servingSlot version = .ok slot ∧ slot.modelVersion = version := by
  rw [sound.resident, Option.isSome_iff_exists] at member
  obtain ⟨⟨generation, slot⟩, stored⟩ := member
  refine ⟨slot, ?_, sound.named stored⟩
  unfold servingSlot
  rw [stored]

end Residency

end GraphZero.Evaluator
