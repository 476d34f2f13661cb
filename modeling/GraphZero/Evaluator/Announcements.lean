import GraphZero.Evaluator.Pipeline

/-!
# Announced generations

The client learns of a generation in the handshake or with a result, and only
then can it release it later.  With places for two models no model is adopted
before the client knows the one before it; with more places a second model may
be adopted between two results, and the one in between is never announced.
-/

namespace GraphZero.Evaluator

open Engine Foundation Features

namespace Server

def told (server : Server) : Option (Nat × ModelVersion) :=
  server.announced.getLast?

/-- The generation that a release frame names, if a read completes one. -/
def released (server : Server) (count : Nat) : Option Nat :=
  match server.phase with
  | .reading bytes =>
    match readFrame (bytes ++ server.inbox.take count) with
    | .frame frame =>
      if frame.frameType = .modelRelease then
        some (ofLeBytes (slice frame.payload 0 8))
      else none
    | _ => none
  | _ => none

/-- With two places the client keeps what it was told last. -/
def KeepsLast (server : Server) : Label → Prop
  | .receive count => server.residency.maxResidentModelGenerations = 2 →
      (server.released count).isSome = true → server.released count ≠ server.told.map Prod.fst
  | _ => True

instance (server : Server) (label : Label) : Decidable (server.KeepsLast label) :=
  match label with
  | .receive _ => inferInstanceAs (Decidable (_ → _ → _))
  | .arrive _ | .close | .hold | .proceed | .flush | .endOfFile | .swap | .adopt
  | .abandon | .stage | .pong | .send _ | .compute | .resolve _ | .claim
  | .refuse | .publish _ => inferInstanceAs (Decidable True)

/-- With more places, a model is adopted only once the active one was
announced. -/
def Reports (server : Server) (label : Label) : Prop :=
  server.KeepsLast label ∧ (label = .adopt → 2 < server.residency.maxResidentModelGenerations →
    server.told = some server.residency.modelGeneration)

/-- Whether a result is awaited since a model was adopted; `none` once another
one is adopted before it. -/
def awaitsResult (awaited : Bool) : Label → Option Bool
  | .adopt => if awaited then none else some true
  | .flush => some false
  | _ => some awaited

/-- A result is written between two adoptions. -/
def ResultsBetween (labels : List Label) : Prop :=
  (labels.foldlM awaitsResult false).isSome = true

/-- An EVAL is read only when the ones before it are answered. -/
def OneOutstanding (server : Server) : Label → Prop
  | .receive count => ∀ bytes frame, server.phase = .reading bytes →
      readFrame (bytes ++ server.inbox.take count) = .frame frame → frame.frameType = .eval →
        server.pending = []
  | _ => True

/-- Every resident generation that is no longer active was announced, the
places suffice, and the tables name the resident models. -/
structure Accounted (server : Server) : Prop where
  announced : ∀ generation version,
    server.residency.versionsByGeneration.get? generation = some version →
      generation ≠ server.residency.activeGeneration → (generation, version) ∈ server.announced
  bounded : server.residency.occupied ≤ server.residency.maxResidentModelGenerations
  inverse : ∀ generation version,
    server.residency.versionsByGeneration.get? generation = some version ↔
      ∃ slot, server.residency.slotsByVersion.get? version = some (generation, slot)
  resident : ∀ version, version ∈ server.residency.residentVersions ↔
    ∃ generation, server.residency.versionsByGeneration.get? generation = some version

/-- The announcements so far.  With two places, an active model that was not
announced leaves none for another. -/
structure Told (residency : Residency) (announced : List (Nat × ModelVersion)) : Prop where
  superseded : ∀ {generation version},
    residency.versionsByGeneration.get? generation = some version →
      generation ≠ residency.activeGeneration → (generation, version) ∈ announced
  last : ∃ told, announced.getLast? = some told ∧ (told ≠ residency.modelGeneration →
      residency.maxResidentModelGenerations = 2 → residency.residentVersions.card = 2 ∧
          residency.versionsByGeneration.get? told.1 = some told.2 ∧
          told.1 ≠ residency.activeGeneration)

variable {residency next : Residency} {announced : List (Nat × ModelVersion)}

theorem Told.keepingTables (told : Told residency announced)
    (versions : next.versionsByGeneration = residency.versionsByGeneration)
    (residents : next.residentVersions = residency.residentVersions)
    (active : next.modelGeneration = residency.modelGeneration)
    (places : next.maxResidentModelGenerations =
      residency.maxResidentModelGenerations) : Told next announced := by
  have generation : next.activeGeneration = residency.activeGeneration := congrArg Prod.fst active
  obtain ⟨superseded, last⟩ := told
  constructor
  · rw [versions, generation]
    exact superseded
  · rw [versions, residents, active, places, generation]
    exact last

theorem Told.load (told : Told residency announced)
    (move : LoaderMove residency next) : Told next announced := by
  obtain ⟨_, _, _, _, rfl⟩ := move.eq
  exact told.keepingTables rfl rfl rfl rfl

theorem Told.announce (told : Told residency announced) :
    Told residency (announced ++ [residency.modelGeneration]) where
  superseded known other :=
    List.mem_append_left _ (told.superseded known other)
  last := ⟨_, List.getLast?_concat, fun different => absurd rfl different⟩

theorem active_known (sound : residency.Sound) :
    residency.versionsByGeneration.get? residency.activeGeneration =
      some residency.active.modelVersion :=
  (sound.inverse _ _).mpr ⟨_, sound.serving⟩

variable {version : ModelVersion}

theorem mem_residentVersions (sound : residency.Sound) {generation}
    (known : residency.versionsByGeneration.get? generation = some version) :
    version ∈ residency.residentVersions := by
  obtain ⟨slot, stored⟩ := (sound.inverse _ _).mp known
  rw [sound.resident, stored]
  rfl

theorem generation_unique (sound : residency.Sound) {first second}
    (here : residency.versionsByGeneration.get? first = some version)
    (there : residency.versionsByGeneration.get? second = some version) :
    first = second := by
  obtain ⟨_, stored⟩ := (sound.inverse _ _).mp here
  obtain ⟨_, other⟩ := (sound.inverse _ _).mp there
  rw [stored] at other
  injection other with other
  exact congrArg Prod.fst other

variable {slot : ServingSlot}

theorem places_of_adopting (sound : residency.Sound)
    (adopting : residency.adoptingVersion = some slot.modelVersion) :
    residency.residentVersions.card + 1 ≤ residency.maxResidentModelGenerations ∧
      0 < residency.residentVersions.card := by
  have bounded := sound.bounded
  unfold Residency.occupied at bounded
  rw [adopting] at bounded
  refine ⟨?_, Finset.card_pos.mpr ⟨_, mem_residentVersions sound (active_known sound)⟩⟩
  simp only [Option.toList_some, List.length_singleton] at bounded
  omega

theorem Told.adopt (told : Told residency announced) (sound : residency.Sound)
    (adopting : residency.adoptingVersion = some slot.modelVersion)
    (reported : 2 < residency.maxResidentModelGenerations →
      announced.getLast? = some residency.modelGeneration) :
    Told (residency.adopt slot) announced := by
  obtain ⟨room, inhabited⟩ := places_of_adopting sound adopting
  have fresh := sound.adoptingApart adopting
  have known := active_known sound
  have later := sound.next
  have lastActive : announced.getLast? = some residency.modelGeneration := by
    obtain ⟨last, found, unannounced⟩ := told.last
    by_cases same : last = residency.modelGeneration
    · rw [found, same]
    · refine reported (Nat.lt_of_le_of_ne (by omega) fun two => ?_)
      have full := (unannounced same two.symm).1
      omega
  have members := List.mem_of_getLast? lastActive
  constructor
  · intro generation version stored other
    change (residency.versionsByGeneration.insert residency.nextGeneration
      slot.modelVersion).get? generation = some version at stored
    change generation ≠ residency.nextGeneration at other
    rw [Table.get?_insert_of_ne other] at stored
    by_cases active : generation = residency.activeGeneration
    · rw [active, known] at stored
      cases stored
      rw [active]
      exact members
    · exact told.superseded stored active
  · refine ⟨_, lastActive, fun _ two => ⟨?_, ?_, ?_⟩⟩
    · change residency.maxResidentModelGenerations = 2 at two
      change (insert slot.modelVersion residency.residentVersions).card = 2
      rw [Finset.card_insert_of_notMem fresh]
      omega
    · change (residency.versionsByGeneration.insert residency.nextGeneration
        slot.modelVersion).get? residency.activeGeneration = _
      rw [Table.get?_insert_of_ne (by omega), known]
      rfl
    · change residency.activeGeneration ≠ residency.nextGeneration
      omega

theorem Told.release (told : Told residency announced) (sound : residency.Sound) {generation}
    (done : residency.releaseModelGeneration generation version = .ok next)
    (kept : residency.maxResidentModelGenerations = 2 →
      some generation ≠ announced.getLast?.map Prod.fst) :
    Told next announced := by
  obtain ⟨other, stored, rfl⟩ := Residency.releaseModelGeneration_eq_ok done
  constructor
  · intro tested name found different
    refine told.superseded ?_ different
    rw [Table.get?_erase] at found
    split at found
    · cases found
    · exact found
  obtain ⟨last, found, unannounced⟩ := told.last
  refine ⟨last, found, fun different two => ?_⟩
  obtain ⟨full, lastKnown, superseded⟩ := unannounced different two
  have notLast : generation ≠ last.1 := by
    have apart := kept two
    rw [found] at apart
    exact fun same => apart (congrArg some same)
  -- three models would be resident
  have known := active_known sound
  have three : ({residency.active.modelVersion, last.2, version} :
      Finset ModelVersion).card = 3 := by
    refine Finset.card_eq_three.mpr ⟨_, _, _, ?_, ?_, ?_, rfl⟩
    · intro same
      rw [same] at known
      exact superseded (generation_unique sound lastKnown known)
    · intro same
      rw [same] at known
      exact other (generation_unique sound stored known)
    · intro same
      rw [same] at lastKnown
      exact notLast (generation_unique sound stored lastKnown)
  have within : ({residency.active.modelVersion, last.2, version} :
      Finset ModelVersion) ⊆ residency.residentVersions := by
    intro name member
    simp only [Finset.mem_insert, Finset.mem_singleton] at member
    rcases member with rfl | rfl | rfl
    · exact mem_residentVersions sound known
    · exact mem_residentVersions sound lastKnown
    · exact mem_residentVersions sound stored
  have bound := Finset.card_le_card within
  omega

variable {server target : Server} {label : Label}

theorem activeGeneration_of_new {limit} (made : Residency.new limit slot = .ok residency) :
    residency.activeGeneration = 1 := by
  unfold Residency.new at made
  split at made
  · cases made
  · cases made
    rfl

theorem told_of_started (started : server.Started) : Told server.residency server.announced := by
  have sound := (sound_of_started started).residency
  obtain ⟨backend, hello, achieved, limit, slot, made, served⟩ := started
  obtain ⟨residency, same, _, _, _, _, rfl⟩ := serve_eq_ok served
  constructor
  · intro generation version found different
    dsimp only at found different sound
    have older := sound.older found
    have first := activeGeneration_of_new made
    have copied : residency.activeGeneration = backend.residency.activeGeneration := by rw [same]
    omega
  · exact ⟨_, rfl, fun other => absurd rfl other⟩

theorem told_of_dispatched {frame} (told : Told server.residency server.announced)
    (sound : server.residency.Sound) (dispatched : Dispatched server frame target)
    (kept : server.residency.maxResidentModelGenerations = 2 → frame.frameType = .modelRelease →
        some (ofLeBytes (slice frame.payload 0 8)) ≠ server.announced.getLast?.map Prod.fst) :
    Told target.residency target.announced := by
  cases dispatched with
  | ping own => exact told
  | eval own parsed => exact told
  | release own done =>
    obtain ⟨_, done⟩ := ok_of_guard done
    exact told.release sound done fun two => kept two own
  | failed reason => exact told

theorem told_of_move (told : Told server.residency server.announced)
    (sound : server.Sound) (reports : server.Reports label)
    (move : server.Move label target) :
    Told target.residency target.announced := by
  cases move with
  | flush flushes done =>
    obtain ⟨outstanding, rest, result, _, _, outcome⟩ := flushOldest_eq_some done
    rcases outcome with ⟨error, rfl⟩ | ⟨payload, _, rfl, _, _, _, rfl⟩
    · exact told
    · exact told.announce
  | @receive bytes count phase pos asked available =>
    have received := Server.received server bytes count
    generalize server.receive bytes count = target at received
    cases received with
    | incomplete more => exact told
    | failed wrong => exact told
    | @frame frame _ whole dispatched =>
      have toldTaking : Told (server.taking count).residency (server.taking count).announced := told
      refine told_of_dispatched toldTaking sound.residency dispatched fun two own => ?_
      have named : server.released count = some (ofLeBytes (slice frame.payload 0 8)) := by
        unfold released
        rw [phase]
        dsimp only
        rw [whole]
        exact if_pos own
      have apart := reports.1 two
      rw [named] at apart
      exact apart rfl
  | passSwap phase nothing => exact told.keepingTables rfl rfl rfl rfl
  | swap phase waiting => exact told.keepingTables rfl rfl rfl rfl
  | adopt phase =>
    have adopting := sound.adopting
    rw [phase] at adopting
    exact told.adopt sound.residency adopting (reports.2 rfl)
  | abandon phase => exact told.keepingTables rfl rfl rfl rfl
  | @stage request phase room =>
    have launched := Server.launched server request
    generalize server.stageAndLaunch request = target at launched
    cases launched with
    | failed wrong => exact told
    | launched done => exact told
  | @pong payload phase finished =>
    rcases handlePing_eq server payload with ⟨error, failed⟩ | ⟨_, answered⟩
    · rw [failed]
      exact told
    · rw [answered]
      exact told
  | load own done => exact told.load done
  | _ => exact told

/-- In runs that report each model before the next one, every generation is
accounted for. -/
theorem accounted_of_reports (reachable : (evaluatorSystem.guarded Reports).Reachable server) :
    server.Accounted := by
  obtain ⟨sound, told⟩ := @TransitionSystem.Reachable.invariant _ _ _ (fun server : Server =>
      server.Sound ∧ Told server.residency server.announced) server reachable
    (fun _ started => ⟨sound_of_started started, told_of_started started⟩)
    fun _ _ _ known step =>
      have move := move_of_next step.2
      ⟨known.1.move move, told_of_move known.2 known.1 step.1 move⟩
  have models := sound.residency
  refine ⟨fun _ _ => told.superseded, models.bounded, models.inverse, ?_⟩
  intro version
  rw [models.resident, Option.isSome_iff_exists]
  constructor
  · rintro ⟨⟨generation, slot⟩, stored⟩
    exact ⟨generation, (models.inverse _ _).mpr ⟨slot, stored⟩⟩
  · rintro ⟨generation, stored⟩
    obtain ⟨slot, found⟩ := (models.inverse _ _).mp stored
    exact ⟨_, found⟩

/-! ### Schedules of results -/

/-- The client was told of the active model, if the connection goes on. -/
def UpToDate (server : Server) : Prop :=
  server.failure = none → server.told = some server.residency.modelGeneration

theorem upToDate_of_started (started : server.Started) : server.UpToDate := by
  obtain ⟨backend, hello, achieved, limit, slot, made, served⟩ := started
  obtain ⟨residency, _, _, _, _, _, rfl⟩ := serve_eq_ok served
  exact fun _ => rfl

theorem upToDate_fail (error : ServeError) : (server.fail error).UpToDate := nofun

theorem upToDate_of_flush {next} (done : server.flushOldest next = some target) :
    target.UpToDate ∧ target.residency = server.residency := by
  obtain ⟨_, _, _, _, _, ⟨error, rfl⟩ | ⟨_, _, _, _, _, _, rfl⟩⟩ := flushOldest_eq_some done
  · exact ⟨upToDate_fail error, rfl⟩
  · exact ⟨fun _ => List.getLast?_concat, rfl⟩

theorem places_of_dispatched {frame} (dispatched : Dispatched server frame target) :
    target.residency.maxResidentModelGenerations =
      server.residency.maxResidentModelGenerations := by
  cases dispatched with
  | release own done =>
    obtain ⟨_, done⟩ := ok_of_guard done
    obtain ⟨_, _, rfl⟩ := Residency.releaseModelGeneration_eq_ok done
    rfl
  | _ => rfl

theorem upToDate_of_dispatched {frame} (known : server.UpToDate)
    (dispatched : Dispatched server frame target) : target.UpToDate := by
  cases dispatched with
  | ping own | eval own parsed => exact known
  | release own done =>
    obtain ⟨_, done⟩ := ok_of_guard done
    obtain ⟨_, _, rfl⟩ := Residency.releaseModelGeneration_eq_ok done
    exact known
  | failed reason => exact upToDate_fail _

theorem upToDate_of_move (move : server.Move label target) :
    target.residency.maxResidentModelGenerations = server.residency.maxResidentModelGenerations ∧
      (label = .flush ∨ label ≠ .adopt ∧ server.UpToDate → target.UpToDate) := by
  cases move with
  | flush flushes done =>
    obtain ⟨known, same⟩ := upToDate_of_flush done
    exact ⟨congrArg _ same, fun _ => known⟩
  | adopt phase =>
    refine ⟨rfl, ?_⟩
    rintro (flush | ⟨other, _⟩)
    · cases flush
    · exact absurd rfl other
  | @receive bytes count phase pos asked available =>
    have received := Server.received server bytes count
    generalize server.receive bytes count = target at received
    cases received with
    | incomplete more => exact ⟨rfl, fun kept => kept.elim nofun And.right⟩
    | failed wrong => exact ⟨rfl, fun _ => upToDate_fail _⟩
    | frame whole dispatched =>
      refine ⟨(places_of_dispatched dispatched).trans rfl, fun kept => ?_⟩
      have known : server.UpToDate := kept.elim nofun And.right
      have knownTaking : (server.taking count).UpToDate := known
      exact upToDate_of_dispatched knownTaking dispatched
  | endOfFile phase nothing closed => exact ⟨rfl, fun _ => upToDate_fail _⟩
  | @stage request phase room =>
    have launched := Server.launched server request
    generalize server.stageAndLaunch request = target at launched
    cases launched with
    | failed wrong => exact ⟨rfl, fun _ => upToDate_fail _⟩
    | launched done => exact ⟨rfl, fun kept => kept.elim nofun And.right⟩
  | @pong payload phase finished =>
    rcases handlePing_eq server payload with ⟨error, failed⟩ | ⟨_, answered⟩
    · rw [failed]
      exact ⟨rfl, fun _ => upToDate_fail error⟩
    · rw [answered]
      exact ⟨rfl, fun kept => kept.elim nofun And.right⟩
  | load own done =>
    obtain ⟨_, _, _, _, rfl⟩ := done.eq
    refine ⟨rfl, fun kept => kept.elim (fun flush => ?_) And.right⟩
    rw [flush] at own
    exact own.elim
  | _ => exact ⟨rfl, fun kept => kept.elim nofun And.right⟩

/-- What is known after the labels `earlier` of a run from `start`. -/
structure Scheduled (start : Server) (earlier : List Label) (server : Server) : Prop where
  run : (evaluatorSystem.guarded Reports).Run start earlier server
  sound : server.Sound
  places : server.residency.maxResidentModelGenerations =
    start.residency.maxResidentModelGenerations
  known : earlier.foldlM awaitsResult false = some false → server.UpToDate

theorem Scheduled.step {start earlier} (scheduled : Scheduled start earlier server)
    (keeps : server.KeepsLast label) (step : server.next label = some target)
    (results : 2 < start.residency.maxResidentModelGenerations →
      ResultsBetween (earlier ++ [label])) :
    Scheduled start (earlier ++ [label]) target := by
  obtain ⟨run, sound, places, known⟩ := scheduled
  have move := move_of_next step
  obtain ⟨same, later⟩ := upToDate_of_move move
  refine ⟨.snoc run ⟨⟨keeps, ?_⟩, step⟩, sound.move move, same.trans places, fun followed => ?_⟩
  · rintro rfl many
    have between := results (places ▸ many)
    unfold ResultsBetween at between
    rw [List.foldlM_append, Option.isSome_iff_exists] at between
    obtain ⟨_, followed⟩ := between
    obtain ⟨awaited, before, goes⟩ := Option.bind_eq_some_iff.mp followed
    cases awaited with
    | true => cases goes
    | false =>
      refine known before (sound.alive fun gone => ?_)
      cases move with
      | adopt phase =>
        rw [phase] at gone
        exact gone
      | load own done => exact own
  · rw [List.foldlM_append] at followed
    obtain ⟨awaited, before, goes⟩ := Option.bind_eq_some_iff.mp followed
    obtain ⟨_, goes, ends⟩ := Option.bind_eq_some_iff.mp goes
    cases ends
    apply later
    cases label with
    | flush => exact .inl rfl
    | adopt =>
      cases awaited <;> cases goes
    | _ =>
      cases goes
      exact .inr ⟨nofun, known before⟩

/-- In runs in which a result is written between two adoptions, every
generation is accounted for. -/
theorem accounted_of_resultsBetween {start : Server} {labels : List Label}
    (started : start.Started)
    (run : (evaluatorSystem.guarded KeepsLast).Run start labels server)
    (results : 2 < start.residency.maxResidentModelGenerations → ResultsBetween labels) :
    server.Accounted := by
  have scheduled := run.history (fun earlier server =>
    (2 < start.residency.maxResidentModelGenerations → ResultsBetween earlier) →
      Scheduled start earlier server)
    (fun earlier state label next good step results =>
      (good fun many => ?_).step step.1 step.2 results)
    (fun _ => ⟨.refl _, sound_of_started started, rfl, fun _ => upToDate_of_started started⟩)
    results
  · exact accounted_of_reports ⟨start, started, _, scheduled.run⟩
  have between := results many
  unfold ResultsBetween at between ⊢
  rw [List.foldlM_append] at between
  obtain ⟨_, between⟩ := Option.isSome_iff_exists.mp between
  obtain ⟨awaited, before, _⟩ := Option.bind_eq_some_iff.mp between
  rw [before]
  rfl

/-! ### A client with one EVAL outstanding -/

/-- Unless the batch of the active model is unfinished, the client was told of
it. -/
def Alternates (server : Server) : Prop :=
  match server.phase with
  | .serving _ | .adopting _ _ => server.pending = [] ∧ server.UpToDate
  | .staging _ => server.pending = []
  | _ => server.pending = [] → server.UpToDate

theorem alternates_of_started (started : server.Started) : server.Alternates := by
  have known := upToDate_of_started started
  obtain ⟨backend, hello, achieved, limit, slot, made, served⟩ := started
  obtain ⟨residency, _, _, _, _, _, rfl⟩ := serve_eq_ok served
  exact fun _ => known

theorem alternates_fail (error : ServeError) : (server.fail error).Alternates := by
  cases error with
  | reported error | uncaught message => exact fun _ => upToDate_fail _

theorem alternates_of_dispatched {frame} (known : server.pending = [] → server.UpToDate)
    (single : frame.frameType = .eval → server.pending = [])
    (dispatched : Dispatched server frame target) : target.Alternates := by
  cases dispatched with
  | ping own => exact known
  | eval own parsed => exact ⟨single own, known (single own)⟩
  | release own done =>
    exact fun nothing => upToDate_of_dispatched (known nothing) (.release own done)
  | failed reason => exact alternates_fail _

theorem alternates_of_move (turns : server.Alternates) (sound : server.Sound)
    (single : server.OneOutstanding label) (move : server.Move label target) :
    target.Alternates := by
  unfold Alternates at turns
  cases move with
  | arrive bytes opened => exact turns
  | close => exact turns
  | compute done => exact turns
  | load own done =>
    obtain ⟨_, _, _, _, rfl⟩ := done.eq
    exact turns
  | hold phase unfinished holds =>
    rw [phase] at turns
    exact turns
  | proceed phase finished =>
    rw [phase] at turns
    exact turns
  | flush flushes done =>
    have known := (upToDate_of_flush done).1
    obtain ⟨_, _, _, _, _, ⟨error, rfl⟩ | ⟨_, _, _, _, _, _, rfl⟩⟩ := flushOldest_eq_some done
    · exact alternates_fail error
    · exact fun _ => known
  | @receive bytes count phase pos asked available =>
    rw [phase] at turns
    have received := Server.received server bytes count
    generalize server.receive bytes count = target at received
    cases received with
    | incomplete more => exact turns
    | failed wrong => exact alternates_fail _
    | frame whole dispatched =>
      have known : (server.taking count).pending = [] → (server.taking count).UpToDate := turns
      exact alternates_of_dispatched known (single bytes _ phase whole) dispatched
  | endOfFile phase nothing closed => exact alternates_fail _
  | passSwap phase nothing =>
    rw [phase] at turns
    exact turns.1
  | swap phase waiting =>
    rw [phase] at turns
    exact turns
  | adopt phase =>
    rw [phase] at turns
    exact turns.1
  | abandon phase =>
    rw [phase] at turns
    exact turns.1
  | @stage request phase room =>
    have launched := Server.launched server request
    generalize server.stageAndLaunch request = target at launched
    cases launched with
    | failed wrong => exact alternates_fail _
    | launched done => exact fun nothing => absurd nothing (by simp)
  | @pong payload phase finished =>
    rw [phase] at turns
    rcases handlePing_eq server payload with ⟨error, failed⟩ | ⟨_, answered⟩
    · rw [failed]
      exact alternates_fail error
    · rw [answered]
      exact turns
  | send phase some part =>
    rw [phase] at turns
    exact turns
  | @sent rest next phase some =>
    have fits := sound.fits
    rw [phase] at turns fits
    -- a frame is sent before the loop goes on or the connection ends
    cases next with
    | polling | draining payload | ended => exact turns
    | _ => exact (fits.2.elim id nofun).elim

/-- With one EVAL outstanding the batch of a model is answered before another
one is adopted. -/
theorem accounted_of_oneOutstanding (reachable : (evaluatorSystem.guarded fun server label =>
      server.KeepsLast label ∧ server.OneOutstanding label).Reachable server) :
    server.Accounted := by
  obtain ⟨start, started, labels, run⟩ := reachable
  have reports := run.transfer (evaluatorSystem.guarded Reports)
    (fun server => server.Sound ∧ server.Alternates) ?_
    ⟨sound_of_started started, alternates_of_started started⟩
  · exact accounted_of_reports ⟨start, started, labels, reports.1⟩
  rintro server label next _ ⟨sound, turns⟩ ⟨⟨keeps, single⟩, step⟩
  have move := move_of_next step
  refine ⟨⟨⟨keeps, ?_⟩, step⟩, sound.move move, alternates_of_move turns sound single move⟩
  rintro rfl _
  cases move with
  | adopt phase =>
    unfold Alternates at turns
    rw [phase] at turns
    exact turns.2 (sound.alive (by rw [phase]; exact id))
  | load own done => exact own.elim

end Server

namespace Sample

def load (version : ModelVersion) : List Server.Label :=
  [.resolve (manifest version), .claim, .publish runner]

/-- A request is read and its model staged, after a loaded one is adopted. -/
def adopting (read : Server.Label) : List Server.Label :=
  [read, .receive 4, .receive ((eval 7 1).encode.length - 4), .swap, .adopt, .stage]

/-- The second request is on the wire before the first is answered. -/
def hurried : List Server.Label :=
  load 2 ++ ([.arrive ((eval 7 1).encode ++ (eval 7 1).encode)] : List Server.Label) ++
    adopting .proceed ++ load 3 ++ adopting .hold ++
    ([.flush, .send 81, .flush, .send 81] : List Server.Label)

/-- The second request comes once the first is answered. -/
def patient : List Server.Label :=
  load 2 ++ .arrive (eval 7 1).encode :: adopting .proceed ++ .flush :: .send 81 :: load 3 ++
    .arrive (eval 7 1).encode :: adopting .proceed

def kept (server : Server) (label : Server.Label) : Option Server :=
  if server.KeepsLast label then server.next label else none

end Sample

/-- The second generation stays without having been announced. -/
theorem Server.generation_unannounced : ∃ server, evaluatorSystem.Reachable server ∧
      server.residency.versionsByGeneration.get? 2 = some 2 ∧
      server.residency.modelGeneration = (3, 3) ∧
      server.announced = [(1, 1), (3, 3), (3, 3)] ∧ ¬ server.Accounted := by
  have seen : (Sample.run 3 Sample.hurried).map (fun server =>
      (server.residency.versionsByGeneration.get? 2,
        server.residency.modelGeneration, server.announced)) =
      some (some 2, (3, 3), [(1, 1), (3, 3), (3, 3)]) := by
    decide +kernel
  obtain ⟨server, followed, seen⟩ := Option.map_eq_some_iff.mp seen
  simp only [Prod.mk.injEq] at seen
  obtain ⟨resident, active, announced⟩ := seen
  refine ⟨server, Sample.reachable_of_run followed, resident, active, announced,
    fun accounted => ?_⟩
  have other : (2 : Nat) ≠ server.residency.activeGeneration := by
    rw [show server.residency.activeGeneration = 3 from congrArg Prod.fst active]
    decide
  have told := accounted.announced 2 2 resident other
  rw [announced] at told
  revert told
  decide

/-- A result tells the client of the second model before a third is adopted. -/
theorem Server.accounted_of_resultsBetween_sample :
    ∃ server : Server, server.residency.modelGeneration = (3, 3) ∧
      server.residency.residentVersions = {1, 2, 3} ∧ server.Accounted := by
  have seen : ((Residency.new 3 ⟨Sample.manifest 1, Sample.runner⟩).toOption.bind
      fun residency => ((Sample.backend residency).serve Sample.hello
        (replyFrames 1 2)).toOption.bind fun server =>
          (Sample.patient.foldlM Sample.kept server)).map (fun server =>
      (server.residency.modelGeneration, server.residency.residentVersions)) =
      some ((3, 3), {1, 2, 3}) := by
    decide +kernel
  obtain ⟨server, followed, seen⟩ := Option.map_eq_some_iff.mp seen
  obtain ⟨residency, made, followed⟩ := Option.bind_eq_some_iff.mp followed
  obtain ⟨first, served, followed⟩ := Option.bind_eq_some_iff.mp followed
  simp only [Prod.mk.injEq] at seen
  refine ⟨server, seen.1, seen.2, Server.accounted_of_resultsBetween
    ⟨_, _, _, 3, _, ok_of_toOption made, ok_of_toOption served⟩
    (TransitionSystem.Run.of_foldlM (fun step => ?_) followed) fun _ => rfl⟩
  unfold Sample.kept at step
  split at step
  next keeps => exact ⟨keeps, step⟩
  next => cases step

end GraphZero.Evaluator
