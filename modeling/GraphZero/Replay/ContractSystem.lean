import GraphZero.Replay.ContractCalls

/-!
# Runs of a store with its contract

A store starts from what an earlier process left behind, with any values of its
contract: older versions wrote fewer of them.  Everything but opening the store
and binding a contract leaves these values alone.
-/

namespace GraphZero.Replay

open GraphZero.Engine
open GraphZero.Features
open GraphZero.Foundation

structure ContractWorld where
  base : World
  records : ContractRecords
  /-- The identity in the memory of the process. -/
  engineIdentity : Option EngineIdentity

/-- The open store, between two of its calls. -/
def ContractWorld.current (world : ContractWorld) : Option ContractStore :=
  match world.base.phase with
  | .idle store => some ⟨world.base.database, world.records, store, world.engineIdentity⟩
  | _ => none

inductive ContractLabel where
  | storage (label : Label)
  | openStore (retainRows : Option UInt64) (result : ReplayResult Unit)
  | ensureContract (contract : ReplayContract) (result : ReplayResult Unit)

/-- The steps that neither open the store nor bind a contract. -/
def Label.isStorage : Label → Bool
  | .ensureContract .. | .openStore _ (.ok _) => false
  | _ => true

inductive ContractStep (codec : ReplayCodec) (schemas : SchemaCodec) (decode : EpisodeDecoder) :
    ContractWorld → ContractLabel → ContractWorld → Prop
  | storage {before after records identity label} (plain : label.isStorage = true)
    (moved : Step codec before label after) :
    ContractStep codec schemas decode ⟨before, records, identity⟩
      (.storage label) ⟨after, records, identity⟩
  | openStore {before after records identity loaded retainRows}
    (opened : Step codec before (.openStore retainRows (.ok ())) after)
    (read : records.readEngineIdentity = .ok loaded) :
    ContractStep codec schemas decode ⟨before, records, identity⟩
      (.openStore retainRows (.ok ())) ⟨after, records, loaded⟩
  | openUnreadable {before after records identity retainRows failure}
    (opened : Step codec before (.openStore retainRows (.ok ())) after)
    (failed : records.readEngineIdentity = .error failure) :
    ContractStep codec schemas decode ⟨before, records, identity⟩
      (.openStore retainRows (.error failure))
      ⟨⟨after.database, .closed⟩, records, identity⟩
  | ensureContract {world current after contract written result}
    (idle : world.current = some current)
    (called : current.ensureContract schemas decode contract written = (result, after)) :
    ContractStep codec schemas decode world (.ensureContract contract result)
      ⟨⟨after.database, .idle after.store⟩, after.records, after.engineIdentity⟩

/-- The runs from any directory that a store has left behind. -/
def contractSystem (codec : ReplayCodec) (schemas : SchemaCodec)
    (decode : EpisodeDecoder) : TransitionSystem ContractWorld ContractLabel where
  initial world :=
    world.base.phase = .closed ∧ (storeSystem codec).Reachable world.base
  step := ContractStep codec schemas decode

section Runs

variable {codec : ReplayCodec} {schemas : SchemaCodec} {decode : EpisodeDecoder}

variable {world : ContractWorld} {rows : Nat}

variable {current : ContractStore}

theorem ContractWorld.eq_of_current (idle : world.current = some current) :
    world = ⟨⟨current.database, .idle current.store⟩, current.records, current.engineIdentity⟩ := by
  obtain ⟨⟨database, phase⟩, records, identity⟩ := world
  cases phase with
  | idle store =>
    cases idle
    rfl
  | _ => cases idle

/-- The world holds what was appended, at least `rows` rows. -/
def Recorded (codec : ReplayCodec) (rows : Nat) (world : World) : Prop :=
  ∃ episodes log memory, Consistent codec episodes log memory world ∧ rows ≤ totalRows episodes

variable {label : Label}

theorem Recorded.step {world next} (recorded : Recorded codec rows world)
    (step : Step codec world label next) :
    Recorded codec rows next := by
  obtain ⟨episodes, log, memory, sound, bound⟩ := recorded
  obtain ⟨nextLog, nextMemory, kept, _, _⟩ := sound.step step
  refine ⟨_, nextLog, nextMemory, kept, ?_⟩
  rw [totalRows_append]
  exact Nat.le_add_right_of_le bound

theorem recorded_of_reachable {world} (reachable : (storeSystem codec).Reachable world) :
    Recorded codec 0 world :=
  reachable.invariant (fun _ initial => initial ▸
      ⟨_, _, _, consistent_initial codec, Nat.zero_le _⟩)
    fun _ _ _ recorded step => recorded.step step

theorem Recorded.counters {database store} (recorded : Recorded codec 1 ⟨database, .idle store⟩) :
    store.producedRows ≠ 0 ∧ store.nextEpisodeSeq ≠ 0 := by
  obtain ⟨episodes, log, memory, sound, bound⟩ := recorded
  have same : store = memory := sound.phase
  have rows := sound.persisted.producedRows
  have count := sound.persisted.nextEpisodeSeq
  rw [← same] at rows count
  refine ⟨fun zero => ?_, fun zero => ?_⟩
  · rw [zero] at rows
    change 0 = _ at rows
    omega
  · rw [zero] at count
    have none : episodes = [] := List.length_eq_zero_iff.mp count.symm
    rw [none] at bound
    exact absurd bound (by decide)

theorem Recorded.readDataMode {database store}
    (recorded : Recorded codec rows ⟨database, .idle store⟩) :
    readDataMode database = .ok store.dataMode := by
  obtain ⟨episodes, log, memory, sound, _⟩ := recorded
  have same : store = memory := sound.phase
  rw [same]
  exact sound.persisted.metas.dataMode.read

theorem Recorded.readDataMode_step {world next} (recorded : Recorded codec rows world)
    (step : Step codec world label next)
    (other : ∀ dataMode admitted result, label ≠ .ensureContract dataMode admitted result) :
    GraphZero.Replay.readDataMode next.database = GraphZero.Replay.readDataMode world.database := by
  obtain ⟨episodes, log, memory, sound, _⟩ := recorded
  have persisted := sound.persisted
  have before := persisted.metas.dataMode
  -- each write keeps the stored mode that the memory shows
  have kept : ∀ {database : Database} {updated : ReplayStore} {mine theirs},
      Persisted codec mine theirs updated database → updated.dataMode = memory.dataMode →
        GraphZero.Replay.readDataMode database = GraphZero.Replay.readDataMode world.database := by
    intro database updated mine theirs written same
    rw [written.metas.dataMode.read, same, before.read]
  cases step with
  | openStore recovered =>
    obtain ⟨schema, schemaOk, written, _⟩ := sound.ensureSchema
    obtain ⟨found, foundOk, recovered⟩ := ok_of_bind recovered
    rw [schemaOk] at foundOk
    cases foundOk
    obtain ⟨store, _, recovered⟩ := ok_of_bind recovered
    cases recovered
    exact kept written rfl
  | openUnreadable schemaOk failed =>
    obtain ⟨schema, found, written, _⟩ := sound.ensureSchema
    rw [found] at schemaOk
    cases schemaOk
    exact kept written rfl
  | openWrite =>
    obtain ⟨same, writes⟩ := sound.phase
    exact kept (persisted.openWrite (writes _ List.mem_cons_self)).1 rfl
  | ensureContract accepted => exact absurd rfl (other _ _ _)
  | appendEpisode accepted =>
    have same : _ = memory := sound.phase
    rw [same] at accepted
    exact kept (persisted.append (stagedFrom_of_appendEpisode accepted)) rfl
  | appendEpisodePair accepted =>
    have same : _ = memory := sound.phase
    rw [same] at accepted
    exact kept (persisted.append (stagedFrom_of_appendEpisodePair accepted)) rfl
  | retentionWrite moved =>
    have same : _ = memory := sound.phase
    rw [same] at moved
    exact kept (persisted.retain (persisted.retentionMoves moved)) rfl
  | recordConsumed current recorded =>
    obtain ⟨consumedRows, _, recorded⟩ := ok_of_bind recorded
    cases recorded
    exact kept (persisted.consume consumedRows).1 rfl
  | _ => rfl

/-- The store is recorded, and an open one shows the stored identity. -/
structure ContractWorld.Sound (codec : ReplayCodec) (rows : Nat)
    (world : ContractWorld) : Prop where
  recorded : Recorded codec rows world.base
  identity : world.base.phase ≠ .closed →
    world.records.readEngineIdentity = .ok world.engineIdentity

theorem ContractWorld.Sound.synced {world : ContractWorld} (sound : world.Sound codec rows)
    (idle : world.current = some current) : current.Synced := by
  rw [ContractWorld.eq_of_current idle] at sound
  exact ⟨sound.recorded.readDataMode, sound.identity nofun⟩

theorem Step.phase_of_storage {before after} (step : Step codec before label after)
    (plain : label.isStorage = true) (running : after.phase ≠ .closed) :
    before.phase ≠ .closed := by
  cases step with
  | recordConsumed current recorded =>
    intro closed
    dsimp only at closed
    rw [closed] at current
    cases current
  | openStore recovered => cases plain
  | openMismatched failed => exact absurd rfl running
  | openUnreadable schemaOk failed => exact absurd rfl running
  | crash => exact absurd rfl running
  | consumedRefused current refused => exact running
  | _ => nofun

theorem step_of_ensureContract {after contract written}
    (succeeded : current.ensureContract schemas decode contract written = (.ok (), after)) :
    Step codec ⟨current.database, .idle current.store⟩
      (.ensureContract contract.dataMode (.ok ()) (.ok ()))
      ⟨after.database, .idle after.store⟩ := by
  obtain ⟨schema, epsilon, scale, bytes, staged, rfl⟩ :=
    ContractStore.ensureContract_eq_ok succeeded
  refine Step.ensureContract ?_
  unfold ReplayStore.ensureContract
  rw [staged.modeFits]
  rfl

theorem ContractWorld.Sound.step {world next : ContractWorld} {label}
    (sound : world.Sound codec rows) (step : ContractStep codec schemas decode world label next) :
    next.Sound codec rows := by
  cases step with
  | storage plain moved =>
    exact ⟨sound.recorded.step moved, fun running =>
      sound.identity (moved.phase_of_storage plain running)⟩
  | openStore opened read => exact ⟨sound.recorded.step opened, fun _ => read⟩
  | openUnreadable opened failed =>
    exact ⟨(sound.recorded.step opened).step .crash, fun running =>
      absurd rfl running⟩
  | ensureContract idle called =>
    rename_i current after contract written result
    have synced := sound.synced idle
    rw [ContractWorld.eq_of_current idle] at sound
    cases result with
    | error failure =>
      rw [ContractStore.ensureContract_error called]
      exact sound
    | ok done =>
      refine ⟨sound.recorded.step (step_of_ensureContract called), fun _ => ?_⟩
      obtain ⟨schema, epsilon, scale, bytes, staged, rfl⟩ :=
        ContractStore.ensureContract_eq_ok called
      exact staged.readEngineIdentity synced

theorem sound_of_reachable (reachable : (contractSystem codec schemas decode).Reachable world) :
    world.Sound codec 0 :=
  reachable.invariant (fun _ initial => ⟨recorded_of_reachable initial.2, fun running =>
      absurd initial.1 running⟩)
    fun _ _ _ sound step => sound.step step

end Runs

end GraphZero.Replay
