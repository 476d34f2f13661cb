import GraphZero.Foundation.Sequences
import GraphZero.Replay.ContractSystem

/-!
# A store is bound to one contract

From the first row on every accepted contract equals the one the store is bound
to, where values that older versions did not write have their defaults.  Binding
the same contract twice changes nothing, and neither does a call that fails.
-/

namespace GraphZero.Replay

open GraphZero.Engine
open GraphZero.Features
open GraphZero.Foundation

section Binding

variable {codec : ReplayCodec} {schemas : SchemaCodec} {decode : EpisodeDecoder}
  {world next : ContractWorld}

/-- Whatever equals the contract stored now equals the one stored before. -/
def StillBound (schemas : SchemaCodec) (stored : StoredContract)
    (identity : EngineIdentity) (world : ContractWorld) : Prop :=
  ∃ now, storedContract schemas world.base.database world.records = .ok now ∧
    now.engineIdentity = some identity ∧
    ∀ tested, (now.contract identity).equals tested = true →
      (stored.contract identity).equals tested = true

variable {stored : StoredContract} {identity : EngineIdentity}

theorem StillBound.of_readDataMode {base other records before after}
    (still : StillBound schemas stored identity ⟨base, records, before⟩)
    (same : readDataMode other.database = readDataMode base.database) :
    StillBound schemas stored identity ⟨other, records, after⟩ := by
  obtain ⟨now, read, rest⟩ := still
  refine ⟨now, ?_, rest⟩
  unfold storedContract at read ⊢
  rw [same]
  exact read

theorem StillBound.step {label} (sound : world.Sound codec 1)
    (still : StillBound schemas stored identity world)
    (step : ContractStep codec schemas decode world label next) :
    StillBound schemas stored identity next := by
  cases step with
  | storage plain moved =>
    refine still.of_readDataMode (sound.recorded.readDataMode_step moved ?_)
    rintro dataMode admitted result rfl
    cases plain
  | openStore opened read =>
    exact still.of_readDataMode (sound.recorded.readDataMode_step opened nofun)
  | openUnreadable opened failed =>
    have same := sound.recorded.readDataMode_step opened nofun
    exact still.of_readDataMode same
  | ensureContract idle called =>
    rename_i current after contract written result
    have synced := sound.synced idle
    rw [ContractWorld.eq_of_current idle] at sound still
    cases result with
    | error failure =>
      rw [ContractStore.ensureContract_error called]
      exact still
    | ok done =>
      obtain ⟨rows, episodes⟩ := sound.recorded.counters
      obtain ⟨schema, epsilon, scale, bytes, staged, rfl⟩ :=
        ContractStore.ensureContract_eq_ok called
      obtain ⟨now, read, owned, implied⟩ := still
      rw [staged.storedContract synced] at read
      cases read
      refine ⟨_, staged.storedContract_bound synced, ?_, fun tested equal =>
        implied tested (staged.contract_bind rows episodes equal)⟩
      exact congrArg some (staged.identity_eq owned).symm

end Binding

namespace Sample

def schemas : SchemaCodec where
  encode _ := storage "no schema"
  decode _ := storage "no schema"
  decode_encode := nofun

def decodeEpisode : EpisodeDecoder := fun _ => .ok Contents.Sample.record

def contract : ReplayContract where
  dataMode := .standard
  featureSchema := none
  engineIdentity := .fromContext Contents.Sample.root
  symmetricRewardTieEpsilon := none
  symmetricRewardTargetScale := none

end Sample

end GraphZero.Replay
