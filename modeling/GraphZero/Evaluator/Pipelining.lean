import GraphZero.Evaluator.Staging

/-!
# Batches that are launched and not finished

Each has a staging buffer and a host buffer of its own, so what is read for it
at the end are the outputs of its model on the batch as it was staged.
-/

namespace GraphZero.Evaluator

open Engine Foundation Features List

/-- A batch that is launched and not finished. -/
structure Outstanding where
  batchId : Nat
  handle : PendingEval
  /-- What was launched, and the batch it was staged from. -/
  staged : StagedEval
  view : Python.BatchView

namespace Outstanding

/-- The outputs of the model on the batch. -/
def expected (outstanding : Outstanding) : ServeResult (List UInt8) :=
  outstanding.staged.encoder.encode
    (runRunner outstanding.staged.serving.runner (.ofView outstanding.view))
    outstanding.staged.rowCount outstanding.staged.actionCounts

/-- The host buffer of a batch that a device runs. -/
def slot (outstanding : Outstanding) : Nat :=
  match outstanding.handle.output with
  | .hostSlot index => index
  | .raw _ => 0

def launch (outstanding : Outstanding) : Launch where
  runner := outstanding.staged.serving.runner
  stager := outstanding.staged.stager
  hostSlot := outstanding.slot
  rowCount := outstanding.staged.rowCount

/-- What is kept for the batch is what was staged. -/
structure Kept (outstanding : Outstanding) : Prop where
  modelVersion : outstanding.handle.modelVersion = outstanding.staged.serving.modelVersion
  rowCount : outstanding.handle.rowCount = outstanding.staged.rowCount
  actionCounts : outstanding.handle.actionCounts = outstanding.staged.actionCounts
  encoder : outstanding.handle.encoder = outstanding.staged.encoder

end Outstanding

/-- Arrays that agree on the first rows. -/
structure OutputArrays.Agrees (rowCount : Nat) (left right : OutputArrays) : Prop where
  rows : left.rows = right.rows
  width : left.width = right.width
  values : ∀ row < rowCount, left.values row = right.values row
  logits : ∀ row < rowCount, left.logits row = right.logits row

theorem OutputEncoder.encode_congr {encoder : OutputEncoder} {left right rowCount counts}
    (agrees : left.Agrees rowCount right) :
    encoder.encode left rowCount counts = encoder.encode right rowCount counts := by
  unfold encode
  rw [agrees.width, agrees.rows]
  by_cases counted : counts.length ≠ rowCount
  · simp only [if_pos counted]
  rw [not_not] at counted
  have dense : encoder.encodeDense left rowCount = encoder.encodeDense right rowCount := by
    have value (row : Nat) : (if row < rowCount then left.values row else .zero) =
          if row < rowCount then right.values row else .zero := by
      split
      · next inside => exact agrees.values row inside
      · rfl
    have logit (row action : Nat) : (if row < rowCount then left.logits row action else .zero) =
          if row < rowCount then right.logits row action else .zero := by
      split
      · next inside => rw [agrees.logits row inside]
      · rfl
    unfold encodeDense
    simp only [value, logit]
  have compact : encoder.encodeCompact left rowCount counts =
      encoder.encodeCompact right rowCount counts := by
    have values : ((List.range rowCount).flatMap fun row =>
          floatBytes (left.values row)) =
        (List.range rowCount).flatMap fun row =>
          floatBytes (right.values row) := by
      refine flatMap_congr fun row member => ?_
      rw [agrees.values row (mem_range.mp member)]
    unfold encodeCompact
    rw [values]
    apply congrArg
    apply flatMap_congr
    rintro ⟨count, row⟩ member
    have inside := snd_lt_of_mem_zipIdx member
    rw [Nat.add_zero, counted] at inside
    dsimp only
    rw [agrees.logits row inside]
  rw [dense, compact]

namespace Staging

/-- The device runs launches in order, and what it has run is in the host
buffers. -/
structure OnDevice (staging : Staging) (pending : List Outstanding) : Prop where
  located : ∀ outstanding ∈ pending,
    outstanding.handle.output = .hostSlot outstanding.slot
  slots : ∃ start,
    pending.map (·.slot) = ringPlaces hostSlotCount start pending.length ∧
      staging.slotIndex = (start + pending.length) % hostSlotCount
  ran : ∃ ran waiting, pending = ran ++ waiting ∧ staging.stream = waiting.map Outstanding.launch ∧
    ∀ outstanding ∈ ran,
      (staging.hostSlots outstanding.slot).Agrees outstanding.staged.rowCount
        (runRunner outstanding.staged.serving.runner (.ofView outstanding.view))

/-- Without a device outputs are computed at once. -/
structure OnHost (staging : Staging) (pending : List Outstanding) : Prop where
  located : ∀ outstanding ∈ pending,
    outstanding.handle.output = .raw
      (runRunner outstanding.staged.serving.runner (.ofView outstanding.view))
  idle : staging.stream = []

structure Sound (staging : Staging) (pending : List Outstanding) : Prop where
  bounded : pending.length ≤ pipelineDepth
  kept : ∀ outstanding ∈ pending, outstanding.Kept
  places : ∃ start,
    pending.map (·.staged.stager) = ringPlaces pipelineDepth start pending.length ∧
      staging.stageIndex = (start + pending.length) % pipelineDepth
  held : ∀ outstanding ∈ pending,
    staging.stagers outstanding.staged.stager = .ofView outstanding.view
  onDevice : staging.cuda = true → staging.OnDevice pending
  onHost : staging.cuda = false → staging.OnHost pending

variable {staging next : Staging} {residency : Residency}
  {pending rest : List Outstanding} {outstanding : Outstanding}
  {view : Python.BatchView} {version : ModelVersion} {staged : StagedEval}

/-! ## Staging and launching -/

theorem encoderFor_eq_ok {encoder} (done : staging.encoderFor view = .ok encoder) :
    encoder = ⟨view.dims.batchCapacity, view.dims.maxActions⟩ := by
  have made {encoder : OutputEncoder}
      (new : OutputEncoder.new view.dims.batchCapacity view.dims.maxActions = .ok encoder) :
      encoder = ⟨view.dims.batchCapacity, view.dims.maxActions⟩ := by
    unfold OutputEncoder.new at new
    split at new
    · cases new
    split at new
    · cases new
    cases new
    rfl
  unfold encoderFor at done
  split at done
  · next old _ =>
    split at done
    · next fits =>
      cases done
      cases encoder
      cases fits.1
      cases fits.2
      rfl
    · exact made done
  · exact made done

theorem stage_eq_ok (done : staging.stage residency view version = .ok (staged, next)) :
    residency.servingSlot version = .ok staged.serving ∧ staging.checkView view = .ok () ∧
      staged.stager = staging.stageIndex ∧
      staged.rowCount = view.dims.rowCount ∧
      staged.actionCounts = view.actionCount.data.take view.dims.rowCount ∧
      staged.encoder = ⟨view.dims.batchCapacity, view.dims.maxActions⟩ ∧
      next = { staging with
        stagers := Function.update staging.stagers staging.stageIndex (.ofView view)
        stageIndex := (staging.stageIndex + 1) % pipelineDepth
        encoder := some staged.encoder } := by
  obtain ⟨encoder, made, done⟩ := ok_of_bind done
  obtain ⟨serving, found, done⟩ := ok_of_bind done
  obtain ⟨⟨⟩, checked, done⟩ := ok_of_bind done
  cases done
  exact ⟨found, checked, rfl, rfl, rfl, encoderFor_eq_ok made, rfl⟩

theorem Sound.stageAndLaunch (sound : staging.Sound pending) (room : pending.length < pipelineDepth)
    (done : staging.stage residency view version = .ok (staged, next))
    (batchId : Nat) :
    (next.launch staged).2.Sound
      (pending ++ [⟨batchId, (next.launch staged).1, staged, view⟩]) := by
  obtain ⟨_, _, stager, _, _, _, rfl⟩ := stage_eq_ok done
  obtain ⟨start, places, stageIndex⟩ := sound.places
  have fresh : ∀ other ∈ pending, other.staged.stager ≠ staging.stageIndex := by
    intro other member same
    have free : (start + pending.length) % pipelineDepth ∉
        ringPlaces pipelineDepth start pending.length :=
      next_notMem_ringPlaces room
    rw [← places, ← stageIndex, ← same] at free
    exact free (mem_map_of_mem member)
  have held : ∀ other ∈ pending, Function.update staging.stagers staging.stageIndex (.ofView view)
        other.staged.stager = .ofView other.view := by
    intro other member
    rw [Function.update_of_ne (fresh other member)]
    exact sound.held other member
  have inBuffers (handle : PendingEval) : ∀ other ∈ pending ++ [⟨batchId, handle, staged, view⟩],
        Function.update staging.stagers staging.stageIndex (.ofView view)
          other.staged.stager = .ofView other.view := by
    intro other member
    rcases mem_append.mp member with earlier | last
    · exact held other earlier
    · cases mem_singleton.mp last
      rw [stager, Function.update_self]
  have inTurn (handle : PendingEval) :
      (pending ++ [(⟨batchId, handle, staged, view⟩ : Outstanding)]).map (·.staged.stager) =
        ringPlaces pipelineDepth start (pending.length + 1) := by
    rw [map_append, places, ringPlaces_concat, ← stageIndex, ← stager]
    rfl
  have keptAll (handle : PendingEval) (own : Outstanding.Kept ⟨batchId, handle, staged, view⟩) :
      ∀ other ∈ pending ++ [⟨batchId, handle, staged, view⟩], other.Kept := by
    intro other member
    rcases mem_append.mp member with earlier | last
    · exact sound.kept other earlier
    · cases mem_singleton.mp last
      exact own
  unfold launch
  dsimp only
  split
  · next cuda =>
    refine ⟨?_, keptAll _ ⟨rfl, rfl, rfl, rfl⟩, ⟨start, ?_, ?_⟩,
      inBuffers _, fun _ => ?_, fun host => ?_⟩
    · rw [length_append]
      exact room
    · rw [length_append]
      exact inTurn _
    · rw [length_append, length_singleton, stageIndex, Nat.mod_add_mod]
      rfl
    · have device := sound.onDevice cuda
      obtain ⟨first, slots, slotIndex⟩ := device.slots
      obtain ⟨ran, waiting, parts, stream, agrees⟩ := device.ran
      refine ⟨?_, ⟨first, ?_, ?_⟩, ran, waiting ++ [⟨batchId,
        ⟨staged.serving.modelVersion, .hostSlot staging.slotIndex,
          staged.rowCount, staged.actionCounts, staged.encoder⟩,
        staged, view⟩], ?_, ?_, agrees⟩
      · intro other member
        rcases mem_append.mp member with earlier | last
        · exact device.located other earlier
        · cases mem_singleton.mp last
          rfl
      · rw [map_append, slots, length_append, length_singleton, ringPlaces_concat, ← slotIndex]
        rfl
      · rw [length_append, length_singleton, slotIndex, Nat.mod_add_mod]
        rfl
      · rw [parts, append_assoc]
      · rw [map_append, ← stream]
        rfl
    · cases cuda.symm.trans host
  next host =>
  rw [Bool.not_eq_true] at host
  refine ⟨?_, keptAll _ ⟨rfl, rfl, rfl, rfl⟩, ⟨start, ?_, ?_⟩,
    inBuffers _, fun cuda => ?_, fun _ => ?_⟩
  · rw [length_append]
    exact room
  · rw [length_append]
    exact inTurn _
  · rw [length_append, length_singleton, stageIndex, Nat.mod_add_mod]
    rfl
  · cases cuda.symm.trans host
  · have onHost := sound.onHost host
    refine ⟨?_, onHost.idle⟩
    intro other member
    rcases mem_append.mp member with earlier | last
    · exact onHost.located other earlier
    · cases mem_singleton.mp last
      rw [stager, Function.update_self]

/-! ## Computing and finishing -/

theorem Sound.compute (sound : staging.Sound pending)
    (done : staging.compute = some next) : next.Sound pending := by
  unfold Staging.compute at done
  split at done
  · cases done
  next launch rest stream =>
  cases done
  have cuda : staging.cuda = true := by
    cases host : staging.cuda with
    | true => rfl
    | false =>
      have idle := (sound.onHost host).idle
      rw [stream] at idle
      cases idle
  have device := sound.onDevice cuda
  obtain ⟨ran, waiting, parts, queued, agrees⟩ := device.ran
  rw [stream] at queued
  cases waiting with
  | nil => cases queued
  | cons first waiting =>
    injection queued with own others
    subst own
    have member : first ∈ pending := by
      rw [parts]
      exact mem_append_right _ mem_cons_self
    have distinct : (pending.map (·.slot)).Nodup := by
      obtain ⟨start, slots, _⟩ := device.slots
      rw [slots]
      exact nodup_ringPlaces sound.bounded
    refine ⟨sound.bounded, sound.kept, sound.places, sound.held,
      fun _ => ⟨device.located, device.slots, ran ++ [first], waiting, ?_,
        others, ?_⟩, fun host => ?_⟩
    · rw [parts, append_assoc]
      rfl
    · intro other earlier
      rcases mem_append.mp earlier with before | last
      · have apart : other.slot ≠ first.slot := by
          rw [parts, map_append, map_cons] at distinct
          intro same
          refine disjoint_of_nodup_append distinct (mem_map_of_mem before) ?_
          rw [same]
          exact mem_cons_self
        change OutputArrays.Agrees _ (Function.update staging.hostSlots first.slot _ _) _
        rw [Function.update_of_ne apart]
        exact agrees other before
      · cases mem_singleton.mp last
        change OutputArrays.Agrees _ (Function.update staging.hostSlots first.slot _ _) _
        rw [Function.update_self, show first.launch.stager = first.staged.stager from rfl,
          sound.held first member]
        refine ⟨rfl, rfl, fun row inside => ?_, fun row inside => ?_⟩
        · exact if_pos inside
        · exact if_pos inside
    · cases cuda.symm.trans host

theorem Sound.finish_eq (sound : staging.Sound (outstanding :: rest))
    {result : ServeResult (List UInt8)}
    (done : staging.finish outstanding.handle = some result) :
    result = outstanding.expected := by
  have kept := sound.kept outstanding mem_cons_self
  unfold Outstanding.expected
  rw [← kept.rowCount, ← kept.actionCounts, ← kept.encoder]
  unfold finish at done
  cases cuda : staging.cuda with
  | false =>
    rw [(sound.onHost cuda).located outstanding mem_cons_self] at done
    cases done
    rfl
  | true =>
    have device := sound.onDevice cuda
    rw [device.located outstanding mem_cons_self] at done
    dsimp only at done
    split at done
    · cases done
    next idle =>
    cases done
    obtain ⟨ran, waiting, parts, stream, agrees⟩ := device.ran
    cases ran with
    | nil =>
      rw [nil_append] at parts
      rw [busy, stream, ← parts, map_cons, any_cons] at idle
      simp [Outstanding.launch] at idle
    | cons first others =>
      injection parts with same _
      have own := agrees first mem_cons_self
      rw [← same, ← kept.rowCount] at own
      exact OutputEncoder.encode_congr own

theorem finish_isSome (idle : staging.stream = []) (pending : PendingEval) :
    (staging.finish pending).isSome = true := by
  unfold finish
  split
  · rfl
  unfold busy
  rw [idle]
  rfl

theorem Sound.finished (sound : staging.Sound (outstanding :: rest)) {result}
    (done : staging.finish outstanding.handle = some result) :
    staging.Sound rest := by
  obtain ⟨start, places, stageIndex⟩ := sound.places
  have kept := sound.bounded
  rw [length_cons] at places stageIndex kept
  rw [ringPlaces_cons, map_cons] at places
  injection places with _ places
  refine ⟨by omega, fun other member =>
      sound.kept other (mem_cons_of_mem _ member),
    ⟨start + 1, places, ?_⟩, fun other member =>
      sound.held other (mem_cons_of_mem _ member),
    fun cuda => ?_, fun host => ?_⟩
  · rw [stageIndex]
    exact congrArg (· % pipelineDepth) (by omega)
  · have device := sound.onDevice cuda
    obtain ⟨first, slots, slotIndex⟩ := device.slots
    rw [length_cons] at slots slotIndex
    rw [ringPlaces_cons, map_cons] at slots
    injection slots with _ slots
    obtain ⟨ran, waiting, parts, stream, agrees⟩ := device.ran
    refine ⟨fun other member =>
      device.located other (mem_cons_of_mem _ member),
      ⟨first + 1, slots, ?_⟩, ?_⟩
    · rw [slotIndex]
      exact congrArg (· % hostSlotCount) (by omega)
    cases ran with
    | nil =>
      rw [nil_append] at parts
      rw [← parts] at stream
      unfold finish at done
      rw [device.located outstanding mem_cons_self] at done
      dsimp only at done
      rw [busy, stream, map_cons, any_cons] at done
      simp [Outstanding.launch] at done
    | cons own others =>
      injection parts with _ parts
      exact ⟨others, waiting, parts, stream, fun other member =>
        agrees other (mem_cons_of_mem _ member)⟩
  · have onHost := sound.onHost host
    exact ⟨fun other member =>
      onHost.located other (mem_cons_of_mem _ member), onHost.idle⟩

end Staging

end GraphZero.Evaluator
