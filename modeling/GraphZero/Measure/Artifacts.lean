import GraphZero.Foundation.ReferenceCount
import GraphZero.Measure.Stores

/-!
# Artifact reference counts

The store counts one reference for each subject descriptor of a live job.
`retainArtifacts` checks the whole request before it writes, so its writes are
described by what it leaves under each digest; `releaseArtifacts` takes back
one reference at a time.
-/

namespace GraphZero.Measure

open Foundation Wire List

def mentions (descriptors : List ArtifactDescriptor) (digest : ArtifactDigest) : Nat :=
  descriptors.countP fun descriptor => descriptor.digest = digest

/-- How many subject descriptors of live jobs have the artifact `digest`. -/
def demand (jobs : Table JobId Job) (digest : ArtifactDigest) : Nat :=
  jobs.total fun job => mentions job.descriptors digest

def storedBytes (artifacts : Table ArtifactDigest ArtifactRecord) : Nat :=
  artifacts.total fun record => record.bytes.length

/-- The store against a demand, and within its two capacities. -/
structure StoreHolds (config : CoordinatorConfig)
    (demand : ArtifactDigest → Nat) (state : CoordinatorState) : Prop where
  counts : Counts ArtifactRecord.references demand state.artifacts
  bytes : state.artifactBytes = storedBytes state.artifacts
  items_le : state.artifacts.size ≤ config.artifactItemCapacity
  bytes_le : state.artifactBytes ≤ config.artifactByteCapacity

theorem mentions_cons (descriptor : ArtifactDescriptor)
    (descriptors : List ArtifactDescriptor) (digest : ArtifactDigest) :
    mentions (descriptor :: descriptors) digest = mentions descriptors digest +
        if descriptor.digest = digest then 1 else 0 := by
  unfold mentions
  rw [countP_cons]
  simp only [decide_eq_true_eq]

theorem storedBytes_rewrite {artifacts digest record later}
    (found : artifacts.get? digest = some record) (same : later.bytes = record.bytes) :
    storedBytes (artifacts.insert digest later) = storedBytes artifacts := by
  have both : record.bytes.length + storedBytes (artifacts.insert digest later) =
        later.bytes.length + storedBytes artifacts :=
    Table.total_insert_of_present (fun record : ArtifactRecord => record.bytes.length) found
  rw [same] at both
  exact Nat.add_left_cancel both

section Release

variable {config : CoordinatorConfig} {demand : ArtifactDigest → Nat}
  {state : CoordinatorState}

variable {digest : ArtifactDigest}

theorem storeHolds_releaseArtifact (holds : StoreHolds config
      (fun tested => demand tested + if digest = tested then 1 else 0)
      state) :
    StoreHolds config demand (releaseArtifact state digest) := by
  have demanded : 0 < demand digest + if digest = digest then 1 else 0 := by
    rw [if_pos rfl]
    omega
  obtain ⟨record, found⟩ := (holds.counts.exists_iff digest).mpr demanded
  have references := holds.counts.demand_of_get? found
  rw [if_pos rfl] at references
  have others : ∀ tested, tested ≠ digest →
      demand tested = demand tested + if digest = tested then 1 else 0 := by
    intro tested different
    rw [if_neg (Ne.symm different), Nat.add_zero]
  unfold releaseArtifact
  rw [found]
  dsimp only
  by_cases shared : 1 < record.references
  · rw [if_pos shared]
    refine ⟨?_, ?_, ?_, holds.bytes_le⟩
    · apply holds.counts.insert _ _ others
      · dsimp only
        omega
      · dsimp only
        omega
    · exact holds.bytes.trans (storedBytes_rewrite found (by rfl)).symm
    · exact (Table.size_insert_of_present (Table.mem_keys_of_get? found)).le.trans holds.items_le
  · rw [if_neg shared]
    have erased := Table.total_erase_of_present
      (fun record : ArtifactRecord => record.bytes.length) found
    have total := holds.bytes
    have within := holds.bytes_le
    unfold storedBytes at total
    refine ⟨?_, ?_, ?_, ?_⟩
    · apply holds.counts.erase _ others
      omega
    · unfold storedBytes
      dsimp only
      omega
    · exact (Table.size_erase_le _ _).trans holds.items_le
    · dsimp only
      omega

theorem storeHolds_releaseArtifacts (descriptors : List ArtifactDescriptor)
    (holds : StoreHolds config (fun tested => demand tested + mentions descriptors tested) state) :
    StoreHolds config demand (releaseArtifacts state descriptors) := by
  induction descriptors generalizing state with
  | nil => exact holds
  | cons descriptor descriptors ih =>
    apply ih
    apply storeHolds_releaseArtifact
    simp only [mentions_cons, ← Nat.add_assoc] at holds
    exact holds

theorem bytes_of_releaseArtifact {released record}
    (kept : (releaseArtifact state released).artifacts.get? digest = some record) :
    ∃ before, state.artifacts.get? digest = some before ∧ record.bytes = before.bytes := by
  unfold releaseArtifact at kept
  split at kept
  · exact ⟨record, kept, rfl⟩
  next first present =>
  split at kept
  · rw [Table.get?_insert] at kept
    split at kept
    · next here =>
      cases kept
      exact ⟨first, by rw [here, present], rfl⟩
    · exact ⟨record, kept, rfl⟩
  · rw [Table.get?_erase] at kept
    split at kept
    · cases kept
    · exact ⟨record, kept, rfl⟩

theorem bytes_of_releaseArtifacts {descriptors record}
    (kept : (releaseArtifacts state descriptors).artifacts.get? digest = some record) :
    ∃ before, state.artifacts.get? digest = some before ∧ record.bytes = before.bytes := by
  induction descriptors generalizing state with
  | nil => exact ⟨record, kept, rfl⟩
  | cons descriptor descriptors ih =>
    obtain ⟨mid, found, same⟩ := ih kept
    obtain ⟨before, present, earlier⟩ := bytes_of_releaseArtifact found
    exact ⟨before, present, same.trans earlier⟩

end Release

/-! ## Retaining -/

section Request

variable {requested final : Table ArtifactDigest (Bytes × Nat)}

theorem requestedArtifacts_cons {descriptor artifact rest}
    (accepted : requestedArtifacts ((descriptor, artifact) :: rest) requested = .ok final) :
    (∀ bytes references, requested.get? descriptor.digest =
        some (bytes, references) → bytes = artifact.bytes) ∧
      requestedArtifacts rest (requested.insert descriptor.digest (artifact.bytes,
          countAt Prod.snd requested descriptor.digest + 1)) =
        .ok final := by
  unfold requestedArtifacts at accepted
  cases found : requested.get? descriptor.digest with
  | none =>
    rw [found] at accepted
    rw [countAt_of_absent found]
    exact ⟨by rintro bytes references ⟨⟩, accepted⟩
  | some entry =>
    obtain ⟨bytes, references⟩ := entry
    rw [found] at accepted
    dsimp only at accepted
    split at accepted
    · cases accepted
    next same =>
    obtain ⟨total, checked, accepted⟩ := ok_of_bind accepted
    have bytesEq : bytes = artifact.bytes := by simpa using same
    unfold checkedAdd at checked
    split at checked
    · cases checked
      rw [countAt_of_get? found, ← bytesEq]
      refine ⟨?_, accepted⟩
      rintro _ _ ⟨⟩
      rfl
    · cases checked

theorem counts_requestedArtifacts {asked pairs}
    (accepted : requestedArtifacts pairs requested = .ok final)
    (counts : Counts Prod.snd asked requested) :
    Counts Prod.snd (fun digest => asked digest + mentions (pairs.map Prod.fst) digest) final := by
  induction pairs generalizing requested asked with
  | nil =>
    cases accepted
    exact counts
  | cons pair pairs ih =>
    obtain ⟨descriptor, artifact⟩ := pair
    obtain ⟨_, rest⟩ := requestedArtifacts_cons accepted
    have later : Counts Prod.snd (fun digest => asked digest +
          if descriptor.digest = digest then 1 else 0)
        (requested.insert descriptor.digest (artifact.bytes,
          countAt Prod.snd requested descriptor.digest + 1)) := by
      apply counts.insert
      · rw [if_pos rfl, counts.exact]
      · exact Nat.succ_pos _
      · intro other different
        rw [if_neg (Ne.symm different), Nat.add_zero]
    refine (ih rest later).congr fun digest => ?_
    rw [map_cons, mentions_cons]
    dsimp only
    omega

variable {pairs : List (ArtifactDescriptor × GraphArtifact)}

theorem bytes_requestedArtifacts {digest bytes references}
    (accepted : requestedArtifacts pairs requested = .ok final)
    (found : requested.get? digest = some (bytes, references)) :
    ∃ references, final.get? digest = some (bytes, references) := by
  induction pairs generalizing requested references with
  | nil =>
    cases accepted
    exact ⟨references, found⟩
  | cons pair pairs ih =>
    obtain ⟨descriptor, artifact⟩ := pair
    obtain ⟨same, rest⟩ := requestedArtifacts_cons accepted
    by_cases here : digest = descriptor.digest
    · subst here
      apply ih rest
      rw [Table.get?_insert_self, same bytes references found]
    · apply ih rest
      rw [Table.get?_insert_of_ne here]
      exact found

theorem named_requestedArtifacts {pair} (accepted : requestedArtifacts pairs requested = .ok final)
    (named : pair ∈ pairs) :
    ∃ references, final.get? pair.1.digest = some (pair.2.bytes, references) := by
  induction pairs generalizing requested with
  | nil => cases named
  | cons first pairs ih =>
    obtain ⟨_, rest⟩ := requestedArtifacts_cons accepted
    cases named with
    | head => exact bytes_requestedArtifacts rest (Table.get?_insert_self _ _ _)
    | tail _ later => exact ih rest later

end Request

section Store

variable {requested : Table ArtifactDigest (Bytes × Nat)}
  {stored table : Table ArtifactDigest ArtifactRecord}

variable {digest tested : ArtifactDigest}

theorem get?_storeArtifact_of_ne (different : tested ≠ digest) :
    (storeArtifact requested table digest).get? tested = table.get? tested := by
  unfold storeArtifact
  split
  · rfl
  · split <;> exact Table.get?_insert_of_ne different

variable {record : ArtifactRecord}

theorem bytes_of_storeArtifact
    (found : (storeArtifact requested table digest).get? tested = some record) :
    (∃ before, table.get? tested = some before ∧ record.bytes = before.bytes) ∨
      table.get? tested = none ∧ ∃ references, requested.get? tested =
          some (record.bytes, references) := by
  by_cases here : tested = digest
  · subst here
    unfold storeArtifact at found
    split at found
    · exact Or.inl ⟨record, found, rfl⟩
    next bytes references asked =>
    split at found
    · next before present =>
      rw [Table.get?_insert_self] at found
      cases found
      exact Or.inl ⟨before, present, rfl⟩
    · next absent =>
      rw [Table.get?_insert_self] at found
      cases found
      exact Or.inr ⟨absent, references, asked⟩
  · rw [get?_storeArtifact_of_ne here] at found
    exact Or.inl ⟨record, found, rfl⟩

variable {digests : List ArtifactDigest}

theorem bytes_of_storeArtifacts
    (found : (digests.foldl (storeArtifact requested) table).get? tested = some record) :
    (∃ before, table.get? tested = some before ∧ record.bytes = before.bytes) ∨
      table.get? tested = none ∧ ∃ references, requested.get? tested =
          some (record.bytes, references) := by
  induction digests generalizing table with
  | nil => exact Or.inl ⟨record, found, rfl⟩
  | cons digest digests ih =>
    rcases ih found with
      ⟨mid, present, same⟩ | ⟨absent, asked⟩
    · rw [same]
      exact bytes_of_storeArtifact present
    refine Or.inr ⟨?_, asked⟩
    by_cases here : tested = digest
    · subst here
      obtain ⟨references, named⟩ := asked
      unfold storeArtifact at absent
      rw [named] at absent
      dsimp only at absent
      split at absent
      · rw [Table.get?_insert_self] at absent
        cases absent
      · assumption
    · rw [get?_storeArtifact_of_ne here] at absent
      exact absent

theorem counts_storeArtifacts {demand asked} {digests : List ArtifactDigest}
    (distinct : digests.Nodup) (request : Counts Prod.snd asked requested)
    (counts : Counts ArtifactRecord.references demand table) :
    Counts ArtifactRecord.references (fun digest => demand digest +
        if digest ∈ digests then asked digest else 0)
      (digests.foldl (storeArtifact requested) table) := by
  induction digests generalizing table demand with
  | nil => exact counts.congr fun digest => by simp
  | cons digest digests ih =>
    obtain ⟨unvisited, remaining⟩ := nodup_cons.mp distinct
    have first : Counts ArtifactRecord.references (fun tested => demand tested +
          if tested = digest then asked tested else 0)
        (storeArtifact requested table digest) := by
      have others : ∀ tested, tested ≠ digest →
          (demand tested + if tested = digest then asked tested else 0) = demand tested := by
        intro tested different
        rw [if_neg different, Nat.add_zero]
      unfold storeArtifact
      cases named : requested.get? digest with
      | none =>
        apply counts.congr
        intro tested
        by_cases here : tested = digest
        · rw [here, if_pos rfl, request.demand_of_absent named, Nat.add_zero]
        · exact others tested here
      | some entry =>
        have wanted := request.demand_of_get? named
        have pos := request.positive digest _ named
        dsimp only at wanted pos ⊢
        split
        · next record found =>
          have before := counts.demand_of_get? found
          apply counts.insert _ _ others
          · rw [if_pos rfl, before, wanted]
          · exact Nat.add_pos_right _ pos
        next absent =>
        have before := counts.demand_of_absent absent
        apply counts.insert _ pos others
        rw [if_pos rfl, before, wanted, Nat.zero_add]
    refine (ih remaining first).congr fun tested => ?_
    by_cases here : tested = digest
    · subst here
      simp [unvisited]
    · simp [here]

theorem newArtifacts_cons {rest items bytes references asked counted}
    (named : requested.get? digest = some (asked, references))
    (counts : newArtifacts stored requested (digest :: rest) items bytes = .ok counted) :
    (∃ record, stored.get? digest = some record ∧ record.bytes = asked ∧
        newArtifacts stored requested rest items bytes = .ok counted) ∨
      stored.get? digest = none ∧ newArtifacts stored requested rest (items + 1)
          (bytes + asked.length) = .ok counted := by
  unfold newArtifacts at counts
  rw [named] at counts
  dsimp only at counts
  split at counts
  · next record found =>
    split at counts
    · cases counts
    · next same =>
      obtain ⟨_, _, counts⟩ := ok_of_bind counts
      exact Or.inl ⟨record, found, by simpa using same, counts⟩
  next absent =>
  obtain ⟨moreItems, checkedItems, counts⟩ := ok_of_bind counts
  obtain ⟨moreBytes, checkedBytes, counts⟩ := ok_of_bind counts
  unfold checkedAdd at checkedItems checkedBytes
  split at checkedItems <;> cases checkedItems
  split at checkedBytes <;> cases checkedBytes
  exact Or.inr ⟨absent, counts⟩

theorem matching_newArtifacts {items bytes counted}
    (named : ∀ digest ∈ digests, ∃ entry, requested.get? digest = some entry)
    (counts : newArtifacts stored requested digests items bytes = .ok counted)
    (visited : digest ∈ digests) {asked references} (found : stored.get? digest = some record)
    (request : requested.get? digest = some (asked, references)) :
    record.bytes = asked := by
  induction digests generalizing items bytes with
  | nil => cases visited
  | cons first digests ih =>
    obtain ⟨⟨firstAsked, firstReferences⟩, firstNamed⟩ := named first mem_cons_self
    have later := newArtifacts_cons firstNamed counts
    cases visited with
    | head =>
      rw [firstNamed] at request
      cases request
      rcases later with ⟨before, present, same, _⟩ | ⟨absent, _⟩
      · rw [found] at present
        cases present
        exact same
      · rw [found] at absent
        cases absent
    | tail _ member =>
      have remaining := fun digest member =>
        named digest (mem_cons_of_mem first member)
      rcases later with ⟨_, _, _, counts⟩ | ⟨_, counts⟩
      · exact ih remaining counts member
      · exact ih remaining counts member

/-- What `newArtifacts` counts is what storing the digests adds.  The table
is the store with the digests visited before already written. -/
theorem newArtifacts_eq_ok {items bytes newItems newBytes} (distinct : digests.Nodup)
    (named : ∀ digest ∈ digests, ∃ entry, requested.get? digest = some entry)
    (agree : ∀ digest ∈ digests, table.get? digest = stored.get? digest)
    (counts : newArtifacts stored requested digests items bytes = .ok (newItems, newBytes)) :
    (digests.foldl (storeArtifact requested) table).size + items = table.size + newItems ∧
      storedBytes (digests.foldl (storeArtifact requested) table) + bytes =
        storedBytes table + newBytes := by
  induction digests generalizing table items bytes with
  | nil =>
    cases counts
    exact ⟨rfl, rfl⟩
  | cons digest digests ih =>
    obtain ⟨unvisited, remaining⟩ := nodup_cons.mp distinct
    obtain ⟨⟨asked, references⟩, request⟩ := named digest mem_cons_self
    have here := agree digest mem_cons_self
    have later : ∀ tested ∈ digests,
        (storeArtifact requested table digest).get? tested = stored.get? tested := by
      intro tested member
      rw [get?_storeArtifact_of_ne (ne_of_mem_of_not_mem member unvisited)]
      exact agree tested (mem_cons_of_mem _ member)
    rw [foldl_cons]
    rcases newArtifacts_cons request counts with
      ⟨record, found, _, counts⟩ | ⟨absent, counts⟩
    · obtain ⟨size, total⟩ := ih remaining
        (fun _ member => named _ (mem_cons_of_mem _ member)) later
        counts
      rw [found] at here
      have write : storeArtifact requested table digest = table.insert digest
          { record with references := record.references + references } := by
        unfold storeArtifact
        simp only [here, request]
      rw [write] at size total ⊢
      rw [Table.size_insert_of_present (Table.mem_keys_of_get? here)] at size
      rw [storedBytes_rewrite here (by rfl)] at total
      exact ⟨size, total⟩
    · obtain ⟨size, total⟩ := ih remaining
        (fun _ member => named _ (mem_cons_of_mem _ member)) later
        counts
      rw [absent] at here
      have write : storeArtifact requested table digest =
          table.insert digest ⟨asked, references⟩ := by
        unfold storeArtifact
        simp only [here, request]
      have added : storedBytes (table.insert digest ⟨asked, references⟩) =
            asked.length + storedBytes table :=
        Table.total_insert_of_absent (fun record : ArtifactRecord => record.bytes.length) here
      rw [write] at size total ⊢
      rw [Table.size_insert_of_absent here] at size
      exact ⟨by omega, by omega⟩

end Store

section Retain

variable {config : CoordinatorConfig} {order : IterationOrder ArtifactDigest}
  {state next : CoordinatorState} {descriptors : List ArtifactDescriptor}
  {artifacts : List GraphArtifact} {demand : ArtifactDigest → Nat}

theorem retainArtifacts_eq_ok (retained : retainArtifacts config order state descriptors artifacts =
      .ok next) :
    ∃ requested newItems newBytes,
      requestedArtifacts (descriptors.zip artifacts) ∅ = .ok requested ∧
      newArtifacts state.artifacts requested (order.visit requested.keys) 0
        0 = .ok (newItems, newBytes) ∧
      state.artifacts.size + newItems ≤ config.artifactItemCapacity ∧
      state.artifactBytes + newBytes ≤ config.artifactByteCapacity ∧
      next = { state with
        artifactBytes := state.artifactBytes + newBytes
        artifacts := (order.visit requested.keys).foldl
          (storeArtifact requested) state.artifacts } := by
  obtain ⟨requested, accepted, retained⟩ := ok_of_bind retained
  obtain ⟨⟨newItems, newBytes⟩, counted, retained⟩ := ok_of_bind retained
  dsimp only at retained
  by_cases items : config.artifactItemCapacity < state.artifacts.size + newItems
  · rw [if_pos items] at retained
    cases retained
  rw [if_neg items] at retained
  obtain ⟨newTotal, checked, retained⟩ := ok_of_bind retained
  by_cases bytes : config.artifactByteCapacity < newTotal
  · rw [if_pos bytes] at retained
    cases retained
  rw [if_neg bytes] at retained
  unfold checkedAdd at checked
  split at checked
  · cases checked
    cases retained
    exact ⟨requested, newItems, newBytes, accepted, counted,
      Nat.le_of_not_lt items, Nat.le_of_not_lt bytes, rfl⟩
  · cases checked

theorem storeHolds_retainArtifacts (paired : descriptors.length = artifacts.length)
    (retained : retainArtifacts config order state descriptors artifacts =
      .ok next) (holds : StoreHolds config demand state) :
    StoreHolds config (fun digest => demand digest + mentions descriptors digest) next := by
  obtain ⟨requested, newItems, newBytes, accepted, counted, items, bytes,
    rfl⟩ := retainArtifacts_eq_ok retained
  have request := counts_requestedArtifacts accepted (Counts.empty Prod.snd)
  rw [map_fst_zip paired.le] at request
  have distinct := order.nodup_visit requested.nodup_keys
  have named : ∀ digest ∈ order.visit requested.keys,
      ∃ entry, requested.get? digest = some entry := by
    intro digest member
    rw [order.mem_visit] at member
    exact Table.mem_keys_iff.mp member
  obtain ⟨size, total⟩ := newArtifacts_eq_ok distinct named (fun _ _ => rfl) counted
  refine ⟨?_, ?_, ?_, bytes⟩
  · refine (counts_storeArtifacts distinct request holds.counts).congr ?_
    intro digest
    by_cases visited : digest ∈ order.visit requested.keys
    · rw [if_pos visited, Nat.zero_add]
    · rw [order.mem_visit] at visited
      have unasked := request.demand_of_absent (Table.get?_eq_none_iff.mpr visited)
      rw [if_neg (by rwa [order.mem_visit])]
      omega
  · have before := holds.bytes
    dsimp only
    omega
  · dsimp only
    omega

theorem bytes_of_retainArtifacts
    (retained : retainArtifacts config order state descriptors artifacts =
      .ok next) {digest record} (found : next.artifacts.get? digest = some record) :
    (∃ before, state.artifacts.get? digest = some before ∧ record.bytes = before.bytes) ∨
      state.artifacts.get? digest = none := by
  obtain ⟨requested, newItems, newBytes, _, _, _, _, rfl⟩ := retainArtifacts_eq_ok retained
  rcases bytes_of_storeArtifacts found with before | ⟨absent, _⟩
  · exact Or.inl before
  · exact Or.inr absent

theorem bytes_of_retained (retained : retainArtifacts config order state descriptors artifacts =
      .ok next) {pair} (named : pair ∈ descriptors.zip artifacts) {record}
    (found : next.artifacts.get? pair.1.digest = some record) :
    record.bytes = pair.2.bytes := by
  obtain ⟨requested, newItems, newBytes, accepted, counted, _, _, rfl⟩ :=
    retainArtifacts_eq_ok retained
  obtain ⟨references, request⟩ := named_requestedArtifacts accepted named
  rcases bytes_of_storeArtifacts found with
    ⟨before, present, same⟩ | ⟨_, _, asked⟩
  · rw [same]
    refine matching_newArtifacts ?_ counted ?_ present request
    · intro digest member
      rw [order.mem_visit] at member
      exact Table.mem_keys_iff.mp member
    · rw [order.mem_visit]
      exact Table.mem_keys_of_get? request
  · rw [request, Option.some.injEq, Prod.mk.injEq] at asked
    exact asked.1.symm

end Retain

/-! ## The store of a reachable coordinator -/

/-- The store counts what the live jobs demand and holds their bytes. -/
structure ArtifactStore (config : CoordinatorConfig) (state : CoordinatorState) : Prop where
  holds : StoreHolds config (demand state.jobs) state
  contents : ∀ jobId job, state.jobs.get? jobId = some job →
    ∀ pair ∈ job.descriptors.zip job.submission.subjects, ∀ record,
      state.artifacts.get? pair.1.digest = some record → record.bytes = pair.2.bytes

section Jobs

variable {jobs : Table JobId Job} {jobId : JobId} {job : Job}

theorem demand_erase (found : jobs.get? jobId = some job) (digest : ArtifactDigest) :
    demand jobs digest = demand (jobs.erase jobId) digest + mentions job.descriptors digest := by
  have split := Table.total_erase_of_present
    (fun job : Job => mentions job.descriptors digest) found
  unfold demand
  omega

theorem demand_insert (unknown : jobs.get? jobId = none) (digest : ArtifactDigest) :
    demand (jobs.insert jobId job) digest =
      demand jobs digest + mentions job.descriptors digest := by
  have added : demand (jobs.insert jobId job) digest =
      mentions job.descriptors digest + demand jobs digest :=
    Table.total_insert_of_absent (fun job : Job => mentions job.descriptors digest) unknown
  omega

theorem demand_rewrite {later} (found : jobs.get? jobId = some job)
    (same : later.descriptors = job.descriptors) (digest : ArtifactDigest) :
    demand (jobs.insert jobId later) digest = demand jobs digest := by
  have both : mentions job.descriptors digest + demand (jobs.insert jobId later) digest =
        mentions later.descriptors digest + demand jobs digest :=
    Table.total_insert_of_present (fun job : Job => mentions job.descriptors digest) found
  rw [same] at both
  exact Nat.add_left_cancel both

theorem demand_pos (found : jobs.get? jobId = some job) {descriptor}
    (named : descriptor ∈ job.descriptors) :
    0 < demand jobs descriptor.digest := by
  have mentioned : 0 < mentions job.descriptors descriptor.digest :=
    countP_pos_iff.mpr ⟨descriptor, named, by simp⟩
  exact mentioned.trans_le (Table.le_total_of_get?
    (fun job : Job => mentions job.descriptors descriptor.digest) found)

end Jobs

section Updates

variable {codec : Codec} {config : CoordinatorConfig}
  {state next : CoordinatorState} {jobId : JobId} {job : Job}

theorem artifactStore_of_same (store : ArtifactStore config state) (jobs : next.jobs = state.jobs)
    (stored : next.artifacts = state.artifacts)
    (bytes : next.artifactBytes = state.artifactBytes) :
    ArtifactStore config next := by
  obtain ⟨⟨counts, total, items, limit⟩, contents⟩ := store
  refine ⟨⟨?_, ?_, ?_, ?_⟩, ?_⟩
  · rw [jobs, stored]
    exact counts
  · rw [bytes, stored]
    exact total
  · rw [stored]
    exact items
  · rw [bytes]
    exact limit
  · rw [jobs, stored]
    exact contents

theorem artifactStore_replies (replies : List (Nat × CommittedMeasurement))
    (store : ArtifactStore config state) :
    ArtifactStore config { state with replies } :=
  artifactStore_of_same store rfl rfl rfl

theorem artifactStore_rewrite {later} (store : ArtifactStore config state)
    (found : state.jobs.get? jobId = some job) (jobs : next.jobs = state.jobs.insert jobId later)
    (descriptors : later.descriptors = job.descriptors)
    (submission : later.submission = job.submission) (stored : next.artifacts = state.artifacts)
    (bytes : next.artifactBytes = state.artifactBytes) :
    ArtifactStore config next := by
  obtain ⟨⟨counts, total, items, limit⟩, contents⟩ := store
  have rewritten : ArtifactStore config { state with jobs := next.jobs } := by
    refine ⟨⟨?_, total, items, limit⟩, ?_⟩
    · apply counts.congr
      intro digest
      rw [jobs]
      exact demand_rewrite found descriptors digest
    · intro tested other present pair named
      rw [jobs, Table.get?_insert] at present
      split at present
      · cases present
        rw [descriptors, submission] at named
        exact contents jobId job found pair named
      · exact contents tested other present pair named
  exact artifactStore_of_same rewritten rfl stored bytes

theorem artifactStore_release {mid} (store : ArtifactStore config state)
    (found : state.jobs.get? jobId = some job) (jobs : mid.jobs = state.jobs.erase jobId)
    (stored : mid.artifacts = state.artifacts)
    (bytes : mid.artifactBytes = state.artifactBytes) :
    ArtifactStore config (releaseArtifacts mid job.descriptors) := by
  have kept : (releaseArtifacts mid job.descriptors).jobs = state.jobs.erase jobId := by
    obtain ⟨artifacts, artifactBytes, released⟩ := releaseArtifacts_eq mid job.descriptors
    rw [released]
    exact jobs
  obtain ⟨⟨counts, total, items, limit⟩, contents⟩ := store
  constructor
  · rw [kept]
    apply storeHolds_releaseArtifacts
    rw [← stored] at counts total items
    rw [← bytes] at total limit
    exact ⟨counts.congr fun digest => (demand_erase found digest).symm, total, items, limit⟩
  · intro tested other present pair named record recorded
    rw [kept, Table.get?_erase] at present
    split at present
    · cases present
    obtain ⟨before, earlier, same⟩ := bytes_of_releaseArtifacts recorded
    rw [stored] at earlier
    exact same.trans (contents tested other present pair named before earlier)

theorem artifactStore_of_update {change} (update : Update state change next)
    (sound : Consistent state) (unadmitted : ∀ jobId, change ≠ .admitted jobId)
    (store : ArtifactStore config state) : ArtifactStore config next := by
  cases update with
  | enqueue unknown uncommitted queued unrecoverable requester => exact absurd rfl (unadmitted _)
  | offer waiting found connected admitted session fresh =>
    exact artifactStore_rewrite store found rfl rfl rfl rfl rfl
  | requeue found leased accepted =>
    obtain ⟨agent, connected, requeued⟩ := requeueActive_eq sound found leased _
    rw [requeued]
    exact artifactStore_rewrite store found rfl rfl rfl rfl rfl
  | renew found leased => exact artifactStore_rewrite store found rfl rfl rfl rfl rfl
  | rebind found recovered connected => exact artifactStore_rewrite store found rfl rfl rfl rfl rfl
  | connect absent idle => exact artifactStore_of_same store rfl rfl rfl
  | disconnect connected idle => exact artifactStore_of_same store rfl rfl rfl
  | credit connected => exact artifactStore_of_same store rfl rfl rfl
  | cancel found =>
    unfold cancelJob
    dsimp only
    rw [found]
    dsimp only
    split
    · exact artifactStore_release store found rfl rfl rfl
    unfold sendCancel
    split
    · exact artifactStore_release store found rfl rfl rfl
    · exact artifactStore_release store found rfl rfl rfl
  | settle found running connected recorded =>
    unfold settleJob
    dsimp only
    split
    · exact artifactStore_release store found rfl rfl rfl
    · exact artifactStore_replies _ (artifactStore_release store found rfl rfl rfl)
  | communicate recorded => exact artifactStore_of_same store rfl rfl rfl

theorem artifactStore_of_admitJob {env submission requestNonce} (store : ArtifactStore config state)
    (admitted : admitJob codec config env state submission
      requestNonce = .ok (next, jobId)) : ArtifactStore config next := by
  obtain ⟨_, unknown, _, _, _, retained, granted, rfl⟩ := admitJob_eq_ok admitted
  have paired : (admittedJob codec state submission
      requestNonce).descriptors.length = submission.subjects.length :=
    length_map _
  have holds := storeHolds_retainArtifacts paired granted store.holds
  obtain ⟨counts, total, items, limit⟩ := holds
  refine ⟨⟨?_, total, items, limit⟩, ?_⟩
  · exact counts.congr (demand_insert unknown)
  intro tested other present pair named record recorded
  rw [Table.get?_insert] at present
  split at present
  · cases present
    exact bytes_of_retained granted named recorded
  rcases bytes_of_retainArtifacts granted recorded with
    ⟨before, earlier, same⟩ | absent
  · exact same.trans (store.contents tested other present pair named before earlier)
  · have unused := store.holds.counts.demand_of_absent absent
    have used := demand_pos present (of_mem_zip named).1
    omega

theorem artifactStore_rule : PreservedByUpdates codec config (ArtifactStore config) where
  update _ _ _ sound store unadmitted update :=
    artifactStore_of_update update sound unadmitted store
  entry _ _ _ _ _ _ _ store _ admitted :=
    artifactStore_of_admitJob store admitted

theorem artifactStore_initial (receipts : ReceiptLedger) :
    ArtifactStore config (newState receipts) :=
  ⟨⟨Counts.empty _, rfl, Nat.zero_le _, Nat.zero_le _⟩, by rintro jobId job ⟨⟩⟩

end Updates

section Reachable

variable {codec : Codec} {config : CoordinatorConfig} {world : World}

section

variable {env : Surroundings} {state next : CoordinatorState} {submission : MeasureSubmission}
  {requestNonce : RequestNonce} {failure : ServiceError}

theorem state_of_refused (refused : enqueue codec config env state submission
      requestNonce = some (next, .error failure)) :
    next = state ∨ next = expireLeases env.jobOrder state env.expiryNow := by
  unfold enqueue at refused
  split at refused
  · cases refused
    exact Or.inl rfl
  dsimp only at refused
  split at refused
  · cases refused
    exact Or.inr rfl
  unfold andSchedule at refused
  rw [Option.map_eq_some_iff] at refused
  obtain ⟨final, _, impossible⟩ := refused
  cases impossible

theorem artifacts_of_refused (sound : Consistent state) (store : ArtifactStore config state)
    (refused : enqueue codec config env state submission
      requestNonce = some (next, .error failure)) :
    next.artifacts = state.artifacts ∧ next.artifactBytes = state.artifactBytes ∧
      ∀ digest, demand next.jobs digest = demand state.jobs digest := by
  rcases state_of_refused refused with rfl | rfl
  · exact ⟨rfl, rfl, fun _ => rfl⟩
  have expired := stores_expireLeases env.jobOrder state env.expiryNow
  simp only [stores, Prod.mk.injEq] at expired
  have later := (@artifactStore_rule codec config).expireLeases
    env.jobOrder env.expiryNow sound store
  refine ⟨expired.1, expired.2.1, fun digest => ?_⟩
  rw [← later.holds.counts.exact, ← store.holds.counts.exact, expired.1]

end

/-- In every reachable coordinator the record of a digest counts the subject
descriptors of live jobs that have it and exists while there are any, the
byte count and the two capacities are right, a refused submission changes
nothing, and the artifact of a live job is stored. -/
theorem artifacts_of_reachable (reachable : (coordinatorSystem codec config).Reachable world) :
    (∀ digest,
      countAt ArtifactRecord.references world.state.artifacts digest =
        demand world.state.jobs digest ∧
      ((∃ record, world.state.artifacts.get? digest = some record) ↔
        0 < demand world.state.jobs digest)) ∧
    world.state.artifactBytes = storedBytes world.state.artifacts ∧
    world.state.artifacts.size ≤ config.artifactItemCapacity ∧
    world.state.artifactBytes ≤ config.artifactByteCapacity ∧
    (∀ env submission requestNonce next failure,
      enqueue codec config env world.state submission
          requestNonce = some (next, .error failure) →
        next.artifacts = world.state.artifacts ∧
        next.artifactBytes = world.state.artifactBytes ∧
        ∀ digest, demand next.jobs digest = demand world.state.jobs digest) ∧
    ∀ jobId job, world.state.jobs.get? jobId = some job →
      ∀ pair ∈ job.descriptors.zip job.submission.subjects,
        ∃ record, world.state.artifacts.get? pair.1.digest = some record ∧
          record.bytes = pair.2.bytes := by
  have store : ArtifactStore config world.state :=
    (@artifactStore_rule codec config).reachable artifactStore_initial reachable
  have sound := (history_of_reachable reachable).1.consistent
  have refusals := fun env submission requestNonce next failure =>
    @artifacts_of_refused codec config env world.state next
      submission requestNonce failure sound store
  obtain ⟨⟨counts, total, items, limit⟩, contents⟩ := store
  refine ⟨fun digest => ⟨counts.exact digest, counts.exists_iff digest⟩,
    total, items, limit, refusals, ?_⟩
  intro jobId job found pair named
  obtain ⟨record, stored⟩ := (counts.exists_iff pair.1.digest).mpr
    (demand_pos found (of_mem_zip named).1)
  exact ⟨record, stored, contents jobId job found pair named record stored⟩

end Reachable

theorem artifacts_after_accepted : (Sample.after Sample.accepted).state.artifactBytes =
      storedBytes (Sample.after Sample.accepted).state.artifacts :=
  (artifacts_of_reachable (Sample.reachable_after (by decide +kernel))).2.1

end GraphZero.Measure
