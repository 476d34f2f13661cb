import GraphZero.Measure.JobTables

/-!
# Artifact transfers

The coordinator cuts an artifact into chunks from an offset on; the agent puts
the chunks of a stream together.  Each side keeps its own count of the bytes,
and the agent believes nothing that the declared size and digest do not
confirm.
-/

namespace GraphZero.Measure

open Foundation Wire List

/-- `(start..stop).step_by(step)` -/
def stepBy (start stop step : Nat) : List Nat :=
  List.range' start ((stop - start + (step - 1)) / step) step

/-- The chunk at `offset`.  A sum that saturates is cut to the length too. -/
def chunkAt (digest : ArtifactDigest) (bytes : Bytes) (chunkBytes offset : Nat) : ArtifactChunk :=
  let stop := min (offset + chunkBytes) bytes.length
  { artifactDigest := digest.toVec
    totalSize := bytes.length
    offset := offset
    data := (bytes.drop offset).take (stop - offset) }

def artifactChunks (digest : ArtifactDigest) (bytes : Bytes)
    (chunkBytes offset : Nat) : List ArtifactChunk :=
  (stepBy offset bytes.length chunkBytes).map (chunkAt digest bytes chunkBytes)

def validateActiveLease (jobId : JobId) (job : Job) (deviceId : DeviceId)
    (agent : AgentSession) (leaseId : LeaseId) : Except Status Unit :=
  match job.state.lease with
  | none => .error ⟨.failedPrecondition, "job is not leased"⟩
  | some active =>
    if active.deviceId ≠ deviceId ∨ active.currentSessionId ≠ agent.sessionId ∨
        active.leaseId ≠ leaseId ∨
        agent.active.get? jobId ≠ some leaseId then
      .error ⟨.permissionDenied, "lease identity mismatch"⟩
    else
      .ok ()

def leasedArtifact (state : CoordinatorState) (peerFingerprint : Option CertificateFingerprint)
    (sessionId : SessionId) (jobId : JobId) (leaseId : LeaseId)
    (digest : ArtifactDigest) : Except Status ArtifactRecord := do
  let (deviceId, agent) ← authenticateSession state sessionId peerFingerprint
  match state.jobs.get? jobId with
  | none => .error ⟨.notFound, "unknown job"⟩
  | some job =>
    validateActiveLease jobId job deviceId agent leaseId
    if job.descriptors.any fun descriptor => descriptor.digest = digest then
      match state.artifacts.get? digest with
      | none => .error ⟨.dataLoss, "leased artifact is missing"⟩
      | some record => .ok record
    else
      .error ⟨.permissionDenied, "artifact is not authorized for this lease"⟩

def fetchArtifact (config : CoordinatorConfig) (state : CoordinatorState)
    (peerFingerprint : Option CertificateFingerprint)
    (request : FetchArtifactRequest) : Except Status (List ArtifactChunk) := do
  let sessionId : SessionId ← (Id.fromSlice request.sessionId).mapError statusForError
  let jobId : JobId ← (Id.fromSlice request.jobId).mapError statusForError
  let leaseId : LeaseId ← (Id.fromSlice request.leaseId).mapError statusForError
  let digest : ArtifactDigest ← (Id.fromSlice request.artifactDigest).mapError statusForError
  let record ← leasedArtifact state peerFingerprint sessionId jobId leaseId digest
  if record.bytes.length < request.offset then
    throw ⟨.invalidArgument, "artifact offset exceeds size"⟩
  return artifactChunks digest record.bytes config.artifactChunkBytes request.offset

structure FetchedSubject where
  logicalIndex : Nat
  graphHash : Bytes
  formatKind : GraphArtifactFormatKind
  adapterFormatId : Nat
  bytes : Bytes

/-- The bytes after the chunks of a stream, which fails or ends. -/
def collectChunks (reference : GraphArtifactRef) (digest : ArtifactDigest) :
    Bytes → List (ServiceResult ArtifactChunk) → ServiceResult Bytes
  | bytes, [] => .ok bytes
  | bytes, message :: rest => do
      let chunk ← message
      let chunkDigest : ArtifactDigest ← Id.fromSlice chunk.artifactDigest
      if chunkDigest ≠ digest ∨ chunk.totalSize ≠ reference.artifactSize ∨
          chunk.offset ≠ bytes.length then
        throw (.protocol "artifact chunk identity mismatch")
      let nextLen ← checkedAdd bytes.length chunk.data.length "artifact length overflow"
      if reference.artifactSize < nextLen then
        throw (.protocol "artifact stream exceeds declared size")
      collectChunks reference digest (bytes ++ chunk.data) rest

def artifactFormatOf (kind : GraphArtifactFormatKind)
    (adapterFormatId : Nat) : ServiceResult GraphArtifactFormat :=
  match kind with
  | .text => .ok .text
  | .json => .ok .json
  | .dot => .ok .dot
  | .binary => .ok .binary
  | .adapterSpecific => .ok (.adapterSpecific adapterFormatId)
  | .unspecified => .error (.protocol "artifact format is unspecified")

/-- What the agent makes of the answer to its request for a subject: a refusal,
or the messages of the stream. -/
def fetchSubject (codec : Codec) (maxArtifactBytes : Nat) (subject : GraphSubject)
    (answer : ServiceResult (List (ServiceResult ArtifactChunk))) :
    ServiceResult FetchedSubject := do
  match subject.artifact with
  | none => .error (.protocol "artifact reference is missing")
  | some reference =>
    let digest : ArtifactDigest ← Id.fromSlice reference.artifactDigest
    if maxArtifactBytes < reference.artifactSize then
      throw (.capacity "artifact exceeds negotiated limit")
    match GraphArtifactFormatKind.ofCode reference.formatKind with
    | none => .error (.protocol "unknown artifact format")
    | some formatKind =>
      let messages ← answer
      let bytes ← collectChunks reference digest [] messages
      if bytes.length ≠ reference.artifactSize then
        throw (.protocol "artifact stream ended early")
      let format ← artifactFormatOf formatKind reference.adapterFormatId
      if wide : subject.graphHash.length = 32 then
        let artifact : GraphArtifact := ⟨subject.graphHash, format, bytes, wide⟩
        if (artifactDescriptor codec artifact).digest ≠ digest then
          throw (.protocol "artifact digest verification failed")
        return {
          logicalIndex := subject.logicalIndex
          graphHash := subject.graphHash
          formatKind := formatKind
          adapterFormatId := reference.adapterFormatId
          bytes := bytes }
      else
        .error (.protocol "subject graph hash has the wrong width")

/-- Each chunk starts where the one before it ends. -/
def ContiguousFrom : Nat → List ArtifactChunk → Prop
  | _, [] => True
  | position, chunk :: rest =>
    chunk.offset = position ∧ ContiguousFrom (position + chunk.data.length) rest

def joined (chunks : List ArtifactChunk) : Bytes :=
  chunks.flatMap ArtifactChunk.data

section Producing

variable {digest : ArtifactDigest} {bytes : Bytes} {chunkBytes offset count : Nat}

theorem length_data_chunkAt : (chunkAt digest bytes chunkBytes offset).data.length =
      min (offset + chunkBytes) bytes.length - offset := by
  unfold chunkAt
  rw [length_take, length_drop]
  omega

theorem data_chunkAt : (chunkAt digest bytes chunkBytes offset).data =
      (bytes.drop offset).take chunkBytes := by
  unfold chunkAt
  rw [take_eq_take_iff, length_drop]
  omega

theorem chunks_from (before : ∀ k < count, offset + k * chunkBytes < bytes.length)
    (reached : bytes.length ≤ offset + count * chunkBytes) :
    let chunks := (List.range' offset count chunkBytes).map (chunkAt digest bytes chunkBytes)
    ContiguousFrom offset chunks ∧ joined chunks = bytes.drop offset := by
  induction count generalizing offset with
  | zero =>
    rw [Nat.zero_mul, Nat.add_zero] at reached
    exact ⟨trivial, (drop_eq_nil_of_le reached).symm⟩
  | succ count ih =>
    have here := before 0 (Nat.succ_pos count)
    have shift : ∀ k, offset + chunkBytes + k * chunkBytes = offset + (k + 1) * chunkBytes := by
      intro k
      rw [Nat.succ_mul]
      omega
    obtain ⟨contiguous, rest⟩ := @ih (offset + chunkBytes) (fun k inside => by
        rw [shift]
        exact before (k + 1) (by omega))
      (by rwa [shift])
    have length : (chunkAt digest bytes chunkBytes offset).data.length =
        min (offset + chunkBytes) bytes.length - offset :=
      length_data_chunkAt
    rw [range'_succ, map_cons]
    refine ⟨⟨rfl, ?_⟩, ?_⟩
    · -- Only the last chunk is shorter, and nothing follows it.
      cases count with
      | zero => trivial
      | succ count =>
        have later := before 1 (by omega)
        have full : (chunkAt digest bytes chunkBytes offset).data.length = chunkBytes := by omega
        rw [full]
        exact contiguous
    · have joins : joined (chunkAt digest bytes chunkBytes offset ::
          (List.range' (offset + chunkBytes) count chunkBytes).map
            (chunkAt digest bytes chunkBytes)) =
          (bytes.drop offset).take chunkBytes ++ bytes.drop (offset + chunkBytes) := by
        rw [← rest, ← data_chunkAt]
        rfl
      rw [joins, ← drop_drop, take_append_drop]

theorem artifactChunks_spec (pos : 0 < chunkBytes) (inside : offset ≤ bytes.length) :
    let chunks := artifactChunks digest bytes chunkBytes offset
    ContiguousFrom offset chunks ∧ (∀ chunk ∈ chunks, chunk.data.length ≤ chunkBytes) ∧
      joined chunks = bytes.drop offset := by
  have count := Nat.div_add_mod (bytes.length - offset + (chunkBytes - 1)) chunkBytes
  have remainder := Nat.mod_lt (bytes.length - offset + (chunkBytes - 1)) pos
  unfold artifactChunks stepBy
  generalize (bytes.length - offset + (chunkBytes - 1)) / chunkBytes = full at count ⊢
  obtain ⟨contiguous, all⟩ := @chunks_from digest bytes chunkBytes offset full (by
      intro k below
      have most : chunkBytes * (k + 1) ≤ chunkBytes * full := Nat.mul_le_mul_left _ below
      rw [Nat.mul_succ, Nat.mul_comm chunkBytes k] at most
      omega)
    (by
      rw [Nat.mul_comm]
      omega)
  refine ⟨contiguous, ?_, all⟩
  intro chunk member
  obtain ⟨start, _, rfl⟩ := mem_map.mp member
  rw [length_data_chunkAt]
  omega

end Producing

/-! ## What the agent accepts -/

section Collecting

variable {reference : GraphArtifactRef} {digest : ArtifactDigest}
  {messages : List (ServiceResult ArtifactChunk)}

theorem collectChunks_eq_ok {start bytes}
    (collected : collectChunks reference digest start messages = .ok bytes) :
    ∃ chunks, messages = chunks.map Except.ok ∧
      ContiguousFrom start.length chunks ∧ bytes = start ++ joined chunks := by
  induction messages generalizing start with
  | nil =>
    cases collected
    exact ⟨[], rfl, trivial, (append_nil _).symm⟩
  | cons message rest ih =>
    obtain ⟨chunk, received, collected⟩ := ok_of_bind collected
    obtain ⟨_, _, collected⟩ := ok_of_bind collected
    obtain ⟨identity, collected⟩ := ok_of_guard collected
    obtain ⟨_, _, collected⟩ := ok_of_bind collected
    obtain ⟨_, collected⟩ := ok_of_guard collected
    obtain ⟨chunks, others, contiguous, joins⟩ := ih collected
    rw [not_or, not_or, not_not, not_not, not_not] at identity
    rw [length_append] at contiguous
    refine ⟨chunk :: chunks, ?_, ⟨identity.2.2, contiguous⟩, ?_⟩
    · rw [received, others, map_cons]
    · rw [joins, append_assoc]
      rfl

end Collecting

/-- The chunks fill the declared size, and under the declared format they hash
to the declared digest. -/
structure Confirmed (codec : Codec) (subject : GraphSubject)
    (reference : GraphArtifactRef) (artifact : GraphArtifact)
    (chunks : List ArtifactChunk) : Prop where
  declared : subject.artifact = some reference
  graph : artifact.graphHash = subject.graphHash
  format : ∃ kind,
    GraphArtifactFormatKind.ofCode reference.formatKind = some kind ∧
      artifactFormatOf kind reference.adapterFormatId = .ok artifact.format
  contiguous : ContiguousFrom 0 chunks
  bytes : artifact.bytes = joined chunks
  size : (joined chunks).length = reference.artifactSize
  digest : (artifactDescriptor codec artifact).digest.toVec = reference.artifactDigest

theorem confirmed_of_fetchSubject {codec maxArtifactBytes subject answer fetched}
    (done : fetchSubject codec maxArtifactBytes subject answer = .ok fetched) :
    ∃ chunks reference artifact,
      answer = .ok (chunks.map Except.ok) ∧ Confirmed codec subject reference artifact chunks ∧
        fetched.bytes = joined chunks := by
  unfold fetchSubject at done
  cases declared : subject.artifact with
  | none =>
    rw [declared] at done
    cases done
  | some reference =>
    rw [declared] at done
    obtain ⟨digest, named, done⟩ := ok_of_bind done
    obtain ⟨_, done⟩ := ok_of_guard done
    cases known : GraphArtifactFormatKind.ofCode reference.formatKind with
    | none =>
      rw [known] at done
      cases done
    | some kind =>
      rw [known] at done
      obtain ⟨messages, answered, done⟩ := ok_of_bind done
      obtain ⟨bytes, collected, done⟩ := ok_of_bind done
      obtain ⟨full, done⟩ := ok_of_guard done
      obtain ⟨format, formed, done⟩ := ok_of_bind done
      split at done
      · next wide =>
        obtain ⟨verified, done⟩ := ok_of_guard done
        cases done
        obtain ⟨chunks, received, contiguous, joins⟩ := collectChunks_eq_ok collected
        rw [nil_append] at joins
        refine ⟨chunks, reference, ⟨subject.graphHash, format, bytes, wide⟩, ?_, ?_, joins⟩
        · rw [answered, received]
        exact
          { declared := declared
            graph := rfl
            format := ⟨kind, known, formed⟩
            contiguous := contiguous
            bytes := joins
            size := by rw [← joins]; exact not_not.mp full
            digest := by
              rw [not_not.mp verified]
              exact (Id.fromSlice_eq_ok_iff.mp named).symm }
      · cases done

theorem stored_of_leasedArtifact {state peerFingerprint sessionId jobId leaseId digest record}
    (leased : leasedArtifact state peerFingerprint sessionId jobId leaseId digest = .ok record) :
    state.artifacts.get? digest = some record := by
  obtain ⟨⟨deviceId, agent⟩, _, leased⟩ := ok_of_bind leased
  cases known : state.jobs.get? jobId with
  | none =>
    rw [known] at leased
    cases leased
  | some job =>
    rw [known] at leased
    obtain ⟨_, _, leased⟩ := ok_of_bind leased
    split at leased
    · cases present : state.artifacts.get? digest with
      | none =>
        rw [present] at leased
        cases leased
      | some stored =>
        rw [present] at leased
        cases leased
        rfl
    · cases leased

theorem fetchArtifact_eq_ok {config state peerFingerprint request chunks}
    (done : fetchArtifact config state peerFingerprint request = .ok chunks) :
    ∃ digest record, request.artifactDigest = digest.toVec ∧
      state.artifacts.get? digest = some record ∧
      request.offset ≤ record.bytes.length ∧
      chunks = artifactChunks digest record.bytes config.artifactChunkBytes request.offset := by
  obtain ⟨_, _, done⟩ := ok_of_bind done
  obtain ⟨_, _, done⟩ := ok_of_bind done
  obtain ⟨_, _, done⟩ := ok_of_bind done
  obtain ⟨digest, named, done⟩ := ok_of_bind done
  obtain ⟨record, leased, done⟩ := ok_of_bind done
  obtain ⟨inside, done⟩ := ok_of_guard done
  cases done
  refine ⟨digest, record, Id.fromSlice_eq_ok_iff.mp (ok_of_mapError named),
    stored_of_leasedArtifact leased, Nat.le_of_not_lt inside, rfl⟩

/-- What the coordinator sends of an artifact covers it from the offset on, in
chunks of the chunk size at most; and the agent takes no stream but one that
covers its subject from the beginning, with the declared size and digest, and
then takes exactly the bytes sent. -/
theorem artifactTransfer : (∀ (digest : ArtifactDigest) (bytes : Bytes) (chunkBytes offset : Nat),
      0 < chunkBytes → offset ≤ bytes.length →
        let chunks := artifactChunks digest bytes chunkBytes offset
        ContiguousFrom offset chunks ∧ (∀ chunk ∈ chunks, chunk.data.length ≤ chunkBytes) ∧
          joined chunks = bytes.drop offset) ∧
    (∀ config state peerFingerprint request chunks,
      fetchArtifact config state peerFingerprint request = .ok chunks →
        ∃ digest record, request.artifactDigest = digest.toVec ∧
          state.artifacts.get? digest = some record ∧
          request.offset ≤ record.bytes.length ∧
          chunks = artifactChunks digest record.bytes config.artifactChunkBytes request.offset) ∧
    ∀ codec maxArtifactBytes subject answer fetched,
      fetchSubject codec maxArtifactBytes subject answer = .ok fetched →
        ∃ chunks reference artifact,
          answer = .ok (chunks.map Except.ok) ∧ Confirmed codec subject reference artifact chunks ∧
            fetched.bytes = joined chunks :=
  ⟨fun _ _ _ _ pos inside => artifactChunks_spec pos inside,
    fun _ _ _ _ _ done => fetchArtifact_eq_ok done,
    fun _ _ _ _ _ done => confirmed_of_fetchSubject done⟩

namespace Sample

def fetchRequest : FetchArtifactRequest :=
  ⟨session.toVec, job.toVec, lease.toVec, artifactBytes, 1⟩

def subject : GraphSubject :=
  ⟨0, List.replicate 32 7, some ⟨artifactBytes, 3, 4, 0⟩⟩

/-- The artifact of the job in chunks of two bytes. -/
def answer : ServiceResult (List (ServiceResult ArtifactChunk)) :=
  .ok ((artifactChunks artifactDigest [1, 2, 3] 2 0).map Except.ok)

end Sample

theorem artifactTransfer_sample :
    joined (artifactChunks Sample.artifactDigest [1, 2, 3] 2 1) = [2, 3] ∧ (∃ chunks digest record,
        fetchArtifact Sample.config (Sample.after Sample.accepted).state none
            Sample.fetchRequest = .ok chunks ∧
          (Sample.after Sample.accepted).state.artifacts.get? digest = some record ∧
          Sample.fetchRequest.offset ≤ record.bytes.length) ∧
      ∃ fetched chunks reference artifact,
        fetchSubject Sample.codec 8 Sample.subject Sample.answer = .ok fetched ∧
          Confirmed Sample.codec Sample.subject reference artifact chunks ∧
          fetched.bytes = joined chunks := by
  obtain ⟨produced, sent, accepted⟩ := artifactTransfer
  have answered : (fetchArtifact Sample.config (Sample.after Sample.accepted).state none
      Sample.fetchRequest).toOption.isSome = true := by decide +kernel
  have fetches : (fetchSubject Sample.codec 8 Sample.subject
      Sample.answer).toOption.isSome = true := by decide +kernel
  obtain ⟨chunks, chunksEq⟩ := Option.isSome_iff_exists.mp answered
  obtain ⟨fetched, fetchedEq⟩ := Option.isSome_iff_exists.mp fetches
  refine ⟨(produced Sample.artifactDigest [1, 2, 3] 2 1 (by decide)
    (by decide)).2.2, ?_, ?_⟩
  · have done := ok_of_toOption chunksEq
    obtain ⟨digest, record, _, stored, inside, _⟩ := sent _ _ _ _ _ done
    exact ⟨chunks, digest, record, done, stored, inside⟩
  · have done := ok_of_toOption fetchedEq
    obtain ⟨received, reference, artifact, _, confirmed, bytes⟩ := accepted _ _ _ _ _ done
    exact ⟨fetched, received, reference, artifact, done, confirmed, bytes⟩

end GraphZero.Measure
