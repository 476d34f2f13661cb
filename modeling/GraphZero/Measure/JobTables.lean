import GraphZero.Measure.CommitStep

/-!
# The job table of every reachable coordinator

The inv of `LeaseConsistency` in the words of the tables, for every
reachable world, and with it the fate of an admitted job: it stays the same
request in the table until it is cancelled or its report is committed.
-/

namespace GraphZero.Measure

open Foundation Wire

structure JobTables (state : CoordinatorState) : Prop where
  /-- A queued job is in the queue exactly once, any other job is not. -/
  queue_count : ∀ jobId job, state.jobs.get? jobId = some job →
    state.queue.count jobId = if job.state = .queued then 1 else 0
  queue_jobs : ∀ jobId ∈ state.queue, jobId ∈ state.jobs.keys
  recovery : ∀ jobId job active, state.jobs.get? jobId = some job →
    job.recovery = some active → job.state = .queued
  /-- A job is offered or runs under a lease exactly when the agent holds it in
  the lease's session. -/
  leased : ∀ jobId deviceId sessionId leaseId,
    (∃ job active, state.jobs.get? jobId = some job ∧
      (job.state = .offered active ∨ job.state = .running active) ∧
      active.deviceId = deviceId ∧ active.currentSessionId = sessionId ∧
      active.leaseId = leaseId) ↔
    ∃ agent, state.agents.get? deviceId = some agent ∧
      agent.sessionId = sessionId ∧ agent.active.get? jobId = some leaseId

theorem jobTables_of_consistent {state} (sound : Consistent state) : JobTables state := by
  constructor
  · intro jobId job found
    by_cases queued : job.state = .queued
    · have waiting : jobId ∈ state.queue :=
        (sound.mem_queue_iff jobId).mpr ⟨job, found, queued⟩
      rw [if_pos queued]
      exact List.count_eq_one_of_mem sound.queue_nodup waiting
    · have absent : jobId ∉ state.queue := by
        intro waiting
        exact queued (sound.get?_of_mem_queue waiting found)
      rw [if_neg queued]
      exact List.count_eq_zero_of_not_mem absent
  · intro jobId waiting
    obtain ⟨job, found, _⟩ := (sound.mem_queue_iff jobId).mp waiting
    exact Table.mem_keys_of_get? found
  · exact sound.queued_of_recovery
  · intro jobId deviceId sessionId leaseId
    have views := sound.leased_iff jobId deviceId sessionId leaseId
    simp only [leaseOf, Option.bind_eq_some_iff, activeOn, Option.map_eq_some_iff, Prod.mk.injEq,
      JobState.lease_eq_some_iff] at views
    constructor
    · rintro ⟨job, active, found, lease, identity⟩
      obtain ⟨agent, connected, held, entry, session, rfl⟩ :=
        views.mp ⟨active, ⟨job, found, lease⟩, identity⟩
      exact ⟨agent, connected, session, entry⟩
    · rintro ⟨agent, connected, session, entry⟩
      obtain ⟨active, ⟨job, found, lease⟩, identity⟩ :=
        views.mpr ⟨agent, connected, leaseId, entry, session, rfl⟩
      exact ⟨job, active, found, lease, identity⟩

theorem keeps_of_run {codec config world later operations} (inv : WorldInvariant world)
    (run : (coordinatorSystem codec config).Run world operations later) (jobId : JobId) :
    Keeps jobId world.state later.state ∨ .cancel jobId ∈ operations ∨
      ∃ record ∈ later.committed.drop world.committed.length, record.jobId = jobId := by
  induction run with
  | refl => exact Or.inl (.refl jobId _)
  | snoc before step ih =>
    have mid := worldInvariant_of_reaches inv ⟨_, before⟩
    obtain ⟨earlier, committed⟩ := committed_of_run inv before
    obtain ⟨new, appended⟩ := committed_of_run mid (.single step)
    rcases ih with keeps | cancelled | ⟨record, member, same⟩
    · rcases keeps_of_step mid step jobId with kept | cancel | ⟨record, commit, same⟩
      · exact Or.inl (keeps.trans kept)
      · exact Or.inr (Or.inl (by simp [cancel]))
      · refine Or.inr (Or.inr ⟨record, ?_, same⟩)
        rw [commit, committed]
        simp
    · exact Or.inr (Or.inl (List.mem_append_left _ cancelled))
    · refine Or.inr (Or.inr ⟨record, ?_, same⟩)
      rw [committed, List.drop_left] at member
      rw [appended, committed, List.append_assoc, List.drop_left]
      exact List.mem_append_left _ member

/-- In every reachable world the tables agree, and an admitted job stays in
the job table until it is cancelled or committed. -/
theorem jobTables_of_reachable {codec : Codec} {config : CoordinatorConfig} {world : World}
    (reachable : (coordinatorSystem codec config).Reachable world) :
    JobTables world.state ∧ ∀ operations later,
        (coordinatorSystem codec config).Run world operations later →
        ∀ jobId job, world.state.jobs.get? jobId = some job →
          (∃ kept, later.state.jobs.get? jobId = some kept ∧ SameRequest job kept) ∨
          .cancel jobId ∈ operations ∨
          ∃ record ∈ later.committed.drop world.committed.length,
            record.jobId = jobId := by
  have inv := worldInvariant_of_reachable reachable
  refine ⟨jobTables_of_consistent inv.consistent, ?_⟩
  intro operations later run jobId job found
  rcases keeps_of_run inv run jobId with keeps | ended
  · exact Or.inl (keeps job found)
  · exact Or.inr ended

/-! ## A device that measures one job -/

namespace Sample

/-- A length-delimited field below 16 of fewer than 128 bytes. -/
def field (number : Nat) (bytes : Bytes) : Bytes :=
  if bytes = [] then []
  else UInt8.ofNat (8 * number + 2) :: UInt8.ofNat bytes.length :: bytes

def ascii (text : String) : Bytes :=
  text.toList.map fun letter => UInt8.ofNat letter.toNat

/-- The generated encoder on profiles of short ASCII fields. -/
def encodeProfile (profile : DeviceProfile) : Bytes :=
  field 1 (ascii profile.platformFamily) ++
  field 2 (ascii profile.boardModel) ++ field 3 (ascii profile.soc) ++
  field 4 (ascii profile.gpuArchitecture) ++
  [0x28, UInt8.ofNat profile.usableMemoryBytes] ++
  field 6 profile.operatingSystemImageDigest ++
  field 7 (ascii profile.platformRelease) ++
  field 8 (ascii profile.cudaVersion) ++
  field 9 (ascii profile.gpuDriverVersion) ++
  field 10 (ascii profile.compilerVersion) ++
  field 11 (ascii profile.compilerRuntimeVersion) ++
  field 12 profile.agentImageDigest ++
  field 13 (ascii profile.powerProfile) ++
  field 14 (ascii profile.clockPolicy) ++
  field 15 (ascii profile.coolingPolicy) ++
  [0x80, 0x01, UInt8.ofNat profile.measurementProtocolVersion]

def encodeEngine (engine : EngineIdentity) : Bytes :=
  field 1 engine.engineId ++ field 2 engine.engineVersion ++
  field 3 engine.actionSetHash

/-- The generated encoder on reports of one attempt that timed out with an
error code below `2 ^ 14`. -/
def encodeReport (report : MeasureReport) : Bytes :=
  field 1 report.originSessionId ++ field 2 report.deviceId ++
  field 3 report.deviceProfileHash ++ field 4 report.jobId ++
  field 5 report.measurementKey ++ field 6 report.requestNonce ++
  field 7 report.leaseId ++
  field 8 (report.engine.elim [] encodeEngine) ++
  field 9 report.measureConfigHash ++ [0x50, 1, 0x58, 7] ++
  report.subjects.flatMap (fun subject =>
    field 12 (field 2 subject.graphHash)) ++
  field 15 (report.failure.elim [] fun failure =>
    if failure.engineErrorCode < 128 then
      [8, UInt8.ofNat failure.engineErrorCode]
    else
      [8, UInt8.ofNat (128 + failure.engineErrorCode % 128),
        UInt8.ofNat (failure.engineErrorCode / 128)])

def artifactBytes : Bytes :=
  [142, 149, 51, 222, 232, 221, 77, 21, 25, 21, 145, 102, 35, 246, 133,
    244, 193, 43, 118, 17, 143, 97, 13, 73, 79, 174, 226, 78, 220, 248,
    84, 36]

def targetBytes : Bytes :=
  [120, 231, 73, 222, 47, 108, 119, 167, 63, 192, 241, 30, 41, 36, 3,
    249, 206, 243, 135, 122, 220, 28, 44, 96, 62, 249, 21, 56, 180, 39,
    237, 222]

def otherBytes : Bytes :=
  [229, 211, 157, 208, 12, 245, 107, 13, 94, 55, 1, 198, 182, 17, 38,
    202, 192, 233, 77, 223, 67, 228, 54, 216, 93, 253, 232, 200, 45, 219,
    14, 196]

def keyBytes : Bytes :=
  [244, 161, 219, 37, 3, 245, 137, 214, 133, 191, 250, 71, 28, 33, 114,
    183, 74, 60, 113, 18, 255, 85, 174, 92, 94, 176, 72, 69, 154, 47, 42,
    225]

def jobBytes : Bytes :=
  [255, 153, 236, 36, 38, 246, 159, 90, 234, 248, 140, 246, 99, 142,
    190, 63, 165, 229, 255, 47, 240, 58, 204, 116, 30, 106, 246, 179, 13,
    195, 65, 191]

/-- The id of the same job under the nonce of sixes. -/
def secondJobBytes : Bytes :=
  [207, 149, 131, 239, 123, 79, 205, 24, 254, 60, 36, 213, 64, 155, 224,
    157, 255, 199, 105, 229, 26, 79, 20, 209, 154, 181, 221, 214, 183, 55, 29,
    129]

/-- BLAKE3 on the inputs of the runs below, which differ in length, but for
the two job ids. -/
def hash (bytes : Bytes) : Digest :=
  match bytes.length with
  | 32 => ⟨artifactBytes, rfl⟩
  | 137 => ⟨targetBytes, rfl⟩
  | 139 => ⟨otherBytes, rfl⟩
  | 238 => ⟨keyBytes, rfl⟩
  | 66 =>
    if bytes.getLast? = some 6 then ⟨secondJobBytes, rfl⟩
    else ⟨jobBytes, rfl⟩
  | 324 =>
    ⟨[138, 87, 23, 202, 209, 93, 158, 134, 56, 73, 175, 225, 181, 220, 244,
      222, 105, 72, 216, 44, 242, 66, 209, 22, 54, 190, 203, 220, 114, 144,
      15, 216], rfl⟩
  | _ =>
    ⟨[75, 90, 231, 230, 202, 124, 73, 232, 46, 14, 163, 37, 237, 214, 214,
      118, 213, 59, 231, 34, 41, 207, 85, 23, 55, 63, 46, 111, 61, 72, 116,
      167], rfl⟩

theorem keyBytes_length : keyBytes.length = 32 := rfl

def artifactDigest : ArtifactDigest := ⟨artifactBytes, rfl⟩
def secondJob : JobId := ⟨secondJobBytes, rfl⟩

def codec : Codec where
  hash
  encodeProfile
  encodeReport
  decodeReport _ := .error "failed to decode Protobuf message"

def profile (release : String) : DeviceProfile :=
  { platformFamily := "jetson", boardModel := "b", soc := "s"
    gpuArchitecture := "g", usableMemoryBytes := 8
    operatingSystemImageDigest := List.replicate 32 1
    platformRelease := release, cudaVersion := "c", gpuDriverVersion := "d"
    compilerVersion := "e", compilerRuntimeVersion := "f"
    agentImageDigest := List.replicate 32 2, powerProfile := "p"
    clockPolicy := "q", coolingPolicy := "r", measurementProtocolVersion := 1 }

def target : DeviceProfile := profile "r36"

def upgraded : DeviceProfile := profile "r36.4"

def engine : CoreEngineIdentity :=
  ⟨List.replicate 16 1, List.replicate 16 2, List.replicate 32 3, rfl, rfl, rfl⟩

def submission : MeasureSubmission :=
  { kind := .single
    engine
    subjects := [⟨List.replicate 32 7, .binary, [1, 2, 3], rfl⟩]
    options := ⟨List.replicate 32 9, 1, none, true⟩
    measureConfig := ⟨1, []⟩
    targetDeviceProfileHash := ⟨targetBytes, rfl⟩ }

def device : DeviceId := Id.filled .device 0x21
def session : SessionId := Id.filled .session 0x11
def laterSession : SessionId := Id.filled .session 0x12
def lease : LeaseId := Id.filled .lease 0x31
def nonce : RequestNonce := Id.filled .requestNonce 5
def job : JobId := ⟨jobBytes, rfl⟩

def config : CoordinatorConfig :=
  { CoordinatorConfig.default with enrollment := .insecureForTests [device] }

def hello (profile : DeviceProfile) (recoveries : List LeaseRecovery) : AgentHello :=
  { protocolMajor := 1, protocolMinor := 1, deviceId := device.toVec
    agentBuild := "agent", profile := some profile
    capabilities :=
      [{ engine := some (engineIdentityToWire engine)
         artifactFormats := [⟨4, 0⟩]
         measureConfigEncodings := [1]
         measurementProtocolVersions := [1] }]
    recoveries, jobSlots := 1 }

def reference : LeaseReference :=
  ⟨session.toVec, job.toVec, lease.toVec⟩

def report (profileHash : Bytes) (errorCode : Nat) : MeasureReport :=
  { originSessionId := session.toVec, deviceId := device.toVec
    deviceProfileHash := profileHash, jobId := job.toVec
    measurementKey := keyBytes, requestNonce := nonce.toVec
    leaseId := lease.toVec, engine := some (engineIdentityToWire engine)
    measureConfigHash := List.replicate 32 9, kind := 1, outcome := 7
    subjects := [⟨0, List.replicate 32 7, none, none, none, []⟩]
    samples := [], telemetry := [], failure := some ⟨errorCode, "", false⟩ }

def at_ (now : Instant) (draws : List (LeaseId × Instant)) : Surroundings :=
  { expiryNow := now, renewalNow := fun _ => now, jobOrder := .stored
    activeOrder := fun _ => .stored, artifactOrder := .stored, draws }

/-- The job is enqueued, offered to the device and accepted. -/
def accepted : List Operation :=
  [.enqueue (at_ 0 []) submission nonce, .connect (at_ 1 []) none (hello target []) session,
    .welcome (device, session),
    .event (at_ 2 [(lease, 2)]) (device, session) (some (.ready ⟨session.toVec, 1⟩)),
    .event (at_ 3 []) (device, session) (some (.accepted reference))]

def start : World := initialWorld (.memory 4096 ∅)

def after (operations : List Operation) : World :=
  (follow codec config operations start).getD start

theorem run_after {operations later}
    (enabled : (follow codec config (operations ++ later) start).isSome) :
    (coordinatorSystem codec config).Run (after operations) later
      (after (operations ++ later)) := by
  obtain ⟨final, followed⟩ := Option.isSome_iff_exists.mp enabled
  have both := followed
  rw [follow_append, Option.bind_eq_some_iff] at both
  obtain ⟨mid, first, second⟩ := both
  have run : (coordinatorSystem codec config).Run mid later final := run_of_follow second
  rw [after, after, first, followed]
  exact run

theorem reachable_after {operations} (enabled : (follow codec config operations start).isSome) :
    (coordinatorSystem codec config).Reachable (after operations) := by
  refine ⟨start, ⟨[], .memory 4096 ∅, rfl, rfl⟩, operations, ?_⟩
  have whole : (follow codec config ([] ++ operations) start).isSome = true := enabled
  exact run_after whole

/-- What the coordinator answers to a report for the job. -/
def reviewed (world : World) (report : MeasureReport) : Option (Except Status Unit) :=
  (world.state.jobs.get? job).bind fun live =>
    (world.state.agents.get? device).map fun agent =>
      validateReport config job live device agent session lease report

theorem exists_of_reviewed {world report answer} (review : reviewed world report = some answer) :
    ∃ live agent, world.state.jobs.get? job = some live ∧
      world.state.agents.get? device = some agent ∧
      validateReport config job live device agent session lease report = answer := by
  unfold reviewed at review
  rw [Option.bind_eq_some_iff] at review
  obtain ⟨live, found, review⟩ := review
  rw [Option.map_eq_some_iff] at review
  obtain ⟨agent, connected, review⟩ := review
  exact ⟨live, agent, found, connected, review⟩

end Sample

theorem jobTables_after_accepted : JobTables (Sample.after Sample.accepted).state :=
  (jobTables_of_reachable (Sample.reachable_after (by decide +kernel))).1

end GraphZero.Measure
