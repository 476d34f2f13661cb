import GraphZero.Measure.LoopInvariant

/-!
# What the turns of an agent's loop preserve

A turn of the loop takes a lease from those it has still to read, and rejects
it or executes it; every other turn leaves it fewer leases or the same.
-/

namespace GraphZero.Measure

open Foundation Wire List

section Agents

variable {codec : Codec} {state : CoordinatorState} {drawn : List LeaseId}
  {sessionId : SessionId} {loop later : SessionLoop}

theorem LoopHolds.fewer {channels} (holds : LoopHolds state drawn sessionId loop)
    (channel : later.channel = loop.channel)
    (unread : (later.unread channels).Sublist (loop.unread state.channels))
    (active : ∀ jobId leaseId, later.active.get? jobId = some leaseId →
      loop.active.get? jobId = some leaseId)
    (outbox : ∀ reference, .rejected reference ∈ later.outbox → .rejected reference ∈ loop.outbox)
    (opened : state.channels.length ≤ channels.length) :
    LoopHolds { state with channels } drawn sessionId later := by
  have before : ∀ jobId leaseId, later.Carries channels jobId leaseId →
      loop.Carries state.channels jobId leaseId := by
    intro jobId leaseId carries
    rcases carries with executing | waiting
    · exact Or.inl (active jobId leaseId executing)
    · exact Or.inr (unread.subset waiting)
  refine ⟨(unread.map Prod.fst).nodup holds.distinct, ?_, ?_, ?_, ?_, ?_⟩
  · intro jobId leaseId member
    have idle := holds.apart jobId leaseId (unread.subset member)
    cases executing : later.active.get? jobId with
    | none => rfl
    | some other =>
      rw [active jobId other executing] at idle
      cases idle
  · intro jobId leaseId carries
    exact holds.known jobId leaseId (before jobId leaseId carries)
  · intro reference rejected jobId leaseId job lease
    obtain ⟨known, gone⟩ := holds.refused reference (outbox reference rejected)
      jobId leaseId job lease
    exact ⟨known, fun carries => gone (before jobId leaseId carries)⟩
  · rw [channel]
    exact Nat.lt_of_lt_of_le holds.opened opened
  · intro deviceId session line
    rw [channel] at line
    obtain ⟨current, keeps⟩ := holds.kept deviceId session line
    exact ⟨current, fun jobId leaseId carries =>
      keeps jobId leaseId (before jobId leaseId carries)⟩

theorem LoopHolds.less (holds : LoopHolds state drawn sessionId loop)
    (channel : later.channel = loop.channel)
    (unread : (later.unread state.channels).Sublist (loop.unread state.channels))
    (active : ∀ jobId leaseId, later.active.get? jobId = some leaseId →
      loop.active.get? jobId = some leaseId)
    (outbox : ∀ reference, .rejected reference ∈ later.outbox → .rejected reference ∈ loop.outbox) :
    LoopHolds state drawn sessionId later :=
  holds.fewer channel unread active outbox (Nat.le_refl _)

theorem LoopHolds.stopped (holds : LoopHolds state drawn sessionId loop) :
    LoopHolds state drawn sessionId loop.stopped := by
  have unread : loop.stopped.unread state.channels = [] := rfl
  apply holds.less
  · rfl
  · exact nil_sublist _
  · intro jobId leaseId executing
    cases executing
  · exact fun _ rejected => rejected

theorem LoopHolds.send {event} (holds : LoopHolds state drawn sessionId loop)
    (accepting : ∀ reference, event ≠ .rejected reference) :
    LoopHolds state drawn sessionId (loop.send event) := by
  apply holds.less
  · rfl
  · exact List.Sublist.refl _
  · exact fun _ _ executing => executing
  · intro reference rejected
    rcases mem_append.mp rejected with before | last
    · exact before
    · exact absurd (mem_singleton.mp last).symm (accepting reference)

theorem LoopHolds.sendReady (holds : LoopHolds state drawn sessionId loop)
    (session : SessionId) (freeSlots : Nat) :
    LoopHolds state drawn sessionId (loop.sendReady session freeSlots) :=
  holds.send fun _ => AgentEvent.noConfusion

variable {command : CoordinatorCommand} {rest : List CoordinatorCommand}
  {lease : MeasureLease} {session : SessionId} {welcome : AgentWelcome}

theorem unread_of_inbox (running : loop.running = true)
    (inbox : loop.inbox = command :: rest) (channels : List CommandChannel) :
    loop.unread channels = (offeredLease command).toList ++
        { loop with inbox := rest }.unread channels := by
  rw [unread_eq, unread_eq, if_pos running, if_pos running, inbox]
  unfold offeredLeases
  rw [filterMap_cons]
  cases offeredLease command with
  | none => rfl
  | some entry => rfl

theorem LoopHolds.taken (holds : LoopHolds state drawn sessionId loop)
    (running : loop.running = true) (inbox : loop.inbox = command :: rest) :
    LoopHolds state drawn sessionId { loop with inbox := rest } := by
  apply holds.less
  · rfl
  · rw [unread_of_inbox running inbox]
    exact sublist_append_right _ _
  · exact fun _ _ executing => executing
  · exact fun _ rejected => rejected

theorem LoopHolds.not_carries_taken {jobId leaseId} (holds : LoopHolds state drawn sessionId loop)
    (running : loop.running = true) (inbox : loop.inbox = command :: rest)
    (offers : offeredLease command = some (jobId, leaseId)) :
    loop.Carries state.channels jobId leaseId ∧ loop.active.get? jobId = none ∧
      ∀ other, ¬ { loop with inbox := rest }.Carries state.channels jobId
        other := by
  have unread := unread_of_inbox running inbox state.channels
  rw [offers, Option.toList_some, singleton_append] at unread
  have member : (jobId, leaseId) ∈ loop.unread state.channels := by
    rw [unread]
    exact mem_cons_self
  have idle := holds.apart jobId leaseId member
  have distinct := holds.distinct
  rw [unread, map_cons, nodup_cons] at distinct
  refine ⟨Or.inr member, idle, ?_⟩
  intro other carries
  rcases carries with executing | waiting
  · have none : loop.active.get? jobId = some other := executing
    rw [idle] at none
    cases none
  · exact distinct.1 (mem_map.mpr ⟨_, waiting, rfl⟩)

variable {rest : List CoordinatorCommand}

theorem LoopHolds.rejectLease (holds : LoopHolds state drawn sessionId loop)
    (running : loop.running = true)
    (inbox : loop.inbox = .lease lease :: rest) (session : SessionId) :
    LoopHolds state drawn sessionId ({ loop with inbox := rest }.rejectLease session lease) := by
  have taken := holds.taken running inbox
  refine ⟨taken.distinct, taken.apart, taken.known, ?_, taken.opened, taken.kept⟩
  intro reference rejected jobId leaseId job leaseNamed
  rcases mem_append.mp rejected with before | last
  · exact taken.refused reference before jobId leaseId job leaseNamed
  cases mem_singleton.mp last
  have offers : offeredLease (.lease lease) = some (jobId, leaseId) := by
    unfold offeredLease
    dsimp only at job leaseNamed ⊢
    rw [job, leaseNamed, Id.fromSlice_toVec, Id.fromSlice_toVec]
  obtain ⟨carried, _, gone⟩ := holds.not_carries_taken running inbox offers
  exact ⟨holds.known jobId leaseId carried, gone leaseId⟩

theorem LoopHolds.accepted {jobId leaseId} (holds : LoopHolds state drawn sessionId loop)
    (running : loop.running = true) (inbox : loop.inbox = command :: rest)
    (offers : offeredLease command = some (jobId, leaseId)) :
    LoopHolds state drawn sessionId
      { loop with
        inbox := rest
        active := loop.active.insert jobId leaseId } := by
  have taken := holds.taken running inbox
  obtain ⟨carried, idle, gone⟩ := holds.not_carries_taken running inbox offers
  have before : ∀ other otherLease, ({ loop with
        inbox := rest
        active := loop.active.insert jobId leaseId } :
          SessionLoop).Carries state.channels other otherLease →
        loop.Carries state.channels other otherLease := by
    intro other otherLease carries
    rcases carries with executing | waiting
    · by_cases here : other = jobId
      · have inserted : (loop.active.insert jobId leaseId).get? other = some otherLease := executing
        rw [here, Table.get?_insert_self, Option.some.injEq] at inserted
        rw [here, ← inserted]
        exact carried
      · exact Or.inl ((Table.get?_insert_of_ne here).symm.trans executing)
    · right
      rw [unread_of_inbox running inbox]
      exact mem_append_right _ waiting
  refine ⟨taken.distinct, ?_, ?_, ?_, taken.opened, ?_⟩
  · intro other otherLease member
    have different : other ≠ jobId := by
      intro here
      rw [here] at member
      exact gone otherLease (Or.inr member)
    exact (Table.get?_insert_of_ne different).trans (taken.apart other otherLease member)
  · intro other otherLease carries
    exact holds.known other otherLease (before other otherLease carries)
  · intro reference rejected other otherLease job lease
    obtain ⟨known, absent⟩ := holds.refused reference rejected other otherLease job lease
    exact ⟨known, fun carries => absent (before other otherLease carries)⟩
  · intro deviceId session line
    obtain ⟨current, keeps⟩ := holds.kept deviceId session line
    exact ⟨current, fun other otherLease carries =>
      keeps other otherLease (before other otherLease carries)⟩

theorem unread_popCommand (loop : SessionLoop) (channels : List CommandChannel) (channel : Nat) :
    (loop.unread (popCommand channels channel)).Sublist (loop.unread channels) := by
  rw [unread_eq, unread_eq]
  split
  · apply List.Sublist.append_left
    apply List.Sublist.filterMap
    rw [pendingOn_popCommand]
    split
    · exact tail_sublist _
    · exact List.Sublist.refl _
  · exact List.Sublist.refl _

theorem unread_received {channels command}
    (pending : pendingOn channels loop.channel = command :: rest) :
    { loop with inbox := loop.inbox ++ [command] }.unread (popCommand channels loop.channel) =
      loop.unread channels := by
  unfold SessionLoop.unread
  rw [pendingOn_popCommand, if_pos rfl, pending, tail_cons, append_assoc]
  rfl

theorem LoopsHold.receive {loops command} (holds : LoopsHold state drawn loops)
    (found : loops.get? sessionId = some loop)
    (pending : pendingOn state.channels loop.channel = command :: rest) :
    LoopsHold { state with channels := popCommand state.channels loop.channel } drawn
      (loops.insert sessionId { loop with inbox := loop.inbox ++ [command] }) := by
  have length : (popCommand state.channels loop.channel).length =
      state.channels.length := length_modify _ _ _
  apply LoopsHold.insert
  · refine ⟨⟨?_, holds.lines.distinct⟩, ?_⟩
    · intro deviceId session channel held
      rw [length]
      exact holds.lines.opened deviceId session channel held
    · intro tested other otherFound
      apply (holds.loops tested other otherFound).fewer rfl
      · exact unread_popCommand other state.channels loop.channel
      · exact fun _ _ executing => executing
      · exact fun _ rejected => rejected
      · exact Nat.le_of_eq length.symm
  · refine (holds.loops sessionId loop found).fewer ?_ ?_ ?_ ?_ ?_
    · rfl
    · rw [unread_received pending]
    · exact fun _ _ executing => executing
    · exact fun _ rejected => rejected
    · exact Nat.le_of_eq length.symm

theorem LoopHolds.handleFirst (holds : LoopHolds state drawn sessionId loop)
    (handled : loop.handleFirst codec command = .ok later) :
    LoopHolds state drawn sessionId later := by
  unfold SessionLoop.handleFirst at handled
  cases command with
  | welcome welcome =>
    obtain ⟨session, _, handled⟩ := ok_of_bind handled
    cases handled
    apply LoopHolds.sendReady
    apply holds.less
    · rfl
    · exact List.Sublist.refl _
    · exact fun _ _ executing => executing
    · exact fun _ rejected => rejected
  | lease => cases handled
  | cancel => cases handled
  | drain => cases handled

theorem LoopHolds.handleLease (holds : LoopHolds state drawn sessionId loop)
    (running : loop.running = true)
    (inbox : loop.inbox = .lease lease :: rest)
    (handled : { loop with inbox := rest }.handleLease codec session welcome lease = .ok later) :
    LoopHolds state drawn sessionId later := by
  have rejected := holds.rejectLease running inbox session
  unfold SessionLoop.handleLease at handled
  split at handled
  · cases handled
    exact rejected.sendReady session _
  split at handled
  · cases handled
    exact rejected.sendReady session _
  obtain ⟨jobId, job, handled⟩ := ok_of_bind handled
  obtain ⟨leaseId, leaseNamed, handled⟩ := ok_of_bind handled
  split at handled
  · cases handled
  cases handled
  apply holds.accepted running inbox
  unfold offeredLease
  dsimp only
  rw [job, leaseNamed]

section

variable (holds : LoopHolds state drawn sessionId loop)
include holds

theorem LoopHolds.handleCommand
    (running : loop.running = true) (inbox : loop.inbox = command :: rest)
    (handled : { loop with inbox := rest }.handleCommand codec command = .ok later) :
    LoopHolds state drawn sessionId later := by
  have taken := holds.taken running inbox
  unfold SessionLoop.handleCommand at handled
  split at handled
  · exact taken.handleFirst handled
  next session welcome greeted =>
  cases command with
  | lease lease => exact holds.handleLease running inbox handled
  | cancel cancel =>
    cases handled
    exact taken
  | welcome second => cases handled
  | drain cancelActive =>
    have drained : LoopHolds state drawn sessionId
        { loop with inbox := rest, draining := true } := by
      apply taken.less
      · rfl
      · exact List.Sublist.refl _
      · exact fun _ _ executing => executing
      · exact fun _ rejected => rejected
    have sent := @LoopHolds.send state drawn sessionId _ (.draining session.toVec) drained
      fun _ => AgentEvent.noConfusion
    dsimp only at handled
    split at handled
    · cases handled
      exact sent.stopped
    · cases handled
      exact sent

theorem LoopHolds.takeCommand (running : loop.running = true)
    (taken : loop.takeCommand codec = some later) :
    LoopHolds state drawn sessionId later := by
  unfold SessionLoop.takeCommand at taken
  split at taken
  · cases taken
  next command rest inbox =>
  cases taken
  unfold SessionLoop.settle
  split
  · next next handled =>
    exact holds.handleCommand running inbox handled
  · exact (holds.taken running inbox).stopped

theorem LoopHolds.taskEvent {jobId accepts} (reported : loop.taskEvent jobId accepts = some later) :
    LoopHolds state drawn sessionId later := by
  unfold SessionLoop.taskEvent at reported
  split at reported
  · cases reported
    apply holds.send
    intro reference
    split
    · exact AgentEvent.noConfusion
    · exact AgentEvent.noConfusion
  · cases reported

theorem LoopHolds.completeTask {jobId result}
    (completed : loop.completeTask jobId result = some later) :
    LoopHolds state drawn sessionId later := by
  have left : LoopHolds state drawn sessionId { loop with active := loop.active.erase jobId } := by
    apply holds.less
    · rfl
    · exact List.Sublist.refl _
    · intro other leaseId executing
      have erased : (loop.active.erase jobId).get? other = some leaseId := executing
      rw [Table.get?_erase] at erased
      split at erased
      · cases erased
      · exact erased
    · exact fun _ rejected => rejected
  unfold SessionLoop.completeTask at completed
  split at completed
  · cases completed
  split at completed
  · split at completed
    · cases completed
      exact left.stopped
    split at completed
    · cases completed
      split
      · exact left.stopped
      · exact left
    · cases completed
      exact left.sendReady _ _
  · cases completed

theorem LoopHolds.tick (ticked : loop.tick = some later) :
    LoopHolds state drawn sessionId later := by
  unfold SessionLoop.tick at ticked
  split at ticked
  · cases ticked
  · cases ticked
    exact holds.sendReady _ _

end

theorem offeredLease_of_valid {config welcome capability session lease}
    (valid : validateLease codec config welcome capability session lease = .ok ()) :
    ∃ (jobId : JobId) (leaseId : LeaseId),
      Id.fromSlice lease.jobId = .ok jobId ∧ Id.fromSlice lease.leaseId = .ok leaseId := by
  obtain ⟨leaseSession, _, valid⟩ := ok_of_bind valid
  dsimp only at valid
  split at valid
  · cases valid
  obtain ⟨jobId, job, valid⟩ := ok_of_bind valid
  obtain ⟨_, _, valid⟩ := ok_of_bind valid
  obtain ⟨_, _, valid⟩ := ok_of_bind valid
  obtain ⟨leaseId, lease, _⟩ := ok_of_bind valid
  exact ⟨jobId, leaseId, job, lease⟩

theorem LoopHolds.handleLease_isOk (holds : LoopHolds state drawn sessionId loop)
    (running : loop.running = true)
    (inbox : loop.inbox = .lease lease :: rest) :
    ∃ next, loop.handleLease codec session welcome lease = .ok next := by
  unfold SessionLoop.handleLease
  split
  · exact ⟨_, rfl⟩
  split
  · exact ⟨_, rfl⟩
  next valid =>
  obtain ⟨jobId, leaseId, job, leaseNamed⟩ := offeredLease_of_valid valid
  have offers : offeredLease (.lease lease) = some (jobId, leaseId) := by
    unfold offeredLease
    dsimp only
    rw [job, leaseNamed]
  obtain ⟨_, idle, _⟩ := holds.not_carries_taken running inbox offers
  have absent : loop.active.contains jobId = false := Table.contains_eq_false_iff.mpr idle
  rw [job, leaseNamed]
  refine ⟨{ loop with
    active := loop.active.insert jobId leaseId }, ?_⟩
  simp [bind, Except.bind, absent, pure, Except.pure]

end Agents

end GraphZero.Measure
