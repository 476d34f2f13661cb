import GraphZero.Search.EpisodeLedger

/-!
# What an episode waits for

An episode gives the work of its root task tickets of its own.  Every ticket
that is out is one the root task waits for under its inner number, or that of
the final measurement.
-/

namespace GraphZero.Search

open Engine Foundation Effect List

variable {G C F : Type}

/-- Work of a root task under both of its numbers. -/
abbrev OpenWork : Type := RootPending × WorkKind

namespace OpenWork

def inner (work : OpenWork) : Nat × WorkKind :=
  work.1.inner.ticket work.2

def outer (work : OpenWork) : Nat × WorkKind :=
  work.1.outer.ticket work.2

end OpenWork

/-- The root task of an episode is in order. -/
def EpisodeState.Waiting : EpisodeState G C F → Prop
  | .root rootTask => rootTask.Waiting
  | _ => True

namespace EpisodeTask

def rootAwaits (task : EpisodeTask G C F) : List (Nat × WorkKind) :=
  match task.state with
  | .root rootTask => rootTask.awaits
  | _ => []

/-- The ticket of the final measurement, while it is out. -/
def measureTicket (task : EpisodeTask G C F) : List (Nat × WorkKind) :=
  (task.pending.map fun token => token.ticket .measurePair).toList

/-- The tickets that are out are those the episode can be resumed with. -/
structure Tracks (task : EpisodeTask G C F) (outstanding : List (Nat × WorkKind)) : Prop where
  issued : Issued task.nextToken outstanding
  waiting : task.state.Waiting
  measuring : task.pending.isSome = true → task.state = .done
  opens : ∃ opens : List OpenWork,
    task.rootPending.Perm (opens.map Prod.fst) ∧ task.rootAwaits.Perm (opens.map OpenWork.inner) ∧
        outstanding.Perm (opens.map OpenWork.outer ++ task.measureTicket)

variable {task : EpisodeTask G C F}

theorem Tracks.nothing {outstanding} (tracks : task.Tracks outstanding)
    (calm : task.rootAwaits = []) (idle : task.pending = none) :
    task.rootPending = [] ∧ outstanding = [] := by
  obtain ⟨opens, pending, inner, outer⟩ := tracks.opens
  rw [calm] at inner
  have none : opens = [] := map_eq_nil_iff.mp inner.symm.eq_nil
  unfold measureTicket at outer
  rw [none] at pending outer
  rw [idle] at outer
  exact ⟨pending.eq_nil, outer.eq_nil⟩

theorem Tracks.perm {first second} (tracks : task.Tracks first) (same : first.Perm second) :
    task.Tracks second where
  issued := tracks.issued.perm same.symm
  waiting := tracks.waiting
  measuring := tracks.measuring
  opens := by
    obtain ⟨opens, pending, inner, outer⟩ := tracks.opens
    exact ⟨opens, pending, inner, same.symm.trans outer⟩

theorem tracks_nil (waiting : task.state.Waiting)
    (calm : task.rootAwaits = []) (alone : task.rootPending = [])
    (idle : task.pending = none) : task.Tracks [] where
  issued := Issued.nil _
  waiting := waiting
  measuring waits := by
    rw [idle] at waits
    cases waits
  opens := by
    refine ⟨[], ?_, ?_, ?_⟩
    · rw [alone]
      exact .refl _
    · rw [calm]
      exact .refl _
    · unfold measureTicket
      rw [idle]
      exact .refl _

end EpisodeTask

section Rounds

variable [Scalar F] [DecidableEq G] [DecidableEq C] {task final : EpisodeTask G C F}

variable {rootTask : RootTask G C F}

omit [Scalar F] [DecidableEq G] [DecidableEq C] in
theorem RootTask.waiting_takeReleasable (waiting : rootTask.Waiting) :
    rootTask.takeReleasable.2.Waiting :=
  ⟨waiting.issued, waiting.alone, waiting.passes⟩

/-- What the outcome of a round says about the tickets. -/
def TracksAfter (outstanding : List (Nat × WorkKind)) :
    Unit ⊕ SearchPoll G C F (SymmetricEpisode G C F) → EpisodeTask G C F → Prop
  | .inl (), final => final.Tracks outstanding ∧ final.pending = none
  | .inr (.work work), final => final.Tracks (work.ticket :: outstanding)
  | .inr .blocked, final => final.Tracks outstanding
  | .inr (.done _), _ => outstanding = []

omit [Scalar F] [DecidableEq G] [DecidableEq C] in
theorem tracks_started {task : EpisodeTask G C F}
    (alone : task.rootPending = []) (idle : task.pending = none) :
    task.started.Tracks [] ∧ task.started.pending = none := by
  unfold EpisodeTask.started
  split
  · exact ⟨EpisodeTask.tracks_nil trivial rfl alone idle, idle⟩
  split
  · exact ⟨EpisodeTask.tracks_nil trivial rfl alone idle, idle⟩
  · refine ⟨EpisodeTask.tracks_nil ?_ rfl alone idle, idle⟩
    exact ⟨Issued.nil _, fun _ => rfl, rfl⟩

omit [Scalar F] [DecidableEq G] [DecidableEq C] in
theorem EpisodeTask.Tracks.rootWaiting {outstanding} (tracks : task.Tracks outstanding)
    (state : task.state = .root rootTask) : rootTask.Waiting := by
  have waiting := tracks.waiting
  rw [state] at waiting
  exact waiting

omit [Scalar F] [DecidableEq G] [DecidableEq C] in
theorem tracks_keepRoot {next outstanding} (tracks : task.Tracks outstanding)
    (state : task.state = .root rootTask) (waiting : next.Waiting)
    (same : next.awaits.Perm rootTask.awaits) :
    (task.keepRoot next).Tracks outstanding where
  issued := tracks.issued
  waiting := RootTask.waiting_takeReleasable waiting
  measuring waits := by
    have done := tracks.measuring waits
    rw [state] at done
    cases done
  opens := by
    obtain ⟨opens, pending, inner, outer⟩ := tracks.opens
    unfold EpisodeTask.rootAwaits at inner
    rw [state] at inner
    exact ⟨opens, pending, same.trans inner, outer⟩

omit [Scalar F] [DecidableEq G] [DecidableEq C] in
theorem ticket_retokenize (token : WorkToken) (work : SearchWork G C F) :
    (work.retokenize token).ticket = token.ticket work.kind := by
  unfold SearchWork.ticket
  rw [SearchWork.token_retokenize, SearchWork.kind_retokenize]

omit [DecidableEq G] [DecidableEq C] in
theorem Reuses.begins {reused left visited} (reuses : Reuses rootTask visited (some reused) left) :
    reused.pending = none ∧ ∃ run, reused.state = .waveRunning (.start run) := by
  cases reuses with
  | subtree carried head started =>
    refine ⟨?_, _, rfl⟩
    unfold reusedTask refreshReusedNoBacktrackMasks
    split
    · rfl
    · rfl

omit [Scalar F] [DecidableEq C] in
theorem Aligns.begins {reused aligned : RootTask G C F} {board contexts}
    (aligns : Aligns reused board contexts aligned) :
    aligned.pending = reused.pending ∧ aligned.state = reused.state := by
  cases aligns with
  | aligned head board agrees known => exact ⟨rfl, rfl⟩

omit [Scalar F] [DecidableEq G] [DecidableEq C] in
theorem RootTask.waiting_of_begun {run} (idle : rootTask.pending = none)
    (state : rootTask.state = .waveRunning (.start run)) :
    rootTask.Waiting ∧ rootTask.awaits = [] := by
  have none : rootTask.awaits = [] := by
    unfold RootTask.awaits
    rw [idle, state]
    rfl
  refine ⟨⟨none ▸ Issued.nil _, fun _ => ?_, ?_⟩, none⟩
  · rw [state]
    rfl
  · rw [state]
    rfl

omit [Scalar F] [DecidableEq G] [DecidableEq C] in
theorem afterTurn_keeps (task : EpisodeTask G C F) (result : SymmetricRootResult G C F) :
    (task.afterTurn result).rootPending = task.rootPending ∧
      (task.afterTurn result).pending = task.pending ∧ (task.afterTurn result).state = .turn := by
  cases result with
  | pass player context => exact ⟨rfl, rfl, rfl⟩
  | action result => exact ⟨rfl, rfl, rfl⟩

omit [Scalar F] [DecidableEq G] [DecidableEq C] in
theorem turned_keeps (task : EpisodeTask G C F) : task.turned.rootPending = task.rootPending ∧
      task.turned.pending = task.pending := by
  unfold EpisodeTask.turned
  split
  · exact ⟨rfl, rfl⟩
  · exact ⟨rfl, rfl⟩

theorem Rounds.tracks {fuel : Nat} {outstanding outcome} (tracks : task.Tracks outstanding)
    (idle : task.pending = none) (rounds : Rounds fuel task outcome final) :
    TracksAfter outstanding outcome final := by
  cases rounds with
  | start state =>
    have none : task.rootAwaits = [] := by
      unfold EpisodeTask.rootAwaits
      rw [state]
    obtain ⟨alone, rfl⟩ := tracks.nothing none idle
    exact tracks_started alone idle
  | @work rootTask next work state polls =>
    obtain ⟨waiting, opened⟩ := polls.tickets (tracks.rootWaiting state)
    obtain ⟨opens, pending, inner, outer⟩ := tracks.opens
    unfold EpisodeTask.rootAwaits at inner
    rw [state] at inner
    have ticket := ticket_retokenize ⟨task.nextToken⟩ work
    unfold TracksAfter
    dsimp only
    rw [ticket]
    refine ⟨tracks.issued.issue work.kind, RootTask.waiting_takeReleasable waiting, fun waits => ?_,
      (⟨⟨task.nextToken⟩, work.token⟩, work.kind) :: opens, ?_, ?_,
      outer.cons _⟩
    · have waits : task.pending.isSome = true := waits
      rw [idle] at waits
      cases waits
    · exact (perm_append_singleton _ _).trans (pending.cons _)
    · exact opened.trans (inner.cons _)
  | blocked state polls =>
    obtain ⟨waiting, same⟩ := polls.tickets (tracks.rootWaiting state)
    exact tracks_keepRoot tracks state waiting same
  | @next rootTask next left result state polls alone turn reuses =>
    have none : task.rootAwaits = [] := by
      unfold EpisodeTask.rootAwaits
      rw [state]
      exact polls.tickets (tracks.rootWaiting state)
    obtain ⟨_, rfl⟩ := tracks.nothing none idle
    obtain ⟨pending, measure, turned⟩ := afterTurn_keeps
      { task.appendReleasable next.takeReleasable.1 with state := .done }
      result
    refine ⟨EpisodeTask.tracks_nil ?_ ?_ (pending.trans alone)
      (measure.trans idle), measure.trans idle⟩
    · change EpisodeState.Waiting (EpisodeTask.afterTurn _ _).state
      rw [turned]
      trivial
    · change EpisodeTask.rootAwaits (EpisodeTask.afterTurn _ _) = []
      unfold EpisodeTask.rootAwaits
      rw [turned]
  | @reuse rootTask next left reused aligned result contexts turned state
      polls alone turn reuses turns aligns active =>
      have none : task.rootAwaits = [] := by
        unfold EpisodeTask.rootAwaits
        rw [state]
        exact polls.tickets (tracks.rootWaiting state)
      obtain ⟨_, rfl⟩ := tracks.nothing none idle
      obtain ⟨pending, measure, _⟩ := afterTurn_keeps
        { task.appendReleasable next.takeReleasable.1 with state := .done }
        result
      have kept := turned_keeps ((task.leaveRoot next result).appendReleasable
        left.takeAllHandles.1)
      rw [← turns] at kept
      have measure := kept.2.trans (measure.trans idle)
      obtain ⟨free, run, begun⟩ := reuses.begins
      obtain ⟨samePending, sameState⟩ := aligns.begins
      obtain ⟨waiting, calm⟩ := RootTask.waiting_of_begun
        (samePending.trans free) (sameState.trans begun)
      exact ⟨EpisodeTask.tracks_nil waiting calm
        (kept.1.trans (pending.trans alone)) measure, measure⟩
  | measure state =>
    have none : task.rootAwaits = [] := by
      unfold EpisodeTask.rootAwaits
      rw [state]
    obtain ⟨alone, rfl⟩ := tracks.nothing none idle
    refine ⟨(Issued.nil _).issue _, trivial, fun _ => rfl, [], ?_, .refl _, .refl _⟩
    change task.rootPending.Perm []
    rw [alone]
  | finished state =>
    have none : task.rootAwaits = [] := by
      unfold EpisodeTask.rootAwaits
      rw [state]
    exact (tracks.nothing none idle).2

omit [Scalar F] [DecidableEq G] [DecidableEq C] in
theorem started_keeps (task : EpisodeTask G C F) : task.started.pending = task.pending := by
  unfold EpisodeTask.started
  split
  · rfl
  split
  · rfl
  · rfl

variable {fuel : Nat} {outstanding : List (Nat × WorkKind)}

theorem Rounds.pending_eq {value} (rounds : Rounds fuel task (.inl value) final) :
    final.pending = task.pending := by
  cases rounds with
  | start state => exact started_keeps _
  | next state polls alone turn reuses => exact (afterTurn_keeps _ _).2.1
  | reuse state polls alone turn reuses turns aligns active =>
    subst turns
    exact (turned_keeps _).2.trans (afterTurn_keeps _ _).2.1

theorem conserves_round (tracks : task.Tracks outstanding) (idle : task.pending = none)
    (fuel : Nat) :
    EpisodeConserves 0 (episodeRound fuel) (fun outcome => outcome.elim (fun _ => 0)
        (SearchPoll.holdings SymmetricEpisode.created)) task := by
  refine conserves_episodeRound fuel (fun rootTask state => ?_)
    fun rootTask result next state polls => ?_
  · exact (tracks.rootWaiting state).passes
  · refine (tracks.nothing ?_ idle).1
    unfold EpisodeTask.rootAwaits
    rw [state]
    exact polls.tickets (tracks.rootWaiting state)

end Rounds

section Results

variable [Scalar F] [DecidableEq G] [DecidableEq C] {task final : EpisodeTask G C F}

variable {token : WorkToken}

omit [Scalar F] [DecidableEq G] [DecidableEq C] in
theorem EpisodeTask.Tracks.find {outstanding rest kind} (tracks : task.Tracks outstanding)
    (asked : outstanding.Perm (token.ticket kind :: rest)) :
    (∃ pending rootTask, task.state = .root rootTask ∧
      task.rootPending.find? (·.outer == token) = some pending ∧
        pending.inner.ticket kind ∈ rootTask.awaits ∧ ∀ next : RootTask G C F,
            rootTask.awaits.Perm (pending.inner.ticket kind :: next.awaits) →
            next.Waiting →
            EpisodeTask.Tracks (EpisodeTask.keepRoot
              { task with rootPending := task.rootPending.erase pending }
              next) rest) ∨
    (task.rootPending.find? (·.outer == token) = none ∧
      task.pending = some token ∧ kind = .measurePair ∧ task.rootPending = [] ∧ rest = []) := by
  obtain ⟨opens, pending, inner, outer⟩ := tracks.opens
  have member := outer.mem_iff.mp (asked.mem_iff.mpr mem_cons_self)
  rcases mem_append.mp member with opened | measured
  · left
    obtain ⟨work, workOpen, same⟩ := mem_map.mp opened
    have awaited : work.inner ∈ task.rootAwaits := inner.mem_iff.mpr (mem_map_of_mem workOpen)
    cases state : task.state with
    | root rootTask =>
      have here : task.rootAwaits = rootTask.awaits := by
        unfold rootAwaits
        rw [state]
      rw [here] at awaited inner
      have numbers := Prod.mk.injEq .. |>.mp same
      have outerSame : work.1.outer = token := congrArg WorkToken.mk numbers.1
      have held : work.1 ∈ task.rootPending := pending.mem_iff.mpr (mem_map_of_mem workOpen)
      -- The outer numbers are distinct, so the one found is this one.
      have distinct : (opens.map fun work => work.1.outer.value).Nodup := by
        have all := (tracks.issued.perm outer.symm).distinct
        rw [map_append, map_map] at all
        exact (nodup_append.mp all).1
      have found : task.rootPending.find? (·.outer == token) = some work.1 := by
        cases search : task.rootPending.find? (·.outer == token) with
        | none =>
          have missing := find?_eq_none.mp search work.1 held
          exact absurd (beq_iff_eq.mpr outerSame) missing
        | some other =>
          have matched := find?_some search
          have otherSame : other.outer = token := beq_iff_eq.mp matched
          have otherHeld := pending.mem_iff.mp (mem_of_find?_eq_some search)
          obtain ⟨second, secondOpen, rfl⟩ := mem_map.mp otherHeld
          have equal := inj_on_of_nodup_map distinct secondOpen
            workOpen (by rw [otherSame, outerSame])
          rw [equal]
      refine ⟨work.1, rootTask, rfl, found, numbers.2 ▸ awaited, ?_⟩
      intro next closed waiting
      obtain ⟨before, after, rfl⟩ := append_of_mem workOpen
      have others : (before ++ work :: after).Perm (work :: (before ++ after)) := perm_middle
      refine ⟨(tracks.issued.perm asked.symm).close,
        RootTask.waiting_takeReleasable waiting, fun waits => ?_,
        before ++ after, ?_, ?_, ?_⟩
      · have done := tracks.measuring waits
        rw [state] at done
        cases done
      · have erased := (pending.trans (others.map Prod.fst)).erase work.1
        rw [map_cons, erase_cons_head] at erased
        exact erased
      · have both := (closed.symm.trans inner).trans (others.map OpenWork.inner)
        have first : work.1.inner.ticket kind = work.inner :=
          congrArg work.1.inner.ticket numbers.2.symm
        rw [first] at both
        exact both.cons_inv
      · have both := (asked.symm.trans outer).trans
          ((others.map OpenWork.outer).append_right task.measureTicket)
        rw [map_cons, same] at both
        exact both.cons_inv
    | turn | measurePair | doneResult _ | done =>
      unfold rootAwaits at awaited
      rw [state] at awaited
      cases awaited
  · right
    unfold measureTicket at measured
    cases waits : task.pending with
    | none =>
      rw [waits] at measured
      cases measured
    | some expected =>
      rw [waits] at measured
      have same := mem_singleton.mp measured
      have numbers := Prod.mk.injEq .. |>.mp same
      have expectedSame : token = expected := congrArg WorkToken.mk numbers.1
      have calm : task.rootAwaits = [] := by
        unfold rootAwaits
        rw [tracks.measuring (Option.isSome_of_eq_some waits)]
      rw [calm] at inner
      have none : opens = [] := map_eq_nil_iff.mp inner.symm.eq_nil
      rw [none] at pending outer
      have alone : task.rootPending = [] := pending.eq_nil
      have single : task.measureTicket = [token.ticket kind] := by
        unfold measureTicket
        rw [waits, same]
        rfl
      rw [single] at outer
      have both := asked.symm.trans outer
      refine ⟨?_, ?_, numbers.2, alone, both.cons_inv.eq_nil⟩
      · rw [alone]
        rfl
      · rw [expectedSame]

variable {result : SearchWorkResult G C F}

theorem tracks_of_resume {outstanding rest value} (tracks : task.Tracks outstanding)
    (asked : outstanding.Perm (token.ticket result.kind :: rest))
    (done : (EpisodeTask.resume token result).perform task = (.ok value, final)) :
    final.Tracks rest := by
  rcases tracks.find asked with
    ⟨pending, rootTask, state, found, awaited, reached⟩ |
    ⟨free, waits, measure, alone, rfl⟩
  · cases receipts_of_resume done with
    | root sameFound sameState resumes =>
      cases found.symm.trans sameFound
      cases state.symm.trans sameState
      obtain ⟨waiting, closed⟩ := resumes.tickets (tracks.rootWaiting state)
      exact reached _ closed waiting
    | measure free => rw [found] at free; cases free
  · cases receipts_of_resume done with
    | root found => rw [free] at found; cases found
    | measure _ _ firstValid secondValid => exact EpisodeTask.tracks_nil trivial rfl alone rfl

omit [DecidableEq G] [DecidableEq C] in
theorem conserves_finishEpisode {p1Measure p2Measure} (vacant : task.state.holdings = 0) :
    EpisodeConserves 0 (finishEpisode p1Measure p2Measure) (fun _ => 0) task := by
  unfold finishEpisode
  split
  · exact conserves_failEpisode_bind
  refine balancedAt_of_ok rfl ?_
  change holdingsOf [] [] + task.releasable.holdings + holdingsOf task.pathGraphs [] + 0 =
      task.shelf + task.state.holdings + 0
  rw [vacant, holdingsOf_nil]
  unfold EpisodeTask.shelf
  abel

theorem conserves_resumeRoot {pending rootTask} (state : task.state = .root rootTask)
    (waiting : rootTask.Waiting) (awaited : pending.inner.ticket result.kind ∈ rootTask.awaits) :
    EpisodeConserves result.holdings (resumeRoot pending result) (fun _ => 0) task := by
  refine balancedAt_get_bind ?_
  rw [state]
  have emptied : EpisodeConserves result.holdings (modify fun task : EpisodeTask G C F =>
        { task with
          rootPending := task.rootPending.erase pending, state := .done })
      (fun _ => rootTask.holdings + result.holdings) task := by
    refine balancedAt_of_ok rfl ?_
    change task.shelf + 0 + (rootTask.holdings + result.holdings) =
      task.shelf + task.state.holdings + result.holdings
    rw [state, add_zero, add_assoc]
    rfl
  refine BalancedAt.bind emptied fun _ mid done => ?_
  cases done
  have conserves := balancedAt_resume waiting awaited
  cases ran : (RootTask.resume pending.inner result).perform rootTask with
  | mk resumed next =>
    cases resumed with
    | error failure => exact conserves_abandonRoot_throw (conserves.error ran)
    | ok value =>
      have even := conserves.ok ran
      rw [← even]
      refine balancedAt_of_ok rfl ?_
      have given := next.holdings_takeReleasable
      rw [EpisodeTask.holdings_appendReleasable, ← given]
      change task.shelf + RootTask.holdings _ + _ + 0 = task.shelf + 0 + _
      abel

theorem conserves_resume {outstanding rest} (tracks : task.Tracks outstanding)
    (asked : outstanding.Perm (token.ticket result.kind :: rest)) :
    EpisodeConserves result.holdings (EpisodeTask.resume token result) (fun _ => 0) task := by
  refine balancedAt_get_bind ?_
  rcases tracks.find asked with
    ⟨pending, rootTask, state, found, awaited, _⟩ |
    ⟨free, waits, measure, _, _⟩
  · rw [found]
    exact conserves_resumeRoot state (tracks.rootWaiting state) awaited
  rw [free]
  refine balancedAt_get_bind ?_
  rw [waits]
  have settled : task.state = .done := tracks.measuring (Option.isSome_of_eq_some waits)
  cases result with
  | measurePair p1Measure p2Measure =>
    have idle : EpisodeConserves 0 (modify fun task : EpisodeTask G C F =>
          { task with pending := none }) (fun _ => 0) task :=
      balancedAt_of_ok rfl rfl
    have vacant : task.state.holdings = 0 := by
      rw [settled]
      rfl
    simp only [ne_eq, not_true_eq_false, if_false]
    refine BalancedAt.bind idle fun _ next done => ?_
    cases done
    exact conserves_finishEpisode vacant
  | expand | apply | eval => cases measure

end Results

end GraphZero.Search
