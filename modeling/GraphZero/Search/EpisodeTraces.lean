import GraphZero.Search.EpisodeRecords

/-!
# What an episode tells

The steps of each player lead from the root to the player's last graph, a stop
ends them, and the players take turns as long as both can.  The final graphs
are measured once, when neither player can move.
-/

namespace GraphZero.Search

open Engine Foundation Effect List

variable {G C F : Type}

/-! ## Paths -/

namespace GumbelStep

def source (step : GumbelStep G C F) : G × ReplayGraphContext :=
  (step.before, step.stepRef.before)

def target (step : GumbelStep G C F) : G × ReplayGraphContext :=
  (step.after, step.stepRef.after)

def rewrites (step : GumbelStep G C F) : Bool :=
  !step.action.isStop

end GumbelStep

/-- The way of one player; a context is missing until a search has named it. -/
structure ActorPath (G C F : Type) where
  root : G
  rootContext : Option ReplayGraphContext
  steps : List (GumbelStep G C F)
  last : G
  context : Option ReplayGraphContext

def Actor.path (actor : Actor G C F) : ActorPath G C F :=
  ⟨actor.root, actor.rootContext, actor.steps, actor.current, actor.context⟩

def SymmetricActorTrace.path (trace : SymmetricActorTrace G C F) : ActorPath G C F :=
  ⟨trace.root, some trace.rootContext, trace.steps, trace.finalGraph, some trace.finalContext⟩

namespace ActorPath

/-- The steps lead from the root to the last graph; without a root context
there are none. -/
def Chained (path : ActorPath G C F) : Prop :=
  match path.rootContext with
  | some root => ∃ last, path.context = some last ∧
      Connects GumbelStep.source GumbelStep.target (path.root, root) path.steps (path.last, last)
  | none => path.steps = [] ∧ path.last = path.root

structure WellFormed (path : ActorPath G C F) (maxSteps : Nat) : Prop where
  chained : path.Chained
  bounded : path.steps.countP GumbelStep.rewrites ≤ maxSteps
  stops : ∀ step ∈ path.steps.dropLast, step.rewrites = true

end ActorPath

/-- What an actor has recorded, together with what it still may do. -/
structure Actor.Recorded (actor : Actor G C F) (maxSteps : Nat) : Prop where
  path : actor.path.WellFormed maxSteps
  counted : actor.steps.countP GumbelStep.rewrites ≤ actor.rewrites
  running : actor.stopped = false → ∀ step ∈ actor.steps, step.rewrites = true

section Actors

variable {actor : Actor G C F} {maxSteps : Nat}

theorem recorded_learns {context} (recorded : actor.Recorded maxSteps)
    (keeps : ∀ known, actor.context = some known → context = some known) :
    { actor with context := context }.Recorded maxSteps := by
  have chained := recorded.path.chained
  refine ⟨⟨?_, recorded.path.bounded, recorded.path.stops⟩, recorded.counted, recorded.running⟩
  unfold ActorPath.Chained Actor.path at chained ⊢
  cases root : actor.rootContext with
  | none =>
    rw [root] at chained
    exact chained
  | some root =>
    rw [root] at chained
    obtain ⟨last, known, connects⟩ := chained
    exact ⟨last, keeps last known, connects⟩

theorem chained_getD {context} (chained : actor.path.Chained)
    (agrees : ∀ known, actor.context = some known → known = context) :
    Connects GumbelStep.source GumbelStep.target
      (actor.root, actor.rootContext.getD context) actor.steps (actor.current, context) := by
  unfold ActorPath.Chained Actor.path at chained
  dsimp only at chained
  cases root : actor.rootContext with
  | none =>
    rw [root] at chained
    obtain ⟨empty, same⟩ := chained
    rw [empty, same]
    rfl
  | some root =>
    rw [root] at chained
    obtain ⟨last, known, connects⟩ := chained
    rw [← agrees last known]
    exact connects

theorem recorded_passTurn {context} (recorded : actor.Recorded maxSteps)
    (agrees : ∀ known, actor.context = some known → known = context) :
    (actor.passTurn context).Recorded maxSteps := by
  have here : actor.context.getD context = context := by
    cases known : actor.context with
    | none => rfl
    | some other => exact agrees other known
  have connects := chained_getD recorded.path.chained agrees
  exact ⟨⟨⟨context, congrArg some here, connects⟩, recorded.path.bounded,
    recorded.path.stops⟩, recorded.counted, recorded.running⟩

theorem recorded_takeStep {result} (recorded : actor.Recorded maxSteps)
    (active : actor.active maxSteps = true)
    (agrees : ∀ known, actor.context = some known → known = result.step.stepRef.before)
    (before : result.step.before = actor.current) (after : result.step.after = result.selectedAfter)
    (reached : result.step.stepRef.after = result.selectedAfterContext) :
    (actor.takeStep result).Recorded maxSteps := by
  unfold Actor.active at active
  rw [Bool.and_eq_true, Bool.and_eq_true, decide_eq_true_eq] at active
  obtain ⟨⟨_, going⟩, room⟩ := active
  have going : actor.stopped = false := by simpa using going
  have counted := recorded.counted
  have grown : (actor.steps ++ [result.step]).countP GumbelStep.rewrites ≤
      if result.step.action.isStop then actor.rewrites
      else actor.rewrites + 1 := by
    rw [countP_append, countP_singleton]
    unfold GumbelStep.rewrites at counted ⊢
    cases result.step.action.isStop with
    | true => simpa using counted
    | false => simpa using counted
  refine ⟨⟨⟨result.selectedAfterContext, rfl, ?_⟩, ?_, ?_⟩, grown, ?_⟩
  · have connects := chained_getD recorded.path.chained agrees
    have here : result.step.source = (actor.current, result.step.stepRef.before) :=
      Prod.ext before rfl
    have there : result.step.target = (result.selectedAfter, result.selectedAfterContext) :=
      Prod.ext after reached
    exact there ▸ connects.concat here
  · refine grown.trans ?_
    split
    · exact room.le
    · exact room
  · intro step member
    have earlier : step ∈ (actor.steps ++ [result.step]).dropLast := member
    rw [dropLast_concat] at earlier
    exact recorded.running going step earlier
  · intro still step member
    rcases mem_append.mp member with earlier | last
    · exact recorded.running going step earlier
    rw [mem_singleton.mp last]
    have still : (actor.stopped || result.step.action.isStop) = false := still
    rw [going, Bool.false_or] at still
    unfold GumbelStep.rewrites
    rw [still]
    rfl

theorem wellFormed_trace {identity finalMeasure} (recorded : actor.Recorded maxSteps) :
    (actor.trace identity finalMeasure).path.WellFormed maxSteps := by
  refine ⟨⟨_, rfl, ?_⟩, recorded.path.bounded, recorded.path.stops⟩
  refine chained_getD recorded.path.chained fun known found => ?_
  rw [found]
  rfl

end Actors

namespace TurnRecord

/-- Who moves after a turn, if anyone can. -/
def next (record : TurnRecord) : GumbelPlayer :=
  if record.opponentActive then record.player.opponent else record.player

end TurnRecord

/-- Where the turn is after the last turn that was taken. -/
structure EpisodeTask.Turning (task : EpisodeTask G C F) (record : TurnRecord) : Prop where
  active : record.opponentActive = task.actorActive record.player.opponent
  turn : task.state = .turn → task.player = record.player.opponent ∨
    (task.player = record.player ∧ record.opponentActive = false)
  root : ∀ rootTask, task.state = .root rootTask → task.player = record.next

section Turns

variable {task final : EpisodeTask G C F}

section

variable (learns : task.Learns final)
include learns

theorem EpisodeTask.Learns.actorActive (player : GumbelPlayer) :
    final.actorActive player = task.actorActive player := by
  obtain ⟨context, same, _⟩ := learns.actors player
  unfold EpisodeTask.actorActive
  rw [same, learns.config]
  rfl

theorem EpisodeTask.Learns.anyActive : final.anyActive = task.anyActive := by
  unfold EpisodeTask.anyActive
  rw [learns.actorActive, learns.actorActive]

theorem EpisodeTask.Learns.turnCount (player : GumbelPlayer) :
    (final.actors.of player).turnCount = (task.actors.of player).turnCount := by
  obtain ⟨context, same, _⟩ := learns.actors player
  rw [same]
  rfl

theorem turnBetween_learns : turnBetween task final = [] := by
  unfold turnBetween
  rw [map_eq_nil_iff, filter_eq_nil_iff]
  intro player _
  rw [learns.turnCount]
  simp

end

variable {result : SymmetricRootResult G C F}

theorem afterTurn_of_ne {player} (other : player ≠ result.player) :
    (task.afterTurn result).actors.of player = task.actors.of player := by
  cases result with
  | pass passed context => exact PerPlayer.of_update_of_ne _ _ other
  | action result => exact PerPlayer.of_update_of_ne _ _ other

theorem actorActive_afterTurn {player} (other : player ≠ result.player) :
    (task.afterTurn result).actorActive player = task.actorActive player := by
  unfold EpisodeTask.actorActive
  rw [afterTurn_of_ne other]
  cases result with
  | pass | action => rfl

theorem turnCount_afterTurn (active : task.actorActive result.player = true) :
    ((task.afterTurn result).actors.of result.player).turnCount =
      (task.actors.of result.player).turnCount + 1 := by
  unfold EpisodeTask.actorActive Actor.active at active
  rw [Bool.and_eq_true, Bool.and_eq_true] at active
  have free : (task.actors.of result.player).blocked = false := by
    simpa using active.1.1
  cases result with
  | pass player context =>
    change ((task.actors.update player _).of player).turnCount = _
    rw [PerPlayer.of_update_same]
    unfold Actor.turnCount
    change (task.actors.of player).blocked = false at free
    rw [show (SymmetricRootResult.pass player context :
      SymmetricRootResult G C F).player = player from rfl, free]
    rfl
  | action result =>
    change ((task.actors.update result.player _).of result.player).turnCount = _
    rw [PerPlayer.of_update_same]
    unfold Actor.turnCount Actor.takeStep
    rw [length_append, add_right_comm]
    rfl

theorem opponent_ne (player : GumbelPlayer) : player.opponent ≠ player := by
  cases player <;> decide

theorem turnBetween_afterTurn (active : task.actorActive result.player = true)
    (learns : (task.afterTurn result).Learns final) :
    turnBetween task final = [⟨result.player, task.actorActive result.player.opponent⟩] := by
  have more : (task.actors.of result.player).turnCount <
      (final.actors.of result.player).turnCount := by
    rw [learns.turnCount, turnCount_afterTurn active]
    exact Nat.lt_succ_self _
  have same : ¬ (task.actors.of result.player.opponent).turnCount <
      (final.actors.of result.player.opponent).turnCount := by
    rw [learns.turnCount, afterTurn_of_ne (opponent_ne _)]
    exact lt_irrefl _
  have opponent : final.actorActive result.player.opponent =
      task.actorActive result.player.opponent :=
    (learns.actorActive _).trans (actorActive_afterTurn (opponent_ne _))
  unfold turnBetween
  rw [← opponent]
  cases player : result.player with
  | one =>
    rw [player] at more same
    have same : ¬ (task.actors.of .two).turnCount < (final.actors.of .two).turnCount := same
    rw [filter_cons_of_pos (by simpa using more),
      filter_cons_of_neg (by simpa using same)]
    rfl
  | two =>
    rw [player] at more same
    have same : ¬ (task.actors.of .one).turnCount < (final.actors.of .one).turnCount := same
    rw [filter_cons_of_neg (by simpa using same),
      filter_cons_of_pos (by simpa using more)]
    rfl

end Turns

/-! ## Rounds -/

def EpisodeTask.Recorded (task : EpisodeTask G C F) : Prop :=
  ∀ player, (task.actors.of player).Recorded task.config.maxSteps

/-- A root task is at work for a player who can move, and a measurement is
due when nobody can. -/
structure EpisodeTask.InTurn (task : EpisodeTask G C F) (last : Option TurnRecord) : Prop where
  active : ∀ rootTask, task.state = .root rootTask → task.actorActive task.player = true
  closing : task.state = .measurePair → task.anyActive = false
  turning : ∀ record, last = some record → task.Turning record

section Rounds

variable {task final : EpisodeTask G C F} {last : Option TurnRecord} {record : TurnRecord}

theorem EpisodeTask.Recorded.learns (recorded : task.Recorded)
    (learns : task.Learns final) : final.Recorded := by
  intro player
  obtain ⟨context, same, keeps⟩ := learns.actors player
  rw [same, learns.config]
  exact recorded_learns (recorded player) keeps

theorem recorded_afterTurn {result} (recorded : task.Recorded)
    (active : task.actorActive result.player = true) (ends : task.stand.Ends result) :
    (task.afterTurn result).Recorded := by
  have agrees {player : GumbelPlayer} {context : ReplayGraphContext}
      (agrees : task.stand.Agrees player context) :
      ∀ known, (task.actors.of player).context = some known → known = context := by
    intro known found
    rw [← contexts_stand] at found
    exact agrees known found
  have same : (task.afterTurn result).config = task.config := by
    cases result with
    | pass | action => rfl
  intro player
  rw [same]
  by_cases here : player = result.player
  · subst here
    cases result with
    | pass player context =>
      change ((task.actors.update player _).of player).Recorded _
      rw [PerPlayer.of_update_same]
      exact recorded_passTurn (recorded player) (agrees ends)
    | action result =>
      obtain ⟨left, before, after, reached, _⟩ := ends
      change ((task.actors.update result.player _).of result.player).Recorded _
      rw [PerPlayer.of_update_same]
      rw [graphs_stand] at before
      exact recorded_takeStep (recorded result.player) active (agrees left) before after reached
  · rw [afterTurn_of_ne here]
    exact recorded player

variable [Scalar F] [DecidableEq G] [DecidableEq C] {fuel : Nat}

theorem EpisodeTask.Records.recorded (records : task.Records fuel final)
    (recorded : task.Recorded) (turn : task.InTurn last)
    (searching : task.Searching) : final.Recorded := by
  cases records with
  | kept learns => exact recorded.learns learns
  | @turned rootTask next result state polls same learns =>
    have ends := polls.searches (searching _ state)
    have active : task.actorActive result.player = true := same ▸ turn.active _ state
    have after : (task.leaveRoot next result).Recorded := recorded_afterTurn recorded active ends
    exact EpisodeTask.Recorded.learns after learns

omit [Scalar F] [DecidableEq G] [DecidableEq C] in
theorem anyActive_eq (task : EpisodeTask G C F) (player : GumbelPlayer) : task.anyActive =
      (task.actorActive player || task.actorActive player.opponent) := by
  cases player with
  | one => rfl
  | two => exact Bool.or_comm _ _

omit [Scalar F] [DecidableEq G] [DecidableEq C] in
theorem inTurn_started (state : task.state = .turn) (turn : task.InTurn last) :
    (EpisodeTask.started { task with state := .done }).InTurn last := by
  have kept {next : EpisodeTask G C F} (same : next.actors = task.actors)
      (config : next.config = task.config) (record : TurnRecord)
      (turning : task.Turning record) :
      record.opponentActive = next.actorActive record.player.opponent := by
    rw [turning.active]
    unfold EpisodeTask.actorActive
    rw [same, config]
  unfold EpisodeTask.started
  split
  · next none =>
    refine ⟨fun _ root => (by cases root), fun _ => ?_,
      fun record same => ⟨kept rfl rfl record (turn.turning record same),
        fun turn => (by cases turn), fun _ root => (by cases root)⟩⟩
    exact Bool.not_eq_true' _ |>.mp none
  next some =>
  have some : task.anyActive = true := by
    have some : ¬ (!task.anyActive) = true := some
    simpa using some
  split
  · next passive =>
    have passive : (!task.actorActive task.player) = true := passive
    rw [Bool.not_eq_true'] at passive
    refine ⟨fun _ root => (by cases root), fun root => (by cases root),
      fun record same => ?_⟩
    have turning := turn.turning record same
    refine ⟨kept rfl rfl record turning, fun _ => ?_, fun _ root => (by cases root)⟩
    rcases turning.turn state with opponent | ⟨mover, idle⟩
    · right
      refine ⟨?_, ?_⟩
      · rw [opponent]
        cases record.player <;> rfl
      · rw [turning.active, ← opponent]
        exact passive
    · rw [anyActive_eq task record.player, ← mover, passive, mover, ← turning.active, idle] at some
      cases some
  next active =>
  have active : task.actorActive task.player = true := by
    have active : ¬ (!task.actorActive task.player) = true := active
    simpa using active
  refine ⟨fun _ _ => active, fun root => (by cases root),
    fun record same => ?_⟩
  have turning := turn.turning record same
  refine ⟨kept rfl rfl record turning, fun turn => (by cases turn),
    fun _ _ => ?_⟩
  unfold TurnRecord.next
  rcases turning.turn state with opponent | ⟨mover, idle⟩
  · rw [turning.active, ← opponent, if_pos active]
  · rw [idle]
    exact mover

omit [Scalar F] [DecidableEq G] [DecidableEq C] in
theorem inTurn_keepRoot {rootTask} (next : RootTask G C F) (turn : task.InTurn last)
    (state : task.state = .root rootTask) :
    (task.keepRoot next).InTurn last where
  active _ _ := turn.active rootTask state
  closing root := by cases root
  turning record same :=
    ⟨(turn.turning record same).active, fun turn => (by cases turn),
      fun _ _ => (turn.turning record same).root rootTask state⟩

omit [Scalar F] [DecidableEq G] [DecidableEq C] in
theorem player_afterTurn (task : EpisodeTask G C F) (result : SymmetricRootResult G C F) :
    (task.afterTurn result).player = task.player.opponent := by
  cases result with
  | pass | action => rfl

omit [Scalar F] [DecidableEq G] [DecidableEq C] in
theorem turned_player (opponent : task.player = record.player.opponent)
    (same : record.opponentActive = task.actorActive record.player.opponent)
    (active : task.turned.actorActive task.turned.player = true) :
    task.turned.player = record.next := by
  unfold TurnRecord.next
  unfold EpisodeTask.turned at active ⊢
  rw [same, ← opponent]
  cases able : task.actorActive task.player with
  | true =>
    rw [if_neg (by simp), if_pos rfl]
  | false =>
    rw [able] at active
    split
    · rw [opponent]
      cases record.player <;> rfl
    · next still =>
      rw [if_neg still, able] at active
      cases active

theorem Rounds.inTurn {outcome} (turn : task.InTurn last)
    (rounds : Rounds fuel task outcome final) :
    final.InTurn ((turnBetween task final).getLast?.or last) ∧ (turnBetween task final = [] ∨
        ∃ record, turnBetween task final = [record] ∧ ∀ previous, last = some previous →
            record.player = previous.next) := by
  -- What follows from a root task that has come to its end.
  have ended {rootTask : RootTask G C F} (next : RootTask G C F)
      {result : SymmetricRootResult G C F}
      (state : task.state = .root rootTask)
      (same : result.player = task.player)
      (learns : (task.leaveRoot next result).Learns final) :
      turnBetween task final = [⟨result.player, task.actorActive result.player.opponent⟩] ∧
        task.actorActive result.player.opponent = final.actorActive result.player.opponent ∧
        ∀ previous, last = some previous → result.player = previous.next := by
    have active : task.actorActive result.player = true := same ▸ turn.active _ state
    have between : turnBetween { task.appendReleasable
          next.takeReleasable.1 with state := .done } final =
        [⟨result.player, task.actorActive result.player.opponent⟩] :=
      turnBetween_afterTurn active learns
    refine ⟨between, ?_, fun previous found => ?_⟩
    · refine ((learns.actorActive _).trans ?_).symm
      exact actorActive_afterTurn (opponent_ne _)
    · exact same.trans ((turn.turning previous found).root rootTask state)
  have quiet (learns : task.Learns final) (after : final.InTurn last) :
      final.InTurn ((turnBetween task final).getLast?.or last) ∧ (turnBetween task final = [] ∨
          ∃ record, turnBetween task final = [record] ∧ ∀ previous, last = some previous →
              record.player = previous.next) := by
    rw [turnBetween_learns learns]
    exact ⟨after, .inl rfl⟩
  cases rounds with
  | start state =>
    refine quiet ?_ (inTurn_started state turn)
    exact (learns_of_same rfl rfl rfl rfl :
      task.Learns { task with state := .done }).trans (learns_started _)
  | @work rootTask next work state polls =>
    have kept : (task.keepRoot next).InTurn last := inTurn_keepRoot _ turn state
    exact quiet (learns_of_same rfl rfl rfl rfl) ⟨kept.active, kept.closing, fun record same =>
        ⟨(kept.turning record same).active, (kept.turning record same).turn,
          (kept.turning record same).root⟩⟩
  | blocked state polls =>
    exact quiet (learns_of_same rfl rfl rfl rfl) (inTurn_keepRoot _ turn state)
  | @next rootTask next left result state polls alone same reuses =>
    obtain ⟨between, opponent, follows⟩ := ended next state same
      (learns_appendReleasable (task.leaveRoot next result) _)
    have ends : (task.leaveRoot next result).state = .turn := (afterTurn_keeps _ _).2.2
    have player : (task.leaveRoot next result).player = result.player.opponent :=
      (player_afterTurn _ _).trans (congrArg GumbelPlayer.opponent same.symm)
    rw [between]
    refine ⟨⟨fun _ root => ?_, fun root => ?_, fun record found => ?_⟩, .inr ⟨_, rfl, follows⟩⟩
    · cases ends.symm.trans root
    · cases ends.symm.trans root
    · cases found
      exact ⟨opponent, fun _ => .inl player, fun _ root => by
        cases ends.symm.trans root⟩
  | @reuse rootTask next left reused aligned result contexts turned state
      polls alone same reuses turns aligns active =>
      have put := learns_appendReleasable (task.leaveRoot next result) left.takeAllHandles.1
      have goes : (task.leaveRoot next result).Learns turned := turns ▸ put.trans (learns_turned _)
      have continues : turned.Learns (turned.continued aligned contexts) := learns_continued aligns
      obtain ⟨between, opponent, follows⟩ := ended next state same (goes.trans continues)
      have player : (task.leaveRoot next result).player = result.player.opponent :=
        (player_afterTurn _ _).trans (congrArg GumbelPlayer.opponent same.symm)
      have mover : turned.player = TurnRecord.next
          ⟨result.player, task.actorActive result.player.opponent⟩ := by
        subst turns
        refine turned_player player ?_ active
        rw [opponent, continues.actorActive, (learns_turned _).actorActive]
      rw [between]
      refine ⟨⟨fun _ _ => ?_, fun root => (by cases root),
        fun record found => ?_⟩, .inr ⟨_, rfl, follows⟩⟩
      · exact (continues.actorActive _).trans active
      · cases found
        exact ⟨opponent, fun turn => (by cases turn), fun _ _ => mover⟩
  | measure | finished =>
    refine quiet (learns_of_same rfl rfl rfl rfl) ?_
    exact ⟨fun _ root => (by cases root), fun root => (by cases root),
      fun record same => ⟨(turn.turning record same).active,
        fun turn => (by cases turn), fun _ root => (by cases root)⟩⟩

end Rounds

end GraphZero.Search
