import GraphZero.Foundation.Result
import GraphZero.Search.MctsMoves
import GraphZero.Search.MctsStrategies
import GraphZero.Search.VisitSchedule

/-!
# The budget of a single-agent search

Whatever the engine and the evaluator answer, a search makes no more
simulations than its strategy has room for, and no poll goes on for ever.
PUCT makes all that it is configured for.
-/

namespace GraphZero.Search

open Engine Foundation Effect

variable {R G C F : Type} [Scalar F]

/-- A task that some search comes to before it ends, from scratch or with a
subtree that an earlier one left. -/
inductive Searched (strategy : MctsStrategy R G C F) : MctsRootTask R G C F → Prop
  | fresh (config : MctsConfig) (identity : EngineIdentity) (root : G)
    (context : MctsSearchContext F) : Searched strategy (.new config identity root context)
  | reused {task next : MctsRootTask R G C F} {action root expected context handles}
    (reuses : task.reusedChildTask strategy action root expected context =
      .ok (some (next, handles))) : Searched strategy next
  | visited {task} (searched : Searched strategy task) (visited : Finset ReplayGraphContext)
    : Searched strategy (task.setVisited visited)
  | poll {task next fuel polled} (searched : Searched strategy task)
    (done : (MctsRootTask.poll strategy fuel).perform task = (.ok polled, next))
    (going : ∀ result, polled ≠ .done result) : Searched strategy next
  | resume {task next token result} (searched : Searched strategy task)
    (done : (MctsRootTask.resume strategy token result).perform task = (.ok (), next)) :
    Searched strategy next

section Budget

variable {strategy : MctsStrategy R G C F} {limit : R → Nat}

/-- The strategy has room for the simulation under way. -/
def MctsPhase.Within (limit : R → Nat) : MctsPhase R G → Prop
  | searching run | applying run _ | expanding _ run =>
    run.simulations + (if run.descent.isSome then 1 else 0) ≤ limit run.strategy
  | opening | ended => True

theorem within_of_searches (bounded : strategy.Bounded limit) {move before after}
    (moves : Searches strategy move before after) (within : before.phase.Within limit) :
    after.phase.Within limit := by
  cases moves with
  | begin idle found chosen => exact bounded.limited _ _ _ _ chosen
  | stop under | turnBack under | revisit under | attach under | apply under | enter under
  | leave under =>
    dsimp only [MctsPhase.Within] at within ⊢
    rw [under] at within
    first
      | exact within
      | rw [under]
        exact within

theorem within_of_searchesTo (bounded : strategy.Bounded limit) {before after}
    (moves : SearchesTo strategy before after) (within : before.phase.Within limit) :
    after.phase.Within limit := by
  induction moves with
  | refl => exact within
  | tail _ move ih => exact within_of_searches bounded move ih

theorem within_of_searched (bounded : strategy.Bounded limit) {task}
    (searched : Searched strategy task) : task.Asks ∧ task.phase.Within limit := by
  induction searched with
  | fresh => exact ⟨⟨by rintro _ _ ⟨⟩, by rintro _ _ _ _ ⟨⟩⟩, trivial⟩
  | reused reuses =>
    unfold MctsRootTask.reusedChildTask at reuses
    split at reuses
    · obtain ⟨child, _, reuses⟩ := ok_of_bind reuses
      cases child with
      | none => cases reuses
      | some childIndex =>
        obtain ⟨⟨tree, rootContext, handles⟩, _, reuses⟩ := ok_of_bind reuses
        dsimp only at reuses
        split at reuses
        · cases reuses
        split at reuses
        · cases reuses
        cases reuses
        exact ⟨⟨by rintro _ _ ⟨⟩, by rintro _ _ _ _ ⟨⟩⟩, Nat.zero_le _⟩
    · cases reuses
  | visited _ visited ih => exact ⟨⟨ih.1.emits, ih.1.awaits⟩, ih.2⟩
  | @poll task next fuel polled _ done going ih =>
    have after := (@MctsRootTask.endsAt_poll R G C F _ strategy limit task False False.elim
      ih.1 fuel False.elim).ok done
    rcases polled with work | _ | result
    · exact ⟨after.2.1, within_of_searchesTo bounded after.1 ih.2⟩
    · obtain rfl : next = task := after
      exact ih
    · exact absurd rfl (going result)
  | @resume task next token result _ done ih =>
    obtain ⟨asks, _, resumed⟩ := (@MctsRootTask.endsAt_resume R G C F _ strategy task False
      ih.1 token result).ok done
    refine ⟨asks, ?_⟩
    change next.stand.phase.Within limit
    cases resumed with
    | waits same =>
      rw [same]
      exact ih.2
    | opens _ _ _ stand =>
      rw [stand]
      exact Nat.zero_le _
    | moves moves => exact within_of_searches bounded moves ih.2

variable {task final : MctsRootTask R G C F} {fuel : Nat}

/-- What is left of the budget bounds the rounds of a poll. -/
theorem exists_fuel (bounded : strategy.Bounded limit) (searched : Searched strategy task) :
    ∃ enough, ∀ fuel ≥ enough, ∀ final,
      (MctsRootTask.poll strategy fuel).perform task ≠ (.error .unfinished, final) := by
  obtain ⟨enough, covers⟩ : ∃ enough, ∀ run, task.state = .running run →
      limit run.strategy + 2 < enough := by
    cases task.state with
    | running run =>
      exact ⟨limit run.strategy + 3, fun _ same => by cases same; exact Nat.lt_succ_self _⟩
    | _ => exact ⟨0, by rintro _ ⟨⟩⟩
  refine ⟨enough, fun fuel more final failed => ?_⟩
  exact (MctsRootTask.endsAt_poll (fun _ : True => bounded) (within_of_searched bounded searched).1
    fun _ run running => (covers run running).trans_le more).error failed trivial rfl

/-- Where a search ends the strategy would not go on, and the result counts
the simulations of the run. -/
theorem ends_of_searched (bounded : strategy.Bounded limit) (searched : Searched strategy task)
    {result} (done : (MctsRootTask.poll strategy fuel).perform task = (.ok (.done result), final)) :
    ∃ (run : RunState R) (root : MctsNode G C F), run.simulations ≤ limit run.strategy ∧
      strategy.selectRoot run.strategy root run.simulations = .ok none ∧
      result.stats.simulations = run.simulations := by
  obtain ⟨asks, within⟩ := within_of_searched bounded searched
  obtain ⟨_, _, run, root, chosen, moves, finishes⟩ :=
    (@MctsRootTask.endsAt_poll R G C F _ strategy limit task False False.elim
      asks fuel False.elim).ok done
  have room := within_of_searchesTo bounded moves within
  refine ⟨run, root, (Nat.le_add_right _ _).trans room, finishes.ends, ?_⟩
  have found := finishes.result
  obtain ⟨_, _, found⟩ := ok_of_bind found
  obtain ⟨_, _, found⟩ := ok_of_bind found
  obtain ⟨_, _, found⟩ := ok_of_bind found
  split at found
  · cases found
  obtain ⟨_, _, found⟩ := ok_of_bind found
  obtain ⟨_, _, found⟩ := ok_of_bind found
  cases found
  rfl

end Budget

section Strategies

variable {F : Type} [PowerScalar F]

theorem bounded_puct (config : PuctMctsConfig F) :
    (puctStrategy G C config).Bounded fun _ => config.simulations := by
  have selects (node : MctsNode G C F) :
      PuctStrategy.selectAction node config.cPuct ≠ .error .unfinished := by
    unfold PuctStrategy.selectAction
    dsimp only
    split <;> rintro ⟨⟩
  refine ⟨fun state root simulations action chosen => ?_, fun state root simulations => ?_,
    fun state node => selects node, fun state root context => ?_⟩
  · change PuctStrategy.selectRoot config state root simulations = _ at chosen
    unfold PuctStrategy.selectRoot at chosen
    split at chosen
    · assumption
    · cases chosen
  · change PuctStrategy.selectRoot config state root simulations ≠ _
    unfold PuctStrategy.selectRoot
    split
    · intro failed
      cases chosen : PuctStrategy.selectAction root config.cPuct with
      | ok action =>
        rw [chosen] at failed
        cases failed
      | error failure =>
        rw [chosen] at failed
        cases failed
        exact selects root chosen
    · rintro ⟨⟩
  · change PuctStrategy.finishRoot state root context ≠ _
    unfold PuctStrategy.finishRoot
    dsimp only
    split <;> rintro ⟨⟩

/-- PUCT makes all its simulations, and its polls end. -/
theorem puct_spends_budget (config : PuctMctsConfig F)
    {task : MctsRootTask PuctRootState G C F}
    (searched : Searched (puctStrategy G C config) task) :
    (∃ enough, ∀ fuel ≥ enough, ∀ final,
      (MctsRootTask.poll (puctStrategy G C config) fuel).perform task ≠
        (.error .unfinished, final)) ∧
    ∀ fuel result final,
      (MctsRootTask.poll (puctStrategy G C config) fuel).perform task =
        (.ok (.done result), final) →
        result.stats.simulations = config.simulations := by
  have bounded := bounded_puct (G := G) (C := C) config
  refine ⟨exists_fuel bounded searched, fun fuel result final done => ?_⟩
  obtain ⟨run, root, room, ends, counted⟩ := ends_of_searched bounded searched done
  have whole : ¬ run.simulations < config.simulations := by
    intro more
    change PuctStrategy.selectRoot config run.strategy root run.simulations = _ at ends
    unfold PuctStrategy.selectRoot at ends
    rw [if_pos more] at ends
    cases chosen : PuctStrategy.selectAction root config.cPuct with
    | ok action =>
      rw [chosen] at ends
      cases ends
    | error failure =>
      rw [chosen] at ends
      cases ends
  rw [counted]
  exact room.antisymm (Nat.le_of_not_lt whole)

end Strategies

/-- One simulation of a root whose only action is to stop. -/
def MctsSample.puct : PuctMctsConfig (Exact ℚ) where
  maxSteps := 1
  simulations := 1
  simulations_pos := Nat.one_pos
  cPuct := .finite 1
  seed := 0
  temperatureMoves := 0
  treeReuse := false
  exportPosition := false
  maskStop := false
  noBacktrack := false
  candidateOptions := ⟨none, true⟩
  measureOptions := ⟨0, 1, none, true⟩

/-- The root is expanded and evaluated before the last poll. -/
theorem puct_spends_budget_once : ∃ task : MctsRootTask PuctRootState Nat Nat (Exact ℚ),
    (∃ run, task.state = .running run) ∧
      (∃ enough, ∀ fuel ≥ enough, ∀ final,
        (MctsRootTask.poll (puctStrategy Nat Nat MctsSample.puct) fuel).perform task ≠
          (.error .unfinished, final)) ∧
      ∀ fuel result final,
        (MctsRootTask.poll (puctStrategy Nat Nat MctsSample.puct) fuel).perform task =
          (.ok (.done result), final) → result.stats.simulations = 1 := by
  have searched : Searched (puctStrategy Nat Nat MctsSample.puct) _ :=
    .fresh MctsSample.puct.commonConfig ⟨0, 0, 0⟩ 0
      ⟨0, .finite 0, .finite 0, .finite 0, 0, false⟩
  have searched := @Searched.poll _ _ _ _ _ _ _ _ 1 _ searched rfl (by rintro _ ⟨⟩)
  have searched := @Searched.resume _ _ _ _ _ _ _ _ ⟨0⟩ (.expand ⟨100, []⟩) searched rfl
  have searched := @Searched.poll _ _ _ _ _ _ _ _ 1 _ searched rfl (by rintro _ ⟨⟩)
  have searched := @Searched.resume _ _ _ _ _ _ _ _ ⟨1⟩ (.eval ⟨0, [.finite 0], .finite 0⟩)
    searched rfl
  exact ⟨_, ⟨_, rfl⟩, puct_spends_budget MctsSample.puct searched⟩

end GraphZero.Search
