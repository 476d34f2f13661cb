import Mathlib.Algebra.Group.Basic
import Mathlib.Data.List.Forall2

/-!
# Stateful computations that may fail

A computation changes a state and may fail; what it changed before it failed
stays changed.  `Keeps` says which part of the state it leaves alone, and
`Balances` is a contract for resources: the state holds some, a computation is
handed more and hands some back with its value, and a failure leaves
everything with the state.
-/

namespace GraphZero.Foundation

universe u

/-- A computation on states `σ` that returns an `α` or fails with an `ε`. -/
abbrev Effect (ε σ α : Type u) : Type u :=
  ExceptT ε (StateM σ) α

namespace Effect

variable {ε σ α β γ : Type u}

/-- What a computation returns from `state`, and what it leaves. -/
def perform (computation : Effect ε σ α) (state : σ) : Except ε α × σ :=
  computation state

/-- A computation whose failure is a value. -/
def attempt (computation : Effect ε σ α) : Effect ε σ (Except ε α) :=
  fun state =>
    let (result, next) := computation.perform state
    (.ok result, next)

/-- At most `fuel` rounds of `body`, which says whether to go on; a loop that
is still going then fails with `exhausted`. -/
def loop (exhausted : ε) (body : β → Effect ε σ (β ⊕ α)) : (fuel : Nat) → β → Effect ε σ α
  | 0, _ => throw exhausted
  | fuel + 1, start => do
      match ← body start with
      | .inl next => loop exhausted body fuel next
      | .inr value => pure value

@[simp]
theorem perform_pure (value : α) (state : σ) :
    (pure value : Effect ε σ α).perform state = (.ok value, state) :=
  rfl

@[simp]
theorem perform_throw (failure : ε) (state : σ) :
    (throw failure : Effect ε σ α).perform state = (.error failure, state) :=
  rfl

@[simp]
theorem perform_get (state : σ) : (get : Effect ε σ σ).perform state = (.ok state, state) :=
  rfl

@[simp]
theorem perform_set (next state : σ) :
    (set next : Effect ε σ PUnit).perform state = (.ok ⟨⟩, next) :=
  rfl

@[simp]
theorem perform_modify (change : σ → σ) (state : σ) :
    (modify change : Effect ε σ PUnit).perform state = (.ok ⟨⟩, change state) :=
  rfl

theorem perform_attempt (computation : Effect ε σ α) (state : σ) :
    computation.attempt.perform state =
      (.ok (computation.perform state).1, (computation.perform state).2) :=
  rfl

theorem perform_bind (first : Effect ε σ α) (rest : α → Effect ε σ β) (state : σ) :
    (first >>= rest).perform state = match first.perform state with
      | (.ok value, next) => (rest value).perform next
      | (.error failure, next) => (.error failure, next) := by
  change (ExceptT.bind first rest : Effect ε σ β) state = _
  unfold ExceptT.bind ExceptT.mk perform
  change (ExceptT.bindCont rest (first state).1) (first state).2 = _
  rcases first state with ⟨_ | value, next⟩
  · rfl
  · rfl

theorem perform_get_bind (rest : σ → Effect ε σ β) (state : σ) :
    (get >>= rest : Effect ε σ β).perform state = (rest state).perform state :=
  rfl

variable {first : Effect ε σ α} {rest : α → Effect ε σ β} {state final : σ}

theorem perform_bind_ok {state next value} (done : first.perform state = (.ok value, next)) :
    (first >>= rest).perform state = (rest value).perform next := by
  rw [perform_bind, done]

theorem perform_bind_error {state next failure}
    (failed : first.perform state = (.error failure, next)) :
    (first >>= rest).perform state = (.error failure, next) := by
  rw [perform_bind, failed]

theorem perform_bind_eq_ok {value} (done : (first >>= rest).perform state = (.ok value, final)) :
    ∃ between mid, first.perform state = (.ok between, mid) ∧
      (rest between).perform mid = (.ok value, final) := by
  cases half : first.perform state with
  | mk result mid =>
    cases result with
    | error failure =>
      rw [perform_bind_error half] at done
      cases done
    | ok between =>
      rw [perform_bind_ok half] at done
      exact ⟨between, mid, rfl, done⟩

theorem perform_pure_eq_ok {value result state final}
    (done : (pure value : Effect ε σ α).perform state =
      (.ok result, final)) : result = value ∧ final = state := by
  cases done
  exact ⟨rfl, rfl⟩

theorem perform_throw_ne_ok {failure value state final} :
    (throw failure : Effect ε σ α).perform state ≠ (.ok value, final) :=
  nofun

/-- What each round that goes on keeps holds before the round that ends a
loop. -/
theorem perform_loop_cases {exhausted body} (inside : β → σ → Prop)
    (keeps : ∀ start state next mid, inside start state →
      (body start).perform state = (.ok (.inl next), mid) → inside next mid)
    {fuel start state final} {outcome : Except ε α} (begun : inside start state)
    (settled : outcome ≠ .error exhausted)
    (done : (loop exhausted body fuel start).perform state = (outcome, final)) :
    ∃ last mid, inside last mid ∧ (body last).perform mid = (outcome.map .inr, final) := by
  induction fuel generalizing start state with
  | zero =>
    cases done
    exact absurd rfl settled
  | succ fuel ih =>
    unfold loop at done
    rw [perform_bind] at done
    rcases round : (body start).perform state with ⟨early | turn, mid⟩
    · rw [round] at done
      cases done
      exact ⟨start, state, begun, round⟩
    · rw [round] at done
      cases turn with
      | inl next => exact ih (keeps _ _ _ _ begun round) done
      | inr result =>
        cases done
        exact ⟨start, state, begun, round⟩

/-- The computation leaves what `view` shows as it is, also when it fails. -/
def Keeps {τ : Type*} (view : σ → τ) (computation : Effect ε σ α) : Prop :=
  ∀ state, view (computation.perform state).2 = view state

section Keeps

variable {τ : Type*} {view : σ → τ}

theorem Keeps.eq {computation : Effect ε σ α} (keeps : computation.Keeps view) {state next result}
    (done : computation.perform state = (result, next)) :
    view next = view state := by
  have same := keeps state
  rw [done] at same
  exact same

theorem keeps_pure (value : α) : (pure value : Effect ε σ α).Keeps view :=
  fun _ => rfl

theorem keeps_throw (failure : ε) : (throw failure : Effect ε σ α).Keeps view :=
  fun _ => rfl

theorem keeps_get : (get : Effect ε σ σ).Keeps view :=
  fun _ => rfl

theorem keeps_modify {change} (same : ∀ state, view (change state) = view state) :
    (modify change : Effect ε σ PUnit).Keeps view :=
  same

theorem Keeps.bind {first : Effect ε σ α} {rest : α → Effect ε σ β}
    (head : first.Keeps view) (tail : ∀ value, (rest value).Keeps view) :
    (first >>= rest).Keeps view := by
  intro state
  rw [perform_bind]
  rcases done : first.perform state with ⟨failure | value, next⟩
  · exact head.eq done
  · exact (tail value next).trans (head.eq done)

theorem Keeps.comp {δ : Type*} {computation : Effect ε σ α}
    (keeps : computation.Keeps view) (part : τ → δ) :
    computation.Keeps fun state => part (view state) :=
  fun state => congrArg part (keeps state)

end Keeps

/-- From `state` the computation ends in a state that is `good`, also when it
fails. -/
def LeavesAt (good : σ → Prop) (computation : Effect ε σ α) (state : σ) : Prop :=
  good (computation.perform state).2

section Leaves

variable {good : σ → Prop} {state : σ}

theorem LeavesAt.eq {computation : Effect ε σ α} (leaves : computation.LeavesAt good state)
    {next result} (done : computation.perform state = (result, next)) :
    good next := by
  unfold LeavesAt at leaves
  rw [done] at leaves
  exact leaves

theorem LeavesAt.bind {first : Effect ε σ α} {rest : α → Effect ε σ β}
    (head : first.LeavesAt good state)
    (tail : ∀ value next, first.perform state = (.ok value, next) →
      good next → (rest value).LeavesAt good next) :
    (first >>= rest).LeavesAt good state := by
  unfold LeavesAt
  rw [perform_bind]
  rcases done : first.perform state with ⟨failure | value, next⟩
  · exact head.eq done
  · exact tail value next done (head.eq done)

theorem leavesAt_get_bind {rest : σ → Effect ε σ β} (tail : (rest state).LeavesAt good state) :
    ((get : Effect ε σ σ) >>= rest).LeavesAt good state :=
  tail

theorem LeavesAt.attempt_bind {first : Effect ε σ α}
    {rest : Except ε α → Effect ε σ β} (head : first.LeavesAt good state)
    (tail : ∀ result next, first.perform state = (result, next) →
      good next → (rest result).LeavesAt good next) :
    (first.attempt >>= rest).LeavesAt good state := by
  unfold LeavesAt
  exact tail _ _ rfl head

end Leaves

/-! ## Outcomes -/

/-- From `state` the computation ends as `succeeds` says of its value, or
fails as `fails` says. -/
def EndsAt (succeeds : α → σ → Prop) (fails : ε → σ → Prop)
    (computation : Effect ε σ α) (state : σ) : Prop :=
  match computation.perform state with
  | (.ok value, next) => succeeds value next
  | (.error failure, next) => fails failure next

section Ends

variable {succeeds : α → σ → Prop} {fails : ε → σ → Prop} {state : σ}

variable {computation : Effect ε σ α}

theorem EndsAt.ok (ends : computation.EndsAt succeeds fails state) {next value}
    (done : computation.perform state = (.ok value, next)) :
    succeeds value next := by
  unfold EndsAt at ends
  rw [done] at ends
  exact ends

variable {failure : ε}

theorem EndsAt.error (ends : computation.EndsAt succeeds fails state) {next}
    (failed : computation.perform state = (.error failure, next)) :
    fails failure next := by
  unfold EndsAt at ends
  rw [failed] at ends
  exact ends

theorem endsAt_of_ok {next value} (done : computation.perform state = (.ok value, next))
    (holds : succeeds value next) :
    computation.EndsAt succeeds fails state := by
  unfold EndsAt
  rw [done]
  exact holds

theorem endsAt_of_error {next} (failed : computation.perform state = (.error failure, next))
    (holds : fails failure next) :
    computation.EndsAt succeeds fails state := by
  unfold EndsAt
  rw [failed]
  exact holds

theorem endsAt_pure {value} (holds : succeeds value state) :
    (pure value : Effect ε σ α).EndsAt succeeds fails state :=
  holds

theorem endsAt_throw (holds : fails failure state) :
    (throw failure : Effect ε σ α).EndsAt succeeds fails state :=
  holds

theorem endsAt_modify {change succeeds} (holds : succeeds ⟨⟩ (change state)) :
    (modify change : Effect ε σ PUnit).EndsAt succeeds fails state :=
  holds

theorem EndsAt.mono {more moreFails} (ends : computation.EndsAt succeeds fails state)
    (success : ∀ value next, succeeds value next → more value next)
    (failed : ∀ failure next, fails failure next → moreFails failure next) :
    computation.EndsAt more moreFails state := by
  rcases done : computation.perform state with ⟨failure | value, next⟩
  · exact endsAt_of_error done (failed _ _ (ends.error done))
  · exact endsAt_of_ok done (success _ _ (ends.ok done))

theorem EndsAt.bind {first} {rest : α → Effect ε σ β} {between succeeds}
    (head : first.EndsAt between fails state)
    (tail : ∀ value next, between value next → (rest value).EndsAt succeeds fails next) :
    (first >>= rest).EndsAt succeeds fails state := by
  rcases done : first.perform state with ⟨failure | value, next⟩
  · exact endsAt_of_error (perform_bind_error done) (head.error done)
  · have last := tail value next (head.ok done)
    unfold EndsAt
    rw [perform_bind_ok done]
    exact last

theorem endsAt_get_bind {rest} {succeeds : β → σ → Prop}
    (tail : (rest state).EndsAt succeeds fails state) :
    ((get : Effect ε σ σ) >>= rest).EndsAt succeeds fails state :=
  tail

theorem endsAt_modify_bind {change rest} {succeeds : β → σ → Prop}
    (tail : (rest ⟨⟩).EndsAt succeeds fails (change state)) :
    ((modify change : Effect ε σ PUnit) >>= rest).EndsAt succeeds fails state :=
  tail

theorem endsAt_set_bind {other rest} {succeeds : β → σ → Prop}
    (tail : (rest ⟨⟩).EndsAt succeeds fails other) :
    ((set other : Effect ε σ PUnit) >>= rest).EndsAt succeeds fails state :=
  tail

theorem endsAt_mapM {body : β → Effect ε σ α} {inside}
    (each : ∀ item state, inside state → (body item).EndsAt (fun _ => inside) fails state)
    (items : List β) (begun : inside state) :
    (items.mapM body).EndsAt (fun _ => inside) fails state := by
  induction items generalizing state with
  | nil => exact endsAt_pure begun
  | cons item items ih =>
    rw [List.mapM_cons]
    refine EndsAt.bind (each item state begun) fun _ next holds => ?_
    refine EndsAt.bind (ih holds) fun _ _ holds => ?_
    exact endsAt_pure holds

theorem endsAt_mapM_forall₂ {body : β → Effect ε σ α} {inside : σ → Prop} {relates} {items : List β}
    (each : ∀ item ∈ items, ∀ state, inside state →
      (body item).EndsAt (fun value next => relates item value ∧ inside next) fails state)
    (begun : inside state) :
    (items.mapM body).EndsAt (fun values next => List.Forall₂ relates items values ∧ inside next)
      fails state := by
  induction items generalizing state with
  | nil => exact endsAt_pure ⟨.nil, begun⟩
  | cons item items ih =>
    rw [List.mapM_cons]
    have here := each item List.mem_cons_self state begun
    have others := fun other member =>
      each other (List.mem_cons_of_mem _ member)
    refine EndsAt.bind here fun value next first => ?_
    refine EndsAt.bind (ih others first.2) fun values last rest => ?_
    exact endsAt_pure ⟨.cons first.1 rest.1, rest.2⟩

/-- What a round of a loop comes to: the loop goes on inside, or ends. -/
def Rounds (inside : β → σ → Prop) (succeeds : α → σ → Prop) : β ⊕ α → σ → Prop
  | .inl later, next => inside later next
  | .inr value, next => succeeds value next

theorem endsAt_loop {exhausted : ε} {body} (inside : β → σ → Prop) (countdown : β → σ → Nat)
    (round : ∀ start state, inside start state → (body start).EndsAt (Rounds
          (fun later next => inside later next ∧ countdown later next < countdown start state)
          succeeds)
        fails state) {fuel start} (begun : inside start state)
    (enough : countdown start state < fuel) :
    (loop exhausted body fuel start).EndsAt succeeds fails state := by
  induction fuel generalizing start state with
  | zero => exact absurd enough (Nat.not_lt_zero _)
  | succ fuel ih =>
    refine EndsAt.bind (round start state begun) ?_
    intro outcome next holds
    cases outcome with
    | inl later => exact ih holds.1 (Nat.lt_of_lt_of_le holds.2 (Nat.le_of_lt_succ enough))
    | inr value => exact endsAt_pure holds

theorem endsAt_loop_of_cut {exhausted : ε} {body} (inside : β → σ → Prop)
    (round : ∀ start state, inside start state →
      (body start).EndsAt (Rounds inside succeeds) fails state)
    (cut : ∀ start state, inside start state → fails exhausted state) {fuel start}
    (begun : inside start state) :
    (loop exhausted body fuel start).EndsAt succeeds fails state := by
  induction fuel generalizing start state with
  | zero => exact endsAt_throw (cut start state begun)
  | succ fuel ih =>
    refine EndsAt.bind (round start state begun) ?_
    intro outcome next holds
    cases outcome with
    | inl later => exact ih holds
    | inr value => exact endsAt_pure holds

end Ends

/-! ## Resources -/

section Balances

variable {ρ : Type*} [AddCommMonoid ρ]

/-- From `state` the computation is handed `income`; with a value it hands
back what `outgo` says of it, and a failure that is `kept` hands back
nothing. -/
def BalancedAt (kept : ε → Prop) (holdings : σ → ρ) (income : ρ)
    (computation : Effect ε σ α) (outgo : α → ρ) (state : σ) : Prop :=
  match computation.perform state with
  | (.ok value, next) => holdings next + outgo value =
      holdings state + income
  | (.error failure, next) => kept failure → holdings next = holdings state + income

def Balances (kept : ε → Prop) (holdings : σ → ρ) (income : ρ)
    (computation : Effect ε σ α) (outgo : α → ρ) : Prop :=
  ∀ state, computation.BalancedAt kept holdings income outgo state

variable {kept : ε → Prop} {holdings : σ → ρ} {income : ρ} {state : σ}

variable {computation : Effect ε σ α} {outgo : α → ρ} {next : σ}
  {first : Effect ε σ α} {rest : α → Effect ε σ β} {between : α → ρ}

variable {value : α}

theorem BalancedAt.ok (balanced : computation.BalancedAt kept holdings income outgo state) {next}
    (done : computation.perform state = (.ok value, next)) :
    holdings next + outgo value = holdings state + income := by
  unfold BalancedAt at balanced
  rw [done] at balanced
  exact balanced

variable {failure : ε}

theorem BalancedAt.error (balanced : computation.BalancedAt kept holdings income outgo state) {next}
    (failed : computation.perform state = (.error failure, next)) (keeps : kept failure) :
    holdings next = holdings state + income := by
  unfold BalancedAt at balanced
  rw [failed] at balanced
  exact balanced keeps

theorem balancedAt_of_ok (done : computation.perform state = (.ok value, next))
    (even : holdings next + outgo value = holdings state + income) :
    computation.BalancedAt kept holdings income outgo state := by
  unfold BalancedAt
  rw [done]
  exact even

theorem balancedAt_of_error (failed : computation.perform state = (.error failure, next))
    (even : kept failure → holdings next = holdings state + income) :
    computation.BalancedAt kept holdings income outgo state := by
  unfold BalancedAt
  rw [failed]
  exact even

theorem balances_pure (even : outgo value = income) :
    (pure value : Effect ε σ α).Balances kept holdings income outgo :=
  fun state => balancedAt_of_ok rfl (congrArg (holdings state + ·) even)

theorem balances_throw (nothing : kept failure → income = 0) :
    (throw failure : Effect ε σ α).Balances kept holdings income outgo := by
  intro state
  refine balancedAt_of_error rfl fun keeps => ?_
  rw [nothing keeps, add_zero]

theorem balances_modify {change outgo}
    (even : ∀ state, holdings (change state) + outgo ⟨⟩ = holdings state + income) :
    (modify change : Effect ε σ PUnit).Balances kept holdings income outgo :=
  fun state => balancedAt_of_ok rfl (even state)

theorem Keeps.balances (keeps : computation.Keeps holdings) :
    computation.Balances kept holdings 0 fun _ => 0 := by
  intro state
  rcases done : computation.perform state with ⟨failure | value, next⟩
  · refine balancedAt_of_error done fun _ => ?_
    rw [keeps.eq done, add_zero]
  · exact balancedAt_of_ok done (congrArg (· + 0) (keeps.eq done))

theorem balancedAt_set {outgo} (even : holdings next + outgo ⟨⟩ = holdings state + income) :
    (set next : Effect ε σ PUnit).BalancedAt kept holdings income outgo state :=
  balancedAt_of_ok rfl even

theorem BalancedAt.bind {outgo} (head : first.BalancedAt kept holdings income between state)
    (tail : ∀ value next, first.perform state = (.ok value, next) →
      (rest value).BalancedAt kept holdings (between value) outgo next) :
    (first >>= rest).BalancedAt kept holdings income outgo state := by
  rcases done : first.perform state with ⟨failure | value, next⟩
  · exact balancedAt_of_error (perform_bind_error done) (head.error done)
  have half := head.ok done
  have whole := tail value next done
  rcases last : (rest value).perform next with ⟨failure | result, final⟩
  · refine balancedAt_of_error ((perform_bind_ok done).trans last) ?_
    intro keeps
    exact (whole.error last keeps).trans half
  · refine balancedAt_of_ok ((perform_bind_ok done).trans last) ?_
    exact (whole.ok last).trans half

theorem Balances.bind {outgo} (head : first.Balances kept holdings income between)
    (tail : ∀ value, (rest value).Balances kept holdings (between value) outgo) :
    (first >>= rest).Balances kept holdings income outgo :=
  fun state => (head state).bind fun value next _ => tail value next

theorem balancedAt_read_bind {outgo : β → ρ} (reads : first.Keeps fun state => state)
    (tail : ∀ value, first.perform state = (.ok value, state) →
      (rest value).BalancedAt kept holdings 0 outgo state) :
    (first >>= rest).BalancedAt kept holdings 0 outgo state := by
  refine BalancedAt.bind ((reads.comp holdings).balances state) ?_
  intro value next done
  have same : next = state := reads.eq done
  subst same
  exact tail value done

theorem balancedAt_get_bind {rest} {outgo : β → ρ}
    (tail : (rest state).BalancedAt kept holdings income outgo state) :
    ((get : Effect ε σ σ) >>= rest).BalancedAt kept holdings income outgo state :=
  tail

theorem BalancedAt.attempt_bind {rest between} {outgo : β → ρ} {extra}
    (head : first.BalancedAt kept holdings income between state)
    (success : ∀ value next, first.perform state = (.ok value, next) →
      (rest (.ok value)).BalancedAt kept holdings (between value + extra) outgo next)
    (failed : ∀ failure next,
      first.perform state = (.error failure, next) →
        ∃ final, (rest (.error failure)).perform next = (.error failure, final) ∧
            holdings final = holdings next + extra) :
    (first.attempt >>= rest).BalancedAt kept holdings (income + extra) outgo state := by
  rcases done : first.perform state with ⟨failure | value, next⟩
  · obtain ⟨final, last, even⟩ := failed failure next done
    have caught : first.attempt.perform state = (.ok (.error failure), next) := by
      rw [perform_attempt, done]
    refine balancedAt_of_error ((perform_bind_ok caught).trans last) ?_
    intro keeps
    rw [even, head.error done keeps, add_assoc]
  · have caught : first.attempt.perform state = (.ok (.ok value), next) := by
      rw [perform_attempt, done]
    have half := head.ok done
    have whole := success value next done
    have even : holdings next + (between value + extra) = holdings state + (income + extra) := by
      rw [← add_assoc, half, add_assoc]
    rcases last : (rest (.ok value)).perform next with
      ⟨failure | result, final⟩
    · refine balancedAt_of_error ((perform_bind_ok caught).trans last) ?_
      intro keeps
      exact (whole.error last keeps).trans even
    · refine balancedAt_of_ok ((perform_bind_ok caught).trans last) ?_
      exact (whole.ok last).trans even

section

variable {exhausted : ε} {body : β → Effect ε σ (β ⊕ α)} {going : β → ρ} {outgo : α → ρ}

theorem balancedAt_loop (inside : β → σ → Prop)
    (round : ∀ start state, inside start state → (body start).BalancedAt kept holdings (going start)
        (fun outcome => outcome.elim going outgo) state)
    (keeps : ∀ start state next mid, inside start state →
      (body start).perform state = (.ok (.inl next), mid) → inside next mid)
    (unkept : ¬ kept exhausted) (fuel : Nat) {start state} (begun : inside start state) :
    (loop exhausted body fuel start).BalancedAt kept holdings (going start) outgo state := by
  induction fuel generalizing start state with
  | zero => exact balances_throw (fun keeps => absurd keeps unkept) state
  | succ fuel ih =>
    refine BalancedAt.bind (round start state begun) ?_
    intro outcome next done
    cases outcome with
    | inl later => exact ih (keeps _ _ _ _ begun done)
    | inr value => exact balances_pure rfl next

theorem balances_loop (round : ∀ start, (body start).Balances kept holdings (going start)
      (fun outcome => outcome.elim going outgo))
    (unkept : ¬ kept exhausted)
    (fuel : Nat) (start : β) :
    (loop exhausted body fuel start).Balances kept holdings (going start) outgo :=
  fun _ => balancedAt_loop (fun _ _ => True)
    (fun start state _ => round start state) (fun _ _ _ _ _ _ => trivial)
    unkept fuel trivial

end

theorem balances_mapM {body : β → Effect ε σ γ}
    (each : ∀ item, (body item).Balances kept holdings 0 fun _ => 0)
    (items : List β) :
    (items.mapM body).Balances kept holdings 0 fun _ => 0 := by
  induction items with
  | nil => exact balances_pure rfl
  | cons item items ih =>
    rw [List.mapM_cons]
    refine Balances.bind (each item) fun _ => ?_
    refine Balances.bind ih fun _ => ?_
    exact balances_pure rfl

end Balances

end Effect

end GraphZero.Foundation
