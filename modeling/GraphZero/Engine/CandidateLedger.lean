import GraphZero.Engine.CandidateConservation

/-!
# The candidate ledger

A ledger beside the native engine records which handles it enumerated and which
it released.  Between an enumeration and its end the new handles are pending:
no group holds them yet.
-/

namespace GraphZero.Engine

open GraphZero.Foundation List

variable {σ γ κ : Type}

structure Ledger (κ : Type) where
  enumerated : List κ
  released : List κ

namespace NativeEngine

def recorded (native : NativeEngine σ γ κ) : NativeEngine (σ × Ledger κ) γ κ where
  stateHash state := native.stateHash state.1
  stateView state := native.stateView state.1
  candidateView state := native.candidateView state.1
  candidateHash state := native.candidateHash state.1
  candidates state graph maxCandidates :=
    match native.candidates state.1 graph maxCandidates with
    | (.error error, next) => (.error error, next, state.2)
    | (.ok handles, next) => (.ok handles, next,
        { state.2 with enumerated := state.2.enumerated ++ handles })
  release state graphs handles :=
    match native.release state.1 graphs handles with
    | (.error error, next) => (.error error, next, state.2)
    | (.ok done, next) => (.ok done, next,
        { state.2 with released := state.2.released ++ handles })

/-- What the compiler engine relies on: enumerated handles are new and distinct,
and a release takes place as a whole or not at all. -/
structure Lawful (native : NativeEngine σ γ κ) (issued live : σ → Set κ) : Prop where
  enumerated : ∀ state graph maxCandidates handles next,
    native.candidates state graph maxCandidates = (.ok handles, next) →
      handles.Nodup ∧ (∀ handle ∈ handles, handle ∉ issued state) ∧
      (∀ handle, handle ∈ issued next ↔ handle ∈ handles ∨ handle ∈ issued state) ∧
      (∀ handle, handle ∈ live next ↔ handle ∈ handles ∨ handle ∈ live state)
  refused : ∀ state graph maxCandidates error next,
    native.candidates state graph maxCandidates = (.error error, next) →
      issued next = issued state ∧ live next = live state
  released : ∀ state graphs handles next,
    native.release state graphs handles = (.ok (), next) → issued next = issued state ∧
      (∀ handle, handle ∈ live next ↔ handle ∈ live state ∧ handle ∉ handles)
  kept : ∀ state graphs handles error next,
    native.release state graphs handles = (.error error, next) →
      issued next = issued state ∧ live next = live state

/-- No part of the handles that are enumerated for the graph is refused when it
is released at once. -/
def Releasable (native : NativeEngine σ γ κ) (state : σ) (graph : γ) : Prop :=
  ∀ handles next, native.candidates state graph none = (.ok handles, next) →
    ∀ dropped, dropped.Subperm handles → (native.release next [] dropped).1 = .ok ()

theorem recorded_release_ok {native : NativeEngine σ γ κ} {state graphs handles} :
    (native.recorded.release state graphs handles).1 = .ok () ↔
      (native.release state.1 graphs handles).1 = .ok () := by
  unfold recorded
  dsimp only
  split
  next failed => rw [failed]
  next done => rw [done]

theorem Releasable.recorded {native : NativeEngine σ γ κ} {state next graph}
    (releasable : native.Releasable state.1 graph) {handles dropped}
    (called : native.recorded.candidates state graph none = (.ok handles, next))
    (part : dropped.Subperm handles) :
    (native.recorded.release next [] dropped).1 = .ok () := by
  refine recorded_release_ok.mpr (releasable handles next.1 ?_ dropped part)
  unfold NativeEngine.recorded at called
  dsimp only at called
  split at called
  next => cases called
  next done inner answered =>
  cases called
  exact answered

end NativeEngine

variable [DecidableEq κ]

/-- The handles enumerated so far are pending, held by one retained group, or
released; the live ones are the first two. -/
structure Accounts (issued live : σ → Set κ) (state : σ × Ledger κ)
    (pending : List κ) (groups : Table κ (CompilerCandidateGroup κ)) : Prop where
  keyed : Keyed groups
  shared : (pending ++ (heldMembers groups ++ state.2.released)).Perm state.2.enumerated
  distinct : state.2.enumerated.Nodup
  known : ∀ handle ∈ state.2.enumerated, handle ∈ issued state.1
  alive : ∀ handle, handle ∈ live state.1 ↔ handle ∈ pending ∨ handle ∈ heldMembers groups

namespace Accounts

variable {native : NativeEngine σ γ κ} {issued live : σ → Set κ}
  {state next : σ × Ledger κ} {pending : List κ} {groups : Table κ (CompilerCandidateGroup κ)}

section

variable (accounts : Accounts issued live state pending groups)
include accounts

theorem nodup : (pending ++ (heldMembers groups ++ state.2.released)).Nodup :=
  accounts.shared.nodup_iff.mpr accounts.distinct

theorem reorder {other} (same : other.Perm pending) : Accounts issued live state other groups where
  keyed := accounts.keyed
  shared := (same.append_right _).trans accounts.shared
  distinct := accounts.distinct
  known := accounts.known
  alive handle := (accounts.alive handle).trans (or_congr same.mem_iff.symm Iff.rfl)

theorem refused {inner} (sameIssued : issued inner = issued state.1)
    (sameLive : live inner = live state.1) :
    Accounts issued live (inner, state.2) pending groups where
  keyed := accounts.keyed
  shared := accounts.shared
  distinct := accounts.distinct
  known := by
    rw [sameIssued]
    exact accounts.known
  alive := by
    rw [sameLive]
    exact accounts.alive

end

section

variable (lawful : native.Lawful issued live)
include lawful

theorem enumerate (accounts : Accounts issued live state [] groups) {graph maxCandidates handles}
    (called : native.recorded.candidates state graph maxCandidates = (.ok handles, next)) :
    Accounts issued live next handles groups := by
  unfold NativeEngine.recorded at called
  dsimp only at called
  split at called
  next => cases called
  next done inner answered =>
  cases called
  obtain ⟨distinct, fresh, nowIssued, nowLive⟩ := lawful.enumerated _ _ _ _ _ answered
  refine ⟨accounts.keyed, ?_, ?_, ?_, ?_⟩
  · exact perm_append_comm.trans (accounts.shared.append_right _)
  · refine nodup_append'.mpr ⟨accounts.distinct, distinct, ?_⟩
    exact fun handle old new => fresh handle new (accounts.known handle old)
  · intro handle member
    rcases mem_append.mp member with old | new
    · exact (nowIssued handle).mpr (Or.inr (accounts.known handle old))
    · exact (nowIssued handle).mpr (Or.inl new)
  · intro handle
    rw [nowLive, accounts.alive, mem_nil_iff, false_or]

theorem enumerate_error (accounts : Accounts issued live state pending groups)
    {graph maxCandidates error}
    (called : native.recorded.candidates state graph maxCandidates = (.error error, next)) :
    Accounts issued live next pending groups ∧ live next.1 = live state.1 := by
  unfold NativeEngine.recorded at called
  dsimp only at called
  split at called
  next inner answered =>
    cases called
    obtain ⟨sameIssued, sameLive⟩ := lawful.refused _ _ _ _ _ answered
    exact ⟨accounts.refused sameIssued sameLive, sameLive⟩
  next => cases called

theorem release {dropped kept} (accounts : Accounts issued live state (dropped ++ kept) groups)
    {graphs} (called : native.recorded.release state graphs dropped = (.ok (), next)) :
    Accounts issued live next kept groups ∧ next.2.released = state.2.released ++ dropped ∧
      (∀ handle, handle ∈ live next.1 ↔ handle ∈ live state.1 ∧ handle ∉ dropped) := by
  unfold NativeEngine.recorded at called
  dsimp only at called
  split at called
  next => cases called
  next done inner answered =>
  cases called
  obtain ⟨sameIssued, nowLive⟩ := lawful.released _ _ _ _ answered
  refine ⟨⟨accounts.keyed, ?_, accounts.distinct, ?_, ?_⟩, rfl, nowLive⟩
  · refine List.Perm.trans ?_ accounts.shared
    rw [← append_assoc, ← append_assoc, append_assoc dropped]
    refine perm_append_comm.trans ?_
    rw [append_assoc kept]
  · rw [sameIssued]
    exact accounts.known
  · intro handle
    rw [nowLive, accounts.alive, mem_append]
    have apart := accounts.nodup
    rw [append_assoc] at apart
    have separate := (nodup_append'.mp apart).2.2
    constructor
    · rintro ⟨(early | late) | held, outside⟩
      · exact absurd early outside
      · exact Or.inl late
      · exact Or.inr held
    · rintro (late | held)
      · exact ⟨Or.inl (Or.inr late), fun early =>
          separate early (mem_append_left _ late)⟩
      · exact ⟨Or.inr held, fun early =>
          separate early (mem_append_right _ (mem_append_left _ held))⟩

theorem release_error (accounts : Accounts issued live state pending groups) {graphs handles error}
    (called : native.recorded.release state graphs handles = (.error error, next)) :
    Accounts issued live next pending groups ∧ live next.1 = live state.1 := by
  unfold NativeEngine.recorded at called
  dsimp only at called
  split at called
  next inner answered =>
    cases called
    obtain ⟨sameIssued, sameLive⟩ := lawful.kept _ _ _ _ _ answered
    exact ⟨accounts.refused sameIssued sameLive, sameLive⟩
  next => cases called

end

theorem retain {retained : List (CompilerCandidateGroup κ)} (accounts : Accounts issued live state
      (retained.flatMap CompilerCandidateGroup.members) groups) :
    Accounts issued live state [] (retained.foldl (fun groups group =>
      groups.insert group.representative group) groups) := by
  have apart := accounts.nodup
  rw [← append_assoc] at apart
  obtain ⟨keyed, held⟩ := heldMembers_retain accounts.keyed (nodup_append'.mp apart).1
  refine ⟨keyed, ?_, accounts.distinct, accounts.known, ?_⟩
  · refine List.Perm.trans ?_ accounts.shared
    rw [nil_append, ← append_assoc]
    exact held.append_right _
  · intro handle
    rw [accounts.alive, mem_nil_iff, false_or, held.mem_iff, mem_append]

theorem drop (accounts : Accounts issued live state [] groups) {keys : List κ}
    (distinct : keys.Nodup) (present : ∀ key ∈ keys, key ∈ groups.keys) :
    Accounts issued live state (keys.flatMap (membersOf groups))
      (keys.foldl Table.erase groups) := by
  have held := heldMembers_drop distinct present
  refine ⟨accounts.keyed.drop keys, ?_, accounts.distinct, accounts.known, ?_⟩
  · refine List.Perm.trans ?_ accounts.shared
    rw [nil_append, ← append_assoc]
    exact held.symm.append_right _
  · intro handle
    rw [accounts.alive, mem_nil_iff, false_or, held.mem_iff, mem_append]

theorem once (accounts : Accounts issued live state [] groups) {handle}
    (member : handle ∈ state.2.enumerated) :
    ((∃ key group, groups.get? key = some group ∧ handle ∈ group.members ∧
        (∀ other otherGroup, groups.get? other = some otherGroup →
          handle ∈ otherGroup.members → other = key)) ∧
      handle ∉ state.2.released) ∨
    ((∀ key group, groups.get? key = some group → handle ∉ group.members) ∧
      state.2.released.count handle = 1) := by
  have apart := accounts.nodup
  rw [nil_append] at apart
  obtain ⟨heldOnce, releasedOnce, separate⟩ := nodup_append'.mp apart
  have place := accounts.shared.mem_iff.mpr member
  rw [nil_append, mem_append] at place
  rcases place with held | released
  · obtain ⟨key, group, found, inside⟩ := mem_heldMembers.mp held
    refine Or.inl ⟨⟨key, group, found, inside, ?_⟩, separate held⟩
    intro other otherGroup otherFound otherInside
    by_contra different
    have symmetric : Std.Symm (Function.onFun List.Disjoint (membersOf groups)) :=
      ⟨fun _ _ disjoint => disjoint.symm⟩
    refine (nodup_flatMap.mp heldOnce).2.forall
      (Table.mem_keys_of_get? otherFound) (Table.mem_keys_of_get? found) different
      (?_ : handle ∈ membersOf groups other) ?_
    · rw [membersOf, otherFound]
      exact otherInside
    · rw [membersOf, found]
      exact inside
  · refine Or.inr ⟨?_, count_eq_one_of_mem releasedOnce released⟩
    intro key group found inside
    exact separate (mem_heldMembers.mpr ⟨key, group, found, inside⟩) released

end Accounts

end GraphZero.Engine
