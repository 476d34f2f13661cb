import GraphZero.Engine.CandidateLedger

/-!
# Runs of the compiler engine

What the calls of the compiler engine keep: the accounts of its candidate
handles, and after a failing call also the retained groups and the live handles.
An enumeration releases the handles that it does not retain; when the native
engine refuses that, it returns before it retains the others.
-/

namespace GraphZero.Engine

open GraphZero.Foundation List

variable {σ γ κ : Type} [DecidableEq κ]

inductive EngineCall (γ κ : Type) where
  | candidates (graph : γ) (maxCandidates : Option Nat)
  | release (graphs : List γ) (candidates : List κ)

namespace CompilerEngine

/-- A compiler engine as it is constructed, with an empty ledger. -/
def opened (state : σ) (actionSetHash : ActionSetHash)
    (candidateMode : CompilerCandidateMode) : CompilerEngine (σ × Ledger κ) κ where
  native := (state, ⟨[], []⟩)
  actionSetHash := actionSetHash
  candidateMode := candidateMode
  candidateGroups := ∅

def call (native : NativeEngine σ γ κ) (blake3 : List UInt8 → BitVec 256)
    (engine : CompilerEngine σ κ) :
    EngineCall γ κ → EngineResult (List κ) × CompilerEngine σ κ
  | .candidates graph maxCandidates => engine.candidates native blake3 graph maxCandidates
  | .release graphs candidates =>
    let done := engine.release native graphs candidates
    (done.1.map fun _ => [], done.2)

/-- The engine after a sequence of calls, successful or failing. -/
def after (native : NativeEngine σ γ κ) (blake3 : List UInt8 → BitVec 256)
    (engine : CompilerEngine σ κ) (calls : List (EngineCall γ κ)) :
    CompilerEngine σ κ :=
  calls.foldl (fun engine call => (engine.call native blake3 call).2) engine

end CompilerEngine

/-- An enumeration may drop any part of what it finds. -/
def EngineCall.Drops (native : NativeEngine σ γ κ) (engine : CompilerEngine (σ × Ledger κ) κ) :
    EngineCall γ κ → Prop
  | .candidates graph _ => native.Releasable engine.native.1 graph
  | .release _ _ => True

/-- Before each call of the run that enumerates, what it enumerates can be
dropped. -/
def Unrefused (native : NativeEngine σ γ κ) (blake3 : List UInt8 → BitVec 256)
    (engine : CompilerEngine (σ × Ledger κ) κ) : List (EngineCall γ κ) → Prop
  | [] => True
  | call :: calls => call.Drops native engine ∧
      Unrefused native blake3 (engine.call native.recorded blake3 call).2 calls

section Conservation

variable {native : NativeEngine σ γ κ} {blake3 : List UInt8 → BitVec 256} {issued live : σ → Set κ}
  {engine next : CompilerEngine (σ × Ledger κ) κ}

/-- What a call on an engine in a grouped mode keeps. -/
structure Carries {α : Type} (issued live : σ → Set κ) (engine : CompilerEngine (σ × Ledger κ) κ)
    (done : EngineResult α × CompilerEngine (σ × Ledger κ) κ) : Prop where
  accounts : Accounts issued live done.2.native [] done.2.candidateGroups
  mode : done.2.candidateMode = engine.candidateMode
  frame : ∀ error, done.1 = .error error → done.2.candidateGroups = engine.candidateGroups ∧
      live done.2.native.1 = live engine.native.1

theorem Carries.moved {α : Type} {outcome : EngineResult α} {state}
    (accounts : Accounts issued live state [] engine.candidateGroups)
    (sameLive : live state.1 = live engine.native.1) :
    Carries issued live engine (outcome, { engine with native := state }) where
  accounts := accounts
  mode := rfl
  frame _ _ := ⟨rfl, sameLive⟩

theorem mem_keys_retain {retained : List (CompilerCandidateGroup κ)}
    {groups : Table κ (CompilerCandidateGroup κ)} {key}
    (exposed : key ∈ groups.keys ∨ key ∈ retained.map CompilerCandidateGroup.representative) :
    key ∈ (retained.foldl (fun groups group =>
      groups.insert group.representative group) groups).keys := by
  induction retained generalizing groups with
  | nil => exact exposed.resolve_right (not_mem_nil)
  | cons group retained ih =>
    refine ih ?_
    by_cases same : key = group.representative
    · refine Or.inl (Table.mem_keys_iff.mpr ⟨group, ?_⟩)
      rw [same, Table.get?_insert_self]
    · rw [map_cons, mem_cons, or_iff_right same] at exposed
      refine exposed.imp_left fun member => ?_
      obtain ⟨value, found⟩ := Table.mem_keys_iff.mp member
      refine Table.mem_keys_iff.mpr ⟨value, ?_⟩
      rw [Table.get?_insert_of_ne same, found]

theorem hybridCandidates_carries (lawful : native.Lawful issued live)
    (accounts : Accounts issued live engine.native [] engine.candidateGroups)
    {graph : γ} (releasable : native.Releasable engine.native.1 graph)
    (maxCandidates : Option Nat) :
    Carries issued live engine
      (engine.hybridCandidates native.recorded blake3 graph maxCandidates) := by
  unfold CompilerEngine.hybridCandidates
  split
  next => exact .moved accounts rfl
  split
  next error state answered =>
    obtain ⟨kept, sameLive⟩ := accounts.enumerate_error lawful answered
    exact .moved kept sameLive
  next handles state answered =>
  have pending := accounts.enumerate lawful answered
  split
  next =>
    -- the groups could not be built: everything enumerated is released
    have whole := pending.reorder (List.Perm.of_eq (append_nil handles))
    split
    next error state failed =>
      have succeeded := releasable.recorded answered (Subperm.refl _)
      rw [failed] at succeeded
      cases succeeded
    next done state released =>
    obtain ⟨kept, _, _⟩ := whole.release lawful released
    refine .moved kept (Set.ext fun handle => ?_)
    rw [kept.alive, accounts.alive]
  next groups grouped =>
  -- the groups beyond the limit are released, the others retained
  generalize min (maxCandidates.getD groups.length) groups.length = keep
  have shares := groupHybridCandidates_members grouped
  have parted : ((groups.drop keep).flatMap CompilerCandidateGroup.members ++
      (groups.take keep).flatMap CompilerCandidateGroup.members).Perm handles := by
    refine perm_append_comm.trans ?_
    rw [← flatMap_append, take_append_drop]
    exact shares
  have whole := pending.reorder parted
  dsimp only
  split
  next error state failed =>
    have part := (sublist_append_left _ _).subperm.trans parted.subperm
    have succeeded := releasable.recorded answered part
    rw [failed] at succeeded
    cases succeeded
  next done state released =>
  obtain ⟨kept, _, _⟩ := whole.release lawful released
  exact ⟨kept.retain, rfl, nofun⟩

theorem hybridCandidates_exposed {graph : γ} {maxCandidates : Option Nat} {handles}
    (called : engine.hybridCandidates native.recorded blake3 graph maxCandidates =
      (.ok handles, next)) :
    ∀ handle ∈ handles, handle ∈ next.candidateGroups.keys := by
  unfold CompilerEngine.hybridCandidates at called
  split at called
  next => cases called
  split at called
  next => cases called
  split at called
  next =>
    split at called
    next => cases called
    next => cases called
  next =>
  dsimp only at called
  split at called
  next => cases called
  next =>
  cases called
  exact fun handle member => mem_keys_retain (Or.inr member)

section

variable (lawful : native.Lawful issued live) (grouped : engine.candidateMode ≠ .sitewise)
  (accounts : Accounts issued live engine.native [] engine.candidateGroups)
include lawful grouped accounts

variable {candidates : List κ}

theorem release_eq_ok {graphs}
    (called : engine.release native.recorded graphs candidates = (.ok (), next)) :
    Accounts issued live next.native [] next.candidateGroups ∧
      next.candidateMode = engine.candidateMode ∧
      next.candidateGroups = candidates.foldl Table.erase engine.candidateGroups ∧
      next.native.2.released = engine.native.2.released ++
        candidates.flatMap (membersOf engine.candidateGroups) ∧
      ∀ handle, handle ∈ live next.native.1 ↔ handle ∈ live engine.native.1 ∧
        handle ∉ candidates.flatMap (membersOf engine.candidateGroups) := by
  unfold CompilerEngine.release at called
  rw [if_neg grouped] at called
  split at called
  next => cases called
  next members asked =>
  obtain ⟨distinct, _, present, rfl⟩ := releaseMembers_eq_ok asked
  have dropped := (accounts.drop distinct present).reorder (List.Perm.of_eq (append_nil _))
  split at called
  next => cases called
  next done state answered =>
  cases called
  obtain ⟨kept, released, remaining⟩ := dropped.release lawful answered
  exact ⟨kept, rfl, rfl, released, remaining⟩

theorem release_error {graphs : List γ} {error}
    (called : engine.release native.recorded graphs candidates = (.error error, next)) :
    Carries issued live engine ((.error error : EngineResult Unit), next) := by
  unfold CompilerEngine.release at called
  rw [if_neg grouped] at called
  split at called
  next =>
    cases called
    exact .moved accounts rfl
  next =>
  split at called
  next failure state refused =>
    cases called
    obtain ⟨kept, sameLive⟩ := accounts.release_error lawful refused
    exact .moved kept sameLive
  next => cases called

theorem release_carries (graphs : List γ) (candidates : List κ) :
    Carries issued live engine (engine.release native.recorded graphs candidates) := by
  rcases called : engine.release native.recorded graphs candidates with ⟨_ | _, next⟩
  · exact release_error lawful grouped accounts called
  · obtain ⟨kept, mode, _⟩ := release_eq_ok lawful grouped accounts called
    exact ⟨kept, mode, nofun⟩

omit lawful accounts in
theorem release_isOk (graphs : List γ) (distinct : candidates.Nodup)
    (exposed : ∀ candidate ∈ candidates, candidate ∈ engine.candidateGroups.keys) :
    (engine.release native.recorded graphs candidates).1 = .ok () ↔
      (native.release engine.native.1 graphs
        (candidates.flatMap (membersOf engine.candidateGroups))).1 = .ok () := by
  have asked := releaseMembers_isOk [] distinct (fun _ _ => not_mem_nil) exposed
  rw [← NativeEngine.recorded_release_ok]
  unfold CompilerEngine.release
  rw [if_neg grouped, asked]
  dsimp only
  split
  next error state failed => simp [failed]
  next done state released => simp [released]

end

theorem call_carries (blake3 : List UInt8 → BitVec 256) (lawful : native.Lawful issued live)
    (grouped : engine.candidateMode ≠ .sitewise)
    (accounts : Accounts issued live engine.native [] engine.candidateGroups) {call}
    (drops : call.Drops native engine) :
    Carries issued live engine (engine.call native.recorded blake3 call) := by
  cases call with
  | candidates graph maxCandidates =>
    unfold CompilerEngine.call CompilerEngine.candidates
    dsimp only
    rw [if_neg grouped]
    exact hybridCandidates_carries lawful accounts drops maxCandidates
  | release graphs candidates =>
    obtain ⟨kept, mode, frame⟩ := release_carries lawful grouped accounts graphs candidates
    refine ⟨kept, mode, fun error failed => ?_⟩
    unfold CompilerEngine.call at failed
    dsimp only at failed
    cases outcome : (engine.release native.recorded graphs candidates).1 with
    | error failure => exact frame failure outcome
    | ok done =>
      rw [outcome] at failed
      cases failed

theorem accounts_after (lawful : native.Lawful issued live)
    (grouped : engine.candidateMode ≠ .sitewise)
    (accounts : Accounts issued live engine.native [] engine.candidateGroups) {calls}
    (unrefused : Unrefused native blake3 engine calls) :
    (engine.after native.recorded blake3 calls).candidateMode ≠ .sitewise ∧
      Accounts issued live (engine.after native.recorded blake3 calls).native []
        (engine.after native.recorded blake3 calls).candidateGroups := by
  induction calls generalizing engine with
  | nil => exact ⟨grouped, accounts⟩
  | cons call calls ih =>
    have carried := call_carries blake3 lawful grouped accounts unrefused.1
    refine ih ?_ carried.accounts unrefused.2
    rw [carried.mode]
    exact grouped

/-- No candidate handle of the engine is lost or released twice: where each
enumerated handle is, what a release does, and what a failing call keeps. -/
structure Conserved (native : NativeEngine σ γ κ)
    (blake3 : List UInt8 → BitVec 256) (live : σ → Set κ)
    (engine : CompilerEngine (σ × Ledger κ) κ) : Prop where
  once : ∀ handle ∈ engine.native.2.enumerated,
    ((∃ key group, engine.candidateGroups.get? key = some group ∧ handle ∈ group.members ∧
        (∀ other otherGroup, engine.candidateGroups.get? other = some otherGroup →
          handle ∈ otherGroup.members → other = key)) ∧
      handle ∉ engine.native.2.released) ∨
    ((∀ key group, engine.candidateGroups.get? key = some group → handle ∉ group.members) ∧
      engine.native.2.released.count handle = 1)
  alive : ∀ handle, handle ∈ live engine.native.1 ↔
    ∃ key group, engine.candidateGroups.get? key = some group ∧ handle ∈ group.members
  exposes : ∀ graph maxCandidates handles next,
    engine.candidates native.recorded blake3 graph maxCandidates = (.ok handles, next) →
    ∀ handle ∈ handles, handle ∈ next.candidateGroups.keys
  releases : ∀ graphs candidates, candidates.Nodup →
    (∀ candidate ∈ candidates, candidate ∈ engine.candidateGroups.keys) →
      ((engine.release native.recorded graphs candidates).1 = .ok () ↔
        (native.release engine.native.1 graphs
          (candidates.flatMap (membersOf engine.candidateGroups))).1 = .ok ())
  exactly : ∀ graphs candidates next,
    engine.release native.recorded graphs candidates = (.ok (), next) →
      next.candidateGroups = candidates.foldl Table.erase engine.candidateGroups ∧
      next.native.2.released = engine.native.2.released ++
        candidates.flatMap (membersOf engine.candidateGroups) ∧
      ∀ handle, handle ∈ live next.native.1 ↔ handle ∈ live engine.native.1 ∧
        handle ∉ candidates.flatMap (membersOf engine.candidateGroups)
  frame : ∀ call error next, call.Drops native engine →
    engine.call native.recorded blake3 call = (.error error, next) →
      next.candidateGroups = engine.candidateGroups ∧ live next.native.1 = live engine.native.1

/-- As long as no enumeration is refused what it drops, every handle is held by
one group or was released once. -/
theorem candidates_conserved (lawful : native.Lawful issued live) {state : σ}
    (unused : live state = ∅) (actionSetHash : ActionSetHash)
    {candidateMode : CompilerCandidateMode} (grouped : candidateMode ≠ .sitewise)
    {calls : List (EngineCall γ κ)}
    (unrefused : Unrefused native blake3 (.opened state actionSetHash candidateMode) calls) :
    Conserved native blake3 live ((CompilerEngine.opened state actionSetHash candidateMode).after
        native.recorded blake3 calls) := by
  have empty : Accounts issued live (state, (⟨[], []⟩ : Ledger κ)) [] ∅ := by
    refine ⟨?_, List.Perm.refl _, nodup_nil, forall_mem_nil _, ?_⟩
    · intro key group found
      cases found
    · intro handle
      rw [unused]
      exact ⟨False.elim, fun held => held.elim not_mem_nil not_mem_nil⟩
  obtain ⟨stillGrouped, accounts⟩ := @accounts_after _ _ _ _ native blake3
    issued live (.opened state actionSetHash candidateMode) lawful grouped empty calls unrefused
  refine ⟨fun handle member => accounts.once member, ?_, ?_, ?_, ?_, ?_⟩
  · intro handle
    rw [accounts.alive, mem_nil_iff, false_or, mem_heldMembers]
  · intro graph maxCandidates handles next called
    unfold CompilerEngine.candidates at called
    rw [if_neg stillGrouped] at called
    exact hybridCandidates_exposed called
  · exact fun graphs _ distinct exposed => release_isOk stillGrouped graphs distinct exposed
  · intro graphs candidates next called
    obtain ⟨_, _, dropped, released, remaining⟩ := release_eq_ok lawful stillGrouped accounts called
    exact ⟨dropped, released, remaining⟩
  · intro call error next drops called
    have carried := call_carries blake3 lawful stillGrouped accounts drops
    rw [called] at carried
    exact carried.frame error rfl

end Conservation

namespace Sample

/-- Live handles below the next number. -/
structure Arena where
  next : Nat
  live : List Nat
  bounded : ∀ handle ∈ live, handle < next

def Arena.enumerate (arena : Arena) (count : Nat) : Arena where
  next := arena.next + count
  live := List.range' arena.next count ++ arena.live
  bounded := by
    intro handle member
    rcases mem_append.mp member with new | old
    · exact (mem_range'_1.mp new).2
    · exact Nat.lt_of_lt_of_le (arena.bounded handle old) (Nat.le_add_right _ _)

def Arena.without (arena : Arena) (handles : List Nat) : Arena where
  next := arena.next
  live := arena.live.filter (· ∉ handles)
  bounded handle member := arena.bounded handle (mem_of_mem_filter member)

def view : CandidateView where
  kind := 0
  definition := "view.canonicalize_identity_view"
  batchPolicy := .independent
  site := ⟨.component 0, []⟩

/-- A graph is the number of its candidates; they all act independently.  A
release may be refused. -/
def native (refuses : Bool) : NativeEngine Arena Nat Nat where
  stateHash _ _ := .ok 0
  stateView _ _ := .ok ⟨[], [], [], [], fun _ => ⟨0, [], [], 0, .component 0⟩⟩
  candidateView _ _ := .ok view
  candidateHash _ _ := .ok 0
  candidates arena graph _ :=
    (.ok (List.range' arena.next graph), arena.enumerate graph)
  release arena _ handles :=
    if refuses = false ∧ handles.Nodup ∧ ∀ handle ∈ handles, handle ∈ arena.live then
      (.ok (), arena.without handles)
    else
      (.error .unknownCandidate, arena)

def issued (arena : Arena) : Set Nat := {handle | handle < arena.next}

def live (arena : Arena) : Set Nat := {handle | handle ∈ arena.live}

theorem native_lawful (refuses : Bool) : (native refuses).Lawful issued live where
  enumerated := by
    intro arena graph maxCandidates handles next called
    cases called
    refine ⟨nodup_range', ?_, ?_, ?_⟩
    · exact fun handle member => Nat.not_lt.mpr (mem_range'_1.mp member).1
    · intro handle
      simp only [issued, Set.mem_ofPred_eq, Arena.enumerate, mem_range'_1]
      omega
    · exact fun handle => mem_append
  refused := by
    intro arena graph maxCandidates error next called
    cases called
  released := by
    intro arena graphs handles next called
    dsimp only [native] at called
    split at called
    next =>
      cases called
      refine ⟨rfl, fun handle => ?_⟩
      simp only [live, Set.mem_ofPred_eq, Arena.without, mem_filter, decide_eq_true_eq]
    next => cases called
  kept := by
    intro arena graphs handles error next called
    dsimp only [native] at called
    split at called
    next => cases called
    next =>
    cases called
    exact ⟨rfl, rfl⟩

theorem releasable (arena : Arena) (graph : Nat) : (native false).Releasable arena graph := by
  intro handles next called dropped part
  cases called
  have all : ∀ handle ∈ dropped, handle ∈ (arena.enumerate graph).live := fun handle member =>
    mem_append_left _ (part.subset member)
  obtain ⟨_, same, part⟩ := part
  dsimp only [native]
  rw [if_pos ⟨rfl, same.nodup_iff.mp (part.nodup nodup_range'), all⟩]

end Sample

/-- Three candidates in one group are released; of the next two, one call with
an unknown candidate changes nothing. -/
theorem candidates_conserved_sample : Conserved (Sample.native false) (fun _ => 0) Sample.live
        ((CompilerEngine.opened ⟨0, [], forall_mem_nil _⟩ 0 .hybridV1).after
          (Sample.native false).recorded (fun _ => 0)
          [.candidates 3 none, .release [] [0], .candidates 2 none,
            .release [] [3, 9]]) ∧
      ((CompilerEngine.opened ⟨0, [], forall_mem_nil _⟩ 0 .hybridV1).after
          (Sample.native false).recorded (fun _ => 0)
          [.candidates 3 none, .release [] [0], .candidates 2 none,
            .release [] [3, 9]]).native.2.released = [0, 1, 2] :=
  ⟨candidates_conserved (Sample.native_lawful false)
    (Set.eq_empty_iff_forall_notMem.mpr fun _ => not_mem_nil) 0 (by decide)
    ⟨Sample.releasable _ 3, trivial, Sample.releasable _ 2, trivial, trivial⟩,
    by decide +kernel⟩

/-- No group may be retained and the native engine refuses to release the three
candidates: none of them is in a group or released. -/
theorem candidates_leaked : (Sample.native true).Lawful Sample.issued Sample.live ∧
    ¬ Conserved (Sample.native true) (fun _ => 0) Sample.live
      ((CompilerEngine.opened ⟨0, [], forall_mem_nil _⟩ 0 .hybridV1).after
        (Sample.native true).recorded (fun _ => 0) [.candidates 3 (some 0)]) := by
  refine ⟨Sample.native_lawful true, fun conserved => ?_⟩
  rcases conserved.once 0 (by decide +kernel) with ⟨⟨key, group, found, _⟩, _⟩ | ⟨_, released⟩
  · cases found
  · exact absurd released (by decide +kernel)

end GraphZero.Engine
