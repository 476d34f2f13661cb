import GraphZero.Engine.CandidateConservation

/-!
# What a candidate group holds

Candidates are grouped greedily, in one pass.  A group of several members was
built under one key, and a member that asks for disjoint bindings joined only
when none of its bindings was taken.
-/

namespace GraphZero.Engine

open GraphZero.Foundation List

theorem map_modify_of_same {α β : Type} {change} {read : α → β}
    (same : ∀ item, read (change item) = read item) {items : List α} {index} :
    (items.modify index change).map read = items.map read := by
  induction items generalizing index with
  | nil => rw [modify_nil]
  | cons first items ih =>
    cases index with
    | zero => rw [modify_zero_cons, map_cons, map_cons, same]
    | succ index => rw [modify_succ_cons, map_cons, map_cons, ih]

def GroupKey.kind : GroupKey → Nat
  | .allSites kind | .equivalentSites kind _ => kind

variable {σ γ κ : Type} (native : NativeEngine σ γ κ) (blake3 : List UInt8 → BitVec 256)
  (candidateMode : CompilerCandidateMode) (state : σ) (view : CompilerStateView)

/-- The candidate may be in a group under the key. -/
def Shares (key : GroupKey) (candidate : κ) : Prop :=
  ∃ candidateView, native.candidateView state candidate = .ok candidateView ∧
    candidateView.kind = key.kind ∧ candidateView.batchPolicy ≠ .singleton ∧
    groupKey blake3 candidateMode view candidateView = .ok (some key)

/-- If `later` asks for disjoint bindings, those of `earlier` are. -/
def Apart (earlier later : κ) : Prop :=
  ∀ earlierView laterView, native.candidateView state earlier = .ok earlierView →
    native.candidateView state later = .ok laterView →
    laterView.batchPolicy = .disjointBindings →
    laterView.site.bindings.Disjoint earlierView.site.bindings

structure Built (candidates : List κ) (group : PendingGroup κ) : Prop where
  ordered : group.members.Sublist candidates
  claimed : ∀ member ∈ group.members, ∃ memberView,
    native.candidateView state member = .ok memberView ∧
      memberView.site.bindings ⊆ group.claimedBindings
  apart : group.members.Pairwise (Apart native state)
  shared : 1 < group.members.length → ∃ key : GroupKey, key.kind = group.kind ∧
    ∀ member ∈ group.members, Shares native blake3 candidateMode state view key member

def first (group : PendingGroup κ) : κ :=
  group.members.head group.filled

/-- The groups of `candidates`, each listed under the key of its members. -/
structure GroupedSoundly (candidates : List κ) (grouped : Grouped κ) : Prop where
  firsts : (grouped.groups.map first).Sublist candidates
  built : ∀ group ∈ grouped.groups,
    Built native blake3 candidateMode state view candidates group
  listed : ∀ key indexes, grouped.grouped.get? key = some indexes → ∀ index ∈ indexes,
    ∃ group, grouped.groups[index]? = some group ∧ key.kind = group.kind ∧
      ∀ member ∈ group.members, Shares native blake3 candidateMode state view key member

variable {native blake3 candidateMode state view} {candidates : List κ} {candidate : κ}
  {candidateView : CandidateView} {grouped next : Grouped κ} {key : GroupKey}

theorem policy_of_groupKey
    (keyed : groupKey blake3 candidateMode view candidateView = .ok (some key)) :
    candidateView.kind = key.kind ∧ candidateView.batchPolicy ≠ .singleton := by
  unfold groupKey at keyed
  split at keyed
  · cases keyed
  next several =>
  refine ⟨?_, several⟩
  split at keyed
  · cases keyed
  · cases keyed
    rfl
  · cases signed : SiteSignatures.forSite view blake3 candidateView.site with
    | error =>
      rw [signed] at keyed
      cases keyed
    | ok signature =>
      rw [signed] at keyed
      cases keyed
      rfl

theorem shares_of_groupKey (found : native.candidateView state candidate = .ok candidateView)
    (keyed : groupKey blake3 candidateMode view candidateView = .ok (some key)) :
    Shares native blake3 candidateMode state view key candidate :=
  ⟨candidateView, found, (policy_of_groupKey keyed).1, (policy_of_groupKey keyed).2, keyed⟩

theorem Shares.eq {other} (shares : Shares native blake3 candidateMode state view key candidate)
    (again : Shares native blake3 candidateMode state view other candidate) : key = other := by
  obtain ⟨_, found, _, _, keyed⟩ := shares
  obtain ⟨_, found', _, _, keyed'⟩ := again
  cases found.symm.trans found'
  cases keyed.symm.trans keyed'
  rfl

variable {group : PendingGroup κ}

theorem Built.later (built : Built native blake3 candidateMode state view candidates group) :
    Built native blake3 candidateMode state view (candidates ++ [candidate]) group :=
  { built with ordered := built.ordered.trans (sublist_append_left _ _) }

theorem built_start (found : native.candidateView state candidate = .ok candidateView) :
    Built native blake3 candidateMode state view (candidates ++ [candidate])
      (.start candidate candidateView) where
  ordered := sublist_append_right _ _
  claimed member here := by
    cases mem_singleton.mp here
    exact ⟨candidateView, found, List.Subset.refl _⟩
  apart := pairwise_singleton _ _
  shared several := absurd several (Nat.lt_irrefl 1)

theorem Built.add (built : Built native blake3 candidateMode state view candidates group)
    (found : native.candidateView state candidate = .ok candidateView)
    (kind : key.kind = group.kind)
    (shares : ∀ member ∈ group.members, Shares native blake3 candidateMode state view key member)
    (joins : Shares native blake3 candidateMode state view key candidate)
    (free : group.canAdd candidateView.batchPolicy candidateView.site.bindings) :
    Built native blake3 candidateMode state view (candidates ++ [candidate])
      (group.add candidate candidateView.site.bindings) where
  ordered := built.ordered.append (List.Sublist.refl _)
  claimed member here := by
    rcases mem_append.mp here with old | new
    · obtain ⟨memberView, known, inside⟩ := built.claimed member old
      exact ⟨memberView, known, subset_append_of_subset_left _ inside⟩
    · cases mem_singleton.mp new
      exact ⟨candidateView, found, subset_append_right _ _⟩
  apart := by
    refine pairwise_append.mpr ⟨built.apart, pairwise_singleton _ _, ?_⟩
    intro member old later last memberView laterView known known' policy binding asked taken
    cases mem_singleton.mp last
    cases found.symm.trans known'
    obtain ⟨_, claimed, inside⟩ := built.claimed member old
    cases claimed.symm.trans known
    rw [policy] at free
    have free := all_eq_true.mp free binding asked
    rw [Bool.not_eq_true', contains_iff_mem.mpr (inside taken)] at free
    cases free
  shared _ := ⟨key, kind, fun member here => (mem_append.mp here).elim (shares member)
    fun new => mem_singleton.mp new ▸ joins⟩

theorem first_add {bindings} :
    first (group.add candidate bindings) = first group :=
  head_append_of_ne_nil group.filled

theorem GroupedSoundly.start
    (sound : GroupedSoundly native blake3 candidateMode state view candidates grouped)
    (found : native.candidateView state candidate = .ok candidateView) {table}
    (listed : ∀ key indexes, table.get? key = some indexes → ∀ index ∈ indexes,
      (∃ earlier, grouped.grouped.get? key = some earlier ∧ index ∈ earlier) ∨
        index = grouped.groups.length ∧ groupKey blake3 candidateMode view candidateView =
          .ok (some key)) :
    GroupedSoundly native blake3 candidateMode state view (candidates ++ [candidate])
      ⟨grouped.groups ++ [.start candidate candidateView], table⟩ where
  firsts := by
    rw [map_append]
    exact sound.firsts.append (List.Sublist.refl _)
  built group here := by
    rcases mem_append.mp here with old | new
    · exact (sound.built group old).later
    · cases mem_singleton.mp new
      exact built_start found
  listed key indexes known index here := by
    rcases listed key indexes known index here with ⟨earlier, known, here⟩ | ⟨rfl, keyed⟩
    · obtain ⟨group, place, shares⟩ := sound.listed key earlier known index here
      exact ⟨group, getElem?_append_left (List.getElem?_eq_some_iff.mp place).1 ▸ place, shares⟩
    · refine ⟨_, getElem?_concat_length, (policy_of_groupKey keyed).1.symm, ?_⟩
      intro member here
      cases mem_singleton.mp here
      exact shares_of_groupKey found keyed

theorem GroupedSoundly.groupCandidate
    (sound : GroupedSoundly native blake3 candidateMode state view candidates grouped)
    (done : groupCandidate native blake3 candidateMode state view grouped candidate = .ok next) :
    GroupedSoundly native blake3 candidateMode state view (candidates ++ [candidate]) next := by
  obtain ⟨candidateView, found, done⟩ := ok_of_bind done
  obtain ⟨key, keyed, done⟩ := ok_of_bind done
  have found := ok_of_mapError found
  cases key with
  | none =>
    cases done
    exact sound.start found fun key indexes known index here => .inl ⟨indexes, known, here⟩
  | some key =>
    dsimp only at done
    split at done
    · next index opened =>
      cases done
      have present := find?_some opened
      obtain ⟨group, place, free⟩ := Option.any_eq_true _ _ |>.mp present
      have here := mem_of_find?_eq_some opened
      cases known : grouped.grouped.get? key with
      | none =>
        rw [known] at here
        cases here
      | some indexes =>
        rw [known] at here
        obtain ⟨_, place', kind, shares⟩ := sound.listed key indexes known index here
        cases place.symm.trans place'
        have joins := shares_of_groupKey found keyed
        refine ⟨?_, ?_, ?_⟩
        · rw [map_modify_of_same fun _ => first_add]
          exact sound.firsts.trans (sublist_append_left _ _)
        · intro other member
          obtain ⟨at_, there⟩ := mem_iff_getElem?.mp member
          rw [getElem?_modify] at there
          obtain ⟨earlier, earlierPlace, same⟩ := Option.map_eq_some_iff.mp there
          split at same
          · next here =>
            subst here
            cases place.symm.trans earlierPlace
            cases same
            exact (sound.built group (mem_of_getElem? place)).add found kind shares joins free
          · exact same ▸ (sound.built earlier (mem_of_getElem? earlierPlace)).later
        · intro other indexes' known' index' here'
          obtain ⟨earlier, earlierPlace, kind', shares'⟩ :=
            sound.listed other indexes' known' index' here'
          rw [getElem?_modify, earlierPlace]
          by_cases same : index = index'
          · subst same
            cases place.symm.trans earlierPlace
            have one := shares _ (head_mem group.filled)
            cases one.eq (shares' _ (head_mem group.filled))
            refine ⟨group.add candidate candidateView.site.bindings, by simp, kind', ?_⟩
            intro member here
            exact (mem_append.mp here).elim (shares member) fun new => mem_singleton.mp new ▸ joins
          · exact ⟨earlier, by simp [same], kind', shares'⟩
    · cases done
      refine sound.start found fun tested indexes known index here => ?_
      rw [Table.get?_insert] at known
      split at known
      · next same =>
        subst same
        cases known
        rcases mem_append.mp here with old | new
        · refine .inl ?_
          cases earlier : grouped.grouped.get? tested with
          | none =>
            rw [earlier] at old
            cases old
          | some indexes =>
            rw [earlier] at old
            exact ⟨indexes, rfl, old⟩
        · exact .inr ⟨mem_singleton.mp new, keyed⟩
      · exact .inl ⟨indexes, known, here⟩

theorem GroupedSoundly.foldlM {more}
    (sound : GroupedSoundly native blake3 candidateMode state view candidates grouped)
    (done : more.foldlM (Engine.groupCandidate native blake3 candidateMode state view) grouped =
      .ok next) :
    GroupedSoundly native blake3 candidateMode state view (candidates ++ more) next := by
  induction more generalizing candidates grouped with
  | nil =>
    cases done
    rwa [append_nil]
  | cons candidate more ih =>
    obtain ⟨mid, first, done⟩ := ok_of_bind done
    have rest := ih (sound.groupCandidate first) done
    rwa [append_assoc] at rest

/-- The groups partition the candidates in their order.  The members of a group
of several share its kind and its key, and a member that asks for disjoint
bindings gets those of the members before it. -/
theorem groupHybridCandidates_grouped {graph : γ} {parentHash : GraphHash}
    {actionSetHash : ActionSetHash} {groups : List (CompilerCandidateGroup κ)}
    (done : groupHybridCandidates native blake3 state graph parentHash actionSetHash candidates
      candidateMode = .ok groups) :
    (groups.flatMap CompilerCandidateGroup.members).Perm candidates ∧
      (groups.map CompilerCandidateGroup.representative).Sublist candidates ∧
      ∃ view, native.stateView state graph = .ok view ∧ ∀ group ∈ groups,
        group.members.Sublist candidates ∧
        (1 < group.members.length → ∃ key : GroupKey, key.kind = group.kind ∧
          ∀ member ∈ group.members, Shares native blake3 candidateMode state view key member) ∧
        group.members.Pairwise (Apart native state) := by
  refine ⟨groupHybridCandidates_members done, ?_⟩
  obtain ⟨view, viewed, done⟩ := ok_of_bind done
  obtain ⟨signatures, signed, rest⟩ := ok_of_bind done
  have same : signatures = view := by
    unfold SiteSignatures.new at signed
    split at signed
    · cases signed
    · exact (Except.ok.inj signed).symm
  rw [same] at rest
  obtain ⟨grouped, loop, finish⟩ := ok_of_bind rest
  have empty : GroupedSoundly native blake3 candidateMode state view [] ⟨[], ∅⟩ :=
    ⟨.slnil, forall_mem_nil _, fun _ _ known => by cases known⟩
  have sound := empty.foldlM loop
  have finished := forall₂_of_mapM_eq_ok finish
  refine ⟨?_, view, ok_of_mapError viewed, fun group member => ?_⟩
  · have firsts : grouped.groups.map first = groups.map CompilerCandidateGroup.representative :=
      map_eq_of_forall₂ finished fun pending group built => by
        obtain ⟨_, _, same⟩ := ok_of_bind built
        cases same
        rfl
    exact firsts ▸ sound.firsts
  · obtain ⟨pending, among, built⟩ := forall₂_mem_right finished member
    obtain ⟨_, _, same⟩ := ok_of_bind built
    cases same
    have built := sound.built pending among
    exact ⟨built.ordered, built.shared, built.apart⟩

namespace Sample

/-- Two candidates of one kind that bind the same value; the first asks for
disjoint bindings. -/
def overlapping : NativeEngine Unit Unit Nat where
  stateHash _ _ := .ok 0
  stateView _ _ := .ok ⟨[], [], [], [], fun _ => ⟨0, [], [], 0, .component 0⟩⟩
  candidateView _ candidate := .ok ⟨0, "nvidia.native_cuda.concat",
    if candidate = 0 then .disjointBindings else .independent, ⟨.component 0, [.value 0]⟩⟩
  candidateHash _ _ := .ok 0
  candidates _ _ _ := (.ok [], ())
  release _ _ _ := (.ok (), ())

end Sample

theorem groupHybridCandidates_grouped_pair : ∃ groups, groupHybridCandidates Sample.overlapping
    (fun _ => 0) () () 0 0 [0, 1] .hybridV1 = .ok groups ∧
    (groups.map CompilerCandidateGroup.representative).Sublist [0, 1] := by
  obtain ⟨groups, done⟩ : ∃ groups, groupHybridCandidates Sample.overlapping
      (fun _ => 0) () () 0 0 [0, 1] .hybridV1 = .ok groups := ⟨_, rfl⟩
  exact ⟨groups, done, (groupHybridCandidates_grouped done).2.1⟩

/-- A candidate that is independent of the others joins a member that asks for
disjoint bindings, whatever it binds. -/
theorem groupHybridCandidates_overlap : ∃ group, groupHybridCandidates Sample.overlapping
    (fun _ => 0) () () 0 0 [0, 1] .hybridV1 = .ok [group] ∧ group.members = [0, 1] ∧
    ∃ disjoint other, Sample.overlapping.candidateView () 0 = .ok disjoint ∧
      Sample.overlapping.candidateView () 1 = .ok other ∧
      disjoint.batchPolicy = .disjointBindings ∧
      ¬disjoint.site.bindings.Disjoint other.site.bindings :=
  ⟨_, rfl, rfl, _, _, rfl, rfl, rfl, fun apart =>
    apart (mem_singleton_self (BoundObject.value 0)) (mem_singleton_self _)⟩

end GraphZero.Engine
