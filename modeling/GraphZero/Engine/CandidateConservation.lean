import GraphZero.Engine.CompilerCandidates
import GraphZero.Foundation.Result
import GraphZero.Foundation.Sequences

/-!
# No candidate handle is lost

Every handle that the native engine has enumerated is a member of exactly one
retained group or has been released exactly once, after any sequence of calls,
successful or failing.  A ledger beside the native engine records what was
enumerated and what was released.
-/

namespace GraphZero.Engine

open GraphZero.Foundation List

variable {σ γ κ : Type}

section Grouping

variable {native : NativeEngine σ γ κ} {blake3 : List UInt8 → BitVec 256}
  {candidateMode : CompilerCandidateMode} {state : σ}

theorem flatMap_modify_perm {α β : Type} {items : List α} {members change} {added : β} {index item}
    (found : items[index]? = some item)
    (changed : members (change item) = members item ++ [added]) :
    ((items.modify index change).flatMap members).Perm (items.flatMap members ++ [added]) := by
  induction items generalizing index with
  | nil => cases found
  | cons first items ih =>
    cases index with
    | zero =>
      cases found
      rw [modify_zero_cons, flatMap_cons, flatMap_cons, changed, append_assoc, append_assoc]
      exact List.Perm.append_left _ perm_append_comm
    | succ index =>
      rw [modify_succ_cons, flatMap_cons, flatMap_cons, append_assoc]
      exact List.Perm.append_left _ (ih found)

theorem groupCandidate_members {view : CompilerStateView} {grouped next} {candidate : κ}
    (done : groupCandidate native blake3 candidateMode state view grouped candidate = .ok next) :
    (next.groups.flatMap PendingGroup.members).Perm
      (grouped.groups.flatMap PendingGroup.members ++ [candidate]) := by
  obtain ⟨candidateView, _, done⟩ := ok_of_bind done
  obtain ⟨key, _, done⟩ := ok_of_bind done
  have started : ((grouped.groups ++ [PendingGroup.start candidate
      candidateView]).flatMap PendingGroup.members).Perm
        (grouped.groups.flatMap PendingGroup.members ++ [candidate]) := by
    rw [flatMap_append, flatMap_singleton]
    exact List.Perm.refl _
  cases key with
  | none =>
    cases done
    exact started
  | some key =>
    dsimp only at done
    split at done
    next index opened =>
      cases done
      have present := find?_some opened
      obtain ⟨group, found, _⟩ := Option.any_eq_true _ _ |>.mp present
      exact flatMap_modify_perm found rfl
    next =>
    cases done
    exact started

theorem finished_members {parentHash actionSetHash pending groups}
    (finished : List.Forall₂ (fun group finished => finishGroup native blake3 state
      parentHash actionSetHash group = .ok finished) pending groups) :
    groups.flatMap CompilerCandidateGroup.members = pending.flatMap PendingGroup.members := by
  induction finished with
  | nil => rfl
  | cons first _ ih =>
    obtain ⟨hashes, _, built⟩ := ok_of_bind first
    cases built
    rw [flatMap_cons, flatMap_cons, ih]

theorem groupHybridCandidates_members {graph parentHash actionSetHash candidates groups}
    (done : groupHybridCandidates native blake3 state graph parentHash
      actionSetHash candidates candidateMode = .ok groups) :
    (groups.flatMap CompilerCandidateGroup.members).Perm candidates := by
  obtain ⟨view, _, done⟩ := ok_of_bind done
  obtain ⟨signatures, _, done⟩ := ok_of_bind done
  obtain ⟨grouped, loop, done⟩ := ok_of_bind done
  have rounds : ∀ (candidates : List κ) (start final : Grouped κ),
      candidates.foldlM (groupCandidate native blake3 candidateMode state
        signatures) start = .ok final →
      (final.groups.flatMap PendingGroup.members).Perm
        (start.groups.flatMap PendingGroup.members ++ candidates) := by
    intro candidates
    induction candidates with
    | nil =>
      intro start final same
      cases same
      rw [append_nil]
    | cons candidate candidates ih =>
      intro start final followed
      obtain ⟨mid, first, followed⟩ := ok_of_bind followed
      refine (ih mid final followed).trans ?_
      refine ((groupCandidate_members first).append_right candidates).trans ?_
      rw [append_assoc, singleton_append]
  rw [finished_members (forall₂_of_mapM_eq_ok done)]
  exact rounds candidates ⟨[], ∅⟩ grouped loop

end Grouping

/-! ### The members of the retained groups -/

section Held

variable [DecidableEq κ] {groups : Table κ (CompilerCandidateGroup κ)}

def membersOf (groups : Table κ (CompilerCandidateGroup κ)) (key : κ) : List κ :=
  (groups.get? key).elim [] CompilerCandidateGroup.members

/-- The handles that the retained groups hold. -/
def heldMembers (groups : Table κ (CompilerCandidateGroup κ)) : List κ :=
  groups.keys.flatMap (membersOf groups)

theorem mem_heldMembers {handle} : handle ∈ heldMembers groups ↔
      ∃ key group, groups.get? key = some group ∧ handle ∈ group.members := by
  simp only [heldMembers, mem_flatMap, membersOf]
  constructor
  · rintro ⟨key, member, inside⟩
    obtain ⟨group, found⟩ := Table.mem_keys_iff.mp member
    rw [found, Option.elim_some] at inside
    exact ⟨key, group, found, inside⟩
  · rintro ⟨key, group, found, inside⟩
    exact ⟨key, Table.mem_keys_of_get? found, by rw [found]; exact inside⟩

theorem heldMembers_insert {key group} (absent : groups.get? key = none) :
    heldMembers (groups.insert key group) = group.members ++ heldMembers groups := by
  have fresh : key ∉ groups.keys := Table.get?_eq_none_iff.mp absent
  have others : ∀ other ∈ groups.keys,
      membersOf (groups.insert key group) other = membersOf groups other := by
    intro other member
    rw [membersOf, Table.get?_insert_of_ne, membersOf]
    rintro rfl
    exact fresh member
  rw [heldMembers, Table.keys_insert, erase_of_not_mem fresh,
    flatMap_cons, heldMembers, flatMap_congr others, membersOf,
    Table.get?_insert_self, Option.elim_some]

theorem heldMembers_erase {key} (present : key ∈ groups.keys) : (heldMembers groups).Perm
      (membersOf groups key ++ heldMembers (groups.erase key)) := by
  have others : ∀ other ∈ groups.keys.erase key,
      membersOf (groups.erase key) other = membersOf groups other := by
    intro other member
    rw [membersOf, Table.get?_erase_of_ne, membersOf]
    rintro rfl
    exact groups.nodup_keys.not_mem_erase member
  rw [heldMembers, heldMembers, Table.keys_erase, flatMap_congr others, ← flatMap_cons]
  exact (perm_cons_erase present).flatMap_right _

/-- Every group is filed under its representative. -/
def Keyed (groups : Table κ (CompilerCandidateGroup κ)) : Prop :=
  ∀ key group, groups.get? key = some group → group.representative = key

theorem Keyed.get?_eq_none (keyed : Keyed groups) {handle} (free : handle ∉ heldMembers groups) :
    groups.get? handle = none := by
  cases found : groups.get? handle with
  | none => rfl
  | some group =>
    refine absurd (mem_heldMembers.mpr ⟨handle, group, found, ?_⟩) free
    rw [← keyed handle group found]
    exact head_mem group.filled

theorem heldMembers_retain {retained : List (CompilerCandidateGroup κ)} (keyed : Keyed groups)
    (distinct : (retained.flatMap CompilerCandidateGroup.members ++ heldMembers groups).Nodup) :
    Keyed (retained.foldl (fun groups group =>
        groups.insert group.representative group) groups) ∧
      (heldMembers (retained.foldl (fun groups group =>
        groups.insert group.representative group) groups)).Perm
        (retained.flatMap CompilerCandidateGroup.members ++ heldMembers groups) := by
  induction retained generalizing groups with
  | nil => exact ⟨keyed, List.Perm.refl _⟩
  | cons group retained ih =>
    rw [flatMap_cons, append_assoc] at distinct
    have here : group.representative ∈ group.members := head_mem group.filled
    have fresh : groups.get? group.representative = none := by
      refine keyed.get?_eq_none fun held => ?_
      exact (nodup_append'.mp distinct).2.2 here (mem_append_right _ held)
    have inserted := @heldMembers_insert _ _ _ _ group fresh
    have moved : (retained.flatMap CompilerCandidateGroup.members ++
        heldMembers (groups.insert group.representative group)).Perm
        (group.members ++ (retained.flatMap CompilerCandidateGroup.members ++
          heldMembers groups)) := by
      rw [inserted, ← append_assoc, ← append_assoc]
      exact perm_append_comm.append_right _
    have keyedNext : Keyed (groups.insert group.representative group) := by
      intro key other found
      rw [Table.get?_insert] at found
      split at found
      next same =>
        cases found
        exact same.symm
      next => exact keyed key other found
    obtain ⟨keyedAll, held⟩ := ih keyedNext (moved.nodup_iff.mpr distinct)
    rw [foldl_cons, flatMap_cons, append_assoc]
    exact ⟨keyedAll, held.trans moved⟩

theorem heldMembers_drop {keys : List κ} (distinct : keys.Nodup)
    (present : ∀ key ∈ keys, key ∈ groups.keys) :
    (heldMembers groups).Perm
      (keys.flatMap (membersOf groups) ++ heldMembers (keys.foldl Table.erase groups)) := by
  induction keys generalizing groups with
  | nil => exact List.Perm.refl _
  | cons key keys ih =>
    obtain ⟨fresh, distinct⟩ := nodup_cons.mp distinct
    have other : ∀ later ∈ keys, later ≠ key := by
      rintro later member rfl
      exact fresh member
    have same : ∀ later ∈ keys, membersOf (groups.erase key) later = membersOf groups later := by
      intro later member
      rw [membersOf, Table.get?_erase_of_ne (other later member), membersOf]
    have rest := @ih (groups.erase key) distinct fun later member => Table.mem_keys_erase.mpr
        ⟨present later (mem_cons_of_mem _ member), other later member⟩
    rw [flatMap_congr same] at rest
    rw [flatMap_cons, foldl_cons, append_assoc]
    exact (heldMembers_erase (present key mem_cons_self)).trans (rest.append_left _)

theorem Keyed.drop (keyed : Keyed groups) (keys : List κ) :
    Keyed (keys.foldl Table.erase groups) := by
  intro key group found
  rw [Table.get?_foldl_erase] at found
  split at found
  · cases found
  · exact keyed key group found

theorem releaseMembers_eq_ok {seen candidates members}
    (done : CompilerEngine.releaseMembers groups seen candidates = .ok members) :
    candidates.Nodup ∧ (∀ candidate ∈ candidates, candidate ∉ seen) ∧
      (∀ candidate ∈ candidates, candidate ∈ groups.keys) ∧
      members = candidates.flatMap (membersOf groups) := by
  induction candidates generalizing seen members with
  | nil =>
    cases done
    exact ⟨nodup_nil, forall_mem_nil _, forall_mem_nil _, rfl⟩
  | cons candidate candidates ih =>
    unfold CompilerEngine.releaseMembers at done
    split at done
    next => cases done
    next unseen =>
    split at done
    next => cases done
    next group found =>
    obtain ⟨others, rest, done⟩ := ok_of_bind done
    cases done
    obtain ⟨distinct, fresh, present, same⟩ := ih rest
    refine ⟨nodup_cons.mpr ⟨?_, distinct⟩, ?_, ?_, ?_⟩
    · intro member
      exact fresh candidate member mem_cons_self
    · intro other member
      rcases mem_cons.mp member with rfl | member
      · exact unseen
      · exact fun early =>
          fresh other member (mem_cons_of_mem _ early)
    · intro other member
      rcases mem_cons.mp member with rfl | member
      · exact Table.mem_keys_of_get? found
      · exact present other member
    · rw [flatMap_cons, ← same, membersOf, found, Option.elim_some]

theorem releaseMembers_isOk (seen : List κ) {candidates} (distinct : candidates.Nodup)
    (fresh : ∀ candidate ∈ candidates, candidate ∉ seen)
    (exposed : ∀ candidate ∈ candidates, candidate ∈ groups.keys) :
    CompilerEngine.releaseMembers groups seen candidates =
      .ok (candidates.flatMap (membersOf groups)) := by
  induction candidates generalizing seen with
  | nil => rfl
  | cons candidate candidates ih =>
    obtain ⟨outside, distinct⟩ := nodup_cons.mp distinct
    obtain ⟨group, found⟩ := Table.mem_keys_iff.mp (exposed candidate mem_cons_self)
    have rest := ih (candidate :: seen) distinct (by
        intro later member early
        rcases mem_cons.mp early with rfl | early
        · exact outside member
        · exact fresh later (mem_cons_of_mem _ member) early)
      fun later member => exposed later (mem_cons_of_mem _ member)
    unfold CompilerEngine.releaseMembers
    rw [if_neg (fresh candidate mem_cons_self), found]
    rw [rest, flatMap_cons, membersOf, found, Option.elim_some]
    rfl

end Held

end GraphZero.Engine
