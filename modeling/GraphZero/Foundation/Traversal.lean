import Mathlib.Algebra.BigOperators.Group.Finset.Basic

/-!
# Traversals with a stack

A graph is traversed by marking the node on top of the stack, unless it was
marked before, and putting the nodes it leads to on the stack.  The marked
nodes are those that can be reached, each of them once, and the loop ends after
one round for the root and one for every edge.
-/

namespace GraphZero.Foundation

open List

variable {α ε : Type} {next : α → Except ε (List α)} {unfinished : ε} {fuel : Nat}
  {stack visited order : List α} {root : α}

/-- The second node is one that the first one leads to. -/
def Leads (next : α → Except ε (List α)) (node target : α) : Prop :=
  ∃ found, next node = .ok found ∧ target ∈ found

/-- What a traversal that ends has marked. -/
structure Marked (next : α → Except ε (List α)) (stack visited order : List α) : Prop where
  keeps : visited <+: order
  distinct : visited.Nodup → order.Nodup
  stacked : ∀ node ∈ stack, node ∈ order
  known : (∀ node ∈ visited, ∃ found, next node = .ok found) →
    ∀ node ∈ order, ∃ found, next node = .ok found
  closed : (∀ node ∈ visited, ∀ target, Leads next node target →
      target ∈ visited ∨ target ∈ stack) →
    ∀ node ∈ order, ∀ target, Leads next node target → target ∈ order
  sound : ∀ good : α → Prop,
    (∀ node target, good node → Leads next node target → good target) →
      (∀ node ∈ visited, good node) → (∀ node ∈ stack, good node) → ∀ node ∈ order, good node

theorem Marked.nil : Marked next [] visited visited where
  keeps := prefix_rfl
  distinct := id
  stacked := forall_mem_nil _
  known := id
  closed all node member target leads :=
    (all node member target leads).resolve_right not_mem_nil
  sound _ _ all _ := all

theorem Marked.skip {node} (old : node ∈ visited) (marked : Marked next stack visited order) :
    Marked next (node :: stack) visited order where
  keeps := marked.keeps
  distinct := marked.distinct
  stacked := forall_mem_cons.mpr ⟨marked.keeps.subset old, marked.stacked⟩
  known := marked.known
  closed all := marked.closed fun other member target leads => by
    rcases all other member target leads with seen | waits
    · exact .inl seen
    · rcases mem_cons.mp waits with rfl | waits
      · exact .inl old
      · exact .inr waits
  sound good step all waiting := marked.sound good step all (forall_mem_cons.mp waiting).2

theorem Marked.visit {node found} (new : node ∉ visited) (leads : next node = .ok found)
    (marked : Marked next (found ++ stack) (visited ++ [node]) order) :
    Marked next (node :: stack) visited order where
  keeps := (prefix_append _ _).trans marked.keeps
  distinct distinct := marked.distinct <| nodup_append.mpr
    ⟨distinct, nodup_singleton node, fun first member last here same =>
      new (mem_singleton.mp here ▸ same ▸ member)⟩
  stacked := forall_mem_cons.mpr ⟨marked.keeps.subset mem_concat_self, fun other waits =>
      marked.stacked other (mem_append_right _ waits)⟩
  known all := marked.known <| forall_mem_append.mpr ⟨all, forall_mem_singleton.mpr ⟨found, leads⟩⟩
  closed all := marked.closed fun other member target own => by
    rcases mem_append.mp member with earlier | last
    · rcases all other earlier target own with seen | waits
      · exact .inl (mem_append_left _ seen)
      · rcases mem_cons.mp waits with rfl | waits
        · exact .inl mem_concat_self
        · exact .inr (mem_append_right _ waits)
    · obtain ⟨other, same, here⟩ := own
      rw [mem_singleton.mp last, leads] at same
      cases same
      exact .inr (mem_append_left _ here)
  sound good step all waiting := by
    obtain ⟨top, below⟩ := forall_mem_cons.mp waiting
    refine marked.sound good step ?_ ?_
    · exact forall_mem_append.mpr ⟨all, forall_mem_singleton.mpr top⟩
    · exact forall_mem_append.mpr
        ⟨fun target here => step node target top ⟨found, leads, here⟩, below⟩

variable [DecidableEq α]

/-- The marked nodes in the order of marking, after those of `visited`. -/
def traverse (next : α → Except ε (List α)) (unfinished : ε) :
    (fuel : Nat) → (stack visited : List α) → Except ε (List α)
  | _, [], visited => .ok visited
  | 0, _ :: _, _ => .error unfinished
  | fuel + 1, node :: stack, visited =>
    match next node with
    | .error failure => .error failure
    | .ok found =>
      if node ∈ visited then traverse next unfinished fuel stack visited
      else
        traverse next unfinished fuel (found ++ stack) (visited ++ [node])

theorem marked_of_traverse (done : traverse next unfinished fuel stack visited = .ok order) :
    Marked next stack visited order := by
  induction fuel generalizing stack visited with
  | zero =>
    cases stack with
    | nil =>
      cases done
      exact .nil
    | cons node stack => cases done
  | succ fuel ih =>
    cases stack with
    | nil =>
      cases done
      exact .nil
    | cons node stack =>
      unfold traverse at done
      cases leads : next node with
      | error failure =>
        simp only [leads] at done
        cases done
      | ok found =>
        simp only [leads] at done
        split at done
        · next old => exact (ih done).skip old
        · next new => exact (ih done).visit new leads

/-- A traversal from one node marks it first, and marks what can be reached
from it once. -/
structure Traversed (next : α → Except ε (List α)) (root : α) (order : List α) : Prop where
  distinct : order.Nodup
  first : order.head? = some root
  known : ∀ node ∈ order, ∃ found, next node = .ok found
  mem_iff : ∀ node, node ∈ order ↔ Relation.ReflTransGen (Leads next) root node

theorem traversed_of_traverse (done : traverse next unfinished fuel [root] [] = .ok order) :
    Traversed next root order := by
  have marked := marked_of_traverse done
  refine ⟨marked.distinct nodup_nil, ?_,
    marked.known (forall_mem_nil _), fun node => ⟨?_, fun path => ?_⟩⟩
  · cases fuel with
    | zero => cases done
    | succ fuel =>
      unfold traverse at done
      cases leads : next root with
      | error failure =>
        simp only [leads] at done
        cases done
      | ok found =>
        simp only [leads, if_neg not_mem_nil, nil_append] at done
        obtain ⟨rest, rfl⟩ := (marked_of_traverse done).keeps
        rfl
  · refine marked.sound (Relation.ReflTransGen (Leads next) root)
      (fun _ _ path leads => path.tail leads) (forall_mem_nil _) ?_ node
    exact forall_mem_singleton.mpr .refl
  · induction path with
    | refl => exact marked.stacked root mem_cons_self
    | tail _ leads ih => exact marked.closed (forall_mem_nil _) _ ih _ leads

/-- The rounds that are left: one for each node on the stack and one for each
edge of a node that is not marked. -/
def roundsLeft (nodes : Finset α) (degree : α → Nat) (stack visited : List α) : Nat :=
  stack.length + ∑ node ∈ nodes.filter (· ∉ visited), degree node

theorem roundsLeft_visit {nodes degree node found} (member : node ∈ nodes) (new : node ∉ visited)
    (few : found.length ≤ degree node) :
    roundsLeft nodes degree (found ++ stack) (visited ++ [node]) <
      roundsLeft nodes degree (node :: stack) visited := by
  have left : nodes.filter (· ∉ visited ++ [node]) = (nodes.filter (· ∉ visited)).erase node := by
    ext other
    rw [Finset.mem_erase, Finset.mem_filter, Finset.mem_filter, mem_append, mem_singleton, not_or]
    tauto
  have split := Finset.add_sum_erase (nodes.filter (· ∉ visited)) degree
    (Finset.mem_filter.mpr ⟨member, new⟩)
  unfold roundsLeft
  rw [left, ← split, length_append, length_cons]
  omega

theorem exists_traverse {nodes degree} (known : ∀ node ∈ nodes, ∃ found, next node = .ok found ∧
      found.length ≤ degree node ∧ ∀ target ∈ found, target ∈ nodes)
    (inside : ∀ node ∈ stack, node ∈ nodes)
    (enough : roundsLeft nodes degree stack visited ≤ fuel) :
    ∃ order, traverse next unfinished fuel stack visited = .ok order := by
  induction fuel generalizing stack visited with
  | zero =>
    cases stack with
    | nil => exact ⟨visited, rfl⟩
    | cons node stack =>
      unfold roundsLeft at enough
      rw [length_cons] at enough
      omega
  | succ fuel ih =>
    cases stack with
    | nil => exact ⟨visited, rfl⟩
    | cons node stack =>
      obtain ⟨member, below⟩ := forall_mem_cons.mp inside
      obtain ⟨found, leads, few, targets⟩ := known node member
      unfold traverse
      simp only [leads]
      split
      · refine ih below ?_
        unfold roundsLeft at enough ⊢
        rw [length_cons] at enough
        omega
      · next new =>
        have less : roundsLeft nodes degree (found ++ stack)
            (visited ++ [node]) < _ := roundsLeft_visit member new few
        exact ih (forall_mem_append.mpr ⟨targets, below⟩) (by omega)

end GraphZero.Foundation
