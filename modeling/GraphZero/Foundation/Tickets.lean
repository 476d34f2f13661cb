import Mathlib.Data.List.Nodup
import Mathlib.Data.List.Perm.Basic

/-!
# Tickets

A counter issues tickets; an open ticket is remembered together with what it
is for.  As the counter never returns to a number, a ticket names one purpose
as long as it is open.
-/

namespace GraphZero.Foundation

open List

variable {κ : Type*}

/-- The open tickets are distinct and below the next one. -/
structure Issued (next : Nat) (tickets : List (Nat × κ)) : Prop where
  distinct : (tickets.map Prod.fst).Nodup
  below : ∀ ticket ∈ tickets, ticket.1 < next

namespace Issued

variable {next : Nat} {tickets rest : List (Nat × κ)}

theorem nil (next : Nat) : Issued next ([] : List (Nat × κ)) where
  distinct := nodup_nil
  below _ member := absurd member not_mem_nil

theorem perm (issued : Issued next tickets) (same : rest.Perm tickets) : Issued next rest where
  distinct := (same.map Prod.fst).nodup_iff.mpr issued.distinct
  below ticket member := issued.below ticket (same.mem_iff.mp member)

theorem issue (issued : Issued next tickets) (purpose : κ) :
    Issued (next + 1) ((next, purpose) :: tickets) where
  distinct := by
    rw [map_cons, nodup_cons]
    refine ⟨fun member => ?_, issued.distinct⟩
    obtain ⟨ticket, stillOpen, same⟩ := mem_map.mp member
    have earlier := issued.below ticket stillOpen
    omega
  below ticket member := by
    rcases mem_cons.mp member with rfl | older
    · exact Nat.lt_succ_self next
    · have earlier := issued.below ticket older
      omega

theorem close {ticket} (issued : Issued next (ticket :: rest)) : Issued next rest where
  distinct := (nodup_cons.mp issued.distinct).2
  below other member := issued.below other (mem_cons_of_mem _ member)

theorem purpose_eq (issued : Issued next tickets) {number purpose other}
    (first : (number, purpose) ∈ tickets) (second : (number, other) ∈ tickets) :
    purpose = other := by
  have same := inj_on_of_nodup_map issued.distinct first second rfl
  exact congrArg Prod.snd same

end Issued

end GraphZero.Foundation
