import Mathlib.Order.Interval.Set.Basic
import Mathlib.Order.Lattice.Nat

/-! # The first gap in a set of received positions

The purpose of a reassembly buffer, without the buffer: positions arrive in any
order, and the receiver may use exactly the positions before the first one that is
missing (`Frontier.frontier`). The frontier only grows as positions arrive.
-/

namespace Frontier

/-- The first position that has not been received. -/
noncomputable def frontier (received : Set ℕ) : ℕ := sInf receivedᶜ

/-- The frontier is the position that is missing with all smaller ones received. -/
theorem frontier_eq {received : Set ℕ} {edge : ℕ} (before : ∀ position < edge, position ∈ received)
    (missing : edge ∉ received) : frontier received = edge := by
  refine le_antisymm (Nat.sInf_le missing) (le_csInf ⟨edge, missing⟩ ?_)
  intro position absent
  by_contra below
  exact absent (before position (Nat.lt_of_not_le below))

/-- The frontier itself has not been received, if anything is missing. -/
theorem frontier_notMem {received : Set ℕ} (gap : receivedᶜ.Nonempty) :
    frontier received ∉ received :=
  Nat.sInf_mem gap

/-- The frontier grows with what has been received. -/
theorem frontier_mono {earlier later : Set ℕ} (subset : earlier ⊆ later)
    (gap : laterᶜ.Nonempty) : frontier earlier ≤ frontier later := by
  refine le_csInf gap fun position absent => Nat.sInf_le ?_
  exact fun present => absent (subset present)

end Frontier
