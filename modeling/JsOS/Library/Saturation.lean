import Mathlib.Data.Finset.Card

/-! # Levels that saturate

Growing subsets of a finite set, of which each depends on the one before only: once a level
adds nothing, no later one does. Every level that adds something adds an element, so as many
levels as there are elements reach everything.
-/

namespace Saturation

variable {α : Type*} {levels : ℕ → Finset α} {whole : Finset α}

/-- A level that adds nothing is the last one that matters. -/
theorem eq_of_stays (stays : ∀ n, levels n = levels (n + 1) → levels (n + 1) = levels (n + 2))
    {first : ℕ} (same : levels first = levels (first + 1)) {later : ℕ} (after : first ≤ later) :
    levels later = levels first := by
  have further : ∀ n, first ≤ n → levels n = levels (n + 1) := by
    intro n reached
    induction n, reached using Nat.le_induction with
    | base => exact same
    | succ n _ ih => exact stays n ih
  induction later, after using Nat.le_induction with
  | base => rfl
  | succ n reached ih => rw [← further n reached, ih]

/-- As long as every level adds something there are as many elements as levels. -/
theorem le_card_or_stays (grows : ∀ n, levels n ⊆ levels (n + 1)) (n : ℕ) :
    n ≤ (levels n).card ∨ ∃ first < n, levels first = levels (first + 1) := by
  induction n with
  | zero => exact .inl (Nat.zero_le _)
  | succ n ih =>
      rcases ih with enough | ⟨first, before, same⟩
      · by_cases same : levels n = levels (n + 1)
        · exact .inr ⟨n, Nat.lt_succ_self n, same⟩
        · have more : (levels n).card < (levels (n + 1)).card :=
            Finset.card_lt_card ((grows n).ssubset_of_ne same)
          exact .inl (Nat.succ_le_of_lt (Nat.lt_of_le_of_lt enough more))
      · exact .inr ⟨first, Nat.lt_succ_of_lt before, same⟩

/-- **As many levels as there are elements reach everything.** -/
theorem subset_card (grows : ∀ n, levels n ⊆ levels (n + 1)) (bounded : ∀ n, levels n ⊆ whole)
    (stays : ∀ n, levels n = levels (n + 1) → levels (n + 1) = levels (n + 2)) (n : ℕ) :
    levels n ⊆ levels whole.card := by
  rcases le_card_or_stays grows (whole.card + 1) with enough | ⟨first, before, same⟩
  · have few := Finset.card_le_card (bounded (whole.card + 1))
    exact absurd (Nat.le_trans enough few) (Nat.not_succ_le_self _)
  · rw [eq_of_stays stays same (Nat.le_of_lt_succ before)]
    rcases Nat.le_total first n with after | earlier
    · rw [eq_of_stays stays same after]
    · exact monotone_nat_of_le_succ grows earlier

end Saturation
