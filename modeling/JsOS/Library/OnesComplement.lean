import Mathlib.Algebra.BigOperators.Group.List.Basic
import Mathlib.Data.BitVec

/-! # One's-complement sums

Sums of 16-bit words with the carry out of the top added in at the bottom. Such a sum is
the residue of the plain sum modulo `2 ^ 16 - 1`, where the residue zero is the word of ones
unless all words are zero (`OnesComplement.sum_eq_ones_iff`). Words are taken from bytes in
pairs, the first byte most significant, with a zero byte after an odd one.
-/

namespace OnesComplement

/-- Addition with end-around carry. -/
def add (first second : ℕ) : ℕ :=
  if first + second < 2 ^ 16 then first + second else first + second + 1 - 2 ^ 16

/-- The one's-complement sum of words. -/
def sum (words : List ℕ) : ℕ := words.foldl add 0

/-- The words of a string of bytes, padded with zero. -/
def words : List UInt8 → List ℕ
  | [] => []
  | [high] => [high.toNat * 2 ^ 8]
  | high :: low :: bytes => (high.toNat * 2 ^ 8 + low.toNat) :: words bytes

theorem add_spec {first second : ℕ} (firstLt : first < 2 ^ 16) (secondLt : second < 2 ^ 16) :
    add first second < 2 ^ 16 ∧ add first second % 65535 = (first + second) % 65535 ∧
      (add first second = 0 ↔ first + second = 0) := by
  unfold add
  split
  · exact ⟨by omega, rfl, Iff.rfl⟩
  · exact ⟨by omega, by omega, by omega⟩

theorem foldl_add_spec (list : List ℕ) (small : ∀ word ∈ list, word < 2 ^ 16) {start : ℕ}
    (startLt : start < 2 ^ 16) :
    list.foldl add start < 2 ^ 16 ∧ list.foldl add start % 65535 = (start + list.sum) % 65535 ∧
      (list.foldl add start = 0 ↔ start + list.sum = 0) := by
  induction list generalizing start with
  | nil => exact ⟨startLt, rfl, Iff.rfl⟩
  | cons word list ih =>
      obtain ⟨below, residue, zero⟩ := add_spec startLt (small word List.mem_cons_self)
      obtain ⟨sumLt, sumResidue, sumZero⟩ :=
        ih (fun other member => small other (List.mem_cons_of_mem _ member)) below
      rw [List.foldl_cons, List.sum_cons]
      refine ⟨sumLt, ?_, ?_⟩
      · rw [sumResidue]
        omega
      · rw [sumZero]
        omega

/-- **When a sum is the word of ones.** -/
theorem sum_eq_ones_iff {list : List ℕ} (small : ∀ word ∈ list, word < 2 ^ 16) :
    sum list = 0xffff ↔ list.sum ≠ 0 ∧ list.sum % 65535 = 0 := by
  obtain ⟨below, residue, zero⟩ := @foldl_add_spec list small 0 (by decide)
  rw [Nat.zero_add] at residue zero
  unfold sum
  omega

/-! ## Words of bytes -/

theorem words_lt (bytes : List UInt8) : ∀ word ∈ words bytes, word < 2 ^ 16 := by
  induction bytes using words.induct with
  | case1 => exact fun word member => absurd member List.not_mem_nil
  | case2 high =>
      intro word member
      have highLt : high.toNat < 2 ^ 8 := high.toBitVec.isLt
      rw [List.mem_singleton.mp member]
      omega
  | case3 high low bytes ih =>
      intro word member
      have highLt : high.toNat < 2 ^ 8 := high.toBitVec.isLt
      have lowLt : low.toNat < 2 ^ 8 := low.toBitVec.isLt
      rcases List.mem_cons.mp member with rfl | later
      · omega
      · exact ih word later

/-- The words of bytes in two parts, the first of even length. -/
theorem words_append (first second : List UInt8) (even : first.length % 2 = 0) :
    words (first ++ second) = words first ++ words second := by
  induction first using words.induct with
  | case1 => rfl
  | case2 high => cases even
  | case3 high low bytes ih =>
      rw [List.length_cons, List.length_cons] at even
      rw [List.cons_append, List.cons_append, words, words, ih (by omega), List.cons_append]

/-- The plain sum of the words of bytes. -/
def wordSum (bytes : List UInt8) : ℕ := (words bytes).sum

theorem wordSum_append (first second : List UInt8) (even : first.length % 2 = 0) :
    wordSum (first ++ second) = wordSum first + wordSum second := by
  unfold wordSum
  rw [words_append first second even, List.sum_append]

@[simp] theorem wordSum_nil : wordSum [] = 0 := rfl

@[simp] theorem wordSum_singleton (high : UInt8) : wordSum [high] = high.toNat * 2 ^ 8 := by
  unfold wordSum words
  rw [List.sum_cons, List.sum_nil, Nat.add_zero]

@[simp] theorem wordSum_cons_cons (high low : UInt8) (bytes : List UInt8) :
    wordSum (high :: low :: bytes) = high.toNat * 2 ^ 8 + low.toNat + wordSum bytes := by
  unfold wordSum
  rw [words, List.sum_cons]

/-- A word takes at most two bytes. -/
theorem wordSum_le (bytes : List UInt8) : wordSum bytes ≤ (bytes.length + 1) / 2 * 65535 := by
  induction bytes using words.induct with
  | case1 => exact Nat.le_refl _
  | case2 high =>
      have highLt : high.toNat < 2 ^ 8 := high.toBitVec.isLt
      change high.toNat * 2 ^ 8 + 0 ≤ (1 + 1) / 2 * 65535
      omega
  | case3 high low bytes ih =>
      have highLt : high.toNat < 2 ^ 8 := high.toBitVec.isLt
      have lowLt : low.toNat < 2 ^ 8 := low.toBitVec.isLt
      rw [wordSum_cons_cons, List.length_cons, List.length_cons]
      omega

end OnesComplement
