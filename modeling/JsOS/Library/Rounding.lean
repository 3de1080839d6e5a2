import Mathlib.Data.BitVec

/-! # Rounding machine words

Clearing the low bits of a word rounds it down to a multiple of a power of two.
-/

namespace Rounding

/-- **Masking rounds down.** A word without its low bits is the multiple of their power of
two below it. -/
theorem toNat_and_not_ones {width : ℕ} (bits : ℕ) (value : BitVec width) :
    (value &&& ~~~BitVec.ofNat width (2 ^ bits - 1)).toNat = value.toNat / 2 ^ bits * 2 ^ bits := by
  have masked : value &&& ~~~BitVec.ofNat width (2 ^ bits - 1) = (value >>> bits) <<< bits := by
    refine BitVec.eq_of_getLsbD_eq fun bit below => ?_
    rw [BitVec.getLsbD_and, BitVec.getLsbD_not, BitVec.getLsbD_ofNat, BitVec.getLsbD_shiftLeft,
      BitVec.getLsbD_ushiftRight, Nat.testBit_two_pow_sub_one, decide_eq_true below, Bool.true_and,
      Bool.true_and, Bool.true_and, Bool.and_comm]
    rcases Nat.lt_or_ge bit bits with low | high
    · rw [decide_eq_true low, Bool.not_true, Bool.false_and, Bool.false_and]
    · rw [Nat.add_sub_cancel' high]
  have rounded : value.toNat / 2 ^ bits * 2 ^ bits < 2 ^ width :=
    (Nat.div_mul_le_self _ _).trans_lt value.isLt
  rw [masked, BitVec.toNat_shiftLeft, BitVec.toNat_ushiftRight, Nat.shiftRight_eq_div_pow,
    Nat.shiftLeft_eq, Nat.mod_eq_of_lt rounded]

end Rounding
