import Mathlib.Data.BitVec
import Mathlib.Logic.Function.Iterate

/-! # Division by a reflected polynomial

A register from which a cyclic redundancy check comes holds the remainder of the bits so far with the
coefficient of the highest power in its lowest bit. A bit enters there, and the register moves one
place with the polynomial added if a one falls out. Moving is linear in the register, and one that
ends in zeros only moves; so a chunk of bits may enter at once (`foldl_feed_bits`), and its steps may
be taken from a table of what they make of each chunk (`iterate_shift_eq`).
-/

namespace ReflectedDivision

variable {width : Nat} (polynomial : BitVec width)

/-- The register moves one place. -/
def shift (register : BitVec width) : BitVec width :=
  if register.getLsbD 0 then register >>> 1 ^^^ polynomial else register >>> 1

/-- A bit enters the register. -/
def feed (register : BitVec width) (bit : Bool) : BitVec width :=
  shift polynomial (register ^^^ (BitVec.ofBool bit).setWidth width)

/-- The bits of a chunk, from the lowest. -/
def bits {size : Nat} (chunk : BitVec size) : List Bool := (List.range size).map chunk.getLsbD

variable {polynomial}

/-! ## Moving -/

/-- Moving is linear. -/
theorem shift_xor (first second : BitVec width) :
    shift polynomial (first ^^^ second) = shift polynomial first ^^^ shift polynomial second := by
  have cancel (a b : BitVec width) : a ^^^ polynomial ^^^ (b ^^^ polynomial) = a ^^^ b := by
    rw [BitVec.xor_comm b, BitVec.xor_assoc, ← BitVec.xor_assoc polynomial, BitVec.xor_self,
      BitVec.zero_xor]
  unfold shift
  rw [BitVec.getLsbD_xor, BitVec.ushiftRight_xor_distrib]
  cases first.getLsbD 0 with
  | false =>
      cases second.getLsbD 0 with
      | false => rfl
      | true => exact BitVec.xor_assoc _ _ _
  | true =>
      cases second.getLsbD 0 with
      | false =>
          change first >>> 1 ^^^ second >>> 1 ^^^ polynomial =
            first >>> 1 ^^^ polynomial ^^^ second >>> 1
          rw [BitVec.xor_assoc, BitVec.xor_comm (second >>> 1), BitVec.xor_assoc]
      | true => exact (cancel _ _).symm

theorem iterate_shift_xor (count : Nat) (first second : BitVec width) :
    (shift polynomial)^[count] (first ^^^ second) =
      (shift polynomial)^[count] first ^^^ (shift polynomial)^[count] second := by
  induction count generalizing first second with
  | zero => rfl
  | succ count ih => rw [Function.iterate_succ_apply, shift_xor, ih]; rfl

/-- A register that ends in zeros only moves. -/
theorem iterate_shift_of_clear {register : BitVec width} (count : Nat)
    (clear : ∀ i < count, register.getLsbD i = false) :
    (shift polynomial)^[count] register = register >>> count := by
  induction count with
  | zero => rw [BitVec.ushiftRight_zero]; rfl
  | succ count ih =>
      have moved := ih fun i below => clear i (by omega)
      have low : (register >>> count).getLsbD 0 = false := by
        rw [BitVec.getLsbD_ushiftRight]
        exact clear count (by omega)
      rw [Function.iterate_succ_apply', moved, shift, low, if_neg Bool.false_ne_true,
        BitVec.shiftRight_add]

/-! ## Chunks -/

/-- The low bits of a register. -/
def low (count : Nat) (register : BitVec width) : BitVec width :=
  (register.setWidth count).setWidth width

theorem getLsbD_low (count : Nat) (register : BitVec width) (i : Nat) :
    (low count register).getLsbD i = (decide (i < count) && register.getLsbD i) := by
  unfold low
  rw [BitVec.getLsbD_setWidth, BitVec.getLsbD_setWidth]
  by_cases inside : i < width
  · rw [decide_eq_true inside, Bool.true_and]
  · rw [BitVec.getLsbD_of_ge register i (by omega), Bool.and_false, Bool.and_false]

/-- **Many steps at once**: what moves out of the register, and what the steps make of the low
bits. -/
theorem iterate_shift_eq (count : Nat) (register : BitVec width) :
    (shift polynomial)^[count] register =
      register >>> count ^^^ (shift polynomial)^[count] (low count register) := by
  have parts : register = (register ^^^ low count register) ^^^ low count register := by
    rw [BitVec.xor_assoc, BitVec.xor_self, BitVec.xor_zero]
  have clear (i : Nat) (below : i < count) :
      (register ^^^ low count register).getLsbD i = false := by
    rw [BitVec.getLsbD_xor, getLsbD_low, decide_eq_true below, Bool.true_and, Bool.xor_self]
  have high : (register ^^^ low count register) >>> count = register >>> count := by
    apply BitVec.eq_of_getLsbD_eq
    intro i _
    rw [BitVec.getLsbD_ushiftRight, BitVec.getLsbD_ushiftRight, BitVec.getLsbD_xor, getLsbD_low,
      decide_eq_false (by omega), Bool.false_and, Bool.xor_false]
  conv_lhs => rw [parts]
  rw [iterate_shift_xor, iterate_shift_of_clear count clear, high]

/-- A bit at a place of the register. -/
def placed (width place : Nat) (bit : Bool) : BitVec width :=
  (BitVec.ofBool bit).setWidth width <<< place

theorem getLsbD_placed {place : Nat} (inside : place < width) (bit : Bool) (i : Nat) :
    (placed width place bit).getLsbD i = (decide (i = place) && bit) := by
  unfold placed
  rw [BitVec.getLsbD_shiftLeft, BitVec.getLsbD_setWidth, BitVec.getLsbD_ofBool]
  rcases Nat.lt_trichotomy i place with before | rfl | after
  · rw [decide_eq_true before, decide_eq_false (show ¬i = place by omega)]
    simp
  · simp [inside, show 0 < width by omega]
  · rw [decide_eq_false (show ¬i = place by omega), decide_eq_false (show ¬i - place = 0 by omega)]
    simp

/-- From its place the bit moves to the end. -/
theorem iterate_shift_placed {place : Nat} (inside : place < width) (bit : Bool) :
    (shift polynomial)^[place] (placed width place bit) = (BitVec.ofBool bit).setWidth width := by
  rw [iterate_shift_of_clear]
  · apply BitVec.eq_of_getLsbD_eq
    intro i below
    rw [BitVec.getLsbD_ushiftRight, getLsbD_placed inside, BitVec.getLsbD_setWidth,
      BitVec.getLsbD_ofBool, decide_eq_true below, Bool.true_and]
    congr 1
    exact decide_eq_decide.mpr (by omega)
  · intro i below
    rw [getLsbD_placed inside, decide_eq_false (by omega), Bool.false_and]

theorem low_succ {place : Nat} (inside : place < width) (register : BitVec width) :
    low (place + 1) register =
      low place register ^^^ placed width place (register.getLsbD place) := by
  apply BitVec.eq_of_getLsbD_eq
  intro i _
  rw [BitVec.getLsbD_xor, getLsbD_low, getLsbD_low, getLsbD_placed inside]
  rcases Nat.lt_trichotomy i place with before | rfl | after
  · simp [before, show i < place + 1 by omega, show i ≠ place by omega]
  · simp
  · simp [show ¬i < place + 1 by omega, show ¬i < place by omega, show i ≠ place by omega]

/-- Bits that enter one after another enter at once. -/
theorem foldl_feed_range (chunk register : BitVec width) (count : Nat) (fits : count ≤ width) :
    ((List.range count).map chunk.getLsbD).foldl (feed polynomial) register =
      (shift polynomial)^[count] (register ^^^ low count chunk) := by
  induction count with
  | zero =>
      have empty : low 0 chunk = BitVec.ofNat width 0 := by
        apply BitVec.eq_of_getLsbD_eq
        intro i _
        rw [getLsbD_low, BitVec.getLsbD_zero]
        rfl
      rw [empty, BitVec.xor_zero]
      rfl
  | succ count ih =>
      rw [List.range_succ, List.map_append, List.foldl_append, ih (by omega)]
      change feed polynomial _ (chunk.getLsbD count) = _
      -- the bit that enters now has come down from its place
      rw [feed, ← @iterate_shift_placed width polynomial count fits, ← iterate_shift_xor,
        ← Function.iterate_succ_apply' (shift polynomial), low_succ fits, BitVec.xor_assoc]

/-- **A chunk enters at once.** -/
theorem foldl_feed_bits {size : Nat} (fits : size ≤ width) (chunk : BitVec size)
    (register : BitVec width) :
    (bits chunk).foldl (feed polynomial) register =
      (shift polynomial)^[size] (register ^^^ chunk.setWidth width) := by
  have wide : bits chunk = (List.range size).map (chunk.setWidth width).getLsbD := by
    refine List.map_congr_left fun i member => ?_
    have below := List.mem_range.mp member
    rw [BitVec.getLsbD_setWidth, decide_eq_true (by omega), Bool.true_and]
  have whole : low size (chunk.setWidth width) = chunk.setWidth width := by
    apply BitVec.eq_of_getLsbD_eq
    intro i _
    rw [getLsbD_low, BitVec.getLsbD_setWidth]
    by_cases below : i < size
    · rw [decide_eq_true below, Bool.true_and]
    · rw [BitVec.getLsbD_of_ge chunk i (by omega), Bool.and_false, Bool.and_false]
  rw [wide, foldl_feed_range _ _ _ fits, whole]

end ReflectedDivision
