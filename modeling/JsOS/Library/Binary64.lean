import Mathlib.Data.Int.Log
import Mathlib.Data.Rat.Floor
import Mathlib.Tactic.Positivity
import Mathlib.Tactic.Linarith

/-! # Numbers of 64 bits

Binary floating-point numbers with a significand of 53 bits, as the results of rounding to
the nearest one, with ties to the even significand. A number that is not finite has no
value, and the two zeros are one number. A whole number with a significand that fits is
exact, and rounding does not leave the numbers from a power of two on.
-/

namespace Binary64

/-- A number; the two zeros, which compare equal, are not told apart. -/
inductive Number where
  | nan
  | infinite (negative : Bool)
  | finite (value : ℚ)
  deriving DecidableEq

/-- The number with the opposite sign. -/
def Number.neg : Number → Number
  | .nan => .nan
  | .infinite negative => .infinite !negative
  | .finite value => .finite (-value)

/-- The nearest whole number, the even one of two. -/
def roundHalfEven (value : ℚ) : ℤ :=
  if value - ⌊value⌋ < 1 / 2 then ⌊value⌋
  else if 1 / 2 < value - ⌊value⌋ then ⌊value⌋ + 1
  else if ⌊value⌋ % 2 = 0 then ⌊value⌋ else ⌊value⌋ + 1

/-- The exponent of the last place of a number near a value. -/
def exponent (value : ℚ) : ℤ := max (Int.log 2 value - 52) (-1074)

/-- The nearest multiple of the last place. -/
def round (value : ℚ) : ℚ := roundHalfEven (value / 2 ^ exponent value) * 2 ^ exponent value

/-- The number for a value that is not negative. -/
def ofRat (value : ℚ) : Number :=
  if 2 ^ 1024 ≤ round value then .infinite false else .finite (round value)

@[simp] theorem roundHalfEven_intCast (number : ℤ) : roundHalfEven number = number := by
  unfold roundHalfEven
  rw [Int.floor_intCast, sub_self, if_pos (by norm_num)]

theorem floor_le_roundHalfEven (value : ℚ) : ⌊value⌋ ≤ roundHalfEven value := by
  unfold roundHalfEven
  split
  · exact le_refl _
  · split
    · exact Int.le_add_one (le_refl _)
    · split
      · exact le_refl _
      · exact Int.le_add_one (le_refl _)

/-- Rounding does not go below a whole number. -/
theorem le_roundHalfEven {number : ℤ} {value : ℚ} (below : (number : ℚ) ≤ value) :
    number ≤ roundHalfEven value :=
  (Int.le_floor.mpr below).trans (floor_le_roundHalfEven value)

/-- **A whole number that fits the significand is exact.** -/
theorem round_natCast {number : ℕ} (fits : number < 2 ^ 53) : round number = number := by
  have small : Int.log 2 (number : ℚ) ≤ 52 := by
    rw [Int.log_natCast]
    exact_mod_cast Nat.le_of_lt_succ (Nat.log_lt_of_lt_pow' (by decide) fits)
  have whole : exponent number ≤ 0 := max_le (by omega) (by decide)
  obtain ⟨places, down⟩ := Int.eq_ofNat_of_zero_le (Int.neg_nonneg_of_nonpos whole)
  have scale : exponent number = -(places : ℤ) := by omega
  unfold round
  rw [scale, zpow_neg, zpow_natCast, div_inv_eq_mul,
    show (number : ℚ) * 2 ^ places = ((number * 2 ^ places : ℤ) : ℚ) by push_cast; rfl,
    roundHalfEven_intCast]
  push_cast
  rw [mul_assoc, mul_inv_cancel₀ (by positivity), mul_one]

/-- **Rounding does not cross a power of two downwards.** -/
theorem two_zpow_le_round {power : ℤ} (normal : -1022 ≤ power) {value : ℚ}
    (above : (2 : ℚ) ^ power ≤ value) : (2 : ℚ) ^ power ≤ round value := by
  have positive : 0 < value := (zpow_pos two_pos power).trans_le above
  have powerLe : power ≤ Int.log 2 value :=
    (Int.zpow_le_iff_le_log (b := 2) (by decide) positive).mp above
  have last : exponent value = Int.log 2 value - 52 := by
    unfold exponent
    apply max_eq_left
    omega
  have reached : (2 : ℚ) ^ Int.log 2 value ≤ value := Int.zpow_log_le_self (by decide) positive
  -- Counted in last places, the value has at least the smallest significand of 53 bits.
  have significand : (2 ^ 52 : ℤ) ≤ roundHalfEven (value / 2 ^ exponent value) := by
    apply le_roundHalfEven
    rw [last, le_div_iff₀ (zpow_pos two_pos _), Int.cast_pow, Int.cast_ofNat,
      show ((2 : ℚ) ^ 52) = 2 ^ (52 : ℤ) from rfl, ← zpow_add₀ two_ne_zero]
    rw [show (52 : ℤ) + (Int.log 2 value - 52) = Int.log 2 value by omega]
    exact reached
  calc (2 : ℚ) ^ power
      ≤ 2 ^ Int.log 2 value := zpow_le_zpow_right₀ (by norm_num) powerLe
    _ = ((2 ^ 52 : ℤ) : ℚ) * 2 ^ exponent value := by
        rw [last, Int.cast_pow, Int.cast_ofNat, show ((2 : ℚ) ^ 52) = 2 ^ (52 : ℤ) from rfl,
          ← zpow_add₀ two_ne_zero]
        rw [show (52 : ℤ) + (Int.log 2 value - 52) = Int.log 2 value by omega]
    _ ≤ round value :=
        mul_le_mul_of_nonneg_right (by exact_mod_cast significand) (zpow_pos two_pos _).le

/-- A whole number below a small power of two is the number for a whole value exactly if it
is the value. -/
theorem ofRat_natCast_eq_iff {value number power : ℕ} (below : number < 2 ^ power)
    (fits : power ≤ 53) :
    ofRat value = .finite number ↔ value = number := by
  have bound : (2 : ℕ) ^ power ≤ 2 ^ 53 := Nat.pow_le_pow_right (by decide) fits
  constructor
  · intro same
    have rounded : round value = number := by
      unfold ofRat at same
      split at same
      · cases same
      · exact Number.finite.inj same
    by_cases small : value < 2 ^ 53
    · rw [round_natCast small] at rounded
      exact_mod_cast rounded
    · -- A value that does not fit is rounded to one that is too large.
      have large : (2 : ℚ) ^ (53 : ℤ) ≤ value := by
        exact_mod_cast Nat.not_lt.mp small
      have kept := two_zpow_le_round (by decide) large
      rw [rounded] at kept
      have contradiction : 2 ^ 53 ≤ number := by exact_mod_cast kept
      omega
  · rintro rfl
    have exact := round_natCast (below.trans_le bound)
    unfold ofRat
    rw [exact, if_neg]
    rw [not_le]
    calc (value : ℚ) < 2 ^ power := by exact_mod_cast below
      _ ≤ 2 ^ 1024 := pow_le_pow_right₀ one_le_two (fits.trans (by decide))

end Binary64
