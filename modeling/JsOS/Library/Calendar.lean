import Mathlib.Data.Int.Notation
import Mathlib.Data.Nat.Notation

/-! # The Gregorian calendar

The days of years and months, counted one year and one month after the other, and the formulas that
count them at once: every fourth year is a leap year, but of the years that end a century only every
fourth (`daysOfYears_eq`).
-/

namespace Calendar

/-- A leap year. -/
def IsLeap (year : ℕ) : Prop := year % 4 = 0 ∧ (year % 100 ≠ 0 ∨ year % 400 = 0)

instance (year : ℕ) : Decidable (IsLeap year) :=
  inferInstanceAs (Decidable (year % 4 = 0 ∧ (year % 100 ≠ 0 ∨ year % 400 = 0)))

def yearLength (year : ℕ) : ℕ := if IsLeap year then 366 else 365

/-- The days of a month, of which January is the first. -/
def monthLength (year : ℕ) : ℕ → ℕ
  | 2 => if IsLeap year then 29 else 28
  | 4 | 6 | 9 | 11 => 30
  | _ => 31

/-- The days of a number of years. -/
def daysOfYears (first : ℕ) : ℕ → ℕ
  | 0 => 0
  | count + 1 => daysOfYears first count + yearLength (first + count)

/-- The days of the first months of a year. -/
def daysOfMonths (year : ℕ) : ℕ → ℕ
  | 0 => 0
  | count + 1 => daysOfMonths year count + monthLength year (count + 1)

/-- The leap years before a year. -/
def leapsBefore (year : ℕ) : ℤ := (year + 3) / 4 - (year + 99) / 100 + (year + 399) / 400

theorem leapsBefore_succ (year : ℕ) :
    leapsBefore (year + 1) = leapsBefore year + if IsLeap year then 1 else 0 := by
  unfold leapsBefore
  by_cases leap : IsLeap year
  · rw [if_pos leap]
    unfold IsLeap at leap
    omega
  · rw [if_neg leap]
    unfold IsLeap at leap
    omega

/-- **The days of years** are those of common years, and one for each leap year among them. -/
theorem daysOfYears_eq (first count : ℕ) :
    (daysOfYears first count : ℤ) =
      365 * count + (leapsBefore (first + count) - leapsBefore first) := by
  induction count with
  | zero =>
      unfold daysOfYears
      rw [Nat.add_zero]
      omega
  | succ count inductionHypothesis =>
      have next := leapsBefore_succ (first + count)
      unfold daysOfYears yearLength
      rw [Nat.add_assoc] at next
      split at next
      · next leap =>
          rw [if_pos leap]
          omega
      · next common =>
          rw [if_neg common]
          omega

/-- The months make the year. -/
theorem daysOfMonths_twelve (year : ℕ) : daysOfMonths year 12 = yearLength year := by
  unfold yearLength
  simp only [daysOfMonths, monthLength]
  split
  · rfl
  · rfl

theorem monthLength_le (year month : ℕ) : monthLength year month ≤ 31 := by
  unfold monthLength
  split
  · split
    · decide
    · decide
  all_goals decide

end Calendar
