import Mathlib.Data.BitVec
import Mathlib.Tactic.Ring

/-! # Circular positions

Fixed-width numbers used as positions on a circle: the distance from one
position forward to another (`Circular.ahead`) is their difference modulo the
size of the circle. Comparing distances from a common origin orders the
positions of an arc, wherever on the circle the arc lies. Programs usually test
membership in an arc by comparing the raw numbers in two cases, one for an arc
that passes the zero position and one for an arc that does not; these tests are
exact (`Circular.mem_halfOpen_iff`, `Circular.mem_openClosed_iff`).
-/

namespace Circular

variable {width : Nat}

/-- The distance from `origin` forward to `position`. -/
def ahead (origin position : BitVec width) : Nat := (position - origin).toNat

theorem toNat_sub_cases (first second : BitVec width) :
    (second.toNat ≤ first.toNat ∧ (first - second).toNat = first.toNat - second.toNat) ∨
      (first.toNat < second.toNat ∧
        (first - second).toNat + second.toNat = first.toNat + 2 ^ width) := by
  have firstLt := first.isLt
  have secondLt := second.isLt
  rw [BitVec.toNat_sub]
  by_cases le : second.toNat ≤ first.toNat
  · refine .inl ⟨le, ?_⟩
    rw [Nat.mod_eq_sub_mod (by omega), Nat.mod_eq_of_lt (by omega)]
    omega
  · refine .inr ⟨by omega, ?_⟩
    rw [Nat.mod_eq_of_lt (by omega)]
    omega

theorem toNat_add_cases (first second : BitVec width) :
    (first.toNat + second.toNat < 2 ^ width ∧
        (first + second).toNat = first.toNat + second.toNat) ∨
      (2 ^ width ≤ first.toNat + second.toNat ∧
        (first + second).toNat + 2 ^ width = first.toNat + second.toNat) := by
  have firstLt := first.isLt
  have secondLt := second.isLt
  rw [BitVec.toNat_add]
  by_cases lt : first.toNat + second.toNat < 2 ^ width
  · exact .inl ⟨lt, Nat.mod_eq_of_lt lt⟩
  · refine .inr ⟨by omega, ?_⟩
    rw [Nat.mod_eq_sub_mod (by omega), Nat.mod_eq_of_lt (by omega)]
    omega

theorem ahead_lt (origin position : BitVec width) : ahead origin position < 2 ^ width :=
  (position - origin).isLt

@[simp] theorem ahead_self (origin : BitVec width) : ahead origin origin = 0 := by
  simp [ahead]

theorem ahead_eq_zero_iff {origin position : BitVec width} :
    ahead origin position = 0 ↔ position = origin := by
  constructor
  · intro zero
    have difference : position - origin = 0 := BitVec.eq_of_toNat_eq (by simpa [ahead] using zero)
    exact sub_eq_zero.mp difference
  · rintro rfl
    exact ahead_self _

theorem ahead_pos_iff {origin position : BitVec width} :
    0 < ahead origin position ↔ position ≠ origin := by
  rw [Nat.pos_iff_ne_zero, Ne, ahead_eq_zero_iff]

/-- Walking the distance from the origin reaches the position. -/
@[simp] theorem add_ahead (origin position : BitVec width) :
    origin + BitVec.ofNat width (ahead origin position) = position := by
  rw [ahead, BitVec.ofNat_toNat, BitVec.setWidth_eq, BitVec.add_comm, BitVec.sub_add_cancel]

/-- Distances along an arc add up. -/
theorem ahead_add_ahead {first third : BitVec width} (second : BitVec width)
    (small : ahead first second + ahead second third < 2 ^ width) :
    ahead first third = ahead first second + ahead second third := by
  have sum : third - first = (second - first) + (third - second) := by ring
  rw [ahead, sum, BitVec.toNat_add]
  exact Nat.mod_eq_of_lt small

/-- The distance from a later origin. -/
theorem ahead_of_le (first : BitVec width) {second third : BitVec width}
    (le : ahead first second ≤ ahead first third) :
    ahead second third = ahead first third - ahead first second := by
  have difference : third - second = (third - first) - (second - first) := by ring
  rw [ahead, difference]
  rcases toNat_sub_cases (third - first) (second - first) with ⟨-, equal⟩ | ⟨lt, -⟩
  · exact equal
  · exact absurd lt (Nat.not_lt.mpr le)

/-- The distance from an origin already passed goes almost round the circle. -/
theorem ahead_of_lt (first : BitVec width) {second third : BitVec width}
    (lt : ahead first third < ahead first second) :
    ahead second third + ahead first second = ahead first third + 2 ^ width := by
  have difference : third - second = (third - first) - (second - first) := by ring
  rw [ahead, difference]
  rcases toNat_sub_cases (third - first) (second - first) with ⟨le, -⟩ | ⟨-, equal⟩
  · exact absurd lt (Nat.not_lt.mpr le)
  · exact equal

theorem ahead_add_ofNat (origin : BitVec width) {count : Nat} (small : count < 2 ^ width) :
    ahead origin (origin + BitVec.ofNat width count) = count := by
  have cancel : origin + BitVec.ofNat width count - origin = BitVec.ofNat width count := by ring
  rw [ahead, cancel, BitVec.toNat_ofNat, Nat.mod_eq_of_lt small]

/-- Moving a position forward without completing the circle adds to its distance. -/
theorem ahead_advance {origin position : BitVec width} {count : Nat}
    (small : ahead origin position + count < 2 ^ width) :
    ahead origin (position + BitVec.ofNat width count) = ahead origin position + count := by
  have step := ahead_add_ofNat position (show count < 2 ^ width by omega)
  rw [ahead_add_ahead position (by omega), step]

/-- The two-case comparison for the arc of `size` positions from `edge` on. -/
theorem mem_halfOpen_iff {edge position : BitVec width} {size : Nat} (positive : 0 < size)
    (small : size < 2 ^ width) :
    (if edge < edge + BitVec.ofNat width size then
        edge ≤ position ∧ position < edge + BitVec.ofNat width size
      else edge ≤ position ∨ position < edge + BitVec.ofNat width size) ↔
      ahead edge position < size := by
  have sizeNat : (BitVec.ofNat width size).toNat = size := by
    rw [BitVec.toNat_ofNat, Nat.mod_eq_of_lt small]
  have positionLt := position.isLt
  have edgeLt := edge.isLt
  simp only [BitVec.lt_def, BitVec.le_def, ahead]
  rcases toNat_add_cases edge (BitVec.ofNat width size) with ⟨_, right⟩ | ⟨_, right⟩ <;>
    rcases toNat_sub_cases position edge with ⟨_, distance⟩ | ⟨_, distance⟩ <;>
    rw [sizeNat] at right <;> split <;> omega

/-- The two-case comparison for the positions after `edge` up to `last`. -/
theorem mem_openClosed_iff {edge last position : BitVec width} (different : edge ≠ last) :
    (if edge < last then edge < position ∧ position ≤ last
      else edge < position ∨ position ≤ last) ↔
      0 < ahead edge position ∧ ahead edge position ≤ ahead edge last := by
  have positionLt := position.isLt
  have edgeLt := edge.isLt
  have lastLt := last.isLt
  have differentNat : edge.toNat ≠ last.toNat := fun same => different (BitVec.eq_of_toNat_eq same)
  simp only [BitVec.lt_def, BitVec.le_def, ahead]
  rcases toNat_sub_cases last edge with ⟨_, right⟩ | ⟨_, right⟩ <;>
    rcases toNat_sub_cases position edge with ⟨_, distance⟩ | ⟨_, distance⟩ <;>
    split <;> omega

end Circular
