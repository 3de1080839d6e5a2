import Mathlib.Data.BitVec
import Mathlib.Data.List.Basic

/-! # Queues in rings of cells

A queue kept in a ring: the items stand in consecutive cells from a start on, around the
ring (`RingBuffer.Holds`). Adding an item writes the cell after the last item, and as
long as there are fewer items than cells no item is overwritten (`Holds.push`); the
first item is in the cell of the start (`Holds.pop`). Programs keep the start and the end
as numbers of a fixed width that run on freely and wrap around; this is sound when the
size of the ring divides the number of values of the width (`RingBuffer.toNat_add_mod`).
-/

namespace RingBuffer

variable {Item : Type*} {cells items : List Item} {start : ℕ} {item : Item}

/-- The items are in consecutive cells from the start on, around the ring. -/
def Holds (cells : List Item) (start : ℕ) (items : List Item) : Prop :=
  items.length ≤ cells.length ∧
    ∀ index item, items[index]? = some item → cells[(start + index) % cells.length]? = some item

theorem holds_nil (cells : List Item) (start : ℕ) : Holds cells start [] :=
  ⟨Nat.zero_le _, fun _ _ present => by cases present⟩

/-- The start matters only up to full turns. -/
theorem Holds.congr_start {start' : ℕ} (holds : Holds cells start items)
    (same : start % cells.length = start' % cells.length) : Holds cells start' items := by
  refine ⟨holds.1, fun index item present => ?_⟩
  rw [Nat.add_mod, ← same, ← Nat.add_mod]
  exact holds.2 index item present

/-- Cells of a ring less than one turn apart are different. -/
theorem add_mod_ne {size start first second : ℕ} (lt : first < second)
    (near : second < first + size) : (start + first) % size ≠ (start + second) % size := by
  intro same
  have divides : size ∣ (start + second) - (start + first) :=
    (Nat.modEq_iff_dvd' (by omega)).mp same
  have le := Nat.le_of_dvd (by omega) divides
  omega

/-- **Push.** While the ring is not full, writing the cell after the last item adds an item. -/
theorem Holds.push (holds : Holds cells start items) (room : items.length < cells.length)
    (item : Item) :
    Holds (cells.set ((start + items.length) % cells.length) item) start (items ++ [item]) := by
  refine ⟨by rw [List.length_append, List.length_set]; exact room, ?_⟩
  intro index other present
  rw [List.length_set]
  have small : (start + items.length) % cells.length < cells.length :=
    Nat.mod_lt _ (by omega)
  rcases Nat.lt_trichotomy index items.length with lt | rfl | gt
  · rw [List.getElem?_append_left lt] at present
    rw [List.getElem?_set_ne (add_mod_ne lt (by omega)).symm]
    exact holds.2 index other present
  · rw [List.getElem?_append_right le_rfl, Nat.sub_self] at present
    rw [List.getElem?_set_self small]
    exact present
  · rw [List.getElem?_eq_none (by rw [List.length_append, List.length_singleton]; omega)] at present
    cases present

/-- The first item is in the cell of the start. -/
theorem Holds.head (holds : Holds cells start (item :: items)) :
    cells[start % cells.length]? = some item :=
  holds.2 0 item rfl

/-- **Pop.** Without its first item the queue starts one cell later. -/
theorem Holds.pop (holds : Holds cells start (item :: items)) :
    Holds cells (start + 1) items := by
  refine ⟨(Nat.le_succ _).trans holds.1, fun index other present => ?_⟩
  rw [Nat.add_assoc, Nat.add_comm 1]
  exact holds.2 (index + 1) other present

variable {width : ℕ}

/-- A number of a fixed width finds the same cell as the count it stands for, when the size
of the ring divides the number of values. -/
theorem toNat_add_mod {size : ℕ} (divides : size ∣ 2 ^ width) (index : BitVec width)
    (count : ℕ) :
    (index + BitVec.ofNat width count).toNat % size = (index.toNat + count) % size := by
  rw [BitVec.toNat_add, BitVec.toNat_ofNat, Nat.mod_mod_of_dvd _ divides, Nat.add_mod,
    Nat.mod_mod_of_dvd _ divides, ← Nat.add_mod]

/-- The cell of an index in a ring whose size is a power of two, found by masking. -/
theorem and_pred_eq_mod {size exponent : ℕ} (power : size = 2 ^ exponent) (index : ℕ) :
    index &&& (size - 1) = index % size := by
  rw [power, Nat.and_two_pow_sub_one_eq_mod]

end RingBuffer
