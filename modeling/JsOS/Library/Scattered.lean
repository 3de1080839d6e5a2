import JsOS.Library.Extent
import Mathlib.Tactic.Ring

/-! # Contents in scattered blocks

Blocks of equal size anywhere in some contents, one after the other, are contents of their own
(`Scattered.view`). Where the blocks follow each other, a part of the view is a part of the contents
(`read_view`), and a write to it is one to the view (`view_write`); a write that meets none of the
blocks leaves the view alone (`view_write_apart`).
-/

namespace Scattered

variable {α : Type} {unit : ℕ} {blocks : List ℕ} {contents other : ℤ → α} {values : List α}
  {first i count length : ℕ} {at_ : ℤ}

/-- What lies in the blocks, one after the other. -/
def view (unit : ℕ) (blocks : List ℕ) (contents : ℤ → α) : ℤ → α := fun at_ =>
  contents (blocks.getD (at_ / unit).toNat 0 * unit + at_ % unit)

/-- The blocks from one on follow each other. -/
def Run (blocks : List ℕ) (i first count : ℕ) : Prop :=
  ∀ j < count, blocks[i + j]? = some (first + j)

/-- A place belongs to one of the blocks. -/
def Within (unit : ℕ) (blocks : List ℕ) (at_ : ℤ) : Prop :=
  ∃ block ∈ blocks, (block * unit : ℤ) ≤ at_ ∧ at_ < block * unit + unit

/-- A place of the view is one in a block. -/
theorem view_block (positive : 0 < unit) {offset : ℕ} (inside : offset < unit) {block : ℕ}
    (there : blocks[i]? = some block) :
    view unit blocks contents ((i * unit + offset : ℕ) : ℤ) = contents (block * unit + offset) := by
  have index : (((i * unit + offset : ℕ) : ℤ) / unit).toNat = i := by
    rw [← Int.natCast_div, Int.toNat_natCast, Nat.mul_comm, Nat.mul_add_div positive,
      Nat.div_eq_of_lt inside, Nat.add_zero]
  have rest : ((i * unit + offset : ℕ) : ℤ) % unit = offset := by
    rw [← Int.natCast_mod, Nat.mul_comm, Nat.mul_add_mod, Nat.mod_eq_of_lt inside]
  unfold view
  rw [index, rest, List.getD_eq_getElem?_getD, there]
  rfl

/-- Every place of the view is one in a block. -/
theorem exists_block (positive : 0 < unit) (natural : 0 ≤ at_)
    (below : at_ < blocks.length * unit) :
    ∃ i offset block, at_ = ((i * unit + offset : ℕ) : ℤ) ∧ offset < unit ∧
      blocks[i]? = some block := by
  obtain ⟨place, rfl⟩ := Int.eq_ofNat_of_zero_le natural
  have index : place / unit < blocks.length :=
    (Nat.div_lt_iff_lt_mul positive).mpr (by exact_mod_cast below)
  refine ⟨place / unit, place % unit, blocks[place / unit], ?_, Nat.mod_lt _ positive,
    List.getElem?_eq_getElem index⟩
  rw [Nat.div_add_mod']

/-- Views of contents that agree in the blocks agree. -/
theorem view_congr (positive : 0 < unit)
    (agree : ∀ place, Within unit blocks place → contents place = other place)
    (natural : 0 ≤ at_) (below : at_ < blocks.length * unit) :
    view unit blocks contents at_ = view unit blocks other at_ := by
  obtain ⟨i, offset, block, rfl, inside, there⟩ := exists_block positive natural below
  rw [view_block positive inside there, view_block positive inside there]
  refine agree _ ⟨block, List.mem_of_getElem? there, ?_⟩
  omega

/-- More blocks behind the others change nothing before them. -/
theorem view_append (positive : 0 < unit) (more : List ℕ) (natural : 0 ≤ at_)
    (below : at_ < blocks.length * unit) :
    view unit (blocks ++ more) contents at_ = view unit blocks contents at_ := by
  obtain ⟨i, offset, block, rfl, inside, there⟩ := exists_block positive natural below
  have index := (List.getElem?_eq_some_iff.mp there).1
  rw [view_block positive inside there, view_block positive inside]
  rwa [List.getElem?_append_left index]

theorem Run.le_length (run : Run blocks i first count) (some : 0 < count) :
    i + count ≤ blocks.length := by
  have last := (List.getElem?_eq_some_iff.mp (run (count - 1) (by omega))).1
  omega

/-- A place that is written in a run of blocks belongs to one of them. -/
theorem Run.within (run : Run blocks i first count) (positive : 0 < unit)
    (short : length ≤ count * unit)
    (inside : ((first * unit : ℕ) : ℤ) ≤ at_ ∧ at_ < (first * unit : ℕ) + length) :
    Within unit blocks at_ := by
  obtain ⟨place, rfl⟩ := Int.le.dest inside.1
  have below : place < count * unit := by omega
  have index : place / unit < count := (Nat.div_lt_iff_lt_mul positive).mpr below
  refine ⟨first + place / unit, List.mem_of_getElem? (run _ index), ?_⟩
  have division := Nat.div_add_mod' place unit
  have rest := Nat.mod_lt place positive
  have block : (((first + place / unit : ℕ) : ℤ) * unit) =
      ((first * unit : ℕ) : ℤ) + ((place / unit * unit : ℕ) : ℤ) := by
    push_cast
    ring
  rw [block]
  omega

/-- A place in a run of blocks. -/
theorem view_run (positive : 0 < unit) (run : Run blocks i first count) {place : ℕ}
    (below : place < count * unit) :
    view unit blocks contents ((i * unit + place : ℕ) : ℤ) =
      contents ((first * unit + place : ℕ) : ℤ) := by
  have index : place / unit < count := (Nat.div_lt_iff_lt_mul positive).mpr below
  have division := Nat.div_add_mod' place unit
  have split : i * unit + place = (i + place / unit) * unit + place % unit := by
    rw [Nat.add_mul]
    omega
  have block : (first * unit + place : ℕ) = (first + place / unit) * unit + place % unit := by
    rw [Nat.add_mul]
    omega
  rw [split, view_block positive (Nat.mod_lt _ positive) (run _ index), block]
  push_cast
  rfl

/-- **Blocks that follow each other are read at once.** -/
theorem read_view (positive : 0 < unit) (run : Run blocks i first count)
    (short : length ≤ count * unit) :
    Extent.read (view unit blocks contents) ((i * unit : ℕ) : ℤ) length =
      Extent.read contents ((first * unit : ℕ) : ℤ) length := by
  refine List.map_congr_left fun place member => ?_
  have inside := List.mem_range.mp member
  have same := @view_run α unit blocks contents first i count positive run place (by omega)
  push_cast at same ⊢
  exact same

/-- **Blocks that follow each other are written at once.** -/
theorem view_write (positive : 0 < unit) (apart : blocks.Nodup) (run : Run blocks i first count)
    (short : values.length ≤ count * unit) (natural : 0 ≤ at_)
    (below : at_ < blocks.length * unit) :
    view unit blocks (Extent.write contents ((first * unit : ℕ) : ℤ) values) at_ =
      Extent.write (view unit blocks contents) ((i * unit : ℕ) : ℤ) values at_ := by
  obtain ⟨j, offset, block, rfl, inside, there⟩ := exists_block positive natural below
  rw [view_block positive inside there]
  by_cases own : i ≤ j ∧ j < i + count
  · obtain ⟨k, rfl⟩ := Nat.exists_eq_add_of_le own.1
    obtain rfl : first + k = block :=
      Option.some.inj ((run k (by omega)).symm.trans there)
    have left : ((first + k : ℕ) : ℤ) * unit + offset =
        ((first * unit : ℕ) : ℤ) + ((k * unit + offset : ℕ) : ℤ) := by
      push_cast
      ring
    have right : (((i + k) * unit + offset : ℕ) : ℤ) =
        ((i * unit : ℕ) : ℤ) + ((k * unit + offset : ℕ) : ℤ) := by
      push_cast
      ring
    rw [left, right]
    by_cases written : k * unit + offset < values.length
    · rw [Extent.write_inside written, Extent.write_inside written]
    · rw [Extent.write_outside (by omega), Extent.write_outside (by omega), ← left, ← right,
        view_block positive inside there]
  · have beside : ¬(first ≤ block ∧ block < first + count) := by
      rintro ⟨low, high⟩
      obtain ⟨k, rfl⟩ := Nat.exists_eq_add_of_le low
      have again := run k (by omega)
      have bound := (List.getElem?_eq_some_iff.mp there).1
      have same : j = i + k :=
        (List.getElem?_inj bound apart).mp (there.trans again.symm)
      omega
    have outside {low place : ℕ} (away : place < low ∨ low + count ≤ place) :
        ¬((low * unit : ℕ) ≤ ((place * unit + offset : ℕ) : ℤ) ∧
          ((place * unit + offset : ℕ) : ℤ) < (low * unit : ℕ) + values.length) := by
      rintro ⟨above, under⟩
      obtain sooner | later := away
      · have step := Nat.mul_le_mul_right unit (Nat.succ_le_of_lt sooner)
        rw [Nat.succ_mul] at step
        omega
      · have step := Nat.mul_le_mul_right unit later
        rw [Nat.add_mul] at step
        omega
    have place : ((block : ℤ) * unit + offset) = ((block * unit + offset : ℕ) : ℤ) := by
      push_cast
      rfl
    rw [Extent.write_outside (@outside i j (by omega)), view_block positive inside there, place,
      Extent.write_outside (@outside first block (by omega))]

/-- A write that meets none of the blocks. -/
theorem view_write_apart (positive : 0 < unit)
    (apart : ∀ place, Within unit blocks place →
      ¬(((first * unit : ℕ) : ℤ) ≤ place ∧ place < (first * unit : ℕ) + values.length))
    (natural : 0 ≤ at_) (below : at_ < blocks.length * unit) :
    view unit blocks (Extent.write contents ((first * unit : ℕ) : ℤ) values) at_ =
      view unit blocks contents at_ :=
  view_congr positive (fun place within => Extent.write_outside (apart place within)) natural below

end Scattered
