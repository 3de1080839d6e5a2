import Mathlib.Data.List.Iterate
import Mathlib.Data.List.Nodup
import Mathlib.Logic.Function.Iterate

/-! # Cells linked by a next field

Cells that each name a next cell. The list that starts at a cell and has a given number
of cells is `List.iterate next`; the link of its last cell is not part of it and may be
stale. A list is kept by every change of links outside it (`Linked.iterate_congr`), and
writing the start of one list into the last cell of another joins the two
(`Linked.iterate_update_splice`).
-/

namespace Linked

variable {Cell : Type*} {next : Cell → Cell}

/-- A list depends only on the links of its cells before the last. -/
theorem iterate_congr {next' : Cell → Cell} {head : Cell} {count : ℕ}
    (agree : ∀ cell ∈ (List.iterate next head count).dropLast, next' cell = next cell) :
    List.iterate next' head count = List.iterate next head count := by
  induction count generalizing head with
  | zero => rfl
  | succ count ih =>
      cases count with
      | zero => rfl
      | succ count =>
          have first : next' head = next head := agree head List.mem_cons_self
          rw [List.iterate, List.iterate, first]
          congr 1
          apply ih
          intro cell member
          exact agree cell (List.mem_cons_of_mem _ member)

/-- The `index`-th cell of a list depends only on the links of the list. -/
theorem iterate_apply_congr {next' : Cell → Cell} {head : Cell} {count index : ℕ}
    (same : List.iterate next' head count = List.iterate next head count)
    (lt : index < count) : next'^[index] head = next^[index] head := by
  have at_index := congrArg (fun cells => cells[index]?) same
  rw [List.getElem?_iterate _ _ _ _ lt, List.getElem?_iterate _ _ _ _ lt] at at_index
  exact Option.some.inj at_index

/-- In a list without repetition the last cell is not among the cells before it. -/
theorem last_notMem_dropLast {head : Cell} {count : ℕ}
    (distinct : (List.iterate next head (count + 1)).Nodup) :
    next^[count] head ∉ (List.iterate next head (count + 1)).dropLast := by
  have split : List.iterate next head (count + 1) =
      List.iterate next head count ++ [next^[count] head] := List.iterate_add next head count 1
  rw [split, List.dropLast_concat]
  rw [split] at distinct
  intro member
  exact (List.nodup_append.mp distinct).2.2 _ member _ List.mem_cons_self rfl

variable [DecidableEq Cell]

/-- Changing the link of a cell outside a list keeps the list. -/
theorem iterate_update_of_notMem {head cell target : Cell} {count : ℕ}
    (outside : cell ∉ List.iterate next head count) :
    List.iterate (Function.update next cell target) head count =
      List.iterate next head count := by
  apply iterate_congr
  intro other member
  apply Function.update_of_ne
  rintro rfl
  exact outside (List.dropLast_subset _ member)

/-- **Splice.** Linking the last cell of one list to the start of another, disjoint one
makes them one list. -/
theorem iterate_update_splice {head free : Cell} {count rest : ℕ}
    (distinct : (List.iterate next head (count + 1)).Nodup)
    (apart : next^[count] head ∉ List.iterate next free rest) :
    List.iterate (Function.update next (next^[count] head) free) head (count + 1 + rest) =
      List.iterate next head (count + 1) ++ List.iterate next free rest := by
  have front : List.iterate (Function.update next (next^[count] head) free) head (count + 1) =
      List.iterate next head (count + 1) := by
    apply iterate_congr
    intro cell member
    apply Function.update_of_ne
    rintro rfl
    exact last_notMem_dropLast distinct member
  have reached := iterate_apply_congr front (Nat.lt_succ_self count)
  rw [List.iterate_add, front, Function.iterate_succ_apply', reached, Function.update_self,
    iterate_update_of_notMem apart]

end Linked
