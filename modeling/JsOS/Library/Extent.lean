import JsOS.Library.Buffer
import Mathlib.Data.List.GetD
import Mathlib.Data.Int.Basic

/-! # Contents by place

A value at every place of a line that is numbered by integers, how a number of values from a place
on is read, and how given values are written there. What is written is read back, what lies beside
it is as it was, and values that follow each other can be written in pieces.
-/

namespace Extent

variable {α : Type}

/-- The values from a place on. -/
def read (contents : ℤ → α) (place : ℤ) (count : ℕ) : List α :=
  (List.range count).map fun i : ℕ => contents (place + i)

/-- The contents with the given values from a place on. -/
def write (contents : ℤ → α) (place : ℤ) (values : List α) : ℤ → α := fun at_ =>
  if at_ < place then contents at_ else values.getD (at_ - place).toNat (contents at_)

variable {contents other : ℤ → α} {place at_ : ℤ} {values first second : List α} {count : ℕ}

@[simp] theorem length_read (contents : ℤ → α) (place : ℤ) (count : ℕ) :
    (read contents place count).length = count := by
  rw [read, List.length_map, List.length_range]

@[simp] theorem read_zero (contents : ℤ → α) (place : ℤ) : read contents place 0 = [] := rfl

theorem getElem?_read {i : ℕ} (inside : i < count) :
    (read contents place count)[i]? = some (contents (place + i)) := by
  rw [read, List.getElem?_map, List.getElem?_range inside, Option.map_some]

/-- What follows each other is read in pieces. -/
theorem read_add (contents : ℤ → α) (place : ℤ) (count more : ℕ) :
    read contents place (count + more) =
      read contents place count ++ read contents (place + count) more := by
  rw [read, List.range_add, List.map_append, List.map_map]
  refine congrArg _ (List.map_congr_left fun i _ => ?_)
  dsimp only [Function.comp_apply]
  rw [Int.natCast_add, Int.add_assoc]

theorem take_read {wanted : ℕ} (enough : wanted ≤ count) :
    (read contents place count).take wanted = read contents place wanted := by
  obtain ⟨rest, rfl⟩ := Nat.exists_eq_add_of_le enough
  rw [read_add, List.take_left' (length_read contents place wanted)]

theorem drop_read {skipped : ℕ} (enough : skipped ≤ count) :
    (read contents place count).drop skipped =
      read contents (place + skipped) (count - skipped) := by
  obtain ⟨rest, rfl⟩ := Nat.exists_eq_add_of_le enough
  rw [read_add, List.drop_left' (length_read contents place skipped), Nat.add_sub_cancel_left]

/-- Contents that agree on the places are read alike. -/
theorem read_congr (agree : ∀ i < count, contents (place + (i : ℕ)) = other (place + (i : ℕ))) :
    read contents place count = read other place count :=
  List.map_congr_left fun i member => agree i (List.mem_range.mp member)

/-- Contents that are read alike agree on the places. -/
theorem eq_of_read_eq (same : read contents place count = read other place count) {i : ℕ}
    (inside : i < count) : contents (place + i) = other (place + i) := by
  have both := congrArg (·[i]?) same
  rw [getElem?_read inside, getElem?_read inside] at both
  exact Option.some.inj both

/-! ## Writing -/

theorem write_of_lt (before : at_ < place) : write contents place values at_ = contents at_ :=
  if_pos before

theorem write_of_le (behind : place + values.length ≤ at_) :
    write contents place values at_ = contents at_ := by
  rw [write, if_neg (by omega), List.getD_eq_default _ _ (by omega)]

/-- Beside what is written everything is as it was. -/
theorem write_outside (outside : ¬(place ≤ at_ ∧ at_ < place + values.length)) :
    write contents place values at_ = contents at_ := by
  by_cases before : at_ < place
  · exact write_of_lt before
  · exact write_of_le (by omega)

theorem write_inside {i : ℕ} (inside : i < values.length) :
    write contents place values (place + i) = values[i] := by
  have index : (place + i - place).toNat = i := by omega
  rw [write, if_neg (by omega), index]
  exact List.getD_eq_getElem _ _ inside

@[simp] theorem write_nil (contents : ℤ → α) (place : ℤ) : write contents place [] = contents := by
  funext at_
  refine write_outside ?_
  rw [List.length_nil]
  omega

/-- **What is written is read back.** -/
@[simp] theorem read_write (contents : ℤ → α) (place : ℤ) (values : List α) :
    read (write contents place values) place values.length = values := by
  refine List.ext_getElem (length_read _ _ _) fun i left right => ?_
  have there : (read (write contents place values) place values.length)[i]? =
      some (write contents place values (place + i)) := getElem?_read right
  rw [write_inside right, List.getElem?_eq_getElem left] at there
  exact Option.some.inj there

/-- What is read beside what is written is as it was. -/
theorem read_write_outside {from_ : ℤ}
    (apart : from_ + count ≤ place ∨ place + values.length ≤ from_) :
    read (write contents place values) from_ count = read contents from_ count :=
  read_congr fun i inside => write_outside (by omega)

/-- What follows each other can be written in pieces. -/
theorem write_append (contents : ℤ → α) (place : ℤ) (first second : List α) :
    write contents place (first ++ second) =
      write (write contents place first) (place + first.length) second := by
  funext at_
  unfold write
  by_cases before : at_ < place
  · rw [if_pos before, if_pos (by omega), if_pos before]
  · rw [if_neg before]
    by_cases inside : at_ < place + first.length
    · rw [if_pos inside, if_neg before, List.getD_append _ _ _ _ (by omega)]
    · rw [if_neg inside, if_neg before, List.getD_append_right _ _ _ _ (by omega),
        List.getD_eq_default first _ (by omega)]
      congr 1
      omega

/-- A part of what is there already is written over it. -/
theorem write_read (contents : ℤ → α) (place : ℤ) (count : ℕ) :
    write contents place (read contents place count) = contents := by
  funext at_
  by_cases inside : place ≤ at_ ∧ at_ < place + count
  · obtain ⟨i, rfl⟩ := Int.le.dest inside.1
    have short : i < (read contents place count).length := by
      rw [length_read]
      omega
    rw [write_inside short]
    have there : (read contents place count)[i]? = some (contents (place + i)) :=
      getElem?_read (by omega)
    rw [List.getElem?_eq_getElem short] at there
    exact Option.some.inj there
  · refine write_outside ?_
    rw [length_read]
    exact inside

/-- Contents that are moved are written at a place that is moved. -/
theorem write_shift (contents : ℤ → α) (place offset : ℤ) (values : List α) :
    (fun at_ => write contents (offset + place) values (offset + at_)) =
      write (fun at_ => contents (offset + at_)) place values := by
  funext at_
  unfold write
  have index : (offset + at_ - (offset + place)).toNat = (at_ - place).toNat := by omega
  rw [index]
  exact if_congr (by omega) rfl rfl

theorem read_shift (contents : ℤ → α) (place offset : ℤ) (count : ℕ) :
    read contents (offset + place) count =
      read (fun at_ => contents (offset + at_)) place count := by
  refine List.map_congr_left fun i _ => ?_
  rw [Int.add_assoc]

/-! ## Buffers -/

/-- A buffer after a part of it has been written. -/
theorem store_eq (buffer : List α) (offset : ℕ) (values : List α)
    (inside : offset + values.length ≤ buffer.length) :
    Buffer.store buffer offset values =
      buffer.take offset ++ values ++ buffer.drop (offset + values.length) := by
  have split : buffer = buffer.take offset ++ (buffer.drop offset).take values.length ++
      buffer.drop (offset + values.length) := by
    rw [← List.drop_drop, List.append_assoc, List.take_append_drop, List.take_append_drop]
  have front : (buffer.take offset).length = offset := by
    rw [List.length_take]
    omega
  have window : ((buffer.drop offset).take values.length).length = values.length := by
    rw [List.length_take, List.length_drop]
    omega
  have stored := Buffer.store_window (buffer.take offset) ((buffer.drop offset).take values.length)
    (buffer.drop (offset + values.length)) 0 values (by omega)
  rw [← split, Buffer.store_whole _ _ window.symm, front] at stored
  exact stored

/-- **What was read, changed and written back** has been changed in that part. -/
theorem write_store_read (contents : ℤ → α) (place : ℤ) (count offset : ℕ) (values : List α)
    (inside : offset + values.length ≤ count) :
    write contents place (Buffer.store (read contents place count) offset values) =
      write contents (place + offset) values := by
  rw [store_eq _ _ _ (by rwa [length_read]), take_read (by omega), drop_read inside, write_append,
    write_append, write_read, length_read, List.length_append, length_read]
  have back : read contents (place + (offset + values.length : ℕ))
      (count - (offset + values.length)) = read (write contents (place + offset) values)
        (place + (offset + values.length : ℕ)) (count - (offset + values.length)) := by
    rw [read_write_outside (.inr (by omega))]
  rw [back]
  exact write_read _ _ _

/-- A part of what is written. -/
theorem write_store_inside (contents : ℤ → α) (place : ℤ) (buffer : List α) (offset : ℕ)
    (values : List α) (inside : offset + values.length ≤ buffer.length) {i : ℕ}
    (there : i < values.length) :
    write contents place (Buffer.store buffer offset values) (place + offset + i) = values[i] := by
  have front : (buffer.take offset).length = offset := by
    rw [List.length_take]
    omega
  rw [store_eq _ _ _ inside, write_append, write_append, List.length_append, front,
    write_outside (by omega), write_inside there]

end Extent
