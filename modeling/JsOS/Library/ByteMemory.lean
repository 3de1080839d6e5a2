import Mathlib.Data.List.Basic

/-! # Bytes in memory

Memory as a byte at every address, and the windows of it that hold given bytes. Bytes that
follow each other are held piece by piece, so that a format's parts are found in a window that
holds the whole.
-/

namespace ByteMemory

/-- The bytes from an address on. -/
def window (memory : ℕ → UInt8) (address length : ℕ) : List UInt8 :=
  (List.range length).map fun i => memory (address + i)

@[simp] theorem length_window (memory : ℕ → UInt8) (address length : ℕ) :
    (window memory address length).length = length := by
  rw [window, List.length_map, List.length_range]

/-- A window is two that follow each other. -/
theorem window_add (memory : ℕ → UInt8) (address first second : ℕ) :
    window memory address (first + second) =
      window memory address first ++ window memory (address + first) second := by
  rw [window, List.range_add, List.map_append, List.map_map, window, window]
  refine congrArg _ (List.map_congr_left fun i _ => ?_)
  dsimp only [Function.comp_apply]
  rw [Nat.add_assoc]

theorem window_succ (memory : ℕ → UInt8) (address length : ℕ) :
    window memory address (length + 1) = memory address :: window memory (address + 1) length := by
  rw [Nat.add_comm, window_add]
  rfl

/-- The back of a window is a window further on. -/
theorem drop_window (memory : ℕ → UInt8) (address length count : ℕ) :
    (window memory address length).drop count =
      window memory (address + count) (length - count) := by
  by_cases inside : count ≤ length
  · obtain ⟨rest, rfl⟩ := Nat.exists_eq_add_of_le inside
    rw [window_add, Nat.add_sub_cancel_left]
    exact List.drop_left' (length_window _ _ _)
  · rw [List.drop_eq_nil_of_le, Nat.sub_eq_zero_of_le (Nat.le_of_not_le inside)]
    · rfl
    · rw [length_window]
      exact Nat.le_of_not_le inside

/-- From an address on the memory holds the bytes. -/
def Holds (memory : ℕ → UInt8) (address : ℕ) (bytes : List UInt8) : Prop :=
  window memory address bytes.length = bytes

theorem holds_window (memory : ℕ → UInt8) (address length : ℕ) :
    Holds memory address (window memory address length) := by
  rw [Holds, length_window]

/-- **Bytes are held piece by piece.** -/
theorem holds_append {memory : ℕ → UInt8} {address : ℕ} {front back : List UInt8} :
    Holds memory address (front ++ back) ↔
      Holds memory address front ∧ Holds memory (address + front.length) back := by
  rw [Holds, List.length_append, window_add]
  constructor
  · intro whole
    exact List.append_inj whole (length_window _ _ _)
  · rintro ⟨first, second⟩
    rw [Holds] at first second
    rw [first, second]

theorem holds_cons {memory : ℕ → UInt8} {address : ℕ} {byte : UInt8} {bytes : List UInt8} :
    Holds memory address (byte :: bytes) ↔
      memory address = byte ∧ Holds memory (address + 1) bytes := by
  rw [← List.singleton_append, holds_append]
  refine and_congr_left fun _ => ?_
  rw [Holds]
  change [memory (address + 0)] = [byte] ↔ _
  rw [Nat.add_zero, List.cons.injEq]
  exact and_iff_left rfl

theorem holds_nil (memory : ℕ → UInt8) (address : ℕ) : Holds memory address [] := rfl

/-- A byte among those held. -/
theorem Holds.getElem {memory : ℕ → UInt8} {address : ℕ} {bytes : List UInt8}
    (holds : Holds memory address bytes) {i : ℕ} (inside : i < bytes.length) :
    memory (address + i) = bytes[i] := by
  have same := congrArg (·[i]?) holds
  rw [window, List.getElem?_map, List.getElem?_range inside, List.getElem?_eq_getElem inside]
    at same
  exact Option.some.inj same

/-- **At an address there is one text only that a byte 0 ends.** -/
theorem Holds.text_unique {memory : ℕ → UInt8} {address : ℕ} {first second : List UInt8}
    (noZeroFirst : 0 ∉ first) (noZeroSecond : 0 ∉ second)
    (holdsFirst : Holds memory address (first ++ [0]))
    (holdsSecond : Holds memory address (second ++ [0])) : first = second := by
  induction first generalizing address second with
  | nil =>
      cases second with
      | nil => rfl
      | cons byte second =>
          have zero := (holds_cons.mp holdsFirst).1
          rw [(holds_cons.mp holdsSecond).1] at zero
          rw [zero] at noZeroSecond
          exact absurd List.mem_cons_self noZeroSecond
  | cons byte first ih =>
      obtain ⟨here, holdsFirst⟩ := holds_cons.mp holdsFirst
      cases second with
      | nil =>
          rw [(holds_cons.mp holdsSecond).1] at here
          rw [← here] at noZeroFirst
          exact absurd List.mem_cons_self noZeroFirst
      | cons other second =>
          obtain ⟨there, holdsSecond⟩ := holds_cons.mp holdsSecond
          rw [← here, ← there, ih (fun zero => noZeroFirst (List.mem_cons_of_mem _ zero))
            (fun zero => noZeroSecond (List.mem_cons_of_mem _ zero)) holdsFirst holdsSecond]

/-! ## The bytes ahead -/

/-- The bytes from a position up to an end. -/
structure Ahead (memory : ℕ → UInt8) (finish pos : ℕ) (data : List UInt8) : Prop where
  reaches : pos + data.length = finish
  holds : Holds memory pos data

variable {memory : ℕ → UInt8} {finish pos : ℕ} {data first second : List UInt8}

theorem ahead_window (short : pos ≤ finish) :
    Ahead memory finish pos (window memory pos (finish - pos)) := by
  refine ⟨?_, holds_window memory pos _⟩
  rw [length_window]
  omega

namespace Ahead

theorem eq_window (ahead : Ahead memory finish pos data) :
    data = window memory pos (finish - pos) := by
  have length : finish - pos = data.length := by
    rw [← ahead.reaches]
    omega
  rw [length]
  exact ahead.holds.symm

theorem front (ahead : Ahead memory finish pos (first ++ second)) : Holds memory pos first :=
  (holds_append.mp ahead.holds).1

theorem front_le (ahead : Ahead memory finish pos (first ++ second)) :
    pos + first.length ≤ finish := by
  have reaches := ahead.reaches
  rw [List.length_append] at reaches
  omega

theorem back (ahead : Ahead memory finish pos (first ++ second)) :
    Ahead memory finish (pos + first.length) second := by
  refine ⟨?_, (holds_append.mp ahead.holds).2⟩
  rw [Nat.add_assoc, ← List.length_append]
  exact ahead.reaches

/-- As many bytes as there are can be taken from what is ahead. -/
theorem split (ahead : Ahead memory finish pos data) {count : ℕ} (room : pos + count ≤ finish) :
    ∃ rest, data = window memory pos count ++ rest := by
  refine ⟨window memory (pos + count) (finish - pos - count), ?_⟩
  rw [ahead.eq_window, ← window_add]
  congr 1
  omega

end Ahead

end ByteMemory
