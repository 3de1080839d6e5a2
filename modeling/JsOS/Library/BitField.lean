import Mathlib.Data.BitVec

/-! # Bit fields

A field of a word is a number of bits from a position on. Reading the field gives its bits as a
number, and writing it replaces them and no others.
-/

namespace JsOS.Library.BitField

variable {size : Nat}

/-- The word whose lowest `width` bits are set. -/
def low (size width : Nat) : BitVec size := BitVec.ofNat size (2 ^ width - 1)

/-- The field of `width` bits at `shift`. -/
def extract (word : BitVec size) (shift width : Nat) : BitVec size :=
  word >>> shift &&& low size width

/-- The word with the field replaced. -/
def insert (word : BitVec size) (shift width : Nat) (value : BitVec size) : BitVec size :=
  (word &&& ~~~(low size width <<< shift)) ||| ((value &&& low size width) <<< shift)

theorem getLsbD_low (width bit : Nat) :
    (low size width).getLsbD bit = (decide (bit < size) && decide (bit < width)) := by
  rw [low, BitVec.getLsbD_ofNat, Nat.testBit_two_pow_sub_one]

theorem getLsbD_extract (word : BitVec size) (shift width bit : Nat) :
    (extract word shift width).getLsbD bit =
      (decide (bit < width) && word.getLsbD (shift + bit)) := by
  rw [extract, BitVec.getLsbD_and, BitVec.getLsbD_ushiftRight, getLsbD_low]
  by_cases inside : bit < size
  · simp [inside, Bool.and_comm]
  · have beyond : word.getLsbD (shift + bit) = false :=
      BitVec.getLsbD_of_ge word (shift + bit) (by omega)
    simp [beyond]

theorem getLsbD_insert (word value : BitVec size) (shift width : Nat) {bit : Nat}
    (inside : bit < size) : (insert word shift width value).getLsbD bit =
      if shift ≤ bit ∧ bit < shift + width then value.getLsbD (bit - shift)
      else word.getLsbD bit := by
  simp only [insert, BitVec.getLsbD_or, BitVec.getLsbD_and, BitVec.getLsbD_not,
    BitVec.getLsbD_shiftLeft, getLsbD_low]
  by_cases below : bit < shift
  · simp [inside, below]
  · by_cases within : bit < shift + width
    · have narrow : bit - shift < width := by omega
      have small : bit - shift < size := by omega
      simp [inside, below, within, narrow, small, Nat.le_of_not_lt below]
    · have wide : ¬bit - shift < width := by omega
      simp [inside, within, wide]

/-- A field that was written reads as the value. -/
theorem extract_insert (word value : BitVec size) {shift width : Nat}
    (fits : shift + width ≤ size) :
    extract (insert word shift width value) shift width = value &&& low size width := by
  apply BitVec.eq_of_getLsbD_eq
  intro bit inside
  rw [getLsbD_extract, BitVec.getLsbD_and, getLsbD_low]
  by_cases within : bit < width
  · have place : shift ≤ shift + bit ∧ shift + bit < shift + width := by omega
    rw [getLsbD_insert _ _ _ _ (by omega), if_pos place, Nat.add_sub_cancel_left]
    simp [within, inside]
  · simp [within]

/-- Writing a field keeps the fields beside it. -/
theorem extract_insert_of_disjoint (word value : BitVec size) {shift width shift' width' : Nat}
    (apart : shift + width ≤ shift' ∨ shift' + width' ≤ shift) :
    extract (insert word shift width value) shift' width' = extract word shift' width' := by
  apply BitVec.eq_of_getLsbD_eq
  intro bit _
  rw [getLsbD_extract, getLsbD_extract]
  by_cases within : bit < width'
  · have outside : ¬(shift ≤ shift' + bit ∧ shift' + bit < shift + width) := by omega
    by_cases inside : shift' + bit < size
    · rw [getLsbD_insert _ _ _ _ inside, if_neg outside]
    · rw [BitVec.getLsbD_of_ge _ _ (by omega), BitVec.getLsbD_of_ge _ _ (by omega)]
  · simp [within]

/-- Writing what is there changes nothing. -/
theorem insert_extract (word : BitVec size) (shift width : Nat) :
    insert word shift width (extract word shift width) = word := by
  apply BitVec.eq_of_getLsbD_eq
  intro bit inside
  rw [getLsbD_insert _ _ _ _ inside]
  by_cases within : shift ≤ bit ∧ bit < shift + width
  · have narrow : bit - shift < width := by omega
    rw [if_pos within, getLsbD_extract, Nat.add_sub_of_le within.1]
    simp [narrow]
  · rw [if_neg within]

/-- A value written to one field has the effect of writing it to a field beside that one only if
both held it already. -/
theorem insert_eq_insert_iff (word value : BitVec size) {shift width shift' : Nat}
    (fits : shift + width ≤ size) (fits' : shift' + width ≤ size)
    (apart : shift + width ≤ shift' ∨ shift' + width ≤ shift)
    (narrow : value &&& low size width = value) :
    insert word shift width value = insert word shift' width value ↔
      extract word shift width = value ∧ extract word shift' width = value := by
  constructor
  · intro same
    constructor
    · have kept := extract_insert_of_disjoint word value apart.symm
      rw [← kept, ← same, extract_insert word value fits, narrow]
    · have kept := extract_insert_of_disjoint word value apart
      rw [← kept, same, extract_insert word value fits', narrow]
  · rintro ⟨held, held'⟩
    have unchanged := insert_extract word shift width
    have unchanged' := insert_extract word shift' width
    rw [held] at unchanged
    rw [held'] at unchanged'
    rw [unchanged, unchanged']

end JsOS.Library.BitField
