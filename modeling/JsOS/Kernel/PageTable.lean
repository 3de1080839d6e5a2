import JsOS.Library.Rounding
import Mathlib.Data.BitVec

/-! # Page table entries

The entries of the three levels of page tables, as the hardware reads them from 64-bit words.
An entry's address shares its word with flags: it is aligned, so that its low bits are free,
and below `2 ^ 52`, so that the high ones are.
-/

namespace JsOS.Kernel

/-- A flag as a bit of a word. -/
def flagBit (flag : Bool) (bit : Nat) : BitVec 64 := (BitVec.ofBool flag).setWidth 64 <<< bit

/-- Whether a bit of a word is set. -/
def hasBit (entry : BitVec 64) (bit : Nat) : Bool := entry &&& (1#64 <<< bit) ≠ 0#64

/-- An entry of the two upper levels, which points to the table of the next level. -/
structure PML4PDPEntry where
  isPresent : Bool := false
  isWriteable : Bool := false
  isUserEnabled : Bool := false
  isWriteThrough : Bool := false
  isNotCachable : Bool := false
  isAccessed : Bool := false
  isNoExecute : Bool := false
  pageDirectory : BitVec 64 := 0

namespace PML4PDPEntry

def decode (entry : BitVec 64) : PML4PDPEntry where
  isPresent := hasBit entry 0
  isWriteable := hasBit entry 1
  isUserEnabled := hasBit entry 2
  isWriteThrough := hasBit entry 3
  isNotCachable := hasBit entry 4
  isAccessed := hasBit entry 5
  isNoExecute := hasBit entry 63
  pageDirectory := entry &&& 0xFFFFFFFFFF000

/-- The word of an entry; without one the assertion on the address's alignment fails. -/
def encode (entry : PML4PDPEntry) : Option (BitVec 64) :=
  if entry.pageDirectory &&& 0xFFF = 0 then
    some (flagBit entry.isPresent 0 ||| flagBit entry.isWriteable 1 |||
      flagBit entry.isUserEnabled 2 ||| flagBit entry.isWriteThrough 3 |||
      flagBit entry.isNotCachable 4 ||| flagBit entry.isAccessed 5 |||
      flagBit entry.isNoExecute 63 ||| entry.pageDirectory)
  else none

end PML4PDPEntry

/-- An entry of the lowest level, which points to a page of 2 MiB. -/
structure PDEntry where
  isPresent : Bool := false
  isWriteable : Bool := false
  isUserEnabled : Bool := false
  isWriteThrough : Bool := false
  isNotCachable : Bool := false
  isAccessed : Bool := false
  isDirty : Bool := false
  isPageSize : Bool := false
  isGlobal : Bool := false
  isNoExecute : Bool := false
  pageAddress : BitVec 64 := 0

namespace PDEntry

def decode (entry : BitVec 64) : PDEntry where
  isPresent := hasBit entry 0
  isWriteable := hasBit entry 1
  isUserEnabled := hasBit entry 2
  isWriteThrough := hasBit entry 3
  isNotCachable := hasBit entry 4
  isAccessed := hasBit entry 5
  isDirty := hasBit entry 6
  isPageSize := hasBit entry 7
  isGlobal := hasBit entry 8
  isNoExecute := hasBit entry 63
  pageAddress := entry &&& 0xFFFFFFFE00000

/-- The word of an entry; without one the assertion on the address's alignment fails. -/
def encode (entry : PDEntry) : Option (BitVec 64) :=
  if entry.pageAddress &&& 0x1FFFFF = 0 then
    some (flagBit entry.isPresent 0 ||| flagBit entry.isWriteable 1 |||
      flagBit entry.isUserEnabled 2 ||| flagBit entry.isWriteThrough 3 |||
      flagBit entry.isNotCachable 4 ||| flagBit entry.isAccessed 5 ||| flagBit entry.isDirty 6 |||
      flagBit entry.isPageSize 7 ||| flagBit entry.isGlobal 8 ||| flagBit entry.isNoExecute 63 |||
      entry.pageAddress)
  else none

end PDEntry

/-! ## Packing and unpacking -/

/-- A mask of the bits of an address field keeps an aligned address below `2 ^ 52`. -/
theorem and_field {low : Nat} {address mask : BitVec 64}
    (field : ∀ bit, low ≤ bit → bit < 52 → mask.getLsbD bit = true)
    (aligned : address.toNat % 2 ^ low = 0) (small : address.toNat < 2 ^ 52) :
    address &&& mask = address := by
  apply BitVec.eq_of_getLsbD_eq
  intro bit _
  rw [BitVec.getLsbD_and]
  by_cases set : address.getLsbD bit
  · have above : low ≤ bit := by
      by_contra below
      have cleared : (address.toNat % 2 ^ low).testBit bit = address.toNat.testBit bit := by
        rw [Nat.testBit_mod_two_pow, decide_eq_true (Nat.lt_of_not_le below), Bool.true_and]
      rw [aligned, Nat.zero_testBit] at cleared
      rw [BitVec.getLsbD, ← cleared] at set
      cases set
    have below : bit < 52 := by
      by_contra high
      have clear := Nat.testBit_lt_two_pow
        (small.trans_le (Nat.pow_le_pow_right Nat.two_pos (Nat.le_of_not_lt high)))
      rw [BitVec.getLsbD, clear] at set
      cases set
    rw [field bit above below, Bool.and_true]
  · rw [Bool.not_eq_true] at set
    rw [set, Bool.false_and]

theorem field_directory (bit : Nat) (above : 12 ≤ bit) (below : bit < 52) :
    (0xFFFFFFFFFF000 : BitVec 64).getLsbD bit = true := by
  have each : ∀ bit : Fin 52, 12 ≤ bit.val → (0xFFFFFFFFFF000 : BitVec 64).getLsbD bit = true := by
    decide
  exact each ⟨bit, below⟩ above

theorem field_page (bit : Nat) (above : 21 ≤ bit) (below : bit < 52) :
    (0xFFFFFFFE00000 : BitVec 64).getLsbD bit = true := by
  have each : ∀ bit : Fin 52, 21 ≤ bit.val → (0xFFFFFFFE00000 : BitVec 64).getLsbD bit = true := by
    decide
  exact each ⟨bit, below⟩ above

/-- The bits of an aligned address below `2 ^ 52` that are not its field's are clear. -/
theorem getLsbD_address {low bit : Nat} {address : BitVec 64}
    (aligned : address.toNat % 2 ^ low = 0) (small : address.toNat < 2 ^ 52)
    (outside : bit < low ∨ 52 ≤ bit) : address.getLsbD bit = false := by
  rw [BitVec.getLsbD]
  rcases outside with below | high
  · have cleared : (address.toNat % 2 ^ low).testBit bit = address.toNat.testBit bit := by
      rw [Nat.testBit_mod_two_pow, decide_eq_true below, Bool.true_and]
    rw [← cleared, aligned, Nat.zero_testBit]
  · exact Nat.testBit_lt_two_pow (small.trans_le (Nat.pow_le_pow_right Nat.two_pos high))

theorem hasBit_eq (entry : BitVec 64) {bit : Nat} (inside : bit < 64) :
    hasBit entry bit = entry.getLsbD bit := by
  have single : entry &&& (1#64 <<< bit) ≠ 0#64 ↔ entry.getLsbD bit = true := by
    constructor
    · intro some
      by_contra clear
      apply some
      apply BitVec.eq_of_getLsbD_eq
      intro other _
      rw [BitVec.getLsbD_and, BitVec.getLsbD_shiftLeft, BitVec.getLsbD_zero, BitVec.getLsbD_one]
      by_cases same : other = bit
      · rw [same, Bool.eq_false_of_not_eq_true clear, Bool.false_and]
      · by_cases below : other < bit
        · simp [below]
        · have away : other - bit ≠ 0 := by omega
          simp [away]
    · intro set none
      have clear : (entry &&& (1#64 <<< bit)).getLsbD bit = (0#64).getLsbD bit := by rw [none]
      rw [BitVec.getLsbD_and, set, BitVec.getLsbD_shiftLeft] at clear
      simp [inside] at clear
  exact Bool.eq_iff_iff.mpr (decide_eq_true_iff.trans single)

theorem getLsbD_flagBit (flag : Bool) {bit : Nat} (inside : bit < 64) (other : Nat) :
    (flagBit flag bit).getLsbD other = (decide (other = bit) && flag) := by
  unfold flagBit
  rw [BitVec.getLsbD_shiftLeft, BitVec.getLsbD_setWidth, BitVec.getLsbD_ofBool]
  by_cases same : other = bit
  · simp [same, inside]
  · by_cases below : other < bit
    · simp [below, same]
    · have away : other - bit ≠ 0 := by omega
      simp [away, same]

/-- A flag outside an address field does not show in it. -/
theorem flagBit_and_directory (flag : Bool) {bit : Nat} (outside : bit < 12 ∨ bit = 63) :
    flagBit flag bit &&& 0xFFFFFFFFFF000 = 0 := by
  have each : ∀ bit : Fin 64, bit.val < 12 ∨ bit.val = 63 →
      ∀ flag : Bool, flagBit flag bit &&& 0xFFFFFFFFFF000 = 0 := by decide
  exact each ⟨bit, by omega⟩ outside flag

theorem flagBit_and_page (flag : Bool) {bit : Nat} (outside : bit < 21 ∨ bit = 63) :
    flagBit flag bit &&& 0xFFFFFFFE00000 = 0 := by
  have each : ∀ bit : Fin 64, bit.val < 21 ∨ bit.val = 63 →
      ∀ flag : Bool, flagBit flag bit &&& 0xFFFFFFFE00000 = 0 := by decide
  exact each ⟨bit, by omega⟩ outside flag

/-- The assertion on an address's alignment. -/
theorem and_ones_of_aligned {low : Nat} {address : BitVec 64}
    (aligned : address.toNat % 2 ^ low = 0) : address &&& BitVec.ofNat 64 (2 ^ low - 1) = 0 := by
  apply BitVec.eq_of_toNat_eq
  rw [BitVec.toNat_and, BitVec.toNat_ofNat]
  apply Nat.eq_of_testBit_eq
  intro bit
  have zero : (0 : BitVec 64).toNat.testBit bit = false := Nat.zero_testBit bit
  rw [Nat.testBit_and, Nat.testBit_mod_two_pow, Nat.testBit_two_pow_sub_one, zero]
  by_cases below : bit < low
  · have cleared : (address.toNat % 2 ^ low).testBit bit = address.toNat.testBit bit := by
      rw [Nat.testBit_mod_two_pow, decide_eq_true below, Bool.true_and]
    rw [← cleared, aligned, Nat.zero_testBit, Bool.false_and]
  · rw [decide_eq_false below, Bool.and_false, Bool.and_false]

/-- **Directory entries round trip.** -/
theorem PML4PDPEntry.decode_encode {entry : PML4PDPEntry}
    (aligned : entry.pageDirectory.toNat % 2 ^ 12 = 0)
    (small : entry.pageDirectory.toNat < 2 ^ 52) :
    ∃ word, entry.encode = some word ∧ decode word = entry := by
  refine ⟨_, if_pos (and_ones_of_aligned aligned), ?_⟩
  have low (bit : Nat) (below : bit < 12) : entry.pageDirectory.getLsbD bit = false :=
    getLsbD_address aligned small (.inl below)
  have high : entry.pageDirectory.getLsbD 63 = false :=
    getLsbD_address aligned small (.inr (by decide))
  have field := and_field field_directory aligned small
  cases entry
  unfold decode
  simp only [hasBit_eq, BitVec.getLsbD_or, getLsbD_flagBit, BitVec.and_or_distrib_right,
    flagBit_and_directory, Nat.reduceLT, low, high, field, mk.injEq, true_or, or_true]
  simp

/-- **Page entries round trip.** -/
theorem PDEntry.decode_encode {entry : PDEntry}
    (aligned : entry.pageAddress.toNat % 2 ^ 21 = 0) (small : entry.pageAddress.toNat < 2 ^ 52) :
    ∃ word, entry.encode = some word ∧ decode word = entry := by
  refine ⟨_, if_pos (and_ones_of_aligned aligned), ?_⟩
  have low (bit : Nat) (below : bit < 21) : entry.pageAddress.getLsbD bit = false :=
    getLsbD_address aligned small (.inl below)
  have high : entry.pageAddress.getLsbD 63 = false :=
    getLsbD_address aligned small (.inr (by decide))
  have field := and_field field_page aligned small
  cases entry
  unfold decode
  simp only [hasBit_eq, BitVec.getLsbD_or, getLsbD_flagBit, BitVec.and_or_distrib_right,
    flagBit_and_page, Nat.reduceLT, low, high, field, mk.injEq, true_or, or_true]
  simp

end JsOS.Kernel
