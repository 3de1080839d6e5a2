import Mathlib.Data.Nat.Digits.Lemmas

/-! # Numbers as text

`Utils::ToString` writes the digits of a number into a scratch buffer, the lowest first, and copies
them back in the other order. Read in the same radix the text denotes the number
(`toString_reads_back`).
-/

namespace JsOS.Kernel.Utils

/-- A value of the type `T`, which is `uint64_t` or `int64_t`. -/
inductive Value where
  | uint64 (bits : BitVec 64)
  | int64 (bits : BitVec 64)
  deriving DecidableEq

namespace Value

/-- `(uint64_t)value`. -/
def bits : Value → BitVec 64
  | uint64 bits => bits
  | int64 bits => bits

/-- The number that the value is. -/
def number : Value → Int
  | uint64 bits => bits.toNat
  | int64 bits => bits.toInt

end Value

/-- `i + '0'`, or `i + 'a' - 10`. -/
def digitChar (i : Nat) : UInt8 := if i < 10 then .ofNat (i + 0x30) else .ofNat (i + 0x61 - 10)

/-- The size of `tmp`. -/
def tmpSize : Nat := 66

/-- The loop that fills `tmp`, of which `room` bytes are left. It has no result if it writes past the
end. -/
def digitLoop (radix : BitVec 64) : (room : Nat) → BitVec 64 → List UInt8 → Option (List UInt8)
  | 0, v, tmp => if v ≠ 0 || tmp.isEmpty then none else some tmp
  | room + 1, v, tmp =>
      if v ≠ 0 || tmp.isEmpty then
        digitLoop radix room (v / radix) (tmp ++ [digitChar (v % radix).toNat])
      else some tmp

/-- The radix that is used. -/
def usedRadix (radix : Int) : Int := if radix < 2 || 36 < radix then 10 else radix

/-- `ToString`: what it writes at `sp`. The negation is that of two's complement. -/
def toString (value : Value) (radix : Int) : Option (List UInt8) :=
  let radix := usedRadix radix
  let sign := radix = 10 && value.number < 0
  let v := if sign then -value.bits else value.bits
  (digitLoop (.ofInt 64 radix) tmpSize v []).map fun tmp =>
    (if sign then [0x2d] else []) ++ tmp.reverse ++ [0]

/-! ## Reading -/

/-- The digit that a character stands for. -/
def digitValue (char : UInt8) : Option Nat :=
  if 0x30 ≤ char ∧ char ≤ 0x39 then some (char.toNat - 0x30)
  else if 0x61 ≤ char ∧ char ≤ 0x7a then some (char.toNat - 0x61 + 10)
  else none

/-- A numeral, read from the front. -/
def readFrom (radix : Nat) : Nat → List UInt8 → Option Nat
  | number, [] => some number
  | number, char :: chars =>
      (digitValue char).bind fun digit =>
        if digit < radix then readFrom radix (number * radix + digit) chars else none

/-- Digits in a radix, of which there is one at least. -/
def readDigits (radix : Nat) (chars : List UInt8) : Option Nat :=
  if chars.isEmpty then none else readFrom radix 0 chars

/-- An optional minus and digits. -/
def readNumber (radix : Nat) : List UInt8 → Option Int
  | 0x2d :: chars => (readDigits radix chars).map fun number : Nat => -(number : Int)
  | chars => (readDigits radix chars).map fun number : Nat => (number : Int)

theorem readNumber_minus (radix : Nat) (chars : List UInt8) :
    readNumber radix (0x2d :: chars) =
      (readDigits radix chars).map fun number : Nat => -(number : Int) := by
  rw [readNumber]

theorem readNumber_of_head? (radix : Nat) {chars : List UInt8} (noMinus : chars.head? ≠ some 0x2d) :
    readNumber radix chars = (readDigits radix chars).map fun number : Nat => (number : Int) := by
  unfold readNumber
  split
  · exact absurd rfl noMinus
  · rfl

/-! ## Digits -/

theorem digitValue_digitChar {i : Nat} (below : i < 36) : digitValue (digitChar i) = some i := by
  revert i
  decide

theorem digitChar_ne {i : Nat} (below : i < 36) :
    digitChar i ≠ 0 ∧ digitChar i ≠ 0x2d ∧ (digitChar i = 0x30 → i = 0) := by
  revert i
  decide

/-- The characters of digits, the highest first, are read as the number of the digits. -/
theorem readFrom_map_digitChar {radix : Nat} (small : radix ≤ 36) (digits : List Nat)
    (below : ∀ digit ∈ digits, digit < radix) (number : Nat) :
    readFrom radix number (digits.map digitChar) =
      some (digits.foldl (fun number digit => number * radix + digit) number) := by
  induction digits generalizing number with
  | nil => rfl
  | cons digit digits ih =>
      obtain ⟨first, rest⟩ := List.forall_mem_cons.mp below
      rw [List.map_cons, readFrom, digitValue_digitChar (by omega), Option.bind_some, if_pos first,
        ih rest, List.foldl_cons]

/-- Reading from the front undoes taking digits off the back. -/
theorem foldl_reverse_digits (radix number : Nat) :
    (Nat.digits radix number).reverse.foldl (fun number digit => number * radix + digit) 0 =
      number := by
  have swapped : (fun digit number : Nat => number * radix + digit) =
      fun digit number => digit + radix * number := by
    funext digit number
    ring
  rw [List.foldl_reverse, swapped]
  exact (Nat.ofDigits_eq_foldr radix _).symm.trans (Nat.ofDigits_digits radix number)

section Division

variable {radix : Nat} (small : radix ≤ 36) (v : BitVec 64)

include small in
theorem toNat_radix : (BitVec.ofNat 64 radix).toNat = radix := by
  rw [BitVec.toNat_ofNat, Nat.mod_eq_of_lt (by omega)]

include small in
theorem toNat_quotient : (v / BitVec.ofNat 64 radix).toNat = v.toNat / radix := by
  rw [BitVec.toNat_udiv, toNat_radix small]

include small in
theorem toNat_remainder : (v % BitVec.ofNat 64 radix).toNat = v.toNat % radix := by
  rw [BitVec.toNat_umod, toNat_radix small]

end Division

/-- **What the loop writes** behind the first digit. -/
theorem digitLoop_eq {radix : Nat} (two : 2 ≤ radix) (small : radix ≤ 36) (room : Nat)
    (v : BitVec 64) {tmp : List UInt8} (started : tmp ≠ [])
    (fits : (Nat.digits radix v.toNat).length ≤ room) :
    digitLoop (.ofNat 64 radix) room v tmp =
      some (tmp ++ (Nat.digits radix v.toNat).map digitChar) := by
  have filled : tmp.isEmpty = false := List.isEmpty_eq_false_iff.mpr started
  induction room generalizing v tmp with
  | zero =>
      have none_ : v.toNat = 0 :=
        Nat.digits_eq_nil_iff_eq_zero.mp (List.length_eq_zero_iff.mp (Nat.le_zero.mp fits))
      have zero : v = 0 := BitVec.eq_of_toNat_eq none_
      subst zero
      rw [digitLoop, filled]
      simp
  | succ room ih =>
      rw [digitLoop, filled, Bool.or_false]
      by_cases zero : v = 0
      · subst zero
        simp
      · have positive : v.toNat ≠ 0 := fun same => zero (BitVec.eq_of_toNat_eq same)
        have digits := Nat.digits_eq_cons_digits_div (b := radix) (by omega) positive
        rw [digits, List.length_cons] at fits
        have quotient := toNat_quotient small v
        rw [if_pos (decide_eq_true zero), ih _ (by simp) (by rw [quotient]; omega) (by simp),
          quotient, toNat_remainder small, digits, List.map_cons, List.append_assoc,
          List.singleton_append]

/-- The digits that are written, the lowest first: zero has one too. -/
def digitsOf (radix : Nat) (v : BitVec 64) : List Nat :=
  if v = 0 then [0] else Nat.digits radix v.toNat

section Digits

variable {radix : Nat} (two : 2 ≤ radix) (v : BitVec 64)

include two in
theorem length_digitsOf : (digitsOf radix v).length ≤ 64 := by
  unfold digitsOf
  split
  · decide
  · have bound : v.toNat < radix ^ 64 := v.isLt.trans_le (Nat.pow_le_pow_left two 64)
    exact (Nat.digits_length_le_iff (by omega) _).mpr bound

include two in
theorem digitsOf_lt : ∀ digit ∈ digitsOf radix v, digit < radix := by
  unfold digitsOf
  split
  · intro digit member
    rw [List.mem_singleton.mp member]
    omega
  · exact fun digit member => Nat.digits_lt_base (by omega) member

/-- The digits denote the number. -/
theorem foldl_reverse_digitsOf :
    (digitsOf radix v).reverse.foldl (fun number digit => number * radix + digit) 0 = v.toNat := by
  unfold digitsOf
  split
  · next zero =>
      subst zero
      simp
  · exact foldl_reverse_digits radix v.toNat

/-- The highest digit is zero only for zero. -/
theorem digitsOf_getLast (nonempty : digitsOf radix v ≠ [])
    (zero : (digitsOf radix v).getLast nonempty = 0) : digitsOf radix v = [0] := by
  unfold digitsOf at nonempty zero ⊢
  split
  · rfl
  · next positive =>
      have some_ : v.toNat ≠ 0 := fun same => positive (BitVec.eq_of_toNat_eq same)
      simp only [if_neg positive] at zero
      exact absurd zero (Nat.getLast_digit_ne_zero radix some_)

theorem digitsOf_ne_nil : digitsOf radix v ≠ [] := by
  unfold digitsOf
  split
  · exact List.cons_ne_nil 0 []
  · next positive =>
      exact Nat.digits_ne_nil_iff_ne_zero.mpr fun same => positive (BitVec.eq_of_toNat_eq same)

include two in
/-- **The loop does not write past the end** of the scratch buffer. -/
theorem digitLoop_tmpSize (small : radix ≤ 36) :
    digitLoop (.ofNat 64 radix) tmpSize v [] = some ((digitsOf radix v).map digitChar) := by
  have length := length_digitsOf two v
  have quotient := toNat_quotient small v
  have remainder := toNat_remainder small v
  unfold digitsOf at length ⊢
  unfold tmpSize
  rw [digitLoop, List.isEmpty_nil, Bool.or_true, if_pos rfl]
  by_cases zero : v = 0
  · subst zero
    rw [digitLoop_eq two small _ _ (by simp) (by rw [quotient]; simp), quotient, remainder]
    simp
  · have positive : v.toNat ≠ 0 := fun same => zero (BitVec.eq_of_toNat_eq same)
    have digits := Nat.digits_eq_cons_digits_div (b := radix) (by omega) positive
    rw [if_neg zero, digits, List.length_cons] at length
    rw [if_neg zero, digitLoop_eq two small _ _ (by simp) (by rw [quotient]; omega), quotient,
      remainder, digits]
    rfl

include two in
/-- The digits as they are copied back. -/
theorem digits_copied (small : radix ≤ 36) :
    let chars := ((digitsOf radix v).map digitChar).reverse
    readDigits radix chars = some v.toNat ∧ chars.head? ≠ some 0x2d ∧
      (chars.head? = some 0x30 → chars = [0x30]) ∧ chars.length ≤ 64 ∧ 0 ∉ chars := by
  intro chars
  have below := digitsOf_lt two v
  have nonempty := @digitsOf_ne_nil radix v
  have char (c : UInt8) (member : c ∈ chars) : ∃ digit < 36, digitChar digit = c := by
    obtain ⟨digit, among, rfl⟩ := List.mem_map.mp (List.mem_reverse.mp member)
    exact ⟨digit, (below digit among).trans_le small, rfl⟩
  have first : chars.head? = some (digitChar ((digitsOf radix v).getLast nonempty)) := by
    rw [List.head?_reverse, List.getLast?_map, List.getLast?_eq_some_getLast nonempty,
      Option.map_some]
  have highest := below _ (List.getLast_mem nonempty)
  obtain ⟨-, noMinus, zero⟩ := digitChar_ne (highest.trans_le small)
  refine ⟨?_, ?_, ?_, ?_, ?_⟩
  · have some_ : chars.isEmpty = false := by
      rw [List.isEmpty_eq_false_iff]
      intro empty
      rw [empty] at first
      cases first
    have reads := readFrom_map_digitChar small (digitsOf radix v).reverse
      (fun digit member => below digit (List.mem_reverse.mp member)) 0
    rw [List.map_reverse, foldl_reverse_digitsOf] at reads
    rw [readDigits, some_, if_neg Bool.false_ne_true, reads]
  · rw [first]
    exact fun same => noMinus (Option.some.inj same)
  · intro leading
    have last := zero (Option.some.inj (first.symm.trans leading))
    change ((digitsOf radix v).map digitChar).reverse = _
    rw [digitsOf_getLast v nonempty last]
    rfl
  · rw [List.length_reverse, List.length_map]
    exact length_digitsOf two v
  · intro nul
    obtain ⟨digit, small', same⟩ := char 0 nul
    exact (digitChar_ne small').1 same

end Digits

theorem usedRadix_bounds (radix : Int) :
    ∃ used : Nat, usedRadix radix = used ∧ 2 ≤ used ∧ used ≤ 36 := by
  unfold usedRadix
  split
  · exact ⟨10, rfl, by decide, by decide⟩
  · next proper =>
      rw [Bool.or_eq_true, decide_eq_true_iff, decide_eq_true_iff, not_or] at proper
      exact ⟨radix.toNat, by omega, by omega, by omega⟩

/-- The magnitude of a negative number is the negation of its bits, also of the least number. -/
theorem toNat_neg_bits {value : Value} (negative : value.number < 0) :
    ((-value.bits).toNat : Int) = -value.number := by
  cases value with
  | uint64 bits =>
      change (bits.toNat : Int) < 0 at negative
      omega
  | int64 bits =>
      change bits.toInt < 0 at negative
      change ((-bits).toNat : Int) = -bits.toInt
      have below := bits.isLt
      rw [BitVec.toNat_neg]
      rw [BitVec.toInt_eq_toNat_cond] at negative ⊢
      split at negative
      · omega
      · next large =>
          rw [if_neg large]
          omega

theorem toNat_bits {value : Value} (nonneg : 0 ≤ value.number) :
    (value.bits.toNat : Int) = value.number := by
  cases value with
  | uint64 bits => rfl
  | int64 bits =>
      change 0 ≤ bits.toInt at nonneg
      change (bits.toNat : Int) = bits.toInt
      have below := bits.isLt
      rw [BitVec.toInt_eq_toNat_cond] at nonneg ⊢
      split at nonneg
      · next small => rw [if_pos small]
      · omega

/-- What the text of a value stands for: the number itself in radix 10, and its 64 bits in another
radix. -/
def denoted (value : Value) (radix : Int) : Int :=
  if usedRadix radix = 10 then value.number else value.bits.toNat

/-- **The text is read back.** For every value and every radix `ToString` writes an optional minus,
digits and a zero byte, without overrunning its scratch buffer; read in the radix they denote the
value, there are at most 64 digits, and none of them leads with zero but that of zero itself. -/
theorem toString_reads_back (value : Value) (radix : Int) :
    ∃ sign digits, toString value radix = some (sign ++ digits ++ [0]) ∧
      (sign = [] ∨ sign = [0x2d]) ∧
      readNumber (usedRadix radix).toNat (sign ++ digits) = some (denoted value radix) ∧
      (digits.head? = some 0x30 → digits = [0x30]) ∧ digits.length ≤ 64 ∧ 0 ∉ sign ++ digits := by
  obtain ⟨used, usedEq, two, small⟩ := usedRadix_bounds radix
  have ofNat : BitVec.ofInt 64 (used : Int) = BitVec.ofNat 64 used := BitVec.ofInt_natCast 64 used
  by_cases sign : (usedRadix radix = 10 && value.number < 0) = true
  · obtain ⟨reads, -, leading, length, nul⟩ := digits_copied two (-value.bits) small
    have negative : value.number < 0 := by
      rw [Bool.and_eq_true, decide_eq_true_iff, decide_eq_true_iff] at sign
      exact sign.2
    have ten : usedRadix radix = 10 := by
      rw [Bool.and_eq_true, decide_eq_true_iff, decide_eq_true_iff] at sign
      exact sign.1
    refine ⟨[0x2d], _, ?_, .inr rfl, ?_, leading, length, ?_⟩
    · unfold toString
      dsimp only
      rw [sign, if_pos rfl, if_pos rfl, usedEq, ofNat, digitLoop_tmpSize two _ small,
        Option.map_some]
    · rw [usedEq, Int.toNat_natCast, List.singleton_append, readNumber_minus, reads,
        Option.map_some, denoted, if_pos ten, toNat_neg_bits negative, neg_neg]
    · rw [List.singleton_append, List.mem_cons, not_or]
      exact ⟨by decide, nul⟩
  · obtain ⟨reads, noMinus, leading, length, nul⟩ := digits_copied two value.bits small
    refine ⟨[], _, ?_, .inl rfl, ?_, leading, length, nul⟩
    · unfold toString
      dsimp only
      rw [if_neg sign, if_neg sign, usedEq, ofNat, digitLoop_tmpSize two _ small, Option.map_some]
    · rw [usedEq, Int.toNat_natCast, List.nil_append, readNumber_of_head? used noMinus, reads,
        Option.map_some, denoted]
      split
      · next ten =>
          have nonneg : 0 ≤ value.number := by
            rw [ten, decide_eq_true rfl, Bool.true_and, decide_eq_true_iff] at sign
            omega
          rw [toNat_bits nonneg]
      · rfl

end JsOS.Kernel.Utils
