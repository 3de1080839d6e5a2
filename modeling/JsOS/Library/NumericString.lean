import JsOS.Library.Binary64
import Mathlib.Data.BitVec
import Mathlib.Data.List.TakeWhile

/-! # Numbers in strings

How ECMAScript converts a string to a number: white space around it is ignored, and the
rest is an integer in a radix that its prefix names or a decimal literal with a sign, a
fraction and an exponent. The empty string is zero. A string of digits alone is the number
that its digits spell (`NumericString.toNumber_digits`).
-/

namespace NumericString

open Binary64 (Number)

/-- A string of UTF-16 units. -/
abbrev Units := List (BitVec 16)

/-- The units of a literal, as their codes. -/
def units (text : String) : Units := text.toList.map fun char => BitVec.ofNat 16 char.toNat

/-! ## White space -/

/-- `WhiteSpace` and `LineTerminator`. -/
def isWhiteSpace (unit : BitVec 16) : Bool :=
  (9 ≤ unit && unit ≤ 13) || unit = 32 || unit = 0xa0 || unit = 0x1680 ||
    (0x2000 ≤ unit && unit ≤ 0x200a) || unit = 0x2028 || unit = 0x2029 || unit = 0x202f ||
    unit = 0x205f || unit = 0x3000 || unit = 0xfeff

/-- `trim`. -/
def trim (string : Units) : Units :=
  ((string.dropWhile isWhiteSpace).reverse.dropWhile isWhiteSpace).reverse

/-! ## Digits -/

/-- A decimal digit. -/
def isDigit (unit : BitVec 16) : Bool := 48 ≤ unit && unit ≤ 57

/-- The value of a digit or letter, if it is a digit of the radix. -/
def digitValue (radix : ℕ) (unit : BitVec 16) : Option ℕ :=
  let value :=
    if isDigit unit then some (unit.toNat - 48)
    else if 65 ≤ unit && unit ≤ 90 then some (unit.toNat - 55)
    else if 97 ≤ unit && unit ≤ 122 then some (unit.toNat - 87)
    else none
  value.filter fun value => value < radix

/-- The number that digits spell, the first one most significant. -/
def spell (radix : ℕ) (digits : List ℕ) : ℕ :=
  digits.foldl (fun number digit => number * radix + digit) 0

/-- The number that decimal digits spell. -/
def numeral (digits : Units) : ℕ := spell 10 (digits.map fun digit => digit.toNat - 48)

/-! ## Conversion -/

/-- The digits of an integer in another radix, after its prefix. -/
def radixPrefix : Units → Option (ℕ × Units)
  | zero :: letter :: digits =>
      if zero = 48 then
        if letter = 120 ∨ letter = 88 then some (16, digits)
        else if letter = 111 ∨ letter = 79 then some (8, digits)
        else if letter = 98 ∨ letter = 66 then some (2, digits)
        else none
      else none
  | _ => none

/-- `HexIntegerLiteral` and the like, after the prefix. -/
def integerLiteral (radix : ℕ) (digits : Units) : Number :=
  if digits = [] then .nan
  else
    match digits.mapM (digitValue radix) with
    | some values => Binary64.ofRat (spell radix values)
    | none => .nan

/-- `DecimalDigits` of an exponent, after the sign. -/
def exponentDigits (digits : Units) : Option ℤ :=
  if digits ≠ [] ∧ digits.all isDigit then some (numeral digits) else none

/-- `SignedInteger` of an exponent. -/
def signedInteger : Units → Option ℤ
  | [] => none
  | sign :: digits =>
      if sign = 43 then exponentDigits digits
      else if sign = 45 then (exponentDigits digits).map Neg.neg
      else exponentDigits (sign :: digits)

/-- `ExponentPart`, which may be missing. -/
def exponentPart : Units → Option ℤ
  | [] => some 0
  | mark :: rest => if mark = 101 ∨ mark = 69 then signedInteger rest else none

/-- The digits after a decimal point, and the rest. -/
def fractionPart : Units → Units × Units
  | [] => ([], [])
  | point :: rest =>
      if point = 46 then (rest.takeWhile isDigit, rest.dropWhile isDigit)
      else ([], point :: rest)

/-- `StrUnsignedDecimalLiteral`. -/
def unsignedDecimalLiteral (literal : Units) : Number :=
  if literal = units "Infinity" then .infinite false
  else
    let whole := literal.takeWhile isDigit
    let (fraction, rest) := fractionPart (literal.dropWhile isDigit)
    if whole = [] ∧ fraction = [] then .nan
    else
      match exponentPart rest with
      | none => .nan
      | some exponent =>
          Binary64.ofRat (numeral (whole ++ fraction) * 10 ^ (exponent - fraction.length))

/-- `StrDecimalLiteral`. -/
def decimalLiteral : Units → Number
  | [] => .nan
  | sign :: literal =>
      if sign = 43 then unsignedDecimalLiteral literal
      else if sign = 45 then (unsignedDecimalLiteral literal).neg
      else unsignedDecimalLiteral (sign :: literal)

/-- **`StringToNumber`.** -/
def toNumber (string : Units) : Number :=
  let literal := trim string
  if literal = [] then .finite 0
  else
    match radixPrefix literal with
    | some (radix, digits) => integerLiteral radix digits
    | none => decimalLiteral literal

/-! ## Decimal numerals -/

/-- A non-empty string of decimal digits. -/
def Numeral (string : Units) : Prop := string ≠ [] ∧ ∀ unit ∈ string, isDigit unit

instance (string : Units) : Decidable (Numeral string) :=
  inferInstanceAs (Decidable (string ≠ [] ∧ ∀ unit ∈ string, isDigit unit))

theorem isDigit_iff {unit : BitVec 16} : isDigit unit ↔ 48 ≤ unit.toNat ∧ unit.toNat ≤ 57 := by
  unfold isDigit
  rw [Bool.and_eq_true, decide_eq_true_iff, decide_eq_true_iff, BitVec.le_def, BitVec.le_def]
  rfl

/-- A unit whose code is not one of a digit is not a digit. -/
theorem ne_of_isDigit {unit other : BitVec 16} (digit : isDigit unit)
    (outside : other.toNat < 48 ∨ 57 < other.toNat) : unit ≠ other := by
  rintro rfl
  have range := isDigit_iff.mp digit
  omega

theorem not_isWhiteSpace_of_isDigit {unit : BitVec 16} (digit : isDigit unit) :
    isWhiteSpace unit = false := by
  have range := isDigit_iff.mp digit
  unfold isWhiteSpace
  simp only [Bool.or_eq_false_iff, Bool.and_eq_false_iff, decide_eq_false_iff_not]
  bv_omega

/-- White space is trimmed from the ends only. -/
theorem trim_eq_self {string : Units} (plain : ∀ unit ∈ string, isWhiteSpace unit = false) :
    trim string = string := by
  have kept (string : Units) (plain : ∀ unit ∈ string, isWhiteSpace unit = false) :
      string.dropWhile isWhiteSpace = string := by
    cases string with
    | nil => rfl
    | cons unit string =>
        rw [List.dropWhile_cons_of_neg]
        rw [plain unit List.mem_cons_self]
        exact Bool.false_ne_true
  unfold trim
  rw [kept string plain, kept string.reverse fun unit member => plain unit
    (List.mem_reverse.mp member), List.reverse_reverse]

theorem Numeral.radixPrefix {string : Units} (digits : Numeral string) :
    radixPrefix string = none := by
  obtain ⟨-, digit⟩ := digits
  rcases string with - | ⟨zero, - | ⟨letter, rest⟩⟩
  · rfl
  · rfl
  · have second := digit letter (List.mem_cons_of_mem _ List.mem_cons_self)
    dsimp only [NumericString.radixPrefix]
    split
    · rw [if_neg, if_neg, if_neg]
      · exact not_or.mpr ⟨ne_of_isDigit second (by decide), ne_of_isDigit second (by decide)⟩
      · exact not_or.mpr ⟨ne_of_isDigit second (by decide), ne_of_isDigit second (by decide)⟩
      · exact not_or.mpr ⟨ne_of_isDigit second (by decide), ne_of_isDigit second (by decide)⟩
    · rfl

theorem Numeral.unsignedDecimalLiteral {string : Units} (digits : Numeral string) :
    unsignedDecimalLiteral string = Binary64.ofRat (numeral string) := by
  obtain ⟨nonempty, digit⟩ := digits
  have finite : string ≠ units "Infinity" := by
    rintro rfl
    exact absurd (digit 73 (by decide)) (by decide)
  have whole : string.takeWhile isDigit = string := List.takeWhile_eq_self_iff.mpr digit
  have rest : string.dropWhile isDigit = [] := List.dropWhile_eq_nil_iff.mpr digit
  unfold NumericString.unsignedDecimalLiteral
  rw [if_neg finite, whole, rest]
  dsimp only [fractionPart, exponentPart]
  rw [if_neg fun empty => nonempty empty.1]
  rw [List.append_nil, List.length_nil, Int.ofNat_zero, sub_zero, zpow_zero, mul_one]

/-- **A string of digits alone is converted to the number they spell.** -/
theorem toNumber_digits {string : Units} (digits : Numeral string) :
    toNumber string = Binary64.ofRat (numeral string) := by
  have untrimmed : trim string = string :=
    trim_eq_self fun unit member => not_isWhiteSpace_of_isDigit (digits.2 unit member)
  unfold toNumber
  rw [untrimmed]
  dsimp only
  rw [if_neg digits.1, digits.radixPrefix]
  dsimp only
  rw [← digits.unsignedDecimalLiteral]
  obtain ⟨nonempty, digit⟩ := digits
  cases string with
  | nil => exact absurd rfl nonempty
  | cons sign literal =>
      have first := digit sign List.mem_cons_self
      dsimp only [decimalLiteral]
      rw [if_neg (ne_of_isDigit first (by decide)), if_neg (ne_of_isDigit first (by decide))]

/-! ## Numbers as numerals -/

/-- The decimal numeral of a number, without leading zeros. -/
def ofNat (number : ℕ) : Units :=
  if number < 10 then [BitVec.ofNat 16 (48 + number)]
  else ofNat (number / 10) ++ [BitVec.ofNat 16 (48 + number % 10)]

theorem toNat_digit {digit : ℕ} (below : digit < 10) :
    (BitVec.ofNat 16 (48 + digit)).toNat = 48 + digit := by
  rw [BitVec.toNat_ofNat, Nat.mod_eq_of_lt (by omega)]

theorem isDigit_digit {digit : ℕ} (below : digit < 10) :
    isDigit (BitVec.ofNat 16 (48 + digit)) := by
  rw [isDigit_iff, toNat_digit below]
  omega

theorem numeral_concat (digits : Units) (digit : BitVec 16) :
    numeral (digits ++ [digit]) = numeral digits * 10 + (digit.toNat - 48) := by
  unfold numeral spell
  rw [List.map_append, List.foldl_append]
  rfl

/-- The numeral of a number consists of digits and spells the number. -/
theorem numeral_ofNat (number : ℕ) :
    Numeral (ofNat number) ∧ numeral (ofNat number) = number := by
  induction number using Nat.strongRecOn with
  | ind number ih =>
      unfold ofNat
      split
      · next single =>
          refine ⟨⟨List.cons_ne_nil _ _, fun unit member => ?_⟩, ?_⟩
          · rw [List.mem_singleton.mp member]
            exact isDigit_digit single
          · rw [← List.nil_append [_], numeral_concat, toNat_digit single]
            change 0 * 10 + (48 + number - 48) = number
            omega
      · next several =>
          obtain ⟨⟨-, digits⟩, spelled⟩ := ih (number / 10) (by omega)
          have last : number % 10 < 10 := Nat.mod_lt _ (by decide)
          refine ⟨⟨List.append_ne_nil_of_right_ne_nil _ (List.cons_ne_nil _ _),
            fun unit member => ?_⟩, ?_⟩
          · rcases List.mem_append.mp member with higher | lowest
            · exact digits unit higher
            · rw [List.mem_singleton.mp lowest]
              exact isDigit_digit last
          · rw [numeral_concat, spelled, toNat_digit last]
            omega

end NumericString
