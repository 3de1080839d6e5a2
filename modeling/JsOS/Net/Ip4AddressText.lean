import JsOS.Library.NumericString
import JsOS.Net.Ip4Address

/-! # IPv4 addresses in text

`toString` writes the four parts of an address in decimal. `parse` converts every field
with the conversions of the language and compares their results, so that it takes what
they take for a small whole number, and not digits only (`parse_exact`).
-/

namespace JsOS.Net.IP4Address

open Binary64 (Number)
open NumericString (Units Numeral numeral toNumber trim)

/-- What is passed to `parse`. -/
inductive Argument where
  | address (ip : IP4Address)
  | string (text : Units)
  | other

/-- The full stop. -/
def point : BitVec 16 := 46

/-- Four fields between full stops. -/
def joined (a b c d : Units) : Units := a ++ point :: (b ++ point :: (c ++ point :: d))

/-- `toString`. -/
def toString (ip : IP4Address) : Units :=
  joined (NumericString.ofNat ip.a.toNat) (NumericString.ofNat ip.b.toNat)
    (NumericString.ofNat ip.c.toNat) (NumericString.ofNat ip.d.toNat)

/-- `number | 0`. -/
def toInt32 : Number → ℤ
  | .nan => 0
  | .infinite _ => 0
  | .finite value => (BitVec.ofInt 32 (if 0 ≤ value then ⌊value⌋ else ⌈value⌉)).toInt

/-- A field in the loop of `parse`; `none` when it returns `null`. -/
def parseField (field : Units) : Option (BitVec 8) :=
  let v := toInt32 (toNumber field)
  if toNumber field ≠ .finite v ∨ v < 0 ∨ 255 < v then none else some (BitVec.ofInt 8 v)

/-- `parse` of a string. -/
def parseString (text : Units) : Option IP4Address :=
  let p := (trim text).splitOn point
  if p.length ≠ 4 then none
  else
    match p.mapM parseField with
    | some [a, b, c, d] => some ⟨a, b, c, d⟩
    | _ => none

/-- `parse`. -/
def parse : Argument → Option IP4Address
  | .address ip => some ip
  | .string text => parseString text
  | .other => none

/-- **A field is taken for the number it converts to**, if that is a byte. -/
theorem parseField_eq_some {field : Units} {byte : BitVec 8} :
    parseField field = some byte ↔ toNumber field = .finite byte.toNat := by
  unfold parseField
  dsimp only
  constructor
  · intro parsed
    split at parsed
    · cases parsed
    · next taken =>
        rw [not_or, not_or, ne_eq, not_not, not_lt, not_lt] at taken
        obtain ⟨whole, positive, small⟩ := taken
        obtain ⟨number, spelled⟩ := Int.eq_ofNat_of_zero_le positive
        rw [spelled] at whole parsed small
        have below : number < 256 := by omega
        rw [whole, ← Option.some.inj parsed]
        have same : (BitVec.ofInt 8 (number : ℤ)).toNat = number := by
          rw [BitVec.ofInt_natCast, BitVec.toNat_ofNat, Nat.mod_eq_of_lt below]
        rw [same]
        norm_cast
  · intro whole
    have below := byte.isLt
    have truncated : toInt32 (toNumber field) = byte.toNat := by
      rw [whole]
      dsimp only [toInt32]
      rw [if_pos (Nat.cast_nonneg _), Int.floor_natCast, BitVec.ofInt_natCast, BitVec.toInt_eq_toNat_of_lt]
      · rw [BitVec.toNat_ofNat, Nat.mod_eq_of_lt (by omega)]
      · rw [BitVec.toNat_ofNat, Nat.mod_eq_of_lt (by omega)]
        omega
    rw [truncated, if_neg, BitVec.ofInt_natCast, BitVec.ofNat_toNat, BitVec.setWidth_eq]
    rw [not_or, not_or, not_lt, not_lt, whole]
    exact ⟨fun different => different (by norm_cast), by omega, by omega⟩

/-- A field of digits is taken exactly if they spell the byte. -/
theorem parseField_numeral {field : Units} (digits : Numeral field) {byte : BitVec 8} :
    parseField field = some byte ↔ numeral field = byte.toNat := by
  rw [parseField_eq_some, NumericString.toNumber_digits digits]
  exact Binary64.ofRat_natCast_eq_iff byte.isLt (by decide)

/-! ## Dotted-decimal addresses -/

/-- The text, trimmed of white space, is the address in dotted-decimal form: four non-empty
fields of decimal digits that spell its bytes. -/
def DottedDecimal (text : Units) (ip : IP4Address) : Prop :=
  ∃ a b c d, trim text = joined a b c d ∧
    (Numeral a ∧ numeral a = ip.a.toNat) ∧ (Numeral b ∧ numeral b = ip.b.toNat) ∧
    (Numeral c ∧ numeral c = ip.c.toNat) ∧ (Numeral d ∧ numeral d = ip.d.toNat)

/-- The trimmed text has four fields, each of which converts to a whole number from 0 to
255, and one of them is not a string of decimal digits. -/
def Lenient (text : Units) : Prop :=
  ((trim text).splitOn point).length = 4 ∧
    (∀ field ∈ (trim text).splitOn point, ∃ byte : BitVec 8,
      toNumber field = .finite byte.toNat) ∧
    ∃ field ∈ (trim text).splitOn point, ¬ Numeral field

theorem splitOn_joined {a b c d : Units} (inA : point ∉ a) (inB : point ∉ b) (inC : point ∉ c)
    (inD : point ∉ d) : (joined a b c d).splitOn point = [a, b, c, d] := by
  unfold joined
  rw [List.splitOn_append_cons_self_of_not_mem inA, List.splitOn_append_cons_self_of_not_mem inB,
    List.splitOn_append_cons_self_of_not_mem inC, List.splitOn_eq_singleton inD]

/-- A text that splits into four fields is their join. -/
theorem eq_joined {text a b c d : Units} (split : text.splitOn point = [a, b, c, d]) :
    text = joined a b c d := by
  have joins : [point].intercalate (text.splitOn point) = text := List.intercalate_splitOn point
  rw [split] at joins
  rw [← joins]
  simp [joined]

theorem point_not_mem {field : Units} (digits : Numeral field) : point ∉ field :=
  fun member => NumericString.ne_of_isDigit (digits.2 point member) (by decide) rfl

/-- What `parse` makes of a text, field by field. -/
theorem parse_eq_some {text : Units} {ip : IP4Address} :
    parse (.string text) = some ip ↔
      ∃ a b c d, (trim text).splitOn point = [a, b, c, d] ∧ parseField a = some ip.a ∧
        parseField b = some ip.b ∧ parseField c = some ip.c ∧ parseField d = some ip.d := by
  unfold parse parseString
  dsimp only
  constructor
  · intro parsed
    split at parsed
    · cases parsed
    · next four =>
        obtain ⟨a, b, c, d, split⟩ := List.length_eq_four.mp (not_not.mp four)
        refine ⟨a, b, c, d, split, ?_⟩
        rw [split] at parsed
        simp only [List.mapM_cons, List.mapM_nil] at parsed
        cases first : parseField a with
        | none => simp [first] at parsed
        | some a =>
            cases second : parseField b with
            | none => simp [first, second] at parsed
            | some b =>
                cases third : parseField c with
                | none => simp [first, second, third] at parsed
                | some c =>
                    cases fourth : parseField d with
                    | none => simp [first, second, third, fourth] at parsed
                    | some d =>
                        simp only [first, second, third, fourth] at parsed
                        obtain rfl := Option.some.inj parsed
                        exact ⟨rfl, rfl, rfl, rfl⟩
  · rintro ⟨a, b, c, d, split, first, second, third, fourth⟩
    rw [split, if_neg fun other : [a, b, c, d].length ≠ 4 => other rfl]
    simp only [List.mapM_cons, List.mapM_nil, first, second, third, fourth]
    rfl

/-- Dotted-decimal addresses are accepted. -/
theorem DottedDecimal.parse {text : Units} {ip : IP4Address} (dotted : DottedDecimal text ip) :
    parse (.string text) = some ip := by
  obtain ⟨a, b, c, d, joins, ⟨digitsA, spellA⟩, ⟨digitsB, spellB⟩, ⟨digitsC, spellC⟩,
    ⟨digitsD, spellD⟩⟩ := dotted
  refine parse_eq_some.mpr ⟨a, b, c, d, ?_, (parseField_numeral digitsA).mpr spellA,
    (parseField_numeral digitsB).mpr spellB, (parseField_numeral digitsC).mpr spellC,
    (parseField_numeral digitsD).mpr spellD⟩
  rw [joins]
  exact splitOn_joined (point_not_mem digitsA) (point_not_mem digitsB) (point_not_mem digitsC)
    (point_not_mem digitsD)

/-- The fields of a dotted-decimal address are numerals. -/
theorem DottedDecimal.numerals {text : Units} {ip : IP4Address} (dotted : DottedDecimal text ip) :
    ∀ field ∈ (trim text).splitOn point, Numeral field := by
  obtain ⟨a, b, c, d, joins, ⟨digitsA, -⟩, ⟨digitsB, -⟩, ⟨digitsC, -⟩, ⟨digitsD, -⟩⟩ := dotted
  rw [joins, splitOn_joined (point_not_mem digitsA) (point_not_mem digitsB)
    (point_not_mem digitsC) (point_not_mem digitsD)]
  intro field member
  simp only [List.mem_cons, List.not_mem_nil, or_false] at member
  rcases member with rfl | rfl | rfl | rfl
  · exact digitsA
  · exact digitsB
  · exact digitsC
  · exact digitsD

/-- A text that is accepted is dotted-decimal if all its fields are numerals. -/
theorem dottedDecimal_of_parse {text : Units} {ip : IP4Address}
    (parsed : IP4Address.parse (.string text) = some ip)
    (numerals : ∀ field ∈ (trim text).splitOn point, Numeral field) : DottedDecimal text ip := by
  obtain ⟨a, b, c, d, split, first, second, third, fourth⟩ := parse_eq_some.mp parsed
  rw [split] at numerals
  have digitsA := numerals a (by simp)
  have digitsB := numerals b (by simp)
  have digitsC := numerals c (by simp)
  have digitsD := numerals d (by simp)
  exact ⟨a, b, c, d, eq_joined split, ⟨digitsA, (parseField_numeral digitsA).mp first⟩,
    ⟨digitsB, (parseField_numeral digitsB).mp second⟩,
    ⟨digitsC, (parseField_numeral digitsC).mp third⟩,
    ⟨digitsD, (parseField_numeral digitsD).mp fourth⟩⟩

/-- The text of an address is its dotted-decimal form. -/
theorem dottedDecimal_toString (ip : IP4Address) : DottedDecimal ip.toString ip := by
  have untrimmed : trim ip.toString = ip.toString := by
    apply NumericString.trim_eq_self
    intro unit member
    have digit (number : ℕ) (member : unit ∈ NumericString.ofNat number) :
        NumericString.isWhiteSpace unit = false :=
      NumericString.not_isWhiteSpace_of_isDigit
        ((NumericString.numeral_ofNat number).1.2 unit member)
    simp only [toString, joined, List.mem_append, List.mem_cons] at member
    rcases member with inA | rfl | inB | rfl | inC | rfl | inD
    · exact digit _ inA
    · decide
    · exact digit _ inB
    · decide
    · exact digit _ inC
    · decide
    · exact digit _ inD
  exact ⟨_, _, _, _, untrimmed, NumericString.numeral_ofNat _, NumericString.numeral_ofNat _,
    NumericString.numeral_ofNat _, NumericString.numeral_ofNat _⟩

/-- **`parse` accepts exactly the dotted-decimal form, but for lenient texts.** On a text it
returns the address whose dotted-decimal form that is, and `null` if there is none, exactly
if not every field of four converts to a byte or all of them are decimal numerals. It
returns every address from its own text. -/
theorem parse_exact (text : Units) (own : IP4Address) :
    ((∀ ip, parse (.string text) = some ip ↔ DottedDecimal text ip) ↔ ¬ Lenient text) ∧
      parse (.string own.toString) = some own := by
  refine ⟨⟨?_, ?_⟩, (dottedDecimal_toString own).parse⟩
  · rintro exact ⟨four, converts, field, member, other⟩
    obtain ⟨a, b, c, d, split⟩ := List.length_eq_four.mp four
    rw [split] at converts
    obtain ⟨byteA, first⟩ := converts a (by simp)
    obtain ⟨byteB, second⟩ := converts b (by simp)
    obtain ⟨byteC, third⟩ := converts c (by simp)
    obtain ⟨byteD, fourth⟩ := converts d (by simp)
    have parsed : parse (.string text) = some ⟨byteA, byteB, byteC, byteD⟩ :=
      parse_eq_some.mpr ⟨a, b, c, d, split, parseField_eq_some.mpr first,
        parseField_eq_some.mpr second, parseField_eq_some.mpr third,
        parseField_eq_some.mpr fourth⟩
    exact other (((exact _).mp parsed).numerals field member)
  · intro strict ip
    refine ⟨fun parsed => dottedDecimal_of_parse parsed fun field member => ?_,
      DottedDecimal.parse⟩
    by_contra other
    obtain ⟨a, b, c, d, split, first, second, third, fourth⟩ := parse_eq_some.mp parsed
    refine strict ⟨by rw [split]; rfl, ?_, field, member, other⟩
    rw [split]
    intro part among
    simp only [List.mem_cons, List.not_mem_nil, or_false] at among
    rcases among with rfl | rfl | rfl | rfl
    · exact ⟨_, parseField_eq_some.mp first⟩
    · exact ⟨_, parseField_eq_some.mp second⟩
    · exact ⟨_, parseField_eq_some.mp third⟩
    · exact ⟨_, parseField_eq_some.mp fourth⟩

/-- Three full stops alone are taken for an address, as empty fields convert to zero. -/
theorem parse_empty_fields : ∃ text : Units,
    parse (.string text) = some .ANY ∧ ¬ DottedDecimal text .ANY := by
  have split : (trim [point, point, point]).splitOn point = [[], [], [], []] := by decide +kernel
  have zero : toNumber [] = .finite ((0 : BitVec 8).toNat : ℚ) := rfl
  refine ⟨[point, point, point], parse_eq_some.mpr ⟨[], [], [], [], split, ?_⟩, fun dotted => ?_⟩
  · exact ⟨parseField_eq_some.mpr zero, parseField_eq_some.mpr zero, parseField_eq_some.mpr zero,
      parseField_eq_some.mpr zero⟩
  · exact (dotted.numerals [] (by rw [split]; exact List.mem_cons_self)).1 rfl

end JsOS.Net.IP4Address
