import JsOS.Library.BitField
import JsOS.Library.Extent
import JsOS.Library.Framing

/-! # Structures of fields

`struct-fu` lays out the fields of a structure one after the other, bit fields inside a byte or
across bytes, all others at a whole byte. A bit field is read from the 32 bits that begin with its
first byte, and written by writing these 32 bits back.

The bytes of a buffer are a line of bits, the highest of each byte first. A field is read from its
own bits, and writing it changes these and no others, so that every structure that can be laid out
is read back as it was written (`struct_round_trip`).
-/

namespace JsOS.Core.Fs.Fat.StructFu

open Framing (Bytes littleEndian ofLittleEndian)
open JsOS.Library

/-! ## Fields -/

/-- `off`: bytes, and bits that are less than a byte. -/
structure Offset where
  bytes : ℕ
  bits : ℕ
  deriving DecidableEq, Repr

/-- A field: `ubit`, `bool`, one of `uint8`, `uint16le` and `uint32le` by its size, or `byte`. -/
inductive Field where
  | ubit (width : ℕ)
  | bool
  | uint (size : ℕ)
  | byte (size : ℕ)
  deriving DecidableEq, Repr

/-- What a field holds. -/
def Field.Value : Field → Type
  | ubit _ => ℕ
  | bool => Bool
  | uint _ => ℕ
  | byte _ => Bytes

/-- What the fields of a structure hold. -/
def Values : List Field → Type
  | [] => Unit
  | f :: fields => f.Value × Values fields

/-- `f.width`, for the fields that have one. -/
def Field.width : Field → Option ℕ
  | ubit width => some width
  | bool => some 1
  | uint _ => none
  | byte _ => none

/-- `f.size`, for the fields that have one. -/
def Field.size : Field → ℕ
  | ubit _ => 0
  | bool => 0
  | uint size => size
  | byte size => size

/-- `addField`, where it does not throw. -/
def addField (ctr : Offset) (f : Field) : Offset :=
  match f.width with
  | some width => ⟨ctr.bytes + (ctr.bits + width) / 8, (ctr.bits + width) % 8⟩
  | none => ⟨ctr.bytes + f.size, 0⟩

/-- The exceptions of `struct` and of the fields. -/
inductive LayoutError where
  /-- `Bitfields support a maximum width of 24 bits.` -/
  | width
  /-- `Improperly aligned bitfield before field` -/
  | before
  /-- `Improperly aligned bitfield at end of struct` -/
  | atEnd
  deriving DecidableEq, Repr

/-- `struct`: where the fields end. -/
def layout : Offset → List Field → Except LayoutError Offset
  | ctr, [] => if ctr.bits ≠ 0 then .error .atEnd else .ok ctr
  | ctr, f :: fields =>
      if 24 < f.width.getD 0 then .error .width
      else if f.width = none ∧ ctr.bits ≠ 0 then .error .before
      else layout (addField ctr f) fields

/-! ## Words -/

/-- `readUInt32BE` without a check, for which there are zeros behind the buffer. -/
def readUInt32BE (buf : Bytes) (offset : ℕ) : BitVec 32 :=
  (buf.getD offset 0).toBitVec ++ (buf.getD (offset + 1) 0).toBitVec ++
    (buf.getD (offset + 2) 0).toBitVec ++ (buf.getD (offset + 3) 0).toBitVec

/-- `writeUInt32BE` without a check, which writes what there is room for. -/
def writeUInt32BE (word : BitVec 32) (buf : Bytes) (offset : ℕ) : Bytes :=
  Buffer.store buf offset
    [⟨word.extractLsb' 24 8⟩, ⟨word.extractLsb' 16 8⟩, ⟨word.extractLsb' 8 8⟩,
      ⟨word.extractLsb' 0 8⟩]

/-- `valueFromBytes` of a bit field. -/
def bitsFromBytes (width : ℕ) (buf : Bytes) (off : Offset) : ℕ :=
  (BitField.extract (readUInt32BE buf off.bytes) (32 - (off.bits + width)) width).toNat

/-- `bytesFromValue` of a bit field. -/
def bytesFromBits (width val : ℕ) (buf : Bytes) (off : Offset) : Bytes :=
  writeUInt32BE (BitField.insert (readUInt32BE buf off.bytes) (32 - (off.bits + width)) width
    (BitVec.ofNat 32 val)) buf off.bytes

/-- `v2b` of `bool`. -/
def v2b (v : Bool) : ℕ := if v then 0xFFFFFFFF else 0

/-- `bytesFromValue` of a number of whole bytes; none if it throws, which it does for a number that
is too large. -/
def bytesFromUint (size val : ℕ) (buf : Bytes) (off : Offset) : Option Bytes :=
  if val < 256 ^ size then some (Buffer.store buf off.bytes (littleEndian size val)) else none

/-- The bytes of a field of bytes: cut, or with zeros behind them. -/
def padded (size : ℕ) (v : Bytes) : Bytes := v.take size ++ List.replicate (size - v.length) 0

/-! ## Structures -/

/-- `valueFromBytes` of a field. -/
def Field.valueFromBytes : (f : Field) → Bytes → Offset → f.Value
  | ubit width, buf, off => bitsFromBytes width buf off
  | bool, buf, off => bitsFromBytes 1 buf off != 0
  | uint size, buf, off => ofLittleEndian ((buf.drop off.bytes).take size)
  | byte size, buf, off => (buf.drop off.bytes).take size

/-- `bytesFromValue` of a field. -/
def Field.bytesFromValue : (f : Field) → f.Value → Bytes → Offset → Option Bytes
  | ubit width, val, buf, off => some (bytesFromBits width val buf off)
  | bool, v, buf, off => some (bytesFromBits 1 (v2b v) buf off)
  | uint size, val, buf, off => bytesFromUint size val buf off
  | byte size, v, buf, off => some (Buffer.store buf off.bytes (padded size v))

/-- `valueFromBytes` of a structure. -/
def valueFromBytes : (fields : List Field) → Bytes → Offset → Values fields
  | [], _, _ => ()
  | f :: fields, buf, off =>
      (f.valueFromBytes buf off, valueFromBytes fields buf (addField off f))

/-- `bytesFromValue` of a structure. -/
def bytesFromValue : (fields : List Field) → Values fields → Bytes → Offset → Option Bytes
  | [], _, buf, _ => some buf
  | f :: fields, values, buf, off => do
      let written ← f.bytesFromValue values.1 buf off
      bytesFromValue fields values.2 written (addField off f)

/-! ## Bits -/

/-- A bit of a buffer, the highest of each byte first. -/
def bit (buf : Bytes) (k : ℕ) : Bool := (buf.getD (k / 8) 0).toBitVec.getLsbD (7 - k % 8)

/-- A byte after others have been stored. -/
theorem getD_store (buf : Bytes) (offset : ℕ) (values : Bytes) (i : ℕ) :
    (Buffer.store buf offset values).getD i 0 =
      if offset ≤ i ∧ i < offset + values.length ∧ i < buf.length then values.getD (i - offset) 0
      else buf.getD i 0 := by
  induction values generalizing buf offset with
  | nil =>
      rw [if_neg]
      · rfl
      · rw [List.length_nil]
        omega
  | cons value values ih =>
      rw [Buffer.store, ih, List.length_set, List.length_cons]
      by_cases here : offset = i
      · subst here
        rw [if_neg (by omega), Nat.sub_self, List.getD_cons_zero]
        by_cases inside : offset < buf.length
        · rw [if_pos (by omega), List.getD_eq_getElem _ _ (by rwa [List.length_set]),
            List.getElem_set_self]
        · rw [if_neg (by omega), List.getD_eq_default _ _ (by rw [List.length_set]; omega),
            List.getD_eq_default _ _ (by omega)]
      · have same : (buf.set offset value).getD i 0 = buf.getD i 0 := by
          rw [List.getD_eq_getElem?_getD, List.getElem?_set_ne here, List.getD_eq_getElem?_getD]
        rw [same]
        by_cases behind : offset + 1 ≤ i ∧ i < offset + 1 + values.length ∧ i < buf.length
        · have next : i - offset = i - (offset + 1) + 1 := by omega
          rw [if_pos behind, if_pos (by omega), next, List.getD_cons_succ]
        · rw [if_neg behind, if_neg (by omega)]

/-- The word at an offset has the bits from there on. -/
theorem getLsbD_readUInt32BE (buf : Bytes) (offset : ℕ) {i : ℕ} (inside : i < 32) :
    (readUInt32BE buf offset).getLsbD i = bit buf (8 * offset + (31 - i)) := by
  have at_ (byte low : ℕ) (place : 31 - i = 8 * byte + (7 - low)) (small : low < 8) :
      bit buf (8 * offset + (31 - i)) = (buf.getD (offset + byte) 0).toBitVec.getLsbD low := by
    have quotient : (8 * offset + (31 - i)) / 8 = offset + byte := by omega
    have remainder : 7 - (8 * offset + (31 - i)) % 8 = low := by omega
    rw [bit, quotient, remainder]
  unfold readUInt32BE
  rw [BitVec.getLsbD_append, BitVec.getLsbD_append, BitVec.getLsbD_append]
  split
  · rw [at_ 3 i (by omega) (by omega)]
  · split
    · rw [at_ 2 (i - 8) (by omega) (by omega)]
    · split
      · rw [at_ 1 (i - 8 - 8) (by omega) (by omega)]
      · rw [at_ 0 (i - 8 - 8 - 8) (by omega) (by omega)]
        rfl

/-- The bytes of a word. -/
theorem getD_wordBytes (word : BitVec 32) {i : ℕ} (inside : i < 4) :
    ([⟨word.extractLsb' 24 8⟩, ⟨word.extractLsb' 16 8⟩, ⟨word.extractLsb' 8 8⟩,
      ⟨word.extractLsb' 0 8⟩] : Bytes).getD i 0 = ⟨word.extractLsb' (24 - 8 * i) 8⟩ := by
  match i, inside with
  | 0, _ => rfl
  | 1, _ => rfl
  | 2, _ => rfl
  | 3, _ => rfl

/-- A word that is written has its bits where there is room, and all others are as they were. -/
theorem bit_writeUInt32BE (word : BitVec 32) (buf : Bytes) (offset k : ℕ) :
    bit (writeUInt32BE word buf offset) k =
      if 8 * offset ≤ k ∧ k < 8 * offset + 32 ∧ k < 8 * buf.length then
        word.getLsbD (31 - (k - 8 * offset))
      else bit buf k := by
  unfold writeUInt32BE bit
  rw [getD_store]
  change (if _ ∧ k / 8 < offset + 4 ∧ _ then _ else _ : UInt8).toBitVec.getLsbD _ = _
  by_cases inside : 8 * offset ≤ k ∧ k < 8 * offset + 32 ∧ k < 8 * buf.length
  · rw [if_pos inside, if_pos (by omega), getD_wordBytes word (by omega),
      BitVec.getLsbD_extractLsb', decide_eq_true (by omega), Bool.true_and]
    congr 1
    omega
  · rw [if_neg inside, if_neg (by omega)]

/-- Bytes are the same if their bits are. -/
theorem getD_eq_of_bits {buf other : Bytes} {i : ℕ}
    (same : ∀ k, 8 * i ≤ k → k < 8 * i + 8 → bit buf k = bit other k) :
    buf.getD i 0 = other.getD i 0 := by
  refine UInt8.toBitVec_inj.mp (BitVec.eq_of_getLsbD_eq fun low small => ?_)
  have here := same (8 * i + (7 - low)) (by omega) (by omega)
  have quotient : (8 * i + (7 - low)) / 8 = i := by omega
  have remainder : 7 - (8 * i + (7 - low)) % 8 = low := by omega
  rwa [bit, bit, quotient, remainder] at here

/-- The bytes of a part of a buffer are the same if their bits are. -/
theorem slice_eq_of_bits {buf other : Bytes} {offset size : ℕ} (length : buf.length = other.length)
    (same : ∀ k, 8 * offset ≤ k → k < 8 * (offset + size) → bit buf k = bit other k) :
    (buf.drop offset).take size = (other.drop offset).take size := by
  refine List.ext_getElem (by rw [List.length_take, List.length_take, List.length_drop,
    List.length_drop, length]) fun i left right => ?_
  rw [List.length_take, List.length_drop] at left right
  have byte : buf.getD (offset + i) 0 = other.getD (offset + i) 0 :=
    getD_eq_of_bits fun k low high => same k (by omega) (by omega)
  rw [List.getElem_take, List.getElem_take, List.getElem_drop, List.getElem_drop]
  rwa [List.getD_eq_getElem _ _ (by omega), List.getD_eq_getElem _ _ (by omega)] at byte

/-- Bytes that are stored change only their own bits. -/
theorem bit_store_outside {buf values : Bytes} {offset k : ℕ}
    (outside : ¬(8 * offset ≤ k ∧ k < 8 * (offset + values.length))) :
    bit (Buffer.store buf offset values) k = bit buf k := by
  rw [bit, getD_store, if_neg (by omega)]
  rfl

/-! ## Fields keep to their bits -/

/-- The first bit of what comes at an offset. -/
def Offset.place (off : Offset) : ℕ := 8 * off.bytes + off.bits

/-- How many bits a field has. -/
def Field.length (f : Field) : ℕ := f.width.getD (8 * f.size)

/-- A field can be laid out at an offset. -/
structure Field.Fits (f : Field) (off : Offset) : Prop where
  bits : off.bits < 8
  width : f.width.getD 0 ≤ 24
  aligned : f.width = none → off.bits = 0

/-- What is left of a number in so many bits. -/
def lowBits (width val : ℕ) : ℕ := val % 2 ^ width

/-- What is left of a value in a field. -/
def Field.kept : (f : Field) → f.Value → f.Value
  | ubit width, val => lowBits width val
  | bool, v => v
  | uint _, val => val
  | byte size, v => padded size v

variable {buf other written : Bytes} {off : Offset} {width val : ℕ}

@[simp] theorem length_bytesFromBits (width val : ℕ) (buf : Bytes) (off : Offset) :
    (bytesFromBits width val buf off).length = buf.length := Buffer.length_store _ _ _

/-- A bit field changes only its own bits. -/
theorem bit_bytesFromBits (small : off.bits < 8) (narrow : width ≤ 24)
    (inside : off.place + width ≤ 8 * buf.length) (k : ℕ) :
    bit (bytesFromBits width val buf off) k =
      if off.place ≤ k ∧ k < off.place + width then val.testBit (width - 1 - (k - off.place))
      else bit buf k := by
  unfold Offset.place at inside ⊢
  unfold bytesFromBits
  rw [bit_writeUInt32BE]
  by_cases word : 8 * off.bytes ≤ k ∧ k < 8 * off.bytes + 32 ∧ k < 8 * buf.length
  · rw [if_pos word, BitField.getLsbD_insert _ _ _ _ (by omega)]
    by_cases own : 8 * off.bytes + off.bits ≤ k ∧ k < 8 * off.bytes + off.bits + width
    · rw [if_pos (by omega), if_pos own, BitVec.getLsbD_ofNat, decide_eq_true (by omega),
        Bool.true_and]
      congr 1
      omega
    · rw [if_neg (by omega), if_neg own, getLsbD_readUInt32BE _ _ (by omega)]
      congr 1
      omega
  · rw [if_neg word, if_neg (by omega)]

/-- The bits of the number in a bit field. -/
theorem testBit_bitsFromBytes (small : off.bits < 8) (narrow : width ≤ 24) (i : ℕ) :
    (bitsFromBytes width buf off).testBit i =
      (decide (i < width) && bit buf (off.place + (width - 1 - i))) := by
  unfold bitsFromBytes Offset.place
  rw [BitVec.testBit_toNat, BitField.getLsbD_extract]
  by_cases own : i < width
  · rw [decide_eq_true own, Bool.true_and, Bool.true_and, getLsbD_readUInt32BE _ _ (by omega)]
    congr 1
    omega
  · rw [decide_eq_false own, Bool.false_and, Bool.false_and]

/-- A bit field is read from its own bits. -/
theorem bitsFromBytes_congr (small : off.bits < 8) (narrow : width ≤ 24)
    (same : ∀ k, off.place ≤ k → k < off.place + width → bit buf k = bit other k) :
    bitsFromBytes width buf off = bitsFromBytes width other off := by
  refine Nat.eq_of_testBit_eq fun i => ?_
  rw [testBit_bitsFromBytes small narrow, testBit_bitsFromBytes small narrow]
  by_cases own : i < width
  · rw [same _ (by omega) (by omega)]
  · rw [decide_eq_false own, Bool.false_and, Bool.false_and]

/-- **A bit field is read back.** -/
theorem bitsFromBytes_bytesFromBits (small : off.bits < 8) (narrow : width ≤ 24)
    (inside : off.place + width ≤ 8 * buf.length) :
    bitsFromBytes width (bytesFromBits width val buf off) off = val % 2 ^ width := by
  refine Nat.eq_of_testBit_eq fun i => ?_
  rw [testBit_bitsFromBytes small narrow, Nat.testBit_mod_two_pow]
  by_cases own : i < width
  · rw [bit_bytesFromBits small narrow inside, if_pos (by omega)]
    congr 2
    omega
  · rw [decide_eq_false own, Bool.false_and, Bool.false_and]

/-- The bits of a truth value. -/
theorem lowBits_v2b (v : Bool) : (lowBits 1 (v2b v) != 0) = v := by
  cases v <;> rfl

theorem length_padded (size : ℕ) (v : Bytes) : (padded size v).length = size := by
  rw [padded, List.length_append, List.length_take, List.length_replicate]
  omega

/-- Bytes that are stored are read back. -/
theorem slice_store {buf values : Bytes} {offset size : ℕ} (length : values.length = size)
    (inside : offset + size ≤ buf.length) :
    ((Buffer.store buf offset values).drop offset).take size = values := by
  subst length
  have front : (buf.take offset).length = offset := by
    rw [List.length_take]
    omega
  rw [Extent.store_eq _ _ _ inside, List.append_assoc, List.drop_left' front, List.take_left]

/-- A number of whole bytes is read back. -/
theorem ofLittleEndian_bytesFromUint {size : ℕ}
    (writes : bytesFromUint size val buf off = some written)
    (inside : off.bytes + size ≤ buf.length) :
    ofLittleEndian ((written.drop off.bytes).take size) = val := by
  unfold bytesFromUint at writes
  split at writes
  · next small =>
      cases writes
      rw [slice_store (Framing.length_littleEndian size val) inside,
        Framing.ofLittleEndian_littleEndian, Nat.mod_eq_of_lt small]
  · cases writes

/-- The bytes of the number that bytes stand for. -/
theorem littleEndian_ofLittleEndian (bytes : Bytes) :
    littleEndian bytes.length (ofLittleEndian bytes) = bytes := by
  induction bytes with
  | nil => rfl
  | cons byte bytes ih =>
      have small := byte.toNat_lt
      have low : UInt8.ofNat (byte.toNat + 256 * ofLittleEndian bytes) = byte := by
        apply UInt8.toNat_inj.mp
        rw [UInt8.toNat_ofNat']
        omega
      have rest : (byte.toNat + 256 * ofLittleEndian bytes) / 256 = ofLittleEndian bytes := by
        omega
      rw [ofLittleEndian, List.length_cons, littleEndian, low, rest, ih]

/-- Bytes that are stored where they are change nothing. -/
theorem store_slice {buf : Bytes} {offset size : ℕ} (inside : offset + size ≤ buf.length) :
    Buffer.store buf offset ((buf.drop offset).take size) = buf := by
  have length : ((buf.drop offset).take size).length = size := by
    rw [List.length_take, List.length_drop]
    omega
  rw [Extent.store_eq _ _ _ (by rwa [length]), length, ← List.drop_drop, List.append_assoc,
    List.take_append_drop, List.take_append_drop]

/-- A bit field that is written as it is changes nothing. -/
theorem bytesFromBits_of_bits (small : off.bits < 8) (narrow : width ≤ 24)
    (inside : off.place + width ≤ 8 * buf.length)
    (same : lowBits width val = bitsFromBytes width buf off) :
    bytesFromBits width val buf off = buf := by
  refine List.ext_getElem (length_bytesFromBits _ _ _ _) fun i left right => ?_
  have byte : (bytesFromBits width val buf off).getD i 0 = buf.getD i 0 := by
    refine getD_eq_of_bits fun k _ _ => ?_
    rw [bit_bytesFromBits small narrow inside]
    split
    · next own =>
        have there := @testBit_bitsFromBytes buf off width small narrow
          (width - 1 - (k - off.place))
        rw [← same, lowBits, Nat.testBit_mod_two_pow, decide_eq_true (by omega), Bool.true_and,
          Bool.true_and] at there
        rw [there]
        congr 1
        omega
    · rfl
  rwa [List.getD_eq_getElem _ _ left, List.getD_eq_getElem _ _ right] at byte

/-- The number of a field. -/
def Field.InRange : (f : Field) → f.Value → Prop
  | ubit _, _ => True
  | bool, _ => True
  | uint size, val => LT.lt (α := ℕ) val (256 ^ size)
  | byte _, _ => True

section Field

variable {f : Field} {v : f.Value}

/-- A field is written unless its number is too large. -/
theorem Field.bytesFromValue_isSome (buf : Bytes) (off : Offset) :
    (f.bytesFromValue v buf off).isSome ↔ f.InRange v := by
  cases f with
  | ubit width => exact iff_of_true rfl trivial
  | bool => exact iff_of_true rfl trivial
  | uint size =>
      change (bytesFromUint size v buf off).isSome ↔ _
      unfold bytesFromUint
      split
      · next small => exact iff_of_true rfl small
      · next large => exact iff_of_false Bool.false_ne_true large
  | byte size => exact iff_of_true rfl trivial

theorem Field.length_bytesFromValue (writes : f.bytesFromValue v buf off = some written) :
    written.length = buf.length := by
  cases f with
  | ubit width =>
      cases writes
      exact length_bytesFromBits _ _ _ _
  | bool =>
      cases writes
      exact length_bytesFromBits _ _ _ _
  | uint size =>
      change bytesFromUint size v buf off = _ at writes
      unfold bytesFromUint at writes
      split at writes
      · cases writes
        exact Buffer.length_store _ _ _
      · cases writes
  | byte size =>
      cases writes
      exact Buffer.length_store _ _ _

/-- **A field that is written changes only its own bits.** -/
theorem Field.bit_bytesFromValue (fits : f.Fits off)
    (inside : off.place + f.length ≤ 8 * buf.length)
    (writes : f.bytesFromValue v buf off = some written) {k : ℕ}
    (outside : ¬(off.place ≤ k ∧ k < off.place + f.length)) : bit written k = bit buf k := by
  have stored (values : Bytes) (size : values.length = f.size) (none : f.width = none) :
      bit (Buffer.store buf off.bytes values) k = bit buf k := by
    refine bit_store_outside ?_
    rw [Field.length, none, Option.getD_none, Offset.place, fits.aligned none] at outside
    rw [size]
    omega
  cases f with
  | ubit width =>
      cases writes
      exact (bit_bytesFromBits fits.bits fits.width inside k).trans (if_neg outside)
  | bool =>
      cases writes
      exact (bit_bytesFromBits fits.bits fits.width inside k).trans (if_neg outside)
  | uint size =>
      change bytesFromUint size v buf off = _ at writes
      unfold bytesFromUint at writes
      split at writes
      · cases writes
        exact stored _ (Framing.length_littleEndian _ _) rfl
      · cases writes
  | byte size =>
      cases writes
      exact stored _ (length_padded _ _) rfl

/-- A field is read from its own bits. -/
theorem Field.valueFromBytes_congr (fits : f.Fits off) (length : buf.length = other.length)
    (same : ∀ k, off.place ≤ k → k < off.place + f.length → bit buf k = bit other k) :
    f.valueFromBytes buf off = f.valueFromBytes other off := by
  have slice (none : f.width = none) :
      (buf.drop off.bytes).take f.size = (other.drop off.bytes).take f.size := by
    rw [Field.length, none, Option.getD_none, Offset.place, fits.aligned none] at same
    exact slice_eq_of_bits length fun k low high => same k (by omega) (by omega)
  cases f with
  | ubit width => exact bitsFromBytes_congr fits.bits fits.width same
  | bool => exact congrArg (· != 0) (bitsFromBytes_congr fits.bits fits.width same)
  | uint size => exact congrArg ofLittleEndian (slice rfl)
  | byte size => exact slice rfl

/-- **A field is read back.** -/
theorem Field.valueFromBytes_bytesFromValue (fits : f.Fits off)
    (inside : off.place + f.length ≤ 8 * buf.length)
    (writes : f.bytesFromValue v buf off = some written) :
    f.valueFromBytes written off = f.kept v := by
  have room (none : f.width = none) : off.bytes + f.size ≤ buf.length := by
    rw [Field.length, none, Option.getD_none, Offset.place, fits.aligned none] at inside
    omega
  cases f with
  | ubit width =>
      cases writes
      exact bitsFromBytes_bytesFromBits fits.bits fits.width inside
  | bool =>
      cases writes
      have back := @bitsFromBytes_bytesFromBits buf off 1 (v2b v) fits.bits fits.width inside
      exact (congrArg (· != 0) back).trans (lowBits_v2b v)
  | uint size => exact ofLittleEndian_bytesFromUint writes (room rfl)
  | byte size =>
      cases writes
      exact slice_store (length_padded size v) (room rfl)

/-- **Writing what was read changes nothing.** -/
theorem Field.bytesFromValue_valueFromBytes (fits : f.Fits off)
    (inside : off.place + f.length ≤ 8 * buf.length) :
    f.bytesFromValue (f.valueFromBytes buf off) buf off = some buf := by
  have room (none : f.width = none) : off.bytes + f.size ≤ buf.length := by
    rw [Field.length, none, Option.getD_none, Offset.place, fits.aligned none] at inside
    omega
  have slice (none : f.width = none) : ((buf.drop off.bytes).take f.size).length = f.size := by
    rw [List.length_take, List.length_drop]
    have room := room none
    omega
  have small {width : ℕ} (narrow : width ≤ 24) :
      lowBits width (bitsFromBytes width buf off) = bitsFromBytes width buf off := by
    refine Nat.eq_of_testBit_eq fun i => ?_
    rw [lowBits, Nat.testBit_mod_two_pow, testBit_bitsFromBytes fits.bits narrow, ← Bool.and_assoc,
      Bool.and_self]
  cases f with
  | ubit width =>
      exact congrArg some (bytesFromBits_of_bits fits.bits fits.width inside (small fits.width))
  | bool =>
      refine congrArg some (bytesFromBits_of_bits fits.bits fits.width inside ?_)
      have one := small fits.width
      unfold lowBits at one
      obtain zero | one : bitsFromBytes 1 buf off = 0 ∨ bitsFromBytes 1 buf off = 1 := by
        have below : bitsFromBytes 1 buf off % 2 ^ 1 < 2 := Nat.mod_lt _ Nat.two_pos
        have same : bitsFromBytes 1 buf off % 2 ^ 1 = bitsFromBytes 1 buf off := one
        omega
      · change lowBits 1 (v2b (bitsFromBytes 1 buf off != 0)) = bitsFromBytes 1 buf off
        rw [zero]
        rfl
      · change lowBits 1 (v2b (bitsFromBytes 1 buf off != 0)) = bitsFromBytes 1 buf off
        rw [one]
        rfl
  | uint size =>
      have length : ((buf.drop off.bytes).take size).length = size := slice rfl
      have below := Framing.ofLittleEndian_lt ((buf.drop off.bytes).take size)
      have spelled := littleEndian_ofLittleEndian ((buf.drop off.bytes).take size)
      rw [length] at below spelled
      refine (if_pos below).trans (congrArg some ?_)
      exact (congrArg (Buffer.store buf off.bytes) spelled).trans (store_slice (room rfl))
  | byte size =>
      have length : ((buf.drop off.bytes).take size).length = size := slice rfl
      have whole : padded size ((buf.drop off.bytes).take size) =
          (buf.drop off.bytes).take size := by
        rw [padded, length, Nat.sub_self, List.take_of_length_le length.le]
        exact List.append_nil _
      exact congrArg some ((congrArg _ whole).trans (store_slice (room rfl)))

end Field

/-! ## Structures -/

/-- The values that are left in the fields of a structure. -/
def kept : (fields : List Field) → Values fields → Values fields
  | [], values => values
  | f :: fields, values => (f.kept values.1, kept fields values.2)

/-- The numbers of a structure fit into their fields. -/
def InRange : (fields : List Field) → Values fields → Prop
  | [], _ => True
  | f :: fields, values => f.InRange values.1 ∧ InRange fields values.2

/-- The next field comes behind the bits of a field. -/
theorem place_addField {f : Field} (fits : f.Fits off) :
    (addField off f).place = off.place + f.length ∧ (addField off f).bits < 8 := by
  unfold addField Field.length Offset.place
  cases width : f.width with
  | none =>
      have aligned := fits.aligned width
      dsimp only [Option.getD_none]
      omega
  | some width =>
      dsimp only [Option.getD_some]
      omega

/-- A field of a structure that has been laid out. -/
theorem fits_of_layout {f : Field} {fields : List Field} {last : Offset} (small : off.bits < 8)
    (laid : layout off (f :: fields) = .ok last) :
    f.Fits off ∧ layout (addField off f) fields = .ok last := by
  unfold layout at laid
  split at laid
  · cases laid
  · next narrow =>
      split at laid
      · cases laid
      · next aligned =>
          refine ⟨⟨small, Nat.le_of_not_lt narrow, fun none => ?_⟩, laid⟩
          by_contra bits
          exact aligned ⟨none, bits⟩

variable {fields : List Field} {values : Values fields} {last : Offset}

/-- The fields come behind each other. -/
theorem place_le_of_layout (small : off.bits < 8) (laid : layout off fields = .ok last) :
    off.place ≤ last.place := by
  induction fields generalizing off with
  | nil =>
      unfold layout at laid
      split at laid
      · cases laid
      · cases laid
        exact Nat.le_refl _
  | cons f fields ih =>
      obtain ⟨fits, rest⟩ := fits_of_layout small laid
      obtain ⟨next, bits⟩ := place_addField fits
      have behind := ih bits rest
      omega

/-- A structure is written unless a number is too large. -/
theorem bytesFromValue_isSome (buf : Bytes) (off : Offset) :
    (bytesFromValue fields values buf off).isSome ↔ InRange fields values := by
  induction fields generalizing buf off with
  | nil => exact iff_of_true rfl trivial
  | cons f fields ih =>
      have first := @Field.bytesFromValue_isSome f values.1 buf off
      unfold bytesFromValue InRange
      cases writes : f.bytesFromValue values.1 buf off with
      | none =>
          rw [writes] at first
          refine iff_of_false Bool.false_ne_true fun all => ?_
          cases first.mpr all.1
      | some written =>
          rw [writes] at first
          exact (ih written (addField off f)).trans (iff_and_self.mpr fun _ => first.mp rfl)

/-- A structure that is written changes only its own bits. -/
theorem bit_bytesFromValue (small : off.bits < 8) (laid : layout off fields = .ok last)
    (inside : last.place ≤ 8 * buf.length)
    (writes : bytesFromValue fields values buf off = some written) :
    written.length = buf.length ∧
      ∀ k, ¬(off.place ≤ k ∧ k < last.place) → bit written k = bit buf k := by
  induction fields generalizing buf off with
  | nil =>
      cases writes
      exact ⟨rfl, fun _ _ => rfl⟩
  | cons f fields ih =>
      obtain ⟨fits, rest⟩ := fits_of_layout small laid
      obtain ⟨next, bits⟩ := place_addField fits
      have behind := place_le_of_layout bits rest
      obtain ⟨between, first, writes⟩ := Option.bind_eq_some_iff.mp writes
      have length := Field.length_bytesFromValue first
      obtain ⟨same, kept⟩ := ih bits rest (by rwa [length]) writes
      refine ⟨same.trans length, fun k outside => ?_⟩
      rw [kept k (by omega), Field.bit_bytesFromValue fits (by omega) first (by omega)]

/-- A structure that is written is read back. -/
theorem valueFromBytes_bytesFromValue (small : off.bits < 8)
    (laid : layout off fields = .ok last) (inside : last.place ≤ 8 * buf.length)
    (writes : bytesFromValue fields values buf off = some written) :
    valueFromBytes fields written off = kept fields values := by
  induction fields generalizing buf off with
  | nil => rfl
  | cons f fields ih =>
      obtain ⟨fits, rest⟩ := fits_of_layout small laid
      obtain ⟨next, bits⟩ := place_addField fits
      have behind := place_le_of_layout bits rest
      obtain ⟨between, first, writes⟩ := Option.bind_eq_some_iff.mp writes
      have length := Field.length_bytesFromValue first
      obtain ⟨same, untouched⟩ := bit_bytesFromValue bits rest (by rwa [length]) writes
      refine Prod.ext ?_ (ih bits rest (by rwa [length]) writes)
      have own : f.valueFromBytes written off = f.valueFromBytes between off :=
        Field.valueFromBytes_congr fits same fun k _ high => untouched k (by omega)
      exact own.trans (Field.valueFromBytes_bytesFromValue fits (by omega) first)

/-- A structure that is written as it was read is as it was. -/
theorem bytesFromValue_valueFromBytes (small : off.bits < 8)
    (laid : layout off fields = .ok last) (inside : last.place ≤ 8 * buf.length) :
    bytesFromValue fields (valueFromBytes fields buf off) buf off = some buf := by
  induction fields generalizing off with
  | nil => rfl
  | cons f fields ih =>
      obtain ⟨fits, rest⟩ := fits_of_layout small laid
      obtain ⟨next, bits⟩ := place_addField fits
      have behind := place_le_of_layout bits rest
      refine Option.bind_eq_some_iff.mpr ⟨buf, ?_, ih bits rest⟩
      exact Field.bytesFromValue_valueFromBytes fits (by omega)

/-- A structure is laid out alike wherever it begins. -/
theorem layout_shift (base : ℕ) (ctr : Offset) (laid : layout ctr fields = .ok last) :
    layout ⟨base + ctr.bytes, ctr.bits⟩ fields = .ok ⟨base + last.bytes, last.bits⟩ := by
  induction fields generalizing ctr with
  | nil =>
      unfold layout at laid ⊢
      split at laid
      · cases laid
      · next whole =>
          cases laid
          exact if_neg whole
  | cons f fields ih =>
      have next : addField ⟨base + ctr.bytes, ctr.bits⟩ f =
          ⟨base + (addField ctr f).bytes, (addField ctr f).bits⟩ := by
        unfold addField
        cases f.width with
        | none => exact congrArg (Offset.mk · 0) (Nat.add_assoc _ _ _)
        | some width => exact congrArg (Offset.mk · _) (Nat.add_assoc _ _ _)
      unfold layout at laid ⊢
      rw [next]
      split at laid
      · cases laid
      · next narrow =>
          rw [if_neg narrow]
          split at laid
          · cases laid
          · next aligned =>
              rw [if_neg aligned]
              exact ih _ laid

/-- A structure ends with a whole byte. -/
theorem bits_of_layout (laid : layout off fields = .ok last) : last.bits = 0 := by
  induction fields generalizing off with
  | nil =>
      unfold layout at laid
      split at laid
      · cases laid
      · next whole =>
          cases laid
          exact not_not.mp whole
  | cons f fields ih =>
      unfold layout at laid
      split at laid
      · cases laid
      · split at laid
        · cases laid
        · exact ih laid

/-- `fatField.fat12`. -/
def fat12 : List Field := [.ubit 8, .ubit 4, .ubit 4, .ubit 8]

end JsOS.Core.Fs.Fat.StructFu
