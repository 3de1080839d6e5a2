import JsOS.Library.Circular

/-! # Sequence numbers, byte arrays and segments

Sequence and acknowledgement numbers are unsigned 32-bit numbers: every
assignment of the source to such a field ends in `>>> 0`. Lengths and the space
left in a window are plain numbers and may be negative. A `Uint8Array` is the
list of its bytes; the source never writes to a buffer after it is queued, so a
`subarray` view is the list of the bytes it shows.
-/

namespace JsOS.Net.Tcp

/-- An unsigned 32-bit sequence number. -/
abbrev Seq := BitVec 32

/-- The contents of a `Uint8Array`. -/
abbrev Bytes := List UInt8

/-- `SEQ_INC`: `seq + (value >>> 0) >>> 0`. -/
def seqInc (seq : Seq) (value : Int) : Seq := seq + BitVec.ofInt 32 value

/-- `SEQ_OFFSET`: `a - b | 0`, a signed 32-bit number. -/
def seqOffset (a b : Seq) : Int := (a - b).toInt

/-- How `subarray` reads an index: negative indices count from the end, and
every index is clamped to the array. -/
def relativeIndex (length : Nat) (index : Int) : Nat :=
  if index < 0 then (length + index).toNat else min index.toNat length

/-- `u8.subarray(first, last)`. -/
def subarray (u8 : Bytes) (first last : Int) : Bytes :=
  (u8.take (relativeIndex u8.length last)).drop (relativeIndex u8.length first)

/-- `u8.subarray(first)`. -/
def subarrayFrom (u8 : Bytes) (first : Int) : Bytes :=
  u8.drop (relativeIndex u8.length first)

/-! ## Header flags -/

/-- `tcpHeader.FLAG_FIN`. -/
def flagFIN : BitVec 8 := 1

/-- `tcpHeader.FLAG_SYN`. -/
def flagSYN : BitVec 8 := 2

/-- `tcpHeader.FLAG_PSH`. -/
def flagPSH : BitVec 8 := 8

/-- `tcpHeader.FLAG_ACK`. -/
def flagACK : BitVec 8 := 16

/-- What `_receive` reads from a packet: the header fields and the bytes from
the data offset on. The data offset comes from the packet, so `dataLength` is
negative when it points past the end; `u8.subarray` is then empty. -/
structure Segment where
  flags : BitVec 8
  seqNumber : Seq
  ackNumber : Seq
  windowSize : BitVec 16
  dataLength : Int
  data : Bytes
  data_length : data.length = dataLength.toNat
  deriving DecidableEq, Repr

namespace Segment

/-- `flags & FLAG_SYN`. -/
def hasSYN (segment : Segment) : Bool := segment.flags &&& flagSYN ≠ 0

/-- `flags & FLAG_ACK`. -/
def hasACK (segment : Segment) : Bool := segment.flags &&& flagACK ≠ 0

/-- `flags & FLAG_FIN`. -/
def hasFIN (segment : Segment) : Bool := segment.flags &&& flagFIN ≠ 0

/-- A well-formed segment: the data offset lies inside the packet. -/
def ofData (flags : BitVec 8) (seqNumber ackNumber : Seq) (windowSize : BitVec 16)
    (data : Bytes) : Segment where
  flags := flags
  seqNumber := seqNumber
  ackNumber := ackNumber
  windowSize := windowSize
  dataLength := data.length
  data := data
  data_length := by simp

end Segment

/-! ## Arithmetic of sequence numbers -/

open Circular

theorem seqInc_natCast (seq : Seq) (count : Nat) :
    seqInc seq count = seq + BitVec.ofNat 32 count := by
  rw [seqInc, BitVec.ofInt_natCast]

@[simp] theorem seqInc_zero (seq : Seq) : seqInc seq 0 = seq := by
  simp [seqInc]

theorem seqInc_one (seq : Seq) : seqInc seq 1 = seq + 1 := rfl

theorem ahead_succ (seq : Seq) : ahead seq (seq + 1) = 1 :=
  ahead_add_ofNat seq (by decide : 1 < 2 ^ 32)

theorem seqInc_seqInc (seq : Seq) (first second : Int) :
    seqInc (seqInc seq first) second = seqInc seq (first + second) := by
  rw [seqInc, seqInc, seqInc, BitVec.ofInt_add, BitVec.add_assoc]

/-- The signed offset is exact while it stays within half the circle. -/
theorem seqOffset_eq {a b : Seq} {offset : Int} (value : a = seqInc b offset)
    (lower : -2147483648 ≤ offset) (upper : offset < 2147483648) : seqOffset a b = offset := by
  have cancel : a - b = BitVec.ofInt 32 offset := by
    rw [value, seqInc]
    ring
  rw [seqOffset, cancel, BitVec.toInt_ofInt, Int.bmod_eq_of_le (by omega) (by omega)]

theorem relativeIndex_natCast (length count : Nat) :
    relativeIndex length count = min count length := by
  simp only [relativeIndex, Int.toNat_natCast]
  rw [if_neg (by omega)]

@[simp] theorem subarray_zero_natCast (u8 : Bytes) (count : Nat) :
    subarray u8 0 count = u8.take count := by
  have zero := relativeIndex_natCast u8.length 0
  rw [Nat.zero_min, Int.natCast_zero] at zero
  rw [subarray, relativeIndex_natCast, zero, List.drop_zero, ← List.take_eq_take_min]

@[simp] theorem subarrayFrom_natCast (u8 : Bytes) (count : Nat) :
    subarrayFrom u8 count = u8.drop count := by
  rw [subarrayFrom, relativeIndex_natCast]
  rcases Nat.le_total count u8.length with le | le
  · rw [Nat.min_eq_left le]
  · rw [Nat.min_eq_right le, List.drop_length, List.drop_eq_nil_of_le le]

end JsOS.Net.Tcp
