import Mathlib.Data.Nat.Digits.Defs
import Mathlib.Data.BitVec

/-! # Framed byte streams

A reader takes bytes from the front of a stream and leaves the rest. Bytes frame a value
for a reader when the reader, started on them, takes exactly these bytes and yields that
value, whatever follows. Framing composes along the reader's own sequencing, so a decoder
is proved against an encoder piece by piece. Words are framed in little-endian order.
-/

namespace Framing

abbrev Bytes := List UInt8

/-- A reader consumes a prefix of the stream, or fails. -/
abbrev Reader (α : Type) := StateT Bytes Option α

variable {α β : Type}

/-- **Bytes frame a value.** The reader takes exactly these bytes, whatever follows. -/
def Reads (reader : Reader α) (bytes : Bytes) (value : α) : Prop :=
  ∀ rest, reader.run (bytes ++ rest) = some (value, rest)

/-- A reader that takes nothing frames its value with no bytes. -/
theorem reads_pure (value : α) : Reads (pure value) [] value :=
  fun _ => rfl

/-- Framing composes along sequencing. -/
theorem Reads.bind {reader : Reader α} {next : α → Reader β} {first second : Bytes} {value : α}
    {result : β} (head : Reads reader first value) (tail : Reads (next value) second result) :
    Reads (reader >>= next) (first ++ second) result := by
  intro rest
  rw [StateT.run_bind, List.append_assoc, head (second ++ rest)]
  exact tail rest

/-- A continuation that takes no further bytes. -/
theorem Reads.bind_nil {reader : Reader α} {next : α → Reader β} {bytes : Bytes} {value : α}
    {result : β} (head : Reads reader bytes value) (tail : Reads (next value) [] result) :
    Reads (reader >>= next) bytes result := by
  have whole := head.bind tail
  rwa [List.append_nil] at whole

/-- A pure continuation takes no further bytes. -/
theorem Reads.bind_pure {reader : Reader α} {bytes : Bytes} {value : α}
    (head : Reads reader bytes value) (function : α → β) :
    Reads (reader >>= fun read => pure (function read)) bytes (function value) :=
  head.bind_nil (reads_pure (function value))

/-- A value found without reading. -/
theorem reads_lift {found : Option α} {value : α} (present : found = some value) :
    Reads (StateT.lift found) [] value := by
  intro rest
  rw [present]
  rfl

/-- What a reader takes from framed bytes is determined. -/
theorem Reads.unique {reader : Reader α} {bytes : Bytes} {value : α}
    (framed : Reads reader bytes value) {rest left : Bytes} {read : α}
    (run : reader.run (bytes ++ rest) = some (read, left)) : read = value ∧ left = rest := by
  have same := (framed rest).symm.trans run
  exact ⟨(congrArg Prod.fst (Option.some.inj same)).symm,
    (congrArg Prod.snd (Option.some.inj same)).symm⟩

/-! ## Repetition -/

/-- Run a reader a fixed number of times, in order. -/
def readMany (reader : Reader α) : ℕ → Reader (List α)
  | 0 => pure []
  | count + 1 => do
    let head ← reader
    let tail ← readMany reader count
    pure (head :: tail)

/-- **Framing of sequences.** Items framed one after another are read back in order. -/
theorem reads_many {reader : Reader α} {frames : List (Bytes × α)}
    (framed : ∀ frame ∈ frames, Reads reader frame.1 frame.2) :
    Reads (readMany reader frames.length) (frames.map Prod.fst).flatten
      (frames.map Prod.snd) := by
  induction frames with
  | nil => exact reads_pure []
  | cons frame frames ih =>
      have head := framed frame List.mem_cons_self
      have tail := ih fun later member => framed later (List.mem_cons_of_mem _ member)
      exact head.bind (tail.bind_pure fun read => frame.2 :: read)

/-- A frame is no longer than the sequence it stands in. -/
theorem length_frame_le {frames : List (Bytes × α)} {frame : Bytes × α} (member : frame ∈ frames) :
    frame.1.length ≤ (frames.map Prod.fst).flatten.length := by
  have bytes : frame.1 ∈ frames.map Prod.fst := List.mem_map_of_mem member
  exact (List.sublist_flatten_of_mem bytes).length_le

/-! ## Bytes and words -/

/-- Take a fixed number of bytes, or fail when the stream is shorter. -/
def readBytes (count : ℕ) : Reader Bytes :=
  fun stream => if count ≤ stream.length then some (stream.take count, stream.drop count) else none

/-- Bytes frame themselves for a reader of their length. -/
theorem reads_readBytes (bytes : Bytes) : Reads (readBytes bytes.length) bytes bytes := by
  intro rest
  have enough : bytes.length ≤ (bytes ++ rest).length := by
    rw [List.length_append]
    exact Nat.le_add_right _ _
  change (if bytes.length ≤ (bytes ++ rest).length then _ else _) = _
  rw [if_pos enough, List.take_left, List.drop_left]

/-- The low bytes of a number, least significant first. -/
def littleEndian : ℕ → ℕ → Bytes
  | 0, _ => []
  | count + 1, value => UInt8.ofNat value :: littleEndian count (value / 256)

/-- The number that bytes spell, least significant first. -/
def ofLittleEndian : Bytes → ℕ
  | [] => 0
  | byte :: bytes => byte.toNat + 256 * ofLittleEndian bytes

@[simp]
theorem length_littleEndian (count value : ℕ) : (littleEndian count value).length = count := by
  induction count generalizing value with
  | zero => rfl
  | succ count ih => rw [littleEndian, List.length_cons, ih]

/-- Spelling a number and reading it back loses what the bytes cannot hold. -/
theorem ofLittleEndian_littleEndian (count value : ℕ) :
    ofLittleEndian (littleEndian count value) = value % 256 ^ count := by
  induction count generalizing value with
  | zero => rw [littleEndian, ofLittleEndian, pow_zero, Nat.mod_one]
  | succ count ih =>
      have byte : (UInt8.ofNat value).toNat = value % 256 := UInt8.toNat_ofNat'
      rw [littleEndian, ofLittleEndian, ih, byte, pow_succ', Nat.mod_mul]

theorem ofLittleEndian_lt (bytes : Bytes) : ofLittleEndian bytes < 256 ^ bytes.length := by
  induction bytes with
  | nil => exact Nat.one_pos
  | cons byte bytes ih =>
      have small := byte.toNat_lt
      rw [ofLittleEndian, List.length_cons, pow_succ']
      omega

/-- The bytes of a machine word, least significant first. -/
def wordBytes {width : ℕ} (value : BitVec width) : Bytes :=
  littleEndian (width / 8) value.toNat

@[simp]
theorem length_wordBytes {width : ℕ} (value : BitVec width) :
    (wordBytes value).length = width / 8 :=
  length_littleEndian _ _

/-- Read a machine word. -/
def readWord (width : ℕ) : Reader (BitVec width) := do
  let bytes ← readBytes (width / 8)
  pure (BitVec.ofNat width (ofLittleEndian bytes))

/-- A word of whole bytes is spelled by its bytes. -/
theorem ofNat_ofLittleEndian_wordBytes {width : ℕ} (whole : width % 8 = 0)
    (value : BitVec width) : BitVec.ofNat width (ofLittleEndian (wordBytes value)) = value := by
  have capacity : 256 ^ (width / 8) = 2 ^ width := by
    rw [show 256 = 2 ^ 8 from rfl, ← pow_mul, Nat.mul_div_cancel' (Nat.dvd_of_mod_eq_zero whole)]
  rw [wordBytes, ofLittleEndian_littleEndian, capacity, Nat.mod_eq_of_lt value.isLt,
    BitVec.ofNat_toNat, BitVec.setWidth_eq]

/-- **Words are framed.** A word of whole bytes is read back from its bytes. -/
theorem reads_readWord {width : ℕ} (whole : width % 8 = 0) (value : BitVec width) :
    Reads (readWord width) (wordBytes value) value := by
  have bytes : Reads (readBytes (width / 8)) (wordBytes value) (wordBytes value) := by
    have own := reads_readBytes (wordBytes value)
    rwa [length_wordBytes] at own
  have read := bytes.bind_pure fun bytes => BitVec.ofNat width (ofLittleEndian bytes)
  rwa [ofNat_ofLittleEndian_wordBytes whole] at read

end Framing
