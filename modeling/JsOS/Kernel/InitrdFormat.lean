import JsOS.Kernel.Initrd

/-! # The format of a package

What the reader of a package expects in the inflated bytes: words and strings, entries one after
the other, and the point where it gives up. `Parses` says which entries it takes from given
bytes, and `Loaded` which files they become.
-/

namespace JsOS.Kernel

namespace Initrd

/-! ## Words and strings -/

def word (number : ℕ) : List UInt8 := BigEndian.digits 4 number

def half (number : ℕ) : List UInt8 := BigEndian.digits 2 number

/-- A string behind its length, with a byte 0 at its end. -/
def string (text : List UInt8) : List UInt8 := half text.length ++ text ++ [0]

@[simp] theorem length_word (number : ℕ) : (word number).length = 4 := BigEndian.length_digits _ _

/-- A word has the last four bytes of a number. -/
theorem word_mod (number : ℕ) : word (number % 2 ^ 32) = word number :=
  BigEndian.digits_mod 4 number

@[simp] theorem length_half (number : ℕ) : (half number).length = 2 := BigEndian.length_digits _ _

@[simp] theorem length_string (text : List UInt8) : (string text).length = text.length + 3 := by
  rw [string, List.length_append, List.length_append, length_half, List.length_singleton]
  omega

/-- What is left of the bytes once a string has been read. A string without a byte 0 at its end
stays where it is. -/
inductive SkipsString : List UInt8 → List UInt8 → Prop
  | read {text rest : List UInt8} (short : text.length < 2 ^ 16) :
      SkipsString (string text ++ rest) rest
  | unterminated {text rest : List UInt8} {byte : UInt8} (short : text.length < 2 ^ 16)
      (unended : byte ≠ 0) :
      SkipsString (half text.length ++ text ++ [byte] ++ rest)
        (half text.length ++ text ++ [byte] ++ rest)

/-! ## Entries -/

/-- An entry of a package. The length that a link carries has no meaning. -/
inductive Entry where
  | file (name contents : List UInt8)
  | link (length : ℕ) (name : List UInt8) (target : ℕ)

namespace Entry

def name : Entry → List UInt8
  | file name _ => name
  | link _ name _ => name

/-- The fields of an entry behind its type, up to the contents of a file. -/
def fields (length : ℕ) (name : List UInt8) (content : ℕ) : List UInt8 :=
  word length ++ (string name ++ word content)

/-- The bytes of an entry. -/
def encode : Entry → List UInt8
  | file name contents =>
      word DEFAULT ++ (fields contents.length name (CRC32.compute contents).toNat ++ contents)
  | link length name target => word LINK ++ fields length name target

end Entry

/-- The entries that are taken from bytes, when as many are known and as many are to come. The
first malformed entry is the end: one of an unknown type, a link to an entry that is not
known, or a file with a wrong checksum. -/
inductive Parses : ℕ → ℕ → List UInt8 → List Entry → Prop
  | done (known : ℕ) (data : List UInt8) : Parses known 0 data []
  | unknownType {known left type : ℕ} {rest : List UInt8} (small : type < 2 ^ 32)
      (unknown : type ≠ DEFAULT ∧ type ≠ LINK) : Parses known (left + 1) (word type ++ rest) []
  | wrongLink {known left length target : ℕ} {name rest : List UInt8} (short : name.length < 2 ^ 16)
      (small : target < 2 ^ 32) (wrong : known ≤ target) :
      Parses known (left + 1) (word LINK ++ (Entry.fields length name target ++ rest)) []
  | wrongChecksum {known left crc32 : ℕ} {name contents rest : List UInt8}
      (short : name.length < 2 ^ 16) (fits : contents.length < 2 ^ 32) (small : crc32 < 2 ^ 32)
      (wrong : crc32 ≠ (CRC32.compute contents).toNat) :
      Parses known (left + 1)
        (word DEFAULT ++ (Entry.fields contents.length name crc32 ++ (contents ++ rest))) []
  | link {known left length target : ℕ} {name rest : List UInt8} {entries : List Entry}
      (short : name.length < 2 ^ 16) (small : target < 2 ^ 32) (right : target < known)
      (others : Parses (known + 1) left rest entries) :
      Parses known (left + 1) ((Entry.link length name target).encode ++ rest)
        (.link length name target :: entries)
  | file {known left : ℕ} {name contents rest : List UInt8} {entries : List Entry}
      (short : name.length < 2 ^ 16) (fits : contents.length < 2 ^ 32)
      (others : Parses (known + 1) left rest entries) :
      Parses known (left + 1) ((Entry.file name contents).encode ++ rest)
        (.file name contents :: entries)

/-! ## What becomes of the entries -/

variable (memory : ℕ → UInt8)

/-- A pointer to bytes. -/
def PointsTo (pointer : CharPtr) (bytes : List UInt8) : Prop :=
  ∃ address, pointer = .at address ∧ ByteMemory.Holds memory address bytes

/-- **The files that entries become, in order.** A link has the size and the data of its
target. -/
inductive Loaded : List Entry → List InitrdFile → Prop
  | nil : Loaded [] []
  | file {entries : List Entry} {files_ : List InitrdFile} {name contents : List UInt8}
      {_name _data : CharPtr} (before : Loaded entries files_)
      (named : PointsTo memory _name (name ++ [0])) (filled : PointsTo memory _data contents) :
      Loaded (entries ++ [.file name contents])
        (files_ ++ [⟨_name, contents.length, _data, false⟩])
  | link {entries : List Entry} {files_ : List InitrdFile} {length target : ℕ} {name : List UInt8}
      {_name : CharPtr} {f : InitrdFile} (before : Loaded entries files_)
      (named : PointsTo memory _name (name ++ [0])) (found : files_[target]? = some f) :
      Loaded (entries ++ [.link length name target])
        (files_ ++ [⟨_name, f._size, f._data, false⟩])

/-! ## Reading the parts -/

open ByteMemory

variable {memory} {pos : ℕ}

/-- Where the pointers are allowed to reach: the module and the inflated buffer, from an address
up to another. A file has a name. -/
def Allowed (module inflated : ℕ × ℕ) : Action → Prop
  | .access .module address length => module.1 ≤ address ∧ address + length ≤ module.2
  | .access .inflated address length => inflated.1 ≤ address ∧ address + length ≤ inflated.2
  | .produce name => name ≠ .nullptr

theorem value_window_word {number : ℕ} (holds : Holds memory pos (word number)) :
    BigEndian.value (window memory pos 4) = number % 2 ^ 32 := by
  have wide : 256 ^ 4 = 2 ^ 32 := rfl
  rw [Holds, length_word] at holds
  rw [holds, word, BigEndian.value_digits, wide]

instance (module inflated : ℕ × ℕ) : DecidablePred (Allowed module inflated)
  | .access .module _ _ => inferInstanceAs (Decidable (_ ∧ _))
  | .access .inflated _ _ => inferInstanceAs (Decidable (_ ∧ _))
  | .produce name => inferInstanceAs (Decidable (name ≠ .nullptr))

theorem holds_word_iff {number : ℕ} (small : number < 2 ^ 32) :
    Holds memory pos (word number) ↔ BigEndian.value (window memory pos 4) = number := by
  constructor
  · intro holds
    rw [value_window_word holds, Nat.mod_eq_of_lt small]
  · rintro rfl
    have digits := BigEndian.digits_value (window memory pos 4)
    rw [length_window] at digits
    rw [Holds, length_word, word, digits]

theorem value_window_half {number : ℕ} (holds : Holds memory pos (half number)) :
    BigEndian.value (window memory pos 2) = number % 2 ^ 16 := by
  have wide : 256 ^ 2 = 2 ^ 16 := rfl
  rw [Holds, length_half] at holds
  rw [holds, half, BigEndian.value_digits, wide]

theorem readUint32_value {number : ℕ} (holds : Holds memory pos (word number)) :
    (PackageReader.readUint32 memory pos).value = (number % 2 ^ 32, pos + 4) :=
  congrArg (fun value => (value, pos + 4)) (value_window_word holds)

/-- What is read of a text and the byte behind it. -/
theorem readString_value {text : List UInt8} {byte : UInt8} (short : text.length < 2 ^ 16)
    (holds : Holds memory pos (half text.length ++ text ++ [byte])) :
    (PackageReader.readString memory pos).value =
      if byte ≠ 0 then (.nullptr, pos) else (.at (pos + 2), pos + (text.length + 3)) := by
  rw [holds_append, holds_append] at holds
  obtain ⟨⟨length, -⟩, last⟩ := holds
  have counted : BigEndian.value (window memory pos 2) = text.length := by
    rw [value_window_half length, Nat.mod_eq_of_lt short]
  have ended : memory (pos + 2 + text.length) = byte := by
    rw [List.length_append, length_half, ← Nat.add_assoc] at last
    exact (holds_cons.mp last).1
  rw [← ended, ← counted]
  by_cases unended : memory (pos + 2 + BigEndian.value (window memory pos 2)) ≠ 0
  · rw [if_pos unended]
    exact congrArg Traced.value (if_pos unended)
  · rw [if_neg unended]
    exact congrArg Traced.value (if_neg unended)

/-! ## Words and strings ahead -/

variable {finish : ℕ} {data : List UInt8}

theorem word_ahead (ahead : Ahead memory finish pos data) (room : pos + 4 ≤ finish) :
    ∃ number rest, number < 2 ^ 32 ∧ data = word number ++ rest := by
  obtain ⟨rest, rfl⟩ := ahead.split room
  have length := length_window memory pos 4
  refine ⟨BigEndian.value (window memory pos 4), rest, ?_, ?_⟩
  · have small := BigEndian.value_lt (window memory pos 4)
    rw [length] at small
    exact small
  · have digits := BigEndian.digits_value (window memory pos 4)
    rw [length] at digits
    rw [word, digits]

/-- A text is there with the byte behind it as soon as its length is. -/
theorem text_ahead (ahead : Ahead memory finish pos data)
    (room : pos + 2 + BigEndian.value (window memory pos 2) + 1 ≤ finish) :
    ∃ text byte rest, text.length < 2 ^ 16 ∧
      data = half text.length ++ text ++ [byte] ++ rest := by
  have small := BigEndian.value_lt (window memory pos 2)
  have digits := BigEndian.digits_value (window memory pos 2)
  rw [length_window] at small digits
  generalize BigEndian.value (window memory pos 2) = length at *
  obtain ⟨rest, rfl⟩ := @Ahead.split _ _ _ _ ahead (2 + length + 1) (by omega)
  refine ⟨window memory (pos + 2) length, memory (pos + (2 + length)), rest, ?_, ?_⟩
  · rw [length_window]
    exact small
  · have last : window memory (pos + (2 + length)) 1 = [memory (pos + (2 + length))] := rfl
    rw [window_add, window_add, last, length_window, half, digits]

end Initrd

end JsOS.Kernel
