import JsOS.Kernel.InitrdFormat

/-! # Reading a package

The reads of an inflated package stay within the buffer exactly when its bytes are entries in
the format, up to the first malformed one; and then the files are those of the entries.
-/

namespace JsOS.Kernel

namespace Initrd

open ByteMemory Traced

variable {memory : ℕ → UInt8} {module : ℕ × ℕ} {start finish pos : ℕ} {data : List UInt8}

/-! ## Words and strings -/

theorem within_readUint32 :
    Within (Allowed module (start, finish)) (PackageReader.readUint32 memory pos) ↔
      start ≤ pos ∧ pos + 4 ≤ finish := by
  rw [PackageReader.readUint32, within_bind, readUint32BE, within_act]
  exact and_iff_left (within_pure _)

theorem within_readString :
    Within (Allowed module (start, finish)) (PackageReader.readString memory pos) ↔
      (start ≤ pos ∧ pos + 2 ≤ finish) ∧
        start ≤ pos + 2 + BigEndian.value (window memory pos 2) ∧
          pos + 2 + BigEndian.value (window memory pos 2) + 1 ≤ finish := by
  rw [PackageReader.readString, within_bind, within_bind, readUint16BE, within_act, readByte,
    within_act]
  refine and_congr Iff.rfl (and_iff_left ?_)
  split
  · exact within_pure _
  · exact within_pure _

/-- **A string is read within bounds exactly when its bytes and the one behind them are there.** -/
theorem within_readString_iff (ahead : Ahead memory finish pos data) (inside : start ≤ pos) :
    Within (Allowed module (start, finish)) (PackageReader.readString memory pos) ↔
      ∃ rest, SkipsString data rest := by
  rw [within_readString]
  constructor
  · rintro ⟨-, -, room⟩
    obtain ⟨text, byte, rest, short, rfl⟩ := text_ahead ahead room
    by_cases unended : byte ≠ 0
    · exact ⟨_, .unterminated short unended⟩
    · rw [not_not.mp unended]
      exact ⟨rest, .read short⟩
  · rintro ⟨rest, skips⟩
    obtain ⟨text, byte, back, short, rfl⟩ : ∃ text byte back, text.length < 2 ^ 16 ∧
        data = half text.length ++ text ++ [byte] ++ back := by
      cases skips with
      | read short => exact ⟨_, 0, _, short, rfl⟩
      | unterminated short unended => exact ⟨_, _, _, short, rfl⟩
    have room := ahead.front_le
    have length := ahead.front
    rw [List.append_assoc] at length
    rw [value_window_half (holds_append.mp length).1, Nat.mod_eq_of_lt short]
    rw [List.length_append, List.length_append, length_half, List.length_singleton] at room
    omega

theorem readString_text {text rest : List UInt8} (short : text.length < 2 ^ 16)
    (ahead : Ahead memory finish pos (string text ++ rest)) :
    (PackageReader.readString memory pos).value =
      (.at (pos + 2), pos + (string text).length) := by
  rw [readString_value short ahead.front, length_string]
  rfl

/-- The pointer to a string. -/
theorem points_of_string {text rest : List UInt8}
    (ahead : Ahead memory finish pos (string text ++ rest)) :
    PointsTo memory (.at (pos + 2)) (text ++ [0]) := by
  have holds := ahead.front
  rw [string, List.append_assoc, holds_append, length_half] at holds
  exact ⟨pos + 2, rfl, holds.2⟩

theorem readString_le (memory : ℕ → UInt8) (pos : ℕ) :
    pos ≤ (PackageReader.readString memory pos).value.2 := by
  rw [PackageReader.readString, value_bind, value_bind]
  split
  · exact le_rfl
  · exact Nat.le_add_right pos _

/-- After a string comes what is left of the bytes. -/
theorem readString_ahead {rest : List UInt8} (ahead : Ahead memory finish pos data)
    (skips : SkipsString data rest) :
    Ahead memory finish (PackageReader.readString memory pos).value.2 rest := by
  cases skips with
  | read short =>
      rw [readString_text short ahead]
      exact ahead.back
  | unterminated short unended =>
      rw [readString_value short ahead.front, if_pos unended]
      exact ahead

/-- A string that has a pointer has a byte 0 at its end. -/
theorem text_of_pointer {rest : List UInt8} (ahead : Ahead memory finish pos data)
    (skips : SkipsString data rest)
    (pointer : (PackageReader.readString memory pos).value.1 ≠ .nullptr) :
    ∃ text, text.length < 2 ^ 16 ∧ data = string text ++ rest := by
  cases skips with
  | read short => exact ⟨_, short, rfl⟩
  | unterminated short unended =>
      rw [readString_value short ahead.front, if_pos unended] at pointer
      exact absurd rfl pointer

/-! ## Entries -/

namespace PackageReader

variable (reader : PackageReader) (type : ℕ)

/-- **The fields of an entry are read within bounds, and name it, exactly when they are there.** -/
theorem within_nextOfType_iff (ahead : Ahead memory finish pos data) (inside : start ≤ pos) :
    Within (Allowed module (start, finish)) (reader.nextOfType memory type pos) ↔
      ∃ length name content rest, length < 2 ^ 32 ∧ name.length < 2 ^ 16 ∧ content < 2 ^ 32 ∧
        data = Entry.fields length name content ++ rest := by
  rw [nextOfType, within_bind, within_bind, within_bind, within_bind, within_readUint32,
    within_readUint32, within_act]
  constructor
  · rintro ⟨lengthWithin, nameWithin, contentWithin, named, -⟩
    obtain ⟨length, rest, lengthSmall, rfl⟩ := word_ahead ahead lengthWithin.2
    have nameAhead := ahead.back
    rw [length_word] at nameAhead
    obtain ⟨rest, skips⟩ :=
      (within_readString_iff nameAhead (Nat.le_add_right_of_le inside)).mp nameWithin
    obtain ⟨name, short, rfl⟩ := text_of_pointer nameAhead skips named
    have contentAhead := readString_ahead nameAhead skips
    obtain ⟨content, rest, contentSmall, rfl⟩ := word_ahead contentAhead contentWithin.2
    refine ⟨length, name, content, rest, lengthSmall, short, contentSmall, ?_⟩
    rw [Entry.fields, List.append_assoc, List.append_assoc]
  · rintro ⟨length, name, content, rest, lengthSmall, short, contentSmall, rfl⟩
    rw [Entry.fields, List.append_assoc, List.append_assoc] at ahead
    have nameAhead := ahead.back
    rw [length_word] at nameAhead
    have contentAhead := nameAhead.back
    have lengthRoom := ahead.front_le
    have contentRoom := contentAhead.front_le
    rw [length_word] at lengthRoom contentRoom
    have nameInside : start ≤ pos + 4 := Nat.le_add_right_of_le inside
    have read := readString_text short nameAhead
    refine ⟨⟨inside, lengthRoom⟩, ?_, ?_, ?_, within_pure _⟩
    · exact (within_readString_iff nameAhead nameInside).mpr ⟨_, .read short⟩
    · change start ≤ (readString memory (pos + 4)).value.2 ∧
        (readString memory (pos + 4)).value.2 + 4 ≤ finish
      rw [read]
      exact ⟨Nat.le_add_right_of_le nameInside, contentRoom⟩
    · change (readString memory (pos + 4)).value.1 ≠ .nullptr
      rw [read]
      exact CharPtr.noConfusion

/-- What the fields of an entry give. -/
theorem nextOfType_value {length content : ℕ} {name rest : List UInt8}
    (short : name.length < 2 ^ 16)
    (ahead : Ahead memory finish pos (Entry.fields length name content ++ rest)) :
    (reader.nextOfType memory type pos).value =
      if type = LINK then
        (⟨true, .at (pos + 6), none, length % 2 ^ 32, content % 2 ^ 32⟩,
          { reader with
            next_ := some (pos + (Entry.fields length name content).length)
            files_left_ := reader.files_left_ - 1 })
      else
        (⟨false, .at (pos + 6), some (pos + (Entry.fields length name content).length),
            length % 2 ^ 32, content % 2 ^ 32⟩,
          { reader with
            next_ := some (pos + (Entry.fields length name content).length + length % 2 ^ 32)
            files_left_ := reader.files_left_ - 1 }) := by
  have whole : (Entry.fields length name content).length = 4 + (string name).length + 4 := by
    rw [Entry.fields, List.length_append, List.length_append, length_word, length_word,
      Nat.add_assoc]
  rw [Entry.fields, List.append_assoc, List.append_assoc] at ahead
  have nameAhead := ahead.back
  rw [length_word] at nameAhead
  have lengthRead := readUint32_value ahead.front
  have nameRead := readString_text short nameAhead
  have contentRead := readUint32_value nameAhead.back.front
  rw [nextOfType, value_bind, value_bind, value_bind, value_bind, value_pure, lengthRead]
  dsimp only
  rw [nameRead]
  dsimp only
  rw [contentRead, whole, ← Nat.add_assoc, ← Nat.add_assoc]

/-- The pointer to the name of an entry. -/
theorem points_of_fields {length content : ℕ} {name rest : List UInt8}
    (ahead : Ahead memory finish pos (Entry.fields length name content ++ rest)) :
    PointsTo memory (.at (pos + 6)) (name ++ [0]) := by
  rw [Entry.fields, List.append_assoc, List.append_assoc] at ahead
  have nameAhead := ahead.back
  rw [length_word] at nameAhead
  exact points_of_string nameAhead

/-- `Next` reads within bounds exactly when the fields follow a type that is known. -/
theorem within_nextAt_iff (ahead : Ahead memory finish pos data) (inside : start ≤ pos) :
    Within (Allowed module (start, finish)) (reader.nextAt memory pos) ↔
      ∃ type rest, type < 2 ^ 32 ∧ data = word type ++ rest ∧
        (type ≠ DEFAULT ∧ type ≠ LINK ∨
          ∃ length name content back, length < 2 ^ 32 ∧ name.length < 2 ^ 16 ∧
            content < 2 ^ 32 ∧ rest = Entry.fields length name content ++ back) := by
  have behind {type : ℕ} {rest : List UInt8} (small : type < 2 ^ 32)
      (ahead : Ahead memory finish pos (word type ++ rest)) :
      (readUint32 memory pos).value = (type, pos + 4) ∧ Ahead memory finish (pos + 4) rest := by
    have back := ahead.back
    have read := readUint32_value ahead.front
    rw [length_word] at back
    rw [Nat.mod_eq_of_lt small] at read
    exact ⟨read, back⟩
  rw [nextAt, within_bind, within_readUint32]
  constructor
  · rintro ⟨⟨-, room⟩, others⟩
    obtain ⟨type, rest, small, rfl⟩ := word_ahead ahead room
    obtain ⟨read, back⟩ := behind small ahead
    refine ⟨type, rest, small, rfl, ?_⟩
    by_cases unknown : type ≠ DEFAULT ∧ type ≠ LINK
    · exact .inl unknown
    · rw [read, if_neg unknown] at others
      exact .inr ((reader.within_nextOfType_iff type back (Nat.le_add_right_of_le inside)).mp others)
  · rintro ⟨type, rest, small, rfl, others⟩
    obtain ⟨read, back⟩ := behind small ahead
    have room := ahead.front_le
    rw [length_word] at room
    refine ⟨⟨inside, room⟩, ?_⟩
    rw [read]
    by_cases unknown : type ≠ DEFAULT ∧ type ≠ LINK
    · rw [if_pos unknown]
      exact within_pure _
    · rw [if_neg unknown]
      exact (reader.within_nextOfType_iff type back (Nat.le_add_right_of_le inside)).mpr
        (others.resolve_left unknown)

theorem nextAt_unknown {rest : List UInt8} {type : ℕ} (small : type < 2 ^ 32)
    (unknown : type ≠ DEFAULT ∧ type ≠ LINK)
    (ahead : Ahead memory finish pos (word type ++ rest)) :
    (reader.nextAt memory pos).value = reader.finish := by
  have read := readUint32_value ahead.front
  rw [Nat.mod_eq_of_lt small] at read
  rw [nextAt, value_bind, read, if_pos unknown]
  rfl

theorem nextAt_known {rest : List UInt8} {type : ℕ} (known : type = DEFAULT ∨ type = LINK)
    (ahead : Ahead memory finish pos (word type ++ rest)) :
    (reader.nextAt memory pos).value = (reader.nextOfType memory type (pos + 4)).value := by
  have read := readUint32_value ahead.front
  have small : type < 2 ^ 32 := by
    obtain rfl | rfl := known
    · decide
    · decide
  rw [Nat.mod_eq_of_lt small] at read
  have different : ¬(type ≠ DEFAULT ∧ type ≠ LINK) := by
    rintro ⟨notDefault, notLink⟩
    exact known.elim notDefault notLink
  rw [nextAt, value_bind, read, if_neg different]

theorem next_eq_nextAt {reader : PackageReader} (position : reader.next_ = some pos)
    (more : reader.files_left_ ≠ 0) : reader.next memory = reader.nextAt memory pos := by
  rw [next, position]
  exact if_neg more

end PackageReader

end Initrd

end JsOS.Kernel
