import JsOS.Core.Fs.Fat.Chains

/-! # Reading from a chain

`readFromPosition` takes the offset of the first byte for the length of the part of a read that it
cuts off. It reads what it should if it is, or if nothing needs to be cut (`Undivided`). Any other
read goes on into the next sector at the wrong place of the buffer (`misplaced`), or fails.
-/

namespace JsOS.Core.Fs.Fat

open Framing (Bytes)

namespace Chain

/-- The part of a read that lies in its first sector is cut off for its right length: nothing is cut
off, or nothing is left, or the sector is cut in halves. -/
def Undivided (sectorSize offset length : ℕ) : Prop :=
  offset = 0 ∨ offset + length ≤ sectorSize ∨ 2 * offset = sectorSize

instance (sectorSize offset length : ℕ) : Decidable (Undivided sectorSize offset length) :=
  inferInstanceAs (Decidable (_ ∨ _ ∨ _))

/-- What a read into the next sector leaves in a buffer that is not shorter than the offset of its
first byte. -/
def misplaced (sectorSize : ℕ) (contents : ℤ → UInt8) (place offset : ℕ) (buffer : Bytes) :
    Bytes :=
  (Extent.read contents place (sectorSize - offset) ++ buffer.drop (sectorSize - offset)).take
      offset ++
    Extent.read contents (place - offset + sectorSize) (buffer.length - offset)

variable {State : Type} {chain : Chain State} {holds : Content → State → Prop}
  {fits : Content → ℕ → Prop} {fails : Prop} {content : Content} {state : State}

/-- Bytes that are copied from a sector. -/
theorem copy_part {source target : Bytes} {targetStart start count : ℕ}
    (inside : start < source.length) (fit : targetStart + count ≤ target.length) :
    copy source target targetStart start (start + count : ℕ) =
      .ok (Buffer.store target targetStart ((source.drop start).take count)) := by
  unfold copy
  split
  · next nothing =>
      obtain none | ⟨-, negative⟩ | rfl | rfl := nothing
      · have zero : count = 0 := by omega
        rw [zero, List.take_zero]
        rfl
      · exact absurd negative (by omega)
      · have empty := Buffer.length_store ([] : Bytes) targetStart ((source.drop start).take count)
        rw [List.length_eq_zero_iff.mp empty]
      · exact absurd inside (Nat.not_lt_zero _)
  · rw [if_neg (by omega), if_neg (by omega), Int.toNat_natCast, Nat.add_sub_cancel_left]

/-- The last part is read into the end of the buffer. If its sector is not there, the number of
bytes says so. -/
theorem readTrailer_ensures (keeps : chain.Keeps holds fits fails) (held : holds content state)
    (trailerSector : ℕ) {trailing : ℕ} {buffer : Bytes} (fit : trailing ≤ buffer.length)
    (short : trailing < chain.sectorSize) :
    (chain.readTrailer trailerSector trailing buffer).Ensures state
      (fun result after => holds content after ∧
        ((trailing ≠ 0 → trailerSector + 1 ≤ content.size) → result = ((buffer.length : ℤ),
          buffer.take (buffer.length - trailing) ++
            Extent.read content.bytes (trailerSector * chain.sectorSize) trailing)) ∧
        (trailing ≠ 0 → content.size ≤ trailerSector → result.1 ≠ buffer.length))
      fun _ after => fails ∧ holds content after := by
  have reads := keeps.read trailerSector 1 Nat.one_pos held
  rw [Nat.one_mul] at reads
  refine Procedure.ensures_bind.mpr (reads.mono ?_ fun _ _ still => still)
  rintro dest between ⟨held, -, missing, exact_⟩
  cases trailing with
  | zero =>
      rw [Extent.read_zero, List.append_nil, Nat.sub_zero, List.take_length]
      cases dest with
      | none =>
          exact ⟨held, fun _ => congrArg (·, buffer) (Int.sub_zero _), fun some => absurd rfl some⟩
      | some d => exact ⟨held, fun _ => rfl, fun some => absurd rfl some⟩
  | succ trailing =>
      by_cases present : trailerSector + 1 ≤ content.size
      · rw [exact_ present]
        dsimp only
        have start : ((buffer.length : ℤ) - (trailing + 1 : ℕ)).toNat =
            buffer.length - (trailing + 1) := by omega
        have copied := @copy_part (Extent.read content.bytes (trailerSector * chain.sectorSize)
          chain.sectorSize) buffer (buffer.length - (trailing + 1)) 0 (trailing + 1)
          (by rw [Extent.length_read]; exact keeps.positive) (by omega)
        rw [Nat.zero_add, List.drop_zero, Extent.take_read short.le] at copied
        rw [start, copied, Extent.store_eq _ _ _ (by rw [Extent.length_read]; omega),
          Extent.length_read, Nat.sub_add_cancel fit, List.drop_length, List.append_nil]
        refine ⟨held, fun _ => congrArg (·, _) ?_, fun _ beyond => by omega⟩
        rw [List.length_append, List.length_take, Extent.length_read]
        omega
      · rw [missing (by omega)]
        refine ⟨held, fun there => absurd (there (Nat.succ_ne_zero trailing)) present,
          fun _ _ => ?_⟩
        dsimp only
        omega

/-- The part of a buffer between the offset and the trailer. -/
theorem sliceBounds_main {length offset trailing : ℕ} (fit : offset + trailing ≤ length) :
    sliceBounds length offset (if (trailing : ℤ) ≠ 0 then -(trailing : ℤ) else length) =
      (offset, length - offset - trailing) := by
  have first : sliceIndex length offset = offset := by
    rw [sliceIndex, if_neg (by omega), Int.toNat_natCast, Nat.min_eq_left (by omega)]
  unfold sliceBounds
  rw [first]
  refine congrArg (offset, ·) ?_
  by_cases none : trailing = 0
  · rw [none, if_neg (not_not_intro Nat.cast_zero), sliceIndex, if_neg (by omega),
      Int.toNat_natCast, Nat.min_self, Nat.sub_zero]
  · rw [if_pos (by omega), sliceIndex, if_pos (by omega)]
    omega

/-- What follows the part that is cut off is read into the buffer from the offset on. If a part of
its last sector is not there, the number of bytes says so. -/
theorem readMain_ensures (keeps : chain.Keeps holds fits fails) (held : holds content state)
    (targetPos : Position) {mainSector : ℕ} (buffer : Bytes)
    (starts : (if targetPos.offset ≠ 0 then targetPos.sector + 1 else targetPos.sector) =
      mainSector)
    (fit : targetPos.offset ≤ buffer.length)
    (nearly : mainSector * chain.sectorSize + (buffer.length - targetPos.offset) <
      content.size * chain.sectorSize + chain.sectorSize) :
    (chain.readMain targetPos buffer).Ensures state
      (fun result after => holds content after ∧
        (mainSector * chain.sectorSize + (buffer.length - targetPos.offset) ≤
          content.size * chain.sectorSize → result = ((buffer.length : ℤ),
            buffer.take targetPos.offset ++ Extent.read content.bytes
              (mainSector * chain.sectorSize) (buffer.length - targetPos.offset))) ∧
        (content.size * chain.sectorSize <
          mainSector * chain.sectorSize + (buffer.length - targetPos.offset) →
            result.1 ≠ buffer.length))
      fun _ after => fails ∧ holds content after := by
  have positive := keeps.positive
  obtain ⟨rest, whole⟩ := Nat.exists_eq_add_of_le fit
  have division := Nat.div_add_mod' rest chain.sectorSize
  have under := Nat.mod_lt rest positive
  have back : buffer.length - targetPos.offset = rest := by omega
  rw [back] at nearly ⊢
  have within : mainSector + rest / chain.sectorSize ≤ content.size := by
    refine Nat.le_of_lt_succ (Nat.lt_of_mul_lt_mul_right (a := chain.sectorSize) ?_)
    rw [Nat.add_mul, Nat.succ_mul]
    omega
  have remainder : ((buffer.length : ℤ) - targetPos.offset).tmod chain.sectorSize =
      (rest % chain.sectorSize : ℕ) := by
    rw [whole, Nat.cast_add, add_sub_cancel_left, Int.ofNat_tmod]
  unfold readMain
  dsimp only
  rw [remainder, starts]
  generalize rest % chain.sectorSize = trailing at division under
  rw [sliceBounds_main (by omega)]
  have mainLength : buffer.length - targetPos.offset - trailing =
      rest / chain.sectorSize * chain.sectorSize := by omega
  dsimp only
  rw [mainLength, Nat.mul_div_cancel _ positive]
  have split : mainSector * chain.sectorSize + rest =
      (mainSector + rest / chain.sectorSize) * chain.sectorSize + trailing := by
    rw [Nat.add_mul]
    omega
  have there (some : trailing ≠ 0)
      (present : mainSector * chain.sectorSize + rest ≤ content.size * chain.sectorSize) :
      mainSector + rest / chain.sectorSize + 1 ≤ content.size := by
    refine Nat.succ_le_of_lt (Nat.lt_of_mul_lt_mul_right (a := chain.sectorSize) ?_)
    omega
  have gone (missing : content.size * chain.sectorSize < mainSector * chain.sectorSize + rest) :
      trailing ≠ 0 ∧ content.size ≤ mainSector + rest / chain.sectorSize := by
    have further := Nat.mul_le_mul_right chain.sectorSize within
    refine ⟨by omega, Nat.le_of_lt_succ (Nat.lt_of_mul_lt_mul_right (a := chain.sectorSize) ?_)⟩
    rw [Nat.succ_mul]
    omega
  by_cases none : rest / chain.sectorSize = 0
  · rw [none, Nat.zero_mul, if_neg (not_not_intro rfl)]
    rw [none, Nat.zero_mul, Nat.zero_add] at division
    rw [none] at there gone
    have last := readTrailer_ensures keeps held (mainSector + 0)
      (by omega : trailing ≤ buffer.length) under
    have front : buffer.length - trailing = targetPos.offset := by omega
    rw [front] at last
    rw [← division] at there gone ⊢
    refine last.mono ?_ fun _ _ failed => failed
    rintro result after ⟨held, full, short⟩
    exact ⟨held, fun present => full fun some => there some present,
      fun missing => short (gone missing).1 (gone missing).2⟩
  · rw [if_pos (Nat.mul_ne_zero none positive.ne')]
    refine Procedure.ensures_bind.mpr ((keeps.read mainSector _ (Nat.pos_of_ne_zero none)
      held).mono ?_ fun _ _ still => still)
    rintro dest between ⟨held, -, -, exact_⟩
    rw [exact_ within]
    dsimp only
    have stored : Buffer.store buffer targetPos.offset (Extent.read content.bytes
        (mainSector * chain.sectorSize) (rest / chain.sectorSize * chain.sectorSize)) =
        buffer.take targetPos.offset ++ Extent.read content.bytes
          (mainSector * chain.sectorSize) (rest / chain.sectorSize * chain.sectorSize) ++
          buffer.drop (buffer.length - trailing) := by
      rw [Extent.store_eq _ _ _ (by rw [Extent.length_read]; omega), Extent.length_read]
      congr 2
      omega
    have length : (Buffer.store buffer targetPos.offset (Extent.read content.bytes
        (mainSector * chain.sectorSize) (rest / chain.sectorSize * chain.sectorSize))).length =
        buffer.length := Buffer.length_store _ _ _
    have front : (buffer.take targetPos.offset ++ Extent.read content.bytes
        (mainSector * chain.sectorSize) (rest / chain.sectorSize * chain.sectorSize)).length =
        buffer.length - trailing := by
      rw [List.length_append, List.length_take, Extent.length_read]
      omega
    have parts : Extent.read content.bytes (mainSector * chain.sectorSize) rest =
        Extent.read content.bytes (mainSector * chain.sectorSize)
            (rest / chain.sectorSize * chain.sectorSize) ++
          Extent.read content.bytes
            ((mainSector + rest / chain.sectorSize : ℕ) * chain.sectorSize) trailing := by
      have place : ((mainSector + rest / chain.sectorSize : ℕ) : ℤ) * chain.sectorSize =
          mainSector * chain.sectorSize + (rest / chain.sectorSize * chain.sectorSize : ℕ) := by
        push_cast
        ring
      rw [place, ← Extent.read_add, division]
    rw [parts, ← List.append_assoc]
    by_cases ends : trailing = 0
    · rw [if_pos (by omega), length]
      refine ⟨held, fun _ => congrArg (_, ·) ?_, fun missing => absurd ends (gone missing).1⟩
      rw [stored, ends, Nat.sub_zero, List.drop_length]
      rfl
    · rw [if_neg (by omega)]
      have fits : trailing ≤ (Buffer.store buffer targetPos.offset (Extent.read content.bytes
          (mainSector * chain.sectorSize)
          (rest / chain.sectorSize * chain.sectorSize))).length := by
        omega
      have last := readTrailer_ensures keeps held (mainSector + rest / chain.sectorSize) fits under
      rw [length, stored, List.take_left' front] at last
      rw [stored]
      refine last.mono ?_ fun _ _ failed => failed
      rintro result after ⟨held, full, short⟩
      exact ⟨held, fun present => full fun some => there some present,
        fun missing => short (gone missing).1 (gone missing).2⟩

/-- A buffer that is shorter than the offset is taken for a trailer of negative length. -/
theorem readMain_short {targetPos : Position} {buffer : Bytes} {missing : ℕ}
    (offset : targetPos.offset < chain.sectorSize)
    (short : targetPos.offset = buffer.length + missing + 1) :
    chain.readMain targetPos buffer =
      chain.readTrailer (if targetPos.offset ≠ 0 then targetPos.sector + 1 else targetPos.sector)
        (-((missing + 1 : ℕ) : ℤ)) buffer := by
  have remainder : ((buffer.length : ℤ) - targetPos.offset).tmod chain.sectorSize =
      -((missing + 1 : ℕ) : ℤ) := by
    have negative : (buffer.length : ℤ) - targetPos.offset = -((missing + 1 : ℕ) : ℤ) := by omega
    rw [negative, Int.neg_tmod, ← Int.ofNat_tmod, Nat.mod_eq_of_lt (by omega)]
  have bounds : sliceBounds buffer.length targetPos.offset ((missing + 1 : ℕ) : ℤ) =
      (buffer.length, 0) := by
    unfold sliceBounds sliceIndex
    rw [if_neg (by omega), if_neg (by omega)]
    refine Prod.ext ?_ ?_
    · dsimp only
      omega
    · dsimp only
      omega
  unfold readMain
  dsimp only
  rw [remainder, if_pos (by omega : -((missing + 1 : ℕ) : ℤ) ≠ 0), neg_neg, bounds,
    if_neg (not_not_intro rfl), Nat.zero_div, Nat.add_zero]

/-- With a buffer that is shorter than the offset the last part has a negative length. -/
theorem readMain_fails (keeps : chain.Keeps holds fits fails) (held : holds content state)
    {targetPos : Position} {buffer : Bytes} (offset : targetPos.offset < chain.sectorSize)
    (short : buffer.length < targetPos.offset) (some : buffer ≠ [])
    (present : targetPos.sector + 1 + 1 ≤ content.size) :
    (chain.readMain targetPos buffer).Ensures state (fun _ _ => False)
      fun _ after => holds content after := by
  obtain ⟨missing, whole⟩ := Nat.exists_eq_add_of_lt short
  rw [readMain_short offset whole, if_pos (by omega : targetPos.offset ≠ 0)]
  unfold readTrailer
  have reads := keeps.read (targetPos.sector + 1) 1 Nat.one_pos held
  rw [Nat.one_mul] at reads
  refine Procedure.ensures_bind.mpr (reads.mono ?_ fun _ _ still => still.2)
  rintro dest between ⟨held, -, -, exact_⟩
  rw [exact_ present]
  have nonempty : Extent.read content.bytes ((targetPos.sector + 1 : ℕ) * chain.sectorSize)
      chain.sectorSize ≠ [] := by
    refine List.ne_nil_of_length_pos ?_
    rw [Extent.length_read]
    exact keeps.positive
  have fails (target : ℕ) : copy (Extent.read content.bytes
      ((targetPos.sector + 1 : ℕ) * chain.sectorSize) chain.sectorSize) buffer target 0
      (-((missing + 1 : ℕ) : ℤ)) = .error .sourceEnd := by
    unfold copy
    rw [if_neg, if_neg, if_pos (by omega)]
    · rw [Extent.length_read]
      exact Nat.not_le.mpr keeps.positive
    · rintro (zero | ⟨positive, -⟩ | empty | empty)
      · omega
      · omega
      · exact some empty
      · exact nonempty empty
  dsimp only
  rw [fails]
  exact held

variable {targetPos : Position} {buffer : Bytes}

/-- The first part of a read that goes on into the next sector. -/
theorem preface_eq {contents : ℤ → UInt8} {sectorSize place offset : ℕ}
    (inside : offset < sectorSize) (crosses : sectorSize < offset + buffer.length) :
    copy (Extent.read contents (place * sectorSize) sectorSize) buffer 0 offset
        (offset + buffer.length : ℕ) =
      .ok (Extent.read contents (place * sectorSize + offset) (sectorSize - offset) ++
        buffer.drop (sectorSize - offset)) := by
  rw [copy_part (by rwa [Extent.length_read]) (by omega), Extent.drop_read inside.le,
    List.take_of_length_le (by rw [Extent.length_read]; omega),
    Extent.store_eq _ _ _ (by rw [Extent.length_read]; omega), Extent.length_read, List.take_zero,
    List.nil_append, Nat.zero_add]

/-- **What a read into the next sector comes to** with a buffer that is long enough. -/
theorem readFromPosition_misplaced (keeps : chain.Keeps holds fits fails)
    (held : holds content state) (targetPos : Position) (buffer : Bytes)
    (first : targetPos.offset ≠ 0) (offset : targetPos.offset < chain.sectorSize)
    (crosses : chain.sectorSize < targetPos.offset + buffer.length)
    (fit : targetPos.offset ≤ buffer.length)
    (present : targetPos.sector * chain.sectorSize + targetPos.offset + buffer.length ≤
      content.size * chain.sectorSize) :
    (chain.readFromPosition targetPos buffer).Ensures state
      (fun result after => holds content after ∧
        (result.1 = buffer.length → result.2 = misplaced chain.sectorSize content.bytes
          (targetPos.sector * chain.sectorSize + targetPos.offset) targetPos.offset buffer) ∧
        (targetPos.sector * chain.sectorSize + chain.sectorSize + buffer.length ≤
          content.size * chain.sectorSize + targetPos.offset → result.1 = buffer.length))
      fun _ after => fails ∧ holds content after := by
  have reads := keeps.read targetPos.sector 1 Nat.one_pos held
  rw [Nat.one_mul] at reads
  unfold readFromPosition
  rw [if_pos first]
  refine Procedure.ensures_bind.mpr (reads.mono ?_ fun _ _ still => still)
  rintro dest between ⟨held, -, -, exact_⟩
  have there : targetPos.sector + 1 ≤ content.size := by
    refine Nat.le_of_mul_le_mul_right ?_ keeps.positive
    rw [Nat.succ_mul]
    omega
  rw [exact_ there]
  dsimp only
  rw [preface_eq offset crosses, Extent.length_read]
  change Procedure.Ensures (if _ then _ else _) between _ _
  rw [if_pos crosses]
  have length : (Extent.read content.bytes (targetPos.sector * chain.sectorSize + targetPos.offset)
      (chain.sectorSize - targetPos.offset) ++
      buffer.drop (chain.sectorSize - targetPos.offset)).length = buffer.length := by
    rw [List.length_append, Extent.length_read, List.length_drop]
    omega
  have main := readMain_ensures keeps held targetPos
    (Extent.read content.bytes (targetPos.sector * chain.sectorSize + targetPos.offset)
      (chain.sectorSize - targetPos.offset) ++ buffer.drop (chain.sectorSize - targetPos.offset))
    (if_pos first) (by omega) (by rw [length, Nat.succ_mul]; omega)
  have next : (((targetPos.sector * chain.sectorSize + targetPos.offset : ℕ) : ℤ) -
      targetPos.offset + chain.sectorSize) = (targetPos.sector + 1 : ℕ) * chain.sectorSize := by
    push_cast
    ring
  rw [length] at main
  unfold misplaced
  rw [next]
  refine main.mono ?_ fun _ _ failed => failed
  rintro result after ⟨held, full, short⟩
  have behind : (targetPos.sector + 1) * chain.sectorSize =
      targetPos.sector * chain.sectorSize + chain.sectorSize := Nat.succ_mul _ _
  refine ⟨held, fun whole => ?_, fun more => ?_⟩
  · rw [full (Nat.le_of_not_lt fun missing => short missing whole)]
    push_cast
    rfl
  · rw [full (by omega)]

/-- Where a sector is cut in halves, nothing is misplaced. -/
theorem misplaced_of_halves {sectorSize place offset : ℕ} {contents : ℤ → UInt8}
    (halves : 2 * offset = sectorSize) (crosses : sectorSize < offset + buffer.length) :
    misplaced sectorSize contents place offset buffer =
      Extent.read contents place buffer.length := by
  have front : sectorSize - offset = offset := by omega
  have next : (place : ℤ) - offset + sectorSize = place + offset := by omega
  obtain ⟨rest, whole⟩ := Nat.exists_eq_add_of_le (by omega : offset ≤ buffer.length)
  unfold misplaced
  rw [front, List.take_left' (Extent.length_read _ _ _), next, whole, Nat.add_sub_cancel_left,
    Extent.read_add]

/-- **An undivided read gives the bytes at its position.** -/
theorem readFromPosition_ensures (keeps : chain.Keeps holds fits fails) (held : holds content state)
    (offset : targetPos.offset < chain.sectorSize)
    (undivided : Undivided chain.sectorSize targetPos.offset buffer.length)
    (present : targetPos.sector * chain.sectorSize + targetPos.offset + buffer.length ≤
      content.size * chain.sectorSize) :
    (chain.readFromPosition targetPos buffer).Ensures state
      (fun result after => holds content after ∧ result = ((buffer.length : ℤ),
        Extent.read content.bytes (targetPos.sector * chain.sectorSize + targetPos.offset : ℕ)
          buffer.length))
      fun _ after => fails ∧ holds content after := by
  by_cases first : targetPos.offset = 0
  · have main := readMain_ensures keeps held targetPos buffer
      (if_neg (not_not_intro first)) (by omega) (by omega)
    unfold readFromPosition
    rw [if_neg (not_not_intro first)]
    rw [first, List.take_zero, List.nil_append, Nat.sub_zero] at main
    rw [first, Nat.add_zero] at present
    rw [first, Nat.add_zero, Nat.cast_mul]
    exact main.mono (fun _ _ done => ⟨done.1, done.2.1 present⟩) fun _ _ failed => failed
  · by_cases crosses : chain.sectorSize < targetPos.offset + buffer.length
    · have halves : 2 * targetPos.offset = chain.sectorSize := by
        obtain zero | within | halves := undivided
        · exact absurd zero first
        · exact absurd within (by omega)
        · exact halves
      rw [← misplaced_of_halves halves crosses]
      refine (readFromPosition_misplaced keeps held targetPos buffer first offset crosses
        (by omega) present).mono ?_ fun _ _ failed => failed
      rintro result after ⟨held, bytes, whole⟩
      have count := whole (by omega)
      exact ⟨held, Prod.ext count (bytes count)⟩
    · have reads := keeps.read targetPos.sector 1 Nat.one_pos held
      rw [Nat.one_mul] at reads
      unfold readFromPosition
      rw [if_pos first]
      refine Procedure.ensures_bind.mpr (reads.mono ?_ fun _ _ still => still)
      rintro dest between ⟨held, -, -, exact_⟩
      have there : targetPos.sector + 1 ≤ content.size := by
        refine Nat.succ_le_of_lt (Nat.lt_of_mul_lt_mul_right (a := chain.sectorSize) ?_)
        omega
      rw [exact_ there]
      dsimp only
      have copied := @copy_part (Extent.read content.bytes
        (targetPos.sector * chain.sectorSize) chain.sectorSize) buffer 0 targetPos.offset
        buffer.length (by rwa [Extent.length_read]) (by omega)
      rw [Extent.drop_read offset.le, Extent.take_read (by omega),
        Extent.store_eq _ _ _ (by rw [Extent.length_read]; omega), Extent.length_read,
        List.take_zero, List.nil_append, Nat.zero_add, List.drop_length, List.append_nil] at copied
      rw [copied, Extent.length_read]
      change Procedure.Ensures (if _ then _ else _) between _ _
      rw [if_neg crosses]
      refine ⟨held, Prod.ext ?_ ?_⟩
      · exact congrArg Nat.cast (Extent.length_read _ _ _)
      · rw [Nat.cast_add, Nat.cast_mul]

/-- **A read into the next sector fails** if the buffer is shorter than the offset. -/
theorem readFromPosition_fails (keeps : chain.Keeps holds fits fails)
    (held : holds content state) (targetPos : Position) (buffer : Bytes)
    (offset : targetPos.offset < chain.sectorSize)
    (crosses : chain.sectorSize < targetPos.offset + buffer.length)
    (short : buffer.length < targetPos.offset)
    (present : targetPos.sector + 1 + 1 ≤ content.size) :
    (chain.readFromPosition targetPos buffer).Ensures state (fun _ _ => False)
      fun _ after => holds content after := by
  have reads := keeps.read targetPos.sector 1 Nat.one_pos held
  rw [Nat.one_mul] at reads
  unfold readFromPosition
  rw [if_pos (by omega)]
  refine Procedure.ensures_bind.mpr (reads.mono ?_ fun _ _ still => still.2)
  rintro dest between ⟨held, -, -, exact_⟩
  rw [exact_ (by omega)]
  dsimp only
  rw [preface_eq offset crosses, Extent.length_read]
  change Procedure.Ensures (if _ then _ else _) between _ _
  have length : (Extent.read content.bytes (targetPos.sector * chain.sectorSize + targetPos.offset)
      (chain.sectorSize - targetPos.offset) ++
      buffer.drop (chain.sectorSize - targetPos.offset)).length = buffer.length := by
    rw [List.length_append, Extent.length_read, List.length_drop]
    omega
  rw [if_pos crosses]
  refine readMain_fails keeps held offset (by omega) (List.ne_nil_of_length_pos ?_) present
  omega

/-! ## What a read leaves alone -/

theorem readTrailer_holds (keeps : chain.Keeps holds fits fails) (held : holds content state)
    (trailerSector : ℕ) (trailerLen : ℤ) (buffer : Bytes) :
    (chain.readTrailer trailerSector trailerLen buffer).Ensures state
      (fun _ after => holds content after) fun _ after => holds content after := by
  have reads := keeps.read trailerSector 1 Nat.one_pos held
  rw [Nat.one_mul] at reads
  unfold readTrailer
  refine Procedure.ensures_bind.mpr (reads.mono ?_ fun _ _ failed => failed.2)
  rintro d after ⟨held, -⟩
  cases d with
  | none => exact held
  | some d =>
      refine Procedure.ensures_bind.mpr (Procedure.ensures_ofExcept.mpr ⟨?_, ?_⟩)
      · exact fun _ _ => held
      · exact fun _ _ => held

theorem readMain_holds (keeps : chain.Keeps holds fits fails) (held : holds content state)
    {targetPos : Position} (offset : targetPos.offset < chain.sectorSize) (buffer : Bytes) :
    (chain.readMain targetPos buffer).Ensures state
      (fun _ after => holds content after) fun _ after => holds content after := by
  obtain fit | short := Nat.lt_or_ge buffer.length targetPos.offset |>.symm
  · have remainder : ((buffer.length : ℤ) - targetPos.offset).tmod chain.sectorSize =
        ((buffer.length - targetPos.offset) % chain.sectorSize : ℕ) := by
      rw [← Nat.cast_sub fit, ← Int.ofNat_tmod]
    have part := Nat.mod_le (buffer.length - targetPos.offset) chain.sectorSize
    have main := @sliceBounds_main buffer.length targetPos.offset
      ((buffer.length - targetPos.offset) % chain.sectorSize) (by omega)
    have whole := Nat.div_add_mod' (buffer.length - targetPos.offset) chain.sectorSize
    have sectors : buffer.length - targetPos.offset -
        (buffer.length - targetPos.offset) % chain.sectorSize =
        (buffer.length - targetPos.offset) / chain.sectorSize * chain.sectorSize := by omega
    unfold readMain
    dsimp only
    rw [remainder, main, sectors]
    dsimp only
    by_cases none : (buffer.length - targetPos.offset) / chain.sectorSize * chain.sectorSize ≠ 0
    · rw [if_pos none]
      have some : 0 < (buffer.length - targetPos.offset) / chain.sectorSize :=
        Nat.pos_of_ne_zero fun zero => none (by rw [zero, Nat.zero_mul])
      refine Procedure.ensures_bind.mpr ((keeps.read _ _ some held).mono ?_
        fun _ _ failed => failed.2)
      rintro d after ⟨held, -⟩
      cases d with
      | none => exact held
      | some d =>
          dsimp only
          split
          · exact held
          · exact readTrailer_holds keeps held _ _ _
    · rw [if_neg none]
      exact readTrailer_holds keeps held _ _ _
  · obtain ⟨missing, whole⟩ := Nat.exists_eq_add_of_lt short
    rw [readMain_short offset whole]
    exact readTrailer_holds keeps held _ _ _

/-- **A read changes nothing**, wherever it begins and however it ends. -/
theorem readFromPosition_holds (keeps : chain.Keeps holds fits fails) (held : holds content state)
    {targetPos : Position} (offset : targetPos.offset < chain.sectorSize) (buffer : Bytes) :
    (chain.readFromPosition targetPos buffer).Ensures state
      (fun _ after => holds content after) fun _ after => holds content after := by
  unfold readFromPosition
  by_cases first : targetPos.offset ≠ 0
  · rw [if_pos first]
    have reads := keeps.read targetPos.sector 1 Nat.one_pos held
    rw [Nat.one_mul] at reads
    refine Procedure.ensures_bind.mpr (reads.mono ?_ fun _ _ failed => failed.2)
    rintro d after ⟨held, -⟩
    cases d with
    | none => exact held
    | some d =>
        refine Procedure.ensures_bind.mpr (Procedure.ensures_ofExcept.mpr ⟨?_, fun _ _ => held⟩)
        rintro filled -
        split
        · exact readMain_holds keeps held offset filled
        · exact held
  · rw [if_neg first]
    exact readMain_holds keeps held offset buffer

end Chain

end JsOS.Core.Fs.Fat
