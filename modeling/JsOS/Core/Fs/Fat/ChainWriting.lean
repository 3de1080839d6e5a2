import JsOS.Core.Fs.Fat.Chains

/-! # Writing to a chain

`writeToPosition` modifies the sectors that the data begins and ends in, and writes those between
as they are. Data is written wherever it is to go (`writeToPosition_ensures`), and a failure leaves
every byte as it was or as it should be.
-/

namespace JsOS.Core.Fs.Fat

open Framing (Bytes)

namespace Chain

variable {State : Type} {chain : Chain State} {holds : Content → State → Prop}
  {fits : Content → ℕ → Prop} {fails : Prop} {content : Content} {state : State}

/-- A source that is copied as a whole. -/
theorem copy_whole (source target : Bytes) (targetStart : ℕ) :
    copy source target targetStart 0 source.length =
      .ok (Buffer.store target targetStart source) := by
  unfold copy
  split
  · next nothing =>
      obtain none | ⟨-, negative⟩ | rfl | rfl := nothing
      · rw [List.length_eq_zero_iff.mp (Int.natCast_eq_zero.mp none)]
        rfl
      · exact absurd negative (by omega)
      · have empty := Buffer.length_store ([] : Bytes) targetStart source
        rw [List.length_eq_zero_iff.mp empty]
      · rfl
  · next something =>
      have nonempty : source.length ≠ 0 := fun empty =>
        something (.inr (.inr (.inr (List.length_eq_zero_iff.mp empty))))
      rw [if_neg (by omega), if_neg (by omega), Int.toNat_natCast, List.drop_zero, Nat.sub_zero,
        List.take_length]

/-- Data inside a sector that is written back. -/
theorem written_of_store {sectorSize sec off : ℕ} {written : Content} {orig data : Bytes}
    (length : orig.length = sectorSize) (inside : off + data.length ≤ sectorSize)
    (exact_ : sec + 1 ≤ content.size →
      orig = Extent.read content.bytes (sec * sectorSize) sectorSize) {at_ : ℤ}
    (either : at_ < content.size * sectorSize ∨
      (sec * sectorSize + off : ℤ) ≤ at_ ∧ at_ < sec * sectorSize + off + data.length)
    (same : written.bytes at_ =
      Extent.write content.bytes (sec * sectorSize) (Buffer.store orig off data) at_) :
    written.bytes at_ = Extent.write content.bytes (sec * sectorSize + off) data at_ := by
  rw [same]
  by_cases inData : (sec * sectorSize + off : ℤ) ≤ at_ ∧
      at_ < sec * sectorSize + off + data.length
  · obtain ⟨i, rfl⟩ := Int.le.dest inData.1
    rw [Extent.write_inside (by omega),
      Extent.write_store_inside _ _ _ _ _ (by omega) (by omega)]
  · by_cases present : sec + 1 ≤ content.size
    · rw [exact_ present, Extent.write_store_read _ _ _ _ _ inside]
    · have beyond : (content.size : ℤ) * sectorSize ≤ sec * sectorSize := by
        exact_mod_cast Nat.mul_le_mul_right sectorSize (by omega)
      rw [Extent.write_outside inData, Extent.write_of_lt (by omega)]

/-- **A part of a sector is modified.** -/
theorem modifySector_ensures (keeps : chain.Keeps holds fits fails) (held : holds content state)
    (sec off : ℕ) (data : Bytes) (room : fits content (sec + 1))
    (inside : off + data.length ≤ chain.sectorSize) :
    (chain.modifySector sec off data).Ensures state
      (fun _ after => ∃ written, holds written after ∧
        content.Written chain.sectorSize written (sec * chain.sectorSize + off) data)
      fun _ after => fails ∧ ∃ touched, holds touched after ∧
        content.Touched chain.sectorSize touched (sec * chain.sectorSize + off) data := by
  have reads := keeps.read sec 1 Nat.one_pos held
  rw [Nat.one_mul] at reads
  refine Procedure.ensures_bind.mpr (reads.mono ?_ fun _ _ still =>
    ⟨still.1, content, still.2, .refl _ _ _⟩)
  rintro orig between ⟨held, length, -, exact_⟩
  generalize found : orig.getD (List.replicate chain.sectorSize 0) = sector
  have whole : sector.length = chain.sectorSize := by
    cases orig with
    | none =>
        rw [← found, Option.getD_none, List.length_replicate]
    | some dest => rw [← found, Option.getD_some, length dest rfl]
  have present : sec + 1 ≤ content.size →
      sector = Extent.read content.bytes (sec * chain.sectorSize) chain.sectorSize := by
    intro there
    rw [← found, exact_ there, Option.getD_some]
  rw [copy_whole]
  change Procedure.Ensures (chain.writeSectors sec (Buffer.store sector off data)) between _ _
  have stored : (Buffer.store sector off data).length = 1 * chain.sectorSize := by
    rw [Buffer.length_store, whole, Nat.one_mul]
  refine (keeps.write sec 1 _ Nat.one_pos stored held room).mono ?_ ?_
  · rintro - after ⟨written, holdsAfter, changed⟩
    have reaches := changed.reaches
    refine ⟨written, holdsAfter, changed.grows, by omega, fun at_ natural either => ?_⟩
    exact written_of_store whole inside present either (changed.bytes at_ natural (by omega))
  · rintro - after ⟨failed, touched, holdsAfter, changed⟩
    refine ⟨failed, touched, holdsAfter, changed.grows, fun at_ natural before => ?_⟩
    refine (changed.bytes at_ natural before).imp_right fun same => ?_
    exact written_of_store whole inside present (.inl before) same

/-- What follows the first part is written from the start of a sector on. -/
theorem writeMain_ensures (keeps : chain.Keeps holds fits fails) (held : holds content state)
    {targetPos : Position} {prefaceLen start last : ℕ} {data : Bytes}
    (starts : (if prefaceLen ≠ 0 then targetPos.sector + 1 else targetPos.sector) = start)
    (room : fits content last) (one : start + 1 ≤ last)
    (reaches : start * chain.sectorSize + (data.length - prefaceLen) ≤ last * chain.sectorSize) :
    (chain.writeMain targetPos prefaceLen data).Ensures state
      (fun _ after => ∃ written, holds written after ∧
        content.Written chain.sectorSize written (start * chain.sectorSize)
          (data.drop prefaceLen))
      fun _ after => fails ∧ ∃ touched, holds touched after ∧
        content.Touched chain.sectorSize touched (start * chain.sectorSize)
          (data.drop prefaceLen) := by
  have positive := keeps.positive
  generalize remains : data.drop prefaceLen = rest
  have length : data.length - prefaceLen = rest.length := by rw [← remains, List.length_drop]
  have tail : data.drop (data.length - rest.length % chain.sectorSize) =
      rest.drop (rest.length - rest.length % chain.sectorSize) := by
    have short := Nat.mod_le rest.length chain.sectorSize
    by_cases more : prefaceLen ≤ data.length
    · have at_ : data.length - rest.length % chain.sectorSize =
          prefaceLen + (rest.length - rest.length % chain.sectorSize) := by omega
      rw [at_, ← List.drop_drop, remains]
    · have empty : rest.length = 0 := by omega
      rw [empty, Nat.zero_mod, Nat.sub_zero, Nat.sub_zero, List.drop_length,
        List.length_eq_zero_iff.mp empty, List.drop_nil]
  unfold writeMain
  rw [starts, length, remains]
  rw [length] at reaches
  dsimp only
  rw [tail]
  generalize parted : rest.length % chain.sectorSize = trailing
  have division := Nat.div_add_mod' rest.length chain.sectorSize
  rw [parted] at division
  have mainLength : (rest.take (rest.length - trailing)).length =
      rest.length / chain.sectorSize * chain.sectorSize := by
    rw [List.length_take]
    omega
  have whole : rest.take (rest.length - trailing) ++ rest.drop (rest.length - trailing) = rest :=
    List.take_append_drop _ _
  have under : trailing < chain.sectorSize := parted ▸ Nat.mod_lt _ positive
  rw [mainLength, Nat.mul_div_cancel _ positive]
  have trailer (content : Content) (state : State) (held : holds content state)
      (room : fits content last) (more : start + rest.length / chain.sectorSize + 1 ≤ last) :=
    modifySector_ensures keeps held (start + rest.length / chain.sectorSize) 0
      (rest.drop (rest.length - trailing)) (keeps.fits_le more room)
      (by rw [List.length_drop]; omega)
  by_cases none : rest.length / chain.sectorSize = 0
  · rw [none, Nat.zero_mul] at mainLength
    rw [none, Nat.zero_mul, if_neg (not_not_intro rfl)]
    have only := trailer content state held room (by omega)
    rw [List.length_eq_zero_iff.mp mainLength, List.nil_append] at whole
    rw [none, whole, Nat.add_zero, Nat.cast_zero, Int.add_zero] at only
    rw [whole]
    exact only
  · rw [if_pos (Nat.mul_ne_zero none positive.ne')]
    have within : start + rest.length / chain.sectorSize ≤ last := by
      refine Nat.le_of_mul_le_mul_right ?_ positive
      rw [Nat.add_mul]
      omega
    refine Procedure.Ensures.bind ((keeps.write start _ _ (Nat.pos_of_ne_zero none) mainLength held
      (keeps.fits_le within room)).mono (fun _ _ done => done) ?_) ?_
    · rintro - after ⟨failed, touched, holdsAfter, changed⟩
      refine ⟨failed, touched, holdsAfter, ?_⟩
      rw [← whole]
      exact changed.append _
    · rintro - between ⟨written, held, changed⟩
      by_cases ends : trailing = 0
      · rw [if_pos ends]
        refine ⟨written, held, ?_⟩
        rwa [ends, Nat.sub_zero, List.take_length] at changed
      · rw [if_neg ends]
        have more : start + rest.length / chain.sectorSize + 1 ≤ last := by
          refine Nat.succ_le_of_lt (Nat.lt_of_mul_lt_mul_right (a := chain.sectorSize) ?_)
          rw [Nat.add_mul]
          omega
        have place : ((start + rest.length / chain.sectorSize : ℕ) : ℤ) * chain.sectorSize +
            (0 : ℕ) = start * chain.sectorSize +
              (rest.take (rest.length - trailing)).length := by
          rw [mainLength]
          push_cast
          ring
        refine (trailer written between held (keeps.fits_grows changed.grows room) more).mono ?_ ?_
        · rintro - after ⟨last, holdsAfter, changed'⟩
          rw [place] at changed'
          exact ⟨last, holdsAfter, whole ▸ changed.append changed'⟩
        · rintro - after ⟨failed, last, holdsAfter, changed'⟩
          rw [place] at changed'
          exact ⟨failed, last, holdsAfter, whole ▸ changed.append_touched changed'⟩

/-- **Data is written wherever it is to go.** -/
theorem writeToPosition_ensures (keeps : chain.Keeps holds fits fails) (held : holds content state)
    {targetPos : Position} {last : ℕ} {data : Bytes} (offset : targetPos.offset < chain.sectorSize)
    (room : fits content last) (one : targetPos.sector + 1 ≤ last)
    (reaches : targetPos.sector * chain.sectorSize + targetPos.offset + data.length ≤
      last * chain.sectorSize) :
    (chain.writeToPosition targetPos data).Ensures state
      (fun _ after => ∃ written, holds written after ∧ content.Written chain.sectorSize written
        (targetPos.sector * chain.sectorSize + targetPos.offset) data)
      fun _ after => fails ∧ ∃ touched, holds touched after ∧
        content.Touched chain.sectorSize touched
          (targetPos.sector * chain.sectorSize + targetPos.offset) data := by
  unfold writeToPosition
  by_cases aligned : targetPos.offset = 0
  · rw [if_neg (not_not_intro aligned), aligned, Nat.cast_zero, Int.add_zero]
    rw [aligned] at reaches
    exact writeMain_ensures keeps held (if_neg (not_not_intro rfl)) room one (by omega)
  · rw [if_pos aligned]
    dsimp only
    have whole : data.take (chain.sectorSize - targetPos.offset) ++
        data.drop (chain.sectorSize - targetPos.offset) = data := List.take_append_drop _ _
    have length : (data.take (chain.sectorSize - targetPos.offset)).length =
        min (chain.sectorSize - targetPos.offset) data.length := List.length_take
    refine Procedure.Ensures.bind ((modifySector_ensures keeps held _ _ _ (keeps.fits_le one room)
      (by omega)).mono (fun _ _ done => done) ?_) ?_
    · rintro - after ⟨failed, touched, holdsAfter, changed⟩
      refine ⟨failed, touched, holdsAfter, ?_⟩
      have part := changed.append (data.drop (chain.sectorSize - targetPos.offset))
      rwa [whole] at part
    · rintro - between ⟨written, held, changed⟩
      by_cases more : (data.take (chain.sectorSize - targetPos.offset)).length < data.length
      · rw [if_pos more]
        have cut : (data.take (chain.sectorSize - targetPos.offset)).length =
            chain.sectorSize - targetPos.offset := by omega
        rw [cut]
        have place : ((targetPos.sector + 1 : ℕ) : ℤ) * chain.sectorSize =
            targetPos.sector * chain.sectorSize + targetPos.offset +
              (data.take (chain.sectorSize - targetPos.offset)).length := by
          rw [cut, Nat.cast_sub offset.le]
          push_cast
          ring
        have behind : (targetPos.sector + 1) * chain.sectorSize =
            targetPos.sector * chain.sectorSize + chain.sectorSize := Nat.succ_mul _ _
        have further : targetPos.sector + 1 + 1 ≤ last := by
          refine Nat.succ_le_of_lt (Nat.lt_of_mul_lt_mul_right (a := chain.sectorSize) ?_)
          omega
        refine (writeMain_ensures keeps held (if_pos (by omega))
          (keeps.fits_grows changed.grows room) further (by omega)).mono ?_ ?_
        · rintro - after ⟨last, holdsAfter, changed'⟩
          rw [place] at changed'
          exact ⟨last, holdsAfter, whole ▸ changed.append changed'⟩
        · rintro - after ⟨failed, last, holdsAfter, changed'⟩
          rw [place] at changed'
          exact ⟨failed, last, holdsAfter, whole ▸ changed.append_touched changed'⟩
      · rw [if_neg more]
        have all : data.take (chain.sectorSize - targetPos.offset) = data :=
          List.take_of_length_le (by omega)
        rw [all] at changed
        exact ⟨written, held, changed⟩

end Chain

end JsOS.Core.Fs.Fat
