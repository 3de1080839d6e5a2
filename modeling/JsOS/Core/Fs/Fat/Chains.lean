import JsOS.Core.Fs.Fat.Volume
import JsOS.Library.Buffer

/-! # Chains of sectors

`_baseChain` reads and writes at any position, with a method of the chain that reads whole sectors
and one that writes them: what does not begin or end with a sector is cut off, and the sector that
it lies in is read or modified on its own. What a chain needs of its methods is `Chain.Keeps`: the
sectors hold a content.
-/

namespace JsOS.Core.Fs.Fat

open Framing (Bytes)
open Procedure (fail ofExcept)

/-- `targetPos`. -/
structure Position where
  sector : ℕ
  offset : ℕ
  deriving DecidableEq, Repr

/-- `posFromOffset`. -/
def posFromOffset (secSize off : ℕ) : Position where
  sector := (off - off % secSize) / secSize
  offset := off % secSize

/-- The position of an offset lies inside its sector. -/
theorem posFromOffset_lt {secSize : ℕ} (positive : 0 < secSize) (off : ℕ) :
    (posFromOffset secSize off).offset < secSize := Nat.mod_lt _ positive

theorem posFromOffset_eq {secSize : ℕ} (positive : 0 < secSize) (off : ℕ) :
    (posFromOffset secSize off).sector * secSize + (posFromOffset secSize off).offset = off := by
  unfold posFromOffset
  have division := Nat.div_add_mod' off secSize
  have whole : off - off % secSize = off / secSize * secSize := by omega
  dsimp only
  rw [whole, Nat.mul_div_cancel _ positive]
  exact division

/-! ## Buffers -/

/-- An index of `slice`, which counts from the end if it is negative. -/
def sliceIndex (length : ℕ) (index : ℤ) : ℕ :=
  if index < 0 then (length + index).toNat else min index.toNat length

/-- Where a slice begins, and how long it is. -/
def sliceBounds (length : ℕ) (start stop : ℤ) : ℕ × ℕ :=
  (sliceIndex length start, sliceIndex length stop - sliceIndex length start)

/-- `source.copy(target, targetStart, start, end)`. -/
def copy (source target : Bytes) (targetStart start : ℕ) (stop : ℤ) : Except Failure Bytes :=
  if stop = start ∨ (0 < stop ∧ stop < start) ∨ target = [] ∨ source = [] then .ok target
  else if source.length ≤ start then .error .sourceStart
  else if stop < 0 then .error .sourceEnd
  else .ok (Buffer.store target targetStart ((source.drop start).take (stop.toNat - start)))

/-! ## The base chain -/

/-- A chain: its methods for whole sectors. A read ends with `none` past the end. -/
structure Chain (State : Type) where
  sectorSize : ℕ
  readSectors : ℕ → ℕ → Procedure State Failure (Option Bytes)
  writeSectors : ℕ → Bytes → Procedure State Failure Unit

namespace Chain

variable {State : Type} (chain : Chain State)

/-- `readTrailer`. -/
def readTrailer (trailerSector : ℕ) (trailerLen : ℤ) (buffer : Bytes) :
    Procedure State Failure (ℤ × Bytes) := do
  match ← chain.readSectors trailerSector chain.sectorSize with
  | none => pure (buffer.length - trailerLen, buffer)
  | some d =>
      let filled ← ofExcept (copy d buffer (buffer.length - trailerLen).toNat 0 trailerLen)
      pure (filled.length, filled)

/-- `readMain`. -/
def readMain (targetPos : Position) (buffer : Bytes) : Procedure State Failure (ℤ × Bytes) := do
  let prefaceLen := targetPos.offset
  let trailerLen := ((buffer.length : ℤ) - prefaceLen).tmod chain.sectorSize
  let mainSector := if prefaceLen ≠ 0 then targetPos.sector + 1 else targetPos.sector
  let main := sliceBounds buffer.length prefaceLen
    (if trailerLen ≠ 0 then -trailerLen else buffer.length)
  let trailerSector := mainSector + main.2 / chain.sectorSize
  if main.2 ≠ 0 then
    match ← chain.readSectors mainSector main.2 with
    | none => pure ((prefaceLen : ℤ), buffer)
    | some d =>
        let filled := Buffer.store buffer main.1 d
        if trailerLen = 0 then pure ((filled.length : ℤ), filled)
        else chain.readTrailer trailerSector trailerLen filled
  else chain.readTrailer trailerSector trailerLen buffer

/-- `readFromPosition`: how many bytes it says it has read, and the buffer. -/
def readFromPosition (targetPos : Position) (buffer : Bytes) :
    Procedure State Failure (ℤ × Bytes) := do
  if targetPos.offset ≠ 0 then
    match ← chain.readSectors targetPos.sector chain.sectorSize with
    | none => pure ((0 : ℤ), buffer)
    | some d =>
        let dBeg := targetPos.offset
        let dEnd := dBeg + buffer.length
        let filled ← ofExcept (copy d buffer 0 dBeg dEnd)
        if dEnd > d.length then chain.readMain targetPos filled
        else pure ((filled.length : ℤ), filled)
  else chain.readMain targetPos buffer

/-- `_modifySector`. -/
def modifySector (sec off : ℕ) (data : Bytes) : Procedure State Failure Unit := do
  let orig ← chain.readSectors sec chain.sectorSize
  let modified ← ofExcept
    (copy data (orig.getD (List.replicate chain.sectorSize 0)) off 0 data.length)
  chain.writeSectors sec modified

/-- `writeMain`, with the length of the preface. -/
def writeMain (targetPos : Position) (prefaceLen : ℕ) (data : Bytes) :
    Procedure State Failure Unit := do
  let trailerLen := (data.length - prefaceLen) % chain.sectorSize
  let mainSector := if prefaceLen ≠ 0 then targetPos.sector + 1 else targetPos.sector
  let mainBuffer := (data.drop prefaceLen).take (data.length - prefaceLen - trailerLen)
  let trailerSector := mainSector + mainBuffer.length / chain.sectorSize
  let trailerBuffer := data.drop (data.length - trailerLen)
  if mainBuffer.length ≠ 0 then do
    chain.writeSectors mainSector mainBuffer
    if trailerLen = 0 then pure () else chain.modifySector trailerSector 0 trailerBuffer
  else chain.modifySector trailerSector 0 trailerBuffer

/-- `writeToPosition`. -/
def writeToPosition (targetPos : Position) (data : Bytes) : Procedure State Failure Unit := do
  if targetPos.offset ≠ 0 then
    let prefaceBuffer := data.take (chain.sectorSize - targetPos.offset)
    chain.modifySector targetPos.sector targetPos.offset prefaceBuffer
    if prefaceBuffer.length < data.length then
      chain.writeMain targetPos prefaceBuffer.length data
    else pure ()
  else chain.writeMain targetPos 0 data

end Chain

/-! ## What the sectors hold -/

/-- What the sectors of a chain hold: their number, and the bytes by position. -/
structure Content where
  size : ℕ
  bytes : ℤ → UInt8

namespace Content

/-- Data has been written at a position: the content may have grown, and what it held before is as
it was but for the data. -/
structure Written (sectorSize : ℕ) (before after : Content) (place : ℤ) (data : Bytes) :
    Prop where
  grows : before.size ≤ after.size
  reaches : place + data.length ≤ after.size * sectorSize
  bytes : ∀ at_ : ℤ, 0 ≤ at_ →
    at_ < before.size * sectorSize ∨ (place ≤ at_ ∧ at_ < place + data.length) →
      after.bytes at_ = Extent.write before.bytes place data at_

/-- Data may have been written, or a part of it: each byte is the one from before or the one that
should be there. -/
structure Touched (sectorSize : ℕ) (before after : Content) (place : ℤ) (data : Bytes) :
    Prop where
  grows : before.size ≤ after.size
  bytes : ∀ at_ : ℤ, 0 ≤ at_ → at_ < before.size * sectorSize →
    after.bytes at_ = before.bytes at_ ∨
      after.bytes at_ = Extent.write before.bytes place data at_

variable {sectorSize : ℕ} {before between after : Content} {place : ℤ} {data first second : Bytes}

theorem Touched.refl (content : Content) (place : ℤ) (data : Bytes) :
    Touched sectorSize content content place data :=
  ⟨Nat.le_refl _, fun _ _ _ => .inl rfl⟩

theorem Written.touched (written : Written sectorSize before after place data) :
    Touched sectorSize before after place data :=
  ⟨written.grows, fun at_ natural inside => .inr (written.bytes at_ natural (.inl inside))⟩

/-- What was there is as it was beside the data. -/
theorem Touched.outside (touched : Touched sectorSize before after place data) {at_ : ℤ}
    (natural : 0 ≤ at_) (inside : at_ < before.size * sectorSize)
    (beside : ¬(place ≤ at_ ∧ at_ < place + data.length)) : after.bytes at_ = before.bytes at_ := by
  obtain same | same := touched.bytes at_ natural inside
  · exact same
  · rw [same, Extent.write_outside beside]

/-- The data is there. -/
theorem Written.read (written : Written sectorSize before after place data) (natural : 0 ≤ place) :
    Extent.read after.bytes place data.length = data := by
  rw [← Extent.read_write before.bytes place data, Extent.length_read]
  exact Extent.read_congr fun i inside => written.bytes _ (by omega) (.inr (by omega))

/-- **Data is written in pieces.** -/
theorem Written.append (one : Written sectorSize before between place first)
    (two : Written sectorSize between after (place + first.length) second) :
    Written sectorSize before after place (first ++ second) := by
  refine ⟨one.grows.trans two.grows, ?_, fun at_ natural inside => ?_⟩
  · have reaches := two.reaches
    rw [List.length_append]
    omega
  · rw [List.length_append] at inside
    have reaches := one.reaches
    have grown : (before.size : ℤ) * sectorSize ≤ between.size * sectorSize := by
      exact_mod_cast Nat.mul_le_mul_right sectorSize one.grows
    rw [Extent.write_append, two.bytes at_ natural (by omega)]
    by_cases behind : place + first.length ≤ at_ ∧ at_ < place + first.length + second.length
    · obtain ⟨i, rfl⟩ := Int.le.dest behind.1
      rw [Extent.write_inside (by omega), Extent.write_inside (by omega)]
    · rw [Extent.write_outside behind, Extent.write_outside behind]
      exact one.bytes at_ natural (by omega)

/-- It does not matter where nothing is written. -/
theorem Written.nil (written : Written sectorSize before after place []) {place' : ℤ}
    (reaches : place' ≤ after.size * sectorSize) :
    Written sectorSize before after place' [] := by
  refine ⟨written.grows, ?_, fun at_ natural inside => ?_⟩
  · simpa using reaches
  · have there : at_ < before.size * sectorSize := by
      simp only [List.length_nil, Nat.cast_zero, add_zero] at inside
      omega
    have same := written.bytes at_ natural (.inl there)
    rwa [Extent.write_nil] at same ⊢

theorem Touched.nil (touched : Touched sectorSize before after place []) {place' : ℤ} :
    Touched sectorSize before after place' [] := by
  refine ⟨touched.grows, fun at_ natural inside => ?_⟩
  have same := touched.bytes at_ natural inside
  rwa [Extent.write_nil] at same ⊢

/-- A content that has grown first. -/
theorem Written.grown (written : Written sectorSize between after place data)
    (grows : before.size ≤ between.size)
    (same : ∀ at_ : ℤ, 0 ≤ at_ → at_ < before.size * sectorSize →
      between.bytes at_ = before.bytes at_) : Written sectorSize before after place data := by
  have grown : (before.size : ℤ) * sectorSize ≤ between.size * sectorSize := by
    exact_mod_cast Nat.mul_le_mul_right sectorSize grows
  refine ⟨grows.trans written.grows, written.reaches, fun at_ natural inside => ?_⟩
  rw [written.bytes at_ natural (inside.imp_left fun below => below.trans_le grown)]
  by_cases own : place ≤ at_ ∧ at_ < place + data.length
  · obtain ⟨i, rfl⟩ := Int.le.dest own.1
    rw [Extent.write_inside (by omega), Extent.write_inside (by omega)]
  · rw [Extent.write_outside own, Extent.write_outside own]
    exact same at_ natural (inside.resolve_right own)

theorem Touched.grown (touched : Touched sectorSize between after place data)
    (grows : before.size ≤ between.size)
    (same : ∀ at_ : ℤ, 0 ≤ at_ → at_ < before.size * sectorSize →
      between.bytes at_ = before.bytes at_) : Touched sectorSize before after place data := by
  have grown : (before.size : ℤ) * sectorSize ≤ between.size * sectorSize := by
    exact_mod_cast Nat.mul_le_mul_right sectorSize grows
  refine ⟨grows.trans touched.grows, fun at_ natural inside => ?_⟩
  have old := same at_ natural inside
  by_cases own : place ≤ at_ ∧ at_ < place + data.length
  · obtain kept | changed := touched.bytes at_ natural (inside.trans_le grown)
    · exact .inl (kept.trans old)
    · right
      rw [changed]
      obtain ⟨i, rfl⟩ := Int.le.dest own.1
      rw [Extent.write_inside (by omega), Extent.write_inside (by omega)]
  · exact .inl ((touched.outside natural (inside.trans_le grown) own).trans old)

/-- What comes before a part that failed has been written. -/
theorem Written.append_touched (one : Written sectorSize before between place first)
    (two : Touched sectorSize between after (place + first.length) second) :
    Touched sectorSize before after place (first ++ second) := by
  refine ⟨one.grows.trans two.grows, fun at_ natural inside => ?_⟩
  have grown : (before.size : ℤ) * sectorSize ≤ between.size * sectorSize := by
    exact_mod_cast Nat.mul_le_mul_right sectorSize one.grows
  have earlier := one.bytes at_ natural (.inl inside)
  rw [Extent.write_append]
  by_cases behind : place + first.length ≤ at_ ∧ at_ < place + first.length + second.length
  · have ahead : ¬(place ≤ at_ ∧ at_ < place + first.length) := by omega
    rw [Extent.write_outside ahead] at earlier
    obtain ⟨i, rfl⟩ := Int.le.dest behind.1
    obtain same | same := two.bytes _ natural (by omega)
    · exact .inl (same.trans earlier)
    · right
      rw [same, Extent.write_inside (by omega), Extent.write_inside (by omega)]
  · rw [Extent.write_outside behind, two.outside natural (by omega) behind]
    exact .inr earlier

/-- Two parts that may have been written are one. -/
theorem Touched.append_touched (one : Touched sectorSize before between place first)
    (two : Touched sectorSize between after (place + first.length) second) :
    Touched sectorSize before after place (first ++ second) := by
  refine ⟨one.grows.trans two.grows, fun at_ natural inside => ?_⟩
  have grown : (before.size : ℤ) * sectorSize ≤ between.size * sectorSize := by
    exact_mod_cast Nat.mul_le_mul_right sectorSize one.grows
  rw [Extent.write_append]
  by_cases behind : place + first.length ≤ at_ ∧ at_ < place + first.length + second.length
  · have same := one.outside natural inside (by omega)
    obtain ⟨i, rfl⟩ := Int.le.dest behind.1
    obtain kept | written := two.bytes _ natural (by omega)
    · exact .inl (kept.trans same)
    · right
      rw [written, Extent.write_inside (by omega), Extent.write_inside (by omega)]
  · rw [Extent.write_outside behind, two.outside natural (by omega) behind]
    exact one.bytes at_ natural inside

/-- A part that failed is a part of the whole. -/
theorem Touched.append (touched : Touched sectorSize before after place first) (rest : Bytes) :
    Touched sectorSize before after place (first ++ rest) := by
  refine ⟨touched.grows, fun at_ natural inside => ?_⟩
  obtain same | same := touched.bytes at_ natural inside
  · exact .inl same
  · rw [same, Extent.write_append]
    by_cases behind : place + first.length ≤ at_
    · left
      exact Extent.write_outside (by omega)
    · right
      have ahead : ¬(place + first.length ≤ at_ ∧ at_ < place + first.length + rest.length) := by
        omega
      rw [Extent.write_outside ahead]

end Content

namespace Chain

variable {State : Type} {chain : Chain State}

/-- **The sectors of a chain hold a content.** Reading whole sectors gives what they hold, if they
are there; writing them changes them, or fails somewhere in between if anything can fail. Which
sectors may be written is for the chain to say (`fits`), those that are there always may. -/
structure Keeps (chain : Chain State) (holds : Content → State → Prop)
    (fits : Content → ℕ → Prop) (fails : Prop) : Prop where
  positive : 0 < chain.sectorSize
  fits_le {content : Content} {last sooner : ℕ} :
    sooner ≤ last → fits content last → fits content sooner
  fits_grows {content content' : Content} {last : ℕ} :
    content.size ≤ content'.size → fits content last → fits content' last
  fits_within {content : Content} : fits content content.size
  read {content : Content} {state : State} (i count : ℕ) :
    0 < count → holds content state →
      (chain.readSectors i (count * chain.sectorSize)).Ensures state
        (fun d after => holds content after ∧
          (∀ dest, d = some dest → dest.length = count * chain.sectorSize) ∧
          (content.size ≤ i → d = none) ∧
          (i + count ≤ content.size →
            d = some (Extent.read content.bytes (i * chain.sectorSize)
              (count * chain.sectorSize))))
        fun _ after => fails ∧ holds content after
  write {content : Content} {state : State} (i count : ℕ) (data : Bytes) :
    0 < count → data.length = count * chain.sectorSize → holds content state →
      fits content (i + count) →
        (chain.writeSectors i data).Ensures state
          (fun _ after => ∃ written, holds written after ∧
            content.Written chain.sectorSize written (i * chain.sectorSize) data)
          fun _ after => fails ∧ ∃ touched, holds touched after ∧
            content.Touched chain.sectorSize touched (i * chain.sectorSize) data

end Chain

/-! ## Sector chains -/

/-- `sectorChain`: only the first sector is compared with the end. -/
def sectorChain (vol : Vol) (firstSector numSectors : ℕ) : Chain Disk where
  sectorSize := vol.sectorSize
  readSectors i length :=
    if i < numSectors then do
      let dest ← vol.readSectors (firstSector + i : ℕ) length
      pure (some dest)
    else pure none
  writeSectors i data :=
    if i < numSectors then vol.writeSectors (firstSector + i : ℕ) data
    else fail (.err .nospc)

end JsOS.Core.Fs.Fat
