import JsOS.Core.Fs.Fat.ChainReading
import JsOS.Core.Fs.Fat.ChainWriting

/-! # Chains of given sectors

The chains of the file allocation table and of a root directory with a fixed place. Inside the
volume their sectors hold what the disk does, and the disk beside them is left alone.
-/

namespace JsOS.Core.Fs.Fat

open Framing (Bytes)

variable {vol : Vol} {firstSector numSectors : ℕ} {fails : Prop}

/-- The sectors of a chain hold a content, and the disk beside them is as it was. -/
structure SectorsHold (vol : Vol) (firstSector numSectors : ℕ) (beside : ℤ → UInt8) (fails : Prop)
    (content : Content) (disk : Disk) : Prop where
  size : content.size = numSectors
  bytes : ∀ at_ : ℤ, 0 ≤ at_ → at_ < numSectors * vol.sectorSize →
    content.bytes at_ = disk.bytes (firstSector * vol.sectorSize + at_)
  beside : ∀ at_ : ℤ, ¬(firstSector * vol.sectorSize ≤ at_ ∧
    at_ < (firstSector + numSectors) * vol.sectorSize) → disk.bytes at_ = beside at_
  faults : ¬fails → disk.faults = []

namespace SectorsHold

variable {beside : ℤ → UInt8} {content : Content} {disk after : Disk}

theorem may_fail (held : SectorsHold vol firstSector numSectors beside fails content disk)
    (faulted : disk.faults ≠ []) : fails :=
  Classical.byContradiction fun never => faulted (held.faults never)

/-- An access that writes nothing. -/
theorem unwritten (held : SectorsHold vol firstSector numSectors beside fails content disk)
    (same : after.bytes = disk.bytes) (unfaulted : disk.faults = [] → after.faults = []) :
    SectorsHold vol firstSector numSectors beside fails content after := by
  refine ⟨held.size, ?_, ?_, fun never => unfaulted (held.faults never)⟩
  · rw [same]
    exact held.bytes
  · rw [same]
    exact held.beside

/-- Data that is written on the sectors. -/
theorem write (held : SectorsHold vol firstSector numSectors beside fails content disk) {i : ℕ}
    {data : Bytes} (changed : after.bytes = Extent.write disk.bytes
      (firstSector * vol.sectorSize + i * vol.sectorSize) data)
    (inside : i * vol.sectorSize + data.length ≤ numSectors * vol.sectorSize)
    (faults : ¬fails → after.faults = []) :
    SectorsHold vol firstSector numSectors beside fails
      { content with bytes := Extent.write content.bytes (i * vol.sectorSize) data } after := by
  have inside : (i : ℤ) * vol.sectorSize + data.length ≤ numSectors * vol.sectorSize := by
    exact_mod_cast inside
  refine ⟨held.size, fun at_ natural below => ?_, fun at_ outside => ?_, faults⟩
  · rw [changed]
    have shifted := congrFun (Extent.write_shift disk.bytes (i * vol.sectorSize)
      (firstSector * vol.sectorSize) data) at_
    rw [shifted]
    dsimp only
    by_cases written : i * vol.sectorSize ≤ at_ ∧ at_ < i * vol.sectorSize + data.length
    · obtain ⟨j, rfl⟩ := Int.le.dest written.1
      rw [Extent.write_inside (by omega), Extent.write_inside (by omega)]
    · rw [Extent.write_outside written, Extent.write_outside written]
      exact held.bytes at_ natural below
  · rw [changed, Extent.write_outside, held.beside at_ outside]
    rw [add_mul] at outside
    have front : (0 : ℤ) ≤ i * vol.sectorSize := by positivity
    omega

end SectorsHold

/-- What lies on the sectors of a chain. -/
def sectorContent (vol : Vol) (firstSector numSectors : ℕ) (disk : Disk) : Content where
  size := numSectors
  bytes at_ := disk.bytes (firstSector * vol.sectorSize + at_)

theorem sectorsHold_self (disk : Disk) (faults : ¬fails → disk.faults = []) :
    SectorsHold vol firstSector numSectors disk.bytes fails
      (sectorContent vol firstSector numSectors disk) disk :=
  ⟨rfl, fun _ _ _ => rfl, fun _ _ => rfl, faults⟩

/-- The sectors hold what they did, and the disk beside them is as it was. -/
theorem SectorsHold.bytes_eq {disk after : Disk}
    (held : SectorsHold vol firstSector numSectors disk.bytes fails
      (sectorContent vol firstSector numSectors disk) after) : after.bytes = disk.bytes := by
  funext at_
  by_cases inside : firstSector * vol.sectorSize ≤ at_ ∧
      at_ < (firstSector + numSectors) * vol.sectorSize
  · have back := held.bytes (at_ - firstSector * vol.sectorSize) (by omega)
      (by rw [add_mul] at inside; omega)
    have place : (firstSector * vol.sectorSize : ℤ) + (at_ - firstSector * vol.sectorSize) =
        at_ := by omega
    rw [place] at back
    rw [← back]
    exact congrArg disk.bytes place
  · exact held.beside at_ inside

/-- A chain of sectors that can be written: it lies inside a volume that is not read-only. -/
structure Vol.Spans (vol : Vol) (firstSector numSectors : ℕ) : Prop where
  positive : 0 < vol.sectorSize
  inside : firstSector + numSectors ≤ vol.volume.numSectors
  writable : vol.ro = false

/-- **The sectors of a chain hold a content** as long as no write goes beyond their end. -/
theorem sectorChain_keeps (spans : vol.Spans firstSector numSectors) (beside : ℤ → UInt8) :
    (sectorChain vol firstSector numSectors).Keeps
      (SectorsHold vol firstSector numSectors beside fails)
      (fun content last => last ≤ content.size) fails where
  positive := spans.positive
  fits_le sooner fits := sooner.trans fits
  fits_grows grows fits := fits.trans grows
  fits_within := Nat.le_refl _
  read {content disk} i count _ held := by
    change Procedure.Ensures (if i < numSectors then _ else _) disk _ _
    by_cases inside : i < numSectors
    · rw [if_pos inside]
      refine Procedure.Ensures.bind ?_ fun dest after came => came
      have present : ((firstSector + i : ℕ) : ℤ) < vol.volume.numSectors := by
        have within := spans.inside
        omega
      unfold Vol.readSectors
      rw [if_pos present]
      refine (vol.volume.readSectors_ensures _ _ disk).mono ?_ ?_
      · rintro _ after ⟨rfl, same, unfaulted⟩
        refine ⟨held.unwritten same unfaulted, ?_, fun beyond => ?_,
          fun within => congrArg some ?_⟩
        · rintro _ ⟨⟩
          exact Extent.length_read _ _ _
        · rw [held.size] at beyond
          omega
        · have place : ((firstSector + i : ℕ) : ℤ) * vol.volume.sectorSize =
              firstSector * vol.sectorSize + i * vol.sectorSize := by
            rw [Nat.cast_add, add_mul]
            rfl
          rw [held.size] at within
          have reach := Nat.mul_le_mul_right vol.sectorSize within
          rw [add_mul] at reach
          change Extent.read disk.bytes _ (count * vol.sectorSize) =
            Extent.read content.bytes (i * vol.sectorSize) (count * vol.sectorSize)
          rw [place, Extent.read_shift]
          refine Extent.read_congr fun j below => ?_
          refine (held.bytes _ (by positivity) ?_).symm
          exact_mod_cast (by omega : i * vol.sectorSize + j < numSectors * vol.sectorSize)
      · rintro - after ⟨faulted, same⟩
        exact ⟨held.may_fail faulted, held.unwritten same fun none => absurd none faulted⟩
    · rw [if_neg inside]
      refine ⟨held, ?_, fun _ => rfl, fun within => absurd ?_ inside⟩
      · intro dest none
        cases none
      · rw [held.size] at within
        omega
  write {content disk} i count data some length held fits := by
    rw [held.size] at fits
    change Procedure.Ensures (if i < numSectors then _ else _) disk _ _
    rw [if_pos (by omega)]
    have present : ((firstSector + i : ℕ) : ℤ) < vol.volume.numSectors := by
      have within := spans.inside
      omega
    have multiple : data.length % vol.sectorSize = 0 := by
      rw [length]
      exact Nat.mul_mod_left _ _
    unfold Vol.writeSectors
    rw [if_neg (not_not_intro multiple), spans.writable, if_neg Bool.false_ne_true, if_pos present]
    have reach := Nat.mul_le_mul_right vol.sectorSize fits
    rw [add_mul] at reach
    have length : data.length = count * vol.sectorSize := length
    have place : ((firstSector + i : ℕ) : ℤ) * vol.volume.sectorSize =
        firstSector * vol.sectorSize + i * vol.sectorSize := by
      rw [Nat.cast_add, add_mul]
      rfl
    refine (vol.volume.writeSectors_ensures _ _ disk).mono ?_ ?_
    · rintro - after ⟨changed, unfaulted⟩
      rw [place] at changed
      refine ⟨_, held.write changed (by omega) fun holds => unfaulted (held.faults holds),
        ⟨Nat.le_refl _, ?_, fun _ _ _ => rfl⟩⟩
      rw [held.size]
      change (i : ℤ) * vol.sectorSize + data.length ≤ numSectors * vol.sectorSize
      exact_mod_cast (by omega : i * vol.sectorSize + data.length ≤ numSectors * vol.sectorSize)
    · rintro - after ⟨faulted, sectors, changed⟩
      rw [place] at changed
      have short := List.length_take_le' (sectors * vol.volume.sectorSize) data
      refine ⟨held.may_fail faulted, _, held.write changed (by omega) fun holds =>
        absurd (held.faults holds) faulted, ?_⟩
      have part := @Content.Touched.append vol.sectorSize content
        ⟨content.size, Extent.write content.bytes (i * vol.sectorSize)
          (data.take (sectors * vol.volume.sectorSize))⟩ _ _
        ⟨Nat.le_refl _, fun _ _ _ => .inr rfl⟩ (data.drop (sectors * vol.volume.sectorSize))
      rwa [List.take_append_drop] at part

/-! ## Writes inside a sector -/

/-- A write that stays in its sector modifies this sector. -/
theorem Chain.writeToPosition_within {State : Type} {chain : Chain State} {targetPos : Position}
    {data : Bytes} (fit : targetPos.offset + data.length ≤ chain.sectorSize)
    (less : data.length < chain.sectorSize) :
    chain.writeToPosition targetPos data =
      chain.modifySector targetPos.sector targetPos.offset data := by
  unfold writeToPosition
  by_cases aligned : targetPos.offset = 0
  · rw [if_neg (not_not_intro aligned), aligned]
    unfold writeMain
    dsimp only
    rw [Nat.sub_zero, Nat.mod_eq_of_lt less, Nat.sub_self, List.take_zero,
      if_neg (not_not_intro List.length_nil), List.length_nil, Nat.zero_div, Nat.add_zero,
      if_neg (not_not_intro rfl), List.drop_zero]
  · rw [if_pos aligned]
    dsimp only
    rw [List.take_of_length_le (by omega), if_neg (Nat.lt_irrefl _)]
    exact Procedure.bind_done _

/-- A sector that is modified is written as a whole or not at all. -/
theorem sectorChain_modifySector_ensures (spans : vol.Spans firstSector numSectors)
    {sec off : ℕ} {data : Bytes} (inside : sec < numSectors)
    (fit : off + data.length ≤ vol.sectorSize) (some : data ≠ []) (disk : Disk) :
    ((sectorChain vol firstSector numSectors).modifySector sec off data).Ensures disk
      (fun _ after => after.bytes = Extent.write disk.bytes
          (firstSector * vol.sectorSize + sec * vol.sectorSize + off) data ∧
        (disk.faults = [] → after.faults = []))
      fun _ after => disk.faults ≠ [] ∧ (after.bytes = disk.bytes ∨
        after.bytes = Extent.write disk.bytes
          (firstSector * vol.sectorSize + sec * vol.sectorSize + off) data) := by
  have present : ((firstSector + sec : ℕ) : ℤ) < vol.volume.numSectors := by
    have within := spans.inside
    omega
  have place : ((firstSector + sec : ℕ) : ℤ) * vol.volume.sectorSize =
      firstSector * vol.sectorSize + sec * vol.sectorSize := by
    rw [Nat.cast_add, add_mul]
    rfl
  have nonempty := List.length_pos_iff.mpr some
  unfold Chain.modifySector
  refine Procedure.Ensures.bind (?_ : Procedure.Ensures _ disk (fun orig (after : Disk) =>
    orig = Option.some (Extent.read disk.bytes
        (firstSector * vol.sectorSize + sec * vol.sectorSize) vol.sectorSize) ∧
      after.bytes = disk.bytes ∧ (disk.faults = [] → after.faults = [])) _) ?_
  · change Procedure.Ensures (if sec < numSectors then _ else _) disk _ _
    rw [if_pos inside]
    refine Procedure.Ensures.bind ?_ fun dest after came => came
    unfold Vol.readSectors
    rw [if_pos present]
    refine (vol.volume.readSectors_ensures _ _ disk).mono ?_ ?_
    · rintro _ after ⟨rfl, same, unfaulted⟩
      rw [place]
      exact ⟨rfl, same, unfaulted⟩
    · rintro - after ⟨faulted, same⟩
      exact ⟨faulted, .inl same⟩
  · rintro _ between ⟨rfl, same, unfaulted⟩
    have filled : copy data (Extent.read disk.bytes
        (firstSector * vol.sectorSize + sec * vol.sectorSize) vol.sectorSize) off 0 data.length =
        .ok (Buffer.store (Extent.read disk.bytes
          (firstSector * vol.sectorSize + sec * vol.sectorSize) vol.sectorSize) off data) := by
      have part := @Chain.copy_part data (Extent.read disk.bytes
        (firstSector * vol.sectorSize + sec * vol.sectorSize) vol.sectorSize) off 0 data.length
        nonempty (by rwa [Extent.length_read])
      rwa [Nat.zero_add, List.drop_zero, List.take_length] at part
    rw [Option.getD_some, filled]
    change Procedure.Ensures (if sec < numSectors then _ else _) between _ _
    rw [if_pos inside]
    have length : (Buffer.store (Extent.read disk.bytes
        (firstSector * vol.sectorSize + sec * vol.sectorSize) vol.sectorSize) off data).length =
        vol.sectorSize := by
      rw [Buffer.length_store, Extent.length_read]
    have whole : Extent.write disk.bytes (firstSector * vol.sectorSize + sec * vol.sectorSize)
        (Buffer.store (Extent.read disk.bytes
          (firstSector * vol.sectorSize + sec * vol.sectorSize) vol.sectorSize) off data) =
        Extent.write disk.bytes (firstSector * vol.sectorSize + sec * vol.sectorSize + off) data :=
      Extent.write_store_read _ _ _ _ _ fit
    unfold Vol.writeSectors
    rw [length, if_neg (not_not_intro (Nat.mod_self _)), spans.writable,
      if_neg Bool.false_ne_true, if_pos present]
    refine (vol.volume.writeSectors_ensures _ _ between).mono ?_ ?_
    · rintro - after ⟨changed, unfaulted'⟩
      rw [changed, same, place, whole]
      exact ⟨rfl, fun none => unfaulted' (unfaulted none)⟩
    · rintro - after ⟨faulted, sectors, changed⟩
      refine ⟨fun none => faulted (unfaulted none), ?_⟩
      rw [changed, same, place]
      cases sectors with
      | zero =>
          left
          rw [Nat.zero_mul, List.take_zero, Extent.write_nil]
      | succ sectors =>
          right
          have all : vol.sectorSize ≤ (sectors + 1) * vol.volume.sectorSize :=
            Nat.le_mul_of_pos_left _ (Nat.succ_pos sectors)
          rw [List.take_of_length_le (by rwa [length]), whole]

/-! ## What is read -/

section Reading

variable {targetPos : Position} {off length : ℕ} {disk : Disk} {buffer : Bytes}

/-- What lies on the sectors is read where they lie. -/
theorem read_sectorContent (disk : Disk) (off length : ℕ) :
    Extent.read (sectorContent vol firstSector numSectors disk).bytes (off : ℕ) length =
      Extent.read disk.bytes (firstSector * vol.sectorSize + off) length :=
  (Extent.read_shift _ _ _ _).symm

/-- An undivided read gives what lies on the sectors. -/
theorem sectorChain_read_undivided (spans : vol.Spans firstSector numSectors)
    (unfaulted : disk.faults = []) (offset : targetPos.offset < vol.sectorSize)
    (place : targetPos.sector * vol.sectorSize + targetPos.offset = off)
    (present : off + buffer.length ≤ numSectors * vol.sectorSize)
    (undivided : Chain.Undivided vol.sectorSize targetPos.offset buffer.length) :
    ((sectorChain vol firstSector numSectors).readFromPosition targetPos buffer disk).1 =
      .ok ((buffer.length : ℤ),
        Extent.read disk.bytes (firstSector * vol.sectorSize + off) buffer.length) := by
  rw [← place] at present ⊢
  have held : SectorsHold vol firstSector numSectors disk.bytes False
      (sectorContent vol firstSector numSectors disk) disk :=
    sectorsHold_self disk fun _ => unfaulted
  have reads := Chain.readFromPosition_ensures (sectorChain_keeps spans disk.bytes) held offset
    undivided present
  obtain ⟨value, after, ends, -, rfl⟩ := reads.exists_ok fun _ _ never => never.1
  rw [ends, ← read_sectorContent]
  rfl

/-- A disk with zeros but for one byte. -/
def oneByte (place : ℤ) : Disk where
  bytes at_ := if at_ = place then 1 else 0
  faults := []

/-- A divided read does not tell the first byte of the next sector from other bytes. -/
theorem misplaced_ne {sectorSize offset length : ℕ} {contents : ℤ → UInt8} {next : ℤ}
    (divided : ¬Chain.Undivided sectorSize offset length) (inside : offset < sectorSize)
    (fit : offset ≤ length) (starts : next = off - offset + sectorSize)
    (one : ∀ at_, contents at_ = if at_ = next then 1 else 0) :
    Chain.misplaced sectorSize contents off offset (List.replicate length 0) ≠
      Extent.read contents off length := by
  unfold Chain.Undivided at divided
  intro same
  have front : (Extent.read contents off (sectorSize - offset) ++
      (List.replicate length (0 : UInt8)).drop (sectorSize - offset)).length = length := by
    rw [List.length_append, Extent.length_read, List.length_drop, List.length_replicate]
    omega
  by_cases early : 2 * offset < sectorSize
  · -- the next sector has been read in front of where it belongs
    have both := congrArg (·[offset]?) same
    dsimp only [Chain.misplaced] at both
    rw [List.getElem?_append_right (by rw [List.length_take]; omega), List.length_take, front,
      List.length_replicate, Nat.min_eq_left fit, Nat.sub_self, Extent.getElem?_read (by omega),
      Extent.getElem?_read (by omega), one, one, if_pos (by omega),
      if_neg (by omega)] at both
    cases both
  · -- the buffer has not been written where the next sector belongs
    have both := congrArg (·[sectorSize - offset]?) same
    dsimp only [Chain.misplaced] at both
    rw [List.getElem?_append_left (by rw [List.length_take]; omega),
      List.getElem?_take_of_lt (by omega),
      List.getElem?_append_right (by rw [Extent.length_read]), Extent.length_read, Nat.sub_self,
      List.getElem?_drop, List.getElem?_replicate, if_pos (by omega),
      Extent.getElem?_read (by omega), one, if_pos (by omega)] at both
    cases both

/-- A divided read does not always give what lies on the sectors. -/
theorem sectorChain_read_divided (spans : vol.Spans firstSector numSectors)
    (offset : targetPos.offset < vol.sectorSize)
    (place : targetPos.sector * vol.sectorSize + targetPos.offset = off)
    (present : off + length ≤ numSectors * vol.sectorSize)
    (divided : ¬Chain.Undivided vol.sectorSize targetPos.offset length) :
    ∃ (disk : Disk) (buffer : Bytes), disk.faults = [] ∧ buffer.length = length ∧
      ((sectorChain vol firstSector numSectors).readFromPosition targetPos buffer disk).1 ≠
        .ok ((length : ℤ),
          Extent.read disk.bytes (firstSector * vol.sectorSize + off) length) := by
  have split := divided
  unfold Chain.Undivided at split
  generalize at_next : oneByte (firstSector * vol.sectorSize +
    (off - targetPos.offset + vol.sectorSize)) = disk
  have unfaulted : disk.faults = [] := by rw [← at_next]; rfl
  have held : SectorsHold vol firstSector numSectors disk.bytes False
      (sectorContent vol firstSector numSectors disk) disk :=
    sectorsHold_self disk fun _ => unfaulted
  have keeps : (sectorChain vol firstSector numSectors).Keeps
      (SectorsHold vol firstSector numSectors disk.bytes False)
      (fun content last => last ≤ content.size) False := sectorChain_keeps spans disk.bytes
  refine ⟨disk, List.replicate length 0, unfaulted, List.length_replicate, fun exact_ => ?_⟩
  have next : targetPos.sector + 1 + 1 ≤ numSectors := by
    refine Nat.succ_le_of_lt (Nat.lt_of_mul_lt_mul_right (a := vol.sectorSize) ?_)
    rw [Nat.succ_mul]
    omega
  by_cases fit : targetPos.offset ≤ length
  · have reads := Chain.readFromPosition_misplaced keeps held targetPos
      (List.replicate length 0) (by omega) offset
      (by rw [List.length_replicate]; change vol.sectorSize < _; omega)
      (by rwa [List.length_replicate]) (by
        rw [List.length_replicate]
        exact place ▸ present)
    have came := (reads.of_ok (Prod.ext exact_ rfl)).2.1 (congrArg Nat.cast
      List.length_replicate.symm)
    have one (at_ : ℤ) : (sectorContent vol firstSector numSectors disk).bytes at_ =
        if at_ = off - targetPos.offset + vol.sectorSize then 1 else 0 := by
      rw [← at_next]
      exact if_congr (Int.add_right_inj _) rfl rfl
    change Extent.read disk.bytes (firstSector * vol.sectorSize + off) length =
      Chain.misplaced vol.sectorSize (sectorContent vol firstSector numSectors disk).bytes
        (targetPos.sector * vol.sectorSize + targetPos.offset) targetPos.offset
        (List.replicate length 0) at came
    rw [place, ← @read_sectorContent vol firstSector numSectors] at came
    exact misplaced_ne divided offset fit rfl one came.symm
  · have reads := Chain.readFromPosition_fails keeps held targetPos
      (List.replicate length 0) offset
      (by rw [List.length_replicate]; change vol.sectorSize < _; omega)
      (by rw [List.length_replicate]; omega) next
    exact reads.of_ok (Prod.ext exact_ rfl)

/-- **Which reads are exact**: those that are cut off in the right length. Any other gives other
bytes than those at the position for some content of the sectors, or fails. -/
theorem sectorChain_read_exact_iff (spans : vol.Spans firstSector numSectors)
    (present : off + length ≤ numSectors * vol.sectorSize) :
    (∀ (disk : Disk) (buffer : Bytes), disk.faults = [] → buffer.length = length →
      ((sectorChain vol firstSector numSectors).readFromPosition
        (posFromOffset vol.sectorSize off) buffer disk).1 =
          .ok ((length : ℤ),
            Extent.read disk.bytes (firstSector * vol.sectorSize + off) length)) ↔
      Chain.Undivided vol.sectorSize (off % vol.sectorSize) length := by
  have offset := posFromOffset_lt spans.positive off
  have place := posFromOffset_eq spans.positive off
  constructor
  · intro exact_
    by_contra divided
    obtain ⟨disk, buffer, unfaulted, same, wrong⟩ :=
      sectorChain_read_divided spans offset place present divided
    exact wrong (exact_ disk buffer unfaulted same)
  · rintro undivided disk buffer unfaulted rfl
    exact sectorChain_read_undivided spans unfaulted offset place present undivided

/-- The second entry of a floppy's table that lies in two sectors cannot be read. -/
theorem sectorChain_read_exact_iff_floppy :
    ¬∀ (disk : Disk) (buffer : Bytes), disk.faults = [] → buffer.length = 3 →
      ((sectorChain floppy 1 9).readFromPosition (posFromOffset floppy.sectorSize 1023) buffer
        disk).1 =
          .ok (((3 : ℕ) : ℤ),
            Extent.read disk.bytes (((1 : ℕ) : ℤ) * floppy.sectorSize + (1023 : ℕ)) 3) := by
  have spans : floppy.Spans 1 9 := ⟨by decide, by decide, rfl⟩
  rw [sectorChain_read_exact_iff spans (by decide)]
  decide

end Reading

end JsOS.Core.Fs.Fat
