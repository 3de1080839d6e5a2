import JsOS.Core.Fs.Fat.Table

/-! # What the operations do to the table

On a sound volume (`Vol.Sound`) fetching a status gives the number of its entry, storing one changes
this number and no other, and allocating marks the first free cluster. An entry of 12 bits is
written together with the one beside it, which is lost if reading it has failed; so the statements
about stores ask for a device that does not fail, or for wider entries (`Vol.Steady`).
-/

namespace JsOS.Core.Fs.Fat

open Framing (Bytes)

namespace Vol

variable (vol : Vol)

/-- Where the entry of a cluster begins. -/
def entryPlace (n : ℕ) : ℤ := (vol.resvdSecCnt * vol.sectorSize + vol.fatOffset n : ℕ)

/-- The number in the entry of a cluster. -/
def entry (contents : ℤ → UInt8) (n : ℕ) : ℕ :=
  vol.fatType.valueFromBytes n (Extent.read contents (vol.entryPlace n) vol.fatType.entrySize)

/-- The entry of a cluster lies in one sector. -/
def Whole (n : ℕ) : Prop :=
  vol.fatOffset n % vol.sectorSize + vol.fatType.entrySize ≤ vol.sectorSize

instance (n : ℕ) : Decidable (vol.Whole n) := inferInstanceAs (Decidable (_ ≤ _))

/-- **A store**: one number of the table changes, and the bytes beside its entry do not. -/
structure Stores (before after : ℤ → UInt8) (n status : ℕ) : Prop where
  entry : vol.entry after n = status
  others : ∀ m ≠ n, vol.entry after m = vol.entry before m
  beside : ∀ at_, ¬(vol.entryPlace n ≤ at_ ∧ at_ < vol.entryPlace n + vol.fatType.entrySize) →
    after at_ = before at_

/-- **A sound volume**: the table has an entry for every cluster that may be allocated and lies
before the data, the numbers of the clusters are read back as such, and the clusters are on the
device, which can be written. -/
structure Sound (vol : Vol) : Prop where
  wide : 8 ≤ vol.sectorSize
  words : 4 ∣ vol.sectorSize
  spans : vol.Spans vol.resvdSecCnt vol.fatSz
  covers : ∀ n : ℕ, (n : ℤ) < vol.countofClusters →
    vol.fatOffset n + vol.fatType.entrySize ≤ vol.fatSz * vol.sectorSize
  names : vol.countofClusters ≤ vol.fatType.fatPrefix + 0xF1
  apart : vol.resvdSecCnt + vol.fatSz ≤ vol.firstDataSector
  clusters : 0 < vol.sectorsPerCluster
  inside : vol.firstDataSector + vol.countofClusters * vol.sectorsPerCluster ≤
    vol.volume.numSectors

/-- The device does not fail, or an entry has its bytes to itself. -/
def Steady (disk : Disk) : Prop := vol.fatType = .fat12 → disk.faults = []

variable {vol} {before after : ℤ → UInt8} {n m status : ℕ} {disk : Disk}

/-- A floppy disk is sound. -/
theorem sound_floppy : floppy.Sound where
  wide := by decide
  words := by decide
  spans := ⟨by decide, by decide, rfl⟩
  covers n below := by
    change (n : ℤ) < 2847 at below
    change (if FatType.fat12 = .fat12 then n / 2 * 3 else n * 3) + 3 ≤ 9 * 512
    rw [if_pos rfl]
    omega
  names := by decide
  apart := by decide
  clusters := by decide
  inside := by decide

theorem fatOffset_apart (other : m ≠ n) :
    vol.fatOffset m + vol.fatType.entrySize ≤ vol.fatOffset n ∨
      vol.fatOffset n + vol.fatType.entrySize ≤ vol.fatOffset m ∨
      vol.fatType = .fat12 ∧ vol.fatOffset m = vol.fatOffset n ∧ m % 2 ≠ n % 2 := by
  unfold fatOffset
  by_cases twelve : vol.fatType = .fat12
  · have size : vol.fatType.entrySize = 3 := by rw [twelve]; rfl
    rw [if_pos twelve, if_pos twelve, size]
    obtain sooner | same | later := Nat.lt_trichotomy (m / 2) (n / 2)
    · left
      omega
    · right
      right
      refine ⟨twelve, by rw [same], ?_⟩
      omega
    · right
      left
      omega
  · rw [if_neg twelve, if_neg twelve]
    obtain sooner | later := Nat.lt_or_gt_of_ne other
    · left
      have rest := Nat.mul_le_mul_right vol.fatType.entrySize (Nat.succ_le_of_lt sooner)
      rwa [Nat.succ_mul] at rest
    · right
      left
      have rest := Nat.mul_le_mul_right vol.fatType.entrySize (Nat.succ_le_of_lt later)
      rwa [Nat.succ_mul] at rest

/-- The bytes that are stored hold the number, and the numbers beside it are as they were. -/
theorem exists_stores (small : status < vol.fatType.fatPrefix + 0x100) {d : Bytes}
    (old : vol.fatType = .fat12 →
      d = Extent.read before (vol.entryPlace n) vol.fatType.entrySize) :
    ∃ entry, vol.fatType.bytesFromValue n status d = some entry ∧
      entry.length = vol.fatType.entrySize ∧
      vol.Stores before (Extent.write before (vol.entryPlace n) entry) n status := by
  have length (twelve : vol.fatType = .fat12) : d.length = 3 := by
    rw [old twelve, Extent.length_read, twelve]
    rfl
  obtain ⟨entry, writes, whole, reads, beside⟩ :=
    @FatType.exists_bytesFromValue vol.fatType n status d length small
  have back : Extent.read (Extent.write before (vol.entryPlace n) entry) (vol.entryPlace n)
      vol.fatType.entrySize = entry := by
    rw [← whole]
    exact Extent.read_write _ _ _
  refine ⟨entry, writes, whole, ?_, fun m other => ?_, fun at_ outside => ?_⟩
  · unfold Vol.entry
    rw [back, reads]
  · have untouched (apart : vol.fatOffset m + vol.fatType.entrySize ≤ vol.fatOffset n ∨
        vol.fatOffset n + vol.fatType.entrySize ≤ vol.fatOffset m) :
        vol.entry (Extent.write before (vol.entryPlace n) entry) m = vol.entry before m := by
      unfold Vol.entry
      rw [Extent.read_write_outside]
      rw [whole]
      unfold entryPlace
      omega
    obtain sooner | later | ⟨twelve, same, parity⟩ := @fatOffset_apart vol n m other
    · exact untouched (.inl sooner)
    · exact untouched (.inr later)
    · have place : vol.entryPlace m = vol.entryPlace n := by
        unfold entryPlace
        rw [same]
      unfold Vol.entry
      rw [place, back, beside twelve m parity, old twelve]
  · rw [Extent.write_outside]
    rwa [whole]

/-! ## Fetching -/

variable {fails : Prop}

/-- The bytes of an entry are read if it lies in one sector. -/
theorem readEntry_ensures (sound : vol.Sound) (below : (n : ℤ) < vol.countofClusters)
    (never : ¬fails → disk.faults = []) {chain : Chain Disk} {fits : Content → ℕ → Prop}
    (keeps : chain.Keeps (SectorsHold vol vol.resvdSecCnt vol.fatSz disk.bytes fails) fits fails)
    (size : chain.sectorSize = vol.sectorSize) :
    (chain.readFromPosition (vol.fatInfoForCluster n)
        (List.replicate vol.fatType.entrySize 0)).Ensures disk
      (fun result after => vol.Whole n ∧
        result.2 = Extent.read disk.bytes (vol.entryPlace n) vol.fatType.entrySize ∧
        after.bytes = disk.bytes ∧ (¬fails → after.faults = []))
      fun _ after => (¬vol.Whole n ∨ fails) ∧ after.bytes = disk.bytes ∧
        (¬fails → after.faults = []) := by
  have held : SectorsHold vol vol.resvdSecCnt vol.fatSz disk.bytes fails
      (sectorContent vol vol.resvdSecCnt vol.fatSz disk) disk := sectorsHold_self disk never
  have covered := sound.covers n below
  have wide := sound.wide
  have positive : 0 < vol.sectorSize := by omega
  have offset := Nat.mod_lt (vol.fatOffset n) positive
  have division := Nat.div_add_mod' (vol.fatOffset n) vol.sectorSize
  have sector : (vol.fatInfoForCluster n).sector = vol.fatOffset n / vol.sectorSize :=
    Nat.add_sub_cancel_left _ _
  have length : (List.replicate vol.fatType.entrySize (0 : UInt8)).length =
      vol.fatType.entrySize := List.length_replicate
  have inside : (vol.fatInfoForCluster n).offset < chain.sectorSize := by
    rw [size]
    exact offset
  have small : vol.fatType.entrySize ≤ 4 := by
    cases vol.fatType <;> decide
  by_cases whole : vol.Whole n
  · have undivided : Chain.Undivided chain.sectorSize (vol.fatInfoForCluster n).offset
        (List.replicate vol.fatType.entrySize (0 : UInt8)).length := by
      rw [length, size]
      exact .inr (.inl whole)
    have present : (vol.fatInfoForCluster n).sector * chain.sectorSize +
        (vol.fatInfoForCluster n).offset +
        (List.replicate vol.fatType.entrySize (0 : UInt8)).length ≤
          vol.fatSz * chain.sectorSize := by
      rw [length, size, sector]
      change _ + vol.fatOffset n % vol.sectorSize + _ ≤ vol.fatSz * vol.sectorSize
      omega
    refine (Chain.readFromPosition_ensures keeps held inside undivided present).mono ?_ ?_
    · rintro _ after ⟨held, rfl⟩
      refine ⟨whole, ?_, held.bytes_eq, held.faults⟩
      rw [length, size, sector, read_sectorContent]
      have place : vol.fatOffset n / vol.sectorSize * vol.sectorSize +
          (vol.fatInfoForCluster n).offset = vol.fatOffset n := division
      rw [place, entryPlace, Nat.cast_add, Nat.cast_mul]
    · rintro - after ⟨failed, held⟩
      exact ⟨.inr failed, held.bytes_eq, held.faults⟩
  · unfold Whole at whole
    have next : vol.fatOffset n / vol.sectorSize + 1 + 1 ≤ vol.fatSz := by
      have beyond : vol.fatOffset n / vol.sectorSize * vol.sectorSize + vol.sectorSize <
          vol.fatSz * vol.sectorSize := by omega
      rw [← Nat.succ_mul] at beyond
      exact Nat.lt_of_mul_lt_mul_right beyond
    have fails := Chain.readFromPosition_fails keeps held (vol.fatInfoForCluster n)
      (List.replicate vol.fatType.entrySize 0) inside (by
        rw [length, size]
        exact Nat.lt_of_not_le whole) (by
        rw [length]
        change _ < vol.fatOffset n % vol.sectorSize
        omega) (by
        rw [sector]
        exact next)
    refine fails.mono ?_ ?_
    · rintro _ _ ⟨⟩
    · rintro - after held
      exact ⟨.inl whole, held.bytes_eq, held.faults⟩

/-- **Fetching a status** gives the one of the number in the entry. -/
theorem fetchFromFAT_ensures (sound : vol.Sound) (below : (n : ℤ) < vol.countofClusters) :
    (vol.fetchFromFAT n).Ensures disk
      (fun status after => vol.Whole n ∧
        status = vol.fatType.statusOf (vol.entry disk.bytes n) ∧
        after.bytes = disk.bytes ∧ (disk.faults = [] → after.faults = []))
      fun _ after => (¬vol.Whole n ∨ disk.faults ≠ []) ∧ after.bytes = disk.bytes ∧
        (disk.faults = [] → after.faults = []) := by
  refine Procedure.Ensures.bind ((readEntry_ensures sound below (fun never => not_not.mp never)
    (sectorChain_keeps sound.spans disk.bytes) rfl).mono (fun _ _ came => came) ?_) ?_
  · rintro - after ⟨failed, same, unfaulted⟩
    exact ⟨failed, same, fun none => unfaulted (not_not_intro none)⟩
  · rintro ⟨_, d⟩ after ⟨whole, rfl, same, unfaulted⟩
    exact ⟨whole, rfl, same, fun none => unfaulted (not_not_intro none)⟩

/-! ## Storing -/

/-- An entry that is written is written as a whole or not at all. -/
theorem writeEntry_ensures (sound : vol.Sound) (below : (n : ℤ) < vol.countofClusters)
    (whole : vol.Whole n) {entry : Bytes} (length : entry.length = vol.fatType.entrySize) :
    (vol.fatChain.writeToPosition (vol.fatInfoForCluster n) entry).Ensures disk
      (fun _ after => after.bytes = Extent.write disk.bytes (vol.entryPlace n) entry ∧
        (disk.faults = [] → after.faults = []))
      fun _ after => disk.faults ≠ [] ∧ (after.bytes = disk.bytes ∨
        after.bytes = Extent.write disk.bytes (vol.entryPlace n) entry) := by
  have wide := sound.wide
  have covered := sound.covers n below
  have division := Nat.div_add_mod' (vol.fatOffset n) vol.sectorSize
  have sector : (vol.fatInfoForCluster n).sector = vol.fatOffset n / vol.sectorSize :=
    Nat.add_sub_cancel_left _ _
  have size : 0 < vol.fatType.entrySize ∧ vol.fatType.entrySize ≤ 4 := by
    cases vol.fatType <;> decide
  have fit : (vol.fatInfoForCluster n).offset + entry.length ≤ vol.sectorSize := by
    rw [length]
    exact whole
  have inside : (vol.fatInfoForCluster n).sector < vol.fatSz := by
    rw [sector]
    refine Nat.lt_of_mul_lt_mul_right (a := vol.sectorSize) ?_
    omega
  have place : (vol.resvdSecCnt : ℤ) * vol.sectorSize +
      (vol.fatInfoForCluster n).sector * vol.sectorSize + (vol.fatInfoForCluster n).offset =
      vol.entryPlace n := by
    have offset : vol.fatOffset n / vol.sectorSize * vol.sectorSize +
        (vol.fatInfoForCluster n).offset = vol.fatOffset n := division
    rw [sector, entryPlace, Int.add_assoc]
    exact_mod_cast congrArg (vol.resvdSecCnt * vol.sectorSize + ·) offset
  have some : entry ≠ [] := List.ne_nil_of_length_pos (by omega)
  unfold fatChain
  rw [Chain.writeToPosition_within fit (by change _ < vol.sectorSize; omega)]
  have writes := sectorChain_modifySector_ensures sound.spans inside fit some disk
  rwa [place] at writes

/-- **Storing a status** changes its number and no other. -/
theorem storeToFAT_ensures (sound : vol.Sound) (steady : vol.Steady disk)
    (below : (n : ℤ) < vol.countofClusters) (small : status < vol.fatType.fatPrefix + 0x100)
    (whole : vol.fatType ≠ .fat12 → vol.Whole n) :
    (vol.storeToFAT n status).Ensures disk
      (fun _ after => vol.Whole n ∧ vol.Stores disk.bytes after.bytes n status ∧
        (disk.faults = [] → after.faults = []))
      fun _ after => (¬vol.Whole n ∨ disk.faults ≠ []) ∧
        (after.bytes = disk.bytes ∨ vol.Stores disk.bytes after.bytes n status) ∧
        (disk.faults = [] → after.faults = []) := by
  unfold storeToFAT
  refine Procedure.Ensures.bind (?_ : Procedure.Ensures _ disk (fun d (after : Disk) =>
    vol.Whole n ∧ (vol.fatType = .fat12 →
      d = Extent.read disk.bytes (vol.entryPlace n) vol.fatType.entrySize) ∧
    after.bytes = disk.bytes ∧ (disk.faults = [] → after.faults = [])) _) ?_
  · unfold readShared
    by_cases twelve : vol.fatType = .fat12
    · rw [if_pos twelve]
      refine Procedure.Ensures.bind ((readEntry_ensures sound below (fun _ => steady twelve)
        (sectorChain_keeps sound.spans disk.bytes).ignoringErrors rfl).mono
          (fun _ _ came => came) ?_) ?_
      · rintro - after ⟨failed, same, unfaulted⟩
        exact ⟨failed.imp_right False.elim, .inl same, fun _ => unfaulted not_false⟩
      · rintro ⟨_, d⟩ after ⟨whole, rfl, same, unfaulted⟩
        exact ⟨whole, fun _ => rfl, same, fun _ => unfaulted not_false⟩
    · rw [if_neg twelve]
      exact ⟨whole twelve, fun absurd_ => absurd absurd_ twelve, rfl, fun none => none⟩
  · rintro d between ⟨whole, old, same, unfaulted⟩
    obtain ⟨entry, writes, length, stores⟩ := @exists_stores vol disk.bytes n status small d old
    rw [writes]
    refine (writeEntry_ensures sound below whole length).mono ?_ ?_
    · rintro - after ⟨changed, unfaulted'⟩
      rw [changed, same]
      exact ⟨whole, stores, fun none => unfaulted' (unfaulted none)⟩
    · rintro - after ⟨faulted, changed⟩
      rw [same] at changed
      refine ⟨.inr fun none => faulted (unfaulted none), changed.imp_right fun changed => ?_,
        fun none => absurd (unfaulted none) faulted⟩
      rw [changed]
      exact stores

/-! ## Allocating -/

/-- A free entry holds zero. -/
theorem statusOf_eq_free {fatType : FatType} : fatType.statusOf status = .free ↔ status = 0 := by
  unfold FatType.statusOf
  split
  · next zero => exact iff_of_true rfl zero
  · next other =>
      refine iff_of_false ?_ other
      split_ifs <;> simp

/-- Why no cluster is found from a hint on: the device fails, an entry lies in two sectors, or all
are taken. -/
def Exhausted (vol : Vol) (disk : Disk) (hint : ℕ) : Prop :=
  disk.faults ≠ [] ∨ ∃ n, hint ≤ n ∧ (n : ℤ) ≤ vol.countofClusters ∧
    (∀ m, hint ≤ m → m < n → vol.entry disk.bytes m ≠ 0) ∧
    (¬vol.Whole n ∨ vol.countofClusters = n)

/-- **The first free cluster is found.** -/
theorem searchForFreeCluster_ensures (sound : vol.Sound) {left num : ℕ}
    (rest : (num + left : ℕ) = vol.countofClusters) :
    (vol.searchForFreeCluster left num).Ensures disk
      (fun n after => num ≤ n ∧ (n : ℤ) < vol.countofClusters ∧ vol.Whole n ∧
        vol.entry disk.bytes n = 0 ∧ (∀ m, num ≤ m → m < n → vol.entry disk.bytes m ≠ 0) ∧
        after.bytes = disk.bytes ∧ (disk.faults = [] → after.faults = []))
      fun _ after => vol.Exhausted disk num ∧ after.bytes = disk.bytes ∧
        (disk.faults = [] → after.faults = []) := by
  induction left generalizing num disk with
  | zero =>
      refine ⟨.inr ⟨num, Nat.le_refl _, rest.le, fun m low high => ?_, .inr rest.symm⟩, rfl,
        fun none => none⟩
      omega
  | succ left ih =>
      refine Procedure.Ensures.bind ((fetchFromFAT_ensures sound (by omega)).mono
        (fun _ _ came => came) ?_) ?_
      · rintro - after ⟨failed, same, unfaulted⟩
        refine ⟨?_, same, unfaulted⟩
        obtain divided | faulted := failed
        · refine .inr ⟨num, Nat.le_refl _, by omega, fun m low high => ?_, .inl divided⟩
          omega
        · exact .inl faulted
      · rintro _ between ⟨whole, rfl, same, unfaulted⟩
        by_cases free : vol.fatType.statusOf (vol.entry disk.bytes num) = .free
        · rw [if_pos free]
          refine ⟨Nat.le_refl _, by omega, whole, statusOf_eq_free.mp free, fun m low high => ?_,
            same, unfaulted⟩
          omega
        · rw [if_neg free]
          have taken : vol.entry disk.bytes num ≠ 0 := fun zero => free (statusOf_eq_free.mpr zero)
          have before {n : ℕ} (all : ∀ m, num + 1 ≤ m → m < n → vol.entry disk.bytes m ≠ 0) (m : ℕ)
              (low : num ≤ m) (high : m < n) : vol.entry disk.bytes m ≠ 0 := by
            obtain rfl | later := Nat.eq_or_lt_of_le low
            · exact taken
            · exact all m later high
          refine (@ih between (num + 1) (by omega)).mono ?_ ?_
          · rintro n after ⟨low, high, whole, zero, all, same', unfaulted'⟩
            rw [same] at zero all same'
            exact ⟨by omega, high, whole, zero, before all, same',
              fun none => unfaulted' (unfaulted none)⟩
          · rintro - after ⟨exhausted, same', unfaulted'⟩
            refine ⟨?_, same'.trans same, fun none => unfaulted' (unfaulted none)⟩
            obtain faulted | ⟨n, low, high, all, why⟩ := exhausted
            · exact .inl fun none => faulted (unfaulted none)
            · rw [same] at all
              exact .inr ⟨n, by omega, high, before all, why⟩

/-- **Allocating** marks the first free cluster from the hint on as the end of a chain. -/
theorem allocateInFAT_ensures (sound : vol.Sound) (steady : vol.Steady disk) (hint : ℕ) :
    (vol.allocateInFAT hint).Ensures disk
      (fun n after => hint ≤ n ∧ (n : ℤ) < vol.countofClusters ∧ vol.Whole n ∧
        vol.entry disk.bytes n = 0 ∧ (∀ m, hint ≤ m → m < n → vol.entry disk.bytes m ≠ 0) ∧
        vol.Stores disk.bytes after.bytes n vol.fatType.eof ∧
        (disk.faults = [] → after.faults = []))
      fun _ after => (vol.Exhausted disk hint ∨ vol.countofClusters < hint) ∧
        (after.bytes = disk.bytes ∨ ∃ n, hint ≤ n ∧ (n : ℤ) < vol.countofClusters ∧
          vol.entry disk.bytes n = 0 ∧ vol.Stores disk.bytes after.bytes n vol.fatType.eof) ∧
        (disk.faults = [] → after.faults = []) := by
  unfold allocateInFAT
  by_cases beyond : vol.countofClusters < hint
  · have none : (vol.countofClusters - hint).toNat = 0 := by omega
    rw [none]
    exact ⟨.inr beyond, .inl rfl, fun none => none⟩
  · refine Procedure.Ensures.bind ((searchForFreeCluster_ensures sound (by omega)).mono
      (fun _ _ came => came) ?_) ?_
    · rintro - after ⟨exhausted, same, unfaulted⟩
      exact ⟨.inl exhausted, .inl same, unfaulted⟩
    · rintro n between ⟨low, high, whole, zero, all, same, unfaulted⟩
      have steady' : vol.Steady between := fun twelve => unfaulted (steady twelve)
      have small : vol.fatType.eof < vol.fatType.fatPrefix + 0x100 := by
        unfold FatType.eof
        omega
      have stores := storeToFAT_ensures sound steady' high small fun _ => whole
      rw [same] at stores
      refine Procedure.Ensures.bind (stores.mono (fun _ _ came => came) ?_) ?_
      · rintro - after ⟨failed, changed, unfaulted'⟩
        refine ⟨.inl (.inl fun none => ?_), changed.imp_right fun stores =>
          ⟨n, low, high, zero, stores⟩, fun none => unfaulted' (unfaulted none)⟩
        obtain divided | faulted := failed
        · exact divided whole
        · exact faulted (unfaulted none)
      · rintro - after ⟨-, stores, unfaulted'⟩
        exact ⟨low, high, whole, zero, all, stores, fun none => unfaulted' (unfaulted none)⟩

end Vol

end JsOS.Core.Fs.Fat
