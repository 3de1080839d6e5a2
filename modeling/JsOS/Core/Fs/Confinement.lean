import JsOS.Core.Fs.Partitions
import JsOS.Driver.Virtio.Blk
import JsOS.Driver.Virtio.Chains

/-! # Sectors of a partition

The file system of a partition reads and writes sectors of the device, and adds the first sector of
the partition to their numbers. Neither the partition nor the driver compares a request with the
size of the partition, and the driver compares the number alone with the size of the disk, and only
for reads (`storageConfined_iff`).
-/

namespace JsOS.Core.Fs

open Framing (littleEndian ofLittleEndian)
open NumericString (Units units)
open Virtio (Blk Channel Exchange Memory RequestType Settlement Uint8Array UsedElement)

/-! ## Requests of the driver -/

/-- The number of a type of request. -/
def requestCode : RequestType → ℕ
  | .VIRTIO_BLK_T_IN => 0
  | .VIRTIO_BLK_T_OUT => 1

/-- `buildHeader`. The bytes of the sector are those of `Uint64LE.toArray`. -/
def buildHeader (toArray : ℕ → List UInt8) (type : RequestType) (sector : ℕ) : List UInt8 :=
  littleEndian 4 (requestCode type) ++ littleEndian 4 0 ++ toArray sector

/-- A request in the queue of the device: what its header holds, and its data. -/
structure Placed where
  header : List UInt8
  data : Uint8Array
  deriving DecidableEq, Repr

namespace Placed

/-- The type that the device reads in the header. -/
def code (placed : Placed) : ℕ := ofLittleEndian (placed.header.take 4)

/-- The first sector that the device reads in the header. -/
def sector (placed : Placed) : ℕ := ofLittleEndian (placed.header.drop 8)

/-- The number of sectors that the data has room for. -/
def sectors (placed : Placed) : ℕ := placed.data.length / 512

end Placed

/-- The driver of the block device, with the requests that were placed in its queue. -/
structure Storage where
  blk : Blk
  placed : List Placed

/-- Which buffers of a request the device may write. -/
def writeOnlyArray : RequestType → List Bool
  | .VIRTIO_BLK_T_IN => [false, true, true]
  | .VIRTIO_BLK_T_OUT => [false, false, true]

namespace Storage

variable (toArray : ℕ → List UInt8) (translate : ℕ → ℕ) (storage : Storage)

/-- The requests that were placed, after another one for which there may be no room. -/
def placedAfter (type : RequestType) (sector : ℕ) (data : Uint8Array) (header status : ℕ) :
    List Placed :=
  if storage.blk.channel.exchange.outcome translate (Blk.requestBuffers header status data) false
      (some (writeOnlyArray type)) = some (.returned true) then
    storage.placed ++ [⟨buildHeader toArray type sector, data⟩]
  else storage.placed

/-- `read` of the driver. -/
def read (sector : ℕ) (data : Uint8Array) (header status : ℕ) : Storage where
  blk := storage.blk.read translate sector data header status
  placed :=
    if storage.blk.totalSectorCount < sector then storage.placed
    else storage.placedAfter toArray translate .VIRTIO_BLK_T_IN sector data header status

/-- `write` of the driver. -/
def write (sector : ℕ) (data : Uint8Array) (header status : ℕ) : Storage where
  blk := storage.blk.write translate data header status
  placed := storage.placedAfter toArray translate .VIRTIO_BLK_T_OUT sector data header status

/-- What happens to the driver: calls, whoever makes them, completions, and what they lead to. -/
inductive Event where
  | read (sector : ℕ) (data : Uint8Array) (header status : ℕ)
  | write (sector : ℕ) (data : Uint8Array) (header status : ℕ)
  | complete (element : UsedElement) (status : BitVec 8)
  | irq (hasPendingIRQ : Bool)
  | runImmediate
  deriving DecidableEq, Repr

/-- One step. While a call has not returned, only the device acts. -/
def step (storage : Storage) : Event → Storage
  | .read sector data header status =>
      if storage.blk.channel.exchange.stuck then storage
      else storage.read toArray translate sector data header status
  | .write sector data header status =>
      if storage.blk.channel.exchange.stuck then storage
      else storage.write toArray translate sector data header status
  | .complete element status => { storage with blk := storage.blk.complete element status }
  | .irq hasPendingIRQ => { storage with blk := storage.blk.step translate (.irq hasPendingIRQ) }
  | .runImmediate => { storage with blk := storage.blk.step translate .runImmediate }

/-- The driver, when its queue is set up. -/
def create (memory : Memory) (ringSize totalSectorCount : ℕ) : Storage where
  blk := .create memory ringSize totalSectorCount
  placed := []

/-- The driver with a list of events behind it. -/
def after (memory : Memory) (ringSize totalSectorCount : ℕ) (events : List Event) : Storage :=
  Transition.run (step toArray translate) (create memory ringSize totalSectorCount) events

end Storage

/-! ## Requests of a partition -/

/-- What `callback` is called with. -/
inductive Report where
  | done
  | failed (err : Settlement)
  deriving DecidableEq, Repr

/-- `.then(() => callback()).catch((err) => callback(err))`. -/
def report : Settlement → Report
  | .resolved _ => .done
  | err => .failed err

/-- The two calls of a partition. -/
inductive Access where
  | readSectors
  | writeSectors
  deriving DecidableEq, Repr

/-- The type of its request. -/
def Access.type : Access → RequestType
  | .readSectors => .VIRTIO_BLK_T_IN
  | .writeSectors => .VIRTIO_BLK_T_OUT

/-- `readSectors` and `writeSectors` of the driver that `getFilesystem` makes. -/
def Partition.access (partition : Partition) (toArray : ℕ → List UInt8) (translate : ℕ → ℕ)
    (storage : Storage) (access : Access) (sector : ℕ) (data : Uint8Array) (header status : ℕ) :
    Storage :=
  match access with
  | .readSectors =>
      storage.read toArray translate (partition.address + sector) data header status
  | .writeSectors =>
      storage.write toArray translate (partition.address + sector) data header status

/-! ## What is to hold -/

/-- The sectors lie inside the partition and on the disk. -/
def Inside (partition : Partition) (totalSectorCount sector count : ℕ) : Prop :=
  sector + count ≤ partition.size ∧ partition.address + sector + count ≤ totalSectorCount

instance (partition : Partition) (totalSectorCount sector count : ℕ) :
    Decidable (Inside partition totalSectorCount sector count) :=
  inferInstanceAs (Decidable (_ ∧ _))

/-- One request was placed, for the sectors. -/
structure Placing (before after : Storage) (type : RequestType) (first count : ℕ) : Prop where
  inFlight : ∃ request, after.blk.channel.exchange.outstanding =
    before.blk.channel.exchange.outstanding ++ [request]
  addressed : ∃ placed, after.placed = before.placed ++ [placed] ∧
    placed.code = requestCode type ∧ placed.sector = first ∧ placed.sectors = count

/-- The callback gets an error, and the queue of the device, through which alone the disk is
reached, is as it was. -/
structure Refused (before after : Storage) : Prop where
  error : ∃ settlement err, report settlement = .failed err ∧
    after.blk.rejections = before.blk.rejections ++ [(before.blk.calls, settlement)]
  queue : after.blk.channel.exchange = before.blk.channel.exchange
  placed : after.placed = before.placed

/-- **A call is confined**: its request is placed if all sectors are inside, and refused if not. -/
structure Confined (before after : Storage) (partition : Partition) (access : Access)
    (sector count : ℕ) : Prop where
  inside : Inside partition before.blk.totalSectorCount sector count →
    Placing before after access.type (partition.address + sector) count
  outside : ¬Inside partition before.blk.totalSectorCount sector count → Refused before after

/-- All sectors are inside and there is room in the queue, or the check of `read` applies. -/
def Allowed (translate : ℕ → ℕ) (storage : Storage) (partition : Partition) (access : Access)
    (sector : ℕ) (data : Uint8Array) (header status : ℕ) : Prop :=
  (Inside partition storage.blk.totalSectorCount sector (data.length / 512) ∧
      storage.blk.channel.exchange.Fits translate (Blk.requestBuffers header status data)) ∨
    (access = .readSectors ∧ storage.blk.totalSectorCount < partition.address + sector)

/-! ## The queue stays sound -/

namespace Storage

variable {toArray : ℕ → List UInt8} {translate : ℕ → ℕ} {storage : Storage} {ringSize : ℕ}

theorem requestBuffers_ne_nil (header status : ℕ) (data : Uint8Array) :
    Blk.requestBuffers header status data ≠ [] := List.cons_ne_nil _ _

/-- Every step keeps the queue sound. -/
theorem sound_step (sound : storage.blk.channel.exchange.Sound ringSize) (event : Event) :
    (storage.step toArray translate event).blk.channel.exchange.Sound ringSize := by
  have running : ¬storage.blk.channel.exchange.stuck = true := by
    rw [sound.valid.running]
    exact Bool.false_ne_true
  cases event with
  | read sector data header status =>
      rw [step, if_neg running, read, Blk.read]
      dsimp only
      split
      · exact sound
      · exact sound.placeBuffers translate (requestBuffers_ne_nil header status data) _ _
  | write sector data header status =>
      rw [step, if_neg running, write]
      exact sound.placeBuffers translate (requestBuffers_ne_nil header status data) _ _
  | complete element status =>
      rw [step, Blk.complete]
      dsimp only
      split
      · have completed := Channel.sound_complete sound element
        split
        · exact completed
        · exact completed
      · exact sound
  | irq hasPendingIRQ =>
      rw [step, Blk.step]
      dsimp only
      rw [if_neg running]
      exact Channel.sound_irq sound hasPendingIRQ
  | runImmediate =>
      rw [step, Blk.step]
      dsimp only
      rw [if_neg running, Blk.runImmediate]
      split
      · exact sound
      · split
        · exact sound
        · exact sound
      · exact sound

/-- **In every run the queue is sound.** -/
theorem sound_after (memory : Memory) {exponent : ℕ} (small : exponent ≤ 16)
    (totalSectorCount : ℕ) (events : List Event) :
    (after toArray translate memory (2 ^ exponent) totalSectorCount
      events).blk.channel.exchange.Sound (2 ^ exponent) := by
  unfold after
  apply Transition.run_invariant_of_keeps
    (fun storage : Storage => storage.blk.channel.exchange.Sound (2 ^ exponent))
  · intro storage event sound
    exact sound_step sound event
  · exact Exchange.sound_create memory ⟨exponent, small, rfl⟩

end Storage

/-! ## One request -/

section

variable {toArray : ℕ → List UInt8} {translate : ℕ → ℕ} {storage : Storage} {ringSize : ℕ}
  {type : RequestType} {sector : ℕ} {data : Uint8Array} {header status : ℕ}

theorem requestBuffers_nonempty (positive : 0 < data.length) :
    ∀ u8 ∈ Blk.requestBuffers header status data, u8.length ≠ 0 := by
  intro u8 member
  rw [Blk.requestBuffers] at member
  obtain rfl | member := List.mem_cons.mp member
  · exact Nat.succ_ne_zero 15
  · obtain rfl | member := List.mem_cons.mp member
    · exact Nat.ne_of_gt positive
    · rw [List.mem_singleton.mp member]
      exact Nat.succ_ne_zero 0

/-- What a request does to the driver. -/
def requested (toArray : ℕ → List UInt8) (translate : ℕ → ℕ) (storage : Storage)
    (type : RequestType) (sector : ℕ) (data : Uint8Array) (header status : ℕ) : Storage where
  blk := storage.blk.request translate type (writeOnlyArray type) data header status
  placed := storage.placedAfter toArray translate type sector data header status

theorem write_eq : storage.write toArray translate sector data header status =
    requested toArray translate storage .VIRTIO_BLK_T_OUT sector data header status := rfl

theorem read_eq (inside : ¬storage.blk.totalSectorCount < sector) :
    storage.read toArray translate sector data header status =
      requested toArray translate storage .VIRTIO_BLK_T_IN sector data header status := by
  rw [Storage.read, requested, Blk.read, if_neg inside, if_neg inside]
  rfl

/-- A read that starts beyond the disk is refused. -/
theorem refused_of_read (beyond : storage.blk.totalSectorCount < sector) :
    Refused storage (storage.read toArray translate sector data header status) := by
  rw [Storage.read, Blk.read, if_pos beyond, if_pos beyond]
  exact ⟨⟨.outOfBounds, .outOfBounds, rfl, rfl⟩, rfl, rfl⟩

/-- The device reads in the header what the driver has put there. -/
theorem code_buildHeader (type : RequestType) (sector : ℕ) (data : Uint8Array) :
    Placed.code ⟨buildHeader toArray type sector, data⟩ = requestCode type := by
  rw [Placed.code, buildHeader, List.append_assoc]
  dsimp only
  rw [List.take_left' (Framing.length_littleEndian 4 _), Framing.ofLittleEndian_littleEndian]
  cases type with
  | VIRTIO_BLK_T_IN => rfl
  | VIRTIO_BLK_T_OUT => rfl

theorem sector_buildHeader (type : RequestType) (sector : ℕ) (data : Uint8Array) :
    Placed.sector ⟨buildHeader toArray type sector, data⟩ = ofLittleEndian (toArray sector) := by
  rw [Placed.sector, buildHeader]
  dsimp only
  rw [List.drop_left']
  rw [List.length_append, Framing.length_littleEndian, Framing.length_littleEndian]

/-- **A request for which there is room is placed.** -/
theorem placing_of_fits (sound : storage.blk.channel.exchange.Sound ringSize)
    (fits : storage.blk.channel.exchange.Fits translate (Blk.requestBuffers header status data))
    (spelled : ofLittleEndian (toArray sector) = sector) :
    Placing storage (requested toArray translate storage type sector data header status) type sector
      (data.length / 512) := by
  obtain ⟨parts, -, -, placed, outcome⟩ :=
    Exchange.placeBuffers_of_fits sound.notSuppressed false (some (writeOnlyArray type)) fits
  constructor
  · change ∃ request, (Exchange.placeBuffers _ _ _ _ _).outstanding = _
    rw [placed]
    exact ⟨_, rfl⟩
  · refine ⟨⟨buildHeader toArray type sector, data⟩, ?_, code_buildHeader type sector data, ?_, rfl⟩
    · exact if_pos outcome
    · rw [sector_buildHeader, spelled]

/-- A request for which there is no room is not placed, and nobody is told. -/
theorem requested_of_not_fits (sound : storage.blk.channel.exchange.Sound ringSize)
    (positive : 0 < data.length)
    (full : ¬storage.blk.channel.exchange.Fits translate
      (Blk.requestBuffers header status data)) :
    (requested toArray translate storage type sector data header status).placed =
        storage.placed ∧
      (requested toArray translate storage type sector data header status).blk.rejections =
        storage.blk.rejections := by
  obtain ⟨-, outcome⟩ := Exchange.placeBuffers_of_not_fits sound.notSuppressed
    (requestBuffers_nonempty positive) false (some (writeOnlyArray type)) full
  constructor
  · refine if_neg ?_
    rw [outcome]
    decide
  · refine if_neg ?_
    rw [outcome]
    decide

/-- **A request that the driver makes is never refused**: it is placed, or waits for ever. -/
theorem not_refused_requested (sound : storage.blk.channel.exchange.Sound ringSize)
    (positive : 0 < data.length) :
    ¬Refused storage (requested toArray translate storage type sector data header status) := by
  intro refused
  by_cases fits : storage.blk.channel.exchange.Fits translate
      (Blk.requestBuffers header status data)
  · obtain ⟨parts, -, -, -, outcome⟩ :=
      Exchange.placeBuffers_of_fits sound.notSuppressed false (some (writeOnlyArray type)) fits
    have grown : (requested toArray translate storage type sector data header status).placed =
        storage.placed ++ [⟨buildHeader toArray type sector, data⟩] := if_pos outcome
    rw [refused.placed] at grown
    exact List.cons_ne_nil _ _ (List.self_eq_append_right.mp grown)
  · obtain ⟨settlement, err, -, grown⟩ := refused.error
    rw [(requested_of_not_fits sound positive fits).2] at grown
    exact List.cons_ne_nil _ _ (List.self_eq_append_right.mp grown)

/-- **A request that the driver makes is confined** exactly if all sectors are inside and there is
room. -/
theorem confined_requested_iff (sound : storage.blk.channel.exchange.Sound ringSize)
    (positive : 0 < data.length) {partition : Partition} (access : Access)
    (spelled : Inside partition storage.blk.totalSectorCount sector (data.length / 512) →
      ofLittleEndian (toArray (partition.address + sector)) = partition.address + sector) :
    Confined storage
        (requested toArray translate storage access.type (partition.address + sector) data header
          status) partition access sector (data.length / 512) ↔
      Inside partition storage.blk.totalSectorCount sector (data.length / 512) ∧
        storage.blk.channel.exchange.Fits translate (Blk.requestBuffers header status data) := by
  constructor
  · rintro ⟨placing, refused⟩
    have inside : Inside partition storage.blk.totalSectorCount sector (data.length / 512) := by
      by_contra outside
      exact not_refused_requested sound positive (refused outside)
    refine ⟨inside, ?_⟩
    by_contra full
    obtain ⟨placed, grown, -⟩ := (placing inside).addressed
    rw [(requested_of_not_fits sound positive full).1] at grown
    exact List.cons_ne_nil _ _ (List.self_eq_append_right.mp grown)
  · rintro ⟨inside, fits⟩
    exact ⟨fun _ => placing_of_fits sound fits (spelled inside),
      fun outside => absurd inside outside⟩

/-- **A call of a partition is confined** exactly if it is allowed. -/
theorem confined_access_iff (sound : storage.blk.channel.exchange.Sound ringSize)
    (positive : 0 < data.length) (multiple : 512 ∣ data.length)
    (spells : ∀ number < 2 ^ 53, ofLittleEndian (toArray number) = number) {partition : Partition}
    (bounds : partition.address < 2 ^ 32 ∧ partition.size < 2 ^ 32) (access : Access) :
    Confined storage (partition.access toArray translate storage access sector data header status)
        partition access sector (data.length / 512) ↔
      Allowed translate storage partition access sector data header status := by
  have sectors : 0 < data.length / 512 := Nat.div_pos (Nat.le_of_dvd positive multiple) (by decide)
  have spelled (inside : Inside partition storage.blk.totalSectorCount sector
      (data.length / 512)) :
      ofLittleEndian (toArray (partition.address + sector)) = partition.address + sector := by
    have within := inside.1
    exact spells _ (by omega)
  cases access with
  | readSectors =>
      rw [Partition.access]
      by_cases beyond : storage.blk.totalSectorCount < partition.address + sector
      · refine iff_of_true ⟨fun inside => ?_, fun _ => refused_of_read beyond⟩ (.inr ⟨rfl, beyond⟩)
        have within := inside.2
        omega
      · rw [read_eq beyond]
        refine (confined_requested_iff sound positive .readSectors spelled).trans ?_
        exact (or_iff_left fun both => beyond both.2).symm
  | writeSectors =>
      rw [Partition.access, write_eq]
      refine (confined_requested_iff sound positive .writeSectors spelled).trans ?_
      exact (or_iff_left fun both => by cases both.1).symm

end

/-! ## Every run -/

/-- **Storage is confined exactly as far as this**: in every state that a run reaches, a call of a
partition is confined if and only if all its sectors are inside and there is room in the queue, or
it is a read that starts beyond the disk; and the names that are listed are those that partitions
answer to, but for padded ones. -/
theorem storageConfined_iff {toArray : ℕ → List UInt8}
    (spells : ∀ number < 2 ^ 53, ofLittleEndian (toArray number) = number) (translate : ℕ → ℕ)
    (memory : Memory) {exponent : ℕ} (small : exponent ≤ 16) (totalSectorCount : ℕ)
    (events : List Storage.Event) {devices : List Device} {path rest : Units}
    {partition : Partition} (reaches : readdir devices path = .filesystem partition rest)
    (access : Access) (sector : ℕ) (data : Uint8Array) (positive : 0 < data.length)
    (multiple : 512 ∣ data.length) (header status : ℕ) {index : ℕ} {device : Device}
    (found : getDeviceByName devices (virtioName index) = some device) {name : Units}
    (plain : slash ∉ name) :
    let storage :=
      Storage.after toArray translate memory (2 ^ exponent) totalSectorCount events
    (Confined storage
          (partition.access toArray translate storage access sector data header status) partition
          access sector (data.length / 512) ∧
        ∃ names, readdir devices (slash :: virtioName index) = .names names ∧
          (name ∈ names ↔ ∃ partition, Reaches devices index name partition)) ↔
      Allowed translate storage partition access sector data header status ∧
        ¬Padded (getPartitions device.sector0) name := by
  intro storage
  have sound : storage.blk.channel.exchange.Sound (2 ^ exponent) :=
    Storage.sound_after memory small totalSectorCount events
  obtain ⟨table, member⟩ := mem_of_readdir reaches
  refine and_congr
    (confined_access_iff sound positive multiple spells (bounds_of_mem member) access) ?_
  rw [← listed_iff found plain, readdir_device found]
  constructor
  · rintro ⟨names, isNames, exact_⟩
    rw [Listing.names.inj isNames]
    exact exact_
  · intro exact_
    exact ⟨_, rfl, exact_⟩

/-! ## A disk of four sectors -/

/-- A table with one partition, of sector 1 alone. -/
def oneSectorTable : List UInt8 :=
  List.replicate 0x1BE 0 ++ [0, 0, 0, 0, 0x0C, 0, 0, 0, 1, 0, 0, 0, 1, 0, 0, 0] ++
    List.replicate 50 0

/-- The device with the table. -/
def oneSectorDevice : Device := ⟨virtioName 0, oneSectorTable⟩

theorem getPartitions_oneSector : getPartitions oneSectorDevice.sector0 = [⟨0x0C, 1, 1⟩] := by
  decide +kernel

theorem found_oneSector :
    getDeviceByName [oneSectorDevice] (virtioName 0) = some oneSectorDevice :=
  List.find?_cons_of_pos (decide_eq_true rfl)

theorem reaches_oneSector :
    Reaches [oneSectorDevice] 0 (letterP :: NumericString.ofNat 0) ⟨0x0C, 1, 1⟩ := by
  have inside : 0 < (getPartitions oneSectorDevice.sector0).length := by
    rw [getPartitions_oneSector]
    exact Nat.one_pos
  have reaches := reaches_listed found_oneSector inside
  simp only [getPartitions_oneSector] at reaches
  exact reaches

theorem littleEndian_spells : ∀ number < 2 ^ 53, ofLittleEndian (littleEndian 8 number) = number := by
  intro number small
  rw [Framing.ofLittleEndian_littleEndian]
  exact Nat.mod_eq_of_lt (Nat.lt_trans small (by decide))

/-- The sector of the partition is written. -/
theorem storageConfined_iff_oneSector :
    Confined (Storage.after (littleEndian 8) id Exchange.zeroMemory (2 ^ 4) 4 [])
      (Partition.access ⟨0x0C, 1, 1⟩ (littleEndian 8) id
        (Storage.after (littleEndian 8) id Exchange.zeroMemory (2 ^ 4) 4 []) .writeSectors 0
        ⟨0x1000, 512⟩ 0x2000 0x3000)
      ⟨0x0C, 1, 1⟩ .writeSectors 0 1 := by
  have small : 4 ≤ 16 := by decide
  have plain : slash ∉ ([] : Units) := List.not_mem_nil
  refine ((storageConfined_iff littleEndian_spells id Exchange.zeroMemory small 4 []
    reaches_oneSector .writeSectors 0 ⟨0x1000, 512⟩ (by decide) (by decide) 0x2000 0x3000
    found_oneSector plain).mpr ⟨.inl ⟨by decide, by decide +kernel⟩, ?_⟩).1
  rintro ⟨digits, same, -⟩
  cases same

/-- A write of the sector behind the partition is placed as well. -/
theorem writeBehind_not_confined :
    Reaches [oneSectorDevice] 0 (letterP :: NumericString.ofNat 0) ⟨0x0C, 1, 1⟩ ∧
      ¬Confined (Storage.after (littleEndian 8) id Exchange.zeroMemory (2 ^ 4) 4 [])
        (Partition.access ⟨0x0C, 1, 1⟩ (littleEndian 8) id
          (Storage.after (littleEndian 8) id Exchange.zeroMemory (2 ^ 4) 4 []) .writeSectors 1
          ⟨0x1000, 512⟩ 0x2000 0x3000)
        ⟨0x0C, 1, 1⟩ .writeSectors 1 1 := by
  refine ⟨reaches_oneSector, fun confined => ?_⟩
  have small : 4 ≤ 16 := by decide
  have refused := confined.outside (by decide)
  rw [Partition.access, write_eq] at refused
  exact not_refused_requested (Storage.sound_after Exchange.zeroMemory small 4 []) (by decide)
    refused

end JsOS.Core.Fs
