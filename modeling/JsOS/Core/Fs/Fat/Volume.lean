import JsOS.Library.Extent
import JsOS.Library.Framing
import JsOS.Library.Procedure

/-! # FAT volumes

The volume that `low-level.js` hands to the driver, as its bytes and the accesses that will fail;
the boot sector; and the geometry that `init` makes of it.
-/

namespace JsOS.Core.Fs.Fat

open Framing (Bytes ofLittleEndian)

/-! ## Failures -/

/-- The errors of `S.err`. -/
inductive Code where
  | io | noent | inval | exist | nametoolong | nospc | nosys | rofs | notdir | badf | isdir | acces
  deriving DecidableEq, Repr

/-- How a call ends that does not succeed: with an error for its callback, or with an exception. -/
inductive Failure where
  /-- One of `S.err`. -/
  | err (code : Code)
  /-- The error of the driver of the device. -/
  | device
  /-- `Invalid sector number!` -/
  | invalidSector
  /-- `Buffer length not a multiple of sector size` -/
  | invalidLength
  /-- `Read-only filesystem` -/
  | readOnly
  /-- `RangeError: sourceStart out of bounds` -/
  | sourceStart
  /-- `RangeError: sourceEnd out of bounds` -/
  | sourceEnd
  /-- A number that is too large for `writeUInt16LE` or `writeUInt32LE`. -/
  | value
  /-- `Must be called only when cache is complete!` -/
  | cacheIncomplete
  /-- The call never ends. -/
  | endless
  deriving DecidableEq, Repr

/-- The failures that are errors for the callback. -/
def Failure.isError : Failure → Bool
  | .err _ | .device => true
  | _ => false

/-! ## The device -/

/-- What lies on the device by the distance from the start of the volume, and how the accesses that
come next fail: each of them does not, or does after a number of sectors. -/
structure Disk where
  bytes : ℤ → UInt8
  faults : List (Option ℕ)

/-- A call that uses the device. -/
abbrev Io (α : Type) := Procedure Disk Failure α

/-- The `volume` of `createFileSystem`. -/
structure Driver where
  sectorSize : ℕ
  numSectors : ℕ
  deriving DecidableEq, Repr

/-- `volume.readSectors`. -/
def Driver.readSectors (volume : Driver) (sector : ℤ) (length : ℕ) : Io Bytes := fun disk =>
  let after := { disk with faults := disk.faults.tail }
  match disk.faults.head?.join with
  | none => (.ok (Extent.read disk.bytes (sector * volume.sectorSize) length), after)
  | some _ => (.error .device, after)

/-- `volume.writeSectors`. -/
def Driver.writeSectors (volume : Driver) (sector : ℤ) (data : Bytes) : Io Unit := fun disk =>
  let written := match disk.faults.head?.join with
    | none => data
    | some sectors => data.take (sectors * volume.sectorSize)
  let after : Disk :=
    { bytes := Extent.write disk.bytes (sector * volume.sectorSize) written
      faults := disk.faults.tail }
  match disk.faults.head?.join with
  | none => (.ok (), after)
  | some _ => (.error .device, after)

/-- A read gives what lies there, unless an access fails. -/
theorem Driver.readSectors_ensures (volume : Driver) (sector : ℤ) (length : ℕ) (disk : Disk) :
    (volume.readSectors sector length).Ensures disk
      (fun dest after => dest = Extent.read disk.bytes (sector * volume.sectorSize) length ∧
        after.bytes = disk.bytes ∧ (disk.faults = [] → after.faults = []))
      fun _ after => disk.faults ≠ [] ∧ after.bytes = disk.bytes := by
  unfold Driver.readSectors Procedure.Ensures
  dsimp only
  cases fault : disk.faults.head?.join with
  | none => exact ⟨rfl, rfl, fun none => congrArg List.tail none⟩
  | some sectors =>
      refine ⟨fun none => ?_, rfl⟩
      rw [none] at fault
      cases fault

/-- A write puts the data there, or the first of its sectors if the access fails. -/
theorem Driver.writeSectors_ensures (volume : Driver) (sector : ℤ) (data : Bytes) (disk : Disk) :
    (volume.writeSectors sector data).Ensures disk
      (fun _ after => after.bytes = Extent.write disk.bytes (sector * volume.sectorSize) data ∧
        (disk.faults = [] → after.faults = []))
      fun _ after => disk.faults ≠ [] ∧ ∃ sectors,
        after.bytes = Extent.write disk.bytes (sector * volume.sectorSize)
          (data.take (sectors * volume.sectorSize)) := by
  unfold Driver.writeSectors Procedure.Ensures
  dsimp only
  cases fault : disk.faults.head?.join with
  | none => exact ⟨rfl, fun none => congrArg List.tail none⟩
  | some sectors =>
      refine ⟨fun none => ?_, sectors, rfl⟩
      rw [none] at fault
      cases fault

/-! ## The boot sector -/

/-- The fields of the boot sector that `init` uses. -/
structure BootSector where
  bytsPerSec : ℕ
  secPerClus : ℕ
  resvdSecCnt : ℕ
  numFATs : ℕ
  rootEntCnt : ℕ
  totSec16 : ℕ
  fatSz16 : ℕ
  totSec32 : ℕ
  fatSz32 : ℕ
  rootClus : ℕ
  deriving DecidableEq, Repr

/-- A number in the boot sector. -/
def field (bootSector : Bytes) (offset size : ℕ) : ℕ :=
  ofLittleEndian ((bootSector.drop offset).take size)

/-- `valueFromBytes` of `boot16` and `boot32`, which begin alike. -/
def BootSector.valueFromBytes (bootSector : Bytes) : BootSector where
  bytsPerSec := field bootSector 11 2
  secPerClus := field bootSector 13 1
  resvdSecCnt := field bootSector 14 2
  numFATs := field bootSector 16 1
  rootEntCnt := field bootSector 17 2
  totSec16 := field bootSector 19 2
  fatSz16 := field bootSector 22 2
  totSec32 := field bootSector 32 4
  fatSz32 := field bootSector 36 4
  rootClus := field bootSector 44 4

/-! ## The geometry -/

/-- `fatType`. -/
inductive FatType where
  | fat12 | fat16 | fat32
  deriving DecidableEq, Repr

/-- The chain of the root directory: of the sectors before the data, or of clusters. -/
inductive RootDirectory where
  | sectors (firstSector numSectors : ℕ)
  | clusters (firstCluster : ℕ)
  deriving DecidableEq, Repr

/-- `vol`, with what `init` computes for it. -/
structure Vol where
  volume : Driver
  ro : Bool
  /-- `BS.ResvdSecCnt` -/
  resvdSecCnt : ℕ
  /-- `FATSz` -/
  fatSz : ℕ
  firstDataSector : ℕ
  /-- `_sectorsPerCluster` -/
  sectorsPerCluster : ℕ
  countofClusters : ℤ
  fatType : FatType
  rootDirectory : RootDirectory
  deriving DecidableEq, Repr

/-- The exceptions of `init`. -/
inductive InitError where
  /-- `Invalid volume signature!` -/
  | signature
  /-- `This looks like an ExFAT volume! (unsupported)` -/
  | exFAT
  /-- `Sector size mismatch with FAT table.` -/
  | sectorSize
  /-- `Volume size mismatch!` -/
  | volumeSize
  deriving DecidableEq, Repr

/-- The type that a number of clusters stands for. -/
def fatTypeOf (countofClusters : ℤ) : FatType :=
  if countofClusters < 4085 then .fat12
  else if countofClusters < 65525 then .fat16
  else .fat32

/-- The geometry of a boot sector. -/
def Vol.ofBootSector (volume : Driver) (ro : Bool) (bs : BootSector) : Except InitError Vol :=
  let isFAT16 := bs.fatSz16 ≠ 0
  if bs.bytsPerSec = 0 then .error .exFAT
  else if bs.bytsPerSec ≠ volume.sectorSize then .error .sectorSize
  else
    let fatSz := if isFAT16 then bs.fatSz16 else bs.fatSz32
    let rootDirSectors := (bs.rootEntCnt * 32 + (bs.bytsPerSec - 1)) / bs.bytsPerSec
    let firstDataSector := bs.resvdSecCnt + bs.numFATs * fatSz + rootDirSectors
    let totSec := if bs.totSec16 ≠ 0 then bs.totSec16 else bs.totSec32
    let dataSec : ℤ := totSec - firstDataSector
    let countofClusters := dataSec / bs.secPerClus
    if totSec > volume.numSectors then .error .volumeSize
    else .ok
      { volume, ro, fatSz, firstDataSector, countofClusters
        resvdSecCnt := bs.resvdSecCnt
        sectorsPerCluster := bs.secPerClus
        fatType := fatTypeOf countofClusters
        rootDirectory :=
          if isFAT16 then .sectors (firstDataSector - rootDirSectors) rootDirSectors
          else .clusters bs.rootClus }

/-- `init`. -/
def Vol.init (volume : Driver) (ro : Bool) (bootSector : Bytes) : Except InitError Vol :=
  if bootSector[510]? ≠ some 0x55 ∨ bootSector[511]? ≠ some 0xAA then .error .signature
  else Vol.ofBootSector volume ro (.valueFromBytes bootSector)

namespace Vol

variable (vol : Vol)

/-- `_sectorSize`. -/
def sectorSize : ℕ := vol.volume.sectorSize

/-- `_firstSectorOfCluster`. -/
def firstSectorOfCluster (n : ℕ) : ℤ :=
  vol.firstDataSector + ((n : ℤ) - 2) * vol.sectorsPerCluster

/-- `_readSectors`. -/
def readSectors (secNum : ℤ) (length : ℕ) : Io Bytes :=
  if secNum < vol.volume.numSectors then vol.volume.readSectors secNum length
  else Procedure.fail .invalidSector

/-- `_writeSectors`. -/
def writeSectors (secNum : ℤ) (data : Bytes) : Io Unit :=
  if data.length % vol.sectorSize ≠ 0 then Procedure.fail .invalidLength
  else if vol.ro then Procedure.fail .readOnly
  else if secNum < vol.volume.numSectors then vol.volume.writeSectors secNum data
  else Procedure.fail .invalidSector

end Vol

/-! ## A floppy disk -/

/-- The volume of a floppy disk with 2880 sectors. -/
def floppy : Vol where
  volume := ⟨512, 2880⟩
  ro := false
  resvdSecCnt := 1
  fatSz := 9
  firstDataSector := 33
  sectorsPerCluster := 1
  countofClusters := 2847
  fatType := .fat12
  rootDirectory := .sectors 19 14

example : Vol.ofBootSector ⟨512, 2880⟩ false
    { bytsPerSec := 512, secPerClus := 1, resvdSecCnt := 1, numFATs := 2, rootEntCnt := 224,
      totSec16 := 2880, fatSz16 := 9, totSec32 := 0, fatSz32 := 0, rootClus := 0 } =
      .ok floppy := by decide

end JsOS.Core.Fs.Fat
