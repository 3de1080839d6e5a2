import JsOS.Library.BitField

/-! # PCI configuration space

Each device has sixty-four registers of 32 bits. A register is selected through the address port
and read or written through the data port, which takes 32, 16 or 8 bits. The accessor of a device
reads and writes fields of these registers, and keeps a cache of the registers that it has read.
-/

namespace JsOS.Core.Pci

/-- The address of a device. -/
structure Address where
  bus : BitVec 8
  slot : BitVec 5
  func : BitVec 3
  deriving DecidableEq, Repr

/-- The constructor of `PciAccessor` checks the address. -/
def Address.construct (bus slot func : Nat) : Except String Address :=
  if bus > 255 then .error "invalid bus value (expected 0-255)"
  else if slot > 31 then .error "invalid slot value (expected 0-31)"
  else if func > 7 then .error "invalid func value (expected 0-7)"
  else .ok ⟨BitVec.ofNat 8 bus, BitVec.ofNat 5 slot, BitVec.ofNat 3 func⟩

/-! ## Fields -/

/-- A field: the offset of its register, its first byte there and a mask of its width. -/
structure Field where
  offset : Nat
  shift : Nat
  mask : BitVec 32
  deriving DecidableEq, Repr

def vendorId : Field := ⟨0x00, 0, 0xffff⟩
def deviceId : Field := ⟨0x00, 2, 0xffff⟩
def command : Field := ⟨0x04, 0, 0xffff⟩
def status : Field := ⟨0x04, 2, 0xffff⟩
def revisionId : Field := ⟨0x08, 0, 0xff⟩
def progIf : Field := ⟨0x08, 1, 0xff⟩
def subclass : Field := ⟨0x08, 2, 0xff⟩
def classCode : Field := ⟨0x08, 3, 0xff⟩
def cacheLinesize : Field := ⟨0x0c, 0, 0xff⟩
def latencyTimer : Field := ⟨0x0c, 1, 0xff⟩
def headerType : Field := ⟨0x0c, 2, 0xff⟩
def bist : Field := ⟨0x0c, 3, 0xff⟩

/-- `fields`, which all devices have. -/
def fields : List Field :=
  [vendorId, deviceId, command, status, revisionId, progIf, subclass, classCode, cacheLinesize,
    latencyTimer, headerType, bist]

def bar : List Field :=
  [⟨0x10, 0, 0xffffffff⟩, ⟨0x14, 0, 0xffffffff⟩, ⟨0x18, 0, 0xffffffff⟩, ⟨0x1c, 0, 0xffffffff⟩,
    ⟨0x20, 0, 0xffffffff⟩, ⟨0x24, 0, 0xffffffff⟩]

def subsysVendor : Field := ⟨0x2c, 0, 0xffff⟩
def subsysId : Field := ⟨0x2c, 2, 0xffff⟩
def interruptLine : Field := ⟨0x3c, 0, 0xff⟩
def interruptPin : Field := ⟨0x3c, 1, 0xff⟩

/-- `generalFields`, of devices with header type 0. -/
def generalFields : List Field := bar ++ [subsysVendor, subsysId, interruptLine, interruptPin]

def primaryBus : Field := ⟨0x18, 0, 0xff⟩
def secondaryBus : Field := ⟨0x18, 1, 0xff⟩
def subordinate : Field := ⟨0x18, 2, 0xff⟩

/-- `bridgeFields`, of devices with header type 1 or 2. -/
def bridgeFields : List Field := [primaryBus, secondaryBus, subordinate]

/-- A field of one, two or four bytes that lies in an aligned register, at a multiple of its
width. -/
def Field.WellFormed (field : Field) : Prop :=
  field.offset % 4 = 0 ∧ field.offset < 256 ∧
    (field.mask = 0xff ∧ field.shift < 4 ∨
      field.mask = 0xffff ∧ (field.shift = 0 ∨ field.shift = 2) ∨
      field.mask = 0xffffffff ∧ field.shift = 0)

instance (field : Field) : Decidable field.WellFormed :=
  inferInstanceAs (Decidable (_ ∧ _))

theorem declared_wellFormed :
    ∀ field ∈ fields ++ generalFields ++ bridgeFields, field.WellFormed := by decide

/-- `dwToFieldValue`. -/
def dwToFieldValue (value : BitVec 32) (field : Field) : BitVec 32 :=
  (value >>> (8 * field.shift)) &&& field.mask

/-! ## The ports -/

/-- The registers of all devices, and what was last written to the address port. -/
structure ConfigSpace where
  configAddress : BitVec 32
  registers : Address → BitVec 6 → BitVec 32

namespace ConfigSpace

/-- Bits 8 to 23 of the address select the device. -/
def device (space : ConfigSpace) : Address where
  bus := space.configAddress.extractLsb' 16 8
  slot := space.configAddress.extractLsb' 11 5
  func := space.configAddress.extractLsb' 8 3

/-- Bits 2 to 7 select the register. -/
def register (space : ConfigSpace) : BitVec 6 := space.configAddress.extractLsb' 2 6

/-- `dataPort.read32`. -/
def read32 (space : ConfigSpace) : BitVec 32 := space.registers space.device space.register

/-- The space with the selected register replaced. -/
def store (space : ConfigSpace) (word : BitVec 32) : ConfigSpace :=
  { space with
    registers := fun device register =>
      if device = space.device ∧ register = space.register then word
      else space.registers device register }

/-- `dataPort.write32`. -/
def write32 (space : ConfigSpace) (value : BitVec 32) : ConfigSpace := space.store value

/-- `dataPort.write16` acts on the low two bytes of the register. -/
def write16 (space : ConfigSpace) (value : BitVec 32) : ConfigSpace :=
  space.store (space.read32 &&& ~~~0xffff ||| value &&& 0xffff)

/-- `dataPort.write8` acts on the lowest byte. -/
def write8 (space : ConfigSpace) (value : BitVec 32) : ConfigSpace :=
  space.store (space.read32 &&& ~~~0xff ||| value &&& 0xff)

end ConfigSpace

/-- The address that `setPort` writes. -/
def portAddress (address : Address) (offset : Nat) : BitVec 32 :=
  address.bus.setWidth 32 <<< 16 ||| address.slot.setWidth 32 <<< 11 |||
    address.func.setWidth 32 <<< 8 ||| BitVec.ofNat 32 offset &&& 0xfc ||| 0x80000000

def setPort (space : ConfigSpace) (address : Address) (offset : Nat) : ConfigSpace :=
  { space with configAddress := portAddress address offset }

def readRaw32 (space : ConfigSpace) (address : Address) (offset : Nat) :
    Except String (BitVec 32 × ConfigSpace) :=
  if offset % 4 ≠ 0 then .error "unaligned pci space 32 bit read"
  else
    let selected := setPort space address offset
    .ok (selected.read32, selected)

def writeRaw32 (space : ConfigSpace) (address : Address) (offset : Nat) (value : BitVec 32) :
    Except String ConfigSpace :=
  if offset % 4 ≠ 0 then .error "unaligned pci space 32-bit write"
  else .ok ((setPort space address offset).write32 value)

def writeRaw16 (space : ConfigSpace) (address : Address) (offset : Nat) (value : BitVec 32) :
    Except String ConfigSpace :=
  if offset % 2 ≠ 0 then .error "unaligned pci space 16-bit write"
  else .ok ((setPort space address offset).write16 (value &&& 0xffff))

def writeRaw8 (space : ConfigSpace) (address : Address) (offset : Nat) (value : BitVec 32) :
    Except String ConfigSpace :=
  .ok ((setPort space address offset).write8 (value &&& 0xff))

/-! ## The accessors -/

/-- The ports, and the caches of the accessors: one for each address, with the registers that were
read by their offset. -/
structure Scan where
  space : ConfigSpace
  offsetCache : Address → Nat → Option (BitVec 32)

namespace Scan

/-- The cache of one accessor with the entry of an offset replaced. -/
def cached (scan : Scan) (address : Address) (offset : Nat) (entry : Option (BitVec 32)) :
    Address → Nat → Option (BitVec 32) :=
  fun other place =>
    if other = address ∧ place = offset then entry else scan.offsetCache other place

/-- `read`. -/
def read (scan : Scan) (address : Address) (field : Field) : Except String (BitVec 32) × Scan :=
  match scan.offsetCache address field.offset with
  | some value => (.ok (dwToFieldValue value field), scan)
  | none =>
      match readRaw32 scan.space address field.offset with
      | .error message => (.error message, scan)
      | .ok (value, space) =>
          (.ok (dwToFieldValue value field),
            { space, offsetCache := scan.cached address field.offset (some value) })

/-- The writes that `write` chooses from. -/
def writeRaw (space : ConfigSpace) (address : Address) (field : Field) (value : BitVec 32) :
    Except String ConfigSpace :=
  if field.mask = 0xffffffff then writeRaw32 space address field.offset value
  else if field.mask = 0xffff then writeRaw16 space address (field.offset + field.shift) value
  else if field.mask = 0xff then writeRaw8 space address (field.offset + field.shift) value
  else .error "invalid pci space field mask"

/-- `write`. The entry of the register leaves the cache first. -/
def write (scan : Scan) (address : Address) (field : Field) (value : BitVec 32) :
    Except String Unit × Scan :=
  let offsetCache := scan.cached address field.offset none
  match writeRaw scan.space address field value with
  | .error message => (.error message, { scan with offsetCache })
  | .ok space => (.ok (), { space, offsetCache })

/-- `exists`. It passes by the cache. -/
def exists_ (scan : Scan) (address : Address) : Except String Bool × Scan :=
  match readRaw32 scan.space address vendorId.offset with
  | .error message => (.error message, scan)
  | .ok (value, space) => (.ok (dwToFieldValue value vendorId != 0xffff), { scan with space })

end Scan

/-- The accesses. -/
inductive Access where
  | read (address : Address) (field : Field)
  | write (address : Address) (field : Field) (value : BitVec 32)
  | exists_ (address : Address)

/-- The fields of an access are well formed. -/
def Access.WellFormed : Access → Prop
  | .read _ field => field.WellFormed
  | .write _ field _ => field.WellFormed
  | .exists_ _ => True

namespace Scan

/-- The effect of an access. -/
def step (scan : Scan) : Access → Scan
  | .read address field => (scan.read address field).2
  | .write address field value => (scan.write address field value).2
  | .exists_ address => (scan.exists_ address).2

/-- The start: nothing is cached. -/
def fresh (space : ConfigSpace) : Scan := ⟨space, fun _ _ => none⟩

end Scan

end JsOS.Core.Pci
