import Mathlib.Data.BitVec
import Mathlib.Data.List.Basic

/-! # Virtqueue rings

The driver's half of a virtqueue: the descriptor table with its free list, the
available ring the driver writes and the used ring it reads. All three lie in
memory that the device reads and writes as well, at the widths of the virtio
format; what that memory holds before the rings are set up is arbitrary.

A `Uint8Array` is the stretch of virtual memory it shows. Physical addresses come
from the kernel's page tables and are a parameter, `translate`.
-/

namespace Virtio

/-- The stretch of virtual memory a `Uint8Array` shows. -/
structure Uint8Array where
  address : ℕ
  length : ℕ
deriving DecidableEq, Repr

/-- The part of an array between two indices, both cut to its length. -/
def Uint8Array.subarray (u8 : Uint8Array) (start stop : ℕ) : Uint8Array where
  address := u8.address + min start u8.length
  length := min stop u8.length - min start u8.length

/-- What the kernel reports about the physical memory behind an array: the length of the
part before the last page boundary inside it (the whole length when there is none) and
the length of the part after. -/
structure BufferAddress where
  length : ℕ
  rest : ℕ
deriving DecidableEq, Repr

/-- The kernel's large pages are two megabytes. -/
def pageSize : ℕ := 0x200000

/-- The system call on a non-empty array; on an empty array it throws. -/
def bufferAddress (translate : ℕ → ℕ) (u8 : Uint8Array) : Option BufferAddress :=
  if u8.length = 0 then none
  else
    let pstart := translate u8.address
    let pend := pstart + u8.length
    let pboundary := pend / pageSize * pageSize
    if pstart < pboundary then
      some
        { length := (pboundary - pstart) % 2 ^ 32
          rest := (u8.length - (pboundary - pstart)) % 2 ^ 32 }
    else
      some { length := u8.length % 2 ^ 32, rest := 0 }

/-! ## Descriptor table -/

/-- An entry of the descriptor table. -/
structure Descriptor where
  addr : BitVec 64
  len : BitVec 32
  flags : BitVec 16
  next : BitVec 16
deriving DecidableEq, Repr, Inhabited

/-- The chain goes on at `next`. -/
def VRING_DESC_F_NEXT : BitVec 16 := 1

/-- The device may only write the buffer. -/
def VRING_DESC_F_WRITE : BitVec 16 := 2

structure DescriptorTable where
  mem : List Descriptor
  freeDescriptorHead : ℕ
  descriptorsAvailable : ℕ
  descriptorsBuffers : List (Option Uint8Array)
deriving DecidableEq, Repr

namespace DescriptorTable

variable (table : DescriptorTable)

def get (descriptorId : ℕ) : Descriptor := table.mem.getD descriptorId default

def getDescriptorBuffer (descriptorId : ℕ) : Option Uint8Array :=
  (table.descriptorsBuffers.getD descriptorId none)

def getNext (descriptorId : ℕ) : ℕ := (table.get descriptorId).next.toNat

def setNext (descriptorId next : ℕ) : DescriptorTable :=
  { table with
    mem := table.mem.modify descriptorId fun desc => { desc with next := BitVec.ofNat 16 next } }

/-- Descriptors that are given a buffer keep their link. -/
def setBuffer (translate : ℕ → ℕ) (descriptorId : ℕ) (buf : Uint8Array) (len : ℕ)
    (flags : BitVec 16) : DescriptorTable :=
  { table with
    mem := table.mem.modify descriptorId fun desc =>
      { desc with
        addr := BitVec.ofNat 64 (translate buf.address)
        len := BitVec.ofNat 32 len
        flags := flags } }

def setDescriptorBuffer (descriptorId : ℕ) (buf : Option Uint8Array) : DescriptorTable :=
  { table with descriptorsBuffers := table.descriptorsBuffers.set descriptorId buf }

/-- A table over memory with arbitrary contents. The last descriptor's link is left as
it is found. -/
def create (memory : ℕ → Descriptor) (ringSize : ℕ) : DescriptorTable :=
  (List.range (ringSize - 1)).foldl (fun table i => table.setNext i (i + 1))
    { mem := (List.range ringSize).map memory
      freeDescriptorHead := 0
      descriptorsAvailable := ringSize
      descriptorsBuffers := List.replicate ringSize none }

/-- The flags of the `i`-th of `count` buffers. -/
def bufferFlags (count i : ℕ) (bufWriteOnly : Bool) : BitVec 16 :=
  (if count ≠ i + 1 then VRING_DESC_F_NEXT else 0) |||
    (if bufWriteOnly then VRING_DESC_F_WRITE else 0)

/-- One buffer goes into one descriptor. -/
def fill (translate : ℕ → ℕ) (descriptorId : ℕ) (buffer : Uint8Array × ℕ)
    (flags : BitVec 16) : DescriptorTable :=
  (table.setBuffer translate descriptorId buffer.1 buffer.2 flags).setDescriptorBuffer
    descriptorId (some buffer.1)

/-- The loop of `placeBuffers` over the buffers from the `i`-th on, with the descriptor
the next buffer goes to. -/
def placeLoop (translate : ℕ → ℕ) (writeOnly : ℕ → Bool) (count : ℕ) :
    List (Uint8Array × ℕ) → ℕ → ℕ → DescriptorTable → DescriptorTable × ℕ
  | [], _, head, table => (table, head)
  | buffer :: buffers, i, head, table =>
      let filled := table.fill translate head buffer (bufferFlags count i (writeOnly i))
      placeLoop translate writeOnly count buffers (i + 1) (filled.getNext head) filled

/-- Puts buffers with their lengths into free descriptors and returns the first one, or
nothing when too few are free. -/
def placeBuffers (translate : ℕ → ℕ) (writeOnly : ℕ → Bool)
    (buffers : List (Uint8Array × ℕ)) : DescriptorTable × Option ℕ :=
  let count := buffers.length
  if table.descriptorsAvailable < count then (table, none)
  else
    let first := table.freeDescriptorHead
    let (placed, head) := placeLoop translate writeOnly count buffers 0 first table
    ({ placed with
        descriptorsAvailable := placed.descriptorsAvailable - count
        freeDescriptorHead := head }, some first)

/-- Whether the chain goes on after a descriptor. -/
def hasNext (descriptorId : ℕ) : Bool :=
  (table.get descriptorId).flags &&& VRING_DESC_F_NEXT != 0

/-- The loop of `getBuffer`: the last descriptor of a chain and the count of free
descriptors after those before the last are counted. A chain that does not end within
the fuel has come back to one of its descriptors, and the loop never ends. -/
def getLoop : ℕ → ℕ → ℕ → Option (ℕ × ℕ)
  | 0, _, _ => none
  | fuel + 1, descriptorId, available =>
      if table.hasNext descriptorId then
        getLoop fuel (table.getNext descriptorId) (available + 1)
      else some (descriptorId, available)

/-- Takes the buffer of a chain's first descriptor and puts the chain in front of the
free list. There is no result when the loop over the chain never ends. -/
def getBuffer (descriptorId : ℕ) : Option (DescriptorTable × Option Uint8Array) :=
  let buffer := table.getDescriptorBuffer descriptorId
  let taken := table.setDescriptorBuffer descriptorId none
  (taken.getLoop taken.mem.length descriptorId taken.descriptorsAvailable).map fun found =>
    ({ taken.setNext found.1 taken.freeDescriptorHead with
        freeDescriptorHead := descriptorId
        descriptorsAvailable := found.2 + 1 }, buffer)

end DescriptorTable

/-! ## Available ring -/

/-- The device need not interrupt when it has used a buffer. -/
def VRING_AVAIL_F_NO_INTERRUPT : BitVec 16 := 1

structure AvailableRing where
  ringSize : ℕ
  flags : BitVec 16
  idx : BitVec 16
  ring : List (BitVec 16)
  usedEvent : BitVec 16
deriving DecidableEq, Repr

namespace AvailableRing

variable (available : AvailableRing)

def setEventIdx (value : BitVec 16) : AvailableRing := { available with usedEvent := value }

/-- The slot of the ring an index falls on. -/
def slot (idx : BitVec 16) : ℕ := idx.toNat &&& (available.ringSize - 1)

def placeDescriptor (index : ℕ) : AvailableRing :=
  { available with
    ring := available.ring.set (available.slot available.idx) (BitVec.ofNat 16 index)
    idx := available.idx + 1 }

def readDescriptorAsDevice (idxIndex : ℕ) : BitVec 16 := available.ring.getD idxIndex 0

def disableInterrupts : AvailableRing := { available with flags := VRING_AVAIL_F_NO_INTERRUPT }

def enableInterrupts : AvailableRing := { available with flags := 0 }

end AvailableRing

/-! ## Used ring -/

/-- An entry of the used ring: the first descriptor of a chain the device is done with
and the number of bytes it wrote. -/
structure UsedElement where
  id : BitVec 32
  len : BitVec 32
deriving DecidableEq, Repr, Inhabited

structure UsedRing where
  ringSize : ℕ
  idx : BitVec 16
  ringElements : List UsedElement
  lastUsedIndex : BitVec 16
deriving DecidableEq, Repr

namespace UsedRing

variable (used : UsedRing)

def readElement (index : ℕ) : UsedElement := used.ringElements.getD index default

def slot (idx : BitVec 16) : ℕ := idx.toNat &&& (used.ringSize - 1)

def hasUnprocessedBuffers : Bool := used.lastUsedIndex != used.idx

def getUsedDescriptor : UsedRing × UsedElement :=
  ({ used with lastUsedIndex := used.lastUsedIndex + 1 },
    used.readElement (used.slot used.lastUsedIndex))

/-- What the device does to the used ring: it writes the entry its index falls on, then
moves the index. -/
def publishAsDevice (element : UsedElement) : UsedRing :=
  { used with
    ringElements := used.ringElements.set (used.slot used.idx) element
    idx := used.idx + 1 }

end UsedRing

/-! ## The virtqueue -/

structure VRing where
  ringSize : ℕ
  suppressInterrupts : Bool
  descriptorTable : DescriptorTable
  availableRing : AvailableRing
  usedRing : UsedRing
deriving DecidableEq, Repr

/-- What the memory under the rings holds before they are set up. -/
structure Memory where
  descriptors : ℕ → Descriptor
  available : ℕ → BitVec 16
  used : ℕ → UsedElement

/-- One entry that `getBuffer` has taken from the used ring, with the buffer it found at
the entry's descriptor. -/
structure Completion where
  used : UsedElement
  buffer : Option Uint8Array
deriving DecidableEq, Repr

/-- What `getBuffer` returns for the entry: the buffer cut to the used length, or null when
there was no buffer. -/
def Completion.result (completion : Completion) : Option Uint8Array :=
  completion.buffer.map fun buffer => buffer.subarray 0 completion.used.len.toNat

/-- How a call of `placeBuffers` ends. -/
inductive Outcome where
  | returned (placed : Bool)
  /-- One of the buffers is an empty array. -/
  | thrown
deriving DecidableEq, Repr

namespace VRing

/-- The constructor's check on the ring size. -/
def validSize (ringSize : ℕ) : Bool := ringSize != 0 && ringSize &&& (ringSize - 1) == 0

def create (memory : Memory) (ringSize : ℕ) : VRing where
  ringSize := ringSize
  suppressInterrupts := false
  descriptorTable := .create memory.descriptors ringSize
  availableRing :=
    { ringSize := ringSize
      flags := 0
      idx := 0
      ring := (List.range ringSize).map memory.available
      usedEvent := 0 }
  usedRing :=
    { ringSize := ringSize
      idx := 0
      ringElements := (List.range ringSize).map memory.used
      lastUsedIndex := 0 }

variable (ring : VRing)

/-- Takes the next entry of the used ring, when there is one. There is no result when the
entry's chain never ends. -/
def getBuffer : Option (VRing × Option Completion) :=
  if ring.usedRing.hasUnprocessedBuffers then
    let (usedRing, used) := ring.usedRing.getUsedDescriptor
    (ring.descriptorTable.getBuffer used.id.toNat).map fun got =>
      ({ ring with
          usedRing := usedRing
          descriptorTable := got.1
          availableRing := ring.availableRing.setEventIdx (usedRing.lastUsedIndex + 1) },
        some { used := used, buffer := got.2 })
  else some (ring, none)

/-- The inner loop of `fetchBuffers`: calls `getBuffer` until it returns null, and gives
the entries taken. The loop ends at the latest when the index of the used ring, which has
sixteen bits, is reached; the fuel allows for every value. -/
def drain : ℕ → VRing → Option (VRing × List Completion)
  | 0, _ => none
  | fuel + 1, ring =>
      match ring.getBuffer with
      | none => none
      | some (ring, none) => some (ring, [])
      | some (ring, some completion) =>
          if completion.result = none then some (ring, [completion])
          else (drain fuel ring).map fun drained => (drained.1, completion :: drained.2)

def disableInterrupts : VRing :=
  if ring.suppressInterrupts then ring
  else { ring with availableRing := ring.availableRing.disableInterrupts }

def enableInterrupts : VRing :=
  if ring.suppressInterrupts then ring
  else { ring with availableRing := ring.availableRing.enableInterrupts }

/-- The outer loop of `fetchBuffers`: drains the used ring until nothing new has come in
by the time interrupts are enabled again. -/
def fetchLoop : ℕ → VRing → Option (VRing × List Completion)
  | 0, _ => none
  | fuel + 1, ring =>
      match drain (2 ^ 16) ring.disableInterrupts with
      | none => none
      | some (drained, completions) =>
          if drained.enableInterrupts.usedRing.hasUnprocessedBuffers then
            (fetchLoop fuel drained.enableInterrupts).map fun fetched =>
              (fetched.1, completions ++ fetched.2)
          else some (drained.enableInterrupts, completions)

/-- Takes every entry of the used ring. The callback is called with the result of each
entry that has one, in order. -/
def fetchBuffers : Option (VRing × List Completion) := fetchLoop (2 ^ 16) ring

/-- The buffers of a request with the lengths for their descriptors: an array whose memory
lies on two physical pages takes two descriptors, the first of which keeps the whole array. -/
def splitBuffers (translate : ℕ → ℕ) : List Uint8Array → Option (List (Uint8Array × ℕ))
  | [] => some []
  | u8 :: buffers =>
      match bufferAddress translate u8, splitBuffers translate buffers with
      | some addr, some rest =>
          if addr.rest = 0 then some ((u8, addr.length) :: rest)
          else some ((u8, addr.length) :: (u8.subarray addr.length u8.length, addr.rest) :: rest)
      | _, _ => none

/-- The flag of each descriptor: the optional array is read at the position of the
descriptor, and past its end is not set. -/
def writeOnly (isWriteOnly : Bool) (isWriteOnlyArray : Option (List Bool)) (i : ℕ) : Bool :=
  match isWriteOnlyArray with
  | some array => array.getD i false
  | none => isWriteOnly

/-- Supplies buffers to the device: `placeBuffers` without the fetch at its start. -/
def supply (translate : ℕ → ℕ) (buffers : List Uint8Array) (isWriteOnly : Bool)
    (isWriteOnlyArray : Option (List Bool)) : VRing × Outcome :=
  match splitBuffers translate buffers with
  | none => (ring, .thrown)
  | some parts =>
      match ring.descriptorTable.placeBuffers translate
        (writeOnly isWriteOnly isWriteOnlyArray) parts with
      | (_, none) => (ring, .returned false)
      | (descriptorTable, some first) =>
          ({ ring with
              descriptorTable := descriptorTable
              availableRing := ring.availableRing.placeDescriptor first }, .returned true)

/-- The fetch at the start of `placeBuffers`, made when used buffers raise no interrupt. -/
def fetchSuppressed : Option (VRing × List Completion) :=
  if ring.suppressInterrupts then ring.fetchBuffers else some (ring, [])

/-- Supplies buffers to the device, and gives the entries of the used ring taken on the
way. -/
def placeBuffers (translate : ℕ → ℕ) (buffers : List Uint8Array) (isWriteOnly : Bool)
    (isWriteOnlyArray : Option (List Bool)) : Option (VRing × Outcome × List Completion) :=
  ring.fetchSuppressed.map fun fetched =>
    let (supplied, outcome) := fetched.1.supply translate buffers isWriteOnly isWriteOnlyArray
    (supplied, outcome, fetched.2)

def suppressUsedBuffers : VRing :=
  { ring with
    suppressInterrupts := true
    availableRing := ring.availableRing.disableInterrupts }

end VRing

end Virtio
