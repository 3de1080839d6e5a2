import Mathlib.Data.BitVec
import Mathlib.Data.List.Pairwise
import JsOS.Library.Rounding

/-! # Where the rings lie in memory

A device has one area of DMA memory. Each ring it sets up gets the next stretch of it,
and in this stretch a descriptor table, an available ring and a used ring, each made of
typed arrays over the buffer. The stretch is as long as the ring says it is
(`VRing.size`), and that does not count the header of the used ring: in a ring of up to
256 entries the rest of the last page has room for it, in a larger one it has not.
-/

namespace Virtio.Layout

/-! ## Regions -/

/-- A region of memory. -/
structure Region where
  start : ℕ
  length : ℕ
deriving DecidableEq, Repr

namespace Region

/-- The byte is in the region. -/
def Has (region : Region) (byte : ℕ) : Prop :=
  region.start ≤ byte ∧ byte < region.start + region.length

/-- No byte is in both regions. -/
def Disjoint (first second : Region) : Prop := ∀ byte, ¬ (first.Has byte ∧ second.Has byte)

/-- Every byte of the region is in the other one. -/
def Within (region outer : Region) : Prop := ∀ byte, region.Has byte → outer.Has byte

theorem disjoint_of_le {first second : Region}
    (before : first.start + first.length ≤ second.start) : first.Disjoint second := by
  rintro byte ⟨⟨-, below⟩, above, -⟩
  exact Nat.lt_irrefl _ (below.trans_le (before.trans above))

/-- Regions inside disjoint ones are disjoint. -/
theorem Disjoint.within {first second inner other : Region} (disjoint : first.Disjoint second)
    (inside : inner.Within first) (inside' : other.Within second) : inner.Disjoint other :=
  fun byte both => disjoint byte ⟨inside byte both.1, inside' byte both.2⟩

theorem within_of_le {region outer : Region} (above : outer.start ≤ region.start)
    (below : region.start + region.length ≤ outer.start + outer.length) : region.Within outer :=
  fun _ has => ⟨above.trans has.1, has.2.trans_le below⟩

end Region

/-! ## Rings -/

/-- What `__SYSCALL.allocDMA` returns. -/
structure DMA where
  address : ℕ
  size : ℕ
deriving DecidableEq, Repr

/-- A typed array over the buffer; `none` when the constructor throws a `RangeError`. -/
def typedArray (mem : DMA) (elementSize byteOffset length : ℕ) : Option Region :=
  if byteOffset % elementSize = 0 ∧ byteOffset + elementSize * length ≤ mem.size then
    some ⟨mem.address + byteOffset, elementSize * length⟩
  else none

/-- `SIZE`, the size of a descriptor. -/
def getDescriptorSizeBytes : ℕ := 16

/-- `ELEMENT_SIZE` of the used ring. -/
def getElementSize : ℕ := 8

/-- `OFFSET_BYTES_RING` of the used ring. -/
def OFFSET_BYTES_RING : ℕ := 4

def SIZEOF_UINT16 : ℕ := 2

/-- `align`: `(value + 4095 & ~4095) >>> 0`. -/
def align (value : ℕ) : ℕ := (BitVec.ofNat 32 (value + 4095) &&& ~~~4095#32).toNat

/-- The assertion of the constructor. -/
def isPowerOfTwo (ringSize : BitVec 16) : Bool :=
  ringSize ≠ 0 && ringSize &&& (ringSize - 1) = 0

def offsetAvailableRing (ringSize : ℕ) : ℕ := getDescriptorSizeBytes * ringSize

def offsetUsedRing (ringSize : ℕ) : ℕ :=
  align (offsetAvailableRing ringSize + SIZEOF_UINT16 * (3 + ringSize))

def ringSizeBytes (ringSize : ℕ) : ℕ :=
  offsetUsedRing ringSize + align (getElementSize * ringSize)

/-- The memory of a `VRing`. `ringData` and `ringElements` are the arrays of the used ring. -/
structure VRing where
  ringSize : ℕ
  address : ℕ
  size : ℕ
  descriptorTable : Region
  availableRing : Region
  ringData : Region
  ringElements : Region
deriving DecidableEq, Repr

/-- The constructor of `VRing`; `none` when it throws. -/
def VRing.new (mem : DMA) (byteOffset : ℕ) (ringSize : BitVec 16) : Option VRing :=
  if isPowerOfTwo ringSize then do
    let ringSize := ringSize.toNat
    let usedOffset := byteOffset + offsetUsedRing ringSize
    let descriptorTable ← typedArray mem 1 byteOffset (ringSize * getDescriptorSizeBytes)
    let availableRing ← typedArray mem 2 (byteOffset + offsetAvailableRing ringSize) (ringSize + 3)
    let ringData ← typedArray mem 2 usedOffset 2
    let ringElements ← typedArray mem 4 (usedOffset + OFFSET_BYTES_RING) (ringSize * 2)
    return ⟨ringSize, mem.address + byteOffset, ringSizeBytes ringSize, descriptorTable,
      availableRing, ringData, ringElements⟩
  else none

/-- The memory part of a `VirtioDevice`, with the rings set up so far. -/
structure Device where
  mem : DMA
  nextRingOffset : ℕ := 0
  rings : List VRing := []

/-- `queueSetup`, for the queue size that the device reports; `none` when it throws. -/
def Device.queueSetup (device : Device) (size : BitVec 16) : Option Device :=
  (VRing.new device.mem device.nextRingOffset size).map fun ring =>
    { device with
      nextRingOffset := device.nextRingOffset + ring.size
      rings := device.rings ++ [ring] }

/-- A sequence of calls of `queueSetup`. -/
def Device.setup (device : Device) (sizes : List (BitVec 16)) : Option Device :=
  sizes.foldlM Device.queueSetup device

namespace VRing

/-- The stretch of memory that a ring takes. -/
def stretch (ring : VRing) : Region := ⟨ring.address, ring.size⟩

/-- The used ring of the virtio layout: flags, index, elements and the `avail_event` field. -/
def usedRing (ring : VRing) : Region := ⟨ring.ringData.start, 4 + 8 * ring.ringSize + 2⟩

/-- The parts of a ring. -/
def parts (ring : VRing) : List Region :=
  [ring.descriptorTable, ring.availableRing, ring.usedRing]

end VRing

/-- All parts of all rings are disjoint, and each lies in the stretch of its ring. -/
structure Device.LaidOut (device : Device) : Prop where
  disjoint : (device.rings.flatMap VRing.parts).Pairwise Region.Disjoint
  within : ∀ ring ∈ device.rings, ∀ part ∈ ring.parts, part.Within ring.stretch

/-- The sizes are powers of two, and the rings fit into the memory. -/
def Fits (mem : DMA) : (offset : ℕ) → List (BitVec 16) → Prop
  | _, [] => True
  | offset, size :: sizes =>
      isPowerOfTwo size ∧ offset + ringSizeBytes size.toNat ≤ mem.size ∧
        Fits mem (offset + ringSizeBytes size.toNat) sizes

instance Fits.decidable (mem : DMA) :
    ∀ (offset : ℕ) (sizes : List (BitVec 16)), Decidable (Fits mem offset sizes)
  | _, [] => .isTrue trivial
  | offset, size :: sizes =>
      have := Fits.decidable mem (offset + ringSizeBytes size.toNat) sizes
      inferInstanceAs (Decidable (isPowerOfTwo size ∧
        offset + ringSizeBytes size.toNat ≤ mem.size ∧
          Fits mem (offset + ringSizeBytes size.toNat) sizes))

/-! ## Sizes and offsets -/

/-- `align` rounds up to whole pages. -/
theorem align_eq {value : ℕ} (small : value < 2 ^ 31) :
    align value = (value + 4095) / 4096 * 4096 := by
  have wide : value + 4095 < 2 ^ 32 := by omega
  have rounded := Rounding.toNat_and_not_ones 12 (BitVec.ofNat 32 (value + 4095))
  rwa [BitVec.toNat_ofNat, Nat.mod_eq_of_lt wide] at rounded

/-- The queue sizes are powers of two: up to 256, or multiples of 512. -/
theorem isPowerOfTwo_cases {size : BitVec 16} (power : isPowerOfTwo size) :
    0 < size.toNat ∧ (size.toNat ≤ 256 ∨ 512 ∣ size.toNat) := by
  rw [isPowerOfTwo, Bool.and_eq_true, decide_eq_true_iff, decide_eq_true_iff] at power
  obtain ⟨nonzero, masked⟩ := power
  have positive : size.toNat ≠ 0 := fun zero => nonzero (BitVec.eq_of_toNat_eq zero)
  have small := size.isLt
  have below : (size - 1).toNat = size.toNat - 1 := by
    rw [BitVec.toNat_sub]
    change (2 ^ 16 - 1 + size.toNat) % 2 ^ 16 = _
    omega
  have masks := congrArg BitVec.toNat masked
  rw [BitVec.toNat_and, below] at masks
  obtain ⟨exponent, power⟩ := (Nat.and_sub_one_eq_zero_iff_isPowerOfTwo positive).mp masks
  rw [power]
  refine ⟨Nat.two_pow_pos exponent, ?_⟩
  rcases Nat.lt_or_ge exponent 9 with short | long
  · exact .inl (Nat.pow_le_pow_right (by decide) (Nat.le_of_lt_succ short))
  · exact .inr (pow_dvd_pow 2 long)

section Ring

variable {mem : DMA} {byteOffset : ℕ} {size : BitVec 16} {ring : VRing}

/-- Where the used ring begins, and what is left for it. -/
theorem offsets (power : isPowerOfTwo size) :
    18 * size.toNat + 6 ≤ offsetUsedRing size.toNat ∧ offsetUsedRing size.toNat % 4096 = 0 ∧
      ringSizeBytes size.toNat % 4096 = 0 ∧
      (ringSizeBytes size.toNat < offsetUsedRing size.toNat + (8 * size.toNat + 6) ↔
        ¬ size.toNat ≤ 256) ∧
      offsetUsedRing size.toNat + 8 * size.toNat ≤ ringSizeBytes size.toNat := by
  have small := size.isLt
  obtain ⟨positive, sizes⟩ := isPowerOfTwo_cases power
  unfold ringSizeBytes offsetUsedRing offsetAvailableRing getDescriptorSizeBytes getElementSize
    SIZEOF_UINT16
  rw [align_eq (by omega), align_eq (by omega)]
  omega

/-- What the constructor makes. -/
theorem new_eq (created : VRing.new mem byteOffset size = some ring) :
    isPowerOfTwo size ∧ ring =
      { ringSize := size.toNat
        address := mem.address + byteOffset
        size := ringSizeBytes size.toNat
        descriptorTable := ⟨mem.address + byteOffset, 1 * (size.toNat * 16)⟩
        availableRing := ⟨mem.address + (byteOffset + 16 * size.toNat), 2 * (size.toNat + 3)⟩
        ringData := ⟨mem.address + (byteOffset + offsetUsedRing size.toNat), 2 * 2⟩
        ringElements :=
          ⟨mem.address + (byteOffset + offsetUsedRing size.toNat + 4), 4 * (size.toNat * 2)⟩ } := by
  unfold VRing.new at created
  split at created
  · next power =>
      simp only [typedArray, Option.bind_eq_bind, Option.bind_eq_some_iff, Option.ite_none_right_eq_some,
        Option.some.injEq, Option.pure_def] at created
      obtain ⟨table, ⟨-, rfl⟩, available, ⟨-, rfl⟩, data, ⟨-, rfl⟩, elements, ⟨-, rfl⟩, rfl⟩ := created
      exact ⟨power, rfl⟩
  · cases created

/-- The constructor succeeds on a page of memory that the ring fits into, unless the ring
is too large. -/
theorem exists_new (power : isPowerOfTwo size) (page : byteOffset % 4096 = 0)
    (fits : byteOffset + ringSizeBytes size.toNat ≤ mem.size) (small : size.toNat ≤ 256) :
    ∃ ring, VRing.new mem byteOffset size = some ring := by
  obtain ⟨used, whole, -, room, -⟩ := offsets power
  rw [iff_not_comm, Nat.not_lt] at room
  have enough := room.mp small
  unfold VRing.new typedArray offsetAvailableRing getDescriptorSizeBytes OFFSET_BYTES_RING
  rw [if_pos power]
  dsimp only
  rw [if_pos (by omega), if_pos (by omega), if_pos (by omega), if_pos (by omega)]
  exact ⟨_, rfl⟩

/-- **A ring stays inside its stretch exactly if it has at most 256 entries**, and its parts
are disjoint in any case. -/
theorem new_parts (created : VRing.new mem byteOffset size = some ring) :
    ring.parts.Pairwise Region.Disjoint ∧
      ((∀ part ∈ ring.parts, part.Within ring.stretch) ↔ size.toNat ≤ 256) := by
  obtain ⟨power, rfl⟩ := new_eq created
  obtain ⟨used, -, -, room, -⟩ := offsets power
  unfold VRing.parts VRing.usedRing VRing.stretch
  dsimp only
  constructor
  · rw [List.pairwise_cons, List.pairwise_cons]
    refine ⟨?_, ?_, List.pairwise_singleton _ _⟩
    · intro part member
      rcases List.mem_cons.mp member with rfl | later
      · exact Region.disjoint_of_le (by dsimp only; omega)
      · rw [List.mem_singleton.mp later]
        exact Region.disjoint_of_le (by dsimp only; omega)
    · intro part member
      rw [List.mem_singleton.mp member]
      exact Region.disjoint_of_le (by dsimp only; omega)
  · constructor
    · intro within
      by_contra large
      have short := room.mpr large
      -- The last byte of `avail_event` is past the end.
      have last := within _ (List.mem_cons_of_mem _ (List.mem_cons_of_mem _ List.mem_cons_self))
        (mem.address + (byteOffset + offsetUsedRing size.toNat) + 8 * size.toNat + 5)
        ⟨by dsimp only; omega, by dsimp only; omega⟩
      have below := last.2
      dsimp only at below
      omega
    · intro small part member
      rw [iff_not_comm, Nat.not_lt] at room
      have enough := room.mp small
      rcases List.mem_cons.mp member with rfl | later
      · exact Region.within_of_le (Nat.le_refl _) (by dsimp only; omega)
      · rcases List.mem_cons.mp later with rfl | last
        · exact Region.within_of_le (by dsimp only; omega) (by dsimp only; omega)
        · rw [List.mem_singleton.mp last]
          exact Region.within_of_le (by dsimp only; omega) (by dsimp only; omega)

end Ring

/-! ## Devices -/

/-- The rings set up so far are laid out, and take whole pages below the next offset. -/
structure Device.Stacked (device : Device) : Prop where
  page : device.nextRingOffset % 4096 = 0
  below : ∀ ring ∈ device.rings,
    ring.address + ring.size ≤ device.mem.address + device.nextRingOffset
  laidOut : device.LaidOut

theorem Device.Stacked.queueSetup {device after : Device} (stacked : device.Stacked)
    {size : BitVec 16} (small : size.toNat ≤ 256) (sets : device.queueSetup size = some after) :
    after.Stacked := by
  obtain ⟨ring, created, rfl⟩ := Option.map_eq_some_iff.mp sets
  obtain ⟨apart, inside⟩ := new_parts created
  have within := inside.mpr small
  obtain ⟨power, made⟩ := new_eq created
  have address : ring.address = device.mem.address + device.nextRingOffset := by rw [made]
  have length : ring.size = ringSizeBytes size.toNat := by rw [made]
  have whole := (offsets power).2.2.1
  refine ⟨?_, fun other member => ?_, ⟨?_, fun other member => ?_⟩⟩
  · dsimp only
    rw [length, Nat.add_mod, stacked.page, whole]
  · rcases List.mem_append.mp member with old | new
    · exact (stacked.below other old).trans (by dsimp only; omega)
    · rw [List.mem_singleton.mp new, address]
      exact Nat.le_of_eq (Nat.add_assoc _ _ _)
  · dsimp only
    rw [List.flatMap_append, List.pairwise_append]
    refine ⟨stacked.laidOut.disjoint, ?_, fun first old second new => ?_⟩
    · rw [List.flatMap_singleton]
      exact apart
    · rw [List.flatMap_singleton] at new
      obtain ⟨owner, member, part⟩ := List.mem_flatMap.mp old
      have separate : owner.stretch.Disjoint ring.stretch :=
        Region.disjoint_of_le ((stacked.below owner member).trans (Nat.le_of_eq address.symm))
      exact separate.within (stacked.laidOut.within owner member first part) (within second new)
  · rcases List.mem_append.mp member with old | new
    · exact stacked.laidOut.within other old
    · rw [List.mem_singleton.mp new]
      exact within

/-- Small rings that fit can all be set up, and are laid out. -/
theorem Device.Stacked.setup {device : Device} (stacked : device.Stacked)
    {sizes : List (BitVec 16)} (fits : Fits device.mem device.nextRingOffset sizes)
    (small : ∀ size ∈ sizes, size.toNat ≤ 256) :
    ∃ after, device.setup sizes = some after ∧ after.LaidOut := by
  induction sizes generalizing device with
  | nil => exact ⟨device, rfl, stacked.laidOut⟩
  | cons size sizes ih =>
      obtain ⟨power, room, rest⟩ := fits
      have first := small size List.mem_cons_self
      obtain ⟨ring, created⟩ := exists_new power stacked.page room first
      have sets : device.queueSetup size = some
          ⟨device.mem, device.nextRingOffset + ring.size, device.rings ++ [ring]⟩ := by
        rw [Device.queueSetup, created]
        rfl
      have length : ring.size = ringSizeBytes size.toNat := by rw [(new_eq created).2]
      obtain ⟨after, later, laidOut⟩ := ih (stacked.queueSetup first sets)
        (by rw [length]; exact rest) fun other member => small other (List.mem_cons_of_mem _ member)
      refine ⟨after, ?_, laidOut⟩
      rw [Device.setup, List.foldlM_cons, sets]
      exact later

/-- Every call that is made sets up a ring of its size, and the rings stay. -/
theorem Device.setup_rings {device after : Device} {sizes : List (BitVec 16)}
    (sets : device.setup sizes = some after) :
    (∀ ring ∈ device.rings, ring ∈ after.rings) ∧
      ∀ size ∈ sizes, ∃ ring ∈ after.rings, ∃ mem offset, VRing.new mem offset size = some ring := by
  induction sizes generalizing device with
  | nil =>
      cases sets
      exact ⟨fun _ member => member, fun _ member => absurd member List.not_mem_nil⟩
  | cons size sizes ih =>
      rw [Device.setup, List.foldlM_cons] at sets
      obtain ⟨next, first, later⟩ := Option.bind_eq_some_iff.mp sets
      obtain ⟨kept, made⟩ := ih later
      obtain ⟨ring, created, rfl⟩ := Option.map_eq_some_iff.mp first
      refine ⟨fun other member => kept other (List.mem_append_left _ member), fun other member => ?_⟩
      rcases List.mem_cons.mp member with rfl | rest
      · exact ⟨ring, kept ring (List.mem_append_right _ (List.mem_singleton_self _)), _, _, created⟩
      · exact made other rest

/-- **Rings are laid out exactly if none has more than 256 entries.** Rings of powers of two
that fit into the memory can be set up if all have at most 256 entries, and if they have been
set up, their parts are disjoint and inside their stretches exactly in that case. -/
theorem layout_exact (mem : DMA) (sizes : List (BitVec 16)) (fits : Fits mem 0 sizes) :
    ((∀ size ∈ sizes, size.toNat ≤ 256) → ∃ device, Device.setup { mem } sizes = some device) ∧
      ∀ device, Device.setup { mem } sizes = some device →
        (device.LaidOut ↔ ∀ size ∈ sizes, size.toNat ≤ 256) := by
  have stacked : Device.Stacked { mem } :=
    ⟨rfl, fun _ member => absurd member List.not_mem_nil, List.Pairwise.nil,
      fun _ member => absurd member List.not_mem_nil⟩
  refine ⟨fun small => ?_, fun device sets => ⟨fun laidOut size member => ?_, fun small => ?_⟩⟩
  · obtain ⟨device, sets, -⟩ := stacked.setup fits small
    exact ⟨device, sets⟩
  · obtain ⟨ring, present, _, _, created⟩ := (Device.setup_rings sets).2 size member
    exact (new_parts created).2.mp (laidOut.within ring present)
  · obtain ⟨after, same, laidOut⟩ := stacked.setup fits small
    rw [sets] at same
    cases same
    exact laidOut

/-- Two queues of a network card, in one large page. -/
theorem layout_network :
    (∃ device, Device.setup { mem := ⟨0x2000000, 0x200000⟩ } [256#16, 256#16] = some device) ∧
      ∀ device, Device.setup { mem := ⟨0x2000000, 0x200000⟩ } [256#16, 256#16] = some device →
        (device.LaidOut ↔ ∀ size ∈ [256#16, 256#16], size.toNat ≤ 256) := by
  obtain ⟨sets, laidOut⟩ := layout_exact ⟨0x2000000, 0x200000⟩ [256#16, 256#16] (by decide +kernel)
  refine ⟨sets fun size member => ?_, laidOut⟩
  rw [List.mem_cons, List.mem_singleton, or_self] at member
  rw [member]
  decide

/-- Two queues of 512 entries fit into a large page and are set up, and the used ring of
the first one ends past its stretch. -/
theorem large_rings_not_laidOut : ∃ device,
    Fits ⟨0x2000000, 0x200000⟩ 0 [512#16, 512#16] ∧
      Device.setup { mem := ⟨0x2000000, 0x200000⟩ } [512#16, 512#16] = some device ∧
      ¬ device.LaidOut := by
  have sets : Device.setup { mem := ⟨0x2000000, 0x200000⟩ } [512#16, 512#16] =
      some ((Device.setup { mem := ⟨0x2000000, 0x200000⟩ } [512#16, 512#16]).get
        (by decide +kernel)) := (Option.some_get _).symm
  refine ⟨_, by decide +kernel, sets, fun laidOut => ?_⟩
  obtain ⟨ring, present, _, _, created⟩ := (Device.setup_rings sets).2 512#16 List.mem_cons_self
  have small := (new_parts created).2.mp (laidOut.within ring present)
  revert small
  decide

end Virtio.Layout
