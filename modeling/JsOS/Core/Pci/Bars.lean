import JsOS.Core.Pci.FieldAccess
import JsOS.Kernel.Resources

/-! # Base address registers

`getBAR` writes ones to a base address register and reads back which bits the device takes. The
bits below the size stay zero, so that the ones' complement of the others is one less than it.
The flag of 64-bit memory is looked at first, which in a register for ports is an address bit, and
the block for the memory is made by a call that does not reach the end of the address range
(`decodes_iff`).
-/

namespace JsOS.Core.Pci

open Kernel (Resource Outcome)
open Library

/-! ## The device -/

/-- The number of type bits. -/
def typeBits (isIo : Bool) : ℕ := if isIo then 2 else 4

/-- **A base address register of a device**, for ports or 32-bit memory. The type bits are read
only, the address bits below the size are hard-wired to zero, and the others hold a base that is a
multiple of the size and fits the address range. -/
structure BaseRegister where
  isIo : Bool
  bits : ℕ
  flags : BitVec 32
  base : BitVec 32
  flagsIo : isIo = true → flags = 0x1
  /-- Memory anywhere or below 1 MiB, prefetchable or not. -/
  flagsMemory : isIo = false → flags ∈ [0x0, 0x2, 0x8, 0xa]
  room : typeBits isIo ≤ bits
  aligned : 2 ^ bits ∣ base.toNat
  used : base ≠ 0
  fits : base.toNat + 2 ^ bits ≤ if isIo then 2 ^ 16 else 2 ^ 32

namespace BaseRegister

/-- The number of ports or bytes. -/
def size (register : BaseRegister) : ℕ := 2 ^ register.bits

/-- What the register holds. -/
def held (register : BaseRegister) : BitVec 32 := register.base ||| register.flags

/-- What the register takes of a value that is written. -/
def taken (register : BaseRegister) (value : BitVec 32) : BitVec 32 :=
  value &&& ~~~BitField.low 32 register.bits ||| register.flags

end BaseRegister

/-- What the registers of the devices take of a value. -/
abbrev Hardware := Address → BitVec 6 → BitVec 32 → BitVec 32

/-- The hardware in which a device has some base address registers. -/
def withBars (others : Hardware) (device : Address) (bars : Fin 6 → BaseRegister) : Hardware :=
  fun address register value =>
    if address = device then
      if inside : 4 ≤ register.toNat ∧ register.toNat < 10 then
        (bars ⟨register.toNat - 4, by omega⟩).taken value
      else others address register value
    else others address register value

/-- The registers after the selected one was written. -/
def settle (hardware : Hardware) (space : ConfigSpace) : ConfigSpace :=
  space.store (hardware space.device space.register space.read32)

namespace Scan

/-- `write`, to registers that take what the hardware lets them. -/
def writeTo (hardware : Hardware) (scan : Scan) (address : Address) (field : Field)
    (value : BitVec 32) : Except String Unit × Scan :=
  match scan.write address field value with
  | (.error message, written) => (.error message, written)
  | (.ok (), written) => (.ok (), { written with space := settle hardware written.space })

/-- The effect of an access on the hardware. -/
def stepOn (hardware : Hardware) (scan : Scan) : Access → Scan
  | .read address field => (scan.read address field).2
  | .write address field value => (scan.writeTo hardware address field value).2
  | .exists_ address => (scan.exists_ address).2

end Scan

/-! ## Reading a register -/

/-- The types of a region. -/
inductive BarType where
  | io
  | mem32
  deriving DecidableEq, Repr

/-- What `getBAR` gives: a region with its resource, `null`, or an error. A resource that cannot
be made is an error, too. -/
inductive Region where
  | found (type : BarType) (base size : ℕ) (resource : Resource)
  | null
  | error (message : String)
  | refused (outcome : Outcome)
  deriving DecidableEq, Repr

/-- `io` and `memrange`, the ranges of the system. -/
def io : Resource := .ioRange ⟨1, 0xffff⟩

def memrange : Resource := .memoryRange ⟨0, 0xffffffff⟩

/-- A region, with what comes of the call for its resource. -/
def region (type : BarType) (base size : ℕ) : Outcome → Region
  | .returned resource => .found type base size resource
  | other => .refused other

/-- The last part of `getBAR`: what it makes of the value and of the bits that stayed. For a
region of 64 bits there is no resource. -/
def decodeBAR (barAddr barSize : BitVec 32) : Region :=
  if barSize = 0 then .null
  else if barAddr &&& 0x04 ≠ 0 then .null
  else if barAddr &&& 0x01 ≠ 0 then
    let base := (barAddr &&& ~~~0x3 &&& 0xffff).toNat
    let size := ((~~~(barSize &&& ~~~0x3) + 1) &&& 0xffff).toNat
    if size = 0 then .null
    else if base = 0 then .null
    else region .io base size (io.apply (.subrange base (base + size - 1)))
  else
    let base := (barAddr &&& 0xfffffff0).toNat
    let size := (~~~(barSize &&& 0xfffffff0) + 1).toNat
    if size = 0 then .null else region .mem32 base size (memrange.apply (.block base size))

/-- `getBAR`. -/
def getBAR (hardware : Hardware) (isBridge : Bool) (address : Address) (index : ℕ) (scan : Scan) :
    Region × Scan :=
  if isBridge then (.error "device is a bridge", scan)
  else
    match bar[index]? with
    | none => (.error "invalid BAR register index (expected 0-5)", scan)
    | some barField =>
        match scan.read address barField with
        | (.error message, scan) => (.error message, scan)
        | (.ok barAddr, scan) =>
            if barAddr = 0 then (.null, scan)
            else
              match scan.writeTo hardware address barField 0xffffffff with
              | (.error message, scan) => (.error message, scan)
              | (.ok (), scan) =>
                  match scan.read address barField with
                  | (.error message, scan) => (.error message, scan)
                  | (.ok barSize, scan) =>
                      -- the original value is restored
                      match scan.writeTo hardware address barField barAddr with
                      | (.error message, scan) => (.error message, scan)
                      | (.ok (), scan) => (decodeBAR barAddr barSize, scan)

/-! ## Accesses on the hardware -/

namespace Scan

variable {scan : Scan} {hardware : Hardware}

/-- A write leaves its register selected. -/
theorem write_selects (scan : Scan) (address : Address) {field : Field} (formed : field.WellFormed)
    (value : BitVec 32) :
    (scan.write address field value).2.space.device = address ∧
      (scan.write address field value).2.space.register = fieldRegister field.offset := by
  have same := formed.sameRegister
  obtain ⟨aligned, small, ⟨byte, inside⟩ | ⟨word, inside⟩ | ⟨whole, inside⟩⟩ := formed
  · have raw : writeRaw scan.space address field value =
        .ok ((setPort scan.space address (field.offset + field.shift)).write8 (value &&& 0xff)) := by
      rw [writeRaw, byte, if_neg (by decide), if_neg (by decide), if_pos rfl]
      rfl
    rw [write, raw]
    exact ⟨device_setPort scan.space _ _, (register_setPort scan.space _ _).trans same⟩
  · have raw : writeRaw scan.space address field value =
        .ok ((setPort scan.space address (field.offset + field.shift)).write16
          (value &&& 0xffff)) := by
      rw [writeRaw, word, if_neg (by decide), if_pos rfl, writeRaw16, if_neg (by omega)]
    rw [write, raw]
    exact ⟨device_setPort scan.space _ _, (register_setPort scan.space _ _).trans same⟩
  · have raw : writeRaw scan.space address field value =
        .ok ((setPort scan.space address field.offset).write32 value) := by
      rw [writeRaw, whole, if_pos rfl, writeRaw32, if_neg (by omega)]
    rw [write, raw]
    exact ⟨device_setPort scan.space _ _, register_setPort scan.space _ _⟩

/-- **A write leaves in its register what the hardware takes**, and clears its entry. -/
theorem writeTo_eq (hardware : Hardware) (coherent : scan.Coherent) (address : Address)
    {field : Field} (formed : field.WellFormed) (value : BitVec 32) :
    (scan.writeTo hardware address field value).1 = .ok () ∧
      (scan.writeTo hardware address field value).2.space.registers =
        replaced scan.space.registers address (fieldRegister field.offset)
          (hardware address (fieldRegister field.offset)
            (BitField.insert (scan.space.registers address (fieldRegister field.offset)) 0
              field.width value)) ∧
      (scan.writeTo hardware address field value).2.Coherent := by
  obtain ⟨aligned, small, _⟩ := id formed
  obtain ⟨done, registers, kept⟩ := write_eq coherent address formed value
  obtain ⟨device, register⟩ := write_selects scan address formed value
  have cleared : (scan.write address field value).2.offsetCache address field.offset = none := by
    obtain ⟨written, raw, -⟩ := writeRaw_eq formed scan.space address value
    rw [write, raw]
    exact if_pos ⟨rfl, rfl⟩
  generalize made : scan.write address field value = result
    at done registers kept device register cleared
  obtain ⟨outcome, written⟩ := result
  dsimp only at done registers kept device register cleared
  subst done
  have settled : (settle hardware written.space).registers =
      replaced scan.space.registers address (fieldRegister field.offset)
        (hardware address (fieldRegister field.offset)
          (BitField.insert (scan.space.registers address (fieldRegister field.offset)) 0
            field.width value)) := by
    funext other place
    rw [settle, ConfigSpace.store, ConfigSpace.read32, device, register, registers]
    dsimp only
    have here : replaced scan.space.registers address (fieldRegister field.offset)
        (BitField.insert (scan.space.registers address (fieldRegister field.offset)) 0
          field.width value) address (fieldRegister field.offset) = _ := if_pos ⟨rfl, rfl⟩
    rw [here, replaced, replaced]
    by_cases hit : other = address ∧ place = fieldRegister field.offset
    · rw [if_pos hit, if_pos hit]
    · rw [if_neg hit, if_neg hit, if_neg hit]
  rw [writeTo, made]
  refine ⟨rfl, settled, ?_⟩
  intro other place cachedValue aligned' small' cached
  have current := kept other place cachedValue aligned' small' cached
  rw [settled, current, registers, replaced, replaced]
  by_cases hit : other = address ∧ fieldRegister place = fieldRegister field.offset
  · -- the entry of the register that was written is gone
    obtain ⟨rfl, same⟩ := hit
    rw [fieldRegister_inj aligned' aligned small' small same] at cached
    exact absurd (cached.symm.trans cleared) (Option.some_ne_none _)
  · rw [if_neg hit, if_neg hit]

theorem coherent_stepOn (hardware : Hardware) (coherent : scan.Coherent) {access : Access}
    (formed : access.WellFormed) : (scan.stepOn hardware access).Coherent := by
  cases access with
  | read address field => exact (read_eq coherent address formed).2.2
  | write address field value => exact (writeTo_eq hardware coherent address formed value).2.2
  | exists_ address => exact (exists_eq coherent address).2

theorem coherent_runOn (hardware : Hardware) {accesses : List Access} (coherent : scan.Coherent)
    (formed : ∀ access ∈ accesses, access.WellFormed) :
    (accesses.foldl (stepOn hardware) scan).Coherent := by
  induction accesses generalizing scan with
  | nil => exact coherent
  | cons access later kept =>
    apply kept
    · exact coherent_stepOn hardware coherent (formed access List.mem_cons_self)
    · intro other among
      exact formed other (List.mem_cons_of_mem _ among)

end Scan

/-! ## What is decoded -/

namespace BaseRegister

variable (register : BaseRegister)

theorem bits_lt : register.bits < if register.isIo then 16 else 32 := by
  have positive : 0 < register.base.toNat := by
    apply Nat.pos_of_ne_zero
    intro zero
    exact register.used (BitVec.eq_of_toNat_eq zero)
  have whole := Nat.le_of_dvd positive register.aligned
  have fits := register.fits
  -- the base is no smaller than the size, so both together are at most the range
  cases io : register.isIo with
  | true =>
      rw [io, if_pos rfl] at fits
      rw [if_pos rfl]
      exact (Nat.pow_lt_pow_iff_right (a := 2) (by decide)).mp (by omega)
  | false =>
      rw [io, if_neg Bool.false_ne_true] at fits
      rw [if_neg Bool.false_ne_true]
      exact (Nat.pow_lt_pow_iff_right (a := 2) (by decide)).mp (by omega)

theorem bits_lt_wide : register.bits < 32 := by
  refine Nat.lt_of_lt_of_le register.bits_lt ?_
  split <;> decide

/-- The address bits below the size are zero. -/
theorem base_below {bit : ℕ} (below : bit < register.bits) :
    register.base.getLsbD bit = false := by
  obtain ⟨count, whole⟩ := register.aligned
  rw [BitVec.getLsbD, whole, Nat.testBit_two_pow_mul, decide_eq_false (Nat.not_le.mpr below),
    Bool.false_and]

theorem flags_cases (memory : register.isIo = false) :
    register.flags = 0x0 ∨ register.flags = 0x2 ∨ register.flags = 0x8 ∨ register.flags = 0xa := by
  simpa only [List.mem_cons, List.not_mem_nil, or_false] using register.flagsMemory memory

/-- The type bits are below the address bits. -/
theorem flags_above {bit : ℕ} (above : typeBits register.isIo ≤ bit) :
    register.flags.getLsbD bit = false := by
  have small : register.flags.toNat < 2 ^ typeBits register.isIo := by
    cases io : register.isIo with
    | true =>
        rw [register.flagsIo io]
        decide
    | false =>
        rcases register.flags_cases io with is | is | is | is <;> rw [is] <;> decide
  exact Nat.testBit_lt_two_pow (Nat.lt_of_lt_of_le small
    (Nat.pow_le_pow_right (by decide) above))

/-- **The register takes its own value back.** -/
theorem taken_held : register.taken register.held = register.held := by
  apply BitVec.eq_of_getLsbD_eq
  intro bit inside
  rw [taken, held, BitVec.getLsbD_or, BitVec.getLsbD_and, BitVec.getLsbD_or, BitVec.getLsbD_not,
    BitField.getLsbD_low]
  by_cases below : bit < register.bits
  · rw [register.base_below below]
    simp [inside, below]
  · rw [register.flags_above (Nat.le_trans register.room (Nat.le_of_not_lt below))]
    simp [inside, below]

/-- The address bits of the register. -/
theorem address_held :
    register.held &&& ~~~BitField.low 32 (typeBits register.isIo) = register.base := by
  apply BitVec.eq_of_getLsbD_eq
  intro bit inside
  rw [held, BitVec.getLsbD_and, BitVec.getLsbD_or, BitVec.getLsbD_not, BitField.getLsbD_low]
  by_cases type : bit < typeBits register.isIo
  · rw [register.base_below (Nat.lt_of_lt_of_le type register.room)]
    simp [type, inside]
  · rw [register.flags_above (Nat.le_of_not_lt type)]
    simp [type, inside]

/-- **The address bits that stay when ones are written give the size.** -/
theorem size_taken :
    (~~~(register.taken 0xffffffff &&& ~~~BitField.low 32 (typeBits register.isIo)) + 1).toNat =
      register.size := by
  have stay : ~~~(register.taken 0xffffffff &&& ~~~BitField.low 32 (typeBits register.isIo)) =
      BitField.low 32 register.bits := by
    have ones : (0xffffffff : BitVec 32) = BitVec.allOnes 32 := rfl
    apply BitVec.eq_of_getLsbD_eq
    intro bit inside
    rw [BitVec.getLsbD_not, taken, ones, BitVec.allOnes_and, BitVec.getLsbD_and, BitVec.getLsbD_or,
      BitVec.getLsbD_not, BitVec.getLsbD_not, BitField.getLsbD_low, BitField.getLsbD_low]
    by_cases type : bit < typeBits register.isIo
    · simp [type, inside, Nat.lt_of_lt_of_le type register.room]
    · rw [register.flags_above (Nat.le_of_not_lt type)]
      simp [type, inside]
  have narrow := register.bits_lt_wide
  have small : 2 ^ register.bits < 2 ^ 32 := Nat.pow_lt_pow_right (by decide) narrow
  have positive : 0 < 2 ^ register.bits := Nat.two_pow_pos _
  rw [stay, size, BitField.low, BitVec.toNat_add, BitVec.toNat_ofNat]
  change ((2 ^ register.bits - 1) % 2 ^ 32 + 1) % 2 ^ 32 = _
  omega

theorem and_twoPow_ne_zero_iff (word : BitVec 32) {bit : ℕ} (inside : bit < 32) :
    word &&& BitVec.twoPow 32 bit ≠ 0 ↔ word.getLsbD bit = true := by
  rw [BitVec.and_twoPow]
  cases word.getLsbD bit with
  | false => exact iff_of_false (fun other => other rfl) Bool.false_ne_true
  | true =>
      refine iff_of_true (fun zero => ?_) rfl
      have set : (BitVec.twoPow 32 bit).getLsbD bit = true := by
        rw [BitVec.getLsbD_twoPow]
        simp [inside]
      rw [if_pos rfl] at zero
      rw [zero] at set
      simp at set

/-- Bit 0 says that the register is for ports. -/
theorem and_one_ne_zero_iff : register.held &&& 0x01 ≠ 0 ↔ register.isIo = true := by
  have low : register.base.getLsbD 0 = false := register.base_below
    (Nat.lt_of_lt_of_le (by unfold typeBits; split <;> decide) register.room)
  have is : (0x01 : BitVec 32) = BitVec.twoPow 32 0 := by decide
  rw [is, and_twoPow_ne_zero_iff _ (by decide), held, BitVec.getLsbD_or, low, Bool.false_or]
  cases io : register.isIo with
  | true =>
      rw [register.flagsIo io]
      decide
  | false =>
      rcases register.flags_cases io with is | is | is | is <;> rw [is] <;> decide

/-- Bit 2 is set only as an address bit, in a register for ports. -/
theorem and_four_ne_zero_iff :
    register.held &&& 0x04 ≠ 0 ↔ register.isIo = true ∧ register.base.getLsbD 2 = true := by
  have is : (0x04 : BitVec 32) = BitVec.twoPow 32 2 := by decide
  rw [is, and_twoPow_ne_zero_iff _ (by decide), held, BitVec.getLsbD_or]
  cases io : register.isIo with
  | true =>
      have plain : register.flags.getLsbD 2 = false := by
        rw [register.flagsIo io]
        decide
      rw [plain, Bool.or_false, and_iff_right rfl]
  | false =>
      have low : register.base.getLsbD 2 = false := by
        refine register.base_below (Nat.lt_of_lt_of_le ?_ register.room)
        rw [io]
        decide
      have plain : register.flags.getLsbD 2 = false := by
        rcases register.flags_cases io with is | is | is | is <;> rw [is] <;> decide
      rw [low, plain]
      exact iff_of_false Bool.false_ne_true fun both => Bool.false_ne_true both.1

/-- The region of the register. -/
def region : Region :=
  if register.isIo then
    .found .io register.base.toNat register.size
      (.ioRange ⟨register.base.toNat, register.base.toNat + register.size - 1⟩)
  else
    .found .mem32 register.base.toNat register.size
      (.memoryBlock register.base.toNat register.size)

/-- A register for ports with bit 2 in its base, or one for the end of the memory range. -/
def Missed : Prop :=
  register.isIo = true ∧ register.base.getLsbD 2 = true ∨
    register.isIo = false ∧ register.base.toNat + register.size = 2 ^ 32

theorem taken_ne_zero : register.taken 0xffffffff ≠ 0 := by
  intro zero
  have size := register.size_taken
  have positive : 0 < register.size := Nat.two_pow_pos _
  have none (mask : BitVec 32) : (~~~((0 : BitVec 32) &&& mask) + 1).toNat = 0 := by
    have empty : (0 : BitVec 32) &&& mask = 0 := BitVec.zero_and
    rw [empty]
    decide
  rw [zero, none] at size
  omega

/-- A register for ports. -/
theorem decodeBAR_io (io : register.isIo = true) :
    decodeBAR register.held (register.taken 0xffffffff) =
      if register.base.getLsbD 2 = true then .null else register.region := by
  have fits := register.fits
  rw [io, if_pos rfl] at fits
  have width := register.bits_lt
  rw [io, if_pos rfl] at width
  have low : (0x3 : BitVec 32) = BitField.low 32 (typeBits register.isIo) := by
    rw [io]
    decide
  have base : (register.held &&& ~~~0x3 &&& 0xffff).toNat = register.base.toNat := by
    rw [low, address_held, BitVec.toNat_and]
    change register.base.toNat &&& 2 ^ 16 - 1 = _
    rw [Nat.and_two_pow_sub_one_eq_mod, Nat.mod_eq_of_lt]
    have positive := Nat.two_pow_pos register.bits
    omega
  have size : ((~~~(register.taken 0xffffffff &&& ~~~0x3) + 1) &&& 0xffff).toNat =
      register.size := by
    rw [low, BitVec.toNat_and, size_taken]
    change register.size &&& 2 ^ 16 - 1 = _
    rw [Nat.and_two_pow_sub_one_eq_mod, Nat.mod_eq_of_lt]
    exact Nat.pow_lt_pow_right (by decide) width
  have positive : 0 < register.size := Nat.two_pow_pos _
  have used : register.base.toNat ≠ 0 := fun zero => register.used (BitVec.eq_of_toNat_eq zero)
  rw [decodeBAR, if_neg register.taken_ne_zero]
  by_cases missed : register.base.getLsbD 2 = true
  · rw [if_pos (register.and_four_ne_zero_iff.mpr ⟨io, missed⟩), if_pos missed]
  · rw [if_neg fun four => missed (register.and_four_ne_zero_iff.mp four).2, if_neg missed,
      if_pos (register.and_one_ne_zero_iff.mpr io)]
    dsimp only
    rw [base, size, if_neg (Nat.ne_of_gt positive), if_neg used, BaseRegister.region, io, if_pos rfl]
    change Pci.region .io _ _ (Resource.ioSubrange ⟨1, 0xffff⟩ _ _) = _
    have range : register.base.toNat + register.size ≤ 2 ^ 16 := fits
    rw [Resource.ioSubrange_eq, if_neg (by omega), if_neg (by omega), if_pos (by dsimp only; omega),
      Nat.mod_eq_of_lt (by omega), Nat.mod_eq_of_lt (by omega)]
    rfl

/-- A register for memory. -/
theorem decodeBAR_memory (memory : register.isIo = false) :
    decodeBAR register.held (register.taken 0xffffffff) =
      if register.base.toNat + register.size = 2 ^ 32 then
        .refused (.rangeError "block: out of bounds")
      else register.region := by
  have fits := register.fits
  rw [memory, if_neg Bool.false_ne_true] at fits
  have low : (0xfffffff0 : BitVec 32) = ~~~BitField.low 32 (typeBits register.isIo) := by
    rw [memory]
    decide
  have base : (register.held &&& 0xfffffff0).toNat = register.base.toNat := by
    rw [low, address_held]
  have size : (~~~(register.taken 0xffffffff &&& 0xfffffff0) + 1).toNat = register.size := by
    rw [low, size_taken]
  have positive : 0 < register.size := Nat.two_pow_pos _
  have narrow : register.size < 2 ^ 32 := Nat.pow_lt_pow_right (by decide) register.bits_lt_wide
  have noPorts : ¬register.held &&& 0x01 ≠ 0 := by
    rw [and_one_ne_zero_iff, memory]
    exact Bool.false_ne_true
  have noFlag : ¬register.held &&& 0x04 ≠ 0 := by
    rw [and_four_ne_zero_iff, memory]
    exact fun both => Bool.false_ne_true both.1
  rw [decodeBAR, if_neg register.taken_ne_zero, if_neg noFlag, if_neg noPorts]
  dsimp only
  rw [base, size, if_neg (Nat.ne_of_gt positive)]
  change Pci.region .mem32 _ _ (Resource.block ⟨0, 0xffffffff⟩ _ _) = _
  have range : register.base.toNat + register.size ≤ 2 ^ 32 := fits
  rw [Resource.block_eq _ (by omega), Nat.mod_eq_of_lt narrow]
  dsimp only
  by_cases last : register.base.toNat + register.size = 2 ^ 32
  · rw [if_pos last, if_neg (by omega)]
    rfl
  · rw [if_neg last, if_pos (by omega), BaseRegister.region, memory, if_neg Bool.false_ne_true]
    rfl

/-- **The register is decoded to its region unless it is one of those that are missed.** -/
theorem decodeBAR_eq_region_iff :
    decodeBAR register.held (register.taken 0xffffffff) = register.region ↔ ¬register.Missed := by
  unfold Missed
  cases io : register.isIo with
  | true =>
      rw [register.decodeBAR_io io, BaseRegister.region, io, if_pos rfl]
      by_cases missed : register.base.getLsbD 2 = true
      · rw [if_pos missed]
        exact iff_of_false Region.noConfusion fun none => none (.inl ⟨rfl, missed⟩)
      · rw [if_neg missed]
        refine iff_of_true rfl ?_
        rintro (⟨-, two⟩ | ⟨memory, -⟩)
        · exact missed two
        · cases memory
  | false =>
      rw [register.decodeBAR_memory io, BaseRegister.region, io, if_neg Bool.false_ne_true]
      by_cases last : register.base.toNat + register.size = 2 ^ 32
      · rw [if_pos last]
        exact iff_of_false Region.noConfusion fun none => none (.inr ⟨rfl, last⟩)
      · rw [if_neg last]
        refine iff_of_true rfl ?_
        rintro (⟨ports, -⟩ | ⟨-, reaches⟩)
        · cases ports
        · exact last reaches

end BaseRegister

/-! ## What is read -/

section Reading

variable {scan : Scan} {hardware : Hardware} {device : Address}

/-- The field of a base address register. -/
def barField (index : Fin 6) : Field := ⟨0x10 + 4 * index, 0, 0xffffffff⟩

/-- Its register. -/
def barRegister (index : Fin 6) : BitVec 6 := BitVec.ofNat 6 (4 + index)

theorem bar_get (index : Fin 6) : bar[index.val]? = some (barField index) := by
  revert index
  decide

theorem barField_wellFormed (index : Fin 6) : (barField index).WellFormed := by
  revert index
  decide

theorem fieldRegister_barField (index : Fin 6) :
    fieldRegister (barField index).offset = barRegister index := by
  revert index
  decide

/-- The hardware takes of a base address register what the register takes. -/
theorem withBars_bar (others : Hardware) (bars : Fin 6 → BaseRegister) (index : Fin 6)
    (value : BitVec 32) :
    withBars others device bars device (barRegister index) value = (bars index).taken value := by
  have place : (barRegister index).toNat = 4 + index := by
    rw [barRegister, BitVec.toNat_ofNat, Nat.mod_eq_of_lt (by omega)]
  have inside : 4 ≤ (barRegister index).toNat ∧ (barRegister index).toNat < 10 := by omega
  rw [withBars, if_pos rfl, dif_pos inside]
  congr 2
  apply Fin.ext
  change (barRegister index).toNat - 4 = index.val
  omega

theorem low_whole : BitField.low 32 32 = BitVec.allOnes 32 := by decide

theorem read_bar (coherent : scan.Coherent) (device : Address) (index : Fin 6) :
    ∃ after, scan.read device (barField index) =
        (.ok (scan.space.registers device (barRegister index)), after) ∧
      after.space.registers = scan.space.registers ∧ after.Coherent := by
  obtain ⟨value, registers, kept⟩ := Scan.read_eq coherent device (barField_wellFormed index)
  refine ⟨_, Prod.ext ?_ rfl, registers, kept⟩
  rw [value, Scan.held, fieldRegister_barField]
  change Except.ok (BitField.extract _ 0 32) = _
  rw [BitField.extract, low_whole, BitVec.and_allOnes, BitVec.ushiftRight_zero]

theorem writeTo_bar (hardware : Hardware) (coherent : scan.Coherent) (device : Address)
    (index : Fin 6) (value : BitVec 32) :
    ∃ after, scan.writeTo hardware device (barField index) value = (.ok (), after) ∧
      after.space.registers = replaced scan.space.registers device (barRegister index)
        (hardware device (barRegister index) value) ∧ after.Coherent := by
  obtain ⟨done, registers, kept⟩ :=
    Scan.writeTo_eq hardware coherent device (barField_wellFormed index) value
  refine ⟨_, Prod.ext done rfl, ?_, kept⟩
  rw [registers, fieldRegister_barField]
  have whole (word : BitVec 32) : BitField.insert word 0 (barField index).width value = value := by
    change BitField.insert word 0 32 value = value
    rw [BitField.insert, low_whole, BitVec.and_allOnes, BitVec.shiftLeft_zero,
      BitVec.shiftLeft_zero, BitVec.not_allOnes, BitVec.and_zero, BitVec.zero_or]
  rw [whole]

/-- **Reading a base address register** decodes what it holds and what it takes of ones, and
leaves all registers as they are. -/
theorem getBAR_eq (others : Hardware) {bars : Fin 6 → BaseRegister} (coherent : scan.Coherent)
    (index : Fin 6) (programmed : scan.space.registers device (barRegister index) =
      (bars index).held) :
    (getBAR (withBars others device bars) false device index scan).1 =
        decodeBAR (bars index).held ((bars index).taken 0xffffffff) ∧
      (getBAR (withBars others device bars) false device index scan).2.space.registers =
        scan.space.registers := by
  obtain ⟨first, read, same, kept⟩ := read_bar coherent device index
  obtain ⟨ones, write, set, kept⟩ :=
    writeTo_bar (withBars others device bars) kept device index 0xffffffff
  obtain ⟨second, reread, still, kept⟩ := read_bar kept device index
  obtain ⟨last, restore, back, kept⟩ :=
    writeTo_bar (withBars others device bars) kept device index (bars index).held
  rw [same, withBars_bar] at set
  rw [still, set, withBars_bar, (bars index).taken_held] at back
  have stays : ones.space.registers device (barRegister index) = (bars index).taken 0xffffffff := by
    rw [set]
    exact if_pos ⟨rfl, rfl⟩
  have used : (bars index).held ≠ 0 := by
    intro zero
    have base := (bars index).address_held
    rw [zero] at base
    exact (bars index).used (base.symm.trans BitVec.zero_and)
  rw [programmed] at read
  rw [stays] at reread
  have result : getBAR (withBars others device bars) false device index scan =
      (decodeBAR (bars index).held ((bars index).taken 0xffffffff), last) := by
    rw [getBAR, if_neg Bool.false_ne_true, bar_get]
    dsimp only
    rw [read]
    dsimp only
    rw [if_neg used, write]
    dsimp only
    rw [reread]
    dsimp only
    rw [restore]
  rw [result]
  refine ⟨rfl, back.trans ?_⟩
  funext other place
  rw [replaced, replaced]
  by_cases hit : other = device ∧ place = barRegister index
  · rw [if_pos hit, hit.1, hit.2, programmed]
  · rw [if_neg hit, if_neg hit]

end Reading

/-- **`getBAR` reads the region of a register**, and leaves the configuration space as it is. -/
def Decodes (hardware : Hardware) (device : Address) (index : Fin 6) (register : BaseRegister)
    (scan : Scan) : Prop :=
  (getBAR hardware false device index scan).1 = register.region ∧
    (getBAR hardware false device index scan).2.space.registers = scan.space.registers

/-- **Each register is read as its region, but for the missed ones.** After any accesses to the
hardware, with the base address registers of a device holding their bases, this holds of a call of
`getBAR` exactly if its register is not for ports with bit 2 in its base, nor for the end of the
memory range. -/
theorem decodes_iff (others : Hardware) (device : Address) (bars : Fin 6 → BaseRegister)
    (space : ConfigSpace) {accesses : List Access} (formed : ∀ access ∈ accesses, access.WellFormed)
    (programmed : ∀ index, (accesses.foldl (Scan.stepOn (withBars others device bars))
      (.fresh space)).space.registers device (barRegister index) = (bars index).held)
    (index : Fin 6) :
    Decodes (withBars others device bars) device index (bars index)
        (accesses.foldl (Scan.stepOn (withBars others device bars)) (.fresh space)) ↔
      ¬(bars index).Missed := by
  have coherent := Scan.coherent_runOn (withBars others device bars)
    (Scan.coherent_fresh space) formed
  obtain ⟨decoded, kept⟩ := getBAR_eq others coherent index (programmed index)
  rw [Decodes, decoded, (bars index).decodeBAR_eq_region_iff, and_iff_left kept]

/-- Four ports at a base with bit 2. -/
def fourPorts : BaseRegister where
  isIo := true
  bits := 2
  flags := 0x1
  base := 0xc004
  flagsIo _ := rfl
  flagsMemory memory := absurd memory (by decide)
  room := by decide
  aligned := ⟨0x3001, by decide⟩
  used := by decide
  fits := by decide

/-- The registers of a device that has six of them. -/
def fourPortsSpace : ConfigSpace := ⟨0, fun _ _ => fourPorts.held⟩

theorem decodes_iff_fourPorts :
    Decodes (withBars (fun _ _ value => value) ⟨0, 3, 0⟩ fun _ => fourPorts) ⟨0, 3, 0⟩ 0 fourPorts
        ([].foldl (Scan.stepOn (withBars (fun _ _ value => value) ⟨0, 3, 0⟩ fun _ => fourPorts))
          (.fresh fourPortsSpace)) ↔
      ¬fourPorts.Missed :=
  decodes_iff (fun _ _ value => value) ⟨0, 3, 0⟩ (fun _ => fourPorts) fourPortsSpace
    (fun _ among => absurd among List.not_mem_nil) (fun _ => rfl) 0

/-- The four ports are taken for memory of 64 bits, and `null` is returned. -/
theorem fourPorts_not_decodes :
    (getBAR (withBars (fun _ _ value => value) ⟨0, 3, 0⟩ fun _ => fourPorts) false ⟨0, 3, 0⟩ 0
        (.fresh fourPortsSpace)).1 = .null ∧
      ¬Decodes (withBars (fun _ _ value => value) ⟨0, 3, 0⟩ fun _ => fourPorts) ⟨0, 3, 0⟩ 0
        fourPorts (.fresh fourPortsSpace) := by
  have missed : (getBAR (withBars (fun _ _ value => value) ⟨0, 3, 0⟩ fun _ => fourPorts) false
      ⟨0, 3, 0⟩ 0 (.fresh fourPortsSpace)).1 = .null := by decide +kernel
  refine ⟨missed, ?_⟩
  rintro ⟨decoded, -⟩
  cases missed.symm.trans decoded

end JsOS.Core.Pci
