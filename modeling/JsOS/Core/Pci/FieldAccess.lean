import JsOS.Core.Pci.Config
import Mathlib.Tactic.IntervalCases

/-! # Accesses to fields

The cache always agrees with the registers, since every write goes through the accessor of its
device and clears the entry of the register (`Coherent`). A write, however, selects the register
without the byte in it: `writeRaw8` and `writeRaw16` pass the offset of the byte, `setPort` masks
its last two bits away, and the data port then writes the lowest bytes (`field_exact_iff`).
-/

namespace JsOS.Core.Pci

open Library

/-! ## Selecting a register -/

theorem device_setPort (space : ConfigSpace) (address : Address) (offset : Nat) :
    (setPort space address offset).device = address := by
  have bus : (portAddress address offset).extractLsb' 16 8 = address.bus := by
    apply BitVec.eq_of_getLsbD_eq
    intro bit inside
    interval_cases bit <;> simp [portAddress]
  have slot : (portAddress address offset).extractLsb' 11 5 = address.slot := by
    apply BitVec.eq_of_getLsbD_eq
    intro bit inside
    interval_cases bit <;> simp [portAddress]
  have func : (portAddress address offset).extractLsb' 8 3 = address.func := by
    apply BitVec.eq_of_getLsbD_eq
    intro bit inside
    interval_cases bit <;> simp [portAddress]
  unfold setPort ConfigSpace.device
  dsimp only
  rw [bus, slot, func]

/-- The register of an offset does not depend on its last two bits. -/
theorem register_setPort (space : ConfigSpace) (address : Address) (offset : Nat) :
    (setPort space address offset).register = BitVec.ofNat 6 (offset / 4) := by
  change (portAddress address offset).extractLsb' 2 6 = _
  apply BitVec.eq_of_getLsbD_eq
  intro bit inside
  have shifted : (offset / 4).testBit bit = offset.testBit (2 + bit) := by
    rw [Nat.add_comm, Nat.testBit_add]
  rw [BitVec.getLsbD_ofNat, shifted]
  interval_cases bit
  all_goals
    simp +decide only [portAddress, BitVec.getLsbD_extractLsb', BitVec.getLsbD_or,
      BitVec.getLsbD_and, BitVec.getLsbD_shiftLeft, BitVec.getLsbD_ofNat]
    simp

/-! ## What the accesses do -/

/-- The register of an offset. -/
def fieldRegister (offset : Nat) : BitVec 6 := BitVec.ofNat 6 (offset / 4)

/-- The registers with one replaced. -/
def replaced (registers : Address → BitVec 6 → BitVec 32) (address : Address)
    (register : BitVec 6) (word : BitVec 32) : Address → BitVec 6 → BitVec 32 :=
  fun other place => if other = address ∧ place = register then word else registers other place

theorem read32_setPort (space : ConfigSpace) (address : Address) (offset : Nat) :
    (setPort space address offset).read32 = space.registers address (fieldRegister offset) := by
  rw [ConfigSpace.read32, device_setPort, register_setPort]
  rfl

theorem store_setPort (space : ConfigSpace) (address : Address) (offset : Nat)
    (word : BitVec 32) : ((setPort space address offset).store word).registers =
      replaced space.registers address (fieldRegister offset) word := by
  unfold ConfigSpace.store
  rw [device_setPort, register_setPort]
  rfl

namespace Field

/-- The number of bits of a field. -/
def width (field : Field) : Nat :=
  if field.mask = 0xff then 8 else if field.mask = 0xffff then 16 else 32

variable {field : Field}

theorem WellFormed.mask_eq (formed : field.WellFormed) : field.mask = BitField.low 32 field.width := by
  obtain ⟨_, _, ⟨byte, _⟩ | ⟨word, _⟩ | ⟨whole, _⟩⟩ := formed
  · rw [width, byte]
    decide
  · rw [width, word]
    decide
  · rw [width, whole]
    decide

theorem WellFormed.fits (formed : field.WellFormed) : 8 * field.shift + field.width ≤ 32 := by
  obtain ⟨_, _, ⟨byte, inside⟩ | ⟨word, inside⟩ | ⟨whole, inside⟩⟩ := formed
  · rw [width, byte, if_pos rfl]
    omega
  · rw [width, word, if_neg (by decide), if_pos rfl]
    omega
  · rw [width, whole, if_neg (by decide), if_neg (by decide)]
    omega

/-- A field that is not at the start of its register lies past its own width. -/
theorem WellFormed.width_le (formed : field.WellFormed) (later : field.shift ≠ 0) :
    field.width ≤ 8 * field.shift := by
  obtain ⟨_, _, ⟨byte, inside⟩ | ⟨word, inside⟩ | ⟨whole, inside⟩⟩ := formed
  · rw [width, byte, if_pos rfl]
    omega
  · rw [width, word, if_neg (by decide), if_pos rfl]
    omega
  · exact absurd inside later

/-- The bytes of a field are in its register. -/
theorem WellFormed.sameRegister (formed : field.WellFormed) :
    fieldRegister (field.offset + field.shift) = fieldRegister field.offset := by
  obtain ⟨aligned, _, place⟩ := formed
  have small : field.shift < 4 := by
    rcases place with ⟨_, inside⟩ | ⟨_, inside⟩ | ⟨_, inside⟩ <;> omega
  have same : (field.offset + field.shift) / 4 = field.offset / 4 := by omega
  rw [fieldRegister, same]
  rfl

end Field

theorem dwToFieldValue_eq {field : Field} (formed : field.WellFormed) (word : BitVec 32) :
    dwToFieldValue word field = BitField.extract word (8 * field.shift) field.width := by
  rw [dwToFieldValue, formed.mask_eq]
  rfl

/-- What the 16-bit and 8-bit writes of the data port make of a register. -/
theorem insert_low (word value : BitVec 32) {mask : BitVec 32} {width : Nat}
    (is : mask = BitField.low 32 width) :
    (word &&& ~~~mask ||| (value &&& mask) &&& mask) = BitField.insert word 0 width value := by
  rw [BitField.insert, ← is, BitVec.and_assoc, BitVec.and_self, BitVec.shiftLeft_zero,
    BitVec.shiftLeft_zero]

/-- **A write selects the register and writes its lowest bytes.** -/
theorem writeRaw_eq {field : Field} (formed : field.WellFormed) (space : ConfigSpace)
    (address : Address) (value : BitVec 32) :
    ∃ written, Scan.writeRaw space address field value = .ok written ∧
      written.registers = replaced space.registers address (fieldRegister field.offset)
        (BitField.insert (space.registers address (fieldRegister field.offset)) 0 field.width
          value) := by
  have aligned := formed.1
  have same := formed.sameRegister
  have mask := formed.mask_eq
  obtain ⟨_, _, ⟨byte, inside⟩ | ⟨word, inside⟩ | ⟨whole, inside⟩⟩ := formed
  · use (setPort space address (field.offset + field.shift)).write8 (value &&& 0xff)
    constructor
    · rw [Scan.writeRaw, byte, if_neg (by decide), if_neg (by decide), if_pos rfl]
      rfl
    · rw [ConfigSpace.write8, store_setPort, read32_setPort, same, insert_low]
      rw [← mask, byte]
  · use (setPort space address (field.offset + field.shift)).write16 (value &&& 0xffff)
    constructor
    · rw [Scan.writeRaw, word, if_neg (by decide), if_pos rfl, writeRaw16, if_neg]
      omega
    · rw [ConfigSpace.write16, store_setPort, read32_setPort, same, insert_low]
      rw [← mask, word]
  · use (setPort space address field.offset).write32 value
    constructor
    · rw [Scan.writeRaw, whole, if_pos rfl, writeRaw32, if_neg]
      omega
    · have all : (0xffffffff : BitVec 32) = BitVec.allOnes 32 := rfl
      rw [ConfigSpace.write32, store_setPort, ← insert_low _ _ mask, whole, all,
        BitVec.and_allOnes, BitVec.and_allOnes, BitVec.not_allOnes, BitVec.and_zero,
        BitVec.zero_or]

namespace Scan

/-- What the register of a field holds. -/
def held (scan : Scan) (address : Address) (field : Field) : BitVec 32 :=
  BitField.extract (scan.space.registers address (fieldRegister field.offset)) (8 * field.shift)
    field.width

/-! ## The cache -/

/-- The cached values are those of the registers. -/
def Coherent (scan : Scan) : Prop :=
  ∀ address offset value, offset % 4 = 0 → offset < 256 →
    scan.offsetCache address offset = some value →
      value = scan.space.registers address (fieldRegister offset)

theorem fieldRegister_inj {offset offset' : Nat} (aligned : offset % 4 = 0)
    (aligned' : offset' % 4 = 0) (small : offset < 256) (small' : offset' < 256)
    (same : fieldRegister offset = fieldRegister offset') : offset = offset' := by
  have numbers := congrArg BitVec.toNat same
  rw [fieldRegister, fieldRegister, BitVec.toNat_ofNat, BitVec.toNat_ofNat,
    Nat.mod_eq_of_lt (by omega), Nat.mod_eq_of_lt (by omega)] at numbers
  omega

theorem coherent_fresh (space : ConfigSpace) : (fresh space).Coherent := by
  intro address offset value _ _ entry
  cases entry

/-- A read returns what the register holds, and changes no register. -/
theorem read_eq {scan : Scan} (coherent : scan.Coherent) (address : Address) {field : Field}
    (formed : field.WellFormed) :
    (scan.read address field).1 = .ok (scan.held address field) ∧
      (scan.read address field).2.space.registers = scan.space.registers ∧
      (scan.read address field).2.Coherent := by
  obtain ⟨aligned, small, _⟩ := id formed
  unfold read
  cases entry : scan.offsetCache address field.offset with
  | some value =>
    have current := coherent address field.offset value aligned small entry
    dsimp only
    rw [dwToFieldValue_eq formed, current]
    exact ⟨rfl, rfl, coherent⟩
  | none =>
    have raw : readRaw32 scan.space address field.offset =
        .ok (scan.space.registers address (fieldRegister field.offset),
          setPort scan.space address field.offset) := by
      rw [readRaw32, if_neg (by omega), ← read32_setPort]
    rw [raw]
    dsimp only
    rw [dwToFieldValue_eq formed]
    refine ⟨rfl, rfl, ?_⟩
    intro other place value aligned' small' cached
    change (if other = address ∧ place = field.offset then _ else _) = _ at cached
    by_cases hit : other = address ∧ place = field.offset
    · rw [if_pos hit] at cached
      cases cached
      rw [hit.1, hit.2]
      rfl
    · rw [if_neg hit] at cached
      exact coherent other place value aligned' small' cached

/-- A write replaces the lowest bytes of the register, and clears its entry. -/
theorem write_eq {scan : Scan} (coherent : scan.Coherent) (address : Address) {field : Field}
    (formed : field.WellFormed) (value : BitVec 32) :
    (scan.write address field value).1 = .ok () ∧
      (scan.write address field value).2.space.registers =
        replaced scan.space.registers address (fieldRegister field.offset)
          (BitField.insert (scan.space.registers address (fieldRegister field.offset)) 0
            field.width value) ∧
      (scan.write address field value).2.Coherent := by
  obtain ⟨aligned, small, _⟩ := id formed
  obtain ⟨written, raw, registers⟩ := writeRaw_eq formed scan.space address value
  unfold write
  rw [raw]
  refine ⟨rfl, registers, ?_⟩
  intro other place cachedValue aligned' small' cached
  change (if other = address ∧ place = field.offset then _ else _) = _ at cached
  by_cases hit : other = address ∧ place = field.offset
  · rw [if_pos hit] at cached
    cases cached
  · rw [if_neg hit] at cached
    have current := coherent other place cachedValue aligned' small' cached
    change _ = written.registers other (fieldRegister place)
    rw [registers, replaced, if_neg, current]
    rintro ⟨sameDevice, sameRegister⟩
    apply hit
    exact ⟨sameDevice, fieldRegister_inj aligned' aligned small' small sameRegister⟩

theorem exists_eq {scan : Scan} (coherent : scan.Coherent) (address : Address) :
    (scan.exists_ address).2.space.registers = scan.space.registers ∧
      (scan.exists_ address).2.Coherent := by
  have raw : readRaw32 scan.space address vendorId.offset =
      .ok ((setPort scan.space address vendorId.offset).read32,
        setPort scan.space address vendorId.offset) := rfl
  unfold exists_
  rw [raw]
  exact ⟨rfl, coherent⟩

/-- An access keeps the cache coherent. -/
theorem coherent_step {scan : Scan} (coherent : scan.Coherent) {access : Access}
    (formed : access.WellFormed) : (scan.step access).Coherent := by
  cases access with
  | read address field => exact (read_eq coherent address formed).2.2
  | write address field value => exact (write_eq coherent address formed value).2.2
  | exists_ address => exact (exists_eq coherent address).2

theorem coherent_run {accesses : List Access} {scan : Scan} (coherent : scan.Coherent)
    (formed : ∀ access ∈ accesses, access.WellFormed) :
    (accesses.foldl step scan).Coherent := by
  induction accesses generalizing scan with
  | nil => exact coherent
  | cons access later kept =>
    apply kept
    · exact coherent_step coherent (formed access List.mem_cons_self)
    · intro other among
      exact formed other (List.mem_cons_of_mem _ among)

/-! ## Exact accesses -/

/-- **The accesses are exact**: each read returns what the register holds; the write changes the
bits of its field to the value, and no others; and a read of the field then returns the value. -/
structure FieldExact (scan : Scan) (address : Address) (field : Field) (value : BitVec 32) :
    Prop where
  reads : ∀ other place, Field.WellFormed place →
    (scan.read other place).1 = .ok (scan.held other place)
  writes : (scan.write address field value).1 = .ok ()
  changes : (scan.write address field value).2.space.registers =
    replaced scan.space.registers address (fieldRegister field.offset)
      (BitField.insert (scan.space.registers address (fieldRegister field.offset))
        (8 * field.shift) field.width value)
  readsBack : ((scan.write address field value).2.read address field).1 = .ok value

theorem replaced_inj {registers : Address → BitVec 6 → BitVec 32} {address : Address}
    {register : BitVec 6} {word word' : BitVec 32}
    (same : replaced registers address register word = replaced registers address register word') :
    word = word' := by
  have there := congrFun (congrFun same address) register
  rw [replaced, replaced, if_pos ⟨rfl, rfl⟩, if_pos ⟨rfl, rfl⟩] at there
  exact there

/-- **Field accesses.** After any accesses, those to a field are exact if and only if the field is
at the start of its register, or if both the field and the lowest bytes hold the value already. -/
theorem field_exact_iff (space : ConfigSpace) {accesses : List Access}
    (earlier : ∀ access ∈ accesses, access.WellFormed) (address : Address) {field : Field}
    (formed : field.WellFormed) {value : BitVec 32} (fits : value &&& field.mask = value) :
    FieldExact (accesses.foldl step (fresh space)) address field value ↔
      field.shift = 0 ∨
        ((accesses.foldl step (fresh space)).held address field = value ∧
          (accesses.foldl step (fresh space)).held address { field with shift := 0 } = value) := by
  have coherent := coherent_run (coherent_fresh space) earlier
  generalize accesses.foldl step (fresh space) = scan at coherent
  obtain ⟨written, registers, coherent'⟩ := write_eq coherent address formed value
  rw [formed.mask_eq] at fits
  -- What the field holds after the write decides what is read back.
  have readBack := (read_eq coherent' address formed).1
  constructor
  · intro exact_
    by_cases first : field.shift = 0
    · exact Or.inl first
    · right
      have same := replaced_inj (registers.symm.trans exact_.changes)
      have both := (BitField.insert_eq_insert_iff _ _ (by have := formed.fits; omega) formed.fits
        (Or.inl (by have := formed.width_le first; omega)) fits).mp same
      exact ⟨both.2, both.1⟩
  · intro condition
    have same : BitField.insert (scan.space.registers address (fieldRegister field.offset)) 0
        field.width value = BitField.insert
          (scan.space.registers address (fieldRegister field.offset)) (8 * field.shift)
          field.width value := by
      rcases Nat.eq_zero_or_pos field.shift with first | later
      · rw [first]
      · rcases condition with first | ⟨held, low⟩
        · omega
        · have apart := formed.width_le (by omega)
          exact (BitField.insert_eq_insert_iff _ _ (by have := formed.fits; omega) formed.fits
            (Or.inl (by omega)) fits).mpr ⟨low, held⟩
    rw [same] at registers
    refine ⟨fun other place formed' => (read_eq coherent other formed').1, written, registers, ?_⟩
    rw [readBack, held, registers, replaced, if_pos ⟨rfl, rfl⟩,
      BitField.extract_insert _ _ formed.fits, fits]

/-- Enabling bus mastering on a device that was just looked for. -/
theorem field_exact_iff_command :
    FieldExact ([.exists_ ⟨0, 3, 0⟩].foldl step (fresh ⟨0, fun _ _ => 0x1af4⟩)) ⟨0, 3, 0⟩ command
        0x4 ↔
      command.shift = 0 ∨
        (([.exists_ ⟨0, 3, 0⟩].foldl step (fresh ⟨0, fun _ _ => 0x1af4⟩)).held ⟨0, 3, 0⟩ command =
            0x4 ∧
          ([.exists_ ⟨0, 3, 0⟩].foldl step (fresh ⟨0, fun _ _ => 0x1af4⟩)).held ⟨0, 3, 0⟩
            { command with shift := 0 } = 0x4) :=
  @field_exact_iff ⟨0, fun _ _ => 0x1af4⟩ [.exists_ ⟨0, 3, 0⟩]
    (by
      intro access listed
      rw [List.mem_singleton] at listed
      rw [listed]
      trivial)
    ⟨0, 3, 0⟩ command (by decide) 0x4 (by decide)

/-- A write of the latency timer goes to the cache line size, and the timer still reads 0. -/
theorem latencyTimer_not_exact :
    ((fresh ⟨0, fun _ _ => 0⟩).write ⟨0, 3, 0⟩ latencyTimer 0x40).2.space.registers ⟨0, 3, 0⟩ 3 =
        0x40 ∧
      (((fresh ⟨0, fun _ _ => 0⟩).write ⟨0, 3, 0⟩ latencyTimer 0x40).2.read ⟨0, 3, 0⟩
        latencyTimer).1.toOption = some 0 ∧
      (((fresh ⟨0, fun _ _ => 0⟩).write ⟨0, 3, 0⟩ latencyTimer 0x40).2.read ⟨0, 3, 0⟩
        cacheLinesize).1.toOption = some 0x40 ∧
      ¬∀ space address, ∀ field ∈ fields, ∀ value : BitVec 32, value &&& field.mask = value →
        FieldExact (fresh space) address field value := by
  have timer : (((fresh ⟨0, fun _ _ => 0⟩).write ⟨0, 3, 0⟩ latencyTimer 0x40).2.read ⟨0, 3, 0⟩
      latencyTimer).1.toOption = some 0 := by decide
  refine ⟨by decide, timer, by decide, fun exact_ => ?_⟩
  have held := (exact_ ⟨0, fun _ _ => 0⟩ ⟨0, 3, 0⟩ latencyTimer (by decide) 0x40
    (by decide)).readsBack
  rw [held] at timer
  exact absurd timer (by decide)

end Scan

end JsOS.Core.Pci
