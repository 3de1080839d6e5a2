import Mathlib.Data.BitVec
import JsOS.Library.ByteMemory

/-! # ATA drives

The driver cuts the number of the first sector and the count of sectors into the registers of the
drive, gives a command, and moves the data through a port of 16 bits. The drive addresses sectors
with 28 bits and takes a count of 0 for 256.
-/

namespace JsOS.Driver.Ata

open ByteMemory

/-! ## The drive -/

/-- A transfer: its direction, the address of the byte that comes next, and the words left. -/
structure Transfer where
  toDrive : Bool
  address : ℕ
  words : ℕ
  deriving DecidableEq, Repr

/-- The transfer after a word. -/
def Transfer.next (transfer : Transfer) : Option Transfer :=
  if transfer.words ≤ 1 then none
  else some { transfer with address := transfer.address + 2, words := transfer.words - 1 }

/-- A drive: its bytes by address, the registers, the transfer that is going on, and the commands
that were given. -/
structure Drive where
  disk : ℕ → UInt8
  device : UInt8
  count : UInt8
  low : UInt8
  mid : UInt8
  high : UInt8
  transfer : Option Transfer
  commands : List UInt8

/-- The bytes of the sectors that 28 bits can address. -/
def capacity : ℕ := 2 ^ 28 * 512

namespace Drive

/-- The first sector: four bits of the device register, and the three others. -/
def start (drive : Drive) : ℕ :=
  drive.device.toNat % 16 * 2 ^ 24 + drive.high.toNat * 2 ^ 16 + drive.mid.toNat * 2 ^ 8 +
    drive.low.toNat

/-- The number of sectors. -/
def sectors (drive : Drive) : ℕ := if drive.count = 0 then 256 else drive.count.toNat

/-- A transfer of all addressed sectors. -/
def begin_ (drive : Drive) (toDrive : Bool) : Drive :=
  { drive with transfer := some ⟨toDrive, drive.start * 512, drive.sectors * 256⟩ }

/-- A command: 0x20 reads sectors and 0x30 writes them. Any other ends the transfer. -/
def command (drive : Drive) (code : UInt8) : Drive :=
  let given := { drive with commands := drive.commands ++ [code] }
  if code = 0x20 then given.begin_ false
  else if code = 0x30 then given.begin_ true
  else { given with transfer := none }

/-- The status: ready, and bit 3 while there are words to move. -/
def status (drive : Drive) : UInt8 := if drive.transfer.isSome then 0x48 else 0x40

/-- A byte is stored, if its sector exists. -/
def store (disk : ℕ → UInt8) (address : ℕ) (byte : UInt8) : ℕ → UInt8 :=
  fun place => if place = address ∧ address < capacity then byte else disk place

/-- A word written to the data port, its low byte first. -/
def write16 (drive : Drive) (data : ℕ) : Drive :=
  match drive.transfer with
  | some transfer =>
      if transfer.toDrive then
        { drive with
          disk := store (store drive.disk transfer.address (UInt8.ofNat data))
            (transfer.address + 1) (UInt8.ofNat (data >>> 8))
          transfer := transfer.next }
      else drive
  | none => drive

/-- The byte at an address; sectors that do not exist read as zero. -/
def byteAt (drive : Drive) (address : ℕ) : UInt8 :=
  if address < capacity then drive.disk address else 0

/-- A word read from the data port. -/
def read16 (drive : Drive) : ℕ × Drive :=
  match drive.transfer with
  | some transfer =>
      if transfer.toDrive then (0, drive)
      else
        ((drive.byteAt transfer.address).toNat ||| (drive.byteAt (transfer.address + 1)).toNat <<< 8,
          { drive with transfer := transfer.next })
  | none => (0, drive)

end Drive

/-! ## The driver -/

/-- What a call comes to: its promise is resolved or rejected, or it waits for ever. -/
inductive Outcome where
  | resolved (u8 : List UInt8)
  | rejected
  | stuck
  deriving DecidableEq, Repr

/-- `isOnline` does not ask the drive. -/
def isOnline : Bool := true

/-- `driveSelect`. -/
def driveSelect (isSlave : Bool) : ℕ := if isSlave then 0xF0 else 0xE0

/-- The registers for a sector and a number of sectors, and whether all were written. `write8`
throws for a value that is no `uint32`, and the number is the only one that could be none. -/
def select (isSlave : Bool) (drive : Drive) (sector numSectors : ℕ) : Drive × Bool :=
  let drive := { drive with device := UInt8.ofNat (driveSelect isSlave ||| sector >>> 24 &&& 0x0F) }
  if 2 ^ 32 ≤ numSectors then (drive, false)
  else
    ({ drive with
      count := UInt8.ofNat numSectors
      low := UInt8.ofNat (sector &&& 0xff)
      mid := UInt8.ofNat (sector >>> 8 &&& 0xff)
      high := UInt8.ofNat (sector >>> 16 &&& 0xff) }, true)

/-- A byte of the buffer. -/
def byteOf (u8 : List UInt8) (index : ℕ) : ℕ := (u8.getD index 0).toNat

/-- The loop of `write`, with the rounds left and the index of the word. -/
def writeLoop (u8 : List UInt8) : ℕ → ℕ → Drive → Drive
  | 0, _, drive => drive
  | rounds + 1, i, drive =>
      writeLoop u8 rounds (i + 1)
        (drive.write16 (byteOf u8 (i * 2) ||| byteOf u8 (i * 2 + 1) <<< 8))

/-- The loop of `read`: the bytes that it sets. -/
def readLoop : ℕ → Drive → List UInt8 × Drive
  | 0, drive => ([], drive)
  | rounds + 1, drive =>
      let (data, drive) := drive.read16
      let (bytes, drive) := readLoop rounds drive
      (UInt8.ofNat (data &&& 0xFF) :: UInt8.ofNat (data >>> 8 &&& 0xFF) :: bytes, drive)

/-- The words of zero while the drive still asks for some. -/
def drain : ℕ → Drive → Drive
  | 0, drive => drive
  | fuel + 1, drive => if drive.status &&& 8 = 0 then drive else drain fuel (drive.write16 0)

/-- The words that are left. -/
def wordsLeft (drive : Drive) : ℕ := drive.transfer.elim 0 Transfer.words

/-- The waits before the data: for the drive to be idle, and then to ask for data. Its status
does not change meanwhile. An error of the drive rejects the promise. -/
def awaitData (drive : Drive) (ready : Drive → Outcome × Drive) : Outcome × Drive :=
  if drive.status &&& 0x80 ≠ 0 then (.stuck, drive)
  else if drive.status &&& 8 = 0 then (.stuck, drive)
  else if drive.status &&& 0x1 ≠ 0 ∨ drive.status &&& 0x20 ≠ 0 then (.rejected, drive)
  else ready drive

/-- `read`. -/
def read (isSlave : Bool) (drive : Drive) (sector : ℕ) (u8 : List UInt8) : Outcome × Drive :=
  let numSectors := u8.length / 512
  if !isOnline then (.rejected, drive)
  else
    let (drive, selected) := select isSlave drive sector numSectors
    if !selected then (.rejected, drive)
    else
      awaitData (drive.command 0x20) fun drive =>
        let (bytes, drive) := readLoop (numSectors * 256) drive
        (.resolved (bytes ++ u8.drop bytes.length), drive)

/-- `write`. -/
def write (isSlave : Bool) (drive : Drive) (sector : ℕ) (u8 : List UInt8) : Outcome × Drive :=
  let numSectors := u8.length / 512
  if !isOnline then (.rejected, drive)
  else
    let (drive, selected) := select isSlave drive sector numSectors
    if !selected then (.rejected, drive)
    else
      awaitData (drive.command 0x30) fun drive =>
        let drive := (writeLoop u8 (numSectors * 256) 0 drive).command 0xE7
        (.resolved u8, drain (wordsLeft drive) drive)

/-! ## What is to hold -/

/-- The bytes are at the sector and those after it, and the rest of the disk is as before. -/
structure Stored (before after : ℕ → UInt8) (sector : ℕ) (u8 : List UInt8) : Prop where
  holds : Holds after (sector * 512) u8
  others : ∀ address, address < sector * 512 ∨ sector * 512 + u8.length ≤ address →
    after address = before address

/-- **The round trip**: on every drive the call is rejected before a command, or the buffer is
stored and then read into every buffer of its length. -/
def RoundTrips (isSlave : Bool) (sector : ℕ) (u8 : List UInt8) : Prop :=
  ∀ drive : Drive,
    ((write isSlave drive sector u8).1 = .rejected ∧
        (write isSlave drive sector u8).2.commands = drive.commands) ∨
      ((write isSlave drive sector u8).1 = .resolved u8 ∧
        Stored drive.disk (write isSlave drive sector u8).2.disk sector u8 ∧
        ∀ buffer : List UInt8, buffer.length = u8.length →
          (read isSlave (write isSlave drive sector u8).2 sector buffer).1 = .resolved u8)

/-! ## Words -/

/-- The low byte and the high byte, in one word. -/
theorem word_eq (low high : UInt8) :
    low.toNat ||| high.toNat <<< 8 = high.toNat * 256 + low.toNat := by
  rw [Nat.or_comm, ← Nat.shiftLeft_add_eq_or_of_lt low.toNat_lt, Nat.shiftLeft_eq]

theorem ofNat_word (low high : UInt8) : UInt8.ofNat (low.toNat ||| high.toNat <<< 8) = low := by
  apply UInt8.toNat_inj.mp
  rw [word_eq, UInt8.toNat_ofNat', Nat.mul_add_mod_self_right]
  exact Nat.mod_eq_of_lt low.toNat_lt

theorem word_shift (low high : UInt8) : (low.toNat ||| high.toNat <<< 8) >>> 8 = high.toNat := by
  rw [word_eq, Nat.shiftRight_eq_div_pow]
  have small := low.toNat_lt
  omega

theorem and_byte (number : ℕ) : number &&& 0xFF = number % 256 :=
  Nat.and_two_pow_sub_one_eq_mod number 8

theorem ofNat_mod (number : ℕ) : UInt8.ofNat (number % 256) = UInt8.ofNat number := by
  apply UInt8.toNat_inj.mp
  rw [UInt8.toNat_ofNat', UInt8.toNat_ofNat']
  exact Nat.mod_mod number 256

/-! ## The registers -/

theorem driveSelect_or : ∀ isSlave : Bool, ∀ bits < 16,
    (UInt8.ofNat (driveSelect isSlave ||| bits)).toNat % 16 = bits := by
  decide

/-- **The registers** hold the lower 28 bits of the number of the sector, and the lower 8 of the
count. -/
theorem select_spec (isSlave : Bool) (drive : Drive) (sector : ℕ) {numSectors : ℕ}
    (uint32 : numSectors < 2 ^ 32) :
    ∃ selected, select isSlave drive sector numSectors = (selected, true) ∧
      selected.disk = drive.disk ∧
      selected.start = sector % 2 ^ 28 ∧
      selected.sectors = if numSectors % 256 = 0 then 256 else numSectors % 256 := by
  refine ⟨_, if_neg (Nat.not_le.mpr uint32), rfl, ?_, ?_⟩
  · have bits : sector >>> 24 &&& 0x0F = sector / 2 ^ 24 % 16 := by
      rw [Nat.shiftRight_eq_div_pow]
      exact Nat.and_two_pow_sub_one_eq_mod _ 4
    rw [Drive.start]
    dsimp only
    rw [bits, driveSelect_or _ _ (Nat.mod_lt _ (by decide)), and_byte, and_byte, and_byte,
      ofNat_mod, ofNat_mod, ofNat_mod, UInt8.toNat_ofNat', UInt8.toNat_ofNat', UInt8.toNat_ofNat',
      Nat.shiftRight_eq_div_pow, Nat.shiftRight_eq_div_pow]
    omega
  · have zero : UInt8.ofNat numSectors = 0 ↔ numSectors % 256 = 0 := by
      rw [← UInt8.toNat_inj, UInt8.toNat_ofNat']
      rfl
    rw [Drive.sectors]
    dsimp only
    rw [UInt8.toNat_ofNat']
    exact if_congr zero rfl rfl

/-! ## Moving the data -/

/-- Without a transfer a word that is written has no effect. -/
theorem writeLoop_idle (u8 : List UInt8) (rounds i : ℕ) {drive : Drive}
    (idle : drive.transfer = none) : writeLoop u8 rounds i drive = drive := by
  induction rounds generalizing i with
  | zero => rfl
  | succ rounds ih =>
      have same (data : ℕ) : drive.write16 data = drive := by rw [Drive.write16, idle]
      rw [writeLoop, same]
      exact ih (i + 1)

theorem store_apply (disk : ℕ → UInt8) (address : ℕ) (byte : UInt8) (place : ℕ) :
    Drive.store disk address byte place =
      if place = address ∧ address < capacity then byte else disk place := rfl

/-- A word of the buffer is its two bytes on the disk. -/
theorem write16_disk (u8 : List UInt8) (i : ℕ) {drive : Drive} {address words : ℕ}
    (going : drive.transfer = some ⟨true, address, words⟩) (place : ℕ) :
    (drive.write16 (byteOf u8 (i * 2) ||| byteOf u8 (i * 2 + 1) <<< 8)).disk place =
      if address ≤ place ∧ place < address + 2 ∧ place < capacity then
        u8.getD (i * 2 + (place - address)) 0
      else drive.disk place := by
  rw [Drive.write16, going, byteOf, byteOf]
  dsimp only
  rw [if_pos rfl, ofNat_word, word_shift, UInt8.ofNat_toNat]
  dsimp only
  rw [store_apply, store_apply]
  by_cases high : place = address + 1
  · subst high
    have other : ¬(address + 1 = address ∧ address < capacity) := by omega
    rw [if_neg other, Nat.add_sub_cancel_left]
    refine if_congr ?_ rfl rfl
    omega
  · rw [if_neg (fun both => high both.1)]
    by_cases low : place = address
    · subst low
      rw [Nat.sub_self, Nat.add_zero]
      refine if_congr ?_ rfl rfl
      omega
    · rw [if_neg (fun both => low both.1), if_neg]
      omega

theorem write16_transfer {drive : Drive} {address words : ℕ}
    (going : drive.transfer = some ⟨true, address, words⟩) (data : ℕ) :
    (drive.write16 data).transfer =
      if words ≤ 1 then none else some ⟨true, address + 2, words - 1⟩ := by
  rw [Drive.write16, going]
  rfl

/-- **The loop of `write`**, with at least as many rounds as the drive asks for words: they are
stored, and the drive asks for no more. -/
theorem writeLoop_spec (u8 : List UInt8) {rounds i : ℕ} {drive : Drive} {address words : ℕ}
    (going : drive.transfer = some ⟨true, address, words⟩) (asks : 0 < words)
    (enough : words ≤ rounds) :
    (writeLoop u8 rounds i drive).transfer = none ∧
      ∀ place, (writeLoop u8 rounds i drive).disk place =
        if address ≤ place ∧ place < address + words * 2 ∧ place < capacity then
          u8.getD (i * 2 + (place - address)) 0
        else drive.disk place := by
  induction rounds generalizing i drive address words with
  | zero => omega
  | succ rounds ih =>
      have next := write16_transfer going (byteOf u8 (i * 2) ||| byteOf u8 (i * 2 + 1) <<< 8)
      have disk := write16_disk u8 i going
      rw [writeLoop]
      by_cases last : words ≤ 1
      · -- The last word: the rounds that remain have no effect.
        rw [if_pos last] at next
        rw [writeLoop_idle u8 rounds (i + 1) next]
        refine ⟨next, fun place => ?_⟩
        have one : words = 1 := by omega
        rw [disk place, one]
      · rw [if_neg last] at next
        obtain ⟨ends, later⟩ := ih (i := i + 1) next (by omega) (by omega)
        refine ⟨ends, fun place => ?_⟩
        rw [later place, disk place]
        by_cases first : place < address + 2
        · rw [if_neg (by omega)]
          refine if_congr ?_ rfl rfl
          omega
        · have index : (i + 1) * 2 + (place - (address + 2)) = i * 2 + (place - address) := by omega
          by_cases inside : place < address + words * 2 ∧ place < capacity
          · rw [if_pos (by omega), if_pos (by omega), index]
          · rw [if_neg (by omega), if_neg (by omega), if_neg (by omega)]

/-- A word that is read. -/
theorem read16_spec {drive : Drive} {address words : ℕ}
    (going : drive.transfer = some ⟨false, address, words⟩) :
    (drive.read16).1 =
        (drive.byteAt address).toNat ||| (drive.byteAt (address + 1)).toNat <<< 8 ∧
      (drive.read16).2.transfer =
        (if words ≤ 1 then none else some ⟨false, address + 2, words - 1⟩) ∧
      (drive.read16).2.disk = drive.disk := by
  rw [Drive.read16, going]
  exact ⟨rfl, rfl, rfl⟩

theorem byteAt_congr {first second : Drive} (same : first.disk = second.disk) :
    first.byteAt = second.byteAt := by
  funext address
  rw [Drive.byteAt, Drive.byteAt, same]

/-- **The loop of `read`**, with as many rounds as the drive has words. -/
theorem readLoop_spec {words : ℕ} {drive : Drive} {address : ℕ}
    (going : 0 < words → drive.transfer = some ⟨false, address, words⟩) :
    (readLoop words drive).1 = window drive.byteAt address (words * 2) := by
  induction words generalizing drive address with
  | zero => rfl
  | succ words ih =>
      obtain ⟨data, next, disk⟩ := read16_spec (going (Nat.succ_pos words))
      have later : (readLoop words drive.read16.2).1 =
          window drive.byteAt (address + 2) (words * 2) := by
        rw [← byteAt_congr disk]
        refine ih fun more => ?_
        rw [next, if_neg (by omega)]
        rfl
      have split : (words + 1) * 2 = words * 2 + 1 + 1 := by omega
      rw [readLoop]
      dsimp only
      rw [later, data, and_byte, and_byte, ofNat_mod, ofNat_mod, ofNat_word, word_shift,
        UInt8.ofNat_toNat, split, window_succ, window_succ]

/-! ## The calls -/

theorem online : ¬(!isOnline) = true := by decide

/-- A drive that has words to move is idle and asks for data, and there is no error. -/
theorem awaitData_going {drive : Drive} (going : drive.transfer.isSome)
    (ready : Drive → Outcome × Drive) : awaitData drive ready = ready drive := by
  have status : drive.status = 0x48 := if_pos going
  rw [awaitData, status]
  rfl

/-- After the flush the drive asks for no words. -/
theorem drain_flushed (drive : Drive) (fuel : ℕ) :
    drain fuel (drive.command 0xE7) = drive.command 0xE7 := by
  have status : (drive.command 0xE7).status = 0x40 := rfl
  cases fuel with
  | zero => rfl
  | succ fuel =>
      rw [drain, status]
      rfl

/-- The sectors that the drive moves for a count. -/
def moved (numSectors : ℕ) : ℕ := if numSectors % 256 = 0 then 256 else numSectors % 256

theorem moved_bounds {numSectors : ℕ} (positive : 0 < numSectors) :
    0 < moved numSectors ∧ moved numSectors ≤ numSectors ∧
      (moved numSectors = numSectors ↔ numSectors ≤ 256) := by
  rw [moved]
  split <;> omega

/-- **A count that is no `uint32`** is refused before the command. -/
theorem write_rejected (isSlave : Bool) (drive : Drive) (sector : ℕ) {u8 : List UInt8}
    (large : 2 ^ 32 ≤ u8.length / 512) :
    (write isSlave drive sector u8).1 = .rejected ∧
      (write isSlave drive sector u8).2.commands = drive.commands := by
  rw [write, select]
  dsimp only
  rw [if_neg online, if_pos large]
  exact ⟨rfl, rfl⟩

/-- **`write`** stores as many sectors as the lower 8 bits of their count say, from the sector that
the lower 28 bits say. -/
theorem write_spec (isSlave : Bool) (drive : Drive) (sector : ℕ) {u8 : List UInt8}
    (positive : 0 < u8.length / 512) (uint32 : u8.length / 512 < 2 ^ 32) :
    (write isSlave drive sector u8).1 = .resolved u8 ∧
      ∀ place, (write isSlave drive sector u8).2.disk place =
        if sector % 2 ^ 28 * 512 ≤ place ∧
            place < sector % 2 ^ 28 * 512 + moved (u8.length / 512) * 512 ∧ place < capacity then
          u8.getD (place - sector % 2 ^ 28 * 512) 0
        else drive.disk place := by
  obtain ⟨selected, select_eq, disk, start, sectors⟩ := select_spec isSlave drive sector uint32
  have bounds := moved_bounds positive
  have going : (selected.command 0x30).transfer =
      some ⟨true, sector % 2 ^ 28 * 512, moved (u8.length / 512) * 256⟩ := by
    rw [← start, moved, ← sectors]
    rfl
  have stored := (writeLoop_spec u8 (i := 0) going (by omega)
    (Nat.mul_le_mul_right 256 bounds.2.1)).2
  rw [write]
  dsimp only
  rw [if_neg online, select_eq]
  dsimp only
  rw [if_neg (by decide), awaitData_going (by rw [going]; rfl)]
  dsimp only
  rw [drain_flushed]
  refine ⟨rfl, fun place => ?_⟩
  refine (stored place).trans ?_
  rw [Nat.zero_mul, Nat.zero_add, Nat.mul_assoc]
  refine if_congr Iff.rfl rfl ?_
  exact congrFun disk place

/-- **`read`** of at most 256 sectors returns those from the sector that the lower 28 bits say. -/
theorem read_spec (isSlave : Bool) (drive : Drive) (sector : ℕ) {u8 : List UInt8} {numSectors : ℕ}
    (multiple : u8.length = numSectors * 512) (positive : 0 < numSectors)
    (few : numSectors ≤ 256) :
    (read isSlave drive sector u8).1 =
      .resolved (window drive.byteAt (sector % 2 ^ 28 * 512) (numSectors * 512)) := by
  obtain ⟨selected, select_eq, disk, start, sectors⟩ :=
    select_spec isSlave drive sector (Nat.lt_of_le_of_lt few (by decide))
  have same : moved numSectors = numSectors := (moved_bounds positive).2.2.mpr few
  have going : (selected.command 0x20).transfer =
      some ⟨false, sector % 2 ^ 28 * 512, numSectors * 256⟩ := by
    have count : selected.sectors = numSectors := by
      rw [sectors]
      exact same
    rw [← start, ← count]
    rfl
  have data := readLoop_spec fun _ => going
  rw [byteAt_congr (show (selected.command 0x20).disk = drive.disk from disk), Nat.mul_assoc] at data
  have length : u8.length / 512 = numSectors := by omega
  rw [read]
  dsimp only
  rw [if_neg online, length, select_eq]
  dsimp only
  rw [if_neg (by decide), awaitData_going (by rw [going]; rfl)]
  dsimp only
  rw [data, length_window, multiple.symm, List.drop_length, List.append_nil]

/-! ## The round trip -/

section

variable {isSlave : Bool} {sector : ℕ} {u8 : List UInt8}

/-- Within 256 sectors and 28 bits, the buffer is stored and the rest is left alone. -/
theorem stored_of_fits (positive : 0 < u8.length / 512) (multiple : 512 ∣ u8.length)
    (few : u8.length / 512 ≤ 256) (inside : sector + u8.length / 512 ≤ 2 ^ 28) (drive : Drive) :
    Stored drive.disk (write isSlave drive sector u8).2.disk sector u8 := by
  have written := (write_spec isSlave drive sector positive
    (Nat.lt_of_le_of_lt few (by decide))).2
  have length : u8.length / 512 * 512 = u8.length := Nat.div_mul_cancel multiple
  have low : sector % 2 ^ 28 = sector := Nat.mod_eq_of_lt (by omega)
  rw [(moved_bounds positive).2.2.mpr few, length, low] at written
  have bound : sector * 512 + u8.length ≤ capacity := by
    rw [capacity]
    omega
  constructor
  · refine List.ext_getElem (length_window _ _ _) fun i _ within => ?_
    simp only [window, List.getElem_map, List.getElem_range]
    rw [written, if_pos (by omega), Nat.add_sub_cancel_left, List.getD_eq_getElem?_getD,
      List.getElem?_eq_getElem within]
    rfl
  · intro address outside
    rw [written, if_neg (by omega)]

/-- What lies within 28 bits is read as it lies on the disk. -/
theorem window_byteAt (drive : Drive) {address length : ℕ} (bound : address + length ≤ capacity) :
    window drive.byteAt address length = window drive.disk address length := by
  refine List.map_congr_left fun i within => ?_
  have below := List.mem_range.mp within
  exact if_pos (by omega)

/-- **The trip of a buffer that fits.** -/
theorem roundTrips_of_fits (positive : 0 < u8.length / 512) (multiple : 512 ∣ u8.length)
    (few : u8.length / 512 ≤ 256) (inside : sector + u8.length / 512 ≤ 2 ^ 28) :
    RoundTrips isSlave sector u8 := by
  intro drive
  have stored : Stored drive.disk (write isSlave drive sector u8).2.disk sector u8 :=
    stored_of_fits positive multiple few inside drive
  refine .inr ⟨(write_spec isSlave drive sector positive
    (Nat.lt_of_le_of_lt few (by decide))).1, stored, fun buffer same => ?_⟩
  have length : u8.length / 512 * 512 = u8.length := Nat.div_mul_cancel multiple
  have low : sector % 2 ^ 28 = sector := Nat.mod_eq_of_lt (by omega)
  have bound : sector * 512 + u8.length ≤ capacity := by
    rw [capacity]
    omega
  rw [read_spec isSlave _ sector (same.trans length.symm) positive few, low, length,
    window_byteAt _ bound, stored.holds]

/-- A byte of the buffer that the drive does not take breaks the trip: the disk may hold another
one there. -/
theorem not_roundTrips_of_lost (positive : 0 < u8.length / 512)
    (uint32 : u8.length / 512 < 2 ^ 32) {i : ℕ} (within : i < u8.length)
    (lost : ¬(sector % 2 ^ 28 * 512 ≤ sector * 512 + i ∧
      sector * 512 + i < sector % 2 ^ 28 * 512 + moved (u8.length / 512) * 512 ∧
      sector * 512 + i < capacity)) : ¬RoundTrips isSlave sector u8 := by
  intro trips
  let drive : Drive := ⟨fun _ => u8[i] + 1, 0, 0, 0, 0, 0, none, []⟩
  obtain ⟨outcome, written⟩ := write_spec isSlave drive sector positive uint32
  obtain ⟨rejected, -⟩ | ⟨-, stored, -⟩ := trips drive
  · rw [outcome] at rejected
    cases rejected
  · have kept := written (sector * 512 + i)
    rw [if_neg lost, stored.holds.getElem within] at kept
    have differ (byte : UInt8) : byte ≠ byte + 1 := by
      intro same
      have values := congrArg UInt8.toNat same
      rw [UInt8.toNat_add, UInt8.toNat_one] at values
      have small := byte.toNat_lt
      omega
    exact differ u8[i] kept

/-- **The round trip holds exactly** for at most 256 sectors that 28 bits can address, and where
the count is refused. -/
theorem roundTrips_iff (positive : 0 < u8.length) (multiple : 512 ∣ u8.length) :
    RoundTrips isSlave sector u8 ↔
      (u8.length / 512 ≤ 256 ∧ sector + u8.length / 512 ≤ 2 ^ 28) ∨ 2 ^ 32 ≤ u8.length / 512 := by
  have length : u8.length / 512 * 512 = u8.length := Nat.div_mul_cancel multiple
  have sectors : 0 < u8.length / 512 := by omega
  constructor
  · intro trips
    by_contra condition
    obtain ⟨misfit, large⟩ := not_or.mp condition
    refine not_roundTrips_of_lost sectors (Nat.not_le.mp large) (i := u8.length - 1) (by omega) ?_
      trips
    -- The last byte is lost: its sector is beyond the 28 bits, or beyond those that are moved.
    have bounds := moved_bounds sectors
    rw [capacity]
    rintro ⟨-, before, below⟩
    have inside : sector + u8.length / 512 ≤ 2 ^ 28 := by omega
    have low : sector % 2 ^ 28 = sector := Nat.mod_eq_of_lt (by omega)
    rw [low] at before
    have all : moved (u8.length / 512) = u8.length / 512 := by omega
    exact misfit ⟨bounds.2.2.mp all, inside⟩
  · rintro (⟨few, inside⟩ | large)
    · exact roundTrips_of_fits sectors multiple few inside
    · intro drive
      exact .inl (write_rejected isSlave drive sector large)

end

/-- One sector, the last. -/
theorem roundTrips_iff_last :
    RoundTrips true (2 ^ 28 - 1) (List.replicate 512 7) :=
  (roundTrips_iff (by rw [List.length_replicate]; decide)
    (by rw [List.length_replicate])).mpr
      (.inl (by rw [List.length_replicate]; decide))

/-- Of 257 sectors the drive is asked for one. -/
theorem manySectors_not_roundTrips : ¬RoundTrips false 0 (List.replicate (257 * 512) 0) := by
  have length : (List.replicate (257 * 512) (0 : UInt8)).length = 257 * 512 :=
    List.length_replicate
  refine not_roundTrips_of_lost (i := 512) ?_ ?_ ?_ ?_ <;> rw [length] <;> decide

end JsOS.Driver.Ata
