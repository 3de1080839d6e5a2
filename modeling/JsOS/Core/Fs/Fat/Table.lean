import JsOS.Core.Fs.Fat.SectorChains
import JsOS.Core.Fs.Fat.StructFu

/-! # The file allocation table

The entries of the table are numbers of 12, 16 or 32 bits, two of 12 bits in three bytes. They are
read and written through a chain of sectors, so that an entry that lies in two sectors can be
neither read nor written. What the operations do to the table is stated for its numbers
(`Vol.Stores`).
-/

namespace JsOS.Core.Fs.Fat

open Framing (Bytes littleEndian ofLittleEndian)
open Procedure (fail)

/-- The chain as it is for a callback that does not look at its error: a read that fails leaves in
the buffer what one beyond the end does. -/
def Chain.ignoringErrors {State : Type} (chain : Chain State) : Chain State :=
  { chain with
    readSectors := fun i length => do
      match ← (chain.readSectors i length).attempt with
      | .ok d => pure d
      | .error failure => if failure.isError then pure none else fail failure }

/-- Without failures it makes no difference whether a callback looks at its error. -/
theorem Chain.Keeps.ignoringErrors {State : Type} {chain : Chain State}
    {holds : Content → State → Prop} {fits : Content → ℕ → Prop}
    (keeps : chain.Keeps holds fits False) : chain.ignoringErrors.Keeps holds fits False where
  positive := keeps.positive
  fits_le := keeps.fits_le
  fits_grows := keeps.fits_grows
  fits_within := keeps.fits_within
  read i count some held := by
    change Procedure.Ensures (Procedure.attempt (chain.readSectors i _) >>= _) _ _ _
    refine Procedure.ensures_bind.mpr (Procedure.ensures_attempt.mpr
      ((keeps.read i count some held).mono (fun d after came => came) ?_))
    rintro _ _ ⟨⟨⟩, -⟩
  write := keeps.write

/-! ## Entries -/

/-- What `fetchFromFAT` calls an entry. -/
inductive Status where
  | free
  /-- `-invalid-` -/
  | invalid
  | eof
  | bad
  | reserved
  | next (clusterNum : ℕ)
  deriving DecidableEq, Repr

/-- `fatField[fatType].size`. -/
def FatType.entrySize : FatType → ℕ
  | fat12 => 3
  | fat16 => 2
  | fat32 => 4

/-- `fatPrefix`. -/
def FatType.fatPrefix : FatType → ℕ
  | fat12 => 0xF00
  | fat16 => 0xFF00
  | fat32 => 0x0FFFFF00

/-- How the numbers of a table are called. -/
def FatType.statusOf (fatType : FatType) (status : ℕ) : Status :=
  if status = 0x00 then .free
  else if status = 0x01 then .invalid
  else if status > fatType.fatPrefix + 0xF8 then .eof
  else if status = fatType.fatPrefix + 0xF7 then .bad
  else if status > fatType.fatPrefix + 0xF0 then .reserved
  else .next status

/-- `fatStat.free`, as a status of `storeToFAT`. -/
def FatType.free (fatType : FatType) : ℕ := 0x00 + fatType.fatPrefix

/-- `fatStat.eof`, as a status of `storeToFAT`. -/
def FatType.eof (fatType : FatType) : ℕ := 0xFF + fatType.fatPrefix

/-- `fatField.fat12`: two entries. -/
structure Fat12 where
  field0bc : ℕ
  field1c : ℕ
  field0a : ℕ
  field1ab : ℕ
  deriving DecidableEq, Repr

/-- `valueFromBytes` of `fatField.fat12`. -/
def Fat12.valueFromBytes (d : Bytes) : Fat12 :=
  match StructFu.valueFromBytes StructFu.fat12 d ⟨0, 0⟩ with
  | (field0bc, field1c, field0a, field1ab, ()) => ⟨field0bc, field1c, field0a, field1ab⟩

/-- `bytesFromValue` of `fatField.fat12`. -/
def Fat12.bytesFromValue (value : Fat12) : Option Bytes :=
  StructFu.bytesFromValue StructFu.fat12
    (value.field0bc, value.field1c, value.field0a, value.field1ab, ()) [0, 0, 0] ⟨0, 0⟩

/-- The status of a cluster, from the bytes of its entry. -/
def FatType.valueFromBytes : FatType → ℕ → Bytes → ℕ
  | fat12, clusterNum, d =>
      let status := Fat12.valueFromBytes d
      if clusterNum % 2 ≠ 0 then (status.field1ab <<< 4) + status.field1c
      else (status.field0a <<< 8) + status.field0bc
  | fat16, _, d => ofLittleEndian d
  | fat32, _, d => ofLittleEndian d &&& 0x0FFFFFFF

/-- The bytes of an entry with the status of a cluster, from the bytes that it has if the type is
`fat12`; none if writing the number throws. -/
def FatType.bytesFromValue : FatType → ℕ → ℕ → Bytes → Option Bytes
  | fat12, clusterNum, status, d =>
      let value := Fat12.valueFromBytes d
      if clusterNum % 2 ≠ 0 then
        { value with field1ab := status >>> 4, field1c := status &&& 0x0F : Fat12 }.bytesFromValue
      else
        { value with field0a := status >>> 8, field0bc := status &&& 0xFF : Fat12 }.bytesFromValue
  | fat16, _, status, _ => if status < 256 ^ 2 then some (littleEndian 2 status) else none
  | fat32, _, status, _ => if status < 256 ^ 4 then some (littleEndian 4 status) else none

namespace Vol

variable (vol : Vol)

/-- `FATOffset`. -/
def fatOffset (n : ℕ) : ℕ :=
  if vol.fatType = .fat12 then n / 2 * vol.fatType.entrySize else n * vol.fatType.entrySize

/-- `fatInfoForCluster`, without the structure. -/
def fatInfoForCluster (n : ℕ) : Position where
  sector := vol.resvdSecCnt + vol.fatOffset n / vol.sectorSize - vol.resvdSecCnt
  offset := vol.fatOffset n % vol.sectorSize

/-- `fatChain`. -/
def fatChain : Chain Disk := sectorChain vol vol.resvdSecCnt vol.fatSz

/-- `fetchFromFAT`. -/
def fetchFromFAT (clusterNum : ℕ) : Io Status := do
  let (_, d) ← vol.fatChain.readFromPosition (vol.fatInfoForCluster clusterNum)
    (List.replicate vol.fatType.entrySize 0)
  pure (vol.fatType.statusOf (vol.fatType.valueFromBytes clusterNum d))

/-- What `storeToFAT` reads before it writes: two entries of 12 bits, whether or not that fails. -/
def readShared (clusterNum : ℕ) : Io Bytes :=
  if vol.fatType = .fat12 then do
    let (_, d) ← vol.fatChain.ignoringErrors.readFromPosition (vol.fatInfoForCluster clusterNum)
      (List.replicate vol.fatType.entrySize 0)
    pure d
  else pure []

/-- `storeToFAT`, with the number of the status. -/
def storeToFAT (clusterNum status : ℕ) : Io Unit := do
  let d ← vol.readShared clusterNum
  match vol.fatType.bytesFromValue clusterNum status d with
  | none => fail .value
  | some entry => vol.fatChain.writeToPosition (vol.fatInfoForCluster clusterNum) entry

/-- `searchForFreeCluster`, with how many clusters there are from `num` on. -/
def searchForFreeCluster : ℕ → ℕ → Io ℕ
  | 0, _ => fail (.err .nospc)
  | left + 1, num => do
      if (← vol.fetchFromFAT num) = .free then pure num else searchForFreeCluster left (num + 1)

/-- `allocateInFAT`. -/
def allocateInFAT (hint : ℕ) : Io ℕ := do
  let clusterNum ← vol.searchForFreeCluster (vol.countofClusters - hint).toNat hint
  vol.storeToFAT clusterNum vol.fatType.eof
  pure clusterNum

end Vol

/-! ## The numbers of the entries -/

/-- What is written for two entries, and read back. -/
theorem Fat12.exists_bytesFromValue (value : Fat12) :
    ∃ entry, value.bytesFromValue = some entry ∧ entry.length = 3 ∧
      Fat12.valueFromBytes entry = ⟨value.field0bc % 2 ^ 8, value.field1c % 2 ^ 4,
        value.field0a % 2 ^ 4, value.field1ab % 2 ^ 8⟩ := by
  have laid : StructFu.layout ⟨0, 0⟩ StructFu.fat12 = .ok ⟨3, 0⟩ := rfl
  have room : (⟨3, 0⟩ : StructFu.Offset).place ≤ 8 * ([0, 0, 0] : Bytes).length := Nat.le_refl _
  have small : (⟨0, 0⟩ : StructFu.Offset).bits < 8 := Nat.succ_pos 7
  have written := (@StructFu.bytesFromValue_isSome StructFu.fat12
    (value.field0bc, value.field1c, value.field0a, value.field1ab, ())
    [0, 0, 0] ⟨0, 0⟩).mpr ⟨trivial, trivial, trivial, trivial, trivial⟩
  obtain ⟨entry, writes⟩ := Option.isSome_iff_exists.mp written
  refine ⟨entry, writes, (StructFu.bit_bytesFromValue small laid room writes).1, ?_⟩
  unfold valueFromBytes
  rw [StructFu.valueFromBytes_bytesFromValue small laid room writes]
  rfl

/-- The fields of two entries are as wide as they are. -/
theorem Fat12.valueFromBytes_lt {d : Bytes} (length : d.length = 3) :
    (Fat12.valueFromBytes d).field0bc < 2 ^ 8 ∧ (Fat12.valueFromBytes d).field1c < 2 ^ 4 ∧
      (Fat12.valueFromBytes d).field0a < 2 ^ 4 ∧ (Fat12.valueFromBytes d).field1ab < 2 ^ 8 := by
  have laid : StructFu.layout ⟨0, 0⟩ StructFu.fat12 = .ok ⟨3, 0⟩ := rfl
  have room : (⟨3, 0⟩ : StructFu.Offset).place ≤ 8 * d.length := by
    rw [length]
    exact Nat.le_refl _
  have small : (⟨0, 0⟩ : StructFu.Offset).bits < 8 := Nat.succ_pos 7
  have kept := StructFu.valueFromBytes_bytesFromValue small laid room
    (StructFu.bytesFromValue_valueFromBytes small laid room)
  unfold valueFromBytes
  rw [kept]
  exact ⟨Nat.mod_lt _ (Nat.two_pow_pos 8), Nat.mod_lt _ (Nat.two_pow_pos 4),
    Nat.mod_lt _ (Nat.two_pow_pos 4), Nat.mod_lt _ (Nat.two_pow_pos 8)⟩

/-- A number with the bits of one field above those of another. -/
theorem shifted_add_low (status width : ℕ) :
    ((status >>> width) <<< width) + (status &&& (2 ^ width - 1)) = status := by
  rw [Nat.shiftLeft_eq, Nat.shiftRight_eq_div_pow, Nat.and_two_pow_sub_one_eq_mod]
  exact Nat.div_add_mod' status (2 ^ width)

variable {fatType : FatType} {n status : ℕ} {d : Bytes}

/-- **An entry holds the number that is written.** An entry of 12 bits leaves the other one in its
bytes alone. -/
theorem FatType.exists_bytesFromValue (length : fatType = .fat12 → d.length = 3)
    (small : status < fatType.fatPrefix + 0x100) :
    ∃ entry, fatType.bytesFromValue n status d = some entry ∧
      entry.length = fatType.entrySize ∧ fatType.valueFromBytes n entry = status ∧
      (fatType = .fat12 → ∀ m, m % 2 ≠ n % 2 →
        fatType.valueFromBytes m entry = fatType.valueFromBytes m d) := by
  cases fatType with
  | fat12 =>
      have small : status < 2 ^ 12 := small
      have old := Fat12.valueFromBytes_lt (length rfl)
      unfold bytesFromValue valueFromBytes
      dsimp only
      by_cases odd : n % 2 ≠ 0
      · rw [if_pos odd]
        obtain ⟨entry, writes, whole, reads⟩ := Fat12.exists_bytesFromValue
          { Fat12.valueFromBytes d with field1ab := status >>> 4, field1c := status &&& 0x0F }
        refine ⟨entry, writes, whole, ?_, fun _ m other => ?_⟩
        · have high : status >>> 4 < 2 ^ 8 := by
            rw [Nat.shiftRight_eq_div_pow]
            omega
          have low : status &&& 0x0F < 2 ^ 4 := Nat.and_lt_two_pow _ (by norm_num)
          rw [if_pos odd, reads]
          dsimp only
          rw [Nat.mod_eq_of_lt high, Nat.mod_eq_of_lt low]
          exact shifted_add_low status 4
        · have even : ¬m % 2 ≠ 0 := by omega
          rw [if_neg even, if_neg even, reads]
          dsimp only
          rw [Nat.mod_eq_of_lt old.1, Nat.mod_eq_of_lt old.2.2.1]
      · rw [if_neg odd]
        obtain ⟨entry, writes, whole, reads⟩ := Fat12.exists_bytesFromValue
          { Fat12.valueFromBytes d with field0a := status >>> 8, field0bc := status &&& 0xFF }
        refine ⟨entry, writes, whole, ?_, fun _ m other => ?_⟩
        · have high : status >>> 8 < 2 ^ 4 := by
            rw [Nat.shiftRight_eq_div_pow]
            omega
          have low : status &&& 0xFF < 2 ^ 8 := Nat.and_lt_two_pow _ (by norm_num)
          rw [if_neg odd, reads]
          dsimp only
          rw [Nat.mod_eq_of_lt high, Nat.mod_eq_of_lt low]
          exact shifted_add_low status 8
        · have odd : m % 2 ≠ 0 := by omega
          rw [if_pos odd, if_pos odd, reads]
          dsimp only
          rw [Nat.mod_eq_of_lt old.2.1, Nat.mod_eq_of_lt old.2.2.2]
  | fat16 =>
      have small : status < 256 ^ 2 := small
      refine ⟨_, if_pos small, Framing.length_littleEndian 2 status, ?_, fun absurd_ => ?_⟩
      · exact (Framing.ofLittleEndian_littleEndian 2 status).trans (Nat.mod_eq_of_lt small)
      · cases absurd_
  | fat32 =>
      have limit : fatPrefix fat32 + 0x100 = 2 ^ 28 := by norm_num [fatPrefix]
      have mask : 0x0FFFFFFF = 2 ^ 28 - 1 := by norm_num
      rw [limit] at small
      have fits : status < 256 ^ 4 := by omega
      refine ⟨_, if_pos fits, Framing.length_littleEndian 4 status, ?_, fun absurd_ => ?_⟩
      · change ofLittleEndian (littleEndian 4 status) &&& 0x0FFFFFFF = status
        rw [mask, Framing.ofLittleEndian_littleEndian, Nat.mod_eq_of_lt fits,
          Nat.and_two_pow_sub_one_eq_mod, Nat.mod_eq_of_lt small]
      · cases absurd_

end JsOS.Core.Fs.Fat
