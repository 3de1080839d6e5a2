import JsOS.Library.Framing
import JsOS.Library.NumericString

/-! # Paths to partitions

The first sector of a device has a table of four partitions. `readdir` names those that are in use
by their order, and `resolvePath` converts the digits of a name to an index. A conversion takes
leading zeros as well, so that a partition answers to more names than the one that is listed
(`listed_iff`).
-/

namespace JsOS.Core.Fs

open Binary64 (Number)
open Framing (ofLittleEndian)
open NumericString (Units Numeral numeral toNumber units)

/-! ## The table -/

/-- `Partition`: the type, the first sector and the number of sectors. -/
structure Partition where
  type : UInt8
  address : ℕ
  size : ℕ
  deriving DecidableEq, Repr

/-- A block device: its name, and what its first sector holds. -/
structure Device where
  name : Units
  sector0 : List UInt8
  deriving DecidableEq

/-- `readUInt32LE`. -/
def readUInt32LE (buf : List UInt8) (offset : ℕ) : ℕ := ofLittleEndian ((buf.drop offset).take 4)

/-- The entry of the table at an index, unless its type is 0. -/
def entry (buf : List UInt8) (i : ℕ) : Option Partition :=
  let type := buf.getD (i * 16 + 0x4) 0
  if type = 0 then none
  else some ⟨type, readUInt32LE buf (i * 16 + 0x8), readUInt32LE buf (i * 16 + 0xC)⟩

/-- `getPartitions`, for what the first sector holds. -/
def getPartitions (sector0 : List UInt8) : List Partition :=
  (List.range 4).filterMap (entry ((sector0.drop 0x1BE).take 64))

/-! ## Paths -/

/-- `/`. -/
def slash : BitVec 16 := 47

/-- `p`. -/
def letterP : BitVec 16 := 112

/-- `getDeviceByName`: the last device with the name. -/
def getDeviceByName (devices : List Device) (name : Units) : Option Device :=
  devices.reverse.find? fun device => device.name = name

/-- The errors of a path. -/
inductive PathError where
  /-- `Path is not absolute` -/
  | notAbsolute
  /-- `No device ${spl[1]}` -/
  | noDevice (name : Units)
  /-- `Invalid partition name ${spl[2]}` -/
  | invalidPartitionName (name : Units)
  /-- There is no partition at the index, and `getFilesystem` of `undefined` is a `TypeError`. -/
  | noPartition
  deriving DecidableEq

/-- `level`, and the parts: the device, the number of the partition, and the rest. -/
structure Resolved where
  level : ℕ
  device : Option Device := none
  number : Option Number := none
  rest : List Units := []

/-- `Number(name.slice(1))` for a name that matches `/^p\d+$/`. -/
def partitionNumber : Units → Option Number
  | [] => none
  | letter :: digits => if letter = letterP ∧ Numeral digits then some (toNumber digits) else none

/-- `path.split('/')`, without an empty part at the end. -/
def splitPath (path : Units) : List Units :=
  let spl := path.splitOn slash
  if spl.getLast? = some [] then spl.dropLast else spl

/-- `resolvePath`. -/
def resolvePath (devices : List Device) (path : Units) : Except PathError Resolved :=
  match splitPath path with
  | [] => .ok { level := 0 }
  | first :: parts =>
      if first ≠ [] then .error .notAbsolute
      else
        match parts with
        | [] => .ok { level := 0 }
        | name :: parts =>
            match getDeviceByName devices name with
            | none => .error (.noDevice name)
            | some device =>
                match parts with
                | [] => .ok { level := 1, device := some device }
                | name :: rest =>
                    match partitionNumber name with
                    | none => .error (.invalidPartitionName name)
                    | some number =>
                        .ok { level := 2 + rest.length, device := some device,
                              number := some number, rest }

/-- `partitions[number]`. -/
def elementAt {α : Type} (list : List α) : Number → Option α
  | .finite value => if value.den = 1 ∧ 0 ≤ value.num then list[value.num.toNat]? else none
  | _ => none

/-- `isSystemPath`. -/
def isSystemPath (path : Units) : Bool := path.take 7 = units "/system"

/-- What `readdir` comes to: names, the file system of a partition that is then asked for a
directory, or an error. The files of the kernel are listed elsewhere. -/
inductive Listing where
  | system (extpath : Units)
  | names (names : List Units)
  | filesystem (partition : Partition) (path : Units)
  | error (err : PathError)
  deriving DecidableEq

/-- `p${i}` for each partition. -/
def partitionNames (partitions : List Partition) : List Units :=
  (List.range partitions.length).map fun i => letterP :: NumericString.ofNat i

/-- `readdir`. -/
def readdir (devices : List Device) (path : Units) : Listing :=
  if isSystemPath path then
    .system ((if path.getLast? = some slash then path.dropLast else path).drop 7)
  else
    match resolvePath devices path with
    | .error err => .error err
    | .ok resolved =>
        match resolved.device with
        | none => .names (devices.map Device.name ++ [units "system"])
        | some device =>
            let partitions := getPartitions device.sector0
            match resolved.number with
            | none => .names (partitionNames partitions)
            | some number =>
                match elementAt partitions number with
                | none => .error .noPartition
                | some partition => .filesystem partition ([slash].intercalate resolved.rest)

/-! ## Names -/

/-- The name of a device of the bus `virtio`. -/
def virtioName (index : ℕ) : Units := units "virtio" ++ NumericString.ofNat index

/-- The path of a name under such a device. -/
def pathUnder (index : ℕ) (name : Units) : Units := slash :: (virtioName index ++ slash :: name)

/-- A partition answers to the name. -/
def Reaches (devices : List Device) (index : ℕ) (name : Units) (partition : Partition) : Prop :=
  readdir devices (pathUnder index name) = .filesystem partition []

/-- The number of the name is that of a partition, with a zero before it. -/
def Padded (partitions : List Partition) (name : Units) : Prop :=
  ∃ digits, name = letterP :: 48 :: digits ∧ digits ≠ [] ∧ Numeral digits ∧
    numeral digits < partitions.length

theorem slash_not_mem_of_numeral {digits : Units} (numeral : Numeral digits) : slash ∉ digits :=
  fun member => NumericString.ne_of_isDigit (numeral.2 slash member) (by decide) rfl

theorem slash_not_mem_virtioName (index : ℕ) : slash ∉ virtioName index := by
  intro member
  obtain bus | digits := List.mem_append.mp member
  · exact absurd bus (by decide)
  · exact slash_not_mem_of_numeral (NumericString.numeral_ofNat index).1 digits

theorem isSystemPath_virtio (index : ℕ) (rest : Units) :
    isSystemPath (slash :: (virtioName index ++ rest)) = false := by
  rw [isSystemPath, virtioName, List.append_assoc]
  rfl

theorem splitPath_device (index : ℕ) :
    splitPath (slash :: virtioName index) = [[], virtioName index] := by
  have split : (slash :: virtioName index).splitOn slash = [[], virtioName index] := by
    rw [← List.nil_append (slash :: virtioName index),
      List.splitOn_append_cons_self_of_not_mem List.not_mem_nil,
      List.splitOn_eq_singleton (slash_not_mem_virtioName index)]
  rw [splitPath, split]
  rfl

theorem splitPath_under (index : ℕ) {name : Units} (plain : slash ∉ name) :
    splitPath (pathUnder index name) =
      if name = [] then [[], virtioName index] else [[], virtioName index, name] := by
  have split : (pathUnder index name).splitOn slash = [[], virtioName index, name] := by
    rw [pathUnder, ← List.nil_append (slash :: _),
      List.splitOn_append_cons_self_of_not_mem List.not_mem_nil,
      List.splitOn_append_cons_self_of_not_mem (slash_not_mem_virtioName index),
      List.splitOn_eq_singleton plain]
  rw [splitPath, split]
  refine if_congr ?_ rfl rfl
  exact Option.some_inj

section

variable {devices : List Device} {index : ℕ} {device : Device}

/-- **The directory of a device** has a name for each partition. -/
theorem readdir_device (found : getDeviceByName devices (virtioName index) = some device) :
    readdir devices (slash :: virtioName index) =
      .names (partitionNames (getPartitions device.sector0)) := by
  have system := isSystemPath_virtio index []
  rw [List.append_nil] at system
  rw [readdir, system, resolvePath, splitPath_device]
  simp only [found]
  rfl

/-- What a name under a device comes to. -/
theorem readdir_under (found : getDeviceByName devices (virtioName index) = some device)
    {name : Units} (plain : slash ∉ name) :
    readdir devices (pathUnder index name) =
      if name = [] then .names (partitionNames (getPartitions device.sector0))
      else
        match partitionNumber name with
        | none => .error (.invalidPartitionName name)
        | some number =>
            match elementAt (getPartitions device.sector0) number with
            | none => .error .noPartition
            | some partition => .filesystem partition [] := by
  rw [readdir, pathUnder, isSystemPath_virtio, ← pathUnder, resolvePath, splitPath_under _ plain]
  by_cases empty : name = []
  · rw [if_pos empty, if_pos empty]
    simp only [found]
    rfl
  · rw [if_neg empty, if_neg empty]
    simp only [found]
    cases partitionNumber name with
    | none => rfl
    | some number => rfl

end

/-! ## Numbers of partitions -/

theorem readUInt32LE_lt (buf : List UInt8) (offset : ℕ) : readUInt32LE buf offset < 2 ^ 32 := by
  have bound := Framing.ofLittleEndian_lt ((buf.drop offset).take 4)
  have length : ((buf.drop offset).take 4).length ≤ 4 := List.length_take_le 4 _
  exact Nat.lt_of_lt_of_le bound (Nat.pow_le_pow_right (by decide) length)

/-- The numbers of a partition are of 32 bits. -/
theorem bounds_of_mem {sector0 : List UInt8} {partition : Partition}
    (member : partition ∈ getPartitions sector0) :
    partition.address < 2 ^ 32 ∧ partition.size < 2 ^ 32 := by
  obtain ⟨i, -, isEntry⟩ := List.mem_filterMap.mp member
  rw [entry] at isEntry
  split at isEntry
  · cases isEntry
  · obtain rfl := Option.some.inj isEntry
    exact ⟨readUInt32LE_lt _ _, readUInt32LE_lt _ _⟩

theorem length_getPartitions_le (sector0 : List UInt8) : (getPartitions sector0).length ≤ 4 :=
  List.length_filterMap_le _ _

/-- Digits find the element at the index that they spell. -/
theorem elementAt_toNumber {α : Type} {list : List α} (short : list.length ≤ 2 ^ 53)
    {digits : Units} (number : Numeral digits) :
    elementAt list (toNumber digits) = list[numeral digits]? := by
  have spelled (index : ℕ) (below : index < list.length) :
      toNumber digits = .finite index ↔ numeral digits = index := by
    rw [NumericString.toNumber_digits number]
    exact Binary64.ofRat_natCast_eq_iff (Nat.lt_of_lt_of_le below short) (Nat.le_refl 53)
  have natural (index : ℕ) : elementAt list (.finite index) = list[index]? := by
    rw [elementAt, if_pos ⟨rfl, Int.natCast_nonneg index⟩]
    rfl
  by_cases below : numeral digits < list.length
  · rw [(spelled _ below).mpr rfl, natural]
  · rw [List.getElem?_eq_none (Nat.not_lt.mp below)]
    cases converted : toNumber digits with
    | nan => rfl
    | infinite negative => rfl
    | finite value =>
        rw [elementAt]
        split
        · next whole =>
            -- A whole number that is an index would be the one that is spelled.
            have value_eq : value = (value.num.toNat : ℕ) := by
              rw [← Rat.num_div_den value, whole.1]
              have cast : ((value.num.toNat : ℕ) : ℤ) = value.num := Int.toNat_of_nonneg whole.2
              rw [Nat.cast_one, div_one, Rat.num_intCast]
              exact_mod_cast cast.symm
            refine List.getElem?_eq_none (Nat.not_lt.mp fun inside => below ?_)
            rw [value_eq] at converted
            rw [(spelled _ inside).mp converted]
            exact inside
        · rfl

/-- A zero in front does not count. -/
theorem numeral_zero_cons (digits : Units) : numeral (48 :: digits) = numeral digits := rfl

theorem numeral_pos {digit : BitVec 16} (positive : 48 < digit.toNat) (digits : Units) :
    0 < numeral (digit :: digits) := by
  induction digits using List.reverseRecOn with
  | nil =>
      rw [← List.nil_append [digit], NumericString.numeral_concat]
      omega
  | append_singleton digits last ih =>
      rw [← List.cons_append, NumericString.numeral_concat]
      omega

theorem ofNat_digit {number : ℕ} (below : number < 10) :
    NumericString.ofNat number = [BitVec.ofNat 16 (48 + number)] := by
  rw [NumericString.ofNat, if_pos below]

/-- **A numeral below ten** is a digit, or has a zero in front of other digits. -/
theorem eq_digit_or_padded {digits : Units} (number : Numeral digits)
    (below : numeral digits < 10) :
    digits = NumericString.ofNat (numeral digits) ∨
      ∃ rest, digits = 48 :: rest ∧ rest ≠ [] ∧ Numeral rest := by
  obtain ⟨nonempty, digit⟩ := number
  cases digits with
  | nil => exact absurd rfl nonempty
  | cons first rest =>
      have range := NumericString.isDigit_iff.mp (digit first List.mem_cons_self)
      rcases List.eq_nil_or_concat rest with rfl | ⟨init, last, rfl⟩
      · left
        have value : numeral [first] = first.toNat - 48 := by
          rw [← List.nil_append [first], NumericString.numeral_concat]
          exact Nat.zero_add _
        rw [ofNat_digit below, value, Nat.add_sub_cancel' range.1, BitVec.ofNat_toNat,
          BitVec.setWidth_eq]
      · right
        rw [List.concat_eq_append] at below digit ⊢
        refine ⟨init ++ [last], ?_, List.append_ne_nil_of_right_ne_nil _ (List.cons_ne_nil _ _),
          List.append_ne_nil_of_right_ne_nil _ (List.cons_ne_nil _ _),
          fun unit member => digit unit (List.mem_cons_of_mem _ member)⟩
        -- A first digit that is positive makes ten at least.
        have zero : ¬48 < first.toNat := by
          intro positive
          have higher := numeral_pos positive init
          rw [← List.cons_append, NumericString.numeral_concat] at below
          omega
        have code : first = 48 := BitVec.eq_of_toNat_eq (by
          change first.toNat = 48
          omega)
        rw [code]

theorem mem_of_elementAt {α : Type} {list : List α} {number : Number} {element : α}
    (found : elementAt list number = some element) : element ∈ list := by
  cases number with
  | nan => cases found
  | infinite negative => cases found
  | finite value =>
      rw [elementAt] at found
      split at found
      · exact List.mem_of_getElem? found
      · cases found

/-- **A path that reaches a partition** reaches one of the table of a device. -/
theorem mem_of_readdir {devices : List Device} {path rest : Units} {partition : Partition}
    (reaches : readdir devices path = .filesystem partition rest) :
    ∃ device : Device, partition ∈ getPartitions device.sector0 := by
  rw [readdir] at reaches
  split at reaches
  · cases reaches
  · split at reaches
    · cases reaches
    · next resolved _ =>
        split at reaches
        · cases reaches
        · next device _ =>
            dsimp only at reaches
            split at reaches
            · cases reaches
            · split at reaches
              · cases reaches
              · next found =>
                  obtain ⟨rfl, -⟩ := Listing.filesystem.inj reaches
                  exact ⟨device, mem_of_elementAt found⟩

/-! ## The names that are listed -/

theorem mem_partitionNames {partitions : List Partition} {name : Units} :
    name ∈ partitionNames partitions ↔
      ∃ i < partitions.length, letterP :: NumericString.ofNat i = name := by
  rw [partitionNames, List.mem_map]
  simp only [List.mem_range]

section

variable {devices : List Device} {index : ℕ} {device : Device}

/-- **The names that a partition answers to** are its number in digits. -/
theorem reaches_iff (found : getDeviceByName devices (virtioName index) = some device)
    {name : Units} (plain : slash ∉ name) (partition : Partition) :
    Reaches devices index name partition ↔
      ∃ digits, name = letterP :: digits ∧ Numeral digits ∧
        (getPartitions device.sector0)[numeral digits]? = some partition := by
  rw [Reaches, readdir_under found plain]
  have short : (getPartitions device.sector0).length ≤ 2 ^ 53 :=
    Nat.le_trans (length_getPartitions_le _) (by decide)
  cases name with
  | nil =>
      rw [if_pos rfl]
      refine iff_of_false (fun same => by cases same) ?_
      rintro ⟨digits, empty, -⟩
      cases empty
  | cons letter digits =>
      rw [if_neg (List.cons_ne_nil _ _), partitionNumber]
      by_cases named : letter = letterP ∧ Numeral digits
      · rw [if_pos named]
        dsimp only
        rw [elementAt_toNumber short named.2]
        have whole : (∃ other, letter :: digits = letterP :: other ∧ Numeral other ∧
            (getPartitions device.sector0)[numeral other]? = some partition) ↔
            (getPartitions device.sector0)[numeral digits]? = some partition := by
          constructor
          · rintro ⟨other, same, -, at_⟩
            rw [(List.cons.inj same).2]
            exact at_
          · intro at_
            exact ⟨digits, congrArg (· :: digits) named.1, named.2, at_⟩
        rw [whole]
        cases (getPartitions device.sector0)[numeral digits]? with
        | none => exact iff_of_false (fun same => by cases same) (fun same => by cases same)
        | some other =>
            constructor
            · intro same
              exact congrArg some (Listing.filesystem.inj same).1
            · intro same
              rw [Option.some.inj same]
      · rw [if_neg named]
        refine iff_of_false (fun same => by cases same) ?_
        rintro ⟨other, same, number, -⟩
        obtain ⟨rfl, rfl⟩ := List.cons.inj same
        exact named ⟨rfl, number⟩

/-- Each name that is listed is that of its partition. -/
theorem reaches_listed (found : getDeviceByName devices (virtioName index) = some device)
    {i : ℕ} (inside : i < (getPartitions device.sector0).length) :
    Reaches devices index (letterP :: NumericString.ofNat i)
      (getPartitions device.sector0)[i] := by
  obtain ⟨number, value⟩ := NumericString.numeral_ofNat i
  have plain : slash ∉ letterP :: NumericString.ofNat i := by
    intro member
    obtain letter | digits := List.mem_cons.mp member
    · exact absurd letter (by decide)
    · exact slash_not_mem_of_numeral number digits
  rw [reaches_iff found plain]
  refine ⟨_, rfl, number, ?_⟩
  rw [value]
  exact List.getElem?_eq_getElem inside

/-- **The names that are listed are those that partitions answer to, but for padded ones.** -/
theorem listed_iff (found : getDeviceByName devices (virtioName index) = some device)
    {name : Units} (plain : slash ∉ name) :
    (name ∈ partitionNames (getPartitions device.sector0) ↔
        ∃ partition, Reaches devices index name partition) ↔
      ¬Padded (getPartitions device.sector0) name := by
  have four := length_getPartitions_le device.sector0
  constructor
  · rintro exact_ ⟨digits, rfl, nonempty, number, below⟩
    have padded : Numeral (48 :: digits) := by
      refine ⟨List.cons_ne_nil _ _, fun unit member => ?_⟩
      obtain rfl | rest := List.mem_cons.mp member
      · decide
      · exact number.2 unit rest
    rw [← numeral_zero_cons] at below
    obtain ⟨i, inside, same⟩ := mem_partitionNames.mp (exact_.mpr
      ⟨_, (reaches_iff found plain _).mpr ⟨_, rfl, padded, List.getElem?_eq_getElem below⟩⟩)
    rw [ofNat_digit (by omega)] at same
    exact nonempty (List.cons.inj (List.cons.inj same).2).2.symm
  · intro shortest
    constructor
    · intro listed
      obtain ⟨i, inside, rfl⟩ := mem_partitionNames.mp listed
      exact ⟨_, reaches_listed found inside⟩
    · rintro ⟨partition, reaches⟩
      obtain ⟨digits, rfl, number, at_⟩ := (reaches_iff found plain partition).mp reaches
      obtain ⟨below, -⟩ := List.getElem?_eq_some_iff.mp at_
      obtain same | ⟨rest, rfl, nonempty, restNumber⟩ := eq_digit_or_padded number (by omega)
      · exact mem_partitionNames.mpr ⟨_, below, congrArg _ same.symm⟩
      · exact absurd ⟨rest, rfl, nonempty, restNumber, below⟩ shortest

end

end JsOS.Core.Fs
