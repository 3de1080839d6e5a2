import JsOS.Kernel.InitrdLoop
import Mathlib.Data.List.Forall2

/-! # Loading a package

A module that carries a package in the format is found, inflated and loaded: its entries become
files, in order, and are found by name.
-/

namespace JsOS.Kernel

namespace Initrd

open ByteMemory Traced

variable {memory : ℕ → UInt8} {finish pos : ℕ}

/-! ## Packages -/

/-- A name, which can be written as a string. -/
def IsName (text : List UInt8) : Prop := 0 ∉ text ∧ text.length ≤ 65535

/-- What a package holds. -/
structure Package where
  runtime_index_name : List UInt8
  app_index_name : List UInt8
  entries : List Entry

/-- A link leads to an earlier entry than the one at the index. -/
def Entry.Earlier (index : ℕ) : Entry → Prop
  | .file _ _ => True
  | .link _ _ target => target < index

namespace Package

structure WellFormed (package : Package) : Prop where
  runtime : IsName package.runtime_index_name
  app : IsName package.app_index_name
  names : ∀ entry ∈ package.entries, IsName entry.name
  links : ∀ index (entry : Entry), package.entries[index]? = some entry → entry.Earlier index

/-- The bytes of a package once they are inflated. -/
def encode (package : Package) : List UInt8 :=
  string package.runtime_index_name ++
    (string package.app_index_name ++ package.entries.flatMap Entry.encode)

/-- The bytes in front of the compressed package. -/
def header (package : Package) : List UInt8 :=
  word PACKAGE_MAGIC ++ PCKG ++
    (word 0 ++ word getVersionNumber ++ word package.entries.length ++ word package.encode.length)

end Package

theorem length_le_flatMap (entries : List Entry) :
    entries.length ≤ (entries.flatMap Entry.encode).length := by
  induction entries with
  | nil => exact le_rfl
  | cons entry entries ih =>
      have filled : 0 < entry.encode.length := by
        cases entry with
        | file name contents => exact Nat.succ_pos _
        | link length name target => exact Nat.succ_pos _
      rw [List.flatMap_cons, List.length_append, List.length_cons]
      omega

/-- **The encoded entries are taken from their bytes.** -/
theorem parses_encode {entries : List Entry} (known : ℕ)
    (names : ∀ entry ∈ entries, IsName entry.name)
    (links : ∀ index (entry : Entry), entries[index]? = some entry → entry.Earlier (known + index))
    (small : known + (entries.flatMap Entry.encode).length < 2 ^ 32) :
    Parses known entries.length (entries.flatMap Entry.encode) entries := by
  induction entries generalizing known with
  | nil => exact .done known []
  | cons entry entries ih =>
      rw [List.flatMap_cons, List.length_append] at small
      have short : entry.name.length < 2 ^ 16 :=
        Nat.lt_succ_of_le (names entry List.mem_cons_self).2
      have others (filled : 0 < entry.encode.length) :
          Parses (known + 1) entries.length (entries.flatMap Entry.encode) entries := by
        refine ih (known + 1) (fun other among => names other (List.mem_cons_of_mem entry among))
          (fun index other found => ?_) (by omega)
        have link := links (index + 1) other found
        rwa [← Nat.add_assoc, Nat.add_right_comm] at link
      cases entry with
      | file name contents =>
          have fits : contents.length ≤ (Entry.file name contents).encode.length := by
            rw [Entry.encode, List.length_append, List.length_append]
            omega
          exact .file short (by omega) (others (Nat.succ_pos _))
      | link length name target =>
          have earlier : target < known + 0 := links 0 (Entry.link length name target) rfl
          exact .link short (by omega) earlier (others (Nat.succ_pos _))

/-! ## Finding a package -/

theorem matchBytes_value {expected : List UInt8} :
    (matchBytes memory expected pos).value = true ↔ Holds memory pos expected := by
  induction expected generalizing pos with
  | nil => exact iff_of_true rfl (holds_nil memory pos)
  | cons byte others ih =>
      rw [matchBytes, value_bind, holds_cons, readByte, value_act]
      by_cases differs : memory pos ≠ byte
      · rw [if_pos differs]
        exact iff_of_false Bool.false_ne_true fun both => differs both.1
      · rw [if_neg differs, ih]
        exact (and_iff_right (not_not.mp differs)).symm

section Search

variable {platform : Platform} {len fuel : ℕ}

/-- A place without the magic word and the letters is passed over. -/
theorem search_pass (room : pos < finish) (other : ¬Holds memory pos (word PACKAGE_MAGIC ++ PCKG)) :
    (search memory platform len finish (fuel + 1) pos).value =
      (search memory platform len finish fuel (pos + 4)).value := by
  rw [holds_append, holds_word_iff (by decide), length_word] at other
  rw [search, if_pos room, value_bind, readUint32BE, value_act]
  by_cases magic : BigEndian.value (window memory pos 4) = PACKAGE_MAGIC
  · have letters : (matchBytes memory PCKG (pos + 4)).value = false := by
      rw [← Bool.not_eq_true, matchBytes_value]
      exact fun held => other ⟨magic, held⟩
    rw [if_neg (not_not.mpr magic), value_bind, letters]
    rfl
  · rw [if_pos magic]

theorem search_open (room : pos < finish) (here : Holds memory pos (word PACKAGE_MAGIC ++ PCKG)) :
    (search memory platform len finish (fuel + 1) pos).value =
      (openPackage memory platform len (pos + 4)).value := by
  rw [holds_append, holds_word_iff (by decide), length_word] at here
  rw [search, if_pos room, value_bind, readUint32BE, value_act,
    if_neg (not_not.mpr here.1), value_bind, matchBytes_value.mpr here.2]
  rfl

/-- **The first place with the magic word and the letters is where the package is opened.** -/
theorem search_first {words : ℕ} (enough : words < fuel) (room : pos + 4 * words < finish)
    (first : ∀ word' < words, ¬Holds memory (pos + 4 * word') (word PACKAGE_MAGIC ++ PCKG))
    (here : Holds memory (pos + 4 * words) (word PACKAGE_MAGIC ++ PCKG)) :
    (search memory platform len finish fuel pos).value =
      (openPackage memory platform len (pos + 4 * words + 4)).value := by
  induction words generalizing pos fuel with
  | zero =>
      obtain ⟨fuel, rfl⟩ : ∃ fewer, fuel = fewer + 1 := ⟨fuel - 1, by omega⟩
      exact search_open room here
  | succ words ih =>
      obtain ⟨fuel, rfl⟩ : ∃ fewer, fuel = fewer + 1 := ⟨fuel - 1, by omega⟩
      have shift (i : ℕ) : pos + 4 * (i + 1) = pos + 4 + 4 * i := by omega
      rw [shift] at room here ⊢
      have passed : ¬Holds memory pos (word PACKAGE_MAGIC ++ PCKG) := first 0 (Nat.succ_pos words)
      rw [search_pass (by omega) passed]
      refine ih (by omega) room (fun i before => ?_) here
      rw [← shift]
      exact first (i + 1) (Nat.succ_lt_succ before)

end Search

theorem holds_written (address : ℕ) (bytes : List UInt8) :
    Holds (written memory address bytes) address bytes := by
  refine List.ext_getElem (length_window _ _ _) fun i short inside => ?_
  have position : address + i - address = i := Nat.add_sub_cancel_left address i
  have among : address ≤ address + i ∧ address + i < address + bytes.length := by omega
  simp only [window, List.getElem_map, List.getElem_range]
  rw [written, if_pos among, position]
  exact (List.getElem_eq_getD 0).symm

/-- A header that the kernel supports, with memory to inflate the package into. -/
theorem openPackage_value {platform : Platform} {len count size ptr : ℕ} {inflated : List UInt8}
    (few : count < 2 ^ 32) (small : size < 2 ^ 32)
    (header : Holds memory pos
      (PCKG ++ (word 0 ++ word getVersionNumber ++ word count ++ word size)))
    (allocated : platform.malloc size = some ptr)
    (inflates : platform.tinfl size (window memory (pos + 20) ((len + (2 ^ 64 - 20)) % 2 ^ 64)) =
      some inflated) :
    (openPackage memory platform len pos).value =
      (count, some ⟨ptr, size, written memory ptr inflated⟩) := by
  rw [holds_append, holds_append, holds_append, holds_append, List.length_append,
    List.length_append, List.length_append, length_word, length_word, length_word] at header
  obtain ⟨-, ⟨⟨old_count, kernelVer⟩, files_left⟩, inflated_size⟩ := header
  have old_countRead := value_window_word old_count
  have kernelVerRead := value_window_word kernelVer
  have files_leftRead := value_window_word files_left
  have inflated_sizeRead := value_window_word inflated_size
  rw [Nat.mod_eq_of_lt few] at files_leftRead
  rw [Nat.mod_eq_of_lt small] at inflated_sizeRead
  change BigEndian.value (window memory (pos + 4) 4) = 0 at old_countRead
  change BigEndian.value (window memory (pos + 8) 4) = getVersionNumber at kernelVerRead
  change BigEndian.value (window memory (pos + 12) 4) = count at files_leftRead
  change BigEndian.value (window memory (pos + 16) 4) = size at inflated_sizeRead
  have readWord (at_ : ℕ) : (readUint32BE .module memory at_).value =
      BigEndian.value (window memory at_ 4) := rfl
  rw [openPackage, value_bind, readWord, old_countRead, if_neg (not_not.mpr rfl), value_bind,
    readWord, kernelVerRead, if_neg (not_not.mpr rfl), value_bind, readWord, files_leftRead,
    value_bind, readWord, inflated_sizeRead, allocated]
  dsimp only
  rw [value_bind, value_act, inflates]
  rfl

/-! ## Files by name -/

theorem sameString_eq {name filename : List UInt8} {pointer : CharPtr} (noZero : 0 ∉ name)
    (noZeroAsked : 0 ∉ filename) (named : PointsTo memory pointer (name ++ [0])) :
    sameString memory pointer filename = (name == filename) := by
  obtain ⟨address, rfl, holds⟩ := named
  have asked : sameString memory (.at address) filename = true ↔
      Holds memory address (filename ++ [0]) := by
    rw [Holds, List.length_append]
    exact beq_iff_eq
  rw [Bool.eq_iff_iff, asked, beq_iff_eq]
  constructor
  · intro holdsAsked
    exact holds.text_unique noZero noZeroAsked holdsAsked
  · rintro rfl
    exact holds

/-- Each file has the name of its entry, and is not the empty one. -/
theorem Loaded.forall₂ {entries : List Entry} {files_ : List InitrdFile}
    (loaded : Loaded memory entries files_) :
    List.Forall₂ (fun entry file => PointsTo memory file._name (entry.name ++ [0]) ∧
      file._is_empty = false) entries files_ := by
  induction loaded with
  | nil => exact .nil
  | file before named filled ih => exact List.rel_append ih (.cons ⟨named, rfl⟩ .nil)
  | link before named found ih => exact List.rel_append ih (.cons ⟨named, rfl⟩ .nil)

/-- Lists whose elements are tested alike have their first hits in the same place. -/
theorem find?_of_forall₂ {α β : Type} {related : α → β → Prop} {first : α → Bool}
    {second : β → Bool} {lefts : List α} {rights : List β}
    (pairs : List.Forall₂ related lefts rights)
    (alike : ∀ left ∈ lefts, ∀ right, related left right → first left = second right) :
    rights.find? second = (lefts.findIdx? first).bind fun index => rights[index]? := by
  induction pairs with
  | nil => rfl
  | @cons left right lefts rights here others ih =>
      have same := alike left List.mem_cons_self right here
      have later := ih fun other among => alike other (List.mem_cons_of_mem _ among)
      rw [List.find?_cons, List.findIdx?_cons, ← same]
      cases first left with
      | true => rfl
      | false =>
          dsimp only
          rw [later, if_neg Bool.false_ne_true, Option.bind_map]
          rfl

/-- **Asking for a name gives the file of the first entry that has it.** -/
theorem get_loaded {initrd : Initrd} {entries : List Entry} {filename : List UInt8}
    (loaded : Loaded initrd.memory entries initrd.files_)
    (names : ∀ entry ∈ entries, 0 ∉ entry.name) (noZero : 0 ∉ filename) :
    (∀ index, entries.findIdx? (fun entry => entry.name == filename) = some index →
        initrd.files_[index]? = some (get initrd filename)) ∧
      ((get initrd filename)._is_empty = true ↔ ∀ entry ∈ entries, entry.name ≠ filename) := by
  have pairs := loaded.forall₂
  have found : initrd.files_.find? (fun file => sameString initrd.memory file._name filename) =
      (entries.findIdx? fun entry => entry.name == filename).bind fun index =>
        initrd.files_[index]? :=
    find?_of_forall₂ pairs fun entry among file both =>
      (sameString_eq (names entry among) noZero both.1).symm
  rw [get, found]
  cases hit : entries.findIdx? fun entry => entry.name == filename with
  | none =>
      rw [List.findIdx?_eq_none_iff] at hit
      refine ⟨fun index absent => (nomatch absent), iff_of_true rfl fun entry among same => ?_⟩
      exact absurd (beq_iff_eq.mpr same) (Bool.not_eq_true _ ▸ hit entry among)
  | some index =>
      obtain ⟨inside, same, -⟩ := List.findIdx?_eq_some_iff_getElem.mp hit
      have also : index < initrd.files_.length := by
        rw [← pairs.length_eq]
        exact inside
      have filled := (pairs.get inside also).2
      rw [Option.bind_some, List.getElem?_eq_getElem also, Option.getD_some]
      refine ⟨fun other there => ?_, iff_of_false ?_ fun different => ?_⟩
      · rw [← Option.some.inj there]
        exact List.getElem?_eq_getElem also
      · exact fun empty => Bool.false_ne_true (filled.symm.trans empty)
      · exact different _ (List.getElem_mem inside) (beq_iff_eq.mp same)

/-! ## Loading -/

/-- The module with a package: bytes in front of it, the header, the stream to inflate and
bytes behind it. -/
def carrier (package : Package) (before stream rest : List UInt8) : List UInt8 :=
  before ++ (package.header ++ (stream ++ rest))

theorem findPackage_carrier {package : Package} {before stream rest : List UInt8} {start ptr : ℕ}
    {platform : Platform} (aligned : start % 4 = 0) (wholeWords : before.length % 4 = 0)
    (holds : Holds memory start (carrier package before stream rest))
    (first : ∀ offset < before.length, offset % 4 = 0 →
      ¬Holds memory (start + offset) (word PACKAGE_MAGIC ++ PCKG))
    (small : package.encode.length < 2 ^ 32)
    (machine : (carrier package before stream rest).length < 2 ^ 64)
    (allocated : platform.malloc package.encode.length = some ptr)
    (inflates : ∀ back, platform.tinfl package.encode.length (stream ++ back) =
      some package.encode) :
    (findPackage memory platform start (carrier package before stream rest).length).value =
      (package.entries.length,
        some ⟨ptr, package.encode.length, written memory ptr package.encode⟩) := by
  have few : package.entries.length < 2 ^ 32 := by
    have short := length_le_flatMap package.entries
    rw [Package.encode, List.length_append, List.length_append] at small
    omega
  have headerLength : package.header.length = 24 := by
    rw [Package.header, List.length_append, List.length_append, List.length_append,
      List.length_append, List.length_append, length_word, length_word, length_word, length_word,
      length_word]
    rfl
  have whole : (carrier package before stream rest).length =
      before.length + (24 + (stream.length + rest.length)) := by
    rw [carrier, List.length_append, List.length_append, List.length_append, headerLength]
  have start_eq : alignPtr start = start := by
    rw [alignPtr]
    omega
  rw [carrier, holds_append, holds_append] at holds
  obtain ⟨-, header, streamHolds⟩ := holds
  obtain ⟨words, position⟩ : ∃ words, before.length = 4 * words := ⟨before.length / 4, by omega⟩
  rw [Package.header, List.append_assoc] at header
  have here : Holds memory (start + before.length) (word PACKAGE_MAGIC ++ PCKG) := by
    rw [← List.append_assoc] at header
    exact (holds_append.mp header).1
  have behind := (holds_append.mp header).2
  rw [headerLength] at streamHolds
  rw [length_word] at behind
  rw [position] at here behind streamHolds first
  rw [findPackage, start_eq, @search_first _ _ _ _ _ _ words (by omega) (by omega) ?_ here]
  · refine openPackage_value few small behind allocated ?_
    -- More is handed over than the stream: the size is that of the module but for 20 bytes.
    have size : ((carrier package before stream rest).length + (2 ^ 64 - 20)) % 2 ^ 64 =
        stream.length + (before.length + 4 + rest.length) := by
      rw [whole] at machine ⊢
      omega
    have streamWindow : window memory (start + 4 * words + 24) stream.length = stream :=
      (holds_append.mp streamHolds).1
    rw [size, window_add, Nat.add_assoc (start + 4 * words), streamWindow]
    exact inflates _
  · intro index short
    exact first (4 * index) (by omega) (by omega)

/-- **A package in the format is loaded exactly.** The module has it at a word before which
there is no other one with the magic and the letters. The files are those of the entries, in
order, each link with the size and the data of its target; the index files have their names;
and a file is found by the name of the first entry that has it. -/
theorem init_wellFormed {package : Package} {before stream rest : List UInt8} {start ptr : ℕ}
    {platform : Platform} (wellFormed : package.WellFormed) (aligned : start % 4 = 0)
    (wholeWords : before.length % 4 = 0)
    (holds : Holds memory start (carrier package before stream rest))
    (first : ∀ offset < before.length, offset % 4 = 0 →
      ¬Holds memory (start + offset) (word PACKAGE_MAGIC ++ PCKG))
    (small : package.encode.length < 2 ^ 32)
    (machine : (carrier package before stream rest).length < 2 ^ 64)
    (allocated : platform.malloc package.encode.length = some ptr)
    (inflates : ∀ back, platform.tinfl package.encode.length (stream ++ back) =
      some package.encode) :
    ∃ initrd, (init memory platform start (carrier package before stream rest).length).value =
        some initrd ∧
      Loaded initrd.memory package.entries initrd.files_ ∧
      PointsTo initrd.memory initrd.runtime_index_name_ (package.runtime_index_name ++ [0]) ∧
      PointsTo initrd.memory initrd.app_index_name_ (package.app_index_name ++ [0]) ∧
      ∀ filename, 0 ∉ filename →
        (∀ index, package.entries.findIdx? (fun entry => entry.name == filename) = some index →
          initrd.files_[index]? = some (get initrd filename)) ∧
        ((get initrd filename)._is_empty = true ↔
          ∀ entry ∈ package.entries, entry.name ≠ filename) := by
  have found := findPackage_carrier aligned wholeWords holds first small machine allocated inflates
  have ahead : Ahead (written memory ptr package.encode) (ptr + package.encode.length) ptr
      package.encode := ⟨rfl, holds_written ptr _⟩
  have shortRuntime : package.runtime_index_name.length < 2 ^ 16 :=
    Nat.lt_succ_of_le wellFormed.runtime.2
  have shortApp : package.app_index_name.length < 2 ^ 16 := Nat.lt_succ_of_le wellFormed.app.2
  have parses : Parses 0 package.entries.length (package.entries.flatMap Entry.encode)
      package.entries := by
    rw [Package.encode, List.length_append, List.length_append] at small
    refine parses_encode 0 wellFormed.names (fun index entry among => ?_) (by omega)
    rw [Nat.zero_add]
    exact wellFormed.links index entry among
  obtain ⟨files_, loaded, runs⟩ := @initInflated_runs (0, 0)
    ⟨ptr, package.encode.length, written memory ptr package.encode⟩ _ _ _ _ _ ahead
    (.read shortRuntime) (.read shortApp) parses
  have appAhead := ahead.back
  rw [readString_text shortRuntime ahead, readString_text shortApp appAhead] at runs
  refine ⟨⟨files_, .at (ptr + 2), .at (ptr + (string package.runtime_index_name).length + 2),
    written memory ptr package.encode⟩, ?_, loaded, points_of_string ahead,
    points_of_string appAhead, ?_⟩
  · rw [init, value_bind, found]
    exact runs.2
  · intro filename noZero
    exact get_loaded loaded (fun entry among => (wellFormed.names entry among).1) noZero

/-! A module with a file and a link to it, in a stream whose only block is stored. -/

def samplePackage : Package where
  runtime_index_name := [0x72]
  app_index_name := [0x61]
  entries := [.file [0x66] [0x4f, 0x6b], .link 2 [0x6c] 0]

def sampleStream : List UInt8 :=
  [0x78, 0x01, 0x01, 0x2a, 0x00, 0xd5, 0xff] ++ (samplePackage.encode ++ [0x97, 0x1d, 0x06, 0xef])

def sampleMemory : ℕ → UInt8 := fun place =>
  (carrier samplePackage [0, 0, 0, 0] sampleStream [0]).getD (place - 0x100000) 0

/-- Inflates streams whose only block is stored. -/
def storedPlatform : Platform where
  malloc _ := some 0x200000
  tinfl size bytes :=
    let length := (bytes.getD 3 0).toNat + 256 * (bytes.getD 4 0).toNat
    if length ≤ size then some ((bytes.drop 7).take length) else none

theorem inflates_sampleStream (back : List UInt8) :
    storedPlatform.tinfl samplePackage.encode.length (sampleStream ++ back) =
      some samplePackage.encode := by
  have length : samplePackage.encode.length = 42 := by decide +kernel
  have stored : (samplePackage.encode ++ ([0x97, 0x1d, 0x06, 0xef] ++ back)).take 42 =
      samplePackage.encode := List.take_left' length
  rw [length, sampleStream, List.append_assoc, List.append_assoc]
  exact congrArg some stored

theorem init_samplePackage :
    ∃ initrd, (init sampleMemory storedPlatform 0x100000
        (carrier samplePackage [0, 0, 0, 0] sampleStream [0]).length).value = some initrd ∧
      Loaded initrd.memory samplePackage.entries initrd.files_ ∧
      PointsTo initrd.memory initrd.runtime_index_name_ [0x72, 0] ∧
      PointsTo initrd.memory initrd.app_index_name_ [0x61, 0] ∧
      ∀ filename, 0 ∉ filename →
        (∀ index, samplePackage.entries.findIdx? (fun entry => entry.name == filename) =
          some index → initrd.files_[index]? = some (get initrd filename)) ∧
        ((get initrd filename)._is_empty = true ↔
          ∀ entry ∈ samplePackage.entries, entry.name ≠ filename) := by
  have isName (letter : UInt8) (nonzero : letter ≠ 0) : IsName [letter] :=
    ⟨fun zero => nonzero (List.mem_singleton.mp zero).symm,
      Nat.succ_le_succ (Nat.zero_le 65534)⟩
  have wellFormed : samplePackage.WellFormed := by
    refine ⟨isName _ (by decide), isName _ (by decide), ?_, ?_⟩
    · exact List.forall_mem_cons.mpr ⟨isName _ (by decide),
        List.forall_mem_singleton.mpr (isName _ (by decide))⟩
    · intro index entry found
      rcases index with _ | _ | index
      · obtain rfl := Option.some.inj found
        exact trivial
      · obtain rfl := Option.some.inj found
        exact Nat.one_pos
      · exact (nomatch found)
  have holds : Holds sampleMemory 0x100000
      (carrier samplePackage [0, 0, 0, 0] sampleStream [0]) := by
    unfold Holds
    decide +kernel
  have first : ∀ offset < 4, offset % 4 = 0 →
      ¬Holds sampleMemory (0x100000 + offset) (word PACKAGE_MAGIC ++ PCKG) := by
    unfold Holds
    decide +kernel
  exact init_wellFormed wellFormed rfl rfl holds first (by decide +kernel) (by decide +kernel) rfl
    inflates_sampleStream

end Initrd

end JsOS.Kernel
