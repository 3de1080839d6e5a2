import JsOS.Kernel.AddressSpace

/-! # The map behind the page tables

The page tables as a map of pages: `MapPage` adds a page that the map does not have, and
leaves alone the map of every other page. It does nothing for a page that is mapped already,
so that a page stays where it was mapped first.
-/

namespace JsOS.Kernel

namespace AddressSpace

/-! ## The tables as a radix tree -/

/-- How the hardware reads the words of the tables. -/
def format : Radix.Format (BitVec 64) (BitVec 64) (BitVec 64) where
  link word :=
    if (PML4PDPEntry.decode word).isPresent then some (PML4PDPEntry.decode word).pageDirectory
    else none
  leaf word :=
    if (PDEntry.decode word).isPresent then some (PDEntry.decode word).pageAddress else none

/-- The indices on the way to a page's table. -/
def path (vaddr : VirtualAddress) : List Nat := [vaddr.pml4_offset, vaddr.pdp_offset]

/-- The physical page to which an address is translated. -/
def translate (space : AddressSpace) (virtaddr : BitVec 64) : Option (BitVec 64) :=
  Radix.lookup format space.entries pml4_table_ (path ⟨virtaddr⟩)
    (VirtualAddress.pd_offset ⟨virtaddr⟩)

theorem link_of_present {word : BitVec 64} (present : (PML4PDPEntry.decode word).isPresent = true) :
    format.link word = some (PML4PDPEntry.decode word).pageDirectory := if_pos present

theorem link_of_absent {word : BitVec 64} (absent : ¬(PML4PDPEntry.decode word).isPresent = true) :
    format.link word = none := if_neg absent

theorem leaf_of_present {word : BitVec 64} (present : (PDEntry.decode word).isPresent = true) :
    format.leaf word = some (PDEntry.decode word).pageAddress := if_pos present

theorem leaf_of_absent {word : BitVec 64} (absent : ¬(PDEntry.decode word).isPresent = true) :
    format.leaf word = none := if_neg absent

/-- **`VirtualToPhysical` reads the map.** -/
theorem virtualToPhysical_eq (space : AddressSpace) (virtaddr : BitVec 64) :
    space.virtualToPhysical virtaddr =
      (space.translate virtaddr).elim 0 fun page =>
        page + VirtualAddress.page_offset ⟨virtaddr⟩ := by
  unfold virtualToPhysical translate Radix.lookup path getDirectory getPage
  dsimp only
  rw [Radix.descend]
  by_cases pml4 : (PML4PDPEntry.decode
      (space.entries pml4_table_ (VirtualAddress.pml4_offset ⟨virtaddr⟩))).isPresent = true
  · rw [link_of_present pml4, pml4, Option.bind_some, Radix.descend]
    generalize (PML4PDPEntry.decode
      (space.entries pml4_table_ (VirtualAddress.pml4_offset ⟨virtaddr⟩))).pageDirectory = table
    by_cases pdp : (PML4PDPEntry.decode
        (space.entries table (VirtualAddress.pdp_offset ⟨virtaddr⟩))).isPresent = true
    · rw [link_of_present pdp, pdp, Option.bind_some, Radix.descend, Option.bind_some]
      generalize (PML4PDPEntry.decode
        (space.entries table (VirtualAddress.pdp_offset ⟨virtaddr⟩))).pageDirectory = last
      by_cases pd : (PDEntry.decode
          (space.entries last (VirtualAddress.pd_offset ⟨virtaddr⟩))).isPresent = true
      · rw [leaf_of_present pd, pd]
        rfl
      · rw [leaf_of_absent pd, Bool.eq_false_of_not_eq_true pd]
        rfl
    · rw [link_of_absent pdp, Bool.eq_false_of_not_eq_true pdp]
      rfl
  · rw [link_of_absent pml4, Bool.eq_false_of_not_eq_true pml4]
    rfl

/-! ## Tables of the zone -/

theorem toNat_tableAddress {number : Nat} (inside : number ≤ 1536) :
    (tableAddress number).toNat = 27262976 + number * 4096 := by
  have start : kPageDirectoryStart = 27262976 := by decide
  have size : 4 * KiB = 4096 := by decide
  rw [tableAddress, start, size, BitVec.toNat_ofNat, Nat.mod_eq_of_lt (by omega)]

theorem tableAddress_injective {first second : Nat} (insideFirst : first ≤ 1536)
    (insideSecond : second ≤ 1536) (same : tableAddress first = tableAddress second) :
    first = second := by
  have numbers := congrArg BitVec.toNat same
  rw [toNat_tableAddress insideFirst, toNat_tableAddress insideSecond] at numbers
  omega

/-- The tables taken from the zone so far. -/
def Taken (space : AddressSpace) (table : BitVec 64) : Prop :=
  ∃ number, number < space.tables_taken_ ∧ table = tableAddress number

/-- The tables form a tree, and lie in the zone. -/
structure Built (space : AddressSpace) : Prop where
  tree : Radix.Tree format space.entries pml4_table_ 2 space.Taken
  begun : 0 < space.tables_taken_
  room : space.tables_taken_ ≤ 1536

theorem Built.unused {space : AddressSpace} (built : space.Built) {number : Nat}
    (above : space.tables_taken_ ≤ number) (inside : number ≤ 1536) :
    ¬space.Taken (tableAddress number) := by
  rintro ⟨other, below, same⟩
  have room := built.room
  have numbers := tableAddress_injective inside (by omega) same
  omega

/-! ## The words that `MapPage` writes -/

theorem present_of_link {word table : BitVec 64} (linked : format.link word = some table) :
    (PML4PDPEntry.decode word).isPresent = true ∧
      (PML4PDPEntry.decode word).pageDirectory = table := by
  by_cases present : (PML4PDPEntry.decode word).isPresent = true
  · rw [link_of_present present] at linked
    exact ⟨present, Option.some.inj linked⟩
  · rw [link_of_absent present] at linked
    cases linked

theorem absent_of_link {word : BitVec 64} (absent : format.link word = none) :
    (PML4PDPEntry.decode word).isPresent = false := by
  apply Bool.eq_false_of_not_eq_true
  intro present
  rw [link_of_present present] at absent
  cases absent

theorem present_of_leaf {word page : BitVec 64} (held : format.leaf word = some page) :
    (PDEntry.decode word).isPresent = true ∧ (PDEntry.decode word).pageAddress = page := by
  by_cases present : (PDEntry.decode word).isPresent = true
  · rw [leaf_of_present present] at held
    exact ⟨present, Option.some.inj held⟩
  · rw [leaf_of_absent present] at held
    cases held

theorem absent_of_leaf {word : BitVec 64} (absent : format.leaf word = none) :
    (PDEntry.decode word).isPresent = false := by
  apply Bool.eq_false_of_not_eq_true
  intro present
  rw [leaf_of_present present] at absent
  cases absent

/-- An address that a page entry can hold. -/
def IsPage (address : BitVec 64) : Prop :=
  address.toNat % 2 ^ 21 = 0 ∧ address.toNat < 2 ^ 52

theorem isPage_pageAligned {address : BitVec 64} (small : address.toNat < 2 ^ 52) :
    IsPage (PhysicalAllocator.pageAligned address) := by
  have rounded := Rounding.toNat_and_not_ones 21 address
  unfold IsPage
  constructor
  · exact (congrArg (· % 2 ^ 21) rounded).trans (Nat.mul_mod_left _ _)
  · exact (le_of_eq rounded).trans_lt ((Nat.div_mul_le_self _ _).trans_lt small)

/-- The word of a page's entry holds the page. -/
theorem pageWord {address : BitVec 64} (page : IsPage address) (writethrough : Bool) :
    ∃ word, (pageEntry address writethrough).encode = some word ∧
      format.leaf word = some address := by
  have round : ∃ word, (pageEntry address writethrough).encode = some word ∧
      PDEntry.decode word = pageEntry address writethrough :=
    PDEntry.decode_encode page.1 page.2
  obtain ⟨word, encodes, decodes⟩ := round
  refine ⟨word, encodes, ?_⟩
  have present : (PDEntry.decode word).isPresent = true := by
    rw [decodes]
    rfl
  rw [leaf_of_present present, decodes]
  rfl

/-- The word of a table's entry links to the table. -/
theorem directoryWord {number : Nat} (inside : number ≤ 1536) :
    ∃ word, (directoryEntry (tableAddress number)).encode = some word ∧
      format.link word = some (tableAddress number) := by
  have address := toNat_tableAddress inside
  have aligned : (directoryEntry (tableAddress number)).pageDirectory.toNat % 2 ^ 12 = 0 := by
    change (tableAddress number).toNat % 2 ^ 12 = 0
    omega
  have small : (directoryEntry (tableAddress number)).pageDirectory.toNat < 2 ^ 52 := by
    change (tableAddress number).toNat < 2 ^ 52
    omega
  obtain ⟨word, encodes, decodes⟩ := PML4PDPEntry.decode_encode aligned small
  refine ⟨word, encodes, ?_⟩
  have present : (PML4PDPEntry.decode word).isPresent = true := by
    rw [decodes]
    rfl
  rw [link_of_present present, decodes]
  rfl

/-- A cleared word is neither a link nor a leaf. -/
theorem link_zero : format.link 0 = none := rfl

theorem leaf_zero : format.leaf 0 = none := rfl

/-! ## New tables -/

/-- The memory with a table cleared. -/
def cleared (entries : BitVec 64 → Nat → BitVec 64) (table : BitVec 64) :
    BitVec 64 → Nat → BitVec 64 :=
  fun other index => if other = table then 0 else entries other index

theorem cleared_of_ne {entries : BitVec 64 → Nat → BitVec 64} {table other : BitVec 64}
    (different : other ≠ table) : cleared entries table other = entries other :=
  funext fun _ => if_neg different

theorem blank_cleared (entries : BitVec 64 → Nat → BitVec 64) (table : BitVec 64) :
    Radix.Blank format (cleared entries table) table := by
  have zero (slot : Nat) : cleared entries table table slot = 0 := if_pos rfl
  constructor
  · intro slot
    rw [zero]
    exact link_zero
  · intro slot
    rw [zero]
    exact leaf_zero

/-- `AllocTable` takes the next table of the zone, if there is one. -/
theorem allocTable_eq_some {space after : AddressSpace} {table : BitVec 64}
    (took : space.allocTable = some (table, after)) :
    space.tables_taken_ < 1536 ∧ table = tableAddress space.tables_taken_ ∧
      after = ⟨cleared space.entries table, space.tables_taken_ + 1⟩ := by
  unfold allocTable at took
  split at took
  · rename_i room
    have zone : kAllocStartAddress - kPageDirectoryStart = 1536 * 4096 := by decide
    have size : 4 * KiB = 4096 := by decide
    rw [zone, size] at room
    have parts := Prod.mk.inj (Option.some.inj took)
    refine ⟨Nat.lt_of_mul_lt_mul_right room, parts.1.symm, ?_⟩
    rw [← parts.1]
    exact parts.2.symm
  · cases took

/-! ## What `MapPage` does -/

/-- Two addresses in one page. -/
def SamePage (first second : BitVec 64) : Prop :=
  path ⟨first⟩ = path ⟨second⟩ ∧
    VirtualAddress.pd_offset ⟨first⟩ = VirtualAddress.pd_offset ⟨second⟩

instance (first second : BitVec 64) : Decidable (SamePage first second) :=
  inferInstanceAs (Decidable (_ ∧ _))

/-- The map has the page added, unless it was there. -/
def Adds (space after : AddressSpace) (virtaddr page : BitVec 64) : Prop :=
  ∀ other, after.translate other =
    if SamePage other virtaddr ∧ space.translate virtaddr = none then some page
    else space.translate other

/-- The map of one space is the map of another one. -/
def SameMap (first second : BitVec 64 → Nat → BitVec 64) : Prop :=
  ∀ way : List Nat, way.length = 2 → ∀ index,
    Radix.lookup format first pml4_table_ way index =
      Radix.lookup format second pml4_table_ way index

/-- The last step on the way down: the page's entry in its table. -/
theorem built_adds {space after : AddressSpace} {entries : BitVec 64 → Nat → BitVec 64}
    {used : BitVec 64 → Prop} {table word page virtaddr : BitVec 64}
    (tree : Radix.Tree format entries pml4_table_ 2 used) (same : SameMap entries space.entries)
    (reached : Radix.descend format entries pml4_table_ (path ⟨virtaddr⟩) = some table)
    (absent : space.translate virtaddr = none) (held : format.leaf word = some page)
    (written : after.entries =
      Radix.write entries table (VirtualAddress.pd_offset ⟨virtaddr⟩) word)
    (taken : ∀ other, used other → after.Taken other) (begun : 0 < after.tables_taken_)
    (room : after.tables_taken_ ≤ 1536) : after.Built ∧ Adds space after virtaddr page := by
  have put : Radix.Tree format after.entries pml4_table_ 2 used := by
    rw [written]
    exact tree.put rfl reached
  refine ⟨⟨⟨put.shaped, fun way next within found => taken next (put.used way next within found)⟩,
    begun, room⟩, fun other => ?_⟩
  have looked : after.translate other =
      if SamePage other virtaddr then Option.some page else space.translate other := by
    unfold translate
    rw [written, ← same _ rfl, ← held]
    exact Radix.lookup_put tree.shaped rfl reached rfl _
  rw [looked]
  by_cases here : SamePage other virtaddr
  · rw [if_pos here, if_pos ⟨here, absent⟩]
  · rw [if_neg here, if_neg fun both => here both.1]

/-- A table of the next level, cleared and linked. -/
theorem graft_cleared {entries : BitVec 64 → Nat → BitVec 64} {used : BitVec 64 → Prop}
    {way : List Nat} {table fresh word : BitVec 64} {index : Nat}
    (tree : Radix.Tree format entries pml4_table_ 2 used) (inner : way.length < 2)
    (reached : Radix.descend format entries pml4_table_ way = some table)
    (absent : format.link (entries table index) = none) (unused : ¬used fresh)
    (linked : format.link word = some fresh) :
    Radix.Tree format (Radix.write (cleared entries fresh) table index word) pml4_table_ 2
        (fun other => used other ∨ other = fresh) ∧
      SameMap (Radix.write (cleared entries fresh) table index word) entries ∧
      Radix.descend format (Radix.write (cleared entries fresh) table index word) pml4_table_
        (way ++ [index]) = some fresh ∧
      Radix.Blank format (Radix.write (cleared entries fresh) table index word) fresh := by
  have unreached := tree.unreached unused
  have apart : table ≠ fresh := by
    intro same
    rw [same] at reached
    exact unreached way (le_of_lt inner) reached
  have same (other : BitVec 64) (different : other ≠ fresh) :
      cleared entries fresh other = entries other := cleared_of_ne different
  have clearedTree := tree.congr unused same
  have stillReached : Radix.descend format (cleared entries fresh) pml4_table_ way = some table := by
    rw [Radix.descend_congr unreached same (le_of_lt inner), reached]
  have stillAbsent : format.link (cleared entries fresh table index) = none := by
    rw [same table apart]
    exact absent
  have blank := blank_cleared entries fresh
  have clearedUnreached := clearedTree.unreached unused
  refine ⟨clearedTree.graft inner stillReached stillAbsent unused blank linked, ?_, ?_, ?_⟩
  · intro other level slot
    rw [Radix.lookup_graft clearedTree.shaped inner stillReached stillAbsent clearedUnreached blank
      linked level, Radix.lookup_congr unreached same (le_of_eq level)]
  · have longer : (way ++ [index]).length ≤ 2 := by
      rw [List.length_append, List.length_singleton]
      omega
    rw [Radix.descend_graft clearedTree.shaped inner stillReached stillAbsent clearedUnreached blank
      linked longer, if_pos rfl]
  · have untouched (slot : Nat) : Radix.write (cleared entries fresh) table index word fresh slot =
        cleared entries fresh fresh slot :=
      Radix.write_of_ne fun owned => absurd owned.symm apart
    constructor
    · intro slot
      rw [untouched]
      exact blank.link slot
    · intro slot
      rw [untouched]
      exact blank.leaf slot

/-! ## The ways down -/

section Walk

variable {space : AddressSpace} {vaddr : VirtualAddress} {physaddr : BitVec 64}

theorem walk_of_pml4 (absent : format.link (space.entries pml4_table_ vaddr.pml4_offset) = none) :
    space.walk vaddr physaddr = { create_pde := true, create_pdpe := true, create_pml4e := true } := by
  have clear := absent_of_link absent
  exact if_neg fun present => Bool.noConfusion (clear.symm.trans present)

theorem walk_of_pdp {pdp : BitVec 64}
    (linked : format.link (space.entries pml4_table_ vaddr.pml4_offset) = some pdp)
    (absent : format.link (space.entries pdp vaddr.pdp_offset) = none) :
    space.walk vaddr physaddr = { pdp_table := pdp, create_pde := true, create_pdpe := true } := by
  have clear := absent_of_link absent
  obtain ⟨present, rfl⟩ := present_of_link linked
  refine (if_pos present).trans ?_
  exact if_neg fun set => Bool.noConfusion (clear.symm.trans set)

theorem walk_of_pd {pdp pd : BitVec 64}
    (linked : format.link (space.entries pml4_table_ vaddr.pml4_offset) = some pdp)
    (next : format.link (space.entries pdp vaddr.pdp_offset) = some pd)
    (absent : format.leaf (space.entries pd vaddr.pd_offset) = none) :
    space.walk vaddr physaddr = { pdp_table := pdp, pd_table := pd, create_pde := true } := by
  have clear := absent_of_leaf absent
  obtain ⟨present, rfl⟩ := present_of_link linked
  obtain ⟨presentNext, rfl⟩ := present_of_link next
  refine (if_pos present).trans ((if_pos presentNext).trans ?_)
  exact if_neg fun set => Bool.noConfusion (clear.symm.trans set)

theorem walk_of_page {pdp pd page : BitVec 64}
    (linked : format.link (space.entries pml4_table_ vaddr.pml4_offset) = some pdp)
    (next : format.link (space.entries pdp vaddr.pdp_offset) = some pd)
    (held : format.leaf (space.entries pd vaddr.pd_offset) = some page) :
    space.walk vaddr physaddr = { pdp_table := pdp, pd_table := pd, done := physaddr = page } := by
  obtain ⟨present, rfl⟩ := present_of_link linked
  obtain ⟨presentNext, rfl⟩ := present_of_link next
  obtain ⟨presentLast, rfl⟩ := present_of_leaf held
  exact (if_pos present).trans ((if_pos presentNext).trans (if_pos presentLast))

end Walk

/-! ## Writes to different tables -/

theorem cleared_write {entries : BitVec 64 → Nat → BitVec 64} {table spare word : BitVec 64}
    {index : Nat} (different : table ≠ spare) :
    cleared (Radix.write entries table index word) spare =
      Radix.write (cleared entries spare) table index word := by
  funext other slot
  unfold cleared Radix.write
  by_cases here : other = spare
  · have elsewhere : ¬(other = table ∧ slot = index) := fun both =>
      different (both.1.symm.trans here)
    rw [if_pos here, if_neg elsewhere]
    exact (if_pos here).symm
  · rw [if_neg here]
    exact congrArg _ (if_neg here).symm

theorem cleared_comm (entries : BitVec 64 → Nat → BitVec 64) (first second : BitVec 64) :
    cleared (cleared entries first) second = cleared (cleared entries second) first := by
  funext other slot
  unfold cleared
  by_cases here : other = first
  · rw [if_pos here, if_pos here, ite_self]
  · rw [if_neg here, if_neg here]

/-! ## The effect of `MapPage` -/

theorem leaf_of_encode {address word : BitVec 64} (page : IsPage address) {writethrough : Bool}
    (encodes : (pageEntry address writethrough).encode = some word) :
    format.leaf word = some address := by
  obtain ⟨other, found, held⟩ := pageWord page writethrough
  rw [encodes] at found
  rw [Option.some.inj found]
  exact held

theorem link_of_encode {number : Nat} {word : BitVec 64} (inside : number ≤ 1536)
    (encodes : (directoryEntry (tableAddress number)).encode = some word) :
    format.link word = some (tableAddress number) := by
  obtain ⟨other, found, linked⟩ := directoryWord inside
  rw [encodes] at found
  rw [Option.some.inj found]
  exact linked

section Effect

variable {space after : AddressSpace} {virtaddr physaddr : BitVec 64} {writethrough : Bool}

/-- A page that is mapped stays as it is. -/
theorem mapPage_of_page {pdp pd page : BitVec 64}
    (linked : format.link (space.entries pml4_table_ (VirtualAddress.pml4_offset ⟨virtaddr⟩)) =
      some pdp)
    (next : format.link (space.entries pdp (VirtualAddress.pdp_offset ⟨virtaddr⟩)) = some pd)
    (held : format.leaf (space.entries pd (VirtualAddress.pd_offset ⟨virtaddr⟩)) = some page)
    (mapped : space.mapPage virtaddr physaddr writethrough = some after) : after = space := by
  unfold mapPage at mapped
  dsimp only at mapped
  rw [walk_of_page linked next held] at mapped
  by_cases same : PhysicalAllocator.pageAligned physaddr = page
  · rw [if_pos (decide_eq_true same)] at mapped
    exact (Option.some.inj mapped).symm
  · rw [if_neg fun done => same (of_decide_eq_true done)] at mapped
    exact (Option.some.inj mapped).symm

/-- Only the page's entry is made. -/
theorem mapPage_of_pd {pdp pd : BitVec 64}
    (small : physaddr.toNat < 2 ^ 52)
    (linked : format.link (space.entries pml4_table_ (VirtualAddress.pml4_offset ⟨virtaddr⟩)) =
      some pdp)
    (next : format.link (space.entries pdp (VirtualAddress.pdp_offset ⟨virtaddr⟩)) = some pd)
    (absent : format.leaf (space.entries pd (VirtualAddress.pd_offset ⟨virtaddr⟩)) = none)
    (mapped : space.mapPage virtaddr physaddr writethrough = some after) :
    ∃ word, format.leaf word = some (PhysicalAllocator.pageAligned physaddr) ∧
      after = ⟨Radix.write space.entries pd (VirtualAddress.pd_offset ⟨virtaddr⟩) word,
        space.tables_taken_⟩ := by
  unfold mapPage at mapped
  dsimp only at mapped
  rw [walk_of_pd linked next absent] at mapped
  simp only [createPde, createPdpe, createPml4e, tableOrNew, if_true, Option.bind_eq_bind,
    Option.bind_eq_some_iff, Bool.false_eq_true, if_false, Option.pure_def, Option.some.injEq,
    Prod.exists, Prod.mk.injEq] at mapped
  obtain ⟨-, -, ⟨-, -, ⟨rfl, rfl⟩, word, encodes, rfl, rfl⟩, -, -, ⟨rfl, rfl⟩, rfl⟩ := mapped
  exact ⟨word, leaf_of_encode (isPage_pageAligned small) encodes, rfl⟩

/-- A table of pages is made, too. -/
theorem mapPage_of_pdp {pdp : BitVec 64}
    (small : physaddr.toNat < 2 ^ 52)
    (linked : format.link (space.entries pml4_table_ (VirtualAddress.pml4_offset ⟨virtaddr⟩)) =
      some pdp)
    (absent : format.link (space.entries pdp (VirtualAddress.pdp_offset ⟨virtaddr⟩)) = none)
    (mapped : space.mapPage virtaddr physaddr writethrough = some after) :
    space.tables_taken_ < 1536 ∧
      ∃ word link, format.leaf word = some (PhysicalAllocator.pageAligned physaddr) ∧
        format.link link = some (tableAddress space.tables_taken_) ∧
        after = ⟨Radix.write
          (Radix.write (cleared space.entries (tableAddress space.tables_taken_))
            (tableAddress space.tables_taken_) (VirtualAddress.pd_offset ⟨virtaddr⟩) word)
          pdp (VirtualAddress.pdp_offset ⟨virtaddr⟩) link, space.tables_taken_ + 1⟩ := by
  unfold mapPage at mapped
  dsimp only at mapped
  rw [walk_of_pdp linked absent] at mapped
  simp only [createPde, createPdpe, createPml4e, tableOrNew, if_true, Option.bind_eq_bind,
    Option.bind_eq_some_iff, Bool.false_eq_true, if_false, Option.pure_def, Option.some.injEq,
    Prod.exists, Prod.mk.injEq] at mapped
  obtain ⟨-, -, ⟨table, taken, took, word, encodes, rfl, rfl⟩, -, -,
    ⟨_, ⟨⟩, link, links, -, -, ⟨rfl, rfl⟩, rfl, rfl⟩, rfl⟩ := mapped
  obtain ⟨room, rfl, rfl⟩ := allocTable_eq_some took
  exact ⟨room, word, link, leaf_of_encode (isPage_pageAligned small) encodes,
    link_of_encode (le_of_lt room) links, rfl⟩

/-- Tables of both levels are made. -/
theorem mapPage_of_pml4
    (small : physaddr.toNat < 2 ^ 52)
    (absent : format.link (space.entries pml4_table_ (VirtualAddress.pml4_offset ⟨virtaddr⟩)) =
      none)
    (mapped : space.mapPage virtaddr physaddr writethrough = some after) :
    space.tables_taken_ + 1 < 1536 ∧
      ∃ word link upper, format.leaf word = some (PhysicalAllocator.pageAligned physaddr) ∧
        format.link link = some (tableAddress space.tables_taken_) ∧
        format.link upper = some (tableAddress (space.tables_taken_ + 1)) ∧
        after = ⟨Radix.write
          (Radix.write
            (cleared
              (Radix.write (cleared space.entries (tableAddress space.tables_taken_))
                (tableAddress space.tables_taken_) (VirtualAddress.pd_offset ⟨virtaddr⟩) word)
              (tableAddress (space.tables_taken_ + 1)))
            (tableAddress (space.tables_taken_ + 1)) (VirtualAddress.pdp_offset ⟨virtaddr⟩) link)
          pml4_table_ (VirtualAddress.pml4_offset ⟨virtaddr⟩) upper,
          space.tables_taken_ + 1 + 1⟩ := by
  unfold mapPage at mapped
  dsimp only at mapped
  rw [walk_of_pml4 absent] at mapped
  simp only [createPde, createPdpe, createPml4e, tableOrNew, if_true, Option.bind_eq_bind,
    Option.bind_eq_some_iff, Bool.false_eq_true, if_false, Option.pure_def, Option.some.injEq,
    Prod.exists, Prod.mk.injEq] at mapped
  obtain ⟨-, -, ⟨table, taken, took, word, encodes, rfl, rfl⟩, -, -,
    ⟨_, ⟨⟩, link, links, _, _, tookNext, rfl, rfl⟩, _, ⟨⟩, upper, linksUpper, rfl⟩ := mapped
  obtain ⟨room, rfl, rfl⟩ := allocTable_eq_some took
  obtain ⟨roomNext, rfl, rfl⟩ := allocTable_eq_some tookNext
  exact ⟨roomNext, word, link, upper, leaf_of_encode (isPage_pageAligned small) encodes,
    link_of_encode (le_of_lt room) links, link_of_encode (le_of_lt roomNext) linksUpper, rfl⟩

end Effect

/-- What stands in the tables on the way to a page. -/
theorem translate_of_links {space : AddressSpace} {virtaddr pdp pd : BitVec 64}
    (linked : format.link (space.entries pml4_table_ (VirtualAddress.pml4_offset ⟨virtaddr⟩)) =
      some pdp)
    (next : format.link (space.entries pdp (VirtualAddress.pdp_offset ⟨virtaddr⟩)) = some pd) :
    Radix.descend format space.entries pml4_table_ (path ⟨virtaddr⟩) = some pd ∧
      space.translate virtaddr =
        format.leaf (space.entries pd (VirtualAddress.pd_offset ⟨virtaddr⟩)) := by
  have reached : Radix.descend format space.entries pml4_table_ (path ⟨virtaddr⟩) = some pd := by
    unfold path
    rw [Radix.descend, linked, Option.bind_some, Radix.descend, next]
    rfl
  refine ⟨reached, ?_⟩
  unfold translate Radix.lookup
  rw [reached, Option.bind_some]

theorem translate_of_absent {space : AddressSpace} {virtaddr : BitVec 64}
    (absent : Radix.descend format space.entries pml4_table_ (path ⟨virtaddr⟩) = none) :
    space.translate virtaddr = none := by
  unfold translate Radix.lookup
  rw [absent]
  rfl

/-- **`MapPage` adds a page to the map**, and keeps the tables a tree. -/
theorem Built.mapPage {space after : AddressSpace} (built : space.Built)
    {virtaddr physaddr : BitVec 64} {writethrough : Bool} (small : physaddr.toNat < 2 ^ 52)
    (mapped : space.mapPage virtaddr physaddr writethrough = some after) :
    after.Built ∧ Adds space after virtaddr (PhysicalAllocator.pageAligned physaddr) := by
  have rooted : Radix.descend format space.entries pml4_table_ [] = some pml4_table_ := rfl
  have rootTaken : space.Taken pml4_table_ := ⟨0, built.begun, rfl⟩
  cases linked : format.link
      (space.entries pml4_table_ (VirtualAddress.pml4_offset ⟨virtaddr⟩)) with
  | none =>
      obtain ⟨room, word, link, upper, held, links, linksUpper, rfl⟩ :=
        mapPage_of_pml4 small linked mapped
      have low : space.tables_taken_ ≤ 1536 := by omega
      have pd := built.unused le_rfl low
      have pdp := built.unused (Nat.le_add_right _ 1) (le_of_lt room)
      have apart : tableAddress (space.tables_taken_ + 1) ≠ tableAddress space.tables_taken_ := by
        intro same
        have numbers := tableAddress_injective (le_of_lt room) low same
        omega
      have rootPd : pml4_table_ ≠ tableAddress space.tables_taken_ := fun same =>
        pd (same ▸ rootTaken)
      have rootPdp : pml4_table_ ≠ tableAddress (space.tables_taken_ + 1) := fun same =>
        pdp (same ▸ rootTaken)
      have outermost : ([] : List Nat).length < 2 := Nat.zero_lt_two
      obtain ⟨upperTree, upperSame, upperReached, upperBlank⟩ :=
        graft_cleared built.tree outermost rooted linked pdp
          linksUpper
      have unused : ¬(space.Taken (tableAddress space.tables_taken_) ∨
          tableAddress space.tables_taken_ = tableAddress (space.tables_taken_ + 1)) := by
        intro either
        exact either.elim pd fun same => apart same.symm
      have inner : ([] ++ [VirtualAddress.pml4_offset ⟨virtaddr⟩]).length < 2 := Nat.one_lt_two
      obtain ⟨tree, same, reached, -⟩ := graft_cleared upperTree inner upperReached
        (upperBlank.link (VirtualAddress.pdp_offset ⟨virtaddr⟩)) unused links
      have nothing : space.translate virtaddr = none := by
        apply translate_of_absent
        unfold path
        rw [Radix.descend, linked]
        rfl
      apply built_adds tree (fun way level slot => (same way level slot).trans
        (upperSame way level slot)) reached nothing held
      · dsimp only
        rw [cleared_write apart.symm, cleared_write rootPd, cleared_comm,
          Radix.write_comm apart, Radix.write_comm rootPd, Radix.write_comm rootPdp]
      · rintro other ((⟨number, below, rfl⟩ | rfl) | rfl)
        · exact ⟨number, Nat.lt_succ_of_lt (Nat.lt_succ_of_lt below), rfl⟩
        · exact ⟨_, Nat.lt_succ_self _, rfl⟩
        · exact ⟨_, Nat.lt_succ_of_lt (Nat.lt_succ_self _), rfl⟩
      · exact Nat.succ_pos _
      · exact room
  | some pdp =>
      cases next : format.link (space.entries pdp (VirtualAddress.pdp_offset ⟨virtaddr⟩)) with
      | none =>
          obtain ⟨room, word, link, held, links, rfl⟩ := mapPage_of_pdp small linked next mapped
          have pd := built.unused le_rfl (le_of_lt room)
          have reachedUpper : Radix.descend format space.entries pml4_table_
              [VirtualAddress.pml4_offset ⟨virtaddr⟩] = some pdp := by
            rw [Radix.descend, linked]
            rfl
          have inner : [VirtualAddress.pml4_offset ⟨virtaddr⟩].length < 2 := Nat.one_lt_two
          have apart : pdp ≠ tableAddress space.tables_taken_ := by
            intro same
            exact pd (same ▸ built.tree.used _ pdp (le_of_lt inner) reachedUpper)
          obtain ⟨tree, same, reached, -⟩ :=
            graft_cleared built.tree inner reachedUpper next pd links
          have nothing : space.translate virtaddr = none := by
            apply translate_of_absent
            unfold path
            rw [Radix.descend, linked, Option.bind_some, Radix.descend, next]
            rfl
          apply built_adds tree same reached nothing held
          · exact Radix.write_comm apart.symm
          · rintro other (⟨number, below, rfl⟩ | rfl)
            · exact ⟨number, Nat.lt_succ_of_lt below, rfl⟩
            · exact ⟨_, Nat.lt_succ_self _, rfl⟩
          · exact Nat.succ_pos _
          · exact room
      | some pd =>
          obtain ⟨reached, translated⟩ := translate_of_links linked next
          cases held : format.leaf
              (space.entries pd (VirtualAddress.pd_offset ⟨virtaddr⟩)) with
          | none =>
              obtain ⟨word, holds, rfl⟩ := mapPage_of_pd small linked next held mapped
              exact built_adds built.tree (fun _ _ _ => rfl) reached (translated.trans held) holds
                rfl (fun _ => id) built.begun built.room
          | some page =>
              have unchanged := mapPage_of_page linked next held mapped
              rw [unchanged]
              refine ⟨built, fun other => (if_neg fun both => ?_).symm⟩
              rw [translated, held] at both
              cases both.2

end AddressSpace

end JsOS.Kernel
