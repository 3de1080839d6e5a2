import JsOS.Kernel.PageTable
import JsOS.Kernel.PhysicalAllocator
import JsOS.Library.Radix

/-! # The address space

Three levels of page tables map pages of 2 MiB. The tables lie in a zone of physical memory
that is mapped to itself, and are taken from it one after another, cleared; `MapPage` makes
the missing tables on its way down. A page that is mapped already keeps its mapping.
-/

namespace JsOS.Kernel

def KiB : Nat := 1024

def kPageDirectoryStart : Nat := 26 * MiB

/-! ## Virtual addresses -/

/-- A `VirtualAddressX64`. -/
structure VirtualAddress where
  address : BitVec 64

namespace VirtualAddress

def page_offset (virtual : VirtualAddress) : BitVec 64 := virtual.address &&& 0x1FFFFF

def pd_offset (virtual : VirtualAddress) : Nat := ((virtual.address >>> 21) &&& 0x1FF).toNat

def pdp_offset (virtual : VirtualAddress) : Nat := ((virtual.address >>> 30) &&& 0x1FF).toNat

def pml4_offset (virtual : VirtualAddress) : Nat := ((virtual.address >>> 39) &&& 0x1FF).toNat

end VirtualAddress

/-! ## The tables -/

/-- The words of the page tables, by the table's address and the entry's index, with the
number of tables that the `PageTableAllocator` has taken from its zone. The first one is the
PML4 table, to which `cr3_` points. -/
structure AddressSpace where
  entries : BitVec 64 → Nat → BitVec 64
  tables_taken_ : Nat

namespace AddressSpace

/-- The address of a table in the zone. -/
def tableAddress (number : Nat) : BitVec 64 :=
  BitVec.ofNat 64 (kPageDirectoryStart + number * (4 * KiB))

def pml4_table_ : BitVec 64 := tableAddress 0

/-- `AllocTable`: the next table of the zone, cleared; its address, unless the assertion on
the zone's size fails. -/
def allocTable (space : AddressSpace) : Option (BitVec 64 × AddressSpace) :=
  if space.tables_taken_ * (4 * KiB) < kAllocStartAddress - kPageDirectoryStart then
    let table := tableAddress space.tables_taken_
    some (table,
      { entries := fun other index => if other = table then 0 else space.entries other index
        tables_taken_ := space.tables_taken_ + 1 })
  else none

/-- `SetEntry`, given the entry's word. -/
def setEntry (space : AddressSpace) (table : BitVec 64) (index : Nat) (word : BitVec 64) :
    AddressSpace :=
  { space with entries := Radix.write space.entries table index word }

/-- `GetEntry` of a table of directories. -/
def getDirectory (space : AddressSpace) (table : BitVec 64) (index : Nat) : PML4PDPEntry :=
  .decode (space.entries table index)

/-- `GetEntry` of a table of pages. -/
def getPage (space : AddressSpace) (table : BitVec 64) (index : Nat) : PDEntry :=
  .decode (space.entries table index)

/-- `VirtualToPhysical`; 0 is the null pointer. -/
def virtualToPhysical (space : AddressSpace) (virtaddr : BitVec 64) : BitVec 64 :=
  let vaddr : VirtualAddress := ⟨virtaddr⟩
  let pml4 := space.getDirectory pml4_table_ vaddr.pml4_offset
  if !pml4.isPresent then 0
  else
    let pdp := space.getDirectory pml4.pageDirectory vaddr.pdp_offset
    if !pdp.isPresent then 0
    else
      let pd := space.getPage pdp.pageDirectory vaddr.pd_offset
      if !pd.isPresent then 0 else pd.pageAddress + vaddr.page_offset

/-- The entry that `MapPage` makes for a page. -/
def pageEntry (physaddr : BitVec 64) (writethrough : Bool) : PDEntry where
  isPresent := true
  isWriteable := true
  isWriteThrough := writethrough
  isPageSize := true
  isGlobal := false
  pageAddress := physaddr

/-- The entry that `MapPage` makes for a table of the next level. -/
def directoryEntry (table : BitVec 64) : PML4PDPEntry where
  isPresent := true
  isWriteable := true
  isWriteThrough := false
  pageDirectory := table

/-- The table to use: the one that was found, or a new one. -/
def tableOrNew (space : AddressSpace) (found : Option (BitVec 64)) :
    Option (BitVec 64 × AddressSpace) :=
  match found with
  | some table => some (table, space)
  | none => space.allocTable

/-- What `MapPage` finds on its way down: the tables of the two lower levels, where they are
there, and which entries to create. -/
structure Walk where
  pdp_table : Option (BitVec 64) := none
  pd_table : Option (BitVec 64) := none
  create_pde : Bool := false
  create_pdpe : Bool := false
  create_pml4e : Bool := false
  /-- The page is mapped to the very address; nothing is left to do. -/
  done : Bool := false

/-- The way down of `MapPage`. -/
def walk (space : AddressSpace) (vaddr : VirtualAddress) (physaddr : BitVec 64) : Walk :=
  let pml4 := space.getDirectory pml4_table_ vaddr.pml4_offset
  if pml4.isPresent then
    let pdp := space.getDirectory pml4.pageDirectory vaddr.pdp_offset
    if pdp.isPresent then
      let pd := space.getPage pdp.pageDirectory vaddr.pd_offset
      if pd.isPresent then
        { pdp_table := pml4.pageDirectory, pd_table := pdp.pageDirectory,
          done := physaddr = pd.pageAddress }
      else
        { pdp_table := pml4.pageDirectory, pd_table := pdp.pageDirectory, create_pde := true }
    else { pdp_table := pml4.pageDirectory, create_pde := true, create_pdpe := true }
  else { create_pde := true, create_pdpe := true, create_pml4e := true }

/-- `if (create_pde)`: the table used, and the address space after. -/
def createPde (space : AddressSpace) (walk : Walk) (vaddr : VirtualAddress)
    (physaddr : BitVec 64) (writethrough : Bool) : Option (Option (BitVec 64) × AddressSpace) :=
  if walk.create_pde then do
    let (pd_table, space) ← space.tableOrNew walk.pd_table
    let word ← (pageEntry physaddr writethrough).encode
    return (some pd_table, space.setEntry pd_table vaddr.pd_offset word)
  else some (walk.pd_table, space)

/-- `if (create_pdpe)`: the table used, and the address space after. -/
def createPdpe (space : AddressSpace) (walk : Walk) (vaddr : VirtualAddress)
    (pd_table : Option (BitVec 64)) : Option (Option (BitVec 64) × AddressSpace) :=
  if walk.create_pdpe then do
    let pd_table ← pd_table
    let word ← (directoryEntry pd_table).encode
    let (pdp_table, space) ← space.tableOrNew walk.pdp_table
    return (some pdp_table, space.setEntry pdp_table vaddr.pdp_offset word)
  else some (walk.pdp_table, space)

/-- `if (create_pml4e)`. -/
def createPml4e (space : AddressSpace) (walk : Walk) (vaddr : VirtualAddress)
    (pdp_table : Option (BitVec 64)) : Option AddressSpace :=
  if walk.create_pml4e then do
    let pdp_table ← pdp_table
    let word ← (directoryEntry pdp_table).encode
    return space.setEntry pml4_table_ vaddr.pml4_offset word
  else some space

/-- `MapPage`, but for the invalidation of the processor's copy. Without a result an assertion
has failed. -/
def mapPage (space : AddressSpace) (virtaddr physaddr : BitVec 64) (writethrough : Bool) :
    Option AddressSpace := do
  let vaddr : VirtualAddress := ⟨virtaddr⟩
  let physaddr := PhysicalAllocator.pageAligned physaddr
  let walk := space.walk vaddr physaddr
  if walk.done then return space
  let (pd_table, space) ← space.createPde walk vaddr physaddr writethrough
  let (pdp_table, space) ← space.createPdpe walk vaddr pd_table
  space.createPml4e walk vaddr pdp_table

/-- The constructor, on a memory that holds anything: the PML4 table is cleared. -/
def new (memory : BitVec 64 → Nat → BitVec 64) : AddressSpace where
  entries := fun table index => if table = pml4_table_ then 0 else memory table index
  tables_taken_ := 1

/-- The pages that `Configure` maps to themselves. -/
def identityPages : List (BitVec 64) :=
  (List.range (kAllocStartAddress / kPageSizeBytes)).map fun page =>
    BitVec.ofNat 64 (kPageSizeBytes * page)

/-- `Configure`. -/
def configure (space : AddressSpace) : Option AddressSpace :=
  identityPages.foldlM (fun space page => space.mapPage page page true) space

end AddressSpace

end JsOS.Kernel
