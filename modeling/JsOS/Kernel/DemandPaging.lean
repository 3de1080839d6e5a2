import JsOS.Kernel.FreshPages
import JsOS.Kernel.PageMap

/-! # Demand paging

`MemManager` maps a page when it is first touched: below 4 GiB to itself, and above to a page
of physical memory. The tables form a tree and the allocator hands out each page once
(`Memory.Sound`); so no two pages above 4 GiB share a physical page, and none of them shares
one with the pages that `AllocPage32` has returned (`Memory.Isolated`).
-/

namespace JsOS.Kernel

def GiB : Nat := 1024 * MiB

/-- The bytes of `pages_status_`, one for each page. -/
def kPagesStatusSize : Nat := 2 * MiB

/-- A `MemManager`, but for what it allocates virtual memory with. -/
structure MemManager where
  pmm_ : PhysicalAllocator
  addr_space_ : AddressSpace

namespace MemManager

/-- The end of `PageFault`: map the page that was found. -/
def mapFault (manager : MemManager) (fault_address phys_mem : BitVec 64) (writethrough : Bool) :
    Option MemManager :=
  if phys_mem = 0 then none
  else
    (manager.addr_space_.mapPage fault_address phys_mem writethrough).map fun addr_space_ =>
      { manager with addr_space_ }

/-- `PageFault`. Without a result, an assertion has failed or the fault was fatal. -/
def pageFault (manager : MemManager) (fault_address : BitVec 64) : Option MemManager :=
  let fa := fault_address.toNat
  if fa < 4 * GiB then manager.mapFault fault_address fault_address true
  else if fa < 512 * 256 * GiB then
    let (phys_mem, pmm_) := manager.pmm_.alloc
    { manager with pmm_ }.mapFault fault_address (BitVec.ofNat 64 phys_mem) false
  else none

/-- `AllocPage32`. -/
def allocPage32 (manager : MemManager) : Nat × MemManager :=
  let (ptr, pmm_) := manager.pmm_.alloc32
  (ptr, { manager with pmm_ })

end MemManager

/-! ## Runs -/

/-- The memory manager with the pages that `AllocPage32` has returned. -/
structure Memory where
  manager : MemManager
  returned : List Nat := []

/-- What the memory manager is called for. -/
inductive MemoryEvent where
  | pageFault (fault_address : BitVec 64)
  | allocPage32

namespace Memory

/-- The physical page of an address. -/
def translate (memory : Memory) (virtaddr : BitVec 64) : Option (BitVec 64) :=
  memory.manager.addr_space_.translate virtaddr

/-- The memory after a call; without a result, an assertion has failed. -/
def next (memory : Memory) : MemoryEvent → Option Memory
  | .pageFault fault_address =>
      (memory.manager.pageFault fault_address).map fun manager => { memory with manager }
  | .allocPage32 =>
      let (ptr, manager) := memory.manager.allocPage32
      if ptr = 0 then none else some ⟨manager, ptr :: memory.returned⟩

/-- One call; a run ends where an assertion fails. -/
def step (memory : Memory) (event : MemoryEvent) : Memory := (memory.next event).getD memory

/-- An address that the processor accepts: its upper bits are all the same. -/
def Canonical (virtaddr : BitVec 64) : Prop :=
  virtaddr.toNat < 2 ^ 47 ∨ 2 ^ 64 - 2 ^ 47 ≤ virtaddr.toNat

/-- Faults are in the lower half, where nothing is mapped at that moment. -/
def Faults (memory : Memory) : MemoryEvent → Prop
  | .pageFault fault_address =>
      fault_address.toNat < 2 ^ 47 ∧ memory.translate fault_address = none
  | .allocPage32 => True

/-- The call is a fault or a request, and no assertion fails. -/
def Permitted (memory : Memory) (event : MemoryEvent) : Prop :=
  memory.Faults event ∧ memory.next event ≠ none

/-- What a call does to the translation: the address that faulted has one, and no other page's
translation changes. -/
def Serves (memory : Memory) (event : MemoryEvent) : Prop :=
  match event with
  | .pageFault fault_address =>
      (memory.step event).translate fault_address ≠ none ∧
        ∀ other, Canonical other →
          AddressSpace.pageNumber other ≠ AddressSpace.pageNumber fault_address →
            (memory.step event).translate other = memory.translate other
  | .allocPage32 => ∀ other, (memory.step event).translate other = memory.translate other

/-- **Pages are isolated.** -/
structure Isolated (memory : Memory) : Prop where
  /-- Below 4 GiB addresses are translated to themselves. -/
  identity : ∀ virtaddr : BitVec 64, virtaddr.toNat < 4 * GiB → memory.translate virtaddr ≠ none →
    memory.manager.addr_space_.virtualToPhysical virtaddr = virtaddr
  /-- From 4 GiB on, different pages have different physical pages. -/
  distinct : ∀ first second : BitVec 64, Canonical first → Canonical second →
    4 * GiB ≤ first.toNat → 4 * GiB ≤ second.toNat →
      AddressSpace.pageNumber first ≠ AddressSpace.pageNumber second →
        ∀ page, memory.translate first = some page → memory.translate second ≠ some page
  /-- None of these was returned by `AllocPage32`. -/
  apart : ∀ virtaddr : BitVec 64, Canonical virtaddr → 4 * GiB ≤ virtaddr.toNat →
    ∀ page, memory.translate virtaddr = some page → page.toNat ∉ memory.returned

/-! ## Pages of canonical addresses -/

theorem four_GiB_eq : 4 * GiB = 2 ^ 32 := by decide

theorem kPagesStatusSize_eq : kPagesStatusSize = 2097152 := by decide

theorem page_size_eq : kPageSizeBytes = 2097152 := by decide

theorem samePage_iff {first second : BitVec 64} (canonicalFirst : Canonical first)
    (canonicalSecond : Canonical second) :
    AddressSpace.SamePage first second ↔
      AddressSpace.pageNumber first = AddressSpace.pageNumber second := by
  unfold Canonical at canonicalFirst canonicalSecond
  rw [AddressSpace.samePage_iff_mod]
  unfold AddressSpace.pageNumber
  rw [page_size_eq]
  omega

/-- Rounding down keeps just the number of the page. -/
theorem toNat_pageAligned (address : BitVec 64) :
    (PhysicalAllocator.pageAligned address).toNat =
      AddressSpace.pageNumber address * kPageSizeBytes :=
  Rounding.toNat_and_not_ones 21 address

theorem pageAligned_congr {first second : BitVec 64}
    (same : AddressSpace.pageNumber first = AddressSpace.pageNumber second) :
    PhysicalAllocator.pageAligned first = PhysicalAllocator.pageAligned second := by
  apply BitVec.eq_of_toNat_eq
  rw [toNat_pageAligned, toNat_pageAligned, same]

/-- A page and the offset in it make up the address. -/
theorem pageAligned_add_offset (address : BitVec 64) :
    PhysicalAllocator.pageAligned address + VirtualAddress.page_offset ⟨address⟩ = address := by
  have mask : (0x1FFFFF : BitVec 64).toNat = 2 ^ 21 - 1 := by decide
  apply BitVec.eq_of_toNat_eq
  rw [BitVec.toNat_add, toNat_pageAligned, VirtualAddress.page_offset, BitVec.toNat_and, mask,
    Nat.and_two_pow_sub_one_eq_mod, AddressSpace.pageNumber, page_size_eq]
  dsimp only
  omega

/-- The address of a page that was handed out. -/
theorem toNat_page {page : Nat} (below : page < kPagesStatusSize) :
    (BitVec.ofNat 64 (page * kPageSizeBytes)).toNat = page * kPageSizeBytes := by
  rw [kPagesStatusSize_eq] at below
  rw [BitVec.toNat_ofNat, page_size_eq]
  omega

theorem pageAligned_page {page : Nat} (below : page < kPagesStatusSize) :
    PhysicalAllocator.pageAligned (BitVec.ofNat 64 (page * kPageSizeBytes)) =
      BitVec.ofNat 64 (page * kPageSizeBytes) := by
  have positive : 0 < kPageSizeBytes := by decide
  apply BitVec.eq_of_toNat_eq
  rw [toNat_pageAligned, AddressSpace.pageNumber, toNat_page below, Nat.mul_div_cancel _ positive]

/-! ## The invariant -/

/-- The tables are a tree; below 4 GiB they map pages to themselves, and above to different
pages among those that the allocator has handed out and `AllocPage32` has not returned. -/
structure Sound (memory : Memory) (taken : List Nat) : Prop where
  built : memory.manager.addr_space_.Built
  fresh : memory.manager.pmm_.Fresh kPagesStatusSize taken
  zero : memory.translate 0 ≠ none
  low : ∀ virtaddr page : BitVec 64, virtaddr.toNat < 4 * GiB →
    memory.translate virtaddr = some page → page = PhysicalAllocator.pageAligned virtaddr
  high : ∀ virtaddr page : BitVec 64, Canonical virtaddr → 4 * GiB ≤ virtaddr.toNat →
    memory.translate virtaddr = some page →
      ∃ number ∈ taken, page.toNat = number * kPageSizeBytes ∧ page.toNat ∉ memory.returned
  distinct : ∀ first second : BitVec 64, Canonical first → Canonical second →
    4 * GiB ≤ first.toNat → 4 * GiB ≤ second.toNat →
      AddressSpace.pageNumber first ≠ AddressSpace.pageNumber second →
        ∀ page, memory.translate first = some page → memory.translate second ≠ some page
  returned : ∀ ptr ∈ memory.returned, ∃ number ∈ taken, ptr = number * kPageSizeBytes

variable {memory : Memory} {taken : List Nat}

theorem Sound.isolated (sound : memory.Sound taken) : memory.Isolated where
  identity virtaddr low mapped := by
    obtain ⟨page, held⟩ := Option.ne_none_iff_exists'.mp mapped
    have translated : memory.manager.addr_space_.translate virtaddr =
        some (PhysicalAllocator.pageAligned virtaddr) := by
      rw [← sound.low virtaddr page low held]
      exact held
    rw [AddressSpace.virtualToPhysical_eq, translated]
    exact pageAligned_add_offset virtaddr
  distinct := sound.distinct
  apart virtaddr canonical high page held := by
    obtain ⟨-, -, -, apart⟩ := sound.high virtaddr page canonical high held
    exact apart

theorem canonical_of_lt {virtaddr : BitVec 64} (low : virtaddr.toNat < 2 ^ 47) :
    Canonical virtaddr := .inl low

/-- What a page added to the map does to a canonical address. -/
theorem translate_of_adds {space after : AddressSpace} {fault_address page : BitVec 64}
    (adds : space.Adds after fault_address page) (unmapped : space.translate fault_address = none)
    (faults : fault_address.toNat < 2 ^ 47) {virtaddr : BitVec 64} (canonical : Canonical virtaddr) :
    after.translate virtaddr =
      if AddressSpace.pageNumber virtaddr = AddressSpace.pageNumber fault_address then some page
      else space.translate virtaddr := by
  have samePage := samePage_iff canonical (canonical_of_lt faults)
  rw [adds]
  by_cases same : AddressSpace.pageNumber virtaddr = AddressSpace.pageNumber fault_address
  · rw [if_pos same, if_pos ⟨samePage.mpr same, unmapped⟩]
  · rw [if_neg same, if_neg fun both => same (samePage.mp both.1)]

/-- The pages of an address space below 4 GiB and above do not mix. -/
theorem lt_four_GiB_congr {first second : BitVec 64}
    (same : AddressSpace.pageNumber first = AddressSpace.pageNumber second) :
    first.toNat < 4 * GiB ↔ second.toNat < 4 * GiB := by
  unfold AddressSpace.pageNumber at same
  rw [page_size_eq] at same
  rw [four_GiB_eq]
  omega

section Fault

variable {fault_address page : BitVec 64} {after : AddressSpace}

/-- A page below 4 GiB is mapped to itself. -/
theorem Sound.mapLow (sound : memory.Sound taken) (faults : fault_address.toNat < 2 ^ 47)
    (low : fault_address.toNat < 4 * GiB) (unmapped : memory.translate fault_address = none)
    (built : after.Built)
    (adds : memory.manager.addr_space_.Adds after fault_address
      (PhysicalAllocator.pageAligned fault_address)) :
    ({ memory with manager := { memory.manager with addr_space_ := after } } : Memory).Sound
      taken := by
  have translated {virtaddr : BitVec 64} (canonical : Canonical virtaddr) :=
    translate_of_adds adds unmapped faults canonical
  have above {virtaddr : BitVec 64} (canonical : Canonical virtaddr)
      (high : 4 * GiB ≤ virtaddr.toNat) :
      after.translate virtaddr = memory.translate virtaddr := by
    have other : AddressSpace.pageNumber virtaddr ≠ AddressSpace.pageNumber fault_address :=
      fun same => absurd ((lt_four_GiB_congr same).mpr low) (Nat.not_lt.mpr high)
    exact (translated canonical).trans (if_neg other)
  refine ⟨built, sound.fresh, ?_, fun virtaddr page below held => ?_,
    fun virtaddr page canonical high held => ?_,
    fun first second one two highFirst highSecond different page held => ?_, sound.returned⟩
  · change after.translate 0 ≠ none
    rw [translated (canonical_of_lt (by decide))]
    split
    · exact Option.some_ne_none _
    · exact sound.zero
  · have canonical : Canonical virtaddr := canonical_of_lt (below.trans (by decide))
    have found := (translated canonical).symm.trans held
    split at found
    · next same =>
        rw [← Option.some.inj found]
        exact (pageAligned_congr same).symm
    · exact sound.low virtaddr page below found
  · exact sound.high virtaddr page canonical high ((above canonical high).symm.trans held)
  · have before := sound.distinct first second one two highFirst highSecond different page
      ((above one highFirst).symm.trans held)
    exact fun found => before ((above two highSecond).symm.trans found)

/-- A page above 4 GiB is mapped to a page that is handed out for it. -/
theorem Sound.mapHigh (sound : memory.Sound taken) (faults : fault_address.toNat < 2 ^ 47)
    (high : 4 * GiB ≤ fault_address.toNat) (unmapped : memory.translate fault_address = none)
    {number : Nat} (fresh : number ∉ taken) (below : number < kPagesStatusSize)
    {pmm_ : PhysicalAllocator} (left : pmm_.Fresh kPagesStatusSize (number :: taken))
    (built : after.Built)
    (adds : memory.manager.addr_space_.Adds after fault_address
      (BitVec.ofNat 64 (number * kPageSizeBytes))) :
    ({ memory with manager := ⟨pmm_, after⟩ } : Memory).Sound (number :: taken) := by
  have positive : 0 < kPageSizeBytes := by decide
  have address := toNat_page below
  have translated {virtaddr : BitVec 64} (canonical : Canonical virtaddr) :=
    translate_of_adds adds unmapped faults canonical
  -- No page handed out before is the one that is mapped now.
  have unused {other : Nat} (old : other ∈ taken) :
      other * kPageSizeBytes ≠ number * kPageSizeBytes := by
    intro same
    rw [Nat.eq_of_mul_eq_mul_right positive same] at old
    exact fresh old
  refine ⟨built, left, ?_, fun virtaddr page low held => ?_,
    fun virtaddr page canonical above held => ?_,
    fun first second one two highFirst highSecond different page held found => ?_,
    fun ptr member => ?_⟩
  · change after.translate 0 ≠ none
    rw [translated (canonical_of_lt (by decide))]
    split
    · exact Option.some_ne_none _
    · exact sound.zero
  · have canonical : Canonical virtaddr := canonical_of_lt (low.trans (by decide))
    have other : AddressSpace.pageNumber virtaddr ≠ AddressSpace.pageNumber fault_address :=
      fun same => absurd ((lt_four_GiB_congr same).mp low) (Nat.not_lt.mpr high)
    have before := (translated canonical).trans (if_neg other)
    exact sound.low virtaddr page low (before.symm.trans held)
  · have found := (translated canonical).symm.trans held
    split at found
    · rw [← Option.some.inj found, address]
      refine ⟨number, List.mem_cons_self, rfl, fun member => ?_⟩
      obtain ⟨other, old, same⟩ := sound.returned _ member
      exact unused old same.symm
    · obtain ⟨other, old, holds, apart⟩ := sound.high virtaddr page canonical above found
      exact ⟨other, List.mem_cons_of_mem _ old, holds, apart⟩
  · have heldFirst := (translated one).symm.trans held
    have heldSecond := (translated two).symm.trans found
    split at heldFirst
    · next same =>
        rw [if_neg fun also => different (same.trans also.symm)] at heldSecond
        obtain ⟨other, old, holds, -⟩ := sound.high second page two highSecond heldSecond
        rw [← Option.some.inj heldFirst, address] at holds
        exact unused old holds.symm
    · split at heldSecond
      · obtain ⟨other, old, holds, -⟩ := sound.high first page one highFirst heldFirst
        rw [← Option.some.inj heldSecond, address] at holds
        exact unused old holds.symm
      · exact sound.distinct first second one two highFirst highSecond different page heldFirst
          heldSecond
  · obtain ⟨other, old, same⟩ := sound.returned ptr member
    exact ⟨other, List.mem_cons_of_mem _ old, same⟩

end Fault

/-! ## Steps -/

theorem mapFault_eq_some {manager after : MemManager} {fault_address phys_mem : BitVec 64}
    {writethrough : Bool}
    (mapped : manager.mapFault fault_address phys_mem writethrough = some after) :
    ∃ space, manager.addr_space_.mapPage fault_address phys_mem writethrough = some space ∧
      after = { manager with addr_space_ := space } := by
  unfold MemManager.mapFault at mapped
  split at mapped
  · cases mapped
  · obtain ⟨space, maps, same⟩ := Option.map_eq_some_iff.mp mapped
    exact ⟨space, maps, same.symm⟩

theorem step_eq {event : MemoryEvent} {after : Memory} (next : memory.next event = some after) :
    memory.step event = after := by
  unfold step
  rw [next]
  rfl

/-- **A fault maps its page**, and nothing else. -/
theorem Sound.pageFault (sound : memory.Sound taken) {fault_address : BitVec 64}
    (faults : fault_address.toNat < 2 ^ 47) (unmapped : memory.translate fault_address = none)
    {after : MemManager} (handled : memory.manager.pageFault fault_address = some after) :
    (∃ page, memory.manager.addr_space_.Adds after.addr_space_ fault_address page) ∧
      ∃ taken', ({ memory with manager := after } : Memory).Sound taken' := by
  unfold MemManager.pageFault at handled
  dsimp only at handled
  split at handled
  · next low =>
      obtain ⟨space, maps, rfl⟩ := mapFault_eq_some handled
      have small : fault_address.toNat < 2 ^ 52 := faults.trans (by decide)
      obtain ⟨built, adds⟩ := sound.built.mapPage small maps
      exact ⟨⟨_, adds⟩, taken, sound.mapLow faults low unmapped built adds⟩
  · next high =>
      split at handled
      · obtain ⟨space, maps, rfl⟩ := mapFault_eq_some handled
        rcases sound.fresh.alloc with ⟨none, -⟩ | ⟨number, given, below, fresh, left⟩
        · rw [none] at handled
          cases handled
        · rw [given] at maps
          have address := toNat_page below
          have small : (BitVec.ofNat 64 (number * kPageSizeBytes)).toNat < 2 ^ 52 := by
            rw [kPagesStatusSize_eq] at below
            rw [address, page_size_eq]
            omega
          obtain ⟨built, adds⟩ := sound.built.mapPage small maps
          rw [pageAligned_page below] at adds
          exact ⟨⟨_, adds⟩, number :: taken, sound.mapHigh faults (Nat.le_of_not_lt high) unmapped
            fresh below left built adds⟩
      · cases handled

/-- **`AllocPage32` returns a page that nothing else has.** -/
theorem Sound.allocPage32 (sound : memory.Sound taken) {after : Memory}
    (handled : memory.next .allocPage32 = some after) :
    (∀ virtaddr, after.translate virtaddr = memory.translate virtaddr) ∧
      ∃ taken', after.Sound taken' := by
  have positive : 0 < kPageSizeBytes := by decide
  unfold next MemManager.allocPage32 at handled
  dsimp only at handled
  split at handled
  · cases handled
  · next some =>
      rw [← Option.some.inj handled]
      rcases sound.fresh.alloc32 with ⟨none, -⟩ | ⟨number, given, below, fresh, left⟩
      · exact absurd none some
      · have unused {other : Nat} (old : other ∈ taken) :
            other * kPageSizeBytes ≠ number * kPageSizeBytes := by
          intro same
          rw [Nat.eq_of_mul_eq_mul_right positive same] at old
          exact fresh old
        refine ⟨fun virtaddr => rfl, number :: taken, sound.built, left, sound.zero, sound.low,
          fun virtaddr page canonical high held => ?_, sound.distinct, fun ptr member => ?_⟩
        · obtain ⟨other, old, holds, apart⟩ := sound.high virtaddr page canonical high held
          refine ⟨other, List.mem_cons_of_mem _ old, holds, fun member => ?_⟩
          rcases List.mem_cons.mp member with same | before
          · exact unused old (holds.symm.trans (same.trans given))
          · exact apart before
        · rcases List.mem_cons.mp member with same | before
          · exact ⟨number, List.mem_cons_self, same.trans given⟩
          · obtain ⟨other, old, same⟩ := sound.returned ptr before
            exact ⟨other, List.mem_cons_of_mem _ old, same⟩

/-- **Every call serves its purpose and keeps the invariant.** -/
theorem Sound.step (sound : memory.Sound taken) {event : MemoryEvent}
    (permitted : memory.Permitted event) :
    memory.Serves event ∧ ∃ taken', (memory.step event).Sound taken' := by
  obtain ⟨after, next⟩ := Option.ne_none_iff_exists'.mp permitted.2
  have stepped := step_eq next
  cases event with
  | pageFault fault_address =>
      obtain ⟨faults, unmapped⟩ := permitted.1
      obtain ⟨manager, handled, same⟩ := Option.map_eq_some_iff.mp next
      obtain ⟨⟨page, adds⟩, kept⟩ := sound.pageFault faults unmapped handled
      rw [← same] at stepped
      unfold Serves
      rw [stepped]
      refine ⟨⟨?_, fun other canonical different => ?_⟩, kept⟩
      · have translated := translate_of_adds adds unmapped faults (canonical_of_lt faults)
        rw [if_pos rfl] at translated
        change manager.addr_space_.translate fault_address ≠ none
        rw [translated]
        exact Option.some_ne_none _
      · exact (translate_of_adds adds unmapped faults canonical).trans (if_neg different)
  | allocPage32 =>
      obtain ⟨unchanged, kept⟩ := sound.allocPage32 next
      unfold Serves
      rw [stepped]
      exact ⟨unchanged, kept⟩

/-! ## From the configured address space on -/

/-- What `Configure` leaves: page 0 and only identical pages below 4 GiB. -/
structure Configured (space : AddressSpace) : Prop where
  built : space.Built
  identical : ∀ virtaddr page : BitVec 64, Canonical virtaddr →
    space.translate virtaddr = some page →
      virtaddr.toNat < 4 * GiB ∧ page = PhysicalAllocator.pageAligned virtaddr

/-- Mapping a page below 4 GiB to itself. -/
theorem Configured.mapPage {space after : AddressSpace} (configured : Configured space)
    {page : BitVec 64} (low : page.toNat < 4 * GiB) {writethrough : Bool}
    (mapped : space.mapPage page page writethrough = some after) :
    Configured after ∧ after.translate page ≠ none ∧
      ∀ virtaddr, space.translate virtaddr ≠ none → after.translate virtaddr ≠ none := by
  rw [four_GiB_eq] at low
  have canonical : Canonical page := canonical_of_lt (low.trans (by decide))
  obtain ⟨built, adds⟩ := configured.built.mapPage (low.trans (by decide)) mapped
  refine ⟨⟨built, fun virtaddr found inside held => ?_⟩, ?_, fun virtaddr kept => ?_⟩
  · rw [adds] at held
    split at held
    · next new =>
        have same := (samePage_iff inside canonical).mp new.1
        rw [← Option.some.inj held]
        exact ⟨(lt_four_GiB_congr same).mpr (four_GiB_eq ▸ low), (pageAligned_congr same).symm⟩
    · exact configured.identical virtaddr found inside held
  · rw [adds]
    split
    · exact Option.some_ne_none _
    · next old => exact fun none => old ⟨⟨rfl, rfl⟩, none⟩
  · rw [adds]
    split
    · exact Option.some_ne_none _
    · exact kept

theorem configured_new (memory : BitVec 64 → Nat → BitVec 64) :
    Configured (AddressSpace.new memory) := by
  obtain ⟨built, unmapped⟩ := AddressSpace.built_new memory
  refine ⟨built, fun virtaddr page canonical held => ?_⟩
  rw [unmapped] at held
  cases held

theorem Configured.mapAll {pages : List (BitVec 64)} {space after : AddressSpace}
    (configured : Configured space) (low : ∀ page ∈ pages, page.toNat < 4 * GiB)
    (mapped : pages.foldlM (fun space page => space.mapPage page page true) space = some after) :
    Configured after ∧ (∀ page ∈ pages, after.translate page ≠ none) ∧
      ∀ virtaddr, space.translate virtaddr ≠ none → after.translate virtaddr ≠ none := by
  induction pages generalizing space with
  | nil =>
      cases Option.some.inj mapped
      exact ⟨configured, fun page member => absurd member List.not_mem_nil, fun _ => id⟩
  | cons page pages ih =>
      obtain ⟨next, first, rest⟩ := Option.bind_eq_some_iff.mp mapped
      obtain ⟨here, later⟩ := List.forall_mem_cons.mp low
      obtain ⟨nextConfigured, present, keeps⟩ := configured.mapPage here first
      obtain ⟨final, all, stays⟩ := ih nextConfigured later rest
      refine ⟨final, List.forall_mem_cons.mpr ⟨stays page present, all⟩, fun virtaddr kept => ?_⟩
      exact stays virtaddr (keeps virtaddr kept)

/-- **`Configure` maps the first pages to themselves.** -/
theorem configured_configure {memory : BitVec 64 → Nat → BitVec 64} {space : AddressSpace}
    (configures : (AddressSpace.new memory).configure = some space) :
    Configured space ∧ space.translate 0 ≠ none := by
  have pages : kAllocStartAddress / kPageSizeBytes = 16 := by decide
  have low : ∀ page ∈ AddressSpace.identityPages, page.toNat < 4 * GiB := by
    intro page member
    obtain ⟨number, inside, rfl⟩ := List.mem_map.mp member
    rw [pages, List.mem_range] at inside
    rw [BitVec.toNat_ofNat, page_size_eq, four_GiB_eq]
    omega
  have zero : (0 : BitVec 64) ∈ AddressSpace.identityPages := by
    refine List.mem_map.mpr ⟨0, List.mem_range.mpr ?_, rfl⟩
    rw [pages]
    exact Nat.zero_lt_succ _
  obtain ⟨configured, present, -⟩ := (configured_new memory).mapAll low configures
  exact ⟨configured, present 0 zero⟩

/-- The memory when the kernel starts to use it. -/
theorem sound_configured {space : AddressSpace} {pmm_ : PhysicalAllocator}
    (configured : Configured space) (zero : space.translate 0 ≠ none)
    (fresh : pmm_.Fresh kPagesStatusSize []) : Sound { manager := ⟨pmm_, space⟩ } [] where
  built := configured.built
  fresh := fresh
  zero := zero
  low virtaddr page low held := by
    have canonical : Canonical virtaddr := canonical_of_lt (low.trans (by decide))
    exact (configured.identical virtaddr page canonical held).2
  high virtaddr page canonical high held :=
    absurd (configured.identical virtaddr page canonical held).1 (Nat.not_lt.mpr high)
  distinct first second one two highFirst highSecond different page held :=
    absurd (configured.identical first page one held).1 (Nat.not_lt.mpr highFirst)
  returned ptr member := absurd member List.not_mem_nil

/-- **Only exhaustion makes a call fail**: the pages, or the zone of the tables. -/
theorem Sound.next_ne_none (sound : memory.Sound taken) {event : MemoryEvent}
    (faults : memory.Faults event)
    (tables : memory.manager.addr_space_.tables_taken_ + 2 ≤ 1536)
    (page : memory.manager.pmm_.alloc.1 ≠ 0) (page_32 : memory.manager.pmm_.alloc32.1 ≠ 0) :
    memory.next event ≠ none := by
  have maps {manager : MemManager} {fault_address phys_mem : BitVec 64} {writethrough : Bool}
      (room : manager.addr_space_.tables_taken_ + 2 ≤ 1536) (some : phys_mem ≠ 0)
      (small : phys_mem.toNat < 2 ^ 52) :
      manager.mapFault fault_address phys_mem writethrough ≠ none := by
    obtain ⟨after, mapped⟩ := AddressSpace.mapPage_isSome room fault_address small writethrough
    unfold MemManager.mapFault
    rw [if_neg some, mapped]
    exact Option.some_ne_none _
  cases event with
  | pageFault fault_address =>
      obtain ⟨low, unmapped⟩ := faults
      have handled : memory.manager.pageFault fault_address ≠ none := by
        unfold MemManager.pageFault
        dsimp only
        split
        · refine maps tables (fun null => ?_) (low.trans (by decide))
          rw [null] at unmapped
          exact sound.zero unmapped
        · have space : 512 * 256 * GiB = 2 ^ 47 := by decide
          rw [space, if_pos low]
          rcases sound.fresh.alloc with ⟨none, -⟩ | ⟨number, given, below, -, -⟩
          · exact absurd none page
          · have address := toNat_page below
            rw [given] at page ⊢
            have small : number * kPageSizeBytes < 2 ^ 52 := by
              rw [kPagesStatusSize_eq] at below
              rw [page_size_eq]
              omega
            refine @maps { memory.manager with pmm_ := memory.manager.pmm_.alloc.2 } _ _ _ tables
              (fun null => ?_) (address.trans_lt small)
            rw [null] at address
            exact page address.symm
      exact fun none => handled (Option.map_eq_none_iff.mp none)
  | allocPage32 =>
      unfold next MemManager.allocPage32
      dsimp only
      rw [if_neg page_32]
      exact Option.some_ne_none _

/-- **Demand paging isolates pages.** From the configured address space on, whatever memory
map the allocator was made from, and as long as no assertion fails for want of pages or
tables: after every fault the address has a translation, no call changes the translation of
another page, and the pages are isolated after every call. -/
theorem demand_paging (memory_32 memory_64 : Nat → Nat) (map : MemoryMap)
    (entries : List MemoryMapEntry) (lists : map.Lists map.start entries)
    (zones : ∀ zone ∈ MemoryMap.available entries,
      zone.ptr.toNat + zone.size.toNat ≤ kPagesStatusSize * kPageSizeBytes)
    (rounds : Nat) (enough : entries.length < rounds) (pmm_ : PhysicalAllocator)
    (constructed : PhysicalAllocator.construct memory_32 memory_64 map rounds = some pmm_)
    (tables : BitVec 64 → Nat → BitVec 64) (space : AddressSpace)
    (configures : (AddressSpace.new tables).configure = some space)
    (events : List MemoryEvent)
    (permitted : Transition.Along step Permitted { manager := ⟨pmm_, space⟩ } events) :
    Transition.Along step Serves { manager := ⟨pmm_, space⟩ } events ∧
      (Transition.run step { manager := ⟨pmm_, space⟩ } events).Isolated := by
  obtain ⟨configured, zero⟩ := configured_configure configures
  have word : kPagesStatusSize * kPageSizeBytes < 2 ^ 64 := by decide
  have fresh := PhysicalAllocator.fresh_construct lists zones word enough constructed
  let invariant (memory : Memory) : Prop := ∃ taken, memory.Sound taken
  have begins : invariant { manager := ⟨pmm_, space⟩ } := ⟨[], sound_configured configured zero fresh⟩
  have keeps (memory : Memory) (event : MemoryEvent) (sound : invariant memory)
      (allowed : memory.Permitted event) : invariant (memory.step event) := by
    obtain ⟨taken, sound⟩ := sound
    exact (sound.step allowed).2
  have serves (memory : Memory) (event : MemoryEvent) (sound : invariant memory)
      (allowed : memory.Permitted event) : memory.Serves event := by
    obtain ⟨taken, sound⟩ := sound
    exact (sound.step allowed).1
  refine ⟨Transition.Along.of_invariant invariant keeps serves begins permitted, ?_⟩
  obtain ⟨taken, sound⟩ := Transition.run_invariant invariant keeps begins permitted
  exact sound.isolated

theorem permitted_pageFault_iff {fault_address : BitVec 64} :
    (fault_address.toNat < 2 ^ 47 ∧ (memory.translate fault_address).isNone) ∧
        (memory.next (.pageFault fault_address)).isSome ↔
      memory.Permitted (.pageFault fault_address) := by
  rw [Option.isNone_iff_eq_none, ← Option.ne_none_iff_isSome]
  rfl

theorem permitted_allocPage32_iff :
    True ∧ (memory.next .allocPage32).isSome ↔ memory.Permitted .allocPage32 := by
  rw [← Option.ne_none_iff_isSome]
  rfl

instance (memory : Memory) (event : MemoryEvent) : Decidable (memory.Permitted event) :=
  match event with
  | .pageFault _ => decidable_of_iff _ permitted_pageFault_iff
  | .allocPage32 => decidable_of_iff _ permitted_allocPage32_iff

/-- A machine with 128 MiB: its zones and its memory once it is configured. -/
def smallMap : MemoryMap where
  entryAt _ := ⟨20, 0x100000, 0x7f00000, 1⟩
  start := 0x9000
  len := 24

def smallMachine : Option Memory := do
  let pmm_ ← PhysicalAllocator.construct (fun _ => 7) (fun _ => 7) smallMap 2
  let space ← (AddressSpace.new fun _ _ => 7).configure
  return { manager := ⟨pmm_, space⟩ }

/-- Faults above and below 4 GiB, and a request. -/
def smallRun : List MemoryEvent :=
  [.pageFault 0x100000000, .allocPage32, .pageFault 0x7fffffffffff, .pageFault 0x2000000]

theorem demand_paging_smallMachine : ∃ memory, smallMachine = some memory ∧
    Transition.Along step Serves memory smallRun ∧
      (Transition.run step memory smallRun).Isolated := by
  have runs : smallMachine.any
      (fun memory => decide (Transition.Along step Permitted memory smallRun)) = true := by
    decide +kernel
  obtain ⟨memory, machine, permitted⟩ := (Option.any_eq_true _ _).mp runs
  have parts := machine
  rw [smallMachine, Option.bind_eq_bind, Option.bind_eq_some_iff] at parts
  obtain ⟨pmm_, constructed, rest⟩ := parts
  rw [Option.bind_eq_bind, Option.bind_eq_some_iff] at rest
  obtain ⟨space, configures, same⟩ := rest
  have lists : smallMap.Lists 0x9000 [⟨20, 0x100000, 0x7f00000, 1⟩] :=
    ⟨by decide, rfl, by decide, (by decide : (0x9018 : BitVec 32) ≤ 0x9018)⟩
  have zones : ∀ zone ∈ MemoryMap.available [⟨20, 0x100000, 0x7f00000, 1⟩],
      zone.ptr.toNat + zone.size.toNat ≤ kPagesStatusSize * kPageSizeBytes := by decide
  refine ⟨memory, machine, ?_⟩
  rw [← Option.some.inj same] at permitted ⊢
  exact demand_paging _ _ smallMap _ lists zones 2 (by decide) pmm_ constructed _ space configures
    smallRun (of_decide_eq_true permitted)

end Memory

end JsOS.Kernel
