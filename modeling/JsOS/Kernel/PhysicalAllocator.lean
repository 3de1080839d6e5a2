import JsOS.Kernel.MemoryMap
import JsOS.Kernel.PagesStack
import JsOS.Library.Rounding
import JsOS.Library.Run

/-! # The allocator of physical pages

Free pages are kept on two stacks, one for the pages below 4 GiB; `pages_status_` tells
which pages are free, with `false` for a free one. The constructor goes through the memory
map and inserts the whole pages of every available zone that are not inserted yet. The
state of an allocator is described by the pages on its stacks and the pages handed out
(`PhysicalAllocator.Pools`), all different; a page has a place on its stack whenever it is
not there (`length_le_of_pages`), so that no push is ever dropped.
-/

namespace JsOS.Kernel

def MiB : Nat := 1024 * 1024

def kPageSizeBytes : Nat := 2 * MiB

def kAllocStartAddress : Nat := 32 * MiB

/-- The last page of which every byte has a 32-bit address. -/
def last_32bit : Nat := 0xffffffff / kPageSizeBytes

/-- A `PhysicalAllocator`. -/
structure PhysicalAllocator where
  stack_32_ : PagesStack
  stack_64_ : PagesStack
  pages_status_ : Nat → Bool
  available_phys_memory_ : BitVec 64
  used_phys_memory_ : BitVec 64

namespace PhysicalAllocator

/-- `Utils::AlignPtr` for the size of a page. -/
def alignPtr (value : BitVec 64) : BitVec 64 :=
  let alignment := BitVec.ofNat 64 kPageSizeBytes
  if value % alignment ≠ 0 then value + (alignment - value % alignment) else value

/-- `PageAligned`. -/
def pageAligned (ptr : BitVec 64) : BitVec 64 := ptr &&& ~~~0x1FFFFF

/-- Set `pages_status_[pageid]`. -/
def setStatus (allocator : PhysicalAllocator) (pageid : Nat) (status : Bool) : PhysicalAllocator :=
  { allocator with
    pages_status_ := fun page => if page = pageid then status else allocator.pages_status_ page }

/-- Push a page to its stack. -/
def push (allocator : PhysicalAllocator) (pageid : Nat) : PhysicalAllocator :=
  if pageid ≤ last_32bit then { allocator with stack_32_ := allocator.stack_32_.push pageid }
  else { allocator with stack_64_ := allocator.stack_64_.push pageid }

/-! ## The constructor -/

/-- The body of the loop of `_insert_pages_range`. -/
def insertPage (allocator : PhysicalAllocator) (pageid : Nat) : PhysicalAllocator :=
  if allocator.pages_status_ pageid = false then allocator
  else
    { (allocator.setStatus pageid false).push pageid with
      available_phys_memory_ :=
        allocator.available_phys_memory_ + BitVec.ofNat 64 kPageSizeBytes }

/-- `_insert_pages_range`. -/
def insertPagesRange (allocator : PhysicalAllocator) (start stop : BitVec 64) :
    PhysicalAllocator :=
  let first_page := start.toNat / kPageSizeBytes
  let last_page := stop.toNat / kPageSizeBytes
  if first_page ≥ last_page then allocator
  else (List.range' first_page (last_page - first_page)).foldl insertPage allocator

/-- The body of the constructor's loop. -/
def insertZone (allocator : PhysicalAllocator) (zone : MemoryZone) : PhysicalAllocator :=
  let start := alignPtr zone.ptr
  let stop := pageAligned (zone.ptr + zone.size)
  let start := if start < BitVec.ofNat 64 kAllocStartAddress then .ofNat 64 kAllocStartAddress else start
  if start ≥ stop then allocator else allocator.insertPagesRange start stop

/-- The loop of the constructor, of `rounds` rounds at most. -/
def insertZones (map : MemoryMap) : (rounds : Nat) → (current : BitVec 32) →
    PhysicalAllocator → Option PhysicalAllocator
  | 0, _, _ => none
  | rounds + 1, current, allocator =>
      match map.nextAvailableMemory (rounds + 1) current with
      | none => none
      | some (zone, current) =>
          if zone.empty then some allocator
          else insertZones map rounds current (allocator.insertZone zone)

/-- The allocator before its constructor's loop; the memory of the stacks holds anything. -/
def empty (memory_32 memory_64 : Nat → Nat) : PhysicalAllocator where
  stack_32_ := .new memory_32 MiB
  stack_64_ := .new memory_64 MiB
  pages_status_ _ := true
  available_phys_memory_ := 0
  used_phys_memory_ := 0

/-- The constructor. Without a result it has called `abort`, or its loop takes more rounds. -/
def construct (memory_32 memory_64 : Nat → Nat) (map : MemoryMap) (rounds : Nat) :
    Option PhysicalAllocator :=
  match insertZones map rounds map.start (empty memory_32 memory_64) with
  | none => none
  | some allocator =>
      if allocator.available_phys_memory_ < BitVec.ofNat 64 (94 * MiB) then none else some allocator

/-! ## Requests -/

/-- `free`. -/
def free (allocator : PhysicalAllocator) (addr : Nat) : PhysicalAllocator :=
  if addr = 0 then allocator
  else
    let pageid := addr / kPageSizeBytes
    if allocator.pages_status_ pageid = false then allocator  -- the assertion "Double free."
    else
      { (allocator.setStatus pageid false).push pageid with
        used_phys_memory_ := allocator.used_phys_memory_ - BitVec.ofNat 64 kPageSizeBytes }

/-- Mark a page that was popped as used and return its address; the address is 0 when
nothing was popped. -/
def hand (allocator : PhysicalAllocator) (pageid : Nat) : Nat × PhysicalAllocator :=
  if pageid = 0 then (0, allocator)
  else
    (pageid * kPageSizeBytes,
      { allocator.setStatus pageid true with
        used_phys_memory_ := allocator.used_phys_memory_ + BitVec.ofNat 64 kPageSizeBytes })

/-- `alloc32`. -/
def alloc32 (allocator : PhysicalAllocator) : Nat × PhysicalAllocator :=
  let (pageid, stack_32_) := allocator.stack_32_.pop
  { allocator with stack_32_ }.hand pageid

/-- `alloc`. -/
def alloc (allocator : PhysicalAllocator) : Nat × PhysicalAllocator :=
  let (pageid, stack_64_) := allocator.stack_64_.pop
  if pageid = 0 then { allocator with stack_64_ }.alloc32
  else { allocator with stack_64_ }.hand pageid

/-- `physical_memory_used`. -/
def physical_memory_used (allocator : PhysicalAllocator) : BitVec 64 := allocator.used_phys_memory_

/-- The pages that can be obtained. -/
def obtainable (allocator : PhysicalAllocator) : List Nat :=
  allocator.stack_32_.pages ++ allocator.stack_64_.pages

end PhysicalAllocator

/-- The allocator with the addresses it has handed out and not got back. -/
structure Heap where
  allocator : PhysicalAllocator
  outstanding : List Nat := []

/-- The requests to the allocator. -/
inductive Request where
  | alloc
  | alloc32
  | free (addr : Nat)
  deriving DecidableEq, Repr

namespace Heap

/-- Keep an address that was handed out. -/
def receive (heap : Heap) (result : Nat × PhysicalAllocator) : Heap where
  allocator := result.2
  outstanding := if result.1 = 0 then heap.outstanding else result.1 :: heap.outstanding

/-- One request. -/
def step (heap : Heap) : Request → Heap
  | .alloc => heap.receive heap.allocator.alloc
  | .alloc32 => heap.receive heap.allocator.alloc32
  | .free addr => ⟨heap.allocator.free addr, heap.outstanding.erase addr⟩

end Heap

/-! ## Pages -/

namespace PhysicalAllocator

/-- Pages of a range, all different, are not more than the range has. -/
theorem length_le_of_pages {pages : List Nat} {first count : Nat} (nodup : pages.Nodup)
    (inside : ∀ page ∈ pages, first ≤ page ∧ page < first + count) : pages.length ≤ count := by
  have subset : pages ⊆ List.range' first count := fun page member =>
    List.mem_range'_1.mpr (inside page member)
  have length := (nodup.subperm subset).length_le
  rwa [List.length_range'] at length

/-- The pages on the stacks and the pages that are handed out. -/
structure Pools (allocator : PhysicalAllocator) (low high taken : List Nat) : Prop where
  lowStack : allocator.stack_32_.Holds low (2048 - low.length)
  highStack : allocator.stack_64_.Holds high (129024 - high.length)
  lowPages : ∀ page ∈ low, 16 ≤ page ∧ page < 2048
  highPages : ∀ page ∈ high, 2048 ≤ page ∧ page < 131072
  takenPages : ∀ page ∈ taken, 16 ≤ page ∧ page < 131072
  nodup : (low ++ high ++ taken).Nodup
  free : ∀ page, page ∈ low ++ high → allocator.pages_status_ page = false
  used : ∀ page, page ∉ low ++ high → allocator.pages_status_ page = true

theorem last_32bit_eq : last_32bit = 2047 := by decide

variable {allocator : PhysicalAllocator} {low high taken : List Nat}

theorem Pools.obtainable_eq (pools : allocator.Pools low high taken) :
    allocator.obtainable = low ++ high := by
  rw [obtainable, pools.lowStack.pages_eq, pools.highStack.pages_eq]

theorem Pools.mem_free (pools : allocator.Pools low high taken) {page : Nat} :
    allocator.pages_status_ page = false ↔ page ∈ low ++ high := by
  refine ⟨fun free => ?_, pools.free page⟩
  by_contra absent
  rw [pools.used page absent] at free
  cases free

theorem Pools.length_le (pools : allocator.Pools low high taken) :
    (low ++ high ++ taken).length ≤ 131072 := by
  refine @length_le_of_pages _ 0 _ pools.nodup fun page member => ⟨Nat.zero_le _, ?_⟩
  rw [Nat.zero_add]
  rcases List.mem_append.mp member with free | taken
  · rcases List.mem_append.mp free with low | high
    · exact (pools.lowPages page low).2.trans (by decide)
    · exact (pools.highPages page high).2
  · exact (pools.takenPages page taken).2

theorem Pools.congr {after : PhysicalAllocator} (pools : allocator.Pools low high taken)
    (same_32 : after.stack_32_ = allocator.stack_32_)
    (same_64 : after.stack_64_ = allocator.stack_64_)
    (status : after.pages_status_ = allocator.pages_status_) : after.Pools low high taken where
  lowStack := same_32 ▸ pools.lowStack
  highStack := same_64 ▸ pools.highStack
  lowPages := pools.lowPages
  highPages := pools.highPages
  takenPages := pools.takenPages
  nodup := pools.nodup
  free := status ▸ pools.free
  used := status ▸ pools.used

theorem Pools.drop (pools : allocator.Pools low high taken) (page : Nat) :
    allocator.Pools low high (taken.erase page) :=
  { pools with
    takenPages := fun other member => pools.takenPages other (List.mem_of_mem_erase member)
    nodup := pools.nodup.sublist ((List.Sublist.refl _).append List.erase_sublist) }

/-- **A page that is neither free nor handed out finds room on its stack.** -/
theorem Pools.push (pools : allocator.Pools low high taken) {page : Nat}
    (range : 16 ≤ page ∧ page < 131072) (fresh : page ∉ low ++ high ++ taken) :
    ∃ low' high', ((allocator.setStatus page false).push page).Pools low' high' taken ∧
      (low' ++ high').Perm (page :: (low ++ high)) := by
  have nodup : (page :: (low ++ high ++ taken)).Nodup := List.nodup_cons.mpr ⟨fresh, pools.nodup⟩
  have nonzero : page ≠ 0 := by omega
  have status (free : List Nat) (perm : free.Perm (page :: (low ++ high))) :
      (∀ other, other ∈ free → (allocator.setStatus page false).pages_status_ other = false) ∧
        ∀ other, other ∉ free → (allocator.setStatus page false).pages_status_ other = true := by
    refine ⟨fun other member => ?_, fun other absent => ?_⟩
    · rcases List.mem_cons.mp (perm.mem_iff.mp member) with same | old
      · exact if_pos same
      · change (if other = page then false else _) = false
        rw [pools.free other old, ite_self]
    · rw [perm.mem_iff, List.mem_cons, not_or] at absent
      exact (if_neg absent.1).trans (pools.used other absent.2)
  unfold PhysicalAllocator.push
  split
  · next small =>
      rw [last_32bit_eq] at small
      have few : (page :: low).length ≤ 2032 := by
        refine @length_le_of_pages _ 16 _ ?_ fun other member => ?_
        · have inside := (List.sublist_append_left low high).trans
            (List.sublist_append_left (low ++ high) taken)
          exact nodup.sublist (inside.cons_cons page)
        · rcases List.mem_cons.mp member with same | old
          · omega
          · exact pools.lowPages other old
      rw [List.length_cons] at few
      have perm : (page :: low ++ high).Perm (page :: (low ++ high)) := List.Perm.refl _
      refine ⟨page :: low, high, ?_, perm⟩
      have room : 2048 - low.length = 2048 - (page :: low).length + 1 := by
        rw [List.length_cons]
        omega
      have held := pools.lowStack
      rw [room] at held
      refine ⟨held.push nonzero, pools.highStack, fun other member => ?_, pools.highPages,
        pools.takenPages, nodup, (status _ perm).1, (status _ perm).2⟩
      rcases List.mem_cons.mp member with same | old
      · omega
      · exact pools.lowPages other old
  · next large =>
      rw [last_32bit_eq] at large
      have perm : (low ++ page :: high).Perm (page :: (low ++ high)) := List.perm_middle
      have few : (page :: high).length ≤ 129024 := by
        refine @length_le_of_pages _ 2048 _ ?_ fun other member => ?_
        · have all : (low ++ page :: high ++ taken).Nodup :=
            ((perm.append_right taken).nodup_iff).mpr nodup
          rw [List.append_assoc] at all
          exact ((List.nodup_append.mp all).2.1).sublist (List.sublist_append_left _ _)
        · rcases List.mem_cons.mp member with same | old
          · omega
          · exact pools.highPages other old
      rw [List.length_cons] at few
      refine ⟨low, page :: high, ?_, perm⟩
      have room : 129024 - high.length = 129024 - (page :: high).length + 1 := by
        rw [List.length_cons]
        omega
      have held := pools.highStack
      rw [room] at held
      refine ⟨pools.lowStack, held.push nonzero, pools.lowPages, fun other member => ?_,
        pools.takenPages, ((perm.append_right taken).nodup_iff).mpr nodup, (status _ perm).1,
        (status _ perm).2⟩
      rcases List.mem_cons.mp member with same | old
      · omega
      · exact pools.highPages other old

/-- Handing out the page on top of a stack. -/
theorem Pools.take (pools : allocator.Pools low high taken) {page : Nat} {low' high' : List Nat}
    (perm : (low ++ high).Perm (page :: (low' ++ high'))) {stack_32 stack_64 : PagesStack}
    (lowStack : stack_32.Holds low' (2048 - low'.length))
    (highStack : stack_64.Holds high' (129024 - high'.length))
    (lowSubset : low' ⊆ low) (highSubset : high' ⊆ high) {after : PhysicalAllocator}
    (same_32 : after.stack_32_ = stack_32) (same_64 : after.stack_64_ = stack_64)
    (status : after.pages_status_ = (allocator.setStatus page true).pages_status_) :
    after.Pools low' high' (page :: taken) := by
  have all : (low' ++ high' ++ page :: taken).Nodup := by
    refine (List.Perm.nodup_iff ?_).mp pools.nodup
    exact (perm.append_right taken).trans (List.perm_middle.symm)
  have member : page ∈ low ++ high := perm.mem_iff.mpr List.mem_cons_self
  have apart : page ∉ low' ++ high' := fun inside =>
    (List.nodup_cons.mp ((perm.nodup_iff).mp (List.nodup_append.mp pools.nodup).1)).1 inside
  refine ⟨same_32 ▸ lowStack, same_64 ▸ highStack, fun other inside =>
    pools.lowPages other (lowSubset inside), fun other inside =>
    pools.highPages other (highSubset inside), fun other inside => ?_, all, fun other free => ?_,
    fun other absent => ?_⟩
  · rcases List.mem_cons.mp inside with rfl | old
    · rcases List.mem_append.mp member with low | high
      · have range := pools.lowPages other low
        omega
      · have range := pools.highPages other high
        omega
    · exact pools.takenPages other old
  · rw [status]
    change (if other = page then true else _) = false
    rw [if_neg fun same : other = page => apart (same ▸ free)]
    exact pools.free other (perm.mem_iff.mpr (List.mem_cons_of_mem _ free))
  · rw [status]
    change (if other = page then true else _) = true
    split
    · rfl
    · next different =>
        refine pools.used other fun inside => ?_
        rcases List.mem_cons.mp (perm.mem_iff.mp inside) with same | free
        · exact different same
        · exact absent free

/-! ## What the requests do to the pages -/

/-- What an allocation does when it hands out a page. -/
structure Hands (allocator : PhysicalAllocator) (low high taken : List Nat) (page : Nat)
    (result : Nat × PhysicalAllocator) : Prop where
  member : page ∈ low ++ high
  address : result.1 = page * kPageSizeBytes
  counted : result.2.used_phys_memory_ =
    allocator.used_phys_memory_ + BitVec.ofNat 64 kPageSizeBytes
  pools : ∃ low' high', (low ++ high).Perm (page :: (low' ++ high')) ∧
    result.2.Pools low' high' (page :: taken)

/-- **`alloc32` hands out a low page**, and fails only when there is none. -/
theorem Pools.alloc32 (pools : allocator.Pools low high taken) :
    (low = [] ∧ allocator.alloc32.1 = 0 ∧ allocator.alloc32.2.Pools low high taken ∧
      allocator.alloc32.2.used_phys_memory_ = allocator.used_phys_memory_) ∨
    ∃ page, page < 2048 ∧ Hands allocator low high taken page allocator.alloc32 := by
  unfold PhysicalAllocator.alloc32 hand
  dsimp only
  rcases pools.lowStack.pop with ⟨none, pops, left⟩ | ⟨page, rest, some, pops, left⟩
  · rw [if_pos pops]
    subst none
    exact .inl ⟨rfl, rfl, { pools with lowStack := left }, rfl⟩
  · subst some
    obtain ⟨lower, upper⟩ := pools.lowPages page List.mem_cons_self
    have nonzero : page ≠ 0 := by omega
    have length := @length_le_of_pages _ 16 2032 (List.nodup_append.mp (List.nodup_append.mp
      pools.nodup).1).1 fun other member => pools.lowPages other member
    have room : 2048 - (page :: rest).length + 1 = 2048 - rest.length := by
      rw [List.length_cons] at length ⊢
      omega
    rw [room] at left
    rw [pops, if_neg nonzero]
    refine .inr ⟨page, upper, List.mem_cons_self, rfl, rfl, rest, high, List.Perm.refl _, ?_⟩
    exact pools.take (List.Perm.refl _) left pools.highStack (List.subset_cons_self _ _)
      (List.Subset.refl _) rfl rfl rfl

/-- **`alloc` hands out a page**, and fails only when there is none. -/
theorem Pools.alloc (pools : allocator.Pools low high taken) :
    (low ++ high = [] ∧ allocator.alloc.1 = 0 ∧ allocator.alloc.2.Pools low high taken ∧
      allocator.alloc.2.used_phys_memory_ = allocator.used_phys_memory_) ∨
    ∃ page, Hands allocator low high taken page allocator.alloc := by
  unfold PhysicalAllocator.alloc
  dsimp only
  rcases pools.highStack.pop with ⟨none, pops, left⟩ | ⟨page, rest, some, pops, left⟩
  · rw [if_pos pops]
    subst none
    have popped : PhysicalAllocator.Pools
        { allocator with stack_64_ := allocator.stack_64_.pop.2 } low [] taken :=
      { pools with highStack := left }
    rcases popped.alloc32 with ⟨none, fails, after, counted⟩ | ⟨page, -, hands⟩
    · exact .inl ⟨by rw [none]; rfl, fails, after, counted⟩
    · exact .inr ⟨page, hands.member, hands.address, hands.counted, hands.pools⟩
  · subst some
    obtain ⟨lower, upper⟩ := pools.highPages page List.mem_cons_self
    have nonzero : page ≠ 0 := by omega
    have length := @length_le_of_pages _ 2048 129024 (List.nodup_append.mp (List.nodup_append.mp
      pools.nodup).1).2.1 fun other member => pools.highPages other member
    have room : 129024 - (page :: rest).length + 1 = 129024 - rest.length := by
      rw [List.length_cons] at length ⊢
      omega
    rw [room] at left
    unfold hand
    rw [pops, if_neg nonzero, if_neg nonzero]
    have perm : (low ++ page :: rest).Perm (page :: (low ++ rest)) := List.perm_middle
    refine .inr ⟨page, List.mem_append_right _ List.mem_cons_self, rfl, rfl, low, rest, perm, ?_⟩
    exact pools.take perm pools.lowStack left (List.Subset.refl _) (List.subset_cons_self _ _)
      rfl rfl rfl

/-- **`free` puts the page back.** -/
theorem Pools.free_page (pools : allocator.Pools low high taken) {page : Nat}
    (member : page ∈ taken) :
    (allocator.free (page * kPageSizeBytes)).used_phys_memory_ =
        allocator.used_phys_memory_ - BitVec.ofNat 64 kPageSizeBytes ∧
      ∃ low' high', (low' ++ high').Perm (page :: (low ++ high)) ∧
        (allocator.free (page * kPageSizeBytes)).Pools low' high' (taken.erase page) := by
  have range := pools.takenPages page member
  have apart : page ∉ low ++ high := fun inside =>
    (List.nodup_append.mp pools.nodup).2.2 page inside page member rfl
  have size : 0 < kPageSizeBytes := by decide
  have address : page * kPageSizeBytes ≠ 0 := Nat.mul_ne_zero (by omega) (Nat.ne_of_gt size)
  unfold PhysicalAllocator.free
  dsimp only
  rw [if_neg address, Nat.mul_div_cancel page size, if_neg (by rw [pools.used page apart]; decide)]
  have fresh : page ∉ low ++ high ++ taken.erase page := by
    rw [List.mem_append, not_or]
    exact ⟨apart, (List.nodup_append.mp pools.nodup).2.1.not_mem_erase⟩
  obtain ⟨low', high', pushed, perm⟩ := (pools.drop page).push range fresh
  exact ⟨rfl, low', high', perm, pushed.congr rfl rfl rfl⟩

end PhysicalAllocator

end JsOS.Kernel
