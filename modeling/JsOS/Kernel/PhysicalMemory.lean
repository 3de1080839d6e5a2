import JsOS.Kernel.PhysicalAllocator

/-! # Physical memory, from the memory map on

The constructor makes exactly the whole pages of the available zones obtainable
(`Inserted`), and every request moves one page between those that are free and those that
are handed out (`Heap.Sound`).
-/

namespace JsOS.Kernel

namespace PhysicalAllocator

/-! ## The constructor -/

/-- The page is at or above the first address to allocate, and whole inside the zone. -/
def InZone (zone : MemoryZone) (page : Nat) : Prop :=
  kAllocStartAddress ≤ page * kPageSizeBytes ∧ zone.ptr.toNat ≤ page * kPageSizeBytes ∧
    (page + 1) * kPageSizeBytes ≤ zone.ptr.toNat + zone.size.toNat

/-- The page can be used: it is inside some available zone. -/
def Usable (entries : List MemoryMapEntry) (page : Nat) : Prop :=
  ∃ zone ∈ MemoryMap.available entries, InZone zone page

/-- The allocator has just these pages, all free, and has counted them. -/
structure Inserted (allocator : PhysicalAllocator) (pages : Nat → Prop) (low high : List Nat) :
    Prop where
  pools : allocator.Pools low high []
  members : ∀ page, page ∈ low ++ high ↔ pages page
  counted : allocator.available_phys_memory_.toNat = kPageSizeBytes * (low ++ high).length
  unused : allocator.used_phys_memory_ = 0

variable {allocator : PhysicalAllocator} {pages : Nat → Prop} {low high : List Nat}

theorem kPageSizeBytes_eq : kPageSizeBytes = 2097152 := by decide

theorem kAllocStartAddress_eq : kAllocStartAddress = 33554432 := by decide

theorem inserted_empty (memory_32 memory_64 : Nat → Nat) :
    (empty memory_32 memory_64).Inserted (fun _ => False) [] [] where
  pools :=
    { lowStack := @PagesStack.holds_new 2048 memory_32 MiB (by decide)
      highStack := @PagesStack.holds_new 129024 memory_64 MiB (by decide)
      lowPages := fun _ member => absurd member List.not_mem_nil
      highPages := fun _ member => absurd member List.not_mem_nil
      takenPages := fun _ member => absurd member List.not_mem_nil
      nodup := List.nodup_nil
      free := fun _ member => absurd member List.not_mem_nil
      used := fun _ _ => rfl }
  members _ := iff_of_false List.not_mem_nil not_false
  counted := rfl
  unused := rfl

/-- A page that is there already is skipped, and any other one is added. -/
theorem Inserted.insertPage (inserted : allocator.Inserted pages low high) {page : Nat}
    (range : 16 ≤ page ∧ page < 131072) :
    ∃ low' high', (allocator.insertPage page).Inserted (fun other => other = page ∨ pages other)
      low' high' := by
  have pools := inserted.pools
  unfold PhysicalAllocator.insertPage
  split
  · next free =>
      have present := pools.mem_free.mp free
      refine ⟨low, high, pools, fun other => ?_, inserted.counted, inserted.unused⟩
      rw [inserted.members, iff_or_self]
      rintro rfl
      exact (inserted.members _).mp present
  · next used =>
      have absent : page ∉ low ++ high ++ [] := by
        rw [List.append_nil]
        exact fun present => used (pools.mem_free.mpr present)
      obtain ⟨low', high', pushed, perm⟩ := pools.push range absent
      have after : PhysicalAllocator.Pools
          { (allocator.setStatus page false).push page with
            available_phys_memory_ :=
              allocator.available_phys_memory_ + BitVec.ofNat 64 kPageSizeBytes } low' high' [] :=
        pushed.congr rfl rfl rfl
      have bounded := after.length_le
      rw [List.append_nil] at bounded
      have length := perm.length_eq
      rw [List.length_cons] at length
      refine ⟨low', high', after, fun other => ?_, ?_, ?_⟩
      · rw [perm.mem_iff, List.mem_cons, inserted.members]
      · rw [length] at bounded ⊢
        change (allocator.available_phys_memory_ + BitVec.ofNat 64 kPageSizeBytes).toNat = _
        rw [BitVec.toNat_add, inserted.counted, BitVec.toNat_ofNat, kPageSizeBytes_eq]
        omega
      · change ((allocator.setStatus page false).push page).used_phys_memory_ = 0
        unfold PhysicalAllocator.push
        split <;> exact inserted.unused

/-- The loop over a range of pages. -/
theorem Inserted.insertRange (inserted : allocator.Inserted pages low high) {first count : Nat}
    (above : 16 ≤ first) (below : first + count ≤ 131072) :
    ∃ low' high', ((List.range' first count).foldl PhysicalAllocator.insertPage allocator).Inserted
      (fun page => (first ≤ page ∧ page < first + count) ∨ pages page) low' high' := by
  induction count generalizing first allocator pages low high with
  | zero =>
      refine ⟨low, high, inserted.pools, fun page => ?_, inserted.counted, inserted.unused⟩
      rw [inserted.members, or_iff_right]
      omega
  | succ count ih =>
      obtain ⟨low', high', next⟩ := inserted.insertPage ⟨above, by omega⟩
      obtain ⟨low'', high'', rest⟩ := ih next (Nat.le_succ_of_le above) (by omega)
      rw [List.range'_succ, List.foldl_cons]
      refine ⟨low'', high'', rest.pools, fun page => (rest.members page).trans ?_, rest.counted,
        rest.unused⟩
      rw [← or_assoc]
      refine or_congr_left ?_
      omega

/-- Addresses are rounded up to pages. -/
theorem toNat_alignPtr {value : BitVec 64} (small : value.toNat ≤ 2 ^ 38) :
    (alignPtr value).toNat = (value.toNat + 2097151) / 2097152 * 2097152 := by
  have page : (BitVec.ofNat 64 kPageSizeBytes).toNat = 2097152 := by decide
  have rest : (value % BitVec.ofNat 64 kPageSizeBytes).toNat = value.toNat % 2097152 := by
    rw [BitVec.toNat_umod, page]
  have zero : value % BitVec.ofNat 64 kPageSizeBytes = 0 ↔ value.toNat % 2097152 = 0 := by
    rw [← rest]
    exact ⟨fun same => same ▸ rfl, fun same => BitVec.eq_of_toNat_eq same⟩
  unfold alignPtr
  dsimp only
  split
  · next odd =>
      rw [ne_eq, zero] at odd
      rw [BitVec.toNat_add, BitVec.toNat_sub, rest, page]
      omega
  · next even =>
      rw [ne_eq, not_not, zero] at even
      omega

/-- The end of a zone is rounded down to pages. -/
theorem toNat_pageAligned (value : BitVec 64) :
    (pageAligned value).toNat = value.toNat / 2097152 * 2097152 :=
  Rounding.toNat_and_not_ones 21 value

/-- The first page boundary in a zone, and not below the first address to allocate. -/
def firstPage (zone : MemoryZone) : Nat := max 16 ((zone.ptr.toNat + 2097151) / 2097152)

/-- How many whole pages follow in the zone. -/
def pageCount (zone : MemoryZone) : Nat :=
  (zone.ptr.toNat + zone.size.toNat) / 2097152 - firstPage zone

theorem insertZone_eq {zone : MemoryZone} (small : zone.ptr.toNat + zone.size.toNat ≤ 2 ^ 38) :
    allocator.insertZone zone =
      (List.range' (firstPage zone) (pageCount zone)).foldl insertPage allocator := by
  have aligned := @toNat_alignPtr zone.ptr (by omega)
  have rounded := toNat_pageAligned (zone.ptr + zone.size)
  have sum : (zone.ptr + zone.size).toNat = zone.ptr.toNat + zone.size.toNat := by
    rw [BitVec.toNat_add]
    omega
  have first : (BitVec.ofNat 64 kAllocStartAddress).toNat = 33554432 := by decide
  have start : (if alignPtr zone.ptr < BitVec.ofNat 64 kAllocStartAddress then
      BitVec.ofNat 64 kAllocStartAddress else alignPtr zone.ptr).toNat =
        firstPage zone * 2097152 := by
    unfold firstPage
    split
    · next below =>
        rw [BitVec.lt_def, first, aligned] at below
        rw [Nat.max_eq_left (by omega)]
        exact first
    · next above =>
        rw [BitVec.lt_def, first, aligned] at above
        rw [Nat.max_eq_right (by omega)]
        exact aligned
  rw [sum] at rounded
  unfold insertZone insertPagesRange pageCount
  dsimp only
  generalize (if alignPtr zone.ptr < BitVec.ofNat 64 kAllocStartAddress then
    BitVec.ofNat 64 kAllocStartAddress else alignPtr zone.ptr) = address at start ⊢
  rw [kPageSizeBytes_eq, start, rounded, Nat.mul_div_cancel _ (by decide),
    Nat.mul_div_cancel _ (by decide)]
  split
  · next past =>
      rw [ge_iff_le, BitVec.le_def, start, rounded] at past
      rw [Nat.sub_eq_zero_of_le (Nat.le_of_mul_le_mul_right past (by decide))]
      rfl
  · split
    · next past =>
        rw [Nat.sub_eq_zero_of_le past]
        rfl
    · rfl

/-- **A zone adds its own pages.** -/
theorem Inserted.insertZone (inserted : allocator.Inserted pages low high) {zone : MemoryZone}
    (small : zone.ptr.toNat + zone.size.toNat ≤ 2 ^ 38) :
    ∃ low' high', (allocator.insertZone zone).Inserted (fun page => InZone zone page ∨ pages page)
      low' high' := by
  have inZone (page : Nat) : InZone zone page ↔
      firstPage zone ≤ page ∧ page < firstPage zone + pageCount zone := by
    unfold InZone pageCount firstPage
    rw [kAllocStartAddress_eq, kPageSizeBytes_eq]
    omega
  rw [insertZone_eq small]
  rcases Nat.eq_zero_or_pos (pageCount zone) with none | some
  · rw [none]
    refine ⟨low, high, inserted.pools, fun page => ?_, inserted.counted, inserted.unused⟩
    rw [inserted.members, inZone, none, or_iff_right]
    omega
  · have below : firstPage zone + pageCount zone ≤ 131072 := by
      unfold pageCount at some ⊢
      omega
    have above : 16 ≤ firstPage zone := Nat.le_max_left 16 _
    obtain ⟨low', high', after⟩ := inserted.insertRange above below
    refine ⟨low', high', after.pools, fun page => ?_, after.counted, after.unused⟩
    rw [after.members, inZone]

/-- The loop over the memory map inserts the available zones. -/
theorem Inserted.insertZones (inserted : allocator.Inserted pages low high) {map : MemoryMap}
    {current : BitVec 32} {entries : List MemoryMapEntry} (lists : map.Lists current entries)
    (zones : ∀ zone ∈ MemoryMap.available entries,
      zone.size ≠ 0 ∧ zone.ptr.toNat + zone.size.toNat ≤ 2 ^ 38) :
    ∃ after low' high', (∀ rounds, entries.length < rounds →
        PhysicalAllocator.insertZones map rounds current allocator = some after) ∧
      after.Inserted (fun page => Usable entries page ∨ pages page) low' high' := by
  -- Each round takes one available zone off the list of entries.
  induction size : entries.length using Nat.strongRecOn generalizing entries current allocator pages
    low high with
  | ind size ih =>
      subst size
      rcases lists.next with ⟨none, address, ends⟩ |
        ⟨zone, address, rest, some, finds, later, shorter⟩
      · refine ⟨allocator, low, high, fun rounds enough => ?_, inserted.pools, fun page => ?_,
          inserted.counted, inserted.unused⟩
        · obtain ⟨rounds, rfl⟩ :=
            Nat.exists_eq_add_one_of_ne_zero (Nat.ne_of_gt (Nat.zero_lt_of_lt enough))
          rw [PhysicalAllocator.insertZones, ends _ enough]
          rfl
        · rw [inserted.members, or_iff_right]
          rintro ⟨zone, member, -⟩
          rw [none] at member
          cases member
      · have zoned := zones zone (some ▸ List.mem_cons_self)
        obtain ⟨low', high', next⟩ := inserted.insertZone zoned.2
        obtain ⟨after, low'', high'', inserts, final⟩ := ih rest.length shorter next later
          (fun other member => zones other (some ▸ List.mem_cons_of_mem _ member)) rfl
        have given : zone.empty = false := by
          rw [MemoryZone.empty, decide_eq_false zoned.1, Bool.and_false]
        refine ⟨after, low'', high'', fun rounds enough => ?_, final.pools, fun page => ?_,
          final.counted, final.unused⟩
        · obtain ⟨rounds, rfl⟩ :=
            Nat.exists_eq_add_one_of_ne_zero (Nat.ne_of_gt (Nat.zero_lt_of_lt enough))
          rw [PhysicalAllocator.insertZones, finds _ enough]
          dsimp only
          rw [given, if_neg Bool.false_ne_true]
          exact inserts rounds (shorter.trans_le (Nat.le_of_lt_succ enough))
        · rw [final.members, ← or_assoc]
          refine or_congr_left ?_
          unfold Usable
          rw [some, List.exists_mem_cons_iff, or_comm]

end PhysicalAllocator

/-! ## Requests -/

namespace Heap

open PhysicalAllocator

variable {heap : Heap} {usable low high taken : List Nat}

/-- The pages that can be obtained. -/
def obtainable (heap : Heap) : List Nat := heap.allocator.obtainable

/-- Every usable page is either on a stack or handed out, and the pages handed out are
counted. -/
structure Sound (usable : List Nat) (heap : Heap) (low high taken : List Nat) : Prop where
  pools : heap.allocator.Pools low high taken
  addresses : heap.outstanding = taken.map fun page => page * kPageSizeBytes
  conserved : (low ++ high ++ taken).Perm usable
  counted : heap.allocator.physical_memory_used.toNat = kPageSizeBytes * taken.length

/-- What the user of the allocator sees: no page is lost or handed out twice, and
`physical_memory_used` counts the pages handed out. -/
structure Accounted (usable : List Nat) (heap : Heap) : Prop where
  conserved : (heap.obtainable ++ heap.outstanding.map fun addr => addr / kPageSizeBytes).Perm usable
  different : heap.outstanding.Nodup
  used : heap.allocator.physical_memory_used.toNat = kPageSizeBytes * heap.outstanding.length

/-- A page that could be obtained and was not handed out is at the address. -/
def Granted (heap : Heap) (addr : Nat) : Prop :=
  addr ∉ heap.outstanding ∧ ∃ page ∈ heap.obtainable, addr = page * kPageSizeBytes

/-- The request is served: an allocation hands out a page unless no suitable one is left, and
a freed page can be obtained again. -/
def Served (heap : Heap) : Request → Prop
  | .alloc =>
      (heap.allocator.alloc.1 = 0 ∧ heap.obtainable = []) ∨ Granted heap heap.allocator.alloc.1
  | .alloc32 =>
      (heap.allocator.alloc32.1 = 0 ∧
        ∀ page ∈ heap.obtainable, 2 ^ 32 < (page + 1) * kPageSizeBytes) ∨
      Granted heap heap.allocator.alloc32.1 ∧ heap.allocator.alloc32.1 + kPageSizeBytes ≤ 2 ^ 32
  | .free addr => addr / kPageSizeBytes ∈ (heap.step (.free addr)).obtainable

/-- Only addresses that were handed out are freed. -/
def FreesOutstanding (heap : Heap) : Request → Prop
  | .free addr => addr ∈ heap.outstanding
  | _ => True

theorem Sound.accounted (sound : Sound usable heap low high taken) : heap.Accounted usable := by
  have positive : 0 < kPageSizeBytes := by decide
  have back : heap.outstanding.map (fun addr => addr / kPageSizeBytes) = taken := by
    rw [sound.addresses, List.map_map]
    exact List.map_id'' (fun page => Nat.mul_div_cancel page positive) taken
  refine ⟨?_, ?_, ?_⟩
  · rw [back, obtainable, sound.pools.obtainable_eq]
    exact sound.conserved
  · rw [sound.addresses]
    refine (List.nodup_append.mp sound.pools.nodup).2.1.map fun page other same => ?_
    exact Nat.eq_of_mul_eq_mul_right positive same
  · rw [sound.counted, sound.addresses, List.length_map]

/-- An allocation that hands out a page. -/
theorem Sound.hands (sound : Sound usable heap low high taken) {page : Nat}
    {result : Nat × PhysicalAllocator} (hands : Hands heap.allocator low high taken page result) :
    Granted heap result.1 ∧
      ∃ low' high', Sound usable (heap.receive result) low' high' (page :: taken) := by
  have pools := sound.pools
  have positive : 0 < kPageSizeBytes := by decide
  obtain ⟨low', high', perm, after⟩ := hands.pools
  have apart : page ∉ taken := fun member =>
    (List.nodup_append.mp pools.nodup).2.2 page hands.member page member rfl
  have some : 0 < page := by
    rcases List.mem_append.mp hands.member with low | high
    · exact Nat.lt_of_lt_of_le (by decide) (pools.lowPages page low).1
    · exact Nat.lt_of_lt_of_le (by decide) (pools.highPages page high).1
  have address : result.1 ≠ 0 := by
    rw [hands.address]
    exact Nat.ne_of_gt (Nat.mul_pos some positive)
  refine ⟨⟨?_, page, ?_, hands.address⟩, low', high', after, ?_, ?_, ?_⟩
  · rw [hands.address, sound.addresses, List.mem_map]
    rintro ⟨other, member, same⟩
    exact apart (Nat.eq_of_mul_eq_mul_right positive same ▸ member)
  · rw [obtainable, pools.obtainable_eq]
    exact hands.member
  · unfold receive
    dsimp only
    rw [if_neg address, hands.address, sound.addresses, List.map_cons]
  · have moved : (low' ++ high' ++ page :: taken).Perm (low ++ high ++ taken) :=
      List.perm_middle.trans (perm.symm.append_right taken)
    exact moved.trans sound.conserved
  · have bounded := after.length_le
    have counted := sound.counted
    rw [physical_memory_used] at counted
    rw [List.length_append, List.length_cons] at bounded
    change result.2.used_phys_memory_.toNat = _
    rw [hands.counted, BitVec.toNat_add, counted, BitVec.toNat_ofNat, List.length_cons,
      kPageSizeBytes_eq]
    omega

/-- A request that fails. -/
theorem Sound.fails (sound : Sound usable heap low high taken) {result : Nat × PhysicalAllocator}
    (none : result.1 = 0) (pools : result.2.Pools low high taken)
    (counted : result.2.used_phys_memory_ = heap.allocator.used_phys_memory_) :
    Sound usable (heap.receive result) low high taken := by
  refine ⟨pools, ?_, sound.conserved, ?_⟩
  · unfold receive
    dsimp only
    rw [if_pos none]
    exact sound.addresses
  · exact (congrArg BitVec.toNat counted).trans sound.counted

/-- Freeing a page that was handed out. -/
theorem Sound.free (sound : Sound usable heap low high taken) {addr : Nat}
    (outstanding : addr ∈ heap.outstanding) :
    heap.Served (.free addr) ∧
      ∃ low' high' taken', Sound usable (heap.step (.free addr)) low' high' taken' := by
  have positive : 0 < kPageSizeBytes := by decide
  rw [sound.addresses] at outstanding
  obtain ⟨page, member, same⟩ := List.mem_map.mp outstanding
  have address : addr = page * kPageSizeBytes := same.symm
  subst address
  obtain ⟨counted, low', high', perm, after⟩ := sound.pools.free_page member
  constructor
  · unfold Served obtainable step
    dsimp only
    rw [after.obtainable_eq, Nat.mul_div_cancel page positive, perm.mem_iff]
    exact List.mem_cons_self
  · refine ⟨low', high', taken.erase page, after, ?_, ?_, ?_⟩
    · have injective : Function.Injective fun page => page * kPageSizeBytes :=
        fun first second same => Nat.eq_of_mul_eq_mul_right positive same
      unfold step
      dsimp only
      rw [sound.addresses, List.map_erase injective]
    · have back : (page :: (low ++ high) ++ taken.erase page).Perm (low ++ high ++ taken) :=
        List.perm_middle.symm.trans ((List.perm_cons_erase member).symm.append_left (low ++ high))
      exact ((perm.append_right _).trans back).trans sound.conserved
    · have before := sound.counted
      have length := List.length_erase_of_mem member
      have some := List.length_pos_of_mem member
      have bounded := sound.pools.length_le
      rw [physical_memory_used] at before
      rw [List.length_append] at bounded
      have stepped : (heap.step (.free (page * kPageSizeBytes))).allocator =
          heap.allocator.free (page * kPageSizeBytes) := rfl
      rw [stepped, physical_memory_used, counted, BitVec.toNat_sub, before, BitVec.toNat_ofNat, length, kPageSizeBytes_eq]
      omega

/-- **Every request is served and keeps the pages accounted for.** -/
theorem Sound.step (sound : Sound usable heap low high taken) {request : Request}
    (frees : heap.FreesOutstanding request) :
    heap.Served request ∧
      ∃ low' high' taken', Sound usable (heap.step request) low' high' taken' := by
  have pools := sound.pools
  have obtainable_eq : heap.obtainable = low ++ high := pools.obtainable_eq
  cases request with
  | alloc =>
      rcases pools.alloc with ⟨none, fails, after, counted⟩ | ⟨page, hands⟩
      · exact ⟨.inl ⟨fails, obtainable_eq.trans none⟩, _, _, _, sound.fails fails after counted⟩
      · obtain ⟨granted, low', high', next⟩ := sound.hands hands
        exact ⟨.inr granted, _, _, _, next⟩
  | alloc32 =>
      rcases pools.alloc32 with ⟨none, fails, after, counted⟩ | ⟨page, small, hands⟩
      · refine ⟨.inl ⟨fails, fun page member => ?_⟩, _, _, _, sound.fails fails after counted⟩
        rw [obtainable_eq, none, List.nil_append] at member
        have above := (pools.highPages page member).1
        rw [kPageSizeBytes_eq]
        omega
      · obtain ⟨granted, low', high', next⟩ := sound.hands hands
        refine ⟨.inr ⟨granted, ?_⟩, _, _, _, next⟩
        rw [hands.address, kPageSizeBytes_eq]
        omega
  | free addr => exact sound.free frees

/-! ## From boot on -/

/-- **The physical pages from boot on.** The constructor goes through the whole memory map and
makes exactly the usable pages obtainable, each once. Whatever is requested then, as long as
only outstanding pages are freed, every request is served and the pages stay accounted for. -/
theorem physical_memory (memory_32 memory_64 : Nat → Nat) (map : MemoryMap)
    (entries : List MemoryMapEntry) (lists : map.Lists map.start entries)
    (zones : ∀ zone ∈ MemoryMap.available entries,
      zone.size ≠ 0 ∧ zone.ptr.toNat + zone.size.toNat ≤ 2 ^ 38)
    (enough : ∃ pages : List Nat, pages.Nodup ∧ (∀ page ∈ pages, Usable entries page) ∧
      94 * MiB ≤ kPageSizeBytes * pages.length) :
    ∃ allocator, (∀ rounds, entries.length < rounds →
        construct memory_32 memory_64 map rounds = some allocator) ∧
      allocator.obtainable.Nodup ∧ (∀ page, page ∈ allocator.obtainable ↔ Usable entries page) ∧
      ∀ requests, Transition.Along step FreesOutstanding { allocator } requests →
        Transition.Along step Served { allocator } requests ∧
          (Transition.run step { allocator } requests).Accounted allocator.obtainable := by
  obtain ⟨allocator, low, high, constructs, inserted⟩ :=
    (inserted_empty memory_32 memory_64).insertZones lists zones
  have pools := inserted.pools
  have free : allocator.obtainable = low ++ high := pools.obtainable_eq
  have nodup : (low ++ high).Nodup := (List.nodup_append.mp pools.nodup).1
  have members (page : Nat) : page ∈ low ++ high ↔ Usable entries page :=
    (inserted.members page).trans (or_iff_left not_false)
  have large : ¬ allocator.available_phys_memory_ < BitVec.ofNat 64 (94 * MiB) := by
    obtain ⟨pages, different, each, size⟩ := enough
    have fewer := (different.subperm fun page member =>
      (members page).mpr (each page member)).length_le
    have limit : (BitVec.ofNat 64 (94 * MiB)).toNat = 94 * MiB := by decide
    rw [BitVec.lt_def, Nat.not_lt, inserted.counted, limit]
    exact size.trans (Nat.mul_le_mul_left _ fewer)
  have start : Sound (low ++ high) { allocator } low high [] := by
    refine ⟨pools, rfl, ?_, ?_⟩
    · rw [List.append_nil]
    · exact congrArg BitVec.toNat inserted.unused
  refine ⟨allocator, fun rounds more => ?_, free ▸ nodup, free ▸ members, fun requests along => ?_⟩
  · rw [construct, constructs rounds more]
    dsimp only
    rw [if_neg large]
  · rw [free]
    let invariant (heap : Heap) : Prop := ∃ low' high' taken, Sound (low ++ high) heap low' high' taken
    have keeps (heap : Heap) (request : Request) (sound : invariant heap)
        (frees : heap.FreesOutstanding request) : invariant (heap.step request) := by
      obtain ⟨low', high', taken, sound⟩ := sound
      exact (sound.step frees).2
    have serves (heap : Heap) (request : Request) (sound : invariant heap)
        (frees : heap.FreesOutstanding request) : heap.Served request := by
      obtain ⟨low', high', taken, sound⟩ := sound
      exact (sound.step frees).1
    have begins : invariant { allocator } := ⟨low, high, [], start⟩
    refine ⟨Transition.Along.of_invariant invariant keeps serves begins along, ?_⟩
    obtain ⟨low', high', taken, sound⟩ := Transition.run_invariant invariant keeps begins along
    exact sound.accounted

/-- The memory map of a machine with 2 GiB. -/
def map_two_gib : MemoryMap where
  entryAt address :=
    if address = 0x9000 then ⟨20, 0, 0x9fc00, 1⟩
    else if address = 0x9018 then ⟨20, 0x9fc00, 0x400, 2⟩
    else ⟨20, 0x100000, 0x7fee0000, 1⟩
  start := 0x9000
  len := 72

theorem physical_memory_two_gib : ∃ allocator,
    (∀ rounds, 3 < rounds → construct (fun _ => 7) (fun _ => 7) map_two_gib rounds = some allocator) ∧
      Transition.Along step Served { allocator } [.alloc, .alloc32] ∧
      (Transition.run step { allocator } [.alloc, .alloc32]).Accounted allocator.obtainable := by
  let entries : List MemoryMapEntry :=
    [⟨20, 0, 0x9fc00, 1⟩, ⟨20, 0x9fc00, 0x400, 2⟩, ⟨20, 0x100000, 0x7fee0000, 1⟩]
  have lists : map_two_gib.Lists 0x9000 entries :=
    ⟨by decide, rfl, by decide, by decide, rfl, by decide, by decide, rfl, by decide,
      (by decide : (0x9048 : BitVec 32) ≤ 0x9048)⟩
  have zones : ∀ zone ∈ MemoryMap.available entries,
      zone.size ≠ 0 ∧ zone.ptr.toNat + zone.size.toNat ≤ 2 ^ 38 := by decide
  have usable (page : Nat) (member : page ∈ List.range' 16 64) : Usable entries page := by
    obtain ⟨above, below⟩ := List.mem_range'_1.mp member
    have first : (0x100000 : BitVec 64).toNat = 1048576 := by decide
    have length : (0x7fee0000 : BitVec 64).toNat = 2146304000 := by decide
    refine ⟨⟨0x100000, 0x7fee0000⟩, by decide, ?_⟩
    rw [InZone, kAllocStartAddress_eq, kPageSizeBytes_eq, first, length]
    omega
  obtain ⟨allocator, constructs, -, -, serves⟩ := physical_memory (fun _ => 7) (fun _ => 7)
    map_two_gib entries lists zones ⟨List.range' 16 64, List.nodup_range', usable, by decide⟩
  exact ⟨allocator, constructs, serves [.alloc, .alloc32] ⟨trivial, trivial, trivial⟩⟩

end Heap

end JsOS.Kernel
