import JsOS.Kernel.PhysicalAllocator

/-! # Pages are handed out once

Whatever the memory map, and even where a stack is too small for it and drops pages, the
pages on the stacks are different ones. So an allocation never hands out a page that was
handed out before and not freed.
-/

namespace JsOS.Kernel

namespace PagesStack

variable {stack : PagesStack}

/-- A push adds a page, or is dropped. -/
theorem pages_push (inside : stack.currentLocation ≤ stack.location) {pageid : Nat} :
    ((stack.push pageid).pages = stack.pages ∨ (stack.push pageid).pages = pageid :: stack.pages) ∧
      (stack.push pageid).currentLocation ≤ (stack.push pageid).location := by
  by_cases full : stack.currentLocation = 0
  · have dropped : stack.push pageid = stack := if_pos full
    rw [dropped]
    exact ⟨.inl rfl, inside⟩
  · have pushed := words_push inside full pageid
    refine ⟨?_, ?_⟩
    · unfold pages
      rw [pushed, List.filter_cons]
      by_cases page : pageid = 0
      · rw [if_neg (ne_true_of_eq_false (decide_eq_false (not_not_intro page)))]
        exact .inl rfl
      · rw [if_pos (decide_eq_true page)]
        exact .inr rfl
    · unfold push
      rw [if_neg full]
      exact (Nat.sub_le _ _).trans inside

/-- A pop takes the first page, or there is none that can be taken now. -/
theorem pages_pop (inside : stack.currentLocation ≤ stack.location) :
    (stack.pop.1 = 0 ∧ stack.pop.2.pages = stack.pages ∨
      stack.pop.1 ≠ 0 ∧ stack.pages = stack.pop.1 :: stack.pop.2.pages) ∧
      stack.pop.2.currentLocation ≤ stack.pop.2.location := by
  rcases pop_cases inside with ⟨-, pops⟩ | ⟨word, rest, words, pops, left, location, below⟩
  · rw [pops]
    exact ⟨.inl ⟨rfl, rfl⟩, inside⟩
  · refine ⟨?_, ?_⟩
    · have taken : stack.pages = List.filter (fun word => word ≠ 0) (word :: rest) :=
        congrArg _ words
      have kept : stack.pop.2.pages = rest.filter fun word => word ≠ 0 := congrArg _ left
      rw [pops, kept, taken, List.filter_cons]
      by_cases page : word = 0
      · rw [if_neg (ne_true_of_eq_false (decide_eq_false (not_not_intro page)))]
        exact .inl ⟨page, rfl⟩
      · rw [if_pos (decide_eq_true page)]
        exact .inr ⟨page, rfl⟩
    · rw [location]
      exact below

end PagesStack

namespace PhysicalAllocator

/-- The pages on the stacks and those handed out, all different and below a limit. -/
structure Fresh (allocator : PhysicalAllocator) (limit : Nat) (taken : List Nat) : Prop where
  inside_32 : allocator.stack_32_.currentLocation ≤ allocator.stack_32_.location
  inside_64 : allocator.stack_64_.currentLocation ≤ allocator.stack_64_.location
  nodup : (allocator.obtainable ++ taken).Nodup
  below : ∀ page ∈ allocator.obtainable, page < limit

variable {allocator : PhysicalAllocator} {limit : Nat} {taken : List Nat}

/-! ## The constructor -/

/-- While the constructor runs, the pages inserted are marked as free. -/
structure Inserting (allocator : PhysicalAllocator) (limit : Nat) : Prop where
  fresh : allocator.Fresh limit []
  free : ∀ page ∈ allocator.obtainable, allocator.pages_status_ page = false

theorem inserting_empty (memory_32 memory_64 : Nat → Nat) (limit : Nat) :
    (empty memory_32 memory_64).Inserting limit := by
  have none (memory : Nat → Nat) : (PagesStack.new memory MiB).pages = [] :=
    (@PagesStack.holds_new 0 memory MiB (by decide)).pages_eq
  have inside (memory : Nat → Nat) := (@PagesStack.holds_new 0 memory MiB (by decide)).inside
  have all : (empty memory_32 memory_64).obtainable = [] := by
    unfold obtainable empty
    rw [none, none]
    rfl
  refine ⟨⟨inside memory_32, inside memory_64, ?_, ?_⟩, ?_⟩
  · rw [all]
    exact List.nodup_nil
  · rw [all]
    exact fun page member => absurd member List.not_mem_nil
  · rw [all]
    exact fun page member => absurd member List.not_mem_nil

/-- A push leaves the pages as they are, or adds the page. -/
theorem obtainable_push (fresh : allocator.Fresh limit taken) (page : Nat) :
    ((allocator.push page).obtainable.Perm allocator.obtainable ∨
      (allocator.push page).obtainable.Perm (page :: allocator.obtainable)) ∧
      (allocator.push page).stack_32_.currentLocation ≤ (allocator.push page).stack_32_.location ∧
      (allocator.push page).stack_64_.currentLocation ≤
        (allocator.push page).stack_64_.location := by
  unfold push obtainable
  split
  · obtain ⟨pages, inside⟩ := @PagesStack.pages_push _ fresh.inside_32 page
    refine ⟨pages.imp (fun same => ?_) fun more => ?_, inside, fresh.inside_64⟩
    · rw [same]
    · rw [more]
      rfl
  · obtain ⟨pages, inside⟩ := @PagesStack.pages_push _ fresh.inside_64 page
    refine ⟨pages.imp (fun same => ?_) fun more => ?_, fresh.inside_32, inside⟩
    · rw [same]
    · rw [more]
      exact List.perm_middle

theorem Inserting.congr {after : PhysicalAllocator} (inserting : allocator.Inserting limit)
    (same_32 : after.stack_32_ = allocator.stack_32_)
    (same_64 : after.stack_64_ = allocator.stack_64_)
    (status : after.pages_status_ = allocator.pages_status_) : after.Inserting limit := by
  have pages : after.obtainable = allocator.obtainable := by
    unfold obtainable
    rw [same_32, same_64]
  refine ⟨⟨same_32 ▸ inserting.fresh.inside_32, same_64 ▸ inserting.fresh.inside_64,
    pages ▸ inserting.fresh.nodup, pages ▸ inserting.fresh.below⟩, ?_⟩
  rw [pages, status]
  exact inserting.free

/-- A page that is not there is marked as free and pushed. -/
theorem Inserting.push (inserting : allocator.Inserting limit) {page : Nat} (below : page < limit)
    (absent : page ∉ allocator.obtainable) :
    ((allocator.setStatus page false).push page).Inserting limit := by
  have marked : (allocator.setStatus page false).Fresh limit [] :=
    ⟨inserting.fresh.inside_32, inserting.fresh.inside_64, inserting.fresh.nodup,
      inserting.fresh.below⟩
  obtain ⟨pages, inside_32, inside_64⟩ := obtainable_push marked page
  have nodup := inserting.fresh.nodup
  rw [List.append_nil] at nodup
  have status : ((allocator.setStatus page false).push page).pages_status_ =
      (allocator.setStatus page false).pages_status_ := by
    unfold PhysicalAllocator.push
    split <;> rfl
  have members (other : Nat)
      (member : other ∈ ((allocator.setStatus page false).push page).obtainable) :
      other = page ∨ other ∈ allocator.obtainable := by
    rcases pages with same | more
    · exact .inr (same.mem_iff.mp member)
    · exact List.mem_cons.mp (more.mem_iff.mp member)
  refine ⟨⟨inside_32, inside_64, ?_, fun other member => ?_⟩, fun other member => ?_⟩
  · rw [List.append_nil]
    rcases pages with same | more
    · exact same.nodup_iff.mpr nodup
    · exact more.nodup_iff.mpr (List.nodup_cons.mpr ⟨absent, nodup⟩)
  · rcases members other member with same | old
    · rw [same]
      exact below
    · exact inserting.fresh.below other old
  · rw [status]
    change (if other = page then false else allocator.pages_status_ other) = false
    rcases members other member with same | old
    · exact if_pos same
    · rw [inserting.free other old, ite_self]

/-- A page is inserted once at most. -/
theorem Inserting.insertPage (inserting : allocator.Inserting limit) {page : Nat}
    (below : page < limit) : (allocator.insertPage page).Inserting limit := by
  unfold PhysicalAllocator.insertPage
  split
  · exact inserting
  · next used =>
      have absent : page ∉ allocator.obtainable := fun member => used (inserting.free page member)
      exact (inserting.push below absent).congr rfl rfl rfl

theorem Inserting.insertZone (inserting : allocator.Inserting limit) {zone : MemoryZone}
    (below : zone.ptr.toNat + zone.size.toNat ≤ limit * kPageSizeBytes)
    (word : limit * kPageSizeBytes < 2 ^ 64) : (allocator.insertZone zone).Inserting limit := by
  have rounded : (pageAligned (zone.ptr + zone.size)).toNat / kPageSizeBytes ≤ limit := by
    have size : 0 < kPageSizeBytes := by decide
    have aligned : (pageAligned (zone.ptr + zone.size)).toNat ≤ (zone.ptr + zone.size).toNat :=
      (le_of_eq (Rounding.toNat_and_not_ones 21 _)).trans (Nat.div_mul_le_self _ _)
    have sum : (zone.ptr + zone.size).toNat = zone.ptr.toNat + zone.size.toNat := by
      rw [BitVec.toNat_add, Nat.mod_eq_of_lt (below.trans_lt word)]
    rw [sum] at aligned
    exact Nat.div_le_of_le_mul ((aligned.trans below).trans_eq (Nat.mul_comm _ _))
  have all (pages : List Nat) (each : ∀ page ∈ pages, page < limit) :
      (pages.foldl PhysicalAllocator.insertPage allocator).Inserting limit := by
    refine List.foldlRecOn (motive := fun before : PhysicalAllocator => before.Inserting limit) pages _ inserting ?_
    intro before held page member
    exact held.insertPage (each page member)
  unfold PhysicalAllocator.insertZone insertPagesRange
  dsimp only
  generalize (if alignPtr zone.ptr < BitVec.ofNat 64 kAllocStartAddress then
    BitVec.ofNat 64 kAllocStartAddress else alignPtr zone.ptr) = start
  split
  · exact inserting
  · split
    · exact inserting
    · apply all
      intro page member
      have range := List.mem_range'_1.mp member
      omega

/-- The loop over the memory map. -/
theorem Inserting.insertZones (inserting : allocator.Inserting limit) {map : MemoryMap}
    {current : BitVec 32} {entries : List MemoryMapEntry} (lists : map.Lists current entries)
    (below : ∀ zone ∈ MemoryMap.available entries,
      zone.ptr.toNat + zone.size.toNat ≤ limit * kPageSizeBytes)
    (word : limit * kPageSizeBytes < 2 ^ 64) {rounds : Nat} (enough : entries.length < rounds)
    {after : PhysicalAllocator}
    (inserted : PhysicalAllocator.insertZones map rounds current allocator = some after) :
    after.Inserting limit := by
  induction rounds generalizing entries current allocator with
  | zero => cases inserted
  | succ rounds ih =>
      rw [PhysicalAllocator.insertZones] at inserted
      rcases lists.next with ⟨none, address, ends⟩ |
        ⟨zone, address, rest, some, finds, later, shorter⟩
      · rw [ends _ enough] at inserted
        cases Option.some.inj inserted
        exact inserting
      · rw [finds _ enough] at inserted
        dsimp only at inserted
        split at inserted
        · cases Option.some.inj inserted
          exact inserting
        · have here := below zone (some ▸ List.mem_cons_self)
          exact ih (inserting.insertZone here word) later
            (fun other member => below other (some ▸ List.mem_cons_of_mem _ member))
            (shorter.trans_le (Nat.le_of_lt_succ enough)) inserted

/-- **The constructor inserts different pages.** -/
theorem fresh_construct {memory_32 memory_64 : Nat → Nat} {map : MemoryMap}
    {entries : List MemoryMapEntry} (lists : map.Lists map.start entries)
    (below : ∀ zone ∈ MemoryMap.available entries,
      zone.ptr.toNat + zone.size.toNat ≤ limit * kPageSizeBytes)
    (word : limit * kPageSizeBytes < 2 ^ 64) {rounds : Nat} (enough : entries.length < rounds)
    (constructed : construct memory_32 memory_64 map rounds = some allocator) :
    allocator.Fresh limit [] := by
  unfold construct at constructed
  split at constructed
  · cases constructed
  · next inserted =>
      split at constructed
      · cases constructed
      · cases Option.some.inj constructed
        exact ((inserting_empty memory_32 memory_64 limit).insertZones lists below word enough
          inserted).fresh

/-! ## Requests -/

/-- What an allocation gives: nothing, or a page that was not handed out. -/
def Gives (limit : Nat) (taken : List Nat) (result : Nat × PhysicalAllocator) : Prop :=
  (result.1 = 0 ∧ result.2.Fresh limit taken) ∨
    ∃ page, result.1 = page * kPageSizeBytes ∧ page < limit ∧ page ∉ taken ∧
      result.2.Fresh limit (page :: taken)

/-- The top of a stack is handed out. -/
theorem Fresh.hand (fresh : allocator.Fresh limit taken) {after : PhysicalAllocator} {page : Nat}
    (inside_32 : after.stack_32_.currentLocation ≤ after.stack_32_.location)
    (inside_64 : after.stack_64_.currentLocation ≤ after.stack_64_.location)
    (nonzero : page ≠ 0) (perm : allocator.obtainable.Perm (page :: after.obtainable)) :
    Gives limit taken (after.hand page) := by
  have nodup := (perm.append_right taken).nodup_iff.mp fresh.nodup
  have member : page ∈ allocator.obtainable := perm.mem_iff.mpr List.mem_cons_self
  have apart : page ∉ taken := fun old => (List.nodup_cons.mp nodup).1 (List.mem_append_right _ old)
  unfold PhysicalAllocator.hand
  rw [if_neg nonzero]
  refine .inr ⟨page, rfl, fresh.below page member, apart, inside_32, inside_64,
    (List.perm_middle.nodup_iff).mpr nodup, fun other inside => ?_⟩
  exact fresh.below other (perm.mem_iff.mpr (List.mem_cons_of_mem _ inside))

/-- **`alloc32` hands out a page once.** -/
theorem Fresh.alloc32 (fresh : allocator.Fresh limit taken) :
    Gives limit taken allocator.alloc32 := by
  obtain ⟨popped, inside⟩ := PagesStack.pages_pop fresh.inside_32
  unfold PhysicalAllocator.alloc32
  dsimp only
  rcases popped with ⟨none, same⟩ | ⟨some, more⟩
  · have all : PhysicalAllocator.obtainable
        { allocator with stack_32_ := allocator.stack_32_.pop.2 } = allocator.obtainable := by
      unfold obtainable
      rw [same]
    unfold PhysicalAllocator.hand
    rw [if_pos none]
    refine .inl ⟨rfl, inside, fresh.inside_64, ?_, ?_⟩
    · rw [all]
      exact fresh.nodup
    · rw [all]
      exact fresh.below
  · have perm : allocator.obtainable.Perm (allocator.stack_32_.pop.1 ::
        PhysicalAllocator.obtainable { allocator with stack_32_ := allocator.stack_32_.pop.2 }) := by
      unfold obtainable
      rw [more]
      exact List.Perm.refl _
    exact fresh.hand inside fresh.inside_64 some perm

/-- **`alloc` hands out a page once.** -/
theorem Fresh.alloc (fresh : allocator.Fresh limit taken) : Gives limit taken allocator.alloc := by
  obtain ⟨popped, inside⟩ := PagesStack.pages_pop fresh.inside_64
  unfold PhysicalAllocator.alloc
  dsimp only
  rcases popped with ⟨none, same⟩ | ⟨some, more⟩
  · have all : PhysicalAllocator.obtainable
        { allocator with stack_64_ := allocator.stack_64_.pop.2 } = allocator.obtainable := by
      unfold obtainable
      rw [same]
    rw [if_pos none]
    apply Fresh.alloc32
    refine ⟨fresh.inside_32, inside, ?_, ?_⟩
    · rw [all]
      exact fresh.nodup
    · rw [all]
      exact fresh.below
  · rw [if_neg some]
    have perm : allocator.obtainable.Perm (allocator.stack_64_.pop.1 ::
        PhysicalAllocator.obtainable { allocator with stack_64_ := allocator.stack_64_.pop.2 }) := by
      unfold obtainable
      rw [more]
      exact List.perm_middle
    exact fresh.hand fresh.inside_32 inside some perm

end PhysicalAllocator

end JsOS.Kernel
