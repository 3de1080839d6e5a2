import JsOS.Kernel.Mapping

/-! # The page tables as a map that is updated

`MapPage` should update a map of pages: a page is wherever it was mapped most recently. It
refines that map only where pages are not moved: a page that is mapped already keeps its
entry, whatever it is mapped to, so that an address is translated by the first mapping of
its page.
-/

namespace JsOS.Kernel

namespace AddressSpace

/-- The arguments of a call of `MapPage`. -/
structure MapCall where
  virtaddr : BitVec 64
  physaddr : BitVec 64
  writethrough : Bool

/-- Calls of `MapPage`, one after another. -/
def mapPages (space : AddressSpace) (calls : List MapCall) : Option AddressSpace :=
  calls.foldlM
    (fun space call => space.mapPage call.virtaddr call.physaddr call.writethrough) space

/-- The number of an address's page. -/
def pageNumber (virtaddr : BitVec 64) : Nat := virtaddr.toNat / kPageSizeBytes

/-! ## The map that is meant -/

/-- The calls that passed an address's page. -/
def callsFor (calls : List MapCall) (virtaddr : BitVec 64) : List MapCall :=
  calls.filter fun call => pageNumber call.virtaddr = pageNumber virtaddr

/-- The physical page that was passed most recently for an address's page. -/
def mostRecent (calls : List MapCall) (virtaddr : BitVec 64) : Option (BitVec 64) :=
  (callsFor calls virtaddr).getLast?.map fun call => PhysicalAllocator.pageAligned call.physaddr

/-- The physical page that was passed first for it. -/
def earliest (calls : List MapCall) (virtaddr : BitVec 64) : Option (BitVec 64) :=
  (callsFor calls virtaddr).head?.map fun call => PhysicalAllocator.pageAligned call.physaddr

/-- The address that a page and an offset in it make; no page makes the null pointer. -/
def physicalAddress (page : Option (BitVec 64)) (virtaddr : BitVec 64) : BitVec 64 :=
  page.elim 0 fun page => page + VirtualAddress.page_offset ⟨virtaddr⟩

/-! ## Pages and indices -/

/-- Nine bits of an address, from a place on. -/
theorem toNat_field (address : BitVec 64) (bits : Nat) :
    ((address >>> bits) &&& 0x1FF).toNat = address.toNat / 2 ^ bits % 512 := by
  have mask : (0x1FF : BitVec 64).toNat = 2 ^ 9 - 1 := by decide
  rw [BitVec.toNat_and, BitVec.toNat_ushiftRight, mask, Nat.and_two_pow_sub_one_eq_mod,
    Nat.shiftRight_eq_div_pow]

/-- **The indices of an address determine its page**, but for the bits above them. -/
theorem samePage_iff_mod {first second : BitVec 64} :
    SamePage first second ↔ pageNumber first % 2 ^ 27 = pageNumber second % 2 ^ 27 := by
  have size : kPageSizeBytes = 2097152 := by decide
  unfold SamePage path pageNumber VirtualAddress.pml4_offset VirtualAddress.pdp_offset
    VirtualAddress.pd_offset
  rw [List.cons.injEq, List.cons.injEq, toNat_field, toNat_field, toNat_field, toNat_field,
    toNat_field, toNat_field, size]
  dsimp only
  constructor
  · intro same
    obtain ⟨⟨pml4, pdp, -⟩, pd⟩ := same
    omega
  · intro same
    refine ⟨⟨?_, ?_, rfl⟩, ?_⟩ <;> omega

theorem samePage_iff {first second : BitVec 64} (smallFirst : first.toNat < 2 ^ 48)
    (smallSecond : second.toNat < 2 ^ 48) :
    SamePage first second ↔ pageNumber first = pageNumber second := by
  have size : kPageSizeBytes = 2097152 := by decide
  rw [samePage_iff_mod]
  unfold pageNumber
  rw [size]
  omega

theorem translate_congr {space : AddressSpace} {first second : BitVec 64}
    (same : SamePage first second) : space.translate first = space.translate second := by
  unfold translate
  rw [same.1, same.2]

/-! ## From the constructor on -/

/-- The constructor makes a tree of one table. -/
theorem built_new (memory : BitVec 64 → Nat → BitVec 64) :
    (new memory).Built ∧ ∀ virtaddr, (new memory).translate virtaddr = none := by
  have zero (index : Nat) : (new memory).entries pml4_table_ index = 0 := by
    unfold new
    dsimp only
    rw [if_pos rfl]
  have below (index : Nat) (rest : List Nat) :
      Radix.descend format (new memory).entries pml4_table_ (index :: rest) = none := by
    rw [Radix.descend, zero, link_zero]
    rfl
  have only (way : List Nat) (table : BitVec 64)
      (found : Radix.descend format (new memory).entries pml4_table_ way = some table) :
      way = [] ∧ pml4_table_ = table := by
    cases way with
    | nil => exact ⟨rfl, Option.some.inj found⟩
    | cons index rest =>
        rw [below] at found
        cases found
  refine ⟨⟨⟨fun first second table _ _ one two => ?_, fun way table _ found => ?_⟩,
    Nat.one_pos, (by decide : 1 ≤ 1536)⟩, fun virtaddr => translate_of_absent (below _ _)⟩
  · rw [(only first table one).1, (only second table two).1]
  · exact ⟨0, Nat.one_pos, (only way table found).2.symm⟩

/-- A table is there while the zone has room. -/
theorem allocTable_of_room {space : AddressSpace} (room : space.tables_taken_ < 1536) :
    space.allocTable = some (tableAddress space.tables_taken_,
      ⟨cleared space.entries (tableAddress space.tables_taken_), space.tables_taken_ + 1⟩) := by
  have zone : kAllocStartAddress - kPageDirectoryStart = 1536 * 4096 := by decide
  have size : 4 * KiB = 4096 := by decide
  unfold allocTable
  rw [zone, size, if_pos (Nat.mul_lt_mul_of_pos_right room (by decide))]
  rfl

/-- **Only the size of the zone limits `MapPage`.** -/
theorem mapPage_isSome {space : AddressSpace}
    (room : space.tables_taken_ + 2 ≤ 1536) (virtaddr : BitVec 64) {physaddr : BitVec 64}
    (small : physaddr.toNat < 2 ^ 52) (writethrough : Bool) :
    ∃ after, space.mapPage virtaddr physaddr writethrough = some after := by
  obtain ⟨word, encodes, -⟩ := pageWord (isPage_pageAligned small) writethrough
  obtain ⟨link, links, -⟩ := directoryWord (Nat.le_of_lt (Nat.lt_of_succ_lt room))
  obtain ⟨upper, linksUpper, -⟩ := directoryWord (Nat.le_of_lt room)
  have took := allocTable_of_room (Nat.lt_of_succ_lt room)
  unfold mapPage
  dsimp only
  cases linked : format.link
      (space.entries pml4_table_ (VirtualAddress.pml4_offset ⟨virtaddr⟩)) with
  | none =>
      rw [walk_of_pml4 linked]
      simp only [createPde, createPdpe, createPml4e, tableOrNew, if_true, Option.bind_eq_bind,
        Option.bind_some, Bool.false_eq_true, if_false, Option.pure_def, took, encodes, links]
      have roomNext : ((AddressSpace.mk (cleared space.entries (tableAddress space.tables_taken_))
          (space.tables_taken_ + 1)).setEntry (tableAddress space.tables_taken_)
            (VirtualAddress.pd_offset ⟨virtaddr⟩) word).tables_taken_ < 1536 := room
      rw [allocTable_of_room roomNext]
      simp only [Option.bind_some]
      refine ⟨_, Option.bind_eq_some_iff.mpr ⟨upper, linksUpper, rfl⟩⟩
  | some pdp =>
      cases next : format.link (space.entries pdp (VirtualAddress.pdp_offset ⟨virtaddr⟩)) with
      | none =>
          rw [walk_of_pdp linked next]
          simp only [createPde, createPdpe, createPml4e, tableOrNew, if_true, Option.bind_eq_bind,
            Option.bind_some, Bool.false_eq_true, if_false, Option.pure_def, took, encodes, links]
          exact ⟨_, rfl⟩
      | some pd =>
          cases held : format.leaf
              (space.entries pd (VirtualAddress.pd_offset ⟨virtaddr⟩)) with
          | none =>
              rw [walk_of_pd linked next held]
              simp only [createPde, createPdpe, createPml4e, tableOrNew, if_true,
                Option.bind_eq_bind, Option.bind_some, Bool.false_eq_true, if_false,
                Option.pure_def, encodes]
              exact ⟨_, rfl⟩
          | some page =>
              rw [walk_of_page linked next held]
              by_cases same : PhysicalAllocator.pageAligned physaddr = page
              · exact ⟨space, if_pos (decide_eq_true same)⟩
              · exact ⟨space, if_neg fun done => same (of_decide_eq_true done)⟩

/-! ## Sequences of calls -/

/-- The arguments are in the range of the tables. -/
def InRange (call : MapCall) : Prop := call.virtaddr.toNat < 2 ^ 48 ∧ call.physaddr.toNat < 2 ^ 52

instance (call : MapCall) : Decidable (InRange call) := inferInstanceAs (Decidable (_ ∧ _))

theorem earliest_cons (call : MapCall) (calls : List MapCall) (virtaddr : BitVec 64) :
    earliest (call :: calls) virtaddr =
      if pageNumber virtaddr = pageNumber call.virtaddr then
        some (PhysicalAllocator.pageAligned call.physaddr)
      else earliest calls virtaddr := by
  unfold earliest callsFor
  rw [List.filter_cons]
  by_cases same : pageNumber virtaddr = pageNumber call.virtaddr
  · rw [if_pos same, if_pos (decide_eq_true same.symm)]
    rfl
  · rw [if_neg same, if_neg fun found => same (of_decide_eq_true found).symm]

/-- **The first mapping of a page stays.** -/
theorem Built.mapPages {space after : AddressSpace} (built : space.Built) {calls : List MapCall}
    (range : ∀ call ∈ calls, InRange call) (mapped : space.mapPages calls = some after)
    {virtaddr : BitVec 64} (small : virtaddr.toNat < 2 ^ 48) :
    after.Built ∧
      after.translate virtaddr = (space.translate virtaddr).or (earliest calls virtaddr) := by
  induction calls generalizing space with
  | nil =>
      cases Option.some.inj mapped
      exact ⟨built, (Option.or_none).symm⟩
  | cons call calls ih =>
      obtain ⟨next, first, rest⟩ := Option.bind_eq_some_iff.mp mapped
      obtain ⟨here, later⟩ := List.forall_mem_cons.mp range
      obtain ⟨nextBuilt, adds⟩ := built.mapPage here.2 first
      obtain ⟨afterBuilt, translated⟩ := ih nextBuilt later rest
      refine ⟨afterBuilt, translated.trans ?_⟩
      rw [adds, earliest_cons]
      by_cases same : pageNumber virtaddr = pageNumber call.virtaddr
      · have samePage := (samePage_iff small here.1).mpr same
        rw [if_pos same, ← translate_congr samePage]
        cases held : space.translate virtaddr with
        | none =>
            rw [if_pos ⟨samePage, rfl⟩]
            rfl
        | some page =>
            rw [if_neg fun both => Option.some_ne_none page both.2]
            rfl
      · rw [if_neg same, if_neg fun both => same ((samePage_iff small here.1).mp both.1)]

/-- **What `VirtualToPhysical` gives after any calls of `MapPage`.** -/
theorem virtualToPhysical_mapPages {memory : BitVec 64 → Nat → BitVec 64} {calls : List MapCall}
    {after : AddressSpace} (range : ∀ call ∈ calls, InRange call)
    (mapped : (new memory).mapPages calls = some after) {virtaddr : BitVec 64}
    (small : virtaddr.toNat < 2 ^ 48) :
    after.virtualToPhysical virtaddr = physicalAddress (earliest calls virtaddr) virtaddr := by
  obtain ⟨built, unmapped⟩ := built_new memory
  rw [virtualToPhysical_eq, (built.mapPages range mapped small).2, unmapped, Option.none_or]
  rfl

/-- Nothing was passed first exactly when nothing was passed last. -/
theorem earliest_eq_none {calls : List MapCall} {virtaddr : BitVec 64} :
    earliest calls virtaddr = none ↔ mostRecent calls virtaddr = none := by
  unfold earliest mostRecent
  rw [Option.map_eq_none_iff, Option.map_eq_none_iff, List.head?_eq_none_iff,
    List.getLast?_eq_none_iff]

/-- **`MapPage` updates a map where pages are not moved.** After any calls of `MapPage`, an
address is translated by the page passed most recently for it exactly when that is the page
that was passed first. -/
theorem mapPage_updates_iff (memory : BitVec 64 → Nat → BitVec 64) (calls : List MapCall)
    (after : AddressSpace) (range : ∀ call ∈ calls, InRange call)
    (mapped : (new memory).mapPages calls = some after) (virtaddr : BitVec 64)
    (small : virtaddr.toNat < 2 ^ 48) :
    after.virtualToPhysical virtaddr = physicalAddress (mostRecent calls virtaddr) virtaddr ↔
      earliest calls virtaddr = mostRecent calls virtaddr := by
  rw [virtualToPhysical_mapPages range mapped small]
  constructor
  · intro same
    cases first : earliest calls virtaddr with
    | none => rw [earliest_eq_none.mp first]
    | some page =>
        cases last : mostRecent calls virtaddr with
        | none =>
            rw [earliest_eq_none.mpr last] at first
            cases first
        | some recent =>
            rw [first, last] at same
            have sums : page + VirtualAddress.page_offset ⟨virtaddr⟩ =
                recent + VirtualAddress.page_offset ⟨virtaddr⟩ := same
            rw [(BitVec.add_left_inj _).mp sums]
  · intro same
    rw [same]

/-- Two pages of one table, the first of them mapped to its page twice. -/
def twoPages : List MapCall :=
  [⟨0x8000000000, 0x2000000, false⟩, ⟨0x8000200000, 0x4000000, false⟩,
    ⟨0x8000000000, 0x2000800, false⟩]

theorem mapPage_updates_iff_twoPages :
    ∃ after, (new fun _ _ => 7).mapPages twoPages = some after ∧
      after.virtualToPhysical 0x8000000123 =
        physicalAddress (mostRecent twoPages 0x8000000123) 0x8000000123 := by
  have maps : ((new fun _ _ => 7).mapPages twoPages).isSome := by decide +kernel
  obtain ⟨after, mapped⟩ := Option.isSome_iff_exists.mp maps
  have range : ∀ call ∈ twoPages, InRange call := by decide +kernel
  refine ⟨after, mapped, ?_⟩
  exact (mapPage_updates_iff _ twoPages after range mapped 0x8000000123 (by decide)).mpr (by decide)

/-- A page that is moved. -/
def movedPage : List MapCall :=
  [⟨0x8000000000, 0x2000000, false⟩, ⟨0x8000000000, 0x4000000, false⟩]

/-- The page stays where it was. -/
theorem mapPage_ignores_move :
    (∀ call ∈ movedPage, InRange call) ∧
      ((new fun _ _ => 7).mapPages movedPage).map
          (fun space => space.virtualToPhysical 0x8000000123) = some 0x2000123 ∧
      physicalAddress (mostRecent movedPage 0x8000000123) 0x8000000123 = 0x4000123 := by
  decide +kernel

end AddressSpace

end JsOS.Kernel
