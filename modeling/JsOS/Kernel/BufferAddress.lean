import JsOS.Kernel.PageMap

/-! # The physical memory behind a buffer

`BufferAddress` reports where a buffer lies in physical memory, for devices that read and
write it there. A buffer of at most a page lies on at most two, which need not be neighbours
in physical memory: where the physical address of its end is past a page boundary, the part
behind the boundary is looked up by its own virtual address.
-/

namespace JsOS.Kernel

/-- The array that `BufferAddress` returns, element by element. -/
structure BufferAddress where
  length : BitVec 32
  low : BitVec 32
  high : BitVec 32
  length2 : BitVec 32
  low2 : BitVec 32
  high2 : BitVec 32
  deriving DecidableEq, Repr

namespace AddressSpace

/-- `BufferAddress`, for an array of `length` bytes from `vaddr` on. It throws when the array
is empty, and has no result then. -/
def bufferAddress (space : AddressSpace) (vaddr length : BitVec 64) : Option BufferAddress :=
  if length = 0 then none
  else
    let pstart := space.virtualToPhysical vaddr
    let pend := pstart + length
    let pboundary := pend &&& ~~~0x1FFFFF
    if pstart < pboundary then
      let len1 := pboundary - pstart
      let len2 := length - len1
      let vaddr2 := vaddr + len1
      let pstart2 := space.virtualToPhysical vaddr2
      some ⟨len1.setWidth 32, pstart.setWidth 32, (pstart >>> 32).setWidth 32,
        len2.setWidth 32, pstart2.setWidth 32, (pstart2 >>> 32).setWidth 32⟩
    else
      some ⟨length.setWidth 32, pstart.setWidth 32, (pstart >>> 32).setWidth 32, 0, 0, 0⟩

end AddressSpace

/-! ## Segments -/

/-- A stretch of physical memory. -/
structure Segment where
  address : BitVec 64
  length : Nat
  deriving DecidableEq, Repr

/-- The addresses of its bytes. -/
def Segment.bytes (segment : Segment) : List (BitVec 64) :=
  (List.range segment.length).map fun i => segment.address + BitVec.ofNat 64 i

/-- The bytes are on one page. -/
def Segment.OnePage (segment : Segment) : Prop :=
  segment.address.toNat % kPageSizeBytes + segment.length ≤ kPageSizeBytes

/-- The one or two segments that are reported; a second one is there when it has a length. -/
def BufferAddress.segments (reported : BufferAddress) : List Segment :=
  ⟨reported.high ++ reported.low, reported.length.toNat⟩ ::
    if reported.length2 = 0 then []
    else [⟨reported.high2 ++ reported.low2, reported.length2.toNat⟩]

/-- The halves of an address make up the address. -/
theorem halves_append (address : BitVec 64) :
    ((address >>> 32).setWidth 32 ++ address.setWidth 32 : BitVec 64) = address := by
  have below := address.isLt
  apply BitVec.eq_of_toNat_eq
  rw [BitVec.toNat_append, ← Nat.shiftLeft_add_eq_or_of_lt (BitVec.isLt _), Nat.shiftLeft_eq,
    BitVec.toNat_setWidth, BitVec.toNat_setWidth, BitVec.toNat_ushiftRight,
    Nat.shiftRight_eq_div_pow]
  omega

namespace AddressSpace

variable {space : AddressSpace} {vaddr page : BitVec 64}

/-! ## Addresses on a page -/

theorem toNat_page_offset (vaddr : BitVec 64) :
    (VirtualAddress.page_offset ⟨vaddr⟩).toNat = vaddr.toNat % kPageSizeBytes := by
  have mask : (0x1FFFFF : BitVec 64).toNat = 2 ^ 21 - 1 := by decide
  rw [VirtualAddress.page_offset, BitVec.toNat_and, mask, Nat.and_two_pow_sub_one_eq_mod]
  rfl

/-- Whatever the tables hold, an address is translated to a page. -/
theorem isPage_translate (mapped : space.translate vaddr = some page) : IsPage page := by
  obtain ⟨table, _, held⟩ := Option.bind_eq_some_iff.mp mapped
  obtain ⟨_, rfl⟩ := present_of_leaf held
  generalize space.entries table _ = word
  have field : (0xFFFFFFFE00000 : BitVec 64).toNat = 0xFFFFFFFE00000 := by decide
  have masked : (PDEntry.decode word).pageAddress.toNat = word.toNat &&& 0xFFFFFFFE00000 :=
    (BitVec.toNat_and word _).trans (congrArg _ field)
  constructor
  · rw [masked, Nat.and_mod_two_pow]
    exact Nat.and_zero _
  · rw [masked]
    exact Nat.lt_of_le_of_lt Nat.and_le_right (by decide)

theorem toNat_virtualToPhysical (mapped : space.translate vaddr = some page) :
    (space.virtualToPhysical vaddr).toNat = page.toNat + vaddr.toNat % kPageSizeBytes := by
  have small := (isPage_translate mapped).2
  have offset : vaddr.toNat % kPageSizeBytes < 2 ^ 21 := Nat.mod_lt _ (by decide)
  rw [virtualToPhysical_eq, mapped]
  change (page + VirtualAddress.page_offset ⟨vaddr⟩).toNat = _
  rw [BitVec.toNat_add, toNat_page_offset, Nat.mod_eq_of_lt]
  omega

/-- Addresses on one virtual page are as far apart in physical memory. -/
theorem virtualToPhysical_add (mapped : (space.translate vaddr).isSome) {i : Nat}
    (inside : vaddr.toNat % kPageSizeBytes + i < kPageSizeBytes) :
    space.virtualToPhysical (vaddr + BitVec.ofNat 64 i) =
      space.virtualToPhysical vaddr + BitVec.ofNat 64 i := by
  obtain ⟨page, found⟩ := Option.isSome_iff_exists.mp mapped
  have size : kPageSizeBytes = 2097152 := by decide
  have below := vaddr.isLt
  rw [size] at inside
  have sum : (vaddr + BitVec.ofNat 64 i).toNat = vaddr.toNat + i := by
    rw [BitVec.toNat_add, BitVec.toNat_ofNat]
    omega
  have samePage : SamePage (vaddr + BitVec.ofNat 64 i) vaddr := by
    rw [samePage_iff_mod]
    unfold pageNumber
    rw [sum, size]
    omega
  have found' := (@translate_congr space _ _ samePage).trans found
  have small := (isPage_translate found).2
  apply BitVec.eq_of_toNat_eq
  rw [toNat_virtualToPhysical found', sum, BitVec.toNat_add, toNat_virtualToPhysical found,
    BitVec.toNat_ofNat, size]
  omega

/-- Bytes on one virtual page are a segment. -/
theorem bytes_virtualToPhysical (mapped : (space.translate vaddr).isSome) {length : Nat}
    (inside : vaddr.toNat % kPageSizeBytes + length ≤ kPageSizeBytes) :
    Segment.bytes ⟨space.virtualToPhysical vaddr, length⟩ =
      (List.range length).map fun i => space.virtualToPhysical (vaddr + BitVec.ofNat 64 i) := by
  refine List.map_congr_left fun i among => ?_
  have below : i < length := List.mem_range.mp among
  exact (virtualToPhysical_add mapped (by omega)).symm

/-- They are on one physical page. -/
theorem onePage_virtualToPhysical (mapped : (space.translate vaddr).isSome) {length : Nat}
    (inside : vaddr.toNat % kPageSizeBytes + length ≤ kPageSizeBytes) :
    Segment.OnePage ⟨space.virtualToPhysical vaddr, length⟩ := by
  obtain ⟨page, found⟩ := Option.isSome_iff_exists.mp mapped
  have aligned : page.toNat % kPageSizeBytes = 0 := (isPage_translate found).1
  unfold Segment.OnePage
  dsimp only
  rw [toNat_virtualToPhysical found, Nat.add_mod, aligned, Nat.zero_add, Nat.mod_mod, Nat.mod_mod]
  exact inside

/-! ## What is reported -/

/-- What is left of a page behind an address. -/
def roomOnPage (vaddr : BitVec 64) : Nat := kPageSizeBytes - vaddr.toNat % kPageSizeBytes

/-- **The segments.** A buffer that ends on the page it begins on is one segment; otherwise the
first goes up to the end of the page. -/
theorem segments_bufferAddress {length : BitVec 64} (mapped : space.translate vaddr = some page)
    (positive : 1 ≤ length.toNat) (bounded : length.toNat ≤ kPageSizeBytes) :
    ∃ reported, space.bufferAddress vaddr length = some reported ∧
      reported.segments =
        if length.toNat ≤ roomOnPage vaddr then
          [⟨space.virtualToPhysical vaddr, length.toNat⟩]
        else
          [⟨space.virtualToPhysical vaddr, roomOnPage vaddr⟩,
            ⟨space.virtualToPhysical (vaddr + BitVec.ofNat 64 (roomOnPage vaddr)),
              length.toNat - roomOnPage vaddr⟩] := by
  have size : kPageSizeBytes = 2097152 := by decide
  obtain ⟨aligned, small⟩ := isPage_translate mapped
  have start := toNat_virtualToPhysical mapped
  have notEmpty : length ≠ 0 := by
    rintro rfl
    exact absurd positive (by decide)
  rw [size] at start bounded
  -- the boundary below the end of the buffer in physical memory
  have boundary := Rounding.toNat_and_not_ones 21 (space.virtualToPhysical vaddr + length)
  rw [BitVec.toNat_add, start] at boundary
  unfold bufferAddress roomOnPage
  rw [if_neg notEmpty, size]
  dsimp only
  generalize space.virtualToPhysical vaddr = pstart at start boundary ⊢
  change (pstart + length &&& ~~~0x1FFFFF).toNat = _ at boundary
  generalize (pstart + length &&& ~~~0x1FFFFF) = pboundary at boundary ⊢
  by_cases crosses : pstart < pboundary
  · rw [if_pos crosses]
    rw [BitVec.lt_def] at crosses
    have first : (pboundary - pstart).toNat = 2097152 - vaddr.toNat % 2097152 := by
      rw [BitVec.toNat_sub_of_le (BitVec.le_def.mpr (Nat.le_of_lt crosses))]
      omega
    have fits : (pboundary - pstart).toNat ≤ length.toNat := by
      omega
    have second : (length - (pboundary - pstart)).toNat =
        length.toNat - (2097152 - vaddr.toNat % 2097152) := by
      rw [BitVec.toNat_sub_of_le (BitVec.le_def.mpr fits), first]
    have asWord : pboundary - pstart = BitVec.ofNat 64 (2097152 - vaddr.toNat % 2097152) := by
      rw [← first, BitVec.ofNat_toNat, BitVec.setWidth_eq]
    refine ⟨_, rfl, ?_⟩
    have none : (length - (pboundary - pstart)).setWidth 32 = 0 ↔
        length.toNat ≤ 2097152 - vaddr.toNat % 2097152 := by
      rw [← BitVec.toNat_inj, BitVec.toNat_setWidth, second]
      change _ % 2 ^ 32 = 0 ↔ _
      omega
    rw [BufferAddress.segments, halves_append, halves_append, BitVec.toNat_setWidth,
      BitVec.toNat_setWidth, first, second, asWord]
    rw [asWord] at none
    by_cases whole : length.toNat ≤ 2097152 - vaddr.toNat % 2097152
    · rw [if_pos whole, if_pos (none.mpr whole)]
      refine congrArg (fun length => [Segment.mk pstart length]) ?_
      omega
    · rw [if_neg whole, if_neg fun both => whole (none.mp both)]
      refine congrArg₂ (fun first second => [Segment.mk _ first, Segment.mk _ second]) ?_ ?_
      all_goals omega
  · rw [if_neg crosses]
    refine ⟨_, rfl, ?_⟩
    rw [BitVec.lt_def] at crosses
    have whole : length.toNat ≤ 2097152 - vaddr.toNat % 2097152 := by
      omega
    rw [BufferAddress.segments, halves_append, if_pos rfl, if_pos whole, BitVec.toNat_setWidth]
    refine congrArg (fun length => [Segment.mk pstart length]) ?_
    omega

/-- **The segments are the buffer.** For any tables that map the pages of a buffer of at most a
page, the lengths of the segments reported for it add up to its own, each is on one physical
page, and byte by byte they are what its addresses are translated to. -/
theorem bufferAddress_exact (space : AddressSpace) (vaddr length : BitVec 64)
    (positive : 1 ≤ length.toNat) (bounded : length.toNat ≤ kPageSizeBytes)
    (mapped : ∀ i < length.toNat, (space.translate (vaddr + BitVec.ofNat 64 i)).isSome) :
    ∃ reported, space.bufferAddress vaddr length = some reported ∧
      (reported.segments.map Segment.length).sum = length.toNat ∧
      (∀ segment ∈ reported.segments, segment.OnePage) ∧
      reported.segments.flatMap Segment.bytes =
        (List.range length.toNat).map fun i =>
          space.virtualToPhysical (vaddr + BitVec.ofNat 64 i) := by
  have size : kPageSizeBytes = 2097152 := by decide
  have here : (space.translate vaddr).isSome := by
    have first := mapped 0 positive
    rwa [BitVec.add_zero] at first
  obtain ⟨page, found⟩ := Option.isSome_iff_exists.mp here
  obtain ⟨reported, reports, segments⟩ := segments_bufferAddress found positive bounded
  refine ⟨reported, reports, ?_⟩
  have offset : vaddr.toNat % kPageSizeBytes < kPageSizeBytes := Nat.mod_lt _ (by decide)
  have room : roomOnPage vaddr = kPageSizeBytes - vaddr.toNat % kPageSizeBytes := rfl
  rw [segments]
  by_cases whole : length.toNat ≤ roomOnPage vaddr
  · have inside : vaddr.toNat % kPageSizeBytes + length.toNat ≤ kPageSizeBytes := by omega
    rw [if_pos whole]
    refine ⟨rfl, List.forall_mem_singleton.mpr (onePage_virtualToPhysical here inside), ?_⟩
    rw [List.flatMap_singleton, bytes_virtualToPhysical here inside]
  · have firstInside : vaddr.toNat % kPageSizeBytes + roomOnPage vaddr ≤ kPageSizeBytes := by omega
    have there := mapped (roomOnPage vaddr) (Nat.lt_of_not_le whole)
    have below := vaddr.isLt
    -- the second part begins where a page does
    have second : (vaddr + BitVec.ofNat 64 (roomOnPage vaddr)).toNat % kPageSizeBytes +
        (length.toNat - roomOnPage vaddr) ≤ kPageSizeBytes := by
      rw [BitVec.toNat_add, BitVec.toNat_ofNat, room, size]
      rw [room, size] at whole
      rw [size] at bounded
      omega
    rw [if_neg whole]
    refine ⟨Nat.add_sub_of_le (Nat.le_of_not_le whole), List.forall_mem_cons.mpr
      ⟨onePage_virtualToPhysical here firstInside,
        List.forall_mem_singleton.mpr (onePage_virtualToPhysical there second)⟩, ?_⟩
    rw [List.flatMap_cons, List.flatMap_singleton, bytes_virtualToPhysical here firstInside,
      bytes_virtualToPhysical there second]
    conv_rhs => rw [← Nat.add_sub_of_le (Nat.le_of_not_le whole), List.range_add, List.map_append,
      List.map_map]
    refine congrArg _ (List.map_congr_left fun i _ => ?_)
    dsimp only [Function.comp_apply]
    rw [BitVec.ofNat_add, BitVec.add_assoc]

/-- Tables that map the pages of an odd number somewhere else than the others: every table is
one and the same, with an entry of its own at index 1. -/
def apart : AddressSpace where
  entries _ index := if index = 1 then 0x4000000001 else 0x2000001
  tables_taken_ := 1

theorem translate_apart (virtaddr : BitVec 64) : (apart.translate virtaddr).isSome := by
  have present (table : BitVec 64) (index : Nat) :
      (PML4PDPEntry.decode (apart.entries table index)).isPresent = true ∧
        (PDEntry.decode (apart.entries table index)).isPresent = true := by
    unfold apart
    dsimp only
    split <;> decide
  unfold translate Radix.lookup path
  rw [Radix.descend, link_of_present (present _ _).1, Option.bind_some, Radix.descend,
    link_of_present (present _ _).1, Option.bind_some, Radix.descend, Option.bind_some,
    leaf_of_present (present _ _).2]
  rfl

/-- A buffer of a page's length that begins on one page and ends on the next. -/
theorem bufferAddress_exact_apart :
    ∃ reported, apart.bufferAddress 0x123 0x200000 = some reported ∧
      (reported.segments.map Segment.length).sum = (0x200000 : BitVec 64).toNat ∧
      (∀ segment ∈ reported.segments, segment.OnePage) ∧
      reported.segments.flatMap Segment.bytes =
        (List.range (0x200000 : BitVec 64).toNat).map fun i =>
          apart.virtualToPhysical (0x123 + BitVec.ofNat 64 i) :=
  bufferAddress_exact apart 0x123 0x200000 (by decide) (by decide) fun _ _ => translate_apart _

example : (apart.bufferAddress 0x123 0x200000).map BufferAddress.segments =
    some [⟨0x2000123, 0x1ffedd⟩, ⟨0x4000000000, 0x123⟩] := by
  decide +kernel

end AddressSpace

end JsOS.Kernel
