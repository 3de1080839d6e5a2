import JsOS.Driver.Virtio.Chains

/-! # The chain of a request

A request's buffers become a chain of descriptors, one for each stretch of physical memory
that a buffer takes: a buffer that straddles two physical pages takes two. Whether the device
may write a stretch is the buffer's own flag. The table looks the flag up by the position of
the descriptor instead, where the array of flags has one for each buffer: once a buffer is
split, the descriptors behind the split get the flag of the next buffer or, past the array's
end, none (`Virtio.placeBuffers_keepsDirections_iff`).
-/

namespace Virtio

/-! ## What the chain is to be -/

/-- A stretch of physical memory. -/
structure Stretch where
  address : ℕ
  length : ℕ
deriving DecidableEq, Repr

/-- The buffer goes on behind the end of the physical page that it begins on. -/
def Straddles (translate : ℕ → ℕ) (u8 : Uint8Array) : Prop :=
  pageSize < translate u8.address % pageSize + u8.length

instance (translate : ℕ → ℕ) (u8 : Uint8Array) : Decidable (Straddles translate u8) :=
  inferInstanceAs (Decidable (_ < _))

/-- The one or two physical stretches of a buffer. -/
def stretches (translate : ℕ → ℕ) (u8 : Uint8Array) : List Stretch :=
  let room := pageSize - translate u8.address % pageSize
  if Straddles translate u8 then
    [⟨translate u8.address, room⟩, ⟨translate (u8.address + room), u8.length - room⟩]
  else [⟨translate u8.address, u8.length⟩]

/-- What a device reads in a descriptor besides the link. -/
structure Entry where
  addr : BitVec 64
  len : BitVec 32
  flags : BitVec 16
deriving DecidableEq, Repr

def Descriptor.entry (desc : Descriptor) : Entry := ⟨desc.addr, desc.len, desc.flags⟩

/-- The entries of stretches, the first of them the `i`-th of a chain of `count`. The device may
write a stretch or not, and the chain goes on behind all but the last. -/
def entriesFrom (count : ℕ) : ℕ → List (Stretch × Bool) → List Entry
  | _, [] => []
  | i, (stretch, writeOnly) :: parts =>
      ⟨BitVec.ofNat 64 stretch.address, BitVec.ofNat 32 stretch.length,
        DescriptorTable.bufferFlags count i writeOnly⟩ :: entriesFrom count (i + 1) parts

/-- The entries of a whole chain. -/
def entriesOf (parts : List (Stretch × Bool)) : List Entry := entriesFrom parts.length 0 parts

/-- The flags of the buffers: the array, or the single flag for each. -/
def flagsOf (buffers : List Uint8Array) (isWriteOnly : Bool)
    (isWriteOnlyArray : Option (List Bool)) : List Bool :=
  isWriteOnlyArray.getD (List.replicate buffers.length isWriteOnly)

/-- The stretches of the buffers in order, each with the flag of its buffer. -/
def meant (translate : ℕ → ℕ) (buffers : List Uint8Array) (flags : List Bool) :
    List (Stretch × Bool) :=
  (buffers.zip flags).flatMap fun buffer =>
    (stretches translate buffer.1).map fun stretch => (stretch, buffer.2)

/-- The descriptors that a placement has written, from the head that the device reads on. -/
def writtenChain (translate : ℕ → ℕ) (buffers : List Uint8Array) (ring : VRing) :
    List Descriptor :=
  (ring.descriptorTable.linkedFrom (Exchange.requestPlaced translate 0 ring buffers)).map
    ring.descriptorTable.get

/-- **Directions are kept.** The chain is made of the stretches of the buffers, with the flags
of the buffers they come from, and the stretches of a buffer are as long as it is. -/
structure KeepsDirections (translate : ℕ → ℕ) (buffers : List Uint8Array) (flags : List Bool)
    (ring : VRing) : Prop where
  chain : (writtenChain translate buffers ring).map Descriptor.entry =
    entriesOf (meant translate buffers flags)
  lengths : ∀ u8 ∈ buffers, ((stretches translate u8).map Stretch.length).sum = u8.length

theorem sum_stretches (translate : ℕ → ℕ) (u8 : Uint8Array) :
    ((stretches translate u8).map Stretch.length).sum = u8.length := by
  have page : 0 < pageSize := by decide
  have inside : translate u8.address % pageSize < pageSize := Nat.mod_lt _ page
  unfold stretches
  by_cases straddles : Straddles translate u8
  · rw [if_pos straddles]
    unfold Straddles at straddles
    change pageSize - translate u8.address % pageSize +
      (u8.length - (pageSize - translate u8.address % pageSize) + 0) = u8.length
    omega
  · rw [if_neg straddles]
    rfl

/-! ## What the table writes -/

namespace DescriptorTable

variable {table : DescriptorTable}

theorem get_fill_self (translate : ℕ → ℕ) {id : ℕ} (buffer : Uint8Array × ℕ) (flags : BitVec 16)
    (inside : id < table.mem.length) :
    ((table.fill translate id buffer flags).get id).entry =
      ⟨BitVec.ofNat 64 (translate buffer.1.address), BitVec.ofNat 32 buffer.2, flags⟩ := by
  change ((table.setBuffer translate id buffer.1 buffer.2 flags).get id).entry = _
  rw [get_setBuffer, if_pos ⟨rfl, inside⟩]
  rfl

theorem get_fill_of_ne (translate : ℕ → ℕ) {id other : ℕ} (buffer : Uint8Array × ℕ)
    (flags : BitVec 16) (ne : id ≠ other) :
    (table.fill translate id buffer flags).get other = table.get other := by
  change (table.setBuffer translate id buffer.1 buffer.2 flags).get other = _
  rw [get_setBuffer, if_neg (fun same => ne same.1)]

/-- Descriptors the loop does not come to stay as they are. -/
theorem placeLoop_get_of_notMem (translate : ℕ → ℕ) (writeOnly : ℕ → Bool) (count : ℕ)
    (buffers : List (Uint8Array × ℕ)) (i head : ℕ) {cell : ℕ}
    (outside : cell ∉ List.iterate table.getNext head buffers.length) :
    (placeLoop translate writeOnly count buffers i head table).1.get cell = table.get cell := by
  induction buffers generalizing i head table with
  | nil => rfl
  | cons buffer buffers ih =>
      have ne : head ≠ cell := by
        rintro rfl
        exact outside List.mem_cons_self
      have later : cell ∉ List.iterate table.getNext (table.getNext head) buffers.length :=
        fun member => outside (List.mem_cons_of_mem _ member)
      rw [placeLoop_cons, ih _ _ (by rwa [getNext_fill]), get_fill_of_ne _ _ _ ne]

end DescriptorTable

/-- Buffers with their lengths as stretches, each with the flag of its position. -/
def flagged (translate : ℕ → ℕ) (writeOnly : ℕ → Bool) :
    ℕ → List (Uint8Array × ℕ) → List (Stretch × Bool)
  | _, [] => []
  | i, (u8, length) :: parts =>
      (⟨translate u8.address, length⟩, writeOnly i) :: flagged translate writeOnly (i + 1) parts

theorem flagged_fst (translate : ℕ → ℕ) (writeOnly : ℕ → Bool) (i : ℕ)
    (parts : List (Uint8Array × ℕ)) :
    (flagged translate writeOnly i parts).map Prod.fst =
      parts.map fun part => ⟨translate part.1.address, part.2⟩ := by
  induction parts generalizing i with
  | nil => rfl
  | cons part parts ih => exact congrArg (List.cons _) (ih (i + 1))

theorem flagged_snd (translate : ℕ → ℕ) (writeOnly : ℕ → Bool) (i : ℕ)
    (parts : List (Uint8Array × ℕ)) :
    (flagged translate writeOnly i parts).map Prod.snd =
      (List.range' i parts.length).map writeOnly := by
  induction parts generalizing i with
  | nil => rfl
  | cons part parts ih => exact congrArg (List.cons _) (ih (i + 1))

/-- **The chain that the loop writes.** -/
theorem DescriptorTable.placeLoop_entries {table : DescriptorTable} (translate : ℕ → ℕ)
    (writeOnly : ℕ → Bool) (count : ℕ) (buffers : List (Uint8Array × ℕ)) (i head : ℕ)
    (distinct : (List.iterate table.getNext head buffers.length).Nodup)
    (inside : ∀ cell ∈ List.iterate table.getNext head buffers.length,
      cell < table.mem.length) :
    (List.iterate table.getNext head buffers.length).map (fun cell =>
        ((placeLoop translate writeOnly count buffers i head table).1.get cell).entry) =
      entriesFrom count i (flagged translate writeOnly i buffers) := by
  induction buffers generalizing i head table with
  | nil => rfl
  | cons first buffers ih =>
      obtain ⟨notLater, distinctLater⟩ := List.nodup_cons.mp distinct
      let filled := table.fill translate head first (bufferFlags count i (writeOnly i))
      have links : filled.getNext = table.getNext := getNext_fill _ _ _ _
      have bounds : ∀ cell ∈ List.iterate filled.getNext (table.getNext head) buffers.length,
          cell < filled.mem.length := by
        intro cell member
        rw [links] at member
        rw [fill_mem_length]
        exact inside cell (List.mem_cons_of_mem _ member)
      have later := @ih filled (i + 1) (table.getNext head) (by rwa [links]) bounds
      rw [links] at later
      -- the loop does not come back to the descriptor it has just filled
      have here := @placeLoop_get_of_notMem filled translate writeOnly count buffers (i + 1)
        (table.getNext head) head (by rwa [links])
      rw [List.length_cons, List.iterate, List.map_cons, placeLoop_cons, here,
        get_fill_self _ _ _ (inside head List.mem_cons_self), later]
      rfl

/-! ## Comparing chains -/

theorem length_entriesFrom (count i : ℕ) (parts : List (Stretch × Bool)) :
    (entriesFrom count i parts).length = parts.length := by
  induction parts generalizing i with
  | nil => rfl
  | cons part parts ih => exact congrArg Nat.succ (ih (i + 1))

/-- The flag of a descriptor shows whether the device may write. -/
theorem bufferFlags_inj {count i : ℕ} {first second : Bool}
    (same : DescriptorTable.bufferFlags count i first =
      DescriptorTable.bufferFlags count i second) : first = second := by
  unfold DescriptorTable.bufferFlags at same
  cases first <;> cases second <;> first | rfl | (split at same <;> exact absurd same (by decide))

/-- Chains of the same stretches are the same exactly when their flags are. -/
theorem entriesFrom_inj_iff (count i : ℕ) {first second : List (Stretch × Bool)}
    (same : first.map Prod.fst = second.map Prod.fst) :
    entriesFrom count i first = entriesFrom count i second ↔
      first.map Prod.snd = second.map Prod.snd := by
  induction first generalizing i second with
  | nil =>
      rw [List.map_eq_nil_iff.mp same.symm]
      exact ⟨fun _ => rfl, fun _ => rfl⟩
  | cons part parts ih =>
      cases second with
      | nil => cases same
      | cons other others =>
          obtain ⟨stretch, writeOnly⟩ := part
          obtain ⟨stretch', writeOnly'⟩ := other
          obtain ⟨here, rest⟩ := List.cons.inj same
          obtain rfl : stretch = stretch' := here
          have rule := ih (i + 1) rest
          rw [entriesFrom, entriesFrom, List.map_cons, List.map_cons, List.cons.injEq,
            List.cons.injEq, rule]
          refine and_congr_left fun _ => ⟨fun entries => ?_, fun flags => ?_⟩
          · exact bufferFlags_inj (Entry.mk.inj entries).2.2
          · exact congrArg (fun flag => Entry.mk _ _ (DescriptorTable.bufferFlags count i flag)) flags

/-! ## The stretches that the system call reports -/

/-- The system call takes a buffer that ends where the second page does for one stretch. -/
def reported (translate : ℕ → ℕ) (u8 : Uint8Array) : List Stretch :=
  if translate u8.address % pageSize + u8.length = 2 * pageSize then
    [⟨translate u8.address, u8.length⟩]
  else stretches translate u8

/-- The buffer takes at most two physical pages. -/
def OnTwoPages (translate : ℕ → ℕ) (u8 : Uint8Array) : Prop :=
  translate u8.address % pageSize + u8.length ≤ 2 * pageSize

/-- A descriptor's part of a buffer as a stretch. -/
def stretchOf (translate : ℕ → ℕ) (part : Uint8Array × ℕ) : Stretch :=
  ⟨translate part.1.address, part.2⟩

/-- What the system call reports of a buffer on at most two pages. -/
theorem bufferAddress_eq {translate : ℕ → ℕ} {u8 : Uint8Array} (notEmpty : u8.length ≠ 0)
    (twoPages : OnTwoPages translate u8) :
    bufferAddress translate u8 = some
      (if Straddles translate u8 ∧
          translate u8.address % pageSize + u8.length ≠ 2 * pageSize then
        { length := pageSize - translate u8.address % pageSize
          rest := u8.length - (pageSize - translate u8.address % pageSize) }
      else { length := u8.length, rest := 0 }) := by
  have page : pageSize = 2097152 := by decide
  unfold OnTwoPages at twoPages
  have meaning : Straddles translate u8 ↔ 2097152 < translate u8.address % 2097152 + u8.length :=
    Iff.rfl
  unfold bufferAddress
  rw [if_neg notEmpty]
  dsimp only
  by_cases crosses : translate u8.address <
      (translate u8.address + u8.length) / pageSize * pageSize
  · rw [if_pos crosses]
    refine congrArg some ?_
    by_cases straddles : Straddles translate u8 ∧
        translate u8.address % pageSize + u8.length ≠ 2 * pageSize
    · rw [if_pos straddles]
      rw [meaning] at straddles
      rw [page] at crosses straddles twoPages ⊢
      refine congrArg₂ BufferAddress.mk ?_ ?_ <;> omega
    · rw [if_neg straddles]
      rw [meaning] at straddles
      rw [page] at crosses straddles twoPages ⊢
      refine congrArg₂ BufferAddress.mk ?_ ?_ <;> omega
  · have inside : ¬(Straddles translate u8 ∧
        translate u8.address % pageSize + u8.length ≠ 2 * pageSize) := by
      rw [meaning]
      rw [page] at crosses ⊢
      omega
    rw [if_neg crosses, if_neg inside]
    refine congrArg (fun length => some (BufferAddress.mk length 0)) ?_
    rw [page] at twoPages
    omega

/-- **The parts of a request** are the stretches that the system call reports. -/
theorem splitBuffers_stretches {translate : ℕ → ℕ} {buffers : List Uint8Array}
    (twoPages : ∀ u8 ∈ buffers, OnTwoPages translate u8) {parts : List (Uint8Array × ℕ)}
    (split : VRing.splitBuffers translate buffers = some parts) :
    parts.map (stretchOf translate) = buffers.flatMap (reported translate) := by
  induction buffers generalizing parts with
  | nil =>
      obtain rfl := Option.some.inj split
      rfl
  | cons u8 buffers ih =>
      obtain ⟨here, later⟩ := List.forall_mem_cons.mp twoPages
      have notEmpty : u8.length ≠ 0 := by
        intro empty
        rw [VRing.splitBuffers, bufferAddress, if_pos empty] at split
        cases split
      have report := bufferAddress_eq notEmpty here
      cases rest : VRing.splitBuffers translate buffers with
      | none =>
          rw [VRing.splitBuffers, rest, report] at split
          cases split
      | some others =>
          rw [List.flatMap_cons, ← ih later rest, reported, stretches]
          by_cases both : Straddles translate u8 ∧
              translate u8.address % pageSize + u8.length ≠ 2 * pageSize
          · have room : pageSize - translate u8.address % pageSize < u8.length := by
              have inside : translate u8.address % pageSize < pageSize := Nat.mod_lt _ (by decide)
              have straddles : pageSize < translate u8.address % pageSize + u8.length := both.1
              omega
            have address : (u8.subarray (pageSize - translate u8.address % pageSize)
                u8.length).address = u8.address + (pageSize - translate u8.address % pageSize) :=
              congrArg (u8.address + ·) (Nat.min_eq_left (Nat.le_of_lt room))
            have more : u8.length - (pageSize - translate u8.address % pageSize) ≠ 0 := by omega
            rw [if_pos both] at report
            rw [VRing.splitBuffers, rest, report] at split
            dsimp only at split
            rw [if_neg more] at split
            obtain rfl := Option.some.inj split
            rw [if_neg both.2, if_pos both.1, List.map_cons, List.map_cons, stretchOf, stretchOf,
              address]
            rfl
          · rw [if_neg both] at report
            rw [VRing.splitBuffers, rest, report] at split
            obtain rfl := Option.some.inj split
            by_cases whole : translate u8.address % pageSize + u8.length = 2 * pageSize
            · rw [if_pos whole]
              rfl
            · rw [if_neg whole, if_neg fun straddles => both ⟨straddles, whole⟩]
              rfl

/-- It reports as many stretches as there are unless a buffer ends where its second page does. -/
theorem length_reported_iff (translate : ℕ → ℕ) (buffers : List Uint8Array) :
    (buffers.flatMap (reported translate)).length ≤
        (buffers.flatMap (stretches translate)).length ∧
      ((buffers.flatMap (reported translate)).length =
          (buffers.flatMap (stretches translate)).length ↔
        ∀ u8 ∈ buffers, translate u8.address % pageSize + u8.length ≠ 2 * pageSize) := by
  induction buffers with
  | nil => exact ⟨Nat.le_refl _, fun _ _ among => (nomatch among), fun _ => rfl⟩
  | cons u8 buffers ih =>
      obtain ⟨atMost, exact_⟩ := ih
      rw [List.flatMap_cons, List.flatMap_cons, List.length_append, List.length_append,
        List.forall_mem_cons, ← exact_]
      by_cases whole : translate u8.address % pageSize + u8.length = 2 * pageSize
      · have straddles : Straddles translate u8 := by
          unfold Straddles
          rw [whole]
          decide
        have one : (reported translate u8).length = 1 := by
          rw [reported, if_pos whole]
          rfl
        have two : (stretches translate u8).length = 2 := by
          rw [stretches, if_pos straddles]
          rfl
        rw [one, two]
        refine ⟨by omega, fun same => absurd same (by omega), fun both => absurd whole both.1⟩
      · have same : reported translate u8 = stretches translate u8 := if_neg whole
        rw [same]
        refine ⟨by omega, fun equal => ⟨whole, by omega⟩, fun both => ?_⟩
        have := both.2
        omega

/-! ## Flags read by position -/

/-- The flags of the stretches, when the first of each pair says whether a buffer has two. -/
def doubled (buffers : List (Bool × Bool)) : List Bool :=
  buffers.flatMap fun buffer => if buffer.1 then [buffer.2, buffer.2] else [buffer.2]

/-- The number of buffers that have two. -/
def extra (buffers : List (Bool × Bool)) : ℕ := buffers.countP Prod.fst

theorem extra_cons_two (flag : Bool) (buffers : List (Bool × Bool)) :
    extra ((true, flag) :: buffers) = extra buffers + 1 := List.countP_cons_of_pos rfl

/-- Where no flag is set, none is among those of the stretches. -/
theorem doubled_of_unset {buffers : List (Bool × Bool)}
    (unset : ∀ buffer ∈ buffers, buffer.2 = false) :
    doubled buffers = List.replicate (buffers.length + extra buffers) false := by
  induction buffers with
  | nil => rfl
  | cons buffer buffers ih =>
      obtain ⟨here, later⟩ := List.forall_mem_cons.mp unset
      obtain ⟨two, own⟩ := buffer
      obtain rfl : own = false := here
      cases two with
      | false =>
          have count : ((false, false) :: buffers).length + extra ((false, false) :: buffers) =
              buffers.length + extra buffers + 1 := Nat.add_right_comm _ 1 _
          rw [count, List.replicate_succ, ← ih later]
          rfl
      | true =>
          have count : ((true, false) :: buffers).length + extra ((true, false) :: buffers) =
              buffers.length + extra buffers + 1 + 1 := by
            rw [extra_cons_two, List.length_cons]
            omega
          rw [count, List.replicate_succ, List.replicate_succ, ← ih later]
          rfl

/-- Stretches that still wait for a flag leave no flag set. -/
theorem false_of_waiting {buffers : List (Bool × Bool)} {flag : Bool} {waiting : ℕ}
    (positive : 0 < waiting)
    (same : List.replicate waiting flag ++ doubled buffers =
      buffers.map Prod.snd ++ List.replicate (extra buffers + waiting) false) :
    flag = false ∧ ∀ buffer ∈ buffers, buffer.2 = false := by
  induction buffers generalizing flag waiting with
  | nil =>
      obtain ⟨waiting, rfl⟩ := Nat.exists_eq_succ_of_ne_zero positive.ne'
      refine ⟨?_, fun _ among => (nomatch among)⟩
      have heads := congrArg List.head? same
      rw [doubled, List.flatMap_nil, List.append_nil, List.map_nil, List.nil_append, extra,
        List.countP_nil, Nat.zero_add, List.replicate_succ, List.replicate_succ] at heads
      exact Option.some.inj heads
  | cons buffer buffers ih =>
      obtain ⟨two, own⟩ := buffer
      obtain ⟨waiting, rfl⟩ := Nat.exists_eq_succ_of_ne_zero positive.ne'
      rw [Nat.succ_eq_add_one, List.replicate_succ] at same
      obtain ⟨rfl, rest⟩ := List.cons.inj same
      cases two with
      | false =>
          have moved := @ih flag (waiting + 1) (Nat.succ_pos waiting) (by
            rw [List.replicate_succ', List.append_assoc]
            exact rest)
          exact ⟨moved.1, List.forall_mem_cons.mpr moved⟩
      | true =>
          have moved := @ih flag (waiting + 2) (Nat.succ_pos _) (by
            have count : extra ((true, flag) :: buffers) + (waiting + 1) =
                extra buffers + (waiting + 2) := by
              rw [extra_cons_two]
              omega
            rw [count] at rest
            rw [List.replicate_succ', List.replicate_succ', List.append_assoc, List.append_assoc]
            exact rest)
          exact ⟨moved.1, List.forall_mem_cons.mpr moved⟩

/-- **Flags by position.** They are right exactly when no flag is set from the first buffer on
that has two stretches. -/
theorem doubled_eq_iff (buffers : List (Bool × Bool)) :
    doubled buffers = buffers.map Prod.snd ++ List.replicate (extra buffers) false ↔
      buffers.Pairwise (fun first second => first.1 = true → second.2 = false) ∧
        ∀ buffer ∈ buffers, buffer.1 = true → buffer.2 = false := by
  induction buffers with
  | nil => exact ⟨fun _ => ⟨.nil, fun _ among => (nomatch among)⟩, fun _ => rfl⟩
  | cons buffer buffers ih =>
      obtain ⟨two, own⟩ := buffer
      rw [List.pairwise_cons, List.forall_mem_cons]
      cases two with
      | false =>
          have step : doubled ((false, own) :: buffers) =
              ((false, own) :: buffers).map Prod.snd ++
                List.replicate (extra ((false, own) :: buffers)) false ↔
              doubled buffers = buffers.map Prod.snd ++ List.replicate (extra buffers) false :=
            List.cons_inj_right own
          rw [step, ih]
          exact ⟨fun both => ⟨⟨fun _ _ no => (nomatch no), both.1⟩, fun no => (nomatch no), both.2⟩,
            fun both => ⟨both.1.2, both.2.2⟩⟩
      | true =>
          have step : doubled ((true, own) :: buffers) =
              ((true, own) :: buffers).map Prod.snd ++
                List.replicate (extra ((true, own) :: buffers)) false ↔
              List.replicate 1 own ++ doubled buffers =
                buffers.map Prod.snd ++ List.replicate (extra buffers + 1) false := by
            rw [extra_cons_two]
            exact List.cons_inj_right own
          rw [step]
          constructor
          · intro same
            obtain ⟨unset, others⟩ := false_of_waiting Nat.one_pos same
            refine ⟨⟨fun buffer among _ => others buffer among, ?_⟩, fun _ => unset,
              fun buffer among _ => others buffer among⟩
            exact List.pairwise_of_forall_mem_list fun _ _ second among _ => others second among
          · rintro ⟨⟨others, -⟩, unset, -⟩
            have none (buffer) (among : buffer ∈ buffers) : buffer.2 = false :=
              others buffer among rfl
            have flags : buffers.map Prod.snd = List.replicate buffers.length false := by
              rw [List.eq_replicate_iff, List.length_map]
              exact ⟨rfl, List.forall_mem_map.mpr none⟩
            obtain rfl : own = false := unset rfl
            rw [doubled_of_unset none, flags, List.replicate_append_replicate,
              List.replicate_append_replicate]
            exact congrArg (List.replicate · false) (by omega)

theorem length_doubled (buffers : List (Bool × Bool)) :
    (doubled buffers).length = buffers.length + extra buffers := by
  induction buffers with
  | nil => rfl
  | cons buffer buffers ih =>
      obtain ⟨two, own⟩ := buffer
      rw [doubled, List.flatMap_cons, List.length_append, List.length_cons]
      cases two with
      | false =>
          change 1 + (doubled buffers).length = _
          rw [ih]
          change 1 + (buffers.length + extra buffers) = buffers.length + 1 + extra buffers
          omega
      | true =>
          change 2 + (doubled buffers).length = _
          rw [ih, extra_cons_two]
          omega

/-- An array read past its end by a number of places. -/
theorem map_getD_range' (array : List Bool) (more : ℕ) :
    (List.range' 0 (array.length + more)).map (fun i => array.getD i false) =
      array ++ List.replicate more false := by
  refine List.ext_getElem? fun i => ?_
  rw [List.getElem?_map, ← List.range_eq_range']
  by_cases inside : i < array.length
  · rw [List.getElem?_range (by omega), List.getElem?_append_left inside,
      List.getElem?_eq_getElem inside]
    dsimp only [Option.map_some]
    rw [List.getD_eq_getElem?_getD, List.getElem?_eq_getElem inside]
    rfl
  · rw [List.getElem?_append_right (Nat.le_of_not_lt inside), List.getElem?_replicate]
    by_cases near : i < array.length + more
    · rw [List.getElem?_range near, if_pos (by omega)]
      dsimp only [Option.map_some]
      rw [List.getD_eq_getElem?_getD, List.getElem?_eq_none (Nat.le_of_not_lt inside)]
      rfl
    · rw [List.getElem?_eq_none (by rw [List.length_range]; omega), if_neg (by omega)]
      rfl

/-! ## The whole chain -/

/-- The buffers as pairs: whether each straddles two pages, and its flag. -/
def pairsOf (translate : ℕ → ℕ) (buffers : List Uint8Array) (flags : List Bool) :
    List (Bool × Bool) :=
  (buffers.zip flags).map fun buffer => (decide (Straddles translate buffer.1), buffer.2)

theorem meant_snd (translate : ℕ → ℕ) (buffers : List Uint8Array) (flags : List Bool) :
    (meant translate buffers flags).map Prod.snd = doubled (pairsOf translate buffers flags) := by
  rw [meant, doubled, pairsOf, List.map_flatMap, List.flatMap_map]
  refine congrArg (List.flatMap · _) (funext fun buffer => ?_)
  unfold stretches
  by_cases straddles : Straddles translate buffer.1
  · rw [if_pos straddles, if_pos (decide_eq_true straddles)]
    rfl
  · rw [if_neg straddles, if_neg (by rw [decide_eq_true_iff]; exact straddles)]
    rfl

theorem meant_fst (translate : ℕ → ℕ) {buffers : List Uint8Array} {flags : List Bool}
    (oneEach : flags.length = buffers.length) :
    (meant translate buffers flags).map Prod.fst = buffers.flatMap (stretches translate) := by
  have each (buffer : Uint8Array × Bool) : ((stretches translate buffer.1).map fun stretch =>
      (stretch, buffer.2)).map Prod.fst = stretches translate buffer.1 := by
    rw [List.map_map]
    exact List.map_id _
  have firsts : (buffers.zip flags).map Prod.fst = buffers :=
    List.map_fst_zip (Nat.le_of_eq oneEach.symm)
  rw [meant, List.map_flatMap]
  simp only [each]
  conv_rhs => rw [← firsts, List.flatMap_map]

/-- The front of the free list, where the next chain goes. -/
theorem DescriptorTable.Holds.front {table : DescriptorTable} {ringSize : ℕ}
    {requests : List Request} (holds : table.Holds ringSize requests) {count : ℕ}
    (enough : count ≤ table.descriptorsAvailable) :
    (List.iterate table.getNext table.freeDescriptorHead count).Nodup ∧
      ∀ cell ∈ List.iterate table.getNext table.freeDescriptorHead count,
        cell < table.mem.length := by
  have cut : table.free = List.iterate table.getNext table.freeDescriptorHead count ++
      List.iterate table.getNext (table.getNext^[count] table.freeDescriptorHead)
        (table.descriptorsAvailable - count) := by
    rw [free, ← List.iterate_add, Nat.add_sub_cancel' enough]
  have distinct := holds.partition.nodup_iff.mpr List.nodup_range
  rw [cut, List.append_assoc] at distinct
  refine ⟨(List.nodup_append.mp distinct).1, fun cell member => ?_⟩
  rw [holds.size]
  apply List.mem_range.mp
  rw [← holds.partition.mem_iff, cut, List.append_assoc]
  exact List.mem_append_left _ member

/-- **What a placement writes.** -/
theorem Exchange.Valid.writtenChain_eq {exchange : Exchange} {ringSize : ℕ}
    (valid : exchange.Valid ringSize) {translate : ℕ → ℕ} (writeOnly : ℕ → Bool)
    {buffers : List Uint8Array} {parts : List (Uint8Array × ℕ)}
    (split : VRing.splitBuffers translate buffers = some parts)
    (enough : parts.length ≤ exchange.ring.descriptorTable.descriptorsAvailable) :
    (writtenChain translate buffers
        (Exchange.ringPlaced translate writeOnly exchange.ring parts)).map Descriptor.entry =
      entriesFrom parts.length 0 (flagged translate writeOnly 0 parts) := by
  obtain ⟨distinct, inside⟩ := valid.table.front enough
  have written := DescriptorTable.placeLoop_entries translate writeOnly parts.length parts 0
    exchange.ring.descriptorTable.freeDescriptorHead distinct inside
  have links : (DescriptorTable.placeLoop translate writeOnly parts.length parts 0
      exchange.ring.descriptorTable.freeDescriptorHead exchange.ring.descriptorTable).1.getNext =
        exchange.ring.descriptorTable.getNext := DescriptorTable.placeLoop_getNext _ _ _ _ _ _
  have table : (Exchange.ringPlaced translate writeOnly exchange.ring parts).descriptorTable =
      (exchange.ring.descriptorTable.placeBuffers translate writeOnly parts).1 := rfl
  rw [writtenChain, valid.requestPlaced_eq writeOnly 0 split, ← written, List.map_map, table,
    DescriptorTable.placeBuffers_eq translate writeOnly enough]
  exact congrArg (fun next => (List.iterate next _ _).map _) links

/-- Every flag set stands with a buffer in front of the first that straddles two pages. -/
def SetBeforeSplit (translate : ℕ → ℕ) (buffers : List (Uint8Array × Bool)) : Prop :=
  buffers.Pairwise (fun first second => Straddles translate first.1 → second.2 = false) ∧
    ∀ buffer ∈ buffers, Straddles translate buffer.1 → buffer.2 = false

/-- **The flags of a chain.** -/
theorem flags_iff {translate : ℕ → ℕ} {buffers : List Uint8Array} {isWriteOnly : Bool}
    {isWriteOnlyArray : Option (List Bool)}
    (oneEach : ∀ array ∈ isWriteOnlyArray, array.length = buffers.length) {count : ℕ}
    (length : count =
      (meant translate buffers (flagsOf buffers isWriteOnly isWriteOnlyArray)).length) :
    (List.range' 0 count).map (VRing.writeOnly isWriteOnly isWriteOnlyArray) =
        (meant translate buffers (flagsOf buffers isWriteOnly isWriteOnlyArray)).map Prod.snd ↔
      ∀ array ∈ isWriteOnlyArray, SetBeforeSplit translate (buffers.zip array) := by
  cases isWriteOnlyArray with
  | none =>
      refine ⟨fun _ _ none => (nomatch none), fun _ => ?_⟩
      -- a single flag is the same at every position
      refine List.ext_getElem (by rw [List.length_map, List.length_map, List.length_range', length])
        fun i _ inside => ?_
      obtain ⟨part, among, isFlag⟩ := List.mem_map.mp (List.getElem_mem inside)
      obtain ⟨buffer, listed, made⟩ := List.mem_flatMap.mp among
      obtain ⟨stretch, _, rfl⟩ := List.mem_map.mp made
      rw [← isFlag, List.getElem_map]
      exact (List.eq_of_mem_replicate (List.of_mem_zip listed).2).symm
  | some array =>
      have one : array.length = buffers.length := oneEach array rfl
      have seconds : (pairsOf translate buffers array).map Prod.snd = array := by
        rw [pairsOf, List.map_map]
        exact List.map_snd_zip (Nat.le_of_eq one)
      have total : count = array.length + extra (pairsOf translate buffers array) := by
        rw [length, ← @List.length_map _ _ _ Prod.snd, meant_snd, length_doubled]
        refine congrArg (· + _) ?_
        have kept := @List.length_map _ _ (pairsOf translate buffers array) Prod.snd
        exact kept.symm.trans (congrArg List.length seconds)
      have rule := doubled_eq_iff (pairsOf translate buffers array)
      rw [seconds] at rule
      rw [total, meant_snd]
      change (List.range' 0 _).map (fun i => array.getD i false) =
        doubled (pairsOf translate buffers array) ↔ _
      rw [map_getD_range', eq_comm, rule, pairsOf, List.pairwise_map, List.forall_mem_map]
      simp only [decide_eq_true_eq]
      exact ⟨fun holds _ same => Option.some.inj same ▸ holds, fun holds => holds array rfl⟩

/-- The chain of a placement and what it is to be, compared. -/
theorem entries_iff {translate : ℕ → ℕ} {buffers : List Uint8Array} {isWriteOnly : Bool}
    {isWriteOnlyArray : Option (List Bool)}
    (oneEach : ∀ array ∈ isWriteOnlyArray, array.length = buffers.length)
    (twoPages : ∀ u8 ∈ buffers, OnTwoPages translate u8) {parts : List (Uint8Array × ℕ)}
    (split : VRing.splitBuffers translate buffers = some parts) :
    entriesFrom parts.length 0
          (flagged translate (VRing.writeOnly isWriteOnly isWriteOnlyArray) 0 parts) =
        entriesOf (meant translate buffers (flagsOf buffers isWriteOnly isWriteOnlyArray)) ↔
      (∀ u8 ∈ buffers, translate u8.address % pageSize + u8.length ≠ 2 * pageSize) ∧
        ∀ array ∈ isWriteOnlyArray, SetBeforeSplit translate (buffers.zip array) := by
  have flagsLength : (flagsOf buffers isWriteOnly isWriteOnlyArray).length = buffers.length := by
    cases isWriteOnlyArray with
    | none => exact List.length_replicate
    | some array => exact oneEach array rfl
  have parted := splitBuffers_stretches twoPages split
  have partsLength : parts.length = (buffers.flatMap (reported translate)).length := by
    rw [← parted, List.length_map]
  have meantFirst := meant_fst translate flagsLength
  have meantLength : (meant translate buffers
      (flagsOf buffers isWriteOnly isWriteOnlyArray)).length =
      (buffers.flatMap (stretches translate)).length := by
    rw [← meantFirst, List.length_map]
  by_cases apart :
      ∀ u8 ∈ buffers, translate u8.address % pageSize + u8.length ≠ 2 * pageSize
  · have same : buffers.flatMap (reported translate) = buffers.flatMap (stretches translate) :=
      List.flatMap_congr fun u8 among => if_neg (apart u8 among)
    have lengths : parts.length = (meant translate buffers
        (flagsOf buffers isWriteOnly isWriteOnlyArray)).length := by
      rw [partsLength, meantLength, same]
    have firsts := (flagged_fst translate (VRing.writeOnly isWriteOnly isWriteOnlyArray) 0
      parts).trans ((parted.trans same).trans meantFirst.symm)
    rw [entriesOf, ← lengths, entriesFrom_inj_iff _ _ firsts, flagged_snd,
      flags_iff oneEach lengths]
    exact ⟨fun holds => ⟨apart, holds⟩, fun both => both.2⟩
  · refine ⟨fun equal => absurd ?_ apart, fun both => absurd both.1 apart⟩
    have lengths := congrArg List.length equal
    rw [length_entriesFrom, entriesOf, length_entriesFrom, meantLength,
      ← List.length_map (f := Prod.fst), flagged_fst, List.length_map, partsLength] at lengths
    exact (length_reported_iff translate buffers).2.mp lengths

/-- **When directions are kept.** On a ring after any run, a placement that succeeds writes the
stretches of its buffers with the flags of the buffers they come from exactly when no buffer
ends where its second physical page does and, if there is an array of flags, every flag set in
it stands in front of the first buffer that straddles two pages. -/
theorem placeBuffers_keepsDirections_iff (translate : ℕ → ℕ) (memory : Memory) (exponent : ℕ)
    (small : exponent ≤ 16) (events : List Exchange.Event)
    (hasBuffers : ∀ event ∈ events, event.HasBuffers) (buffers : List Uint8Array)
    (isWriteOnly : Bool) (isWriteOnlyArray : Option (List Bool))
    (oneEach : ∀ array ∈ isWriteOnlyArray, array.length = buffers.length)
    (twoPages : ∀ u8 ∈ buffers, OnTwoPages translate u8) {ring : VRing}
    {completions : List Completion}
    (placed : (Exchange.after translate memory (2 ^ exponent) events).ring.placeBuffers translate
      buffers isWriteOnly isWriteOnlyArray = some (ring, .returned true, completions)) :
    KeepsDirections translate buffers (flagsOf buffers isWriteOnly isWriteOnlyArray) ring ↔
      (∀ u8 ∈ buffers, translate u8.address % pageSize + u8.length ≠ 2 * pageSize) ∧
        ∀ array ∈ isWriteOnlyArray, SetBeforeSplit translate (buffers.zip array) := by
  have valid := Exchange.valid_after translate memory ⟨exponent, small, rfl⟩ hasBuffers
  obtain ⟨fetched, taken, fetches, takes⟩ := valid.fetchSuppressed
  rw [VRing.placeBuffers, fetches] at placed
  have supplies := Option.some.inj placed
  dsimp only at supplies
  obtain ⟨-, thrown⟩ | ⟨parts, split, ⟨-, refused⟩ | ⟨enough, written⟩⟩ :=
    Exchange.supply_cases translate fetched buffers isWriteOnly isWriteOnlyArray
  · rw [thrown] at supplies
    cases (Prod.mk.inj (Prod.mk.inj supplies).2).1
  · rw [refused] at supplies
    cases (Prod.mk.inj (Prod.mk.inj supplies).2).1
  · rw [written] at supplies
    obtain rfl := (Prod.mk.inj supplies).1
    have chain := takes.valid.writtenChain_eq
      (VRing.writeOnly isWriteOnly isWriteOnlyArray) split enough
    rw [Exchange.take_ring] at chain
    rw [← entries_iff oneEach twoPages split, ← chain]
    exact ⟨fun keeps => keeps.chain, fun same => ⟨same, fun u8 _ => sum_stretches translate u8⟩⟩

/-- The ring of four descriptors after a placement on it. -/
def placedOnFour (buffers : List Uint8Array) (isWriteOnly : Bool)
    (isWriteOnlyArray : Option (List Bool)) : VRing :=
  ((Exchange.after id Exchange.zeroMemory (2 ^ 2) []).ring.supply id buffers isWriteOnly
    isWriteOnlyArray).1

/-- A buffer to receive into, which straddles two pages. -/
theorem placeBuffers_keepsDirections_iff_received :
    KeepsDirections id [⟨0x1ffff4, 22⟩] (flagsOf [⟨0x1ffff4, 22⟩] true none)
        (placedOnFour [⟨0x1ffff4, 22⟩] true none) ↔
      (∀ u8 ∈ [(⟨0x1ffff4, 22⟩ : Uint8Array)], id u8.address % pageSize + u8.length ≠
          2 * pageSize) ∧
        ∀ array ∈ (none : Option (List Bool)), SetBeforeSplit id
          (List.zip [⟨0x1ffff4, 22⟩] array) :=
  @placeBuffers_keepsDirections_iff id Exchange.zeroMemory 2 (by decide) []
    (fun _ among => (nomatch among)) [⟨0x1ffff4, 22⟩] true none (fun _ no => (nomatch no))
    (List.forall_mem_singleton.mpr (by
      unfold OnTwoPages
      decide)) _ [] (by decide +kernel)

/-- A request to read a sector: its header, the data, which straddle two pages, and the
status. -/
def readRequest : List Uint8Array := [⟨0x1000, 16⟩, ⟨0x1fff00, 512⟩, ⟨0x3000, 1⟩]

/-- The device may not write the status of the read: its descriptor is the fourth, and the
array has three flags. -/
theorem read_status_not_writable :
    (Exchange.after id Exchange.zeroMemory (2 ^ 2) []).ring.placeBuffers id readRequest false
        (some [false, true, true]) =
      some (placedOnFour readRequest false (some [false, true, true]), .returned true, []) ∧
    ((writtenChain id readRequest
      (placedOnFour readRequest false (some [false, true, true]))).map
        fun desc => desc.flags &&& VRING_DESC_F_WRITE != 0) = [false, true, true, false] ∧
    ¬KeepsDirections id readRequest [false, true, true]
      (placedOnFour readRequest false (some [false, true, true])) := by
  refine ⟨by decide +kernel, by decide +kernel, fun keeps => ?_⟩
  have chain := keeps.chain
  revert chain
  decide +kernel

end Virtio
