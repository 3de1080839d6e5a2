import JsOS.Driver.Virtio.VRing
import JsOS.Library.Linked
import Mathlib.Data.List.Range

/-! # The descriptor table

The free list and the chains of the requests in flight are lists of descriptors linked
by the same `next` fields. `DescriptorTable.Holds` says what the table looks like while
given requests are in flight: the free list and their chains together are all the
descriptors, each once. Placing a request moves the front of the free list into a chain
of its own (`Holds.placeBuffers`); taking a chain back puts it in front of the free list,
whichever chain it is (`Holds.getBuffer`).
-/

namespace Virtio

namespace DescriptorTable

variable {table : DescriptorTable}

/-! ## Reading the table after a write -/

theorem getD_modify {α : Type*} (cells : List α) (update : α → α) (index other : ℕ)
    (default : α) :
    (cells.modify index update).getD other default =
      if index = other ∧ other < cells.length then update (cells.getD other default)
      else cells.getD other default := by
  by_cases inside : other < cells.length
  · by_cases same : index = other <;>
      simp [List.getD_eq_getElem?_getD, same, inside]
  · simp [List.getD_eq_getElem?_getD, inside]

theorem get_setNext (id next other : ℕ) :
    (table.setNext id next).get other =
      if id = other ∧ other < table.mem.length then
        { table.get other with next := BitVec.ofNat 16 next }
      else table.get other :=
  getD_modify _ _ _ _ _

theorem get_setBuffer (translate : ℕ → ℕ) (id len other : ℕ) (buf : Uint8Array)
    (flags : BitVec 16) :
    (table.setBuffer translate id buf len flags).get other =
      if id = other ∧ other < table.mem.length then
        { table.get other with
          addr := BitVec.ofNat 64 (translate buf.address)
          len := BitVec.ofNat 32 len
          flags := flags }
      else table.get other :=
  getD_modify _ _ _ _ _

@[simp] theorem setNext_mem_length (id next : ℕ) :
    (table.setNext id next).mem.length = table.mem.length := by
  simp [setNext]

theorem getDescriptorBuffer_setDescriptorBuffer (id other : ℕ) (buf : Option Uint8Array) :
    (table.setDescriptorBuffer id buf).getDescriptorBuffer other =
      if id = other ∧ other < table.descriptorsBuffers.length then buf
      else table.getDescriptorBuffer other := by
  by_cases inside : other < table.descriptorsBuffers.length
  · by_cases same : id = other <;>
      simp [getDescriptorBuffer, setDescriptorBuffer, List.getD_eq_getElem?_getD, same, inside]
  · simp [getDescriptorBuffer, setDescriptorBuffer, List.getD_eq_getElem?_getD, inside]

/-- Filling a descriptor keeps every link. -/
@[simp] theorem getNext_fill (translate : ℕ → ℕ) (id : ℕ) (buffer : Uint8Array × ℕ)
    (flags : BitVec 16) : (table.fill translate id buffer flags).getNext = table.getNext := by
  funext other
  change ((table.setBuffer translate id buffer.1 buffer.2 flags).get other).next.toNat = _
  rw [get_setBuffer]
  split <;> rfl

@[simp] theorem fill_mem_length (translate : ℕ → ℕ) (id : ℕ) (buffer : Uint8Array × ℕ)
    (flags : BitVec 16) : (table.fill translate id buffer flags).mem.length = table.mem.length :=
  List.length_modify _ _ _

@[simp] theorem fill_buffers_length (translate : ℕ → ℕ) (id : ℕ) (buffer : Uint8Array × ℕ)
    (flags : BitVec 16) :
    (table.fill translate id buffer flags).descriptorsBuffers.length =
      table.descriptorsBuffers.length :=
  List.length_set

theorem hasNext_fill_self (translate : ℕ → ℕ) {id : ℕ} (buffer : Uint8Array × ℕ)
    (flags : BitVec 16) (inside : id < table.mem.length) :
    (table.fill translate id buffer flags).hasNext id =
      (flags &&& VRING_DESC_F_NEXT != 0) := by
  change (((table.setBuffer translate id buffer.1 buffer.2 flags).get id).flags &&&
    VRING_DESC_F_NEXT != 0) = _
  rw [get_setBuffer, if_pos ⟨rfl, inside⟩]

theorem hasNext_fill_of_ne (translate : ℕ → ℕ) {id other : ℕ} (buffer : Uint8Array × ℕ)
    (flags : BitVec 16) (ne : id ≠ other) :
    (table.fill translate id buffer flags).hasNext other = table.hasNext other := by
  change (((table.setBuffer translate id buffer.1 buffer.2 flags).get other).flags &&&
    VRING_DESC_F_NEXT != 0) = _
  rw [get_setBuffer, if_neg (fun same => ne same.1), hasNext]

theorem getDescriptorBuffer_fill_self (translate : ℕ → ℕ) {id : ℕ} (buffer : Uint8Array × ℕ)
    (flags : BitVec 16) (inside : id < table.descriptorsBuffers.length) :
    (table.fill translate id buffer flags).getDescriptorBuffer id = some buffer.1 := by
  rw [fill, getDescriptorBuffer_setDescriptorBuffer]
  exact if_pos ⟨rfl, inside⟩

theorem getDescriptorBuffer_fill_of_ne (translate : ℕ → ℕ) {id other : ℕ}
    (buffer : Uint8Array × ℕ) (flags : BitVec 16) (ne : id ≠ other) :
    (table.fill translate id buffer flags).getDescriptorBuffer other =
      table.getDescriptorBuffer other := by
  rw [fill, getDescriptorBuffer_setDescriptorBuffer, if_neg (fun same => ne same.1)]
  rfl

/-- Setting a link changes no flag. -/
@[simp] theorem hasNext_setNext (id next : ℕ) :
    (table.setNext id next).hasNext = table.hasNext := by
  funext other
  rw [hasNext, get_setNext]
  split <;> rfl

theorem getNext_setNext {id next : ℕ} (inside : id < table.mem.length) (small : next < 2 ^ 16) :
    (table.setNext id next).getNext = Function.update table.getNext id next := by
  funext other
  rw [getNext, get_setNext, Function.update_apply]
  by_cases same : other = id
  · subst same
    rw [if_pos ⟨rfl, inside⟩, if_pos rfl, BitVec.toNat_ofNat, Nat.mod_eq_of_lt small]
  · rw [if_neg (fun both => same both.1.symm), if_neg same, getNext]

/-- The chain flag of the `i`-th of `count` buffers is set unless it is the last. -/
theorem bufferFlags_next (count i : ℕ) (bufWriteOnly : Bool) :
    (bufferFlags count i bufWriteOnly &&& VRING_DESC_F_NEXT != 0) = decide (count ≠ i + 1) := by
  by_cases last : count = i + 1 <;> cases bufWriteOnly <;> simp [bufferFlags, last] <;> decide

/-! ## The loop over the buffers of a request -/

section PlaceLoop

variable (translate : ℕ → ℕ) (writeOnly : ℕ → Bool) (count : ℕ)

theorem placeLoop_cons (buffer : Uint8Array × ℕ) (buffers : List (Uint8Array × ℕ)) (i head : ℕ) :
    placeLoop translate writeOnly count (buffer :: buffers) i head table =
      placeLoop translate writeOnly count buffers (i + 1) (table.getNext head)
        (table.fill translate head buffer (bufferFlags count i (writeOnly i))) := by
  rw [placeLoop, getNext_fill]

theorem placeLoop_getNext (buffers : List (Uint8Array × ℕ)) (i head : ℕ) :
    (placeLoop translate writeOnly count buffers i head table).1.getNext = table.getNext := by
  induction buffers generalizing i head table with
  | nil => rfl
  | cons buffer buffers ih => rw [placeLoop_cons, ih, getNext_fill]

theorem placeLoop_head (buffers : List (Uint8Array × ℕ)) (i head : ℕ) :
    (placeLoop translate writeOnly count buffers i head table).2 =
      table.getNext^[buffers.length] head := by
  induction buffers generalizing i head table with
  | nil => rfl
  | cons buffer buffers ih =>
      rw [placeLoop_cons, ih, getNext_fill, List.length_cons, Function.iterate_succ_apply]

/-- What the loop leaves as it was: the sizes, and the count, which is set after it. -/
theorem placeLoop_sizes (buffers : List (Uint8Array × ℕ)) (i head : ℕ) :
    (placeLoop translate writeOnly count buffers i head table).1.mem.length = table.mem.length ∧
      (placeLoop translate writeOnly count buffers i head table).1.descriptorsBuffers.length =
        table.descriptorsBuffers.length ∧
      (placeLoop translate writeOnly count buffers i head table).1.descriptorsAvailable =
        table.descriptorsAvailable := by
  induction buffers generalizing i head table with
  | nil => exact ⟨rfl, rfl, rfl⟩
  | cons buffer buffers ih =>
      rw [placeLoop_cons]
      obtain ⟨memory, arrays, available⟩ := @ih
        (table.fill translate head buffer (bufferFlags count i (writeOnly i))) (i + 1)
        (table.getNext head)
      rw [fill_mem_length] at memory
      rw [fill_buffers_length] at arrays
      exact ⟨memory, arrays, available⟩

/-- Descriptors the loop does not come to keep their flags and their buffers. -/
theorem placeLoop_frame (buffers : List (Uint8Array × ℕ)) (i head : ℕ) {cell : ℕ}
    (outside : cell ∉ List.iterate table.getNext head buffers.length) :
    (placeLoop translate writeOnly count buffers i head table).1.hasNext cell =
        table.hasNext cell ∧
      (placeLoop translate writeOnly count buffers i head table).1.getDescriptorBuffer cell =
        table.getDescriptorBuffer cell := by
  induction buffers generalizing i head table with
  | nil => exact ⟨rfl, rfl⟩
  | cons buffer buffers ih =>
      have ne : head ≠ cell := by
        rintro rfl
        exact outside List.mem_cons_self
      have later : cell ∉ List.iterate table.getNext (table.getNext head) buffers.length :=
        fun member => outside (List.mem_cons_of_mem _ member)
      rw [placeLoop_cons]
      obtain ⟨flag, array⟩ := @ih
        (table.fill translate head buffer (bufferFlags count i (writeOnly i))) (i + 1)
        (table.getNext head) (by rwa [getNext_fill])
      rw [hasNext_fill_of_ne _ _ _ ne] at flag
      rw [getDescriptorBuffer_fill_of_ne _ _ _ ne] at array
      exact ⟨flag, array⟩

/-- The loop gives the `j`-th descriptor it comes to the `j`-th buffer, with the chain flag
set on all but the last of the request. -/
theorem placeLoop_placed (buffers : List (Uint8Array × ℕ)) (i head : ℕ)
    (distinct : (List.iterate table.getNext head buffers.length).Nodup)
    (inside : ∀ cell ∈ List.iterate table.getNext head buffers.length,
      cell < table.mem.length ∧ cell < table.descriptorsBuffers.length)
    {j : ℕ} {buffer : Uint8Array × ℕ} (at_j : buffers[j]? = some buffer) :
    (placeLoop translate writeOnly count buffers i head table).1.hasNext
        (table.getNext^[j] head) = decide (count ≠ i + j + 1) ∧
      (placeLoop translate writeOnly count buffers i head table).1.getDescriptorBuffer
        (table.getNext^[j] head) = some buffer.1 := by
  induction buffers generalizing i head table j with
  | nil => cases at_j
  | cons first buffers ih =>
      obtain ⟨notLater, distinctLater⟩ := List.nodup_cons.mp distinct
      obtain ⟨headInside, headInside'⟩ := inside head List.mem_cons_self
      let filled := table.fill translate head first (bufferFlags count i (writeOnly i))
      have links : filled.getNext = table.getNext := getNext_fill _ _ _ _
      rw [placeLoop_cons]
      cases j with
      | zero =>
          -- The loop does not come back to the descriptor it has just filled.
          obtain ⟨flag, array⟩ := @placeLoop_frame filled translate writeOnly count buffers
            (i + 1) (table.getNext head) head (by rwa [links])
          obtain rfl : first = buffer := Option.some.inj at_j
          rw [hasNext_fill_self _ _ _ headInside, bufferFlags_next] at flag
          rw [getDescriptorBuffer_fill_self _ _ _ headInside'] at array
          exact ⟨flag, array⟩
      | succ j =>
          have bounds : ∀ cell ∈ List.iterate filled.getNext (table.getNext head) buffers.length,
              cell < filled.mem.length ∧ cell < filled.descriptorsBuffers.length := by
            intro cell member
            rw [links] at member
            rw [fill_mem_length, fill_buffers_length]
            exact inside cell (List.mem_cons_of_mem _ member)
          have later := @ih filled (i + 1) (table.getNext head) (by rwa [links]) bounds j at_j
          rw [links] at later
          rw [Function.iterate_succ_apply, show i + (j + 1) + 1 = i + 1 + j + 1 by omega]
          exact later

end PlaceLoop

end DescriptorTable

/-! ## The table while requests are in flight -/

/-- A request in flight: the number of requests placed before it, the buffers it was placed
with, its first descriptor and the number of its descriptors. -/
structure Request where
  serial : ℕ
  head : ℕ
  buffers : List Uint8Array
  count : ℕ
deriving DecidableEq, Repr

namespace DescriptorTable

/-- The free list. -/
def free (table : DescriptorTable) : List ℕ :=
  List.iterate table.getNext table.freeDescriptorHead table.descriptorsAvailable

/-- The descriptors linked from a request's first one. -/
def linkedFrom (table : DescriptorTable) (request : Request) : List ℕ :=
  List.iterate table.getNext request.head request.count

/-- What the table looks like while the requests are in flight. -/
structure Holds (table : DescriptorTable) (ringSize : ℕ) (requests : List Request) : Prop where
  /-- A descriptor's number fits in a link. -/
  ringSize_le : ringSize ≤ 2 ^ 16
  size : table.mem.length = ringSize
  buffersSize : table.descriptorsBuffers.length = ringSize
  headSmall : table.freeDescriptorHead < 2 ^ 16
  /-- Every descriptor is once in the free list or once in one chain. -/
  partition : (table.free ++ (requests.map table.linkedFrom).flatten).Perm (List.range ringSize)
  nonempty : ∀ request ∈ requests, 0 < request.count
  /-- The chain flag is set on all descriptors of a chain but the last. -/
  flags : ∀ request ∈ requests, ∀ i < request.count,
    table.hasNext (table.getNext^[i] request.head) = decide (i + 1 ≠ request.count)
  /-- The first descriptor of a chain has the first buffer of the request. -/
  first : ∀ request ∈ requests,
    table.getDescriptorBuffer request.head = request.buffers.head?

theorem getNext_lt (table : DescriptorTable) (id : ℕ) : table.getNext id < 2 ^ 16 :=
  (table.get id).next.isLt

variable {table : DescriptorTable} {ringSize : ℕ} {requests before after : List Request}
  {request : Request}

/-- The descriptors seen from one request: its own chain, and apart from it the free list
and the other chains. -/
theorem Holds.partition_split (holds : table.Holds ringSize (before ++ request :: after)) :
    (table.linkedFrom request ++
      (table.free ++ ((before ++ after).map table.linkedFrom).flatten)).Perm
        (List.range ringSize) := by
  refine .trans ?_ holds.partition
  have front : ((request :: (before ++ after)).map table.linkedFrom).flatten.Perm
      ((before ++ request :: after).map table.linkedFrom).flatten :=
    (List.perm_middle.symm.map _).flatten
  exact (List.perm_append_comm_assoc _ _ _).trans (front.append_left table.free)

theorem Holds.mem_lt (holds : table.Holds ringSize requests) (member : request ∈ requests)
    {cell : ℕ} (inChain : cell ∈ table.linkedFrom request) : cell < ringSize := by
  have listed : cell ∈ table.free ++ (requests.map table.linkedFrom).flatten :=
    List.mem_append_right _ (List.mem_flatten.mpr
      ⟨_, List.mem_map.mpr ⟨request, member, rfl⟩, inChain⟩)
  exact List.mem_range.mp (holds.partition.mem_iff.mp listed)

/-- The free descriptors and those of the chains make up the ring. -/
theorem Holds.available_add (holds : table.Holds ringSize requests) :
    table.descriptorsAvailable + ((requests.map table.linkedFrom).flatten).length = ringSize := by
  have total := holds.partition.length_eq
  rwa [List.length_append, free, List.length_iterate, List.length_range] at total

theorem Holds.head_mem (holds : table.Holds ringSize requests) (member : request ∈ requests) :
    request.head ∈ table.linkedFrom request := by
  rw [linkedFrom, List.mem_iterate]
  exact ⟨0, holds.nonempty request member, rfl⟩

/-- The chains of the requests in flight have no descriptor in common. -/
theorem Holds.chains_disjoint (holds : table.Holds ringSize requests) :
    requests.Pairwise fun first second =>
      (table.linkedFrom first).Disjoint (table.linkedFrom second) := by
  have distinct := holds.partition.nodup_iff.mpr List.nodup_range
  obtain ⟨-, chainsNodup, -⟩ := List.nodup_append.mp distinct
  exact List.pairwise_map.mp (List.nodup_flatten.mp chainsNodup).2

theorem Holds.heads_nodup (holds : table.Holds ringSize requests) :
    (requests.map Request.head).Nodup := by
  apply List.pairwise_map.mpr
  apply holds.chains_disjoint.imp_of_mem
  intro first second firstMem secondMem disjoint same
  apply disjoint (holds.head_mem firstMem)
  rw [same]
  exact holds.head_mem secondMem

/-! ### Setting up -/

/-- The table with its first descriptors linked in order. -/
def linkInOrder (table : DescriptorTable) (count : ℕ) : DescriptorTable :=
  (List.range count).foldl (fun table i => table.setNext i (i + 1)) table

theorem linkInOrder_succ (table : DescriptorTable) (count : ℕ) :
    table.linkInOrder (count + 1) = (table.linkInOrder count).setNext count (count + 1) := by
  rw [linkInOrder, List.range_succ, List.foldl_append]
  rfl

theorem linkInOrder_sizes (table : DescriptorTable) (count : ℕ) :
    (table.linkInOrder count).mem.length = table.mem.length ∧
      (table.linkInOrder count).descriptorsBuffers = table.descriptorsBuffers ∧
      (table.linkInOrder count).freeDescriptorHead = table.freeDescriptorHead ∧
      (table.linkInOrder count).descriptorsAvailable = table.descriptorsAvailable := by
  induction count with
  | zero => exact ⟨rfl, rfl, rfl, rfl⟩
  | succ count ih =>
      rw [linkInOrder_succ, setNext_mem_length]
      exact ih

/-- Links have sixteen bits. -/
theorem linkInOrder_getNext (table : DescriptorTable) {count id : ℕ} (lt : id < count)
    (inside : count ≤ table.mem.length) :
    (table.linkInOrder count).getNext id = (id + 1) % 2 ^ 16 := by
  induction count with
  | zero => exact absurd lt (Nat.not_lt_zero id)
  | succ count ih =>
      rw [linkInOrder_succ, getNext, get_setNext, (linkInOrder_sizes table count).1]
      by_cases last : count = id
      · subst last
        rw [if_pos ⟨rfl, inside⟩, BitVec.toNat_ofNat]
      · rw [if_neg (fun both => last both.1)]
        exact ih (by omega) (by omega)

theorem create_eq (memory : ℕ → Descriptor) (ringSize : ℕ) :
    create memory ringSize =
      linkInOrder
        { mem := (List.range ringSize).map memory
          freeDescriptorHead := 0
          descriptorsAvailable := ringSize
          descriptorsBuffers := List.replicate ringSize none } (ringSize - 1) := rfl

theorem create_getNext (memory : ℕ → Descriptor) {ringSize id : ℕ} (lt : id + 1 < ringSize) :
    (create memory ringSize).getNext id = (id + 1) % 2 ^ 16 := by
  rw [create_eq]
  apply linkInOrder_getNext
  · omega
  · rw [List.length_map, List.length_range]
    omega

/-- As long as the numbers fit in a link, the links from the first descriptor on count up. -/
theorem create_iterate (memory : ℕ → Descriptor) {ringSize count : ℕ} (lt : count < ringSize)
    (small : count < 2 ^ 16) : (create memory ringSize).getNext^[count] 0 = count := by
  induction count with
  | zero => rfl
  | succ count ih =>
      rw [Function.iterate_succ_apply', ih (by omega) (by omega), create_getNext _ lt,
        Nat.mod_eq_of_lt small]

theorem create_sizes (memory : ℕ → Descriptor) (ringSize : ℕ) :
    (create memory ringSize).mem.length = ringSize ∧
      (create memory ringSize).descriptorsBuffers.length = ringSize ∧
      (create memory ringSize).freeDescriptorHead = 0 ∧
      (create memory ringSize).descriptorsAvailable = ringSize := by
  obtain ⟨size, buffers, head, available⟩ := linkInOrder_sizes
    { mem := (List.range ringSize).map memory
      freeDescriptorHead := 0
      descriptorsAvailable := ringSize
      descriptorsBuffers := List.replicate ringSize none } (ringSize - 1)
  rw [← create_eq] at size buffers head available
  refine ⟨?_, ?_, head, available⟩
  · rw [size, List.length_map, List.length_range]
  · rw [buffers, List.length_replicate]

/-- In a fresh table every descriptor is free. -/
theorem holds_create (memory : ℕ → Descriptor) {ringSize : ℕ} (ringSize_le : ringSize ≤ 2 ^ 16) :
    (create memory ringSize).Holds ringSize [] := by
  obtain ⟨size, buffers, head, available⟩ := create_sizes memory ringSize
  have free : (create memory ringSize).free = List.range ringSize := by
    rw [DescriptorTable.free, head, available, ← List.range_map_iterate]
    conv_rhs => rw [← List.map_id (List.range ringSize)]
    apply List.map_congr_left
    intro count member
    have lt : count < ringSize := List.mem_range.mp member
    exact create_iterate memory lt (by omega)
  exact
    { ringSize_le := ringSize_le
      size := size
      buffersSize := buffers
      headSmall := by rw [head]; exact Nat.two_pow_pos 16
      partition := by rw [free, List.map_nil, List.flatten_nil, List.append_nil]
      nonempty := fun _ member => absurd member List.not_mem_nil
      flags := fun _ member => absurd member List.not_mem_nil
      first := fun _ member => absurd member List.not_mem_nil }

/-- In a larger ring the numbers do not fit in a link, and the free list comes back to the
first descriptor. -/
theorem create_free_not_nodup (memory : ℕ → Descriptor) {ringSize : ℕ}
    (large : 2 ^ 16 < ringSize) : ¬(create memory ringSize).free.Nodup := by
  obtain ⟨-, -, head, available⟩ := create_sizes memory ringSize
  rw [free, head, available]
  intro distinct
  have apart := List.pairwise_iff_getElem.mp distinct 0 (2 ^ 16)
    (by rw [List.length_iterate]; omega) (by rw [List.length_iterate]; omega) (by omega)
  rw [List.getElem_iterate, List.getElem_iterate] at apart
  apply apart
  rw [show (2 : ℕ) ^ 16 = 65535 + 1 from rfl, Function.iterate_succ_apply',
    @create_iterate memory ringSize 65535 (by omega) (by omega),
    @create_getNext memory ringSize 65535 (by omega)]
  exact (by decide : 0 = (65535 + 1) % 2 ^ 16)

/-! ### Placing a request -/

/-- What `placeBuffers` makes of the table when enough descriptors are free. -/
theorem placeBuffers_eq (translate : ℕ → ℕ) (writeOnly : ℕ → Bool)
    {parts : List (Uint8Array × ℕ)} (enough : parts.length ≤ table.descriptorsAvailable) :
    table.placeBuffers translate writeOnly parts =
      ({ (placeLoop translate writeOnly parts.length parts 0 table.freeDescriptorHead table).1 with
          descriptorsAvailable := table.descriptorsAvailable - parts.length
          freeDescriptorHead := table.getNext^[parts.length] table.freeDescriptorHead },
        some table.freeDescriptorHead) := by
  rw [placeBuffers, if_neg (Nat.not_lt.mpr enough)]
  simp only [(placeLoop_sizes translate writeOnly parts.length parts 0 _).2.2, placeLoop_head]

/-- **Placing.** When enough descriptors are free, a request with at least one buffer gets
the front of the free list as its chain, and the requests in flight keep theirs. -/
theorem Holds.placeBuffers (holds : table.Holds ringSize requests) (translate : ℕ → ℕ)
    (writeOnly : ℕ → Bool) {parts : List (Uint8Array × ℕ)} (serial : ℕ)
    {buffers : List Uint8Array} (nonempty : parts ≠ [])
    (firstBuffer : parts.head?.map Prod.fst = buffers.head?)
    (enough : parts.length ≤ table.descriptorsAvailable) :
    (table.placeBuffers translate writeOnly parts).1.Holds ringSize
      (requests ++
        [{ serial := serial
           head := table.freeDescriptorHead
           buffers := buffers
           count := parts.length }]) := by
  rw [placeBuffers_eq translate writeOnly enough]
  set placed := (placeLoop translate writeOnly parts.length parts 0 table.freeDescriptorHead
    table).1 with placedIs
  obtain ⟨size, buffersSize, -⟩ := @placeLoop_sizes table translate writeOnly parts.length parts 0
    table.freeDescriptorHead
  have links : placed.getNext = table.getNext := placeLoop_getNext _ _ _ _ _ _
  have positive : 0 < parts.length := List.length_pos_of_ne_nil nonempty
  -- The free list is the new chain followed by what stays free.
  have cut : table.free = List.iterate table.getNext table.freeDescriptorHead parts.length ++
      List.iterate table.getNext (table.getNext^[parts.length] table.freeDescriptorHead)
        (table.descriptorsAvailable - parts.length) := by
    rw [free, ← List.iterate_add, Nat.add_sub_cancel' enough]
  have distinct := holds.partition.nodup_iff.mpr List.nodup_range
  rw [cut, List.append_assoc] at distinct
  obtain ⟨chainNodup, -, apart⟩ := List.nodup_append.mp distinct
  have inside : ∀ cell ∈ List.iterate table.getNext table.freeDescriptorHead parts.length,
      cell < table.mem.length ∧ cell < table.descriptorsBuffers.length := by
    intro cell member
    rw [holds.size, holds.buffersSize, and_self]
    apply List.mem_range.mp
    rw [← holds.partition.mem_iff, cut, List.append_assoc]
    exact List.mem_append_left _ member
  -- Chains in flight lie outside the part of the free list that was filled.
  have kept : ∀ request ∈ requests, ∀ cell ∈ table.linkedFrom request,
      placed.hasNext cell = table.hasNext cell ∧
        placed.getDescriptorBuffer cell = table.getDescriptorBuffer cell := by
    intro request member cell inChain
    apply placeLoop_frame
    intro filled
    refine apart cell filled cell (List.mem_append_right _ ?_) rfl
    exact List.mem_flatten.mpr ⟨_, List.mem_map.mpr ⟨request, member, rfl⟩, inChain⟩
  have filled : ∀ {j : ℕ} {buffer : Uint8Array × ℕ}, parts[j]? = some buffer →
      placed.hasNext (table.getNext^[j] table.freeDescriptorHead) =
          decide (parts.length ≠ 0 + j + 1) ∧
        placed.getDescriptorBuffer (table.getNext^[j] table.freeDescriptorHead) =
          some buffer.1 :=
    placeLoop_placed translate writeOnly parts.length parts 0 _ chainNodup inside
  exact
    { ringSize_le := holds.ringSize_le
      size := size.trans holds.size
      buffersSize := buffersSize.trans holds.buffersSize
      headSmall := by
        change table.getNext^[parts.length] table.freeDescriptorHead < 2 ^ 16
        obtain ⟨count, succ⟩ := Nat.exists_eq_succ_of_ne_zero positive.ne'
        rw [succ, Function.iterate_succ_apply']
        exact getNext_lt _ _
      partition := by
        refine List.Perm.trans ?_ holds.partition
        have chains : placed.linkedFrom = table.linkedFrom := by
          funext request
          rw [linkedFrom, links, linkedFrom]
        change (List.iterate placed.getNext _ _ ++
          List.flatten ((requests ++ [_]).map placed.linkedFrom)).Perm _
        rw [links, chains, cut, List.map_append, List.flatten_append, List.append_assoc]
        refine .trans ?_ (List.perm_append_comm_assoc _ _ _)
        apply List.Perm.append_left
        rw [List.map_singleton, List.flatten_singleton]
        exact List.perm_append_comm
      nonempty := by
        intro request member
        obtain old | new := List.mem_append.mp member
        · exact holds.nonempty request old
        · obtain rfl := List.mem_singleton.mp new
          exact positive
      flags := by
        intro request member i lt
        change placed.hasNext (placed.getNext^[i] request.head) = _
        rw [links]
        obtain old | new := List.mem_append.mp member
        · rw [(kept request old _ (List.mem_iterate.mpr ⟨i, lt, rfl⟩)).1]
          exact holds.flags request old i lt
        · obtain rfl := List.mem_singleton.mp new
          rw [(filled (List.getElem?_eq_getElem lt)).1, Nat.zero_add]
          exact decide_eq_decide.mpr ne_comm
      first := by
        intro request member
        change placed.getDescriptorBuffer request.head = _
        obtain old | new := List.mem_append.mp member
        · rw [(kept request old _ (holds.head_mem old)).2]
          exact holds.first request old
        · obtain rfl := List.mem_singleton.mp new
          rw [← firstBuffer, List.head?_eq_getElem?, List.getElem?_eq_getElem positive]
          exact (filled (List.getElem?_eq_getElem positive)).2 }

/-! ### Taking a chain back -/

/-- The loop over a chain ends at its last descriptor and counts the ones before it. -/
theorem getLoop_eq {head count : ℕ}
    (flags : ∀ i < count + 1,
      table.hasNext (table.getNext^[i] head) = decide (i + 1 ≠ count + 1))
    {fuel : ℕ} (enough : count < fuel) (available : ℕ) :
    table.getLoop fuel head available = some (table.getNext^[count] head, available + count) := by
  induction count generalizing head fuel available with
  | zero =>
      obtain ⟨fuel, rfl⟩ := Nat.exists_eq_succ_of_ne_zero enough.ne'
      have last : table.hasNext head = false := by simpa using flags 0 (Nat.zero_lt_one)
      rw [getLoop, if_neg (by rw [last]; exact Bool.false_ne_true)]
      rfl
  | succ count ih =>
      obtain ⟨fuel, rfl⟩ := Nat.exists_eq_succ_of_ne_zero (Nat.ne_zero_of_lt enough)
      have more : table.hasNext head = true := by simpa using flags 0 (Nat.succ_pos _)
      rw [getLoop, if_pos more, ih _ (by omega), Function.iterate_succ_apply]
      · rw [show available + 1 + count = available + (count + 1) by omega]
      · intro i lt
        have later := flags (i + 1) (by omega)
        rw [Function.iterate_succ_apply] at later
        rw [later]
        apply decide_eq_decide.mpr
        omega

/-- The chain that starts at a descriptor, as its flags and links say. -/
def chainLoop (table : DescriptorTable) : ℕ → ℕ → List ℕ
  | 0, _ => []
  | fuel + 1, descriptorId =>
      descriptorId ::
        if table.hasNext descriptorId then chainLoop table fuel (table.getNext descriptorId)
        else []

/-- The chain of a head. No chain has more descriptors than the table. -/
def chain (table : DescriptorTable) (head : ℕ) : List ℕ := table.chainLoop table.mem.length head

theorem chainLoop_eq {head count : ℕ}
    (flags : ∀ i < count + 1,
      table.hasNext (table.getNext^[i] head) = decide (i + 1 ≠ count + 1))
    {fuel : ℕ} (enough : count < fuel) :
    table.chainLoop fuel head = List.iterate table.getNext head (count + 1) := by
  induction count generalizing head fuel with
  | zero =>
      obtain ⟨fuel, rfl⟩ := Nat.exists_eq_succ_of_ne_zero enough.ne'
      have last : table.hasNext head = false := by simpa using flags 0 (Nat.zero_lt_one)
      rw [chainLoop, if_neg (by rw [last]; exact Bool.false_ne_true)]
      rfl
  | succ count ih =>
      obtain ⟨fuel, rfl⟩ := Nat.exists_eq_succ_of_ne_zero (Nat.ne_zero_of_lt enough)
      have more : table.hasNext head = true := by simpa using flags 0 (Nat.succ_pos _)
      rw [chainLoop, if_pos more, ih _ (by omega)]
      · rfl
      · intro i lt
        have later := flags (i + 1) (by omega)
        rw [Function.iterate_succ_apply] at later
        rw [later]
        apply decide_eq_decide.mpr
        omega

/-- The table after a chain was put in front of the free list. -/
def recycle (table : DescriptorTable) (request : Request) : DescriptorTable :=
  { (table.setDescriptorBuffer request.head none).setNext
      (table.getNext^[request.count - 1] request.head) table.freeDescriptorHead with
    freeDescriptorHead := request.head
    descriptorsAvailable := table.descriptorsAvailable + request.count }

theorem Holds.getBuffer_eq (holds : table.Holds ringSize requests)
    (member : request ∈ requests) (short : request.count ≤ ringSize) :
    table.getBuffer request.head = some (table.recycle request, request.buffers.head?) := by
  obtain ⟨count, isCount⟩ := Nat.exists_eq_succ_of_ne_zero (holds.nonempty request member).ne'
  rw [Nat.succ_eq_add_one] at isCount
  have loop : (table.setDescriptorBuffer request.head none).getLoop
      (table.setDescriptorBuffer request.head none).mem.length request.head
      (table.setDescriptorBuffer request.head none).descriptorsAvailable =
        some (table.getNext^[count] request.head, table.descriptorsAvailable + count) := by
    apply getLoop_eq
    · intro i lt
      have flag := holds.flags request member i (by omega)
      rwa [isCount] at flag
    · change count < table.mem.length
      rw [holds.size]
      omega
  rw [DescriptorTable.getBuffer, loop, Option.map_some, holds.first request member, recycle,
    isCount, Nat.add_sub_cancel, Nat.add_assoc]
  rfl

theorem mem_middle (request : Request) (before after : List Request) :
    request ∈ before ++ request :: after ∧
      ∀ other ∈ before ++ after, other ∈ before ++ request :: after := by
  refine ⟨List.mem_append_right _ List.mem_cons_self, ?_⟩
  intro other inRest
  apply List.mem_append.mpr
  exact (List.mem_append.mp inRest).imp_right (List.mem_cons_of_mem _)

/-- The flags of a request's descriptors delimit its chain. -/
theorem Holds.chain_eq (holds : table.Holds ringSize requests) (member : request ∈ requests) :
    table.chain request.head = table.linkedFrom request := by
  obtain ⟨count, isCount⟩ := Nat.exists_eq_succ_of_ne_zero (holds.nonempty request member).ne'
  rw [Nat.succ_eq_add_one] at isCount
  obtain ⟨before, after, rfl⟩ := List.append_of_mem member
  have total := holds.partition_split.length_eq
  rw [linkedFrom, List.length_append, List.length_iterate, List.length_range] at total
  rw [chain, linkedFrom, isCount]
  apply chainLoop_eq
  · intro i lt
    have flag := holds.flags request member i (by omega)
    rwa [isCount] at flag
  · rw [holds.size]
    omega

section Recycle

variable (holds : table.Holds ringSize (before ++ request :: after))

include holds

/-- The chain of one request among others: no descriptor twice, none of them free and none
of them in another chain. -/
theorem Holds.chain_apart :
    (table.linkedFrom request).Nodup ∧
      ∀ cell ∈ table.linkedFrom request, cell ∉ table.free ∧
        ∀ other ∈ before ++ after, cell ∉ table.linkedFrom other := by
  have distinct := holds.partition_split.nodup_iff.mpr List.nodup_range
  obtain ⟨chainNodup, -, apart⟩ := List.nodup_append.mp distinct
  refine ⟨chainNodup, fun cell inChain => ⟨?_, ?_⟩⟩
  · intro inFree
    exact apart cell inChain cell (List.mem_append_left _ inFree) rfl
  · intro other inRest inOther
    have listed := List.mem_flatten.mpr ⟨_, List.mem_map.mpr ⟨other, inRest, rfl⟩, inOther⟩
    exact apart cell inChain cell (List.mem_append_right _ listed) rfl

theorem Holds.count_le : request.count ≤ ringSize := by
  have total := holds.partition_split.length_eq
  rw [List.length_append, linkedFrom, List.length_iterate, List.length_range] at total
  omega

theorem Holds.last_mem : table.getNext^[request.count - 1] request.head ∈
    table.linkedFrom request := by
  have positive := holds.nonempty request (mem_middle request before after).1
  exact List.mem_iterate.mpr ⟨request.count - 1, by omega, rfl⟩

theorem Holds.getNext_recycle :
    (table.recycle request).getNext =
      Function.update table.getNext (table.getNext^[request.count - 1] request.head)
        table.freeDescriptorHead := by
  have inside := holds.mem_lt (mem_middle request before after).1 holds.last_mem
  rw [← holds.size] at inside
  exact @getNext_setNext (table.setDescriptorBuffer request.head none) _ _ inside holds.headSmall

/-- The other chains are left as they are. -/
theorem Holds.linkedFrom_recycle {other : Request} (inRest : other ∈ before ++ after) :
    (table.recycle request).linkedFrom other = table.linkedFrom other := by
  rw [linkedFrom, holds.getNext_recycle]
  exact Linked.iterate_update_of_notMem ((holds.chain_apart.2 _ holds.last_mem).2 other inRest)

/-- The free list is the chain followed by the free list from before. -/
theorem Holds.free_recycle :
    (table.recycle request).free = table.linkedFrom request ++ table.free := by
  obtain ⟨count, isCount⟩ :=
    Nat.exists_eq_succ_of_ne_zero (holds.nonempty request (mem_middle request before after).1).ne'
  rw [Nat.succ_eq_add_one] at isCount
  obtain ⟨chainNodup, apart⟩ := holds.chain_apart
  have lastNotFree := (apart _ holds.last_mem).1
  rw [free, holds.getNext_recycle]
  change List.iterate _ request.head (table.descriptorsAvailable + request.count) = _
  rw [linkedFrom, isCount] at chainNodup
  rw [isCount, Nat.add_sub_cancel] at lastNotFree ⊢
  rw [Nat.add_comm, Linked.iterate_update_splice chainNodup lastNotFree, linkedFrom, isCount]
  rfl

/-- **Taking back.** Any chain in flight can be taken back: it is put in front of the free
list, the caller gets the request's first buffer, and the other requests keep their chains. -/
theorem Holds.getBuffer :
    table.getBuffer request.head = some (table.recycle request, request.buffers.head?) ∧
      (table.recycle request).Holds ringSize (before ++ after) := by
  obtain ⟨member, others⟩ := mem_middle request before after
  refine ⟨holds.getBuffer_eq member holds.count_le, ?_⟩
  exact
    { ringSize_le := holds.ringSize_le
      size := (setNext_mem_length _ _).trans holds.size
      buffersSize := List.length_set.trans holds.buffersSize
      headSmall := (holds.mem_lt member (holds.head_mem member)).trans_le holds.ringSize_le
      partition := by
        refine List.Perm.trans ?_ holds.partition_split
        rw [holds.free_recycle, List.append_assoc,
          List.map_congr_left fun other inRest => holds.linkedFrom_recycle inRest]
      nonempty := fun other inRest => holds.nonempty other (others other inRest)
      flags := by
        intro other inRest i lt
        have same := Linked.iterate_apply_congr (holds.linkedFrom_recycle inRest) lt
        rw [same]
        change ((table.setDescriptorBuffer request.head none).setNext _ _).hasNext _ = _
        rw [hasNext_setNext]
        exact holds.flags other (others other inRest) i lt
      first := by
        intro other inRest
        have ne : request.head ≠ other.head := by
          intro same
          apply (holds.chain_apart.2 _ (holds.head_mem member)).2 other inRest
          rw [same]
          exact holds.head_mem (others other inRest)
        change (table.setDescriptorBuffer request.head none).getDescriptorBuffer other.head = _
        rw [getDescriptorBuffer_setDescriptorBuffer, if_neg (fun both => ne both.1)]
        exact holds.first other (others other inRest) }

end Recycle

end DescriptorTable

end Virtio
