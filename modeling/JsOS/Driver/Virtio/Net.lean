import JsOS.Driver.Virtio.Directions

/-! # The transmit queue of a network card

The card's `ontransmit` gives the headers and the payload of a frame to the transmit queue,
which takes back the buffers that the device has used before it places new ones. A frame
without a payload has its headers alone; a payload of no bytes is a buffer like any other to
the driver, and none to the system call that looks its address up.
-/

namespace Virtio

namespace Net

/-- A frame as the IPv4 layer hands it to an interface: the headers, which are never empty, and
the payload, if there is one. Neither is longer than a page, where an IPv4 packet has at most
65535 bytes. -/
structure Frame where
  u8headers : Uint8Array
  u8data : Option Uint8Array
  hasHeaders : u8headers.length ≠ 0
  headersFit : u8headers.length ≤ pageSize
  dataFit : ∀ data ∈ u8data, data.length ≤ pageSize

/-- The buffers of a frame. -/
def Frame.buffers (frame : Frame) : List Uint8Array :=
  match frame.u8data with
  | some u8data => [frame.u8headers, u8data]
  | none => [frame.u8headers]

/-- `ontransmit`, up to the notification of the device: how the placement ends, and the entries
taken back. There is no result when it does not end. -/
def ontransmit (translate : ℕ → ℕ) (transmitQueue : VRing) (frame : Frame) :
    Option (VRing × Outcome × List Completion) :=
  match frame.u8data with
  | some u8data => transmitQueue.placeBuffers translate [frame.u8headers, u8data] false none
  | none => transmitQueue.placeBuffers translate [frame.u8headers] false none

theorem ontransmit_eq (translate : ℕ → ℕ) (transmitQueue : VRing) (frame : Frame) :
    ontransmit translate transmitQueue frame =
      transmitQueue.placeBuffers translate frame.buffers false none := by
  unfold ontransmit Frame.buffers
  cases frame.u8data <;> rfl

/-! ## The queue over time -/

/-- A frame is transmitted, or the device publishes that it is done with one. -/
inductive Event where
  | transmit (frame : Frame)
  | complete (element : UsedElement)

/-- The event as one of a virtqueue. -/
def Event.exchange : Event → Exchange.Event
  | .transmit frame => .driver (.placeBuffers frame.buffers false none)
  | .complete element => .complete element

/-- The transmit queue after the driver has set it up and a list of events. -/
def queueAfter (translate : ℕ → ℕ) (memory : Memory) (ringSize : ℕ) (events : List Event) :
    Exchange :=
  Exchange.after translate memory ringSize
    (.driver .suppressUsedBuffers :: events.map Event.exchange)

/-! ## What the device sees -/

/-- The descriptors that a device reads from one on, as long as the chain goes on. -/
def chainFrom (table : DescriptorTable) : ℕ → ℕ → List Descriptor
  | 0, _ => []
  | fuel + 1, descriptorId =>
      table.get descriptorId ::
        if table.hasNext descriptorId then chainFrom table fuel (table.getNext descriptorId)
        else []

/-- The chain that the device finds in the entry of the available ring for an index. -/
def visibleChain (ring : VRing) (idx : BitVec 16) : List Descriptor :=
  chainFrom ring.descriptorTable ring.descriptorTable.mem.length
    (ring.availableRing.readDescriptorAsDevice (ring.availableRing.slot idx)).toNat

/-- One more chain is visible to the device: the headers and then the payload, to be read. -/
structure Visible (translate : ℕ → ℕ) (before after : VRing) (frame : Frame) : Prop where
  index : after.availableRing.idx = before.availableRing.idx + 1
  chain : (visibleChain after before.availableRing.idx).map Descriptor.entry =
    entriesOf ((frame.buffers.flatMap (stretches translate)).map fun stretch => (stretch, false))
  lengths : ∀ u8 ∈ frame.buffers, ((stretches translate u8).map Stretch.length).sum = u8.length

/-- Nothing is changed but that all used buffers are taken back, and too few descriptors are
free then. -/
structure Declined (translate : ℕ → ℕ) (before : Exchange) (after : VRing)
    (completions : List Completion) (frame : Frame) : Prop where
  fetched : before.ring.fetchBuffers = some (after, completions)
  reclaimed : (before.take after completions).pending = []
  full : after.descriptorTable.descriptorsAvailable <
    (frame.buffers.flatMap (stretches translate)).length

/-- The call returns, and the frame is in the queue or the queue is full. -/
def Accepts (translate : ℕ → ℕ) (before : Exchange) (frame : Frame) : Prop :=
  ∃ after completions,
    (ontransmit translate before.ring frame = some (after, .returned true, completions) ∧
      Visible translate before.ring after frame) ∨
    (ontransmit translate before.ring frame = some (after, .returned false, completions) ∧
      Declined translate before after completions frame)

/-! ## Following a chain -/

/-- A chain whose entries end with the last of the parts is followed to its end. -/
theorem chainFrom_eq {table : DescriptorTable} {count fuel : ℕ} {head i : ℕ}
    {parts : List (Stretch × Bool)} (notEmpty : parts ≠ []) (enough : parts.length ≤ fuel)
    (total : i + parts.length = count)
    (entries : (List.iterate table.getNext head parts.length).map (fun cell =>
      (table.get cell).entry) = entriesFrom count i parts) :
    (chainFrom table fuel head).map Descriptor.entry = entriesFrom count i parts := by
  induction parts generalizing fuel head i with
  | nil => exact absurd rfl notEmpty
  | cons part parts ih =>
      obtain ⟨fuel, rfl⟩ : ∃ more, fuel = more + 1 :=
        Nat.exists_eq_succ_of_ne_zero (by rw [List.length_cons] at enough; omega)
      obtain ⟨stretch, writeOnly⟩ := part
      obtain ⟨first, later⟩ := List.cons.inj entries
      have here : (table.get head).entry = ⟨BitVec.ofNat 64 stretch.address,
          BitVec.ofNat 32 stretch.length, DescriptorTable.bufferFlags count i writeOnly⟩ := first
      have goesOn : table.hasNext head = decide (count ≠ i + 1) := by
        rw [DescriptorTable.hasNext, show (table.get head).flags = _ from (Entry.mk.inj here).2.2,
          DescriptorTable.bufferFlags_next]
      rw [List.length_cons] at total enough
      rw [chainFrom, List.map_cons, here, goesOn]
      cases parts with
      | nil =>
          rw [List.length_nil] at total
          rw [decide_eq_false (by omega), if_neg Bool.false_ne_true]
          rfl
      | cons next parts =>
          rw [decide_eq_true (by rw [List.length_cons] at total; omega), if_pos rfl]
          exact congrArg (List.cons _) (ih (List.cons_ne_nil _ _) (by omega) (by omega) later)

/-! ## The queue is suppressed -/

theorem buffers_ne_nil (frame : Frame) : frame.buffers ≠ [] := by
  unfold Frame.buffers
  split <;> exact List.cons_ne_nil _ _

/-- What holds of the transmit queue, and stays so. -/
def Set (ringSize : ℕ) (exchange : Exchange) : Prop :=
  exchange.Valid ringSize ∧ exchange.ring.suppressInterrupts = true

theorem Set.step {ringSize : ℕ} {exchange : Exchange} (set : Set ringSize exchange)
    (translate : ℕ → ℕ) (event : Event) :
    Set ringSize (Exchange.step translate exchange event.exchange) := by
  obtain ⟨valid, suppressed⟩ := set
  have hasBuffers : event.exchange.HasBuffers := by
    cases event with
    | transmit frame => exact buffers_ne_nil frame
    | complete element => trivial
  refine ⟨valid.step translate hasBuffers, ?_⟩
  cases event with
  | transmit frame =>
      have running : ¬exchange.stuck = true := by
        rw [valid.running]
        exact Bool.false_ne_true
      change (exchange.call translate (.placeBuffers frame.buffers false none)).ring.suppressInterrupts
        = true
      rw [Exchange.call, if_neg running]
      obtain ⟨ring, completions, takes, only | ⟨parts, _, _, placed⟩⟩ :=
        valid.placeBuffers_cases translate frame.buffers false none
      · rw [only]
        exact takes.suppress.trans suppressed
      · rw [placed]
        exact takes.suppress.trans suppressed
  | complete element =>
      change (if exchange.CanComplete element.id.toNat then exchange.publish element
        else exchange).ring.suppressInterrupts = true
      split <;> exact suppressed

theorem set_after (translate : ℕ → ℕ) (memory : Memory) {ringSize : ℕ}
    (power : ∃ exponent, exponent ≤ 16 ∧ ringSize = 2 ^ exponent) (events : List Event) :
    Set ringSize (queueAfter translate memory ringSize events) := by
  have created := Exchange.valid_create memory power
  have start : Set ringSize (Exchange.create memory ringSize).suppressUsedBuffers :=
    ⟨@Exchange.Valid.call _ _ created translate .suppressUsedBuffers trivial, rfl⟩
  unfold queueAfter Exchange.after
  rw [Transition.run_cons]
  apply @Transition.run_invariant _ _ _ (Set ringSize)
    fun _ event => ∃ own : Event, event = own.exchange
  · rintro exchange _ set ⟨own, rfl⟩
    exact set.step translate own
  · exact start
  · refine Transition.Along.of_inputs fun event among => ?_
    obtain ⟨own, _, rfl⟩ := List.mem_map.mp among
    exact ⟨own, rfl⟩

/-! ## Placing a frame -/

theorem splitBuffers_eq_none_iff (translate : ℕ → ℕ) (buffers : List Uint8Array) :
    VRing.splitBuffers translate buffers = none ↔ ∃ u8 ∈ buffers, u8.length = 0 := by
  induction buffers with
  | nil => exact ⟨fun none => (nomatch none), fun ⟨_, among, _⟩ => (nomatch among)⟩
  | cons u8 buffers ih =>
      rw [List.exists_mem_cons_iff, ← ih, VRing.splitBuffers]
      by_cases empty : u8.length = 0
      · rw [bufferAddress, if_pos empty]
        exact ⟨fun _ => .inl empty, fun _ => rfl⟩
      · obtain ⟨addr, found⟩ : ∃ addr, bufferAddress translate u8 = some addr := by
          rw [bufferAddress, if_neg empty]
          dsimp only
          split <;> exact ⟨_, rfl⟩
        rw [found]
        cases VRing.splitBuffers translate buffers with
        | none => exact ⟨fun _ => .inr rfl, fun _ => rfl⟩
        | some rest =>
            dsimp only
            constructor
            · intro none
              split at none <;> cases none
            · rintro (no | no)
              · exact absurd no empty
              · cases no

/-- A buffer of at most a page ends before its second physical page does. -/
theorem ends_before {translate : ℕ → ℕ} {u8 : Uint8Array} (fits : u8.length ≤ pageSize) :
    translate u8.address % pageSize + u8.length < 2 * pageSize := by
  have inside : translate u8.address % pageSize < pageSize := Nat.mod_lt _ (by decide)
  omega

theorem Frame.fits (frame : Frame) : ∀ u8 ∈ frame.buffers, u8.length ≤ pageSize := by
  have data := frame.dataFit
  unfold Frame.buffers
  cases found : frame.u8data with
  | none => exact List.forall_mem_singleton.mpr frame.headersFit
  | some u8data =>
      rw [found] at data
      exact List.forall_mem_cons.mpr
        ⟨frame.headersFit, List.forall_mem_singleton.mpr (data u8data rfl)⟩

/-- Without flags no stretch is written. -/
theorem meant_unset (translate : ℕ → ℕ) (buffers : List Uint8Array) :
    meant translate buffers (flagsOf buffers false none) =
      (buffers.flatMap (stretches translate)).map fun stretch => (stretch, false) := by
  induction buffers with
  | nil => rfl
  | cons u8 buffers ih =>
      rw [List.flatMap_cons, List.map_append, ← ih]
      rfl

/-- The parts of a frame are its stretches. -/
theorem length_parts {translate : ℕ → ℕ} {frame : Frame} {parts : List (Uint8Array × ℕ)}
    (split : VRing.splitBuffers translate frame.buffers = some parts) :
    parts.length = (frame.buffers.flatMap (stretches translate)).length := by
  have parted := splitBuffers_stretches
    (fun u8 among => Nat.le_of_lt (ends_before (frame.fits u8 among))) split
  rw [← (length_reported_iff translate frame.buffers).2.mpr
    fun u8 among => Nat.ne_of_lt (ends_before (frame.fits u8 among)), ← parted, List.length_map]

/-- **A placed frame is visible.** -/
theorem visible_ringPlaced {exchange : Exchange} {ringSize : ℕ} (valid : exchange.Valid ringSize)
    {translate : ℕ → ℕ} {before : VRing} {frame : Frame} {parts : List (Uint8Array × ℕ)}
    (index : exchange.ring.availableRing.idx = before.availableRing.idx)
    (split : VRing.splitBuffers translate frame.buffers = some parts)
    (enough : parts.length ≤ exchange.ring.descriptorTable.descriptorsAvailable) :
    Visible translate before
      (Exchange.ringPlaced translate (VRing.writeOnly false none) exchange.ring parts) frame := by
  have twoPages (u8) (among : u8 ∈ frame.buffers) : OnTwoPages translate u8 :=
    Nat.le_of_lt (ends_before (frame.fits u8 among))
  have chain := valid.writtenChain_eq (VRing.writeOnly false none) split enough
  have same : entriesFrom parts.length 0 (flagged translate (VRing.writeOnly false none) 0 parts) =
      entriesOf (meant translate frame.buffers (flagsOf frame.buffers false none)) :=
    (entries_iff (fun _ among => absurd among (Option.not_mem_none _)) twoPages split).mpr
      ⟨fun u8 among => Nat.ne_of_lt (ends_before (frame.fits u8 among)),
        fun _ among => absurd among (Option.not_mem_none _)⟩
  have headEntry := valid.entryPlaced_eq translate (VRing.writeOnly false none) parts
  have request := valid.requestPlaced_eq (VRing.writeOnly false none) 0 split
  generalize placedIs : Exchange.ringPlaced translate (VRing.writeOnly false none) exchange.ring
    parts = placed at chain headEntry request ⊢
  have indexAfter : placed.availableRing.idx = before.availableRing.idx + 1 := by
    rw [← placedIs, ← index]
    rfl
  have size : placed.descriptorTable.mem.length = ringSize := by
    rw [← placedIs, ← valid.table.size]
    change (exchange.ring.descriptorTable.placeBuffers _ _ parts).1.mem.length = _
    rw [DescriptorTable.placeBuffers_eq _ _ enough]
    exact (DescriptorTable.placeLoop_sizes _ _ _ _ _ _).1
  have available := valid.table.available_add
  -- the device reads the head of the chain and follows it to its end
  have head : (placed.availableRing.readDescriptorAsDevice
      (placed.availableRing.slot before.availableRing.idx)).toNat =
      exchange.ring.descriptorTable.freeDescriptorHead := by
    have slot : before.availableRing.idx = placed.availableRing.idx - 1 := by
      rw [indexAfter, BitVec.add_sub_cancel]
    rw [slot]
    change (Exchange.entryPlaced placed).toNat = _
    rw [headEntry, BitVec.toNat_ofNat, Nat.mod_eq_of_lt valid.table.headSmall]
  have notEmpty : flagged translate (VRing.writeOnly false none) 0 parts ≠ [] := by
    intro empty
    have none : parts = [] := by
      cases parts with
      | nil => rfl
      | cons part parts => cases empty
    have lengths := Exchange.splitBuffers_head split
    rw [none] at lengths
    exact buffers_ne_nil frame (List.head?_eq_none_iff.mp lengths.symm)
  have flaggedLength : (flagged translate (VRing.writeOnly false none) 0 parts).length =
      parts.length := by
    rw [← List.length_map (f := Prod.fst), flagged_fst, List.length_map]
  refine ⟨indexAfter, ?_, fun u8 _ => sum_stretches translate u8⟩
  rw [writtenChain, request, List.map_map] at chain
  rw [visibleChain, head, size, ← meant_unset, ← same]
  refine chainFrom_eq notEmpty (by rw [flaggedLength]; omega)
    (by rw [flaggedLength, Nat.zero_add]) ?_
  rw [flaggedLength]
  exact chain

/-- **Which frames the card accepts.** In every state of the transmit queue, a frame is placed
where the device sees it, or declined because the queue is full of frames that are still in
use, exactly when its payload is not an array without bytes. -/
theorem ontransmit_accepts_iff (translate : ℕ → ℕ) (memory : Memory) (exponent : ℕ)
    (small : exponent < 16) (events : List Event) (frame : Frame) :
    Accepts translate (queueAfter translate memory (2 ^ exponent) events) frame ↔
      ∀ u8data ∈ frame.u8data, u8data.length ≠ 0 := by
  obtain ⟨valid, suppressed⟩ := set_after translate memory ⟨exponent, Nat.le_of_lt small, rfl⟩ events
  generalize queueAfter translate memory (2 ^ exponent) events = before at valid suppressed ⊢
  obtain ⟨fetched, completions, fetches, takes, seesNone⟩ := valid.fetchBuffers
  have calls : ontransmit translate before.ring frame =
      some ((fetched.supply translate frame.buffers false none).1,
        (fetched.supply translate frame.buffers false none).2, completions) := by
    rw [ontransmit_eq, VRing.placeBuffers, VRing.fetchSuppressed, if_pos suppressed, fetches]
    rfl
  have empties : VRing.splitBuffers translate frame.buffers = none ↔
      ¬∀ u8data ∈ frame.u8data, u8data.length ≠ 0 := by
    rw [splitBuffers_eq_none_iff]
    unfold Frame.buffers
    cases frame.u8data with
    | none =>
        constructor
        · rintro ⟨u8, among, empty⟩
          rw [List.mem_singleton.mp among] at empty
          exact absurd empty frame.hasHeaders
        · intro some
          exact absurd (fun _ among => absurd among (Option.not_mem_none _)) some
    | some u8data =>
        constructor
        · rintro ⟨u8, among, empty⟩ all
          rcases List.mem_cons.mp among with rfl | among
          · exact frame.hasHeaders empty
          · rw [List.mem_singleton.mp among] at empty
            exact all u8data rfl empty
        · intro some
          refine ⟨u8data, List.mem_cons_of_mem _ List.mem_cons_self, ?_⟩
          by_contra more
          exact some fun _ same => Option.some.inj same ▸ more
  obtain ⟨noSplit, thrown⟩ | ⟨parts, split, rest⟩ :=
    Exchange.supply_cases translate fetched frame.buffers false none
  · refine ⟨fun accepts => ?_, fun all => absurd all (empties.mp noSplit)⟩
    obtain ⟨after, _, ⟨call, -⟩ | ⟨call, -⟩⟩ := accepts
    all_goals
      rw [calls, thrown] at call
      cases call
  · have all : ∀ u8data ∈ frame.u8data, u8data.length ≠ 0 := by
      by_contra some
      rw [empties.mpr some] at split
      cases split
    refine ⟨fun _ => all, fun _ => ?_⟩
    obtain ⟨few, refused⟩ | ⟨enough, placed⟩ := rest
    · refine ⟨fetched, completions, .inr ⟨by rw [calls, refused], fetches, ?_, ?_⟩⟩
      · have none := (takes.valid.hasUnprocessedBuffers_iff).not.mp (by
          rw [Exchange.take_ring, seesNone]
          exact Bool.false_ne_true)
        have bound := takes.valid.pending_length_le
        have below : 2 ^ exponent < 2 ^ 16 := Nat.pow_lt_pow_right (Nat.le_refl 2) small
        rw [not_not, Nat.mod_eq_of_lt (by omega)] at none
        exact List.length_eq_zero_iff.mp none
      · rw [← length_parts split]
        exact few
    · refine ⟨_, completions, .inl ⟨by rw [calls, placed], ?_⟩⟩
      have index : (before.take fetched completions).ring.availableRing.idx =
          before.ring.availableRing.idx := takes.available.1
      exact visible_ringPlaced takes.valid index split enough

/-- A frame of a UDP datagram over two pages. -/
def datagram : Frame where
  u8headers := ⟨0x1000, 52⟩
  u8data := some ⟨0x1fff00, 1000⟩
  hasHeaders := by decide
  headersFit := by decide
  dataFit _ same := Option.some.inj same ▸ by decide

/-- It is transmitted behind another one that the device is done with. -/
theorem ontransmit_accepts_iff_datagram :
    Accepts id (queueAfter id Exchange.zeroMemory (2 ^ 2)
        [.transmit datagram, .complete ⟨0, 0⟩]) datagram ↔
      ∀ u8data ∈ datagram.u8data, u8data.length ≠ 0 :=
  ontransmit_accepts_iff id Exchange.zeroMemory 2 (by decide)
    [.transmit datagram, .complete ⟨0, 0⟩] datagram

/-- The frame of a UDP datagram without bytes. -/
def emptyDatagram : Frame where
  u8headers := ⟨0x1000, 52⟩
  u8data := some ⟨0x2000, 0⟩
  hasHeaders := by decide
  headersFit := by decide
  dataFit _ same := Option.some.inj same ▸ by decide

/-- It is not accepted by the fresh queue: the call throws. -/
theorem emptyDatagram_thrown :
    (ontransmit id (queueAfter id Exchange.zeroMemory (2 ^ 2) []).ring emptyDatagram).map
        (fun result => result.2.1) = some .thrown ∧
      ¬Accepts id (queueAfter id Exchange.zeroMemory (2 ^ 2) []) emptyDatagram := by
  have thrown : (ontransmit id (queueAfter id Exchange.zeroMemory (2 ^ 2) []).ring
      emptyDatagram).map (fun result => result.2.1) = some .thrown := by decide +kernel
  refine ⟨thrown, fun ⟨after, completions, accepts⟩ => ?_⟩
  rcases accepts with ⟨call, -⟩ | ⟨call, -⟩
  all_goals
    rw [call] at thrown
    cases thrown

end Net

end Virtio
