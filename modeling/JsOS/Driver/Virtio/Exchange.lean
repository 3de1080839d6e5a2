import JsOS.Driver.Virtio.DescriptorTable
import JsOS.Library.RingBuffer
import JsOS.Library.Run

/-! # Requests and their completions

A virtqueue with the requests its driver has placed and the entries the device has
published in the used ring. Beside the ring the state records what happened: the
requests in flight, the entries published so far and the entries the driver has taken,
each with the buffer it found. `Exchange.Valid` ties the record to the memory, and every
operation keeps it; in particular an entry is taken with the buffer of the request that
is in flight under its descriptor.
-/

namespace Virtio

/-- A virtqueue and the record of its use. -/
structure Exchange where
  ring : VRing
  /-- A call into the ring has not returned. -/
  stuck : Bool
  /-- The entries of the available ring, as the driver has written them. -/
  placed : List (BitVec 16)
  outstanding : List Request
  published : List UsedElement
  taken : List Completion
deriving DecidableEq, Repr

namespace Exchange

def create (memory : Memory) (ringSize : ℕ) : Exchange where
  ring := .create memory ringSize
  stuck := false
  placed := []
  outstanding := []
  published := []
  taken := []

variable (exchange : Exchange)

/-- The published entries that the driver has not taken. -/
def pending : List UsedElement := exchange.published.drop exchange.taken.length

/-- The requests that stay in flight when the chains of the entries are taken back. -/
def remaining (outstanding : List Request) (completions : List Completion) : List Request :=
  completions.foldl
    (fun outstanding completion =>
      outstanding.eraseP fun request => request.head == completion.used.id.toNat)
    outstanding

/-- The driver has taken entries and left the ring as given. -/
def take (ring : VRing) (completions : List Completion) : Exchange :=
  { exchange with
    ring := ring
    outstanding := remaining exchange.outstanding completions
    taken := exchange.taken ++ completions }

/-- The state after a call that takes entries, or never returns. -/
def afterFetch (fetched : Option (VRing × List Completion)) : Exchange :=
  match fetched with
  | none => { exchange with stuck := true }
  | some (ring, completions) => exchange.take ring completions

/-- The entry the device reads from the slot before the index of the available ring. -/
def entryPlaced (ring : VRing) : BitVec 16 :=
  ring.availableRing.readDescriptorAsDevice
    (ring.availableRing.slot (ring.availableRing.idx - 1))

/-- The request just placed, with the head the device reads. -/
def requestPlaced (translate : ℕ → ℕ) (serial : ℕ) (ring : VRing) (buffers : List Uint8Array) :
    Request where
  serial := serial
  head := (entryPlaced ring).toNat
  buffers := buffers
  count := ((VRing.splitBuffers translate buffers).getD []).length

/-- The driver has placed a request and left the ring as given. -/
def place (translate : ℕ → ℕ) (ring : VRing) (buffers : List Uint8Array) : Exchange :=
  { exchange with
    ring := ring
    placed := exchange.placed ++ [entryPlaced ring]
    outstanding := exchange.outstanding ++
      [requestPlaced translate exchange.placed.length ring buffers] }

def placeBuffers (translate : ℕ → ℕ) (buffers : List Uint8Array) (isWriteOnly : Bool)
    (isWriteOnlyArray : Option (List Bool)) : Exchange :=
  match exchange.ring.placeBuffers translate buffers isWriteOnly isWriteOnlyArray with
  | none => { exchange with stuck := true }
  | some (ring, outcome, completions) =>
      let fetched := exchange.take ring completions
      if outcome = .returned true then fetched.place translate ring buffers else fetched

def getBuffer : Exchange :=
  exchange.afterFetch (exchange.ring.getBuffer.map fun got => (got.1, got.2.toList))

def fetchBuffers : Exchange := exchange.afterFetch exchange.ring.fetchBuffers

def suppressUsedBuffers : Exchange :=
  { exchange with ring := exchange.ring.suppressUsedBuffers }

/-- A call of the driver into the virtqueue. -/
inductive Call where
  | placeBuffers (buffers : List Uint8Array) (isWriteOnly : Bool)
      (isWriteOnlyArray : Option (List Bool))
  | getBuffer
  | fetchBuffers
  | suppressUsedBuffers
deriving DecidableEq, Repr

/-- What a call does. A call that has not returned keeps the driver from making another. -/
def call (translate : ℕ → ℕ) (exchange : Exchange) : Call → Exchange
  | .placeBuffers buffers isWriteOnly isWriteOnlyArray =>
      if exchange.stuck then exchange
      else exchange.placeBuffers translate buffers isWriteOnly isWriteOnlyArray
  | .getBuffer => if exchange.stuck then exchange else exchange.getBuffer
  | .fetchBuffers => if exchange.stuck then exchange else exchange.fetchBuffers
  | .suppressUsedBuffers => if exchange.stuck then exchange else exchange.suppressUsedBuffers

/-- A placed list of buffers has at least one. -/
def Call.HasBuffers : Call → Prop
  | .placeBuffers buffers _ _ => buffers ≠ []
  | _ => True

instance Call.HasBuffers.decidable : ∀ call : Call, Decidable call.HasBuffers
  | .placeBuffers buffers _ _ => inferInstanceAs (Decidable (buffers ≠ []))
  | .getBuffer => .isTrue trivial
  | .fetchBuffers => .isTrue trivial
  | .suppressUsedBuffers => .isTrue trivial

/-- The device publishes an entry. -/
def publish (element : UsedElement) : Exchange :=
  { exchange with
    ring := { exchange.ring with usedRing := exchange.ring.usedRing.publishAsDevice element }
    published := exchange.published ++ [element] }

/-! ## What the record says about the memory -/

/-- The record agrees with the memory of the ring. -/
structure Valid (exchange : Exchange) (ringSize : ℕ) : Prop where
  running : exchange.stuck = false
  /-- The size of the ring divides the number of values of an index. -/
  divides : ∃ exponent, exponent ≤ 16 ∧ ringSize = 2 ^ exponent
  table : exchange.ring.descriptorTable.Holds ringSize exchange.outstanding
  nonempty : ∀ request ∈ exchange.outstanding, request.buffers ≠ []
  availableSize : exchange.ring.availableRing.ringSize = ringSize
  availableLength : exchange.ring.availableRing.ring.length = ringSize
  usedSize : exchange.ring.usedRing.ringSize = ringSize
  usedLength : exchange.ring.usedRing.ringElements.length = ringSize
  /-- Entries are taken in the order in which they are published. -/
  inOrder : exchange.taken.map Completion.used ++ exchange.pending = exchange.published
  index : exchange.ring.usedRing.idx =
    exchange.ring.usedRing.lastUsedIndex + BitVec.ofNat 16 exchange.pending.length
  elements : RingBuffer.Holds exchange.ring.usedRing.ringElements
    exchange.ring.usedRing.lastUsedIndex.toNat exchange.pending
  /-- The entries not taken yet are of different requests in flight. -/
  pendingNodup : (exchange.pending.map fun element => element.id.toNat).Nodup
  pendingHeads : ∀ element ∈ exchange.pending,
    element.id.toNat ∈ exchange.outstanding.map Request.head

variable {exchange : Exchange} {ringSize : ℕ}

theorem valid_create (memory : Memory) {ringSize : ℕ}
    (power : ∃ exponent, exponent ≤ 16 ∧ ringSize = 2 ^ exponent) :
    (create memory ringSize).Valid ringSize := by
  obtain ⟨exponent, le, rfl⟩ := power
  exact
    { running := rfl
      divides := ⟨exponent, le, rfl⟩
      table := DescriptorTable.holds_create _ (Nat.pow_le_pow_right Nat.two_pos le)
      nonempty := fun _ member => absurd member List.not_mem_nil
      availableSize := rfl
      availableLength := (List.length_map _).trans List.length_range
      usedSize := rfl
      usedLength := (List.length_map _).trans List.length_range
      inOrder := rfl
      index := rfl
      elements := RingBuffer.holds_nil _ _
      pendingNodup := List.nodup_nil
      pendingHeads := fun _ member => absurd member List.not_mem_nil }

/-- There are at most as many entries to take as the ring has slots. -/
theorem Valid.pending_length_le (valid : exchange.Valid ringSize) :
    exchange.pending.length ≤ ringSize := by
  rw [← valid.usedLength]
  exact valid.elements.1

theorem Valid.dvd (valid : exchange.Valid ringSize) : ringSize ∣ 2 ^ 16 := by
  obtain ⟨exponent, le, rfl⟩ := valid.divides
  exact pow_dvd_pow 2 le

/-- The driver sees entries to take unless their number is a full turn of the index. -/
theorem Valid.hasUnprocessedBuffers_iff (valid : exchange.Valid ringSize) :
    exchange.ring.usedRing.hasUnprocessedBuffers = true ↔
      exchange.pending.length % 2 ^ 16 ≠ 0 := by
  rw [UsedRing.hasUnprocessedBuffers, bne_iff_ne, valid.index, ne_comm, ne_eq, add_eq_left]
  apply not_congr
  constructor
  · intro zero
    simpa using congrArg BitVec.toNat zero
  · intro zero
    exact BitVec.eq_of_toNat_eq (by simpa using zero)

/-! ## Taking entries -/

@[simp] theorem take_ring (ring : VRing) (completions : List Completion) :
    (exchange.take ring completions).ring = ring := rfl

theorem take_nil (ring : VRing) : exchange.take ring [] = { exchange with ring := ring } := by
  rw [take, List.append_nil]
  rfl

theorem remaining_append (outstanding : List Request) (earlier later : List Completion) :
    remaining outstanding (earlier ++ later) = remaining (remaining outstanding earlier) later :=
  List.foldl_append

theorem take_take (first second : VRing) (earlier later : List Completion) :
    (exchange.take first earlier).take second later =
      exchange.take second (earlier ++ later) := by
  simp [take, remaining]

theorem pending_take (ring : VRing) (completions : List Completion) :
    (exchange.take ring completions).pending = exchange.pending.drop completions.length := by
  change exchange.published.drop (exchange.taken ++ completions).length = _
  rw [List.length_append, ← List.drop_drop]
  rfl

/-- The requests that remain were in flight before. -/
theorem remaining_subset (outstanding : List Request) (completions : List Completion) :
    remaining outstanding completions ⊆ outstanding := by
  induction completions generalizing outstanding with
  | nil => exact List.Subset.refl _
  | cons completion completions ih => exact List.Subset.trans (ih _) List.eraseP_subset

/-- What taking entries does: the record stays valid, each entry comes with the buffer of
the request in flight under its descriptor, and the driver's side of the available ring
stays as it was. -/
structure Takes (exchange : Exchange) (ringSize : ℕ) (ring : VRing)
    (completions : List Completion) : Prop where
  valid : (exchange.take ring completions).Valid ringSize
  matched : ∀ completion ∈ completions, ∃ request ∈ exchange.outstanding,
    request.head = completion.used.id.toNat ∧ completion.buffer = request.buffers.head?
  /-- The requests that are no longer in flight are those of the entries. -/
  removed : (exchange.outstanding.map Request.head).Perm
    ((remaining exchange.outstanding completions).map Request.head ++
      completions.map fun completion => completion.used.id.toNat)
  suppress : ring.suppressInterrupts = exchange.ring.suppressInterrupts
  available : ring.availableRing.idx = exchange.ring.availableRing.idx ∧
    ring.availableRing.ring = exchange.ring.availableRing.ring

/-- A change of the ring that leaves the table, the used ring and the size of the available
ring as they were does not matter. -/
theorem Valid.of_ring (valid : exchange.Valid ringSize) {ring : VRing}
    (table : ring.descriptorTable = exchange.ring.descriptorTable)
    (used : ring.usedRing = exchange.ring.usedRing)
    (availableSize : ring.availableRing.ringSize = exchange.ring.availableRing.ringSize)
    (availableLength :
      ring.availableRing.ring.length = exchange.ring.availableRing.ring.length) :
    ({ exchange with ring := ring } : Exchange).Valid ringSize :=
  { valid with
    table := by rw [table]; exact valid.table
    availableSize := availableSize.trans valid.availableSize
    availableLength := availableLength.trans valid.availableLength
    usedSize := by rw [used]; exact valid.usedSize
    usedLength := by rw [used]; exact valid.usedLength
    index := by rw [used]; exact valid.index
    elements := by rw [used]; exact valid.elements }

theorem Takes.trans {first second : VRing} {earlier later : List Completion}
    (takes : exchange.Takes ringSize first earlier)
    (more : (exchange.take first earlier).Takes ringSize second later) :
    exchange.Takes ringSize second (earlier ++ later) where
  valid := by
    rw [← take_take]
    exact more.valid
  matched := by
    intro completion member
    obtain early | late := List.mem_append.mp member
    · exact takes.matched completion early
    · obtain ⟨request, inFlight, found⟩ := more.matched completion late
      exact ⟨request, remaining_subset _ _ inFlight, found⟩
  removed := by
    refine takes.removed.trans ?_
    refine (more.removed.append_right _).trans ?_
    change ((remaining (remaining _ earlier) later).map Request.head ++ _ ++ _).Perm _
    rw [remaining_append, List.map_append, List.append_assoc]
    exact List.perm_append_comm.append_left _
  suppress := more.suppress.trans takes.suppress
  available := ⟨more.available.1.trans takes.available.1,
    more.available.2.trans takes.available.2⟩

/-- The first pending entry is the one the driver reads. -/
theorem Valid.getUsedDescriptor_eq (valid : exchange.Valid ringSize) {used : UsedElement}
    {rest : List UsedElement} (split : exchange.pending = used :: rest) :
    exchange.ring.usedRing.getUsedDescriptor =
      ({ exchange.ring.usedRing with
          lastUsedIndex := exchange.ring.usedRing.lastUsedIndex + 1 }, used) := by
  obtain ⟨exponent, -, power⟩ := valid.divides
  have elements := valid.elements
  rw [split] at elements
  have stored := elements.head
  rw [valid.usedLength] at stored
  have read : exchange.ring.usedRing.readElement
      (exchange.ring.usedRing.slot exchange.ring.usedRing.lastUsedIndex) = used := by
    rw [UsedRing.readElement, UsedRing.slot, valid.usedSize, RingBuffer.and_pred_eq_mod power,
      List.getD_eq_getElem?_getD, stored, Option.getD_some]
  rw [UsedRing.getUsedDescriptor, read]

/-- The ring after the entry of a request has been taken. -/
def ringAfter (ring : VRing) (request : Request) : VRing :=
  { ring with
    usedRing := { ring.usedRing with lastUsedIndex := ring.usedRing.lastUsedIndex + 1 }
    descriptorTable := ring.descriptorTable.recycle request
    availableRing := ring.availableRing.setEventIdx (ring.usedRing.lastUsedIndex + 1 + 1) }

/-- Taking the first pending entry keeps the record valid. -/
theorem Valid.takes_first (valid : exchange.Valid ringSize) {used : UsedElement}
    {rest : List UsedElement} {request : Request} {before after : List Request}
    (split : exchange.pending = used :: rest) (head : request.head = used.id.toNat)
    (outstandingIs : exchange.outstanding = before ++ request :: after)
    (erased : remaining exchange.outstanding [{ used := used, buffer := request.buffers.head? }] =
      before ++ after) :
    exchange.Takes ringSize (ringAfter exchange.ring request)
      [{ used := used, buffer := request.buffers.head? }] := by
  obtain ⟨member, others⟩ := DescriptorTable.mem_middle request before after
  have table := valid.table
  have elements := valid.elements
  have index := valid.index
  have pendingNodup := valid.pendingNodup
  rw [outstandingIs] at table
  rw [split] at elements index pendingNodup
  have pendingAfter : (exchange.take (ringAfter exchange.ring request)
      [{ used := used, buffer := request.buffers.head? }]).pending = rest := by
    rw [pending_take, split]
    rfl
  constructor
  · exact
      { running := valid.running
        divides := valid.divides
        table := by
          change (exchange.ring.descriptorTable.recycle request).Holds ringSize (remaining _ _)
          rw [erased]
          exact table.getBuffer.2
        nonempty := fun other inFlight =>
          valid.nonempty other (remaining_subset _ _ inFlight)
        availableSize := valid.availableSize
        availableLength := valid.availableLength
        usedSize := valid.usedSize
        usedLength := valid.usedLength
        inOrder := by
          have inOrder := valid.inOrder
          rw [split] at inOrder
          rw [pendingAfter]
          change (exchange.taken ++ [_]).map Completion.used ++ rest = exchange.published
          rw [← inOrder, List.map_append, List.append_assoc]
          rfl
        index := by
          rw [pendingAfter]
          refine index.trans ?_
          change _ = exchange.ring.usedRing.lastUsedIndex + 1 + _
          rw [List.length_cons, BitVec.add_assoc, Nat.add_comm, BitVec.ofNat_add]
          rfl
        elements := by
          rw [pendingAfter]
          apply elements.pop.congr_start
          rw [valid.usedLength]
          exact (RingBuffer.toNat_add_mod valid.dvd _ 1).symm
        pendingNodup := by
          rw [pendingAfter]
          exact (List.nodup_cons.mp pendingNodup).2
        pendingHeads := by
          intro element inRest
          rw [pendingAfter] at inRest
          have listed := valid.pendingHeads element
            (by rw [split]; exact List.mem_cons_of_mem _ inRest)
          change element.id.toNat ∈ (remaining _ _).map Request.head
          rw [erased]
          rw [outstandingIs] at listed
          have ne : element.id.toNat ≠ request.head := by
            intro same
            apply (List.nodup_cons.mp pendingNodup).1
            exact List.mem_map.mpr ⟨element, inRest, same.trans head⟩
          simp only [List.map_append, List.map_cons, List.mem_append, List.mem_cons] at listed ⊢
          tauto }
  · intro completion isOnly
    obtain rfl := List.mem_singleton.mp isOnly
    refine ⟨request, ?_, head, rfl⟩
    rw [outstandingIs]
    exact member
  · rw [erased, outstandingIs, List.map_singleton, ← head]
    have moved : (before ++ request :: after).Perm (before ++ after ++ [request]) :=
      List.perm_middle.trans (@List.perm_append_comm _ [request] _)
    exact (moved.map Request.head).trans (by rw [List.map_append, List.map_singleton])
  · rfl
  · exact ⟨rfl, rfl⟩

/-- **One entry.** `getBuffer` returns; when it sees an entry it takes the first one that is
pending, with the buffer of the request in flight under that entry's descriptor. -/
theorem Valid.getBuffer (valid : exchange.Valid ringSize) :
    (exchange.pending.length % 2 ^ 16 = 0 ∧
      exchange.ring.getBuffer = some (exchange.ring, none)) ∨
    ∃ used rest request ring, exchange.pending = used :: rest ∧
      exchange.pending.length % 2 ^ 16 ≠ 0 ∧
      request ∈ exchange.outstanding ∧
      exchange.ring.getBuffer =
        some (ring, some { used := used, buffer := request.buffers.head? }) ∧
      exchange.Takes ringSize ring [{ used := used, buffer := request.buffers.head? }] := by
  by_cases sees : exchange.pending.length % 2 ^ 16 = 0
  · refine .inl ⟨sees, ?_⟩
    rw [VRing.getBuffer, if_neg]
    rw [valid.hasUnprocessedBuffers_iff]
    exact not_not.mpr sees
  right
  have nonempty : exchange.pending ≠ [] := by
    intro empty
    rw [empty] at sees
    exact sees rfl
  obtain ⟨used, rest, split⟩ := List.exists_cons_of_ne_nil nonempty
  have inFlight := valid.pendingHeads used (by rw [split]; exact List.mem_cons_self)
  obtain ⟨named, namedMem, namedHead⟩ := List.mem_map.mp inFlight
  obtain ⟨request, before, after, -, isHead, outstandingIs, erased⟩ :=
    @List.exists_of_eraseP _ (fun request : Request => request.head == used.id.toNat) _ _ namedMem
      (by rw [namedHead]; exact beq_self_eq_true _)
  have head : request.head = used.id.toNat := beq_iff_eq.mp isHead
  have table := valid.table
  rw [outstandingIs] at table
  have got := table.getBuffer.1
  rw [head] at got
  refine ⟨used, rest, request, ringAfter exchange.ring request, split, sees, ?_, ?_,
    valid.takes_first split head outstandingIs erased⟩
  · rw [outstandingIs]
    exact (DescriptorTable.mem_middle request before after).1
  · rw [VRing.getBuffer, if_pos (valid.hasUnprocessedBuffers_iff.mpr sees),
      valid.getUsedDescriptor_eq split]
    simp only [got, Option.map_some]
    rfl

/-- A change of the ring that leaves the table, the used ring and the driver's side of the
available ring as they were takes no entry. -/
theorem Valid.takes_nil (valid : exchange.Valid ringSize) {ring : VRing}
    (table : ring.descriptorTable = exchange.ring.descriptorTable)
    (used : ring.usedRing = exchange.ring.usedRing)
    (suppress : ring.suppressInterrupts = exchange.ring.suppressInterrupts)
    (size : ring.availableRing.ringSize = exchange.ring.availableRing.ringSize)
    (idx : ring.availableRing.idx = exchange.ring.availableRing.idx)
    (slots : ring.availableRing.ring = exchange.ring.availableRing.ring) :
    exchange.Takes ringSize ring [] where
  valid := by
    rw [take_nil]
    exact valid.of_ring table used size (by rw [slots])
  matched := fun _ member => absurd member List.not_mem_nil
  removed := by rw [List.map_nil, List.append_nil]; rfl
  suppress := suppress
  available := ⟨idx, slots⟩

theorem Valid.takes_disableInterrupts (valid : exchange.Valid ringSize) :
    exchange.Takes ringSize exchange.ring.disableInterrupts [] := by
  rw [VRing.disableInterrupts]
  split
  · exact valid.takes_nil rfl rfl rfl rfl rfl rfl
  · exact valid.takes_nil rfl rfl rfl rfl rfl rfl

theorem Valid.takes_enableInterrupts (valid : exchange.Valid ringSize) :
    exchange.Takes ringSize exchange.ring.enableInterrupts [] := by
  rw [VRing.enableInterrupts]
  split
  · exact valid.takes_nil rfl rfl rfl rfl rfl rfl
  · exact valid.takes_nil rfl rfl rfl rfl rfl rfl

theorem enableInterrupts_usedRing (ring : VRing) :
    ring.enableInterrupts.usedRing = ring.usedRing := by
  rw [VRing.enableInterrupts]
  split <;> rfl

/-- The inner loop takes entries until the driver sees none. -/
theorem Valid.drain (valid : exchange.Valid ringSize) {fuel : ℕ}
    (enough : exchange.pending.length % 2 ^ 16 < fuel) :
    ∃ ring completions, VRing.drain fuel exchange.ring = some (ring, completions) ∧
      exchange.Takes ringSize ring completions ∧
      ring.usedRing.hasUnprocessedBuffers = false := by
  induction fuel generalizing exchange with
  | zero => exact absurd enough (Nat.not_lt_zero _)
  | succ fuel ih =>
      obtain ⟨none, got⟩ | ⟨used, rest, request, ring, split, some, inFlight, got, takes⟩ :=
        valid.getBuffer
      · refine ⟨exchange.ring, [], ?_, valid.takes_nil rfl rfl rfl rfl rfl rfl, ?_⟩
        · rw [VRing.drain, got]
        · rw [← Bool.not_eq_true, valid.hasUnprocessedBuffers_iff]
          exact not_not.mpr none
      · obtain ⟨first, others, buffersAre⟩ :=
          List.exists_cons_of_ne_nil (valid.nonempty request inFlight)
        have fewer : (exchange.take ring
            [{ used := used, buffer := request.buffers.head? }]).pending.length % 2 ^ 16 <
              fuel := by
          rw [pending_take, List.length_drop, List.length_singleton]
          omega
        obtain ⟨drained, completions, drains, takesRest, seesNone⟩ := ih takes.valid fewer
        refine ⟨drained, _, ?_, takes.trans takesRest, seesNone⟩
        have reported : Completion.result
            { used := used, buffer := request.buffers.head? } ≠ Option.none := by
          simp [Completion.result, buffersAre]
        rw [VRing.drain, got]
        simp only [reported, if_false]
        rw [take_ring] at drains
        rw [drains]
        rfl

/-- **All entries.** `fetchBuffers` returns, and has then taken entries until the driver sees
none. -/
theorem Valid.fetchBuffers (valid : exchange.Valid ringSize) :
    ∃ ring completions, exchange.ring.fetchBuffers = some (ring, completions) ∧
      exchange.Takes ringSize ring completions ∧
      ring.usedRing.hasUnprocessedBuffers = false := by
  have disabled := valid.takes_disableInterrupts
  obtain ⟨drained, completions, drains, takes, seesNone⟩ :=
    disabled.valid.drain (Nat.mod_lt _ (Nat.two_pow_pos 16))
  have enabled := takes.valid.takes_enableInterrupts
  refine ⟨drained.enableInterrupts, completions, ?_, ?_, ?_⟩
  · rw [take_ring] at drains
    rw [VRing.fetchBuffers, show (2 : ℕ) ^ 16 = 65535 + 1 from rfl, VRing.fetchLoop, drains]
    simp only [enableInterrupts_usedRing, seesNone, Bool.false_eq_true, if_false]
  · have both := (disabled.trans takes).trans (by rwa [take_take] at enabled)
    rwa [List.nil_append, List.append_nil] at both
  · rw [enableInterrupts_usedRing]
    exact seesNone

/-- The fetch before a placement. -/
theorem Valid.fetchSuppressed (valid : exchange.Valid ringSize) :
    ∃ ring completions, exchange.ring.fetchSuppressed = some (ring, completions) ∧
      exchange.Takes ringSize ring completions := by
  rw [VRing.fetchSuppressed]
  split
  · obtain ⟨ring, completions, fetched, takes, -⟩ := valid.fetchBuffers
    exact ⟨ring, completions, fetched, takes⟩
  · exact ⟨exchange.ring, [], rfl, valid.takes_nil rfl rfl rfl rfl rfl rfl⟩

/-! ## Placing a request -/

/-- The descriptors of a request start with its first buffer. -/
theorem splitBuffers_head {translate : ℕ → ℕ} {buffers : List Uint8Array}
    {parts : List (Uint8Array × ℕ)} (split : VRing.splitBuffers translate buffers = some parts) :
    parts.head?.map Prod.fst = buffers.head? := by
  cases buffers with
  | nil =>
      obtain rfl := Option.some.inj split
      rfl
  | cons u8 buffers =>
      simp only [VRing.splitBuffers] at split
      split at split
      · split at split <;>
        · obtain rfl := Option.some.inj split
          rfl
      · cases split

theorem Valid.outstanding_length_le (valid : exchange.Valid ringSize) :
    exchange.outstanding.length ≤ ringSize := by
  have inside : exchange.outstanding.map Request.head ⊆ List.range ringSize := by
    intro head listed
    obtain ⟨request, member, rfl⟩ := List.mem_map.mp listed
    exact List.mem_range.mpr (valid.table.mem_lt member (valid.table.head_mem member))
  have le := (valid.table.heads_nodup.subperm inside).length_le
  rwa [List.length_map, List.length_range] at le

/-- The slot the next request goes to is one of the ring's. -/
theorem Valid.slot_eq (valid : exchange.Valid ringSize) (idx : BitVec 16) :
    exchange.ring.availableRing.slot idx = idx.toNat % ringSize := by
  obtain ⟨exponent, -, power⟩ := valid.divides
  rw [AvailableRing.slot, valid.availableSize, RingBuffer.and_pred_eq_mod power]

theorem Valid.ringSize_pos (valid : exchange.Valid ringSize) : 0 < ringSize := by
  obtain ⟨exponent, -, rfl⟩ := valid.divides
  exact Nat.two_pow_pos exponent

/-- The ring after a request whose descriptors are given has been placed. -/
def ringPlaced (translate : ℕ → ℕ) (writeOnly : ℕ → Bool) (ring : VRing)
    (parts : List (Uint8Array × ℕ)) : VRing :=
  { ring with
    descriptorTable := (ring.descriptorTable.placeBuffers translate writeOnly parts).1
    availableRing := ring.availableRing.placeDescriptor ring.descriptorTable.freeDescriptorHead }

/-- How a placement ends: with an exception when a buffer is empty, without effect when too
few descriptors are free, and else with the request in the ring. -/
theorem supply_cases (translate : ℕ → ℕ) (ring : VRing) (buffers : List Uint8Array)
    (isWriteOnly : Bool) (isWriteOnlyArray : Option (List Bool)) :
    (VRing.splitBuffers translate buffers = none ∧
      ring.supply translate buffers isWriteOnly isWriteOnlyArray = (ring, .thrown)) ∨
    ∃ parts, VRing.splitBuffers translate buffers = some parts ∧
      ((ring.descriptorTable.descriptorsAvailable < parts.length ∧
        ring.supply translate buffers isWriteOnly isWriteOnlyArray = (ring, .returned false)) ∨
      (parts.length ≤ ring.descriptorTable.descriptorsAvailable ∧
        ring.supply translate buffers isWriteOnly isWriteOnlyArray =
          (ringPlaced translate (VRing.writeOnly isWriteOnly isWriteOnlyArray) ring parts,
            .returned true))) := by
  cases split : VRing.splitBuffers translate buffers with
  | none =>
      refine .inl ⟨rfl, ?_⟩
      rw [VRing.supply, split]
  | some parts =>
      refine .inr ⟨parts, rfl, ?_⟩
      by_cases few : ring.descriptorTable.descriptorsAvailable < parts.length
      · refine .inl ⟨few, ?_⟩
        rw [VRing.supply, split]
        simp only [DescriptorTable.placeBuffers, if_pos few]
      · refine .inr ⟨Nat.not_lt.mp few, ?_⟩
        rw [VRing.supply, split]
        simp only [DescriptorTable.placeBuffers_eq _ _ (Nat.not_lt.mp few), ringPlaced]

/-- The device reads the first free descriptor as the head of the new request. -/
theorem Valid.entryPlaced_eq (valid : exchange.Valid ringSize) (translate : ℕ → ℕ)
    (writeOnly : ℕ → Bool) (parts : List (Uint8Array × ℕ)) :
    entryPlaced (ringPlaced translate writeOnly exchange.ring parts) =
      BitVec.ofNat 16 exchange.ring.descriptorTable.freeDescriptorHead := by
  have inside : exchange.ring.availableRing.slot exchange.ring.availableRing.idx <
      exchange.ring.availableRing.ring.length := by
    rw [valid.slot_eq, valid.availableLength]
    exact Nat.mod_lt _ valid.ringSize_pos
  change (exchange.ring.availableRing.ring.set _ (BitVec.ofNat 16 _)).getD
    (exchange.ring.availableRing.slot (exchange.ring.availableRing.idx + 1 - 1)) 0 = _
  rw [BitVec.add_sub_cancel, List.getD_eq_getElem?_getD, List.getElem?_set_self inside,
    Option.getD_some]

theorem Valid.requestPlaced_eq (valid : exchange.Valid ringSize) {translate : ℕ → ℕ}
    (writeOnly : ℕ → Bool) (serial : ℕ) {buffers : List Uint8Array}
    {parts : List (Uint8Array × ℕ)}
    (split : VRing.splitBuffers translate buffers = some parts) :
    requestPlaced translate serial (ringPlaced translate writeOnly exchange.ring parts) buffers =
      { serial := serial
        head := exchange.ring.descriptorTable.freeDescriptorHead
        buffers := buffers
        count := parts.length } := by
  rw [requestPlaced, valid.entryPlaced_eq, split, Option.getD_some, BitVec.toNat_ofNat,
    Nat.mod_eq_of_lt valid.table.headSmall]

/-- Placing a request keeps the record valid. -/
theorem Valid.ringPlaced (valid : exchange.Valid ringSize) {translate : ℕ → ℕ}
    (writeOnly : ℕ → Bool) {buffers : List Uint8Array} {parts : List (Uint8Array × ℕ)}
    (nonempty : buffers ≠ [])
    (split : VRing.splitBuffers translate buffers = some parts)
    (enough : parts.length ≤ exchange.ring.descriptorTable.descriptorsAvailable) :
    (exchange.place translate (ringPlaced translate writeOnly exchange.ring parts)
      buffers).Valid ringSize := by
  have first := splitBuffers_head split
  have partsNonempty : parts ≠ [] := by
    rintro rfl
    cases buffers with
    | nil => exact nonempty rfl
    | cons u8 buffers => cases first
  rw [place, valid.requestPlaced_eq writeOnly _ split]
  exact
    { valid with
      table := valid.table.placeBuffers translate writeOnly _ partsNonempty first enough
      nonempty := by
        intro request member
        obtain old | new := List.mem_append.mp member
        · exact valid.nonempty request old
        · obtain rfl := List.mem_singleton.mp new
          exact nonempty
      availableSize := valid.availableSize
      availableLength := List.length_set.trans valid.availableLength
      usedSize := valid.usedSize
      usedLength := valid.usedLength
      index := valid.index
      elements := valid.elements
      pendingHeads := by
        intro element member
        rw [List.map_append]
        exact List.mem_append_left _ (valid.pendingHeads element member) }

/-- A call of `placeBuffers` takes the entries a suppressed ring fetches first, and then
leaves it at that or places the request. -/
theorem Valid.placeBuffers_cases (valid : exchange.Valid ringSize) (translate : ℕ → ℕ)
    (buffers : List Uint8Array) (isWriteOnly : Bool) (isWriteOnlyArray : Option (List Bool)) :
    ∃ ring completions, exchange.Takes ringSize ring completions ∧
      (exchange.placeBuffers translate buffers isWriteOnly isWriteOnlyArray =
          exchange.take ring completions ∨
        ∃ parts, VRing.splitBuffers translate buffers = some parts ∧
          parts.length ≤ ring.descriptorTable.descriptorsAvailable ∧
          exchange.placeBuffers translate buffers isWriteOnly isWriteOnlyArray =
            (exchange.take ring completions).place translate
              (Exchange.ringPlaced translate (VRing.writeOnly isWriteOnly isWriteOnlyArray)
                ring parts) buffers) := by
  obtain ⟨ring, completions, fetched, takes⟩ := valid.fetchSuppressed
  have called : exchange.ring.placeBuffers translate buffers isWriteOnly isWriteOnlyArray =
      some ((ring.supply translate buffers isWriteOnly isWriteOnlyArray).1,
        (ring.supply translate buffers isWriteOnly isWriteOnlyArray).2, completions) := by
    rw [VRing.placeBuffers, fetched]
    rfl
  refine ⟨ring, completions, takes, ?_⟩
  rw [Exchange.placeBuffers, called]
  obtain ⟨-, thrown⟩ | ⟨parts, split, ⟨few, refused⟩ | ⟨enough, placed⟩⟩ :=
    supply_cases translate ring buffers isWriteOnly isWriteOnlyArray
  · left
    rw [thrown]
    rfl
  · left
    rw [refused]
    rfl
  · right
    refine ⟨parts, split, enough, ?_⟩
    rw [placed]
    rfl

/-- A call of `getBuffer` or of `fetchBuffers` takes entries, and `suppressUsedBuffers`
takes none. -/
theorem Valid.getBuffer_takes (valid : exchange.Valid ringSize) :
    ∃ ring completions, exchange.Takes ringSize ring completions ∧
      exchange.getBuffer = exchange.take ring completions := by
  obtain ⟨-, got⟩ | ⟨used, -, request, ring, -, -, -, got, takes⟩ := valid.getBuffer
  · refine ⟨exchange.ring, [], valid.takes_nil rfl rfl rfl rfl rfl rfl, ?_⟩
    rw [Exchange.getBuffer, got]
    rfl
  · refine ⟨ring, _, takes, ?_⟩
    rw [Exchange.getBuffer, got]
    rfl

theorem Valid.fetchBuffers_takes (valid : exchange.Valid ringSize) :
    ∃ ring completions, exchange.Takes ringSize ring completions ∧
      exchange.fetchBuffers = exchange.take ring completions := by
  obtain ⟨ring, completions, fetched, takes, -⟩ := valid.fetchBuffers
  refine ⟨ring, completions, takes, ?_⟩
  rw [Exchange.fetchBuffers, fetched]
  rfl

/-- **What a call does.** Every call takes some entries, perhaps none; a placement may then
place its request, and switching interrupts off changes nothing else. -/
theorem Valid.call_cases (valid : exchange.Valid ringSize) (translate : ℕ → ℕ) (call : Call) :
    (∃ ring completions, exchange.Takes ringSize ring completions ∧
      exchange.call translate call = exchange.take ring completions) ∨
    (∃ ring completions buffers isWriteOnly isWriteOnlyArray parts,
      call = .placeBuffers buffers isWriteOnly isWriteOnlyArray ∧
      exchange.Takes ringSize ring completions ∧
      VRing.splitBuffers translate buffers = some parts ∧
      parts.length ≤ ring.descriptorTable.descriptorsAvailable ∧
      exchange.call translate call = (exchange.take ring completions).place translate
        (Exchange.ringPlaced translate (VRing.writeOnly isWriteOnly isWriteOnlyArray)
          ring parts) buffers) ∨
    (call = .suppressUsedBuffers ∧
      exchange.call translate call = exchange.suppressUsedBuffers) := by
  have running : ¬exchange.stuck = true := by
    rw [valid.running]
    exact Bool.false_ne_true
  cases call with
  | placeBuffers buffers isWriteOnly isWriteOnlyArray =>
      rw [Exchange.call, if_neg running]
      obtain ⟨ring, completions, takes, only | ⟨parts, split, enough, placed⟩⟩ :=
        valid.placeBuffers_cases translate buffers isWriteOnly isWriteOnlyArray
      · exact .inl ⟨ring, completions, takes, only⟩
      · exact .inr (.inl ⟨ring, completions, buffers, isWriteOnly, isWriteOnlyArray, parts, rfl,
          takes, split, enough, placed⟩)
  | getBuffer =>
      rw [Exchange.call, if_neg running]
      exact .inl valid.getBuffer_takes
  | fetchBuffers =>
      rw [Exchange.call, if_neg running]
      exact .inl valid.fetchBuffers_takes
  | suppressUsedBuffers =>
      rw [Exchange.call, if_neg running]
      exact .inr (.inr ⟨rfl, rfl⟩)

/-- Every call keeps the record in agreement with the memory. -/
theorem Valid.call (valid : exchange.Valid ringSize) (translate : ℕ → ℕ) {call : Call}
    (hasBuffers : call.HasBuffers) : (exchange.call translate call).Valid ringSize := by
  obtain ⟨ring, completions, takes, is⟩ |
    ⟨ring, completions, buffers, isWriteOnly, isWriteOnlyArray, parts, rfl, takes, split, enough,
      is⟩ | ⟨rfl, is⟩ := valid.call_cases translate call
  · rw [is]
    exact takes.valid
  · rw [is]
    exact takes.valid.ringPlaced _ hasBuffers split enough
  · rw [is]
    exact valid.of_ring rfl rfl rfl rfl

/-- The entries taken are the first that were pending. -/
theorem Takes.pending_eq (valid : exchange.Valid ringSize) {ring : VRing}
    {completions : List Completion} (takes : exchange.Takes ringSize ring completions) :
    exchange.pending =
      completions.map Completion.used ++ (exchange.take ring completions).pending := by
  have later := takes.valid.inOrder
  change (exchange.taken ++ completions).map Completion.used ++ _ = exchange.published at later
  rw [← valid.inOrder, List.map_append, List.append_assoc] at later
  exact (List.append_cancel_left later).symm

/-! ## What the device does -/

/-- The device may publish an entry for a request in flight whose entry it has not
published. -/
def CanComplete (exchange : Exchange) (head : ℕ) : Prop :=
  head ∈ exchange.outstanding.map Request.head ∧
    head ∉ exchange.pending.map fun element => element.id.toNat

instance CanComplete.decidable (exchange : Exchange) (head : ℕ) :
    Decidable (exchange.CanComplete head) :=
  inferInstanceAs (Decidable (_ ∧ _))

theorem Valid.pending_publish (valid : exchange.Valid ringSize) (element : UsedElement) :
    (exchange.publish element).pending = exchange.pending ++ [element] := by
  have le : exchange.taken.length ≤ exchange.published.length := by
    rw [← valid.inOrder, List.length_append, List.length_map]
    exact Nat.le_add_right _ _
  exact List.drop_append_of_le_length le

/-- Publishing an entry for a request in flight keeps the record valid. -/
theorem Valid.publish (valid : exchange.Valid ringSize) {element : UsedElement}
    (can : exchange.CanComplete element.id.toNat) :
    (exchange.publish element).Valid ringSize := by
  obtain ⟨inFlight, fresh⟩ := can
  have nodup : ((exchange.pending ++ [element]).map fun element => element.id.toNat).Nodup := by
    rw [List.map_append, List.map_singleton]
    apply List.nodup_append.mpr
    refine ⟨valid.pendingNodup, List.nodup_singleton _, ?_⟩
    rintro head listed other isElement rfl
    exact fresh (List.mem_singleton.mp isElement ▸ listed)
  have heads : ∀ other ∈ exchange.pending ++ [element],
      other.id.toNat ∈ exchange.outstanding.map Request.head := by
    intro other member
    obtain old | new := List.mem_append.mp member
    · exact valid.pendingHeads other old
    · rwa [List.mem_singleton.mp new]
  -- Entries not taken are of different requests, and these are no more than the slots.
  have room : exchange.pending.length < ringSize := by
    have subset : ((exchange.pending ++ [element]).map fun element => element.id.toNat) ⊆
        exchange.outstanding.map Request.head := by
      intro head listed
      obtain ⟨other, member, rfl⟩ := List.mem_map.mp listed
      exact heads other member
    have le := (nodup.subperm subset).length_le
    rw [List.length_map, List.length_map, List.length_append, List.length_singleton] at le
    have := valid.outstanding_length_le
    omega
  have slot : exchange.ring.usedRing.slot exchange.ring.usedRing.idx =
      (exchange.ring.usedRing.lastUsedIndex.toNat + exchange.pending.length) %
        exchange.ring.usedRing.ringElements.length := by
    obtain ⟨exponent, -, power⟩ := valid.divides
    rw [UsedRing.slot, valid.usedSize, RingBuffer.and_pred_eq_mod power, valid.index,
      RingBuffer.toNat_add_mod valid.dvd, valid.usedLength]
  exact
    { valid with
      availableSize := valid.availableSize
      availableLength := valid.availableLength
      usedSize := valid.usedSize
      usedLength := List.length_set.trans valid.usedLength
      table := valid.table
      inOrder := by
        rw [valid.pending_publish, ← List.append_assoc]
        change exchange.taken.map Completion.used ++ exchange.pending ++ [element] = _
        rw [valid.inOrder]
        rfl
      index := by
        rw [valid.pending_publish]
        change exchange.ring.usedRing.idx + 1 = exchange.ring.usedRing.lastUsedIndex + _
        rw [valid.index, List.length_append, List.length_singleton, BitVec.ofNat_add,
          ← BitVec.add_assoc]
        rfl
      elements := by
        rw [valid.pending_publish]
        change RingBuffer.Holds (exchange.ring.usedRing.ringElements.set _ element) _ _
        rw [slot]
        apply valid.elements.push
        rw [valid.usedLength]
        exact room
      pendingNodup := by
        rw [valid.pending_publish]
        exact nodup
      pendingHeads := by
        rw [valid.pending_publish]
        exact heads }

end Exchange

end Virtio
