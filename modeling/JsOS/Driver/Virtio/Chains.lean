import JsOS.Driver.Virtio.Exchange

/-! # Chains over whole runs

Runs of a virtqueue in which the driver places requests and takes entries back, and the
device publishes one entry for each request in flight, in any order. Which descriptors
are free and which belong to which request is read off the memory alone, from the flags
and the links of the table, and is right after every run.
-/

namespace Virtio

namespace Exchange

/-- A call of the driver, or an entry the device publishes. -/
inductive Event where
  | driver (call : Call)
  | complete (element : UsedElement)
deriving DecidableEq, Repr

/-- One step. The device publishes entries only for requests in flight, one for each. -/
def step (translate : ℕ → ℕ) (exchange : Exchange) : Event → Exchange
  | .driver call => exchange.call translate call
  | .complete element =>
      if exchange.CanComplete element.id.toNat then exchange.publish element else exchange

/-- A placed list of buffers has at least one. -/
def Event.HasBuffers : Event → Prop
  | .driver call => call.HasBuffers
  | .complete _ => True

instance Event.HasBuffers.decidable : ∀ event : Event, Decidable event.HasBuffers
  | .driver call => inferInstanceAs (Decidable call.HasBuffers)
  | .complete _ => .isTrue trivial

variable {exchange : Exchange} {ringSize : ℕ}

/-- Every step keeps the record in agreement with the memory. -/
theorem Valid.step (valid : exchange.Valid ringSize) (translate : ℕ → ℕ) {event : Event}
    (hasBuffers : event.HasBuffers) : (step translate exchange event).Valid ringSize := by
  cases event with
  | driver call => exact valid.call translate hasBuffers
  | complete element =>
      rw [Exchange.step]
      split
      · rename_i can
        exact valid.publish can
      · exact valid

/-- The virtqueue of the given size after a list of events. -/
def after (translate : ℕ → ℕ) (memory : Memory) (ringSize : ℕ) (events : List Event) :
    Exchange :=
  Transition.run (Exchange.step translate) (create memory ringSize) events

/-- Every run of a ring of at most 65536 descriptors keeps the record in agreement with the
memory. -/
theorem valid_after (translate : ℕ → ℕ) (memory : Memory) {ringSize : ℕ}
    (power : ∃ exponent, exponent ≤ 16 ∧ ringSize = 2 ^ exponent) {events : List Event}
    (hasBuffers : ∀ event ∈ events, event.HasBuffers) :
    (after translate memory ringSize events).Valid ringSize := by
  apply Transition.run_invariant (fun exchange : Exchange => exchange.Valid ringSize)
  · intro exchange event valid allowed
    exact valid.step translate allowed
  · exact valid_create memory power
  · exact Transition.Along.of_inputs hasBuffers

/-! ## What holds in every state of a run -/

/-- The descriptors of all chains in flight. -/
def inFlight (exchange : Exchange) : List ℕ :=
  (exchange.outstanding.map fun request =>
    exchange.ring.descriptorTable.chain request.head).flatten

/-- A completion reports the first buffer of a request in flight under its head, cut to the
used length. -/
def Reports (exchange : Exchange) (completion : Completion) : Prop :=
  ∃ request ∈ exchange.outstanding, ∃ first, request.head = completion.used.id.toNat ∧
    request.buffers.head? = some first ∧
    completion.result = some (first.subarray 0 completion.used.len.toNat)

/-- The descriptor table as its memory shows it: no two chains in flight share a descriptor,
the free list has no descriptor twice and none of a chain, and together they are as many as
the ring has. -/
structure Partitioned (exchange : Exchange) (ringSize : ℕ) : Prop where
  disjoint : exchange.outstanding.Pairwise fun first second =>
    (exchange.ring.descriptorTable.chain first.head).Disjoint
      (exchange.ring.descriptorTable.chain second.head)
  /-- A chain has as many descriptors as its request needs. -/
  lengths : ∀ request ∈ exchange.outstanding,
    (exchange.ring.descriptorTable.chain request.head).length = request.count
  freeNodup : exchange.ring.descriptorTable.free.Nodup
  freeApart : exchange.ring.descriptorTable.free.Disjoint exchange.inFlight
  total : exchange.ring.descriptorTable.descriptorsAvailable + exchange.inFlight.length = ringSize

/-- A placement is refused exactly when too few descriptors are free after the fetch that a
suppressed ring makes first, and then does nothing beyond that fetch. -/
def RefusesWhenFull (translate : ℕ → ℕ) (exchange : Exchange) : Prop :=
  ∀ buffers isWriteOnly isWriteOnlyArray, ∃ fetched ring outcome completions,
    exchange.ring.fetchSuppressed = some (fetched, completions) ∧
    exchange.ring.placeBuffers translate buffers isWriteOnly isWriteOnlyArray =
      some (ring, outcome, completions) ∧
    (outcome = .returned false ↔ ∃ parts, VRing.splitBuffers translate buffers = some parts ∧
      fetched.descriptorTable.descriptorsAvailable < parts.length) ∧
    (outcome = .returned false → ring = fetched)

/-- What taking entries gives: `getBuffer` takes the first entry pending, and every entry that
it or `fetchBuffers` takes is reported with the right buffer. -/
structure ReturnsBuffers (exchange : Exchange) : Prop where
  one : ∀ used rest, exchange.pending = used :: rest → exchange.pending.length < 2 ^ 16 →
    ∃ ring completion, exchange.ring.getBuffer = some (ring, some completion) ∧
      completion.used = used ∧ exchange.Reports completion
  noOther : ∀ ring completion, exchange.ring.getBuffer = some (ring, some completion) →
    exchange.Reports completion
  all : ∃ ring completions, exchange.ring.fetchBuffers = some (ring, completions) ∧
    ∀ completion ∈ completions, exchange.Reports completion

theorem Valid.partitioned (valid : exchange.Valid ringSize) : exchange.Partitioned ringSize := by
  have table := valid.table
  have chains : (exchange.outstanding.map fun request =>
      exchange.ring.descriptorTable.chain request.head) =
        exchange.outstanding.map exchange.ring.descriptorTable.linkedFrom :=
    List.map_congr_left fun request member => table.chain_eq member
  have distinct := table.partition.nodup_iff.mpr List.nodup_range
  obtain ⟨freeNodup, -, apart⟩ := List.nodup_append.mp distinct
  constructor
  · apply table.chains_disjoint.imp_of_mem
    intro first second firstMem secondMem disjoint
    rwa [table.chain_eq firstMem, table.chain_eq secondMem]
  · intro request member
    rw [table.chain_eq member]
    exact List.length_iterate _ _ _
  · exact freeNodup
  · rw [inFlight, chains]
    intro cell inFree inChain
    exact apart cell inFree cell inChain rfl
  · rw [inFlight, chains]
    exact table.available_add

theorem Valid.refusesWhenFull (valid : exchange.Valid ringSize) (translate : ℕ → ℕ) :
    exchange.RefusesWhenFull translate := by
  intro buffers isWriteOnly isWriteOnlyArray
  obtain ⟨fetched, completions, isFetched, -⟩ := valid.fetchSuppressed
  refine ⟨fetched, (fetched.supply translate buffers isWriteOnly isWriteOnlyArray).1,
    (fetched.supply translate buffers isWriteOnly isWriteOnlyArray).2, completions, isFetched,
    ?_, ?_⟩
  · rw [VRing.placeBuffers, isFetched]
    rfl
  obtain ⟨throws, thrown⟩ | ⟨parts, split, ⟨few, refused⟩ | ⟨enough, placed⟩⟩ :=
    supply_cases translate fetched buffers isWriteOnly isWriteOnlyArray
  · rw [thrown, throws]
    simp
  · rw [refused, split]
    simpa using few
  · rw [placed, split]
    simpa using enough

/-- What a completion reports when it has the first buffer of the request in flight. -/
theorem Valid.reports (valid : exchange.Valid ringSize) {completion : Completion}
    {request : Request} (member : request ∈ exchange.outstanding)
    (head : request.head = completion.used.id.toNat)
    (buffer : completion.buffer = request.buffers.head?) : exchange.Reports completion := by
  obtain ⟨first, others, buffersAre⟩ :=
    List.exists_cons_of_ne_nil (valid.nonempty request member)
  rw [buffersAre] at buffer
  refine ⟨request, member, first, head, by rw [buffersAre]; rfl, ?_⟩
  rw [Completion.result, buffer]
  rfl

theorem Valid.returnsBuffers (valid : exchange.Valid ringSize) : exchange.ReturnsBuffers := by
  constructor
  · intro used rest split small
    obtain ⟨none, -⟩ | ⟨first, others, request, ring, split', -, inFlight, got, takes⟩ :=
      valid.getBuffer
    · rw [Nat.mod_eq_of_lt small, split] at none
      cases none
    · obtain ⟨rfl, -⟩ := List.cons.inj (split.symm.trans split')
      obtain ⟨found, member, head, buffer⟩ := takes.matched _ List.mem_cons_self
      exact ⟨ring, _, got, rfl, valid.reports member head buffer⟩
  · intro ring completion got
    obtain ⟨-, nothing⟩ | ⟨used, rest, request, other, -, -, -, got', takes⟩ := valid.getBuffer
    · rw [nothing] at got
      cases got
    · obtain ⟨-, same⟩ := Prod.mk.inj (Option.some.inj (got'.symm.trans got))
      obtain rfl := Option.some.inj same
      obtain ⟨found, member, head, buffer⟩ := takes.matched _ List.mem_cons_self
      exact valid.reports member head buffer
  · obtain ⟨ring, completions, fetched, takes, -⟩ := valid.fetchBuffers
    refine ⟨ring, completions, fetched, ?_⟩
    intro completion member
    obtain ⟨request, inFlight, head, buffer⟩ := takes.matched completion member
    exact valid.reports inFlight head buffer

/-- **The descriptor table.** After every run of placements of non-empty buffer lists, of
completions in any order and of calls that take them, on a ring whose size is a power of two
up to 65536: the driver is not stuck in a call, the table is partitioned, placements are
refused exactly when the ring is too full, and every completion reports the first buffer of
its request. -/
theorem descriptor_table_run (translate : ℕ → ℕ) (memory : Memory) (exponent : ℕ)
    (small : exponent ≤ 16) (events : List Event)
    (hasBuffers : ∀ event ∈ events, event.HasBuffers) :
    (after translate memory (2 ^ exponent) events).stuck = false ∧
      (after translate memory (2 ^ exponent) events).Partitioned (2 ^ exponent) ∧
      (after translate memory (2 ^ exponent) events).RefusesWhenFull translate ∧
      (after translate memory (2 ^ exponent) events).ReturnsBuffers := by
  have valid := valid_after translate memory ⟨exponent, small, rfl⟩ hasBuffers
  exact ⟨valid.running, valid.partitioned, valid.refusesWhenFull translate,
    valid.returnsBuffers⟩

/-- In a larger ring the free list has a descriptor twice from the start. -/
theorem large_ring_overlaps (memory : Memory) (ringSize : ℕ) (large : 2 ^ 16 < ringSize) :
    ¬(VRing.create memory ringSize).descriptorTable.free.Nodup :=
  DescriptorTable.create_free_not_nodup memory.descriptors large

/-- Memory that holds zeros. -/
def zeroMemory : Memory where
  descriptors _ := default
  available _ := 0
  used _ := default

/-- Two requests, the first over two pages, completed in the other order. -/
def crossedEvents : List Event :=
  [.driver (.placeBuffers [⟨0x1ffff4, 22⟩] true none),
    .driver (.placeBuffers [⟨0x300000, 22⟩] true none),
    .complete ⟨2, 22⟩, .complete ⟨0, 15⟩, .driver .getBuffer]

theorem descriptor_table_run_crossed :
    (after id zeroMemory 4 crossedEvents).stuck = false ∧
      (after id zeroMemory 4 crossedEvents).Partitioned 4 ∧
      (after id zeroMemory 4 crossedEvents).RefusesWhenFull id ∧
      (after id zeroMemory 4 crossedEvents).ReturnsBuffers :=
  descriptor_table_run id zeroMemory 2 (by decide) crossedEvents (by decide)

/-- A request is in flight on a suppressed ring of two descriptors, and its entry is
published. -/
def suppressedEvents : List Event :=
  [.driver .suppressUsedBuffers, .driver (.placeBuffers [⟨0, 1⟩] false none),
    .complete ⟨0, 1⟩]

/-- Two limits. The constructor accepts a ring of 131072 descriptors, but their numbers do not
fit in a link, and the free list of the fresh ring has a descriptor twice. And a suppressed
ring that refuses a placement of three buffers has by then taken the entry that was there:
a descriptor more is free than before the call. -/
theorem descriptor_table_limits :
    (VRing.validSize (2 ^ 17) = true ∧
      ¬(VRing.create zeroMemory (2 ^ 17)).descriptorTable.free.Nodup) ∧
    (after id zeroMemory 2 suppressedEvents).ring.descriptorTable.descriptorsAvailable = 1 ∧
    ((after id zeroMemory 2 suppressedEvents).ring.placeBuffers id
      [⟨0, 1⟩, ⟨1, 1⟩, ⟨2, 1⟩] false none).map
        (fun result => (result.2.1, result.1.descriptorTable.descriptorsAvailable)) =
      some (.returned false, 2) := by
  have overlaps := large_ring_overlaps zeroMemory (2 ^ 17) (by decide)
  exact ⟨⟨by decide, overlaps⟩, by decide +kernel, by decide +kernel⟩

end Exchange

end Virtio
