import JsOS.Driver.Virtio.Chains

/-! # Handing requests to the device and back

The virtqueue with a device that follows the available ring: it reads the entries in turn
by an index of its own, and publishes an entry for any request it has read and not
published yet. Both rings are taken modulo their size while the four indices run modulo
65536; what keeps entries from being overwritten is only the number of free descriptors.
-/

namespace Virtio

/-- A virtqueue and its device. -/
structure Handoff where
  exchange : Exchange
  /-- The device's index into the available ring. -/
  lastAvail : BitVec 16
  /-- The entries the device has read, in order. -/
  consumed : List (BitVec 16)
  /-- Those of them for which it has not published an entry. -/
  processing : List (BitVec 16)
deriving DecidableEq, Repr

namespace Handoff

def create (memory : Memory) (ringSize : ℕ) : Handoff where
  exchange := .create memory ringSize
  lastAvail := 0
  consumed := []
  processing := []

variable (handoff : Handoff)

/-- The available ring, as the device sees it. -/
def available : AvailableRing := handoff.exchange.ring.availableRing

/-- The entry the device reads next. -/
def nextEntry : BitVec 16 :=
  handoff.available.readDescriptorAsDevice (handoff.available.slot handoff.lastAvail)

/-- The device reads the next entry of the available ring, when its index says there is one. -/
def consume : Handoff :=
  if handoff.lastAvail = handoff.available.idx then handoff
  else
    { handoff with
      lastAvail := handoff.lastAvail + 1
      consumed := handoff.consumed ++ [handoff.nextEntry]
      processing := handoff.processing ++ [handoff.nextEntry] }

/-- The device is at work on the request with the given head. -/
def Processes (head : ℕ) : Prop := head ∈ handoff.processing.map BitVec.toNat

instance Processes.decidable (handoff : Handoff) (head : ℕ) : Decidable (handoff.Processes head) :=
  inferInstanceAs (Decidable (head ∈ handoff.processing.map BitVec.toNat))

/-- The device publishes an entry for a request it is at work on. -/
def publish (element : UsedElement) : Handoff :=
  if handoff.Processes element.id.toNat then
    { handoff with
      exchange := handoff.exchange.publish element
      processing := handoff.processing.eraseP fun entry => entry.toNat == element.id.toNat }
  else handoff

/-- A call of the driver, or a step of the device. -/
inductive Event where
  | driver (call : Exchange.Call)
  | consume
  | publish (element : UsedElement)
deriving DecidableEq, Repr

def step (translate : ℕ → ℕ) (handoff : Handoff) : Event → Handoff
  | .driver call => { handoff with exchange := handoff.exchange.call translate call }
  | .consume => handoff.consume
  | .publish element => handoff.publish element

def Event.HasBuffers : Event → Prop
  | .driver call => call.HasBuffers
  | _ => True

instance Event.HasBuffers.decidable : ∀ event : Event, Decidable event.HasBuffers
  | .driver call => inferInstanceAs (Decidable call.HasBuffers)
  | .consume => .isTrue trivial
  | .publish _ => .isTrue trivial

/-- The virtqueue and its device after a list of events. -/
def after (translate : ℕ → ℕ) (memory : Memory) (ringSize : ℕ) (events : List Event) : Handoff :=
  Transition.run (step translate) (create memory ringSize) events

/-- The entries placed that the device has not read. -/
def unread : List (BitVec 16) := handoff.exchange.placed.drop handoff.consumed.length

/-! ## The invariant -/

/-- The device and the driver agree on what has been handed over. -/
structure Valid (handoff : Handoff) (ringSize : ℕ) : Prop where
  exchange : handoff.exchange.Valid ringSize
  /-- Entries are read in the order in which they are placed. -/
  inOrder : handoff.consumed ++ handoff.unread = handoff.exchange.placed
  lastAvail : handoff.lastAvail = BitVec.ofNat 16 handoff.consumed.length
  index : handoff.available.idx = handoff.lastAvail + BitVec.ofNat 16 handoff.unread.length
  slots : RingBuffer.Holds handoff.available.ring handoff.lastAvail.toNat handoff.unread
  /-- Every request in flight is unread, at work or published. -/
  owned : (handoff.exchange.outstanding.map Request.head).Perm
    ((handoff.unread ++ handoff.processing).map BitVec.toNat ++
      handoff.exchange.pending.map fun element => element.id.toNat)

variable {handoff : Handoff} {ringSize : ℕ}

theorem valid_create (memory : Memory) {ringSize : ℕ}
    (power : ∃ exponent, exponent ≤ 16 ∧ ringSize = 2 ^ exponent) :
    (create memory ringSize).Valid ringSize where
  exchange := Exchange.valid_create memory power
  inOrder := rfl
  lastAvail := rfl
  index := rfl
  slots := RingBuffer.holds_nil _ _
  owned := .refl _

/-- Taking entries gives back published requests only. -/
theorem Valid.take (valid : handoff.Valid ringSize) {ring : VRing}
    {completions : List Completion}
    (takes : handoff.exchange.Takes ringSize ring completions) :
    ({ handoff with exchange := handoff.exchange.take ring completions } : Handoff).Valid
      ringSize where
  exchange := takes.valid
  inOrder := valid.inOrder
  lastAvail := valid.lastAvail
  index := takes.available.1.trans valid.index
  slots := by
    have slots := valid.slots
    rw [available, ← takes.available.2] at slots
    exact slots
  owned := by
    have ids : (handoff.exchange.pending.map fun element => element.id.toNat) =
        (completions.map fun completion => completion.used.id.toNat) ++
          ((handoff.exchange.take ring completions).pending.map
            fun element => element.id.toNat) := by
      rw [takes.pending_eq valid.exchange, List.map_append, List.map_map]
      rfl
    have before := valid.owned
    rw [ids] at before
    have split := takes.removed.symm.trans before
    -- The heads of the entries taken leave both sides.
    apply (List.perm_append_right_iff
      (completions.map fun completion => completion.used.id.toNat)).mp
    refine split.trans ?_
    rw [List.append_assoc]
    exact List.perm_append_comm.append_left _

/-- While there is an unread request, there are fewer of them than slots. -/
theorem Valid.unread_length_le (valid : handoff.Valid ringSize) :
    handoff.unread.length ≤ handoff.exchange.outstanding.length := by
  have total := valid.owned.length_eq
  simp only [List.length_map, List.length_append] at total
  omega

/-- Placing a request adds its entry after the unread ones. -/
theorem Valid.place (valid : handoff.Valid ringSize) {translate : ℕ → ℕ} (writeOnly : ℕ → Bool)
    {buffers : List Uint8Array} {parts : List (Uint8Array × ℕ)} (nonempty : buffers ≠ [])
    (split : VRing.splitBuffers translate buffers = some parts)
    (enough : parts.length ≤ handoff.exchange.ring.descriptorTable.descriptorsAvailable) :
    ({ handoff with
        exchange := handoff.exchange.place translate
          (Exchange.ringPlaced translate writeOnly handoff.exchange.ring parts)
          buffers } : Handoff).Valid ringSize := by
  have placed := valid.exchange.ringPlaced writeOnly nonempty split enough
  have entry := valid.exchange.entryPlaced_eq translate writeOnly parts
  -- The new request is in flight too, so the unread ones do not fill the ring.
  have room : handoff.unread.length < handoff.available.ring.length := by
    have bounded := placed.outstanding_length_le
    change (handoff.exchange.outstanding ++ [_]).length ≤ ringSize at bounded
    rw [List.length_append, List.length_singleton] at bounded
    have := valid.unread_length_le
    rw [available, valid.exchange.availableLength]
    omega
  have le : handoff.consumed.length ≤ handoff.exchange.placed.length := by
    rw [← valid.inOrder, List.length_append]
    exact Nat.le_add_right _ _
  have unread : (handoff.exchange.placed ++ [Exchange.entryPlaced (Exchange.ringPlaced translate
      writeOnly handoff.exchange.ring parts)]).drop handoff.consumed.length =
        handoff.unread ++ [Exchange.entryPlaced (Exchange.ringPlaced translate writeOnly
          handoff.exchange.ring parts)] :=
    List.drop_append_of_le_length le
  constructor
  · exact placed
  · change handoff.consumed ++ List.drop _ (_ ++ [_]) = _ ++ [_]
    rw [unread, ← List.append_assoc, valid.inOrder]
  · exact valid.lastAvail
  · change handoff.available.idx + 1 = handoff.lastAvail +
      BitVec.ofNat 16 (List.drop _ (_ ++ [_])).length
    rw [unread, valid.index, List.length_append, List.length_singleton, BitVec.ofNat_add,
      ← BitVec.add_assoc]
    rfl
  · change RingBuffer.Holds (handoff.available.ring.set (handoff.available.slot
      handoff.available.idx) (BitVec.ofNat 16 _)) _ (List.drop _ (_ ++ [_]))
    have slot : handoff.available.slot handoff.available.idx =
        (handoff.lastAvail.toNat + handoff.unread.length) % handoff.available.ring.length := by
      rw [available, valid.exchange.slot_eq, ← available, valid.index,
        RingBuffer.toNat_add_mod valid.exchange.dvd, available, valid.exchange.availableLength]
    rw [unread, slot, entry]
    exact valid.slots.push room _
  · change ((handoff.exchange.outstanding ++ [_]).map Request.head).Perm
      ((List.drop _ (_ ++ [_]) ++ handoff.processing).map BitVec.toNat ++ _)
    rw [unread]
    have moved := valid.owned.append_right
      [(Exchange.entryPlaced (Exchange.ringPlaced translate writeOnly handoff.exchange.ring
        parts)).toNat]
    simp only [List.map_append, List.map_cons, List.map_nil, List.append_assoc] at moved ⊢
    refine moved.trans ?_
    apply List.Perm.append_left
    rw [← List.append_assoc]
    exact List.perm_append_comm

/-- The device sees an entry exactly when one is unread. -/
theorem Valid.sees_iff (valid : handoff.Valid ringSize) (small : ringSize < 2 ^ 16) :
    handoff.lastAvail = handoff.available.idx ↔ handoff.unread = [] := by
  have le := valid.slots.1
  rw [available, valid.exchange.availableLength] at le
  rw [valid.index, eq_comm, add_eq_left]
  constructor
  · intro zero
    have zero' : handoff.unread.length % 2 ^ 16 = 0 := by
      simpa using congrArg BitVec.toNat zero
    rw [Nat.mod_eq_of_lt (by omega)] at zero'
    exact List.length_eq_zero_iff.mp zero'
  · intro empty
    rw [empty]
    rfl

/-- The entry the device reads is the first unread one. -/
theorem Valid.nextEntry_eq (valid : handoff.Valid ringSize) {entry : BitVec 16}
    {rest : List (BitVec 16)} (split : handoff.unread = entry :: rest) :
    handoff.nextEntry = entry := by
  have slots := valid.slots
  rw [split] at slots
  have stored := slots.head
  rw [nextEntry, AvailableRing.readDescriptorAsDevice, available, valid.exchange.slot_eq,
    List.getD_eq_getElem?_getD, ← valid.exchange.availableLength, ← available, stored,
    Option.getD_some]

theorem Valid.consume (valid : handoff.Valid ringSize) (small : ringSize < 2 ^ 16) :
    handoff.consume.Valid ringSize := by
  rw [Handoff.consume]
  split
  · exact valid
  rename_i sees
  rw [valid.sees_iff small] at sees
  obtain ⟨entry, rest, split⟩ := List.exists_cons_of_ne_nil sees
  have inOrder := valid.inOrder
  have index := valid.index
  have slots := valid.slots
  have owned := valid.owned
  rw [split] at inOrder index slots owned
  rw [valid.nextEntry_eq split]
  have unread : List.drop (handoff.consumed ++ [entry]).length handoff.exchange.placed = rest := by
    rw [List.length_append, List.length_singleton, ← List.drop_drop]
    change handoff.unread.drop 1 = rest
    rw [split]
    rfl
  constructor
  · exact valid.exchange
  · change (handoff.consumed ++ [entry]) ++ List.drop _ _ = handoff.exchange.placed
    rw [unread, List.append_assoc]
    exact inOrder
  · change handoff.lastAvail + 1 = BitVec.ofNat 16 (handoff.consumed ++ [entry]).length
    rw [valid.lastAvail, List.length_append, List.length_singleton, BitVec.ofNat_add]
    rfl
  · change handoff.available.idx = handoff.lastAvail + 1 + BitVec.ofNat 16 (List.drop _ _).length
    rw [unread, index, List.length_cons, BitVec.add_assoc, Nat.add_comm, BitVec.ofNat_add]
    rfl
  · change RingBuffer.Holds handoff.available.ring (handoff.lastAvail + 1).toNat (List.drop _ _)
    rw [unread]
    apply slots.pop.congr_start
    rw [available, valid.exchange.availableLength]
    exact (RingBuffer.toNat_add_mod valid.exchange.dvd _ 1).symm
  · refine owned.trans ?_
    apply List.Perm.append_right
    apply List.Perm.map
    change (entry :: rest ++ handoff.processing).Perm
      (List.drop _ _ ++ (handoff.processing ++ [entry]))
    rw [unread, ← List.append_assoc]
    exact (List.perm_append_singleton entry (rest ++ handoff.processing)).symm

theorem Valid.publish (valid : handoff.Valid ringSize) (element : UsedElement) :
    (handoff.publish element).Valid ringSize := by
  rw [Handoff.publish]
  split
  · rename_i processes
    obtain ⟨named, namedMem, namedHead⟩ := List.mem_map.mp processes
    obtain ⟨entry, before, after, -, isHead, processingIs, erased⟩ :=
      @List.exists_of_eraseP _ (fun entry : BitVec 16 => entry.toNat == element.id.toNat) _ _
        namedMem (by rw [namedHead]; exact beq_self_eq_true _)
    have head : entry.toNat = element.id.toNat := beq_iff_eq.mp isHead
    have owned := valid.owned
    have distinct := owned.nodup_iff.mp valid.exchange.table.heads_nodup
    have can : handoff.exchange.CanComplete element.id.toNat := by
      constructor
      · apply owned.mem_iff.mpr
        apply List.mem_append_left
        rw [List.map_append]
        exact List.mem_append_right _ processes
      · intro published
        apply (List.nodup_append.mp distinct).2.2 _ _ _ published rfl
        rw [List.map_append]
        exact List.mem_append_right _ processes
    constructor
    · exact valid.exchange.publish can
    · exact valid.inOrder
    · exact valid.lastAvail
    · exact valid.index
    · exact valid.slots
    · rw [valid.exchange.pending_publish]
      refine owned.trans ?_
      change ((handoff.unread ++ handoff.processing).map BitVec.toNat ++ _).Perm
        ((handoff.unread ++ handoff.processing.eraseP _).map BitVec.toNat ++ _)
      rw [erased, processingIs]
      simp only [List.map_append, List.map_cons, List.map_nil, List.append_assoc, head]
      apply List.Perm.append_left
      apply List.Perm.append_left
      rw [List.cons_append]
      refine (List.perm_append_singleton _ _).symm.trans ?_
      simp only [List.append_assoc]
      rfl
  · exact valid

/-- Every step keeps the two sides in agreement. -/
theorem Valid.step (valid : handoff.Valid ringSize) (small : ringSize < 2 ^ 16)
    (translate : ℕ → ℕ) {event : Event} (hasBuffers : event.HasBuffers) :
    (step translate handoff event).Valid ringSize := by
  cases event with
  | driver call =>
      rw [Handoff.step]
      obtain ⟨ring, completions, takes, is⟩ |
        ⟨ring, completions, buffers, isWriteOnly, isWriteOnlyArray, parts, rfl, takes, split,
          enough, is⟩ | ⟨rfl, is⟩ := valid.exchange.call_cases translate call
      · rw [is]
        exact valid.take takes
      · rw [is]
        exact (valid.take takes).place _ hasBuffers split enough
      · rw [is]
        exact
          { exchange := valid.exchange.of_ring rfl rfl rfl rfl
            inOrder := valid.inOrder
            lastAvail := valid.lastAvail
            index := valid.index
            slots := valid.slots
            owned := valid.owned }
  | consume => exact valid.consume small
  | publish element => exact valid.publish element

theorem valid_after (translate : ℕ → ℕ) (memory : Memory) {exponent : ℕ} (small : exponent ≤ 15)
    {events : List Event} (hasBuffers : ∀ event ∈ events, event.HasBuffers) :
    (after translate memory (2 ^ exponent) events).Valid (2 ^ exponent) := by
  have lt : 2 ^ exponent < 2 ^ 16 := Nat.pow_lt_pow_right Nat.one_lt_two (by omega)
  apply Transition.run_invariant (fun handoff : Handoff => handoff.Valid (2 ^ exponent))
  · intro handoff event valid allowed
    exact valid.step lt translate allowed
  · exact valid_create memory ⟨exponent, by omega, rfl⟩
  · exact Transition.Along.of_inputs hasBuffers

/-! ## Nothing is lost and nothing repeated -/

/-- What has been handed over in either direction has arrived once and in order, and what has
not arrived is still there. -/
structure Lossless (handoff : Handoff) (ringSize : ℕ) : Prop where
  /-- The device has read the first of the entries placed. -/
  readInOrder : handoff.consumed <+: handoff.exchange.placed
  /-- The device sees no next entry exactly when it has read them all. -/
  readAll : handoff.lastAvail = handoff.available.idx ↔
    handoff.consumed = handoff.exchange.placed
  /-- An entry that is not read yet is in the slot it was placed in. -/
  kept : ∀ index entry, handoff.consumed.length ≤ index →
    handoff.exchange.placed[index]? = some entry →
      handoff.available.readDescriptorAsDevice
        (handoff.available.slot (BitVec.ofNat 16 index)) = entry
  bounded : handoff.exchange.outstanding.length ≤ ringSize
  /-- The driver has taken the first of the entries published. -/
  takenInOrder : handoff.exchange.taken.map Completion.used <+: handoff.exchange.published
  /-- A fetch takes the others, and the callback is called for each. -/
  takesAll : ∃ ring completions,
    handoff.exchange.ring.fetchBuffers = some (ring, completions) ∧
      (handoff.exchange.taken ++ completions).map Completion.used =
        handoff.exchange.published ∧
      ∀ completion ∈ completions, completion.result.isSome

theorem Valid.kept (valid : handoff.Valid ringSize) {index : ℕ} {entry : BitVec 16}
    (later : handoff.consumed.length ≤ index)
    (placed : handoff.exchange.placed[index]? = some entry) :
    handoff.available.readDescriptorAsDevice
      (handoff.available.slot (BitVec.ofNat 16 index)) = entry := by
  obtain ⟨distance, rfl⟩ := Nat.exists_eq_add_of_le later
  have unread : handoff.unread[distance]? = some entry := by
    rw [Handoff.unread, List.getElem?_drop]
    exact placed
  have stored := valid.slots.2 distance entry unread
  rw [available, valid.exchange.availableLength, ← available] at stored
  rw [AvailableRing.readDescriptorAsDevice, available, valid.exchange.slot_eq, BitVec.ofNat_add,
    ← valid.lastAvail, RingBuffer.toNat_add_mod valid.exchange.dvd, List.getD_eq_getElem?_getD,
    ← available, stored, Option.getD_some]

theorem Valid.lossless (valid : handoff.Valid ringSize) (small : ringSize < 2 ^ 16) :
    handoff.Lossless ringSize := by
  constructor
  · exact ⟨handoff.unread, valid.inOrder⟩
  · rw [valid.sees_iff small, ← valid.inOrder]
    exact List.self_eq_append_right.symm
  · intro index entry later placed
    exact valid.kept later placed
  · exact valid.exchange.outstanding_length_le
  · exact ⟨handoff.exchange.pending, valid.exchange.inOrder⟩
  · obtain ⟨ring, completions, fetched, takes, seesNone⟩ := valid.exchange.fetchBuffers
    refine ⟨ring, completions, fetched, ?_, ?_⟩
    · -- The driver sees nothing more, and a full turn of entries does not fit in the ring.
      have none : ¬(handoff.exchange.take ring completions).pending.length % 2 ^ 16 ≠ 0 := by
        rw [← takes.valid.hasUnprocessedBuffers_iff, Exchange.take_ring, seesNone]
        exact Bool.false_ne_true
      have le := takes.valid.pending_length_le
      rw [not_not, Nat.mod_eq_of_lt (by omega)] at none
      have all := takes.valid.inOrder
      rw [List.length_eq_zero_iff.mp none, List.append_nil] at all
      exact all
    · intro completion member
      obtain ⟨request, inFlight, head, buffer⟩ := takes.matched completion member
      obtain ⟨-, -, first, -, -, result⟩ := valid.exchange.reports inFlight head buffer
      rw [result]
      rfl

/-- **The handoff.** On a ring whose size is a power of two up to 32768, after every run of
driver calls with non-empty buffer lists and of device steps, nothing has been lost or
repeated in either direction. -/
theorem handoff_lossless (translate : ℕ → ℕ) (memory : Memory) (exponent : ℕ)
    (small : exponent ≤ 15) (events : List Event)
    (hasBuffers : ∀ event ∈ events, event.HasBuffers) :
    (after translate memory (2 ^ exponent) events).Lossless (2 ^ exponent) :=
  (valid_after translate memory small hasBuffers).lossless
    (Nat.pow_lt_pow_right Nat.one_lt_two (by omega))

/-- Two requests, read in order and published in the other order. -/
def crossedEvents : List Event :=
  [.driver (.placeBuffers [⟨0, 4⟩] true none), .driver (.placeBuffers [⟨8, 4⟩] true none),
    .consume, .consume, .publish ⟨1, 4⟩, .driver .getBuffer, .publish ⟨0, 4⟩]

theorem handoff_lossless_crossed :
    (after id Exchange.zeroMemory 2 crossedEvents).Lossless 2 :=
  handoff_lossless id Exchange.zeroMemory 1 (by decide) crossedEvents (by decide)

/-- Placements of no buffers at all before and after a request. -/
def emptyEvents : List Event :=
  [.driver (.placeBuffers [] false none), .driver (.placeBuffers [⟨0, 4⟩] true none),
    .driver (.placeBuffers [] false none)]

/-- A placement of no buffers takes no descriptor but a slot, so nothing holds it back. In a
ring of two slots the third placement overwrites the first entry, which the device has not
read. -/
theorem empty_placement_overwrites :
    (after id Exchange.zeroMemory 2 emptyEvents).consumed = [] ∧
      (after id Exchange.zeroMemory 2 emptyEvents).exchange.placed = [0, 0, 1] ∧
      (after id Exchange.zeroMemory 2 emptyEvents).available.readDescriptorAsDevice 0 = 1 ∧
      (after id Exchange.zeroMemory 2 emptyEvents).exchange.outstanding.length = 3 := by
  decide +kernel

end Handoff

end Virtio
