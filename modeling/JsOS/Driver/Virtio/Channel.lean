import JsOS.Driver.Virtio.Exchange

/-! # Callers of a virtqueue

The drivers of the block device and of the entropy source keep their callers in a queue
beside the virtqueue, and give each used entry to the caller that has waited longest. A
channel is the virtqueue with that queue and the callbacks that are scheduled. As long as
every request finds room and the device completes requests in the order in which they
were placed, the caller that has waited longest is the one whose request was completed
(`Channel.InStep`).
-/

namespace Virtio

/-- A scheduled callback: a call of `recvBuffer` for a used entry, or what it has scheduled
in turn for the caller it took from the queue. -/
inductive Task (Entry : Type) where
  | recvBuffer
  | settle (entry : Entry)
deriving DecidableEq, Repr

/-- The caller a task has been given to. -/
def Task.caller {Entry : Type} : Task Entry → Option Entry
  | .recvBuffer => none
  | .settle entry => some entry

/-- A virtqueue with its callers. -/
structure Channel (Entry : Type) where
  exchange : Exchange
  /-- The callers that wait, the one that has waited longest first. -/
  queue : List Entry
  immediates : List (Task Entry)
  /-- The callers whose requests were placed, in order. -/
  owners : List Entry
  /-- The callers whose requests the device has completed, in order. -/
  completed : List Entry
  /-- The callers `recvBuffer` has taken from the queue, in order. -/
  served : List Entry
deriving DecidableEq, Repr

namespace Exchange

/-- How a placement would end. -/
def outcome (translate : ℕ → ℕ) (exchange : Exchange) (buffers : List Uint8Array)
    (isWriteOnly : Bool) (isWriteOnlyArray : Option (List Bool)) : Option Outcome :=
  (exchange.ring.placeBuffers translate buffers isWriteOnly isWriteOnlyArray).map
    fun result => result.2.1

/-- No buffer is empty, and there are enough free descriptors for all. -/
def Fits (translate : ℕ → ℕ) (exchange : Exchange) (buffers : List Uint8Array) : Prop :=
  ((VRing.splitBuffers translate buffers).any fun parts =>
    decide (parts.length ≤ exchange.ring.descriptorTable.descriptorsAvailable)) = true

instance Fits.decidable (translate : ℕ → ℕ) (exchange : Exchange) (buffers : List Uint8Array) :
    Decidable (exchange.Fits translate buffers) :=
  inferInstanceAs (Decidable (_ = true))

/-- The device, when it publishes an entry for the head, keeps to the order of placement. -/
def CompletesInOrder (exchange : Exchange) (head : ℕ) : Prop :=
  exchange.CanComplete head →
    exchange.outstanding[exchange.pending.length]?.map Request.head = some head

instance CompletesInOrder.decidable (exchange : Exchange) (head : ℕ) :
    Decidable (exchange.CompletesInOrder head) :=
  inferInstanceAs (Decidable (_ → _))

end Exchange

theorem Exchange.Fits.exists_parts {translate : ℕ → ℕ} {exchange : Exchange}
    {buffers : List Uint8Array} (fits : exchange.Fits translate buffers) :
    ∃ parts, VRing.splitBuffers translate buffers = some parts ∧
      parts.length ≤ exchange.ring.descriptorTable.descriptorsAvailable := by
  rw [Exchange.Fits] at fits
  cases split : VRing.splitBuffers translate buffers with
  | none =>
      rw [split] at fits
      cases fits
  | some parts =>
      rw [split] at fits
      exact ⟨parts, rfl, of_decide_eq_true fits⟩

/-- A ring that is not suppressed fetches nothing before a placement. -/
theorem Exchange.fetchSuppressed_eq {exchange : Exchange}
    (notSuppressed : exchange.ring.suppressInterrupts = false) :
    exchange.ring.fetchSuppressed = some (exchange.ring, []) := by
  rw [VRing.fetchSuppressed, if_neg (by rw [notSuppressed]; exact Bool.false_ne_true)]

/-- When the request fits, placing it does just that. -/
theorem Exchange.placeBuffers_of_fits {translate : ℕ → ℕ} {exchange : Exchange}
    (notSuppressed : exchange.ring.suppressInterrupts = false) {buffers : List Uint8Array}
    (isWriteOnly : Bool) (isWriteOnlyArray : Option (List Bool))
    (fits : exchange.Fits translate buffers) :
    ∃ parts, VRing.splitBuffers translate buffers = some parts ∧
      parts.length ≤ exchange.ring.descriptorTable.descriptorsAvailable ∧
      exchange.placeBuffers translate buffers isWriteOnly isWriteOnlyArray =
        exchange.place translate
          (Exchange.ringPlaced translate (VRing.writeOnly isWriteOnly isWriteOnlyArray)
            exchange.ring parts) buffers ∧
      exchange.outcome translate buffers isWriteOnly isWriteOnlyArray =
        some (.returned true) := by
  obtain ⟨parts, split, room⟩ := fits.exists_parts
  obtain ⟨throws, -⟩ | ⟨parts', split', ⟨few, -⟩ | ⟨-, supplied⟩⟩ :=
    Exchange.supply_cases translate exchange.ring buffers isWriteOnly isWriteOnlyArray
  · rw [split] at throws
    cases throws
  · obtain rfl := Option.some.inj (split.symm.trans split')
    exact absurd few (Nat.not_lt.mpr room)
  · obtain rfl := Option.some.inj (split.symm.trans split')
    have called : exchange.ring.placeBuffers translate buffers isWriteOnly
        isWriteOnlyArray = some (Exchange.ringPlaced translate
          (VRing.writeOnly isWriteOnly isWriteOnlyArray) exchange.ring parts,
            .returned true, []) := by
      rw [VRing.placeBuffers, Exchange.fetchSuppressed_eq notSuppressed]
      simp only [Option.map_some, supplied]
    refine ⟨parts, split, room, ?_, ?_⟩
    · rw [Exchange.placeBuffers, called]
      simp only [if_true, Exchange.take_nil]
      rfl
    · rw [Exchange.outcome, called]
      rfl

/-- Buffers that are not empty have their lengths reported. -/
theorem exists_splitBuffers (translate : ℕ → ℕ) {buffers : List Uint8Array}
    (nonempty : ∀ u8 ∈ buffers, u8.length ≠ 0) :
    ∃ parts, VRing.splitBuffers translate buffers = some parts := by
  induction buffers with
  | nil => exact ⟨[], rfl⟩
  | cons u8 buffers ih =>
      obtain ⟨rest, split⟩ := ih fun other member => nonempty other (List.mem_cons_of_mem _ member)
      have reported : ∃ addr, bufferAddress translate u8 = some addr := by
        rw [bufferAddress, if_neg (nonempty u8 List.mem_cons_self)]
        dsimp only
        split
        · exact ⟨_, rfl⟩
        · exact ⟨_, rfl⟩
      obtain ⟨addr, report⟩ := reported
      rw [VRing.splitBuffers, report, split]
      dsimp only
      split
      · exact ⟨_, rfl⟩
      · exact ⟨_, rfl⟩

/-- A request of buffers that are not empty is refused when it does not fit, and then nothing
changes. -/
theorem Exchange.placeBuffers_of_not_fits {translate : ℕ → ℕ} {exchange : Exchange}
    (notSuppressed : exchange.ring.suppressInterrupts = false) {buffers : List Uint8Array}
    (nonempty : ∀ u8 ∈ buffers, u8.length ≠ 0) (isWriteOnly : Bool)
    (isWriteOnlyArray : Option (List Bool)) (full : ¬exchange.Fits translate buffers) :
    exchange.placeBuffers translate buffers isWriteOnly isWriteOnlyArray = exchange ∧
      exchange.outcome translate buffers isWriteOnly isWriteOnlyArray =
        some (.returned false) := by
  obtain ⟨parts, split⟩ := exists_splitBuffers translate nonempty
  rw [Exchange.Fits, split] at full
  have few : ¬parts.length ≤ exchange.ring.descriptorTable.descriptorsAvailable := by
    intro enough
    exact full (decide_eq_true enough)
  obtain ⟨throws, -⟩ | ⟨parts', split', ⟨-, refused⟩ | ⟨enough, -⟩⟩ :=
    Exchange.supply_cases translate exchange.ring buffers isWriteOnly isWriteOnlyArray
  · rw [split] at throws
    cases throws
  · have called : exchange.ring.placeBuffers translate buffers isWriteOnly isWriteOnlyArray =
        some (exchange.ring, .returned false, []) := by
      rw [VRing.placeBuffers, Exchange.fetchSuppressed_eq notSuppressed]
      simp only [Option.map_some, refused]
    constructor
    · rw [Exchange.placeBuffers, called]
      dsimp only
      rw [if_neg (by decide), Exchange.take_nil]
    · rw [Exchange.outcome, called]
      rfl
  · obtain rfl := Option.some.inj (split.symm.trans split')
    exact absurd enough few

namespace Channel

variable {Entry : Type}

def create (memory : Memory) (ringSize : ℕ) : Channel Entry where
  exchange := .create memory ringSize
  queue := []
  immediates := []
  owners := []
  completed := []
  served := []

variable (channel : Channel Entry)

/-- A caller joins the queue, and its request is placed whether or not there is room. -/
def submit (translate : ℕ → ℕ) (entry : Entry) (buffers : List Uint8Array) (isWriteOnly : Bool)
    (isWriteOnlyArray : Option (List Bool)) : Channel Entry :=
  { channel with
    exchange := channel.exchange.placeBuffers translate buffers isWriteOnly isWriteOnlyArray
    queue := channel.queue ++ [entry]
    owners :=
      if channel.exchange.outcome translate buffers isWriteOnly isWriteOnlyArray =
          some (.returned true) then
        channel.owners ++ [entry]
      else channel.owners }

/-- The caller whose request is in flight under a head. -/
def owner (head : ℕ) : Option Entry :=
  (channel.exchange.outstanding.find? fun request => request.head == head).bind
    fun request => channel.owners[request.serial]?

/-- The device publishes an entry for a request in flight. -/
def complete (element : UsedElement) : Channel Entry :=
  if channel.exchange.CanComplete element.id.toNat then
    { channel with
      exchange := channel.exchange.publish element
      completed := channel.completed ++ (channel.owner element.id.toNat).toList }
  else channel

/-- The interrupt handler: fetches all used entries and schedules a call of `recvBuffer` for
each that has a buffer. -/
def irq (hasPendingIRQ : Bool) : Channel Entry :=
  if hasPendingIRQ then
    match channel.exchange.ring.fetchBuffers with
    | none => { channel with exchange := { channel.exchange with stuck := true } }
    | some (ring, completions) =>
        { channel with
          exchange := channel.exchange.take ring completions
          immediates := channel.immediates ++
            (completions.filter fun completion => completion.result.isSome).map
              fun _ => .recvBuffer }
  else channel

/-- The number of scheduled calls of `recvBuffer`. -/
def scheduled : ℕ := channel.immediates.countP fun task => task.caller.isNone

/-- The callers that scheduled tasks have been given to. -/
def settling : List Entry := channel.immediates.filterMap Task.caller

/-- The queue and the virtqueue are in step: the requests were placed for the callers in
order, and the device completes them in that order. -/
structure InStep (channel : Channel Entry) (ringSize : ℕ) : Prop where
  exchange : channel.exchange.Valid ringSize
  notSuppressed : channel.exchange.ring.suppressInterrupts = false
  placed : channel.exchange.placed.length = channel.owners.length
  /-- The requests in flight are the last ones placed. -/
  serials : channel.exchange.outstanding.map Request.serial =
    List.range' channel.exchange.taken.length channel.exchange.outstanding.length
  total : channel.exchange.taken.length + channel.exchange.outstanding.length =
    channel.owners.length
  /-- The entries not taken are of the first requests in flight. -/
  order : (channel.exchange.pending.map fun element => element.id.toNat) =
    (channel.exchange.outstanding.take channel.exchange.pending.length).map Request.head
  completed : channel.completed = channel.owners.take channel.exchange.published.length
  /-- For every entry taken, a caller was taken from the queue or will be. -/
  handed : channel.served.length + channel.scheduled = channel.exchange.taken.length
  callers : channel.owners = channel.served ++ channel.queue

variable {channel : Channel Entry} {ringSize : ℕ}

theorem inStep_create (memory : Memory) {ringSize : ℕ}
    (power : ∃ exponent, exponent ≤ 16 ∧ ringSize = 2 ^ exponent) :
    (create memory ringSize : Channel Entry).InStep ringSize where
  exchange := Exchange.valid_create memory power
  notSuppressed := rfl
  placed := rfl
  serials := rfl
  total := rfl
  order := rfl
  completed := rfl
  handed := rfl
  callers := rfl

theorem InStep.pending_le (inStep : channel.InStep ringSize) :
    channel.exchange.pending.length ≤ channel.exchange.outstanding.length := by
  have lengths := congrArg List.length inStep.order
  rw [List.length_map, List.length_map, List.length_take] at lengths
  omega

theorem InStep.published_length (inStep : channel.InStep ringSize) :
    channel.exchange.published.length =
      channel.exchange.taken.length + channel.exchange.pending.length := by
  have lengths := congrArg List.length inStep.exchange.inOrder
  rwa [List.length_append, List.length_map, eq_comm] at lengths

/-! ## The callers' side -/

/-- When the request fits, placing it does just that. -/
theorem InStep.placeBuffers_eq (inStep : channel.InStep ringSize) {translate : ℕ → ℕ}
    {buffers : List Uint8Array} (isWriteOnly : Bool) (isWriteOnlyArray : Option (List Bool))
    (fits : channel.exchange.Fits translate buffers) :
    ∃ parts, VRing.splitBuffers translate buffers = some parts ∧
      parts.length ≤ channel.exchange.ring.descriptorTable.descriptorsAvailable ∧
      channel.exchange.placeBuffers translate buffers isWriteOnly isWriteOnlyArray =
        channel.exchange.place translate
          (Exchange.ringPlaced translate (VRing.writeOnly isWriteOnly isWriteOnlyArray)
            channel.exchange.ring parts) buffers ∧
      channel.exchange.outcome translate buffers isWriteOnly isWriteOnlyArray =
        some (.returned true) :=
  Exchange.placeBuffers_of_fits inStep.notSuppressed isWriteOnly isWriteOnlyArray fits

/-- A request that fits keeps the two in step. -/
theorem InStep.submit (inStep : channel.InStep ringSize) {translate : ℕ → ℕ}
    {buffers : List Uint8Array} (nonempty : buffers ≠ []) (isWriteOnly : Bool)
    (isWriteOnlyArray : Option (List Bool)) (fits : channel.exchange.Fits translate buffers)
    (entry : Entry) :
    (channel.submit translate entry buffers isWriteOnly isWriteOnlyArray).InStep ringSize ∧
      (channel.submit translate entry buffers isWriteOnly isWriteOnlyArray).owners =
        channel.owners ++ [entry] := by
  obtain ⟨parts, split, enough, placed, outcome⟩ :=
    inStep.placeBuffers_eq isWriteOnly isWriteOnlyArray fits
  have owners : (channel.submit translate entry buffers isWriteOnly isWriteOnlyArray).owners =
      channel.owners ++ [entry] := if_pos outcome
  refine ⟨?_, owners⟩
  constructor
  · change (channel.exchange.placeBuffers _ _ _ _).Valid ringSize
    rw [placed]
    exact inStep.exchange.ringPlaced _ nonempty split enough
  · change (channel.exchange.placeBuffers _ _ _ _).ring.suppressInterrupts = false
    rw [placed]
    exact inStep.notSuppressed
  · change (channel.exchange.placeBuffers _ _ _ _).placed.length = _
    rw [placed, owners, List.length_append, ← inStep.placed]
    exact List.length_append
  · change (channel.exchange.placeBuffers _ _ _ _).outstanding.map Request.serial =
      List.range' (channel.exchange.placeBuffers _ _ _ _).taken.length
        (channel.exchange.placeBuffers _ _ _ _).outstanding.length
    rw [placed]
    change (channel.exchange.outstanding ++ [_]).map Request.serial =
      List.range' channel.exchange.taken.length (channel.exchange.outstanding ++ [_]).length
    rw [List.map_append, inStep.serials, List.length_append, List.length_singleton,
      List.range'_1_concat, inStep.total, ← inStep.placed]
    rfl
  · change (channel.exchange.placeBuffers _ _ _ _).taken.length +
      (channel.exchange.placeBuffers _ _ _ _).outstanding.length = _
    rw [placed, owners, List.length_append, ← inStep.total]
    change channel.exchange.taken.length + (channel.exchange.outstanding ++ [_]).length = _
    rw [List.length_append, Nat.add_assoc]
    rfl
  · change ((channel.exchange.placeBuffers _ _ _ _).pending.map _) =
      ((channel.exchange.placeBuffers _ _ _ _).outstanding.take
        (channel.exchange.placeBuffers _ _ _ _).pending.length).map Request.head
    rw [placed]
    change channel.exchange.pending.map _ =
      ((channel.exchange.outstanding ++ [_]).take channel.exchange.pending.length).map _
    rw [List.take_append_of_le_length inStep.pending_le]
    exact inStep.order
  · rw [owners]
    change channel.completed = (channel.owners ++ [entry]).take
      (channel.exchange.placeBuffers _ _ _ _).published.length
    rw [placed]
    change channel.completed = (channel.owners ++ [entry]).take channel.exchange.published.length
    rw [List.take_append_of_le_length, inStep.completed]
    rw [inStep.published_length, ← inStep.total]
    exact Nat.add_le_add_left inStep.pending_le _
  · change channel.served.length + channel.scheduled =
      (channel.exchange.placeBuffers _ _ _ _).taken.length
    rw [placed]
    exact inStep.handed
  · rw [owners, inStep.callers, List.append_assoc]
    rfl

/-! ## The device's side -/

/-- The caller whose request is completed next. -/
theorem InStep.owner_eq (inStep : channel.InStep ringSize) {request : Request}
    (next : channel.exchange.outstanding[channel.exchange.pending.length]? = some request) :
    channel.owner request.head = channel.owners[channel.exchange.published.length]? := by
  obtain ⟨lt, isRequest⟩ := List.getElem?_eq_some_iff.mp next
  have found : (channel.exchange.outstanding.find? fun other => other.head == request.head) =
      some request := by
    have distinct := inStep.exchange.table.heads_nodup
    obtain ⟨before, after, split⟩ := List.append_of_mem (List.mem_of_getElem? next)
    rw [split, List.map_append, List.map_cons] at distinct
    rw [split, List.find?_append, List.find?_eq_none.mpr, Option.none_or, List.find?_cons_of_pos]
    · exact beq_self_eq_true _
    · intro other member same
      apply (List.nodup_append.mp distinct).2.2 other.head
        (List.mem_map.mpr ⟨other, member, rfl⟩) request.head List.mem_cons_self
      exact beq_iff_eq.mp same
  have serial : request.serial =
      channel.exchange.taken.length + channel.exchange.pending.length := by
    have numbers := congrArg (fun serials => serials[channel.exchange.pending.length]?)
      inStep.serials
    simp only [List.getElem?_map, next, Option.map_some] at numbers
    rw [List.getElem?_range' lt] at numbers
    have same := Option.some.inj numbers
    omega
  rw [owner, found, Option.bind_some, serial, inStep.published_length]

/-- A completion in the order of placement keeps the two in step. -/
theorem InStep.complete (inStep : channel.InStep ringSize) {element : UsedElement}
    (inOrder : channel.exchange.CompletesInOrder element.id.toNat) :
    (channel.complete element).InStep ringSize := by
  rw [Channel.complete]
  split
  · rename_i can
    obtain ⟨request, next, head⟩ := Option.map_eq_some_iff.mp (inOrder can)
    obtain ⟨lt, isRequest⟩ := List.getElem?_eq_some_iff.mp next
    have pending := inStep.exchange.pending_publish element
    constructor
    · exact inStep.exchange.publish can
    · exact inStep.notSuppressed
    · exact inStep.placed
    · exact inStep.serials
    · exact inStep.total
    · change ((channel.exchange.publish element).pending.map _) =
        (channel.exchange.outstanding.take
          (channel.exchange.publish element).pending.length).map Request.head
      rw [pending, List.map_append, inStep.order, List.length_append, List.length_singleton,
        List.take_add_one, next, List.map_append, List.map_singleton, ← head]
      rfl
    · change channel.completed ++ (channel.owner element.id.toNat).toList =
        channel.owners.take (channel.exchange.published ++ [element]).length
      rw [← head, inStep.owner_eq next, inStep.completed, List.length_append,
        List.length_singleton, List.take_add_one]
    · exact inStep.handed
    · exact inStep.callers
  · exact inStep

/-! ## Interrupts and callbacks -/

/-- Taking the entries of the first requests in flight leaves the others. -/
theorem remaining_eq_drop {outstanding : List Request} {completions : List Completion}
    (order : (completions.map fun completion => completion.used.id.toNat) =
      (outstanding.take completions.length).map Request.head) :
    Exchange.remaining outstanding completions = outstanding.drop completions.length := by
  induction completions generalizing outstanding with
  | nil => rfl
  | cons completion completions ih =>
      cases outstanding with
      | nil => cases order
      | cons request outstanding =>
          obtain ⟨head, rest⟩ := List.cons.inj order
          have erased : ((request :: outstanding).eraseP fun other =>
              other.head == completion.used.id.toNat) = outstanding :=
            List.eraseP_cons_of_pos (beq_iff_eq.mpr head.symm)
          change Exchange.remaining (List.eraseP _ _) completions = _
          rw [erased]
          exact ih rest

/-- Every entry a fetch takes has a buffer, so a call of `recvBuffer` is scheduled for each. -/
theorem results_isSome (valid : channel.exchange.Valid ringSize) {ring : VRing}
    {completions : List Completion} (takes : channel.exchange.Takes ringSize ring completions) :
    (completions.filter fun completion => completion.result.isSome) = completions := by
  apply List.filter_eq_self.mpr
  intro completion member
  obtain ⟨request, inFlight, -, buffer⟩ := takes.matched completion member
  obtain ⟨first, others, buffersAre⟩ := List.exists_cons_of_ne_nil
    (valid.nonempty request inFlight)
  rw [Completion.result, buffer, buffersAre]
  rfl

theorem scheduled_append (tasks more : List (Task Entry)) :
    (tasks ++ more).countP (fun task => task.caller.isNone) =
      tasks.countP (fun task => task.caller.isNone) +
        more.countP fun task => task.caller.isNone :=
  List.countP_append

/-- The interrupt handler takes no caller from the queue. -/
theorem irq_record (channel : Channel Entry) (hasPendingIRQ : Bool) :
    (channel.irq hasPendingIRQ).owners = channel.owners ∧
      (channel.irq hasPendingIRQ).completed = channel.completed ∧
      (channel.irq hasPendingIRQ).served = channel.served := by
  rw [Channel.irq]
  split
  · split <;> exact ⟨rfl, rfl, rfl⟩
  · exact ⟨rfl, rfl, rfl⟩

/-- The interrupt handler keeps the two in step. -/
theorem InStep.irq (inStep : channel.InStep ringSize) (hasPendingIRQ : Bool) :
    (channel.irq hasPendingIRQ).InStep ringSize ∧
      (channel.irq hasPendingIRQ).settling = channel.settling := by
  rw [Channel.irq]
  split
  · obtain ⟨ring, completions, fetched, takes, -⟩ := inStep.exchange.fetchBuffers
    simp only [fetched, results_isSome inStep.exchange takes]
    have split := takes.pending_eq inStep.exchange
    have few : completions.length ≤ channel.exchange.pending.length := by
      rw [split, List.length_append, List.length_map]
      exact Nat.le_add_right _ _
    have heads : (completions.map fun completion => completion.used.id.toNat) =
        (channel.exchange.outstanding.take completions.length).map Request.head := by
      have order := congrArg (List.take completions.length) inStep.order
      rw [List.map_take, List.take_take, Nat.min_eq_left few, ← List.map_take] at order
      rw [List.map_take, ← order, split, List.take_left' (List.length_map _), List.map_map]
      rfl
    have rest := remaining_eq_drop heads
    have pending : (channel.exchange.take ring completions).pending =
        channel.exchange.pending.drop completions.length := Exchange.pending_take _ _
    constructor
    · constructor
      · exact takes.valid
      · exact takes.suppress.trans inStep.notSuppressed
      · exact inStep.placed
      · change (Exchange.remaining _ _).map Request.serial =
          List.range' (channel.exchange.taken ++ completions).length
            (Exchange.remaining _ _).length
        rw [rest, List.map_drop, inStep.serials, List.drop_range', List.length_drop,
          List.length_append]
        simp
      · change (channel.exchange.taken ++ completions).length +
          (Exchange.remaining _ _).length = channel.owners.length
        have le := inStep.pending_le
        rw [rest, List.length_drop, List.length_append, ← inStep.total]
        omega
      · change ((channel.exchange.take ring completions).pending.map _) =
          ((Exchange.remaining _ _).take
            (channel.exchange.take ring completions).pending.length).map Request.head
        rw [pending, rest, List.map_drop, inStep.order, ← List.map_drop, List.length_drop,
          List.drop_take]
      · exact inStep.completed
      · change channel.served.length + List.countP _ (channel.immediates ++ _) =
          (channel.exchange.taken ++ completions).length
        rw [scheduled_append, ← Nat.add_assoc, List.length_append, ← inStep.handed]
        congr 1
        rw [List.countP_map]
        exact List.countP_eq_length.mpr fun _ _ => rfl
      · exact inStep.callers
    · change (channel.immediates ++ _).filterMap _ = channel.settling
      rw [List.filterMap_append, List.filterMap_map]
      have none : (completions.filterMap fun _ => (Task.recvBuffer : Task Entry).caller) = [] :=
        List.filterMap_eq_nil_iff.mpr fun _ _ => rfl
      exact (congrArg (channel.settling ++ ·) none).trans (List.append_nil _)
  · exact ⟨inStep, rfl⟩

/-- **A call of `recvBuffer`.** When one is scheduled next, a caller waits, and the request of
the one that has waited longest has been completed. -/
theorem InStep.recvBuffer (inStep : channel.InStep ringSize) {rest : List (Task Entry)}
    (next : channel.immediates = .recvBuffer :: rest) :
    ∃ entry queue, channel.queue = entry :: queue ∧ entry ∈ channel.completed ∧
      ∀ settle : List (Task Entry), (∀ task ∈ settle, task.caller.isSome) →
        ({ channel with
            queue := queue
            immediates := rest ++ settle
            served := channel.served ++ [entry] } : Channel Entry).InStep ringSize := by
  have handed := inStep.handed
  rw [scheduled, next, List.countP_cons_of_pos (by rfl)] at handed
  have total := inStep.total
  rw [inStep.callers, List.length_append] at total
  have waiting : channel.queue ≠ [] := by
    intro empty
    rw [empty, List.length_nil] at total
    omega
  obtain ⟨entry, queue, split⟩ := List.exists_cons_of_ne_nil waiting
  refine ⟨entry, queue, split, ?_, ?_⟩
  · -- Fewer callers were served than entries taken, and these are no more than published.
    have published := inStep.published_length
    rw [inStep.completed, inStep.callers, split]
    apply @List.mem_of_getElem? _ _ channel.served.length
    rw [List.getElem?_take_of_lt (by omega), List.getElem?_append_right le_rfl, Nat.sub_self]
    rfl
  · intro settle settles
    exact
      { inStep with
        handed := by
          change (channel.served ++ [entry]).length + List.countP _ (rest ++ settle) =
            channel.exchange.taken.length
          have none : settle.countP (fun task => task.caller.isNone) = 0 := by
            apply List.countP_eq_zero.mpr
            intro task member
            rw [Option.isNone_iff_eq_none]
            exact Option.isSome_iff_ne_none.mp (settles task member)
          rw [scheduled_append, none, List.length_append, List.length_singleton]
          omega
        callers := by
          change channel.owners = (channel.served ++ [entry]) ++ queue
          rw [inStep.callers, split, List.append_assoc]
          rfl }

/-- Running a task of a caller that was taken from the queue keeps the two in step. -/
theorem InStep.settle (inStep : channel.InStep ringSize) {entry : Entry}
    {rest : List (Task Entry)} (next : channel.immediates = .settle entry :: rest) :
    ({ channel with immediates := rest } : Channel Entry).InStep ringSize := by
  have handed := inStep.handed
  rw [scheduled, next, List.countP_cons_of_neg (by exact Bool.false_ne_true)] at handed
  exact { inStep with handed := handed }

end Channel

/-! ## Queues with interrupts on -/

namespace Exchange

/-- What holds of the queue whatever the device completes first: the record agrees with the
memory, and interrupts stay on. -/
structure Sound (exchange : Exchange) (ringSize : ℕ) : Prop where
  valid : exchange.Valid ringSize
  notSuppressed : exchange.ring.suppressInterrupts = false

variable {exchange : Exchange} {ringSize : ℕ}

theorem sound_create (memory : Memory) {ringSize : ℕ}
    (power : ∃ exponent, exponent ≤ 16 ∧ ringSize = 2 ^ exponent) :
    (create memory ringSize).Sound ringSize := ⟨valid_create memory power, rfl⟩

theorem Sound.take (sound : exchange.Sound ringSize) {ring : VRing}
    {completions : List Completion} (takes : exchange.Takes ringSize ring completions) :
    (exchange.take ring completions).Sound ringSize :=
  ⟨takes.valid, takes.suppress.trans sound.notSuppressed⟩

theorem Sound.placeBuffers (sound : exchange.Sound ringSize) (translate : ℕ → ℕ)
    {buffers : List Uint8Array} (nonempty : buffers ≠ []) (isWriteOnly : Bool)
    (isWriteOnlyArray : Option (List Bool)) :
    (exchange.placeBuffers translate buffers isWriteOnly isWriteOnlyArray).Sound ringSize := by
  obtain ⟨ring, completions, takes, only | ⟨parts, split, enough, placed⟩⟩ :=
    sound.valid.placeBuffers_cases translate buffers isWriteOnly isWriteOnlyArray
  · rw [only]
    exact sound.take takes
  · rw [placed]
    exact ⟨takes.valid.ringPlaced _ nonempty split enough, (sound.take takes).notSuppressed⟩

theorem Sound.publish (sound : exchange.Sound ringSize) {element : UsedElement}
    (can : exchange.CanComplete element.id.toNat) : (exchange.publish element).Sound ringSize :=
  ⟨sound.valid.publish can, sound.notSuppressed⟩

end Exchange

namespace Channel

variable {Entry : Type} {channel : Channel Entry} {ringSize : ℕ}

theorem sound_complete (sound : channel.exchange.Sound ringSize) (element : UsedElement) :
    (channel.complete element).exchange.Sound ringSize := by
  rw [Channel.complete]
  split
  · next can => exact sound.publish can
  · exact sound

theorem sound_irq (sound : channel.exchange.Sound ringSize) (hasPendingIRQ : Bool) :
    (channel.irq hasPendingIRQ).exchange.Sound ringSize := by
  rw [Channel.irq]
  split
  · obtain ⟨ring, completions, fetched, takes, -⟩ := sound.valid.fetchBuffers
    rw [fetched]
    exact sound.take takes
  · exact sound

end Channel

end Virtio
