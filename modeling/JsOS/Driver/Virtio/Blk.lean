import JsOS.Driver.Virtio.Channel

/-! # The block device

Reads and writes return promises. Each call leaves the means to settle its promise in
`promiseQueue` and places a request of three buffers, the last of which is a byte of its
own that the device sets to the status of the request. For every used entry
`recvBuffer` takes the first call from the queue and, in a task of its own, settles that
call's promise by that call's status byte.
-/

namespace Virtio

/-- The type of a request. -/
inductive RequestType where
  | VIRTIO_BLK_T_IN
  | VIRTIO_BLK_T_OUT
deriving DecidableEq, Repr

/-- How a promise is settled. -/
inductive Settlement where
  | resolved (data : Option Uint8Array)
  /-- `IO error` -/
  | ioError
  /-- The sector is out of bounds. -/
  | outOfBounds
  /-- An exception inside the call. -/
  | thrown
deriving DecidableEq, Repr

/-- An entry of `promiseQueue`: the promise to settle, and what the call was. -/
structure PromiseEntry where
  promise : ℕ
  type : RequestType
  data : Uint8Array
deriving DecidableEq, Repr

/-- What a promise is settled with when its status byte is given. -/
def PromiseEntry.answer (entry : PromiseEntry) (status : BitVec 8) : Settlement :=
  if status ≠ 0 then .ioError
  else
    match entry.type with
    | .VIRTIO_BLK_T_IN => .resolved (some entry.data)
    | .VIRTIO_BLK_T_OUT => .resolved none

/-- The driver of the block device. A promise ignores all but the first attempt to settle
it; the record keeps every attempt. -/
structure Blk where
  /-- The virtqueue `reqQueue` with `promiseQueue`. -/
  channel : Channel PromiseEntry
  totalSectorCount : ℕ
  /-- The number of calls; a promise is named by the number of calls before it. -/
  calls : ℕ
  /-- The status byte of each call. -/
  status : ℕ → BitVec 8
  /-- The calls whose requests the device has completed, with the status it has set. -/
  completions : List (ℕ × BitVec 8)
  /-- The promises settled for a used entry. -/
  settlements : List (PromiseEntry × Settlement)
  /-- The promises rejected inside the call. -/
  rejections : List (ℕ × Settlement)

namespace Blk

def create (memory : Memory) (ringSize totalSectorCount : ℕ) : Blk where
  channel := .create memory ringSize
  totalSectorCount := totalSectorCount
  calls := 0
  status _ := 0
  completions := []
  settlements := []
  rejections := []

variable (blk : Blk)

/-- The buffers of a request: a header of sixteen bytes, the data, and the status byte. -/
def requestBuffers (header status : ℕ) (data : Uint8Array) : List Uint8Array :=
  [⟨header, 16⟩, data, ⟨status, 1⟩]

/-- What `read` and `write` have in common. The header and the status byte are new arrays at
the given addresses. An exception from the placement rejects the promise. -/
def request (translate : ℕ → ℕ) (type : RequestType) (isWriteOnlyArray : List Bool)
    (data : Uint8Array) (header status : ℕ) : Blk :=
  { blk with
    channel := blk.channel.submit translate { promise := blk.calls, type := type, data := data }
      (requestBuffers header status data) false (some isWriteOnlyArray)
    calls := blk.calls + 1
    rejections :=
      if blk.channel.exchange.outcome translate (requestBuffers header status data) false
          (some isWriteOnlyArray) = some .thrown then
        blk.rejections ++ [(blk.calls, .thrown)]
      else blk.rejections }

def read (translate : ℕ → ℕ) (sector : ℕ) (data : Uint8Array) (header status : ℕ) : Blk :=
  if blk.totalSectorCount < sector then
    { blk with
      calls := blk.calls + 1
      rejections := blk.rejections ++ [(blk.calls, .outOfBounds)] }
  else blk.request translate .VIRTIO_BLK_T_IN [false, true, true] data header status

/-- The sector of a write only goes into the header. -/
def write (translate : ℕ → ℕ) (data : Uint8Array) (header status : ℕ) : Blk :=
  blk.request translate .VIRTIO_BLK_T_OUT [false, false, true] data header status

/-- The device completes a request: it sets the request's status byte and publishes an
entry. -/
def complete (element : UsedElement) (status : BitVec 8) : Blk :=
  if blk.channel.exchange.CanComplete element.id.toNat then
    match blk.channel.owner element.id.toNat with
    | none => { blk with channel := blk.channel.complete element }
    | some entry =>
        { blk with
          channel := blk.channel.complete element
          status := Function.update blk.status entry.promise status
          completions := blk.completions ++ [(entry.promise, status)] }
  else blk

/-- Runs the next scheduled callback: `recvBuffer`, or the task that it has scheduled. -/
def runImmediate : Blk :=
  match blk.channel.immediates with
  | [] => blk
  | .recvBuffer :: rest =>
      match blk.channel.queue with
      | [] => { blk with channel := { blk.channel with immediates := rest } }
      | entry :: queue =>
          { blk with
            channel :=
              { blk.channel with
                queue := queue
                immediates := rest ++ [.settle entry]
                served := blk.channel.served ++ [entry] } }
  | .settle entry :: rest =>
      { blk with
        channel := { blk.channel with immediates := rest }
        settlements := blk.settlements ++ [(entry, entry.answer (blk.status entry.promise))] }

inductive Event where
  | read (sector : ℕ) (data : Uint8Array) (header status : ℕ)
  | write (data : Uint8Array) (header status : ℕ)
  | complete (element : UsedElement) (status : BitVec 8)
  | irq (hasPendingIRQ : Bool)
  | runImmediate
deriving DecidableEq, Repr

/-- One step. While a call has not returned, only the device acts. -/
def step (translate : ℕ → ℕ) (blk : Blk) : Event → Blk
  | .complete element status => blk.complete element status
  | .read sector data header status =>
      if blk.channel.exchange.stuck then blk else blk.read translate sector data header status
  | .write data header status =>
      if blk.channel.exchange.stuck then blk else blk.write translate data header status
  | .irq hasPendingIRQ =>
      if blk.channel.exchange.stuck then blk
      else { blk with channel := blk.channel.irq hasPendingIRQ }
  | .runImmediate => if blk.channel.exchange.stuck then blk else blk.runImmediate

/-- The condition under which the queue of promises and the device keep in step: every
request fits, and the device completes requests in the order in which they were placed. -/
def Orderly (translate : ℕ → ℕ) (blk : Blk) : Event → Prop
  | .read sector data header status => blk.totalSectorCount < sector ∨
      blk.channel.exchange.Fits translate (requestBuffers header status data)
  | .write data header status =>
      blk.channel.exchange.Fits translate (requestBuffers header status data)
  | .complete element _ => blk.channel.exchange.CompletesInOrder element.id.toNat
  | .irq _ => True
  | .runImmediate => True

instance Orderly.decidable (translate : ℕ → ℕ) (blk : Blk) :
    ∀ event, Decidable (blk.Orderly translate event)
  | .read _ _ _ _ => inferInstanceAs (Decidable (_ ∨ _))
  | .write _ header status =>
      Exchange.Fits.decidable translate _ (requestBuffers header status _)
  | .complete element _ => Exchange.CompletesInOrder.decidable _ element.id.toNat
  | .irq _ => .isTrue trivial
  | .runImmediate => .isTrue trivial

/-- Every promise is settled at most once, and when it is settled for a used entry, the device
has completed the request of that very call, with the status by which it is settled. -/
structure Matched (blk : Blk) : Prop where
  once : (blk.rejections.map Prod.fst ++
    blk.settlements.map fun settlement => settlement.1.promise).Nodup
  own : ∀ settlement ∈ blk.settlements, ∃ status,
    (settlement.1.promise, status) ∈ blk.completions ∧
      settlement.2 = settlement.1.answer status
  /-- Promises rejected in the call are those of reads out of bounds. -/
  rejected : ∀ rejection ∈ blk.rejections, rejection.2 = .outOfBounds

/-! ## Orderly runs -/

/-- What holds along orderly runs. -/
structure Valid (blk : Blk) (ringSize : ℕ) : Prop where
  inStep : blk.channel.InStep ringSize
  /-- Promises are settled in the order in which their calls were taken from the queue. -/
  settling : (blk.settlements.map Prod.fst) ++ blk.channel.settling = blk.channel.served
  served : ∀ entry ∈ blk.channel.served, entry ∈ blk.channel.completed
  promises : (blk.rejections.map Prod.fst ++
    blk.channel.owners.map PromiseEntry.promise).Nodup
  named : ∀ promise ∈ blk.rejections.map Prod.fst ++
    blk.channel.owners.map PromiseEntry.promise, promise < blk.calls
  completions : blk.completions.map Prod.fst =
    blk.channel.completed.map PromiseEntry.promise
  /-- The device has set a status byte once. -/
  status : ∀ completion ∈ blk.completions, blk.status completion.1 = completion.2
  own : ∀ settlement ∈ blk.settlements, ∃ status,
    (settlement.1.promise, status) ∈ blk.completions ∧
      settlement.2 = settlement.1.answer status
  rejected : ∀ rejection ∈ blk.rejections, rejection.2 = .outOfBounds

variable {blk : Blk} {ringSize : ℕ}

theorem valid_create (memory : Memory) {ringSize : ℕ} (totalSectorCount : ℕ)
    (power : ∃ exponent, exponent ≤ 16 ∧ ringSize = 2 ^ exponent) :
    (create memory ringSize totalSectorCount).Valid ringSize where
  inStep := Channel.inStep_create memory power
  settling := rfl
  served := fun _ member => absurd member List.not_mem_nil
  promises := List.nodup_nil
  named := fun _ member => absurd member List.not_mem_nil
  completions := rfl
  status := fun _ member => absurd member List.not_mem_nil
  own := fun _ member => absurd member List.not_mem_nil
  rejected := fun _ member => absurd member List.not_mem_nil

theorem Valid.matched (valid : blk.Valid ringSize) : blk.Matched where
  once := by
    refine valid.promises.sublist (List.Sublist.append_left ?_ _)
    rw [valid.inStep.callers, ← valid.settling, List.append_assoc, List.map_append,
      List.map_map]
    exact List.sublist_append_left _ _
  own := valid.own
  rejected := valid.rejected

/-- A name not given yet. -/
theorem Valid.calls_fresh (valid : blk.Valid ringSize) :
    blk.calls ∉ blk.rejections.map Prod.fst ++
      blk.channel.owners.map PromiseEntry.promise := fun named =>
  absurd (valid.named _ named) (Nat.lt_irrefl _)

theorem Valid.request (valid : blk.Valid ringSize) {translate : ℕ → ℕ} (type : RequestType)
    (isWriteOnlyArray : List Bool) {data : Uint8Array} {header status : ℕ}
    (fits : blk.channel.exchange.Fits translate (requestBuffers header status data)) :
    (blk.request translate type isWriteOnlyArray data header status).Valid ringSize := by
  have nonempty : requestBuffers header status data ≠ [] := List.cons_ne_nil _ _
  obtain ⟨-, -, -, -, outcome⟩ :=
    valid.inStep.placeBuffers_eq false (some isWriteOnlyArray) fits
  obtain ⟨inStep, owners⟩ := valid.inStep.submit nonempty false (some isWriteOnlyArray) fits
    { promise := blk.calls, type := type, data := data }
  have rejections : (blk.request translate type isWriteOnlyArray data header
      status).rejections = blk.rejections := by
    apply if_neg
    rw [outcome]
    exact fun same => by cases same
  have names : (blk.request translate type isWriteOnlyArray data header
      status).rejections.map Prod.fst ++ (blk.request translate type isWriteOnlyArray data header
        status).channel.owners.map PromiseEntry.promise =
      (blk.rejections.map Prod.fst ++ blk.channel.owners.map PromiseEntry.promise) ++
        [blk.calls] := by
    rw [rejections]
    change _ ++ List.map _ (Channel.submit _ _ _ _ _ _).owners = _
    rw [owners, List.map_append, List.append_assoc]
    rfl
  exact
    { inStep := inStep
      settling := valid.settling
      served := valid.served
      promises := by
        rw [names]
        apply List.nodup_append.mpr
        refine ⟨valid.promises, List.nodup_singleton _, ?_⟩
        rintro promise named other isCalls rfl
        exact valid.calls_fresh (List.mem_singleton.mp isCalls ▸ named)
      named := by
        rw [names]
        intro promise named
        obtain old | new := List.mem_append.mp named
        · exact Nat.lt_succ_of_lt (valid.named promise old)
        · rw [List.mem_singleton.mp new]
          exact Nat.lt_succ_self _
      completions := valid.completions
      status := valid.status
      own := valid.own
      rejected := by
        rw [rejections]
        exact valid.rejected }

theorem Valid.read (valid : blk.Valid ringSize) {translate : ℕ → ℕ} {sector : ℕ}
    {data : Uint8Array} {header status : ℕ}
    (fits : blk.totalSectorCount < sector ∨
      blk.channel.exchange.Fits translate (requestBuffers header status data)) :
    (blk.read translate sector data header status).Valid ringSize := by
  rw [Blk.read]
  split
  · have names : (blk.rejections ++ [(blk.calls, Settlement.outOfBounds)]).map Prod.fst ++
        blk.channel.owners.map PromiseEntry.promise =
        blk.rejections.map Prod.fst ++
          (blk.calls :: blk.channel.owners.map PromiseEntry.promise) := by
      rw [List.map_append, List.append_assoc]
      rfl
    exact
      { valid with
        promises := by
          rw [names]
          apply List.nodup_middle.mpr
          exact List.nodup_cons.mpr ⟨valid.calls_fresh, valid.promises⟩
        named := by
          change ∀ promise ∈ _ ++ _, promise < blk.calls + 1
          rw [names]
          intro promise named
          obtain rfl | old := List.mem_cons.mp (List.perm_middle.mem_iff.mp named)
          · exact Nat.lt_succ_self _
          · exact Nat.lt_succ_of_lt (valid.named promise old)
        rejected := by
          intro rejection member
          obtain old | new := List.mem_append.mp member
          · exact valid.rejected rejection old
          · rw [List.mem_singleton.mp new] }
  · rename_i inside
    exact valid.request _ _ (fits.resolve_left inside)

/-- The device has not completed a request before it does. -/
theorem Valid.owner_fresh (valid : blk.Valid ringSize) {element : UsedElement}
    {entry : PromiseEntry}
    (can : blk.channel.exchange.CanComplete element.id.toNat)
    (inOrder : blk.channel.exchange.CompletesInOrder element.id.toNat)
    (owner : blk.channel.owner element.id.toNat = some entry) :
    entry.promise ∉ blk.completions.map Prod.fst := by
  have completed := (valid.inStep.complete inOrder).completed
  rw [Channel.complete, if_pos can, owner] at completed
  have distinct : ((blk.channel.completed ++ [entry]).map PromiseEntry.promise).Nodup := by
    change blk.channel.completed ++ [entry] = blk.channel.owners.take _ at completed
    rw [completed, List.map_take]
    exact (List.nodup_append.mp valid.promises).2.1.sublist (List.take_sublist _ _)
  rw [valid.completions]
  rw [List.map_append, List.map_singleton] at distinct
  intro earlier
  exact (List.nodup_append.mp distinct).2.2 _ earlier _ List.mem_cons_self rfl

theorem Valid.complete (valid : blk.Valid ringSize) {element : UsedElement} (status : BitVec 8)
    (inOrder : blk.channel.exchange.CompletesInOrder element.id.toNat) :
    (blk.complete element status).Valid ringSize := by
  have inStep := valid.inStep.complete inOrder
  rw [Blk.complete]
  split
  · rename_i can
    have channel : blk.channel.complete element =
        { blk.channel with
          exchange := blk.channel.exchange.publish element
          completed := blk.channel.completed ++
            (blk.channel.owner element.id.toNat).toList } := if_pos can
    split
    · rename_i none
      rw [none, Option.toList_none, List.append_nil] at channel
      rw [channel] at inStep ⊢
      exact { valid with inStep := inStep }
    · rename_i entry owner
      have fresh := valid.owner_fresh can inOrder owner
      rw [owner, Option.toList_some] at channel
      rw [channel] at inStep ⊢
      exact
        { valid with
          inStep := inStep
          served := fun served member => List.mem_append_left _ (valid.served served member)
          completions := by
            change (blk.completions ++ [_]).map Prod.fst =
              (blk.channel.completed ++ [entry]).map PromiseEntry.promise
            rw [List.map_append, List.map_append, valid.completions]
            rfl
          status := by
            intro completion member
            obtain old | new := List.mem_append.mp member
            · have ne : completion.1 ≠ entry.promise := by
                intro same
                apply fresh
                rw [← same]
                exact List.mem_map_of_mem old
              exact (Function.update_of_ne ne _ _).trans (valid.status completion old)
            · rw [List.mem_singleton.mp new]
              exact Function.update_self _ _ _
          own := by
            intro settlement member
            obtain ⟨byte, completed, answered⟩ := valid.own settlement member
            exact ⟨byte, List.mem_append_left _ completed, answered⟩ }
  · exact valid

theorem Valid.runImmediate (valid : blk.Valid ringSize) : blk.runImmediate.Valid ringSize := by
  rw [Blk.runImmediate]
  split
  · exact valid
  · rename_i rest next
    obtain ⟨entry, queue, waiting, completed, keeps⟩ := valid.inStep.recvBuffer next
    simp only [waiting]
    have inStep := keeps [.settle entry] (by
      intro task member
      rw [List.mem_singleton.mp member]
      rfl)
    exact
      { valid with
        inStep := inStep
        settling := by
          have settling := valid.settling
          rw [Channel.settling, next, List.filterMap_cons_none (by rfl)] at settling
          change _ ++ List.filterMap _ (rest ++ [_]) = blk.channel.served ++ [entry]
          rw [List.filterMap_append, ← List.append_assoc, settling]
          rfl
        served := by
          intro served member
          obtain old | new := List.mem_append.mp member
          · exact valid.served served old
          · rw [List.mem_singleton.mp new]
            exact completed }
  · rename_i entry rest next
    have settling := valid.settling
    rw [Channel.settling, next, List.filterMap_cons_some (by rfl)] at settling
    exact
      { valid with
        inStep := valid.inStep.settle next
        settling := by
          change (blk.settlements ++ [_]).map Prod.fst ++ List.filterMap _ rest =
            blk.channel.served
          rw [List.map_append, List.append_assoc]
          exact settling
        own := by
          intro settlement member
          obtain old | new := List.mem_append.mp member
          · exact valid.own settlement old
          · -- The call was taken from the queue, so its request has been completed.
            have served : entry ∈ blk.channel.served := by
              rw [← settling]
              exact List.mem_append_right _ List.mem_cons_self
            have completed : entry.promise ∈ blk.completions.map Prod.fst := by
              rw [valid.completions]
              exact List.mem_map_of_mem (valid.served entry served)
            obtain ⟨completion, listed, named⟩ := List.mem_map.mp completed
            refine ⟨completion.2, ?_, ?_⟩
            · rw [List.mem_singleton.mp new, ← named]
              exact listed
            · rw [List.mem_singleton.mp new, ← valid.status completion listed, named] }

/-- Every orderly step keeps the promises matched with their requests. -/
theorem Valid.step (valid : blk.Valid ringSize) {translate : ℕ → ℕ} {event : Event}
    (orderly : blk.Orderly translate event) : (step translate blk event).Valid ringSize := by
  have running : ¬blk.channel.exchange.stuck = true := by
    rw [valid.inStep.exchange.running]
    exact Bool.false_ne_true
  cases event with
  | read sector data header status =>
      rw [Blk.step, if_neg running]
      exact valid.read orderly
  | write data header status =>
      rw [Blk.step, if_neg running]
      exact valid.request _ _ orderly
  | complete element status => exact valid.complete status orderly
  | irq hasPendingIRQ =>
      rw [Blk.step, if_neg running]
      obtain ⟨inStep, settling⟩ := valid.inStep.irq hasPendingIRQ
      obtain ⟨owners, completed, served⟩ := blk.channel.irq_record hasPendingIRQ
      exact
        { valid with
          inStep := inStep
          settling := by rw [settling, served]; exact valid.settling
          served := by rw [served, completed]; exact valid.served
          promises := by rw [owners]; exact valid.promises
          named := by rw [owners]; exact valid.named
          completions := by rw [completed]; exact valid.completions }
  | runImmediate =>
      rw [Blk.step, if_neg running]
      exact valid.runImmediate

/-- The block device with a list of events behind it. -/
def after (translate : ℕ → ℕ) (memory : Memory) (ringSize totalSectorCount : ℕ)
    (events : List Event) : Blk :=
  Transition.run (step translate) (create memory ringSize totalSectorCount) events

/-- In every orderly run the promises are matched with their requests. -/
theorem matched_after (translate : ℕ → ℕ) (memory : Memory) {exponent : ℕ}
    (small : exponent ≤ 16) (totalSectorCount : ℕ) {events : List Event}
    (orderly : Transition.Along (step translate) (Orderly translate)
      (create memory (2 ^ exponent) totalSectorCount) events) :
    (after translate memory (2 ^ exponent) totalSectorCount events).Matched := by
  apply Valid.matched
  · apply Transition.run_invariant (fun blk : Blk => blk.Valid (2 ^ exponent))
    · intro blk event valid allowed
      exact valid.step allowed
    · exact valid_create memory totalSectorCount ⟨exponent, small, rfl⟩
    · exact orderly

end Blk

end Virtio
