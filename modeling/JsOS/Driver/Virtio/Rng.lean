import JsOS.Driver.Virtio.Blk
import JsOS.Driver.Virtio.Chains

/-! # The entropy source, and the matching of completions

The entropy source keeps callbacks in `cbqueue` as the block device keeps promises in
`promiseQueue`, and runs the first one for every used entry. Both match completions to
callers by position alone. The last section says when that is right, for both, and shows
runs in which it is not.
-/

namespace Virtio

/-- An entry of `cbqueue`: the callback of a call, and the array the call asks to fill. -/
structure CallbackEntry where
  callback : ℕ
  u8 : Uint8Array
deriving DecidableEq, Repr

/-- The driver of the entropy source. -/
structure Rng where
  /-- The virtqueue `reqQueue` with `cbqueue`. -/
  channel : Channel CallbackEntry
  /-- The number of calls; a callback is named by the number of calls before it. -/
  calls : ℕ
  /-- The callbacks that have run. -/
  ran : List CallbackEntry
deriving DecidableEq, Repr

namespace Rng

def create (memory : Memory) (ringSize : ℕ) : Rng where
  channel := .create memory ringSize
  calls := 0
  ran := []

variable (rng : Rng)

def ongetbytes (translate : ℕ → ℕ) (u8 : Uint8Array) : Rng :=
  { rng with
    channel := rng.channel.submit translate { callback := rng.calls, u8 := u8 } [u8] true none
    calls := rng.calls + 1 }

/-- Runs the next scheduled callback, which is `recvBuffer`; it runs the first callback of the
queue at once. -/
def runImmediate : Rng :=
  match rng.channel.immediates with
  | [] => rng
  | .recvBuffer :: rest =>
      match rng.channel.queue with
      | [] => { rng with channel := { rng.channel with immediates := rest } }
      | entry :: queue =>
          { rng with
            channel :=
              { rng.channel with
                queue := queue
                immediates := rest ++ []
                served := rng.channel.served ++ [entry] }
            ran := rng.ran ++ [entry] }
  | .settle _ :: rest => { rng with channel := { rng.channel with immediates := rest } }

inductive Event where
  | ongetbytes (u8 : Uint8Array)
  | complete (element : UsedElement)
  | irq (hasPendingIRQ : Bool)
  | runImmediate
deriving DecidableEq, Repr

/-- One step. While a call has not returned, only the device acts. -/
def step (translate : ℕ → ℕ) (rng : Rng) : Event → Rng
  | .complete element => { rng with channel := rng.channel.complete element }
  | .ongetbytes u8 => if rng.channel.exchange.stuck then rng else rng.ongetbytes translate u8
  | .irq hasPendingIRQ =>
      if rng.channel.exchange.stuck then rng
      else { rng with channel := rng.channel.irq hasPendingIRQ }
  | .runImmediate => if rng.channel.exchange.stuck then rng else rng.runImmediate

/-- Every request fits, and the device completes requests in the order in which they were
placed. -/
def Orderly (translate : ℕ → ℕ) (rng : Rng) : Event → Prop
  | .ongetbytes u8 => rng.channel.exchange.Fits translate [u8]
  | .complete element => rng.channel.exchange.CompletesInOrder element.id.toNat
  | .irq _ => True
  | .runImmediate => True

instance Orderly.decidable (translate : ℕ → ℕ) (rng : Rng) :
    ∀ event, Decidable (rng.Orderly translate event)
  | .ongetbytes u8 => Exchange.Fits.decidable translate _ [u8]
  | .complete element => Exchange.CompletesInOrder.decidable _ element.id.toNat
  | .irq _ => .isTrue trivial
  | .runImmediate => .isTrue trivial

/-- Every callback has run at most once, and only when the device had filled the array of that
very call. -/
structure Matched (rng : Rng) : Prop where
  once : (rng.ran.map CallbackEntry.callback).Nodup
  own : ∀ entry ∈ rng.ran, entry ∈ rng.channel.completed

/-- What holds along orderly runs. -/
structure Valid (rng : Rng) (ringSize : ℕ) : Prop where
  inStep : rng.channel.InStep ringSize
  ran : rng.ran = rng.channel.served
  own : ∀ entry ∈ rng.ran, entry ∈ rng.channel.completed
  callbacks : (rng.channel.owners.map CallbackEntry.callback).Nodup
  named : ∀ callback ∈ rng.channel.owners.map CallbackEntry.callback, callback < rng.calls

variable {rng : Rng} {ringSize : ℕ}

theorem valid_create (memory : Memory) {ringSize : ℕ}
    (power : ∃ exponent, exponent ≤ 16 ∧ ringSize = 2 ^ exponent) :
    (create memory ringSize).Valid ringSize where
  inStep := Channel.inStep_create memory power
  ran := rfl
  own := fun _ member => absurd member List.not_mem_nil
  callbacks := List.nodup_nil
  named := fun _ member => absurd member List.not_mem_nil

theorem Valid.matched (valid : rng.Valid ringSize) : rng.Matched where
  once := by
    refine valid.callbacks.sublist ?_
    rw [valid.inStep.callers, ← valid.ran, List.map_append]
    exact List.sublist_append_left _ _
  own := valid.own

theorem Valid.ongetbytes (valid : rng.Valid ringSize) {translate : ℕ → ℕ} {u8 : Uint8Array}
    (fits : rng.channel.exchange.Fits translate [u8]) :
    (rng.ongetbytes translate u8).Valid ringSize := by
  obtain ⟨inStep, owners⟩ := valid.inStep.submit (List.cons_ne_nil u8 []) true none fits
    { callback := rng.calls, u8 := u8 }
  have names : (rng.ongetbytes translate u8).channel.owners.map CallbackEntry.callback =
      rng.channel.owners.map CallbackEntry.callback ++ [rng.calls] := by
    change List.map _ (Channel.submit _ _ _ _ _ _).owners = _
    rw [owners, List.map_append]
    rfl
  exact
    { inStep := inStep
      ran := valid.ran
      own := valid.own
      callbacks := by
        rw [names]
        apply List.nodup_append.mpr
        refine ⟨valid.callbacks, List.nodup_singleton _, ?_⟩
        rintro callback named other isCalls rfl
        rw [List.mem_singleton.mp isCalls] at named
        exact absurd (valid.named _ named) (Nat.lt_irrefl _)
      named := by
        rw [names]
        intro callback named
        obtain old | new := List.mem_append.mp named
        · exact Nat.lt_succ_of_lt (valid.named callback old)
        · rw [List.mem_singleton.mp new]
          exact Nat.lt_succ_self _ }

theorem Valid.complete (valid : rng.Valid ringSize) {element : UsedElement}
    (inOrder : rng.channel.exchange.CompletesInOrder element.id.toNat) :
    ({ rng with channel := rng.channel.complete element } : Rng).Valid ringSize := by
  have inStep := valid.inStep.complete inOrder
  rw [Channel.complete] at inStep ⊢
  split
  · rename_i can
    rw [if_pos can] at inStep
    exact
      { valid with
        inStep := inStep
        own := fun entry member => List.mem_append_left _ (valid.own entry member) }
  · exact valid

theorem Valid.runImmediate (valid : rng.Valid ringSize) : rng.runImmediate.Valid ringSize := by
  rw [Rng.runImmediate]
  split
  · exact valid
  · rename_i rest next
    obtain ⟨entry, queue, waiting, completed, keeps⟩ := valid.inStep.recvBuffer next
    simp only [waiting]
    have inStep := keeps [] fun _ member => absurd member List.not_mem_nil
    exact
      { valid with
        inStep := inStep
        ran := by
          change rng.ran ++ [entry] = rng.channel.served ++ [entry]
          rw [valid.ran]
        own := by
          intro other member
          obtain old | new := List.mem_append.mp member
          · exact valid.own other old
          · rw [List.mem_singleton.mp new]
            exact completed }
  · rename_i entry rest next
    exact { valid with inStep := valid.inStep.settle next }

theorem Valid.step (valid : rng.Valid ringSize) {translate : ℕ → ℕ} {event : Event}
    (orderly : rng.Orderly translate event) : (step translate rng event).Valid ringSize := by
  have running : ¬rng.channel.exchange.stuck = true := by
    rw [valid.inStep.exchange.running]
    exact Bool.false_ne_true
  cases event with
  | ongetbytes u8 =>
      rw [Rng.step, if_neg running]
      exact valid.ongetbytes orderly
  | complete element => exact valid.complete orderly
  | irq hasPendingIRQ =>
      rw [Rng.step, if_neg running]
      obtain ⟨inStep, -⟩ := valid.inStep.irq hasPendingIRQ
      obtain ⟨owners, completed, served⟩ := rng.channel.irq_record hasPendingIRQ
      exact
        { inStep := inStep
          ran := by rw [served]; exact valid.ran
          own := by rw [completed]; exact valid.own
          callbacks := by rw [owners]; exact valid.callbacks
          named := by rw [owners]; exact valid.named }
  | runImmediate =>
      rw [Rng.step, if_neg running]
      exact valid.runImmediate

/-- The entropy source with a list of events behind it. -/
def after (translate : ℕ → ℕ) (memory : Memory) (ringSize : ℕ) (events : List Event) : Rng :=
  Transition.run (step translate) (create memory ringSize) events

/-- In every orderly run the callbacks are matched with their requests. -/
theorem matched_after (translate : ℕ → ℕ) (memory : Memory) {exponent : ℕ}
    (small : exponent ≤ 16) {events : List Event}
    (orderly : Transition.Along (step translate) (Orderly translate)
      (create memory (2 ^ exponent)) events) :
    (after translate memory (2 ^ exponent) events).Matched := by
  apply Valid.matched
  · apply Transition.run_invariant (fun rng : Rng => rng.Valid (2 ^ exponent))
    · intro rng event valid allowed
      exact valid.step allowed
    · exact valid_create memory ⟨exponent, small, rfl⟩
    · exact orderly

end Rng

/-! ## Matching by position -/

/-- **Completions and callers.** In every run in which every request fits and the device
completes requests in the order in which they were placed, promises of the block device and
callbacks of the entropy source are matched with their own requests. -/
theorem completions_matched (translate : ℕ → ℕ) (memory : Memory) (exponent : ℕ)
    (small : exponent ≤ 16) :
    (∀ totalSectorCount events,
      Transition.Along (Blk.step translate) (Blk.Orderly translate)
        (Blk.create memory (2 ^ exponent) totalSectorCount) events →
      (Blk.after translate memory (2 ^ exponent) totalSectorCount events).Matched) ∧
    ∀ events,
      Transition.Along (Rng.step translate) (Rng.Orderly translate)
        (Rng.create memory (2 ^ exponent)) events →
      (Rng.after translate memory (2 ^ exponent) events).Matched := by
  constructor
  · intro totalSectorCount events orderly
    exact Blk.matched_after translate memory small totalSectorCount orderly
  · intro events orderly
    exact Rng.matched_after translate memory small orderly

/-- A read and a write, completed in turn, the second with an error. -/
def orderlyRequests : List Blk.Event :=
  [.read 5 ⟨0x4000, 512⟩ 0x1000 0x2000, .write ⟨0x5000, 512⟩ 0x1100 0x2100,
    .complete ⟨0, 513⟩ 0, .complete ⟨3, 1⟩ 1, .irq true, .runImmediate, .runImmediate,
    .runImmediate, .runImmediate]

/-- Two calls for entropy, completed in turn. -/
def orderlyCalls : List Rng.Event :=
  [.ongetbytes ⟨0x1000, 8⟩, .ongetbytes ⟨0x2000, 8⟩, .complete ⟨0, 8⟩, .irq true,
    .complete ⟨1, 8⟩, .runImmediate, .irq true, .runImmediate]

theorem completions_matched_in_turn :
    (Blk.after id Exchange.zeroMemory 8 100 orderlyRequests).Matched ∧
      (Rng.after id Exchange.zeroMemory 8 orderlyCalls).Matched :=
  ⟨(completions_matched id Exchange.zeroMemory 3 (by decide)).1 100 orderlyRequests
      (by decide +kernel),
    (completions_matched id Exchange.zeroMemory 3 (by decide)).2 orderlyCalls
      (by decide +kernel)⟩

/-- Two reads, of which the device completes the second one only. -/
def secondRead : List Blk.Event :=
  [.read 5 ⟨0x4000, 512⟩ 0x1000 0x2000, .read 6 ⟨0x5000, 512⟩ 0x1100 0x2100,
    .complete ⟨3, 513⟩ 0, .irq true, .runImmediate, .runImmediate]

/-- A read that fits in a ring of four descriptors, one that does not, and a third that fits
again after the first has been completed; the third is completed too. -/
def refusedRead : List Blk.Event :=
  [.read 5 ⟨0x4000, 512⟩ 0x1000 0x2000, .read 6 ⟨0x5000, 512⟩ 0x1100 0x2100,
    .complete ⟨0, 513⟩ 0, .irq true, .runImmediate, .runImmediate,
    .read 7 ⟨0x6000, 512⟩ 0x1200 0x2200, .complete ⟨0, 513⟩ 0, .irq true, .runImmediate,
    .runImmediate]

/-- Two calls for entropy, of which the device completes the second one only. -/
def secondCall : List Rng.Event :=
  [.ongetbytes ⟨0x1000, 8⟩, .ongetbytes ⟨0x2000, 8⟩, .complete ⟨1, 8⟩, .irq true,
    .runImmediate]

/-- Matching by position goes wrong. The first read is resolved with its data, though the
device has completed the second; a read whose request was refused is resolved when another
one's request has been completed; and the first callback for entropy runs when the second
array has been filled. -/
theorem completions_mismatched :
    (¬(Blk.after id Exchange.zeroMemory 8 100 secondRead).Matched ∧
      (Blk.after id Exchange.zeroMemory 8 100 secondRead).settlements =
        [(⟨0, .VIRTIO_BLK_T_IN, ⟨0x4000, 512⟩⟩, .resolved (some ⟨0x4000, 512⟩))] ∧
      (Blk.after id Exchange.zeroMemory 8 100 secondRead).completions = [(1, 0)]) ∧
    (¬(Blk.after id Exchange.zeroMemory 4 100 refusedRead).Matched ∧
      (Blk.after id Exchange.zeroMemory 4 100 refusedRead).settlements.map
        (fun settlement => settlement.1.promise) = [0, 1] ∧
      (Blk.after id Exchange.zeroMemory 4 100 refusedRead).completions = [(0, 0), (2, 0)]) ∧
    ¬(Rng.after id Exchange.zeroMemory 8 secondCall).Matched := by
  have settled : (Blk.after id Exchange.zeroMemory 8 100 secondRead).settlements =
      [(⟨0, .VIRTIO_BLK_T_IN, ⟨0x4000, 512⟩⟩, .resolved (some ⟨0x4000, 512⟩))] := by
    decide +kernel
  have completed : (Blk.after id Exchange.zeroMemory 8 100 secondRead).completions =
      [(1, 0)] := by
    decide +kernel
  have refused : (Blk.after id Exchange.zeroMemory 4 100 refusedRead).settlements.map
      (fun settlement => settlement.1.promise) = [0, 1] := by
    decide +kernel
  have others : (Blk.after id Exchange.zeroMemory 4 100 refusedRead).completions =
      [(0, 0), (2, 0)] := by
    decide +kernel
  refine ⟨⟨?_, settled, completed⟩, ⟨?_, refused, others⟩, ?_⟩
  · intro matched
    obtain ⟨status, listed, -⟩ := matched.own _ (by rw [settled]; exact List.mem_cons_self)
    rw [completed] at listed
    simp at listed
  · intro matched
    have second : 1 ∈ (Blk.after id Exchange.zeroMemory 4 100 refusedRead).settlements.map
        (fun settlement => settlement.1.promise) := by
      rw [refused]
      decide
    obtain ⟨settlement, member, named⟩ := List.mem_map.mp second
    obtain ⟨status, listed, -⟩ := matched.own settlement member
    rw [others, named] at listed
    simp at listed
  · intro matched
    have own := matched.own ⟨0, ⟨0x1000, 8⟩⟩ (by decide +kernel)
    revert own
    decide +kernel

end Virtio
