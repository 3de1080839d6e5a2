import JsOS.Kernel.Timers

/-! # The reference count of a thread

A thread counts what keeps it alive: its timeouts, its promises, the objects that it stores for
callbacks, and the functions that it exports. It ends when a run has handled its messages and
the count is 0. Each kind of thing is counted where it is added, and uncounted where it is
taken, but for the stored objects: the callback of `setImmediate` is taken without a decrement,
so a run keeps the count exactly as long as it handles no such message
(`refCount_balanced_iff`).
-/

namespace JsOS.Kernel

/-! ## Pools in use -/

namespace IndexedPool

variable {Element : Type*} {pool : IndexedPool Element} {index : ℕ} {ids : List ℕ}

/-- The number of slots in use. -/
def held (pool : IndexedPool Element) : ℕ := pool.countP Option.isSome

@[simp] theorem held_nil : held ([] : IndexedPool Element) = 0 := rfl

@[simp] theorem held_cons_none (rest : IndexedPool Element) : held (none :: rest) = held rest :=
  List.countP_cons_of_neg Bool.false_ne_true

@[simp] theorem held_cons_some (element : Element) (rest : IndexedPool Element) :
    held (some element :: rest) = held rest + 1 :=
  List.countP_cons_of_pos rfl

theorem held_push (pool : IndexedPool Element) (value : Element) :
    held (pool.push value).2 = pool.held + 1 := by
  induction pool with
  | nil => exact held_cons_some value []
  | cons slot rest ih =>
      cases slot with
      | none => rw [push, held_cons_some, held_cons_none]
      | some other =>
          rw [push]
          dsimp only
          rw [held_cons_some, ih, held_cons_some]

/-- A slot that stays in use changes nothing. -/
theorem held_set_some (used : pool.get index ≠ none) (value : Element) :
    held (pool.set index (some value)) = pool.held := by
  induction pool generalizing index with
  | nil => exact absurd rfl used
  | cons slot rest ih =>
      cases index with
      | zero =>
          obtain ⟨other, rfl⟩ := Option.ne_none_iff_exists'.mp used
          rw [List.set_cons_zero, held_cons_some, held_cons_some]
      | succ index =>
          have later := ih used
          rw [List.set_cons_succ]
          cases slot with
          | none => rw [held_cons_none, held_cons_none, later]
          | some other => rw [held_cons_some, held_cons_some, later]

theorem held_take (used : pool.get index ≠ none) : held (pool.take index).2 + 1 = pool.held := by
  change held (pool.set index none) + 1 = pool.held
  induction pool generalizing index with
  | nil => exact absurd rfl used
  | cons slot rest ih =>
      cases index with
      | zero =>
          obtain ⟨other, rfl⟩ := Option.ne_none_iff_exists'.mp used
          rw [List.set_cons_zero, held_cons_none, held_cons_some]
      | succ index =>
          have later := ih used
          rw [List.set_cons_succ]
          cases slot with
          | none => rw [held_cons_none, held_cons_none, later]
          | some other => rw [held_cons_some, held_cons_some, Nat.add_right_comm, later]

/-- **The slots that are still to be taken**: each is in use, and none is taken twice. -/
structure Claimed (pool : IndexedPool Element) (ids : List ℕ) : Prop where
  nodup : ids.Nodup
  used : ∀ id ∈ ids, pool.get id ≠ none

theorem Claimed.nil (pool : IndexedPool Element) : Claimed pool [] :=
  ⟨List.nodup_nil, fun _ among => (nomatch among)⟩

theorem Claimed.perm {others : List ℕ} (claimed : Claimed pool ids) (same : ids.Perm others) :
    Claimed pool others :=
  ⟨same.nodup claimed.nodup, fun id among => claimed.used id (same.symm.subset among)⟩

theorem Claimed.tail (claimed : Claimed pool (index :: ids)) : Claimed pool ids :=
  ⟨(List.nodup_cons.mp claimed.nodup).2, fun id among =>
    claimed.used id (List.mem_cons_of_mem index among)⟩

/-- The slot of a new element was not claimed yet. -/
theorem Claimed.push (claimed : Claimed pool ids) (value : Element) :
    Claimed (pool.push value).2 ((pool.push value).1 :: ids) := by
  obtain ⟨free, -, stored⟩ := push_spec pool value
  have fresh : (pool.push value).1 ∉ ids := fun among => claimed.used _ among free
  refine ⟨List.nodup_cons.mpr ⟨fresh, claimed.nodup⟩, fun id among => ?_⟩
  rw [stored]
  by_cases same : id = (pool.push value).1
  · rw [if_pos same]
    exact Option.some_ne_none value
  · rw [if_neg same]
    exact claimed.used id ((List.mem_cons.mp among).resolve_left same)

theorem Claimed.take (claimed : Claimed pool (index :: ids)) : Claimed (pool.take index).2 ids := by
  refine ⟨(List.nodup_cons.mp claimed.nodup).2, fun id among => ?_⟩
  rw [get_take]
  by_cases same : id = index
  · rw [same] at among
    exact absurd among (List.nodup_cons.mp claimed.nodup).1
  · rw [if_neg same]
    exact claimed.used id (List.mem_cons_of_mem index among)

end IndexedPool

/-! ## Messages -/

namespace Thread

/-- A `ThreadMessage`, with the index that it carries. -/
inductive Message where
  | empty
  | evaluate
  | timeoutEvent (recv_index : ℕ)
  | irqRaise (recv_index : ℕ)
  | setImmediate (recv_index : ℕ)
  | functionCall (index export_id : ℕ)
  | functionReturnResolve (recv_index : ℕ)
  | functionReturnReject (recv_index : ℕ)
  deriving DecidableEq, Repr

namespace Message

/-- The slot of the timeout that a message takes. -/
def timeout? : Message → Option ℕ
  | timeoutEvent recv_index => some recv_index
  | _ => none

/-- The slot of the stored object that a message takes. -/
def object? : Message → Option ℕ
  | setImmediate recv_index => some recv_index
  | _ => none

/-- The slot of the promise that a message takes. -/
def promise? : Message → Option ℕ
  | functionReturnResolve recv_index => some recv_index
  | functionReturnReject recv_index => some recv_index
  | _ => none

end Message

end Thread

/-! ## The thread -/

/-- A `Thread`, as far as its messages and its references go, with what the rest of the system
holds of it. Stored objects, resolvers and functions are numbers. -/
structure Thread where
  timers : TimerThread := {}
  object_handles_ : IndexedPool ℕ := []
  promises_ : IndexedPool ℕ := []
  exports_ : List ℕ := []
  ref_count_ : UInt64 := 0
  terminate_ : Bool := false
  /-- The messages of the `EngineThread`. -/
  messages_ : List Thread.Message := []
  /-- Whether `Run` is handling messages, and those that it has not got to. -/
  running : Bool := false
  taken : List Thread.Message := []
  /-- The indices that the IRQ dispatcher has. -/
  bound : List ℕ := []
  /-- The promises whose result has not been sent. -/
  unsettled : List ℕ := []

namespace Thread

/-- `Ref`. -/
def ref (thread : Thread) : Thread := { thread with ref_count_ := thread.ref_count_ + 1 }

/-- `Unref`. -/
def unref (thread : Thread) : Thread := { thread with ref_count_ := thread.ref_count_ - 1 }

/-- `AddExport`. -/
def addExport (thread : Thread) (fn : ℕ) : Thread :=
  { thread.ref with exports_ := thread.exports_ ++ [fn] }

/-- `PutObject`. -/
def putObject (thread : Thread) (v : ℕ) : ℕ × Thread :=
  let (index, object_handles_) := thread.object_handles_.push v
  (index, { thread.ref with object_handles_ })

/-- `TakeObject`. -/
def takeObject (thread : Thread) (index : ℕ) : Thread :=
  { thread with object_handles_ := (thread.object_handles_.take index).2 }

/-- `AddPromise`. -/
def addPromise (thread : Thread) (resolver : ℕ) : ℕ × Thread :=
  let (index, promises_) := thread.promises_.push resolver
  (index, { thread.ref with promises_ })

/-- `TakePromise`. -/
def takePromise (thread : Thread) (index : ℕ) : Thread :=
  { thread.unref with promises_ := (thread.promises_.take index).2 }

/-- `SetTimer`, which adds timeout data. -/
def setTimer (thread : Thread) (delay : ℕ) (autoreset : Bool) : Thread :=
  { thread.ref with timers := (thread.timers.setTimer delay autoreset).2 }

/-- `PushMessage` of the `EngineThread`. -/
def pushMessage (thread : Thread) (message : Message) : Thread :=
  { thread with messages_ := thread.messages_ ++ [message] }

/-- `SetImmediate`. -/
def setImmediate (thread : Thread) (fn : ℕ) : Thread :=
  let (index, thread) := thread.putObject fn
  thread.pushMessage (.setImmediate index)

/-- `On` of an IRQ. -/
def irqOn (thread : Thread) (fn : ℕ) : Thread :=
  let (index, thread) := thread.putObject fn
  { thread with bound := index :: thread.bound }

/-- The message `TIMEOUT_EVENT`, up to the call of the callback: an interval is added again. -/
def timeoutEvent (thread : Thread) (timeout_id : ℕ) : Thread :=
  let after := { thread.unref with timers := (thread.timers.timeoutEvent timeout_id).2 }
  match thread.timers.timeout_data_.get timeout_id with
  | none => after
  | some data => if !data.cleared_ && data.autoreset_ then after.ref else after

/-- The switch over the message types in `Run`, up to the call of a callback. -/
def handleMessage (thread : Thread) : Message → Thread
  | .empty => thread
  | .evaluate => thread
  | .functionCall _ _ => thread
  | .functionReturnResolve recv_index => thread.takePromise recv_index
  | .functionReturnReject recv_index => thread.takePromise recv_index
  | .timeoutEvent recv_index => thread.timeoutEvent recv_index
  | .irqRaise _ => thread
  | .setImmediate recv_index => thread.takeObject recv_index

/-- `Run` up to the loop: without messages it returns. -/
def beginRun (thread : Thread) : Thread :=
  if thread.running || thread.messages_.isEmpty then thread
  else { thread with running := true, taken := thread.messages_, messages_ := [] }

/-- A round of the loop of `Run`. -/
def round (thread : Thread) : Thread :=
  match thread.taken with
  | [] => thread
  | message :: taken => { thread with taken }.handleMessage message

/-- The end of `Run`: whether the thread goes on, and the thread. -/
def endRun (thread : Thread) : Bool × Thread :=
  if thread.ref_count_ = 0 ∨ thread.terminate_ then
    (false, { thread with running := false, terminate_ := true })
  else (true, { thread with running := false })

end Thread

/-- What a program does with its thread, what the rest of the system sends to it, and the parts
of a run of it. -/
inductive ThreadEvent where
  | setTimeout (delay : ℕ)
  | setInterval (delay : ℕ)
  | clearTimer (id : ℕ)
  | setImmediate (fn : ℕ)
  | irqOn (fn : ℕ)
  | addPromise (resolver : ℕ)
  | addExport (fn : ℕ)
  | setTerminateFlag
  | timeoutElapsed (timeout_id : ℕ)
  | irqRaised (recv_index : ℕ)
  | promiseSettled (index : ℕ) (resolved : Bool)
  | evaluate
  | functionCall (index export_id : ℕ)
  | beginRun
  | round
  | endRun
  deriving DecidableEq, Repr

namespace Thread

/-- The messages that have not been handled. -/
def queue (thread : Thread) : List Message := thread.taken ++ thread.messages_

/-- One event. A timeout sends its message once, as a promise does; what is not there does not
happen. -/
def step (thread : Thread) : ThreadEvent → Thread
  | .setTimeout delay => thread.setTimer delay false
  | .setInterval delay => thread.setTimer delay true
  | .clearTimer id => { thread with timers := (thread.timers.clearTimer id).2 }
  | .setImmediate fn => thread.setImmediate fn
  | .irqOn fn => thread.irqOn fn
  | .addPromise resolver =>
      let (index, thread) := thread.addPromise resolver
      { thread with unsettled := index :: thread.unsettled }
  | .addExport fn => thread.addExport fn
  | .setTerminateFlag => { thread with terminate_ := true }
  | .timeoutElapsed timeout_id =>
      if timeout_id ∈ thread.timers.timeouts_.map Prod.fst ∧
          timeout_id ∉ thread.queue.filterMap Message.timeout? then
        thread.pushMessage (.timeoutEvent timeout_id)
      else thread
  | .irqRaised recv_index =>
      if recv_index ∈ thread.bound then thread.pushMessage (.irqRaise recv_index) else thread
  | .promiseSettled index resolved =>
      if index ∈ thread.unsettled then
        { thread with unsettled := thread.unsettled.erase index }.pushMessage
          (if resolved then .functionReturnResolve index else .functionReturnReject index)
      else thread
  | .evaluate => thread.pushMessage .evaluate
  | .functionCall index export_id => thread.pushMessage (.functionCall index export_id)
  | .beginRun => thread.beginRun
  | .round => thread.round
  | .endRun =>
      if thread.running && thread.taken.isEmpty then thread.endRun.2 else thread

/-- What keeps the thread alive. -/
def outstanding (thread : Thread) : ℕ :=
  thread.timers.timeout_data_.held + thread.promises_.held + thread.object_handles_.held +
    thread.exports_.length

/-- **The count is that of what is outstanding**, as a `size_t`. -/
def Balanced (thread : Thread) : Prop := thread.ref_count_ = UInt64.ofNat thread.outstanding

instance (thread : Thread) : Decidable thread.Balanced :=
  inferInstanceAs (Decidable (thread.ref_count_ = _))

/-- The event handles a message of `setImmediate`. -/
def HandlesImmediate (thread : Thread) (event : ThreadEvent) : Prop :=
  event = .round ∧ (thread.taken.head?.bind Message.object?).isSome

instance (thread : Thread) (event : ThreadEvent) : Decidable (thread.HandlesImmediate event) :=
  inferInstanceAs (Decidable (_ ∧ _))

/-! ## What a message takes is there -/

/-- Every message that is to be handled finds what it takes, and no two take the same. -/
structure Sound (thread : Thread) : Prop where
  idle : thread.running = false → thread.taken = []
  awaited : thread.timers.Awaited
  timeouts : thread.timers.timeout_data_.Claimed (thread.queue.filterMap Message.timeout?)
  objects : thread.object_handles_.Claimed
    (thread.bound ++ thread.queue.filterMap Message.object?)
  promises : thread.promises_.Claimed
    (thread.unsettled ++ thread.queue.filterMap Message.promise?)

/-- The count is ahead of what is outstanding. -/
def Excess (thread : Thread) (ahead : ℕ) : Prop :=
  thread.ref_count_ = UInt64.ofNat (thread.outstanding + ahead)

variable {thread : Thread} {ahead : ℕ}

theorem excess_zero_iff : thread.Excess 0 ↔ thread.Balanced := Iff.rfl

theorem begins_sound : Sound {} where
  idle _ := rfl
  awaited := ⟨List.nodup_nil, fun _ => iff_of_false List.not_mem_nil (· rfl)⟩
  timeouts := .nil []
  objects := .nil []
  promises := .nil []

/-! ## Counting -/

theorem Excess.ref {after : Thread} (excess : thread.Excess ahead)
    (count : after.ref_count_ = thread.ref_count_ + 1)
    (more : after.outstanding = thread.outstanding + 1) : after.Excess ahead := by
  unfold Excess at *
  rw [count, excess, more, Nat.add_right_comm, UInt64.ofNat_add (thread.outstanding + ahead)]
  rfl

theorem Excess.unref {after : Thread} (excess : thread.Excess ahead)
    (count : after.ref_count_ = thread.ref_count_ - 1)
    (fewer : after.outstanding + 1 = thread.outstanding) : after.Excess ahead := by
  unfold Excess at *
  rw [count, excess, ← fewer, Nat.add_right_comm, UInt64.ofNat_add (after.outstanding + ahead)]
  exact UInt64.add_sub_cancel _ _

theorem Excess.same {after : Thread} (excess : thread.Excess ahead)
    (count : after.ref_count_ = thread.ref_count_)
    (same : after.outstanding = thread.outstanding) : after.Excess ahead := by
  unfold Excess at *
  rw [count, same, excess]

/-- Something is taken without being uncounted. -/
theorem Excess.leak {after : Thread} (excess : thread.Excess ahead)
    (count : after.ref_count_ = thread.ref_count_)
    (fewer : after.outstanding + 1 = thread.outstanding) : after.Excess (ahead + 1) := by
  unfold Excess at *
  rw [count, excess, ← fewer, Nat.add_right_comm]
  rfl

/-! ## Adding -/

theorem queue_pushMessage (thread : Thread) (message : Message) :
    (thread.pushMessage message).queue = thread.queue ++ [message] :=
  (List.append_assoc _ _ _).symm

/-- A message that takes nothing changes nothing. -/
theorem Sound.pushMessage (sound : thread.Sound) {message : Message}
    (noTimeout : message.timeout? = none) (noObject : message.object? = none)
    (noPromise : message.promise? = none) : (thread.pushMessage message).Sound := by
  have same {slot : Message → Option ℕ} (none : slot message = none) :
      (thread.pushMessage message).queue.filterMap slot = thread.queue.filterMap slot := by
    rw [queue_pushMessage, List.filterMap_append, List.filterMap_cons_none none,
      List.filterMap_nil, List.append_nil]
  refine ⟨sound.idle, sound.awaited, ?_, ?_, ?_⟩
  · rw [same noTimeout]
    exact sound.timeouts
  · rw [same noObject]
    exact sound.objects
  · rw [same noPromise]
    exact sound.promises

theorem Sound.setTimer (sound : thread.Sound) (delay : ℕ) (autoreset : Bool) :
    (thread.setTimer delay autoreset).Sound where
  idle := sound.idle
  awaited :=
    let added := sound.awaited.addTimeout ⟨thread.timers.returned.length, delay, false, autoreset⟩
    ⟨added.nodup, added.iff⟩
  timeouts := (sound.timeouts.push _).tail
  objects := sound.objects
  promises := sound.promises

theorem Excess.setTimer (excess : thread.Excess ahead) (delay : ℕ) (autoreset : Bool) :
    (thread.setTimer delay autoreset).Excess ahead := by
  refine excess.ref rfl ?_
  have more := IndexedPool.held_push thread.timers.timeout_data_
    ⟨thread.timers.returned.length, delay, false, autoreset⟩
  change IndexedPool.held (thread.timers.timeout_data_.push _).2 + thread.promises_.held +
    thread.object_handles_.held + thread.exports_.length = _
  rw [more, outstanding]
  omega

/-- Clearing leaves the slot in use. -/
theorem timeouts_clearTimer (timers : TimerThread) (id : ℕ) :
    (timers.clearTimer id).2.timeout_data_.held = timers.timeout_data_.held ∧
      ∀ ids, timers.timeout_data_.Claimed ids →
        (timers.clearTimer id).2.timeout_data_.Claimed ids := by
  unfold TimerThread.clearTimer TimerThread.flagTimeoutCleared
  cases found : timers.timeout_data_.get (id % 2 ^ 32) with
  | none => exact ⟨rfl, fun ids claimed => claimed⟩
  | some data =>
      have used : timers.timeout_data_.get (id % 2 ^ 32) ≠ none := by
        rw [found]
        exact Option.some_ne_none data
      refine ⟨IndexedPool.held_set_some used _, fun ids claimed => ⟨claimed.nodup, ?_⟩⟩
      intro other among
      have inside := IndexedPool.lt_length_of_get found
      dsimp only
      rw [IndexedPool.get_set _ _ _ _ inside]
      by_cases same : other = id % 2 ^ 32
      · rw [if_pos same]
        exact Option.some_ne_none _
      · rw [if_neg same]
        exact claimed.used other among

theorem Sound.clearTimer (sound : thread.Sound) (id : ℕ) : (thread.step (.clearTimer id)).Sound where
  idle := sound.idle
  awaited := sound.awaited.step (.clearTimer id)
  timeouts := (timeouts_clearTimer thread.timers id).2 _ sound.timeouts
  objects := sound.objects
  promises := sound.promises

theorem Excess.clearTimer (excess : thread.Excess ahead) (id : ℕ) :
    (thread.step (.clearTimer id)).Excess ahead := by
  refine excess.same rfl ?_
  change (thread.timers.clearTimer id).2.timeout_data_.held + _ + _ + _ = _
  rw [(timeouts_clearTimer thread.timers id).1]
  rfl

theorem outstanding_putObject (thread : Thread) (v : ℕ) :
    (thread.putObject v).2.outstanding = thread.outstanding + 1 := by
  have more := IndexedPool.held_push thread.object_handles_ v
  change thread.timers.timeout_data_.held + thread.promises_.held +
    IndexedPool.held (thread.object_handles_.push v).2 + thread.exports_.length = _
  rw [more, outstanding]
  omega

theorem Sound.setImmediate (sound : thread.Sound) (fn : ℕ) : (thread.setImmediate fn).Sound := by
  have queue : (thread.setImmediate fn).queue =
      thread.queue ++ [.setImmediate (thread.object_handles_.push fn).1] :=
    queue_pushMessage _ _
  refine ⟨sound.idle, sound.awaited, ?_, ?_, ?_⟩
  · rw [queue, List.filterMap_append]
    exact (List.append_nil _).symm ▸ sound.timeouts
  · rw [queue, List.filterMap_append, ← List.append_assoc]
    exact (sound.objects.push fn).perm (List.perm_append_singleton _ _).symm
  · rw [queue, List.filterMap_append]
    exact (List.append_nil _).symm ▸ sound.promises

theorem Excess.setImmediate (excess : thread.Excess ahead) (fn : ℕ) :
    (thread.setImmediate fn).Excess ahead :=
  excess.ref rfl (outstanding_putObject thread fn)

theorem Sound.irqOn (sound : thread.Sound) (fn : ℕ) : (thread.irqOn fn).Sound where
  idle := sound.idle
  awaited := sound.awaited
  timeouts := sound.timeouts
  objects := sound.objects.push fn
  promises := sound.promises

theorem Excess.irqOn (excess : thread.Excess ahead) (fn : ℕ) : (thread.irqOn fn).Excess ahead :=
  excess.ref rfl (outstanding_putObject thread fn)

theorem Sound.addPromise (sound : thread.Sound) (resolver : ℕ) :
    (thread.step (.addPromise resolver)).Sound where
  idle := sound.idle
  awaited := sound.awaited
  timeouts := sound.timeouts
  objects := sound.objects
  promises := sound.promises.push resolver

theorem Excess.addPromise (excess : thread.Excess ahead) (resolver : ℕ) :
    (thread.step (.addPromise resolver)).Excess ahead := by
  refine excess.ref rfl ?_
  have more := IndexedPool.held_push thread.promises_ resolver
  change thread.timers.timeout_data_.held + IndexedPool.held (thread.promises_.push resolver).2 +
    thread.object_handles_.held + thread.exports_.length = _
  rw [more, outstanding]
  omega

theorem Sound.addExport (sound : thread.Sound) (fn : ℕ) : (thread.addExport fn).Sound where
  idle := sound.idle
  awaited := sound.awaited
  timeouts := sound.timeouts
  objects := sound.objects
  promises := sound.promises

theorem Excess.addExport (excess : thread.Excess ahead) (fn : ℕ) :
    (thread.addExport fn).Excess ahead := by
  refine excess.ref rfl ?_
  change _ + (thread.exports_ ++ [fn]).length = _
  rw [List.length_append]
  rfl

/-! ## Messages that arrive -/

theorem Sound.timeoutElapsed (sound : thread.Sound) (timeout_id : ℕ) :
    (thread.step (.timeoutElapsed timeout_id)).Sound := by
  rw [step]
  by_cases due : timeout_id ∈ thread.timers.timeouts_.map Prod.fst ∧
      timeout_id ∉ thread.queue.filterMap Message.timeout?
  · rw [if_pos due]
    refine ⟨sound.idle, sound.awaited, ?_, ?_, ?_⟩
    · rw [queue_pushMessage, List.filterMap_append]
      have claimed : thread.timers.timeout_data_.Claimed
          (timeout_id :: thread.queue.filterMap Message.timeout?) := by
        refine ⟨List.nodup_cons.mpr ⟨due.2, sound.timeouts.nodup⟩, fun id among => ?_⟩
        rcases List.mem_cons.mp among with rfl | among
        · exact (sound.awaited.iff id).mp due.1
        · exact sound.timeouts.used id among
      exact claimed.perm (List.perm_append_singleton _ _).symm
    · rw [queue_pushMessage, List.filterMap_append]
      exact (List.append_nil _).symm ▸ sound.objects
    · rw [queue_pushMessage, List.filterMap_append]
      exact (List.append_nil _).symm ▸ sound.promises
  · rw [if_neg due]
    exact sound

theorem Sound.promiseSettled (sound : thread.Sound) (index : ℕ) (resolved : Bool) :
    (thread.step (.promiseSettled index resolved)).Sound := by
  rw [step]
  by_cases awaited : index ∈ thread.unsettled
  · rw [if_pos awaited]
    generalize message_eq : (if resolved = true then Message.functionReturnResolve index
      else Message.functionReturnReject index) = message
    obtain ⟨noTimeout, noObject, promise⟩ : message.timeout? = none ∧ message.object? = none ∧
        message.promise? = some index := by
      rw [← message_eq]
      cases resolved with
      | false => exact ⟨rfl, rfl, rfl⟩
      | true => exact ⟨rfl, rfl, rfl⟩
    have sent : (thread.unsettled ++ thread.queue.filterMap Message.promise?).Perm
        (thread.unsettled.erase index ++
          (thread.queue.filterMap Message.promise? ++ [index])) := by
      rw [← List.append_assoc]
      exact ((List.perm_cons_erase awaited).append_right _).trans
        (List.perm_append_singleton _ _).symm
    refine ⟨sound.idle, sound.awaited, ?_, ?_, ?_⟩
    · rw [queue_pushMessage, List.filterMap_append, List.filterMap_cons_none noTimeout]
      exact (List.append_nil _).symm ▸ sound.timeouts
    · rw [queue_pushMessage, List.filterMap_append, List.filterMap_cons_none noObject]
      exact (List.append_nil _).symm ▸ sound.objects
    · rw [queue_pushMessage, List.filterMap_append, List.filterMap_cons_some promise]
      exact sound.promises.perm sent
  · rw [if_neg awaited]
    exact sound

/-! ## Messages that are handled -/

/-- The timers after `TIMEOUT_EVENT`: one less is in use, but for an interval, and no other
slot is free that was not. -/
theorem timeouts_timeoutEvent (timers : TimerThread) {timeout_id : ℕ} {ids : List ℕ}
    (claimed : timers.timeout_data_.Claimed (timeout_id :: ids)) :
    (timers.timeoutEvent timeout_id).2.timeout_data_.Claimed ids ∧
      ∃ data, timers.timeout_data_.get timeout_id = some data ∧
        (timers.timeoutEvent timeout_id).2.timeout_data_.held +
            (if !data.cleared_ && data.autoreset_ then 0 else 1) =
          timers.timeout_data_.held := by
  have used := claimed.used timeout_id List.mem_cons_self
  have fewer := IndexedPool.held_take used
  have before : (timers.taken timeout_id).timeout_data_.Claimed ids := claimed.take
  obtain ⟨data, found⟩ := Option.ne_none_iff_exists'.mp used
  rcases timers.timeoutEvent_cases timeout_id with
    ⟨none, cleared⟩ | ⟨other, also, live, -, ⟨once, after⟩ | ⟨again, after⟩⟩
  · rw [none]
    refine ⟨before, data, found, ?_⟩
    rw [cleared data found]
    exact fewer
  · rw [found] at also
    obtain rfl := Option.some.inj also
    rw [after]
    refine ⟨before, data, found, ?_⟩
    rw [once, Bool.and_false]
    exact fewer
  · rw [found] at also
    obtain rfl := Option.some.inj also
    rw [after]
    refine ⟨(before.push data).tail, data, found, ?_⟩
    have more := IndexedPool.held_push (timers.taken timeout_id).timeout_data_ data
    rw [live, again]
    exact more.trans fewer

variable {message : Message} {taken : List Message}

/-- The slots that the messages are to take, with the first message. -/
theorem filterMap_queue (next : thread.taken = message :: taken)
    (slot : Message → Option ℕ) :
    thread.queue.filterMap slot =
      (message :: ({ thread with taken } : Thread).queue).filterMap slot := by
  rw [queue, next]
  rfl

theorem Sound.handleMessage (sound : thread.Sound) (next : thread.taken = message :: taken) :
    (({ thread with taken } : Thread).handleMessage message).Sound := by
  have idle : thread.running = false → taken = [] := by
    intro stopped
    rw [sound.idle stopped] at next
    exact (nomatch next)
  have timeouts := sound.timeouts
  have objects := sound.objects
  have promises := sound.promises
  rw [filterMap_queue next] at timeouts objects promises
  cases message with
  | empty => exact ⟨idle, sound.awaited, timeouts, objects, promises⟩
  | evaluate => exact ⟨idle, sound.awaited, timeouts, objects, promises⟩
  | functionCall index export_id => exact ⟨idle, sound.awaited, timeouts, objects, promises⟩
  | irqRaise recv_index => exact ⟨idle, sound.awaited, timeouts, objects, promises⟩
  | functionReturnResolve recv_index =>
      exact ⟨idle, sound.awaited, timeouts, objects, (promises.perm List.perm_middle).take⟩
  | functionReturnReject recv_index =>
      exact ⟨idle, sound.awaited, timeouts, objects, (promises.perm List.perm_middle).take⟩
  | setImmediate recv_index =>
      exact ⟨idle, sound.awaited, timeouts, (objects.perm List.perm_middle).take, promises⟩
  | timeoutEvent recv_index =>
      obtain ⟨claimed, data, found, -⟩ := timeouts_timeoutEvent thread.timers timeouts
      have awaited := sound.awaited.step (.timeoutEvent recv_index)
      change (Thread.timeoutEvent _ recv_index).Sound
      rw [Thread.timeoutEvent]
      dsimp only
      rw [found]
      dsimp only
      by_cases again : (!data.cleared_ && data.autoreset_) = true
      · rw [if_pos again]
        exact ⟨idle, awaited, claimed, objects, promises⟩
      · rw [if_neg again]
        exact ⟨idle, awaited, claimed, objects, promises⟩

theorem Excess.takePromise (excess : thread.Excess ahead) {index : ℕ}
    (used : thread.promises_.get index ≠ none) : (thread.takePromise index).Excess ahead := by
  refine excess.unref rfl ?_
  have fewer := IndexedPool.held_take used
  change thread.timers.timeout_data_.held + IndexedPool.held (thread.promises_.take index).2 +
    thread.object_handles_.held + thread.exports_.length + 1 = _
  rw [outstanding, ← fewer]
  omega

/-- **A stored object is taken without a decrement.** -/
theorem Excess.takeObject (excess : thread.Excess ahead) {index : ℕ}
    (used : thread.object_handles_.get index ≠ none) :
    (thread.takeObject index).Excess (ahead + 1) := by
  refine excess.leak rfl ?_
  have fewer := IndexedPool.held_take used
  change thread.timers.timeout_data_.held + thread.promises_.held +
    IndexedPool.held (thread.object_handles_.take index).2 + thread.exports_.length + 1 = _
  rw [outstanding, ← fewer]
  omega

/-- A timeout is uncounted, and an interval counted again. -/
theorem Excess.timeoutEvent (excess : thread.Excess ahead) {timeout_id : ℕ} {ids : List ℕ}
    (claimed : thread.timers.timeout_data_.Claimed (timeout_id :: ids)) :
    (thread.timeoutEvent timeout_id).Excess ahead := by
  obtain ⟨-, data, found, count⟩ := timeouts_timeoutEvent thread.timers claimed
  rw [Thread.timeoutEvent]
  dsimp only
  rw [found]
  dsimp only
  by_cases again : (!data.cleared_ && data.autoreset_) = true
  · rw [if_pos again] at count ⊢
    refine excess.same (UInt64.sub_add_cancel _ _) ?_
    change (thread.timers.timeoutEvent timeout_id).2.timeout_data_.held + thread.promises_.held +
      thread.object_handles_.held + thread.exports_.length = _
    rw [outstanding, ← count]
    rfl
  · rw [if_neg again] at count ⊢
    refine excess.unref rfl ?_
    change (thread.timers.timeoutEvent timeout_id).2.timeout_data_.held + thread.promises_.held +
      thread.object_handles_.held + thread.exports_.length + 1 = _
    rw [outstanding, ← count]
    omega

theorem Excess.handleMessage (sound : thread.Sound) (excess : thread.Excess ahead)
    (next : thread.taken = message :: taken) :
    (({ thread with taken } : Thread).handleMessage message).Excess
      (ahead + if message.object?.isSome then 1 else 0) := by
  have timeouts := sound.timeouts
  have objects := sound.objects
  have promises := sound.promises
  rw [filterMap_queue next] at timeouts objects promises
  have without : ({ thread with taken } : Thread).Excess ahead := excess
  cases message with
  | empty => exact without
  | evaluate => exact without
  | functionCall index export_id => exact without
  | irqRaise recv_index => exact without
  | functionReturnResolve recv_index =>
      exact without.takePromise ((promises.perm List.perm_middle).used _ List.mem_cons_self)
  | functionReturnReject recv_index =>
      exact without.takePromise ((promises.perm List.perm_middle).used _ List.mem_cons_self)
  | setImmediate recv_index =>
      exact without.takeObject ((objects.perm List.perm_middle).used _ List.mem_cons_self)
  | timeoutEvent recv_index => exact without.timeoutEvent timeouts

/-! ## Steps -/

theorem Sound.round (sound : thread.Sound) : thread.round.Sound := by
  rw [Thread.round]
  cases next : thread.taken with
  | nil => exact sound
  | cons message taken => exact sound.handleMessage next

theorem Sound.beginRun (sound : thread.Sound) : thread.beginRun.Sound := by
  rw [Thread.beginRun]
  by_cases waits : (thread.running || thread.messages_.isEmpty) = true
  · rw [if_pos waits]
    exact sound
  · rw [if_neg waits]
    have stopped : thread.running = false :=
      (Bool.or_eq_false_iff.mp (eq_false_of_ne_true waits)).1
    have queue : thread.queue = thread.messages_ ++ [] := by
      rw [Thread.queue, sound.idle stopped, List.append_nil]
      rfl
    have timeouts := sound.timeouts
    have objects := sound.objects
    have promises := sound.promises
    rw [queue] at timeouts objects promises
    exact ⟨fun absurd => (nomatch absurd), sound.awaited, timeouts, objects, promises⟩

theorem Excess.beginRun (excess : thread.Excess ahead) : thread.beginRun.Excess ahead := by
  rw [Thread.beginRun]
  split
  · exact excess
  · exact excess

theorem Sound.endRun (sound : thread.Sound) : (thread.step .endRun).Sound := by
  rw [step]
  by_cases done : (thread.running && thread.taken.isEmpty) = true
  · rw [if_pos done, Thread.endRun]
    have empty : thread.taken = [] := List.isEmpty_iff.mp (Bool.and_eq_true_iff.mp done).2
    split
    · exact ⟨fun _ => empty, sound.awaited, sound.timeouts, sound.objects, sound.promises⟩
    · exact ⟨fun _ => empty, sound.awaited, sound.timeouts, sound.objects, sound.promises⟩
  · rw [if_neg done]
    exact sound

theorem Excess.endRun (excess : thread.Excess ahead) : (thread.step .endRun).Excess ahead := by
  rw [step]
  split
  · rw [Thread.endRun]
    split
    · exact excess
    · exact excess
  · exact excess

/-- **Whatever happens, the messages find what they take.** -/
theorem Sound.step (sound : thread.Sound) (event : ThreadEvent) : (thread.step event).Sound := by
  cases event with
  | setTimeout delay => exact sound.setTimer delay false
  | setInterval delay => exact sound.setTimer delay true
  | clearTimer id => exact sound.clearTimer id
  | setImmediate fn => exact sound.setImmediate fn
  | irqOn fn => exact sound.irqOn fn
  | addPromise resolver => exact sound.addPromise resolver
  | addExport fn => exact sound.addExport fn
  | setTerminateFlag =>
      exact ⟨sound.idle, sound.awaited, sound.timeouts, sound.objects, sound.promises⟩
  | timeoutElapsed timeout_id => exact sound.timeoutElapsed timeout_id
  | irqRaised recv_index =>
      rw [Thread.step]
      split
      · exact sound.pushMessage rfl rfl rfl
      · exact sound
  | promiseSettled index resolved => exact sound.promiseSettled index resolved
  | evaluate => exact sound.pushMessage rfl rfl rfl
  | functionCall index export_id => exact sound.pushMessage rfl rfl rfl
  | beginRun => exact sound.beginRun
  | round => exact sound.round
  | endRun => exact sound.endRun

theorem Excess.round (sound : thread.Sound) (excess : thread.Excess ahead) :
    thread.round.Excess (ahead + if thread.HandlesImmediate .round then 1 else 0) := by
  rw [Thread.round]
  cases next : thread.taken with
  | nil =>
      have nothing : ¬thread.HandlesImmediate .round := by
        rw [HandlesImmediate, next]
        exact fun both => (nomatch both.2)
      rw [if_neg nothing]
      exact excess
  | cons message taken =>
      have same : thread.HandlesImmediate .round ↔ message.object?.isSome = true := by
        rw [HandlesImmediate, next]
        exact and_iff_right rfl
      have handled := excess.handleMessage sound next
      by_cases immediate : message.object?.isSome = true
      · rw [if_pos immediate] at handled
        rw [if_pos (same.mpr immediate)]
        exact handled
      · rw [if_neg immediate] at handled
        rw [if_neg (mt same.mp immediate)]
        exact handled

/-- **The count goes ahead by one with each message of `setImmediate` that is handled**, and by
nothing else. -/
theorem Excess.step (sound : thread.Sound) (excess : thread.Excess ahead) (event : ThreadEvent) :
    (thread.step event).Excess (ahead + if thread.HandlesImmediate event then 1 else 0) := by
  by_cases isRound : event = .round
  · subst isRound
    exact excess.round sound
  · rw [if_neg fun both => isRound both.1]
    cases event with
    | setTimeout delay => exact excess.setTimer delay false
    | setInterval delay => exact excess.setTimer delay true
    | clearTimer id => exact excess.clearTimer id
    | setImmediate fn => exact excess.setImmediate fn
    | irqOn fn => exact excess.irqOn fn
    | addPromise resolver => exact excess.addPromise resolver
    | addExport fn => exact excess.addExport fn
    | setTerminateFlag => exact excess
    | timeoutElapsed timeout_id =>
        rw [Thread.step]
        split
        · exact excess
        · exact excess
    | irqRaised recv_index =>
        rw [Thread.step]
        split
        · exact excess
        · exact excess
    | promiseSettled index resolved =>
        rw [Thread.step]
        split
        · exact excess
        · exact excess
    | evaluate => exact excess
    | functionCall index export_id => exact excess
    | beginRun => exact excess.beginRun
    | round => exact absurd rfl isRound
    | endRun => exact excess.endRun

/-! ## Runs -/

/-- How many messages of `setImmediate` a run handles. -/
def immediatesHandled : Thread → List ThreadEvent → ℕ
  | _, [] => 0
  | thread, event :: events =>
      (if thread.HandlesImmediate event then 1 else 0) +
        immediatesHandled (thread.step event) events

theorem Excess.run (sound : thread.Sound) (excess : thread.Excess ahead)
    (events : List ThreadEvent) :
    (Transition.run Thread.step thread events).Excess (ahead + immediatesHandled thread events) := by
  induction events generalizing thread ahead with
  | nil => exact excess
  | cons event events ih =>
      rw [immediatesHandled, ← Nat.add_assoc]
      exact ih (sound.step event) (excess.step sound event)

/-- A count that is one ahead is not balanced. -/
theorem Excess.balanced_iff {more : Prop} [Decidable more]
    (excess : thread.Excess (if more then 1 else 0)) : thread.Balanced ↔ ¬more := by
  unfold Excess Balanced at *
  by_cases ahead : more
  · rw [if_pos ahead] at excess
    refine iff_of_false (fun balanced => ?_) (not_not.mpr ahead)
    rw [excess, UInt64.ofNat_add, UInt64.add_comm] at balanced
    have none := congrArg (fun count => count - UInt64.ofNat thread.outstanding) balanced
    rw [UInt64.add_sub_cancel, UInt64.sub_self] at none
    exact absurd none (by decide)
  · rw [if_neg ahead] at excess
    exact iff_of_true excess ahead

/-- The count of a balanced thread is 0 when nothing is outstanding, and only then. -/
theorem Balanced.eq_zero_iff (balanced : thread.Balanced) (fits : thread.outstanding < 2 ^ 64) :
    thread.ref_count_ = 0 ↔ thread.outstanding = 0 := by
  rw [balanced, ← UInt64.toNat_inj, UInt64.toNat_ofNat', Nat.mod_eq_of_lt fits]
  rfl

/-- **The reference count of a thread is that of what is outstanding, in every state of a run,
exactly when the run handles no message of `setImmediate`**; and then it is 0 when nothing is
outstanding and only then. Each such message that is handled leaves the count one higher for
good. -/
theorem refCount_balanced_iff (events : List ThreadEvent) :
    ((∀ past future, events = past ++ future → (Transition.run step {} past).Balanced) ↔
        Transition.Along step (fun thread event => ¬thread.HandlesImmediate event) {} events) ∧
      (Transition.Along step (fun thread event => ¬thread.HandlesImmediate event) {} events →
        (Transition.run step {} events).outstanding < 2 ^ 64 →
          ((Transition.run step {} events).ref_count_ = 0 ↔
            (Transition.run step {} events).outstanding = 0)) ∧
      (Transition.run step {} events).ref_count_ =
        UInt64.ofNat ((Transition.run step {} events).outstanding +
          immediatesHandled {} events) := by
  have begins : Balanced {} := rfl
  have exactly : (∀ past future, events = past ++ future →
      (Transition.run step {} past).Balanced) ↔
        Transition.Along step (fun thread event => ¬thread.HandlesImmediate event) {} events := by
    refine Transition.forall_reached_iff_of_step Sound (fun thread event sound balanced => ?_)
      begins_sound begins
    have after := Excess.step sound (excess_zero_iff.mpr balanced) event
    rw [Nat.zero_add] at after
    exact ⟨sound.step event, after.balanced_iff⟩
  refine ⟨exactly, fun along fits => ?_, ?_⟩
  · exact (exactly.mpr along events [] (List.append_nil _).symm).eq_zero_iff fits
  · have reached := Excess.run begins_sound (excess_zero_iff.mpr begins) events
    rw [Nat.zero_add] at reached
    exact reached

/-- A timeout that has fired leaves nothing behind. -/
theorem refCount_balanced_timeout :
    (Transition.run step {} [.setTimeout 10, .timeoutElapsed 0, .beginRun, .round]).ref_count_ = 0 :=
  ((refCount_balanced_iff [.setTimeout 10, .timeoutElapsed 0, .beginRun, .round]).2.1
    (by decide) (by decide)).mpr (by decide)

/-- The callback of `setImmediate` is handled, nothing is outstanding, and the count is 1. -/
theorem immediate_not_balanced :
    ¬(Transition.run step {} [.setImmediate 7, .beginRun, .round]).Balanced ∧
      (Transition.run step {} [.setImmediate 7, .beginRun, .round]).outstanding = 0 ∧
      (Transition.run step {} [.setImmediate 7, .beginRun, .round]).ref_count_ = 1 := by
  decide

end Thread

end JsOS.Kernel
