import JsOS.Library.Run
import Mathlib.Data.BitVec
import Mathlib.Data.List.NodupEquivFin

/-! # The timers of a thread

A thread keeps the data of its timers in an `IndexedPool`, and a timer's id is its slot. A
slot is free again when its timer has fired, and the next timer takes the first free slot; an
interval gives its slot back whenever it fires, and takes the first free one. So an id may
come to denote another timer, and an interval may move away from its id. While neither
happens, `clearTimer` cancels just the timer that has the id (`timer_identity`).
-/

namespace JsOS.Kernel

/-! ## Pools -/

/-- The slots of an `IndexedPool`; a free one holds an empty element. -/
abbrev IndexedPool (Element : Type*) := List (Option Element)

namespace IndexedPool

variable {Element : Type*}

/-- `Push`: the first free slot takes the element, and is returned. -/
def push : IndexedPool Element → Element → Nat × IndexedPool Element
  | [], value => (0, [some value])
  | none :: rest, value => (0, some value :: rest)
  | some other :: rest, value =>
      let (index, rest) := push rest value
      (index + 1, some other :: rest)

/-- `Get`: the element in a slot, if there is one. -/
def get (pool : IndexedPool Element) (index : Nat) : Option Element := pool[index]?.join

/-- `Take`: the slot is left free. -/
def take (pool : IndexedPool Element) (index : Nat) : Option Element × IndexedPool Element :=
  (pool.get index, pool.set index none)

@[simp] theorem get_nil (index : Nat) : get ([] : IndexedPool Element) index = none := rfl

@[simp] theorem get_cons_zero (slot : Option Element) (rest : IndexedPool Element) :
    get (slot :: rest) 0 = slot := rfl

@[simp] theorem get_cons_succ (slot : Option Element) (rest : IndexedPool Element) (index : Nat) :
    get (slot :: rest) (index + 1) = get rest index := rfl

theorem get_set (pool : IndexedPool Element) (index other : Nat) (element : Option Element)
    (inside : index < pool.length) :
    get (pool.set index element) other = if other = index then element else pool.get other := by
  unfold get
  rw [List.getElem?_set]
  by_cases same : index = other
  · rw [if_pos same, if_pos inside, if_pos same.symm]
    rfl
  · rw [if_neg same, if_neg fun back => same back.symm]

theorem get_of_length_le {pool : IndexedPool Element} {index : Nat} (past : pool.length ≤ index) :
    pool.get index = none := by
  rw [get, List.getElem?_eq_none past]
  rfl

theorem lt_length_of_get {pool : IndexedPool Element} {index : Nat} {element : Element}
    (held : pool.get index = some element) : index < pool.length := by
  by_contra past
  rw [get_of_length_le (Nat.le_of_not_lt past)] at held
  cases held

theorem get_take (pool : IndexedPool Element) (index other : Nat) :
    get (pool.take index).2 other = if other = index then none else pool.get other := by
  by_cases inside : index < pool.length
  · exact get_set pool index other none inside
  · have past := get_of_length_le (Nat.le_of_not_lt inside)
    rw [take, List.set_eq_of_length_le (Nat.le_of_not_lt inside)]
    by_cases same : other = index
    · rw [if_pos same, same, past]
    · rw [if_neg same]

/-- **`Push` takes the first free slot**, and changes no other one. -/
theorem push_spec (pool : IndexedPool Element) (value : Element) :
    pool.get (pool.push value).1 = none ∧
      (∀ index, index < (pool.push value).1 → pool.get index ≠ none) ∧
      ∀ index, get (pool.push value).2 index =
        if index = (pool.push value).1 then some value else pool.get index := by
  induction pool with
  | nil =>
      refine ⟨rfl, fun index below => absurd below (Nat.not_lt_zero _), fun index => ?_⟩
      cases index with
      | zero => rfl
      | succ index => exact (if_neg (Nat.succ_ne_zero _)).symm
  | cons slot rest ih =>
      cases slot with
      | none =>
          refine ⟨rfl, fun index below => absurd below (Nat.not_lt_zero _), fun index => ?_⟩
          cases index with
          | zero => rfl
          | succ index => exact (if_neg (Nat.succ_ne_zero _)).symm
      | some other =>
          obtain ⟨free, first, stored⟩ := ih
          refine ⟨free, fun index below => ?_, fun index => ?_⟩
          · cases index with
            | zero => exact Option.some_ne_none _
            | succ index => exact first index (Nat.lt_of_succ_lt_succ below)
          · cases index with
            | zero => exact (if_neg (Nat.succ_ne_zero _).symm).symm
            | succ index =>
                rw [push, get_cons_succ, stored]
                by_cases here : index = (push rest value).1
                · rw [if_pos here, if_pos (congrArg Nat.succ here)]
                · rw [if_neg here, if_neg fun same => here (Nat.succ.inj same)]
                  rfl

end IndexedPool

/-! ## Timers -/

/-- A `TimeoutData`. The callbacks are numbered by the calls that passed them. -/
structure TimeoutData where
  cb_ : Nat
  delay_ : Nat
  cleared_ : Bool
  autoreset_ : Bool
  deriving DecidableEq, Repr

/-- A thread's timers: their data, and the timeouts that the thread manager has for them, by
slot and delay. What the calls have returned is not part of the thread. -/
structure TimerThread where
  timeout_data_ : IndexedPool TimeoutData := []
  timeouts_ : List (Nat × Nat) := []
  /-- The ids returned so far, by the number of the call. -/
  returned : List Nat := []

/-- The calls, and the messages for the thread. -/
inductive TimerEvent where
  | setTimeout (delay : Nat)
  | setInterval (delay : Nat)
  | clearTimer (id : Nat)
  | timeoutEvent (timeout_id : Nat)
  deriving DecidableEq, Repr

namespace TimerThread

/-- `AddTimeoutData`, and `SetTimeout` of the thread manager. -/
def addTimeout (thread : TimerThread) (data : TimeoutData) : Nat × TimerThread :=
  let (index, timeout_data_) := thread.timeout_data_.push data
  (index, { thread with timeout_data_, timeouts_ := (index, data.delay_) :: thread.timeouts_ })

/-- `SetTimer`. -/
def setTimer (thread : TimerThread) (delay : Nat) (autoreset : Bool) : Nat × TimerThread :=
  let (index, after) := thread.addTimeout ⟨thread.returned.length, delay, false, autoreset⟩
  (index, { after with returned := thread.returned ++ [index] })

/-- `FlagTimeoutCleared`. -/
def flagTimeoutCleared (thread : TimerThread) (index : Nat) : Bool × TimerThread :=
  match thread.timeout_data_.get index with
  | none => (false, thread)
  | some data =>
      (true, { thread with
        timeout_data_ := thread.timeout_data_.set index (some { data with cleared_ := true }) })

/-- The message `TIMEOUT_EVENT`, up to the call of the callback, with the callback to call. -/
def timeoutEvent (thread : TimerThread) (timeout_id : Nat) : Option Nat × TimerThread :=
  let (taken, timeout_data_) := thread.timeout_data_.take timeout_id
  let thread := { thread with
    timeout_data_, timeouts_ := thread.timeouts_.eraseP fun timeout => timeout.1 = timeout_id }
  match taken with
  | none => (none, thread)  -- an assertion fails
  | some data =>
      if data.cleared_ then (none, thread)
      else if data.autoreset_ then (some data.cb_, (thread.addTimeout data).2)
      else (some data.cb_, thread)

/-- `ClearTimer`: the argument is taken as 32 bits. -/
def clearTimer (thread : TimerThread) (id : Nat) : Bool × TimerThread :=
  thread.flagTimeoutCleared (id % 2 ^ 32)

/-- One event. -/
def step (thread : TimerThread) : TimerEvent → TimerThread
  | .setTimeout delay => (thread.setTimer delay false).2
  | .setInterval delay => (thread.setTimer delay true).2
  | .clearTimer id => (thread.clearTimer id).2
  | .timeoutEvent timeout_id => (thread.timeoutEvent timeout_id).2

/-- The callback that an event calls. -/
def called (thread : TimerThread) : TimerEvent → Option Nat
  | .timeoutEvent timeout_id => (thread.timeoutEvent timeout_id).1
  | _ => none

/-- A timer that will fire: it is in the pool, and not cleared. -/
def Active (thread : TimerThread) (timer : Nat) : Prop :=
  ∃ index data, thread.timeout_data_.get index = some data ∧ data.cb_ = timer ∧
    data.cleared_ = false

/-- The thread manager has the timeout of which it sends the message. -/
def Delivered (thread : TimerThread) : TimerEvent → Prop
  | .timeoutEvent timeout_id => timeout_id ∈ thread.timeouts_.map Prod.fst
  | _ => True

/-! ## What is meant -/

/-- The timer that a call with an id is meant for: one that was given the id. -/
def Given (thread : TimerThread) (timer id : Nat) : Prop := thread.returned[timer]? = some id

/-- `clearTimer` cancels only the timer for which its id stands: no timer but the one that was
given it is cancelled, and not through the id of another one. -/
def CancelsOwn (thread : TimerThread) : TimerEvent → Prop
  | .clearTimer id => ∀ timer, thread.Active timer →
      ¬(thread.step (.clearTimer id)).Active timer →
        thread.Given timer id ∧ ∀ other, thread.Given other id → other = timer
  | _ => True

/-- **Timer identity** for a run: `clearTimer` cancels only the timer that was given the id, and
calls no timer again that was given it. -/
def Identifies (events : List TimerEvent) : Prop :=
  Transition.Along step CancelsOwn {} events ∧
    ∀ past id future, events = past ++ TimerEvent.clearTimer id :: future →
      ∀ timer, (Transition.run step {} past).Given timer id →
        Transition.Along step (fun thread event => thread.called event ≠ some timer)
          (Transition.run step {} (past ++ [TimerEvent.clearTimer id])) future

/-- While slots are not used again: the id has 32 bits and was given to one timer only, and an
interval fires where no lower slot is free, so that it gets its own slot back. -/
def KeepsSlots (thread : TimerThread) : TimerEvent → Prop
  | .clearTimer id => id < 2 ^ 32 ∧ thread.returned.count id ≤ 1
  | .timeoutEvent timeout_id =>
      ∀ data, thread.timeout_data_.get timeout_id = some data → data.cleared_ = false →
        data.autoreset_ = true → ∀ lower, lower < timeout_id → thread.timeout_data_.get lower ≠ none
  | _ => True

/-! ## The effects of the calls -/

variable {thread : TimerThread}

/-- A new timer, or an interval put back, takes the first free slot. -/
theorem get_addTimeout (thread : TimerThread) (data : TimeoutData) :
    thread.timeout_data_.get (thread.addTimeout data).1 = none ∧
      (∀ index, index < (thread.addTimeout data).1 → thread.timeout_data_.get index ≠ none) ∧
      ∀ index, (thread.addTimeout data).2.timeout_data_.get index =
        if index = (thread.addTimeout data).1 then some data
        else thread.timeout_data_.get index :=
  IndexedPool.push_spec thread.timeout_data_ data

/-- Clearing marks what is in the slot, and nothing else. -/
theorem get_flagTimeoutCleared (thread : TimerThread) (id index : Nat) :
    (thread.flagTimeoutCleared id).2.timeout_data_.get index =
      if index = id then
        (thread.timeout_data_.get id).map fun data => { data with cleared_ := true }
      else thread.timeout_data_.get index := by
  unfold flagTimeoutCleared
  cases held : thread.timeout_data_.get id with
  | none =>
      by_cases same : index = id
      · rw [if_pos same, same, held]
        rfl
      · rw [if_neg same]
  | some data =>
      have inside := IndexedPool.lt_length_of_get held
      exact IndexedPool.get_set thread.timeout_data_ id index _ inside

theorem returned_flagTimeoutCleared (thread : TimerThread) (id : Nat) :
    (thread.flagTimeoutCleared id).2.returned = thread.returned ∧
      (thread.flagTimeoutCleared id).2.timeouts_ = thread.timeouts_ := by
  unfold flagTimeoutCleared
  split <;> exact ⟨rfl, rfl⟩

/-- The thread with a slot's data taken, for a timeout that has elapsed. -/
def taken (thread : TimerThread) (timeout_id : Nat) : TimerThread :=
  { thread with
    timeout_data_ := (thread.timeout_data_.take timeout_id).2
    timeouts_ := thread.timeouts_.eraseP fun timeout => timeout.1 = timeout_id }

/-- **What `TIMEOUT_EVENT` does**: nothing more for a timer that is cleared; otherwise it calls
the callback, and puts an interval back. -/
theorem timeoutEvent_cases (thread : TimerThread) (timeout_id : Nat) :
    (thread.timeoutEvent timeout_id = (none, thread.taken timeout_id) ∧
        ∀ data, thread.timeout_data_.get timeout_id = some data → data.cleared_ = true) ∨
      ∃ data, thread.timeout_data_.get timeout_id = some data ∧ data.cleared_ = false ∧
        (thread.timeoutEvent timeout_id).1 = some data.cb_ ∧
        ((data.autoreset_ = false ∧
            (thread.timeoutEvent timeout_id).2 = thread.taken timeout_id) ∨
          data.autoreset_ = true ∧ (thread.timeoutEvent timeout_id).2 =
            ((thread.taken timeout_id).addTimeout data).2) := by
  unfold timeoutEvent IndexedPool.take
  dsimp only
  cases held : thread.timeout_data_.get timeout_id with
  | none => exact .inl ⟨rfl, fun data found => absurd found.symm (Option.some_ne_none data)⟩
  | some data =>
      dsimp only
      by_cases cleared : data.cleared_ = true
      · rw [if_pos cleared]
        exact .inl ⟨rfl, fun other found => Option.some.inj found ▸ cleared⟩
      · rw [if_neg cleared]
        refine .inr ⟨data, rfl, eq_false_of_ne_true cleared, ?_⟩
        by_cases again : data.autoreset_ = true
        · rw [if_pos again]
          exact ⟨rfl, .inr ⟨again, rfl⟩⟩
        · rw [if_neg again]
          exact ⟨rfl, .inl ⟨eq_false_of_ne_true again, rfl⟩⟩

theorem get_taken (thread : TimerThread) (timeout_id index : Nat) :
    (thread.taken timeout_id).timeout_data_.get index =
      if index = timeout_id then none else thread.timeout_data_.get index :=
  IndexedPool.get_take thread.timeout_data_ timeout_id index

/-! ## Timers that are done with -/

/-- The timer exists, and if it is still in the pool, it is cleared. -/
def Done (thread : TimerThread) (timer : Nat) : Prop :=
  timer < thread.returned.length ∧
    ∀ index data, thread.timeout_data_.get index = some data → data.cb_ = timer →
      data.cleared_ = true

/-- **A timer that is done with is not called.** -/
theorem Done.not_called {timer : Nat} (done : thread.Done timer) (event : TimerEvent) :
    thread.called event ≠ some timer := by
  cases event with
  | timeoutEvent timeout_id =>
      change (thread.timeoutEvent timeout_id).1 ≠ some timer
      rcases thread.timeoutEvent_cases timeout_id with ⟨none, -⟩ | ⟨data, held, live, calls, -⟩
      · rw [none]
        exact Option.some_ne_none timer |>.symm
      · rw [calls]
        intro same
        have cleared := done.2 timeout_id data held (Option.some.inj same)
        rw [live] at cleared
        cases cleared
  | setTimeout delay => exact (Option.some_ne_none timer).symm
  | setInterval delay => exact (Option.some_ne_none timer).symm
  | clearTimer id => exact (Option.some_ne_none timer).symm

theorem Done.setTimer {timer : Nat} (done : thread.Done timer) (delay : Nat) (autoreset : Bool) :
    (thread.setTimer delay autoreset).2.Done timer := by
  obtain ⟨-, -, stored⟩ := thread.get_addTimeout ⟨thread.returned.length, delay, false, autoreset⟩
  have longer : timer < (thread.setTimer delay autoreset).2.returned.length := by
    have length : (thread.setTimer delay autoreset).2.returned.length =
        thread.returned.length + 1 := List.length_append
    rw [length]
    exact Nat.lt_succ_of_lt done.1
  refine ⟨longer, fun index data held same => ?_⟩
  · have found := (stored index).symm.trans held
    split at found
    · rw [← Option.some.inj found] at same
      exact absurd same (Nat.ne_of_gt done.1)
    · exact done.2 index data found same

theorem Done.taken {timer : Nat} (done : thread.Done timer) (timeout_id : Nat) :
    (thread.taken timeout_id).Done timer := by
  refine ⟨done.1, fun index data held same => ?_⟩
  rw [get_taken] at held
  split at held
  · cases held
  · exact done.2 index data held same

/-- **A timer that is done with stays so.** -/
theorem Done.step {timer : Nat} (done : thread.Done timer) (event : TimerEvent) :
    (thread.step event).Done timer := by
  cases event with
  | setTimeout delay => exact done.setTimer delay false
  | setInterval delay => exact done.setTimer delay true
  | clearTimer id =>
      refine ⟨?_, fun index data held same => ?_⟩
      · change timer < (thread.flagTimeoutCleared (id % 2 ^ 32)).2.returned.length
        rw [(thread.returned_flagTimeoutCleared _).1]
        exact done.1
      · have found := (thread.get_flagTimeoutCleared (id % 2 ^ 32) index).symm.trans held
        split at found
        · obtain ⟨before, -, rfl⟩ := Option.map_eq_some_iff.mp found
          rfl
        · exact done.2 index data found same
  | timeoutEvent timeout_id =>
      change (thread.timeoutEvent timeout_id).2.Done timer
      rcases thread.timeoutEvent_cases timeout_id with
        ⟨none, -⟩ | ⟨data, held, live, -, ⟨-, once⟩ | ⟨-, again⟩⟩
      · rw [none]
        exact done.taken timeout_id
      · rw [once]
        exact done.taken timeout_id
      · rw [again]
        have before := done.taken timeout_id
        obtain ⟨-, -, stored⟩ := (thread.taken timeout_id).get_addTimeout data
        refine ⟨before.1, fun index other found same => ?_⟩
        rw [stored] at found
        split at found
        · rw [← Option.some.inj found] at same ⊢
          exact done.2 timeout_id data held same
        · exact before.2 index other found same

theorem Done.never_called {timer : Nat} (done : thread.Done timer) (events : List TimerEvent) :
    Transition.Along TimerThread.step (fun thread event => thread.called event ≠ some timer) thread
      events := by
  induction events generalizing thread with
  | nil => trivial
  | cons event events ih => exact ⟨done.not_called event, ih (done.step event)⟩

/-! ## Messages find their timers -/

/-- The thread manager has one timeout for each slot in use. -/
structure Awaited (thread : TimerThread) : Prop where
  nodup : (thread.timeouts_.map Prod.fst).Nodup
  iff : ∀ index, index ∈ thread.timeouts_.map Prod.fst ↔ thread.timeout_data_.get index ≠ none

theorem Awaited.addTimeout (awaited : thread.Awaited) (data : TimeoutData) :
    (thread.addTimeout data).2.Awaited := by
  obtain ⟨free, -, stored⟩ := thread.get_addTimeout data
  have fresh : (thread.addTimeout data).1 ∉ thread.timeouts_.map Prod.fst := fun member =>
    (awaited.iff _).mp member free
  refine ⟨List.nodup_cons.mpr ⟨fresh, awaited.nodup⟩, fun index => ?_⟩
  have member : index ∈ (thread.addTimeout data).2.timeouts_.map Prod.fst ↔
      index = (thread.addTimeout data).1 ∨ index ∈ thread.timeouts_.map Prod.fst := List.mem_cons
  rw [stored, member]
  by_cases same : index = (thread.addTimeout data).1
  · rw [if_pos same]
    exact iff_of_true (.inl same) (Option.some_ne_none _)
  · rw [if_neg same, or_iff_right same]
    exact awaited.iff index

theorem map_fst_eraseP (timeouts : List (Nat × Nat)) (timeout_id : Nat) :
    (timeouts.eraseP fun timeout => timeout.1 = timeout_id).map Prod.fst =
      (timeouts.map Prod.fst).erase timeout_id := by
  induction timeouts with
  | nil => rfl
  | cons timeout timeouts ih =>
      by_cases same : timeout.1 = timeout_id
      · simp [same]
      · simp [same, ih]

theorem Awaited.taken (awaited : thread.Awaited) (timeout_id : Nat) :
    (thread.taken timeout_id).Awaited := by
  have ids := map_fst_eraseP thread.timeouts_ timeout_id
  refine ⟨?_, fun index => ?_⟩
  · exact ids ▸ awaited.nodup.erase timeout_id
  · rw [get_taken]
    change index ∈ (thread.timeouts_.eraseP fun timeout => timeout.1 = timeout_id).map Prod.fst ↔ _
    rw [ids, awaited.nodup.mem_erase_iff]
    by_cases same : index = timeout_id
    · rw [if_pos same]
      exact iff_of_false (fun both => both.1 same) (fun held => held rfl)
    · rw [if_neg same, and_iff_right same]
      exact awaited.iff index

theorem Awaited.step (awaited : thread.Awaited) (event : TimerEvent) :
    (thread.step event).Awaited := by
  cases event with
  | setTimeout delay =>
      have added := awaited.addTimeout ⟨thread.returned.length, delay, false, false⟩
      exact ⟨added.nodup, added.iff⟩
  | setInterval delay =>
      have added := awaited.addTimeout ⟨thread.returned.length, delay, false, true⟩
      exact ⟨added.nodup, added.iff⟩
  | clearTimer id =>
      have timeouts := (thread.returned_flagTimeoutCleared (id % 2 ^ 32)).2
      refine ⟨?_, fun index => ?_⟩
      · exact timeouts.symm ▸ awaited.nodup
      · change index ∈ (thread.flagTimeoutCleared (id % 2 ^ 32)).2.timeouts_.map Prod.fst ↔
          (thread.flagTimeoutCleared (id % 2 ^ 32)).2.timeout_data_.get index ≠ none
        rw [timeouts, get_flagTimeoutCleared, awaited.iff]
        by_cases same : index = id % 2 ^ 32
        · rw [if_pos same, same, Ne, Ne, Option.map_eq_none_iff]
        · rw [if_neg same]
  | timeoutEvent timeout_id =>
      change (thread.timeoutEvent timeout_id).2.Awaited
      have before := awaited.taken timeout_id
      rcases thread.timeoutEvent_cases timeout_id with
        ⟨none, -⟩ | ⟨data, -, -, -, ⟨-, once⟩ | ⟨-, again⟩⟩
      · rw [none]
        exact before
      · rw [once]
        exact before
      · rw [again]
        exact before.addTimeout data

/-- **Every message finds its timer's data**: the assertions of `TIMEOUT_EVENT` hold. -/
theorem get_ne_none_of_delivered (past : List TimerEvent) (timeout_id : Nat)
    (delivered : (Transition.run step {} past).Delivered (.timeoutEvent timeout_id)) :
    (Transition.run step {} past).timeout_data_.get timeout_id ≠ none := by
  have begins : Awaited {} := ⟨List.nodup_nil, fun index => iff_of_false List.not_mem_nil (· rfl)⟩
  have awaited := Transition.run_invariant_of_keeps Awaited
    (fun thread event awaited => Awaited.step awaited event) begins past
  exact (awaited.iff timeout_id).mp delivered

/-! ## Timers in their own slots -/

/-- Every timer in the pool is in the slot whose index was returned for it. -/
def Placed (thread : TimerThread) : Prop :=
  ∀ index data, thread.timeout_data_.get index = some data → thread.Given data.cb_ index

theorem Placed.setTimer (placed : thread.Placed) (delay : Nat) (autoreset : Bool) :
    (thread.setTimer delay autoreset).2.Placed := by
  obtain ⟨-, -, stored⟩ := thread.get_addTimeout ⟨thread.returned.length, delay, false, autoreset⟩
  intro index data held
  have found := (stored index).symm.trans held
  unfold Given
  change (thread.returned ++ [_])[data.cb_]? = some index
  split at found
  · next same =>
      rw [← Option.some.inj found, same]
      exact List.getElem?_concat_length
  · have before := placed index data found
    exact (List.getElem?_append_left (List.getElem?_eq_some_iff.mp before).1).trans before

theorem Placed.taken (placed : thread.Placed) (timeout_id : Nat) :
    (thread.taken timeout_id).Placed := by
  intro index data held
  rw [get_taken] at held
  split at held
  · cases held
  · exact placed index data held

/-- **An interval gets its own slot back** when no lower one is free. -/
theorem Placed.timeoutEvent (placed : thread.Placed) {timeout_id : Nat}
    (keeps : thread.KeepsSlots (.timeoutEvent timeout_id)) :
    (thread.timeoutEvent timeout_id).2.Placed := by
  have before := placed.taken timeout_id
  rcases thread.timeoutEvent_cases timeout_id with
    ⟨none, -⟩ | ⟨data, held, live, -, ⟨-, once⟩ | ⟨interval, again⟩⟩
  · rw [none]
    exact before
  · rw [once]
    exact before
  · obtain ⟨free, first, stored⟩ := (thread.taken timeout_id).get_addTimeout data
    rw [again]
    have own : ((thread.taken timeout_id).addTimeout data).1 = timeout_id := by
      rcases Nat.lt_trichotomy ((thread.taken timeout_id).addTimeout data).1 timeout_id with
        lower | same | higher
      · rw [get_taken, if_neg (Nat.ne_of_lt lower)] at free
        exact absurd free (keeps data held live interval _ lower)
      · exact same
      · have used := first timeout_id higher
        rw [get_taken, if_pos rfl] at used
        exact absurd rfl used
    intro index other found
    rw [stored] at found
    split at found
    · next same =>
        rw [← Option.some.inj found, same, own]
        exact placed timeout_id data held
    · exact before index other found

theorem Placed.step (placed : thread.Placed) {event : TimerEvent}
    (keeps : thread.KeepsSlots event) : (thread.step event).Placed := by
  cases event with
  | setTimeout delay => exact placed.setTimer delay false
  | setInterval delay => exact placed.setTimer delay true
  | clearTimer id =>
      intro index data held
      have found := (thread.get_flagTimeoutCleared (id % 2 ^ 32) index).symm.trans held
      unfold Given
      change (thread.flagTimeoutCleared (id % 2 ^ 32)).2.returned[data.cb_]? = some index
      rw [(thread.returned_flagTimeoutCleared _).1]
      split at found
      · next same =>
          obtain ⟨before, was, rfl⟩ := Option.map_eq_some_iff.mp found
          rw [same]
          exact placed _ before was
      · exact placed index data found
  | timeoutEvent timeout_id => exact placed.timeoutEvent keeps

theorem two_le_count {id first second : Nat} (before : first < second)
    (one : thread.Given first id) (two : thread.Given second id) :
    2 ≤ thread.returned.count id := by
  obtain ⟨insideFirst, valueFirst⟩ := List.getElem?_eq_some_iff.mp one
  obtain ⟨insideSecond, valueSecond⟩ := List.getElem?_eq_some_iff.mp two
  apply List.duplicate_iff_two_le_count.mp
  exact List.duplicate_iff_exists_distinct_get.mpr
    ⟨⟨first, insideFirst⟩, ⟨second, insideSecond⟩, before, valueFirst.symm, valueSecond.symm⟩

/-- An id that was returned once was given to one timer. -/
theorem given_unique {id : Nat} (once : thread.returned.count id ≤ 1) {first second : Nat}
    (one : thread.Given first id) (two : thread.Given second id) : first = second := by
  by_contra different
  rcases Nat.lt_or_gt_of_ne different with before | after
  · exact absurd (two_le_count before one two) (Nat.not_le.mpr (Nat.lt_succ_of_le once))
  · exact absurd (two_le_count after two one) (Nat.not_le.mpr (Nat.lt_succ_of_le once))

/-! ## Timer identity -/

/-- A timer in its slot is cancelled through its own id, and through no other one. -/
theorem Placed.cancelsOwn (placed : thread.Placed) {event : TimerEvent}
    (keeps : thread.KeepsSlots event) : thread.CancelsOwn event := by
  cases event with
  | clearTimer id =>
      intro timer active cancelled
      obtain ⟨index, data, held, same, live⟩ := active
      have here : index = id := by
        by_contra elsewhere
        rw [← Nat.mod_eq_of_lt keeps.1] at elsewhere
        refine cancelled ⟨index, data, ?_, same, live⟩
        exact (thread.get_flagTimeoutCleared _ index).trans ((if_neg elsewhere).trans held)
      have given : thread.Given timer id := same ▸ here ▸ placed index data held
      exact ⟨given, fun other also => given_unique keeps.2 also given⟩
  | setTimeout delay => trivial
  | setInterval delay => trivial
  | timeoutEvent timeout_id => trivial

/-- After `clearTimer` the timer that has the id is done with. -/
theorem Placed.done_of_clear (placed : thread.Placed) {timer id : Nat} (small : id < 2 ^ 32)
    (given : thread.Given timer id) : (thread.step (.clearTimer id)).Done timer := by
  have whole : id % 2 ^ 32 = id := Nat.mod_eq_of_lt small
  change (thread.flagTimeoutCleared (id % 2 ^ 32)).2.Done timer
  rw [whole]
  refine ⟨?_, fun index data held same => ?_⟩
  · rw [(thread.returned_flagTimeoutCleared id).1]
    exact (List.getElem?_eq_some_iff.mp given).1
  · have found := (thread.get_flagTimeoutCleared id index).symm.trans held
    split at found
    · obtain ⟨before, -, rfl⟩ := Option.map_eq_some_iff.mp found
      rfl
    · next elsewhere =>
        have also := placed index data found
        rw [same] at also
        exact absurd (Option.some.inj (also.symm.trans given)) elsewhere

/-- **Timer identity, while slots are not used again.** In every run in which `clearTimer` is
called with ids that one timer was given only, and in which intervals fire where no lower slot
is free, `clearTimer` cancels just the timer that has the id, and that timer is never called
again. -/
theorem timer_identity (events : List TimerEvent)
    (keeps : Transition.Along step KeepsSlots {} events) : Identifies events := by
  have begins : Placed {} := fun index data held => absurd held.symm (Option.some_ne_none data)
  have step_placed (thread : TimerThread) (event : TimerEvent) (placed : thread.Placed)
      (kept : thread.KeepsSlots event) : (thread.step event).Placed := placed.step kept
  refine ⟨Transition.Along.of_invariant Placed step_placed
    (fun thread event placed kept => placed.cancelsOwn kept) begins keeps, ?_⟩
  intro past id future split timer given
  rw [split, Transition.along_append] at keeps
  have placed := Transition.run_invariant Placed step_placed begins keeps.1
  rw [Transition.run_append]
  exact (placed.done_of_clear keeps.2.1.1 given).never_called future

/-- An interval that keeps its slot, next to a timer that has fired, and is cleared. -/
def keptInterval : List TimerEvent :=
  [.setInterval 10, .setTimeout 1, .timeoutEvent 1, .timeoutEvent 0, .clearTimer 0, .timeoutEvent 0]

instance (thread : TimerThread) (event : TimerEvent) : Decidable (thread.KeepsSlots event) :=
  match event with
  | .clearTimer id => inferInstanceAs (Decidable (id < 2 ^ 32 ∧ thread.returned.count id ≤ 1))
  | .timeoutEvent timeout_id =>
      match held : thread.timeout_data_.get timeout_id with
      | none => .isTrue fun data found => absurd (held.symm.trans found).symm (Option.some_ne_none data)
      | some data =>
          decidable_of_iff (data.cleared_ = false → data.autoreset_ = true →
              ∀ lower, lower < timeout_id → thread.timeout_data_.get lower ≠ none)
            ⟨fun all _ found => Option.some.inj (held.symm.trans found) ▸ all,
              fun all => all data held⟩
  | .setTimeout _ => .isTrue trivial
  | .setInterval _ => .isTrue trivial

theorem timer_identity_keptInterval : Identifies keptInterval :=
  timer_identity keptInterval (by decide)

/-- An interval behind a timer that fires first: it moves to the first slot. -/
def movedInterval : List TimerEvent :=
  [.setTimeout 1, .setInterval 10, .timeoutEvent 0, .timeoutEvent 1, .clearTimer 1, .timeoutEvent 0]

/-- Clearing it has no effect, and it is called again. -/
theorem movedInterval_called_again :
    (Transition.run step {} (movedInterval.take 4)).Given 1 1 ∧
      (Transition.run step {} (movedInterval.take 5)).called (.timeoutEvent 0) = some 1 ∧
      ¬Identifies movedInterval := by
  refine ⟨rfl, rfl, fun identifies => ?_⟩
  have again := identifies.2 (movedInterval.take 4) 1 [.timeoutEvent 0] rfl 1 rfl
  exact again.1 rfl

end TimerThread

end JsOS.Kernel
