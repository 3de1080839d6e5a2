import JsOS.Library.BinaryHeap
import JsOS.Library.Run
import Mathlib.Data.BitVec
import Mathlib.Data.Nat.Basic

/-! # The dispatch of timeouts

The thread manager keeps the timeouts that are set in a priority queue, by deadline; when it
gets to run it takes those whose deadline has passed and sends a message for each. What is
meant is an agenda (`Agenda`): a list of timeouts, of which a call takes those that are due.
The queue is a heap, and keeps no order among timeouts with one deadline.
-/

namespace JsOS.Kernel

/-! ## The clock -/

/-- The counter's ticks for a microsecond: `us_div_` of the HPET. -/
def us_div_ (counterPeriod : Nat) : Nat := 10 ^ 15 / counterPeriod / 1000000

/-- `ReadMicroseconds`. -/
def readMicroseconds (counterPeriod counter : Nat) : Nat := counter / us_div_ counterPeriod

/-- A time that `BootTimeMicroseconds` can give: the constructor asserts that the period is not 0
and not more than `0x05F5E100` femtoseconds. -/
def ClockTime (time : Nat) : Prop :=
  ∃ counterPeriod counter, 0 < counterPeriod ∧ counterPeriod ≤ 0x05F5E100 ∧ counter < 2 ^ 64 ∧
    time = readMicroseconds counterPeriod counter

/-- **The clock stays far below 64 bits.** -/
theorem ClockTime.le {time : Nat} (clock : ClockTime time) : time ≤ (2 ^ 64 - 1) / 10 := by
  obtain ⟨counterPeriod, counter, positive, asserted, word, rfl⟩ := clock
  have divides : 10 ≤ us_div_ counterPeriod := by
    unfold us_div_
    rw [Nat.div_div_eq_div_mul, Nat.le_div_iff_mul_le (Nat.mul_pos positive (by decide))]
    omega
  exact Nat.div_le_div (Nat.le_sub_one_of_lt word) divides (by decide)

/-! ## Timeouts -/

/-- A `TimeoutItem`. -/
structure TimeoutItem (Item : Type*) where
  item_ : Item
  time_ : Nat
  deriving DecidableEq, Repr

/-- The queue of a `Timeouts`, ordered by the deadline as `TimeoutItemComparer` does. -/
abbrev Timeouts (Item : Type*) := List (TimeoutItem Item)

namespace Timeouts

variable {Item : Type*}

/-- `Set`. -/
def set (queue : Timeouts Item) (item : Item) (when_ticks : Nat) : Timeouts Item :=
  BinaryHeap.push TimeoutItem.time_ queue ⟨item, when_ticks⟩

/-- `Elapsed`. -/
def elapsed (queue : Timeouts Item) (ticks_now : Nat) : Bool :=
  queue.head?.any fun top => top.time_ ≤ ticks_now

/-- The loop of `ProcessTimeouts`: take while the first timeout has elapsed. The result is
what was taken, in order, and the queue that is left. -/
def takeElapsed (ticks_now : Nat) : (rounds : Nat) → Timeouts Item →
    Timeouts Item × Timeouts Item
  | 0, queue => ([], queue)
  | rounds + 1, queue =>
      match queue with
      | [] => ([], [])
      | top :: rest =>
          if elapsed (top :: rest) ticks_now then
            let (taken, left) :=
              takeElapsed ticks_now rounds (BinaryHeap.pop TimeoutItem.time_ (top :: rest))
            (top :: taken, left)
          else ([], top :: rest)

end Timeouts

/-- A `ThreadTimeout`, numbered in the order in which they are set. -/
structure ThreadTimeout (Thread : Type*) where
  thread_ : Thread
  index_ : Nat
  number : Nat
  deriving DecidableEq, Repr

/-- The part of the `ThreadManager` that has to do with timeouts, with the number of timeouts
set so far. -/
structure ThreadManager (Thread : Type*) where
  timeouts_ : Timeouts (ThreadTimeout Thread) := []
  numbered : Nat := 0

/-- The calls, with the clock's time. -/
inductive TimeoutCall (Thread : Type*) where
  | setTimeout (thread : Thread) (timeout_id timeout_ms time_now : Nat)
  | processTimeouts (ticks_now : Nat)

namespace ThreadManager

variable {Thread : Type*}

/-- `SetTimeout`. -/
def setTimeout (manager : ThreadManager Thread) (thread : Thread)
    (timeout_id timeout_ms time_now : Nat) : ThreadManager Thread where
  timeouts_ := manager.timeouts_.set ⟨thread, timeout_id, manager.numbered⟩
    ((time_now + timeout_ms * 1000) % 2 ^ 64)
  numbered := manager.numbered + 1

/-- `ProcessTimeouts`, with the timeouts for which a message is pushed, in order. -/
def processTimeouts (manager : ThreadManager Thread) (ticks_now : Nat) :
    List (ThreadTimeout Thread) × ThreadManager Thread :=
  let (taken, timeouts_) := manager.timeouts_.takeElapsed ticks_now manager.timeouts_.length
  (taken.map TimeoutItem.item_, { manager with timeouts_ })

/-- One call. -/
def step (manager : ThreadManager Thread) : TimeoutCall Thread → ThreadManager Thread
  | .setTimeout thread timeout_id timeout_ms time_now =>
      manager.setTimeout thread timeout_id timeout_ms time_now
  | .processTimeouts ticks_now => (manager.processTimeouts ticks_now).2

end ThreadManager

/-! ## The agenda -/

/-- The timeouts that are to come, in the order in which they were set. -/
structure Agenda (Thread : Type*) where
  pending : List (TimeoutItem (ThreadTimeout Thread)) := []
  numbered : Nat := 0

namespace Agenda

variable {Thread : Type*}

/-- One call: a timeout is added, or those that are due go. -/
def step (agenda : Agenda Thread) : TimeoutCall Thread → Agenda Thread
  | .setTimeout thread timeout_id timeout_ms time_now =>
      { pending := agenda.pending ++
          [⟨⟨thread, timeout_id, agenda.numbered⟩, time_now + timeout_ms * 1000⟩]
        numbered := agenda.numbered + 1 }
  | .processTimeouts ticks_now =>
      { agenda with pending := agenda.pending.filter fun item => ticks_now < item.time_ }

/-- The timeouts that are due. -/
def due (agenda : Agenda Thread) (ticks_now : Nat) : List (TimeoutItem (ThreadTimeout Thread)) :=
  agenda.pending.filter fun item => item.time_ ≤ ticks_now

end Agenda

/-! ## The queue -/

namespace Timeouts

variable {Item : Type*} {queue : Timeouts Item}

/-- The queue is a heap. -/
abbrev Ordered (queue : Timeouts Item) : Prop := BinaryHeap.Ordered TimeoutItem.time_ queue

/-- **The loop takes what has elapsed**, in the order of the deadlines, and leaves a heap. -/
theorem Ordered.takeElapsed (ordered : queue.Ordered) (ticks_now : Nat) {rounds : Nat}
    (enough : queue.length ≤ rounds) :
    ((queue.takeElapsed ticks_now rounds).1 ++ (queue.takeElapsed ticks_now rounds).2).Perm queue ∧
      (∀ item ∈ (queue.takeElapsed ticks_now rounds).1, item.time_ ≤ ticks_now) ∧
      (∀ item ∈ (queue.takeElapsed ticks_now rounds).2, ticks_now < item.time_) ∧
      (queue.takeElapsed ticks_now rounds).1.Pairwise (fun first second =>
        first.time_ ≤ second.time_) ∧
      Ordered (queue.takeElapsed ticks_now rounds).2 := by
  induction rounds generalizing queue with
  | zero =>
      have empty : queue = [] := List.eq_nil_of_length_eq_zero (Nat.le_zero.mp enough)
      subst empty
      exact ⟨List.Perm.refl _, fun _ member => absurd member List.not_mem_nil,
        fun _ member => absurd member List.not_mem_nil, List.Pairwise.nil, ordered⟩
  | succ rounds ih =>
      cases queue with
      | nil =>
          exact ⟨List.Perm.refl _, fun _ member => absurd member List.not_mem_nil,
            fun _ member => absurd member List.not_mem_nil, List.Pairwise.nil, ordered⟩
      | cons top rest =>
          rw [Timeouts.takeElapsed]
          by_cases passed : top.time_ ≤ ticks_now
          · have yes : elapsed (top :: rest) ticks_now = true := decide_eq_true passed
            rw [if_pos yes]
            obtain ⟨orderedRest, permRest⟩ := ordered.pop
            have shorter : (BinaryHeap.pop TimeoutItem.time_ (top :: rest)).length ≤ rounds := by
              rw [permRest.length_eq]
              exact Nat.le_of_succ_le_succ enough
            obtain ⟨perm, elapsed, waiting, sorted, left⟩ := ih orderedRest shorter
            refine ⟨(perm.trans permRest).cons top, List.forall_mem_cons.mpr ⟨passed, elapsed⟩,
              waiting, List.pairwise_cons.mpr ⟨fun item member => ?_, sorted⟩, left⟩
            have inside := (perm.trans permRest).subset (List.mem_append_left _ member)
            exact ordered.top_le_of_mem (List.mem_cons_of_mem _ inside)
          · have no : ¬elapsed (top :: rest) ticks_now = true :=
              ne_true_of_eq_false (decide_eq_false passed)
            rw [if_neg no]
            refine ⟨List.Perm.refl _, fun _ member => absurd member List.not_mem_nil,
              fun item member => ?_, List.Pairwise.nil, ordered⟩
            exact (Nat.lt_of_not_le passed).trans_le (ordered.top_le_of_mem member)

end Timeouts

/-! ## The agenda behind the queue -/

namespace ThreadManager

variable {Thread : Type*} {manager : ThreadManager Thread} {agenda : Agenda Thread}

/-- The delay has 32 bits, and the time is the clock's. -/
def InRange : TimeoutCall Thread → Prop
  | .setTimeout _ _ timeout_ms time_now => timeout_ms < 2 ^ 32 ∧ ClockTime time_now
  | .processTimeouts _ => True

/-- The queue is a heap of what is pending. -/
structure Queues (manager : ThreadManager Thread) (agenda : Agenda Thread) : Prop where
  ordered : manager.timeouts_.Ordered
  perm : manager.timeouts_.Perm agenda.pending
  numbered : manager.numbered = agenda.numbered

/-- **`ProcessTimeouts` takes what is due**, in the order of the deadlines. -/
theorem Queues.processTimeouts (queues : manager.Queues agenda) (ticks_now : Nat) :
    ∃ taken : List (TimeoutItem (ThreadTimeout Thread)),
      (manager.processTimeouts ticks_now).1 = taken.map TimeoutItem.item_ ∧
        taken.Perm (agenda.due ticks_now) ∧
        taken.Pairwise (fun first second => first.time_ ≤ second.time_) ∧
        (manager.processTimeouts ticks_now).2.Queues (agenda.step (.processTimeouts ticks_now)) := by
  obtain ⟨perm, elapsed, waiting, sorted, left⟩ :=
    queues.ordered.takeElapsed ticks_now (Nat.le_refl _)
  have all := perm.trans queues.perm
  refine ⟨_, rfl, ?_, sorted, left, ?_, queues.numbered⟩
  · have part := all.filter fun item => item.time_ ≤ ticks_now
    rw [List.filter_append, List.filter_eq_self.mpr fun item member =>
      decide_eq_true (elapsed item member), List.filter_eq_nil_iff.mpr fun item member =>
      ne_true_of_eq_false (decide_eq_false (Nat.not_le.mpr (waiting item member))),
      List.append_nil] at part
    exact part
  · have part := all.filter fun item => ticks_now < item.time_
    rw [List.filter_append, List.filter_eq_nil_iff.mpr fun item member =>
      ne_true_of_eq_false (decide_eq_false (Nat.not_lt.mpr (elapsed item member))),
      List.filter_eq_self.mpr fun item member => decide_eq_true (waiting item member),
      List.nil_append] at part
    exact part

/-- **The queue simulates the agenda.** -/
theorem Queues.step (queues : manager.Queues agenda) {call : TimeoutCall Thread}
    (inRange : InRange call) : (manager.step call).Queues (agenda.step call) := by
  cases call with
  | setTimeout thread timeout_id timeout_ms time_now =>
      have small : time_now + timeout_ms * 1000 < 2 ^ 64 := by
        have delay := inRange.1
        have time := inRange.2.le
        omega
      obtain ⟨ordered, perm⟩ := queues.ordered.push
        ⟨⟨thread, timeout_id, manager.numbered⟩, (time_now + timeout_ms * 1000) % 2 ^ 64⟩
      refine ⟨ordered, perm.trans ?_, congrArg Nat.succ queues.numbered⟩
      rw [Nat.mod_eq_of_lt small, queues.numbered]
      exact (queues.perm.cons _).trans (List.perm_append_singleton _ _).symm
  | processTimeouts ticks_now =>
      obtain ⟨-, -, -, -, kept⟩ := queues.processTimeouts ticks_now
      exact kept

theorem queues_run {calls : List (TimeoutCall Thread)} (inRange : ∀ call ∈ calls, InRange call)
    (queues : manager.Queues agenda) :
    (Transition.run step manager calls).Queues (Transition.run Agenda.step agenda calls) := by
  induction calls generalizing manager agenda with
  | nil => exact queues
  | cons call calls ih =>
      obtain ⟨here, later⟩ := List.forall_mem_cons.mp inRange
      exact ih later (queues.step here)

end ThreadManager

/-! ## What is on the agenda -/

namespace Agenda

variable {Thread : Type*}

/-- How many timeouts have been set. -/
def sets (calls : List (TimeoutCall Thread)) : Nat :=
  calls.countP fun call => match call with
    | .setTimeout .. => true
    | .processTimeouts _ => false

/-- A timeout was set with a deadline, and the calls after that. -/
def SetSince (calls : List (TimeoutCall Thread)) (timeout : ThreadTimeout Thread) (deadline : Nat)
    (later : List (TimeoutCall Thread)) : Prop :=
  ∃ before thread timeout_id timeout_ms time_now,
    calls = before ++ TimeoutCall.setTimeout thread timeout_id timeout_ms time_now :: later ∧
      timeout = ⟨thread, timeout_id, sets before⟩ ∧ deadline = time_now + timeout_ms * 1000

/-- No call of `ProcessTimeouts` was at or after the deadline. -/
def Waited (calls : List (TimeoutCall Thread)) (deadline : Nat) : Prop :=
  ∀ earlier, TimeoutCall.processTimeouts earlier ∈ calls → earlier < deadline

variable {calls : List (TimeoutCall Thread)} {call : TimeoutCall Thread}
  {timeout : ThreadTimeout Thread} {deadline : Nat} {later : List (TimeoutCall Thread)}

theorem sets_concat (calls : List (TimeoutCall Thread)) (call : TimeoutCall Thread) :
    sets (calls ++ [call]) = sets calls + sets [call] := List.countP_append

theorem setSince_nil : ¬SetSince ([] : List (TimeoutCall Thread)) timeout deadline later := by
  intro since
  obtain ⟨before, thread, timeout_id, timeout_ms, time_now, split, -⟩ := since
  exact absurd split.symm (List.append_ne_nil_of_right_ne_nil _ (List.cons_ne_nil _ _))

/-- A timeout was set by the last call, or before it. -/
theorem setSince_concat : SetSince (calls ++ [call]) timeout deadline later ↔
    (∃ thread timeout_id timeout_ms time_now,
      call = TimeoutCall.setTimeout thread timeout_id timeout_ms time_now ∧ later = [] ∧
        timeout = ⟨thread, timeout_id, sets calls⟩ ∧ deadline = time_now + timeout_ms * 1000) ∨
    ∃ between, later = between ++ [call] ∧ SetSince calls timeout deadline between := by
  constructor
  · intro since
    obtain ⟨before, thread, timeout_id, timeout_ms, time_now, split, same, sum⟩ := since
    rcases List.eq_nil_or_concat' later with rfl | ⟨between, last, rfl⟩
    · obtain ⟨rfl, one⟩ := List.append_inj' split rfl
      exact .inl ⟨thread, timeout_id, timeout_ms, time_now, List.head_eq_of_cons_eq one, rfl, same,
        sum⟩
    · rw [← List.cons_append, ← List.append_assoc] at split
      obtain ⟨rfl, one⟩ := List.append_inj' split rfl
      cases List.head_eq_of_cons_eq one
      exact .inr ⟨between, rfl, before, thread, timeout_id, timeout_ms, time_now, rfl, same, sum⟩
  · intro either
    rcases either with ⟨thread, timeout_id, timeout_ms, time_now, rfl, rfl, same, sum⟩ |
      ⟨between, rfl, before, thread, timeout_id, timeout_ms, time_now, rfl, same, sum⟩
    · exact ⟨calls, thread, timeout_id, timeout_ms, time_now, rfl, same, sum⟩
    · refine ⟨before, thread, timeout_id, timeout_ms, time_now, ?_, same, sum⟩
      rw [List.append_assoc, List.cons_append]

theorem waited_concat : Waited (later ++ [call]) deadline ↔
    Waited later deadline ∧ Waited [call] deadline := by
  constructor
  · intro waited
    exact ⟨fun earlier member => waited earlier (List.mem_append_left _ member),
      fun earlier member => waited earlier (List.mem_append_right _ member)⟩
  · intro both earlier member
    rcases List.mem_append.mp member with before | last
    · exact both.1 earlier before
    · exact both.2 earlier last

theorem SetSince.number_lt (since : SetSince calls timeout deadline later) :
    timeout.number < sets calls := by
  obtain ⟨before, thread, timeout_id, timeout_ms, time_now, rfl, rfl, -⟩ := since
  have count : sets (before ++ TimeoutCall.setTimeout thread timeout_id timeout_ms time_now :: later) =
      sets before + sets (TimeoutCall.setTimeout thread timeout_id timeout_ms time_now :: later) :=
    List.countP_append
  rw [count]
  have one : 0 < sets (TimeoutCall.setTimeout thread timeout_id timeout_ms time_now :: later) :=
    List.countP_pos_iff.mpr ⟨_, List.mem_cons_self, rfl⟩
  exact Nat.lt_add_of_pos_right one

/-- **A timeout was set once**, with one deadline. -/
theorem SetSince.unique {other : Nat} {since : List (TimeoutCall Thread)}
    (first : SetSince calls timeout deadline later) (second : SetSince calls timeout other since) :
    deadline = other := by
  induction calls using List.reverseRecOn generalizing later since with
  | nil => exact absurd first setSince_nil
  | append_singleton calls call ih =>
      rcases setSince_concat.mp first with ⟨_, _, _, _, called, -, same, sum⟩ | ⟨_, -, before⟩
      · rcases setSince_concat.mp second with ⟨_, _, _, _, also, -, -, sumOther⟩ | ⟨_, -, before⟩
        · cases called.symm.trans also
          exact sum.trans sumOther.symm
        · have lower := before.number_lt
          rw [same] at lower
          exact absurd lower (Nat.lt_irrefl _)
      · rcases setSince_concat.mp second with ⟨_, _, _, _, -, -, same, -⟩ | ⟨_, -, also⟩
        · have lower := before.number_lt
          rw [same] at lower
          exact absurd lower (Nat.lt_irrefl _)
        · exact ih before also

/-- **The agenda after any calls**: it has numbered the timeouts, and has those that no call of
`ProcessTimeouts` at or after their deadline has followed. -/
theorem run_spec (calls : List (TimeoutCall Thread)) :
    (Transition.run step {} calls).numbered = sets calls ∧
      (∀ item, item ∈ (Transition.run step {} calls).pending ↔
        ∃ later, SetSince calls item.item_ item.time_ later ∧ Waited later item.time_) ∧
      ((Transition.run step {} calls).pending.map TimeoutItem.item_).Nodup := by
  induction calls using List.reverseRecOn with
  | nil =>
      refine ⟨rfl, fun item => ⟨fun member => absurd member List.not_mem_nil, fun since => ?_⟩,
        List.nodup_nil⟩
      obtain ⟨later, since, -⟩ := since
      exact absurd since setSince_nil
  | append_singleton calls call ih =>
      obtain ⟨numbered, members, nodup⟩ := ih
      rw [Transition.run_append]
      generalize Transition.run step {} calls = agenda at numbered members nodup
      cases call with
      | setTimeout thread timeout_id timeout_ms time_now =>
          have next : Transition.run step agenda
              [.setTimeout thread timeout_id timeout_ms time_now] =
              { pending := agenda.pending ++
                  [⟨⟨thread, timeout_id, agenda.numbered⟩, time_now + timeout_ms * 1000⟩]
                numbered := agenda.numbered + 1 } := rfl
          rw [next, sets_concat, numbered]
          refine ⟨rfl, fun item => ?_, ?_⟩
          · have silent (deadline : Nat) :
                Waited [TimeoutCall.setTimeout thread timeout_id timeout_ms time_now] deadline := by
              intro earlier member
              cases List.mem_singleton.mp member
            rw [List.mem_append, List.mem_singleton, members]
            constructor
            · intro either
              rcases either with ⟨later, since, waited⟩ | rfl
              · exact ⟨_, setSince_concat.mpr (.inr ⟨later, rfl, since⟩),
                  waited_concat.mpr ⟨waited, silent _⟩⟩
              · refine ⟨[], setSince_concat.mpr (.inl ⟨_, _, _, _, rfl, rfl, rfl, rfl⟩), ?_⟩
                exact fun earlier member => absurd member List.not_mem_nil
            · intro some
              obtain ⟨later, since, waited⟩ := some
              rcases setSince_concat.mp since with ⟨_, _, _, _, same, -, timeout, deadline⟩ |
                ⟨between, rfl, before⟩
              · cases same
                right
                cases item
                rw [TimeoutItem.mk.injEq]
                exact ⟨timeout, deadline⟩
              · exact .inl ⟨between, before, (waited_concat.mp waited).1⟩
          · rw [List.map_append, List.map_singleton]
            refine (List.perm_append_singleton _ _).nodup_iff.mpr (List.nodup_cons.mpr ⟨?_, nodup⟩)
            intro old
            obtain ⟨item, member, same⟩ := List.mem_map.mp old
            obtain ⟨later, since, -⟩ := (members item).mp member
            have lower := since.number_lt
            rw [same] at lower
            exact Nat.lt_irrefl _ lower
      | processTimeouts ticks_now =>
          have next : Transition.run step agenda [.processTimeouts ticks_now] =
              { agenda with
                pending := agenda.pending.filter fun item => ticks_now < item.time_ } := rfl
          rw [next, sets_concat]
          refine ⟨numbered, fun item => ?_, nodup.sublist (List.filter_sublist.map _)⟩
          rw [List.mem_filter, members, decide_eq_true_iff]
          constructor
          · intro both
            obtain ⟨⟨later, since, waited⟩, above⟩ := both
            refine ⟨_, setSince_concat.mpr (.inr ⟨later, rfl, since⟩),
              waited_concat.mpr ⟨waited, fun earlier member => ?_⟩⟩
            cases List.mem_singleton.mp member
            exact above
          · intro some
            obtain ⟨later, since, waited⟩ := some
            rcases setSince_concat.mp since with ⟨_, _, _, _, same, -⟩ | ⟨between, rfl, before⟩
            · cases same
            · obtain ⟨waitedBefore, last⟩ := waited_concat.mp waited
              exact ⟨⟨between, before, waitedBefore⟩, last ticks_now List.mem_cons_self⟩

end Agenda

/-! ## The dispatch -/

namespace ThreadManager

open Agenda

variable {Thread : Type*}

/-- The messages that a call of `ProcessTimeouts` pushes after other calls: one for each timeout
for which it is the first call at or after the deadline, in the order of the deadlines. -/
structure Dispatches (past : List (TimeoutCall Thread)) (ticks_now : Nat)
    (messages : List (ThreadTimeout Thread)) : Prop where
  once : messages.Nodup
  due : ∀ timeout, timeout ∈ messages ↔ ∃ deadline later,
    SetSince past timeout deadline later ∧ Waited later deadline ∧ deadline ≤ ticks_now
  sorted : messages.Pairwise fun first second => ∀ deadline other later since,
    SetSince past first deadline later → SetSince past second other since → deadline ≤ other

/-- **Timeouts are dispatched once, in time, and in the order of their deadlines**, after any
calls. -/
theorem processTimeouts_dispatches (past : List (TimeoutCall Thread))
    (inRange : ∀ call ∈ past, InRange call) (ticks_now : Nat) :
    Dispatches past ticks_now ((Transition.run step {} past).processTimeouts ticks_now).1 := by
  have begins : Queues ({} : ThreadManager Thread) {} :=
    ⟨BinaryHeap.ordered_nil, List.Perm.refl _, rfl⟩
  obtain ⟨taken, messages, perm, sorted, -⟩ := (queues_run inRange begins).processTimeouts ticks_now
  obtain ⟨-, members, nodup⟩ := run_spec past
  have pending (item : TimeoutItem (ThreadTimeout Thread)) : item ∈ taken ↔
      (∃ later, SetSince past item.item_ item.time_ later ∧ Waited later item.time_) ∧
        item.time_ ≤ ticks_now := by
    rw [perm.mem_iff, Agenda.due, List.mem_filter, members, decide_eq_true_iff]
  rw [messages]
  refine ⟨?_, fun timeout => ?_, ?_⟩
  · exact ((perm.map _).nodup_iff).mpr (nodup.sublist (List.filter_sublist.map _))
  · rw [List.mem_map]
    constructor
    · intro some
      obtain ⟨item, member, rfl⟩ := some
      obtain ⟨⟨later, since, waited⟩, passed⟩ := (pending item).mp member
      exact ⟨item.time_, later, since, waited, passed⟩
    · intro some
      obtain ⟨deadline, later, since, waited, passed⟩ := some
      exact ⟨⟨timeout, deadline⟩, (pending _).mpr ⟨⟨later, since, waited⟩, passed⟩, rfl⟩
  · rw [List.pairwise_map]
    refine sorted.imp_of_mem fun firstMember secondMember before => ?_
    intro deadline other later since first second
    obtain ⟨⟨_, firstSet, -⟩, -⟩ := (pending _).mp firstMember
    obtain ⟨⟨_, secondSet, -⟩, -⟩ := (pending _).mp secondMember
    rw [first.unique firstSet, second.unique secondSet]
    exact before

/-- Four timeouts with one deadline, of one thread. -/
def oneDeadline : List (TimeoutCall Nat) :=
  [.setTimeout 0 0 5 0, .setTimeout 0 1 5 0, .setTimeout 0 2 5 0, .setTimeout 0 3 5 0]

theorem processTimeouts_dispatches_oneDeadline : Dispatches oneDeadline 5000
    ((Transition.run step {} oneDeadline).processTimeouts 5000).1 := by
  have boot : ClockTime 0 := ⟨0x05F5E100, 0, by decide, by decide, by decide, rfl⟩
  have inRange : ∀ call ∈ oneDeadline, InRange call := by
    unfold oneDeadline InRange
    simp [boot]
  exact processTimeouts_dispatches oneDeadline inRange 5000

/-- The fourth is dispatched before the third. -/
theorem oneDeadline_out_of_order :
    (∃ since, SetSince oneDeadline ⟨0, 2, 2⟩ 5000 since) ∧
      (∃ since, SetSince oneDeadline ⟨0, 3, 3⟩ 5000 since) ∧
      ((Transition.run step {} oneDeadline).processTimeouts 5000).1 =
        [⟨0, 0, 0⟩, ⟨0, 1, 1⟩, ⟨0, 3, 3⟩, ⟨0, 2, 2⟩] := by
  refine ⟨⟨[.setTimeout 0 3 5 0], oneDeadline.take 2, 0, 2, 5, 0, rfl, rfl, rfl⟩,
    ⟨[], oneDeadline.take 3, 0, 3, 5, 0, rfl, rfl, rfl⟩, ?_⟩
  decide +kernel

end ThreadManager

end JsOS.Kernel
