import JsOS.Library.Run
import Mathlib.Order.Basic
import Mathlib.Data.Nat.Notation

/-! # The queue of calls

The calls of the file system are tasks of a queue: each runs when those before it have released it.
In every run in which a task releases the queue once, the tasks run in the order in which they came,
one at a time, and none is forgotten (`tasks_in_order`).
-/

namespace JsOS.Core.Fs.Fat

/-! ## The queue -/

/-- `tasks` of a `SerialQueue`, by numbers, and how often `runNext` waits for the next tick. -/
structure SerialQueue where
  tasks : List ℕ
  ticks : ℕ
  deriving DecidableEq, Repr

/-- `acquire`. -/
def SerialQueue.acquire (queue : SerialQueue) (task : ℕ) : SerialQueue :=
  let tasks := queue.tasks ++ [task]
  if tasks.length = 1 then ⟨tasks, queue.ticks + 1⟩ else ⟨tasks, queue.ticks⟩

/-- `runNext`: the task that it calls; none if there is none, so that the call throws. -/
def SerialQueue.runNext (queue : SerialQueue) : Option ℕ := queue.tasks.head?

/-- What a task is given to release the queue, and the task that this calls. -/
def SerialQueue.release (queue : SerialQueue) : SerialQueue × Option ℕ :=
  let queue := { queue with tasks := queue.tasks.tail }
  if queue.tasks.length ≠ 0 then (queue, queue.runNext) else (queue, none)

/-- What happens to a queue. -/
inductive QueueEvent where
  | acquire (task : ℕ)
  /-- The next tick comes. -/
  | tick
  /-- The task that runs releases the queue. -/
  | release
  deriving DecidableEq, Repr

/-- A queue, the tasks that have come and been called, and how many have released it. -/
structure QueueHistory where
  queue : SerialQueue
  acquired : List ℕ
  called : List ℕ
  released : ℕ
  deriving DecidableEq, Repr

namespace QueueHistory

/-- A queue at its start. -/
def empty : QueueHistory := ⟨⟨[], 0⟩, [], [], 0⟩

/-- An event. -/
def step (history : QueueHistory) : QueueEvent → QueueHistory
  | .acquire task =>
      { history with queue := history.queue.acquire task, acquired := history.acquired ++ [task] }
  | .tick =>
      if history.queue.ticks = 0 then history
      else
        { history with
          queue := { history.queue with ticks := history.queue.ticks - 1 }
          called := history.called ++ history.queue.runNext.toList }
  | .release =>
      let (queue, called) := history.queue.release
      { history with
        queue := queue
        called := history.called ++ called.toList
        released := history.released + 1 }

/-- A task releases the queue only once, when it has been called. -/
def Orderly (history : QueueHistory) : QueueEvent → Prop
  | .release => history.released < history.called.length
  | _ => True

/-- **The order of the tasks**: those that have been called are the first that have come, and all
but the last of them have released the queue; the others wait; and if none runs, the next tick calls
one as long as there is one. -/
structure InOrder (history : QueueHistory) : Prop where
  called : history.called = history.acquired.take history.called.length
  released : history.released ≤ history.called.length
  one : history.called.length ≤ history.released + 1
  tasks : history.queue.tasks = history.acquired.drop history.released
  ticks : history.queue.ticks =
    if history.called.length = history.released ∧ history.queue.tasks ≠ [] then 1 else 0

variable {history : QueueHistory}

/-- No more tasks are called than have come. -/
theorem InOrder.length_le (inOrder : history.InOrder) :
    history.called.length ≤ history.acquired.length := by
  have length := congrArg List.length inOrder.called
  rw [List.length_take] at length
  omega

theorem InOrder.acquire (inOrder : history.InOrder) (task : ℕ) :
    (history.step (.acquire task)).InOrder := by
  have bound := inOrder.length_le
  have released := inOrder.released
  have waiting : (history.queue.acquire task).tasks = history.queue.tasks ++ [task] := by
    unfold SerialQueue.acquire
    dsimp only
    split <;> rfl
  refine ⟨?_, released, inOrder.one, ?_, ?_⟩
  · change history.called = (history.acquired ++ [task]).take history.called.length
    rw [List.take_append_of_le_length bound]
    exact inOrder.called
  · change (history.queue.acquire task).tasks =
      (history.acquired ++ [task]).drop history.released
    rw [waiting, inOrder.tasks, List.drop_append_of_le_length (Nat.le_trans released bound)]
  · change (history.queue.acquire task).ticks =
      if history.called.length = history.released ∧ (history.queue.acquire task).tasks ≠ [] then 1
      else 0
    have length := congrArg List.length inOrder.tasks
    rw [List.length_drop] at length
    rw [waiting]
    unfold SerialQueue.acquire
    dsimp only
    cases rest : history.queue.tasks with
    | nil =>
        have idle : history.called.length = history.released := by
          rw [rest, List.length_nil] at length
          omega
        have none : history.queue.ticks = 0 := by
          rw [inOrder.ticks, rest, if_neg fun both => both.2 rfl]
        have both : history.called.length = history.released ∧ [] ++ [task] ≠ [] :=
          ⟨idle, List.cons_ne_nil task []⟩
        rw [if_pos both, none]
        rfl
    | cons first others =>
        have several : (first :: others ++ [task]).length ≠ 1 := by
          rw [List.length_append, List.length_cons, List.length_singleton]
          omega
        rw [if_neg several]
        change history.queue.ticks = _
        rw [inOrder.ticks, rest]
        refine if_congr (and_congr_right fun _ => ?_) rfl rfl
        exact iff_of_true (List.cons_ne_nil _ _) (List.cons_ne_nil _ _)

/-- The first task that waits is called next. -/
theorem called_next {acquired called waiting : List ℕ} {first : ℕ}
    (before : called = acquired.take called.length)
    (behind : first :: waiting = acquired.drop called.length) :
    called ++ [first] = acquired.take (called ++ [first]).length := by
  have next : acquired[called.length]? = some first := by
    rw [← List.head?_drop, ← behind]
    rfl
  obtain ⟨bound, value⟩ := List.getElem?_eq_some_iff.mp next
  rw [List.length_append, List.length_singleton, List.take_succ_eq_append_getElem bound, value,
    ← before]

theorem InOrder.tick (inOrder : history.InOrder) : (history.step .tick).InOrder := by
  unfold step
  dsimp only
  by_cases none : history.queue.ticks = 0
  · rw [if_pos none]
    exact inOrder
  · rw [if_neg none]
    have waits : history.called.length = history.released ∧ history.queue.tasks ≠ [] := by
      by_contra other
      exact none (inOrder.ticks.trans (if_neg other))
    obtain ⟨first, others, rest⟩ := List.exists_cons_of_ne_nil waits.2
    have behind : first :: others = history.acquired.drop history.called.length := by
      rw [← rest, inOrder.tasks, waits.1]
    have called : history.called ++ history.queue.runNext.toList = history.called ++ [first] := by
      unfold SerialQueue.runNext
      rw [rest]
      rfl
    have released := inOrder.released
    have one : (history.called ++ [first]).length = history.called.length + 1 :=
      List.length_append
    rw [called]
    refine ⟨called_next inOrder.called behind, ?_, ?_, inOrder.tasks, ?_⟩
    · change history.released ≤ (history.called ++ [first]).length
      omega
    · change (history.called ++ [first]).length ≤ history.released + 1
      omega
    · change history.queue.ticks - 1 =
        if (history.called ++ [first]).length = history.released ∧ _ then 1 else 0
      rw [if_neg fun both => by omega, inOrder.ticks, if_pos waits]

theorem InOrder.release (inOrder : history.InOrder)
    (runs : history.released < history.called.length) : (history.step .release).InOrder := by
  have one := inOrder.one
  have none : history.queue.ticks = 0 := by
    rw [inOrder.ticks, if_neg fun both => by omega]
  have waiting : history.queue.tasks.tail = history.acquired.drop (history.released + 1) := by
    rw [inOrder.tasks, List.tail_drop]
  unfold step SerialQueue.release
  dsimp only
  cases rest : history.queue.tasks.tail with
  | nil =>
      rw [if_neg (by simp), Option.toList_none, List.append_nil]
      refine ⟨inOrder.called, runs, Nat.le_succ_of_le one, rest.symm.trans waiting, ?_⟩
      change history.queue.ticks = _
      rw [none, if_neg fun both => both.2 rfl]
  | cons first others =>
      have idle : history.called.length = history.released + 1 := by omega
      have behind : first :: others = history.acquired.drop history.called.length := by
        rw [← rest, waiting, idle]
      have length : (history.called ++ [first]).length = history.called.length + 1 :=
        List.length_append
      rw [if_pos (by simp)]
      unfold SerialQueue.runNext
      dsimp only
      rw [List.head?_cons, Option.toList_some]
      refine ⟨called_next inOrder.called behind, ?_, ?_, rest.symm.trans waiting, ?_⟩
      · change history.released + 1 ≤ (history.called ++ [first]).length
        omega
      · change (history.called ++ [first]).length ≤ history.released + 1 + 1
        omega
      · change history.queue.ticks =
          if (history.called ++ [first]).length = history.released + 1 ∧ _ then 1 else 0
        rw [none, if_neg fun both => by omega]

/-- **An event keeps the order.** -/
theorem InOrder.step (inOrder : history.InOrder) {event : QueueEvent}
    (orderly : history.Orderly event) : (history.step event).InOrder := by
  cases event with
  | acquire task => exact inOrder.acquire task
  | tick => exact inOrder.tick
  | release => exact inOrder.release orderly

/-- The tasks that come in a run. -/
def tasksOf (events : List QueueEvent) : List ℕ :=
  events.filterMap fun
    | .acquire task => some task
    | _ => none

/-- What has come is what the events bring. -/
theorem acquired_run (events : List QueueEvent) (history : QueueHistory) :
    (Transition.run step history events).acquired = history.acquired ++ tasksOf events := by
  induction events generalizing history with
  | nil => exact (List.append_nil _).symm
  | cons event events ih =>
      rw [Transition.run_cons, ih]
      cases event with
      | acquire task => exact List.append_assoc _ [task] _
      | tick =>
          unfold step
          dsimp only
          split <;> rfl
      | release => rfl

/-- **The tasks run in the order in which they came**, one at a time, if each of them releases the
queue at most once: those that have been called are the first that have come, and all but the last
of them have released it. If none runs, and no tick is to come, all of them have been called. -/
theorem tasks_in_order (events : List QueueEvent)
    (orderly : Transition.Along step Orderly empty events) :
    let history := Transition.run step empty events
    history.called = (tasksOf events).take history.called.length ∧
      history.released ≤ history.called.length ∧
      history.called.length ≤ history.released + 1 ∧
      (history.called.length = history.released → history.queue.ticks = 0 →
        history.called = tasksOf events) := by
  have start : empty.InOrder := ⟨rfl, Nat.le_refl _, Nat.zero_le _, rfl, rfl⟩
  have inOrder : (Transition.run step empty events).InOrder :=
    Transition.run_invariant InOrder (fun _ _ inOrder => inOrder.step) start orderly
  have acquired : (Transition.run step empty events).acquired = tasksOf events :=
    acquired_run events empty
  refine ⟨?_, inOrder.released, inOrder.one, fun idle none => ?_⟩
  · rw [← acquired]
    exact inOrder.called
  · have done : (Transition.run step empty events).queue.tasks = [] := by
      by_contra some
      have ticks := inOrder.ticks
      rw [none, if_pos ⟨idle, some⟩] at ticks
      cases ticks
    have length := congrArg List.length inOrder.tasks
    rw [done, List.length_drop, List.length_nil] at length
    rw [← acquired]
    have all := inOrder.called
    have enough : (Transition.run step empty events).acquired.length ≤
        (Transition.run step empty events).called.length := by
      omega
    rwa [List.take_of_length_le enough] at all

/-- Two tasks come, and a third while the second runs. -/
theorem tasks_in_order_three :
    let history := Transition.run step empty
      [.acquire 1, .acquire 2, .tick, .release, .acquire 3, .release, .release]
    history.called = (tasksOf
        [.acquire 1, .acquire 2, .tick, .release, .acquire 3, .release, .release]).take
          history.called.length ∧
      history.released ≤ history.called.length ∧
      history.called.length ≤ history.released + 1 ∧
      (history.called.length = history.released → history.queue.ticks = 0 →
        history.called = tasksOf
          [.acquire 1, .acquire 2, .tick, .release, .acquire 3, .release, .release]) := by
  refine tasks_in_order _ ⟨trivial, trivial, trivial, ?_, trivial, ?_, ?_, trivial⟩
  · change 0 < 1
    decide
  · change 1 < 2
    decide
  · change 2 < 3
    decide

end QueueHistory

end JsOS.Core.Fs.Fat
