import JsOS.Library.Run

/-! # Interrupts as messages

An interrupt is raised by pushing a message to every thread that is bound to it. In the
interrupt's context nothing is allocated: a message is dropped when the thread's queue, which
the other messages may fill, has no room for it. What is in the queue stays there until the
thread takes its messages, all of them and in order.
-/

namespace JsOS.Kernel

def kIrqCount : Nat := 225

/-- A `ThreadMessage`: the reusable one of a binding, or any other one. -/
inductive ThreadMessage (Payload : Type*) where
  | irqRaise (reusable_msg_ recv_index : Nat)
  | pushed (payload : Payload)
  deriving DecidableEq, Repr

/-- An `IRQBinding`. Its reusable message is numbered, as each binding allocates its own. -/
structure IRQBinding (Thread : Type*) where
  thread_ : Thread
  recv_index_ : Nat
  reusable_msg_ : Nat
  deriving DecidableEq, Repr

/-! ## The queue of a thread -/

/-- The vector of messages of an `EngineThread`, with its capacity. -/
structure EngineThread (Payload : Type*) where
  messages_ : List (ThreadMessage Payload) := []
  capacity : Nat := 0

namespace EngineThread

variable {Payload : Type*}

/-- `TakeMessages`: the vector is replaced by one with room for 128 messages, unless it is
empty. -/
def takeMessages (thread : EngineThread Payload) :
    List (ThreadMessage Payload) × EngineThread Payload :=
  if thread.messages_.length = 0 then ([], thread) else (thread.messages_, ⟨[], 128⟩)

/-- `PushMessage`: a full vector grows. -/
def pushMessage (thread : EngineThread Payload) (message : ThreadMessage Payload) :
    EngineThread Payload where
  messages_ := thread.messages_ ++ [message]
  capacity :=
    if thread.messages_.length < thread.capacity then thread.capacity
    else max (2 * thread.capacity) (thread.messages_.length + 1)

/-- `PushMessageIRQ`: the message is dropped when the vector is full. -/
def pushMessageIRQ (thread : EngineThread Payload) (message : ThreadMessage Payload) :
    EngineThread Payload :=
  if thread.messages_.length < thread.capacity then
    { thread with messages_ := thread.messages_ ++ [message] }
  else thread

/-- How many messages the vector has room for. -/
def room (thread : EngineThread Payload) : Nat := thread.capacity - thread.messages_.length

/-- The vector with as many of some messages as there is room for. -/
def fill (thread : EngineThread Payload) (messages : List (ThreadMessage Payload)) :
    EngineThread Payload where
  messages_ := thread.messages_ ++ messages.take thread.room
  capacity := thread.capacity

theorem fill_nil (thread : EngineThread Payload) : thread.fill [] = thread := by
  unfold fill
  rw [List.take_nil, List.append_nil]

/-- **Pushing one by one fills the vector.** -/
theorem fill_cons (thread : EngineThread Payload) (message : ThreadMessage Payload)
    (messages : List (ThreadMessage Payload)) :
    (thread.pushMessageIRQ message).fill messages = thread.fill (message :: messages) := by
  unfold pushMessageIRQ fill room
  by_cases space : thread.messages_.length < thread.capacity
  · have some : thread.capacity - thread.messages_.length =
        thread.capacity - (thread.messages_.length + 1) + 1 := by omega
    rw [if_pos space]
    dsimp only
    rw [List.length_append, List.length_singleton, some, List.take_succ_cons, List.append_assoc,
      List.singleton_append]
  · have none : thread.capacity - thread.messages_.length = 0 := by omega
    rw [if_neg space, none, List.take_zero, List.take_zero]

theorem takeMessages_append (thread : EngineThread Payload) :
    thread.takeMessages.1 ++ thread.takeMessages.2.messages_ = thread.messages_ := by
  unfold takeMessages
  by_cases empty : thread.messages_.length = 0
  · rw [if_pos empty]
    rfl
  · rw [if_neg empty]
    exact List.append_nil _

end EngineThread

/-! ## The dispatcher -/

/-- The threads' queues and the `IrqDispatcher`, with the number of bindings made. -/
structure Interrupts (Thread Payload : Type*) where
  threads : Thread → EngineThread Payload := fun _ => {}
  bindings_ : Fin kIrqCount → List (IRQBinding Thread) := fun _ => []
  bound : Nat := 0

/-- The calls. -/
inductive InterruptCall (Thread Payload : Type*) where
  | bind (number : Fin kIrqCount) (thread : Thread) (recv_index : Nat)
  | raise (number : Fin kIrqCount)
  | pushMessage (thread : Thread) (payload : Payload)
  | takeMessages (thread : Thread)

/-- The message of a binding. -/
def IRQBinding.message {Thread Payload : Type*} (binding : IRQBinding Thread) :
    ThreadMessage Payload := .irqRaise binding.reusable_msg_ binding.recv_index_

namespace Interrupts

variable {Thread Payload : Type*} [DecidableEq Thread]

/-- Change one thread's queue. -/
def update (interrupts : Interrupts Thread Payload) (thread : Thread)
    (change : EngineThread Payload → EngineThread Payload) : Interrupts Thread Payload :=
  { interrupts with
    threads := fun other =>
      if other = thread then change (interrupts.threads thread) else interrupts.threads other }

/-- `IRQBinding::Raise`. -/
def raiseBinding (interrupts : Interrupts Thread Payload) (binding : IRQBinding Thread) :
    Interrupts Thread Payload :=
  interrupts.update binding.thread_ fun queue => queue.pushMessageIRQ binding.message

/-- `IrqDispatcher::Raise`. -/
def raise (interrupts : Interrupts Thread Payload) (number : Fin kIrqCount) :
    Interrupts Thread Payload :=
  (interrupts.bindings_ number).foldl raiseBinding interrupts

/-- `Bind`. -/
def bind (interrupts : Interrupts Thread Payload) (number : Fin kIrqCount) (thread : Thread)
    (recv_index : Nat) : Interrupts Thread Payload :=
  { interrupts with
    bindings_ := fun other =>
      if other = number then interrupts.bindings_ number ++ [⟨thread, recv_index, interrupts.bound⟩]
      else interrupts.bindings_ other
    bound := interrupts.bound + 1 }

/-- One call. -/
def step (interrupts : Interrupts Thread Payload) :
    InterruptCall Thread Payload → Interrupts Thread Payload
  | .bind number thread recv_index => interrupts.bind number thread recv_index
  | .raise number => interrupts.raise number
  | .pushMessage thread payload =>
      interrupts.update thread fun queue => queue.pushMessage (.pushed payload)
  | .takeMessages thread => interrupts.update thread fun queue => queue.takeMessages.2

/-- What a thread takes. -/
def takes (thread : Thread) (interrupts : Interrupts Thread Payload) :
    InterruptCall Thread Payload → List (ThreadMessage Payload)
  | .takeMessages other =>
      if other = thread then (interrupts.threads thread).takeMessages.1 else []
  | _ => []

/-- The messages of bindings that are for a thread, in order. -/
def messagesTo (thread : Thread) (bindings : List (IRQBinding Thread)) :
    List (ThreadMessage Payload) :=
  (bindings.filter fun binding => binding.thread_ = thread).map IRQBinding.message

/-- What is pushed to a thread's queue: any message pushed to it, and of an interrupt's messages
as many as there is room for. -/
def accepts (thread : Thread) (interrupts : Interrupts Thread Payload) :
    InterruptCall Thread Payload → List (ThreadMessage Payload)
  | .raise number =>
      (messagesTo thread (interrupts.bindings_ number)).take (interrupts.threads thread).room
  | .pushMessage other payload => if other = thread then [.pushed payload] else []
  | _ => []

/-! ## Raising an interrupt -/

variable {interrupts : Interrupts Thread Payload}

theorem messagesTo_cons (binding : IRQBinding Thread) (bindings : List (IRQBinding Thread))
    (thread : Thread) :
    (messagesTo thread (binding :: bindings) : List (ThreadMessage Payload)) =
      if binding.thread_ = thread then binding.message :: messagesTo thread bindings
      else messagesTo thread bindings := by
  unfold messagesTo
  by_cases mine : binding.thread_ = thread
  · simp [mine]
  · simp [mine]

/-- **What raising does to a thread's queue**: the messages for it are appended while there is
room. -/
theorem threads_foldl_raiseBinding (bindings : List (IRQBinding Thread)) (thread : Thread) :
    (bindings.foldl raiseBinding interrupts).threads thread =
      (interrupts.threads thread).fill (messagesTo thread bindings) := by
  induction bindings generalizing interrupts with
  | nil => exact (EngineThread.fill_nil _).symm
  | cons binding bindings ih =>
      rw [List.foldl_cons, ih, messagesTo_cons]
      unfold raiseBinding update
      dsimp only
      by_cases mine : binding.thread_ = thread
      · rw [if_pos mine.symm, if_pos mine, mine, EngineThread.fill_cons]
      · rw [if_neg fun same => mine same.symm, if_neg mine]

theorem threads_raise (number : Fin kIrqCount) (thread : Thread) :
    (interrupts.raise number).threads thread = (interrupts.threads thread).fill
      (messagesTo thread (interrupts.bindings_ number)) :=
  threads_foldl_raiseBinding _ thread

/-- **First in, first out**, at every call. -/
theorem takes_append (thread : Thread) (interrupts : Interrupts Thread Payload)
    (call : InterruptCall Thread Payload) :
    takes thread interrupts call ++ ((interrupts.step call).threads thread).messages_ =
      (interrupts.threads thread).messages_ ++ accepts thread interrupts call := by
  cases call with
  | bind number other recv_index => exact (List.append_nil _).symm
  | raise number => exact congrArg EngineThread.messages_ (threads_raise number thread)
  | pushMessage other payload =>
      unfold takes accepts step update
      dsimp only
      by_cases mine : other = thread
      · rw [if_pos mine, if_pos mine.symm, mine]
        rfl
      · rw [if_neg mine, if_neg fun same => mine same.symm, List.append_nil]
        rfl
  | takeMessages other =>
      unfold takes accepts step update
      dsimp only
      by_cases mine : other = thread
      · rw [if_pos mine, if_pos mine.symm, mine, List.append_nil]
        exact EngineThread.takeMessages_append _
      · rw [if_neg mine, if_neg fun same => mine same.symm, List.append_nil]
        rfl

/-- A message stays in the queue while the thread does not take its messages. -/
theorem mem_step {thread : Thread} {message : ThreadMessage Payload}
    (queued : message ∈ (interrupts.threads thread).messages_)
    {call : InterruptCall Thread Payload} (calm : call ≠ .takeMessages thread) :
    message ∈ ((interrupts.step call).threads thread).messages_ := by
  have nothing : takes thread interrupts call = [] := by
    cases call with
    | takeMessages other =>
        have different : other ≠ thread := fun same => calm (congrArg _ same)
        exact if_neg different
    | bind number other recv_index => rfl
    | raise number => rfl
    | pushMessage other payload => rfl
  have front := takes_append thread interrupts call
  rw [nothing, List.nil_append] at front
  rw [front]
  exact List.mem_append_left _ queued

/-! ## Bindings have messages of their own -/

/-- The reusable messages of an interrupt's bindings are different ones. -/
def Numbered (interrupts : Interrupts Thread Payload) : Prop :=
  ∀ number, ((interrupts.bindings_ number).map IRQBinding.reusable_msg_).Nodup ∧
    ∀ binding ∈ interrupts.bindings_ number, binding.reusable_msg_ < interrupts.bound

theorem bindings_foldl_raiseBinding (bindings : List (IRQBinding Thread)) :
    (bindings.foldl raiseBinding interrupts).bindings_ = interrupts.bindings_ ∧
      (bindings.foldl raiseBinding interrupts).bound = interrupts.bound := by
  induction bindings generalizing interrupts with
  | nil => exact ⟨rfl, rfl⟩
  | cons binding bindings ih => exact ih

theorem Numbered.step (numbered : interrupts.Numbered) (call : InterruptCall Thread Payload) :
    (interrupts.step call).Numbered := by
  cases call with
  | bind number thread recv_index =>
      intro other
      have bindings : (interrupts.step (.bind number thread recv_index)).bindings_ other =
          if other = number then
            interrupts.bindings_ number ++ [⟨thread, recv_index, interrupts.bound⟩]
          else interrupts.bindings_ other := rfl
      rw [bindings]
      split
      · obtain ⟨nodup, below⟩ := numbered number
        refine ⟨?_, fun binding member => ?_⟩
        · rw [List.map_append, List.map_singleton]
          refine (List.perm_append_singleton _ _).nodup_iff.mpr (List.nodup_cons.mpr ⟨?_, nodup⟩)
          intro old
          obtain ⟨binding, member, same⟩ := List.mem_map.mp old
          exact absurd same (Nat.ne_of_lt (below binding member))
        · rcases List.mem_append.mp member with old | new
          · exact Nat.lt_succ_of_lt (below binding old)
          · rw [List.mem_singleton.mp new]
            exact Nat.lt_succ_self _
      · obtain ⟨nodup, below⟩ := numbered other
        exact ⟨nodup, fun binding member => Nat.lt_succ_of_lt (below binding member)⟩
  | raise number =>
      obtain ⟨bindings, bound⟩ :=
        @bindings_foldl_raiseBinding _ _ _ interrupts (interrupts.bindings_ number)
      intro other
      change (((interrupts.raise number).bindings_ other).map IRQBinding.reusable_msg_).Nodup ∧
        ∀ binding ∈ (interrupts.raise number).bindings_ other,
          binding.reusable_msg_ < (interrupts.raise number).bound
      unfold raise
      rw [bindings, bound]
      exact numbered other
  | pushMessage thread payload => exact numbered
  | takeMessages thread => exact numbered

theorem numbered_run (calls : List (InterruptCall Thread Payload)) :
    (Transition.run step {} calls).Numbered := by
  have begins : Numbered ({} : Interrupts Thread Payload) := fun number =>
    ⟨List.nodup_nil, fun binding member => absurd member List.not_mem_nil⟩
  exact Transition.run_invariant_of_keeps Numbered
    (fun _ call numbered => numbered.step call) begins calls

/-! ## Delivery -/

/-- A binding's message comes after those of the bindings before it, and is none of them. -/
theorem messagesTo_split {earlier later : List (IRQBinding Thread)} {binding : IRQBinding Thread}
    (nodup : ((earlier ++ binding :: later).map IRQBinding.reusable_msg_).Nodup) :
    (messagesTo binding.thread_ (earlier ++ binding :: later) : List (ThreadMessage Payload)) =
        messagesTo binding.thread_ earlier ++
          binding.message :: messagesTo binding.thread_ later ∧
      (binding.message : ThreadMessage Payload) ∉ messagesTo binding.thread_ earlier ∧
      (messagesTo binding.thread_ earlier : List (ThreadMessage Payload)).length =
        earlier.countP fun other => other.thread_ = binding.thread_ := by
  refine ⟨?_, fun member => ?_, ?_⟩
  · have own := @messagesTo_cons Thread Payload _ binding later binding.thread_
    rw [if_pos rfl] at own
    rw [← own]
    unfold messagesTo
    rw [List.filter_append, List.map_append]
  · obtain ⟨other, inside, same⟩ := List.mem_map.mp member
    rw [List.map_append, List.map_cons] at nodup
    have apart := (List.nodup_append.mp nodup).2.2 other.reusable_msg_
      (List.mem_map_of_mem (List.mem_filter.mp inside).1) binding.reusable_msg_ List.mem_cons_self
    exact apart (ThreadMessage.irqRaise.inj same).1
  · unfold messagesTo
    rw [List.length_map, List.countP_eq_length_filter]

theorem mem_take_split {Element : Type*} {before after : List Element} {element : Element}
    (absent : element ∉ before) (count : Nat) :
    element ∈ (before ++ element :: after).take count ↔ before.length < count := by
  rw [List.take_append, List.mem_append]
  constructor
  · intro either
    rcases either with inside | inside
    · exact absurd (List.mem_of_mem_take inside) absent
    · by_contra short
      rw [Nat.sub_eq_zero_of_le (Nat.le_of_not_lt short), List.take_zero] at inside
      cases inside
  · intro long
    obtain ⟨more, same⟩ := Nat.exists_eq_succ_of_ne_zero (Nat.sub_ne_zero_of_lt long)
    rw [same, List.take_succ_cons]
    exact .inr List.mem_cons_self

/-- **A raised interrupt reaches a thread** whose queue has its message already, or has room
for it behind those of the bindings before. -/
theorem mem_raise_iff (numbered : interrupts.Numbered) {number : Fin kIrqCount}
    {earlier later : List (IRQBinding Thread)} {binding : IRQBinding Thread}
    (bound : interrupts.bindings_ number = earlier ++ binding :: later) :
    binding.message ∈ ((interrupts.raise number).threads binding.thread_).messages_ ↔
      binding.message ∈ (interrupts.threads binding.thread_).messages_ ∨
        (interrupts.threads binding.thread_).messages_.length +
            (earlier.countP fun other => other.thread_ = binding.thread_) <
          (interrupts.threads binding.thread_).capacity := by
  have nodup := (numbered number).1
  rw [bound] at nodup
  obtain ⟨split, absent, length⟩ := @messagesTo_split _ Payload _ _ _ _ nodup
  rw [threads_raise, bound, EngineThread.fill, split, List.mem_append, mem_take_split absent,
    length, EngineThread.room]
  apply or_congr_right
  omega

/-- What is known of interrupts after any calls. -/
structure Delivers (calls : List (InterruptCall Thread Payload)) : Prop where
  /-- A raised interrupt's message is in the queue of a bound thread exactly if it was there, or
  there was room. -/
  raised : ∀ number earlier binding later,
    (Transition.run step {} calls).bindings_ number = earlier ++ binding :: later →
      (binding.message ∈
          ((Transition.run step {} (calls ++ [.raise number])).threads binding.thread_).messages_ ↔
        binding.message ∈ ((Transition.run step {} calls).threads binding.thread_).messages_ ∨
          ((Transition.run step {} calls).threads binding.thread_).messages_.length +
              (earlier.countP fun other => other.thread_ = binding.thread_) <
            ((Transition.run step {} calls).threads binding.thread_).capacity)
  /-- A message in a queue stays there until the thread takes its messages, and is taken then. -/
  kept : ∀ thread message, message ∈ ((Transition.run step {} calls).threads thread).messages_ →
    ∀ calm, InterruptCall.takeMessages thread ∉ calm →
      message ∈ takes thread (Transition.run step {} (calls ++ calm)) (.takeMessages thread)
  /-- Messages are taken in the order in which they were pushed, each once. -/
  inOrder : ∀ thread, Transition.collect step (takes thread) {} calls ++
      ((Transition.run step {} calls).threads thread).messages_ =
    Transition.collect step (accepts thread) {} calls

theorem takes_eq (thread : Thread) (interrupts : Interrupts Thread Payload) :
    takes thread interrupts (.takeMessages thread) = (interrupts.threads thread).messages_ := by
  unfold takes EngineThread.takeMessages
  dsimp only
  rw [if_pos rfl]
  by_cases empty : (interrupts.threads thread).messages_.length = 0
  · rw [if_pos empty, List.eq_nil_of_length_eq_zero empty]
  · rw [if_neg empty]

theorem mem_run {thread : Thread} {message : ThreadMessage Payload}
    (queued : message ∈ (interrupts.threads thread).messages_)
    {calm : List (InterruptCall Thread Payload)} (none : .takeMessages thread ∉ calm) :
    message ∈ ((Transition.run step interrupts calm).threads thread).messages_ := by
  induction calm generalizing interrupts with
  | nil => exact queued
  | cons call calm ih =>
      rw [List.mem_cons, not_or] at none
      exact ih (mem_step queued fun same => none.1 same.symm) none.2

/-- **Interrupts are delivered where there is room**, for any interleaving of the calls. -/
theorem interrupts_delivered (calls : List (InterruptCall Thread Payload)) : Delivers calls := by
  refine ⟨fun number earlier binding later bound => ?_, fun thread message queued calm none => ?_,
    fun thread => ?_⟩
  · rw [Transition.run_append]
    exact mem_raise_iff (numbered_run calls) bound
  · rw [takes_eq, Transition.run_append]
    exact mem_run queued none
  · exact Transition.collect_fifo
      (fun interrupts : Interrupts Thread Payload => (interrupts.threads thread).messages_)
      (accepts thread) (takes thread) (takes_append thread) {} calls

def keyboard : Fin kIrqCount := ⟨1, by decide⟩

/-- A thread that has run and is bound to an interrupt, and then gets 128 messages. -/
def crowded : List (InterruptCall Nat Nat) :=
  [.pushMessage 0 0, .takeMessages 0, .bind keyboard 0 7] ++
    List.replicate 128 (.pushMessage 0 1)

/-- The interrupt is lost. -/
theorem crowded_loses_interrupt :
    (Transition.run step {} crowded).bindings_ keyboard = [⟨0, 7, 0⟩] ∧
      (IRQBinding.message ⟨0, 7, 0⟩ : ThreadMessage Nat) ∉
        ((Transition.run step {} (crowded ++ [.raise keyboard])).threads 0).messages_ := by
  decide +kernel

end Interrupts

end JsOS.Kernel
