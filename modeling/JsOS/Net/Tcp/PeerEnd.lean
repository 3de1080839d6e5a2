import Mathlib.Data.List.TakeWhile
import JsOS.Net.Tcp.Delivery
import JsOS.Net.Tcp.Step

/-! # The end of the peer's stream

A FIN is put into the reordering queue like data, but the change of state below it
does not look at the queue: CLOSE_WAIT or TIME_WAIT is entered, and `onend`
scheduled, when the FIN arrives. That is in order exactly when the segment with
the FIN leaves no gap (`FINInOrder`): it starts at or before the receive edge and
ends in the window. Runs whose FINs are in order take in the whole stream before
`onend` (`peerEnd_exact`).
-/

namespace JsOS.Net.Tcp

open Circular Transition

/-- The segment carries neither data nor a FIN. -/
def Segment.isBare (segment : Segment) : Bool := segment.dataLength ≤ 0 && !segment.hasFIN

namespace Stream

/-- A segment of the peer: a slice of its stream, or a bare acknowledgement. -/
def Sends (stream : Stream) (offset : Nat) (segment : Segment) : Prop :=
  segment.isBare ∨ stream.Carries offset segment

instance (stream : Stream) (offset : Nat) (segment : Segment) :
    Decidable (stream.Sends offset segment) :=
  inferInstanceAs (Decidable (_ ∨ _))

theorem Sends.carries {stream : Stream} {offset : Nat} {segment : Segment}
    (sends : stream.Sends offset segment) (fin : segment.hasFIN) :
    stream.Carries offset segment := by
  rcases sends with bare | carries
  · simp [Segment.isBare, fin] at bare
  · exact carries

/-- The offset in the stream a sequence number stands for. -/
def offsetOf (stream : Stream) (seq : Seq) : Nat := ahead stream.start seq

/-- The sequence number after the FIN. -/
def finalEdge (stream : Stream) : Seq := stream.seqAt (stream.bytes.length + 1)

/-- The step receives nothing but segments of the peer. -/
def Gives (stream : Stream) (input : Input) : Prop :=
  match input.op with
  | .receive segment => stream.Sends (stream.offsetOf segment.seqNumber) segment
  | _ => True

instance (stream : Stream) : ∀ input : Input, Decidable (stream.Gives input)
  | ⟨_, .receive segment⟩ =>
      inferInstanceAs (Decidable (stream.Sends (stream.offsetOf segment.seqNumber) segment))
  | ⟨_, .send _⟩ | ⟨_, .halfclose⟩ | ⟨_, .close⟩ | ⟨_, .timerTick⟩ => .isTrue trivial

theorem slice_all (stream : Stream) : stream.slice 0 (stream.bytes.length + 1) = stream.bytes := by
  rw [slice, List.take_of_length_le (Nat.le_succ _), List.drop_zero]

end Stream

/-- The states in which `_receive` looks at the data of a segment. -/
def State.receivesData : State → Bool
  | .established | .finWait1 | .finWait2 => true
  | _ => false

namespace TCPSocket

/-- The FIN of the segment changes the state: the socket is in ESTABLISHED or
FIN_WAIT_2, or moves from FIN_WAIT_1 to FIN_WAIT_2 before. -/
def changedByFIN (now : Nat) (segment : Segment) (s : TCPSocket) : Bool :=
  match s.state with
  | .established | .finWait2 => true
  | .finWait1 =>
      (s.acceptACK now segment.ackNumber segment.windowSize.toNat).transmitPosition =
        segment.ackNumber
  | _ => false

/-- A FIN that changes the state leaves no gap: its segment starts at or before the
receive edge and ends in the window. -/
def FINInOrder (stream : Stream) (s : TCPSocket) (input : Input) : Prop :=
  match input.op with
  | .receive segment =>
      segment.hasFIN → s.changedByFIN input.env.now segment →
        stream.offsetOf segment.seqNumber ≤ stream.offsetOf s.receiveWindowEdge ∧
          stream.bytes.length ≤ stream.offsetOf s.receiveWindowEdge + s.receiveWindowSize
  | _ => True

instance (stream : Stream) (s : TCPSocket) : ∀ input : Input, Decidable (FINInOrder stream s input)
  | ⟨_, .receive _⟩ => inferInstanceAs (Decidable (_ → _ → _ ∧ _))
  | ⟨_, .send _⟩ | ⟨_, .halfclose⟩ | ⟨_, .close⟩ | ⟨_, .timerTick⟩ => .isTrue trivial

/-- The bytes passed to `ondata` before the first call of `onend`. -/
def deliveredBeforeEnd (s : TCPSocket) : Bytes :=
  (s.callbacks.takeWhile (· ≠ .onend)).flatMap Event.payload

/-- CLOSE_WAIT and TIME_WAIT are entered, and `onend` scheduled, only with the
receive edge past the FIN, and `onend` comes after every byte of the stream. -/
def EndInOrder (stream : Stream) (s : TCPSocket) : Prop :=
  ((s.state = .closeWait ∨ s.state = .timeWait ∨ .onend ∈ s.callbacks) →
      s.receiveWindowEdge = stream.finalEdge) ∧
    (.onend ∈ s.callbacks → s.deliveredBeforeEnd = stream.bytes)

instance (stream : Stream) (s : TCPSocket) : Decidable (EndInOrder stream s) :=
  inferInstanceAs (Decidable (_ ∧ _))

/-! ## Positions -/

section Positions

variable {stream : Stream} {received : Set ℕ} {s : TCPSocket} {edge : Nat} {segment : Segment}
  {offset : Nat}

theorem Receiving.offsetOf_edge (receiving : Receiving stream received s edge) :
    stream.offsetOf s.receiveWindowEdge = edge := by
  have short := stream.short
  have bound := receiving.bound
  rw [receiving.receiveWindowEdge, Stream.offsetOf, stream.ahead_start (by omega)]

theorem Receiving.finalEdge_iff (receiving : Receiving stream received s edge) :
    s.receiveWindowEdge = stream.finalEdge ↔ edge = stream.bytes.length + 1 := by
  have short := stream.short
  have bound := receiving.bound
  rw [receiving.receiveWindowEdge, Stream.finalEdge, stream.seqAt_inj (by omega) (by omega)]

/-- The window test accepts the segments whose last byte is new and in the window. -/
theorem Receiving.acceptsData_iff (receiving : Receiving stream received s edge)
    (carries : stream.Carries offset segment) (nonempty : segment.data ≠ []) :
    s.acceptsData segment ↔ edge < offset + segment.data.length ∧
      offset + segment.data.length ≤ edge + s.receiveWindowSize := by
  constructor
  · intro accepts
    exact (receiving.of_acceptsData carries accepts).2
  · rintro ⟨new, limit⟩
    have short := stream.short
    have bound := receiving.bound
    have size := receiving.receiveWindowSize
    have fits := carries.fits
    have positive := List.length_pos_of_ne_nil nonempty
    have last : ((segment.data.length : Int) - 1) = ((segment.data.length - 1 : Nat) : Int) := by
      omega
    simp only [acceptsData, Bool.and_eq_true, decide_eq_true_eq]
    rw [carries.dataLength]
    refine ⟨by omega, ?_⟩
    rw [receiveWindowIsWithin_iff (by omega), receiving.receiveWindowEdge, carries.seqNumber, last,
      Stream.seqInc_seqAt, stream.ahead_seqAt_of_le (by omega) (by omega)]
    omega

/-- **The data path reaches the end of a segment** exactly if the segment starts at or
before the edge and ends in the window. -/
theorem Receiving.receiveData_reaches (receiving : Receiving stream received s edge)
    (settled : Settled stream s edge) (carries : stream.Carries offset segment) (now : Nat)
    (alive : (s.receiveData now segment).state ≠ .closed) :
    ∃ reached, edge ≤ reached ∧
      Receiving stream (s.receivedWith received offset segment) (s.receiveData now segment)
        reached ∧
      Settled stream (s.receiveData now segment) reached ∧
      (offset + segment.data.length ≤ reached ↔
        offset ≤ edge ∧ offset + segment.data.length ≤ edge + s.receiveWindowSize) := by
  obtain ⟨reached, le, receives, settles, state⟩ := receiving.receiveData settled carries now
  have before : s.state ≠ .closed := by
    rcases state with same | closed
    · exact same ▸ alive
    · exact absurd closed alive
  have fits := carries.fits
  refine ⟨reached, le, receives, settles, ?_⟩
  by_cases old : offset + segment.data.length ≤ edge
  · exact ⟨fun _ => ⟨by omega, by omega⟩, fun _ => old.trans le⟩
  have inside : edge < stream.bytes.length := by omega
  constructor
  · intro passes
    rcases receives.sound edge (by omega) with known | ⟨accepts, lower, -⟩
    · exact absurd known (receiving.edge_notMem settled before inside)
    · exact ⟨lower, (receiving.of_acceptsData carries accepts).2.2⟩
  · rintro ⟨lower, limit⟩
    by_contra short
    have accepts := (receiving.acceptsData_iff carries
      (List.ne_nil_of_length_pos (by omega))).mpr ⟨by omega, limit⟩
    refine receives.edge_notMem settles alive (by omega) (.inr ⟨accepts, ?_, ?_⟩)
    · omega
    · omega

/-- The item `_receive` inserts for the FIN of a segment. -/
def finOf (segment : Segment) : ReceiveItem :=
  ⟨seqInc segment.seqNumber segment.dataLength, 1, none⟩

theorem isFIN_finOf (carries : stream.Carries offset segment) (fin : segment.hasFIN) :
    stream.IsFIN (finOf segment) := by
  refine ⟨?_, rfl, rfl⟩
  unfold finOf
  rw [carries.seqNumber, carries.dataLength, Stream.seqInc_seqAt, carries.fin fin]

/-- **The FIN is taken in** exactly if every byte before it has been. -/
theorem Receiving.insertFIN (receiving : Receiving stream received s edge)
    (settled : Settled stream s edge) (carries : stream.Carries offset segment)
    (fin : segment.hasFIN) (now : Nat) :
    ∃ reached, edge ≤ reached ∧
      Receiving stream (insert stream.bytes.length received)
        (s.insertReceiveQueue now (finOf segment)) reached ∧
      Settled stream (s.insertReceiveQueue now (finOf segment)) reached ∧
      (s.state ≠ .closed →
        (reached = stream.bytes.length + 1 ↔ stream.bytes.length ≤ edge)) := by
  have isFIN := isFIN_finOf carries fin
  have covers (position : ℕ) (covered : stream.Covers (finOf segment) position) :
      position = stream.bytes.length := by
    rcases covered with ⟨_, data, -⟩ | ⟨-, last⟩
    · exact (data.not_isFIN isFIN).elim
    · exact last
  have queued : Queued stream (insert stream.bytes.length received)
      (edge + s.receiveWindowSize) (finOf segment) :=
    ⟨.inr isFIN, fun position covered => .inl (covers position covered)⟩
  obtain ⟨reached, le, next, receives, settles, -⟩ := receiving.insertReceiveQueue now queued
    (fun position member => .inr member)
    (by
      rintro position (rfl | member)
      · exact .inr (.inr ⟨isFIN, rfl⟩)
      · exact .inl member)
  refine ⟨reached, le, receives, settles, fun alive => ?_⟩
  have bound := receives.bound
  constructor
  · intro ended
    by_contra before
    rcases receives.sound edge (by omega) with last | known
    · omega
    · exact receiving.edge_notMem settled alive (by omega) known
  · intro complete
    by_cases last : edge = stream.bytes.length
    · have passed := next (last ▸ isFIN.seq)
      rw [isFIN.len] at passed
      omega
    · omega

end Positions

/-! ## Steps that receive nothing -/

/-- The receive side is unchanged, unless the connection was closed; the peer's end
is not noticed, and no callback but `onclose` is scheduled. -/
structure OwnFrame (s t : TCPSocket) : Prop where
  receiveWindowEdge : t.receiveWindowEdge = s.receiveWindowEdge
  receiveWindowSize : t.receiveWindowSize = s.receiveWindowSize
  ondata : t.ondata = s.ondata
  callbacks : ∃ more, t.callbacks = s.callbacks ++ more ∧ ∀ event ∈ more, event = .onclose
  queue : (t.receiveQueue = s.receiveQueue ∧ (t.state ≠ .closed → s.state ≠ .closed)) ∨
    (t.receiveQueue = [] ∧ t.state = .closed)
  ended : t.state = .closeWait ∨ t.state = .timeWait → t.state = s.state

theorem ReceiveFrame.ownFrame {s t : TCPSocket} (frame : ReceiveFrame s t) : OwnFrame s t where
  receiveWindowEdge := frame.receiveWindowEdge
  receiveWindowSize := frame.receiveWindowSize
  ondata := frame.ondata
  callbacks := ⟨[], by rw [frame.callbacks, List.append_nil], by simp⟩
  queue := by
    rcases frame.queue with ⟨state, queue⟩ | ⟨closed, queue⟩
    · exact .inl ⟨queue, fun alive => state ▸ alive⟩
    · exact .inr ⟨queue, closed⟩
  ended := by
    intro ended
    rcases frame.queue with ⟨state, -⟩ | ⟨closed, -⟩
    · exact state
    · rw [closed] at ended
      simp at ended

namespace OwnFrame

theorem refl (s : TCPSocket) : OwnFrame s s := (ReceiveFrame.refl s).ownFrame

theorem trans {s t u : TCPSocket} (first : OwnFrame s t) (second : OwnFrame t u) :
    OwnFrame s u where
  receiveWindowEdge := second.receiveWindowEdge.trans first.receiveWindowEdge
  receiveWindowSize := second.receiveWindowSize.trans first.receiveWindowSize
  ondata := second.ondata.trans first.ondata
  callbacks := by
    obtain ⟨more, first, closes⟩ := first.callbacks
    obtain ⟨more', second, closes'⟩ := second.callbacks
    refine ⟨more ++ more', by rw [second, first, List.append_assoc], ?_⟩
    intro event member
    rcases List.mem_append.mp member with member | member
    · exact closes event member
    · exact closes' event member
  queue := by
    rcases second.queue with ⟨queue, alive⟩ | closed
    · rcases first.queue with ⟨queue', alive'⟩ | ⟨queue', closed'⟩
      · exact .inl ⟨queue.trans queue', fun open_ => alive' (alive open_)⟩
      · refine .inr ⟨queue.trans queue', ?_⟩
        by_contra open_
        exact alive open_ closed'
    · exact .inr closed
  ended := by
    intro ended
    have same := second.ended ended
    rw [same] at ended ⊢
    exact first.ended ended

theorem setState {s : TCPSocket} {state : State} (alive : state ≠ .closed → s.state ≠ .closed)
    (other : state ≠ .closeWait ∧ state ≠ .timeWait) : OwnFrame s (s.setState state) where
  receiveWindowEdge := rfl
  receiveWindowSize := rfl
  ondata := rfl
  callbacks := ⟨[], (List.append_nil _).symm, by simp⟩
  queue := .inl ⟨rfl, alive⟩
  ended := fun ended => (ended.elim other.1 other.2).elim

theorem closed (s : TCPSocket) : OwnFrame s (s.setState .closed) :=
  setState (absurd rfl) (by simp)

theorem destroy {s : TCPSocket} (closed : s.state = .closed) : OwnFrame s s.destroy where
  receiveWindowEdge := rfl
  receiveWindowSize := rfl
  ondata := rfl
  callbacks := ⟨[], by simp [TCPSocket.callbacks, TCPSocket.destroy, emit, Event.isCallback],
    by simp⟩
  queue := .inr ⟨rfl, closed⟩
  ended := fun _ => rfl

theorem emitOnclose (s : TCPSocket) (callback : Bool) : OwnFrame s (s.emitIf callback .onclose) := by
  unfold emitIf
  split
  · exact ⟨rfl, rfl, rfl, ⟨[.onclose], by simp [TCPSocket.callbacks, emit, Event.isCallback],
      by simp⟩, .inl ⟨rfl, id⟩, fun _ => rfl⟩
  · exact refl s

theorem freePort (s : TCPSocket) (port : Nat) : OwnFrame s (s.emit (.freePort port)) :=
  ⟨rfl, rfl, rfl, ⟨[], by simp [TCPSocket.callbacks, emit, Event.isCallback], by simp⟩,
    .inl ⟨rfl, id⟩, fun _ => rfl⟩

theorem filling {op : Op} {s t : TCPSocket} (fills : s.filling op = some t) : OwnFrame s t := by
  have ended (ends : s.ending? = some t) : OwnFrame s t := by
    unfold ending? at ends
    cases state : s.state with
    | established =>
        rw [state] at ends
        cases ends
        exact ⟨rfl, rfl, rfl, ⟨[], (List.append_nil _).symm, by simp⟩,
          .inl ⟨rfl, fun _ => by simp [state]⟩, fun ended => by simp [queueEnd] at ended⟩
    | closeWait =>
        rw [state] at ends
        cases ends
        exact ⟨rfl, rfl, rfl, ⟨[], (List.append_nil _).symm, by simp⟩,
          .inl ⟨rfl, fun _ => by simp [state]⟩, fun ended => by simp [queueEnd] at ended⟩
    | _ =>
        rw [state] at ends
        cases ends
  cases op with
  | send u8 =>
      obtain ⟨-, ⟨⟩⟩ := Option.ite_none_right_eq_some.mp fills
      exact ⟨rfl, rfl, rfl, ⟨[], (List.append_nil _).symm, by simp⟩, .inl ⟨rfl, id⟩, fun _ => rfl⟩
  | halfclose => exact ended fills
  | close => exact ended fills
  | receive segment =>
      obtain ⟨-, ⟨⟩⟩ := Option.ite_none_right_eq_some.mp fills
      exact ⟨rfl, rfl, rfl, ⟨[], (List.append_nil _).symm, by simp⟩, .inl ⟨rfl, id⟩, fun _ => rfl⟩
  | timerTick => cases fills

theorem refilled (input : Input) (s : TCPSocket) : OwnFrame s (s.refilled input) := by
  unfold TCPSocket.refilled
  cases fills : s.filling input.op with
  | none =>
      obtain ⟨env, op⟩ := input
      cases op with
      | receive segment =>
          dsimp only [Option.map_none, Option.getD_none, unfilled]
          split
          · exact ⟨rfl, rfl, rfl, ⟨[], (List.append_nil _).symm, by simp⟩, .inl ⟨rfl, id⟩,
              fun _ => rfl⟩
          · exact refl s
      | _ => exact refl s
  | some t =>
      exact (filling fills).trans (ReceiveFrame.fillTransmitQueue input.env.now t).ownFrame

theorem timerTick (env : Env) (s : TCPSocket) : OwnFrame s (s.timerTick env) := by
  rcases timerTick_cases env s with ⟨-, ticks⟩ | ⟨-, ticks⟩ | ⟨-, ticks⟩ | ⟨-, -, ticks⟩
  · rw [ticks]
    exact (closed s).trans (destroy rfl)
  · obtain ⟨port, intf, viaIP, after⟩ := configure_eq env s
    have configured : ReceiveFrame s (s.configure env).2 := by
      rw [after]
      exact ⟨rfl, rfl, rfl, rfl, rfl, rfl, .inl ⟨rfl, rfl⟩⟩
    rw [ticks, sendConfigured]
    split
    · exact (configured.trans (.sendTransmitQueue _ _)).ownFrame
    · exact configured.ownFrame
  · rw [ticks]
    exact (ReceiveFrame.sendTransmitQueue env.now s).ownFrame
  · rw [ticks]
    exact refl s

/-- A step that receives nothing leaves the receive side alone. -/
theorem step {input : Input} (own : ∀ segment, input.op ≠ .receive segment) (s : TCPSocket) :
    OwnFrame s (s.step input) := by
  rcases step_eq input s with call | ⟨segment, receives, -⟩ | ⟨-, -, ticks⟩ | ⟨-, -, closes⟩
  · rw [call]
    exact refilled input s
  · exact absurd receives (own segment)
  · rw [ticks]
    exact timerTick _ s
  · rw [closes]
    exact (closed s).trans ((freePort _ _).trans ((destroy rfl).trans (emitOnclose _ _)))

end OwnFrame

section Own

variable {stream : Stream} {received : Set ℕ} {s t : TCPSocket} {edge : Nat}

theorem OwnFrame.delivered (frame : OwnFrame s t) : t.delivered = s.delivered := by
  obtain ⟨more, callbacks, closes⟩ := frame.callbacks
  have quiet : more.flatMap Event.payload = [] := by
    rw [List.flatMap_eq_nil_iff]
    intro event member
    rw [closes event member]
    rfl
  rw [TCPSocket.delivered, callbacks, List.flatMap_append, quiet, List.append_nil,
    TCPSocket.delivered]

theorem Receiving.own (receiving : Receiving stream received s edge) (frame : OwnFrame s t) :
    Receiving stream received t edge where
  bound := receiving.bound
  receiveWindowEdge := frame.receiveWindowEdge.trans receiving.receiveWindowEdge
  receiveWindowSize := frame.receiveWindowSize ▸ receiving.receiveWindowSize
  delivered := fun set => frame.delivered.trans (receiving.delivered (frame.ondata ▸ set))
  queue := by
    rw [frame.receiveWindowSize]
    rcases frame.queue with ⟨kept, -⟩ | ⟨empty, -⟩
    · rw [kept]
      exact receiving.queue
    · simp [empty]
  sound := receiving.sound
  complete := by
    intro open_
    rcases frame.queue with ⟨kept, alive⟩ | ⟨-, closed⟩
    · rw [kept]
      exact receiving.complete (alive open_)
    · exact absurd closed open_

theorem Settled.own (settled : Settled stream s edge) (frame : OwnFrame s t) :
    Settled stream t edge := by
  rcases frame.queue with ⟨kept, -⟩ | ⟨empty, -⟩
  · intro item member
    exact settled item (kept ▸ member)
  · intro item member
    simp [empty] at member

end Own

/-! ## Callbacks -/

/-- Callbacks are appended, and `onend` is none of them. -/
def Quiet (s t : TCPSocket) : Prop :=
  ∃ more, t.callbacks = s.callbacks ++ more ∧ .onend ∉ more

theorem Delivers.quiet {s t : TCPSocket} (delivers : Delivers s t) : Quiet s t := by
  obtain ⟨more, callbacks, data⟩ := delivers.callbacks
  refine ⟨more, callbacks, fun member => ?_⟩
  obtain ⟨u8, event⟩ := data _ member
  cases event

theorem OwnFrame.quiet {s t : TCPSocket} (frame : OwnFrame s t) : Quiet s t := by
  obtain ⟨more, callbacks, closes⟩ := frame.callbacks
  exact ⟨more, callbacks, fun member => by cases closes _ member⟩

theorem Quiet.trans {s t u : TCPSocket} (first : Quiet s t) (second : Quiet t u) : Quiet s u := by
  obtain ⟨more, callbacks, quiet⟩ := first
  obtain ⟨more', callbacks', quiet'⟩ := second
  refine ⟨more ++ more', by rw [callbacks', callbacks, List.append_assoc], ?_⟩
  simp [quiet, quiet']

/-! ## The order of the end -/

section Order

variable {stream : Stream} {s t : TCPSocket}

/-- What comes before the first `onend` is not changed afterwards. -/
theorem deliveredBeforeEnd_of_mem {more : List Event} (member : .onend ∈ s.callbacks)
    (callbacks : t.callbacks = s.callbacks ++ more) :
    t.deliveredBeforeEnd = s.deliveredBeforeEnd := by
  unfold deliveredBeforeEnd
  rw [callbacks, List.takeWhile_append, if_neg]
  intro whole
  have all := (List.takeWhile_prefix (· ≠ Event.onend)).eq_of_length whole
  have other := List.takeWhile_eq_self_iff.mp all _ member
  simp at other

/-- Before the first `onend` comes all that has been delivered. -/
theorem deliveredBeforeEnd_of_first {more : List Event} (first : .onend ∉ s.callbacks)
    (callbacks : t.callbacks = s.callbacks ++ .onend :: more) :
    t.deliveredBeforeEnd = s.delivered := by
  unfold deliveredBeforeEnd delivered
  have others : ∀ event ∈ s.callbacks, decide (event ≠ .onend) = true := by
    intro event member
    rw [decide_eq_true_eq]
    rintro rfl
    exact first member
  rw [callbacks, List.takeWhile_append_of_pos others, List.takeWhile_cons_of_neg (by simp),
    List.append_nil]

/-- What was in order stays in order if the edge does not move on from its last
position. -/
theorem EndInOrder.quiet (order : EndInOrder stream s) (quiet : Quiet s t)
    (edge : s.receiveWindowEdge = stream.finalEdge → t.receiveWindowEdge = stream.finalEdge)
    (state : t.state = .closeWait ∨ t.state = .timeWait → t.state = s.state) :
    EndInOrder stream t := by
  obtain ⟨more, callbacks, silent⟩ := quiet
  have onend : .onend ∈ t.callbacks → .onend ∈ s.callbacks := by
    rw [callbacks, List.mem_append]
    exact fun member => member.resolve_right silent
  constructor
  · rintro (closeWait | timeWait | member)
    · exact edge (order.1 (.inl ((state (.inl closeWait)).symm.trans closeWait)))
    · exact edge (order.1 (.inr (.inl ((state (.inr timeWait)).symm.trans timeWait))))
    · exact edge (order.1 (.inr (.inr (onend member))))
  · intro member
    rw [deliveredBeforeEnd_of_mem (onend member) callbacks]
    exact order.2 (onend member)

theorem changeOnFIN_receiveWindowEdge (now : Nat) (s : TCPSocket) :
    (s.changeOnFIN now).receiveWindowEdge = s.receiveWindowEdge := by
  obtain ⟨time, more, after, -⟩ := changeOnFIN_eq now s
  rw [after]

theorem changeOnFIN_callbacks (now : Nat) (s : TCPSocket) :
    ∃ more, (s.changeOnFIN now).callbacks = s.callbacks ++ more ∧
      (∀ event ∈ more, event = .onend ∨ event = .onclose) ∧
      (.onend ∉ more ∨ ∃ rest, more = .onend :: rest) := by
  obtain ⟨time, more, after, ends, shape⟩ := changeOnFIN_eq now s
  refine ⟨more, ?_, ends, shape⟩
  have scheduled : more.filter Event.isCallback = more := by
    rw [List.filter_eq_self]
    intro event member
    rcases ends event member with rfl | rfl <;> rfl
  rw [after, callbacks, callbacks]
  dsimp only
  rw [List.filter_append, scheduled]

/-- The end is in order if it is noticed with the edge past the FIN. -/
theorem EndInOrder.changeOnFIN (order : EndInOrder stream s)
    (taken : s.state = .established ∨ s.state = .finWait2 →
      s.receiveWindowEdge = stream.finalEdge ∧ s.delivered = stream.bytes) (now : Nat) :
    EndInOrder stream (s.changeOnFIN now) := by
  by_cases changes : s.state = .established ∨ s.state = .finWait2
  · obtain ⟨edge, delivered⟩ := taken changes
    refine ⟨fun _ => (changeOnFIN_receiveWindowEdge now s).trans edge, fun member => ?_⟩
    obtain ⟨more, callbacks, -, shape⟩ := changeOnFIN_callbacks now s
    by_cases known : .onend ∈ s.callbacks
    · rw [deliveredBeforeEnd_of_mem known callbacks]
      exact order.2 known
    · rcases shape with silent | ⟨rest, rfl⟩
      · rw [callbacks, List.mem_append] at member
        exact (member.elim known silent).elim
      · rw [deliveredBeforeEnd_of_first known callbacks]
        exact delivered
  · rw [not_or] at changes
    rw [changeOnFIN_of_other now changes.2 changes.1]
    exact order

end Order

/-! ## Segments -/

section Segments

variable {stream : Stream} {received : Set ℕ} {s : TCPSocket} {edge : Nat} {segment : Segment}
  {offset : Nat}

/-- A socket with an empty reordering queue may be taken to have been given the bytes
it has delivered only. -/
theorem Receiving.emptied (receiving : Receiving stream received s edge)
    (empty : s.receiveQueue = []) (state : State) :
    Receiving stream {position | position < edge} (s.setState state) edge where
  bound := receiving.bound
  receiveWindowEdge := receiving.receiveWindowEdge
  receiveWindowSize := receiving.receiveWindowSize
  delivered := receiving.delivered
  queue := by
    intro item member
    rw [show (s.setState state).receiveQueue = [] from empty] at member
    cases member
  sound := fun _ before => before
  complete := fun _ _ before _ => .inl before

/-- The socket when FIN_WAIT_1 has looked at the acknowledgement. -/
def endAcked (now : Nat) (segment : Segment) (s : TCPSocket) : TCPSocket :=
  let s := s.acceptACK now segment.ackNumber segment.windowSize.toNat
  if s.transmitPosition = segment.ackNumber then s.setState .finWait2 else s

theorem Receiving.endAcked (receiving : Receiving stream received s edge)
    (settled : Settled stream s edge) (alive : s.state ≠ .closed) (now : Nat)
    (segment : Segment) :
    ∃ received', Receiving stream received' (s.endAcked now segment) edge ∧
      Settled stream (s.endAcked now segment) edge := by
  have frame := ReceiveFrame.acceptACK now segment.ackNumber segment.windowSize.toNat s
  have acked := receiving.frame frame
  have settles := settled.frame frame
  unfold TCPSocket.endAcked
  dsimp only
  generalize s.acceptACK now segment.ackNumber segment.windowSize.toNat = t at frame acked settles ⊢
  split
  · rcases frame.queue with ⟨same, -⟩ | ⟨-, empty⟩
    · exact ⟨_, acked.own (.setState (fun _ => same ▸ alive) (by simp)), settles⟩
    · -- A reset has emptied the queue, and FIN_WAIT_2 revives the socket.
      exact ⟨_, acked.emptied empty .finWait2, settles⟩
  · exact ⟨_, acked, settles⟩

/-- The `switch` of `_receive` after the handshake: acknowledgements alone, or the data
path in the states that accept data. -/
theorem receiveSwitch_cases (now : Nat) (segment : Segment)
    (connected : s.state ≠ .synSent ∧ s.state ≠ .synReceived) :
    (OwnFrame s (s.receiveSwitch now segment) ∧
        (s.receiveSwitch now segment).state.receivesData = false) ∨
      (∃ t, s.receiveSwitch now segment = t.receiveData now segment ∧
        ((t = s ∧ (s.state = .established ∨ s.state = .finWait2)) ∨
          (t = s.endAcked now segment ∧ s.state = .finWait1))) := by
  have frame := ReceiveFrame.acceptACK now segment.ackNumber segment.windowSize.toNat s
  unfold receiveSwitch
  cases state : s.state with
  | synSent => exact absurd state connected.1
  | synReceived => exact absurd state connected.2
  | lastAck =>
      refine .inl ?_
      have acked := frame.queue
      dsimp only
      generalize s.acceptACK now segment.ackNumber segment.windowSize.toNat = t at frame acked ⊢
      split
      · refine ⟨frame.ownFrame.trans ((OwnFrame.closed t).trans ((OwnFrame.emitOnclose _ _).trans
          (.destroy (emitIf_state _ _ _)))), ?_⟩
        have closed : ((t.setState .closed).emitIf (t.setState .closed).onclose
            .onclose).destroy.state = .closed := emitIf_state _ _ _
        rw [closed]
        rfl
      · refine ⟨frame.ownFrame, ?_⟩
        rw [state] at acked
        rcases acked with ⟨acked, -⟩ | ⟨acked, -⟩ <;> rw [acked] <;> rfl
  | finWait1 => exact .inr ⟨_, rfl, .inr ⟨rfl, rfl⟩⟩
  | finWait2 => exact .inr ⟨_, rfl, .inl ⟨rfl, .inr rfl⟩⟩
  | established => exact .inr ⟨_, rfl, .inl ⟨rfl, .inl rfl⟩⟩
  | _ => exact .inl ⟨.refl s, by rw [state]; rfl⟩

theorem endAcked_delivers (now : Nat) (segment : Segment) (s : TCPSocket) :
    Delivers s (s.endAcked now segment) := by
  have ⟨size, ondata, onend, onclose, callbacks⟩ :=
    (ReceiveFrame.acceptACK now segment.ackNumber segment.windowSize.toNat s).delivers
  unfold endAcked
  dsimp only
  generalize s.acceptACK now segment.ackNumber segment.windowSize.toNat = t
    at size ondata onend onclose callbacks ⊢
  split
  · exact ⟨size, ondata, onend, onclose, callbacks⟩
  · exact ⟨size, ondata, onend, onclose, callbacks⟩

theorem receiveSwitch_quiet (now : Nat) (segment : Segment)
    (connected : s.state ≠ .synSent ∧ s.state ≠ .synReceived) :
    Quiet s (s.receiveSwitch now segment) := by
  rcases receiveSwitch_cases now segment connected with ⟨own, -⟩ | ⟨t, data, ⟨rfl, -⟩ | ⟨rfl, -⟩⟩
  · exact own.quiet
  · rw [data]
    exact (Delivers.receiveData now segment _).quiet
  · rw [data]
    exact ((endAcked_delivers now segment s).trans (.receiveData now segment _)).quiet

/-- After the `switch` the state is one that a FIN changes only if it was before, or
FIN_WAIT_1 has been left. -/
theorem changedByFIN_of_receiveSwitch {now : Nat}
    (connected : s.state ≠ .synSent ∧ s.state ≠ .synReceived)
    (changes : (s.receiveSwitch now segment).state = .established ∨
      (s.receiveSwitch now segment).state = .finWait2) :
    s.changedByFIN now segment := by
  rcases receiveSwitch_cases now segment connected with ⟨-, others⟩ |
    ⟨t, data, ⟨rfl, state⟩ | ⟨rfl, state⟩⟩
  · rcases changes with changes | changes <;> rw [changes] at others <;> cases others
  · unfold changedByFIN
    rcases state with state | state <;> rw [state]
  · unfold changedByFIN
    rw [state]
    rw [data] at changes
    by_contra unacked
    rw [decide_eq_true_eq] at unacked
    have waiting : s.endAcked now segment =
        s.acceptACK now segment.ackNumber segment.windowSize.toNat := if_neg unacked
    rw [waiting] at changes
    have acked := acceptACK_state now segment.ackNumber segment.windowSize.toNat s
    rw [state] at acked
    rcases receiveData_state now segment (s.acceptACK now segment.ackNumber
      segment.windowSize.toNat) with same | closed
    · rw [same] at changes
      rcases acked with acked | acked <;> simp [acked] at changes
    · simp [closed] at changes

theorem receiveData_of_bare (now : Nat) (bare : segment.isBare) (s : TCPSocket) :
    s.receiveData now segment = s.acceptACK now segment.ackNumber segment.windowSize.toNat := by
  simp only [Segment.isBare, Bool.and_eq_true, decide_eq_true_eq] at bare
  have nothing : (s.acceptACK now segment.ackNumber segment.windowSize.toNat).acceptsData segment =
      false := by
    rw [acceptsData, Bool.and_eq_false_iff, decide_eq_false_iff_not]
    exact .inl (by omega)
  unfold receiveData
  dsimp only
  rw [nothing, if_neg Bool.false_ne_true]

/-- **The data path for a segment of the peer.** -/
theorem Receiving.receiveSent {received : Set ℕ} (receiving : Receiving stream received s edge)
    (settled : Settled stream s edge) (sends : stream.Sends offset segment) (now : Nat) :
    ∃ received' reached, edge ≤ reached ∧
      Receiving stream received' (s.receiveData now segment) reached ∧
      Settled stream (s.receiveData now segment) reached ∧
      (segment.hasFIN → (s.receiveData now segment).state ≠ .closed →
        (offset + segment.data.length ≤ reached ↔
          offset ≤ edge ∧ offset + segment.data.length ≤ edge + s.receiveWindowSize)) := by
  rcases sends with bare | carries
  · have frame := ReceiveFrame.acceptACK now segment.ackNumber segment.windowSize.toNat s
    rw [receiveData_of_bare now bare]
    refine ⟨received, edge, Nat.le_refl _, receiving.frame frame, settled.frame frame, ?_⟩
    intro fin
    simp [Segment.isBare, fin] at bare
  · by_cases closed : (s.receiveData now segment).state = .closed
    · obtain ⟨reached, le, receives, settles, -⟩ := receiving.receiveData settled carries now
      exact ⟨_, reached, le, receives, settles, fun _ alive => absurd closed alive⟩
    · obtain ⟨reached, le, receives, settles, reaches⟩ :=
        receiving.receiveData_reaches settled carries now closed
      exact ⟨_, reached, le, receives, settles, fun _ _ => reaches⟩

/-- **The `switch` of `_receive`** takes in the data of the segment, and in the states
that accept data it reaches the end of a segment with a FIN exactly if there is no
gap. -/
theorem Receiving.receiveSwitch (receiving : Receiving stream received s edge)
    (settled : Settled stream s edge) (sends : stream.Sends offset segment) (now : Nat)
    (connected : s.state ≠ .synSent ∧ s.state ≠ .synReceived) :
    ∃ received' reached, edge ≤ reached ∧
      Receiving stream received' (s.receiveSwitch now segment) reached ∧
      Settled stream (s.receiveSwitch now segment) reached ∧
      (segment.hasFIN → (s.receiveSwitch now segment).state.receivesData →
        (offset + segment.data.length ≤ reached ↔
          offset ≤ edge ∧ offset + segment.data.length ≤ edge + s.receiveWindowSize)) := by
  have alive {state : State} (receives : state.receivesData) : state ≠ .closed := by
    rintro rfl
    cases receives
  rcases receiveSwitch_cases now segment connected with ⟨own, others⟩ |
    ⟨t, eq, ⟨rfl, -⟩ | ⟨rfl, state⟩⟩
  · exact ⟨received, edge, Nat.le_refl _, receiving.own own, settled.own own,
      fun _ changes => by rw [others] at changes; cases changes⟩
  · rw [eq]
    obtain ⟨received', reached, le, receives, settles, reaches⟩ :=
      receiving.receiveSent settled sends now
    exact ⟨received', reached, le, receives, settles, fun fin open_ => reaches fin (alive open_)⟩
  · rw [eq]
    obtain ⟨received', acked, settles⟩ := receiving.endAcked settled (by simp [state]) now segment
    obtain ⟨received', reached, le, receives, settles, reaches⟩ := acked.receiveSent settles sends now
    rw [(endAcked_delivers now segment s).receiveWindowSize] at reaches
    exact ⟨received', reached, le, receives, settles, fun fin open_ => reaches fin (alive open_)⟩

/-- The socket when the FIN of the segment has been inserted, before the state changes. -/
def finInserted (now : Nat) (segment : Segment) (s : TCPSocket) : TCPSocket :=
  (s.receiveSwitch now segment).insertReceiveQueue now (finOf segment)

theorem receive_of_FIN (now : Nat) (fin : segment.hasFIN) (connection : s.state ≠ .listen) :
    s.receive now segment = (s.finInserted now segment).changeOnFIN now := by
  unfold TCPSocket.receive
  rw [if_neg connection]
  dsimp only
  rw [if_pos fin]
  rfl

theorem receive_of_not_FIN (now : Nat) (fin : ¬ segment.hasFIN) (connection : s.state ≠ .listen) :
    s.receive now segment = s.receiveSwitch now segment := by
  unfold TCPSocket.receive
  rw [if_neg connection]
  dsimp only
  rw [if_neg fin]

theorem finInserted_state (now : Nat) (segment : Segment) (s : TCPSocket) :
    (s.finInserted now segment).state = (s.receiveSwitch now segment).state ∨
      (s.finInserted now segment).state = .closed :=
  insertReceiveQueue_state now _ _

theorem receiveSwitch_ondata (now : Nat) (segment : Segment)
    (connected : s.state ≠ .synSent ∧ s.state ≠ .synReceived) :
    (s.receiveSwitch now segment).ondata = s.ondata := by
  rcases receiveSwitch_cases now segment connected with ⟨own, -⟩ | ⟨t, data, ⟨rfl, -⟩ | ⟨rfl, -⟩⟩
  · exact own.ondata
  · rw [data]
    exact (Delivers.receiveData now segment _).ondata
  · rw [data]
    exact ((endAcked_delivers now segment s).trans (.receiveData now segment _)).ondata

theorem finInserted_ondata (now : Nat) (segment : Segment)
    (connected : s.state ≠ .synSent ∧ s.state ≠ .synReceived) :
    (s.finInserted now segment).ondata = s.ondata :=
  (Delivers.insertReceiveQueue now _ _).ondata.trans (receiveSwitch_ondata now segment connected)

theorem receive_ondata (now : Nat) (segment : Segment)
    (connected : s.state ≠ .synSent ∧ s.state ≠ .synReceived) :
    (s.receive now segment).ondata = s.ondata := by
  by_cases listening : s.state = .listen
  · have ignored : s.receive now segment = s := if_pos listening
    rw [ignored]
  by_cases fin : segment.hasFIN
  · obtain ⟨time, more, after, -⟩ := changeOnFIN_eq now (s.finInserted now segment)
    rw [receive_of_FIN now fin listening, after]
    exact finInserted_ondata now segment connected
  · rw [receive_of_not_FIN now fin listening]
    exact receiveSwitch_ondata now segment connected

/-- A FIN that changes the state finds ESTABLISHED or FIN_WAIT_2, unless the
connection is reset on the way. -/
theorem finInserted_state_of_changedByFIN {now : Nat} (changes : s.changedByFIN now segment) :
    (s.finInserted now segment).state = .established ∨
      (s.finInserted now segment).state = .finWait2 ∨
      (s.finInserted now segment).state = .closed := by
  have data {t : TCPSocket} (eq : s.receiveSwitch now segment = t.receiveData now segment)
      (state : t.state = .established ∨ t.state = .finWait2) :
      (s.finInserted now segment).state = .established ∨
        (s.finInserted now segment).state = .finWait2 ∨
        (s.finInserted now segment).state = .closed := by
    rcases finInserted_state now segment s with same | closed
    · rw [same, eq]
      rcases receiveData_state now segment t with same | closed
      · rw [same]
        exact state.imp_right .inl
      · exact .inr (.inr closed)
    · exact .inr (.inr closed)
  unfold changedByFIN at changes
  split at changes
  · next state => exact data (by unfold TCPSocket.receiveSwitch; rw [state]) (.inl state)
  · next state => exact data (by unfold TCPSocket.receiveSwitch; rw [state]) (.inr state)
  · next state =>
      rw [decide_eq_true_eq] at changes
      have acked : s.endAcked now segment = (s.acceptACK now segment.ackNumber
          segment.windowSize.toNat).setState .finWait2 := if_pos changes
      refine data (t := s.endAcked now segment) ?_ (.inr (by rw [acked]; rfl))
      unfold TCPSocket.receiveSwitch
      rw [state]
      rfl
  · cases changes

/-- **The receive side when the state changes**: the edge is past the FIN exactly if
its segment left no gap. -/
theorem Receiving.finInserted (receiving : Receiving stream received s edge)
    (settled : Settled stream s edge) (carries : stream.Carries offset segment)
    (fin : segment.hasFIN) (now : Nat)
    (connected : s.state ≠ .synSent ∧ s.state ≠ .synReceived) :
    ∃ received' reached, edge ≤ reached ∧
      Receiving stream received' (s.finInserted now segment) reached ∧
      Settled stream (s.finInserted now segment) reached ∧
      ((s.finInserted now segment).state.receivesData →
        (reached = stream.bytes.length + 1 ↔
          offset ≤ edge ∧ stream.bytes.length ≤ edge + s.receiveWindowSize)) := by
  obtain ⟨received', middle, le, receives, settles, reaches⟩ :=
    receiving.receiveSwitch settled (.inr carries) now connected
  obtain ⟨reached, le', receives', settles', takes⟩ :=
    receives.insertFIN settles carries fin now
  refine ⟨_, reached, le.trans le', receives', settles', fun changes => ?_⟩
  have same : (s.finInserted now segment).state = (s.receiveSwitch now segment).state := by
    rcases finInserted_state now segment s with same | closed
    · exact same
    · rw [closed] at changes
      cases changes
  rw [same] at changes
  have alive : (s.receiveSwitch now segment).state ≠ .closed := by
    intro closed
    rw [closed] at changes
    cases changes
  rw [takes alive, ← carries.fin fin]
  exact reaches fin changes

theorem Receiving.changeOnFIN (receiving : Receiving stream received s edge) (now : Nat) :
    Receiving stream received (s.changeOnFIN now) edge := by
  have delivered : (s.changeOnFIN now).delivered = s.delivered := by
    obtain ⟨more, callbacks, ends, -⟩ := changeOnFIN_callbacks now s
    have quiet : more.flatMap Event.payload = [] := by
      rw [List.flatMap_eq_nil_iff]
      intro event member
      rcases ends event member with rfl | rfl <;> rfl
    rw [TCPSocket.delivered, callbacks, List.flatMap_append, quiet, List.append_nil,
      TCPSocket.delivered]
  have alive (open_ : s.state.afterFIN ≠ .closed) : s.state ≠ .closed := by
    intro closed
    rw [closed] at open_
    exact open_ rfl
  obtain ⟨time, more, after, -⟩ := changeOnFIN_eq now s
  rw [after] at delivered ⊢
  exact ⟨receiving.bound, receiving.receiveWindowEdge, receiving.receiveWindowSize,
    fun set => delivered.trans (receiving.delivered set), receiving.queue, receiving.sound,
    fun open_ => receiving.complete (alive open_)⟩

theorem Settled.changeOnFIN (settled : Settled stream s edge) (now : Nat) :
    Settled stream (s.changeOnFIN now) edge := by
  obtain ⟨time, more, after, -⟩ := changeOnFIN_eq now s
  rw [after]
  exact settled

end Segments

/-! ## Runs -/

/-- After the handshake, the receive side follows the stream and its end has been
noticed in order. -/
structure Orderly (stream : Stream) (s : TCPSocket) : Prop where
  connected : s.state ≠ .synSent ∧ s.state ≠ .synReceived
  ondata : s.ondata = true
  receiving : ∃ received edge, Receiving stream received s edge ∧ Settled stream s edge
  order : EndInOrder stream s

section Runs

variable {stream : Stream} {s : TCPSocket}

theorem Follows.synchronized {ends : Prop} {before after : State}
    (follows : Follows ends before after)
    (connected : before ≠ .synSent ∧ before ≠ .synReceived) :
    after ≠ .synSent ∧ after ≠ .synReceived := by
  cases follows with
  | stay => exact connected
  | _ => simp

/-- The `switch` of `_receive` and the insertion of a FIN do not notice the end. -/
theorem EndInOrder.receiveSwitch {received received' : Set ℕ} {edge reached : Nat} {now : Nat}
    {segment : Segment} (order : EndInOrder stream s)
    (connected : s.state ≠ .synSent ∧ s.state ≠ .synReceived)
    (before : Receiving stream received s edge)
    (after : Receiving stream received' (s.receiveSwitch now segment) reached)
    (le : edge ≤ reached) : EndInOrder stream (s.receiveSwitch now segment) := by
  refine order.quiet (receiveSwitch_quiet now segment connected) ?_ ?_
  · rw [before.finalEdge_iff, after.finalEdge_iff]
    have bound := after.bound
    omega
  · intro ended
    rcases receiveSwitch_state now segment s with same | closed | ⟨connecting, -⟩ | ⟨-, acked⟩
    · exact same
    · simp [closed] at ended
    · exact (connecting.elim connected.1 connected.2).elim
    · simp [acked] at ended

theorem EndInOrder.finInserted {received received' : Set ℕ} {edge reached : Nat} {now : Nat}
    {segment : Segment} (order : EndInOrder stream s)
    (connected : s.state ≠ .synSent ∧ s.state ≠ .synReceived)
    (before : Receiving stream received s edge)
    (after : Receiving stream received' (s.finInserted now segment) reached)
    (le : edge ≤ reached) : EndInOrder stream (s.finInserted now segment) := by
  refine order.quiet ((receiveSwitch_quiet now segment connected).trans
    (Delivers.insertReceiveQueue now _ _).quiet) ?_ ?_
  · rw [before.finalEdge_iff, after.finalEdge_iff]
    have bound := after.bound
    omega
  · intro ended
    rcases finInserted_state now segment s with same | closed
    · rw [same] at ended ⊢
      rcases receiveSwitch_state now segment s with same | closed | ⟨connecting, -⟩ | ⟨-, acked⟩
      · exact same
      · simp [closed] at ended
      · exact (connecting.elim connected.1 connected.2).elim
      · simp [acked] at ended
    · simp [closed] at ended

/-- A segment whose FIN is in order keeps the end in order. -/
theorem Orderly.receive (orderly : Orderly stream s) {segment : Segment} {env : Env}
    (sends : stream.Sends (stream.offsetOf segment.seqNumber) segment)
    (inOrder : FINInOrder stream s ⟨env, .receive segment⟩) :
    (∃ received edge, Receiving stream received (s.receive env.now segment) edge ∧
        Settled stream (s.receive env.now segment) edge) ∧
      EndInOrder stream (s.receive env.now segment) := by
  obtain ⟨connected, set, ⟨received, edge, receiving, settled⟩, order⟩ := orderly
  by_cases listening : s.state = .listen
  · have ignored : s.receive env.now segment = s := if_pos listening
    rw [ignored]
    exact ⟨⟨received, edge, receiving, settled⟩, order⟩
  by_cases fin : segment.hasFIN
  · rw [receive_of_FIN env.now fin listening]
    obtain ⟨received', reached, le, receives, settles, takes⟩ :=
      receiving.finInserted settled (sends.carries fin) fin env.now connected
    refine ⟨⟨received', reached, receives.changeOnFIN _, settles.changeOnFIN _⟩, ?_⟩
    refine (order.finInserted connected receiving receives le).changeOnFIN (fun changes => ?_) _
    have changed : s.changedByFIN env.now segment := by
      refine changedByFIN_of_receiveSwitch connected ?_
      rcases finInserted_state env.now segment s with same | closed
      · exact same ▸ changes
      · simp [closed] at changes
    have noGap := inOrder fin changed
    rw [receiving.offsetOf_edge] at noGap
    have receivesData : (s.finInserted env.now segment).state.receivesData := by
      rcases changes with changes | changes <;> rw [changes] <;> rfl
    have last := (takes receivesData).mpr noGap
    refine ⟨receives.finalEdge_iff.mpr last, ?_⟩
    rw [receives.delivered ((finInserted_ondata env.now segment connected).trans set), last,
      Stream.slice_all]
  · rw [receive_of_not_FIN env.now fin listening]
    obtain ⟨received', reached, le, receives, settles, -⟩ :=
      receiving.receiveSwitch settled sends env.now connected
    exact ⟨⟨received', reached, receives, settles⟩,
      order.receiveSwitch connected receiving receives le⟩

theorem Orderly.step (orderly : Orderly stream s) {input : Input} (gives : stream.Gives input)
    (inOrder : FINInOrder stream s input) : Orderly stream (s.step input) := by
  have connected := (step_follows input s).synchronized orderly.connected
  by_cases receives : ∃ segment, input.op = .receive segment
  · obtain ⟨segment, op⟩ := receives
    obtain ⟨env, op'⟩ := input
    dsimp only at op
    subst op
    obtain ⟨receiving, order⟩ := orderly.receive gives inOrder
    exact ⟨connected, (receive_ondata env.now segment orderly.connected).trans orderly.ondata,
      receiving, order⟩
  · have frame := OwnFrame.step (fun segment op => receives ⟨segment, op⟩) s
    obtain ⟨received, edge, receiving, settled⟩ := orderly.receiving
    refine ⟨connected, frame.ondata.trans orderly.ondata, ⟨received, edge, receiving.own frame, settled.own frame⟩, ?_⟩
    exact orderly.order.quiet frame.quiet (fun edge => frame.receiveWindowEdge.trans edge)
      frame.ended

/-- A FIN that leaves a gap is noticed out of order, unless the connection is reset. -/
theorem Orderly.inOrder_of_step (orderly : Orderly stream s) {input : Input}
    (gives : stream.Gives input) (alive : (s.step input).state ≠ .closed)
    (order : EndInOrder stream (s.step input)) : FINInOrder stream s input := by
  obtain ⟨env, op⟩ := input
  cases op with
  | receive segment =>
      obtain ⟨connected, -, ⟨received, edge, receiving, settled⟩, -⟩ := orderly
      intro fin changes
      have connection : s.state ≠ .listen := by
        intro listening
        simp [changedByFIN, listening] at changes
      obtain ⟨received', reached, -, receives, -, takes⟩ :=
        receiving.finInserted settled (gives.carries fin) fin env.now connected
      change (s.receive env.now segment).state ≠ .closed at alive
      change EndInOrder stream (s.receive env.now segment) at order
      rw [receive_of_FIN env.now fin connection] at alive order
      rw [changeOnFIN_state] at alive
      have edge_eq := changeOnFIN_receiveWindowEdge env.now (s.finInserted env.now segment)
      have noticed (state : (s.finInserted env.now segment).state = .established ∨
          (s.finInserted env.now segment).state = .finWait2) :
          ((s.finInserted env.now segment).changeOnFIN env.now).state = .closeWait ∨
            ((s.finInserted env.now segment).changeOnFIN env.now).state = .timeWait ∨
            .onend ∈ ((s.finInserted env.now segment).changeOnFIN env.now).callbacks := by
        rw [changeOnFIN_state]
        rcases state with state | state <;> simp [state, State.afterFIN]
      have state : (s.finInserted env.now segment).state = .established ∨
          (s.finInserted env.now segment).state = .finWait2 := by
        rcases finInserted_state_of_changedByFIN changes with state | state | closed
        · exact .inl state
        · exact .inr state
        · rw [closed] at alive
          exact absurd rfl alive
      have final := (order.1 (noticed state)).symm.trans edge_eq
      have receivesData : (s.finInserted env.now segment).state.receivesData := by
        rcases state with state | state <;> rw [state] <;> rfl
      rw [receiving.offsetOf_edge]
      exact (takes receivesData).mp (receives.finalEdge_iff.mp final.symm)
  | _ => trivial

theorem Expects.orderly (expects : Expects stream s) (fresh : .onend ∉ s.callbacks) :
    Orderly stream s where
  connected := by simp [expects.state]
  ondata := expects.ondata
  receiving := ⟨∅, 0, expects.receiving, expects.settled⟩
  order := ⟨by simp [expects.state, fresh], fun member => absurd member fresh⟩

/-- **The end of the peer's stream.** An established socket receives the segments of a
stream in any order while its owner and the timer do anything. If every FIN that
changes the state leaves no gap, then in every state reached CLOSE_WAIT, TIME_WAIT
and `onend` come after the FIN and every byte before it. If the connection is not
closed meanwhile, the condition is necessary as well. -/
theorem peerEnd_exact {inputs : List Input} (expects : Expects stream s)
    (fresh : .onend ∉ s.callbacks) (gives : ∀ input ∈ inputs, stream.Gives input) :
    (Along step (FINInOrder stream) s inputs →
        Along step (fun s input => EndInOrder stream (s.step input)) s inputs) ∧
      (Along step (fun s input => (s.step input).state ≠ .closed) s inputs →
        (Along step (fun s input => EndInOrder stream (s.step input)) s inputs ↔
          Along step (FINInOrder stream) s inputs)) := by
  have given : Along step (fun _ input => stream.Gives input) s inputs := .of_inputs gives
  have start := expects.orderly fresh
  constructor
  · intro inOrder
    exact (given.and inOrder).of_invariant (Orderly stream)
      (fun s input orderly both => orderly.step both.1 both.2)
      (fun s input orderly both => (orderly.step both.1 both.2).order) start
  · intro alive
    refine Along.iff_of_invariant (Orderly stream) ?_ ?_ (given.and alive) start
    · intro s input both orderly
      exact ⟨orderly.inOrder_of_step both.1 both.2, fun inOrder => (orderly.step both.1 inOrder).order⟩
    · intro s input both orderly inOrder
      exact orderly.step both.1 inOrder

/-- Three bytes in two segments, the second one first, then the FIN. -/
theorem peerEnd_exact_reordered :
    let stream : Stream := ⟨[1, 2, 3], 5000, by decide⟩
    let s : TCPSocket :=
      { state := .established, receiveWindowEdge := 5000, ondata := true, onend := true }
    let inputs : List Input :=
      [⟨direct 0, .receive (.ofData flagACK 5001 20000 8192 [2, 3])⟩,
        ⟨direct 0, .receive (.ofData flagACK 5000 20000 8192 [1])⟩,
        ⟨direct 0, .receive (.ofData (flagACK ||| flagFIN) 5003 20000 8192 [])⟩]
    Expects stream s ∧ (∀ input ∈ inputs, stream.Gives input) ∧
      (run step s inputs).state = .closeWait ∧
      Along step (fun s input => EndInOrder stream (s.step input)) s inputs := by
  intro stream s inputs
  have expects : Expects stream s := ⟨rfl, rfl, rfl, rfl, rfl, rfl⟩
  have gives : ∀ input ∈ inputs, stream.Gives input := by decide
  exact ⟨expects, gives, by decide, (peerEnd_exact expects (by decide) gives).1 (by decide)⟩

/-- The FIN arrives before the data: CLOSE_WAIT and `onend` come at once, and the data
is ignored afterwards. -/
theorem peerEnd_early_by_reordered_fin :
    let stream : Stream := ⟨[1, 2, 3], 5000, by decide⟩
    let s : TCPSocket :=
      { state := .established, receiveWindowEdge := 5000, ondata := true, onend := true }
    let inputs : List Input :=
      [⟨direct 0, .receive (.ofData (flagACK ||| flagFIN) 5003 20000 8192 [])⟩,
        ⟨direct 0, .receive (.ofData flagACK 5000 20000 8192 [1, 2, 3])⟩]
    Expects stream s ∧ (∀ input ∈ inputs, stream.Gives input) ∧
      (run step s inputs).state = .closeWait ∧ .onend ∈ (run step s inputs).callbacks ∧
      (run step s inputs).delivered = [] ∧
      ¬ Along step (fun s input => EndInOrder stream (s.step input)) s inputs := by
  intro stream s inputs
  exact ⟨⟨rfl, rfl, rfl, rfl, rfl, rfl⟩, by decide, by decide, by decide, by decide, by decide⟩

end Runs

end TCPSocket

end JsOS.Net.Tcp
