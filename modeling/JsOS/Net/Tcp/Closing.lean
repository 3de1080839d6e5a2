import JsOS.Net.Tcp.OwnEnd
import JsOS.Net.Tcp.PeerEnd

/-! # Closing from both ends

In FIN_WAIT_1 the acknowledgement of the own FIN and the FIN of the peer may arrive
in any order. CLOSING is never entered: a FIN that arrives before the
acknowledgement is taken in and then forgotten. TIME_WAIT is reached exactly when
the peer sends its FIN (again) with or after the first acknowledgement of the own
FIN, and the connection is not reset before (`closing_exact`).
-/

namespace JsOS.Net.Tcp

open Circular Transition

/-- The states of a close begun by the owner. -/
def State.closes : State → Bool
  | .finWait1 | .finWait2 | .timeWait => true
  | _ => false

theorem State.connected_of_closes {state : State} (closes : state.closes) :
    state ≠ .synSent ∧ state ≠ .synReceived := by
  cases state <;> simp [State.closes] at closes ⊢

/-- Some FIN arrives with or after the first acknowledgement of the position. -/
def endsAfterAck (position : Seq) : List Arrival → Bool
  | [] => false
  | arrival :: arrivals =>
      if arrival.segment.ackNumber = position then
        (arrival :: arrivals).any fun arrival => arrival.segment.hasFIN
      else endsAfterAck position arrivals

namespace TCPSocket

/-- A segment of the peer whose FIN, if any, leaves no gap to a position and a window. -/
structure PeerArrival (stream : Stream) (start size : Nat) (arrival : Arrival) : Prop where
  sends : stream.Sends arrival.offset arrival.segment
  inOrder : arrival.segment.hasFIN →
    arrival.offset ≤ start ∧ stream.bytes.length ≤ start + size

instance (stream : Stream) (start size : Nat) (arrival : Arrival) :
    Decidable (PeerArrival stream start size arrival) :=
  decidable_of_iff (stream.Sends arrival.offset arrival.segment ∧
      (arrival.segment.hasFIN → arrival.offset ≤ start ∧ stream.bytes.length ≤ start + size))
    ⟨fun ⟨sends, inOrder⟩ => ⟨sends, inOrder⟩, fun ⟨sends, inOrder⟩ => ⟨sends, inOrder⟩⟩

/-- The receive side follows the stream and has reached a position. -/
def Reached (stream : Stream) (s : TCPSocket) (edge : Nat) : Prop :=
  ∃ received, Receiving stream received s edge ∧ Settled stream s edge

/-- A socket in FIN_WAIT_1 whose FIN has left `_queueTx` and is not acknowledged. -/
structure Closing (stream : Stream) (s : TCPSocket) : Prop where
  state : s.state = .finWait1
  queueTx : s.queueTx = []
  unacked : s.transmitWindowEdge ≠ s.transmitPosition
  reached : ∃ edge, Reached stream s edge
  onend : s.onend = true
  onclose : s.onclose = true
  fresh : s.callbacks.count .onend = 0 ∧ s.callbacks.count .onclose = 0

/-- The connection has been closed from both ends. -/
structure ClosedByBoth (stream : Stream) (s : TCPSocket) : Prop where
  state : s.state = .timeWait
  onend : s.callbacks.count .onend = 1
  onclose : s.callbacks.count .onclose = 1
  receiveWindowEdge : s.receiveWindowEdge = stream.finalEdge

instance (stream : Stream) (s : TCPSocket) : Decidable (ClosedByBoth stream s) :=
  decidable_of_iff (s.state = .timeWait ∧ s.callbacks.count .onend = 1 ∧
      s.callbacks.count .onclose = 1 ∧ s.receiveWindowEdge = stream.finalEdge)
    ⟨fun ⟨state, onend, onclose, edge⟩ => ⟨state, onend, onclose, edge⟩,
      fun ⟨state, onend, onclose, edge⟩ => ⟨state, onend, onclose, edge⟩⟩

/-! ## Acknowledgements with nothing left to send -/

section Idle

variable {s : TCPSocket} {now : Nat} {segment : Segment}

/-- The acknowledgement of everything sent empties `_transmitQueue`. -/
theorem acceptACK_of_all (now : Nat) (windowSize : Nat) (empty : s.queueTx = [])
    (unacked : s.transmitWindowEdge ≠ s.transmitPosition) :
    (s.acceptACK now s.transmitPosition windowSize).state = s.state ∧
      (s.acceptACK now s.transmitPosition windowSize).transmitWindowEdge = s.transmitPosition ∧
      (s.acceptACK now s.transmitPosition windowSize).transmitQueue = [] := by
  have accepts : s.AcceptsACK s.transmitPosition := accepts_of_position rfl unacked
  have idle := acknowledged_transmitQueue (s := s) windowSize rfl
  have frame := TransmitFrame.sendTransmitQueue now (s.acknowledged s.transmitPosition windowSize)
  rw [acceptACK_of_accepts now accepts,
    fillTransmitQueue_of_empty now (s := s.acknowledged s.transmitPosition windowSize) empty]
  exact ⟨frame.state_of_idle idle, frame.transmitWindowEdge, frame.queueFrame.idle idle⟩

end Idle

/-! ## The phases -/

/-- What the phases of the close have in common. -/
structure Ending (stream : Stream) (position : Seq) (start size : Nat) (s : TCPSocket) :
    Prop where
  queueTx : s.queueTx = []
  transmitPosition : s.transmitPosition = position
  receiveWindowSize : s.receiveWindowSize = size
  reached : ∃ edge, start ≤ edge ∧ Reached stream s edge
  onend : s.onend = true
  onclose : s.onclose = true

/-- FIN_WAIT_1: the own FIN is not acknowledged. -/
structure Waiting (stream : Stream) (position : Seq) (start size : Nat) (s : TCPSocket) : Prop
    extends Ending stream position start size s where
  state : s.state = .finWait1
  unacked : s.transmitWindowEdge ≠ position
  fresh : s.callbacks.count .onend = 0 ∧ s.callbacks.count .onclose = 0

/-- Everything sent is acknowledged. -/
structure Acknowledged (s : TCPSocket) : Prop where
  transmitWindowEdge : s.transmitWindowEdge = s.transmitPosition
  transmitQueue : s.transmitQueue = []

/-- FIN_WAIT_2: the own FIN is acknowledged. -/
structure HalfClosed (stream : Stream) (position : Seq) (start size : Nat) (s : TCPSocket) :
    Prop extends Ending stream position start size s, Acknowledged s where
  state : s.state = .finWait2
  fresh : s.callbacks.count .onend = 0 ∧ s.callbacks.count .onclose = 0

/-- TIME_WAIT: both ends are closed. -/
structure BothClosed (stream : Stream) (position : Seq) (start size : Nat) (s : TCPSocket) :
    Prop extends Ending stream position start size s, Acknowledged s where
  done : ClosedByBoth stream s

section Phases

variable {stream : Stream} {position : Seq} {start size : Nat} {s : TCPSocket} {now : Nat}
  {segment : Segment}

theorem Acknowledged.frame {t : TCPSocket} (acknowledged : Acknowledged s)
    (frame : QueueFrame s t) : Acknowledged t where
  transmitWindowEdge := by
    rw [frame.transmitWindowEdge, frame.transmitPosition, acknowledged.transmitWindowEdge]
  transmitQueue := frame.idle acknowledged.transmitQueue

/-- An acknowledgement is old when everything is acknowledged. -/
theorem Acknowledged.acceptACK (acknowledged : Acknowledged s) (now : Nat) (ackNumber : Seq)
    (windowSize : Nat) :
    s.acceptACK now ackNumber windowSize = { s with transmitWindowSize := windowSize } := by
  refine acceptACK_of_not_accepts now ?_ windowSize
  rintro ⟨-, unacked⟩
  simp [isTransmittedUnacked, acknowledged.transmitWindowEdge] at unacked

/-- The data path keeps the state when everything is acknowledged. -/
theorem Acknowledged.receiveData (acknowledged : Acknowledged s) (now : Nat) (segment : Segment) :
    Acknowledged (s.receiveData now segment) ∧ (s.receiveData now segment).state = s.state := by
  have known : Acknowledged { s with transmitWindowSize := segment.windowSize.toNat } :=
    ⟨acknowledged.transmitWindowEdge, acknowledged.transmitQueue⟩
  unfold TCPSocket.receiveData
  rw [acknowledged.acceptACK]
  dsimp only
  generalize inserted : { s with transmitWindowSize := segment.windowSize.toNat } = t at known ⊢
  have state : t.state = s.state := by rw [← inserted]
  split
  · have frame := TransmitFrame.insertReceiveQueue now t
      ⟨segment.seqNumber, segment.dataLength.toNat, some segment.data⟩
    exact ⟨known.frame frame.queueFrame, (frame.state_of_idle known.transmitQueue).trans state⟩
  · exact ⟨known, state⟩

/-- The insertion of a FIN keeps the state when everything is acknowledged. -/
theorem Acknowledged.insertFIN (acknowledged : Acknowledged s) (now : Nat) (segment : Segment) :
    Acknowledged (s.insertReceiveQueue now (finOf segment)) ∧
      (s.insertReceiveQueue now (finOf segment)).state = s.state := by
  have frame := TransmitFrame.insertReceiveQueue now s (finOf segment)
  exact ⟨acknowledged.frame frame.queueFrame, frame.state_of_idle acknowledged.transmitQueue⟩

theorem receiveSwitch_delivers (closes : s.state.closes) (now : Nat) (segment : Segment) :
    Delivers s (s.receiveSwitch now segment) := by
  unfold TCPSocket.receiveSwitch
  cases state : s.state with
  | finWait1 => exact (endAcked_delivers now segment s).trans (.receiveData now segment _)
  | finWait2 => exact .receiveData now segment s
  | timeWait => exact (ReceiveFrame.refl s).delivers
  | _ =>
      rw [state] at closes
      cases closes

theorem Ending.receiveSwitch {offset : Nat} (ending : Ending stream position start size s)
    (closes : s.state.closes) (now : Nat) (sends : stream.Sends offset segment) :
    Ending stream position start size (s.receiveSwitch now segment) := by
  have frame := receiveSwitch_queueFrame now segment s
  obtain ⟨unmoved, empty⟩ := acked_of_empty now segment ending.queueTx
  have delivers := receiveSwitch_delivers closes now segment
  obtain ⟨edge, le, received, receiving, settled⟩ := ending.reached
  obtain ⟨received', reached, le', receives, settles, -⟩ :=
    receiving.receiveSwitch settled sends now (State.connected_of_closes closes)
  exact ⟨frame.empty empty, frame.transmitPosition.trans (unmoved.trans ending.transmitPosition),
    delivers.receiveWindowSize.trans ending.receiveWindowSize,
    ⟨reached, le.trans le', received', receives, settles⟩, delivers.onend.trans ending.onend,
    delivers.onclose.trans ending.onclose⟩

theorem Ending.insertFIN {offset : Nat} (ending : Ending stream position start size s) (now : Nat)
    (carries : stream.Carries offset segment) (fin : segment.hasFIN) :
    Ending stream position start size (s.insertReceiveQueue now (finOf segment)) := by
  have frame := QueueFrame.insertReceiveQueue now s (finOf segment)
  have delivers := Delivers.insertReceiveQueue now s (finOf segment)
  obtain ⟨edge, le, received, receiving, settled⟩ := ending.reached
  obtain ⟨reached, le', receives, settles, -⟩ := receiving.insertFIN settled carries fin now
  exact ⟨frame.empty ending.queueTx, frame.transmitPosition.trans ending.transmitPosition,
    delivers.receiveWindowSize.trans ending.receiveWindowSize,
    ⟨reached, le.trans le', _, receives, settles⟩, delivers.onend.trans ending.onend,
    delivers.onclose.trans ending.onclose⟩

theorem Ending.changeOnFIN (ending : Ending stream position start size s) (now : Nat) :
    Ending stream position start size (s.changeOnFIN now) := by
  obtain ⟨edge, le, received, receiving, settled⟩ := ending.reached
  have reached : ∃ edge, start ≤ edge ∧ Reached stream (s.changeOnFIN now) edge :=
    ⟨edge, le, received, receiving.changeOnFIN now, settled.changeOnFIN now⟩
  obtain ⟨time, more, after, -⟩ := changeOnFIN_eq now s
  rw [after] at reached ⊢
  exact ⟨ending.queueTx, ending.transmitPosition, ending.receiveWindowSize, reached, ending.onend,
    ending.onclose⟩

/-! ## Transitions -/

theorem endAcked_of_position (now : Nat) (waiting : Waiting stream position start size s)
    (acks : segment.ackNumber = position) :
    Acknowledged (s.endAcked now segment) ∧ (s.endAcked now segment).state = .finWait2 := by
  have current : segment.ackNumber = s.transmitPosition := acks.trans waiting.transmitPosition.symm
  have unacked : s.transmitWindowEdge ≠ s.transmitPosition := by
    rw [waiting.transmitPosition]
    exact waiting.unacked
  obtain ⟨-, edge, idle⟩ :=
    acceptACK_of_all now segment.windowSize.toNat waiting.queueTx unacked
  obtain ⟨unmoved, -, -⟩ := acceptACK_of_empty now s.transmitPosition segment.windowSize.toNat
    waiting.queueTx
  unfold endAcked
  rw [current]
  dsimp only
  rw [if_pos unmoved]
  exact ⟨⟨edge.trans unmoved.symm, idle⟩, rfl⟩

/-- The acknowledgement of the own FIN leads to FIN_WAIT_2. -/
theorem Waiting.acked {offset : Nat} (waiting : Waiting stream position start size s)
    (sends : stream.Sends offset segment) (acks : segment.ackNumber = position) :
    HalfClosed stream position start size (s.receiveSwitch now segment) := by
  have closes : s.state.closes := by
    rw [waiting.state]
    rfl
  have delivers := receiveSwitch_delivers closes now segment
  have eq : s.receiveSwitch now segment = (s.endAcked now segment).receiveData now segment := by
    unfold TCPSocket.receiveSwitch
    rw [waiting.state]
    rfl
  obtain ⟨acknowledged, state⟩ := endAcked_of_position now waiting acks
  obtain ⟨acknowledged', state'⟩ := acknowledged.receiveData now segment
  refine ⟨waiting.toEnding.receiveSwitch closes now sends, eq ▸ acknowledged', ?_, ?_⟩
  · rw [eq, state', state]
  · rw [delivers.count_onend, delivers.count_onclose]
    exact waiting.fresh

/-- Before the peer's FIN, FIN_WAIT_2 is kept. -/
theorem HalfClosed.receiveSwitch {offset : Nat} (half : HalfClosed stream position start size s)
    (sends : stream.Sends offset segment) :
    HalfClosed stream position start size (s.receiveSwitch now segment) := by
  have closes : s.state.closes := by
    rw [half.state]
    rfl
  have delivers := receiveSwitch_delivers closes now segment
  have eq : s.receiveSwitch now segment = s.receiveData now segment := by
    unfold TCPSocket.receiveSwitch
    rw [half.state]
  obtain ⟨acknowledged, state⟩ := half.toAcknowledged.receiveData now segment
  refine ⟨half.toEnding.receiveSwitch closes now sends, eq ▸ acknowledged, ?_, ?_⟩
  · rw [eq, state, half.state]
  · rw [delivers.count_onend, delivers.count_onclose]
    exact half.fresh

theorem changeOnFIN_closes (now : Nat) (state : s.state = .finWait2) (onend : s.onend = true)
    (onclose : s.onclose = true) :
    (s.changeOnFIN now).callbacks = s.callbacks ++ [.onend, .onclose] ∧
      (s.changeOnFIN now).state = .timeWait := by
  constructor
  · rw [changeOnFIN_of_finWait2 now state, onend, onclose]
    simp [callbacks, emitIf, emit, enterTimeWait, Event.isCallback]
  · rw [changeOnFIN_state, state]
    rfl

/-- The peer's FIN in FIN_WAIT_2 closes the connection from both ends. -/
theorem HalfClosed.changeOnFIN {t : TCPSocket} {offset : Nat}
    (half : HalfClosed stream position start size s) (carries : stream.Carries offset segment)
    (fin : segment.hasFIN) (inserted : s.insertReceiveQueue now (finOf segment) = t)
    (edge : t.receiveWindowEdge = stream.finalEdge) :
    BothClosed stream position start size (t.changeOnFIN now) := by
  have ending := half.toEnding.insertFIN now carries fin
  have delivers := Delivers.insertReceiveQueue now s (finOf segment)
  obtain ⟨acknowledged, state⟩ := half.toAcknowledged.insertFIN now segment
  rw [inserted] at ending delivers acknowledged state
  obtain ⟨callbacks, closed⟩ := changeOnFIN_closes now (state.trans half.state)
    ending.onend ending.onclose
  refine ⟨ending.changeOnFIN now, acknowledged.frame (changeOnFIN_queueFrame now t), closed,
    ?_, ?_, ?_⟩
  · rw [callbacks, List.count_append, delivers.count_onend, half.fresh.1]
    rfl
  · rw [callbacks, List.count_append, delivers.count_onclose, half.fresh.2]
    rfl
  · exact (changeOnFIN_receiveWindowEdge now t).trans edge

/-! ## Arrivals -/

variable {arrival : Arrival}

/-- A FIN that leaves no gap moves the edge past it. -/
theorem Ending.finInserted_edge (ending : Ending stream position start size s)
    (closes : s.state.closes) (arrives : PeerArrival stream start size arrival)
    (fin : arrival.segment.hasFIN)
    (alive : (s.finInserted arrival.now arrival.segment).state.receivesData) :
    (s.finInserted arrival.now arrival.segment).receiveWindowEdge = stream.finalEdge := by
  obtain ⟨edge, le, received, receiving, settled⟩ := ending.reached
  obtain ⟨received', reached, -, receives, -, takes⟩ := receiving.finInserted settled
    (arrives.sends.carries fin) fin arrival.now (State.connected_of_closes closes)
  obtain ⟨lower, limit⟩ := arrives.inOrder fin
  refine receives.finalEdge_iff.mpr ((takes alive).mpr ⟨by omega, ?_⟩)
  rw [ending.receiveWindowSize]
  omega

theorem finInserted_delivers (closes : s.state.closes) (now : Nat) (segment : Segment) :
    Delivers s (s.finInserted now segment) :=
  (receiveSwitch_delivers closes now segment).trans (.insertReceiveQueue now _ _)

/-- A segment that does not acknowledge the own FIN leaves the socket in FIN_WAIT_1, even
if it carries the peer's FIN. -/
theorem Waiting.early (waiting : Waiting stream position start size s)
    (arrives : PeerArrival stream start size arrival)
    (older : arrival.segment.ackNumber ≠ position)
    (alive : (s.arrive arrival).state ≠ .closed) :
    Waiting stream position start size (s.arrive arrival) := by
  have closes : s.state.closes := by
    rw [waiting.state]
    rfl
  have connected := State.connected_of_closes closes
  have connection : s.state ≠ .listen := by simp [waiting.state]
  obtain ⟨unmoved, -, moved⟩ := acceptACK_of_empty arrival.now arrival.segment.ackNumber
    arrival.segment.windowSize.toNat waiting.queueTx
  have unchanged : ¬ s.changedByFIN arrival.now arrival.segment := by
    unfold changedByFIN
    rw [waiting.state]
    dsimp only
    rw [unmoved, waiting.transmitPosition, decide_eq_true_eq]
    exact older.symm
  have state : (s.receiveSwitch arrival.now arrival.segment).state = .finWait1 ∨
      (s.receiveSwitch arrival.now arrival.segment).state = .closed := by
    rcases receiveSwitch_state arrival.now arrival.segment s with same | closed | ⟨connecting, -⟩ |
      ⟨-, acked⟩
    · exact .inl (same.trans waiting.state)
    · exact .inr closed
    · exact (connecting.elim connected.1 connected.2).elim
    · exact absurd (changedByFIN_of_receiveSwitch connected (.inr acked)) unchanged
  have unacked : (s.arrive arrival).transmitWindowEdge ≠ position := by
    have frame := receive_queueFrame arrival.now arrival.segment s
    have acked : s.acked arrival.now arrival.segment = s.acceptACK arrival.now
        arrival.segment.ackNumber arrival.segment.windowSize.toNat := by
      simp [TCPSocket.acked, handlesACK, waiting.state]
    rw [arrive, frame.transmitWindowEdge, acked]
    rcases moved with moved | moved
    · rw [moved]
      exact older
    · rw [moved]
      exact waiting.unacked
  have switched := waiting.toEnding.receiveSwitch closes arrival.now arrives.sends
  unfold arrive at alive unacked ⊢
  by_cases fin : arrival.segment.hasFIN
  · have inserted : (s.finInserted arrival.now arrival.segment).state = .finWait1 ∨
        (s.finInserted arrival.now arrival.segment).state = .closed := by
      rcases finInserted_state arrival.now arrival.segment s with same | closed
      · rw [same]
        exact state
      · exact .inr closed
    have ignored : (s.finInserted arrival.now arrival.segment).changeOnFIN arrival.now =
        s.finInserted arrival.now arrival.segment := by
      rcases inserted with inserted | inserted <;>
        exact changeOnFIN_of_other _ (by simp [inserted]) (by simp [inserted])
    have delivers := finInserted_delivers closes arrival.now arrival.segment
    rw [receive_of_FIN arrival.now fin connection, ignored] at alive unacked ⊢
    refine ⟨switched.insertFIN arrival.now (arrives.sends.carries fin) fin, inserted.resolve_right alive,
      unacked, ?_⟩
    rw [delivers.count_onend, delivers.count_onclose]
    exact waiting.fresh
  · have delivers := receiveSwitch_delivers closes arrival.now arrival.segment
    rw [receive_of_not_FIN arrival.now fin connection] at alive unacked ⊢
    refine ⟨switched, state.resolve_right alive, unacked, ?_⟩
    rw [delivers.count_onend, delivers.count_onclose]
    exact waiting.fresh

/-- After the acknowledgement of the own FIN a segment leads to TIME_WAIT exactly if it
carries the peer's FIN. -/
theorem arrive_of_halfClosed (ending : Ending stream position start size s)
    (closes : s.state.closes) (connection : s.state ≠ .listen)
    (arrives : PeerArrival stream start size arrival)
    (half : HalfClosed stream position start size
      (s.receiveSwitch arrival.now arrival.segment)) :
    if arrival.segment.hasFIN then BothClosed stream position start size (s.arrive arrival)
      else HalfClosed stream position start size (s.arrive arrival) := by
  unfold arrive
  split
  · next fin =>
      have state : (s.finInserted arrival.now arrival.segment).state = .finWait2 :=
        (half.toAcknowledged.insertFIN arrival.now arrival.segment).2.trans half.state
      rw [receive_of_FIN arrival.now fin connection]
      refine half.changeOnFIN (arrives.sends.carries fin) fin rfl ?_
      refine ending.finInserted_edge closes arrives fin ?_
      rw [state]
      rfl
  · next fin =>
      rw [receive_of_not_FIN arrival.now fin connection]
      exact half

theorem Waiting.arrive (waiting : Waiting stream position start size s)
    (arrives : PeerArrival stream start size arrival)
    (acks : arrival.segment.ackNumber = position) :
    if arrival.segment.hasFIN then BothClosed stream position start size (s.arrive arrival)
      else HalfClosed stream position start size (s.arrive arrival) :=
  arrive_of_halfClosed waiting.toEnding (by rw [waiting.state]; rfl) (by simp [waiting.state])
    arrives (waiting.acked arrives.sends acks)

theorem HalfClosed.arrive (half : HalfClosed stream position start size s)
    (arrives : PeerArrival stream start size arrival) :
    if arrival.segment.hasFIN then BothClosed stream position start size (s.arrive arrival)
      else HalfClosed stream position start size (s.arrive arrival) :=
  arrive_of_halfClosed half.toEnding (by rw [half.state]; rfl) (by simp [half.state])
    arrives (half.receiveSwitch arrives.sends)

/-- TIME_WAIT ignores whatever the peer repeats. -/
theorem BothClosed.arrive (both : BothClosed stream position start size s)
    (arrives : PeerArrival stream start size arrival) :
    BothClosed stream position start size (s.arrive arrival) := by
  have state := both.done.state
  have connection : s.state ≠ .listen := by simp [state]
  have ignored : s.receiveSwitch arrival.now arrival.segment = s := by
    unfold TCPSocket.receiveSwitch
    rw [state]
  unfold TCPSocket.arrive
  by_cases fin : arrival.segment.hasFIN
  · have inserted : s.finInserted arrival.now arrival.segment =
        s.insertReceiveQueue arrival.now (finOf arrival.segment) := by
      rw [finInserted, ignored]
    have ending := both.toEnding.insertFIN arrival.now (arrives.sends.carries fin) fin
    have delivers := Delivers.insertReceiveQueue arrival.now s (finOf arrival.segment)
    obtain ⟨acknowledged, same⟩ := both.toAcknowledged.insertFIN arrival.now arrival.segment
    obtain ⟨edge, -, received, receiving, settled⟩ := both.reached
    obtain ⟨reached, le, receives, -, -⟩ :=
      receiving.insertFIN settled (arrives.sends.carries fin) fin arrival.now
    rw [receive_of_FIN arrival.now fin connection, inserted]
    generalize s.insertReceiveQueue arrival.now (finOf arrival.segment) = t
      at ending delivers acknowledged same receives ⊢
    rw [state] at same
    rw [changeOnFIN_of_other arrival.now (by simp [same]) (by simp [same])]
    refine ⟨ending, acknowledged, same, ?_, ?_, ?_⟩
    · rw [delivers.count_onend, both.done.onend]
    · rw [delivers.count_onclose, both.done.onclose]
    · have final := receiving.finalEdge_iff.mp both.done.receiveWindowEdge
      have bound := receives.bound
      exact receives.finalEdge_iff.mpr (by omega)
  · rw [receive_of_not_FIN arrival.now fin connection, ignored]
    exact both

end Phases

/-! ## Runs -/

/-- The arrival does not leave the connection reset. -/
def StaysOpen (s : TCPSocket) (arrival : Arrival) : Prop := (s.arrive arrival).state ≠ .closed

instance (s : TCPSocket) (arrival : Arrival) : Decidable (StaysOpen s arrival) :=
  inferInstanceAs (Decidable (_ ≠ _))

section Runs

variable {stream : Stream} {position : Seq} {start size : Nat} {s : TCPSocket}
  {arrivals : List Arrival}

/-- A closed socket stays closed. -/
theorem run_of_closed (closed : s.state = .closed) :
    (Transition.run arrive s arrivals).state = .closed := by
  induction arrivals generalizing s with
  | nil => exact closed
  | cons arrival arrivals ih =>
      have follows := receive_follows arrival.now arrival.segment s
      rw [closed] at follows
      have after : (s.receive arrival.now arrival.segment).state = .closed := by
        generalize (s.receive arrival.now arrival.segment).state = state at follows
        cases follows <;> rfl
      exact ih after

theorem BothClosed.run (both : BothClosed stream position start size s)
    (arrive : ∀ arrival ∈ arrivals, PeerArrival stream start size arrival) :
    ClosedByBoth stream (Transition.run TCPSocket.arrive s arrivals) ∧
      Along TCPSocket.arrive StaysOpen s arrivals := by
  induction arrivals generalizing s with
  | nil => exact ⟨both.done, trivial⟩
  | cons arrival arrivals ih =>
      obtain ⟨arrives, later⟩ := List.forall_mem_cons.mp arrive
      have next := both.arrive arrives
      obtain ⟨done, open_⟩ := ih next later
      refine ⟨done, ?_, open_⟩
      rw [StaysOpen, next.done.state]
      simp

theorem HalfClosed.run (half : HalfClosed stream position start size s)
    (arrive : ∀ arrival ∈ arrivals, PeerArrival stream start size arrival) :
    (ClosedByBoth stream (Transition.run TCPSocket.arrive s arrivals) ↔
        arrivals.any fun arrival => arrival.segment.hasFIN) ∧
      Along TCPSocket.arrive StaysOpen s arrivals := by
  induction arrivals generalizing s with
  | nil =>
      refine ⟨⟨fun done => ?_, fun ended => by simp at ended⟩, trivial⟩
      have state := half.state.symm.trans done.state
      cases state
  | cons arrival arrivals ih =>
      obtain ⟨arrives, later⟩ := List.forall_mem_cons.mp arrive
      have next := half.arrive arrives
      rw [List.any_cons]
      by_cases fin : arrival.segment.hasFIN
      · rw [if_pos fin] at next
        obtain ⟨done, open_⟩ := next.run later
        refine ⟨by simp [fin, done], ?_, open_⟩
        rw [StaysOpen, next.done.state]
        simp
      · rw [if_neg fin] at next
        obtain ⟨done, open_⟩ := ih next later
        refine ⟨by simpa [fin] using done, ?_, open_⟩
        rw [StaysOpen, next.state]
        simp

theorem Waiting.run (waiting : Waiting stream position start size s)
    (arrive : ∀ arrival ∈ arrivals, PeerArrival stream start size arrival) :
    ClosedByBoth stream (Transition.run TCPSocket.arrive s arrivals) ↔
      Along TCPSocket.arrive StaysOpen s arrivals ∧ endsAfterAck position arrivals := by
  induction arrivals generalizing s with
  | nil =>
      refine ⟨fun done => ?_, fun ended => by simp [endsAfterAck] at ended⟩
      have state := waiting.state.symm.trans done.state
      cases state
  | cons arrival arrivals ih =>
      obtain ⟨arrives, later⟩ := List.forall_mem_cons.mp arrive
      by_cases acks : arrival.segment.ackNumber = position
      · have next := waiting.arrive arrives acks
        rw [endsAfterAck, if_pos acks, List.any_cons]
        by_cases fin : arrival.segment.hasFIN
        · rw [if_pos fin] at next
          obtain ⟨done, open_⟩ := next.run later
          have stays : StaysOpen s arrival := by
            rw [StaysOpen, next.done.state]
            simp
          simp [fin, done, Along, stays, open_]
        · rw [if_neg fin] at next
          obtain ⟨done, open_⟩ := next.run later
          have stays : StaysOpen s arrival := by
            rw [StaysOpen, next.state]
            simp
          simp [fin, done, Along, stays, open_]
      · rw [endsAfterAck, if_neg acks]
        by_cases stays : StaysOpen s arrival
        · rw [run_cons, ih (waiting.early arrives acks stays) later]
          simp [Along, stays]
        · have closed : (Transition.run TCPSocket.arrive (s.arrive arrival) arrivals).state =
              .closed := run_of_closed (not_ne_iff.mp stays)
          refine ⟨fun done => ?_, fun both => absurd both.1.1 stays⟩
          have state := closed.symm.trans done.state
          cases state

end Runs

/-- A client whose owner closed it right after the handshake. -/
def hungUp : TCPSocket :=
  Transition.run step dialled
    [⟨direct 0, .receive (.ofData (flagSYN ||| flagACK) 4999 20000 8192 [])⟩, ⟨direct 0, .close⟩]

theorem hungUp_closing (bytes : Bytes) (short : bytes.length < 2147483648) :
    Closing ⟨bytes, 5000, short⟩ hungUp where
  state := by decide
  queueTx := by decide
  unacked := by decide
  reached := by
    have empty : hungUp.receiveQueue = [] := by decide
    have edge : hungUp.receiveWindowEdge = 5000 := by decide
    refine ⟨0, ∅, .initial edge (by decide) empty (by decide), ?_⟩
    simp [Settled, empty]
  onend := by decide
  onclose := by decide
  fresh := by decide

end TCPSocket

end JsOS.Net.Tcp
