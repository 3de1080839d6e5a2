import JsOS.Net.Tcp.Frame

/-! # What a step does to the transmit side

A step fills the transmit queue at most once: a repeated acknowledgement changes
nothing (`acceptACK_settled`). `filling` is the socket at that moment, and
`refilled` the socket after it; everything else a step does leaves the peer's
window, the transmit position and the history of pushed items as they are, and
keeps the transmit queues or empties them (`step_queueFrame`). The queues are kept
as long as the connection is not closed (`Kept.step`).
-/

namespace JsOS.Net.Tcp

/-- Whether the event records an item pushed to `_transmitQueue`. -/
def Event.isPush : Event → Bool
  | .push .. => true
  | _ => false

/-- The state after a FIN. -/
def State.afterFIN : State → State
  | .finWait2 => .timeWait
  | .established => .closeWait
  | state => state

/-- The owner ends the connection for writing. -/
def Op.Ends (op : Op) : Prop := op = .halfclose ∨ op = .close

namespace TCPSocket

/-- The pushed items so far, in order, with the peer's window at that moment. -/
def pushes (s : TCPSocket) : List Event := s.events.filter Event.isPush

theorem pushes_eq_landmarks (s : TCPSocket) : s.pushes = s.landmarks.filter Event.isPush := by
  rw [pushes, landmarks, List.filter_filter]
  congr 1
  funext event
  cases event <;> rfl

theorem pushed_eq_pushes (s : TCPSocket) : s.pushed = s.pushes.filterMap Event.pushed? := by
  rw [pushed, pushes, List.filterMap_filter]
  congr 1
  funext event
  cases event <;> rfl

/-- `_configure` assigns at most the port, the interface and the gateway. -/
theorem configure_eq (env : Env) (s : TCPSocket) :
    ∃ port intf viaIP, (s.configure env).2 = { s with port, intf, viaIP } := by
  unfold configure
  split
  · exact ⟨_, _, _, rfl⟩
  · split
    · exact ⟨_, _, _, rfl⟩
    · split
      · exact ⟨_, _, _, rfl⟩
      · split
        · exact ⟨_, _, _, rfl⟩
        · exact ⟨_, _, _, rfl⟩

/-- `_configure`, and sending if there is a route. -/
def sendConfigured (env : Env) (s : TCPSocket) : TCPSocket :=
  if (s.configure env).1 then (s.configure env).2.sendTransmitQueue env.now else (s.configure env).2

theorem sendSYN_eq (env : Env) (isAck : Bool) (s : TCPSocket) :
    s.sendSYN env isAck = sendConfigured env (s.pushTransmit ⟨0, env.now, s.transmitPosition, 1, none,
      if isAck then flagSYN ||| flagACK else flagSYN⟩).incTransmitPosition := by
  unfold sendSYN sendConfigured
  dsimp only
  generalize configure env _ = result
  obtain ⟨reachable, t⟩ := result
  cases reachable with
  | false => rfl
  | true => rfl

/-- **What `_timerTick` does**, depending on the state. -/
theorem timerTick_cases (env : Env) (s : TCPSocket) :
    (s.state = .timeWait ∧ s.timerTick env = (s.setState .closed).destroy) ∨
      ((s.state = .synSent ∨ s.state = .synReceived) ∧ s.timerTick env = s.sendConfigured env) ∨
      ((s.state = .established ∨ s.state = .finWait1) ∧
        s.timerTick env = s.sendTransmitQueue env.now) ∨
      (s.state ≠ .synSent ∧ s.state ≠ .synReceived ∧ s.timerTick env = s) := by
  unfold timerTick
  cases state : s.state with
  | timeWait =>
      dsimp only
      split
      · exact .inl ⟨rfl, rfl⟩
      · exact .inr (.inr (.inr ⟨by decide, by decide, rfl⟩))
  | synSent | synReceived =>
      refine .inr (.inl ⟨by decide, ?_⟩)
      unfold sendConfigured
      dsimp only
      generalize configure env s = result
      obtain ⟨reachable, t⟩ := result
      cases reachable with
      | false => rfl
      | true => rfl
  | established | finWait1 => exact .inr (.inr (.inl ⟨by decide, rfl⟩))
  | closed | listen | finWait2 | closeWait | closing | lastAck =>
      exact .inr (.inr (.inr ⟨by decide, by decide, rfl⟩))

/-- The peer's window, the transmit position and the pushed items are unchanged;
the transmit queues are kept but for the retransmission counts, or emptied. -/
structure QueueFrame (s t : TCPSocket) : Prop where
  transmitWindowEdge : t.transmitWindowEdge = s.transmitWindowEdge
  transmitWindowSize : t.transmitWindowSize = s.transmitWindowSize
  transmitPosition : t.transmitPosition = s.transmitPosition
  bufferedAmount : t.bufferedAmount = s.bufferedAmount
  ondrain : t.ondrain = s.ondrain
  pushes : t.pushes = s.pushes
  queues : (t.queueTx = s.queueTx ∧ t.outstanding = s.outstanding) ∨
    (t.queueTx = [] ∧ t.outstanding = [])

theorem TransmitFrame.queueFrame {s t : TCPSocket} (frame : TransmitFrame s t) :
    QueueFrame s t where
  transmitWindowEdge := frame.transmitWindowEdge
  transmitWindowSize := frame.transmitWindowSize
  transmitPosition := frame.transmitPosition
  bufferedAmount := frame.bufferedAmount
  ondrain := frame.ondrain
  pushes := by rw [pushes_eq_landmarks, frame.landmarks, ← pushes_eq_landmarks]
  queues := by
    rcases frame.queues with ⟨-, kept⟩ | ⟨-, queueTx, outstanding, -⟩
    · exact .inl kept
    · exact .inr ⟨queueTx, outstanding⟩

namespace QueueFrame

theorem refl (s : TCPSocket) : QueueFrame s s := (TransmitFrame.refl s).queueFrame

theorem trans {s t u : TCPSocket} (first : QueueFrame s t) (second : QueueFrame t u) :
    QueueFrame s u where
  transmitWindowEdge := second.transmitWindowEdge.trans first.transmitWindowEdge
  transmitWindowSize := second.transmitWindowSize.trans first.transmitWindowSize
  transmitPosition := second.transmitPosition.trans first.transmitPosition
  bufferedAmount := second.bufferedAmount.trans first.bufferedAmount
  ondrain := second.ondrain.trans first.ondrain
  pushes := second.pushes.trans first.pushes
  queues := by
    rcases second.queues with ⟨queueTx, outstanding⟩ | emptied
    · rw [queueTx, outstanding]
      exact first.queues
    · exact .inr emptied

theorem pushed {s t : TCPSocket} (frame : QueueFrame s t) : t.pushed = s.pushed := by
  rw [pushed_eq_pushes, frame.pushes, ← pushed_eq_pushes]

/-- Nothing in flight stays nothing in flight. -/
theorem idle {s t : TCPSocket} (frame : QueueFrame s t) (idle : s.transmitQueue = []) :
    t.transmitQueue = [] := by
  have none_ : t.outstanding = [] := by
    rcases frame.queues with ⟨-, kept⟩ | ⟨-, emptied⟩
    · rw [kept, outstanding, idle]
      rfl
    · exact emptied
  exact List.map_eq_nil_iff.mp none_

theorem setState (s : TCPSocket) (state : State) : QueueFrame s (s.setState state) :=
  ⟨rfl, rfl, rfl, rfl, rfl, rfl, .inl ⟨rfl, rfl⟩⟩

theorem enterTimeWait (s : TCPSocket) (now : Nat) : QueueFrame s (s.enterTimeWait now) :=
  ⟨rfl, rfl, rfl, rfl, rfl, rfl, .inl ⟨rfl, rfl⟩⟩

theorem emit (s : TCPSocket) {event : Event} (other : event.isPush = false) :
    QueueFrame s (s.emit event) := by
  refine ⟨rfl, rfl, rfl, rfl, rfl, ?_, .inl ⟨rfl, rfl⟩⟩
  simp [TCPSocket.pushes, TCPSocket.emit, other]

/-- A callback that is scheduled if it is set. -/
theorem emitIf (s : TCPSocket) (callback : Bool) {event : Event} (other : event.isPush = false) :
    QueueFrame s (s.emitIf callback event) := by
  unfold TCPSocket.emitIf
  split
  · exact emit s other
  · exact refl s

theorem destroy (s : TCPSocket) : QueueFrame s s.destroy := by
  have emitted : QueueFrame s (s.emit .destroy) := emit s rfl
  exact ⟨rfl, rfl, rfl, rfl, rfl, emitted.pushes, .inr ⟨rfl, rfl⟩⟩

theorem sendTransmitQueue (now : Nat) (s : TCPSocket) :
    QueueFrame s (s.sendTransmitQueue now) :=
  (TransmitFrame.sendTransmitQueue now s).queueFrame

theorem insertReceiveQueue (now : Nat) (s : TCPSocket) (item : ReceiveItem) :
    QueueFrame s (s.insertReceiveQueue now item) :=
  (TransmitFrame.insertReceiveQueue now s item).queueFrame

theorem configure (env : Env) (s : TCPSocket) : QueueFrame s (s.configure env).2 := by
  obtain ⟨port, intf, viaIP, after⟩ := configure_eq env s
  rw [after]
  exact ⟨rfl, rfl, rfl, rfl, rfl, rfl, .inl ⟨rfl, rfl⟩⟩

end QueueFrame

/-! ## Segments -/

@[simp] theorem emitIf_state (s : TCPSocket) (callback : Bool) (event : Event) :
    (s.emitIf callback event).state = s.state := by
  unfold emitIf
  split <;> rfl

theorem changeOnFIN_of_finWait2 (now : Nat) {s : TCPSocket} (state : s.state = .finWait2) :
    s.changeOnFIN now =
      ((s.enterTimeWait now).emitIf s.onend .onend).emitIf s.onclose .onclose := by
  have handler : ((s.enterTimeWait now).emitIf s.onend .onend).onclose = s.onclose := by
    unfold emitIf
    split <;> rfl
  unfold changeOnFIN
  rw [if_pos state]
  dsimp only
  rw [handler]
  exact if_neg (by simp [enterTimeWait])

theorem changeOnFIN_of_established (now : Nat) {s : TCPSocket} (state : s.state = .established) :
    s.changeOnFIN now = (s.setState .closeWait).emitIf s.onend .onend := by
  unfold changeOnFIN
  dsimp only
  rw [if_neg (c := s.state = .finWait2) (by simp [state]), if_pos state]

theorem changeOnFIN_of_other (now : Nat) {s : TCPSocket} (finWait2 : s.state ≠ .finWait2)
    (established : s.state ≠ .established) : s.changeOnFIN now = s := by
  unfold changeOnFIN
  rw [if_neg finWait2, if_neg established]

/-- `_receive` calls `_acceptACK` in this state. -/
def handlesACK (s : TCPSocket) : Bool :=
  match s.state with
  | .synSent | .synReceived | .lastAck | .finWait1 | .finWait2 | .established => true
  | _ => false

/-- The socket after `_receive` has looked at the acknowledgement. -/
def acked (now : Nat) (segment : Segment) (s : TCPSocket) : TCPSocket :=
  if s.handlesACK then s.acceptACK now segment.ackNumber segment.windowSize.toNat else s

theorem receiveData_queueFrame (now : Nat) (segment : Segment) (s : TCPSocket) :
    QueueFrame (s.acceptACK now segment.ackNumber segment.windowSize.toNat)
      (s.receiveData now segment) := by
  unfold receiveData
  dsimp only
  split
  · exact .insertReceiveQueue now _ _
  · exact .refl _

theorem receiveSwitch_queueFrame (now : Nat) (segment : Segment) (s : TCPSocket) :
    QueueFrame (s.acked now segment) (s.receiveSwitch now segment) := by
  unfold receiveSwitch
  split <;> rename_i state
  · rw [acked, handlesACK, state, if_pos rfl]
    dsimp only
    split
    · refine .trans (TransmitFrame.queueFrame ?_) ((QueueFrame.setState _ .established).trans
        (.emitIf _ _ rfl))
      exact .send_after now (.slide _ _)
    · exact .refl _
  · rw [acked, handlesACK, state, if_pos rfl]
    dsimp only
    split
    · exact (QueueFrame.setState _ .established).trans (.emitIf _ _ rfl)
    · exact .refl _
  · rw [acked, handlesACK, state, if_pos rfl]
    dsimp only
    split
    · exact (QueueFrame.setState _ .closed).trans ((QueueFrame.emitIf _ _ rfl).trans (.destroy _))
    · exact .refl _
  · rw [acked, handlesACK, state, if_pos rfl]
    dsimp only
    obtain ⟨rejects, size⟩ :=
      acceptACK_settled now segment.ackNumber segment.windowSize.toNat s
    refine .trans ?_ (receiveData_queueFrame now segment _)
    -- The second `_acceptACK` of FIN_WAIT_1 repeats the first.
    generalize s.acceptACK now segment.ackNumber segment.windowSize.toNat = t at rejects size ⊢
    split
    · rw [acceptACK_of_settled now (s := t.setState .finWait2) rejects size]
      exact .setState t .finWait2
    · rw [acceptACK_of_settled now rejects size]
      exact .refl t
  · rw [acked, handlesACK, state, if_pos rfl]
    exact receiveData_queueFrame now segment s
  · rw [acked, handlesACK, state, if_pos rfl]
    exact receiveData_queueFrame now segment s
  · have ignored : s.handlesACK = false := by
      cases state : s.state <;> simp_all [handlesACK]
    rw [acked, ignored, if_neg Bool.false_ne_true]
    exact .refl s

theorem changeOnFIN_queueFrame (now : Nat) (s : TCPSocket) : QueueFrame s (s.changeOnFIN now) := by
  by_cases finWait2 : s.state = .finWait2
  · rw [changeOnFIN_of_finWait2 now finWait2]
    exact (QueueFrame.enterTimeWait s now).trans ((QueueFrame.emitIf _ _ rfl).trans
      (.emitIf _ _ rfl))
  · by_cases established : s.state = .established
    · rw [changeOnFIN_of_established now established]
      exact (QueueFrame.setState s .closeWait).trans (.emitIf _ _ rfl)
    · rw [changeOnFIN_of_other now finWait2 established]
      exact .refl s

theorem receiveFIN_queueFrame (now : Nat) (segment : Segment) (s : TCPSocket) :
    QueueFrame s (s.receiveFIN now segment) :=
  (QueueFrame.insertReceiveQueue now s _).trans (changeOnFIN_queueFrame now _)

/-- Beyond the acknowledgement, a segment leaves the transmit side alone. -/
theorem receive_queueFrame (now : Nat) (segment : Segment) (s : TCPSocket) :
    QueueFrame (s.acked now segment) (s.receive now segment) := by
  unfold receive
  split
  · next state =>
      rw [acked, handlesACK, state, if_neg (by simp)]
      exact .refl s
  · have switched := receiveSwitch_queueFrame now segment s
    dsimp only
    split
    · exact switched.trans (receiveFIN_queueFrame now segment _)
    · exact switched

/-! ## The rule for `_receive` -/

/-- The relation is kept by each change `_receive` is made of. -/
structure ReceiveStable (now : Nat) (relates : TCPSocket → TCPSocket → Prop) : Prop
    extends FillStable now relates where
  acknowledge : ∀ s ackNumber windowSize, relates s (s.acknowledged ackNumber windowSize)
  window : ∀ s windowSize, relates s { s with transmitWindowSize := windowSize }
  emit : ∀ s event, relates s (s.emit event)
  receiveQueue : ∀ s queue, relates s { s with receiveQueue := queue }
  slide : ∀ s seq, relates s (s.receiveWindowSlideTo seq)
  requireACK : ∀ s, relates s s.requireACK
  setState : ∀ s state, relates s (s.setState state)
  enterTimeWait : ∀ s, relates s (s.enterTimeWait now)
  destroy : ∀ s, relates s s.destroy

namespace ReceiveStable

variable {now : Nat} {relates : TCPSocket → TCPSocket → Prop} (stable : ReceiveStable now relates)

include stable

theorem acceptACK (ackNumber : Seq) (windowSize : Nat) (s : TCPSocket) :
    relates s (s.acceptACK now ackNumber windowSize) := by
  by_cases accepts : s.AcceptsACK ackNumber
  · rw [acceptACK_of_accepts now accepts]
    exact stable.trans (stable.acknowledge s ackNumber windowSize) (stable.fillTransmitQueue _)
  · rw [acceptACK_of_not_accepts now accepts]
    exact stable.window s windowSize

theorem emitIf (s : TCPSocket) (callback : Bool) (event : Event) :
    relates s (s.emitIf callback event) := by
  unfold TCPSocket.emitIf
  split
  · exact stable.emit s event
  · exact stable.refl s

theorem emitData (s : TCPSocket) (u8 : Option Bytes) : relates s (s.emitData u8) := by
  cases u8 with
  | none => exact stable.refl s
  | some u8 => exact stable.emitIf s s.ondata (.ondata u8)

theorem popItems (removed : Nat) (s : TCPSocket) : relates s (s.popItems removed) := by
  induction removed generalizing s with
  | zero => exact stable.refl s
  | succ removed ih =>
      unfold TCPSocket.popItems
      cases s.receiveQueue.getLast? with
      | none => exact ih s
      | some item =>
          exact stable.trans (stable.receiveQueue s _)
            (stable.trans (stable.emitData _ item.u8) (ih _))

/-- Sliding the window, and the acknowledgement of it. -/
theorem sendSlid (s : TCPSocket) (seq : Seq) :
    relates s ((s.receiveWindowSlideTo seq).requireACK.sendTransmitQueue now) :=
  stable.trans (stable.slide s seq) (stable.trans (stable.requireACK _) (stable.send _))

theorem processReceiveQueue (s : TCPSocket) : relates s (s.processReceiveQueue now) := by
  unfold TCPSocket.processReceiveQueue
  dsimp only
  split
  · exact stable.trans (stable.receiveQueue s _)
      (stable.trans (stable.popItems _ _) (stable.sendSlid _ _))
  · exact stable.receiveQueue s _

theorem insertReceiveQueue (s : TCPSocket) (item : ReceiveItem) :
    relates s (s.insertReceiveQueue now item) := by
  unfold TCPSocket.insertReceiveQueue
  dsimp only
  split
  · have fast := stable.trans (stable.emitData s item.u8)
      (stable.sendSlid _ (seqInc item.seq item.len))
    split
    · exact fast
    · exact stable.trans fast (stable.processReceiveQueue _)
  · exact stable.trans (stable.receiveQueue s _) (stable.processReceiveQueue _)

theorem receiveData (segment : Segment) (s : TCPSocket) :
    relates s (s.receiveData now segment) := by
  have acked := stable.acceptACK segment.ackNumber segment.windowSize.toNat s
  unfold TCPSocket.receiveData
  dsimp only
  split
  · exact stable.trans acked (stable.insertReceiveQueue _ _)
  · exact acked

theorem receiveSwitch (segment : Segment) (s : TCPSocket) :
    relates s (s.receiveSwitch now segment) := by
  have acked := stable.acceptACK segment.ackNumber segment.windowSize.toNat s
  unfold TCPSocket.receiveSwitch
  generalize s.acceptACK now segment.ackNumber segment.windowSize.toNat = t at acked ⊢
  cases s.state with
  | synSent =>
      dsimp only
      split
      · have slid : relates t (t.receiveWindowSlideTo segment.seqNumber).receiveWindowSlideInc :=
          stable.trans (stable.slide t _) (stable.slide _ _)
        exact stable.trans acked (stable.trans slid (stable.trans (stable.requireACK _)
          (stable.trans (stable.send _) (stable.trans (stable.setState _ .established)
            (stable.emitIf _ _ _)))))
      · exact acked
  | synReceived =>
      dsimp only
      split
      · exact stable.trans acked (stable.trans (stable.setState t .established)
          (stable.emitIf _ _ _))
      · exact acked
  | lastAck =>
      dsimp only
      split
      · exact stable.trans acked (stable.trans (stable.setState t .closed)
          (stable.trans (stable.emitIf _ _ _) (stable.destroy _)))
      · exact acked
  | finWait1 =>
      dsimp only
      refine stable.trans acked (stable.trans ?_ (stable.receiveData segment _))
      split
      · exact stable.setState t .finWait2
      · exact stable.refl t
  | finWait2 | established => exact stable.receiveData segment s
  | closed | listen | closeWait | closing | timeWait => exact stable.refl s

theorem changeOnFIN (s : TCPSocket) : relates s (s.changeOnFIN now) := by
  by_cases finWait2 : s.state = .finWait2
  · rw [changeOnFIN_of_finWait2 now finWait2]
    exact stable.trans (stable.enterTimeWait s)
      (stable.trans (stable.emitIf _ _ _) (stable.emitIf _ _ _))
  · by_cases established : s.state = .established
    · rw [changeOnFIN_of_established now established]
      exact stable.trans (stable.setState s .closeWait) (stable.emitIf _ _ _)
    · rw [changeOnFIN_of_other now finWait2 established]
      exact stable.refl s

theorem receive (segment : Segment) (s : TCPSocket) : relates s (s.receive now segment) := by
  have switched := stable.receiveSwitch segment s
  unfold TCPSocket.receive
  split
  · exact stable.refl s
  · dsimp only
    split
    · exact stable.trans switched (stable.trans (stable.insertReceiveQueue _ _)
        (stable.changeOnFIN _))
    · exact switched

end ReceiveStable

/-- With nothing left to send, an acknowledgement moves the edge at most. -/
theorem acceptACK_of_empty (now : Nat) (ackNumber : Seq) (windowSize : Nat)
    {s : TCPSocket} (empty : s.queueTx = []) :
    (s.acceptACK now ackNumber windowSize).transmitPosition = s.transmitPosition ∧
      (s.acceptACK now ackNumber windowSize).queueTx = [] ∧
      ((s.acceptACK now ackNumber windowSize).transmitWindowEdge = ackNumber ∨
        (s.acceptACK now ackNumber windowSize).transmitWindowEdge = s.transmitWindowEdge) := by
  by_cases accepts : s.AcceptsACK ackNumber
  · have frame := TransmitFrame.sendTransmitQueue now (s.acknowledged ackNumber windowSize)
    rw [acceptACK_of_accepts now accepts,
      fillTransmitQueue_of_empty now (s := s.acknowledged ackNumber windowSize) empty]
    refine ⟨frame.transmitPosition, ?_, .inl frame.transmitWindowEdge⟩
    rcases frame.queues with ⟨-, queue, -⟩ | ⟨-, queue, -⟩
    · exact queue.trans empty
    · exact queue
  · rw [acceptACK_of_not_accepts now accepts]
    exact ⟨rfl, empty, .inr rfl⟩

theorem acked_of_empty (now : Nat) (segment : Segment) {s : TCPSocket}
    (empty : s.queueTx = []) :
    (s.acked now segment).transmitPosition = s.transmitPosition ∧
      (s.acked now segment).queueTx = [] := by
  obtain ⟨position, queue, -⟩ :=
    acceptACK_of_empty now segment.ackNumber segment.windowSize.toNat empty
  unfold acked
  split
  · exact ⟨position, queue⟩
  · exact ⟨rfl, empty⟩

theorem QueueFrame.empty {s t : TCPSocket} (frame : QueueFrame s t) (empty : s.queueTx = []) :
    t.queueTx = [] := by
  rcases frame.queues with ⟨kept, -⟩ | ⟨emptied, -⟩
  · exact kept.trans empty
  · exact emptied

/-! ## Steps -/

/-- The socket when `close` or `halfclose` calls `_fillTransmitQueue`. -/
def ending? (s : TCPSocket) : Option TCPSocket :=
  match s.state with
  | .established => some (s.queueEnd .finWait1)
  | .closeWait => some (s.queueEnd .lastAck)
  | _ => none

/-- The socket when the step calls `_fillTransmitQueue`, if it does. -/
def filling (s : TCPSocket) (op : Op) : Option TCPSocket :=
  match op with
  | .send u8 => if s.canSend then some (s.enqueue u8) else none
  | .halfclose | .close => s.ending?
  | .receive segment =>
      if s.handlesACK ∧ s.AcceptsACK segment.ackNumber then
        some (s.acknowledged segment.ackNumber segment.windowSize.toNat)
      else none
  | .timerTick => none

/-- The socket after a step that does not call `_fillTransmitQueue`: at most the
size of the peer's window is assigned. -/
def unfilled (s : TCPSocket) (op : Op) : TCPSocket :=
  match op with
  | .receive segment =>
      if s.handlesACK then { s with transmitWindowSize := segment.windowSize.toNat } else s
  | _ => s

/-- The transmit side after a step, without `ondrain`. -/
def transmitted (s : TCPSocket) (input : Input) : TCPSocket :=
  match s.filling input.op with
  | some t => t.afterFill (t.fillResult input.env.now)
  | none => s.unfilled input.op

theorem transmitted_of_filling {s t : TCPSocket} {input : Input}
    (fills : s.filling input.op = some t) :
    s.transmitted input = t.afterFill (t.fillResult input.env.now) := by
  rw [transmitted, fills]

/-- The socket after the call of `_fillTransmitQueue` in a step. -/
def refilled (s : TCPSocket) (input : Input) : TCPSocket :=
  ((s.filling input.op).map (fillTransmitQueue input.env.now)).getD (s.unfilled input.op)

theorem ending?_ondrain {s t : TCPSocket} (ends : s.ending? = some t) :
    t.ondrain = s.ondrain := by
  unfold ending? at ends
  split at ends <;> cases ends <;> rfl

theorem filling_ondrain {s t : TCPSocket} {op : Op} (fills : s.filling op = some t) :
    t.ondrain = s.ondrain := by
  cases op with
  | send u8 =>
      obtain ⟨-, ⟨⟩⟩ := Option.ite_none_right_eq_some.mp fills
      rfl
  | halfclose => exact ending?_ondrain fills
  | close => exact ending?_ondrain fills
  | receive segment =>
      obtain ⟨-, ⟨⟩⟩ := Option.ite_none_right_eq_some.mp fills
      rfl
  | timerTick => cases fills

theorem refilled_frame (input : Input) {s : TCPSocket} (unset : s.ondrain = none) :
    TransmitFrame (s.transmitted input) (s.refilled input) := by
  unfold transmitted refilled
  cases fills : s.filling input.op with
  | none => exact .refl _
  | some t =>
      dsimp only [Option.map_some, Option.getD_some]
      rw [fillTransmitQueue_eq _ ((filling_ondrain fills).trans unset)]
      exact .sendTransmitQueue _ _

theorem acked_eq_refilled (env : Env) (segment : Segment) (s : TCPSocket) :
    s.acked env.now segment = s.refilled ⟨env, .receive segment⟩ := by
  unfold acked refilled filling unfilled
  by_cases handles : s.handlesACK
  · by_cases accepts : s.AcceptsACK segment.ackNumber
    · simp only [handles, accepts, and_self, ↓reduceIte, acceptACK_of_accepts, Option.map_some,
        Option.getD_some]
    · simp only [handles, accepts, and_false, ↓reduceIte, acceptACK_of_not_accepts,
        not_false_eq_true, Option.map_none, Option.getD_none]
  · simp only [handles, Bool.false_eq_true, false_and, ↓reduceIte, Option.map_none,
      Option.getD_none]

theorem halfclose_eq (now : Nat) (s : TCPSocket) :
    s.orUnchanged (s.halfclose now) = (s.ending?.map (fillTransmitQueue now)).getD s := by
  unfold halfclose ending?
  cases s.state <;> rfl

/-- What a step is: the refill alone for a call on a connection, otherwise the
refill followed by what is left of the segment, or the timer. -/
theorem step_eq (input : Input) (s : TCPSocket) :
    (s.step input = s.refilled input) ∨
      (∃ segment, input.op = .receive segment ∧
        s.refilled input = s.acked input.env.now segment ∧
        s.step input = s.receive input.env.now segment) ∨
      (input.op = .timerTick ∧ s.refilled input = s ∧ s.step input = s.timerTick input.env) ∨
      (s.state = .listen ∧ s.refilled input = s ∧ s.step input =
        (((s.setState .closed).emit (.freePort s.port)).destroy).emitIf s.onclose .onclose) := by
  obtain ⟨env, op⟩ := input
  cases op with
  | send u8 =>
      refine .inl ?_
      unfold step refilled filling send
      dsimp only
      split <;> rfl
  | halfclose => exact .inl (halfclose_eq env.now s)
  | close =>
      by_cases listening : s.state = .listen
      · refine .inr (.inr (.inr ⟨listening, ?_, ?_⟩))
        · simp only [refilled, filling, ending?, listening, unfilled, Option.map_none,
            Option.getD_none]
        · unfold step close
          dsimp only
          rw [if_pos listening]
          rfl
      · refine .inl ?_
        unfold step close
        dsimp only
        rw [if_neg listening]
        exact halfclose_eq env.now s
  | receive segment => exact .inr (.inl ⟨segment, rfl, (acked_eq_refilled env segment s).symm, rfl⟩)
  | timerTick => exact .inr (.inr (.inl ⟨rfl, rfl, rfl⟩))

theorem timerTick_queueFrame (env : Env) (s : TCPSocket) : QueueFrame s (s.timerTick env) := by
  rcases timerTick_cases env s with ⟨-, ticks⟩ | ⟨-, ticks⟩ | ⟨-, ticks⟩ | ⟨-, -, ticks⟩
  · rw [ticks]
    exact (QueueFrame.setState s .closed).trans (.destroy _)
  · rw [ticks, sendConfigured]
    split
    · exact (QueueFrame.configure env s).trans (.sendTransmitQueue _ _)
    · exact .configure env s
  · rw [ticks]
    exact .sendTransmitQueue _ s
  · rw [ticks]
    exact .refl s

/-- **What a step does to the transmit side.** -/
theorem step_queueFrame (input : Input) (s : TCPSocket) :
    QueueFrame (s.refilled input) (s.step input) := by
  rcases step_eq input s with call | ⟨segment, -, acked, receives⟩ | ⟨-, same, ticks⟩ |
    ⟨-, same, closes⟩
  · rw [call]
    exact .refl _
  · rw [acked, receives]
    exact receive_queueFrame _ segment s
  · rw [same, ticks]
    exact timerTick_queueFrame _ s
  · rw [same, closes]
    exact (QueueFrame.setState s .closed).trans ((QueueFrame.emit _ rfl).trans
      ((QueueFrame.destroy _).trans (.emitIf _ _ rfl)))

/-! ## States -/

/-- The changes of state one step can make, where `ends` says whether the owner
calls `halfclose` or `close`. A segment that also carries a FIN makes two changes
at once. -/
inductive Follows (ends : Prop) : State → State → Prop where
  | stay (state : State) : Follows ends state state
  | closed (state : State) : Follows ends state .closed
  | connected : Follows ends .synSent .established
  | connectedEnded : Follows ends .synSent .closeWait
  | accepted : Follows ends .synReceived .established
  | acceptedEnded : Follows ends .synReceived .closeWait
  | peerEnded : Follows ends .established .closeWait
  | halfclosed (closes : ends) : Follows ends .established .finWait1
  | bothEnded (closes : ends) : Follows ends .closeWait .lastAck
  | ackedEnd : Follows ends .finWait1 .finWait2
  | ackedPeerEnded : Follows ends .finWait1 .timeWait
  | finished : Follows ends .finWait2 .timeWait

theorem Follows.mono {ends ends' : Prop} {before after : State}
    (follows : Follows ends before after) (weaken : ends → ends') :
    Follows ends' before after := by
  cases follows with
  | halfclosed closes => exact .halfclosed (weaken closes)
  | bothEnded closes => exact .bothEnded (weaken closes)
  | _ => constructor

theorem fillTransmitQueue_state (now : Nat) (s : TCPSocket) :
    (s.fillTransmitQueue now).state = s.state ∨ (s.fillTransmitQueue now).state = .closed :=
  (ReceiveFrame.fillTransmitQueue now s).queue.imp And.left And.left

theorem acceptACK_state (now : Nat) (ackNumber : Seq) (windowSize : Nat) (s : TCPSocket) :
    (s.acceptACK now ackNumber windowSize).state = s.state ∨
      (s.acceptACK now ackNumber windowSize).state = .closed :=
  (ReceiveFrame.acceptACK now ackNumber windowSize s).queue.imp And.left And.left

theorem insertReceiveQueue_state (now : Nat) (s : TCPSocket) (item : ReceiveItem) :
    (s.insertReceiveQueue now item).state = s.state ∨
      (s.insertReceiveQueue now item).state = .closed :=
  (TransmitFrame.insertReceiveQueue now s item).queues.imp And.left And.left

theorem receiveData_state (now : Nat) (segment : Segment) (s : TCPSocket) :
    (s.receiveData now segment).state = s.state ∨
      (s.receiveData now segment).state = .closed := by
  have acked := acceptACK_state now segment.ackNumber segment.windowSize.toNat s
  unfold receiveData
  dsimp only
  split
  · rcases insertReceiveQueue_state now (s.acceptACK now segment.ackNumber
      segment.windowSize.toNat) ⟨segment.seqNumber, segment.dataLength.toNat, some segment.data⟩
      with same | closed
    · rw [same]
      exact acked
    · exact .inr closed
  · exact acked

/-- The changes of state the `switch` of `_receive` can make. -/
theorem receiveSwitch_state (now : Nat) (segment : Segment) (s : TCPSocket) :
    (s.receiveSwitch now segment).state = s.state ∨
      (s.receiveSwitch now segment).state = .closed ∨
      ((s.state = .synSent ∨ s.state = .synReceived) ∧
        (s.receiveSwitch now segment).state = .established) ∨
      (s.state = .finWait1 ∧ (s.receiveSwitch now segment).state = .finWait2) := by
  have acked := acceptACK_state now segment.ackNumber segment.windowSize.toNat s
  have data := receiveData_state now segment s
  unfold receiveSwitch
  cases state : s.state with
  | synSent =>
      rw [state] at acked
      dsimp only
      split
      · exact .inr (.inr (.inl ⟨.inl rfl, by simp [setState]⟩))
      · exact acked.imp_right .inl
  | synReceived =>
      rw [state] at acked
      dsimp only
      split
      · exact .inr (.inr (.inl ⟨.inr rfl, by simp [setState]⟩))
      · exact acked.imp_right .inl
  | lastAck =>
      rw [state] at acked
      dsimp only
      split
      · refine .inr (.inl ?_)
        exact emitIf_state (setState _ .closed) _ .onclose
      · exact acked.imp_right .inl
  | finWait1 =>
      rw [state] at acked
      dsimp only
      split
      · rcases receiveData_state now segment ((s.acceptACK now segment.ackNumber
          segment.windowSize.toNat).setState .finWait2) with same | closed
        · exact .inr (.inr (.inr ⟨rfl, same⟩))
        · exact .inr (.inl closed)
      · rcases receiveData_state now segment (s.acceptACK now segment.ackNumber
          segment.windowSize.toNat) with same | closed
        · rw [same]
          exact acked.imp_right .inl
        · exact .inr (.inl closed)
  | finWait2 =>
      rw [state] at data
      exact data.imp_right .inl
  | established =>
      rw [state] at data
      exact data.imp_right .inl
  | closed | listen | closeWait | closing | timeWait => exact .inl state

theorem changeOnFIN_state (now : Nat) (s : TCPSocket) :
    (s.changeOnFIN now).state = s.state.afterFIN := by
  by_cases finWait2 : s.state = .finWait2
  · rw [changeOnFIN_of_finWait2 now finWait2, emitIf_state, emitIf_state, finWait2]
    rfl
  · by_cases established : s.state = .established
    · rw [changeOnFIN_of_established now established, emitIf_state, established]
      rfl
    · rw [changeOnFIN_of_other now finWait2 established]
      cases state : s.state with
      | finWait2 => exact absurd state finWait2
      | established => exact absurd state established
      | _ => rfl

theorem emitIf_eq (s : TCPSocket) (callback : Bool) (event : Event) :
    s.emitIf callback event =
      { s with events := s.events ++ if callback then [event] else [] } := by
  cases callback with
  | false => simp [emitIf]
  | true => rfl

/-- A FIN changes the state and schedules `onend` before `onclose`. -/
theorem changeOnFIN_eq (now : Nat) (s : TCPSocket) :
    ∃ time more, s.changeOnFIN now = { s with
        state := s.state.afterFIN, timeWaitTime := time, events := s.events ++ more } ∧
      (∀ event ∈ more, event = .onend ∨ event = .onclose) ∧
      (.onend ∉ more ∨ ∃ rest, more = .onend :: rest) := by
  by_cases finWait2 : s.state = .finWait2
  · refine ⟨now, (if s.onend then [.onend] else []) ++ (if s.onclose then [.onclose] else []),
      ?_, ?_, ?_⟩
    · rw [changeOnFIN_of_finWait2 now finWait2, emitIf_eq, emitIf_eq, finWait2, List.append_assoc]
      rfl
    · cases s.onend <;> cases s.onclose <;> simp
    · cases s.onend <;> cases s.onclose <;> simp
  · by_cases established : s.state = .established
    · refine ⟨s.timeWaitTime, if s.onend then [.onend] else [], ?_, ?_, ?_⟩
      · rw [changeOnFIN_of_established now established, emitIf_eq, established]
        rfl
      · cases s.onend <;> simp
      · cases s.onend <;> simp
    · refine ⟨s.timeWaitTime, [], ?_, by simp, .inl (by simp)⟩
      have same : s.state.afterFIN = s.state := by
        rw [← changeOnFIN_state now s, changeOnFIN_of_other now finWait2 established]
      rw [changeOnFIN_of_other now finWait2 established, same, List.append_nil]

theorem receiveFIN_state (now : Nat) (segment : Segment) (s : TCPSocket) :
    (s.receiveFIN now segment).state = s.state.afterFIN ∨
      (s.receiveFIN now segment).state = .closed := by
  unfold receiveFIN
  rw [changeOnFIN_state]
  rcases insertReceiveQueue_state now s ⟨seqInc segment.seqNumber segment.dataLength, 1, none⟩
    with same | closed
  · rw [same]
    exact .inl rfl
  · rw [closed]
    exact .inr rfl

theorem receive_follows (now : Nat) (segment : Segment) (s : TCPSocket) :
    Follows False s.state (s.receive now segment).state := by
  have ended {state : State} (follows : Follows False s.state state)
      (followsFIN : Follows False s.state state.afterFIN)
      (switched : (s.receiveSwitch now segment).state = state) :
      Follows False s.state (if segment.hasFIN then
        (s.receiveSwitch now segment).receiveFIN now segment
        else s.receiveSwitch now segment).state := by
    split
    · rcases receiveFIN_state now segment (s.receiveSwitch now segment) with after | closed
      · rw [after, switched]
        exact followsFIN
      · rw [closed]
        exact .closed _
    · rw [switched]
      exact follows
  unfold receive
  split
  · exact .stay _
  · rcases receiveSwitch_state now segment s with same | closed | ⟨connecting, established⟩ |
      ⟨waiting, acked⟩
    · refine ended (.stay _) ?_ same
      cases s.state with
      | finWait2 => exact .finished
      | established => exact .peerEnded
      | _ => exact .stay _
    · exact ended (.closed _) (.closed _) closed
    · rcases connecting with state | state
      · rw [state] at ended ⊢
        exact ended .connected .connectedEnded established
      · rw [state] at ended ⊢
        exact ended .accepted .acceptedEnded established
    · rw [waiting] at ended ⊢
      exact ended .ackedEnd .ackedPeerEnded acked

theorem timerTick_state (env : Env) (s : TCPSocket) :
    (s.timerTick env).state = s.state ∨ (s.timerTick env).state = .closed := by
  have sends (t : TCPSocket) : (t.sendTransmitQueue env.now).state = t.state ∨
      (t.sendTransmitQueue env.now).state = .closed :=
    (ReceiveFrame.sendTransmitQueue env.now t).queue.imp And.left And.left
  rcases timerTick_cases env s with ⟨-, ticks⟩ | ⟨-, ticks⟩ | ⟨-, ticks⟩ | ⟨-, -, ticks⟩
  · rw [ticks]
    exact .inr rfl
  · have configured : (s.configure env).2.state = s.state := by
      obtain ⟨port, intf, viaIP, after⟩ := configure_eq env s
      rw [after]
    rw [ticks, sendConfigured]
    split
    · rw [← configured]
      exact sends _
    · exact .inl configured
  · rw [ticks]
    exact sends s
  · rw [ticks]
    exact .inl rfl

theorem timerTick_follows (env : Env) (s : TCPSocket) :
    Follows False s.state (s.timerTick env).state := by
  rcases timerTick_state env s with same | closed
  · rw [same]
    exact .stay _
  · rw [closed]
    exact .closed _

/-- The state in which a step fills the transmit queue. -/
theorem filling_state {op : Op} {s t : TCPSocket} (fills : s.filling op = some t) :
    t.state = s.state ∨ (op.Ends ∧ s.state = .established ∧ t.state = .finWait1) ∨
      (op.Ends ∧ s.state = .closeWait ∧ t.state = .lastAck) := by
  have ended (closes : op.Ends) (ends : s.ending? = some t) :
      t.state = s.state ∨ (op.Ends ∧ s.state = .established ∧ t.state = .finWait1) ∨
        (op.Ends ∧ s.state = .closeWait ∧ t.state = .lastAck) := by
    unfold ending? at ends
    cases state : s.state with
    | established =>
        rw [state] at ends
        cases ends
        exact .inr (.inl ⟨closes, rfl, rfl⟩)
    | closeWait =>
        rw [state] at ends
        cases ends
        exact .inr (.inr ⟨closes, rfl, rfl⟩)
    | _ =>
        rw [state] at ends
        cases ends
  cases op with
  | send u8 =>
      obtain ⟨-, ⟨⟩⟩ := Option.ite_none_right_eq_some.mp fills
      exact .inl rfl
  | halfclose => exact ended (.inl rfl) fills
  | close => exact ended (.inr rfl) fills
  | receive segment =>
      obtain ⟨-, ⟨⟩⟩ := Option.ite_none_right_eq_some.mp fills
      exact .inl rfl
  | timerTick => cases fills

theorem filling_follows {op : Op} {s t : TCPSocket} (fills : s.filling op = some t) :
    Follows op.Ends s.state t.state := by
  rcases filling_state fills with same | ⟨closes, before, after⟩ | ⟨closes, before, after⟩
  · rw [same]
    exact .stay _
  · rw [before, after]
    exact .halfclosed closes
  · rw [before, after]
    exact .bothEnded closes

theorem unfilled_state (s : TCPSocket) (op : Op) : (s.unfilled op).state = s.state := by
  unfold unfilled
  split
  · split <;> rfl
  · rfl

theorem refilled_follows (input : Input) (s : TCPSocket) :
    Follows input.op.Ends s.state (s.refilled input).state := by
  unfold refilled
  cases fills : s.filling input.op with
  | none =>
      dsimp only [Option.map_none, Option.getD_none]
      rw [unfilled_state]
      exact .stay _
  | some t =>
      dsimp only [Option.map_some, Option.getD_some]
      rcases fillTransmitQueue_state input.env.now t with same | closed
      · rw [same]
        exact filling_follows fills
      · rw [closed]
        exact .closed _

/-- **The state machine of a connection.** -/
theorem step_follows (input : Input) (s : TCPSocket) :
    Follows input.op.Ends s.state (s.step input).state := by
  rcases step_eq input s with call | ⟨segment, -, -, receives⟩ | ⟨-, -, ticks⟩ | ⟨-, -, closes⟩
  · rw [call]
    exact refilled_follows input s
  · rw [receives]
    exact (receive_follows _ segment s).mono False.elim
  · rw [ticks]
    exact (timerTick_follows _ s).mono False.elim
  · rw [closes, emitIf_state]
    exact .closed _

/-! ## Connections that stay alive -/

/-- If the socket is not closed afterwards, it was not closed before and its transmit
queues are the same. -/
def Kept (s t : TCPSocket) : Prop :=
  t.state ≠ .closed →
    s.state ≠ .closed ∧ t.queueTx = s.queueTx ∧ t.outstanding = s.outstanding

theorem TransmitFrame.keeps {s t : TCPSocket} (frame : TransmitFrame s t) : Kept s t := by
  intro alive
  obtain ⟨state, queueTx, outstanding⟩ := frame.kept alive
  exact ⟨state ▸ alive, queueTx, outstanding⟩

namespace Kept

theorem refl (s : TCPSocket) : Kept s s := fun alive => ⟨alive, rfl, rfl⟩

theorem trans {s t u : TCPSocket} (first : Kept s t) (second : Kept t u) : Kept s u := by
  intro alive
  obtain ⟨between, queueTx, outstanding⟩ := second alive
  obtain ⟨before, queueTx', outstanding'⟩ := first between
  exact ⟨before, queueTx.trans queueTx', outstanding.trans outstanding'⟩

theorem emitIf (s : TCPSocket) (callback : Bool) (event : Event) :
    Kept s (s.emitIf callback event) := by
  unfold TCPSocket.emitIf
  split
  · exact fun alive => ⟨alive, rfl, rfl⟩
  · exact refl s

theorem setState {s : TCPSocket} (alive : s.state ≠ .closed) (state : State) :
    Kept s (s.setState state) := fun _ => ⟨alive, rfl, rfl⟩

theorem changeOnFIN (now : Nat) (s : TCPSocket) : Kept s (s.changeOnFIN now) := by
  by_cases finWait2 : s.state = .finWait2
  · rw [changeOnFIN_of_finWait2 now finWait2]
    have entered : Kept s (s.enterTimeWait now) := fun _ => ⟨by simp [finWait2], rfl, rfl⟩
    exact entered.trans ((emitIf _ _ _).trans (emitIf _ _ _))
  · by_cases established : s.state = .established
    · rw [changeOnFIN_of_established now established]
      exact (setState (by simp [established]) _).trans (emitIf _ _ _)
    · rw [changeOnFIN_of_other now finWait2 established]
      exact refl s

theorem receiveData (now : Nat) (segment : Segment) (s : TCPSocket) :
    Kept (s.acceptACK now segment.ackNumber segment.windowSize.toNat)
      (s.receiveData now segment) := by
  unfold TCPSocket.receiveData
  dsimp only
  split
  · exact (TransmitFrame.insertReceiveQueue now _ _).keeps
  · exact refl _

theorem receiveSwitch (now : Nat) (segment : Segment) {s : TCPSocket}
    (synchronized : s.state ≠ .synSent ∧ s.state ≠ .synReceived)
    (acked : s.state = .finWait1 → (s.acked now segment).transmitPosition = segment.ackNumber →
      (s.acked now segment).state ≠ .closed) :
    Kept (s.acked now segment) (s.receiveSwitch now segment) := by
  unfold TCPSocket.acked handlesACK at *
  unfold TCPSocket.receiveSwitch
  cases state : s.state with
  | synSent => exact absurd state synchronized.1
  | synReceived => exact absurd state synchronized.2
  | lastAck =>
      rw [if_pos rfl]
      dsimp only
      split
      · intro alive
        exact absurd (emitIf_state (TCPSocket.setState _ .closed) _ .onclose) alive
      · exact refl _
  | finWait1 =>
      rw [state, if_pos rfl] at acked
      rw [if_pos rfl]
      dsimp only
      obtain ⟨rejects, size⟩ :=
        acceptACK_settled now segment.ackNumber segment.windowSize.toNat s
      generalize s.acceptACK now segment.ackNumber segment.windowSize.toNat = t
        at rejects size acked ⊢
      refine trans ?_ (receiveData now segment _)
      split
      · next position =>
          rw [acceptACK_of_settled now (s := t.setState .finWait2) rejects size]
          exact setState (acked rfl position) _
      · rw [acceptACK_of_settled now rejects size]
        exact refl t
  | finWait2 | established =>
      rw [if_pos rfl]
      exact receiveData now segment s
  | closed | listen | closeWait | closing | timeWait =>
      rw [if_neg Bool.false_ne_true]
      exact refl s

/-- A segment after the handshake keeps the transmit queues as the acknowledgement
leaves them, if it does not move a socket that was just reset to FIN_WAIT_2. -/
theorem receive (now : Nat) (segment : Segment) {s : TCPSocket}
    (synchronized : s.state ≠ .synSent ∧ s.state ≠ .synReceived)
    (acked : s.state = .finWait1 → (s.acked now segment).transmitPosition = segment.ackNumber →
      (s.acked now segment).state ≠ .closed) :
    Kept (s.acked now segment) (s.receive now segment) := by
  have switched := receiveSwitch now segment synchronized acked
  unfold TCPSocket.receive
  split
  · next state =>
      rw [TCPSocket.acked, handlesACK, state, if_neg (by simp)]
      exact refl s
  · dsimp only
    split
    · exact switched.trans ((TransmitFrame.insertReceiveQueue now _ _).keeps.trans
        (changeOnFIN now _))
    · exact switched

/-- The timer keeps the transmit queues after the handshake. -/
theorem timerTick (env : Env) {s : TCPSocket}
    (synchronized : s.state ≠ .synSent ∧ s.state ≠ .synReceived) : Kept s (s.timerTick env) := by
  have sends := (TransmitFrame.sendTransmitQueue env.now s).keeps
  unfold TCPSocket.timerTick
  cases state : s.state with
  | timeWait =>
      dsimp only
      split
      · exact fun alive => absurd rfl alive
      · exact refl s
  | synSent => exact absurd state synchronized.1
  | synReceived => exact absurd state synchronized.2
  | established | finWait1 => exact sends
  | closed | listen | finWait2 | closeWait | closing | lastAck => exact refl s

/-- A step after the handshake keeps the transmit queues as the refill leaves them. -/
theorem step (input : Input) {s : TCPSocket}
    (synchronized : s.state ≠ .synSent ∧ s.state ≠ .synReceived)
    (acked : ∀ segment, input.op = .receive segment → s.state = .finWait1 →
      (s.refilled input).transmitPosition = segment.ackNumber →
      (s.refilled input).state ≠ .closed) :
    Kept (s.refilled input) (s.step input) := by
  rcases step_eq input s with call | ⟨segment, op, equal, receives⟩ | ⟨-, same, ticks⟩ |
    ⟨-, same, closes⟩
  · rw [call]
    exact refl _
  · rw [receives]
    rw [equal] at acked ⊢
    exact receive _ segment synchronized (acked segment op)
  · rw [same, ticks]
    exact timerTick _ synchronized
  · rw [closes]
    exact fun alive => absurd (emitIf_state _ _ .onclose) alive

end Kept

/-! ## The start of a connection -/

/-- A new socket with the callbacks its owner sets. The constructor's initial
sequence number is 19999. -/
def new (iss : Seq) (onopen onend ondata onclose : Bool) : TCPSocket :=
  { transmitWindowEdge := iss, transmitPosition := iss, onopen, onend, ondata, onclose }

/-- A connection at its start: `open` was called, or a listening socket made it for
a SYN. -/
inductive Started (iss : Seq) : TCPSocket → Prop where
  | opened {onopen onend ondata onclose : Bool} {env : Env} {ip : IP4Address} {port : Nat}
      {s : TCPSocket} (opens : (new iss onopen onend ondata onclose).openSocket env ip port = .ok s) :
      Started iss s
  | accepted (onopen onend ondata onclose : Bool) (env : Env) (serverId : SocketId)
      (server : TCPSocket) (srcIP : IP4Address) (srcPort : Nat) (segment : Segment) :
      Started iss (accept env serverId server srcIP srcPort segment
        (new iss onopen onend ondata onclose))

/-- The SYN item at the start of a connection. -/
def synItem (now : Nat) (iss : Seq) (flags : BitVec 8) : TransmitItem := ⟨0, now, iss, 1, none, flags⟩

/-- The socket when `_sendSYN` has pushed its item. -/
def pushSYN (s : TCPSocket) (item : TransmitItem) : TCPSocket :=
  (s.pushTransmit item).incTransmitPosition

/-- `_sendSYN` pushes its item and, if there is a route, sends it. -/
theorem sendSYN_frame (env : Env) (isAck : Bool) {s : TCPSocket} (idle : s.transmitQueue = []) :
    ∃ flags, flags &&& flagFIN = 0 ∧
      TransmitFrame (s.pushSYN (synItem env.now s.transmitPosition flags)) (s.sendSYN env isAck) ∧
      (s.sendSYN env isAck).state = s.state := by
  refine ⟨if isAck then flagSYN ||| flagACK else flagSYN, by cases isAck <;> decide, ?_⟩
  rw [sendSYN_eq]
  change TransmitFrame (s.pushSYN (synItem _ _ _)) (sendConfigured env (s.pushSYN (synItem _ _ _))) ∧
    (sendConfigured env (s.pushSYN (synItem _ _ _))).state = _
  generalize queued : s.pushSYN (synItem env.now s.transmitPosition
    (if isAck then flagSYN ||| flagACK else flagSYN)) = t
  have state : t.state = s.state := by rw [← queued]; rfl
  obtain ⟨port, intf, viaIP, after⟩ := configure_eq env t
  have configured : TransmitFrame t (t.configure env).2 := by
    rw [after]
    exact ⟨rfl, rfl, rfl, rfl, rfl, rfl, rfl, rfl, rfl, .inl ⟨rfl, rfl, rfl⟩⟩
  have below : (t.configure env).2.BelowLimit := by
    rw [after, ← queued]
    intro item member
    simp only [pushSYN, incTransmitPosition, pushTransmit, emit, idle, List.nil_append,
      List.mem_singleton] at member
    rw [member]
    exact Nat.zero_le 7
  have same : (t.configure env).2.state = s.state := by rw [after, ← state]
  unfold sendConfigured
  split
  · refine ⟨configured.trans (.sendTransmitQueue _ _), ?_⟩
    obtain ⟨packets, -, sent⟩ := sendTransmitQueue_of_below env.now below
    rw [sent]
    exact same
  · exact ⟨configured, same⟩

/-- What is known of a connection at its start. -/
structure AtStart (iss : Seq) (s : TCPSocket) : Prop where
  connecting : s.state = .synSent ∨ s.state = .synReceived
  transmitWindowEdge : s.transmitWindowEdge = iss
  transmitWindowSize : s.transmitWindowSize = 0
  transmitPosition : s.transmitPosition = iss + 1
  bufferedAmount : s.bufferedAmount = 0
  ondrain : s.ondrain = none
  queueTx : s.queueTx = []
  syn : ∃ now flags, flags &&& flagFIN = 0 ∧ s.outstanding = [synItem now iss flags] ∧
    s.landmarks = [.push (synItem now iss flags) iss 0]

theorem Started.atStart {iss : Seq} {s : TCPSocket} (started : Started iss s) :
    AtStart iss s := by
  have facts (env : Env) (isAck : Bool) (t : TCPSocket) (idle : t.transmitQueue = [])
      (queueTx : t.queueTx = []) (edge : t.transmitWindowEdge = iss)
      (size : t.transmitWindowSize = 0) (position : t.transmitPosition = iss)
      (buffered : t.bufferedAmount = 0) (unset : t.ondrain = none) (quiet : t.events = [])
      (connecting : t.state = .synSent ∨ t.state = .synReceived) :
      AtStart iss (t.sendSYN env isAck) := by
    obtain ⟨flags, noFIN, frame, state⟩ := sendSYN_frame env isAck idle
    have alive : (t.sendSYN env isAck).state ≠ .closed := by
      rw [state]
      rcases connecting with connecting | connecting <;> simp [connecting]
    obtain ⟨-, queue, outstanding⟩ := frame.kept alive
    refine ⟨by rwa [state], frame.transmitWindowEdge.trans edge,
      frame.transmitWindowSize.trans size, ?_, frame.bufferedAmount.trans buffered,
      frame.ondrain.trans unset, queue.trans queueTx, env.now, flags, noFIN, ?_, ?_⟩
    · rw [frame.transmitPosition, ← position]
      rfl
    · rw [outstanding, position]
      simp [TCPSocket.outstanding, pushSYN, incTransmitPosition, pushTransmit, emit, idle,
        TransmitItem.content, synItem]
    · rw [frame.landmarks, position]
      simp [TCPSocket.landmarks, pushSYN, incTransmitPosition, pushTransmit, emit, quiet, edge,
        size, Event.isLandmark]
  cases started with
  | @opened _ _ _ _ env ip port s opens =>
      unfold openSocket at opens
      split at opens
      · cases opens
        exact facts env false _ rfl rfl rfl rfl rfl rfl rfl rfl (.inl rfl)
      · cases opens
  | accepted _ _ _ _ env =>
      exact facts env true _ rfl rfl rfl rfl rfl rfl rfl rfl (.inr rfl)

/-- A system with a route to every address. -/
def direct (now : Nat) : Env := ⟨now, fun _ _ => some ⟨none, 0⟩, 49152⟩

/-- A client that has sent its SYN. -/
def dialled : TCPSocket :=
  let s := new 19999 true true true true
  s.orUnchanged (s.openSocket (direct 0) ⟨10, 0, 0, 2⟩ 80)

theorem dialled_started : Started 19999 dialled :=
  @Started.opened 19999 true true true true (direct 0) ⟨10, 0, 0, 2⟩ 80 dialled rfl

end TCPSocket

end JsOS.Net.Tcp
