import JsOS.Net.Tcp.Transmit

/-! # What the methods leave alone

A relation between a socket before and after that is kept by each elementary
change made in `_fillTransmitQueue` is kept by the whole method, with every call
of `ondrain` nested in it (`FillStable`). The sending methods do not touch the
receive side of a connection that stays open (`ReceiveFrame`), and the methods of
the reordering queue do not touch its transmit side (`TransmitFrame`). A reset
empties the queues of both sides.
-/

namespace JsOS.Net.Tcp

namespace TCPSocket

/-! ## The rule for `_fillTransmitQueue` -/

/-- The relation is kept by each change `_fillTransmitQueue` is made of. -/
structure FillStable (now : Nat) (relates : TCPSocket → TCPSocket → Prop) : Prop where
  refl : ∀ s, relates s s
  trans : ∀ {s t u}, relates s t → relates t u → relates s u
  pushData : ∀ s count u8, relates s (s.pushData now count u8)
  pushPart : ∀ s count u8 queue, relates s { s.pushData now count u8 with queueTx := queue }
  pushFIN : ∀ s, relates s (s.pushFIN now)
  shift : ∀ s remove, relates s { s with queueTx := s.queueTx.drop remove }
  enqueue : ∀ s u8, s.canSend → relates s (s.enqueue u8)
  ondrain : ∀ s later, relates s { s with ondrain := some later }
  send : ∀ s, relates s (s.sendTransmitQueue now)

namespace FillStable

variable {now : Nat} {relates : TCPSocket → TCPSocket → Prop} (stable : FillStable now relates)

include stable

theorem fillLoop {ondrain : TCPSocket → TCPSocket} (drains : ∀ s, relates s (ondrain s))
    (count i remove : Nat) (s : TCPSocket) :
    relates s (TCPSocket.fillLoop now ondrain count i remove s).2 := by
  induction count generalizing i remove s with
  | zero => exact stable.refl s
  | succ count ih =>
      cases entry : s.queueTx[i]?.join with
      | none =>
          rw [fillLoop_null entry]
          exact stable.trans (stable.pushFIN s) (ih _ _ _)
      | some buf =>
          by_cases blocked : s.reserved buf.length = 0
          · rw [fillLoop_blocked entry blocked]
            exact stable.refl s
          · by_cases whole : s.reserved buf.length = buf.length
            · have nonempty : buf.length ≠ 0 := by
                rw [whole] at blocked
                omega
              rw [fillLoop_whole entry nonempty whole]
              refine stable.trans (stable.pushData s buf.length buf) (stable.trans ?_ (ih _ _ _))
              split
              · exact drains _
              · exact stable.refl _
            · rw [fillLoop_part entry blocked whole]
              exact stable.pushPart s _ _ _

theorem fillBody {ondrain : TCPSocket → TCPSocket} (drains : ∀ s, relates s (ondrain s))
    (s : TCPSocket) : relates s (s.fillBody now ondrain) := by
  have loop := stable.fillLoop drains s.queueTx.length 0 0 s
  exact stable.trans loop (stable.trans (stable.shift _ _) (stable.send _))

theorem callOndrain {fill : TCPSocket → TCPSocket} (fills : ∀ s, relates s (fill s))
    (s : TCPSocket) : relates s (s.callOndrain fill) := by
  have sends (arrays : List Bytes) (s : TCPSocket) : relates s
      (arrays.foldl (fun s u8 => if s.canSend then fill (s.enqueue u8) else s) s) := by
    induction arrays generalizing s with
    | nil => exact stable.refl s
    | cons u8 arrays ih =>
        refine stable.trans ?_ (ih _)
        dsimp only
        split
        · next able => exact stable.trans (stable.enqueue s u8 able) (fills _)
        · exact stable.refl s
  unfold TCPSocket.callOndrain
  split
  · next arrays later _ => exact stable.trans (stable.ondrain s later) (sends arrays _)
  · exact stable.refl s

theorem fillNested (depth : Nat) (s : TCPSocket) :
    relates s (TCPSocket.fillNested now depth s) := by
  induction depth generalizing s with
  | zero => exact stable.fillBody stable.refl s
  | succ depth ih => exact stable.fillBody (stable.callOndrain ih) s

theorem fillTransmitQueue (s : TCPSocket) : relates s (s.fillTransmitQueue now) :=
  stable.fillNested _ s

end FillStable

/-- `_fillTransmitQueue` does not move the peer's window. -/
theorem fillTransmitQueue_window (now : Nat) (s : TCPSocket) :
    (s.fillTransmitQueue now).transmitWindowEdge = s.transmitWindowEdge ∧
      (s.fillTransmitQueue now).transmitWindowSize = s.transmitWindowSize := by
  have stable : FillStable now fun s t => t.transmitWindowEdge = s.transmitWindowEdge ∧
      t.transmitWindowSize = s.transmitWindowSize := by
    refine ⟨fun _ => ⟨rfl, rfl⟩, fun first second => ?_, fun _ _ _ => ⟨rfl, rfl⟩,
      fun _ _ _ _ => ⟨rfl, rfl⟩, fun _ => ⟨rfl, rfl⟩, fun _ _ => ⟨rfl, rfl⟩,
      fun _ _ _ => ⟨rfl, rfl⟩, fun _ _ => ⟨rfl, rfl⟩, fun s => ?_⟩
    · exact ⟨second.1.trans first.1, second.2.trans first.2⟩
    · by_cases below : s.BelowLimit
      · obtain ⟨packets, -, after⟩ := sendTransmitQueue_of_below now below
        rw [after]
        exact ⟨rfl, rfl⟩
      · obtain ⟨packets, ack, -, after⟩ := sendTransmitQueue_of_limit now below
        rw [after]
        exact ⟨rfl, rfl⟩
  exact stable.fillTransmitQueue s

/-- After an acknowledgement the same one is not accepted again. -/
theorem acceptACK_settled (now : Nat) (ackNumber : Seq) (windowSize : Nat) (s : TCPSocket) :
    ¬ (s.acceptACK now ackNumber windowSize).AcceptsACK ackNumber ∧
      (s.acceptACK now ackNumber windowSize).transmitWindowSize = windowSize := by
  by_cases accepts : s.AcceptsACK ackNumber
  · obtain ⟨edge, size⟩ := fillTransmitQueue_window now (s.acknowledged ackNumber windowSize)
    rw [acceptACK_of_accepts now accepts]
    exact ⟨fun again => again.1 edge, size⟩
  · rw [acceptACK_of_not_accepts now accepts]
    exact ⟨accepts, rfl⟩

/-- An acknowledgement that is not accepted and has the known window changes nothing. -/
theorem acceptACK_of_settled (now : Nat) {s : TCPSocket} {ackNumber : Seq} {windowSize : Nat}
    (rejects : ¬ s.AcceptsACK ackNumber) (size : s.transmitWindowSize = windowSize) :
    s.acceptACK now ackNumber windowSize = s := by
  rw [acceptACK_of_not_accepts now rejects, ← size]

/-! ## The receive side -/

/-- The receive side is unchanged, unless the connection was reset. -/
structure ReceiveFrame (s t : TCPSocket) : Prop where
  receiveWindowEdge : t.receiveWindowEdge = s.receiveWindowEdge
  receiveWindowSize : t.receiveWindowSize = s.receiveWindowSize
  ondata : t.ondata = s.ondata
  onend : t.onend = s.onend
  onclose : t.onclose = s.onclose
  callbacks : t.callbacks = s.callbacks
  queue : (t.state = s.state ∧ t.receiveQueue = s.receiveQueue) ∨
    (t.state = .closed ∧ t.receiveQueue = [])

namespace ReceiveFrame

theorem refl (s : TCPSocket) : ReceiveFrame s s :=
  ⟨rfl, rfl, rfl, rfl, rfl, rfl, .inl ⟨rfl, rfl⟩⟩

theorem trans {s t u : TCPSocket} (first : ReceiveFrame s t) (second : ReceiveFrame t u) :
    ReceiveFrame s u where
  receiveWindowEdge := second.receiveWindowEdge.trans first.receiveWindowEdge
  receiveWindowSize := second.receiveWindowSize.trans first.receiveWindowSize
  ondata := second.ondata.trans first.ondata
  onend := second.onend.trans first.onend
  onclose := second.onclose.trans first.onclose
  callbacks := second.callbacks.trans first.callbacks
  queue := by
    rcases second.queue with ⟨state, queue⟩ | reset
    · rw [state, queue]
      exact first.queue
    · exact .inr reset

/-- A socket that is open afterwards was never reset in between. -/
theorem kept {s t : TCPSocket} (frame : ReceiveFrame s t) (alive : t.state ≠ .closed) :
    t.state = s.state ∧ t.receiveQueue = s.receiveQueue := by
  rcases frame.queue with kept | ⟨closed, -⟩
  · exact kept
  · exact absurd closed alive

theorem delivered {s t : TCPSocket} (frame : ReceiveFrame s t) : t.delivered = s.delivered := by
  rw [TCPSocket.delivered, frame.callbacks, TCPSocket.delivered]

theorem sendTransmitQueue (now : Nat) (s : TCPSocket) :
    ReceiveFrame s (s.sendTransmitQueue now) := by
  by_cases below : s.BelowLimit
  · obtain ⟨packets, transmits, after⟩ := sendTransmitQueue_of_below now below
    rw [after]
    refine ⟨rfl, rfl, rfl, rfl, rfl, ?_, .inl ⟨rfl, rfl⟩⟩
    simp only [TCPSocket.callbacks, List.filter_append, filter_isCallback_eq_nil transmits,
      List.append_nil]
  · obtain ⟨packets, ack, transmits, after⟩ := sendTransmitQueue_of_limit now below
    rw [after]
    refine ⟨rfl, rfl, rfl, rfl, rfl, ?_, .inr ⟨rfl, rfl⟩⟩
    simp only [TCPSocket.callbacks, List.filter_append, filter_isCallback_eq_nil transmits,
      List.append_nil]
    simp [Event.isCallback]

theorem pushData (now : Nat) (s : TCPSocket) (count : Int) (u8 : Bytes) :
    ReceiveFrame s (s.pushData now count u8) := by
  refine ⟨rfl, rfl, rfl, rfl, rfl, ?_, .inl ⟨rfl, rfl⟩⟩
  simp [TCPSocket.callbacks, TCPSocket.pushData, Event.isCallback]

theorem pushFIN (now : Nat) (s : TCPSocket) : ReceiveFrame s (s.pushFIN now) := by
  refine ⟨rfl, rfl, rfl, rfl, rfl, ?_, .inl ⟨rfl, rfl⟩⟩
  simp [TCPSocket.callbacks, TCPSocket.pushFIN, Event.isCallback]

theorem fillStable (now : Nat) : FillStable now ReceiveFrame where
  refl := refl
  trans := trans
  pushData := pushData now
  pushPart s count u8 _ :=
    have pushed := pushData now s count u8
    ⟨pushed.1, pushed.2, pushed.3, pushed.4, pushed.5, pushed.6, pushed.7⟩
  pushFIN := pushFIN now
  shift _ _ := ⟨rfl, rfl, rfl, rfl, rfl, rfl, .inl ⟨rfl, rfl⟩⟩
  enqueue _ _ _ := ⟨rfl, rfl, rfl, rfl, rfl, rfl, .inl ⟨rfl, rfl⟩⟩
  ondrain _ _ := ⟨rfl, rfl, rfl, rfl, rfl, rfl, .inl ⟨rfl, rfl⟩⟩
  send := sendTransmitQueue now

theorem fillTransmitQueue (now : Nat) (s : TCPSocket) :
    ReceiveFrame s (s.fillTransmitQueue now) :=
  (fillStable now).fillTransmitQueue s

theorem acceptACK (now : Nat) (ackNumber : Seq) (windowSize : Nat) (s : TCPSocket) :
    ReceiveFrame s (s.acceptACK now ackNumber windowSize) := by
  by_cases accepts : s.AcceptsACK ackNumber
  · rw [acceptACK_of_accepts now accepts]
    have moved : ReceiveFrame s (s.acknowledged ackNumber windowSize) :=
      ⟨rfl, rfl, rfl, rfl, rfl, rfl, .inl ⟨rfl, rfl⟩⟩
    exact moved.trans (fillTransmitQueue now _)
  · rw [acceptACK_of_not_accepts now accepts]
    exact ⟨rfl, rfl, rfl, rfl, rfl, rfl, .inl ⟨rfl, rfl⟩⟩

end ReceiveFrame

/-! ## The transmit side -/

/-- The transmit side is unchanged but for the retransmission counts, unless the
connection was reset; the callbacks of the owner are the same ones, and none but
`ondata` was scheduled. -/
structure TransmitFrame (s t : TCPSocket) : Prop where
  transmitWindowEdge : t.transmitWindowEdge = s.transmitWindowEdge
  transmitWindowSize : t.transmitWindowSize = s.transmitWindowSize
  transmitPosition : t.transmitPosition = s.transmitPosition
  bufferedAmount : t.bufferedAmount = s.bufferedAmount
  ondrain : t.ondrain = s.ondrain
  onopen : t.onopen = s.onopen
  onend : t.onend = s.onend
  onclose : t.onclose = s.onclose
  landmarks : t.landmarks = s.landmarks
  queues : (t.state = s.state ∧ t.queueTx = s.queueTx ∧ t.outstanding = s.outstanding) ∨
    (t.state = .closed ∧ t.queueTx = [] ∧ t.outstanding = [] ∧ s.outstanding ≠ [])

namespace TransmitFrame

theorem refl (s : TCPSocket) : TransmitFrame s s :=
  ⟨rfl, rfl, rfl, rfl, rfl, rfl, rfl, rfl, rfl, .inl ⟨rfl, rfl, rfl⟩⟩

theorem trans {s t u : TCPSocket} (first : TransmitFrame s t) (second : TransmitFrame t u) :
    TransmitFrame s u where
  transmitWindowEdge := second.transmitWindowEdge.trans first.transmitWindowEdge
  transmitWindowSize := second.transmitWindowSize.trans first.transmitWindowSize
  transmitPosition := second.transmitPosition.trans first.transmitPosition
  bufferedAmount := second.bufferedAmount.trans first.bufferedAmount
  ondrain := second.ondrain.trans first.ondrain
  onopen := second.onopen.trans first.onopen
  onend := second.onend.trans first.onend
  onclose := second.onclose.trans first.onclose
  landmarks := second.landmarks.trans first.landmarks
  queues := by
    rcases second.queues with ⟨state, queueTx, outstanding⟩ | ⟨closed, queueTx, none_, busy⟩
    · rw [state, queueTx, outstanding]
      exact first.queues
    · refine .inr ⟨closed, queueTx, none_, ?_⟩
      rcases first.queues with ⟨-, -, same⟩ | ⟨-, -, -, busy⟩
      · exact same ▸ busy
      · exact busy

/-- A socket that is open afterwards was never reset in between. -/
theorem kept {s t : TCPSocket} (frame : TransmitFrame s t) (alive : t.state ≠ .closed) :
    t.state = s.state ∧ t.queueTx = s.queueTx ∧ t.outstanding = s.outstanding := by
  rcases frame.queues with kept | ⟨closed, -⟩
  · exact kept
  · exact absurd closed alive

/-- With nothing in flight there is no reset. -/
theorem state_of_idle {s t : TCPSocket} (frame : TransmitFrame s t) (idle : s.transmitQueue = []) :
    t.state = s.state := by
  rcases frame.queues with ⟨state, -⟩ | ⟨-, -, -, busy⟩
  · exact state
  · simp [outstanding, idle] at busy

theorem pushed {s t : TCPSocket} (frame : TransmitFrame s t) : t.pushed = s.pushed := by
  rw [pushed_eq_landmarks, frame.landmarks, ← pushed_eq_landmarks]

theorem sendTransmitQueue (now : Nat) (s : TCPSocket) :
    TransmitFrame s (s.sendTransmitQueue now) := by
  by_cases below : s.BelowLimit
  · obtain ⟨packets, transmits, after⟩ := sendTransmitQueue_of_below now below
    rw [after]
    refine ⟨rfl, rfl, rfl, rfl, rfl, rfl, rfl, rfl, ?_, .inl ⟨rfl, rfl, ?_⟩⟩
    · simp only [TCPSocket.landmarks, List.filter_append, filter_isLandmark_eq_nil transmits,
        List.append_nil]
    · simp only [TCPSocket.outstanding, List.map_map]
      exact List.map_congr_left fun item _ => TransmitItem.content_resend now item
  · obtain ⟨packets, ack, transmits, after⟩ := sendTransmitQueue_of_limit now below
    rw [after]
    refine ⟨rfl, rfl, rfl, rfl, rfl, rfl, rfl, rfl, ?_, .inr ⟨rfl, rfl, rfl, ?_⟩⟩
    · simp only [TCPSocket.landmarks, List.filter_append, filter_isLandmark_eq_nil transmits,
        List.append_nil]
      simp [Event.isLandmark]
    · intro nothing
      exact below (belowLimit_of_nil (List.map_eq_nil_iff.mp nothing))

/-- Sending after a change that only concerns the receive side. -/
theorem send_after (now : Nat) {s t : TCPSocket} (frame : TransmitFrame s t) :
    TransmitFrame s (t.sendTransmitQueue now) :=
  frame.trans (sendTransmitQueue now t)

theorem emitData (s : TCPSocket) (u8 : Option Bytes) : TransmitFrame s (s.emitData u8) := by
  unfold TCPSocket.emitData
  cases u8 with
  | none => exact refl s
  | some u8 =>
      dsimp only
      split
      · refine ⟨rfl, rfl, rfl, rfl, rfl, rfl, rfl, rfl, ?_, .inl ⟨rfl, rfl, rfl⟩⟩
        simp [TCPSocket.landmarks, emit, Event.isLandmark]
      · exact refl s

theorem popItems (removed : Nat) (s : TCPSocket) : TransmitFrame s (s.popItems removed) := by
  induction removed generalizing s with
  | zero => exact refl s
  | succ removed ih =>
      unfold TCPSocket.popItems
      cases s.receiveQueue.getLast? with
      | none => exact ih s
      | some item =>
          have shorter : TransmitFrame s { s with receiveQueue := s.receiveQueue.dropLast } :=
            ⟨rfl, rfl, rfl, rfl, rfl, rfl, rfl, rfl, rfl, .inl ⟨rfl, rfl, rfl⟩⟩
          exact shorter.trans ((emitData _ item.u8).trans (ih _))

/-- Sliding the receive window and asking for an acknowledgement. -/
theorem slide (s : TCPSocket) (seq : Seq) :
    TransmitFrame s (s.receiveWindowSlideTo seq).requireACK :=
  ⟨rfl, rfl, rfl, rfl, rfl, rfl, rfl, rfl, rfl, .inl ⟨rfl, rfl, rfl⟩⟩

theorem receiveQueue (s : TCPSocket) (queue : List ReceiveItem) :
    TransmitFrame s { s with receiveQueue := queue } :=
  ⟨rfl, rfl, rfl, rfl, rfl, rfl, rfl, rfl, rfl, .inl ⟨rfl, rfl, rfl⟩⟩

theorem processReceiveQueue (now : Nat) (s : TCPSocket) :
    TransmitFrame s (s.processReceiveQueue now) := by
  unfold TCPSocket.processReceiveQueue
  dsimp only
  split
  · exact send_after now ((receiveQueue s _).trans ((popItems _ _).trans (slide _ _)))
  · exact receiveQueue s _

theorem insertReceiveQueue (now : Nat) (s : TCPSocket) (item : ReceiveItem) :
    TransmitFrame s (s.insertReceiveQueue now item) := by
  unfold TCPSocket.insertReceiveQueue
  dsimp only
  split
  · have fast := send_after now ((emitData s item.u8).trans (slide _ (seqInc item.seq item.len)))
    split
    · exact fast
    · exact fast.trans (processReceiveQueue now _)
  · exact (receiveQueue s _).trans (processReceiveQueue now _)

end TransmitFrame

end TCPSocket

end JsOS.Net.Tcp
