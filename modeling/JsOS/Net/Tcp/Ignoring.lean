import Mathlib.Data.Prod.Lex
import JsOS.Net.Tcp.Destroyed
import JsOS.Net.Tcp.Insertion

/-! # Segments that change nothing

A connection is left as it was by a segment in few cases only: the segment brings no data that is
accepted, no end, no acknowledgement and no window that is new, and not what the state waits for
(`receive_eq_self_iff`). Everything else is seen by what the socket has done, which never becomes
less: its events, and the items in its receive queue while there is no further event. The stack is
left as it was if the socket that gets the packet is (`Stack.receive_eq_self_iff`).
-/

namespace JsOS.Net.Tcp

namespace TCPSocket

variable {s t : TCPSocket}

/-! ## What a socket has done -/

/-- The number of events so far, and after as many events the length of the receive queue. -/
def progress (s : TCPSocket) : ℕ ×ₗ ℕ := toLex (s.events.length, s.receiveQueue.length)

theorem progress_lt_of_events (more : s.events.length < t.events.length) :
    s.progress < t.progress := Prod.Lex.toLex_lt_toLex.mpr (.inl more)

theorem progress_le_of_events (events : s.events.length ≤ t.events.length)
    (queue : s.receiveQueue.length ≤ t.receiveQueue.length) : s.progress ≤ t.progress := by
  refine Prod.Lex.toLex_le_toLex.mpr ?_
  rcases Nat.lt_or_eq_of_le events with more | same
  · exact .inl more
  · exact .inr ⟨same, queue⟩

theorem progress_destroy (s : TCPSocket) : s.progress < s.destroy.progress := by
  refine progress_lt_of_events ?_
  rw [destroy, emit, List.length_append]
  exact Nat.lt_succ_self _

/-- The events do not become fewer where they are only added to. -/
theorem Tracked.events_le (tracked : Tracked s t) : s.events.length ≤ t.events.length := by
  obtain ⟨more, events, -⟩ := tracked
  rw [events, List.length_append]
  exact Nat.le_add_right _ _

theorem progress_emitIf (s : TCPSocket) (callback : Bool) (event : Event) :
    s.progress ≤ (s.emitIf callback event).progress := by
  unfold emitIf
  split
  · refine (progress_lt_of_events ?_).le
    rw [emit, List.length_append]
    exact Nat.lt_succ_self _
  · exact le_rfl

theorem progress_sendTransmitQueue (now : Nat) (s : TCPSocket) :
    s.progress ≤ (s.sendTransmitQueue now).progress := by
  by_cases below : s.BelowLimit
  · obtain ⟨packets, -, after⟩ := sendTransmitQueue_of_below now below
    rw [after]
    refine progress_le_of_events ?_ le_rfl
    rw [List.length_append]
    exact Nat.le_add_right _ _
  · obtain ⟨packets, ack, -, after⟩ := sendTransmitQueue_of_limit now below
    rw [after]
    refine (progress_lt_of_events ?_).le
    rw [List.length_append, List.length_append, List.length_singleton]
    omega

/-- The loop transmits something or leaves the socket as it is. -/
theorem sendLoop_events (now : Nat) (items : List TransmitItem) (s : TCPSocket) :
    s.events.length < (sendLoop now items s).2.2.events.length ∨
      (sendLoop now items s).2.2 = s := by
  induction items generalizing s with
  | nil => exact .inr rfl
  | cons item items ih =>
      unfold sendLoop
      split
      · exact .inr rfl
      · split
        · refine .inl ?_
          have sent (t : TCPSocket) (one : s.events.length < t.events.length) :
              s.events.length < (sendLoop now items t).2.2.events.length := by
            rcases ih t with more | same
            · exact one.trans more
            · rw [same]
              exact one
          refine sent _ ?_
          rw [transmit, emit, List.length_append]
          exact Nat.lt_succ_self _
        · exact ih s

/-- An acknowledgement that is required is transmitted, or the connection is reset. -/
theorem events_lt_sendTransmitQueue (now : Nat) (required : s.ackRequired = true) :
    s.events.length < (s.sendTransmitQueue now).events.length := by
  have loop := sendLoop_events now s.transmitQueue s
  unfold sendTransmitQueue
  generalize sendLoop now s.transmitQueue s = result at loop ⊢
  obtain ⟨reset, items, t⟩ := result
  dsimp only at loop ⊢
  have longer : s.events.length ≤ t.events.length := by
    rcases loop with more | same
    · exact more.le
    · rw [same]
  split
  · rw [resetConnection, destroy, emit, List.length_append]
    exact Nat.lt_succ_of_le longer
  · split
    · rw [transmit, emit, List.length_append]
      exact Nat.lt_succ_of_le longer
    · next silent =>
        rcases loop with more | same
        · exact more
        · rw [same] at silent
          exact absurd required silent

theorem progress_acceptACK (now : Nat) (ackNumber : Seq) (windowSize : Nat) (s : TCPSocket) :
    s.progress ≤ (s.acceptACK now ackNumber windowSize).progress := by
  have pushed {s t : TCPSocket} (event : Event) (events : t.events = s.events ++ [event]) :
      s.progress ≤ t.progress := by
    refine (progress_lt_of_events ?_).le
    rw [events, List.length_append]
    exact Nat.lt_succ_self _
  have stable : FillStable now fun s t => s.progress ≤ t.progress :=
    { refl := fun _ => le_rfl
      trans := le_trans
      pushData := fun _ _ _ => pushed _ rfl
      pushPart := fun _ _ _ _ => pushed _ rfl
      pushFIN := fun _ => pushed _ rfl
      shift := fun _ _ => le_rfl
      enqueue := fun _ _ _ => le_rfl
      ondrain := fun _ _ => le_rfl
      send := progress_sendTransmitQueue now }
  by_cases accepts : s.AcceptsACK ackNumber
  · rw [acceptACK_of_accepts now accepts]
    exact stable.fillTransmitQueue (s.acknowledged ackNumber windowSize)
  · rw [acceptACK_of_not_accepts now accepts]
    exact le_rfl

/-! ## Inserting -/

/-- The loops keep the number of items. -/
theorem length_outerLoop (s : TCPSocket) (edge : Seq) (queue : List ReceiveItem) :
    (s.outerLoop queue.length queue.length 0 edge queue).2.2.length = queue.length := by
  obtain ⟨ack, active, popped, loops, kept, -⟩ := @outerLoop_rule s
    (fun _ active popped => active.length + popped.length = queue.length)
    (fun perm kept => perm.length_eq ▸ kept) (fun kept _ => by
      simp only [List.length_cons] at kept ⊢
      omega) queue.length edge queue [] le_rfl (Nat.add_zero _)
  simp only [List.append_nil, List.length_nil] at loops
  rw [loops, List.length_append, kept]

theorem progress_processReceiveQueue (now : Nat) (s : TCPSocket) :
    s.progress ≤ (s.processReceiveQueue now).progress := by
  have length := s.length_outerLoop s.receiveWindowEdge s.receiveQueue
  unfold processReceiveQueue
  dsimp only
  generalize s.outerLoop _ _ 0 s.receiveWindowEdge s.receiveQueue = result at length ⊢
  obtain ⟨removed, lastAck, queue⟩ := result
  dsimp only at length ⊢
  split
  · have popped : s.events.length ≤ _ :=
      (Tracked.popItems removed { s with receiveQueue := queue }).events_le
    have sent := @events_lt_sendTransmitQueue
      ((popItems removed { s with receiveQueue := queue }).receiveWindowSlideTo lastAck).requireACK
      now rfl
    exact (progress_lt_of_events (popped.trans_lt sent)).le
  · exact progress_le_of_events le_rfl length.ge

/-- **What is inserted is noticed**: it is acknowledged, or it waits in the receive queue. -/
theorem progress_insertReceiveQueue (now : Nat) (s : TCPSocket) (item : ReceiveItem) :
    s.progress < (s.insertReceiveQueue now item).progress := by
  unfold insertReceiveQueue
  split
  · have taken := progress_lt_of_events (lt_of_le_of_lt (Tracked.emitData s item.u8).events_le
      (@events_lt_sendTransmitQueue
        ((s.emitData item.u8).receiveWindowSlideTo (seqInc item.seq item.len)).requireACK now rfl))
    dsimp only
    split
    · exact taken
    · exact taken.trans_le (progress_processReceiveQueue now _)
  · refine lt_of_lt_of_le ?_ (progress_processReceiveQueue now _)
    refine Prod.Lex.toLex_lt_toLex.mpr (.inr ⟨rfl, ?_⟩)
    rw [List.length_append]
    exact Nat.lt_succ_self _

theorem progress_receiveData (now : Nat) (segment : Segment) (s : TCPSocket) :
    s.progress ≤ (s.receiveData now segment).progress := by
  unfold receiveData
  dsimp only
  have acked := progress_acceptACK now segment.ackNumber segment.windowSize.toNat s
  split
  · exact acked.trans (progress_insertReceiveQueue now _ _).le
  · exact acked

theorem progress_receiveFIN (now : Nat) (segment : Segment) (s : TCPSocket) :
    s.progress < (s.receiveFIN now segment).progress := by
  have inserted := progress_insertReceiveQueue now s
    ⟨seqInc segment.seqNumber segment.dataLength, 1, none⟩
  unfold receiveFIN
  refine inserted.trans_le ?_
  generalize s.insertReceiveQueue now _ = t
  by_cases finWait2 : t.state = .finWait2
  · rw [changeOnFIN_of_finWait2 now finWait2]
    exact (progress_emitIf (t.enterTimeWait now) _ _).trans (progress_emitIf _ _ _)
  · by_cases established : t.state = .established
    · rw [changeOnFIN_of_established now established]
      exact progress_emitIf (t.setState .closeWait) _ _
    · rw [changeOnFIN_of_other now finWait2 established]

/-! ## Segments that are ignored -/

/-- The segment is what the connection waits for to change its state. -/
def advances (s : TCPSocket) (segment : Segment) : Bool :=
  match s.state with
  | .synSent => segment.flags &&& (flagSYN ||| flagACK) ≠ 0
  | .synReceived => segment.hasACK
  | .lastAck | .finWait1 => s.transmitPosition = segment.ackNumber
  | _ => false

/-- A connection **ignores** a segment without an end, whose acknowledgement and window are not new
if the state looks at them, which is not what the state waits for, and whose data is not accepted. -/
structure Ignores (s : TCPSocket) (segment : Segment) : Prop where
  ends : segment.hasFIN = false
  acknowledges : s.handlesACK → ¬s.AcceptsACK segment.ackNumber ∧
    s.transmitWindowSize = segment.windowSize.toNat
  advances : s.advances segment = false
  data : s.state.takesData → s.acceptsData segment = false

variable {segment : Segment}

/-- A segment that is ignored changes nothing. -/
theorem Ignores.receive_eq (ignores : s.Ignores segment) (now : Nat) :
    s.receive now segment = s := by
  have kept (handles : s.handlesACK) :
      s.acceptACK now segment.ackNumber segment.windowSize.toNat = s := by
    obtain ⟨rejects, size⟩ := ignores.acknowledges handles
    exact acceptACK_of_settled now rejects size
  have advances := ignores.advances
  have data := ignores.data
  unfold receive
  split
  · rfl
  rw [ignores.ends, if_neg Bool.false_ne_true]
  unfold TCPSocket.advances at advances
  unfold receiveSwitch
  cases state : s.state with
  | synSent =>
      rw [state] at advances
      dsimp only at advances ⊢
      rw [kept (by rw [handlesACK, state]), if_neg (of_decide_eq_false advances)]
  | synReceived =>
      rw [state] at advances
      dsimp only at advances ⊢
      rw [kept (by rw [handlesACK, state]), advances, if_neg Bool.false_ne_true]
  | lastAck =>
      rw [state] at advances
      dsimp only at advances ⊢
      rw [kept (by rw [handlesACK, state]), if_neg (of_decide_eq_false advances)]
  | finWait1 =>
      rw [state] at advances data
      dsimp only at advances ⊢
      have same := kept (by rw [handlesACK, state])
      rw [same, if_neg (of_decide_eq_false advances), receiveData, same, data rfl,
        if_neg Bool.false_ne_true]
  | finWait2 | established =>
      rw [state] at data
      have same := kept (by rw [handlesACK, state])
      change s.receiveData now segment = s
      rw [receiveData, same, data rfl, if_neg Bool.false_ne_true]
  | closed | listen | closeWait | closing | timeWait => rfl

/-- The data path leaves the state alone, unless the connection is reset. -/
theorem state_receiveData (now : Nat) (segment : Segment) (s : TCPSocket) :
    (s.receiveData now segment).state = s.state ∨ (s.receiveData now segment).state = .closed := by
  have acked : (s.acceptACK now segment.ackNumber segment.windowSize.toNat).state = s.state ∨
      (s.acceptACK now segment.ackNumber segment.windowSize.toNat).state = .closed :=
    (ReceiveFrame.acceptACK now _ _ s).queue.imp And.left And.left
  unfold receiveData
  dsimp only
  split
  · have inserted := (TransmitFrame.insertReceiveQueue now
      (s.acceptACK now segment.ackNumber segment.windowSize.toNat)
      ⟨segment.seqNumber, segment.dataLength.toNat, some segment.data⟩).queues
    rcases inserted with ⟨same, -⟩ | ⟨closed, -⟩
    · rw [same]
      exact acked
    · exact .inr closed
  · exact acked

/-- Data that is accepted is noticed. -/
theorem progress_receiveData_of_accepts (now : Nat) (accepts : s.acceptsData segment = true) :
    s.progress < (s.receiveData now segment).progress := by
  unfold receiveData
  dsimp only
  rw [acceptsData_acceptACK, if_pos accepts]
  exact (progress_acceptACK now _ _ s).trans_lt (progress_insertReceiveQueue now _ _)

/-- The states before the end do not make what a socket has done less. -/
theorem progress_receiveSwitch (now : Nat) (segment : Segment) (s : TCPSocket) :
    s.progress ≤ (s.receiveSwitch now segment).progress := by
  have acked := progress_acceptACK now segment.ackNumber segment.windowSize.toNat s
  unfold receiveSwitch
  cases state : s.state with
  | synSent =>
      dsimp only
      split
      · refine acked.trans (le_trans ?_ (progress_emitIf _ _ _))
        exact progress_sendTransmitQueue now (requireACK (receiveWindowSlideInc
          (receiveWindowSlideTo _ segment.seqNumber)))
      · exact acked
  | synReceived =>
      dsimp only
      split
      · exact acked.trans (progress_emitIf (setState _ .established) _ _)
      · exact acked
  | lastAck =>
      dsimp only
      split
      · refine acked.trans (le_trans ?_ (progress_destroy _).le)
        exact progress_emitIf (setState _ .closed) _ _
      · exact acked
  | finWait1 =>
      dsimp only
      refine acked.trans (le_trans ?_ (progress_receiveData now segment _))
      split
      · exact le_rfl
      · exact le_rfl
  | finWait2 | established => exact progress_receiveData now segment s
  | closed | listen | closeWait | closing | timeWait => exact le_rfl

/-- **A segment leaves a connection as it was exactly if it is ignored.** -/
theorem receive_eq_self_iff (now : Nat) (quiet : s.state ≠ .listen) :
    s.receive now segment = s ↔ s.Ignores segment := by
  refine ⟨fun same => ?_, fun ignores => ignores.receive_eq now⟩
  have frame := receive_queueFrame now segment s
  rw [same] at frame
  have received := same
  unfold receive at received
  rw [if_neg quiet] at received
  dsimp only at received
  have ends : segment.hasFIN = false := by
    rw [Bool.eq_false_iff]
    intro fin
    rw [if_pos fin] at received
    have more := (progress_receiveSwitch now segment s).trans_lt
      (progress_receiveFIN now segment (s.receiveSwitch now segment))
    rw [received] at more
    exact lt_irrefl _ more
  rw [ends, if_neg Bool.false_ne_true] at received
  have acknowledges (handles : s.handlesACK) : ¬s.AcceptsACK segment.ackNumber ∧
      s.transmitWindowSize = segment.windowSize.toNat := by
    rw [acked, if_pos handles] at frame
    obtain ⟨settled, size⟩ :=
      acceptACK_settled now segment.ackNumber segment.windowSize.toNat s
    refine ⟨fun accepts => accepts.1 ?_, frame.transmitWindowSize.trans size⟩
    have edge := (fillTransmitQueue_window now
      (s.acknowledged segment.ackNumber segment.windowSize.toNat)).1
    rw [← acceptACK_of_accepts now accepts] at edge
    exact frame.transmitWindowEdge.trans edge
  have kept (handles : s.handlesACK) :
      s.acceptACK now segment.ackNumber segment.windowSize.toNat = s :=
    acceptACK_of_settled now (acknowledges handles).1 (acknowledges handles).2
  have data (takes : s.state.takesData) : s.acceptsData segment = false := by
    rw [Bool.eq_false_iff]
    intro accepts
    have more : s.progress < (s.receiveSwitch now segment).progress := by
      unfold receiveSwitch
      cases state : s.state with
      | established | finWait2 => exact progress_receiveData_of_accepts now accepts
      | finWait1 =>
          dsimp only
          rw [kept (by rw [handlesACK, state])]
          split
          · exact @progress_receiveData_of_accepts (s.setState .finWait2) segment now accepts
          · exact progress_receiveData_of_accepts now accepts
      | closed | listen | synSent | synReceived | closeWait | closing | lastAck | timeWait =>
          rw [state] at takes
          exact absurd takes Bool.false_ne_true
    rw [received] at more
    exact lt_irrefl _ more
  refine ⟨ends, acknowledges, ?_, data⟩
  rw [Bool.eq_false_iff]
  intro advances
  unfold TCPSocket.advances at advances
  unfold receiveSwitch at received
  cases state : s.state with
  | synSent =>
      rw [state] at advances received
      dsimp only at advances received
      rw [kept (by rw [handlesACK, state]), if_pos (of_decide_eq_true advances)] at received
      have after := congrArg TCPSocket.state received
      rw [emitIf_state, state] at after
      cases after
  | synReceived =>
      rw [state] at advances received
      dsimp only at advances received
      rw [kept (by rw [handlesACK, state]), if_pos advances] at received
      have after := congrArg TCPSocket.state received
      rw [emitIf_state, state] at after
      cases after
  | lastAck =>
      rw [state] at advances received
      dsimp only at advances received
      rw [kept (by rw [handlesACK, state]), if_pos (of_decide_eq_true advances)] at received
      have after := congrArg TCPSocket.state received
      change (emitIf _ _ _).state = _ at after
      rw [emitIf_state, state] at after
      cases after
  | finWait1 =>
      rw [state] at advances received
      dsimp only at advances received
      rw [kept (by rw [handlesACK, state]), if_pos (of_decide_eq_true advances)] at received
      have after := state_receiveData now segment (s.setState .finWait2)
      rw [received, state] at after
      rcases after with absurd_ | absurd_
      · cases absurd_
      · cases absurd_
  | closed | listen | established | finWait2 | closeWait | closing | timeWait =>
      rw [state] at advances
      cases advances

/-- `_receive` does not touch the interface. -/
theorem intf_receive (now : Nat) (segment : Segment) (s : TCPSocket) :
    (s.receive now segment).intf = s.intf := by
  have sends (s : TCPSocket) : (s.sendTransmitQueue now).intf = s.intf := by
    by_cases below : s.BelowLimit
    · obtain ⟨packets, -, after⟩ := sendTransmitQueue_of_below now below
      rw [after]
    · obtain ⟨packets, ack, -, after⟩ := sendTransmitQueue_of_limit now below
      rw [after]
  have stable : ReceiveStable now fun s t => t.intf = s.intf :=
    { refl := fun _ => rfl
      trans := fun first second => second.trans first
      pushData := fun _ _ _ => rfl
      pushPart := fun _ _ _ _ => rfl
      pushFIN := fun _ => rfl
      shift := fun _ _ => rfl
      enqueue := fun _ _ _ => rfl
      ondrain := fun _ _ => rfl
      send := sends
      acknowledge := fun _ _ _ => rfl
      window := fun _ _ => rfl
      emit := fun _ _ => rfl
      receiveQueue := fun _ _ => rfl
      slide := fun _ _ => rfl
      requireACK := fun _ => rfl
      setState := fun _ _ => rfl
      enterTimeWait := fun _ => rfl
      destroy := fun _ => rfl }
  exact stable.receive segment s

end TCPSocket

/-! ## The stack -/

namespace Stack

variable {stack : Stack} {setting : Setting} {packet : Packet} {id : SocketId} {s : TCPSocket}

/-- **The stack ignores a packet** if the socket that it is for has an interface and, if it listens,
the packet makes no connection, and the connection that takes the segment ignores it. -/
structure Ignores (stack : Stack) (packet : Packet) : Prop where
  destination : ∀ id s, stack.destination packet = some id → stack.sockets[id]? = some s →
    s.intf ≠ none ∧ (s.state = .listen → s.connection packet.hash = none →
      packet.segment.hasSYN = false)
  receiver : ∀ id s, stack.receiver packet = some id → stack.sockets[id]? = some s →
    s.state ≠ .listen → s.Ignores packet.segment

/-- `_destroy` changes at most the map of connections of other sockets. -/
theorem field_unregister {α : Type} (field : TCPSocket → α)
    (kept : ∀ s hash, field (s.deleteConnection hash) = field s) (stack : Stack) (id : SocketId)
    (s : TCPSocket) (other : SocketId) :
    (stack.unregister id s).sockets[other]?.map field = stack.sockets[other]?.map field := by
  unfold unregister
  dsimp only
  split
  · rw [sockets_modify]
    split
    · rw [Option.map_map]
      exact Option.map_congr fun s _ => kept s _
    · rfl
  · rfl

/-- A step that is a segment leaves the interfaces alone. -/
theorem intf_stepSocket (stack : Stack) (setting : Setting) (id : SocketId) (segment : Segment)
    (other : SocketId) :
    (stack.stepSocket setting id (.receive segment)).sockets[other]?.map TCPSocket.intf =
      stack.sockets[other]?.map TCPSocket.intf := by
  unfold stepSocket
  cases present : stack.sockets[id]? with
  | none => rfl
  | some s =>
      have stored : (stack.put id (s.receive setting.now segment)).sockets[other]?.map
          TCPSocket.intf = stack.sockets[other]?.map TCPSocket.intf := by
        rw [sockets_put present]
        split
        · next same =>
            rw [same, present, Option.map_some, Option.map_some, TCPSocket.intf_receive]
        · rfl
      change (stack.settle id s (s.receive setting.now segment)).sockets[other]?.map _ = _
      unfold settle
      split
      · rw [field_unregister TCPSocket.intf fun _ _ => rfl, stored]
      · exact stored

/-- A segment is a step of the stack that changes nothing exactly if it changes nothing in the
socket. -/
theorem stepSocket_eq_self_iff (present : stack.sockets[id]? = some s) (segment : Segment) :
    stack.stepSocket setting id (.receive segment) = stack ↔
      s.receive setting.now segment = s := by
  have step : stack.stepSocket setting id (.receive segment) =
      stack.settle id s (s.receive setting.now segment) := stepSocket_eq present setting _
  rw [step]
  constructor
  · intro same
    unfold settle at same
    have after := congrArg (fun stack : Stack => stack.sockets[id]?) same
    split at same
    · next destroyed =>
        -- the event would be a further one
        have events := congrArg (Option.map TCPSocket.events) after
        rw [if_pos destroyed, field_unregister TCPSocket.events fun _ _ => rfl,
          sockets_put present, if_pos rfl, present] at events
        rw [Option.some.inj events, List.drop_length] at destroyed
        exact absurd destroyed List.not_mem_nil
    · next alive =>
        rw [if_neg alive, sockets_put present, if_pos rfl, present] at after
        exact Option.some.inj after
  · intro same
    obtain ⟨below, rfl⟩ := List.getElem?_eq_some_iff.mp present
    rw [same, settle, List.drop_length, if_neg List.not_mem_nil, put, List.set_getElem_self]

/-- A connection that takes a segment, if there is one, does not see it. -/
theorem stepSocket_eq_self_iff_ignores (setting : Setting) (target : SocketId) (segment : Segment) :
    stack.stepSocket setting target (.receive segment) = stack ↔
      ∀ t, stack.sockets[target]? = some t → t.state ≠ .listen → t.Ignores segment := by
  cases present : stack.sockets[target]? with
  | none =>
      refine iff_of_true ?_ fun t absurd_ => nomatch absurd_
      rw [stepSocket, present]
  | some t =>
      rw [stepSocket_eq_self_iff present]
      by_cases listening : t.state = .listen
      · refine iff_of_true (if_pos listening) ?_
        rintro _ ⟨⟩ quiet
        exact absurd listening quiet
      · rw [TCPSocket.receive_eq_self_iff setting.now listening]
        constructor
        · rintro ignores _ ⟨⟩ -
          exact ignores
        · intro ignores
          exact ignores t rfl listening

/-- A connection that is accepted is a further socket. -/
theorem accept_ne_self (stack : Stack) (setting : Setting) (id : SocketId) (server : TCPSocket)
    (packet : Packet) : stack.accept setting id server packet ≠ stack := by
  intro same
  have sockets := congrArg (fun stack : Stack => stack.sockets.length) same
  unfold accept modify at sockets
  dsimp only at sockets
  rw [List.length_modify, List.length_append, List.length_singleton] at sockets
  exact Nat.succ_ne_self _ sockets

/-- The socket that gets the packet changes nothing in the stack. -/
theorem receiveSocket_eq_self_iff (present : stack.sockets[id]? = some s) :
    stack.receiveSocket setting id packet = stack ↔
      (s.state = .listen → s.connection packet.hash = none → packet.segment.hasSYN = false) ∧
        ∀ target t, (if s.state = .listen then s.connection packet.hash else some id) =
          some target → stack.sockets[target]? = some t → t.state ≠ .listen →
            t.Ignores packet.segment := by
  by_cases listening : s.state = .listen
  · cases entry : s.connection packet.hash with
    | none =>
        rw [receiveSocket_of_listening present listening entry, if_pos listening]
        cases syn : packet.segment.hasSYN with
        | false =>
            refine iff_of_true (if_neg Bool.false_ne_true) ⟨fun _ _ => rfl, ?_⟩
            intro target t absurd_
            cases absurd_
        | true =>
            refine iff_of_false ?_ fun refuses => ?_
            · rw [if_pos rfl]
              exact accept_ne_self stack setting id s packet
            · cases refuses.1 listening rfl
    | some target =>
        have step : stack.receiveSocket setting id packet =
            stack.stepSocket setting target (.receive packet.segment) := by
          rw [receiveSocket, present]
          dsimp only
          rw [if_pos listening, entry]
        rw [step, stepSocket_eq_self_iff_ignores, if_pos listening]
        constructor
        · intro ignores
          refine ⟨fun _ absent => ?_, ?_⟩
          · cases absent
          · intro other t same
            cases same
            exact ignores t
        · rintro ⟨-, ignores⟩ t
          exact ignores target t rfl
  · rw [receiveSocket_of_not_listening present listening, stepSocket_eq_self_iff_ignores,
      if_neg listening]
    constructor
    · refine fun ignores => ⟨fun absurd_ => absurd absurd_ listening, ?_⟩
      intro other t same
      cases same
      exact ignores t
    · rintro ⟨-, ignores⟩ t
      exact ignores id t rfl

/-- The interface of the socket that gets a packet stays the one it is set to. -/
theorem intf_receiveSocket (present : stack.sockets[id]? = some s) :
    (stack.receiveSocket setting id packet).sockets[id]?.map TCPSocket.intf = some s.intf := by
  have stepped (target : SocketId) := intf_stepSocket stack setting target packet.segment id
  rw [present] at stepped
  by_cases listening : s.state = .listen
  · cases entry : s.connection packet.hash with
    | none =>
        rw [receiveSocket_of_listening present listening entry]
        split
        · obtain ⟨below, -⟩ := List.getElem?_eq_some_iff.mp present
          unfold accept
          rw [sockets_modify, if_pos rfl]
          dsimp only
          rw [List.getElem?_append_left below, present]
          rfl
        · rw [present]
          rfl
    | some target =>
        rw [receiveSocket, present]
        dsimp only
        rw [if_pos listening, entry]
        exact stepped target
  · rw [receiveSocket_of_not_listening present listening]
    exact stepped id

/-- A socket that has an interface keeps it. -/
theorem modify_bindInterface (present : stack.sockets[id]? = some s) (set : s.intf ≠ none)
    (intf : Interface) : (stack.modify id fun s => s.bindInterface intf) = stack := by
  obtain ⟨below, rfl⟩ := List.getElem?_eq_some_iff.mp present
  obtain ⟨own, bound⟩ := Option.ne_none_iff_exists'.mp set
  have same : (stack.sockets[id]).bindInterface intf = stack.sockets[id] := by
    rw [TCPSocket.bindInterface, bound, Option.getD_some, ← bound]
  have : Inhabited TCPSocket := ⟨{}⟩
  rw [modify, List.modify_eq_set, List.getElem?_eq_getElem below, Option.getD_some, same,
    List.set_getElem_self]

/-- **A packet leaves the stack as it was exactly if it is ignored.** -/
theorem receive_eq_self_iff (setting : Setting) (packet : Packet) :
    stack.receive setting packet = stack ↔ stack.Ignores packet := by
  unfold receive
  cases goes : stack.destination packet with
  | none =>
      refine iff_of_true rfl ⟨fun id s absurd_ => ?_, fun id s absurd_ => ?_⟩
      · rw [goes] at absurd_
        cases absurd_
      · rw [receiver, goes] at absurd_
        cases absurd_
  | some id =>
      dsimp only
      cases present : stack.sockets[id]? with
      | none =>
          have unmodified : (stack.modify id fun s => s.bindInterface packet.intf) = stack := by
            rw [modify, List.modify_eq_self (List.getElem?_eq_none_iff.mp present)]
          refine iff_of_true ?_ ⟨fun other s absurd_ found => ?_, fun other s absurd_ => ?_⟩
          · rw [unmodified, receiveSocket, present]
          · rw [goes] at absurd_
            cases absurd_
            rw [present] at found
            cases found
          · rw [receiver, goes, Option.bind_some, present] at absurd_
            cases absurd_
      | some s =>
          have takes : stack.receiver packet =
              if s.state = .listen then s.connection packet.hash else some id := by
            rw [receiver, goes, Option.bind_some, present, Option.bind_some]
          constructor
          · intro same
            have set : s.intf ≠ none := by
              have bound := @intf_receiveSocket _ setting packet id _
                (sockets_bindInterface present packet.intf)
              rw [same, present] at bound
              rw [Option.some.inj bound]
              exact Option.some_ne_none _
            rw [modify_bindInterface present set, receiveSocket_eq_self_iff present] at same
            refine ⟨fun other t found there => ?_, fun target t receives => ?_⟩
            · rw [goes] at found
              cases found
              rw [present] at there
              cases there
              exact ⟨set, same.1⟩
            · rw [takes] at receives
              exact same.2 target t receives
          · intro ignores
            obtain ⟨set, refuses⟩ := ignores.destination id s goes present
            rw [modify_bindInterface present set, receiveSocket_eq_self_iff present]
            refine ⟨refuses, fun target t receives => ?_⟩
            exact ignores.receiver target t (takes.trans receives)

end Stack

end JsOS.Net.Tcp
