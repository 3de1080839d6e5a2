import JsOS.Net.Tcp.Accounting

/-! # The handshake

A connection should enter ESTABLISHED, call `onopen` and reach any later state only
on a segment that completes the handshake (`Completes`). The code opens a client on
a segment with either flag of SYN and ACK and looks at no acknowledgement number;
`HandshakeSafe` is what the segments must satisfy instead, and it is exact
(`handshake_exact`).
-/

namespace JsOS.Net.Tcp

open Circular Transition

/-- The states a connection reaches through ESTABLISHED. -/
def State.synchronized : State → Bool
  | .established | .finWait1 | .finWait2 | .closeWait | .closing | .lastAck | .timeWait => true
  | _ => false

namespace TCPSocket

/-- The number of calls of `onopen` so far. -/
def opened (s : TCPSocket) : Nat := s.events.count .onopen

/-- The step assigns ESTABLISHED to a connecting socket. A segment with FIN may change
the state again before the step is over. -/
def Enters (s : TCPSocket) (input : Input) : Prop :=
  ∃ segment, input.op = .receive segment ∧ (s.state = .synSent ∨ s.state = .synReceived) ∧
    (s.receiveSwitch input.env.now segment).state = .established

/-- The step completes the handshake: a client receives SYN and ACK, an accepted
connection ACK, with the acknowledgement of its SYN, which leaves `_transmitQueue`. -/
def Completes (iss : Seq) (s : TCPSocket) (input : Input) : Prop :=
  ∃ segment, input.op = .receive segment ∧
    ((s.state = .synSent ∧ segment.hasSYN) ∨ s.state = .synReceived) ∧ segment.hasACK ∧
    segment.ackNumber = iss + 1 ∧
    ∀ item ∈ (s.receiveSwitch input.env.now segment).transmitQueue, item.flags &&& flagSYN = 0

/-- A client in SYN_SENT gets SYN or ACK only together and with the acknowledgement of
its SYN; an accepted connection in SYN_RECEIVED gets ACK only with it. -/
def HandshakeSafe (iss : Seq) (s : TCPSocket) (input : Input) : Prop :=
  match input.op with
  | .receive segment =>
      (s.state = .synSent → segment.flags &&& (flagSYN ||| flagACK) ≠ 0 →
        segment.hasSYN ∧ segment.hasACK ∧ segment.ackNumber = iss + 1) ∧
      (s.state = .synReceived → segment.hasACK → segment.ackNumber = iss + 1)
  | _ => True

instance (iss : Seq) (s : TCPSocket) : ∀ input : Input, Decidable (HandshakeSafe iss s input)
  | ⟨_, .receive _⟩ => inferInstanceAs (Decidable (_ ∧ _))
  | ⟨_, .send _⟩ | ⟨_, .halfclose⟩ | ⟨_, .close⟩ | ⟨_, .timerTick⟩ => .isTrue trivial

/-! ## Calls of `onopen` -/

theorem ReceiveFrame.opened {s t : TCPSocket} (frame : ReceiveFrame s t) :
    t.opened = s.opened := by
  have calls (s : TCPSocket) : s.opened = s.callbacks.count .onopen :=
    (List.count_filter rfl).symm
  rw [calls, frame.callbacks, ← calls]

theorem TransmitFrame.opened {s t : TCPSocket} (frame : TransmitFrame s t) :
    t.opened = s.opened := by
  have calls (s : TCPSocket) : s.opened = s.landmarks.count .onopen :=
    (List.count_filter rfl).symm
  rw [calls, frame.landmarks, ← calls]

theorem emit_opened (s : TCPSocket) {event : Event} (other : event ≠ .onopen) :
    (s.emit event).opened = s.opened := by
  unfold opened emit
  rw [List.count_append, List.count_singleton, if_neg (by simpa using other), Nat.add_zero]

theorem emitIf_opened (s : TCPSocket) (callback : Bool) {event : Event} (other : event ≠ .onopen) :
    (s.emitIf callback event).opened = s.opened := by
  unfold emitIf
  split
  · exact emit_opened s other
  · rfl

theorem changeOnFIN_opened (now : Nat) (s : TCPSocket) :
    (s.changeOnFIN now).opened = s.opened := by
  by_cases finWait2 : s.state = .finWait2
  · rw [changeOnFIN_of_finWait2 now finWait2, emitIf_opened _ _ (by decide),
      emitIf_opened _ _ (by decide)]
    rfl
  · by_cases established : s.state = .established
    · rw [changeOnFIN_of_established now established, emitIf_opened _ _ (by decide)]
      rfl
    · rw [changeOnFIN_of_other now finWait2 established]

theorem receiveData_opened (now : Nat) (segment : Segment) (s : TCPSocket) :
    (s.receiveData now segment).opened = s.opened := by
  unfold receiveData
  dsimp only
  have acked := (ReceiveFrame.acceptACK now segment.ackNumber segment.windowSize.toNat s).opened
  split
  · rw [(TransmitFrame.insertReceiveQueue now _ _).opened, acked]
  · exact acked

/-- Only entering ESTABLISHED calls `onopen`. -/
theorem receiveSwitch_opened (now : Nat) (segment : Segment) {s : TCPSocket}
    (stays : (s.state = .synSent ∨ s.state = .synReceived) →
      (s.receiveSwitch now segment).state ≠ .established) :
    (s.receiveSwitch now segment).opened = s.opened := by
  have acked := (ReceiveFrame.acceptACK now segment.ackNumber segment.windowSize.toNat s).opened
  unfold receiveSwitch at *
  cases state : s.state with
  | synSent =>
      rw [state] at stays
      have stays := stays (.inl rfl)
      dsimp only at stays ⊢
      split at stays
      · exact absurd (emitIf_state (setState _ .established) _ .onopen) stays
      · next noFlag => rw [if_neg noFlag, acked]
  | synReceived =>
      rw [state] at stays
      have stays := stays (.inr rfl)
      dsimp only at stays ⊢
      split at stays
      · exact absurd (emitIf_state (setState _ .established) _ .onopen) stays
      · next noFlag => rw [if_neg noFlag, acked]
  | lastAck =>
      dsimp only
      split
      · exact (emit_opened (emitIf _ _ .onclose) (by decide)).trans
          ((emitIf_opened _ _ (by decide)).trans acked)
      · exact acked
  | finWait1 =>
      dsimp only
      rw [receiveData_opened]
      split
      · exact acked
      · exact acked
  | finWait2 | established => exact receiveData_opened now segment s
  | closed | listen | closeWait | closing | timeWait => rfl

theorem receive_opened (now : Nat) (segment : Segment) {s : TCPSocket}
    (stays : (s.state = .synSent ∨ s.state = .synReceived) →
      (s.receiveSwitch now segment).state ≠ .established) :
    (s.receive now segment).opened = s.opened := by
  unfold receive
  split
  · rfl
  · dsimp only
    split
    · rw [receiveFIN, changeOnFIN_opened, (TransmitFrame.insertReceiveQueue now _ _).opened,
        receiveSwitch_opened now segment stays]
    · exact receiveSwitch_opened now segment stays

theorem filling_events {op : Op} {s t : TCPSocket} (fills : s.filling op = some t) :
    t.events = s.events := by
  have ended (ends : s.ending? = some t) : t.events = s.events := by
    obtain ⟨-, state, -, rfl⟩ := ending?_eq_some ends
    rfl
  cases op with
  | send u8 =>
      obtain ⟨-, ⟨⟩⟩ := Option.ite_none_right_eq_some.mp fills
      rfl
  | halfclose => exact ended fills
  | close => exact ended fills
  | receive segment =>
      obtain ⟨-, ⟨⟩⟩ := Option.ite_none_right_eq_some.mp fills
      rfl
  | timerTick => cases fills

theorem refilled_opened (input : Input) (s : TCPSocket) :
    (s.refilled input).opened = s.opened := by
  unfold refilled
  cases fills : s.filling input.op with
  | none =>
      obtain ⟨size, after, -⟩ := unfilled_eq s input.op
      rw [Option.map_none, Option.getD_none, after]
      rfl
  | some t =>
      rw [Option.map_some, Option.getD_some, (ReceiveFrame.fillTransmitQueue _ t).opened, opened,
        filling_events fills, opened]

theorem timerTick_opened (env : Env) (s : TCPSocket) : (s.timerTick env).opened = s.opened := by
  rcases timerTick_cases env s with ⟨-, ticks⟩ | ⟨-, ticks⟩ | ⟨-, ticks⟩ | ⟨-, -, ticks⟩
  · rw [ticks]
    exact emit_opened (s.setState .closed) (by decide)
  · have configured : (s.configure env).2.opened = s.opened := by
      obtain ⟨port, intf, viaIP, after⟩ := configure_eq env s
      rw [after]
      rfl
    rw [ticks, sendConfigured]
    split
    · exact (ReceiveFrame.sendTransmitQueue _ _).opened.trans configured
    · exact configured
  · rw [ticks]
    exact (ReceiveFrame.sendTransmitQueue env.now s).opened
  · rw [ticks]

/-- A step that does not enter ESTABLISHED does not call `onopen`. -/
theorem step_opened {input : Input} {s : TCPSocket} (stays : ¬ s.Enters input) :
    (s.step input).opened = s.opened := by
  rcases step_eq input s with call | ⟨segment, op, -, receives⟩ | ⟨-, -, ticks⟩ | ⟨-, -, closes⟩
  · rw [call, refilled_opened]
  · rw [receives]
    exact receive_opened _ segment fun connecting established =>
      stays ⟨segment, op, connecting, established⟩
  · rw [ticks, timerTick_opened]
  · rw [closes, emitIf_opened _ _ (by decide)]
    exact (emit_opened (emit (s.setState .closed) _) (by decide)).trans
      (emit_opened (s.setState .closed) (by simp))

/-! ## Connecting sockets -/

/-- While a socket is connecting, nothing but its SYN is in flight. -/
structure Connecting (iss : Seq) (s : TCPSocket) : Prop where
  unset : s.ondrain = none
  transmitPosition : s.transmitPosition = iss + 1
  queueTx : s.queueTx = []
  edge : s.transmitWindowEdge = iss ∨ (s.transmitWindowEdge = iss + 1 ∧ s.transmitQueue = [])

theorem Connecting.frame {iss : Seq} {s t : TCPSocket} (connecting : Connecting iss s)
    (frame : QueueFrame s t) : Connecting iss t := by
  refine ⟨frame.ondrain.trans connecting.unset,
    frame.transmitPosition.trans connecting.transmitPosition, ?_, ?_⟩
  · rcases frame.queues with ⟨kept, -⟩ | ⟨emptied, -⟩
    · exact kept.trans connecting.queueTx
    · exact emptied
  · rw [frame.transmitWindowEdge]
    exact connecting.edge.imp_right fun ⟨edge, idle⟩ => ⟨edge, frame.idle idle⟩

/-- The acknowledgement of a connecting socket: only its SYN can be acknowledged, and
then nothing is left in flight. -/
theorem Connecting.acked {iss : Seq} {s : TCPSocket} (connecting : Connecting iss s)
    (now : Nat) (ackNumber : Seq) (windowSize : Nat) :
    Connecting iss (s.acceptACK now ackNumber windowSize) ∧
      (ackNumber = iss + 1 → (s.acceptACK now ackNumber windowSize).transmitQueue = []) := by
  obtain ⟨unset, position, queueTx, edge⟩ := connecting
  by_cases accepts : s.AcceptsACK ackNumber
  · have caught : ackNumber = s.transmitPosition := by
      obtain ⟨positive, total⟩ := accepts.inflight_eq
      have inflight : s.inflight ≤ 1 := by
        rw [inflight, position]
        rcases edge with edge | ⟨edge, -⟩
        · rw [edge, ahead_succ]
        · rw [edge, ahead_self]
          exact Nat.zero_le 1
      exact (ahead_eq_zero_iff.mp (by omega)).symm
    have idle := acknowledged_transmitQueue windowSize caught
    rw [acceptACK_of_accepts now accepts]
    generalize equal : s.acknowledged ackNumber windowSize = t at idle ⊢
    have before : Connecting iss t := by
      rw [← equal] at idle ⊢
      exact ⟨unset, position, queueTx, .inr ⟨caught.trans position, idle⟩⟩
    have frame : QueueFrame t (t.fillTransmitQueue now) := by
      rw [fillTransmitQueue_eq now before.unset, afterFill_of_empty now before.queueTx]
      exact .sendTransmitQueue now t
    exact ⟨before.frame frame, fun _ => frame.idle idle⟩
  · rw [acceptACK_of_not_accepts now accepts]
    refine ⟨⟨unset, position, queueTx, edge⟩, fun acks => ?_⟩
    rcases edge with edge | ⟨-, idle⟩
    · have distance : ahead s.transmitWindowEdge ackNumber = 1 := by
        rw [edge, acks, ahead_succ]
      refine absurd ⟨?_, ?_⟩ accepts
      · intro same
        rw [same, ahead_self] at distance
        cases distance
      · rw [isTransmittedUnacked_iff, inflight, distance, edge, position, ahead_succ]
        exact ⟨Nat.one_pos, Nat.le_refl 1⟩
    · exact idle

theorem handlesACK_of_connecting {s : TCPSocket}
    (state : s.state = .synSent ∨ s.state = .synReceived) : s.handlesACK := by
  unfold handlesACK
  rcases state with state | state <;> rw [state]

/-- **One step of a connecting socket.** -/
theorem Connecting.step {iss : Seq} {s : TCPSocket} (connecting : Connecting iss s)
    (state : s.state = .synSent ∨ s.state = .synReceived) (input : Input) :
    Connecting iss (s.step input) := by
  refine Connecting.frame ?_ (step_queueFrame input s)
  have unchanged (skips : s.filling input.op = none) (same : s.unfilled input.op = s) :
      Connecting iss (s.refilled input) := by
    rw [refilled, skips, Option.map_none, Option.getD_none, same]
    exact connecting
  obtain ⟨env, op⟩ := input
  cases op with
  | send u8 =>
      refine unchanged (if_neg ?_) rfl
      rcases state with state | state <;> simp [canSend, state]
  | halfclose | close =>
      refine unchanged ?_ rfl
      rcases state with state | state <;> simp only [filling, ending?, state]
  | receive segment =>
      rw [← acked_eq_refilled, TCPSocket.acked, if_pos (handlesACK_of_connecting state)]
      exact (connecting.acked _ _ _).1
  | timerTick => exact unchanged rfl rfl

/-- When the acknowledgement of the SYN arrives, the SYN leaves `_transmitQueue`. -/
theorem Connecting.synAcked {iss : Seq} {s : TCPSocket} (connecting : Connecting iss s)
    (state : s.state = .synSent ∨ s.state = .synReceived) (now : Nat) {segment : Segment}
    (acks : segment.ackNumber = iss + 1) : (s.receiveSwitch now segment).transmitQueue = [] := by
  have acked : (s.acked now segment).transmitQueue = [] := by
    rw [TCPSocket.acked, if_pos (handlesACK_of_connecting state)]
    exact (connecting.acked _ _ _).2 acks
  exact (receiveSwitch_queueFrame now segment s).idle acked

/-! ## Entering ESTABLISHED -/

theorem acceptACK_ne_established (now : Nat) (ackNumber : Seq) (windowSize : Nat) {s : TCPSocket}
    (state : s.state ≠ .established) :
    (s.acceptACK now ackNumber windowSize).state ≠ .established := by
  rcases acceptACK_state now ackNumber windowSize s with same | closed
  · rw [same]
    exact state
  · simp [closed]

theorem receiveSwitch_synSent (now : Nat) (segment : Segment) {s : TCPSocket}
    (state : s.state = .synSent) :
    (s.receiveSwitch now segment).state = .established ↔
      segment.flags &&& (flagSYN ||| flagACK) ≠ 0 := by
  unfold receiveSwitch
  rw [state]
  dsimp only
  by_cases flag : segment.flags &&& (flagSYN ||| flagACK) ≠ 0
  · rw [if_pos flag]
    exact iff_of_true (emitIf_state (setState _ .established) _ .onopen) flag
  · rw [if_neg flag]
    exact iff_of_false (acceptACK_ne_established _ _ _ (by simp [state])) flag

theorem receiveSwitch_synReceived (now : Nat) (segment : Segment) {s : TCPSocket}
    (state : s.state = .synReceived) :
    (s.receiveSwitch now segment).state = .established ↔ segment.hasACK := by
  unfold receiveSwitch
  rw [state]
  dsimp only
  by_cases flag : segment.hasACK
  · rw [if_pos flag]
    exact iff_of_true (emitIf_state (setState _ .established) _ .onopen) flag
  · rw [if_neg flag]
    exact iff_of_false (acceptACK_ne_established _ _ _ (by simp [state])) flag

/-- The step enters ESTABLISHED or calls `onopen`. -/
def Opens (s : TCPSocket) (input : Input) : Prop :=
  s.Enters input ∨ (s.step input).opened ≠ s.opened

theorem opens_iff_enters {s : TCPSocket} {input : Input} : s.Opens input ↔ s.Enters input := by
  refine ⟨fun opens => ?_, .inl⟩
  by_contra stays
  exact opens.elim stays fun called => called (step_opened stays)

/-- One step: it opens the connection only by completing the handshake exactly when
its segment is safe. -/
theorem opens_completes_iff {iss : Seq} {s : TCPSocket} {input : Input}
    (invariant : s.state = .synSent ∨ s.state = .synReceived → Connecting iss s) :
    (s.Opens input → Completes iss s input) ↔ HandshakeSafe iss s input := by
  rw [opens_iff_enters, HandshakeSafe]
  cases op : input.op with
  | receive segment =>
      dsimp only
      constructor
      · intro completes
        refine ⟨fun state flag => ?_, fun state flag => ?_⟩
        · obtain ⟨other, op', either, ack, acks, -⟩ := completes ⟨segment, op, .inl state,
            (receiveSwitch_synSent _ segment state).mpr flag⟩
          obtain rfl : segment = other := Op.receive.inj (op.symm.trans op')
          rcases either with ⟨-, syn⟩ | received
          · exact ⟨syn, ack, acks⟩
          · rw [state] at received
            cases received
        · obtain ⟨other, op', -, -, acks, -⟩ := completes ⟨segment, op, .inr state,
            (receiveSwitch_synReceived _ segment state).mpr flag⟩
          obtain rfl : segment = other := Op.receive.inj (op.symm.trans op')
          exact acks
      · rintro ⟨client, server⟩ ⟨other, op', state, established⟩
        obtain rfl : segment = other := Op.receive.inj (op.symm.trans op')
        have gone (acks : segment.ackNumber = iss + 1) :
            ∀ item ∈ (s.receiveSwitch input.env.now segment).transmitQueue,
              item.flags &&& flagSYN = 0 := by
          rw [(invariant state).synAcked state _ acks]
          simp
        rcases state with sent | received
        · obtain ⟨syn, ack, acks⟩ :=
            client sent ((receiveSwitch_synSent _ segment sent).mp established)
          exact ⟨segment, op, .inl ⟨sent, syn⟩, ack, acks, gone acks⟩
        · have ack := (receiveSwitch_synReceived _ segment received).mp established
          have acks := server received ack
          exact ⟨segment, op, .inr received, ack, acks, gone acks⟩
  | send | halfclose | close | timerTick =>
      refine iff_of_true ?_ trivial
      rintro ⟨segment, op', -⟩
      rw [op] at op'
      cases op'

/-- A connecting socket leaves its state for a later one only by entering ESTABLISHED. -/
theorem enters_of_connecting {s : TCPSocket} {input : Input}
    (connecting : s.state = .synSent ∨ s.state = .synReceived)
    (after : (s.step input).state.synchronized) : s.Enters input := by
  have before : s.state.synchronized = false := by
    rcases connecting with state | state <;> rw [state] <;> rfl
  have stuck {state : State} (same : (s.step input).state = state)
      (bad : state.synchronized = false) : s.Enters input := by
    rw [same, bad] at after
    cases after
  rcases step_eq input s with call | ⟨segment, op, -, receives⟩ | ⟨-, -, ticks⟩ | ⟨listening, -⟩
  · have refilled : (s.refilled input).state = s.state ∨ (s.refilled input).state = .closed := by
      unfold TCPSocket.refilled
      cases fills : s.filling input.op with
      | none => exact .inl (unfilled_state s input.op)
      | some t =>
          rcases filling_state fills with same | ⟨-, state, -⟩ | ⟨-, state, -⟩
          · rw [← same]
            exact fillTransmitQueue_state input.env.now t
          · simp [state] at connecting
          · simp [state] at connecting
    rcases refilled with same | closed
    · exact stuck ((congrArg TCPSocket.state call).trans same) before
    · exact stuck ((congrArg TCPSocket.state call).trans closed) rfl
  · refine ⟨segment, op, connecting, ?_⟩
    have final : (s.step input).state = (s.receiveSwitch input.env.now segment).state ∨
        (s.step input).state = (s.receiveSwitch input.env.now segment).state.afterFIN ∨
        (s.step input).state = .closed := by
      rw [receives, receive, if_neg (by rcases connecting with state | state <;> simp [state])]
      dsimp only
      split
      · exact .inr (receiveFIN_state _ segment _)
      · exact .inl rfl
    rcases receiveSwitch_state input.env.now segment s with same | closed | ⟨-, established⟩ |
      ⟨waiting, -⟩
    · rw [same] at final
      have fixed : s.state.afterFIN = s.state := by
        rcases connecting with state | state <;> rw [state] <;> rfl
      rw [fixed, ← or_assoc, or_self] at final
      rcases final with same | closed
      · rw [same, before] at after
        cases after
      · rw [closed] at after
        cases after
    · rw [closed] at final
      have dead : (s.step input).state = .closed := by
        rcases final with dead | dead | dead <;> exact dead
      rw [dead] at after
      cases after
    · exact established
    · simp [waiting] at connecting
  · rcases timerTick_state input.env s with same | closed
    · exact stuck ((congrArg TCPSocket.state ticks).trans same) before
    · exact stuck ((congrArg TCPSocket.state ticks).trans closed) rfl
  · simp [listening] at connecting

theorem synchronized_of_step {s : TCPSocket} {input : Input}
    (after : (s.step input).state.synchronized) : s.state.synchronized ∨ s.Enters input := by
  by_cases connecting : s.state = .synSent ∨ s.state = .synReceived
  · exact .inr (enters_of_connecting connecting after)
  · refine .inl ?_
    have follows := step_follows input s
    generalize (s.step input).state = state at follows after
    generalize s.state = before at follows connecting
    cases follows with
    | stay => exact after
    | closed => cases after
    | connected | connectedEnded | accepted | acceptedEnded => simp at connecting
    | peerEnded | halfclosed | bothEnded | ackedEnd | ackedPeerEnded | finished => rfl

/-! ## Whole runs -/

/-- A run that is past ESTABLISHED has entered it. -/
theorem exists_enters {s : TCPSocket} {inputs : List Input} (start : s.state.synchronized = false)
    (after : (run step s inputs).state.synchronized) :
    ∃ past input future, inputs = past ++ input :: future ∧ (run step s past).Enters input := by
  induction inputs generalizing s with
  | nil =>
      rw [run_nil, start] at after
      cases after
  | cons input inputs ih =>
      by_cases next : (s.step input).state.synchronized
      · rcases synchronized_of_step next with before | enters
        · rw [start] at before
          cases before
        · exact ⟨[], input, inputs, rfl, enters⟩
      · obtain ⟨past, other, future, split, enters⟩ := ih (Bool.eq_false_iff.mpr next) after
        exact ⟨input :: past, other, future, by rw [split]; rfl, enters⟩

/-- **The handshake over whole runs.** From the start of a connection on, every step
that enters ESTABLISHED or calls `onopen` completes the handshake, and every later
state is reached through such a step, exactly when the segments that arrive in
SYN_SENT and SYN_RECEIVED are safe. -/
theorem handshake_exact {iss : Seq} {s : TCPSocket} (started : Started iss s)
    (inputs : List Input) :
    (Along step (fun s input => s.Opens input → Completes iss s input) s inputs ∧
        ((run step s inputs).state.synchronized → ∃ past input future,
          inputs = past ++ input :: future ∧ Completes iss (run step s past) input)) ↔
      Along step (HandshakeSafe iss) s inputs := by
  have start := started.atStart
  have connecting : Connecting iss s :=
    ⟨start.ondrain, start.transmitPosition, start.queueTx, .inl start.transmitWindowEdge⟩
  have exact_steps : Along step (fun s input => s.Opens input → Completes iss s input) s inputs ↔
      Along step (HandshakeSafe iss) s inputs := by
    refine Along.iff_of_invariant
      (fun s => s.state = .synSent ∨ s.state = .synReceived → Connecting iss s)
      (fun s input _ invariant => opens_completes_iff invariant) (fun s input _ invariant _ => ?_)
      (Along.of_inputs fun _ _ => trivial) (fun _ => connecting)
    intro after
    have before := (step_follows input s).connecting after
    exact (invariant before).step before input
  rw [← exact_steps]
  refine ⟨And.left, fun along => ⟨along, fun after => ?_⟩⟩
  have before : s.state.synchronized = false := by
    rcases start.connecting with state | state <;> rw [state] <;> rfl
  obtain ⟨past, input, future, split, enters⟩ := exists_enters before after
  exact ⟨past, input, future, split,
    along_iff_forall_split.mp along past input future split (.inl enters)⟩

/-- A segment with ACK alone, for a number never sent, opens a client. -/
theorem handshake_skipped_by_stray_ack :
    ¬ ∀ (iss : Seq) (s : TCPSocket), Started iss s → ∀ inputs : List Input,
      Along step (fun s input => s.Opens input → Completes iss s input) s inputs ∧
        ((run step s inputs).state.synchronized → ∃ past input future,
          inputs = past ++ input :: future ∧ Completes iss (run step s past) input) := by
  intro claim
  have along := (claim 19999 dialled dialled_started
    [⟨direct 1, .receive (.ofData flagACK 700 5 0 [])⟩]).1
  obtain ⟨segment, op, -, -, acks, -⟩ := along.1 (.inl ⟨_, rfl, .inl rfl, by decide⟩)
  obtain rfl := Op.receive.inj op
  exact absurd acks (by decide)

/-- A client that receives SYN and ACK for its SYN. -/
theorem handshake_exact_synack :
    let inputs : List Input := [⟨direct 1, .receive (.ofData (flagSYN ||| flagACK) 700 20000 5 [])⟩]
    Along step (HandshakeSafe 19999) dialled inputs ∧
      (run step dialled inputs).state = .established ∧
      ∃ past input future, inputs = past ++ input :: future ∧
        Completes 19999 (run step dialled past) input := by
  intro inputs
  have safe : Along step (HandshakeSafe 19999) dialled inputs := by decide
  exact ⟨safe, by decide, ((handshake_exact dialled_started inputs).mpr safe).2 (by decide)⟩

end TCPSocket

end JsOS.Net.Tcp
