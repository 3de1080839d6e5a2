import JsOS.Net.Tcp.Step

/-! # No silent stall

A connection stalls when data waits in `_queueTx`, nothing is in flight and the
peer's window is open: no acknowledgement will come to fill the transmit queue
again. `_fillTransmitQueue` leaves a stall only behind an empty array at the head
of `_queueTx` (`noStall_fillTransmitQueue`); a segment that is no new
acknowledgement leaves one when it opens the window of an idle connection, and
CLOSE_WAIT looks at no acknowledgement at all (`noStall_exact`).
-/

namespace JsOS.Net.Tcp

open Transition

namespace TCPSocket

/-- If data waits, something is in flight or the peer's usable window is zero. -/
def NoStall (s : TCPSocket) : Prop :=
  s.queueTx ≠ [] → s.transmitQueue ≠ [] ∨ s.spaceLeft = 0

instance (s : TCPSocket) : Decidable s.NoStall :=
  inferInstanceAs (Decidable (_ → _))

/-- An empty array is at the head of `_queueTx`, nothing is in flight and the window is
open. -/
def Jammed (s : TCPSocket) : Prop :=
  s.queueTx.head? = some (some []) ∧ s.transmitQueue = [] ∧ 0 < s.spaceLeft

instance (s : TCPSocket) : Decidable s.Jammed :=
  inferInstanceAs (Decidable (_ ∧ _))

/-! ## Filling -/

/-- Something is in flight, or the connection was reset. -/
def Live (s : TCPSocket) : Prop := s.transmitQueue ≠ [] ∨ (s.queueTx = [] ∧ s.state = .closed)

theorem Live.noStall {s : TCPSocket} (live : Live s) : NoStall s := by
  intro waiting
  rcases live with busy | ⟨empty, -⟩
  · exact .inl busy
  · exact absurd empty waiting

/-- Once something has been pushed, `_fillTransmitQueue` does not end idle. -/
theorem Live.fillStable (now : Nat) : FillStable now fun s t => Live s → Live t where
  refl _ := id
  trans first second := second ∘ first
  pushData s count u8 _ := .inl (by simp [pushData])
  pushPart s count u8 queue _ := .inl (by simp [pushData])
  pushFIN s _ := .inl (by simp [pushFIN])
  shift s remove live := by
    rcases live with busy | ⟨empty, closed⟩
    · exact .inl busy
    · exact .inr ⟨by simp [empty], closed⟩
  enqueue s u8 able live := by
    rcases live with busy | ⟨-, closed⟩
    · exact .inl busy
    · simp [canSend, closed] at able
  ondrain _ _ live := live
  send s live := by
    by_cases below : s.BelowLimit
    · obtain ⟨packets, -, after⟩ := sendTransmitQueue_of_below now below
      rw [after]
      rcases live with busy | reset
      · exact .inl (by simpa using busy)
      · exact .inr reset
    · obtain ⟨packets, ack, -, after⟩ := sendTransmitQueue_of_limit now below
      rw [after]
      exact .inr ⟨rfl, rfl⟩

/-- The head of `_queueTx` is data that cannot be pushed. -/
def Blocked (s : TCPSocket) : Prop :=
  ∃ buf later, s.queueTx = some buf :: later ∧ s.reserved buf.length = 0

theorem fillLoop_head (now : Nat) {ondrain : TCPSocket → TCPSocket}
    (drains : ∀ s, Live s → Live (ondrain s)) {s : TCPSocket} (waiting : s.queueTx ≠ []) :
    (Blocked s ∧ s.fillLoop now ondrain s.queueTx.length 0 0 = (0, s)) ∨
      (¬ Blocked s ∧ Live (s.fillLoop now ondrain s.queueTx.length 0 0).2) := by
  cases queue : s.queueTx with
  | nil => exact absurd queue waiting
  | cons head later =>
      rw [List.length_cons]
      cases head with
      | none =>
          refine .inr ⟨?_, ?_⟩
          · rintro ⟨buf, later', head, -⟩
            rw [queue] at head
            cases head
          · rw [fillLoop_null (by simp [queue])]
            exact (Live.fillStable now).fillLoop drains _ _ _ _ (.inl (by simp [pushFIN]))
      | some buf =>
          have entry : s.queueTx[0]?.join = some buf := by simp [queue]
          by_cases blocked : s.reserved buf.length = 0
          · exact .inl ⟨⟨buf, later, queue, blocked⟩, fillLoop_blocked entry blocked⟩
          · refine .inr ⟨?_, ?_⟩
            · rintro ⟨buf', later', head, blocked'⟩
              rw [queue] at head
              cases head
              exact blocked blocked'
            · by_cases whole : s.reserved buf.length = buf.length
              · have nonempty : buf.length ≠ 0 := by
                  rw [whole] at blocked
                  omega
                rw [fillLoop_whole entry nonempty whole]
                refine (Live.fillStable now).fillLoop drains _ _ _ _ ?_
                split
                · exact drains _ (.inl (by simp [pushData]))
                · exact .inl (by simp [pushData])
              · rw [fillLoop_part entry blocked whole]
                exact .inl (by simp [pushData])

/-- `_fillTransmitQueue` only sends when the head of the queue is blocked, and otherwise
puts something in flight. -/
theorem fillTransmitQueue_head (now : Nat) {s : TCPSocket} (waiting : s.queueTx ≠ []) :
    (Blocked s ∧ s.fillTransmitQueue now = s.sendTransmitQueue now) ∨
      (¬ Blocked s ∧ Live (s.fillTransmitQueue now)) := by
  have stable := Live.fillStable now
  have body {ondrain : TCPSocket → TCPSocket} (drains : ∀ s, Live s → Live (ondrain s)) :
      (Blocked s ∧ s.fillBody now ondrain = s.sendTransmitQueue now) ∨
        (¬ Blocked s ∧ Live (s.fillBody now ondrain)) := by
    unfold fillBody
    rcases fillLoop_head now drains waiting with ⟨blocked, stopped⟩ | ⟨open_, live⟩
    · exact .inl ⟨blocked, by rw [stopped]; rfl⟩
    · exact .inr ⟨open_, stable.send _ (stable.shift _ _ live)⟩
  unfold fillTransmitQueue
  cases s.ondrain.elim 0 List.length with
  | zero => exact body fun _ => id
  | succ depth => exact body (stable.callOndrain (stable.fillNested depth))

/-- A change that concerns the receive side only keeps or ends no stall. -/
theorem TransmitFrame.noStall_iff {s t : TCPSocket} (frame : TransmitFrame s t) :
    NoStall t ↔ NoStall s := by
  have space : t.spaceLeft = s.spaceLeft := by
    simp only [spaceLeft, rightEdge, frame.transmitWindowEdge, frame.transmitWindowSize,
      frame.transmitPosition]
  have busy_iff (u : TCPSocket) : u.transmitQueue ≠ [] ↔ u.outstanding ≠ [] := by
    simp [outstanding]
  unfold NoStall
  rw [busy_iff t, busy_iff s, space]
  rcases frame.queues with ⟨-, queueTx, outstanding⟩ | ⟨-, queueTx, -, busy⟩
  · rw [queueTx, outstanding]
  · exact ⟨fun _ _ => .inl busy, fun _ waiting => absurd queueTx waiting⟩

theorem blocked_jammed {s : TCPSocket} (blocked : Blocked s) : NoStall s ↔ ¬ Jammed s := by
  obtain ⟨buf, later, queue, zero⟩ := blocked
  unfold NoStall Jammed
  rw [queue]
  unfold reserved maxSegmentSize at zero
  have length : buf.length = 0 ↔ buf = [] := List.length_eq_zero_iff
  by_cases busy : s.transmitQueue = []
  · by_cases empty : buf = []
    · rw [length.mpr empty] at zero
      simp [busy, empty]
      omega
    · have positive := List.length_pos_of_ne_nil empty
      simp [busy, empty]
      omega
  · simp [busy]

/-- **A fill leaves a stall exactly behind an empty array.** -/
theorem noStall_fillTransmitQueue (now : Nat) (s : TCPSocket) :
    NoStall (s.fillTransmitQueue now) ↔ ¬ Jammed s := by
  by_cases waiting : s.queueTx = []
  · rw [fillTransmitQueue_of_empty now waiting, (TransmitFrame.sendTransmitQueue now s).noStall_iff]
    simp [NoStall, Jammed, waiting]
  · rcases fillTransmitQueue_head now waiting with ⟨blocked, after⟩ | ⟨open_, live⟩
    · rw [after, (TransmitFrame.sendTransmitQueue now s).noStall_iff]
      exact blocked_jammed blocked
    · refine iff_of_true live.noStall ?_
      rintro ⟨head, -, space⟩
      cases queue : s.queueTx with
      | nil => exact waiting queue
      | cons first later =>
          rw [queue] at head
          cases head
          refine open_ ⟨[], later, queue, ?_⟩
          simp only [reserved, maxSegmentSize, List.length_nil]
          omega

/-! ## Steps -/

/-- The segment moves the peer's window as it would in ESTABLISHED. -/
def AcksAlike (s : TCPSocket) (now : Nat) (segment : Segment) : Prop :=
  let other := (s.setState .established).receive now segment
  (s.receive now segment).transmitWindowEdge = other.transmitWindowEdge ∧
    (s.receive now segment).transmitWindowSize = other.transmitWindowSize

instance (s : TCPSocket) (now : Nat) (segment : Segment) : Decidable (AcksAlike s now segment) :=
  inferInstanceAs (Decidable (_ ∧ _))

/-- A `send` that does not throw, and a segment handled in ESTABLISHED or CLOSE_WAIT, leave
no stall; CLOSE_WAIT accepts acknowledgements as ESTABLISHED does. -/
def Progresses (s : TCPSocket) (input : Input) : Prop :=
  match input.op with
  | .send _ => s.canSend → NoStall (s.step input)
  | .receive segment =>
      (s.canSend → NoStall (s.step input)) ∧
        (s.state = .closeWait → AcksAlike s input.env.now segment)
  | _ => True

instance (s : TCPSocket) : ∀ input : Input, Decidable (s.Progresses input)
  | ⟨_, .send _⟩ => inferInstanceAs (Decidable (_ → NoStall _))
  | ⟨_, .receive _⟩ => inferInstanceAs (Decidable ((_ → NoStall _) ∧ (_ → AcksAlike _ _ _)))
  | ⟨_, .halfclose⟩ | ⟨_, .close⟩ | ⟨_, .timerTick⟩ => .isTrue trivial

/-- The step does not meet one of the gaps: it does not fill from an empty array with
nothing in flight and an open window, it is no segment without a new
acknowledgement that leaves an idle connection with queued data and an open
window, and no segment with news arrives in CLOSE_WAIT. -/
def Flows (s : TCPSocket) (input : Input) : Prop :=
  match input.op with
  | .send u8 => s.canSend → ¬ Jammed (s.enqueue u8)
  | .receive segment =>
      (s.state = .established →
        if s.AcceptsACK segment.ackNumber then
          ¬ Jammed (s.acknowledged segment.ackNumber segment.windowSize.toNat)
        else NoStall { s with transmitWindowSize := segment.windowSize.toNat }) ∧
      (s.state = .closeWait →
        ¬ s.AcceptsACK segment.ackNumber ∧ s.transmitWindowSize = segment.windowSize.toNat)
  | _ => True

instance (s : TCPSocket) : ∀ input : Input, Decidable (s.Flows input)
  | ⟨_, .send _⟩ => inferInstanceAs (Decidable (_ → ¬_))
  | ⟨_, .receive _⟩ => inferInstanceAs (Decidable ((_ → @ite Prop _ _ _ _) ∧ (_ → _ ∧ _)))
  | ⟨_, .halfclose⟩ | ⟨_, .close⟩ | ⟨_, .timerTick⟩ => .isTrue trivial

section Steps

variable {s : TCPSocket} {now : Nat} {segment : Segment}

theorem changeOnFIN_noStall_iff (now : Nat) (s : TCPSocket) :
    NoStall (s.changeOnFIN now) ↔ NoStall s := by
  obtain ⟨time, more, after, -⟩ := changeOnFIN_eq now s
  rw [after]
  exact Iff.rfl

theorem canSend_iff : s.canSend ↔ s.state = .established ∨ s.state = .closeWait := by
  simp [canSend]

/-- In ESTABLISHED and CLOSE_WAIT the `switch` of `_receive` leaves the transmit side to the
acknowledgement. -/
theorem receiveSwitch_transmitFrame (able : s.canSend) :
    TransmitFrame (s.acked now segment) (s.receiveSwitch now segment) := by
  rcases canSend_iff.mp able with state | state
  · rw [acked, handlesACK, receiveSwitch, state, if_pos rfl]
    unfold receiveData
    dsimp only
    split
    · exact .insertReceiveQueue now _ _
    · exact .refl _
  · rw [acked, handlesACK, receiveSwitch, state, if_neg Bool.false_ne_true]
    exact .refl _

theorem receive_noStall_iff (able : s.canSend) :
    NoStall (s.receive now segment) ↔ NoStall (s.acked now segment) := by
  have connection : s.state ≠ .listen := by
    rcases canSend_iff.mp able with state | state <;> simp [state]
  have switched : TransmitFrame (s.acked now segment) (s.receiveSwitch now segment) :=
    receiveSwitch_transmitFrame able
  unfold receive
  rw [if_neg connection]
  dsimp only
  split
  · rw [receiveFIN, changeOnFIN_noStall_iff]
    exact (switched.trans (.insertReceiveQueue now _ _)).noStall_iff
  · exact switched.noStall_iff

/-- A segment in ESTABLISHED. -/
theorem receive_established_noStall_iff (state : s.state = .established) :
    NoStall (s.receive now segment) ↔
      if s.AcceptsACK segment.ackNumber then
        ¬ Jammed (s.acknowledged segment.ackNumber segment.windowSize.toNat)
      else NoStall { s with transmitWindowSize := segment.windowSize.toNat } := by
  rw [receive_noStall_iff (canSend_iff.mpr (.inl state)), acked, handlesACK, state, if_pos rfl]
  split
  · next accepts =>
      rw [acceptACK_of_accepts now accepts]
      exact noStall_fillTransmitQueue now _
  · next rejects =>
      rw [acceptACK_of_not_accepts now rejects]
      exact Iff.rfl

theorem acked_of_closeWait (state : s.state = .closeWait) : s.acked now segment = s := by
  rw [acked, handlesACK, state, if_neg Bool.false_ne_true]

/-- CLOSE_WAIT accepts an acknowledgement as ESTABLISHED does only if there is nothing to
accept. -/
theorem acksAlike_iff (state : s.state = .closeWait) :
    AcksAlike s now segment ↔
      ¬ s.AcceptsACK segment.ackNumber ∧ s.transmitWindowSize = segment.windowSize.toNat := by
  have here := receive_queueFrame now segment s
  have there := receive_queueFrame now segment (s.setState .established)
  have acked : (s.setState .established).acked now segment = (s.setState .established).acceptACK now
      segment.ackNumber segment.windowSize.toNat := rfl
  rw [acked_of_closeWait state] at here
  unfold AcksAlike
  dsimp only
  rw [here.transmitWindowEdge, here.transmitWindowSize, there.transmitWindowEdge,
    there.transmitWindowSize, acked]
  by_cases accepts : s.AcceptsACK segment.ackNumber
  · obtain ⟨edge, size⟩ := fillTransmitQueue_window now
      ((s.setState .established).acknowledged segment.ackNumber segment.windowSize.toNat)
    rw [acceptACK_of_accepts now (s := s.setState .established) accepts, edge]
    exact iff_of_false (fun alike => accepts.1 alike.1) fun rejects => rejects.1 accepts
  · rw [acceptACK_of_not_accepts now (s := s.setState .established) accepts]
    exact ⟨fun alike => ⟨accepts, alike.2⟩, fun same => ⟨rfl, same.2⟩⟩

end Steps

/-! ## Runs -/

/-- Nothing is queued before the handshake, and there is no stall after it. -/
structure Unstalled (s : TCPSocket) : Prop where
  connecting : s.state = .synSent ∨ s.state = .synReceived → s.queueTx = []
  writable : s.canSend → NoStall s

/-- **One step.** -/
theorem Unstalled.progresses_iff {s : TCPSocket} (unstalled : Unstalled s) (input : Input) :
    s.Progresses input ↔ s.Flows input := by
  obtain ⟨env, op⟩ := input
  unfold Progresses Flows
  cases op with
  | send u8 =>
      dsimp only
      refine imp_congr_right fun able => ?_
      have step_eq : s.step ⟨env, .send u8⟩ = (s.enqueue u8).fillTransmitQueue env.now := by
        simp [step, send, able, orUnchanged, Except.map]
      rw [step_eq]
      exact noStall_fillTransmitQueue env.now _
  | receive segment =>
      dsimp only
      change (s.canSend → NoStall (s.receive env.now segment)) ∧ _ ↔ _
      rw [canSend_iff]
      constructor
      · rintro ⟨noStall, alike⟩
        exact ⟨fun state => (receive_established_noStall_iff state).mp (noStall (.inl state)),
          fun state => (acksAlike_iff state).mp (alike state)⟩
      · rintro ⟨flows, quiet⟩
        refine ⟨?_, fun state => (acksAlike_iff state).mpr (quiet state)⟩
        rintro (state | state)
        · exact (receive_established_noStall_iff state).mpr (flows state)
        · have able := canSend_iff.mpr (.inr state)
          rw [receive_noStall_iff able, acked_of_closeWait state]
          exact unstalled.writable able
  | _ => exact Iff.rfl

/-- During the handshake nothing is queued. -/
theorem step_of_connecting {s : TCPSocket} (connecting : s.state = .synSent ∨ s.state = .synReceived)
    (empty : s.queueTx = []) (input : Input) : (s.step input).queueTx = [] := by
  refine (step_queueFrame input s).empty ?_
  have unable : s.canSend = false := by
    rcases connecting with state | state <;> simp [canSend, state]
  have unending : s.ending? = none := by
    rcases connecting with state | state <;> simp [ending?, state]
  obtain ⟨env, op⟩ := input
  cases op with
  | send u8 =>
      simp only [refilled, filling, unable, Bool.false_eq_true, ↓reduceIte, Option.map_none,
        Option.getD_none]
      exact empty
  | receive segment =>
      rw [← acked_eq_refilled]
      exact (acked_of_empty env.now segment empty).2
  | timerTick => exact empty
  | halfclose | close =>
      simp only [refilled, filling, unending, Option.map_none, Option.getD_none]
      exact empty

/-- The timer neither makes nor ends a stall. -/
theorem timerTick_noStall_iff (env : Env) {s : TCPSocket} (able : s.canSend) :
    NoStall (s.timerTick env) ↔ NoStall s := by
  unfold timerTick
  rcases canSend_iff.mp able with state | state
  · rw [state]
    exact (TransmitFrame.sendTransmitQueue env.now s).noStall_iff
  · rw [state]

/-- Once the owner has ended the connection, it cannot send. -/
theorem not_canSend_of_ends {s : TCPSocket} {input : Input} (ends : input.op.Ends)
    (able : s.canSend) : ¬ (s.step input).canSend := by
  have ended (state : State) (other : state ≠ .established ∧ state ≠ .closeWait) :
      ¬ ((s.queueEnd state).fillTransmitQueue input.env.now).canSend := by
    rw [canSend_iff]
    rcases fillTransmitQueue_state input.env.now (s.queueEnd state) with same | closed
    · rw [same]
      exact fun writable => writable.elim other.1 other.2
    · simp [closed]
  have connection : s.state ≠ .listen := by
    rcases canSend_iff.mp able with state | state <;> simp [state]
  have halfclosed : s.step input = s.orUnchanged (s.halfclose input.env.now) := by
    obtain ⟨env, op⟩ := input
    rcases ends with op | op
    · dsimp only at op
      rw [op]
      rfl
    · dsimp only at op
      rw [op]
      unfold step close
      dsimp only
      rw [if_neg connection]
  rw [halfclosed, halfclose_eq]
  rcases canSend_iff.mp able with state | state
  · have ending : s.ending? = some (s.queueEnd .finWait1) := by rw [ending?, state]
    rw [ending]
    exact ended .finWait1 (by simp)
  · have ending : s.ending? = some (s.queueEnd .lastAck) := by rw [ending?, state]
    rw [ending]
    exact ended .lastAck (by simp)

theorem Unstalled.step {s : TCPSocket} (unstalled : Unstalled s) {input : Input}
    (flows : s.Flows input) : Unstalled (s.step input) := by
  have progresses := (unstalled.progresses_iff input).mpr flows
  have follows := step_follows input s
  constructor
  · intro connecting
    have before : s.state = .synSent ∨ s.state = .synReceived := by
      generalize s.state = earlier at follows ⊢
      generalize (s.step input).state = after at follows connecting
      cases follows <;> simp_all
    exact step_of_connecting before (unstalled.connecting before) input
  · intro able
    by_cases connecting : s.state = .synSent ∨ s.state = .synReceived
    · intro waiting
      exact absurd (step_of_connecting connecting (unstalled.connecting connecting) input) waiting
    have before : s.canSend := by
      rw [canSend_iff] at able ⊢
      generalize s.state = earlier at follows connecting ⊢
      generalize (s.step input).state = after at follows able
      cases follows <;> simp_all
    obtain ⟨env, op⟩ := input
    cases op with
    | send u8 => exact progresses before
    | receive segment => exact progresses.1 before
    | timerTick => exact (timerTick_noStall_iff env before).mpr (unstalled.writable before)
    | halfclose => exact absurd able (not_canSend_of_ends (.inl rfl) before)
    | close => exact absurd able (not_canSend_of_ends (.inr rfl) before)

/-- **No silent stall.** In any run of a connection, with any `ondrain`, every `send` and
every segment in ESTABLISHED or CLOSE_WAIT leaves no stall, and CLOSE_WAIT accepts
acknowledgements as ESTABLISHED does, exactly if no step meets one of the gaps. -/
theorem noStall_exact {s : TCPSocket} {inputs : List Input} (unstalled : Unstalled s) :
    Along step Progresses s inputs ↔ Along step Flows s inputs := by
  have any : Along step (fun _ _ => True) s inputs := .of_inputs fun _ _ => trivial
  exact Along.iff_of_invariant Unstalled
    (fun _ input _ unstalled => unstalled.progresses_iff input)
    (fun _ _ _ unstalled flows => unstalled.step flows) any unstalled

/-- A connection at its start has nothing queued. -/
theorem Started.unstalled {iss : Seq} {s : TCPSocket} (started : Started iss s) :
    Unstalled s := by
  have empty := started.atStart.queueTx
  exact ⟨fun _ => empty, fun _ waiting => absurd empty waiting⟩

/-- A client sends and is acknowledged. -/
theorem noStall_exact_acknowledged :
    let inputs : List Input :=
      [⟨direct 0, .receive (.ofData (flagSYN ||| flagACK) 4999 20000 2 [])⟩,
        ⟨direct 0, .send [1, 2, 3]⟩, ⟨direct 0, .receive (.ofData flagACK 5000 20002 2 [])⟩]
    Unstalled dialled ∧ Along step Progresses dialled inputs := by
  intro inputs
  have unstalled := dialled_started.unstalled
  exact ⟨unstalled, (noStall_exact unstalled).mpr (by decide)⟩

/-- Data waits for a closed window; the segment that opens the window is no new
acknowledgement, and nothing is sent. -/
theorem stalled_by_window_update :
    let inputs : List Input :=
      [⟨direct 0, .receive (.ofData (flagSYN ||| flagACK) 4999 20000 0 [])⟩,
        ⟨direct 0, .send [1, 2, 3]⟩, ⟨direct 0, .receive (.ofData flagACK 5000 20000 8192 [])⟩]
    Started 19999 dialled ∧ (run step dialled inputs).state = .established ∧
      (run step dialled inputs).queueTx = [some [1, 2, 3]] ∧
      (run step dialled inputs).transmitQueue = [] ∧
      (run step dialled inputs).spaceLeft = 8192 ∧
      ¬ Along step Progresses dialled inputs := by
  intro inputs
  exact ⟨dialled_started, by decide, by decide, by decide, by decide, by decide⟩

end TCPSocket

end JsOS.Net.Tcp
