import JsOS.Net.Tcp.Accounting

/-! # Destroyed sockets

`_resetConnection` assigns CLOSED and calls `_destroy` in the middle of
`_sendTransmitQueue`, and most callers then leave `_state` alone, so that a socket is
CLOSED exactly when it has been destroyed (`Tracked`). Two branches of `_receive` go on
to assign another state after a reset (`Revives`).
-/

namespace JsOS.Net.Tcp

open Circular

theorem State.afterFIN_eq_closed_iff (state : State) :
    state.afterFIN = .closed ↔ state = .closed := by
  cases state <;> decide

namespace TCPSocket

/-! ## Closed and destroyed together -/

/-- The second socket comes from the first by changes after which it is CLOSED exactly if
the first was or `_destroy` has been called. -/
def Tracked (s t : TCPSocket) : Prop :=
  ∃ more, t.events = s.events ++ more ∧
    (t.state = .closed ↔ s.state = .closed ∨ .destroy ∈ more)

namespace Tracked

variable {s t u : TCPSocket} {now : Nat}

theorem refl (s : TCPSocket) : Tracked s s :=
  ⟨[], (List.append_nil _).symm, by simp⟩

theorem trans (first : Tracked s t) (second : Tracked t u) : Tracked s u := by
  obtain ⟨more, events, closed⟩ := first
  obtain ⟨later, events', closed'⟩ := second
  refine ⟨more ++ later, by rw [events', events, List.append_assoc], ?_⟩
  rw [closed', closed, List.mem_append, or_assoc]

/-- A change that neither destroys the socket nor touches whether it is CLOSED. -/
theorem of_alive {more : List Event} (events : t.events = s.events ++ more)
    (quiet : .destroy ∉ more) (same : t.state = .closed ↔ s.state = .closed) : Tracked s t :=
  ⟨more, events, by rw [same, or_iff_left quiet]⟩

theorem of_same (events : t.events = s.events) (state : t.state = s.state) : Tracked s t :=
  of_alive (by rw [events, List.append_nil]) List.not_mem_nil (by rw [state])

theorem emit {event : Event} (s : TCPSocket) (quiet : event ≠ .destroy) :
    Tracked s (s.emit event) :=
  of_alive rfl (fun member => quiet (List.mem_singleton.mp member).symm) Iff.rfl

theorem emitIf {event : Event} (s : TCPSocket) (callback : Bool) (quiet : event ≠ .destroy) :
    Tracked s (s.emitIf callback event) := by
  cases callback with
  | false => exact refl s
  | true => exact emit s quiet

theorem setState {state : State} (alive : s.state ≠ .closed) (open_ : state ≠ .closed) :
    Tracked s (s.setState state) :=
  of_alive (List.append_nil _).symm List.not_mem_nil (by
    rw [iff_false_right alive]
    exact open_)

/-- CLOSED is assigned together with a call of `_destroy`. -/
theorem destroyed {more : List Event} (events : t.events = s.events ++ more)
    (closed : t.state = .closed) (destroyed : .destroy ∈ more) : Tracked s t :=
  ⟨more, events, iff_of_true closed (.inr destroyed)⟩

/-- The end of a connection in LAST_ACK. -/
theorem closeAndDestroy (tracked : Tracked s t) (callback : Bool) :
    Tracked s ((t.setState .closed).emitIf callback .onclose).destroy := by
  obtain ⟨more, events, -⟩ := tracked
  cases callback with
  | false =>
      refine @destroyed _ _ (more ++ [.destroy]) ?_ rfl
        (List.mem_append_right _ (List.mem_singleton_self _))
      change t.events ++ [.destroy] = _
      rw [events, List.append_assoc]
  | true =>
      refine @destroyed _ _ (more ++ [.onclose, .destroy]) ?_ rfl
        (List.mem_append_right _ (List.mem_cons_of_mem _ (List.mem_singleton_self _)))
      change t.events ++ [.onclose] ++ [.destroy] = _
      rw [events, List.append_assoc, List.append_assoc]
      rfl

theorem not_mem_destroy {packets : List Event} (transmits : ∀ event ∈ packets, event.isTransmit) :
    .destroy ∉ packets :=
  fun member => Bool.false_ne_true (transmits _ member)

theorem sendTransmitQueue (now : Nat) (s : TCPSocket) : Tracked s (s.sendTransmitQueue now) := by
  by_cases below : s.BelowLimit
  · obtain ⟨packets, transmits, after⟩ := sendTransmitQueue_of_below now below
    rw [after]
    exact of_alive rfl (not_mem_destroy transmits) Iff.rfl
  · obtain ⟨packets, ack, -, after⟩ := sendTransmitQueue_of_limit now below
    rw [after]
    exact destroyed (List.append_assoc _ _ _) rfl
      (List.mem_append_right _ (List.mem_singleton_self _))

theorem fillStable (now : Nat) : FillStable now Tracked where
  refl := refl
  trans := trans
  pushData s count u8 := of_alive rfl (by simp) Iff.rfl
  pushPart s count u8 queue := of_alive rfl (by simp) Iff.rfl
  pushFIN s := of_alive rfl (by simp) Iff.rfl
  shift s remove := of_same rfl rfl
  enqueue s u8 able := of_same rfl rfl
  ondrain s later := of_same rfl rfl
  send := sendTransmitQueue now

theorem fillTransmitQueue (now : Nat) (s : TCPSocket) : Tracked s (s.fillTransmitQueue now) :=
  (fillStable now).fillTransmitQueue s

theorem acceptACK (now : Nat) (ackNumber : Seq) (windowSize : Nat) (s : TCPSocket) :
    Tracked s (s.acceptACK now ackNumber windowSize) := by
  by_cases accepts : s.AcceptsACK ackNumber
  · rw [acceptACK_of_accepts now accepts]
    have cleaned : Tracked s (s.acknowledged ackNumber windowSize) := of_same rfl rfl
    exact cleaned.trans (fillTransmitQueue now _)
  · rw [acceptACK_of_not_accepts now accepts]
    exact of_same rfl rfl

theorem emitData (s : TCPSocket) (u8 : Option Bytes) : Tracked s (s.emitData u8) := by
  cases u8 with
  | none => exact refl s
  | some u8 => exact emitIf s s.ondata Event.noConfusion

theorem popItems (removed : Nat) (s : TCPSocket) : Tracked s (s.popItems removed) := by
  induction removed generalizing s with
  | zero => exact refl s
  | succ removed ih =>
      unfold TCPSocket.popItems
      cases s.receiveQueue.getLast? with
      | none => exact ih s
      | some item =>
          have popped : Tracked s { s with receiveQueue := s.receiveQueue.dropLast } :=
            of_same rfl rfl
          exact (popped.trans (emitData _ item.u8)).trans (ih _)

theorem processReceiveQueue (now : Nat) (s : TCPSocket) :
    Tracked s (s.processReceiveQueue now) := by
  unfold TCPSocket.processReceiveQueue
  dsimp only
  generalize s.outerLoop s.receiveQueue.length s.receiveQueue.length 0 s.receiveWindowEdge
    s.receiveQueue = result
  obtain ⟨removed, lastAck, queue⟩ := result
  have taken : Tracked s { s with receiveQueue := queue } := of_same rfl rfl
  split
  · have popped := taken.trans (popItems removed _)
    have slid := popped.trans (u := (TCPSocket.receiveWindowSlideTo _ lastAck).requireACK)
      (of_same rfl rfl)
    exact slid.trans (sendTransmitQueue now _)
  · exact taken

theorem insertReceiveQueue (now : Nat) (s : TCPSocket) (item : ReceiveItem) :
    Tracked s (s.insertReceiveQueue now item) := by
  unfold TCPSocket.insertReceiveQueue
  dsimp only
  split
  · have fast : Tracked s (((s.emitData item.u8).receiveWindowSlideTo
        (seqInc item.seq item.len)).requireACK.sendTransmitQueue now) :=
      ((emitData s item.u8).trans (of_same rfl rfl)).trans (sendTransmitQueue now _)
    split
    · exact fast
    · exact fast.trans (processReceiveQueue now _)
  · exact trans (of_same rfl rfl) (processReceiveQueue now _)

theorem receiveData (now : Nat) (segment : Segment) (s : TCPSocket) :
    Tracked s (s.receiveData now segment) := by
  have acked := acceptACK now segment.ackNumber segment.windowSize.toNat s
  unfold TCPSocket.receiveData
  dsimp only
  split
  · exact acked.trans (insertReceiveQueue now _ _)
  · exact acked

theorem receiveFIN (now : Nat) (segment : Segment) (s : TCPSocket) :
    Tracked s (s.receiveFIN now segment) := by
  refine (insertReceiveQueue now s ⟨seqInc segment.seqNumber segment.dataLength, 1, none⟩).trans ?_
  obtain ⟨time, more, after, callbacks, -⟩ := changeOnFIN_eq now
    (s.insertReceiveQueue now ⟨seqInc segment.seqNumber segment.dataLength, 1, none⟩)
  rw [TCPSocket.receiveFIN, after]
  refine of_alive rfl (fun member => ?_) ?_
  · rcases callbacks _ member with same | same <;> cases same
  · exact State.afterFIN_eq_closed_iff _

theorem configure (env : Env) (s : TCPSocket) : Tracked s (s.configure env).2 := by
  obtain ⟨port, intf, viaIP, after⟩ := configure_eq env s
  rw [after]
  exact of_same rfl rfl

theorem sendConfigured (env : Env) (s : TCPSocket) : Tracked s (s.sendConfigured env) := by
  unfold TCPSocket.sendConfigured
  split
  · exact (configure env s).trans (sendTransmitQueue env.now _)
  · exact configure env s

theorem sendSYN (env : Env) (isAck : Bool) (s : TCPSocket) : Tracked s (s.sendSYN env isAck) := by
  rw [sendSYN_eq]
  refine trans ?_ (sendConfigured env _)
  exact of_alive rfl (by simp) Iff.rfl

theorem timerTick (env : Env) (s : TCPSocket) : Tracked s (s.timerTick env) := by
  rcases timerTick_cases env s with ⟨-, ticks⟩ | ⟨-, ticks⟩ | ⟨-, ticks⟩ | ⟨-, -, ticks⟩
  · rw [ticks]
    exact @destroyed _ _ [.destroy] rfl rfl (List.mem_singleton_self _)
  · rw [ticks]
    exact sendConfigured env s
  · rw [ticks]
    exact sendTransmitQueue env.now s
  · rw [ticks]
    exact refl s

end Tracked

/-! ## Filling the transmit queue when `send` is refused -/

/-- A call of `ondrain` does nothing to the socket but use up a group of arrays. -/
theorem callOndrain_refused (fill : TCPSocket → TCPSocket) {s : TCPSocket}
    (refused : s.canSend = false) : ∃ later, s.callOndrain fill = { s with ondrain := later } := by
  unfold callOndrain
  split
  · next sends later group =>
      refine ⟨some later, ?_⟩
      have idle (arrays : List Bytes) (t : TCPSocket) (closed : t.canSend = false) :
          arrays.foldl (fun s u8 => if s.canSend then fill (s.enqueue u8) else s) t = t := by
        induction arrays with
        | nil => rfl
        | cons u8 arrays ih =>
            rw [List.foldl_cons, closed]
            exact ih
      exact idle sends _ refused
  · exact ⟨s.ondrain, rfl⟩

/-- The loop as it runs without `ondrain`. -/
theorem fillLoop_refused (now : Nat) {ondrain : TCPSocket → TCPSocket}
    (drains : ∀ t : TCPSocket, t.canSend = false → ∃ later, ondrain t = { t with ondrain := later })
    (count i remove : Nat) (s : TCPSocket) (refused : s.canSend = false)
    (groups : Option (List (List Bytes))) :
    ∃ later, fillLoop now ondrain count i remove { s with ondrain := groups } =
      ((fillLoop now id count i remove s).1,
        { (fillLoop now id count i remove s).2 with ondrain := later }) := by
  induction count generalizing i remove s groups with
  | zero => exact ⟨groups, rfl⟩
  | succ count ih =>
      cases entry : s.queueTx[i]?.join with
      | none =>
          rw [fillLoop_null entry, fillLoop_null (s := { s with ondrain := groups }) entry]
          exact ih (i + 1) (remove + 1) (s.pushFIN now) refused groups
      | some buf =>
          by_cases blocked : s.reserved buf.length = 0
          · rw [fillLoop_blocked entry blocked,
              fillLoop_blocked (s := { s with ondrain := groups }) entry blocked]
            exact ⟨groups, rfl⟩
          · by_cases whole : s.reserved buf.length = buf.length
            · have nonempty : buf.length ≠ 0 := by
                rw [whole] at blocked
                omega
              rw [fillLoop_whole entry nonempty whole, id_eq, ite_self,
                fillLoop_whole (s := { s with ondrain := groups }) entry nonempty whole]
              have pushed : (s.pushData now buf.length buf).canSend = false := refused
              change ∃ later, fillLoop now ondrain count (i + 1) (remove + 1)
                (if (s.pushData now buf.length buf).bufferedAmount = 0 then
                  ondrain { s.pushData now buf.length buf with ondrain := groups }
                else { s.pushData now buf.length buf with ondrain := groups }) = _
              split
              · obtain ⟨later, drained⟩ := drains
                  { s.pushData now buf.length buf with ondrain := groups } pushed
                rw [drained]
                exact ih (i + 1) (remove + 1) (s.pushData now buf.length buf) pushed later
              · exact ih (i + 1) (remove + 1) (s.pushData now buf.length buf) pushed groups
            · rw [fillLoop_part entry blocked whole,
                fillLoop_part (s := { s with ondrain := groups }) entry blocked whole]
              exact ⟨groups, rfl⟩

/-- `_sendTransmitQueue` does not look at `ondrain`. -/
theorem sendTransmitQueue_ondrain (now : Nat) (s : TCPSocket)
    (groups : Option (List (List Bytes))) :
    ({ s with ondrain := groups } : TCPSocket).sendTransmitQueue now =
      { s.sendTransmitQueue now with ondrain := groups } := by
  have loop (items : List TransmitItem) (s : TCPSocket) :
      sendLoop now items { s with ondrain := groups } =
        ((sendLoop now items s).1, (sendLoop now items s).2.1,
          { (sendLoop now items s).2.2 with ondrain := groups }) := by
    induction items generalizing s with
    | nil => rfl
    | cons item items ih =>
        by_cases limit : item.retransmits > 7
        · simp only [sendLoop, limit, ↓reduceIte]
        · by_cases due : item.due now
          · simp only [sendLoop, limit, due, ↓reduceIte]
            have sent := ih ({ s with ackRequired := false }.transmit item.seq s.receiveWindowEdge
              item.flags s.receiveWindowSize item.u8)
            simp only [transmit, emit] at sent ⊢
            rw [sent]
          · simp only [sendLoop, limit, due, ↓reduceIte, ih, Bool.false_eq_true]
  unfold sendTransmitQueue
  rw [loop]
  dsimp only
  cases (sendLoop now s.transmitQueue s).1 with
  | true => rfl
  | false =>
      simp only [Bool.false_eq_true, ↓reduceIte]
      split <;> rfl

/-- **`_fillTransmitQueue` while `send` is refused** is the fill without `ondrain`. -/
theorem fillTransmitQueue_refused (now : Nat) {s : TCPSocket} (refused : s.canSend = false) :
    ∃ later, s.fillTransmitQueue now =
      { (s.afterFill (s.fillResult now)).sendTransmitQueue now with ondrain := later } := by
  have filled := afterLoop_fillLoop now s.queueTx.length 0 s rfl
  rw [List.drop_zero] at filled
  have body {ondrain : TCPSocket → TCPSocket}
      (drains : ∀ t : TCPSocket, t.canSend = false →
        ∃ later, ondrain t = { t with ondrain := later }) :
      ∃ later, s.fillBody now ondrain =
        { (s.afterFill (s.fillResult now)).sendTransmitQueue now with ondrain := later } := by
    obtain ⟨later, loop⟩ := fillLoop_refused now drains s.queueTx.length 0 0 s refused s.ondrain
    refine ⟨later, ?_⟩
    unfold fillResult
    rw [← filled, ← sendTransmitQueue_ondrain]
    unfold fillBody afterLoop
    rw [show fillLoop now ondrain s.queueTx.length 0 0 s = _ from loop]
  unfold fillTransmitQueue
  cases s.ondrain.elim 0 List.length with
  | zero => exact body fun t _ => ⟨t.ondrain, rfl⟩
  | succ depth => exact body fun t closed => callOndrain_refused _ closed

/-! ## Where the transmit position ends up -/

section Position

variable {ack : Seq} {size : Nat}

/-- The fill takes the transmit position back to the acknowledged number exactly if the
window is closed and there is data: the space left is negative then, and the position moves
by it. -/
theorem fillQueue_reaches (now : Nat) (small : size < 65536) (queue : List (Option Bytes))
    (offset limit : Nat) (positive : 0 < offset) (below : offset ≤ limit)
    (wide : 65536 ≤ limit) (near : limit + queue.length < 2 ^ 31) :
    ∃ reached : Nat, reached < 2 ^ 31 ∧
      (fillQueue now (seqInc ack size) (seqInc ack offset) queue).position = seqInc ack reached ∧
      (reached = 0 ↔ size = 0 ∧ ∃ buf, some buf ∈ queue) := by
  induction queue generalizing offset limit with
  | nil =>
      rw [List.length_nil] at near
      exact ⟨offset, by omega, rfl, by simp; omega⟩
  | cons head queue ih =>
      rw [List.length_cons] at near
      cases head with
      | none =>
          obtain ⟨reached, bound, position, zero⟩ :=
            ih (offset + 1) (limit + 1) (Nat.succ_pos _) (by omega) (by omega) (by omega)
          refine ⟨reached, bound, ?_, ?_⟩
          · rw [← position, Nat.cast_add, Nat.cast_one, ← seqInc_seqInc]
            rfl
          · rw [zero]
            simp
      | some buf =>
          have space : seqOffset (seqInc ack size) (seqInc ack offset) = size - offset := by
            refine seqOffset_eq ?_ (by omega) (by omega)
            rw [seqInc_seqInc]
            congr 1
            omega
          have data : ∃ buf', some buf' ∈ some buf :: queue := ⟨buf, List.mem_cons_self⟩
          unfold fillQueue
          rw [space]
          dsimp only
          unfold maxSegmentSize
          split
          · next blocked =>
              exact ⟨offset, by omega, rfl, by rw [and_iff_left data]; omega⟩
          · next open_ =>
              split
              · next whole =>
                  have advanced : (offset : Int) + min (min ((size : Int) - offset) buf.length) 536 =
                      ((offset + buf.length : Nat) : Int) := by omega
                  obtain ⟨reached, bound, position, zero⟩ :=
                    ih (offset + buf.length) limit (by omega) (by omega) wide (by omega)
                  refine ⟨reached, bound, ?_, ?_⟩
                  · rw [← position, seqInc_seqInc, advanced]
                  · rw [zero, and_iff_left data]
                    omega
              · next part =>
                  refine ⟨(offset + min (min ((size : Int) - offset) buf.length) 536).toNat,
                    by omega, ?_, ?_⟩
                  · rw [seqInc_seqInc, Int.toNat_of_nonneg (by omega)]
                  · rw [and_iff_left data]
                    omega

end Position

/-! ## Which segments bring a reset connection back -/

/-- More is in flight or queued than half of the sequence numbers can tell apart. -/
def Crowded (s : TCPSocket) : Prop := 2 ^ 30 ≤ s.inflight + s.queueTx.length

/-- The segment resets the connection at the retransmission limit and then lets `_receive`
assign another state. In SYN_SENT this takes the SYN or the ACK flag and an acknowledgement
that does not cover the SYN; in FIN_WAIT_1 an acknowledgement that leaves an item over the
limit, and a transmit position that is moved back to the acknowledged number because the
segment closes the window while data is still queued. -/
def Revives (s : TCPSocket) (segment : Segment) : Prop :=
  (s.state = .synSent ∧ segment.flags &&& (flagSYN ||| flagACK) ≠ 0 ∧
      ¬ s.AcceptsACK segment.ackNumber ∧ ¬ s.BelowLimit) ∨
    (s.state = .finWait1 ∧ s.AcceptsACK segment.ackNumber ∧
      ¬ (s.acknowledged segment.ackNumber segment.windowSize.toNat).BelowLimit ∧
      (segment.windowSize = 0 ∧ (∃ buf, some buf ∈ s.queueTx) ∨ s.Crowded))

/-- An acknowledgement of everything leaves nothing in flight. -/
theorem acknowledged_all (s : TCPSocket) (windowSize : Nat) :
    (s.acknowledged s.transmitPosition windowSize).transmitQueue = [] := by
  unfold acknowledged cleanupTransmitQueue
  dsimp only
  rw [List.dropWhile_eq_nil_iff]
  intro item _
  simp [isTransmittedUnacked]

/-- The items `_fillTransmitQueue` pushes have not been sent. -/
theorem fillQueue_unsent (now : Nat) (right position : Seq) (queue : List (Option Bytes)) :
    ∀ item ∈ (fillQueue now right position queue).items, item.retransmits = 0 := by
  induction queue generalizing position with
  | nil => exact fun item member => absurd member List.not_mem_nil
  | cons head queue ih =>
      cases head with
      | none =>
          intro item member
          rcases List.mem_cons.mp member with rfl | member
          · rfl
          · exact ih _ item member
      | some buf =>
          unfold fillQueue
          dsimp only
          split
          · exact fun item member => absurd member List.not_mem_nil
          · split
            · intro item member
              rcases List.mem_cons.mp member with rfl | member
              · rfl
              · exact ih _ item member
            · intro item member
              rw [List.mem_singleton.mp member]
              rfl

theorem belowLimit_afterFill (now : Nat) {s : TCPSocket} (below : s.BelowLimit) :
    (s.afterFill (s.fillResult now)).BelowLimit := by
  intro item member
  rcases List.mem_append.mp member with old | new
  · exact below item old
  · rw [fillQueue_unsent now _ _ _ item new]
    exact Nat.zero_le 7

/-- When a fill takes the transmit position to a number that leaves an item over the limit
unacknowledged, the window is closed and data is queued. -/
theorem closes_of_moved_back (now : Nat) {segment : Segment} {s : TCPSocket}
    (accepts : s.AcceptsACK segment.ackNumber)
    (above : ¬ (s.acknowledged segment.ackNumber segment.windowSize.toNat).BelowLimit)
    (moved : ((s.acknowledged segment.ackNumber segment.windowSize.toNat).fillResult now).position =
      segment.ackNumber) :
    segment.windowSize = 0 ∧ (∃ buf, some buf ∈ s.queueTx) ∨ s.Crowded := by
  by_cases crowded : s.Crowded
  · exact .inr crowded
  · refine .inl ?_
    obtain ⟨-, sum⟩ := accepts.inflight_eq
    have behind : 0 < ahead segment.ackNumber s.transmitPosition := by
      rw [ahead_pos_iff]
      intro all
      rw [← all] at above
      exact above (belowLimit_of_nil (acknowledged_all s _))
    unfold Crowded at crowded
    have near : ahead segment.ackNumber s.transmitPosition + s.queueTx.length < 2 ^ 30 := by omega
    have position : s.transmitPosition =
        seqInc segment.ackNumber (ahead segment.ackNumber s.transmitPosition : Nat) := by
      rw [seqInc_natCast, add_ahead]
    obtain ⟨reached, bound, reaches, zero⟩ := @fillQueue_reaches segment.ackNumber _ now
      segment.windowSize.isLt s.queueTx (ahead segment.ackNumber s.transmitPosition) (2 ^ 30)
      behind (by omega) (by decide) (by omega)
    rw [← position] at reaches
    change (fillQueue now (seqInc segment.ackNumber segment.windowSize.toNat) s.transmitPosition
      s.queueTx).position = _ at moved
    have back : reached = 0 := by
      rw [reaches, seqInc_natCast] at moved
      have offset := ahead_add_ofNat segment.ackNumber (show reached < 2 ^ 32 by omega)
      rw [moved, ahead_self] at offset
      exact offset.symm
    obtain ⟨closed, data⟩ := zero.mp back
    exact ⟨BitVec.eq_of_toNat_eq closed, data⟩

/-- In FIN_WAIT_1 a reset by `_acceptACK` leaves the transmit position elsewhere. -/
theorem acceptACK_finWait1 (now : Nat) {segment : Segment} {s : TCPSocket}
    (waiting : s.state = .finWait1) (spares : ¬ s.Revives segment)
    (acked : (s.acceptACK now segment.ackNumber segment.windowSize.toNat).transmitPosition =
      segment.ackNumber) :
    (s.acceptACK now segment.ackNumber segment.windowSize.toNat).state = .finWait1 := by
  by_cases accepts : s.AcceptsACK segment.ackNumber
  · rw [acceptACK_of_accepts now accepts] at acked ⊢
    have refused : (s.acknowledged segment.ackNumber segment.windowSize.toNat).canSend = false := by
      change (s.state = .established || s.state = .closeWait) = false
      rw [waiting]
      rfl
    obtain ⟨later, filled⟩ := fillTransmitQueue_refused now refused
    rw [filled] at acked ⊢
    change ((_ : TCPSocket).sendTransmitQueue now).state = _
    change ((_ : TCPSocket).sendTransmitQueue now).transmitPosition = _ at acked
    rw [(TransmitFrame.sendTransmitQueue now _).transmitPosition] at acked
    by_cases below : (s.acknowledged segment.ackNumber segment.windowSize.toNat).BelowLimit
    · obtain ⟨packets, -, after⟩ := sendTransmitQueue_of_below now (belowLimit_afterFill now below)
      rw [after]
      exact waiting
    · refine absurd (.inr ⟨waiting, accepts, below, ?_⟩) spares
      exact closes_of_moved_back now accepts below acked
  · rw [acceptACK_of_not_accepts now accepts]
    exact waiting

/-! ## Sockets that wait for their SYN -/

/-- A socket that waits for its SYN to be acknowledged. -/
def AwaitsSYN (s : TCPSocket) : Prop := s.state = .synSent ∨ s.state = .synReceived

/-- Until it is acknowledged, at most the SYN is in flight and no data is queued. -/
def Unladen (s : TCPSocket) : Prop := s.AwaitsSYN → s.queueTx = [] ∧ s.inflight ≤ 1

theorem AwaitsSYN.alive {s : TCPSocket} (connecting : s.AwaitsSYN) : s.state ≠ .closed := by
  rcases connecting with state | state <;> rw [state] <;> exact State.noConfusion

/-- An acknowledgement that a connecting socket accepts covers its SYN. -/
theorem AcceptsACK.eq_position {s : TCPSocket} (unladen : s.inflight ≤ 1) {ackNumber : Seq}
    (accepts : s.AcceptsACK ackNumber) : ackNumber = s.transmitPosition := by
  obtain ⟨positive, sum⟩ := accepts.inflight_eq
  exact (ahead_eq_zero_iff.mp (by omega)).symm

/-- An accepted acknowledgement empties the transmit queue of a connecting socket. -/
theorem acceptACK_connecting (now : Nat) {s : TCPSocket} (connecting : s.AwaitsSYN)
    (unladen : s.Unladen) {ackNumber : Seq} (accepts : s.AcceptsACK ackNumber) (windowSize : Nat) :
    (s.acceptACK now ackNumber windowSize).state = s.state ∧
      (s.acceptACK now ackNumber windowSize).transmitQueue = [] := by
  obtain ⟨empty, inflight⟩ := unladen connecting
  have all := accepts.eq_position inflight
  have nothing := acknowledged_all s windowSize
  rw [← all] at nothing
  rw [acceptACK_of_accepts now accepts,
    fillTransmitQueue_of_empty now (s := s.acknowledged ackNumber windowSize) empty]
  obtain ⟨packets, -, after⟩ := sendTransmitQueue_of_below now (belowLimit_of_nil nothing)
  rw [after, nothing]
  exact ⟨rfl, rfl⟩

/-- Unless the segment revives a reset connection, a connecting socket survives the
acknowledgement. -/
theorem acceptACK_connecting_alive (now : Nat) {s : TCPSocket} (connecting : s.AwaitsSYN)
    (unladen : s.Unladen) (ackNumber : Seq) (windowSize : Nat) :
    (s.acceptACK now ackNumber windowSize).state ≠ .closed := by
  by_cases accepts : s.AcceptsACK ackNumber
  · rw [(acceptACK_connecting now connecting unladen accepts windowSize).1]
    exact connecting.alive
  · rw [acceptACK_of_not_accepts now accepts]
    exact connecting.alive

/-- In SYN_SENT the queue can be sent after the acknowledgement. -/
theorem acceptACK_synSent_below (now : Nat) {segment : Segment} {s : TCPSocket}
    (sent : s.state = .synSent) (unladen : s.Unladen)
    (flags : segment.flags &&& (flagSYN ||| flagACK) ≠ 0) (spares : ¬ s.Revives segment) :
    (s.acceptACK now segment.ackNumber segment.windowSize.toNat).BelowLimit := by
  by_cases accepts : s.AcceptsACK segment.ackNumber
  · exact belowLimit_of_nil (acceptACK_connecting now (.inl sent) unladen accepts _).2
  · rw [acceptACK_of_not_accepts now accepts]
    by_contra above
    exact spares (.inl ⟨sent, flags, accepts, above⟩)

namespace Tracked

/-! ## Segments -/

theorem receiveSwitch (now : Nat) {segment : Segment} {s : TCPSocket} (unladen : s.Unladen)
    (spares : ¬ s.Revives segment) : Tracked s (s.receiveSwitch now segment) := by
  have acked := acceptACK now segment.ackNumber segment.windowSize.toNat s
  unfold TCPSocket.receiveSwitch
  cases state : s.state with
  | synSent =>
      have alive := acceptACK_connecting_alive now (.inl state) unladen segment.ackNumber
        segment.windowSize.toNat
      dsimp only
      split
      · next flags =>
          have below := acceptACK_synSent_below now state unladen flags spares
          generalize s.acceptACK now segment.ackNumber segment.windowSize.toNat = t
            at acked alive below ⊢
          obtain ⟨packets, transmits, after⟩ := sendTransmitQueue_of_below now
            (s := ((t.receiveWindowSlideTo segment.seqNumber).receiveWindowSlideInc).requireACK)
            below
          have sent : Tracked t
              (((t.receiveWindowSlideTo segment.seqNumber).receiveWindowSlideInc).requireACK.sendTransmitQueue
                now) := by
            rw [after]
            exact of_alive rfl (not_mem_destroy transmits) Iff.rfl
          have established := sent.trans (@setState _ .established
            (by rw [after]; exact alive) State.noConfusion)
          exact (acked.trans established).trans (emitIf _ _ Event.noConfusion)
      · exact acked
  | synReceived =>
      have alive := acceptACK_connecting_alive now (.inr state) unladen segment.ackNumber
        segment.windowSize.toNat
      dsimp only
      split
      · exact (acked.trans (setState alive State.noConfusion)).trans
          (emitIf _ _ Event.noConfusion)
      · exact acked
  | lastAck =>
      dsimp only
      split
      · exact closeAndDestroy acked _
      · exact acked
  | finWait1 =>
      dsimp only
      split
      · next finished =>
          have waiting := acceptACK_finWait1 now state spares finished
          refine (acked.trans (setState ?_ State.noConfusion)).trans (receiveData now segment _)
          rw [waiting]
          exact State.noConfusion
      · exact acked.trans (receiveData now segment _)
  | finWait2 => exact receiveData now segment s
  | established => exact receiveData now segment s
  | closed | listen | closeWait | closing | timeWait => exact refl s

theorem receive (now : Nat) {segment : Segment} {s : TCPSocket} (unladen : s.Unladen)
    (spares : ¬ s.Revives segment) : Tracked s (s.receive now segment) := by
  have switched := receiveSwitch now unladen spares
  unfold TCPSocket.receive
  split
  · exact refl s
  · dsimp only
    split
    · exact switched.trans (receiveFIN now segment _)
    · exact switched

/-! ## Steps -/

/-- A call of the owner on a socket that does not listen. -/
theorem filling (now : Nat) {op : Op} {s t : TCPSocket} (fills : s.filling op = some t) :
    Tracked s (t.fillTransmitQueue now) := by
  refine trans ?_ (fillTransmitQueue now t)
  have ended (ends : s.ending? = some t) : Tracked s t := by
    unfold ending? at ends
    cases state : s.state with
    | established | closeWait =>
        rw [state] at ends
        cases ends
        refine of_alive (List.append_nil _).symm List.not_mem_nil (iff_of_false ?_ ?_)
        · exact State.noConfusion
        · rw [state]
          exact State.noConfusion
    | _ =>
        rw [state] at ends
        cases ends
  cases op with
  | send u8 =>
      obtain ⟨-, ⟨⟩⟩ := Option.ite_none_right_eq_some.mp fills
      exact of_same rfl rfl
  | halfclose => exact ended fills
  | close => exact ended fills
  | receive segment =>
      obtain ⟨-, ⟨⟩⟩ := Option.ite_none_right_eq_some.mp fills
      exact of_same rfl rfl
  | timerTick => cases fills

/-- **A step leaves a socket CLOSED exactly if it was CLOSED or the step destroyed it**,
apart from the segments that revive one. -/
theorem step {s : TCPSocket} (unladen : s.Unladen) {input : Input}
    (spares : ∀ segment, input.op = .receive segment → ¬ s.Revives segment) :
    Tracked s (s.step input) := by
  rcases step_eq input s with call | ⟨segment, receives, -, stepped⟩ | ⟨-, -, ticks⟩ |
    ⟨-, -, closes⟩
  · rw [call]
    unfold refilled
    cases fills : s.filling input.op with
    | none =>
        unfold unfilled
        split
        · split
          · exact of_same rfl rfl
          · exact refl s
        · exact refl s
    | some t => exact filling input.env.now fills
  · rw [stepped]
    exact receive input.env.now unladen (spares segment receives)
  · rw [ticks]
    exact timerTick input.env s
  · have freed : Tracked s ((s.setState .closed).emit (.freePort s.port)).destroy :=
      @destroyed _ _ [.freePort s.port, .destroy] (List.append_assoc _ _ _) rfl
        (List.mem_cons_of_mem _ (List.mem_singleton_self _))
    rw [closes]
    exact freed.trans (emitIf _ _ Event.noConfusion)

end Tracked

/-! ## Sockets that wait for their SYN stay unladen -/

theorem Unladen.acceptACK (now : Nat) {s : TCPSocket} (connecting : s.AwaitsSYN) (unladen : s.Unladen)
    (ackNumber : Seq) (windowSize : Nat) :
    (s.acceptACK now ackNumber windowSize).inflight ≤ 1 := by
  obtain ⟨empty, bound⟩ := unladen connecting
  by_cases accepts : s.AcceptsACK ackNumber
  · obtain ⟨position, -, -⟩ := acceptACK_of_empty now ackNumber windowSize empty
    obtain ⟨edge, -⟩ := fillTransmitQueue_window now (s.acknowledged ackNumber windowSize)
    rw [← acceptACK_of_accepts now accepts] at edge
    rw [inflight, position, edge, ← accepts.eq_position bound]
    change ahead ackNumber ackNumber ≤ 1
    rw [ahead_self]
    exact Nat.zero_le 1
  · rw [acceptACK_of_not_accepts now accepts]
    exact bound

/-- What a step sends before anything else, in a connecting socket. -/
theorem Unladen.refilled {s : TCPSocket} (connecting : s.AwaitsSYN) (unladen : s.Unladen)
    (input : Input) : (s.refilled input).queueTx = [] ∧ (s.refilled input).inflight ≤ 1 := by
  obtain ⟨env, op⟩ := input
  have plain (none : s.filling op = none) (same : s.unfilled op = s) :
      (s.refilled ⟨env, op⟩).queueTx = [] ∧ (s.refilled ⟨env, op⟩).inflight ≤ 1 := by
    unfold TCPSocket.refilled
    dsimp only
    rw [none, Option.map_none, Option.getD_none, same]
    exact unladen connecting
  have ends : s.ending? = none := by
    unfold ending?
    rcases connecting with state | state <;> rw [state]
  cases op with
  | send u8 =>
      refine plain (if_neg ?_) rfl
      rcases connecting with state | state <;> simp [canSend, state]
  | halfclose => exact plain ends rfl
  | close => exact plain ends rfl
  | timerTick => exact plain rfl rfl
  | receive segment =>
      rw [← acked_eq_refilled]
      refine ⟨(acked_of_empty env.now segment (unladen connecting).1).2, ?_⟩
      unfold acked
      split
      · exact unladen.acceptACK env.now connecting _ _
      · exact (unladen connecting).2

theorem Unladen.step {s : TCPSocket} (unladen : s.Unladen) (input : Input) : (s.step input).Unladen := by
  intro connecting
  have before : s.AwaitsSYN := (step_follows input s).connecting connecting
  obtain ⟨empty, bound⟩ := unladen.refilled before input
  have frame := step_queueFrame input s
  refine ⟨frame.empty empty, ?_⟩
  rw [inflight, frame.transmitWindowEdge, frame.transmitPosition]
  exact bound

/-- A new socket that sends its SYN. -/
theorem Unladen.sendSYN (env : Env) (isAck : Bool) {s : TCPSocket} (idle : s.transmitQueue = [])
    (empty : s.queueTx = []) (position : s.transmitWindowEdge = s.transmitPosition) :
    (s.sendSYN env isAck).Unladen := by
  intro _
  obtain ⟨flags, -, frame, -⟩ := sendSYN_frame env isAck idle
  refine ⟨?_, ?_⟩
  · exact frame.queueFrame.empty empty
  · rw [inflight, frame.transmitWindowEdge, frame.transmitPosition]
    change ahead s.transmitWindowEdge (seqInc s.transmitPosition 1) ≤ 1
    rw [position, seqInc_one, ahead_succ]

end TCPSocket

end JsOS.Net.Tcp
