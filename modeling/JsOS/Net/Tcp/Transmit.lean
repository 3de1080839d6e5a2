import JsOS.Net.Tcp.Receive

/-! # What the sending methods do

`_sendTransmitQueue` hands the due items of the transmit queue to the interface;
it resets the connection exactly when an item has already been sent eight times
(`sendTransmitQueue_of_below`, `sendTransmitQueue_of_limit`). Without `ondrain`,
`_fillTransmitQueue` is a recursion on `_queueTx` (`fillTransmitQueue_eq`).
-/

namespace JsOS.Net.Tcp

/-- Whether the event hands a packet to the interface. -/
def Event.isTransmit : Event → Bool
  | .transmit .. => true
  | _ => false

/-- Whether the event calls or schedules a callback of the owner. -/
def Event.isCallback : Event → Bool
  | .ondata _ | .onend | .onclose | .onopen => true
  | _ => false

/-- Whether the event marks the progress of the connection: an item pushed, or a
callback other than `ondata`. -/
def Event.isLandmark : Event → Bool
  | .push .. | .onend | .onclose | .onopen | .freePort _ => true
  | _ => false

/-- The bytes the event passes to `ondata`. -/
def Event.payload : Event → Bytes
  | .ondata u8 => u8
  | _ => []

/-- The item the event pushes to `_transmitQueue`. -/
def Event.pushed? : Event → Option TransmitItem
  | .push item _ _ => some item
  | _ => none

/-- An item after a pass of `_sendTransmitQueue`. -/
def TransmitItem.resend (now : Nat) (item : TransmitItem) : TransmitItem :=
  if item.due now then { item with retransmits := item.retransmits + 1 } else item

@[simp] theorem TransmitItem.resend_seq (now : Nat) (item : TransmitItem) :
    (item.resend now).seq = item.seq := by
  unfold resend
  split <;> rfl

@[simp] theorem TransmitItem.resend_len (now : Nat) (item : TransmitItem) :
    (item.resend now).len = item.len := by
  unfold resend
  split <;> rfl

/-- An item without its retransmission count. -/
def TransmitItem.content (item : TransmitItem) : TransmitItem := { item with retransmits := 0 }

theorem TransmitItem.content_resend (now : Nat) (item : TransmitItem) :
    (item.resend now).content = item.content := by
  unfold resend
  split <;> rfl

namespace TCPSocket

/-- The callbacks called or scheduled so far, in order. -/
def callbacks (s : TCPSocket) : List Event := s.events.filter Event.isCallback

/-- The bytes passed to `ondata` so far, once the scheduled callbacks have run. -/
def delivered (s : TCPSocket) : Bytes := s.callbacks.flatMap Event.payload

/-- The items pushed to `_transmitQueue` so far, in order. -/
def pushed (s : TCPSocket) : List TransmitItem := s.events.filterMap Event.pushed?

/-- The pushed items and the callbacks other than `ondata` so far, in order. -/
def landmarks (s : TCPSocket) : List Event := s.events.filter Event.isLandmark

/-- The items of `_transmitQueue` without their retransmission counts. -/
def outstanding (s : TCPSocket) : List TransmitItem := s.transmitQueue.map TransmitItem.content

theorem pushed_eq_landmarks (s : TCPSocket) :
    s.pushed = s.landmarks.filterMap Event.pushed? := by
  rw [pushed, landmarks, List.filterMap_filter]
  congr 1
  funext event
  cases event <;> rfl

/-- No item of the transmit queue has been sent eight times. -/
def BelowLimit (s : TCPSocket) : Prop := ∀ item ∈ s.transmitQueue, item.retransmits ≤ 7

instance (s : TCPSocket) : Decidable s.BelowLimit :=
  inferInstanceAs (Decidable (∀ item ∈ s.transmitQueue, item.retransmits ≤ 7))

theorem filter_isCallback_eq_nil {packets : List Event}
    (transmits : ∀ event ∈ packets, event.isTransmit) :
    packets.filter Event.isCallback = [] := by
  rw [List.filter_eq_nil_iff]
  intro event member callback
  have transmit := transmits event member
  cases event <;> simp_all [Event.isTransmit, Event.isCallback]

theorem filter_isLandmark_eq_nil {packets : List Event}
    (transmits : ∀ event ∈ packets, event.isTransmit) :
    packets.filter Event.isLandmark = [] := by
  rw [List.filter_eq_nil_iff]
  intro event member landmark
  have transmit := transmits event member
  cases event <;> simp_all [Event.isTransmit, Event.isLandmark]

/-! ## `_sendTransmitQueue` -/

/-- The loop only transmits; it stops at an item that reached the limit. -/
theorem sendLoop_spec (now : Nat) (items : List TransmitItem) (s : TCPSocket) :
    ∃ packets ack, (∀ event ∈ packets, event.isTransmit) ∧
      (s.ackRequired = false → ack = false) ∧
      (sendLoop now items s).2.2 = { s with ackRequired := ack, events := s.events ++ packets } ∧
      ((sendLoop now items s).1 = true ↔ ∃ item ∈ items, 7 < item.retransmits) ∧
      ((∀ item ∈ items, item.retransmits ≤ 7) →
        (sendLoop now items s).2.1 = items.map (TransmitItem.resend now)) := by
  induction items generalizing s with
  | nil => exact ⟨[], s.ackRequired, by simp, id, by simp [sendLoop], by simp [sendLoop],
      fun _ => rfl⟩
  | cons item items ih =>
      by_cases limit : 7 < item.retransmits
      · refine ⟨[], s.ackRequired, by simp, id, ?_, ?_, ?_⟩
        · simp [sendLoop, limit]
        · simp [sendLoop, limit]
        · intro below
          have := below item List.mem_cons_self
          omega
      · have resent : (item :: items).map (TransmitItem.resend now) =
            item.resend now :: items.map (TransmitItem.resend now) := rfl
        by_cases due : item.due now
        · obtain ⟨packets, ack, transmits, quiet, after, stops, kept⟩ :=
            ih ({ s with ackRequired := false }.transmit item.seq s.receiveWindowEdge item.flags
              s.receiveWindowSize item.u8)
          refine ⟨.transmit item.seq s.receiveWindowEdge item.flags s.receiveWindowSize item.u8 ::
            packets, ack, ?_, fun _ => quiet rfl, ?_, ?_, ?_⟩
          · intro event member
            rcases List.mem_cons.mp member with rfl | member
            · rfl
            · exact transmits event member
          · simp only [sendLoop, limit, due, ↓reduceIte, after]
            simp [transmit, emit]
          · simp only [sendLoop, limit, due, ↓reduceIte, stops]
            simp [limit]
          · intro below
            rw [resent, TransmitItem.resend, if_pos due,
              ← kept fun item member => below item (List.mem_cons_of_mem _ member)]
            simp only [sendLoop, limit, due, ↓reduceIte]
        · obtain ⟨packets, ack, transmits, quiet, after, stops, kept⟩ := ih s
          refine ⟨packets, ack, transmits, quiet, ?_, ?_, ?_⟩
          · simp only [sendLoop, limit, due, ↓reduceIte, after, Bool.false_eq_true]
          · simp only [sendLoop, limit, due, ↓reduceIte, stops, Bool.false_eq_true]
            simp [limit]
          · intro below
            rw [resent, TransmitItem.resend, if_neg due,
              ← kept fun item member => below item (List.mem_cons_of_mem _ member)]
            simp only [sendLoop, limit, due, ↓reduceIte, Bool.false_eq_true]

/-- Below the limit, `_sendTransmitQueue` only transmits and counts. -/
theorem sendTransmitQueue_of_below (now : Nat) {s : TCPSocket} (below : s.BelowLimit) :
    ∃ packets, (∀ event ∈ packets, event.isTransmit) ∧
      s.sendTransmitQueue now = { s with
        transmitQueue := s.transmitQueue.map (TransmitItem.resend now)
        ackRequired := false
        events := s.events ++ packets } := by
  obtain ⟨packets, ack, transmits, -, after, stops, kept⟩ := sendLoop_spec now s.transmitQueue s
  have running : (sendLoop now s.transmitQueue s).1 = false := by
    rw [Bool.eq_false_iff]
    intro stopped
    obtain ⟨item, member, limit⟩ := stops.mp stopped
    have := below item member
    omega
  cases ack with
  | false =>
      refine ⟨packets, transmits, ?_⟩
      simp only [sendTransmitQueue, running, after, kept below, Bool.false_eq_true, ↓reduceIte]
  | true =>
      refine ⟨packets ++ [.transmit s.transmitPosition s.receiveWindowEdge flagACK
        s.receiveWindowSize none], ?_, ?_⟩
      · intro event member
        rcases List.mem_append.mp member with member | member
        · exact transmits event member
        · rw [List.mem_singleton.mp member]
          rfl
      · simp only [sendTransmitQueue, running, after, kept below, Bool.false_eq_true, ↓reduceIte,
          transmit, emit, List.append_assoc]

/-- At the limit, `_sendTransmitQueue` resets the connection. -/
theorem sendTransmitQueue_of_limit (now : Nat) {s : TCPSocket} (limit : ¬ s.BelowLimit) :
    ∃ packets ack, (∀ event ∈ packets, event.isTransmit) ∧
      s.sendTransmitQueue now = { s with
        state := .closed
        transmitQueue := []
        receiveQueue := []
        queueTx := []
        ackRequired := ack
        events := s.events ++ packets ++ [.destroy] } := by
  obtain ⟨packets, ack, transmits, -, after, stops, -⟩ := sendLoop_spec now s.transmitQueue s
  have stopped : (sendLoop now s.transmitQueue s).1 = true := by
    rw [stops]
    simpa only [BelowLimit, not_forall, not_le, exists_prop] using limit
  refine ⟨packets, ack, transmits, ?_⟩
  simp only [sendTransmitQueue, stopped, ↓reduceIte, after, resetConnection, setState, destroy, emit,
    List.append_assoc]

/-- With nothing in flight, `_sendTransmitQueue` sends at most an acknowledgement. -/
theorem belowLimit_of_nil {s : TCPSocket} (empty : s.transmitQueue = []) : s.BelowLimit := by
  simp [BelowLimit, empty]

/-! ## `_fillTransmitQueue` -/

/-- What `_allocTransmitPosition` returns. -/
def reserved (s : TCPSocket) (length : Int) : Int :=
  min (min s.spaceLeft length) maxSegmentSize

/-- Push an item for `count` bytes at the transmit position. -/
def pushData (now : Nat) (s : TCPSocket) (count : Int) (u8 : Bytes) : TCPSocket :=
  { s with
    transmitPosition := seqInc s.transmitPosition count
    transmitQueue := s.transmitQueue ++ [dataItem now s.transmitPosition count u8]
    bufferedAmount := s.bufferedAmount - count
    events := s.events ++ [.push (dataItem now s.transmitPosition count u8) s.transmitWindowEdge
      s.transmitWindowSize] }

/-- Push an item for the end of the data. -/
def pushFIN (now : Nat) (s : TCPSocket) : TCPSocket :=
  { s with
    transmitPosition := seqInc s.transmitPosition 1
    transmitQueue := s.transmitQueue ++ [finItem now s.transmitPosition]
    events := s.events ++ [.push (finItem now s.transmitPosition) s.transmitWindowEdge
      s.transmitWindowSize] }

section FillLoop

variable {now : Nat} {ondrain : TCPSocket → TCPSocket} {count i remove : Nat} {s : TCPSocket}
  {buf : Bytes}

theorem fillLoop_null (entry : s.queueTx[i]?.join = none) :
    fillLoop now ondrain (count + 1) i remove s =
      fillLoop now ondrain count (i + 1) (remove + 1) (s.pushFIN now) := by
  simp only [fillLoop, entry]
  rfl

theorem fillLoop_blocked (entry : s.queueTx[i]?.join = some buf)
    (blocked : s.reserved buf.length = 0) :
    fillLoop now ondrain (count + 1) i remove s = (remove, s) := by
  change min (min s.spaceLeft buf.length) maxSegmentSize = 0 at blocked
  simp only [fillLoop, entry, allocTransmitPosition, blocked, ↓reduceIte, seqInc_zero]

theorem fillLoop_whole (entry : s.queueTx[i]?.join = some buf)
    (nonempty : buf.length ≠ 0) (whole : s.reserved buf.length = buf.length) :
    fillLoop now ondrain (count + 1) i remove s =
      fillLoop now ondrain count (i + 1) (remove + 1)
        (if (s.pushData now buf.length buf).bufferedAmount = 0 then
          ondrain (s.pushData now buf.length buf) else s.pushData now buf.length buf) := by
  change min (min s.spaceLeft buf.length) maxSegmentSize = buf.length at whole
  have positive : (buf.length : Int) ≠ 0 := by omega
  simp only [fillLoop, entry, allocTransmitPosition, whole, positive, ↓reduceIte]
  rfl

theorem fillLoop_part (entry : s.queueTx[i]?.join = some buf)
    (open_ : s.reserved buf.length ≠ 0) (part : s.reserved buf.length ≠ buf.length) :
    fillLoop now ondrain (count + 1) i remove s =
      (remove, { s.pushData now (s.reserved buf.length)
          (subarray buf 0 (s.reserved buf.length)) with
        queueTx := s.queueTx.set i (some (subarrayFrom buf (s.reserved buf.length))) }) := by
  have part' : (buf.length : Int) ≠ s.reserved buf.length := fun same => part same.symm
  unfold reserved at open_ part' ⊢
  simp only [fillLoop, entry, allocTransmitPosition, open_, part', ↓reduceIte]
  rfl

end FillLoop

/-- The outcome of filling the transmit queue: the items pushed, the entries left
in `_queueTx`, the new transmit position and the number of bytes taken off
`_bufferedAmount`. -/
structure Fill where
  items : List TransmitItem
  rest : List (Option Bytes)
  position : Seq
  reserved : Int

/-- `_fillTransmitQueue` without `ondrain`, by recursion on `_queueTx`; `right` is
the right edge of the peer's window. -/
def fillQueue (now : Nat) (right : Seq) : Seq → List (Option Bytes) → Fill
  | position, [] => ⟨[], [], position, 0⟩
  | position, none :: queue =>
      let fill := fillQueue now right (seqInc position 1) queue
      { fill with items := finItem now position :: fill.items }
  | position, some buf :: queue =>
      let reserved := min (min (seqOffset right position) buf.length) maxSegmentSize
      if reserved = 0 then ⟨[], some buf :: queue, position, 0⟩
      else if (buf.length : Int) = reserved then
        let fill := fillQueue now right (seqInc position reserved) queue
        { fill with
          items := dataItem now position reserved buf :: fill.items
          reserved := reserved + fill.reserved }
      else
        ⟨[dataItem now position reserved (subarray buf 0 reserved)],
          some (subarrayFrom buf reserved) :: queue, seqInc position reserved, reserved⟩

/-- What `_fillTransmitQueue` takes from `_queueTx`. -/
def fillResult (now : Nat) (s : TCPSocket) : Fill :=
  fillQueue now s.rightEdge s.transmitPosition s.queueTx

/-- The socket after a fill, before it sends. -/
def afterFill (s : TCPSocket) (fill : Fill) : TCPSocket :=
  { s with
    transmitPosition := fill.position
    transmitQueue := s.transmitQueue ++ fill.items
    queueTx := fill.rest
    bufferedAmount := s.bufferedAmount - fill.reserved
    events := s.events ++ fill.items.map
      (.push · s.transmitWindowEdge s.transmitWindowSize) }

/-- The socket after the loop, with the consumed entries shifted out. -/
def afterLoop (result : Nat × TCPSocket) : TCPSocket :=
  { result.2 with queueTx := result.2.queueTx.drop result.1 }

theorem afterFill_pushFIN (now : Nat) (s : TCPSocket) (fill : Fill) :
    (s.pushFIN now).afterFill fill =
      s.afterFill { fill with items := finItem now s.transmitPosition :: fill.items } := by
  simp [afterFill, pushFIN]

theorem afterFill_pushData (now : Nat) (s : TCPSocket) (count : Int) (u8 : Bytes) (fill : Fill) :
    (s.pushData now count u8).afterFill fill =
      s.afterFill { fill with
        items := dataItem now s.transmitPosition count u8 :: fill.items
        reserved := count + fill.reserved } := by
  simp [afterFill, pushData, Int.sub_sub]

/-- The loop from index `i` on works through the entries behind the first `i`,
all of which it has consumed. -/
theorem afterLoop_fillLoop (now : Nat) (count i : Nat) (s : TCPSocket)
    (remaining : count = (s.queueTx.drop i).length) :
    afterLoop (fillLoop now id count i i s) =
      s.afterFill (fillQueue now s.rightEdge s.transmitPosition (s.queueTx.drop i)) := by
  induction count generalizing i s with
  | zero =>
      have empty : s.queueTx.drop i = [] := List.length_eq_zero_iff.mp remaining.symm
      simp only [fillLoop, afterLoop, empty, fillQueue, afterFill, List.append_nil, List.map_nil,
        Int.sub_zero]
  | succ count ih =>
      have inside : i < s.queueTx.length := by
        rw [List.length_drop] at remaining
        omega
      have split : s.queueTx.drop i = s.queueTx[i] :: s.queueTx.drop (i + 1) :=
        List.drop_eq_getElem_cons inside
      have remaining' : count = (s.queueTx.drop (i + 1)).length := by
        rw [split, List.length_cons] at remaining
        omega
      have entry : s.queueTx[i]?.join = s.queueTx[i] := by
        rw [List.getElem?_eq_getElem inside, Option.join_some]
      cases buffer : s.queueTx[i] with
      | none =>
          rw [fillLoop_null (entry.trans buffer), ih (i + 1) (s.pushFIN now) remaining',
            afterFill_pushFIN, split, buffer]
          rfl
      | some buf =>
          rw [buffer] at entry split
          by_cases blocked : s.reserved buf.length = 0
          · rw [fillLoop_blocked entry blocked]
            unfold reserved spaceLeft at blocked
            simp only [afterLoop, split, fillQueue, blocked, ↓reduceIte, afterFill,
              List.append_nil, List.map_nil, Int.sub_zero]
          · by_cases whole : s.reserved buf.length = buf.length
            · have nonempty : buf.length ≠ 0 := by
                rw [whole] at blocked
                omega
              rw [fillLoop_whole entry nonempty whole, id_eq, ite_self,
                ih (i + 1) (s.pushData now buf.length buf) remaining', afterFill_pushData, split]
              unfold reserved spaceLeft at blocked whole
              simp only [fillQueue, whole, ↓reduceIte]
              rw [if_neg (by omega)]
              rfl
            · rw [fillLoop_part entry blocked whole]
              have cut : (s.queueTx.set i (some (subarrayFrom buf (s.reserved buf.length)))).drop i =
                  some (subarrayFrom buf (s.reserved buf.length)) :: s.queueTx.drop (i + 1) := by
                rw [List.drop_eq_getElem_cons (by simpa using inside), List.getElem_set_self,
                  List.drop_set_of_lt (Nat.lt_succ_self i)]
              have whole' : (buf.length : Int) ≠ s.reserved buf.length := fun same => whole same.symm
              unfold reserved spaceLeft at blocked whole' cut ⊢
              simp only [afterLoop, split, fillQueue, blocked, whole', ↓reduceIte, afterFill, cut,
                pushData, List.map_cons, List.map_nil]

/-- **`_fillTransmitQueue` without `ondrain`.** -/
theorem fillTransmitQueue_eq (now : Nat) {s : TCPSocket} (unset : s.ondrain = none) :
    s.fillTransmitQueue now = (s.afterFill (s.fillResult now)).sendTransmitQueue now := by
  have loop := afterLoop_fillLoop now s.queueTx.length 0 s rfl
  rw [List.drop_zero] at loop
  unfold fillResult
  rw [← loop, fillTransmitQueue, unset]
  rfl

/-- An empty queue has nothing to fill, and `ondrain` is not called. -/
theorem fillTransmitQueue_of_empty (now : Nat) {s : TCPSocket} (empty : s.queueTx = []) :
    s.fillTransmitQueue now = s.sendTransmitQueue now := by
  have body (ondrain : TCPSocket → TCPSocket) : s.fillBody now ondrain = s.sendTransmitQueue now := by
    unfold fillBody
    rw [empty]
    rfl
  unfold fillTransmitQueue
  cases s.ondrain.elim 0 List.length with
  | zero => exact body id
  | succ depth => exact body _

/-! ## `_acceptACK` -/

/-- The acknowledgement number moves the edge of the transmit window. -/
def AcceptsACK (s : TCPSocket) (ackNumber : Seq) : Prop :=
  s.transmitWindowEdge ≠ ackNumber ∧ s.isTransmittedUnacked ackNumber

instance (s : TCPSocket) (ackNumber : Seq) : Decidable (s.AcceptsACK ackNumber) :=
  inferInstanceAs (Decidable (_ ∧ _))

/-- The socket with a new window edge, before the transmit queue is filled. -/
def acknowledged (s : TCPSocket) (ackNumber : Seq) (windowSize : Nat) : TCPSocket :=
  { s with transmitWindowSize := windowSize, transmitWindowEdge := ackNumber }.cleanupTransmitQueue

theorem acceptACK_of_accepts (now : Nat) {s : TCPSocket} {ackNumber : Seq}
    (accepts : s.AcceptsACK ackNumber) (windowSize : Nat) :
    s.acceptACK now ackNumber windowSize =
      (s.acknowledged ackNumber windowSize).fillTransmitQueue now :=
  if_pos accepts

theorem acceptACK_of_not_accepts (now : Nat) {s : TCPSocket} {ackNumber : Seq}
    (rejects : ¬ s.AcceptsACK ackNumber) (windowSize : Nat) :
    s.acceptACK now ackNumber windowSize = { s with transmitWindowSize := windowSize } :=
  if_neg rejects

end TCPSocket

end JsOS.Net.Tcp
