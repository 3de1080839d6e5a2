import Mathlib.Data.List.TakeWhile
import JsOS.Net.Tcp.FlowControl

/-! # Accounting for sent data

While a connection is alive, the payloads of the items pushed so far followed by
what is left in `_queueTx` are exactly what the owner has passed to `send`, and
`_bufferedAmount` counts what is left. The end of the data is pushed once, after
everything else (`Accounted`). Every step whose fill is safe keeps this
(`Accounted.step`).
-/

namespace JsOS.Net.Tcp

open Circular Transition

/-- Whether the item carries the end of the data. -/
def TransmitItem.isFIN (item : TransmitItem) : Bool := item.flags &&& flagFIN ≠ 0

/-- The data of an item. -/
def TransmitItem.bytes (item : TransmitItem) : Bytes := item.u8.getD []

/-- The data left in `_queueTx`. -/
def queueBytes (queue : List (Option Bytes)) : Bytes := queue.flatMap (·.getD [])

/-- The data of a list of items. -/
def itemBytes (items : List TransmitItem) : Bytes := items.flatMap TransmitItem.bytes

@[simp] theorem itemBytes_append (items later : List TransmitItem) :
    itemBytes (items ++ later) = itemBytes items ++ itemBytes later :=
  List.flatMap_append

@[simp] theorem queueBytes_append (queue later : List (Option Bytes)) :
    queueBytes (queue ++ later) = queueBytes queue ++ queueBytes later :=
  List.flatMap_append

namespace Filled

open TCPSocket

variable {now : Nat} {position : Seq} {space : Int} {queue : List (Option Bytes)} {fill : Fill}

/-- Nothing is lost or repeated between the items and the rest of the queue. -/
theorem stream (filled : Filled now position space queue fill) :
    itemBytes fill.items ++ queueBytes fill.rest = queueBytes queue := by
  induction filled with
  | empty | ended | blocked => rfl
  | @whole position _ buf _ fill _ _ _ _ ih =>
      change buf ++ itemBytes fill.items ++ queueBytes fill.rest = _
      rw [List.append_assoc, ih]
      rfl
  | @part position queue _ buf count =>
      change buf.take count ++ [] ++ (buf.drop count ++ queueBytes queue) = _
      rw [List.append_nil, ← List.append_assoc, List.take_append_drop]
      rfl

theorem reserved_eq (filled : Filled now position space queue fill) :
    fill.reserved = (itemBytes fill.items).length := by
  induction filled with
  | empty | ended | blocked => rfl
  | @whole position _ buf _ fill _ _ _ _ ih =>
      change (buf.length : Int) + fill.reserved = (buf ++ itemBytes fill.items).length
      rw [ih, List.length_append]
      rfl
  | @part position _ _ buf count _ short =>
      simp only [itemBytes, List.flatMap_singleton, TransmitItem.bytes, dataItem,
        Option.getD_some, List.length_take, Nat.min_eq_left short.le]

theorem small (filled : Filled now position space queue fill) :
    ∀ item ∈ fill.items, item.len ≤ maxSegmentSize := by
  intro item member
  cases data : item.u8 with
  | some u8 => exact (filled.data item member u8 data).2.2
  | none =>
      induction filled with
      | empty | blocked => cases member
      | ended =>
          obtain rfl := List.mem_singleton.mp member
          exact (by decide : (1 : Int) ≤ maxSegmentSize)
      | whole _ _ _ _ ih =>
          rcases List.mem_cons.mp member with rfl | member
          · cases data
          · exact ih member
      | part =>
          obtain rfl := List.mem_singleton.mp member
          cases data

theorem dataItem_not_isFIN (now : Nat) (position : Seq) (count : Int) (u8 : Bytes) :
    (dataItem now position count u8).isFIN = false :=
  (by decide : decide ((flagACK ||| flagPSH) &&& flagFIN ≠ 0) = false)

/-- The end of the data is pushed after everything else, or it is still queued. -/
theorem ending (filled : Filled now position space queue fill) :
    ((∀ item ∈ fill.items, item.isFIN = false) ∧
        fill.position = seqInc position (itemBytes fill.items).length ∧
        (none ∈ queue → none ∈ fill.rest)) ∨
      (none ∈ queue ∧ fill.rest = [] ∧
        fill.position = seqInc position ((itemBytes fill.items).length + 1) ∧
        ∃ front, fill.items =
            front ++ [finItem now (seqInc position (itemBytes fill.items).length)] ∧
          ∀ item ∈ front, item.isFIN = false) := by
  induction filled with
  | empty => exact .inl ⟨by simp, (seqInc_zero _).symm, id⟩
  | ended position => exact .inr ⟨by simp, rfl, rfl, [], by simp [itemBytes, finItem,
      TransmitItem.bytes], by simp⟩
  | blocked => exact .inl ⟨by simp, (seqInc_zero _).symm, id⟩
  | @whole position _ buf _ fill _ _ _ _ ih =>
      have bytes : itemBytes (dataItem now position buf.length buf :: fill.items) =
          buf ++ itemBytes fill.items := rfl
      have length : ((buf ++ itemBytes fill.items).length : Int) =
          buf.length + (itemBytes fill.items).length := by
        rw [List.length_append]
        rfl
      rcases ih with ⟨data, reaches, pending⟩ | ⟨ends, done, reaches, front, split, data⟩
      · refine .inl ⟨?_, ?_, ?_⟩
        · intro item member
          rcases List.mem_cons.mp member with rfl | member
          · exact dataItem_not_isFIN now position buf.length buf
          · exact data item member
        · rw [bytes, reaches, seqInc_seqInc, length]
        · intro member
          exact pending (by simpa using member)
      · refine .inr ⟨List.mem_cons_of_mem _ ends, done, ?_,
          dataItem now position buf.length buf :: front, ?_, ?_⟩
        · rw [bytes, reaches, seqInc_seqInc, length, Int.add_assoc]
        · rw [bytes, length, ← seqInc_seqInc, List.cons_append, ← split]
        · intro item member
          rcases List.mem_cons.mp member with rfl | member
          · exact dataItem_not_isFIN now position buf.length buf
          · exact data item member
  | @part position _ _ buf count _ short =>
      refine .inl ⟨by simp [dataItem_not_isFIN], ?_, by simp⟩
      simp only [itemBytes, List.flatMap_singleton, TransmitItem.bytes, dataItem,
        Option.getD_some, List.length_take, Nat.min_eq_left short.le]

end Filled

/-- The states after the owner has closed the connection for writing. -/
def State.ending : State → Bool
  | .finWait1 | .finWait2 | .closing | .lastAck | .timeWait => true
  | _ => false

namespace TCPSocket

/-- The data of the items pushed so far. -/
def payload (s : TCPSocket) : Bytes := itemBytes s.pushed

/-- The data left in `_queueTx`. -/
def queued (s : TCPSocket) : Bytes := queueBytes s.queueTx

/-- What a step adds to the data the owner has sent; a `send` that throws adds nothing. -/
def sentBy (s : TCPSocket) (op : Op) : Bytes :=
  match op with
  | .send u8 => if s.canSend then u8 else []
  | _ => []

/-- The end of the data has not been pushed. -/
structure Unended (iss : Seq) (s : TCPSocket) : Prop where
  transmitPosition : s.transmitPosition = seqInc iss (1 + s.payload.length)
  pushed : ∀ item ∈ s.pushed, item.isFIN = false

/-- The end of the data was pushed once, after everything else. -/
structure Ended (iss : Seq) (s : TCPSocket) : Prop where
  transmitPosition : s.transmitPosition = seqInc iss (2 + s.payload.length)
  queueTx : s.queueTx = []
  pushed : ∃ front item, s.pushed = front ++ [item] ∧ item.isFIN = true ∧
    item.seq = seqInc iss (1 + s.payload.length) ∧ ∀ item ∈ front, item.isFIN = false

/-- The invariant of a connection whose owner has sent `sent`. -/
structure Accounted (iss : Seq) (sent : Bytes) (s : TCPSocket) : Prop where
  flowing : Flowing iss s
  small : ∀ item ∈ s.pushed, item.len ≤ maxSegmentSize
  connecting : s.state = .synSent ∨ s.state = .synReceived → sent = []
  kept : s.state ≠ .closed →
    s.payload ++ s.queued = sent ∧ s.bufferedAmount = s.queued.length
  marked : Unended iss s ∨ (Ended iss s ∧ s.state.writable = false)
  ends : s.state.ending → Ended iss s ∨ none ∈ s.queueTx

theorem Follows.ending {ends : Prop} {before after : State} (follows : Follows ends before after)
    (ending : after.ending) :
    before.ending ∨ (ends ∧ (before = .established ∨ before = .closeWait)) := by
  cases follows with
  | stay => exact .inl ending
  | closed | connected | connectedEnded | accepted | acceptedEnded | peerEnded => cases ending
  | halfclosed closes => exact .inr ⟨closes, .inl rfl⟩
  | bothEnded closes => exact .inr ⟨closes, .inr rfl⟩
  | ackedEnd | ackedPeerEnded | finished => exact .inl rfl

theorem Follows.connecting {ends : Prop} {before after : State}
    (follows : Follows ends before after) (connecting : after = .synSent ∨ after = .synReceived) :
    before = .synSent ∨ before = .synReceived := by
  cases follows with
  | stay => exact connecting
  | _ => simp at connecting

theorem Follows.alive {ends : Prop} {before after : State} (follows : Follows ends before after)
    (alive : after ≠ .closed) : before ≠ .closed := by
  cases follows with
  | stay => exact alive
  | closed => exact absurd rfl alive
  | _ => decide

/-! ## The socket at a fill -/

section

variable {iss : Seq} {sent : Bytes} {s t : TCPSocket} {op : Op}

theorem ending?_queued (ends : s.ending? = some t) :
    t.queued = s.queued ∧ t.bufferedAmount = s.bufferedAmount ∧ none ∈ t.queueTx := by
  obtain ⟨-, state, -, rfl⟩ := ending?_eq_some ends
  refine ⟨?_, rfl, by simp [queueEnd]⟩
  simp [queued, queueEnd, queueBytes]

theorem filling_queued (fills : s.filling op = some t) :
    t.queued = s.queued ++ s.sentBy op ∧
      t.bufferedAmount = s.bufferedAmount + (s.sentBy op).length ∧
      (none ∈ s.queueTx → none ∈ t.queueTx) := by
  have ended (nothing : s.sentBy op = []) (ends : s.ending? = some t) :
      t.queued = s.queued ++ s.sentBy op ∧
        t.bufferedAmount = s.bufferedAmount + (s.sentBy op).length ∧
        (none ∈ s.queueTx → none ∈ t.queueTx) := by
    obtain ⟨queued, buffered, ends⟩ := ending?_queued ends
    rw [nothing]
    exact ⟨by simp [queued], by simp [buffered], fun _ => ends⟩
  cases op with
  | send u8 =>
      obtain ⟨able, ⟨⟩⟩ := Option.ite_none_right_eq_some.mp fills
      have sends : s.sentBy (.send u8) = u8 := if_pos able
      rw [sends]
      refine ⟨?_, rfl, fun member => List.mem_append_left _ member⟩
      simp [queued, enqueue, queueBytes]
  | halfclose => exact ended rfl fills
  | close => exact ended rfl fills
  | receive segment =>
      obtain ⟨-, ⟨⟩⟩ := Option.ite_none_right_eq_some.mp fills
      exact ⟨(List.append_nil _).symm, (Int.add_zero _).symm, id⟩
  | timerTick => cases fills

theorem filling_queueTx_of_not_writable (fills : s.filling op = some t)
    (closed : s.state.writable = false) : t.queueTx = s.queueTx := by
  have ended (ends : s.ending? = some t) : t.queueTx = s.queueTx := by
    rw [(ending?_eq_some ends).1] at closed
    cases closed
  cases op with
  | send u8 =>
      obtain ⟨able, ⟨⟩⟩ := Option.ite_none_right_eq_some.mp fills
      rw [writable_of_canSend able] at closed
      cases closed
  | halfclose => exact ended fills
  | close => exact ended fills
  | receive segment =>
      obtain ⟨-, ⟨⟩⟩ := Option.ite_none_right_eq_some.mp fills
      rfl
  | timerTick => cases fills

theorem sentBy_of_not_filling (skips : s.filling op = none) : s.sentBy op = [] := by
  cases op with
  | send u8 =>
      by_cases able : s.canSend
      · have fills : s.filling (.send u8) = some (s.enqueue u8) := if_pos able
        rw [fills] at skips
        cases skips
      · exact if_neg able
  | _ => rfl

theorem payload_afterFill (t : TCPSocket) (fill : Fill) :
    (t.afterFill fill).payload = t.payload ++ itemBytes fill.items := by
  rw [payload, pushed_afterFill, itemBytes_append, payload]

theorem balanced_afterFill {now : Nat} {space : Int} {fill : Fill}
    (filled : Filled now t.transmitPosition space t.queueTx fill)
    (buffered : t.bufferedAmount = t.queued.length) :
    (t.afterFill fill).payload ++ (t.afterFill fill).queued = t.payload ++ t.queued ∧
      (t.afterFill fill).bufferedAmount = (t.afterFill fill).queued.length := by
  have stream := filled.stream
  constructor
  · rw [payload_afterFill, List.append_assoc]
    exact congrArg (t.payload ++ ·) stream
  · have length := congrArg List.length stream
    rw [List.length_append] at length
    change t.bufferedAmount - fill.reserved = (queueBytes fill.rest).length
    rw [filled.reserved_eq, buffered]
    change ((queueBytes t.queueTx).length : Int) - _ = _
    omega

theorem Unended.frame (unended : Unended iss s) (pushed : t.pushed = s.pushed)
    (position : t.transmitPosition = s.transmitPosition) : Unended iss t := by
  refine ⟨?_, ?_⟩
  · rw [position, payload, pushed]
    exact unended.transmitPosition
  · rw [pushed]
    exact unended.pushed

theorem Ended.frame (ended : Ended iss s) (pushed : t.pushed = s.pushed)
    (position : t.transmitPosition = s.transmitPosition)
    (queue : t.queueTx = s.queueTx ∨ t.queueTx = []) : Ended iss t := by
  refine ⟨?_, ?_, ?_⟩
  · rw [position, payload, pushed]
    exact ended.transmitPosition
  · rcases queue with same | empty
    · rw [same, ended.queueTx]
    · exact empty
  · rw [pushed, payload, pushed]
    exact ended.pushed

theorem Unended.afterFill {now : Nat} {space : Int} {fill : Fill} (unended : Unended iss t)
    (filled : Filled now t.transmitPosition space t.queueTx fill) :
    (Unended iss (t.afterFill fill) ∧ (none ∈ t.queueTx → none ∈ fill.rest)) ∨
      (Ended iss (t.afterFill fill) ∧ none ∈ t.queueTx) := by
  have length : ((t.payload ++ itemBytes fill.items).length : Int) =
      t.payload.length + (itemBytes fill.items).length := by
    rw [List.length_append]
    rfl
  rcases filled.ending with ⟨data, reaches, pending⟩ | ⟨ends, done, reaches, front, split, data⟩
  · refine .inl ⟨⟨?_, ?_⟩, pending⟩
    · change fill.position = _
      rw [reaches, unended.transmitPosition, payload_afterFill, seqInc_seqInc, length,
        Int.add_assoc]
    · rw [pushed_afterFill]
      intro item member
      rcases List.mem_append.mp member with member | member
      · exact unended.pushed item member
      · exact data item member
  · refine .inr ⟨⟨?_, done, t.pushed ++ front,
      finItem now (seqInc t.transmitPosition (itemBytes fill.items).length), ?_, ?_, ?_, ?_⟩, ends⟩
    · change fill.position = _
      rw [reaches, unended.transmitPosition, payload_afterFill, seqInc_seqInc, length]
      congr 1
      omega
    · rw [pushed_afterFill, List.append_assoc, ← split]
    · exact (by decide : decide ((flagACK ||| flagFIN) &&& flagFIN ≠ 0) = true)
    · change seqInc t.transmitPosition _ = _
      rw [unended.transmitPosition, payload_afterFill, seqInc_seqInc, length, Int.add_assoc]
    · intro item member
      rcases List.mem_append.mp member with member | member
      · exact unended.pushed item member
      · exact data item member

/-- An acknowledgement of everything leaves nothing to retransmit. -/
theorem acknowledged_transmitQueue {ackNumber : Seq} (windowSize : Nat)
    (all : ackNumber = s.transmitPosition) :
    (s.acknowledged ackNumber windowSize).transmitQueue = [] := by
  unfold acknowledged cleanupTransmitQueue
  rw [List.dropWhile_eq_nil_iff]
  intro item _
  simp [isTransmittedUnacked, all]

/-- Nothing is in flight after a fill only if nothing was before and nothing is pushed. -/
theorem Flowing.caught_up (now : Nat) (flowing : Flowing iss s) (fills : s.filling op = some t)
    (safe : t.queueTx.head?.join.isSome → 0 ≤ t.spaceLeft)
    (zero : (t.afterFill (t.fillResult now)).inflight = 0) :
    t.inflight = 0 ∧ (t.fillResult now).items = [] := by
  obtain ⟨-, -, -, small, inflight, -⟩ := flowing.fillable fills
  obtain ⟨count, reaches, bound, moves⟩ := (flowing.filled now fills safe).advance
  have distance : (t.afterFill (t.fillResult now)).inflight = t.inflight + count := by
    change ahead t.transmitWindowEdge (t.fillResult now).position = _
    rw [reaches, seqInc_natCast, ahead_advance (show t.inflight + count < 2 ^ 32 by omega)]
    rfl
  rw [zero] at distance
  refine ⟨by omega, moves.resolve_right (by omega)⟩

/-- A socket whose position equals the acknowledgement after the refill was not reset
by it. -/
theorem Flowing.refilled_alive (flowing : Flowing iss s) {input : Input}
    (safe : s.FillSafe input) {segment : Segment} (receives : input.op = .receive segment)
    (position : (s.refilled input).transmitPosition = segment.ackNumber) :
    (s.refilled input).state = s.state := by
  have frame := refilled_frame input flowing.unset
  rw [frame.transmitPosition] at position
  cases fills : s.filling input.op with
  | none => rw [refilled, fills, Option.map_none, Option.getD_none, unfilled_state]
  | some t =>
      rw [transmitted_of_filling fills] at position
      have op := fills
      rw [receives] at op
      obtain ⟨-, equal⟩ := Option.ite_none_right_eq_some.mp op
      have edge : t.transmitWindowEdge = segment.ackNumber := by rw [← Option.some.inj equal]; rfl
      have state : t.state = s.state := by rw [← Option.some.inj equal]; rfl
      obtain ⟨zero, nothing⟩ := flowing.caught_up input.env.now fills (safe t fills)
        (ahead_eq_zero_iff.mpr (position.trans edge.symm))
      have below : (t.afterFill (t.fillResult input.env.now)).BelowLimit := by
        refine belowLimit_of_nil ?_
        change t.transmitQueue ++ _ = []
        rw [nothing, List.append_nil, ← Option.some.inj equal]
        refine acknowledged_transmitQueue _ ?_
        have caught : t.transmitPosition = t.transmitWindowEdge := ahead_eq_zero_iff.mp zero
        rw [edge, (flowing.fillable fills).transmitPosition] at caught
        exact caught.symm
      obtain ⟨packets, -, after⟩ := sendTransmitQueue_of_below input.env.now below
      rw [refilled, fills, Option.map_some, Option.getD_some,
        fillTransmitQueue_eq _ (flowing.fillable fills).ondrain, after]
      exact state

/-- An empty queue has nothing to fill. -/
theorem afterFill_of_empty (now : Nat) (empty : t.queueTx = []) :
    t.afterFill (t.fillResult now) = t := by
  have nothing : t.fillResult now = ⟨[], [], t.transmitPosition, 0⟩ := by
    rw [fillResult, empty, fillQueue]
  rw [nothing]
  simp only [TCPSocket.afterFill, List.append_nil, List.map_nil, Int.sub_zero, ← empty]

theorem Ended.afterFill (ended : Ended iss t) (now : Nat) :
    Ended iss (t.afterFill (t.fillResult now)) := by
  rw [afterFill_of_empty now ended.queueTx]
  exact ended

/-- What a step does to the books, before it is known whether the connection was
reset. -/
theorem Accounted.transmitted (accounted : Accounted iss sent s) {input : Input}
    (safe : s.FillSafe input) :
    (∀ item ∈ (s.transmitted input).pushed, item.len ≤ maxSegmentSize) ∧
      (s.state ≠ .closed →
        (s.transmitted input).payload ++ (s.transmitted input).queued =
            sent ++ s.sentBy input.op ∧
          (s.transmitted input).bufferedAmount = (s.transmitted input).queued.length) ∧
      ((Unended iss (s.transmitted input) ∧
          (none ∈ s.queueTx ∨ (∃ t ∈ s.filling input.op, none ∈ t.queueTx) →
            none ∈ (s.transmitted input).queueTx)) ∨
        (Ended iss (s.transmitted input) ∧
          (s.state.writable = false ∨ ∃ t ∈ s.filling input.op, none ∈ t.queueTx))) := by
  unfold TCPSocket.transmitted
  cases fills : s.filling input.op with
  | none =>
      obtain ⟨size, after, -⟩ := unfilled_eq s input.op
      dsimp only
      rw [after, sentBy_of_not_filling fills, List.append_nil]
      refine ⟨accounted.small, accounted.kept, ?_⟩
      rcases accounted.marked with unended | ⟨ended, closed⟩
      · refine .inl ⟨unended.frame rfl rfl, ?_⟩
        rintro (member | ⟨t, member, -⟩)
        · exact member
        · cases member
      · exact .inr ⟨ended.frame rfl rfl (.inl rfl), .inl closed⟩
  | some t =>
      have fillable := accounted.flowing.fillable fills
      have filled := accounted.flowing.filled input.env.now fills (safe t fills)
      obtain ⟨queued, buffered, ends⟩ := filling_queued fills
      have pushed : t.pushed = s.pushed := by
        rw [pushed_eq_pushes, fillable.pushes, ← pushed_eq_pushes]
      have payload : t.payload = s.payload := by rw [TCPSocket.payload, pushed, TCPSocket.payload]
      refine ⟨?_, ?_, ?_⟩
      · dsimp only
        rw [pushed_afterFill, pushed]
        intro item member
        rcases List.mem_append.mp member with member | member
        · exact accounted.small item member
        · exact filled.small item member
      · intro alive
        obtain ⟨stream, count⟩ := accounted.kept alive
        have balanced := balanced_afterFill filled (by
          rw [buffered, queued, count, List.length_append]
          rfl)
        refine ⟨?_, balanced.2⟩
        rw [balanced.1, payload, queued, ← List.append_assoc, stream]
      · have marks : Unended iss t ∨ (Ended iss t ∧ s.state.writable = false) := by
          refine accounted.marked.imp (·.frame pushed fillable.transmitPosition) ?_
          rintro ⟨ended, closed⟩
          refine ⟨ended.frame pushed fillable.transmitPosition (.inl ?_), closed⟩
          exact filling_queueTx_of_not_writable fills closed
        rcases marks with unended | ⟨ended, closed⟩
        · rcases unended.afterFill filled with ⟨unended, pending⟩ | ⟨ended, member⟩
          · refine .inl ⟨unended, ?_⟩
            rintro (member | ⟨_, ⟨⟩, member⟩)
            · exact pending (ends member)
            · exact pending member
          · exact .inr ⟨ended, .inr ⟨t, rfl, member⟩⟩
        · exact .inr ⟨ended.afterFill _, .inl closed⟩

theorem Ended.transmitted (ended : Ended iss s) (closed : s.state.writable = false)
    (flowing : Flowing iss s) (input : Input) : Ended iss (s.transmitted input) := by
  unfold TCPSocket.transmitted
  cases fills : s.filling input.op with
  | none =>
      obtain ⟨size, after, -⟩ := unfilled_eq s input.op
      dsimp only
      rw [after]
      exact ended.frame rfl rfl (.inl rfl)
  | some t =>
      have fillable := flowing.fillable fills
      have pushed : t.pushed = s.pushed := by
        rw [pushed_eq_pushes, fillable.pushes, ← pushed_eq_pushes]
      exact (ended.frame pushed fillable.transmitPosition
        (.inl (filling_queueTx_of_not_writable fills closed))).afterFill _

theorem sentBy_of_connecting (connecting : s.state = .synSent ∨ s.state = .synReceived) (op : Op) :
    s.sentBy op = [] := by
  cases op with
  | send u8 =>
      refine if_neg ?_
      rcases connecting with state | state <;> simp [canSend, state]
  | _ => rfl

theorem State.ending_not_writable {state : State} (ending : state.ending) :
    state.writable = false := by
  cases state <;> first | rfl | cases ending

/-- **One step keeps the books.** -/
theorem Accounted.step (accounted : Accounted iss sent s) {input : Input}
    (safe : s.FillSafe input) :
    Accounted iss (sent ++ s.sentBy input.op) (s.step input) := by
  obtain ⟨small, balanced, marked⟩ := accounted.transmitted safe
  have refills := refilled_frame input accounted.flowing.unset
  have frame := refills.queueFrame.trans (step_queueFrame input s)
  have follows := step_follows input s
  have pushed := frame.pushed
  have position := frame.transmitPosition
  have queue : (s.step input).queueTx = (s.transmitted input).queueTx ∨ (s.step input).queueTx = [] :=
    frame.queues.imp And.left And.left
  have payload : (s.step input).payload = (s.transmitted input).payload := by
    rw [TCPSocket.payload, pushed, TCPSocket.payload]
  -- After the handshake a live connection has the queue the fill left.
  have keeps (synchronized : s.state ≠ .synSent ∧ s.state ≠ .synReceived)
      (alive : (s.step input).state ≠ .closed) :
      (s.step input).queueTx = (s.transmitted input).queueTx := by
    have kept : Kept (s.refilled input) (s.step input) := by
      refine .step input synchronized fun segment receives state position => ?_
      rw [accounted.flowing.refilled_alive safe receives position, state]
      decide
    exact (refills.keeps.trans kept alive).2.1
  refine ⟨(accounted.flowing.step safe).1, ?_, ?_, ?_, ?_, ?_⟩
  · rw [pushed]
    exact small
  · intro connecting
    have before := follows.connecting connecting
    rw [accounted.connecting before, sentBy_of_connecting before]
    rfl
  · intro alive
    obtain ⟨stream, buffered⟩ := balanced (follows.alive alive)
    rw [payload, frame.bufferedAmount]
    by_cases connecting : s.state = .synSent ∨ s.state = .synReceived
    · -- Nothing has been sent, so it does not matter whether the queue was emptied.
      rw [accounted.connecting connecting, sentBy_of_connecting connecting] at stream ⊢
      obtain ⟨nothing, empty⟩ := List.append_eq_nil_iff.mp stream
      have queued : (s.step input).queued = [] := by
        rcases queue with same | emptied
        · rw [queued, same]
          exact empty
        · rw [queued, emptied]
          rfl
      rw [nothing, queued, buffered, empty]
      exact ⟨rfl, rfl⟩
    · rw [queued, keeps (not_or.mp connecting) alive]
      exact ⟨stream, buffered⟩
  · rcases marked with ⟨unended, -⟩ | ⟨ended, why⟩
    · exact .inl (unended.frame pushed position)
    · refine .inr ⟨ended.frame pushed position queue, ?_⟩
      rw [Bool.eq_false_iff]
      intro writable
      obtain ⟨before, none_before⟩ := writable_of_step input writable
      rcases why with closed | ⟨t, fills, member⟩
      · rw [before] at closed
        cases closed
      · exact accounted.flowing.writes before (none_before t fills member)
  · intro ending
    have alive : (s.step input).state ≠ .closed := by
      intro closed
      rw [closed] at ending
      cases ending
    have pend (synchronized : s.state ≠ .synSent ∧ s.state ≠ .synReceived)
        (ends : none ∈ s.queueTx ∨ ∃ t ∈ s.filling input.op, none ∈ t.queueTx) :
        Ended iss (s.step input) ∨ none ∈ (s.step input).queueTx := by
      rcases marked with ⟨-, pending⟩ | ⟨ended, -⟩
      · rw [keeps synchronized alive]
        exact .inr (pending ends)
      · exact .inl (ended.frame pushed position queue)
    rcases follows.ending ending with before | ⟨ends, state⟩
    · have synchronized : s.state ≠ .synSent ∧ s.state ≠ .synReceived := by
        constructor <;> intro state <;> rw [state] at before <;> cases before
      rcases accounted.ends before with ended | member
      · exact .inl ((ended.transmitted (State.ending_not_writable before) accounted.flowing
          input).frame pushed position queue)
      · exact pend synchronized (.inl member)
    · have closes : ∃ t, s.ending? = some t := by
        unfold ending?
        rcases state with state | state <;> rw [state] <;> exact ⟨_, rfl⟩
      obtain ⟨t, some_⟩ := closes
      have fills : s.filling input.op = some t := by
        rcases ends with op | op <;> rw [op] <;> exact some_
      refine pend ?_ (.inr ⟨t, fills, (ending?_queued some_).2.2⟩)
      rcases state with state | state <;> simp [state]

theorem AtStart.accounted (start : AtStart iss s) : Accounted iss [] s := by
  obtain ⟨now, flags, noFIN, -, pushed⟩ := start.pushes
  have payload : s.payload = [] := by
    rw [TCPSocket.payload, pushed]
    rfl
  have queued : s.queued = [] := by
    rw [TCPSocket.queued, start.queueTx]
    rfl
  refine ⟨start.flowing, ?_, fun _ => rfl, fun _ => ⟨?_, ?_⟩, .inl ⟨?_, ?_⟩, ?_⟩
  · rw [pushed]
    intro item member
    rw [List.mem_singleton.mp member]
    exact (by decide : (1 : Int) ≤ maxSegmentSize)
  · rw [payload, queued]
    rfl
  · rw [start.bufferedAmount, queued]
    rfl
  · rw [start.transmitPosition, payload]
    rfl
  · rw [pushed]
    intro item member
    rw [List.mem_singleton.mp member]
    simp [TransmitItem.isFIN, synItem, noFIN]
  · intro ending
    rcases start.connecting with state | state <;> rw [state] at ending <;> cases ending

end

/-! ## Runs with the data sent -/

/-- A connection with the data its owner has sent so far. -/
structure Ledger where
  socket : TCPSocket
  sent : Bytes

/-- One step, with the data it sends. -/
def Ledger.step (ledger : Ledger) (input : Input) : Ledger :=
  ⟨ledger.socket.step input, ledger.sent ++ ledger.socket.sentBy input.op⟩

end TCPSocket

end JsOS.Net.Tcp
