import JsOS.Net.Tcp.Accounting

/-! # Segmentation loses and duplicates nothing

The owner sends non-empty arrays and may close the connection; the peer sends
acknowledgements with windows. In every state the pushed payloads and the queue
should concatenate to what was sent (`Segmented`). They do exactly as long as no
fill finds negative space and no fill that leaves data in `_queueTx` resets the
connection (`Carried`, `segmentation_exact`).
-/

namespace JsOS.Net.Tcp

open Transition

namespace TCPSocket

/-- The pushed payloads, in sequence order, and the queue are the data sent; every
payload fits into a segment, `_bufferedAmount` counts the queue, and the end of
the data is pushed once, last, just after the final byte. -/
structure Segmented (iss : Seq) (sent : Bytes) (s : TCPSocket) : Prop where
  tiles : Tiles iss s.pushed s.transmitPosition
  stream : s.payload ++ s.queued = sent
  small : ∀ item ∈ s.pushed, item.bytes.length ≤ 536
  buffered : s.bufferedAmount = s.queued.length
  fin : ∀ front item back, s.pushed = front ++ item :: back → item.isFIN →
    back = [] ∧ item.seq = seqInc iss (1 + sent.length)

/-- What happens to a connection that only sends: arrays that are not empty, the end
of the data, and acknowledgements with a window. -/
def Transmission (input : Input) : Prop :=
  match input.op with
  | .send u8 => u8 ≠ []
  | .halfclose | .close => True
  | .receive segment => segment.dataLength ≤ 0 ∧ segment.hasFIN = false
  | .timerTick => False

instance : ∀ input : Input, Decidable (Transmission input)
  | ⟨_, .send u8⟩ => inferInstanceAs (Decidable (u8 ≠ []))
  | ⟨_, .halfclose⟩ | ⟨_, .close⟩ => .isTrue trivial
  | ⟨_, .receive _⟩ => inferInstanceAs (Decidable (_ ∧ _))
  | ⟨_, .timerTick⟩ => .isFalse id

/-- Every array left in `_queueTx` fits into a segment, and all of them into the window. -/
def Fits (s : TCPSocket) : Prop :=
  ∀ entry ∈ s.queueTx, ∀ buf ∈ entry,
    (buf.length : Int) ≤ maxSegmentSize ∧ (s.queued.length : Int) ≤ s.spaceLeft

instance (s : TCPSocket) : Decidable s.Fits :=
  inferInstanceAs (Decidable (∀ entry ∈ s.queueTx, ∀ buf ∈ entry, _))

/-- A fill finds no negative space, and it does not reset the connection unless it
empties `_queueTx`. -/
def Carried (s : TCPSocket) (input : Input) : Prop :=
  s.FillSafe input ∧ ∀ t ∈ s.filling input.op, t.BelowLimit ∨ t.Fits

instance (s : TCPSocket) (input : Input) : Decidable (s.Carried input) :=
  inferInstanceAs (Decidable (_ ∧ _))

end TCPSocket

/-! ## The rest of the queue -/

/-- No array of the queue is empty. -/
def NonemptyArrays (queue : List (Option Bytes)) : Prop := ∀ buf, some buf ∈ queue → buf ≠ []

theorem queueBytes_ne_nil {buf : Bytes} (queue : List (Option Bytes)) (nonempty : buf ≠ []) :
    queueBytes (some buf :: queue) ≠ [] := by
  intro empty
  exact nonempty (List.append_eq_nil_iff.mp empty).1

theorem exists_array_of_queueBytes {queue : List (Option Bytes)} (left : queueBytes queue ≠ []) :
    ∃ buf, some buf ∈ queue := by
  by_contra! nowhere
  refine left (List.flatMap_eq_nil_iff.mpr ?_)
  intro entry member
  cases entry with
  | none => rfl
  | some buf => exact absurd member (nowhere buf)

namespace Filled

open TCPSocket

variable {now : Nat} {position : Seq} {space : Int} {queue : List (Option Bytes)} {fill : Fill}

theorem nonemptyArrays (filled : Filled now position space queue fill)
    (arrays : NonemptyArrays queue) : NonemptyArrays fill.rest := by
  induction filled with
  | empty | ended => simp [NonemptyArrays]
  | blocked => exact arrays
  | whole _ _ _ _ ih => exact ih fun buf member => arrays buf (List.mem_cons_of_mem _ member)
  | @part _ _ _ buf count _ short =>
      intro other member
      rcases List.mem_cons.mp member with equal | member
      · obtain rfl := Option.some.inj equal
        exact List.ne_nil_of_length_pos (by rw [List.length_drop]; omega)
      · exact arrays other (List.mem_cons_of_mem _ member)

/-- What is left in the queue starts with data. -/
theorem rest_bytes (filled : Filled now position space queue fill)
    (arrays : NonemptyArrays queue) (left : fill.rest ≠ []) : queueBytes fill.rest ≠ [] := by
  induction filled with
  | empty | ended => exact absurd rfl left
  | blocked => exact queueBytes_ne_nil _ (arrays _ List.mem_cons_self)
  | whole _ _ _ _ ih => exact ih (fun buf member => arrays buf (List.mem_cons_of_mem _ member)) left
  | part _ _ _ short =>
      exact queueBytes_ne_nil _
        (List.ne_nil_of_length_pos (by rw [List.length_drop]; omega))

/-- The queue is emptied exactly when its arrays fit. -/
theorem rest_eq_nil_iff (filled : Filled now position space queue fill)
    (arrays : NonemptyArrays queue) :
    fill.rest = [] ↔ ∀ buf, some buf ∈ queue →
      (buf.length : Int) ≤ maxSegmentSize ∧ ((queueBytes queue).length : Int) ≤ space := by
  have length (buf : Bytes) (queue : List (Option Bytes)) :
      (queueBytes (some buf :: queue)).length = buf.length + (queueBytes queue).length :=
    List.length_append
  induction filled with
  | empty | ended => simp
  | @blocked _ queue space buf _ stop =>
      refine iff_of_false (List.cons_ne_nil _ _) fun fits => ?_
      have nonempty := arrays buf List.mem_cons_self
      have positive := List.length_pos_iff.mpr nonempty
      have bound := (fits buf List.mem_cons_self).2
      have zero : space = 0 := stop.resolve_right nonempty
      rw [length] at bound
      omega
  | @whole _ space buf queue fill _ small fits _ ih =>
      have later : NonemptyArrays queue := fun buf member =>
        arrays buf (List.mem_cons_of_mem _ member)
      refine (ih later).trans ⟨fun rest other member => ?_, fun all other member => ?_⟩
      · rw [length]
        have total : ((queueBytes queue).length : Int) ≤ space - buf.length := by
          by_cases empty : queueBytes queue = []
          · rw [empty]
            simpa using fits
          · obtain ⟨buf', member'⟩ := exists_array_of_queueBytes empty
            exact (rest buf' member').2
        rcases List.mem_cons.mp member with equal | member
        · obtain rfl := Option.some.inj equal
          exact ⟨small, by omega⟩
        · exact ⟨(rest other member).1, by omega⟩
      · obtain ⟨bound, total⟩ := all other (List.mem_cons_of_mem _ member)
        rw [length] at total
        exact ⟨bound, by omega⟩
  | @part _ queue space buf count _ short _ _ limit =>
      refine iff_of_false (List.cons_ne_nil _ _) fun fits => ?_
      obtain ⟨small, total⟩ := fits buf List.mem_cons_self
      rw [length] at total
      omega

theorem retransmits_eq_zero (filled : Filled now position space queue fill) :
    ∀ item ∈ fill.items, item.retransmits = 0 := by
  induction filled with
  | empty | blocked => simp
  | ended | part => simp [finItem, dataItem]
  | whole _ _ _ _ ih =>
      intro item member
      rcases List.mem_cons.mp member with rfl | member
      · rfl
      · exact ih item member

end Filled

namespace TCPSocket

variable {iss : Seq} {sent : Bytes} {s : TCPSocket}

/-! ## The state of a connection that only sends -/

/-- The books of a connection are balanced, whether or not it was reset. -/
def Balanced (sent : Bytes) (s : TCPSocket) : Prop :=
  s.payload ++ s.queued = sent ∧ s.bufferedAmount = s.queued.length

theorem Accounted.segmented (accounted : Accounted iss sent s) (balanced : Balanced sent s) :
    Segmented iss sent s := by
  refine ⟨accounted.flowing.controlled.tiles, balanced.1, ?_, balanced.2, ?_⟩
  · intro item member
    have small := accounted.small item member
    unfold maxSegmentSize at small
    cases data : item.u8 with
    | none => simp [TransmitItem.bytes, data]
    | some u8 =>
        have length := (accounted.flowing.controlled.data item member u8 data).2
        simp only [TransmitItem.bytes, data, Option.getD_some]
        omega
  · intro front item back split isFIN
    rcases accounted.marked with unended | ⟨ended, -⟩
    · have data := unended.pushed item (by rw [split]; simp)
      rw [isFIN] at data
      cases data
    · obtain ⟨before, last, pushed, -, seq, data⟩ := ended.pushed
      have all : s.payload = sent := by
        rw [← balanced.1, queued, ended.queueTx]
        exact (List.append_nil _).symm
      rw [all] at seq
      rw [pushed] at split
      rcases List.eq_nil_or_concat back with rfl | ⟨middle, final, rfl⟩
      · obtain ⟨-, same⟩ := List.append_inj' split rfl
        obtain rfl : last = item := (List.cons.inj same).1
        exact ⟨rfl, seq⟩
      · rw [List.concat_eq_append, ← List.cons_append, ← List.append_assoc] at split
        obtain ⟨same, -⟩ := List.append_inj' split rfl
        have plain := data item (by rw [same]; simp)
        rw [isFIN] at plain
        cases plain

/-- A segment without data and FIN leaves the state its acknowledgement leaves, or
completes the handshake or the acknowledgement of the end. -/
theorem receive_state_of_pure (now : Nat) {segment : Segment} (noData : segment.dataLength ≤ 0)
    (noFIN : segment.hasFIN = false) (open_ : s.state ≠ .lastAck) :
    (s.receive now segment).state = (s.acked now segment).state ∨
      (s.receive now segment).state = .established ∨ (s.receive now segment).state = .finWait2 := by
  have skips (t : TCPSocket) : t.acceptsData segment = false := by
    simp [acceptsData, noData]
  have plain (t : TCPSocket) : (t.receiveData now segment).state =
      (t.acceptACK now segment.ackNumber segment.windowSize.toNat).state := by
    unfold receiveData
    dsimp only
    rw [skips, if_neg Bool.false_ne_true]
  by_cases listening : s.state = .listen
  · rw [receive, if_pos listening, acked, handlesACK, listening, if_neg Bool.false_ne_true]
    exact .inl listening.symm
  have switched : s.receive now segment = s.receiveSwitch now segment := by
    simp only [receive, listening, noFIN, Bool.false_eq_true, ↓reduceIte]
  rw [switched, acked, handlesACK]
  unfold receiveSwitch
  cases state : s.state with
  | synSent =>
      dsimp only
      split
      · exact .inr (.inl (emitIf_state (setState _ .established) _ .onopen))
      · exact .inl rfl
  | synReceived =>
      dsimp only
      split
      · exact .inr (.inl (emitIf_state (setState _ .established) _ .onopen))
      · exact .inl rfl
  | lastAck => exact absurd state open_
  | finWait1 =>
      dsimp only
      obtain ⟨rejects, size⟩ := acceptACK_settled now segment.ackNumber segment.windowSize.toNat s
      generalize s.acceptACK now segment.ackNumber segment.windowSize.toNat = t at rejects size ⊢
      rw [plain, if_pos rfl]
      split
      · rw [acceptACK_of_settled now (s := t.setState .finWait2) rejects size]
        exact .inr (.inr rfl)
      · rw [acceptACK_of_settled now rejects size]
        exact .inl rfl
  | finWait2 | established => exact .inl (plain s)
  | closed | listen | closeWait | closing | timeWait => exact .inl rfl

/-! ## One step -/

/-- The invariant of a connection that only sends. -/
structure Carrying (iss : Seq) (ledger : Ledger) : Prop where
  accounted : Accounted iss ledger.sent ledger.socket
  balanced : Balanced ledger.sent ledger.socket
  arrays : NonemptyArrays ledger.socket.queueTx
  reached : ledger.socket.state ∈
    [.synSent, .synReceived, .established, .finWait1, .finWait2, .closed]
  emptied : ledger.socket.state = .closed → ledger.socket.queueTx = []

theorem filling_arrays {op : Op} {t : TCPSocket} (fills : s.filling op = some t)
    (sends : ∀ u8, op = .send u8 → u8 ≠ []) (arrays : NonemptyArrays s.queueTx) :
    NonemptyArrays t.queueTx := by
  have ended (ends : s.ending? = some t) : NonemptyArrays t.queueTx := by
    obtain ⟨-, state, -, rfl⟩ := ending?_eq_some ends
    intro buf member
    exact arrays buf (by simpa [queueEnd] using member)
  cases op with
  | send u8 =>
      obtain ⟨-, ⟨⟩⟩ := Option.ite_none_right_eq_some.mp fills
      intro buf member
      rcases List.mem_append.mp member with member | member
      · exact arrays buf member
      · obtain rfl := Option.some.inj (List.mem_singleton.mp member)
        exact sends _ rfl
  | halfclose => exact ended fills
  | close => exact ended fills
  | receive segment =>
      obtain ⟨-, ⟨⟩⟩ := Option.ite_none_right_eq_some.mp fills
      exact arrays
  | timerTick => cases fills

/-- A fill happens on a connection that is not closed. -/
theorem filling_alive {op : Op} {t : TCPSocket} (fills : s.filling op = some t) :
    s.state ≠ .closed ∧ t.state ≠ .closed := by
  have before : s.state ≠ .closed := by
    intro closed
    cases op with
    | send u8 => simp [filling, canSend, closed] at fills
    | halfclose | close => simp [filling, ending?, closed] at fills
    | receive segment => simp [filling, handlesACK, closed] at fills
    | timerTick => cases fills
  refine ⟨before, ?_⟩
  rcases filling_state fills with same | ⟨-, -, after⟩ | ⟨-, -, after⟩
  · rw [same]
    exact before
  · simp [after]
  · simp [after]

/-- The refill keeps the state below the retransmission limit and resets the
connection at it. -/
theorem refilled_of_filling {input : Input} {t : TCPSocket} (fills : s.filling input.op = some t)
    (unset : s.ondrain = none) {space : Int} (filled : Filled input.env.now t.transmitPosition space
      t.queueTx (t.fillResult input.env.now)) :
    (t.BelowLimit ∧ (s.refilled input).state = t.state) ∨
      (¬ t.BelowLimit ∧ (s.refilled input).queueTx = []) := by
  rw [refilled, fills, Option.map_some, Option.getD_some,
    fillTransmitQueue_eq _ ((filling_ondrain fills).trans unset)]
  by_cases below : t.BelowLimit
  · have after : (t.afterFill (t.fillResult input.env.now)).BelowLimit := by
      intro item member
      rcases List.mem_append.mp member with member | member
      · exact below item member
      · rw [filled.retransmits_eq_zero item member]
        exact Nat.zero_le 7
    obtain ⟨packets, -, sent⟩ := sendTransmitQueue_of_below input.env.now after
    rw [sent]
    exact .inl ⟨below, rfl⟩
  · have after : ¬ (t.afterFill (t.fillResult input.env.now)).BelowLimit := fun all =>
      below fun item member => all item (List.mem_append_left _ member)
    obtain ⟨packets, ack, -, sent⟩ := sendTransmitQueue_of_limit input.env.now after
    rw [sent]
    exact .inr ⟨below, rfl⟩

theorem fits_iff :
    s.Fits ↔ ∀ buf, some buf ∈ s.queueTx →
      (buf.length : Int) ≤ maxSegmentSize ∧ ((queueBytes s.queueTx).length : Int) ≤ s.spaceLeft := by
  constructor
  · intro fits buf member
    exact fits (some buf) member buf rfl
  · rintro all entry member buf ⟨⟩
    exact all buf member

/-- A connection that only sends has the state the refill leaves, or has completed the
handshake or the acknowledgement of its end. -/
theorem step_state_of_transmission {input : Input} (transmits : Transmission input)
    (reached : s.state ∈ [.synSent, .synReceived, .established, .finWait1, .finWait2, .closed]) :
    (s.step input).state = (s.refilled input).state ∨
      (s.step input).state = .established ∨ (s.step input).state = .finWait2 := by
  rcases step_eq input s with call | ⟨segment, op, acked, receives⟩ | ⟨op, -⟩ | ⟨listening, -⟩
  · exact .inl (congrArg TCPSocket.state call)
  · rw [Transmission, op] at transmits
    rw [receives, acked]
    refine receive_state_of_pure _ transmits.1 transmits.2 ?_
    intro state
    simp [state] at reached
  · rw [Transmission, op] at transmits
    exact transmits.elim
  · simp [listening] at reached

/-- If such a connection is closed by a step, the refill reset it. -/
theorem resets_of_closed {input : Input} (transmits : Transmission input)
    (reached : s.state ∈ [.synSent, .synReceived, .established, .finWait1, .finWait2, .closed])
    (alive : s.state ≠ .closed) (closed : (s.step input).state = .closed) :
    (s.refilled input).state = .closed ∧ ∃ t, s.filling input.op = some t ∧ t.state ≠ .closed := by
  have refilled : (s.refilled input).state = .closed := by
    rcases step_state_of_transmission transmits reached with same | other | other
    · rw [← same]
      exact closed
    · rw [other] at closed
      cases closed
    · rw [other] at closed
      cases closed
  refine ⟨refilled, ?_⟩
  cases fills : s.filling input.op with
  | none =>
      rw [TCPSocket.refilled, fills, Option.map_none, Option.getD_none, unfilled_state] at refilled
      exact absurd refilled alive
  | some t =>
      exact ⟨t, rfl, (filling_alive fills).2⟩

theorem Carrying.step_arrays {ledger : Ledger} (carrying : Carrying iss ledger) {input : Input}
    (transmits : Transmission input) (safe : ledger.socket.FillSafe input) :
    NonemptyArrays (ledger.socket.step input).queueTx := by
  obtain ⟨s, sent⟩ := ledger
  have frame := (refilled_frame input carrying.accounted.flowing.unset).queueFrame.trans
    (step_queueFrame input s)
  have sends : ∀ u8, input.op = .send u8 → u8 ≠ [] := by
    intro u8 op
    rw [Transmission, op] at transmits
    exact transmits
  have filled : NonemptyArrays (s.transmitted input).queueTx := by
    unfold TCPSocket.transmitted
    cases fills : s.filling input.op with
    | none =>
        obtain ⟨size, after, -⟩ := unfilled_eq s input.op
        dsimp only
        rw [after]
        exact carrying.arrays
    | some t =>
        exact (carrying.accounted.flowing.filled _ fills (safe t fills)).nonemptyArrays
          (filling_arrays fills sends carrying.arrays)
  rcases frame.queues with ⟨kept, -⟩ | ⟨emptied, -⟩
  · exact kept ▸ filled
  · intro buf member
    simp [emptied] at member

/-- A step that carries the data keeps the books, also when it resets the connection. -/
theorem Carrying.step_balanced {ledger : Ledger} (carrying : Carrying iss ledger) {input : Input}
    (transmits : Transmission input) (carried : ledger.socket.Carried input) :
    Balanced (ledger.step input).sent (ledger.step input).socket ∧
      ((ledger.step input).socket.state = .closed → (ledger.step input).socket.queueTx = []) := by
  obtain ⟨s, sent⟩ := ledger
  obtain ⟨accounted, balanced, arrays, reached, emptied⟩ := carrying
  dsimp only [Ledger.step] at *
  obtain ⟨safe, lossless⟩ := carried
  have refills := refilled_frame input accounted.flowing.unset
  have frame := refills.queueFrame.trans (step_queueFrame input s)
  have payload : (s.step input).payload = (s.transmitted input).payload := by
    rw [TCPSocket.payload, frame.pushed, TCPSocket.payload]
  -- A connection that is closed afterwards has nothing left, before or after a reset.
  have settle (books : Balanced (sent ++ s.sentBy input.op) (s.transmitted input))
      (nothing : (s.transmitted input).queued = []) (empty : (s.step input).queueTx = []) :
      Balanced (sent ++ s.sentBy input.op) (s.step input) ∧
        ((s.step input).state = .closed → (s.step input).queueTx = []) := by
    refine ⟨?_, fun _ => empty⟩
    have rest : (s.step input).queued = [] := by
      rw [queued, empty]
      rfl
    rw [Balanced, nothing] at books
    rw [Balanced, payload, frame.bufferedAmount, rest]
    exact books
  by_cases closed : (s.step input).state = .closed
  · by_cases before : s.state = .closed
    · have skips : s.filling input.op = none := by
        by_contra fills
        obtain ⟨t, fills⟩ := Option.ne_none_iff_exists'.mp fills
        exact (filling_alive fills).1 before
      obtain ⟨size, after, -⟩ := unfilled_eq s input.op
      have same : s.transmitted input = { s with transmitWindowSize := size } := by
        rw [transmitted, skips]
        exact after
      have empty := emptied before
      rw [same] at settle frame
      refine settle ?_ ?_ ?_
      · rw [sentBy_of_not_filling skips, List.append_nil]
        exact balanced
      · change queueBytes s.queueTx = []
        rw [empty]
        rfl
      · rcases frame.queues with ⟨kept, -⟩ | ⟨emptied, -⟩
        · exact kept.trans empty
        · exact emptied
    · obtain ⟨reset, t, fills, alive⟩ := resets_of_closed transmits reached before closed
      have filled := accounted.flowing.filled input.env.now fills (safe t fills)
      rcases refilled_of_filling fills accounted.flowing.unset filled with
        ⟨-, state⟩ | ⟨limit, gone⟩
      · rw [state] at reset
        exact absurd reset alive
      · have fits : t.Fits := (lossless t fills).resolve_left limit
        have sends : ∀ u8, input.op = .send u8 → u8 ≠ [] := by
          intro u8 op
          rw [Transmission, op] at transmits
          exact transmits
        obtain ⟨-, -, -, small, bounded, -⟩ := accounted.flowing.fillable fills
        have rest : (t.fillResult input.env.now).rest = [] := by
          rw [filled.rest_eq_nil_iff (filling_arrays fills sends arrays),
            ← (spaceLeft_eq small (by omega)).2]
          exact fits_iff.mp fits
        refine settle ((accounted.transmitted safe).2.1 before) ?_ ?_
        · rw [transmitted, fills]
          change queueBytes (t.fillResult input.env.now).rest = []
          rw [rest]
          rfl
        · rcases (step_queueFrame input s).queues with ⟨kept, -⟩ | ⟨emptied, -⟩
          · exact kept.trans gone
          · exact emptied
  · exact ⟨(accounted.step safe).kept closed, fun dead => absurd dead closed⟩

theorem reached_of_transmission {input : Input} (transmits : Transmission input)
    (reached : s.state ∈ [.synSent, .synReceived, .established, .finWait1, .finWait2, .closed]) :
    (s.step input).state ∈
      [.synSent, .synReceived, .established, .finWait1, .finWait2, .closed] := by
  have refilled : (s.refilled input).state ∈
      [.synSent, .synReceived, .established, .finWait1, .finWait2, .closed] := by
    unfold TCPSocket.refilled
    cases fills : s.filling input.op with
    | none => exact (unfilled_state s input.op).symm ▸ reached
    | some t =>
        have inside : t.state ∈
            [.synSent, .synReceived, .established, .finWait1, .finWait2, .closed] := by
          rcases filling_state fills with same | ⟨-, -, after⟩ | ⟨-, before, -⟩
          · exact same.symm ▸ reached
          · simp [after]
          · simp [before] at reached
        rcases fillTransmitQueue_state input.env.now t with same | closed
        · exact same.symm ▸ inside
        · exact closed.symm ▸ (by decide : State.closed ∈ _)
  rcases step_state_of_transmission transmits reached with same | other | other
  · exact same.symm ▸ refilled
  · simp [other]
  · simp [other]

/-- **One step that carries the data.** -/
theorem Carrying.step {ledger : Ledger} (carrying : Carrying iss ledger) {input : Input}
    (transmits : Transmission input) (carried : ledger.socket.Carried input) :
    Carrying iss (ledger.step input) := by
  obtain ⟨balanced, emptied⟩ := carrying.step_balanced transmits carried
  exact ⟨carrying.accounted.step carried.1, balanced, carrying.step_arrays transmits carried.1,
    reached_of_transmission transmits carrying.reached, emptied⟩

/-- A fill with negative space makes `_bufferedAmount` exceed what is queued. -/
theorem Carrying.fillSafe {ledger : Ledger} (carrying : Carrying iss ledger) {input : Input}
    (segmented : Segmented iss (ledger.step input).sent (ledger.step input).socket) :
    ledger.socket.FillSafe input := by
  obtain ⟨s, sent⟩ := ledger
  obtain ⟨accounted, balanced, -, -, -⟩ := carrying
  dsimp only [Ledger.step] at *
  by_contra unsafe_
  obtain ⟨t, buf, queue, fills, split, negative, result⟩ := fillResult_of_unsafe unsafe_
  have frame := (refilled_frame input accounted.flowing.unset).queueFrame.trans
    (step_queueFrame input s)
  rw [transmitted_of_filling fills, result] at frame
  obtain ⟨queued, buffered, -⟩ := filling_queued fills
  have counted := segmented.buffered
  rw [frame.bufferedAmount] at counted
  change t.bufferedAmount - t.spaceLeft = _ at counted
  rw [buffered, balanced.2] at counted
  have total : t.queued.length = s.queued.length + (s.sentBy input.op).length := by
    rw [queued, List.length_append]
  have less : (s.step input).queued.length ≤ t.queued.length := by
    rw [TCPSocket.queued, TCPSocket.queued, split]
    rcases frame.queues with ⟨kept, -⟩ | ⟨emptied, -⟩
    · rw [kept]
      change (subarrayFrom buf t.spaceLeft ++ queueBytes queue).length ≤
        (buf ++ queueBytes queue).length
      rw [List.length_append, List.length_append, subarrayFrom, List.length_drop]
      omega
    · rw [emptied]
      exact Nat.zero_le _
  omega

/-- A fill that resets the connection loses what it leaves in the queue. -/
theorem Carrying.lossless {ledger : Ledger} (carrying : Carrying iss ledger) {input : Input}
    (transmits : Transmission input) (safe : ledger.socket.FillSafe input)
    (segmented : Segmented iss (ledger.step input).sent (ledger.step input).socket) :
    ∀ t ∈ ledger.socket.filling input.op, t.BelowLimit ∨ t.Fits := by
  obtain ⟨s, sent⟩ := ledger
  obtain ⟨accounted, -, arrays, -, -⟩ := carrying
  dsimp only [Ledger.step] at *
  intro t fills
  by_contra lost
  obtain ⟨limit, misfit⟩ := not_or.mp lost
  have filled := accounted.flowing.filled input.env.now fills (safe t fills)
  obtain ⟨-, gone⟩ := (refilled_of_filling fills accounted.flowing.unset filled).resolve_left
    fun below => limit below.1
  have sends : ∀ u8, input.op = .send u8 → u8 ≠ [] := by
    intro u8 op
    rw [Transmission, op] at transmits
    exact transmits
  have arrays := filling_arrays fills sends arrays
  obtain ⟨-, -, -, small, bounded, -⟩ := accounted.flowing.fillable fills
  have left : (t.fillResult input.env.now).rest ≠ [] := by
    rw [Ne, filled.rest_eq_nil_iff arrays, ← (spaceLeft_eq small (by omega)).2]
    exact fun fits => misfit (fits_iff.mpr fits)
  -- The count still includes what the reset has removed from the queue.
  have empty : (s.step input).queued = [] := by
    rw [queued]
    rcases (step_queueFrame input s).queues with ⟨kept, -⟩ | ⟨emptied, -⟩
    · rw [kept, gone]
      rfl
    · rw [emptied]
      rfl
  have counted := ((accounted.transmitted safe).2.1 (filling_alive fills).1).2
  have frame := (refilled_frame input accounted.flowing.unset).queueFrame.trans
    (step_queueFrame input s)
  rw [← frame.bufferedAmount, segmented.buffered, empty, transmitted, fills] at counted
  refine filled.rest_bytes arrays left (List.length_eq_zero_iff.mp ?_)
  change ((0 : Nat) : Int) = (queueBytes (t.fillResult input.env.now).rest).length at counted
  omega

/-- **Segmentation over whole runs.** A connection that only sends non-empty arrays and
gets acknowledgements loses and duplicates nothing, in every state of the run,
exactly when at every step no fill finds negative space and no fill that leaves
data in the queue resets the connection. -/
theorem segmentation_exact {iss : Seq} {s : TCPSocket} (started : Started iss s)
    (inputs : List Input) (transmission : ∀ input ∈ inputs, Transmission input) :
    Along Ledger.step (fun ledger input =>
        Segmented iss (ledger.step input).sent (ledger.step input).socket) ⟨s, []⟩ inputs ↔
      Along Ledger.step (fun ledger input => ledger.socket.Carried input) ⟨s, []⟩ inputs := by
  have start : Carrying iss ⟨s, []⟩ := by
    have accounted := started.atStart.accounted
    have alive : s.state ≠ .closed := by
      rcases started.atStart.connecting with state | state <;> simp [state]
    refine ⟨accounted, accounted.kept alive, ?_, ?_, fun closed => absurd closed alive⟩
    · simp [NonemptyArrays, started.atStart.queueTx]
    · rcases started.atStart.connecting with state | state <;> simp [state]
  refine Along.iff_of_invariant (Carrying iss) (fun ledger input transmits carrying => ?_)
    (fun ledger input transmits carrying carried => carrying.step transmits carried)
    (.of_inputs transmission) start
  constructor
  · intro segmented
    have safe := carrying.fillSafe segmented
    exact ⟨safe, carrying.lossless transmits safe segmented⟩
  · intro carried
    have after := carrying.step transmits carried
    exact after.accounted.segmented after.balanced

/-- The right edges of the windows announced by the incoming segments, in order. -/
def rightEdges (inputs : List Input) : List Seq :=
  inputs.filterMap fun input =>
    match input.op with
    | .receive segment => some (seqInc segment.ackNumber segment.windowSize.toNat)
    | _ => none

/-- The right edges never move to the left, but an old acknowledgement is late: its
window is counted from the newer edge, and the next window is smaller than what
is in flight. -/
theorem segmentation_lost_by_late_window :
    ¬ ∀ (iss : Seq) (s : TCPSocket), Started iss s → ∀ inputs : List Input,
      (∀ input ∈ inputs, Transmission input) →
      (rightEdges inputs).Pairwise (fun earlier later => 0 ≤ seqOffset later earlier) →
      Along Ledger.step (fun ledger input =>
        Segmented iss (ledger.step input).sent (ledger.step input).socket) ⟨s, []⟩ inputs := by
  intro claim
  have along := claim 19999 dialled dialled_started
    [⟨direct 1, .receive (.ofData (flagSYN ||| flagACK) 700 20000 2 [])⟩,
      ⟨direct 2, .send [1, 2]⟩,
      ⟨direct 3, .receive (.ofData flagACK 701 20001 1 [])⟩,
      ⟨direct 4, .receive (.ofData flagACK 701 20000 2 [])⟩,
      ⟨direct 5, .send [3]⟩,
      ⟨direct 6, .receive (.ofData flagACK 701 20001 1 [])⟩,
      ⟨direct 7, .send [4]⟩]
    (by decide) (by decide)
  exact absurd along.2.2.2.2.2.2.1.buffered (by decide)

/-- A split array, a full segment's worth of window and the end of the data. -/
theorem segmentation_exact_split_array :
    let inputs : List Input :=
      [⟨direct 1, .receive (.ofData (flagSYN ||| flagACK) 700 20000 2 [])⟩,
        ⟨direct 2, .send [1, 2, 3]⟩,
        ⟨direct 3, .close⟩,
        ⟨direct 4, .receive (.ofData flagACK 701 20002 5 [])⟩]
    (∀ input ∈ inputs, Transmission input) ∧
      Along Ledger.step (fun ledger input =>
        Segmented 19999 (ledger.step input).sent (ledger.step input).socket) ⟨dialled, []⟩ inputs := by
  intro inputs
  have transmission : ∀ input ∈ inputs, Transmission input := by decide
  exact ⟨transmission, (segmentation_exact dialled_started inputs transmission).mpr (by decide)⟩

end TCPSocket

end JsOS.Net.Tcp
