import JsOS.Net.Tcp.Filling

/-! # Flow control

The items pushed to `_transmitQueue` should tile one range of sequence numbers,
and data should stay inside the peer's window (`FlowControlled`). The size of the
window is assigned from every segment, also from one whose acknowledgement is not
accepted, so the space left at the transmit position can be negative; a fill with
data at the head of `_queueTx` then pushes an item of negative length. That is the
only way to lose the property (`FillSafe`, `flowControlled_exact`).
-/

namespace JsOS.Net.Tcp

open Circular Transition

/-- The states before the owner has closed the connection for writing. -/
def State.writable : State → Bool
  | .synSent | .synReceived | .established | .closeWait => true
  | _ => false

namespace TCPSocket

/-- The distance from the acknowledged edge to the transmit position. -/
def inflight (s : TCPSocket) : Nat := ahead s.transmitWindowEdge s.transmitPosition

/-- The pushed items tile the sequence numbers from the initial one to the transmit
position; a data item has the length of its buffer and was pushed inside the
peer's window at that moment. -/
structure FlowControlled (iss : Seq) (s : TCPSocket) : Prop where
  tiles : Tiles iss s.pushed s.transmitPosition
  data : ∀ item ∈ s.pushed, ∀ u8, item.u8 = some u8 → 0 < item.len ∧ item.len = u8.length
  window : ∀ item edge (size : Nat), .push item edge size ∈ s.events → item.u8.isSome →
    (ahead edge item.seq : Int) + item.len ≤ size

/-- The transmit position did not move backwards. -/
def Forward (s t : TCPSocket) : Prop :=
  ahead s.transmitPosition t.transmitPosition < 2 ^ 31

/-- If the step calls `_fillTransmitQueue` with data at the head of `_queueTx`, the
space left in the peer's window is not negative. -/
def FillSafe (s : TCPSocket) (input : Input) : Prop :=
  ∀ t ∈ s.filling input.op, t.queueTx.head?.join.isSome → 0 ≤ t.spaceLeft

instance (s : TCPSocket) (input : Input) : Decidable (s.FillSafe input) :=
  inferInstanceAs (Decidable (∀ t ∈ s.filling input.op, _))

/-- The invariant of a connection with flow control. Only the end of the data is
pushed outside the window. -/
structure Flowing (iss : Seq) (s : TCPSocket) : Prop where
  controlled : FlowControlled iss s
  unset : s.ondrain = none
  small : s.transmitWindowSize < 65536
  last : EndLast s.queueTx
  writes : s.state.writable → none ∉ s.queueTx
  bounded : s.inflight ≤ 65535 ∨ (s.inflight = 65536 ∧ s.queueTx = [] ∧ ¬ s.state.writable)

/-! ## The socket at a fill -/

/-- The space left is the size of the window less what is in flight. -/
theorem spaceLeft_eq {s : TCPSocket} (small : s.transmitWindowSize < 65536)
    (bounded : s.inflight ≤ 65536) :
    s.rightEdge = seqInc s.transmitPosition (s.transmitWindowSize - s.inflight) ∧
      s.spaceLeft = s.transmitWindowSize - s.inflight := by
  have position : s.transmitPosition = seqInc s.transmitWindowEdge s.inflight := by
    rw [seqInc_natCast, inflight, add_ahead]
  have right : s.rightEdge =
      seqInc s.transmitPosition (s.transmitWindowSize - s.inflight) := by
    rw [position, seqInc_seqInc, rightEdge]
    congr 1
    omega
  exact ⟨right, seqOffset_eq right (by omega) (by omega)⟩

theorem isTransmittedUnacked_iff {s : TCPSocket} {seq : Seq} :
    s.isTransmittedUnacked seq ↔
      0 < ahead s.transmitWindowEdge seq ∧ ahead s.transmitWindowEdge seq ≤ s.inflight := by
  unfold isTransmittedUnacked inflight
  by_cases equal : s.transmitWindowEdge = s.transmitPosition
  · simp only [equal, ahead_self, ↓reduceIte, Bool.false_eq_true, false_iff]
    omega
  · rw [← mem_openClosed_iff equal]
    dsimp only
    rw [if_neg equal]
    split <;> simp

/-- An accepted acknowledgement takes something out of flight. -/
theorem AcceptsACK.inflight_eq {s : TCPSocket} {ackNumber : Seq}
    (accepts : s.AcceptsACK ackNumber) :
    0 < ahead s.transmitWindowEdge ackNumber ∧
      ahead s.transmitWindowEdge ackNumber + ahead ackNumber s.transmitPosition = s.inflight := by
  obtain ⟨positive, bound⟩ := isTransmittedUnacked_iff.mp accepts.2
  have rest := ahead_of_le _ bound
  unfold inflight at bound ⊢
  exact ⟨positive, by omega⟩

/-- What holds of the socket when a step calls `_fillTransmitQueue`. -/
structure Fillable (s t : TCPSocket) : Prop where
  pushes : t.pushes = s.pushes
  transmitPosition : t.transmitPosition = s.transmitPosition
  ondrain : t.ondrain = none
  small : t.transmitWindowSize < 65536
  bounded : t.inflight ≤ 65535
  last : EndLast t.queueTx

/-- `close` and `halfclose` leave the states that can be written to. -/
theorem ending?_eq_some {s t : TCPSocket} (ends : s.ending? = some t) :
    s.state.writable ∧ ∃ state : State, state.writable = false ∧ t = s.queueEnd state := by
  unfold ending? at ends
  cases state : s.state with
  | established =>
      rw [state] at ends
      exact ⟨rfl, .finWait1, rfl, (Option.some.inj ends).symm⟩
  | closeWait =>
      rw [state] at ends
      exact ⟨rfl, .lastAck, rfl, (Option.some.inj ends).symm⟩
  | _ =>
      rw [state] at ends
      cases ends

theorem writable_of_canSend {s : TCPSocket} (able : s.canSend) : s.state.writable := by
  unfold canSend at able
  cases state : s.state <;> simp_all [State.writable]

variable {iss : Seq} {s : TCPSocket}

theorem Flowing.bounded_of_writable (flowing : Flowing iss s) (writable : s.state.writable) :
    s.inflight ≤ 65535 := by
  rcases flowing.bounded with bounded | ⟨-, -, closed⟩
  · exact bounded
  · exact absurd writable closed

theorem Flowing.fillable (flowing : Flowing iss s) {op : Op} {t : TCPSocket}
    (fills : s.filling op = some t) : Fillable s t := by
  have unset := (filling_ondrain fills).trans flowing.unset
  have ended (ends : s.ending? = some t) : Fillable s t := by
    obtain ⟨writable, state, -, rfl⟩ := ending?_eq_some ends
    exact ⟨rfl, rfl, unset, flowing.small, flowing.bounded_of_writable writable,
      .append (flowing.writes writable) rfl⟩
  cases op with
  | send u8 =>
      obtain ⟨able, ⟨⟩⟩ := Option.ite_none_right_eq_some.mp fills
      have writable := writable_of_canSend able
      exact ⟨rfl, rfl, unset, flowing.small, flowing.bounded_of_writable writable,
        .append (flowing.writes writable) trivial⟩
  | halfclose => exact ended fills
  | close => exact ended fills
  | receive segment =>
      obtain ⟨⟨-, accepts⟩, ⟨⟩⟩ := Option.ite_none_right_eq_some.mp fills
      obtain ⟨positive, total⟩ := accepts.inflight_eq
      refine ⟨rfl, rfl, unset, segment.windowSize.isLt, ?_, flowing.last⟩
      change ahead segment.ackNumber s.transmitPosition ≤ 65535
      have := flowing.bounded
      omega
  | timerTick => cases fills

theorem Follows.writable {ends : Prop} {before after : State} (follows : Follows ends before after)
    (writable : after.writable) : before.writable := by
  cases follows with
  | stay => exact writable
  | closed | halfclosed | bothEnded | ackedEnd | ackedPeerEnded | finished => cases writable
  | connected | connectedEnded | accepted | acceptedEnded | peerEnded => rfl

theorem step_state_of_ending {input : Input} (ends : input.op.Ends)
    {t : TCPSocket} (some_ : s.ending? = some t) : (s.step input).state.writable = false := by
  obtain ⟨writable, state, closed, rfl⟩ := ending?_eq_some some_
  have fills : s.filling input.op = some (s.queueEnd state) := by
    rcases ends with op | op <;> rw [op] <;> exact some_
  rcases step_eq input s with call | ⟨segment, op, -⟩ | ⟨op, -⟩ | ⟨listening, -⟩
  · rw [call, refilled, fills]
    rcases fillTransmitQueue_state input.env.now (s.queueEnd state) with same | reset
    · exact (congrArg State.writable same).trans closed
    · exact congrArg State.writable reset
  · rcases ends with op' | op' <;> rw [op'] at op <;> cases op
  · rcases ends with op' | op' <;> rw [op'] at op <;> cases op
  · rw [listening] at writable
    cases writable

/-- A socket that can be written to after a step could be before it, and the step
queued no end of the data. -/
theorem writable_of_step (input : Input) (writable : (s.step input).state.writable) :
    s.state.writable ∧ ∀ t ∈ s.filling input.op, none ∈ t.queueTx → none ∈ s.queueTx := by
  refine ⟨(step_follows input s).writable writable, ?_⟩
  intro t fills member
  cases op : input.op with
  | send u8 =>
      rw [op] at fills
      obtain ⟨-, ⟨⟩⟩ := Option.ite_none_right_eq_some.mp fills
      simpa [enqueue] using member
  | halfclose =>
      rw [op] at fills
      rw [step_state_of_ending (.inl op) fills] at writable
      cases writable
  | close =>
      rw [op] at fills
      rw [step_state_of_ending (.inr op) fills] at writable
      cases writable
  | receive segment =>
      rw [op] at fills
      obtain ⟨-, ⟨⟩⟩ := Option.ite_none_right_eq_some.mp fills
      exact member
  | timerTick =>
      rw [op] at fills
      cases fills

/-! ## One step -/

theorem pushes_afterFill (t : TCPSocket) (fill : Fill) :
    (t.afterFill fill).pushes =
      t.pushes ++ fill.items.map (.push · t.transmitWindowEdge t.transmitWindowSize) := by
  have all : (fill.items.map (Event.push · t.transmitWindowEdge t.transmitWindowSize)).filter
      Event.isPush = fill.items.map (.push · t.transmitWindowEdge t.transmitWindowSize) := by
    rw [List.filter_eq_self]
    intro event member
    obtain ⟨item, -, rfl⟩ := List.mem_map.mp member
    rfl
  simp only [pushes, afterFill, List.filter_append, all]

theorem pushed_afterFill (t : TCPSocket) (fill : Fill) :
    (t.afterFill fill).pushed = t.pushed ++ fill.items := by
  rw [pushed_eq_pushes, pushes_afterFill, List.filterMap_append, ← pushed_eq_pushes,
    List.filterMap_map]
  congr 1
  exact List.filterMap_some

theorem mem_events_iff_pushes {item : TransmitItem} {edge : Seq} {size : Nat} {s : TCPSocket} :
    .push item edge size ∈ s.events ↔ .push item edge size ∈ s.pushes := by
  simp [pushes, Event.isPush]

theorem FlowControlled.frame {t : TCPSocket} (controlled : FlowControlled iss s)
    (pushes : t.pushes = s.pushes) (position : t.transmitPosition = s.transmitPosition) :
    FlowControlled iss t := by
  have pushed : t.pushed = s.pushed := by
    rw [pushed_eq_pushes, pushes, ← pushed_eq_pushes]
  refine ⟨?_, ?_, ?_⟩
  · rw [pushed, position]
    exact controlled.tiles
  · rw [pushed]
    exact controlled.data
  · intro item edge size member
    rw [mem_events_iff_pushes, pushes, ← mem_events_iff_pushes] at member
    exact controlled.window item edge size member

/-- Filling with space left keeps flow control. -/
theorem FlowControlled.afterFill {now : Nat} {t : TCPSocket} (controlled : FlowControlled iss t)
    (small : t.transmitWindowSize < 65536) {fill : Fill} (filled : Filled now t.transmitPosition
      (t.transmitWindowSize - t.inflight) t.queueTx fill) :
    FlowControlled iss (t.afterFill fill) := by
  refine ⟨?_, ?_, ?_⟩
  · rw [pushed_afterFill]
    exact controlled.tiles.append filled.tiles
  · rw [pushed_afterFill]
    intro item member u8 data
    rcases List.mem_append.mp member with member | member
    · exact controlled.data item member u8 data
    · obtain ⟨positive, length, -⟩ := filled.data item member u8 data
      exact ⟨positive, length⟩
  · intro item edge size member data
    rw [mem_events_iff_pushes, pushes_afterFill] at member
    rcases List.mem_append.mp member with member | member
    · exact controlled.window item edge size (mem_events_iff_pushes.mpr member) data
    · obtain ⟨item', new, equal⟩ := List.mem_map.mp member
      obtain ⟨rfl, rfl, rfl⟩ := Event.push.inj equal
      obtain ⟨offset, start, bound⟩ := filled.within item' new data
      obtain ⟨u8, some_⟩ := Option.isSome_iff_exists.mp data
      obtain ⟨positive, -⟩ := filled.data item' new u8 some_
      have distance : ahead t.transmitWindowEdge item'.seq = t.inflight + offset := by
        rw [start, seqInc_natCast, ahead_advance (show t.inflight + offset < 2 ^ 32 by omega)]
        rfl
      rw [distance]
      push_cast
      omega

theorem unfilled_eq (s : TCPSocket) (op : Op) :
    ∃ size, s.unfilled op = { s with transmitWindowSize := size } ∧
      (s.transmitWindowSize < 65536 → size < 65536) := by
  unfold unfilled
  split
  · split
    · exact ⟨_, rfl, fun _ => BitVec.isLt _⟩
    · exact ⟨_, rfl, id⟩
  · exact ⟨_, rfl, id⟩

theorem Flowing.of_frame {u v : TCPSocket} (frame : QueueFrame u v)
    (controlled : FlowControlled iss u) (unset : u.ondrain = none)
    (small : u.transmitWindowSize < 65536) (last : EndLast u.queueTx)
    (writes : v.state.writable → none ∉ u.queueTx)
    (bounded : u.inflight ≤ 65535 ∨
      (u.inflight = 65536 ∧ u.queueTx = [] ∧ ¬ v.state.writable)) :
    Flowing iss v := by
  have inflight : v.inflight = u.inflight := by
    rw [TCPSocket.inflight, frame.transmitWindowEdge, frame.transmitPosition, TCPSocket.inflight]
  have queue : v.queueTx = u.queueTx ∨ v.queueTx = [] := frame.queues.imp And.left And.left
  refine ⟨controlled.frame frame.pushes frame.transmitPosition, frame.ondrain.trans unset,
    frame.transmitWindowSize.symm ▸ small, ?_, ?_, ?_⟩
  · rcases queue with kept | emptied
    · rw [kept]
      exact last
    · rw [emptied]
      trivial
  · intro writable
    rcases queue with kept | emptied
    · rw [kept]
      exact writes writable
    · simp [emptied]
  · rw [inflight]
    refine bounded.imp_right fun ⟨full, done, closed⟩ => ⟨full, ?_, closed⟩
    rcases queue with kept | emptied
    · rw [kept, done]
    · exact emptied

theorem Flowing.filled (now : Nat) (flowing : Flowing iss s) {op : Op} {t : TCPSocket}
    (fills : s.filling op = some t) (safe : t.queueTx.head?.join.isSome → 0 ≤ t.spaceLeft) :
    Filled now t.transmitPosition (t.transmitWindowSize - t.inflight) t.queueTx
      (t.fillResult now) := by
  obtain ⟨-, -, -, small, bounded, last⟩ := flowing.fillable fills
  obtain ⟨right, space⟩ := spaceLeft_eq small (by omega)
  refine fillQueue_filled now right (by omega) last ?_
  rw [← space]
  exact safe

/-- **One step.** A step whose fill is safe keeps the invariant, and the transmit
position moves forward by less than half the circle. -/
theorem Flowing.step (flowing : Flowing iss s) {input : Input} (safe : s.FillSafe input) :
    Flowing iss (s.step input) ∧ Forward s (s.step input) := by
  have frame := (refilled_frame input flowing.unset).queueFrame.trans (step_queueFrame input s)
  have writes : (s.step input).state.writable → none ∉ s.queueTx := fun writable =>
    flowing.writes (writable_of_step input writable).1
  cases fills : s.filling input.op with
  | none =>
      have same : s.transmitted input = s.unfilled input.op := by rw [transmitted, fills]
      rw [same] at frame
      obtain ⟨size, after, small⟩ := unfilled_eq s input.op
      rw [after] at frame
      refine ⟨.of_frame frame (flowing.controlled.frame rfl rfl) flowing.unset
        (small flowing.small) flowing.last writes ?_, ?_⟩
      · apply flowing.bounded.imp_right
        rintro ⟨full, done, closed⟩
        exact ⟨full, done, fun writable => closed (writable_of_step input writable).1⟩
      · rw [Forward, frame.transmitPosition, ahead_self]
        decide
  | some t =>
      obtain ⟨pushes, position, unset, small, inflight, last⟩ := flowing.fillable fills
      have filled := flowing.filled input.env.now fills (safe t fills)
      have after : s.transmitted input = t.afterFill (t.fillResult input.env.now) := by
        rw [transmitted, fills]
      rw [after] at frame
      generalize t.fillResult input.env.now = fill at filled frame
      have closes : none ∈ t.queueTx → ¬ (s.step input).state.writable :=
        fun ends writable => writes writable ((writable_of_step input writable).2 t fills ends)
      obtain ⟨count, reaches, bound, -⟩ := filled.advance
      have distance : (t.afterFill fill).inflight = t.inflight + count := by
        change ahead t.transmitWindowEdge fill.position = _
        rw [reaches, seqInc_natCast, ahead_advance (show t.inflight + count < 2 ^ 32 by omega)]
        rfl
      refine ⟨.of_frame frame ((flowing.controlled.frame pushes position).afterFill small filled)
        unset small (filled.endLast last) ?_ ?_, ?_⟩
      · intro writable
        exact filled.none_notMem fun ends => closes ends writable
      · rw [distance]
        rcases bound with zero | bound | ⟨ends, consumed, bound⟩
        · exact .inl (by omega)
        · exact .inl (by omega)
        · by_cases full : t.inflight + count ≤ 65535
          · exact .inl full
          · exact .inr ⟨by omega, consumed, closes ends⟩
      · rw [Forward, frame.transmitPosition]
        change ahead s.transmitPosition fill.position < _
        rw [reaches, position, seqInc_natCast, ahead_add_ofNat _ (by omega)]
        omega

/-- A fill with negative space and data at the head pushes one item of that length. -/
theorem fillResult_of_unsafe {input : Input} (unsafe_ : ¬ s.FillSafe input) :
    ∃ t buf queue, s.filling input.op = some t ∧ t.queueTx = some buf :: queue ∧
      t.spaceLeft < 0 ∧ t.fillResult input.env.now =
        ⟨[dataItem input.env.now t.transmitPosition t.spaceLeft (subarray buf 0 t.spaceLeft)],
          some (subarrayFrom buf t.spaceLeft) :: queue, seqInc t.transmitPosition t.spaceLeft,
          t.spaceLeft⟩ := by
  simp only [FillSafe, not_forall, exists_prop] at unsafe_
  obtain ⟨t, fills, data, negative⟩ := unsafe_
  obtain ⟨buf, queue, split⟩ : ∃ buf queue, t.queueTx = some buf :: queue := by
    cases queue : t.queueTx with
    | nil =>
        rw [queue] at data
        cases data
    | cons entry rest =>
        rw [queue] at data
        obtain ⟨buf, rfl⟩ := Option.isSome_iff_exists.mp data
        exact ⟨buf, rest, rfl⟩
  refine ⟨t, buf, queue, fills, split, by omega, ?_⟩
  rw [fillResult, split]
  exact fillQueue_of_negative input.env.now buf queue
    (show seqOffset t.rightEdge t.transmitPosition = t.spaceLeft from rfl) (by omega)

theorem not_flowControlled_of_unsafe (flowing : Flowing iss s) {input : Input}
    (unsafe_ : ¬ s.FillSafe input) : ¬ FlowControlled iss (s.step input) := by
  intro controlled
  obtain ⟨t, buf, queue, fills, -, negative, result⟩ := fillResult_of_unsafe unsafe_
  have frame := (refilled_frame input flowing.unset).queueFrame.trans (step_queueFrame input s)
  rw [transmitted, fills] at frame
  have pushed : (s.step input).pushed = t.pushed ++
      [dataItem input.env.now t.transmitPosition t.spaceLeft (subarray buf 0 t.spaceLeft)] := by
    rw [frame.pushed, pushed_afterFill, result]
  obtain ⟨positive, -⟩ := controlled.data _
    (by rw [pushed]; exact List.mem_append_right _ List.mem_cons_self) _ rfl
  simp only [dataItem] at positive
  omega

/-! ## Whole runs -/

theorem AtStart.pushes (start : AtStart iss s) :
    ∃ now flags, flags &&& flagFIN = 0 ∧ s.pushes = [.push (synItem now iss flags) iss 0] ∧
      s.pushed = [synItem now iss flags] := by
  obtain ⟨now, flags, noFIN, -, landmarks⟩ := start.syn
  refine ⟨now, flags, noFIN, ?_, ?_⟩
  · rw [pushes_eq_landmarks, landmarks]
    rfl
  · rw [pushed_eq_landmarks, landmarks]
    rfl

theorem AtStart.flowing (start : AtStart iss s) : Flowing iss s := by
  obtain ⟨now, flags, -, pushes, pushed⟩ := start.pushes
  have inflight : s.inflight = 1 := by
    rw [TCPSocket.inflight, start.transmitWindowEdge, start.transmitPosition]
    exact ahead_succ iss
  refine ⟨⟨?_, ?_, ?_⟩, start.ondrain, ?_, ?_, ?_, .inl (by omega)⟩
  · rw [pushed, start.transmitPosition]
    exact ⟨rfl, Int.one_pos, rfl⟩
  · simp [pushed, synItem]
  · intro item edge size member
    rw [mem_events_iff_pushes, pushes, List.mem_singleton] at member
    obtain ⟨rfl, -⟩ := Event.push.inj member
    simp [synItem]
  · rw [start.transmitWindowSize]
    decide
  · rw [start.queueTx]
    trivial
  · simp [start.queueTx]

/-- **Flow control over whole runs.** From the start of a connection on, every state
of a run has tiled, well-formed and windowed items, and no step moves the transmit
position backwards, exactly when no step fills the transmit queue from data with
negative space left. -/
theorem flowControlled_exact {iss : Seq} {s : TCPSocket} (started : Started iss s)
    (inputs : List Input) :
    (FlowControlled iss s ∧
        Along step (fun s input => FlowControlled iss (s.step input) ∧ Forward s (s.step input))
          s inputs) ↔
      Along step FillSafe s inputs := by
  rw [and_iff_right started.atStart.flowing.controlled]
  refine Along.iff_of_invariant (Flowing iss) (fun s input _ flowing => ?_)
    (fun s input _ flowing safe => ?_) (Along.of_inputs fun _ _ => trivial)
    started.atStart.flowing
  · constructor
    · intro ⟨controlled, _⟩
      by_contra unsafe_
      exact not_flowControlled_of_unsafe flowing unsafe_ controlled
    · intro safe
      obtain ⟨after, forward⟩ := flowing.step safe
      exact ⟨after.controlled, forward⟩
  · exact (flowing.step safe).1

/-- A window of five bytes, three of them sent, then an acknowledgement of nothing new
that announces one byte: the next `send` pushes an item of length -2. -/
theorem flowControl_lost_by_shrunk_window :
    ¬ ∀ (iss : Seq) (s : TCPSocket), Started iss s → ∀ inputs : List Input,
      FlowControlled iss s ∧
        Along step (fun s input => FlowControlled iss (s.step input) ∧ Forward s (s.step input))
          s inputs := by
  intro claim
  have along := (claim 19999 dialled dialled_started
    [⟨direct 1, .receive (.ofData (flagSYN ||| flagACK) 700 20000 5 [])⟩,
      ⟨direct 2, .send [1, 2, 3]⟩,
      ⟨direct 3, .receive (.ofData flagACK 701 20000 1 [])⟩,
      ⟨direct 4, .send [4]⟩]).2
  have positive := along.2.2.2.1.1.data (dataItem 4 20003 (-2) []) (by decide) [] rfl
  exact absurd positive.1 (by decide)

/-- The same segments with the window kept open. -/
theorem flowControlled_exact_open_window :
    let inputs : List Input :=
      [⟨direct 1, .receive (.ofData (flagSYN ||| flagACK) 700 20000 5 [])⟩,
        ⟨direct 2, .send [1, 2, 3]⟩,
        ⟨direct 3, .receive (.ofData flagACK 701 20001 4 [])⟩,
        ⟨direct 4, .send [4]⟩,
        ⟨direct 5, .close⟩]
    Started 19999 dialled ∧ Along step FillSafe dialled inputs ∧
      Along step (fun s input => FlowControlled 19999 (s.step input) ∧ Forward s (s.step input))
        dialled inputs := by
  intro inputs
  have safe : Along step FillSafe dialled inputs := by decide
  exact ⟨dialled_started, safe, ((flowControlled_exact dialled_started inputs).mpr safe).2⟩

end TCPSocket

end JsOS.Net.Tcp
