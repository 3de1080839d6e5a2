import JsOS.Net.Tcp.Accounting
import JsOS.Net.Tcp.Progress

/-! # Sending from `ondrain`

`_fillTransmitQueue` calls `ondrain` in the middle of its loop, before the arrays it
has consumed are shifted out of `_queueTx`. A `send` from there starts a second
loop over the same arrays. As long as the window is used up at that moment, the
second loop pushes nothing and the sends have the effect they have afterwards
(`drain_safe`); with window to spare the consumed arrays are sent once more.
-/

namespace JsOS.Net.Tcp

/-- The arrays a fill drains when the window allows it: non-empty arrays of at most a
segment, followed by empty ones at most. -/
def Drainable (bufs : List Bytes) : Prop :=
  ∃ full empties : List Bytes, bufs = full ++ empties ∧ full ≠ [] ∧
    (∀ buf ∈ full, buf ≠ [] ∧ (buf.length : Int) ≤ maxSegmentSize) ∧ ∀ buf ∈ empties, buf = []

namespace TCPSocket

/-- The bytes in `_transmitQueue` followed by those in `_queueTx`. -/
def outbound (s : TCPSocket) : Bytes := itemBytes s.transmitQueue ++ queueBytes s.queueTx

/-- Successive calls of `send`; one that throws changes nothing. -/
def sendAll (now : Nat) (arrays : List Bytes) (s : TCPSocket) : TCPSocket :=
  arrays.foldl (fun s u8 => s.orUnchanged ((s.send now u8).map Prod.snd)) s

/-- The arrays that calls of `ondrain` have passed to `send` meanwhile. -/
def drained (s t : TCPSocket) : List Bytes :=
  ((s.ondrain.getD []).take ((s.ondrain.getD []).length - (t.ondrain.getD []).length)).flatten

/-- The arrays the next call of `ondrain` passes to `send`. -/
def nextDrain (s : TCPSocket) : List Bytes := (s.ondrain.getD []).headD []

/-- Sending from `ondrain` puts the same bytes into the queues as sending afterwards, and
`_bufferedAmount` counts the bytes in `_queueTx`. -/
def DrainsSafely (now : Nat) (s : TCPSocket) : Prop :=
  let inside := s.fillTransmitQueue now
  let afterwards :=
    sendAll now (s.drained inside) ({ s with ondrain := none }.fillTransmitQueue now)
  inside.outbound = afterwards.outbound ∧
    inside.bufferedAmount = (queueBytes inside.queueTx).length

instance (now : Nat) (s : TCPSocket) : Decidable (DrainsSafely now s) :=
  inferInstanceAs (Decidable (_ ∧ _))

/-- Arrays are queued, and `_bufferedAmount` counts their bytes. -/
structure Buffered (bufs : List Bytes) (s : TCPSocket) : Prop where
  queueTx : s.queueTx = bufs.map some
  bufferedAmount : s.bufferedAmount = (queueBytes s.queueTx).length

/-- No item in flight reaches the limit of retransmissions in so many passes of
`_sendTransmitQueue`. -/
def Within (now passes : Nat) (s : TCPSocket) : Prop :=
  ∀ item ∈ s.transmitQueue, ∀ pass < passes,
    ((TransmitItem.resend now)^[pass] item).retransmits ≤ 7

instance (now passes : Nat) (s : TCPSocket) : Decidable (Within now passes s) :=
  inferInstanceAs (Decidable (∀ item ∈ s.transmitQueue, ∀ pass < passes, _))

/-- The fill does not drain the queue with window to spare for what `ondrain` sends, the
space left is not negative, and the retransmission limit is not reached. -/
structure DrainSafe (now : Nat) (bufs : List Bytes) (s : TCPSocket) : Prop where
  room : bufs ≠ [] → 0 ≤ s.spaceLeft
  limit : Within now (s.nextDrain.length + 1) s
  used : s.nextDrain = [] ∨ s.spaceLeft ≤ bufs.flatten.length ∨ ¬ Drainable bufs

/-! ## Passes of `_sendTransmitQueue` -/

section Passes

variable {now passes : Nat} {s : TCPSocket}

theorem Within.belowLimit (within : Within now (passes + 1) s) : s.BelowLimit :=
  fun item member => within item member 0 (Nat.succ_pos _)

/-- An item that was just pushed is sent once. -/
theorem retransmits_of_fresh {item : TransmitItem} (fresh : item.retransmits = 0)
    (added : item.timeAdded = now) (pass : Nat) :
    ((TransmitItem.resend now)^[pass] item).retransmits ≤ 7 := by
  have once : ∀ pass, (TransmitItem.resend now)^[pass + 1] item = { item with retransmits := 1 } := by
    intro pass
    induction pass with
    | zero => simp [TransmitItem.resend, TransmitItem.due, fresh]
    | succ pass ih =>
        rw [Function.iterate_succ_apply', ih]
        simp [TransmitItem.resend, TransmitItem.due, added]
  cases pass with
  | zero => simp [fresh]
  | succ pass =>
      rw [once]
      exact (by decide : 1 ≤ 7)

/-- A pass that does not reach the limit keeps the queues. -/
theorem Within.send (within : Within now (passes + 1) s) :
    (s.sendTransmitQueue now).state = s.state ∧
      (s.sendTransmitQueue now).queueTx = s.queueTx ∧
      (s.sendTransmitQueue now).outstanding = s.outstanding ∧
      Within now passes (s.sendTransmitQueue now) := by
  have frame := TransmitFrame.sendTransmitQueue now s
  obtain ⟨packets, -, after⟩ := sendTransmitQueue_of_below now within.belowLimit
  refine ⟨by rw [after], by rw [after], ?_, ?_⟩
  · rcases frame.queues with ⟨-, -, kept⟩ | ⟨closed, -, none_, -⟩
    · exact kept
    · rw [after] at none_ ⊢
      simp only [outstanding, List.map_map, List.map_eq_nil_iff] at none_ ⊢
      simp [none_]
  · rw [after]
    intro item member pass earlier
    obtain ⟨original, present, rfl⟩ := List.mem_map.mp member
    rw [← Function.iterate_succ_apply]
    exact within original present (pass + 1) (by omega)

end Passes

/-! ## Sends into a closed window -/

section Sends

variable {now passes : Nat} {s : TCPSocket}

theorem fillBody_of_blocked (now : Nat) (ondrain : TCPSocket → TCPSocket) (blocked : Blocked s) :
    s.fillBody now ondrain = s.sendTransmitQueue now := by
  obtain ⟨buf, later, queue, zero⟩ := blocked
  have entry : s.queueTx[0]?.join = some buf := by simp [queue]
  have stopped : s.fillLoop now ondrain s.queueTx.length 0 0 = (0, s) := by
    rw [queue, List.length_cons]
    exact fillLoop_blocked entry zero
  unfold fillBody
  rw [stopped]
  rfl

theorem fillNested_of_blocked (now depth : Nat) (blocked : Blocked s) :
    fillNested now depth s = s.sendTransmitQueue now := by
  cases depth with
  | zero => exact fillBody_of_blocked now _ blocked
  | succ depth => exact fillBody_of_blocked now _ blocked

/-- Nothing can be pushed into a closed window. -/
theorem blocked_enqueue (shut : s.spaceLeft = 0) (writes : none ∉ s.queueTx) (u8 : Bytes) :
    Blocked (s.enqueue u8) := by
  have zero (length : Nat) : (s.enqueue u8).reserved length = 0 := by
    have same : (s.enqueue u8).spaceLeft = 0 := shut
    unfold reserved maxSegmentSize
    omega
  cases queue : s.queueTx with
  | nil => exact ⟨u8, [], by simp [enqueue, queue], zero _⟩
  | cons head later =>
      cases head with
      | none =>
          rw [queue] at writes
          exact absurd List.mem_cons_self writes
      | some buf => exact ⟨buf, later ++ [some u8], by simp [enqueue, queue], zero _⟩

/-- The arrays have been appended to `_queueTx`, and nothing else happened to the transmit
side. -/
structure Appended (arrays : List Bytes) (s t : TCPSocket) : Prop where
  state : t.state = s.state
  spaceLeft : t.spaceLeft = s.spaceLeft
  ondrain : t.ondrain = s.ondrain
  outstanding : t.outstanding = s.outstanding
  queueTx : t.queueTx = s.queueTx ++ arrays.map some
  bufferedAmount : t.bufferedAmount = s.bufferedAmount + arrays.flatten.length

/-- `send` with a way to fill. -/
def sendWith (fill : TCPSocket → TCPSocket) (s : TCPSocket) (u8 : Bytes) : TCPSocket :=
  if s.canSend then fill (s.enqueue u8) else s

theorem sendAll_eq (now : Nat) (arrays : List Bytes) (s : TCPSocket) :
    sendAll now arrays s = arrays.foldl (sendWith (fillTransmitQueue now)) s := by
  have one (s : TCPSocket) (u8 : Bytes) :
      s.orUnchanged ((s.send now u8).map Prod.snd) = sendWith (fillTransmitQueue now) s u8 := by
    unfold send sendWith
    split <;> rfl
  unfold sendAll
  congr 1
  funext s u8
  exact one s u8

/-- A pass after an enqueue. -/
theorem appended_one (within : Within now (passes + 1) s) (u8 : Bytes) :
    Appended [u8] s ((s.enqueue u8).sendTransmitQueue now) ∧
      Within now passes ((s.enqueue u8).sendTransmitQueue now) := by
  have enqueued : Within now (passes + 1) (s.enqueue u8) := within
  have frame := TransmitFrame.sendTransmitQueue now (s.enqueue u8)
  obtain ⟨state, queueTx, outstanding, left⟩ := enqueued.send
  refine ⟨⟨state, ?_, frame.ondrain, outstanding, queueTx, ?_⟩, left⟩
  · simp only [TCPSocket.spaceLeft, rightEdge, frame.transmitWindowEdge, frame.transmitWindowSize,
      frame.transmitPosition]
    rfl
  · rw [frame.bufferedAmount, List.flatten_singleton]
    rfl

/-- **Sends into a closed window** append their arrays, whatever `ondrain` would do. -/
theorem appended_foldl {fill : TCPSocket → TCPSocket}
    (blocks : ∀ s, Blocked s → fill s = s.sendTransmitQueue now) {arrays : List Bytes}
    (able : s.canSend) (shut : s.spaceLeft = 0) (writes : none ∉ s.queueTx)
    (within : Within now (arrays.length + passes) s) :
    Appended arrays s (arrays.foldl (sendWith fill) s) ∧
      Within now passes (arrays.foldl (sendWith fill) s) := by
  induction arrays generalizing s with
  | nil =>
      rw [List.length_nil, Nat.zero_add] at within
      exact ⟨⟨rfl, rfl, rfl, rfl, by simp, by simp⟩, within⟩
  | cons u8 arrays ih =>
      rw [List.length_cons, Nat.add_right_comm] at within
      obtain ⟨one, left⟩ := appended_one within u8
      have first : sendWith fill s u8 = (s.enqueue u8).sendTransmitQueue now := by
        rw [sendWith, if_pos able, blocks _ (blocked_enqueue shut writes u8)]
      rw [List.foldl_cons, first]
      generalize (s.enqueue u8).sendTransmitQueue now = t at one left ⊢
      have able' : t.canSend := by
        rw [canSend_iff] at able ⊢
        rw [one.state]
        exact able
      have writes' : none ∉ t.queueTx := by
        rw [one.queueTx]
        simpa using writes
      obtain ⟨rest, left'⟩ := ih able' (one.spaceLeft.trans shut) writes' left
      refine ⟨⟨rest.state.trans one.state, rest.spaceLeft.trans one.spaceLeft,
        rest.ondrain.trans one.ondrain, rest.outstanding.trans one.outstanding, ?_, ?_⟩, left'⟩
      · rw [rest.queueTx, one.queueTx]
        simp
      · rw [rest.bufferedAmount, one.bufferedAmount]
        simp
        omega

theorem foldl_of_unable {fill : TCPSocket → TCPSocket} (unable : ¬ s.canSend)
    (arrays : List Bytes) : arrays.foldl (sendWith fill) s = s := by
  induction arrays with
  | nil => rfl
  | cons u8 arrays ih => rwa [List.foldl_cons, sendWith, if_neg unable]

end Sends

/-! ## The loop up to the call of `ondrain` -/

/-- The socket when the loop has pushed its items, before anything is shifted out. -/
def loopDone (s : TCPSocket) (fill : Fill) : TCPSocket :=
  { s with
    transmitPosition := fill.position
    transmitQueue := s.transmitQueue ++ fill.items
    bufferedAmount := s.bufferedAmount - fill.reserved
    events := s.events ++ fill.items.map (.push · s.transmitWindowEdge s.transmitWindowSize) }

theorem loopDone_pushData (now : Nat) (s : TCPSocket) (count : Int) (u8 : Bytes) (fill : Fill) :
    (s.pushData now count u8).loopDone fill =
      s.loopDone { fill with
        items := dataItem now s.transmitPosition count u8 :: fill.items
        reserved := count + fill.reserved } := by
  simp [loopDone, pushData, Int.sub_sub]

theorem flatten_eq_queueBytes (bufs : List Bytes) :
    queueBytes (bufs.map some) = bufs.flatten := by
  induction bufs with
  | nil => rfl
  | cons buf bufs ih => simp [queueBytes, ← ih]

/-- Empty arrays block the loop. -/
theorem fillQueue_of_empties (now : Nat) {right position : Seq} {empties : List Bytes}
    (empty : ∀ buf ∈ empties, buf = []) (room : 0 ≤ seqOffset right position) :
    fillQueue now right position (empties.map some) = ⟨[], empties.map some, position, 0⟩ := by
  cases empties with
  | nil => rfl
  | cons buf empties =>
      have nothing : buf = [] := empty buf List.mem_cons_self
      have zero : min (min (seqOffset right position) (0 : Nat)) maxSegmentSize = 0 := by
        unfold maxSegmentSize
        omega
      subst nothing
      rw [List.map_cons, fillQueue, List.length_nil, zero]
      rfl

/-- The fill takes every byte from arrays of at most a segment and leaves empty arrays. -/
structure TakesAll (position : Seq) (space : Int) (full empties : List Bytes) (fill : Fill) :
    Prop where
  nonempty : full ≠ []
  whole : ∀ buf ∈ full, buf ≠ [] ∧ (buf.length : Int) ≤ maxSegmentSize
  empty : ∀ buf ∈ empties, buf = []
  fits : (full ++ empties).flatten.length ≤ space
  rest : fill.rest = empties.map some
  reserved : fill.reserved = (full ++ empties).flatten.length
  reaches : fill.position = seqInc position (full ++ empties).flatten.length

theorem fillQueue_whole (now : Nat) {right position : Seq} {buf : Bytes}
    (queue : List (Option Bytes)) (nonempty : buf.length ≠ 0)
    (whole : min (min (seqOffset right position) buf.length) maxSegmentSize = buf.length) :
    fillQueue now right position (some buf :: queue) =
      { fillQueue now right (seqInc position buf.length) queue with
        items := dataItem now position buf.length buf ::
          (fillQueue now right (seqInc position buf.length) queue).items
        reserved := buf.length +
          (fillQueue now right (seqInc position buf.length) queue).reserved } := by
  have positive : (buf.length : Int) ≠ 0 := by omega
  rw [fillQueue, whole]
  simp only [positive, ↓reduceIte]

/-- What the loop over arrays does: it is not interrupted, or it calls `ondrain` when it has
pushed the last byte. -/
theorem fillLoop_drains (now : Nat) (ondrain : TCPSocket → TCPSocket) {bufs : List Bytes}
    {i : Nat} {s : TCPSocket} {space : Int} (entries : s.queueTx.drop i = bufs.map some)
    (counted : s.bufferedAmount = bufs.flatten.length) (room : bufs ≠ [] → 0 ≤ space)
    (reach : s.rightEdge = seqInc s.transmitPosition space) (small : space < 2147483648) :
    let fill := fillQueue now s.rightEdge s.transmitPosition (bufs.map some)
    afterLoop (fillLoop now ondrain bufs.length i i s) = s.afterFill fill ∨
      ∃ full empties : List Bytes, bufs = full ++ empties ∧
        TakesAll s.transmitPosition space full empties fill ∧
        fillLoop now ondrain bufs.length i i s =
          fillLoop now ondrain empties.length (i + full.length) (i + full.length)
            (ondrain (s.loopDone fill)) := by
  induction bufs generalizing i s space with
  | nil =>
      refine .inl ?_
      simp only [List.length_nil, fillLoop, afterLoop, entries, List.map_nil, fillQueue, afterFill,
        List.append_nil, Int.sub_zero]
  | cons buf bufs ih =>
      have room : 0 ≤ space := room (List.cons_ne_nil _ _)
      have inside : i < s.queueTx.length := by
        by_contra outside
        rw [List.drop_eq_nil_of_le (by omega)] at entries
        cases entries
      have split : s.queueTx.drop i = s.queueTx[i] :: s.queueTx.drop (i + 1) :=
        List.drop_eq_getElem_cons inside
      rw [split, List.map_cons] at entries
      obtain ⟨here, later⟩ := List.cons.inj entries
      have entry : s.queueTx[i]?.join = some buf := by
        rw [List.getElem?_eq_getElem inside, here]
        rfl
      have offset : s.spaceLeft = space := seqOffset_eq reach (by omega) small
      have plain := afterLoop_fillLoop now (bufs.length + 1) i s (by
        rw [split, later, List.length_cons, List.length_map])
      rw [split, later, here] at plain
      rw [List.length_cons, List.map_cons]
      by_cases blocked : s.reserved buf.length = 0
      · refine .inl ?_
        rw [fillLoop_blocked entry blocked] at plain ⊢
        exact plain
      by_cases whole : s.reserved buf.length = buf.length
      · have nonempty : buf.length ≠ 0 := by
          rw [whole] at blocked
          omega
        have fits : (buf.length : Int) ≤ space ∧ (buf.length : Int) ≤ maxSegmentSize := by
          rw [reserved, offset] at whole
          omega
        have length : (buf :: bufs).flatten.length = buf.length + bufs.flatten.length := by
          rw [List.flatten_cons, List.length_append]
        have reach' : s.rightEdge =
            seqInc (seqInc s.transmitPosition buf.length) (space - buf.length) := by
          rw [reach, seqInc_seqInc]
          congr 1
          omega
        have counted' : (s.pushData now buf.length buf).bufferedAmount = bufs.flatten.length := by
          change s.bufferedAmount - buf.length = _
          rw [counted, length]
          omega
        rw [fillLoop_whole entry nonempty whole, fillQueue_whole now _ nonempty whole]
        by_cases drained : (s.pushData now buf.length buf).bufferedAmount = 0
        · -- The last byte has been pushed, so what follows are empty arrays.
          have nothing : bufs.flatten = [] := by
            rw [drained] at counted'
            exact List.length_eq_zero_iff.mp (by omega)
          have empty : ∀ other ∈ bufs, other = [] := List.flatten_eq_nil_iff.mp nothing
          have left : 0 ≤ seqOffset s.rightEdge (seqInc s.transmitPosition buf.length) := by
            rw [seqOffset_eq reach' (by omega) (by omega)]
            omega
          rw [if_pos drained, fillQueue_of_empties now empty left]
          have total : (buf :: bufs).flatten.length = buf.length := by
            rw [length, nothing]
            rfl
          refine .inr ⟨[buf], bufs, rfl, ⟨List.cons_ne_nil _ _, ?_, empty, ?_, rfl, ?_, ?_⟩, ?_⟩
          · intro other member
            rw [List.mem_singleton.mp member]
            exact ⟨fun nil => nonempty (by rw [nil]; rfl), fits.2⟩
          · change ((buf :: bufs).flatten.length : Int) ≤ space
            omega
          · change _ = ((buf :: bufs).flatten.length : Int)
            rw [total]
            exact Int.add_zero _
          · change _ = seqInc s.transmitPosition (buf :: bufs).flatten.length
            rw [total]
          · have pushed := loopDone_pushData now s buf.length buf
              ⟨[], bufs.map some, seqInc s.transmitPosition buf.length, 0⟩
            have same : (s.pushData now buf.length buf).loopDone
                ⟨[], bufs.map some, seqInc s.transmitPosition buf.length, 0⟩ =
                s.pushData now buf.length buf := by
              simp [loopDone, pushData]
            rw [← pushed, same]
            rfl
        · rw [if_neg drained]
          have rest := @ih (i + 1) (s.pushData now buf.length buf) (space - buf.length) later counted'
            (fun _ => by omega) reach' (by omega)
          rcases rest with rest | ⟨full, empties, rfl, takes, loop⟩
          · refine .inl (rest.trans ?_)
            exact afterFill_pushData now s buf.length buf _
          · have fit := takes.fits
            refine .inr ⟨buf :: full, empties, rfl,
              ⟨List.cons_ne_nil _ _, ?_, takes.empty, ?_, takes.rest, ?_, ?_⟩, ?_⟩
            · intro other member
              rcases List.mem_cons.mp member with rfl | member
              · exact ⟨fun nil => nonempty (by rw [nil]; rfl), fits.2⟩
              · exact takes.whole other member
            · change ((buf :: (full ++ empties)).flatten.length : Int) ≤ space
              omega
            · change _ = ((buf :: (full ++ empties)).flatten.length : Int)
              rw [length, Int.natCast_add, ← takes.reserved]
              rfl
            · change _ = seqInc s.transmitPosition (buf :: (full ++ empties)).flatten.length
              rw [length, Int.natCast_add, ← seqInc_seqInc]
              exact takes.reaches
            · rw [loop, loopDone_pushData]
              have index : i + 1 + full.length = i + (buf :: full).length := by
                rw [List.length_cons]
                omega
              rw [index]
              rfl
      · refine .inl ?_
        rw [fillLoop_part entry blocked whole] at plain ⊢
        exact plain

/-! ## Inside and afterwards -/

section Safe

variable {now : Nat} {bufs : List Bytes} {s t : TCPSocket}

theorem outbound_eq (outstanding : t.outstanding = s.outstanding) (queueTx : t.queueTx = s.queueTx) :
    t.outbound = s.outbound := by
  have bytes (u : TCPSocket) : itemBytes u.transmitQueue = itemBytes u.outstanding := by
    unfold itemBytes TCPSocket.outstanding
    rw [List.flatMap_map]
    rfl
  unfold outbound
  rw [bytes t, bytes s, outstanding, queueTx]

theorem none_notMem_map (bufs : List Bytes) : none ∉ bufs.map some := by simp

/-- The right edge lies the space left ahead of the position. -/
theorem rightEdge_eq (s : TCPSocket) : s.rightEdge = seqInc s.transmitPosition s.spaceLeft := by
  rw [spaceLeft, seqOffset, seqInc, BitVec.ofInt_toInt]
  ring

theorem spaceLeft_lt (s : TCPSocket) : s.spaceLeft < 2147483648 :=
  (s.rightEdge - s.transmitPosition).toInt_lt

/-- What a fill takes from arrays only. -/
theorem Buffered.filled (buffered : Buffered bufs s) (now : Nat) (room : bufs ≠ [] → 0 ≤ s.spaceLeft) :
    Filled now s.transmitPosition s.spaceLeft s.queueTx (s.fillResult now) := by
  refine fillQueue_filled now (rightEdge_eq s) (spaceLeft_lt s) ?_ ?_
  · rw [buffered.queueTx, ← List.append_nil (bufs.map some)]
    exact EndLast.append (none_notMem_map bufs) trivial
  · rw [buffered.queueTx]
    cases bufs with
    | nil => exact nofun
    | cons buf bufs => exact fun _ => room (List.cons_ne_nil _ _)

theorem Within.afterFill {passes : Nat} (within : Within now passes s)
    (filled : Filled now s.transmitPosition s.spaceLeft s.queueTx (s.fillResult now)) :
    Within now passes (s.afterFill (s.fillResult now)) := by
  intro item member pass earlier
  rcases List.mem_append.mp member with member | member
  · exact within item member pass earlier
  · obtain ⟨fresh, added⟩ := filled.fresh item member
    exact retransmits_of_fresh fresh added pass

/-- Without `ondrain`, the fill followed by sends. -/
theorem fillTransmitQueue_unset (now : Nat) (s : TCPSocket) :
    { s with ondrain := none }.fillTransmitQueue now =
      ({ s with ondrain := none }.afterFill (s.fillResult now)).sendTransmitQueue now :=
  fillTransmitQueue_eq now rfl

/-- A fill that is not interrupted is safe. -/
theorem Buffered.uninterrupted (buffered : Buffered bufs s) (room : bufs ≠ [] → 0 ≤ s.spaceLeft)
    (within : Within now 1 s)
    (inside : s.fillTransmitQueue now = (s.afterFill (s.fillResult now)).sendTransmitQueue now) :
    DrainsSafely now s := by
  have filled := buffered.filled now room
  have frame := TransmitFrame.sendTransmitQueue now (s.afterFill (s.fillResult now))
  obtain ⟨-, queueTx, outstanding, -⟩ := (within.afterFill filled).send
  have within' : Within now 1 ({ s with ondrain := none }.afterFill (s.fillResult now)) :=
    within.afterFill filled
  obtain ⟨-, queueTx', outstanding', -⟩ := within'.send
  have none_drained : s.drained (s.fillTransmitQueue now) = [] := by
    rw [inside, drained, frame.ondrain]
    simp [TCPSocket.afterFill]
  unfold DrainsSafely
  dsimp only
  rw [none_drained, fillTransmitQueue_unset, inside]
  constructor
  · exact outbound_eq (outstanding.trans outstanding'.symm) (queueTx.trans queueTx'.symm)
  · have stream := congrArg List.length filled.stream
    rw [List.length_append] at stream
    rw [frame.bufferedAmount, queueTx]
    change s.bufferedAmount - (s.fillResult now).reserved =
      (queueBytes (s.fillResult now).rest).length
    rw [buffered.bufferedAmount, filled.reserved_eq]
    omega

/-- Sends append their arrays if they can be made and the window is closed. -/
theorem sends_appended {fill : TCPSocket → TCPSocket} {arrays : List Bytes} {passes : Nat}
    (blocks : ∀ s, Blocked s → fill s = s.sendTransmitQueue now)
    (shut : arrays = [] ∨ s.spaceLeft = 0) (writes : none ∉ s.queueTx)
    (within : Within now (arrays.length + passes) s) :
    Appended (if s.canSend then arrays else []) s (arrays.foldl (sendWith fill) s) ∧
      Within now passes (arrays.foldl (sendWith fill) s) := by
  have fewer : Within now passes s := fun item member pass earlier =>
    within item member pass (by omega)
  have unchanged : Appended [] s s := ⟨rfl, rfl, rfl, rfl, by simp, by simp⟩
  by_cases able : s.canSend
  · rw [if_pos able]
    rcases shut with rfl | shut
    · exact ⟨unchanged, fewer⟩
    · exact appended_foldl blocks able shut writes within
  · rw [if_neg able, foldl_of_unable able]
    exact ⟨unchanged, fewer⟩

/-- After the last byte only empty arrays are left, and the loop stops. -/
theorem fillLoop_of_empties (now : Nat) (ondrain : TCPSocket → TCPSocket) {full empties : List Bytes}
    {later : List (Option Bytes)} (empty : ∀ buf ∈ empties, buf = [])
    (queue : t.queueTx = (full ++ empties).map some ++ later) (room : 0 ≤ t.spaceLeft) :
    fillLoop now ondrain empties.length full.length full.length t = (full.length, t) := by
  cases empties with
  | nil => rfl
  | cons buf empties =>
      have nothing : buf = [] := empty buf List.mem_cons_self
      subst nothing
      have entry : t.queueTx[full.length]?.join = some [] := by
        rw [queue]
        simp
      refine fillLoop_blocked entry ?_
      unfold reserved maxSegmentSize
      rw [List.length_nil]
      omega

section Interrupted

variable {full empties sends : List Bytes} {later : List (List Bytes)}

/-- The arrays that `ondrain` gets through. -/
def made (s : TCPSocket) (sends : List Bytes) : List Bytes := if s.canSend then sends else []

theorem TakesAll.spaceLeft {u : TCPSocket}
    (takes : TakesAll s.transmitPosition s.spaceLeft full empties (s.fillResult now))
    (edge : u.rightEdge = s.rightEdge)
    (moved : u.transmitPosition = (s.fillResult now).position) :
    u.spaceLeft = s.spaceLeft - (full ++ empties).flatten.length := by
  have small := spaceLeft_lt s
  have fits := takes.fits
  refine seqOffset_eq ?_ (by omega) (by omega)
  rw [edge, moved, takes.reaches, seqInc_seqInc, rightEdge_eq]
  congr 1
  omega

/-- The sends from inside meet a queue that still holds the consumed arrays. -/
theorem inside_interrupted (queue : s.queueTx = (full ++ empties).map some)
    (set : s.ondrain = some (sends :: later))
    (takes : TakesAll s.transmitPosition s.spaceLeft full empties (s.fillResult now))
    (used : sends = [] ∨ s.spaceLeft ≤ (full ++ empties).flatten.length)
    (within : Within now (sends.length + 1) (s.loopDone (s.fillResult now)))
    (loop : s.fillLoop now (callOndrain (fillNested now later.length)) (full ++ empties).length 0 0 =
      fillLoop now (callOndrain (fillNested now later.length)) empties.length full.length full.length
        ((s.loopDone (s.fillResult now)).callOndrain (fillNested now later.length))) :
    let t := s.fillTransmitQueue now
    t.outstanding = (s.loopDone (s.fillResult now)).outstanding ∧
      t.queueTx = (empties ++ s.made sends).map some ∧
      t.bufferedAmount = s.bufferedAmount - (s.fillResult now).reserved +
        (s.made sends).flatten.length ∧
      t.ondrain = some later := by
  intro t
  have fits := takes.fits
  have room : (s.loopDone (s.fillResult now)).spaceLeft =
      s.spaceLeft - (full ++ empties).flatten.length := takes.spaceLeft rfl rfl
  have drains : (s.loopDone (s.fillResult now)).callOndrain (fillNested now later.length) =
      sends.foldl (sendWith (fillNested now later.length))
        { s.loopDone (s.fillResult now) with ondrain := some later } := by
    unfold callOndrain
    rw [show (s.loopDone (s.fillResult now)).ondrain = some (sends :: later) from set]
    rfl
  have appended := @sends_appended now { s.loopDone (s.fillResult now) with ondrain := some later }
    (fillNested now later.length) sends 1 (fun _ => fillNested_of_blocked now later.length)
    (used.imp_right fun used => by
      change (s.loopDone (s.fillResult now)).spaceLeft = 0
      omega)
    (by
      change none ∉ s.queueTx
      rw [queue]
      exact none_notMem_map _) within
  rw [← drains] at appended
  generalize (s.loopDone (s.fillResult now)).callOndrain (fillNested now later.length) = u
    at appended loop
  obtain ⟨appended, left⟩ := appended
  have queue' : u.queueTx = (full ++ empties).map some ++ (s.made sends).map some := by
    rw [appended.queueTx, ← queue]
    rfl
  have stops := fillLoop_of_empties now (callOndrain (fillNested now later.length)) takes.empty
    queue' (by
      rw [appended.spaceLeft]
      change 0 ≤ (s.loopDone (s.fillResult now)).spaceLeft
      omega)
  have result : t = { u with queueTx := u.queueTx.drop full.length }.sendTransmitQueue now := by
    change s.fillTransmitQueue now = _
    rw [fillTransmitQueue, set]
    change s.fillBody now (callOndrain (fillNested now later.length)) = _
    unfold fillBody
    rw [queue, List.length_map, loop, stops]
  have shifted : Within now 1 { u with queueTx := u.queueTx.drop full.length } := left
  have frame := TransmitFrame.sendTransmitQueue now { u with queueTx := u.queueTx.drop full.length }
  obtain ⟨-, queueTx, outstanding, -⟩ := shifted.send
  rw [← result] at frame queueTx outstanding
  refine ⟨outstanding.trans appended.outstanding, queueTx.trans ?_,
    frame.bufferedAmount.trans appended.bufferedAmount, frame.ondrain.trans appended.ondrain⟩
  change u.queueTx.drop full.length = _
  rw [queue', List.map_append, List.append_assoc, List.drop_append_of_le_length (by simp)]
  simp

/-- The same sends afterwards. -/
theorem afterwards_interrupted
    (takes : TakesAll s.transmitPosition s.spaceLeft full empties (s.fillResult now))
    (used : sends = [] ∨ s.spaceLeft ≤ (full ++ empties).flatten.length)
    (within : Within now (sends.length + 1) (s.loopDone (s.fillResult now))) :
    let t := sendAll now sends ({ s with ondrain := none }.fillTransmitQueue now)
    t.outstanding = (s.loopDone (s.fillResult now)).outstanding ∧
      t.queueTx = (empties ++ s.made sends).map some := by
  intro t
  have fits := takes.fits
  have filled : Within now (sends.length + 1)
      ({ s with ondrain := none }.afterFill (s.fillResult now)) := within
  have frame := TransmitFrame.sendTransmitQueue now
    ({ s with ondrain := none }.afterFill (s.fillResult now))
  obtain ⟨state, queueTx, outstanding, left⟩ := filled.send
  rw [← fillTransmitQueue_unset] at frame state queueTx outstanding left
  have result : t = sends.foldl (sendWith (fillTransmitQueue now))
      ({ s with ondrain := none }.fillTransmitQueue now) := sendAll_eq now sends _
  generalize { s with ondrain := none }.fillTransmitQueue now = u
    at frame state queueTx outstanding left result
  have able : u.canSend = s.canSend := by
    unfold canSend
    rw [state]
    rfl
  have rest : u.queueTx = empties.map some := queueTx.trans takes.rest
  obtain ⟨appended, -⟩ := @sends_appended now u (fillTransmitQueue now) sends 0
    (fun _ blocked => fillNested_of_blocked now _ blocked)
    (used.imp_right fun used => by
      have space : u.spaceLeft = s.spaceLeft - (full ++ empties).flatten.length := by
        refine takes.spaceLeft ?_ frame.transmitPosition
        unfold rightEdge
        rw [frame.transmitWindowEdge, frame.transmitWindowSize]
        rfl
      omega)
    (by
      rw [rest]
      exact none_notMem_map _) left
  rw [← result, able] at appended
  refine ⟨appended.outstanding.trans outstanding, ?_⟩
  rw [appended.queueTx, rest, List.map_append]
  rfl

end Interrupted

/-- A fill interrupted by `ondrain` with the window used up is safe. -/
theorem Buffered.interrupted {full empties sends : List Bytes} {later : List (List Bytes)}
    (buffered : Buffered (full ++ empties) s) (set : s.ondrain = some (sends :: later))
    (room : full ++ empties ≠ [] → 0 ≤ s.spaceLeft) (within : Within now (sends.length + 1) s)
    (takes : TakesAll s.transmitPosition s.spaceLeft full empties (s.fillResult now))
    (used : sends = [] ∨ s.spaceLeft ≤ (full ++ empties).flatten.length)
    (loop : s.fillLoop now (callOndrain (fillNested now later.length)) (full ++ empties).length 0 0 =
      fillLoop now (callOndrain (fillNested now later.length)) empties.length full.length full.length
        ((s.loopDone (s.fillResult now)).callOndrain (fillNested now later.length))) :
    DrainsSafely now s := by
  have pushed : Within now (sends.length + 1) (s.loopDone (s.fillResult now)) :=
    within.afterFill (buffered.filled now room)
  obtain ⟨outstanding, queueTx, bufferedAmount, ondrain⟩ :=
    inside_interrupted buffered.queueTx set takes used pushed loop
  obtain ⟨outstanding', queueTx'⟩ := afterwards_interrupted takes used pushed
  have all_drained : s.drained (s.fillTransmitQueue now) = sends := by
    rw [drained, ondrain, set]
    simp
  have nothing : empties.flatten = [] := List.flatten_eq_nil_iff.mpr takes.empty
  unfold DrainsSafely
  dsimp only
  rw [all_drained]
  constructor
  · exact outbound_eq (outstanding.trans outstanding'.symm) (queueTx.trans queueTx'.symm)
  · rw [bufferedAmount, queueTx, flatten_eq_queueBytes, List.flatten_append, nothing,
      List.nil_append, buffered.bufferedAmount, buffered.queueTx, flatten_eq_queueBytes,
      takes.reserved]
    omega

end Safe

/-- A client after the handshake that will send one more byte when drained. -/
def draining (windowSize : BitVec 16) : TCPSocket :=
  { dialled with ondrain := some [[[2]]] }.step
    ⟨direct 0, .receive (.ofData (flagSYN ||| flagACK) 4999 20000 windowSize [])⟩

end TCPSocket

end JsOS.Net.Tcp
