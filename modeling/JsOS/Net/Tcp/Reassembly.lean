import JsOS.Net.Tcp.ReceiveQueue

/-! # Reassembly of a byte stream -/

namespace JsOS.Net.Tcp

open Circular

/-- A byte stream of the peer, shorter than half the sequence space, and the
sequence number of its first byte. The FIN that ends it takes the sequence number
after the last byte. -/
structure Stream where
  bytes : Bytes
  start : Seq
  short : bytes.length < 2147483648

namespace Stream

variable (stream : Stream)

/-- The sequence number of an offset in the stream. -/
def seqAt (offset : Nat) : Seq := stream.start + BitVec.ofNat 32 offset

/-- The bytes of the stream from one offset up to another. -/
def slice (first last : Nat) : Bytes := (stream.bytes.take last).drop first

/-- The item carries a slice of the stream from an offset on. -/
structure IsData (offset : Nat) (item : ReceiveItem) : Prop where
  seq : item.seq = stream.seqAt offset
  nonempty : 0 < item.len
  fits : offset + item.len ≤ stream.bytes.length
  u8 : item.u8 = some (stream.slice offset (offset + item.len))

/-- The item carries the FIN that ends the stream. -/
structure IsFIN (item : ReceiveItem) : Prop where
  seq : item.seq = stream.seqAt stream.bytes.length
  len : item.len = 1
  u8 : item.u8 = none

/-- The item carries the byte at a position of the stream, or the FIN at the
position after the last byte. -/
def Covers (item : ReceiveItem) (position : Nat) : Prop :=
  (∃ offset, stream.IsData offset item ∧ offset ≤ position ∧ position < offset + item.len) ∨
    (stream.IsFIN item ∧ position = stream.bytes.length)

variable {stream}

theorem IsData.not_isFIN {offset : Nat} {item : ReceiveItem} (data : stream.IsData offset item) :
    ¬ stream.IsFIN item := by
  intro fin
  have bytes := data.u8
  rw [fin.u8] at bytes
  cases bytes

theorem seqInc_seqAt (offset count : Nat) :
    seqInc (stream.seqAt offset) count = stream.seqAt (offset + count) := by
  rw [seqInc_natCast, seqAt, seqAt, BitVec.ofNat_add]
  ring

theorem ahead_start (stream : Stream) {offset : Nat} (small : offset < 2 ^ 32) :
    ahead stream.start (stream.seqAt offset) = offset :=
  ahead_add_ofNat stream.start small

/-- An offset at or after another lies ahead of it by their difference. -/
theorem ahead_seqAt_of_le (stream : Stream) {first second : Nat} (le : first ≤ second) (small : second < 2 ^ 32) :
    ahead (stream.seqAt first) (stream.seqAt second) = second - first := by
  have here := stream.ahead_start (show first < 2 ^ 32 by omega)
  have there := stream.ahead_start small
  rw [ahead_of_le stream.start (by omega), here, there]

/-- An earlier offset lies almost a whole circle ahead. -/
theorem ahead_seqAt_of_lt (stream : Stream) {first second : Nat} (lt : second < first) (small : first < 2 ^ 32) :
    ahead (stream.seqAt first) (stream.seqAt second) + (first - second) = 2 ^ 32 := by
  have here := stream.ahead_start small
  have there := stream.ahead_start (show second < 2 ^ 32 by omega)
  have round := ahead_of_lt stream.start (show ahead _ (stream.seqAt second) < ahead _ (stream.seqAt first)
    by omega)
  omega

theorem seqAt_inj (stream : Stream) {first second : Nat} (smallFirst : first < 2 ^ 32)
    (smallSecond : second < 2 ^ 32) :
    stream.seqAt first = stream.seqAt second ↔ first = second := by
  constructor
  · intro same
    rw [← stream.ahead_start smallFirst, same, stream.ahead_start smallSecond]
  · rintro rfl
    rfl

/-- An item carries a slice of the stream at one offset only. -/
theorem IsData.offset_eq {offset offset' : Nat} {item : ReceiveItem}
    (data : stream.IsData offset item) (data' : stream.IsData offset' item) :
    offset = offset' := by
  have short := stream.short
  have fits := data.fits
  have fits' := data'.fits
  rw [← stream.seqAt_inj (by omega) (by omega), ← data.seq, ← data'.seq]

@[simp] theorem slice_self (offset : Nat) : stream.slice offset offset = [] := by
  rw [slice, List.drop_eq_nil_of_le (List.length_take_le _ _)]

/-- Adjacent slices join. -/
theorem slice_append {first second third : Nat} (le : first ≤ second) (le' : second ≤ third) :
    stream.slice first second ++ stream.slice second third = stream.slice first third := by
  unfold slice
  have split : stream.bytes.take third =
      stream.bytes.take second ++ (stream.bytes.take third).drop second := by
    conv_lhs => rw [← List.take_append_drop second (stream.bytes.take third)]
    rw [List.take_take, Nat.min_eq_left le']
  rcases Nat.le_total second stream.bytes.length with inside | outside
  · conv_rhs => rw [split]
    rw [List.drop_append_of_le_length]
    rw [List.length_take, Nat.min_eq_left inside]
    exact le
  · rw [List.take_of_length_le outside, List.take_of_length_le (outside.trans le'),
      List.drop_eq_nil_of_le outside, List.append_nil]

theorem drop_slice (first last count : Nat) :
    (stream.slice first last).drop count = stream.slice (first + count) last := by
  rw [slice, slice, List.drop_drop]

end Stream

namespace TCPSocket

/-- What taking an item does to the stream offset `edge` that has been reached:
it moves to `reached`, and the bytes in between are those of the taken item. -/
structure Takes (stream : Stream) (edge : Nat) (item taken : ReceiveItem) (ack : Seq)
    (reached : Nat) : Prop where
  le : edge ≤ reached
  bound : reached ≤ stream.bytes.length + 1
  ack : ack = stream.seqAt reached
  bytes : taken.u8.getD [] = stream.slice edge reached
  covers : ∀ offset, stream.IsData offset item → offset + item.len ≤ reached
  new : ∀ position, edge ≤ position → position < reached → stream.Covers item position

section TakeItem

variable {s : TCPSocket} {stream : Stream} {edge offset : Nat} {item : ReceiveItem}

/-- A slice of the stream that does not start beyond the window is kept when it
starts after the edge, and otherwise taken with its new bytes. -/
theorem takeItem_data (size : s.receiveWindowSize ≤ 2147483648)
    (bound : edge ≤ stream.bytes.length + 1) (data : stream.IsData offset item)
    (window : offset < edge + s.receiveWindowSize) :
    (edge < offset ∧ s.takeItem (stream.seqAt edge) item = none) ∨
      ∃ taken ack reached, s.takeItem (stream.seqAt edge) item = some (taken, ack) ∧
        Takes stream edge item taken ack reached := by
  have ⟨seq, nonempty, fits, u8⟩ := data
  have short := stream.short
  have positive : item.len ≠ 0 := by omega
  have covers (reached : Nat) (reaches : offset + item.len ≤ reached) (other : Nat)
      (other_isData : stream.IsData other item) : other + item.len ≤ reached := by
    rw [other_isData.offset_eq data]
    exact reaches
  rcases Nat.lt_trichotomy edge offset with after | here | before
  · refine .inl ⟨after, ?_⟩
    have within : s.receiveWindowIsWithin item.seq (stream.seqAt edge) := by
      rw [receiveWindowIsWithin_iff (by omega), seq,
        stream.ahead_seqAt_of_le (Nat.le_of_lt after) (by omega)]
      omega
    have different : stream.seqAt edge ≠ item.seq := by
      rw [seq, Ne, stream.seqAt_inj (by omega) (by omega)]
      omega
    simp only [takeItem, positive, different, within, ↓reduceIte, Bool.not_true,
      Bool.false_eq_true]
  · subst here
    refine .inr ⟨item, stream.seqAt (edge + item.len), edge + item.len, ?_, ?_⟩
    · simp only [takeItem, positive, seq, ↓reduceIte, Stream.seqInc_seqAt]
    · exact ⟨by omega, by omega, rfl, by rw [u8, Option.getD_some], covers _ (Nat.le_refl _),
        fun position lower below => .inl ⟨edge, data, lower, below⟩⟩
  · have outside : ¬ s.receiveWindowIsWithin item.seq (stream.seqAt edge) := by
      have round := stream.ahead_seqAt_of_lt before (by omega)
      rw [receiveWindowIsWithin_iff (by omega), seq]
      omega
    have different : stream.seqAt edge ≠ item.seq := by
      rw [seq, Ne, stream.seqAt_inj (by omega) (by omega)]
      omega
    have diff : (stream.seqAt edge - item.seq).toNat = edge - offset := by
      rw [seq]
      exact stream.ahead_seqAt_of_le (Nat.le_of_lt before) (by omega)
    by_cases overlaps : edge - offset < item.len
    · refine .inr ⟨⟨seqInc item.seq (edge - offset : Nat), item.len - (edge - offset),
        item.u8.map (subarrayFrom · (edge - offset : Nat))⟩,
        seqInc (stream.seqAt edge) (item.len - (edge - offset) : Nat), offset + item.len, ?_, ?_⟩
      · simp only [takeItem, positive, different, outside, ↓reduceIte, diff, overlaps,
          Bool.not_false]
      · refine ⟨by omega, by omega, ?_, ?_, covers _ (Nat.le_refl _),
          fun position lower below => .inl ⟨offset, data, by omega, below⟩⟩
        · rw [Stream.seqInc_seqAt]
          congr 1
          omega
        · rw [u8, Option.map_some, Option.getD_some, subarrayFrom_natCast, Stream.drop_slice]
          congr 1
          omega
    · refine .inr ⟨{ item with u8 := none }, stream.seqAt edge, edge, ?_, ?_⟩
      · simp only [takeItem, positive, different, outside, ↓reduceIte, diff, overlaps,
          Bool.not_false]
      · exact ⟨Nat.le_refl _, bound, rfl, by simp, covers _ (by omega),
          fun position lower below => by omega⟩

/-- The FIN is kept while it lies ahead in the window; otherwise it is taken, and
moves the edge only if it is next. -/
theorem takeItem_FIN (size : s.receiveWindowSize ≤ 2147483648)
    (bound : edge ≤ stream.bytes.length + 1) (fin : stream.IsFIN item) :
    (edge < stream.bytes.length ∧ stream.bytes.length < edge + s.receiveWindowSize ∧
        s.takeItem (stream.seqAt edge) item = none) ∨
      ∃ taken ack reached, s.takeItem (stream.seqAt edge) item = some (taken, ack) ∧
        Takes stream edge item taken ack reached := by
  have ⟨seq, len, u8⟩ := fin
  have short := stream.short
  have covers (reached offset : Nat) (isData : stream.IsData offset item) :
      offset + item.len ≤ reached :=
    (isData.not_isFIN fin).elim
  by_cases next : edge = stream.bytes.length
  · refine .inr ⟨item, seqInc (stream.seqAt edge) (1 : Nat), edge + 1, ?_, ?_⟩
    · simp only [takeItem, len, seq, ← next, ↓reduceIte, Nat.one_ne_zero]
    · refine ⟨by omega, by omega, Stream.seqInc_seqAt edge 1, ?_, covers _,
        fun position lower below => .inr ⟨fin, by omega⟩⟩
      rw [u8, Option.getD_none, next, Stream.slice, List.take_of_length_le (Nat.le_succ _),
        List.drop_length]
  · have different : stream.seqAt edge ≠ item.seq := by
      rw [seq, Ne, stream.seqAt_inj (by omega) (by omega)]
      exact next
    by_cases within : s.receiveWindowIsWithin item.seq (stream.seqAt edge)
    · have near := (receiveWindowIsWithin_iff (by omega)).mp within
      rw [seq] at near
      have later : edge < stream.bytes.length := by
        by_contra passed
        have round := stream.ahead_seqAt_of_lt
          (show stream.bytes.length < edge by omega) (by omega)
        omega
      rw [stream.ahead_seqAt_of_le (Nat.le_of_lt later) (by omega)] at near
      refine .inl ⟨later, by omega, ?_⟩
      simp only [takeItem, len, different, within, ↓reduceIte, Bool.not_true,
        Bool.false_eq_true, Nat.one_ne_zero]
    · have apart : ¬ (stream.seqAt edge - item.seq).toNat < 1 := by
        intro equal
        exact different (ahead_eq_zero_iff.mp (show ahead item.seq (stream.seqAt edge) = 0 by
          unfold ahead
          omega))
      refine .inr ⟨{ item with u8 := none }, stream.seqAt edge, edge, ?_, ?_⟩
      · simp only [takeItem, len, different, within, ↓reduceIte, apart, Bool.not_false,
          Nat.one_ne_zero]
      · exact ⟨Nat.le_refl _, bound, rfl, by simp, covers _,
          fun position lower below => by omega⟩

end TakeItem

/-! ## The receive side follows the stream -/

/-- An item of the reordering queue: a slice of the stream that starts before
`limit`, or the FIN; the positions it carries have been received. -/
def Queued (stream : Stream) (received : Set ℕ) (limit : Nat) (item : ReceiveItem) : Prop :=
  ((∃ offset, stream.IsData offset item ∧ offset < limit) ∨ stream.IsFIN item) ∧
    ∀ position, stream.Covers item position → position ∈ received

theorem Queued.mono {stream : Stream} {received : Set ℕ} {limit limit' : Nat} {item : ReceiveItem}
    (queued : Queued stream received limit item) (le : limit ≤ limit') :
    Queued stream received limit' item := by
  refine ⟨queued.1.imp_left ?_, queued.2⟩
  rintro ⟨offset, data, below⟩
  exact ⟨offset, data, by omega⟩

/-- A queued item that is taken continues the stream. -/
theorem takeItem_queued {s : TCPSocket} {stream : Stream} {received : Set ℕ} {edge : Nat}
    {item taken : ReceiveItem} {ack : Seq} (size : s.receiveWindowSize ≤ 2147483648)
    (bound : edge ≤ stream.bytes.length + 1)
    (queued : Queued stream received (edge + s.receiveWindowSize) item)
    (result : s.takeItem (stream.seqAt edge) item = some (taken, ack)) :
    ∃ reached, Takes stream edge item taken ack reached := by
  rcases queued.1 with ⟨offset, data, limit⟩ | fin
  · rcases takeItem_data size bound data limit with ⟨-, kept⟩ | ⟨_, _, reached, result', takes⟩
    · rw [kept] at result
      cases result
    · rw [result'] at result
      cases result
      exact ⟨reached, takes⟩
  · rcases takeItem_FIN size bound fin with ⟨-, -, kept⟩ | ⟨_, _, reached, result', takes⟩
    · rw [kept] at result
      cases result
    · rw [result'] at result
      cases result
      exact ⟨reached, takes⟩

/-- The receive side of a socket that has been given the positions `received` of a
stream and has reached the position `edge`. The position after the last byte is
that of the FIN. -/
structure Receiving (stream : Stream) (received : Set ℕ) (s : TCPSocket) (edge : Nat) :
    Prop where
  bound : edge ≤ stream.bytes.length + 1
  receiveWindowEdge : s.receiveWindowEdge = stream.seqAt edge
  receiveWindowSize : s.receiveWindowSize ≤ 2147483648
  delivered : s.ondata = true → s.delivered = stream.slice 0 edge
  queue : ∀ item ∈ s.receiveQueue, Queued stream received (edge + s.receiveWindowSize) item
  sound : ∀ position < edge, position ∈ received
  complete : s.state ≠ .closed → ∀ position ∈ received, position < stream.bytes.length →
    position < edge ∨ ∃ item ∈ s.receiveQueue, stream.Covers item position

/-- No slice in the queue can be delivered. -/
def Settled (stream : Stream) (s : TCPSocket) (edge : Nat) : Prop :=
  ∀ item ∈ s.receiveQueue, ∀ offset, stream.IsData offset item → edge < offset

/-- The sending methods keep the receive side in step with the stream. -/
theorem Receiving.frame {stream : Stream} {received : Set ℕ} {s t : TCPSocket} {edge : Nat}
    (receiving : Receiving stream received s edge) (frame : ReceiveFrame s t) :
    Receiving stream received t edge where
  bound := receiving.bound
  receiveWindowEdge := frame.receiveWindowEdge.trans receiving.receiveWindowEdge
  receiveWindowSize := frame.receiveWindowSize ▸ receiving.receiveWindowSize
  delivered := fun set => frame.delivered.trans (receiving.delivered (frame.ondata ▸ set))
  queue := by
    rw [frame.receiveWindowSize]
    rcases frame.queue with ⟨-, kept⟩ | ⟨-, empty⟩
    · rw [kept]
      exact receiving.queue
    · simp [empty]
  sound := receiving.sound
  complete := by
    intro alive
    obtain ⟨state, kept⟩ := frame.kept alive
    rw [kept]
    exact receiving.complete (state ▸ alive)

theorem Settled.frame {stream : Stream} {s t : TCPSocket} {edge : Nat}
    (settled : Settled stream s edge) (frame : ReceiveFrame s t) : Settled stream t edge := by
  rcases frame.queue with ⟨-, kept⟩ | ⟨-, empty⟩
  · intro item member
    exact settled item (kept ▸ member)
  · intro item member
    simp [empty] at member

theorem flatMap_dataEvents (items : List ReceiveItem) :
    (items.flatMap fun item => dataEvents true item.u8).filter Event.isCallback =
        (items.flatMap fun item => dataEvents true item.u8) ∧
      (items.flatMap fun item => dataEvents true item.u8).flatMap Event.payload =
        items.flatMap fun item => item.u8.getD [] := by
  induction items with
  | nil => simp
  | cons item items ih =>
      have head : (dataEvents true item.u8).filter Event.isCallback = dataEvents true item.u8 ∧
          (dataEvents true item.u8).flatMap Event.payload = item.u8.getD [] := by
        cases item.u8 <;> simp [dataEvents, Event.isCallback, Event.payload]
      simp only [List.flatMap_cons, List.filter_append, List.flatMap_append, ih, head, and_self]

/-- Emitting buffers appends their bytes to what is delivered. -/
theorem delivered_append_dataEvents {s : TCPSocket} (set : s.ondata = true)
    (items : List ReceiveItem) :
    ({ s with events := s.events ++ items.flatMap fun item => dataEvents s.ondata item.u8 } :
        TCPSocket).delivered = s.delivered ++ items.flatMap fun item => item.u8.getD [] := by
  obtain ⟨callback, payload⟩ := flatMap_dataEvents items
  simp only [delivered, callbacks, set, List.filter_append, List.flatMap_append, callback, payload]

/-- **`_processReceiveQueue` delivers what it can.** -/
theorem Receiving.processReceiveQueue {stream : Stream} {received : Set ℕ} {s : TCPSocket}
    {edge : Nat} (receiving : Receiving stream received s edge) (now : Nat) :
    ∃ reached, edge ≤ reached ∧
      Receiving stream received (s.processReceiveQueue now) reached ∧
      Settled stream (s.processReceiveQueue now) reached ∧
      ((s.processReceiveQueue now).state = s.state ∨
        (s.processReceiveQueue now).state = .closed) := by
  -- The items that stay are queued slices, the items taken continue the stream,
  -- and a slice of the queue either stays or has been passed.
  obtain ⟨lastAck, active, popped, ⟨reached, le, bound, ack, stay, bytes, passed, sound⟩,
      none_left, -, frame⟩ := processReceiveQueue_rule now (s := s)
    (fun lastAck active popped => ∃ reached, edge ≤ reached ∧
      reached ≤ stream.bytes.length + 1 ∧ lastAck = stream.seqAt reached ∧
      (∀ item ∈ active, Queued stream received (reached + s.receiveWindowSize) item) ∧
      popped.reverse.flatMap (fun item => item.u8.getD []) = stream.slice edge reached ∧
      (∀ item ∈ s.receiveQueue, ∀ offset, stream.IsData offset item →
        offset + item.len ≤ reached ∨ item ∈ active) ∧
      (∀ position < reached, position ∈ received))
    (by
      rintro lastAck active active' popped perm ⟨reached, le, bound, ack, stay, bytes, passed,
        sound⟩
      exact ⟨reached, le, bound, ack, fun item member => stay item (perm.mem_iff.mpr member), bytes,
        fun item member offset data => (passed item member offset data).imp_right perm.mem_iff.mp,
        sound⟩)
    (by
      rintro lastAck item item' ack' active popped ⟨edge', le, bound, rfl, stay, bytes, passed,
        sound⟩ taken
      have queued := stay item List.mem_cons_self
      obtain ⟨reached, takes⟩ := takeItem_queued receiving.receiveWindowSize bound queued taken
      refine ⟨reached, le.trans takes.le, takes.bound, takes.ack, ?_, ?_, ?_, ?_⟩
      · intro other member
        exact (stay other (List.mem_cons_of_mem _ member)).mono (by have := takes.le; omega)
      · rw [List.reverse_cons, List.flatMap_append, bytes, List.flatMap_singleton, takes.bytes,
          Stream.slice_append le takes.le]
      · intro other member offset data
        rcases passed other member offset data with done | stays
        · exact .inl (done.trans takes.le)
        · rcases List.mem_cons.mp stays with rfl | stays
          · exact .inl (takes.covers offset data)
          · exact .inr stays
      · intro position below
        by_cases before : position < edge'
        · exact sound position before
        · exact queued.2 position (takes.new position (by omega) below))
    ⟨edge, Nat.le_refl _, receiving.bound, receiving.receiveWindowEdge, receiving.queue, by simp,
      fun item member _ _ => .inr member, receiving.sound⟩
  refine ⟨reached, le, ?_, ?_, ?_⟩
  · refine Receiving.frame ?_ frame
    refine ⟨bound, ack, receiving.receiveWindowSize, fun (set : s.ondata = true) => ?_,
      stay, sound, ?_⟩
    · refine (delivered_append_dataEvents set popped.reverse).trans ?_
      rw [receiving.delivered set, bytes, Stream.slice_append (Nat.zero_le _) le]
    · intro alive position member inside
      rcases receiving.complete alive position member inside with before | ⟨item, queued, covers⟩
      · exact .inl (by omega)
      · rcases covers with ⟨offset, data, lower, upper⟩ | ⟨-, last⟩
        · rcases passed item queued offset data with done | stays
          · exact .inl (by omega)
          · exact .inr ⟨item, stays, .inl ⟨offset, data, lower, upper⟩⟩
        · omega
  · refine Settled.frame ?_ frame
    intro item member offset data
    have left := none_left item member
    rw [ack] at left
    rcases (stay item member).1 with ⟨offset', data', limit⟩ | fin
    · rcases takeItem_data receiving.receiveWindowSize bound data'
        limit with ⟨after, -⟩ | ⟨_, _, _, taken, -⟩
      · rwa [data.offset_eq data']
      · rw [left] at taken
        cases taken
    · exact (data.not_isFIN fin).elim
  · exact frame.queue.imp And.left And.left

/-- **`_insertReceiveQueue` takes in one more part of the stream**, in order on
the fast path and otherwise through the queue. -/
theorem Receiving.insertReceiveQueue {stream : Stream} {received received' : Set ℕ}
    {s : TCPSocket} {edge : Nat} {item : ReceiveItem}
    (receiving : Receiving stream received s edge) (now : Nat)
    (queued : Queued stream received' (edge + s.receiveWindowSize) item)
    (grows : received ⊆ received')
    (new : ∀ position ∈ received', position ∈ received ∨ stream.Covers item position) :
    ∃ reached, edge ≤ reached ∧ (item.seq = stream.seqAt edge → edge + item.len ≤ reached) ∧
      Receiving stream received' (s.insertReceiveQueue now item) reached ∧
      Settled stream (s.insertReceiveQueue now item) reached ∧
      ((s.insertReceiveQueue now item).state = s.state ∨
        (s.insertReceiveQueue now item).state = .closed) := by
  have older (other : ReceiveItem) (member : other ∈ s.receiveQueue) :
      Queued stream received' (edge + s.receiveWindowSize) other :=
    ⟨(receiving.queue other member).1,
      fun position covers => grows ((receiving.queue other member).2 position covers)⟩
  by_cases inOrder : item.seq = s.receiveWindowEdge
  · -- The fast path takes the item as the loops would.
    have positive : item.len ≠ 0 := by
      rcases queued.1 with ⟨_, data, -⟩ | fin
      · have := data.nonempty
        omega
      · rw [fin.len]
        omega
    have taken : s.takeItem (stream.seqAt edge) item =
        some (item, seqInc (stream.seqAt edge) item.len) := by
      simp only [takeItem, positive, inOrder, receiving.receiveWindowEdge, ↓reduceIte]
    obtain ⟨reached, takes⟩ :=
      takeItem_queued receiving.receiveWindowSize receiving.bound queued taken
    have short := stream.short
    have bound := receiving.bound
    have small : item.len ≤ stream.bytes.length ∨ item.len = 1 := by
      rcases queued.1 with ⟨_, data, -⟩ | fin
      · have := data.fits
        exact .inl (by omega)
      · exact .inr fin.len
    have advanced : reached = edge + item.len := by
      have ack := takes.ack
      rw [Stream.seqInc_seqAt, stream.seqAt_inj (by omega) (by have := takes.bound; omega)] at ack
      exact ack.symm
    have slid : Receiving stream received'
        (((s.emitData item.u8).receiveWindowSlideTo (seqInc item.seq item.len)).requireACK)
        reached := by
      rw [emitData_eq]
      refine ⟨takes.bound, ?_, receiving.receiveWindowSize, fun (set : s.ondata = true) => ?_,
        ?_, ?_, ?_⟩
      · exact (congrArg (seqInc · item.len) (inOrder.trans receiving.receiveWindowEdge)).trans
          takes.ack
      · have emitted := delivered_append_dataEvents set [item]
        rw [List.flatMap_singleton, List.flatMap_singleton, receiving.delivered set, takes.bytes,
          Stream.slice_append (Nat.zero_le _) takes.le] at emitted
        exact emitted
      · intro other member
        exact (older other member).mono (Nat.add_le_add_right takes.le _)
      · intro position below
        by_cases before : position < edge
        · exact grows (receiving.sound position before)
        · exact queued.2 position (takes.new position (by omega) below)
      · intro alive position member inside
        rcases new position member with old | ⟨offset, data, lower, upper⟩ | ⟨-, last⟩
        · exact (receiving.complete alive position old inside).imp_left
            (by have := takes.le; omega)
        · have := takes.covers offset data
          exact .inl (by omega)
        · omega
    have sent := slid.frame (.sendTransmitQueue now _)
    have alive := (ReceiveFrame.sendTransmitQueue now
      (((s.emitData item.u8).receiveWindowSlideTo (seqInc item.seq item.len)).requireACK)).queue
    rw [emitData_eq] at alive
    simp only [TCPSocket.insertReceiveQueue, inOrder, ↓reduceIte]
    rw [← inOrder]
    by_cases empty : (((s.emitData item.u8).receiveWindowSlideTo
        (seqInc item.seq item.len)).requireACK.sendTransmitQueue now).receiveQueue.length = 0
    · rw [if_pos empty]
      refine ⟨reached, takes.le, fun _ => by omega, sent, ?_, ?_⟩
      · intro other member
        rw [List.length_eq_zero_iff.mp empty] at member
        cases member
      · rw [emitData_eq]
        exact alive.imp And.left And.left
    · rw [if_neg empty]
      obtain ⟨final, le, receives, settles, state⟩ := sent.processReceiveQueue now
      refine ⟨final, takes.le.trans le, fun _ => by omega, receives, settles, ?_⟩
      rcases state with same | closed
      · rw [same, emitData_eq]
        exact alive.imp And.left And.left
      · exact .inr closed
  · have appended : Receiving stream received'
        { s with receiveQueue := s.receiveQueue ++ [item] } edge := by
      refine ⟨receiving.bound, receiving.receiveWindowEdge, receiving.receiveWindowSize,
        receiving.delivered, ?_, ?_, ?_⟩
      · intro other member
        rcases List.mem_append.mp member with member | member
        · exact older other member
        · rw [List.mem_singleton.mp member]
          exact queued
      · intro position before
        exact grows (receiving.sound position before)
      · intro alive position member inside
        rcases new position member with old | covers
        · refine (receiving.complete alive position old inside).imp_right ?_
          rintro ⟨other, present, rest⟩
          exact ⟨other, List.mem_append_left _ present, rest⟩
        · exact .inr ⟨item, List.mem_append_right _ (List.mem_singleton_self _), covers⟩
    obtain ⟨reached, le, receives, settles, state⟩ := appended.processReceiveQueue now
    simp only [TCPSocket.insertReceiveQueue, inOrder, ↓reduceIte]
    exact ⟨reached, le, fun next => absurd (next.trans receiving.receiveWindowEdge.symm) inOrder,
      receives, settles, state⟩

end TCPSocket

end JsOS.Net.Tcp
