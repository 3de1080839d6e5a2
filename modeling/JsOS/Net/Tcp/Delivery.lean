import JsOS.Library.Frontier
import JsOS.Net.Tcp.Reassembly

/-! # Delivery of a stream to `ondata`

Segments of one stream arrive at an established socket in any order, repeated,
overlapping, old or beyond the window. The socket delivers exactly the positions
before the first gap in the segments its window test accepted
(`receiveWindowEdge_eq_frontier`), each byte once and in order
(`delivered_eq_take`).
-/

namespace JsOS.Net.Tcp

open Circular Frontier Transition

namespace Stream

/-- The segment carries the slice of the stream from an offset on, and a FIN only
at the end of the stream. -/
structure Carries (stream : Stream) (offset : Nat) (segment : Segment) : Prop where
  seqNumber : segment.seqNumber = stream.seqAt offset
  dataLength : segment.dataLength = segment.data.length
  fits : offset + segment.data.length ≤ stream.bytes.length
  data : segment.data = stream.slice offset (offset + segment.data.length)
  fin : segment.hasFIN → offset + segment.data.length = stream.bytes.length

instance (stream : Stream) (offset : Nat) (segment : Segment) :
    Decidable (stream.Carries offset segment) :=
  decidable_of_iff (segment.seqNumber = stream.seqAt offset ∧
      segment.dataLength = segment.data.length ∧
      offset + segment.data.length ≤ stream.bytes.length ∧
      segment.data = stream.slice offset (offset + segment.data.length) ∧
      (segment.hasFIN → offset + segment.data.length = stream.bytes.length))
    ⟨fun ⟨seq, len, fits, data, fin⟩ => ⟨seq, len, fits, data, fin⟩,
      fun ⟨seq, len, fits, data, fin⟩ => ⟨seq, len, fits, data, fin⟩⟩

end Stream

/-- A segment with the offset in the stream it carries, and the time it arrives. -/
structure Arrival where
  now : Nat
  offset : Nat
  segment : Segment

/-- The positions of the stream that the data of an arrival covers. -/
def Arrival.positions (arrival : Arrival) : Set ℕ :=
  Set.Ico arrival.offset (arrival.offset + arrival.segment.data.length)

namespace TCPSocket

/-- The item `_receive` inserts for the data of a segment. -/
def dataOf (segment : Segment) : ReceiveItem :=
  ⟨segment.seqNumber, segment.dataLength.toNat, some segment.data⟩

section DataPath

variable {stream : Stream} {received : Set ℕ} {s : TCPSocket} {edge : Nat} {segment : Segment}
  {offset : Nat}

theorem isData_dataOf (carries : stream.Carries offset segment) (nonempty : segment.data ≠ []) :
    stream.IsData offset (dataOf segment) := by
  have len : (dataOf segment).len = segment.data.length := by
    simp [dataOf, carries.dataLength]
  refine ⟨carries.seqNumber, ?_, ?_, ?_⟩
  · rw [len]
    exact List.length_pos_of_ne_nil nonempty
  · rw [len]
    exact carries.fits
  · rw [len]
    exact congrArg some carries.data

/-- A segment passes the window test only if its last byte lies between the edge
and the end of the window. -/
theorem Receiving.of_acceptsData (receiving : Receiving stream received s edge)
    (carries : stream.Carries offset segment) (accepts : s.acceptsData segment) :
    segment.data ≠ [] ∧ edge < offset + segment.data.length ∧
      offset + segment.data.length ≤ edge + s.receiveWindowSize := by
  simp only [acceptsData, Bool.and_eq_true, decide_eq_true_eq] at accepts
  obtain ⟨positive, within⟩ := accepts
  rw [carries.dataLength] at positive within
  have short := stream.short
  have bound := receiving.bound
  have size := receiving.receiveWindowSize
  have fits := carries.fits
  have last : ((segment.data.length : Int) - 1) = ((segment.data.length - 1 : Nat) : Int) := by
    omega
  rw [receiveWindowIsWithin_iff (by omega), receiving.receiveWindowEdge, carries.seqNumber, last,
    Stream.seqInc_seqAt] at within
  refine ⟨List.ne_nil_of_length_pos (by omega), ?_⟩
  by_cases old : offset + (segment.data.length - 1) < edge
  · have round := stream.ahead_seqAt_of_lt old (by omega)
    omega
  · rw [stream.ahead_seqAt_of_le (by omega) (by omega)] at within
    omega

/-- A socket that is open has not been given the byte at its edge. -/
theorem Receiving.edge_notMem (receiving : Receiving stream received s edge)
    (settled : Settled stream s edge) (alive : s.state ≠ .closed)
    (inside : edge < stream.bytes.length) : edge ∉ received := by
  intro member
  rcases receiving.complete alive edge member inside with before | ⟨item, queued, covers⟩
  · exact Nat.lt_irrefl _ before
  · rcases covers with ⟨offset, data, lower, -⟩ | ⟨-, last⟩
    · exact Nat.not_lt.mpr lower (settled item queued offset data)
    · exact Nat.ne_of_lt inside last

/-- Acknowledgements do not move the receive window. -/
theorem acceptsData_acceptACK (now : Nat) (ackNumber : Seq) (windowSize : Nat) (s : TCPSocket)
    (segment : Segment) :
    (s.acceptACK now ackNumber windowSize).acceptsData segment = s.acceptsData segment := by
  have frame := ReceiveFrame.acceptACK now ackNumber windowSize s
  simp only [acceptsData, receiveWindowIsWithin, frame.receiveWindowEdge, frame.receiveWindowSize]

/-- The positions received once the segment has passed the window test or not. -/
def receivedWith (s : TCPSocket) (received : Set ℕ) (offset : Nat) (segment : Segment) : Set ℕ :=
  {position | position ∈ received ∨ (s.acceptsData segment = true ∧
    position ∈ Set.Ico offset (offset + segment.data.length))}

/-- **The data path of `_receive`** takes in the slice a segment carries if the
window test accepts it. -/
theorem Receiving.receiveData (receiving : Receiving stream received s edge)
    (settled : Settled stream s edge) (carries : stream.Carries offset segment) (now : Nat) :
    ∃ reached, edge ≤ reached ∧
      Receiving stream (s.receivedWith received offset segment) (s.receiveData now segment)
        reached ∧
      Settled stream (s.receiveData now segment) reached ∧
      ((s.receiveData now segment).state = s.state ∨
        (s.receiveData now segment).state = .closed) := by
  have frame := ReceiveFrame.acceptACK now segment.ackNumber segment.windowSize.toNat s
  have acknowledged := receiving.frame frame
  simp only [TCPSocket.receiveData, acceptsData_acceptACK]
  by_cases accepts : s.acceptsData segment
  · obtain ⟨nonempty, -, limit⟩ := receiving.of_acceptsData carries accepts
    have data := isData_dataOf carries nonempty
    have len : (dataOf segment).len = segment.data.length := by
      simp [dataOf, carries.dataLength]
    have covers (position : ℕ) (covered : stream.Covers (dataOf segment) position) :
        position ∈ Set.Ico offset (offset + segment.data.length) := by
      rcases covered with ⟨offset', data', lower, upper⟩ | ⟨fin, -⟩
      · rw [data'.offset_eq data, len] at upper
        rw [data'.offset_eq data] at lower
        exact ⟨lower, upper⟩
      · exact (data.not_isFIN fin).elim
    have positive := List.length_pos_of_ne_nil nonempty
    have queued : Queued stream (s.receivedWith received offset segment)
        (edge + (s.acceptACK now segment.ackNumber segment.windowSize.toNat).receiveWindowSize)
        (dataOf segment) :=
      ⟨.inl ⟨offset, data, by rw [frame.receiveWindowSize]; omega⟩,
        fun position covered => .inr ⟨accepts, covers position covered⟩⟩
    obtain ⟨reached, le, -, receives, settles, state⟩ := acknowledged.insertReceiveQueue now
      queued (fun position member => .inl member)
      (by
        rintro position (member | ⟨-, lower, upper⟩)
        · exact .inl member
        · exact .inr (.inl ⟨offset, data, lower, by rw [len]; exact upper⟩))
    rw [if_pos accepts]
    refine ⟨reached, le, receives, settles, ?_⟩
    rcases state with same | closed
    · exact frame.queue.imp (same.trans ·.1) (same.trans ·.1)
    · exact .inr closed
  · have unchanged : s.receivedWith received offset segment = received := by
      ext position
      simp [receivedWith, accepts]
    rw [if_neg accepts, unchanged]
    exact ⟨edge, Nat.le_refl _, acknowledged, settled.frame frame,
      frame.queue.imp And.left And.left⟩

end DataPath

/-! ## Arrivals at an established socket -/

/-- A segment arrives. -/
def arrive (s : TCPSocket) (arrival : Arrival) : TCPSocket :=
  s.receive arrival.now arrival.segment

/-- The arrivals that pass the window test, each at its own time. -/
def accepted : TCPSocket → List Arrival → List Arrival
  | _, [] => []
  | s, arrival :: arrivals =>
      if s.acceptsData arrival.segment then arrival :: accepted (s.arrive arrival) arrivals
      else accepted (s.arrive arrival) arrivals

/-- The positions that the accepted arrivals cover. -/
def acceptedPositions (s : TCPSocket) (arrivals : List Arrival) : Set ℕ :=
  {position | ∃ arrival ∈ s.accepted arrivals, position ∈ arrival.positions}

/-- A socket that expects the first byte of a stream and has received nothing. -/
structure Expects (stream : Stream) (s : TCPSocket) : Prop where
  state : s.state = .established
  receiveWindowEdge : s.receiveWindowEdge = stream.start
  receiveWindowSize : s.receiveWindowSize = 8192
  receiveQueue : s.receiveQueue = []
  ondata : s.ondata = true
  delivered : s.delivered = []

/-- A socket that has received nothing is at the start of the stream. -/
theorem Receiving.initial {stream : Stream} {s : TCPSocket}
    (edge : s.receiveWindowEdge = stream.start) (size : s.receiveWindowSize = 8192)
    (empty : s.receiveQueue = []) (nothing : s.delivered = []) : Receiving stream ∅ s 0 where
  bound := Nat.zero_le _
  receiveWindowEdge := by
    rw [edge, Stream.seqAt]
    simp
  receiveWindowSize := by
    rw [size]
    decide
  delivered := fun _ => by rw [nothing, Stream.slice_self]
  queue := by simp [empty]
  sound := by simp
  complete := by simp

theorem Expects.receiving {stream : Stream} {s : TCPSocket} (expects : Expects stream s) :
    Receiving stream ∅ s 0 :=
  .initial expects.receiveWindowEdge expects.receiveWindowSize expects.receiveQueue
    expects.delivered

theorem Expects.settled {stream : Stream} {s : TCPSocket} (expects : Expects stream s) :
    Settled stream s 0 := by
  simp [Settled, expects.receiveQueue]

/-- What a step of such a run assumes: the segment carries data of the stream and
no FIN, and neither finds nor leaves the connection reset. -/
structure DataArrival (stream : Stream) (s : TCPSocket) (arrival : Arrival) : Prop where
  carries : stream.Carries arrival.offset arrival.segment
  noFIN : arrival.segment.hasFIN = false
  before : s.state = .established
  after : (s.arrive arrival).state = .established

instance (stream : Stream) (s : TCPSocket) (arrival : Arrival) :
    Decidable (DataArrival stream s arrival) :=
  decidable_of_iff (stream.Carries arrival.offset arrival.segment ∧
      arrival.segment.hasFIN = false ∧ s.state = .established ∧
      (s.arrive arrival).state = .established)
    ⟨fun ⟨carries, noFIN, before, after⟩ => ⟨carries, noFIN, before, after⟩,
      fun ⟨carries, noFIN, before, after⟩ => ⟨carries, noFIN, before, after⟩⟩

theorem arrive_eq_receiveData {s : TCPSocket} {arrival : Arrival}
    (established : s.state = .established) (noFIN : arrival.segment.hasFIN = false) :
    s.arrive arrival = s.receiveData arrival.now arrival.segment := by
  simp [arrive, receive, receiveSwitch, established, noFIN]

/-- Along a run of data arrivals the receive side follows the accepted positions. -/
theorem Receiving.run {stream : Stream} {received : Set ℕ} {s : TCPSocket} {edge : Nat}
    (receiving : Receiving stream received s edge) (settled : Settled stream s edge)
    {arrivals : List Arrival} (along : Along arrive (DataArrival stream) s arrivals) :
    ∃ reached, edge ≤ reached ∧
      Receiving stream (received ∪ s.acceptedPositions arrivals)
        (Transition.run arrive s arrivals) reached ∧
      Settled stream (Transition.run arrive s arrivals) reached := by
  induction arrivals generalizing s received edge with
  | nil =>
      refine ⟨edge, Nat.le_refl _, ?_, settled⟩
      have none_accepted : s.acceptedPositions [] = ∅ := by
        ext position
        simp [acceptedPositions, accepted]
      rw [none_accepted, Set.union_empty]
      exact receiving
  | cons arrival arrivals ih =>
      obtain ⟨here, later⟩ := along
      obtain ⟨middle, le, receives, settles, -⟩ :=
        receiving.receiveData settled here.carries arrival.now
      rw [← arrive_eq_receiveData here.before here.noFIN] at receives settles
      obtain ⟨reached, le', receives', settles'⟩ := ih receives settles later
      refine ⟨reached, le.trans le', ?_, settles'⟩
      have union : s.receivedWith received arrival.offset arrival.segment ∪
          (s.arrive arrival).acceptedPositions arrivals =
          received ∪ s.acceptedPositions (arrival :: arrivals) := by
        ext position
        by_cases accepts : s.acceptsData arrival.segment <;>
          simp [acceptedPositions, accepted, receivedWith, accepts, Arrival.positions, or_assoc]
      rw [union] at receives'
      exact receives'

theorem accepted_append (s : TCPSocket) (first second : List Arrival) :
    s.accepted (first ++ second) =
      s.accepted first ++ (Transition.run arrive s first).accepted second := by
  induction first generalizing s with
  | nil => rfl
  | cons arrival arrivals ih =>
      rw [List.cons_append, accepted, accepted, ih (s.arrive arrival), run_cons]
      split <;> rfl

theorem mem_of_mem_accepted {s : TCPSocket} {arrivals : List Arrival} {arrival : Arrival}
    (member : arrival ∈ s.accepted arrivals) : arrival ∈ arrivals := by
  induction arrivals generalizing s with
  | nil => cases member
  | cons head arrivals ih =>
      rw [accepted] at member
      split at member
      · rcases List.mem_cons.mp member with rfl | member
        · exact List.mem_cons_self
        · exact List.mem_cons_of_mem _ (ih member)
      · exact List.mem_cons_of_mem _ (ih member)

section Reassembly

variable {stream : Stream} {s : TCPSocket} {arrivals : List Arrival}

/-- Accepted arrivals carry bytes of the stream only. -/
theorem lt_length_of_mem_acceptedPositions
    (along : Along arrive (DataArrival stream) s arrivals) {position : ℕ}
    (member : position ∈ s.acceptedPositions arrivals) : position < stream.bytes.length := by
  obtain ⟨arrival, accepts, -, upper⟩ := member
  obtain ⟨_, arrives⟩ := along.exists_of_mem (mem_of_mem_accepted accepts)
  have fits := arrives.carries.fits
  omega

theorem acceptedPositions_gap (along : Along arrive (DataArrival stream) s arrivals) :
    (s.acceptedPositions arrivals)ᶜ.Nonempty :=
  ⟨stream.bytes.length, fun member =>
    Nat.lt_irrefl _ (lt_length_of_mem_acceptedPositions along member)⟩

/-- **The edge is the frontier.** After any arrivals the receive edge stands at the
first position no accepted segment covers, and the bytes before it have been
delivered. -/
theorem Expects.receiveWindowEdge_eq_frontier (expects : Expects stream s)
    (along : Along arrive (DataArrival stream) s arrivals) :
    ahead stream.start (Transition.run arrive s arrivals).receiveWindowEdge =
        Frontier.frontier (s.acceptedPositions arrivals) ∧
      (Transition.run arrive s arrivals).delivered =
        stream.bytes.take (Frontier.frontier (s.acceptedPositions arrivals)) ∧
      Frontier.frontier (s.acceptedPositions arrivals) ≤ stream.bytes.length := by
  obtain ⟨edge, -, receives, settles⟩ := expects.receiving.run expects.settled along
  rw [Set.empty_union] at receives
  have set : (Transition.run arrive s arrivals).ondata = true := by
    refine run_invariant (fun t => t.ondata = true) (fun t arrival set arrives => ?_)
      expects.ondata along
    rw [arrive_eq_receiveData arrives.before arrives.noFIN]
    exact (Delivers.receiveData _ _ t).ondata.trans set
  have alive : (Transition.run arrive s arrivals).state ≠ .closed := by
    have established : (Transition.run arrive s arrivals).state = .established :=
      run_invariant (fun t => t.state = .established)
        (fun _ _ _ arrives => arrives.after) expects.state along
    rw [established]
    decide
  have missing : edge ∉ s.acceptedPositions arrivals := by
    intro member
    have inside := lt_length_of_mem_acceptedPositions along member
    exact receives.edge_notMem settles alive inside member
  have reached : Frontier.frontier (s.acceptedPositions arrivals) = edge :=
    frontier_eq receives.sound missing
  have small := receives.bound
  have short := stream.short
  rw [reached, receives.receiveWindowEdge, stream.ahead_start (by omega)]
  refine ⟨rfl, receives.delivered set, ?_⟩
  by_contra beyond
  have last := receives.sound stream.bytes.length (by omega)
  exact Nat.lt_irrefl _ (lt_length_of_mem_acceptedPositions along last)

/-- **Receive reassembly is exact.** After every step of any run of data arrivals,
with `k` the distance of the receive edge from the first sequence number of the
stream: the buffers passed to `ondata` concatenate to the first `k` bytes of the
stream, `k` has not decreased, and no accepted segment contains the byte at `k`. -/
theorem reassembly_exact (expects : Expects stream s)
    (along : Along arrive (DataArrival stream) s arrivals) :
    let edge := fun steps : Nat =>
      ahead stream.start (Transition.run arrive s (arrivals.take steps)).receiveWindowEdge
    ∀ steps,
      (Transition.run arrive s (arrivals.take steps)).delivered =
          stream.bytes.take (edge steps) ∧
        edge steps ≤ stream.bytes.length ∧
        (∀ later, steps ≤ later → edge steps ≤ edge later) ∧
        ∀ arrival ∈ s.accepted (arrivals.take steps), edge steps ∉ arrival.positions := by
  intro edge steps
  have upTo (count : Nat) : Along arrive (DataArrival stream) s (arrivals.take count) := by
    rw [← List.take_append_drop count arrivals, along_append] at along
    exact along.1
  have frontiers (count : Nat) := expects.receiveWindowEdge_eq_frontier (upTo count)
  have edge_eq (count : Nat) :
      edge count = Frontier.frontier (s.acceptedPositions (arrivals.take count)) :=
    (frontiers count).1
  refine ⟨?_, ?_, ?_, ?_⟩
  · rw [edge_eq]
    exact (frontiers steps).2.1
  · rw [edge_eq]
    exact (frontiers steps).2.2
  · intro later le
    rw [edge_eq, edge_eq]
    refine frontier_mono ?_ (acceptedPositions_gap (upTo later))
    rintro position ⟨arrival, member, covered⟩
    refine ⟨arrival, ?_, covered⟩
    have split : arrivals.take later =
        arrivals.take steps ++ (arrivals.take later).drop steps := by
      conv_lhs => rw [← List.take_append_drop steps (arrivals.take later)]
      rw [List.take_take, Nat.min_eq_left le]
    rw [split, accepted_append]
    exact List.mem_append_left _ member
  · intro arrival member covered
    rw [edge_eq] at covered
    exact frontier_notMem (acceptedPositions_gap (upTo steps)) ⟨arrival, member, covered⟩

/-- Six bytes across the wrap of the sequence numbers, the last four first. -/
theorem reassembly_exact_wrapping :
    let stream : Stream := ⟨[1, 2, 3, 4, 5, 6], 0xFFFFFFFE, by decide⟩
    let s : TCPSocket :=
      { state := .established, receiveWindowEdge := 0xFFFFFFFE, ondata := true }
    let arrivals : List Arrival :=
      [⟨0, 2, .ofData flagACK 0 20000 8192 [3, 4, 5, 6]⟩,
        ⟨0, 0, .ofData flagACK 0xFFFFFFFE 20000 8192 [1, 2, 3]⟩]
    Expects stream s ∧ Along arrive (DataArrival stream) s arrivals ∧
      (Transition.run arrive s arrivals).delivered = stream.bytes.take
        (ahead stream.start (Transition.run arrive s arrivals).receiveWindowEdge) := by
  intro stream s arrivals
  have expects : Expects stream s := ⟨rfl, rfl, rfl, rfl, rfl, rfl⟩
  have along : Along arrive (DataArrival stream) s arrivals := by decide
  exact ⟨expects, along, (reassembly_exact expects along 2).1⟩

end Reassembly

end TCPSocket

end JsOS.Net.Tcp
