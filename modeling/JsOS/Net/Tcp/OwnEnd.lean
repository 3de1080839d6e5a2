import JsOS.Net.Tcp.Accounting

/-! # The acknowledgement of the own FIN

FIN_WAIT_1 and LAST_ACK are left when the acknowledgement number equals the transmit
position. That means the end of the data was acknowledged only if it has been
pushed before; while it is still queued behind a closed window or an empty array,
an acknowledgement of the data alone passes the test (`PrematureACK`). Under flow
control this is the only way to leave these states too early (`endAcked_exact`).
-/

namespace JsOS.Net.Tcp

open Circular Transition

/-- The head of `_queueTx` cannot be pushed into an empty transmit queue with this
window. -/
def stuck (windowSize : Nat) : List (Option Bytes) → Bool
  | some buf :: _ => windowSize = 0 || buf = []
  | _ => false

namespace Filled

open TCPSocket

variable {now : Nat} {position : Seq} {space : Int} {queue : List (Option Bytes)} {fill : Fill}

/-- A fill that pushes nothing changes nothing. -/
theorem of_items_nil (filled : Filled now position space queue fill) (nothing : fill.items = []) :
    fill.rest = queue ∧
      (queue = [] ∨ ∃ buf later, queue = some buf :: later ∧ (space = 0 ∨ buf = [])) := by
  cases filled with
  | empty => exact ⟨rfl, .inl rfl⟩
  | blocked _ _ _ stop => exact ⟨rfl, .inr ⟨_, _, rfl, stop⟩⟩
  | ended | whole | part => cases nothing

end Filled

namespace TCPSocket

/-- The acknowledgement equals the transmit position while the end of the data is
still queued, and it does not get the queue moving: it is old, or the fill is stuck. -/
def PrematureACK (s : TCPSocket) (input : Input) : Prop :=
  match input.op with
  | .receive segment =>
      (s.state = .finWait1 ∨ s.state = .lastAck) ∧ segment.ackNumber = s.transmitPosition ∧
        (if s.transmitWindowEdge = segment.ackNumber then s.queueTx ≠ []
          else stuck segment.windowSize.toNat s.queueTx)
  | _ => False

instance (s : TCPSocket) : ∀ input : Input, Decidable (s.PrematureACK input)
  | ⟨_, .receive _⟩ => inferInstanceAs (Decidable (_ ∧ _ ∧ @ite Prop _ _ _ _))
  | ⟨_, .send _⟩ | ⟨_, .halfclose⟩ | ⟨_, .close⟩ | ⟨_, .timerTick⟩ => .isFalse id

/-- At the acknowledgement of the own FIN: it was pushed, everything sent was pushed, the
acknowledgement covers all of it, and both transmit queues are empty. -/
structure EndAcked (iss : Seq) (sent : Bytes) (ackNumber : Seq) (s : TCPSocket) : Prop where
  fin : ∃ item ∈ s.pushed, item.isFIN
  payload : s.payload = sent
  covered : Tiles iss s.pushed ackNumber
  queueTx : s.queueTx = []
  transmitQueue : s.transmitQueue = []

/-- If the step is an acknowledgement that moves FIN_WAIT_1 to FIN_WAIT_2 or LAST_ACK to
CLOSED, it acknowledges the own FIN. -/
def EndsAcked (iss : Seq) (ledger : Ledger) (input : Input) : Prop :=
  ∀ segment, input.op = .receive segment →
    ledger.socket.state = .finWait1 ∨ ledger.socket.state = .lastAck →
    (ledger.socket.acked input.env.now segment).transmitPosition = segment.ackNumber →
    EndAcked iss ledger.sent segment.ackNumber (ledger.socket.acked input.env.now segment)

/-! ## Nothing in flight -/

/-- When everything is acknowledged, `_transmitQueue` is empty. -/
def Idle (s : TCPSocket) : Prop := s.inflight = 0 → s.transmitQueue = []

variable {iss : Seq} {sent : Bytes} {s : TCPSocket}

theorem Idle.filling {op : Op} {t : TCPSocket} (idle : Idle s) (fills : s.filling op = some t) :
    Idle t := by
  have ended (ends : s.ending? = some t) : Idle t := by
    obtain ⟨-, state, -, rfl⟩ := ending?_eq_some ends
    exact idle
  cases op with
  | send u8 =>
      obtain ⟨-, ⟨⟩⟩ := Option.ite_none_right_eq_some.mp fills
      exact idle
  | halfclose => exact ended fills
  | close => exact ended fills
  | receive segment =>
      obtain ⟨-, ⟨⟩⟩ := Option.ite_none_right_eq_some.mp fills
      intro zero
      exact acknowledged_transmitQueue _ (ahead_eq_zero_iff.mp zero).symm
  | timerTick => cases fills

theorem Idle.transmitted (idle : Idle s) (flowing : Flowing iss s) {input : Input}
    (safe : s.FillSafe input) : Idle (s.transmitted input) := by
  cases fills : s.filling input.op with
  | none =>
      obtain ⟨size, after, -⟩ := unfilled_eq s input.op
      rw [TCPSocket.transmitted, fills]
      dsimp only
      rw [after]
      exact idle
  | some t =>
      rw [transmitted_of_filling fills]
      intro zero
      obtain ⟨zero, nothing⟩ := flowing.caught_up input.env.now fills (safe t fills) zero
      change t.transmitQueue ++ _ = []
      rw [nothing, idle.filling fills zero]
      rfl

theorem Idle.frame {t : TCPSocket} (idle : Idle s) (frame : QueueFrame s t) : Idle t := by
  intro zero
  rw [inflight, frame.transmitWindowEdge, frame.transmitPosition] at zero
  exact frame.idle (idle zero)

/-! ## The test of FIN_WAIT_1 and LAST_ACK -/

theorem accepts_of_position {ackNumber : Seq} (current : ackNumber = s.transmitPosition)
    (new : s.transmitWindowEdge ≠ ackNumber) : s.AcceptsACK ackNumber := by
  refine ⟨new, isTransmittedUnacked_iff.mpr ⟨ahead_pos_iff.mpr new.symm, ?_⟩⟩
  rw [current, inflight]

theorem handlesACK_of_ending (state : s.state = .finWait1 ∨ s.state = .lastAck) :
    s.handlesACK := by
  unfold handlesACK
  rcases state with state | state <;> rw [state]

/-- A stuck head is left where it is. -/
theorem fillResult_of_stuck (now : Nat) {t : TCPSocket} (small : t.transmitWindowSize < 65536)
    (zero : t.inflight = 0) (blocks : stuck t.transmitWindowSize t.queueTx) :
    (t.fillResult now).position = t.transmitPosition ∧ (t.fillResult now).rest = t.queueTx := by
  obtain ⟨-, space⟩ := spaceLeft_eq small (by omega)
  unfold stuck at blocks
  split at blocks
  · next buf later split =>
      have zero : min (min t.spaceLeft (buf.length : Int)) maxSegmentSize = 0 := by
        unfold maxSegmentSize
        simp only [Bool.or_eq_true, decide_eq_true_eq] at blocks
        rcases blocks with closed | rfl
        · omega
        · simp only [List.length_nil]
          omega
      rw [fillResult, split, fillQueue]
      unfold spaceLeft at zero
      dsimp only
      rw [if_pos zero]
      exact ⟨rfl, rfl⟩
  · cases blocks

/-- When the test succeeds, everything is acknowledged. -/
theorem transmitted_edge {env : Env} {segment : Segment} (handles : s.handlesACK)
    (position : (s.transmitted ⟨env, .receive segment⟩).transmitPosition = segment.ackNumber) :
    (s.transmitted ⟨env, .receive segment⟩).transmitWindowEdge = segment.ackNumber := by
  by_cases accepts : s.AcceptsACK segment.ackNumber
  · have fills : s.filling (.receive segment) =
        some (s.acknowledged segment.ackNumber segment.windowSize.toNat) :=
      if_pos ⟨handles, accepts⟩
    rw [transmitted, fills]
    rfl
  · have skips : s.filling (.receive segment) = none := if_neg fun both => accepts both.2
    obtain ⟨size, after, -⟩ := unfilled_eq s (.receive segment)
    rw [transmitted, skips] at position ⊢
    dsimp only at position ⊢
    rw [after] at position ⊢
    by_contra new
    exact accepts (accepts_of_position position.symm new)

/-- The test succeeds with data or the end still queued exactly for a premature
acknowledgement. -/
theorem prematureACK_iff (flowing : Flowing iss s) {input : Input} (safe : s.FillSafe input)
    {segment : Segment} (op : input.op = .receive segment)
    (state : s.state = .finWait1 ∨ s.state = .lastAck) :
    s.PrematureACK input ↔ (s.transmitted input).transmitPosition = segment.ackNumber ∧
      (s.transmitted input).queueTx ≠ [] := by
  have handles := handlesACK_of_ending state
  rw [PrematureACK, op]
  dsimp only
  by_cases accepts : s.AcceptsACK segment.ackNumber
  · have fills : s.filling input.op =
        some (s.acknowledged segment.ackNumber segment.windowSize.toNat) := by
      rw [op]
      exact if_pos ⟨handles, accepts⟩
    have fillable := flowing.fillable fills
    have filled := flowing.filled input.env.now fills (safe _ fills)
    have caught := flowing.caught_up input.env.now fills (safe _ fills)
    have size : (s.acknowledged segment.ackNumber segment.windowSize.toNat).transmitWindowSize =
        segment.windowSize.toNat := rfl
    have queue : (s.acknowledged segment.ackNumber segment.windowSize.toNat).queueTx =
        s.queueTx := rfl
    have edge : (s.acknowledged segment.ackNumber segment.windowSize.toNat).transmitWindowEdge =
        segment.ackNumber := rfl
    rw [transmitted_of_filling fills, if_neg accepts.1]
    generalize s.acknowledged segment.ackNumber segment.windowSize.toNat = t
      at fillable filled caught size queue edge ⊢
    constructor
    · rintro ⟨-, current, blocks⟩
      have zero : t.inflight = 0 := by
        rw [inflight, edge, fillable.transmitPosition, current, ahead_self]
      rw [← size, ← queue] at blocks
      obtain ⟨position, rest⟩ := fillResult_of_stuck input.env.now fillable.small zero blocks
      refine ⟨position.trans (fillable.transmitPosition.trans current.symm), ?_⟩
      intro empty
      change (t.fillResult input.env.now).rest = [] at empty
      rw [← rest, empty] at blocks
      cases blocks
    · rintro ⟨position, left⟩
      obtain ⟨zero, nothing⟩ := caught (ahead_eq_zero_iff.mpr (position.trans edge.symm))
      have current : segment.ackNumber = s.transmitPosition := by
        rw [← edge, ← fillable.transmitPosition]
        exact (ahead_eq_zero_iff.mp zero).symm
      refine ⟨state, current, ?_⟩
      obtain ⟨rest, empty | ⟨buf, later, split, stop⟩⟩ := filled.of_items_nil nothing
      · exact absurd (rest.trans empty) left
      · rw [← queue, split, ← size]
        rw [zero] at stop
        simpa [stuck] using stop
  · have skips : s.filling input.op = none := by
      rw [op]
      exact if_neg fun both => accepts both.2
    obtain ⟨size, after, -⟩ := unfilled_eq s input.op
    rw [transmitted, skips]
    dsimp only
    rw [after]
    constructor
    · rintro ⟨-, current, waits⟩
      have old : s.transmitWindowEdge = segment.ackNumber := by
        by_contra new
        exact accepts (accepts_of_position current new)
      rw [if_pos old] at waits
      exact ⟨current.symm, waits⟩
    · rintro ⟨position, left⟩
      have current : segment.ackNumber = s.transmitPosition := position.symm
      have old : s.transmitWindowEdge = segment.ackNumber := by
        by_contra new
        exact accepts (accepts_of_position current new)
      rw [if_pos old]
      exact ⟨state, current, left⟩

/-! ## Whole runs -/

/-- The invariant: the books are kept and nothing acknowledged is in `_transmitQueue`. -/
structure Settling (iss : Seq) (ledger : Ledger) : Prop where
  accounted : Accounted iss ledger.sent ledger.socket
  idle : Idle ledger.socket

theorem Settling.step {ledger : Ledger} (settling : Settling iss ledger) {input : Input}
    (safe : ledger.socket.FillSafe input) : Settling iss (ledger.step input) := by
  have flowing := settling.accounted.flowing
  refine ⟨settling.accounted.step safe, ?_⟩
  exact (settling.idle.transmitted flowing safe).frame
    ((refilled_frame input flowing.unset).queueFrame.trans (step_queueFrame input _))

/-- One step: leaving FIN_WAIT_1 or LAST_ACK acknowledges the own FIN exactly when the
acknowledgement is not premature. -/
theorem Settling.endsAcked_iff {ledger : Ledger} (settling : Settling iss ledger) {input : Input}
    (safe : ledger.socket.FillSafe input) :
    EndsAcked iss ledger input ↔ ¬ ledger.socket.PrematureACK input := by
  obtain ⟨s, sent⟩ := ledger
  obtain ⟨accounted, idle⟩ := settling
  obtain ⟨env, op⟩ := input
  have flowing := accounted.flowing
  dsimp only at accounted idle flowing safe ⊢
  have refills := refilled_frame ⟨env, op⟩ flowing.unset
  -- At the transition the connection is alive, so the refill kept the queues.
  have keeps {segment : Segment} (receives : op = .receive segment)
      (state : s.state = .finWait1 ∨ s.state = .lastAck)
      (position : (s.refilled ⟨env, op⟩).transmitPosition = segment.ackNumber) :
      (s.refilled ⟨env, op⟩).queueTx = (s.transmitted ⟨env, op⟩).queueTx := by
    refine (refills.kept ?_).2.1
    rw [flowing.refilled_alive safe receives position]
    rcases state with state | state <;> simp [state]
  constructor
  · intro ends premature
    cases op with
    | receive segment =>
        have state := premature.1
        obtain ⟨position, left⟩ := (prematureACK_iff flowing safe rfl state).mp premature
        rw [← refills.transmitPosition] at position
        have acked := ends segment rfl state
        rw [acked_eq_refilled] at acked
        exact left ((keeps rfl state position).symm.trans (acked position).queueTx)
    | _ => exact premature
  · intro timely segment receives state position
    obtain rfl : op = .receive segment := receives
    change s.state = .finWait1 ∨ s.state = .lastAck at state
    rw [acked_eq_refilled] at position ⊢
    have queue := keeps rfl state position
    rw [refills.transmitPosition] at position
    have empty : (s.transmitted ⟨env, .receive segment⟩).queueTx = [] := by
      by_contra left
      exact timely ((prematureACK_iff flowing safe rfl state).mpr ⟨position, left⟩)
    have alive : s.state ≠ .closed := by rcases state with state | state <;> simp [state]
    have ending : s.state.ending := by rcases state with state | state <;> rw [state] <;> rfl
    obtain ⟨-, balanced, marked⟩ := accounted.transmitted safe
    have ended : Ended iss (s.transmitted ⟨env, .receive segment⟩) := by
      rcases accounted.ends ending with ended | member
      · exact ended.transmitted (State.ending_not_writable ending) flowing _
      · rcases marked with ⟨-, pending⟩ | ⟨ended, -⟩
        · have left := pending (.inl member)
          rw [empty] at left
          cases left
        · exact ended
    obtain ⟨front, item, pushed, isFIN, -⟩ := ended.pushed
    refine ⟨⟨item, ?_, isFIN⟩, ?_, ?_, queue.trans empty, ?_⟩
    · rw [refills.pushed, pushed]
      simp
    · have stream := (balanced alive).1
      rw [queued, empty] at stream
      rw [payload, refills.pushed]
      simpa [queueBytes, sentBy, payload] using stream
    · have tiles := (flowing.step safe).1.controlled.tiles
      have frame := step_queueFrame ⟨env, .receive segment⟩ s
      rw [frame.pushed, frame.transmitPosition, refills.transmitPosition, position] at tiles
      exact tiles
    · refine (idle.transmitted flowing safe).frame refills.queueFrame ?_
      rw [inflight, refills.transmitWindowEdge, refills.transmitPosition, position,
        transmitted_edge (handlesACK_of_ending state) position, ahead_self]

/-- **The acknowledgement of the own FIN over whole runs.** In every run under flow
control, each move from FIN_WAIT_1 to FIN_WAIT_2 or from LAST_ACK to CLOSED by an
acknowledgement finds the FIN and everything sent pushed and acknowledged, exactly
when no acknowledgement of the run is premature. -/
theorem endAcked_exact {iss : Seq} {s : TCPSocket} (started : Started iss s) (inputs : List Input)
    (safe : Along Ledger.step (fun ledger input => ledger.socket.FillSafe input) ⟨s, []⟩ inputs) :
    Along Ledger.step (EndsAcked iss) ⟨s, []⟩ inputs ↔
      Along Ledger.step (fun ledger input => ¬ ledger.socket.PrematureACK input) ⟨s, []⟩ inputs := by
  have start : Settling iss ⟨s, []⟩ := by
    have start := started.atStart
    refine ⟨start.accounted, fun zero => ?_⟩
    rw [inflight, start.transmitWindowEdge, start.transmitPosition, ahead_succ] at zero
    cases zero
  exact Along.iff_of_invariant (Settling iss)
    (fun ledger input safe settling => settling.endsAcked_iff safe)
    (fun ledger input safe settling _ => settling.step safe) safe start

/-- The window is closed after the handshake, so data and FIN stay queued; the next
acknowledgement of the handshake then moves FIN_WAIT_1 to FIN_WAIT_2. -/
theorem endAcked_early_by_closed_window :
    ¬ ∀ (iss : Seq) (s : TCPSocket), Started iss s → ∀ inputs : List Input,
      Along Ledger.step (EndsAcked iss) ⟨s, []⟩ inputs := by
  intro claim
  have along := claim 19999 dialled dialled_started
    [⟨direct 1, .receive (.ofData (flagSYN ||| flagACK) 700 20000 0 [])⟩,
      ⟨direct 2, .send [1, 2, 3]⟩,
      ⟨direct 3, .close⟩,
      ⟨direct 4, .receive (.ofData flagACK 701 20000 0 [])⟩]
  have acked := along.2.2.2.1 _ rfl (.inl rfl) rfl
  exact absurd acked.queueTx (by decide)

/-- Data and FIN in an open window, both acknowledged at once. -/
theorem endAcked_exact_open_window :
    let inputs : List Input :=
      [⟨direct 1, .receive (.ofData (flagSYN ||| flagACK) 700 20000 9 [])⟩,
        ⟨direct 2, .send [1, 2, 3]⟩,
        ⟨direct 3, .close⟩,
        ⟨direct 4, .receive (.ofData flagACK 701 20004 9 [])⟩]
    Along Ledger.step (fun ledger input => ledger.socket.FillSafe input) ⟨dialled, []⟩ inputs ∧
      (Transition.run step dialled inputs).state = .finWait2 ∧
      Along Ledger.step (EndsAcked 19999) ⟨dialled, []⟩ inputs := by
  intro inputs
  have safe : Along Ledger.step (fun ledger input => ledger.socket.FillSafe input) ⟨dialled, []⟩
      inputs := by decide
  exact ⟨safe, by decide, (endAcked_exact dialled_started inputs safe).mpr (by decide)⟩

end TCPSocket

end JsOS.Net.Tcp
