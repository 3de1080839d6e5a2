import JsOS.Net.Tcp.FlowControl
import JsOS.Net.Tcp.ReceiveQueue

/-! # Windows of sequence numbers

What the receiving and the transmitting half of a socket ask about sequence numbers, for all numbers
and at every alignment with the end of the circle.
-/

namespace JsOS.Net.Tcp.TCPSocket

/-- **The predicates on sequence numbers are exact circular intervals**, wherever the interval lies:
the receive window is the positions less than its size ahead of the edge, what is transmitted and
unacknowledged lies ahead of the acknowledged edge up to the transmit position, and the offset of a
number that was advanced by less than half the circle is the advance. -/
theorem sequenceWindows_exact (s : TCPSocket) :
    (s.receiveWindowSize < 2 ^ 32 → ∀ seq edge : Seq,
        s.receiveWindowIsWithin seq edge ↔ (seq - edge).toNat < s.receiveWindowSize) ∧
      (∀ seq : Seq, s.isTransmittedUnacked seq ↔
        0 < (seq - s.transmitWindowEdge).toNat ∧ (seq - s.transmitWindowEdge).toNat ≤
          (s.transmitPosition - s.transmitWindowEdge).toNat) ∧
      ∀ (a : Seq) (n : Nat), n < 2 ^ 31 → seqOffset (seqInc a n) a = n := by
  refine ⟨fun small seq edge => receiveWindowIsWithin_iff small,
    fun seq => isTransmittedUnacked_iff, fun a n below => ?_⟩
  have signed : (n : Int) < 2147483648 := by exact_mod_cast below
  exact seqOffset_eq rfl (by omega) signed

/-- A window that ends at zero, what is in flight across zero, and an offset across zero. -/
theorem sequenceWindows_exact_acrossZero :
    ((0xffffffff - 0xffffe000 : Seq).toNat < 8192 ∧
      TCPSocket.receiveWindowIsWithin {} 0xffffffff 0xffffe000) ∧
      TCPSocket.isTransmittedUnacked
        { transmitWindowEdge := 0xfffffff0, transmitPosition := 16 } 0 ∧
      seqOffset (seqInc 0xfffffff0 32) 0xfffffff0 = 32 := by
  obtain ⟨within, -, offset⟩ := sequenceWindows_exact {}
  obtain ⟨-, unacked, -⟩ := sequenceWindows_exact
    { transmitWindowEdge := 0xfffffff0, transmitPosition := 16 }
  refine ⟨⟨by decide, (within (by decide) 0xffffffff 0xffffe000).mpr (by decide)⟩,
    (unacked 0).mpr (by decide), offset 0xfffffff0 32 (by decide)⟩

end JsOS.Net.Tcp.TCPSocket
