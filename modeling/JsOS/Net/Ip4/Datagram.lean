import Mathlib
import JsOS.Net.Ip4.Fragments

/-! # Datagrams and their keys

A fragment belongs to the datagram named by its addresses, protocol and identification.
The key of the queue spells three numbers with dashes between them. The first two are
not negative, so the first two dashes end them; the third packs the protocol below the
identification. Different datagrams therefore have different keys.
-/

namespace JsOS.Net.Ip4

/-- What names a datagram. -/
structure Datagram where
  srcIP : IP4Address
  destIP : IP4Address
  protocolId : BitVec 8
  packetId : BitVec 16
  deriving DecidableEq, Repr

/-- The key of a datagram in the map of an interface. -/
def Datagram.hash (datagram : Datagram) : String :=
  fragmentHash datagram.srcIP datagram.destIP datagram.packetId.toNat datagram.protocolId.toNat

/-- The datagram a fragment belongs to. -/
def Arrival.datagram (arrival : Arrival) : Datagram where
  srcIP := arrival.frame.getSrcIP
  destIP := arrival.frame.getDestIP
  protocolId := arrival.frame.getProtocolId
  packetId := arrival.frame.getIdentification

theorem Arrival.hash_datagram (arrival : Arrival) : arrival.datagram.hash = arrival.hash := rfl

theorem dash_not_mem_toDigits (number : Nat) : '-' ∉ Nat.toDigits 10 number := by
  intro member
  have digit := Nat.isDigit_of_mem_toDigits (by decide) (by decide) member
  exact absurd digit (by decide)

/-- A dash ends the number before it. -/
theorem digits_dash_inj {number number' : Nat} {rest rest' : List Char}
    (same : Nat.toDigits 10 number ++ '-' :: rest = Nat.toDigits 10 number' ++ '-' :: rest') :
    number = number' ∧ rest = rest' := by
  have before (n : Nat) (tail : List Char) :
      (Nat.toDigits 10 n ++ '-' :: tail).takeWhile (· ≠ '-') = Nat.toDigits 10 n := by
    rw [List.takeWhile_append_of_pos]
    · simp
    · intro digit member
      have other : digit ≠ '-' := fun isDash => dash_not_mem_toDigits n (isDash ▸ member)
      simpa using other
  have digits : Nat.toDigits 10 number = Nat.toDigits 10 number' := by
    rw [← before number rest, same, before]
  have parsed := congrArg (fun digits => Nat.ofDigitChars 10 digits 0) digits
  simp only [Nat.ofDigitChars_ten_toDigits] at parsed
  rw [digits] at same
  exact ⟨parsed, List.tail_eq_of_cons_eq (List.append_cancel_left same)⟩

/-- The key determines the three numbers it spells. -/
theorem fragmentHash_inj {srcIP destIP srcIP' destIP' : IP4Address}
    {protocolId packetId protocolId' packetId' : Nat} :
    fragmentHash srcIP destIP protocolId packetId =
        fragmentHash srcIP' destIP' protocolId' packetId' ↔
      srcIP = srcIP' ∧ destIP = destIP' ∧
        packetId + shiftLeft16 protocolId = packetId' + shiftLeft16 protocolId' := by
  constructor
  · intro same
    have dash : "-".toList = ['-'] := rfl
    have spelled := congrArg String.toList same
    simp only [fragmentHash, String.toList_append, Nat.toString_eq_repr, Int.toString_eq_repr,
      Nat.toList_repr, List.append_assoc, dash, List.singleton_append] at spelled
    obtain ⟨sameSrc, rest⟩ := digits_dash_inj spelled
    obtain ⟨sameDest, last⟩ := digits_dash_inj rest
    refine ⟨?_, ?_, Int.repr_injective (String.toList_injective last)⟩
    · exact IP4Address.toInteger_injective (BitVec.eq_of_toNat_eq sameSrc)
    · exact IP4Address.toInteger_injective (BitVec.eq_of_toNat_eq sameDest)
  · rintro ⟨rfl, rfl, same⟩
    simp only [fragmentHash, same]

/-- A 16-bit number moved up by 16 bits keeps all its bits; its top bit becomes the sign. -/
theorem shiftLeft16_eq {value : Nat} (small : value < 2 ^ 16) :
    shiftLeft16 value = if value < 2 ^ 15 then (value : ℤ) * 65536 else value * 65536 - 2 ^ 32 := by
  have shifted : (BitVec.ofNat 32 value <<< 16).toNat = value * 65536 := by
    rw [BitVec.toNat_shiftLeft, BitVec.toNat_ofNat, Nat.shiftLeft_eq]
    omega
  rw [shiftLeft16, BitVec.toInt_eq_toNat_cond, shifted]
  split <;> split <;> omega

/-- **Different datagrams have different keys.** The two swapped arguments do no harm: the
protocol takes the low eight bits, and the identification the high sixteen. -/
theorem Datagram.hash_injective : Function.Injective Datagram.hash := by
  intro first second same
  obtain ⟨sameSrc, sameDest, packed⟩ := fragmentHash_inj.mp same
  have protocol := first.protocolId.isLt
  have protocol' := second.protocolId.isLt
  rw [shiftLeft16_eq first.packetId.isLt, shiftLeft16_eq second.packetId.isLt] at packed
  have sameProtocol : first.protocolId = second.protocolId := by
    apply BitVec.eq_of_toNat_eq
    split at packed <;> split at packed <;> omega
  have samePacket : first.packetId = second.packetId := by
    apply BitVec.eq_of_toNat_eq
    split at packed <;> split at packed <;> omega
  cases first
  cases second
  cases sameSrc
  cases sameDest
  cases sameProtocol
  cases samePacket
  rfl

end JsOS.Net.Ip4
