import JsOS.Net.Arp
import JsOS.Net.Checksum

/-! # Packets to send

`ip4-header`, `udp-header`, `tcp-header` and `icmp-header` write the headers of a packet into
a fresh array, which `udpTransmit`, `tcpTransmit` and `icmpTransmit` hand to `sendIP4` with
the data. Each layer of headers is filled from front to back; its checksum is written over
the zero that stands there while it is computed.
-/

namespace JsOS.Net.Transmit

open Arp (Interface ipBytes)
open Checksum (checksum buffer result)
open OnesComplement (words wordSum)
open Tcp (Bytes)
open U8View (uint16BE uint32BE)

/-! ## Headers -/

/-- The size of an Ethernet header. -/
def ethernetLength : Nat := 14

/-- `minHeaderLength` of an IPv4 header. -/
def minHeaderLength : Nat := 20

/-- `headerLength` of UDP. -/
def udpHeaderLength : Nat := 8

/-- `headerLength` of TCP. -/
def tcpHeaderLength : Nat := 20

/-- `headerLength` of ICMP. -/
def icmpHeaderLength : Nat := 8

/-- `PROTOCOL_ICMP`. -/
def PROTOCOL_ICMP : UInt8 := 0x01

/-- `PROTOCOL_TCP`. -/
def PROTOCOL_TCP : UInt8 := 0x06

/-- `PROTOCOL_UDP`. -/
def PROTOCOL_UDP : UInt8 := 0x11

section Headers

variable (view : U8View) (u8 : Bytes) (headerOffset : Nat)

/-- `write` of an IPv4 header; `id` is the number after `++nextId`. -/
def ip4Write (protocolId : UInt8) (srcIP destIP : IP4Address) (packetLength id : Nat) : Bytes :=
  -- version 4, with a header of five words
  let u8 := Buffer.store u8 headerOffset [0x45, 0]
  let u8 := view.setUint16BE u8 (headerOffset + 2) packetLength
  let u8 := view.setUint16BE u8 (headerOffset + 4) id
  let u8 := view.setUint16BE u8 (headerOffset + 6) 0
  let u8 := Buffer.store u8 (headerOffset + 8) [64, protocolId]
  let u8 := view.setUint16BE u8 (headerOffset + 10) 0
  let u8 := Buffer.store u8 (headerOffset + 12) (ipBytes srcIP)
  let u8 := Buffer.store u8 (headerOffset + 16) (ipBytes destIP)
  view.setUint16BE u8 (headerOffset + 10) (checksum u8 headerOffset minHeaderLength 0)

/-- `write` of a UDP header. -/
def udpWrite (srcPort destPort : BitVec 16) (dataLength : Nat) : Bytes :=
  let u8 := view.setUint16BE u8 headerOffset srcPort.toNat
  let u8 := view.setUint16BE u8 (headerOffset + 2) destPort.toNat
  let u8 := view.setUint16BE u8 (headerOffset + 4) dataLength
  view.setUint16BE u8 (headerOffset + 6) 0

/-- `write` of a TCP header. -/
def tcpWrite (srcPort destPort : BitVec 16) (seqNumber ackNumber : BitVec 32) (flags : UInt8)
    (windowSize : BitVec 16) : Bytes :=
  let u8 := view.setUint16BE u8 headerOffset srcPort.toNat
  let u8 := view.setUint16BE u8 (headerOffset + 2) destPort.toNat
  let u8 := view.setUint32BE u8 (headerOffset + 4) seqNumber.toNat
  let u8 := view.setUint32BE u8 (headerOffset + 8) ackNumber.toNat
  let u8 := Buffer.store u8 (headerOffset + 12) [0x50, flags]
  let u8 := view.setUint16BE u8 (headerOffset + 14) windowSize.toNat
  let u8 := view.setUint16BE u8 (headerOffset + 16) 0
  view.setUint16BE u8 (headerOffset + 18) 0

/-- `write` of an ICMP header. -/
def icmpWrite (type code : UInt8) (headerValue : BitVec 32) : Bytes :=
  let u8 := Buffer.store u8 headerOffset [type, code]
  view.setUint32BE u8 (headerOffset + 4) headerValue.toNat

end Headers

/-! ## Transmitting -/

/-- A call of `sendIP4` with its arguments. -/
structure Sent where
  viaIP : IP4Address
  u8headers : Bytes
  u8data : Option Bytes
  deriving DecidableEq, Repr

/-- Two parts of an address as one word. -/
def pair (high low : BitVec 8) : Nat := high.toNat <<< 8 ||| low.toNat

/-- The addresses in the sum of a pseudo header. -/
def addressSum (destIP srcIP : IP4Address) : Nat :=
  pair destIP.a destIP.b + pair destIP.c destIP.d + pair srcIP.a srcIP.b + pair srcIP.c srcIP.d

section Transmitting

variable (view : U8View) (nextId : Nat) (intf : Interface) (destIP : IP4Address)
  (viaIP : Option IP4Address)

/-- `udpTransmit`, with `nextId` before and after. -/
def udpTransmit (srcPort destPort : BitVec 16) (u8data : Bytes) : Sent × Nat :=
  let ipOffset := intf.bufferDataOffset + ethernetLength
  let udpOffset := ipOffset + minHeaderLength
  let headerLength := udpOffset + udpHeaderLength
  let u8headers := List.replicate headerLength 0
  let datagramLength := u8data.length + udpHeaderLength
  let srcIP := intf.ipAddr
  let u8headers := ip4Write view u8headers ipOffset PROTOCOL_UDP srcIP destIP
    (minHeaderLength + udpHeaderLength + u8data.length) (nextId + 1)
  let u8headers := udpWrite view u8headers udpOffset srcPort destPort datagramLength
  let sum := addressSum destIP srcIP + datagramLength + PROTOCOL_UDP.toNat + srcPort.toNat +
    destPort.toNat + datagramLength
  let ck := checksum u8data 0 u8data.length sum
  let u8headers := view.setUint16BE u8headers (udpOffset + 6) ck
  (⟨viaIP.getD destIP, u8headers, some u8data⟩, nextId + 1)

/-- `tcpTransmit`, with `nextId` before and after. -/
def tcpTransmit (srcPort destPort : BitVec 16) (seqNumber ackNumber : BitVec 32) (flags : UInt8)
    (windowSize : BitVec 16) (u8data : Option Bytes) : Sent × Nat :=
  let ipOffset := intf.bufferDataOffset + ethernetLength
  let tcpOffset := ipOffset + minHeaderLength
  let headerLength := tcpOffset + tcpHeaderLength
  let u8headers := List.replicate headerLength 0
  let dataLength := (u8data.map List.length).getD 0
  let datagramLength := dataLength + tcpHeaderLength
  let srcIP := intf.ipAddr
  let u8headers := ip4Write view u8headers ipOffset PROTOCOL_TCP srcIP destIP
    (minHeaderLength + tcpHeaderLength + dataLength) (nextId + 1)
  let u8headers := tcpWrite view u8headers tcpOffset srcPort destPort seqNumber ackNumber flags
    windowSize
  let sum := addressSum destIP srcIP + datagramLength + PROTOCOL_TCP.toNat
  let ckHeader := buffer u8headers tcpOffset tcpHeaderLength
  let ckData := (u8data.map fun u8data => buffer u8data 0 u8data.length).getD 0
  let ck := result (ckHeader + ckData + sum)
  let u8headers := view.setUint16BE u8headers (tcpOffset + 16) ck
  (⟨viaIP.getD destIP, u8headers, u8data⟩, nextId + 1)

/-- `icmpTransmit`, with `nextId` before and after. -/
def icmpTransmit (type code : UInt8) (headerValue : BitVec 32) (u8data : Bytes) : Sent × Nat :=
  let ipOffset := intf.bufferDataOffset + ethernetLength
  let icmpOffset := ipOffset + minHeaderLength
  let headerLength := icmpOffset + icmpHeaderLength
  let u8headers := List.replicate headerLength 0
  let srcIP := intf.ipAddr
  let u8headers := ip4Write view u8headers ipOffset PROTOCOL_ICMP srcIP destIP
    (minHeaderLength + icmpHeaderLength + u8data.length) (nextId + 1)
  let u8headers := icmpWrite view u8headers icmpOffset type code headerValue
  let ckHeader := buffer u8headers icmpOffset icmpHeaderLength
  let ckData := buffer u8data 0 u8data.length
  let ck := result (ckHeader + ckData)
  let u8headers := view.setUint16BE u8headers (icmpOffset + 2) ck
  (⟨viaIP.getD destIP, u8headers, some u8data⟩, nextId + 1)

end Transmitting

/-! ## Layout -/

/-- The bytes of an IPv4 header. -/
def ip4Header (packetLength id : Bytes) (protocolId : UInt8) (checksumField : Nat)
    (srcIP destIP : IP4Address) : Bytes :=
  [0x45, 0] ++ packetLength ++ id ++ uint16BE 0 ++ [64, protocolId] ++ uint16BE checksumField ++
    (ipBytes srcIP ++ ipBytes destIP)

/-- The words of an IPv4 header with a checksum of zero. -/
def ip4Sum (packetLength id : Bytes) (protocolId : UInt8) (srcIP destIP : IP4Address) : Nat :=
  wordSum (ip4Header packetLength id protocolId 0 srcIP destIP)

section Layout

variable {view : U8View} (documented : view.BigEndian)

include documented in
/-- **An IPv4 header is written with its checksum.** The length and the identification may
be numbers that have no room in their fields. -/
theorem ip4Write_layout (front : Bytes) (left : Nat) (protocolId : UInt8)
    (srcIP destIP : IP4Address) (packetLength id : Nat) :
    ∃ a b c d, (packetLength < 2 ^ 16 → [a, b] = uint16BE packetLength) ∧
      (id < 2 ^ 16 → [c, d] = uint16BE id) ∧
      ip4Write view (front ++ List.replicate (minHeaderLength + left) 0) front.length protocolId
          srcIP destIP packetLength id =
        front ++ ip4Header [a, b] [c, d] protocolId
          (result (ip4Sum [a, b] [c, d] protocolId srcIP destIP)) srcIP destIP ++
          List.replicate left 0 := by
  obtain ⟨a, b, writesLength, length⟩ := @U8View.BigEndian.setUint16BE_fill_any view documented
    (front ++ [0x45, 0]) (front.length + 2) (18 + left) packetLength (16 + left) (by simp)
    (by omega)
  obtain ⟨c, d, writesId, number⟩ := @U8View.BigEndian.setUint16BE_fill_any view documented
    (front ++ [0x45, 0] ++ [a, b]) (front.length + 4) (16 + left) id (14 + left) (by simp)
    (by omega)
  refine ⟨a, b, c, d, length, number, ?_⟩
  have written : front ++ [0x45, 0] ++ [a, b] ++ [c, d] ++ uint16BE 0 ++ [64, protocolId] ++
      uint16BE 0 ++ ipBytes srcIP ++ ipBytes destIP ++ List.replicate left 0 =
      front ++ ip4Header [a, b] [c, d] protocolId 0 srcIP destIP ++ List.replicate left 0 := by
    simp only [ip4Header, List.append_assoc]
  have summed : checksum (front ++ ip4Header [a, b] [c, d] protocolId 0 srcIP destIP ++
      List.replicate left 0) front.length minHeaderLength 0 =
      result (ip4Sum [a, b] [c, d] protocolId srcIP destIP) := by
    refine (Checksum.checksum_window _ _ _ 0).trans ?_
    rw [Nat.zero_add]
    rfl
  have place : front ++ ip4Header [a, b] [c, d] protocolId 0 srcIP destIP ++
      List.replicate left 0 = front ++ ([0x45, 0] ++ [a, b] ++ [c, d] ++ uint16BE 0 ++
        [64, protocolId]) ++ uint16BE 0 ++ (ipBytes srcIP ++ ipBytes destIP ++
          List.replicate left 0) := by
    simp only [ip4Header, List.append_assoc]
  unfold ip4Write
  dsimp only
  rw [Buffer.store_fill 0 _ (18 + left) (by rfl) (by simp [minHeaderLength]; omega),
    writesLength, writesId, documented.setUint16BE_fill _ (12 + left) (by simp) (by omega)
      (by decide),
    Buffer.store_fill 0 _ (10 + left) (by simp) (by simp; omega),
    documented.setUint16BE_fill _ (8 + left) (by simp) (by omega) (by decide),
    Buffer.store_fill 0 _ (4 + left) (by simp) (by simp; omega),
    Buffer.store_fill 0 _ left (by simp) (by simp), written, summed, place,
    documented.setUint16BE_over _ (by simp) (by simp) (Checksum.result_spec _).1]
  simp only [ip4Header, List.append_assoc]

/-- The bytes of a UDP header. -/
def udpHeader (srcPort destPort : BitVec 16) (dataLength : Bytes) (checksumField : Nat) : Bytes :=
  uint16BE srcPort.toNat ++ uint16BE destPort.toNat ++ dataLength ++ uint16BE checksumField

include documented in
theorem udpWrite_layout (front : Bytes) (srcPort destPort : BitVec 16) (dataLength : Nat) :
    ∃ a b, (dataLength < 2 ^ 16 → [a, b] = uint16BE dataLength) ∧
      udpWrite view (front ++ List.replicate udpHeaderLength 0) front.length srcPort destPort
        dataLength = front ++ udpHeader srcPort destPort [a, b] 0 := by
  obtain ⟨a, b, writesLength, length⟩ := @U8View.BigEndian.setUint16BE_fill_any view documented
    (front ++ uint16BE srcPort.toNat ++ uint16BE destPort.toNat) (front.length + 4) 4 dataLength 2
    (by simp) (by omega)
  refine ⟨a, b, length, ?_⟩
  unfold udpWrite udpHeaderLength
  dsimp only
  rw [documented.setUint16BE_fill _ 6 (by rfl) (by rfl) srcPort.isLt,
    documented.setUint16BE_fill _ 4 (by simp) (by rfl) destPort.isLt, writesLength,
    documented.setUint16BE_fill _ 0 (by simp) (by rfl) (by decide)]
  simp only [udpHeader, List.replicate_zero, List.append_nil, List.append_assoc]

/-- The bytes of a TCP header. -/
def tcpHeader (srcPort destPort : BitVec 16) (seqNumber ackNumber : BitVec 32) (flags : UInt8)
    (windowSize : BitVec 16) (checksumField : Nat) : Bytes :=
  uint16BE srcPort.toNat ++ uint16BE destPort.toNat ++ uint32BE seqNumber.toNat ++
    uint32BE ackNumber.toNat ++ [0x50, flags] ++ uint16BE windowSize.toNat ++
    uint16BE checksumField ++ uint16BE 0

include documented in
theorem tcpWrite_layout (front : Bytes) (srcPort destPort : BitVec 16)
    (seqNumber ackNumber : BitVec 32) (flags : UInt8) (windowSize : BitVec 16) :
    tcpWrite view (front ++ List.replicate tcpHeaderLength 0) front.length srcPort destPort
        seqNumber ackNumber flags windowSize =
      front ++ tcpHeader srcPort destPort seqNumber ackNumber flags windowSize 0 := by
  unfold tcpWrite tcpHeaderLength
  dsimp only
  rw [documented.setUint16BE_fill _ 18 (by rfl) (by rfl) srcPort.isLt,
    documented.setUint16BE_fill _ 16 (by simp) (by rfl) destPort.isLt,
    documented.setUint32BE_fill _ 12 (by simp) (by rfl) seqNumber.isLt,
    documented.setUint32BE_fill _ 8 (by simp) (by rfl) ackNumber.isLt,
    Buffer.store_fill 0 _ 6 (by simp) (by rfl),
    documented.setUint16BE_fill _ 4 (by simp) (by rfl) windowSize.isLt,
    documented.setUint16BE_fill _ 2 (by simp) (by rfl) (by decide),
    documented.setUint16BE_fill _ 0 (by simp) (by rfl) (by decide)]
  simp only [tcpHeader, List.replicate_zero, List.append_nil, List.append_assoc]

/-- The bytes of an ICMP header. -/
def icmpHeader (type code : UInt8) (headerValue : BitVec 32) (checksumField : Nat) : Bytes :=
  [type, code] ++ uint16BE checksumField ++ uint32BE headerValue.toNat

include documented in
theorem icmpWrite_layout (front : Bytes) (type code : UInt8) (headerValue : BitVec 32) :
    icmpWrite view (front ++ List.replicate icmpHeaderLength 0) front.length type code
      headerValue = front ++ icmpHeader type code headerValue 0 := by
  have blank : List.replicate 6 (0 : UInt8) = uint16BE 0 ++ List.replicate 4 0 := rfl
  unfold icmpWrite icmpHeaderLength
  dsimp only
  rw [Buffer.store_fill 0 _ 6 (by rfl) (by rfl), blank, ← List.append_assoc,
    documented.setUint32BE_fill _ 0 (by simp) (by rfl) headerValue.isLt]
  simp only [icmpHeader, List.replicate_zero, List.append_nil, List.append_assoc]

/-- The array before the IPv4 header, which is blank until the packet is sent. -/
def blank (intf : Interface) : Bytes := List.replicate (intf.bufferDataOffset + ethernetLength) 0

theorem length_blank (intf : Interface) :
    (blank intf).length = intf.bufferDataOffset + ethernetLength := List.length_replicate

/-- A fresh array for all headers. -/
theorem fresh_eq (intf : Interface) (transportLength : Nat) :
    List.replicate (intf.bufferDataOffset + ethernetLength + minHeaderLength + transportLength)
      (0 : UInt8) = blank intf ++ List.replicate (minHeaderLength + transportLength) 0 := by
  unfold blank
  rw [List.replicate_append_replicate, Nat.add_assoc _ minHeaderLength]

theorem length_ip4Header (packetLength id : Bytes) (lengthSize : packetLength.length = 2)
    (idSize : id.length = 2) (protocolId : UInt8) (checksumField : Nat)
    (srcIP destIP : IP4Address) :
    (ip4Header packetLength id protocolId checksumField srcIP destIP).length = minHeaderLength := by
  simp [ip4Header, lengthSize, idSize, minHeaderLength]

include documented in
/-- The array after the IPv4 header is written into it. -/
theorem ip4Write_fresh (intf : Interface) (transportLength : Nat) (protocolId : UInt8)
    (destIP : IP4Address) (packetLength id : Nat) :
    ∃ a b c d header, (packetLength < 2 ^ 16 → [a, b] = uint16BE packetLength) ∧
      (id < 2 ^ 16 → [c, d] = uint16BE id) ∧
      header = ip4Header [a, b] [c, d] protocolId
        (result (ip4Sum [a, b] [c, d] protocolId intf.ipAddr destIP)) intf.ipAddr destIP ∧
      ip4Write view (List.replicate (intf.bufferDataOffset + ethernetLength + minHeaderLength +
          transportLength) 0) (intf.bufferDataOffset + ethernetLength) protocolId intf.ipAddr destIP
          packetLength id = blank intf ++ header ++ List.replicate transportLength 0 ∧
      intf.bufferDataOffset + ethernetLength + minHeaderLength =
        (blank intf ++ header).length := by
  obtain ⟨a, b, c, d, length, number, written⟩ := ip4Write_layout documented (blank intf)
    transportLength protocolId intf.ipAddr destIP packetLength id
  refine ⟨a, b, c, d, _, length, number, rfl, ?_, ?_⟩
  · rw [fresh_eq, ← length_blank]
    exact written
  · rw [List.length_append, length_blank, length_ip4Header _ _ rfl rfl]

/-- The sum over which the checksum of a UDP datagram is computed. -/
def udpSum (srcIP destIP : IP4Address) (srcPort destPort : BitVec 16) (u8data : Bytes) : Nat :=
  addressSum destIP srcIP + (u8data.length + udpHeaderLength) + PROTOCOL_UDP.toNat +
    srcPort.toNat + destPort.toNat + (u8data.length + udpHeaderLength) + wordSum u8data

include documented in
/-- **The headers of a UDP datagram.** -/
theorem udpTransmit_layout (nextId : Nat) (intf : Interface) (destIP : IP4Address)
    (viaIP : Option IP4Address) (srcPort destPort : BitVec 16) (u8data : Bytes) :
    ∃ a b c d e f,
      (minHeaderLength + udpHeaderLength + u8data.length < 2 ^ 16 →
        [a, b] = uint16BE (minHeaderLength + udpHeaderLength + u8data.length)) ∧
      (nextId + 1 < 2 ^ 16 → [c, d] = uint16BE (nextId + 1)) ∧
      (u8data.length + udpHeaderLength < 2 ^ 16 →
        [e, f] = uint16BE (u8data.length + udpHeaderLength)) ∧
      (udpTransmit view nextId intf destIP viaIP srcPort destPort u8data).1 =
        ⟨viaIP.getD destIP, blank intf ++ ip4Header [a, b] [c, d] PROTOCOL_UDP
            (result (ip4Sum [a, b] [c, d] PROTOCOL_UDP intf.ipAddr destIP)) intf.ipAddr destIP ++
          udpHeader srcPort destPort [e, f]
            (result (udpSum intf.ipAddr destIP srcPort destPort u8data)), some u8data⟩ := by
  obtain ⟨a, b, c, d, header, length, number, same, ip, offset⟩ := ip4Write_fresh documented intf
    udpHeaderLength PROTOCOL_UDP destIP (minHeaderLength + udpHeaderLength + u8data.length)
    (nextId + 1)
  obtain ⟨e, f, dataLength, udp⟩ := udpWrite_layout documented (blank intf ++ header) srcPort
    destPort (u8data.length + udpHeaderLength)
  refine ⟨a, b, c, d, e, f, length, number, dataLength, ?_⟩
  have place (checksumField : Nat) : blank intf ++ header ++
      udpHeader srcPort destPort [e, f] checksumField = (blank intf ++ header ++
        (uint16BE srcPort.toNat ++ uint16BE destPort.toNat ++ [e, f])) ++
        uint16BE checksumField ++ [] := by
    simp only [udpHeader, List.append_assoc, List.append_nil]
  unfold udpTransmit
  dsimp only
  rw [ip, offset, udp, Checksum.checksum_all, place 0,
    documented.setUint16BE_over _ (by simp; omega) (by simp) (Checksum.result_spec _).1, ← place,
    ← same]
  rfl

/-- The bytes of data that may be missing. -/
def dataBytes (u8data : Option Bytes) : Bytes := u8data.getD []

/-- The sum over which the checksum of a TCP segment is computed. -/
def tcpSum (srcIP destIP : IP4Address) (header : Bytes) (u8data : Option Bytes) : Nat :=
  wordSum header + wordSum (dataBytes u8data) +
    (addressSum destIP srcIP + ((dataBytes u8data).length + tcpHeaderLength) +
      PROTOCOL_TCP.toNat)

include documented in
/-- **The headers of a TCP segment.** -/
theorem tcpTransmit_layout (nextId : Nat) (intf : Interface) (destIP : IP4Address)
    (viaIP : Option IP4Address) (srcPort destPort : BitVec 16) (seqNumber ackNumber : BitVec 32)
    (flags : UInt8) (windowSize : BitVec 16) (u8data : Option Bytes) :
    ∃ a b c d,
      (minHeaderLength + tcpHeaderLength + (dataBytes u8data).length < 2 ^ 16 →
        [a, b] = uint16BE (minHeaderLength + tcpHeaderLength + (dataBytes u8data).length)) ∧
      (nextId + 1 < 2 ^ 16 → [c, d] = uint16BE (nextId + 1)) ∧
      (tcpTransmit view nextId intf destIP viaIP srcPort destPort seqNumber ackNumber flags
          windowSize u8data).1 =
        ⟨viaIP.getD destIP, blank intf ++ ip4Header [a, b] [c, d] PROTOCOL_TCP
            (result (ip4Sum [a, b] [c, d] PROTOCOL_TCP intf.ipAddr destIP)) intf.ipAddr destIP ++
          tcpHeader srcPort destPort seqNumber ackNumber flags windowSize
            (result (tcpSum intf.ipAddr destIP (tcpHeader srcPort destPort seqNumber ackNumber flags
              windowSize 0) u8data)), u8data⟩ := by
  have dataLength : (u8data.map List.length).getD 0 = (dataBytes u8data).length := by
    cases u8data with
    | none => rfl
    | some u8data => rfl
  have dataSum : (u8data.map fun u8data => buffer u8data 0 u8data.length).getD 0 =
      wordSum (dataBytes u8data) := by
    cases u8data with
    | none => rfl
    | some u8data => exact Checksum.buffer_all u8data
  obtain ⟨a, b, c, d, header, length, number, same, ip, offset⟩ := ip4Write_fresh documented intf
    tcpHeaderLength PROTOCOL_TCP destIP
    (minHeaderLength + tcpHeaderLength + (dataBytes u8data).length) (nextId + 1)
  refine ⟨a, b, c, d, length, number, ?_⟩
  have headerSum : buffer (blank intf ++ header ++ tcpHeader srcPort destPort seqNumber ackNumber
      flags windowSize 0) (blank intf ++ header).length tcpHeaderLength =
      wordSum (tcpHeader srcPort destPort seqNumber ackNumber flags windowSize 0) := by
    have window := Checksum.buffer_window (blank intf ++ header)
      (tcpHeader srcPort destPort seqNumber ackNumber flags windowSize 0) []
    rwa [List.append_nil] at window
  have place (checksumField : Nat) : blank intf ++ header ++
      tcpHeader srcPort destPort seqNumber ackNumber flags windowSize checksumField =
        (blank intf ++ header ++ (uint16BE srcPort.toNat ++ uint16BE destPort.toNat ++
          uint32BE seqNumber.toNat ++ uint32BE ackNumber.toNat ++ [0x50, flags] ++
          uint16BE windowSize.toNat)) ++ uint16BE checksumField ++ uint16BE 0 := by
    simp only [tcpHeader, List.append_assoc]
  unfold tcpTransmit
  dsimp only
  rw [dataLength, dataSum, ip, offset, tcpWrite_layout documented, headerSum, place 0,
    documented.setUint16BE_over _ (by simp; omega) (by simp) (Checksum.result_spec _).1, ← place,
    ← same]
  rfl

/-- The sum over which the checksum of an ICMP message is computed. -/
def icmpSum (type code : UInt8) (headerValue : BitVec 32) (u8data : Bytes) : Nat :=
  wordSum (icmpHeader type code headerValue 0) + wordSum u8data

include documented in
/-- **The headers of an ICMP message.** -/
theorem icmpTransmit_layout (nextId : Nat) (intf : Interface) (destIP : IP4Address)
    (viaIP : Option IP4Address) (type code : UInt8) (headerValue : BitVec 32) (u8data : Bytes) :
    ∃ a b c d,
      (minHeaderLength + icmpHeaderLength + u8data.length < 2 ^ 16 →
        [a, b] = uint16BE (minHeaderLength + icmpHeaderLength + u8data.length)) ∧
      (nextId + 1 < 2 ^ 16 → [c, d] = uint16BE (nextId + 1)) ∧
      (icmpTransmit view nextId intf destIP viaIP type code headerValue u8data).1 =
        ⟨viaIP.getD destIP, blank intf ++ ip4Header [a, b] [c, d] PROTOCOL_ICMP
            (result (ip4Sum [a, b] [c, d] PROTOCOL_ICMP intf.ipAddr destIP)) intf.ipAddr destIP ++
          icmpHeader type code headerValue (result (icmpSum type code headerValue u8data)),
          some u8data⟩ := by
  obtain ⟨a, b, c, d, header, length, number, same, ip, offset⟩ := ip4Write_fresh documented intf
    icmpHeaderLength PROTOCOL_ICMP destIP (minHeaderLength + icmpHeaderLength + u8data.length)
    (nextId + 1)
  refine ⟨a, b, c, d, length, number, ?_⟩
  have headerSum : buffer (blank intf ++ header ++ icmpHeader type code headerValue 0)
      (blank intf ++ header).length icmpHeaderLength =
      wordSum (icmpHeader type code headerValue 0) := by
    have window := Checksum.buffer_window (blank intf ++ header)
      (icmpHeader type code headerValue 0) []
    rwa [List.append_nil] at window
  have place (checksumField : Nat) : blank intf ++ header ++
      icmpHeader type code headerValue checksumField =
        (blank intf ++ header ++ [type, code]) ++ uint16BE checksumField ++
          uint32BE headerValue.toNat := by
    simp only [icmpHeader, List.append_assoc]
  unfold icmpTransmit
  dsimp only
  rw [ip, offset, icmpWrite_layout documented, Checksum.buffer_all, headerSum, place 0,
    documented.setUint16BE_over _ (by simp; omega) (by simp) (Checksum.result_spec _).1, ← place, ← same]
  rfl

end Layout

end JsOS.Net.Transmit
