import JsOS.Net.Transmit

/-! # Checksums that verify

A receiver adds the words of a header, or of a pseudo header and the segment, in
one's-complement arithmetic, and takes the packet if the sum is the word of ones. All packets
that are transmitted verify (`checksums_verify`). A checksum of a UDP datagram may come out
as zero, which is sent as it is (`udp_checksum_ne_zero_iff`).
-/

namespace JsOS.Net.Transmit

open Arp (Interface ipBytes)
open Checksum (checksum buffer result)
open OnesComplement (words wordSum)
open Tcp (Bytes)
open U8View (uint16BE uint32BE)

/-! ## Sums with a checksum -/

theorem wordSum_uint16BE {value : Nat} (small : value < 2 ^ 16) :
    wordSum (uint16BE value) = value := by
  unfold uint16BE
  rw [OnesComplement.wordSum_cons_cons, OnesComplement.wordSum_nil, UInt8.toNat_ofNat',
    UInt8.toNat_ofNat']
  omega

/-- **A sum verifies with the folded sum of its parts as the checksum.** -/
theorem sum_verifies {extra : List Nat} (small : ∀ word ∈ extra, word < 2 ^ 16)
    {front back : Bytes} (even : front.length % 2 = 0) {acc : Nat}
    (total : acc = extra.sum + wordSum front + wordSum back) (below : acc < 2 ^ 32) :
    OnesComplement.sum (extra ++ words (front ++ uint16BE (result acc) ++ back)) = 0xffff := by
  obtain ⟨resultLt, residue, positive, -⟩ := Checksum.result_spec acc
  rw [Nat.mod_eq_of_lt below] at residue positive
  have sums : (extra ++ words (front ++ uint16BE (result acc) ++ back)).sum =
      acc + result acc := by
    have bytes : wordSum (front ++ uint16BE (result acc) ++ back) =
        wordSum front + result acc + wordSum back := by
      rw [OnesComplement.wordSum_append _ _ (by simp; omega),
        OnesComplement.wordSum_append _ _ even, wordSum_uint16BE resultLt]
    rw [List.sum_append]
    change extra.sum + wordSum (front ++ uint16BE (result acc) ++ back) = acc + result acc
    omega
  rw [OnesComplement.sum_eq_ones_iff, sums]
  · exact ⟨positive, residue⟩
  · intro word member
    rcases List.mem_append.mp member with inExtra | inBytes
    · exact small word inExtra
    · exact OnesComplement.words_lt _ word inBytes

/-! ## Pseudo headers -/

/-- The pseudo header of a segment of a given length. -/
def pseudoHeader (srcIP destIP : IP4Address) (protocolId : UInt8) (length : Nat) : List Nat :=
  words (ipBytes srcIP ++ ipBytes destIP ++ [0, protocolId] ++ uint16BE length)

theorem pair_eq (high low : BitVec 8) : pair high low = high.toNat * 2 ^ 8 + low.toNat := by
  unfold pair
  rw [← Nat.shiftLeft_add_eq_or_of_lt low.isLt, Nat.shiftLeft_eq]

theorem wordSum_ipBytes (ip : IP4Address) :
    wordSum (ipBytes ip) = pair ip.a ip.b + pair ip.c ip.d := by
  rw [pair_eq, pair_eq]
  unfold ipBytes
  rw [OnesComplement.wordSum_cons_cons, OnesComplement.wordSum_cons_cons,
    OnesComplement.wordSum_nil, Nat.add_zero]
  simp only [UInt8.toNat_ofBitVec]

/-- The pseudo header adds the two addresses, the protocol and the length. -/
theorem sum_pseudoHeader (srcIP destIP : IP4Address) (protocolId : UInt8) {length : Nat}
    (small : length < 2 ^ 16) :
    (pseudoHeader srcIP destIP protocolId length).sum =
      addressSum destIP srcIP + protocolId.toNat + length := by
  have whole : (pseudoHeader srcIP destIP protocolId length).sum = wordSum (ipBytes srcIP ++
      ipBytes destIP ++ [0, protocolId] ++ uint16BE length) := rfl
  have protocolSum : wordSum [0, protocolId] = protocolId.toNat := by
    rw [OnesComplement.wordSum_cons_cons, OnesComplement.wordSum_nil]
    change 0 * 2 ^ 8 + protocolId.toNat + 0 = protocolId.toNat
    omega
  rw [whole, OnesComplement.wordSum_append _ _ (by simp),
    OnesComplement.wordSum_append _ _ (by simp),
    OnesComplement.wordSum_append _ _ (by simp), wordSum_ipBytes, wordSum_ipBytes, protocolSum,
    wordSum_uint16BE small]
  unfold addressSum
  omega

theorem pseudoHeader_lt (srcIP destIP : IP4Address) (protocolId : UInt8) (length : Nat) :
    ∀ word ∈ pseudoHeader srcIP destIP protocolId length, word < 2 ^ 16 :=
  OnesComplement.words_lt _

/-- The bytes of a packet from the IPv4 header on, as they are sent. -/
def packetBytes (intf : Interface) (sent : Sent) : Bytes :=
  sent.u8headers.drop (intf.bufferDataOffset + ethernetLength) ++ dataBytes sent.u8data

/-- The IPv4 header of a packet verifies. -/
def HeaderVerifies (intf : Interface) (sent : Sent) : Prop :=
  OnesComplement.sum (words ((packetBytes intf sent).take minHeaderLength)) = 0xffff

/-- The segment of a packet verifies with its pseudo header. -/
def SegmentVerifies (intf : Interface) (destIP : IP4Address) (protocolId : UInt8) (sent : Sent) :
    Prop :=
  OnesComplement.sum (pseudoHeader intf.ipAddr destIP protocolId
    ((packetBytes intf sent).drop minHeaderLength).length ++
      words ((packetBytes intf sent).drop minHeaderLength)) = 0xffff

/-- The message of a packet verifies, without a pseudo header. -/
def MessageVerifies (intf : Interface) (sent : Sent) : Prop :=
  OnesComplement.sum (words ((packetBytes intf sent).drop minHeaderLength)) = 0xffff

/-- The two parts of a packet. -/
theorem packetBytes_parts (intf : Interface) (header transport : Bytes)
    (viaIP : IP4Address) (u8data : Option Bytes) (size : header.length = minHeaderLength) :
    (packetBytes intf ⟨viaIP, blank intf ++ header ++ transport, u8data⟩).take minHeaderLength =
        header ∧
      (packetBytes intf ⟨viaIP, blank intf ++ header ++ transport, u8data⟩).drop minHeaderLength =
        transport ++ dataBytes u8data := by
  have packet : packetBytes intf ⟨viaIP, blank intf ++ header ++ transport, u8data⟩ =
      header ++ (transport ++ dataBytes u8data) := by
    unfold packetBytes
    dsimp only
    rw [List.append_assoc, List.drop_left' (length_blank intf), List.append_assoc]
  rw [packet]
  exact ⟨List.take_left' size, List.drop_left' size⟩

/-- An IPv4 header verifies with its checksum, whatever stands in its fields. -/
theorem ip4Header_verifies {packetLength id : Bytes} (lengthSize : packetLength.length = 2)
    (idSize : id.length = 2) (protocolId : UInt8) (srcIP destIP : IP4Address) :
    OnesComplement.sum (words (ip4Header packetLength id protocolId
      (result (ip4Sum packetLength id protocolId srcIP destIP)) srcIP destIP)) = 0xffff := by
  have even : ([0x45, 0] ++ packetLength ++ id ++ uint16BE 0 ++ [64, protocolId]).length % 2 =
      0 := by
    simp [lengthSize, idSize]
  have total : ip4Sum packetLength id protocolId srcIP destIP =
      ([] : List Nat).sum +
        wordSum ([0x45, 0] ++ packetLength ++ id ++ uint16BE 0 ++ [64, protocolId]) +
        wordSum (ipBytes srcIP ++ ipBytes destIP) := by
    unfold ip4Sum ip4Header
    rw [OnesComplement.wordSum_append _ _ (by simp [lengthSize, idSize]),
      OnesComplement.wordSum_append _ _ even, wordSum_uint16BE (by decide)]
    rw [List.sum_nil]
    omega
  have below : ip4Sum packetLength id protocolId srcIP destIP < 2 ^ 32 := by
    have bound := OnesComplement.wordSum_le (ip4Header packetLength id protocolId 0 srcIP destIP)
    rw [length_ip4Header _ _ lengthSize idSize] at bound
    exact Nat.lt_of_le_of_lt bound (by decide)
  exact sum_verifies (fun word member => absurd member List.not_mem_nil) even total below

theorem pair_lt (high low : BitVec 8) : pair high low < 2 ^ 16 := by
  have highLt := high.isLt
  have lowLt := low.isLt
  rw [pair_eq]
  omega

theorem addressSum_lt (destIP srcIP : IP4Address) : addressSum destIP srcIP < 2 ^ 18 := by
  have destHigh := pair_lt destIP.a destIP.b
  have destLow := pair_lt destIP.c destIP.d
  have srcHigh := pair_lt srcIP.a srcIP.b
  have srcLow := pair_lt srcIP.c srcIP.d
  unfold addressSum
  omega

theorem sum_pseudoHeader_lt (srcIP destIP : IP4Address) (protocolId : UInt8) {length : Nat}
    (small : length < 2 ^ 16) :
    (pseudoHeader srcIP destIP protocolId length).sum < 2 ^ 20 := by
  have addresses := addressSum_lt destIP srcIP
  have protocolLt : protocolId.toNat < 2 ^ 8 := protocolId.toBitVec.isLt
  rw [sum_pseudoHeader srcIP destIP protocolId small]
  omega

/-- **A segment verifies**, if its checksum is computed from the words of a pseudo header and
of all its bytes and the segment fits a packet. -/
theorem segment_verifies {extra : List Nat} (small : ∀ word ∈ extra, word < 2 ^ 16)
    (extraLt : extra.sum < 2 ^ 20) {front back data : Bytes} (even : front.length % 2 = 0)
    (fits : front.length + (back ++ data).length < 2 ^ 16) {acc : Nat}
    (total : acc = extra.sum + wordSum front + wordSum (back ++ data)) :
    OnesComplement.sum (extra ++ words (front ++ uint16BE (result acc) ++ back ++ data)) =
      0xffff := by
  have frontLe := OnesComplement.wordSum_le front
  have backLe := OnesComplement.wordSum_le (back ++ data)
  rw [List.append_assoc _ back data]
  exact sum_verifies small even total (by omega)

section Packets

variable {view : U8View} (documented : view.BigEndian) (nextId : Nat) (intf : Interface)
  (destIP : IP4Address) (viaIP : Option IP4Address)

include documented in
theorem udpTransmit_verifies (srcPort destPort : BitVec 16) {u8data : Bytes}
    (fits : minHeaderLength + udpHeaderLength + u8data.length < 2 ^ 16) :
    HeaderVerifies intf (udpTransmit view nextId intf destIP viaIP srcPort destPort u8data).1 ∧
      SegmentVerifies intf destIP PROTOCOL_UDP
        (udpTransmit view nextId intf destIP viaIP srcPort destPort u8data).1 := by
  obtain ⟨a, b, c, d, e, f, -, -, dataLength, sent⟩ := udpTransmit_layout documented nextId intf
    destIP viaIP srcPort destPort u8data
  obtain ⟨header, segment⟩ := packetBytes_parts intf (ip4Header [a, b] [c, d] PROTOCOL_UDP
      (result (ip4Sum [a, b] [c, d] PROTOCOL_UDP intf.ipAddr destIP)) intf.ipAddr destIP)
    (udpHeader srcPort destPort [e, f]
      (result (udpSum intf.ipAddr destIP srcPort destPort u8data)))
    (viaIP.getD destIP) (some u8data) (length_ip4Header _ _ rfl rfl _ _ _ _)
  rw [sent]
  unfold HeaderVerifies SegmentVerifies
  rw [header, segment]
  refine ⟨ip4Header_verifies rfl rfl _ _ _, ?_⟩
  have short : u8data.length + udpHeaderLength < 2 ^ 16 := by
    unfold minHeaderLength at fits
    omega
  have length : (udpHeader srcPort destPort [e, f] (result (udpSum intf.ipAddr destIP srcPort
      destPort u8data)) ++ dataBytes (some u8data)).length = u8data.length + udpHeaderLength := by
    rw [List.length_append, Nat.add_comm]
    rfl
  have fields : wordSum (uint16BE srcPort.toNat ++ uint16BE destPort.toNat ++ [e, f]) =
      srcPort.toNat + destPort.toNat + (u8data.length + udpHeaderLength) := by
    rw [OnesComplement.wordSum_append _ _ (by simp), OnesComplement.wordSum_append _ _ (by simp),
      dataLength short, wordSum_uint16BE srcPort.isLt, wordSum_uint16BE destPort.isLt,
      wordSum_uint16BE short]
  have verified := @segment_verifies
    (pseudoHeader intf.ipAddr destIP PROTOCOL_UDP (u8data.length + udpHeaderLength))
    (pseudoHeader_lt _ _ _ _) (sum_pseudoHeader_lt _ _ _ short)
    (uint16BE srcPort.toNat ++ uint16BE destPort.toNat ++ [e, f]) [] u8data (by simp)
    (by simp only [List.length_append, U8View.length_uint16BE, List.length_cons, List.length_nil]
        unfold udpHeaderLength at short
        omega)
    (udpSum intf.ipAddr destIP srcPort destPort u8data) (by
      rw [sum_pseudoHeader _ _ _ short, fields]
      unfold udpSum
      rw [List.nil_append]
      omega)
  rw [length]
  rwa [List.append_nil] at verified

include documented in
theorem tcpTransmit_verifies (srcPort destPort : BitVec 16) (seqNumber ackNumber : BitVec 32)
    (flags : UInt8) (windowSize : BitVec 16) {u8data : Option Bytes}
    (fits : minHeaderLength + tcpHeaderLength + (dataBytes u8data).length < 2 ^ 16) :
    HeaderVerifies intf (tcpTransmit view nextId intf destIP viaIP srcPort destPort seqNumber
        ackNumber flags windowSize u8data).1 ∧
      SegmentVerifies intf destIP PROTOCOL_TCP (tcpTransmit view nextId intf destIP viaIP srcPort
        destPort seqNumber ackNumber flags windowSize u8data).1 := by
  obtain ⟨a, b, c, d, -, -, sent⟩ := tcpTransmit_layout documented nextId intf destIP viaIP srcPort
    destPort seqNumber ackNumber flags windowSize u8data
  rw [sent]
  generalize sum : tcpSum intf.ipAddr destIP (tcpHeader srcPort destPort seqNumber ackNumber flags
    windowSize 0) u8data = acc
  obtain ⟨header, segment⟩ := packetBytes_parts intf (ip4Header [a, b] [c, d] PROTOCOL_TCP
      (result (ip4Sum [a, b] [c, d] PROTOCOL_TCP intf.ipAddr destIP)) intf.ipAddr destIP)
    (tcpHeader srcPort destPort seqNumber ackNumber flags windowSize (result acc))
    (viaIP.getD destIP) u8data (length_ip4Header _ _ rfl rfl _ _ _ _)
  unfold HeaderVerifies SegmentVerifies
  rw [header, segment]
  refine ⟨ip4Header_verifies rfl rfl _ _ _, ?_⟩
  have short : (dataBytes u8data).length + tcpHeaderLength < 2 ^ 16 := by
    unfold minHeaderLength at fits
    omega
  have length : (tcpHeader srcPort destPort seqNumber ackNumber flags windowSize (result acc) ++
      dataBytes u8data).length = (dataBytes u8data).length + tcpHeaderLength := by
    rw [List.length_append, Nat.add_comm]
    rfl
  have zero : wordSum (uint16BE 0) = 0 := wordSum_uint16BE (by decide)
  have verified := @segment_verifies
    (pseudoHeader intf.ipAddr destIP PROTOCOL_TCP ((dataBytes u8data).length + tcpHeaderLength))
    (pseudoHeader_lt _ _ _ _) (sum_pseudoHeader_lt _ _ _ short)
    (uint16BE srcPort.toNat ++ uint16BE destPort.toNat ++ uint32BE seqNumber.toNat ++
      uint32BE ackNumber.toNat ++ [0x50, flags] ++ uint16BE windowSize.toNat) (uint16BE 0)
    (dataBytes u8data) (by simp)
    (by simp only [List.length_append, U8View.length_uint16BE, U8View.length_uint32BE,
          List.length_cons, List.length_nil]
        unfold tcpHeaderLength at short
        omega) acc (by
      rw [sum_pseudoHeader _ _ _ short, ← sum, OnesComplement.wordSum_append (uint16BE 0) _ (by simp),
        zero]
      unfold tcpSum tcpHeader
      rw [OnesComplement.wordSum_append _ (uint16BE 0) (by simp),
        OnesComplement.wordSum_append _ (uint16BE 0) (by simp), zero]
      omega)
  rw [length]
  exact verified

include documented in
theorem icmpTransmit_verifies (type code : UInt8) (headerValue : BitVec 32) {u8data : Bytes}
    (fits : minHeaderLength + icmpHeaderLength + u8data.length < 2 ^ 16) :
    HeaderVerifies intf
        (icmpTransmit view nextId intf destIP viaIP type code headerValue u8data).1 ∧
      MessageVerifies intf
        (icmpTransmit view nextId intf destIP viaIP type code headerValue u8data).1 := by
  obtain ⟨a, b, c, d, -, -, sent⟩ := icmpTransmit_layout documented nextId intf destIP viaIP type
    code headerValue u8data
  rw [sent]
  generalize sum : icmpSum type code headerValue u8data = acc
  obtain ⟨header, message⟩ := packetBytes_parts intf (ip4Header [a, b] [c, d] PROTOCOL_ICMP
      (result (ip4Sum [a, b] [c, d] PROTOCOL_ICMP intf.ipAddr destIP)) intf.ipAddr destIP)
    (icmpHeader type code headerValue (result acc))
    (viaIP.getD destIP) (some u8data) (length_ip4Header _ _ rfl rfl _ _ _ _)
  unfold HeaderVerifies MessageVerifies
  rw [header, message]
  refine ⟨ip4Header_verifies rfl rfl _ _ _, ?_⟩
  have zero : wordSum (uint16BE 0) = 0 := wordSum_uint16BE (by decide)
  exact @segment_verifies [] (fun word member => absurd member List.not_mem_nil) (by decide)
    [type, code] (uint32BE headerValue.toNat) u8data (by simp)
    (by simp only [List.length_append, U8View.length_uint32BE, List.length_cons, List.length_nil]
        unfold minHeaderLength icmpHeaderLength at fits
        omega) acc (by
      rw [← sum, OnesComplement.wordSum_append _ _ (by simp)]
      unfold icmpSum icmpHeader
      rw [OnesComplement.wordSum_append _ (uint32BE _) (by simp),
        OnesComplement.wordSum_append _ (uint16BE 0) (by simp), zero, List.sum_nil]
      omega)

end Packets

/-- **All checksums verify.** The IPv4 header of every packet that is transmitted verifies, and
so do the segments of UDP and TCP with their pseudo headers and the messages of ICMP, for all
contents that fit a packet. A checksum computed in parts is the one of the whole if the
first part has an even length. -/
theorem checksums_verify (view : U8View) (documented : view.BigEndian) (nextId : Nat)
    (intf : Interface) (destIP : IP4Address) (viaIP : Option IP4Address) :
    (∀ (srcPort destPort : BitVec 16) (u8data : Bytes),
      minHeaderLength + udpHeaderLength + u8data.length < 2 ^ 16 →
      HeaderVerifies intf (udpTransmit view nextId intf destIP viaIP srcPort destPort u8data).1 ∧
        SegmentVerifies intf destIP PROTOCOL_UDP
          (udpTransmit view nextId intf destIP viaIP srcPort destPort u8data).1) ∧
    (∀ (srcPort destPort : BitVec 16) (seqNumber ackNumber : BitVec 32) (flags : UInt8)
      (windowSize : BitVec 16) (u8data : Option Bytes),
      minHeaderLength + tcpHeaderLength + (dataBytes u8data).length < 2 ^ 16 →
      HeaderVerifies intf (tcpTransmit view nextId intf destIP viaIP srcPort destPort seqNumber
          ackNumber flags windowSize u8data).1 ∧
        SegmentVerifies intf destIP PROTOCOL_TCP (tcpTransmit view nextId intf destIP viaIP
          srcPort destPort seqNumber ackNumber flags windowSize u8data).1) ∧
    (∀ (type code : UInt8) (headerValue : BitVec 32) (u8data : Bytes),
      minHeaderLength + icmpHeaderLength + u8data.length < 2 ^ 16 →
      HeaderVerifies intf
          (icmpTransmit view nextId intf destIP viaIP type code headerValue u8data).1 ∧
        MessageVerifies intf
          (icmpTransmit view nextId intf destIP viaIP type code headerValue u8data).1) ∧
    ∀ (first second : Bytes) (extraSum : Nat), first.length % 2 = 0 →
      result (buffer first 0 first.length + buffer second 0 second.length + extraSum) =
        checksum (first ++ second) 0 (first ++ second).length extraSum :=
  ⟨fun srcPort destPort _ fits =>
      udpTransmit_verifies documented nextId intf destIP viaIP srcPort destPort fits,
    fun srcPort destPort seqNumber ackNumber flags windowSize _ fits =>
      tcpTransmit_verifies documented nextId intf destIP viaIP srcPort destPort seqNumber
        ackNumber flags windowSize fits,
    fun type code headerValue _ fits =>
      icmpTransmit_verifies documented nextId intf destIP viaIP type code headerValue fits,
    fun first second extraSum even => Checksum.result_buffer_append first second even extraSum⟩

/-- An interface without a table. -/
def host : Interface := ⟨⟨2, 0, 0, 0, 0, 1⟩, ⟨10, 0, 0, 1⟩, 12, ∅⟩

theorem checksums_verify_host :
    U8View.byteByByte.BigEndian ∧
      HeaderVerifies host
        (udpTransmit .byteByByte 1 host ⟨10, 0, 0, 2⟩ none 5000 53 [1, 2, 3]).1 ∧
      SegmentVerifies host ⟨10, 0, 0, 2⟩ PROTOCOL_UDP
        (udpTransmit .byteByByte 1 host ⟨10, 0, 0, 2⟩ none 5000 53 [1, 2, 3]).1 ∧
      result (buffer [1, 2] 0 2 + buffer [3] 0 1 + 7) = checksum [1, 2, 3] 0 3 7 :=
  have all := checksums_verify .byteByByte U8View.byteByByte_bigEndian 1 host ⟨10, 0, 0, 2⟩ none
  ⟨U8View.byteByByte_bigEndian, (all.1 5000 53 [1, 2, 3] (by decide)).1,
    (all.1 5000 53 [1, 2, 3] (by decide)).2, all.2.2.2 [1, 2] [3] 7 rfl⟩

/-! ## The checksum of a UDP datagram -/

/-- The checksum field of a datagram. -/
def udpChecksumField (view : U8View) (intf : Interface) (sent : Sent) : Option (BitVec 16) :=
  view.getUint16BE sent.u8headers (intf.bufferDataOffset + ethernetLength + minHeaderLength + 6)

/-- The field holds the checksum of the datagram, as it is computed. -/
theorem udpChecksumField_eq {view : U8View} (documented : view.BigEndian) (nextId : Nat)
    (intf : Interface) (destIP : IP4Address) (viaIP : Option IP4Address)
    (srcPort destPort : BitVec 16) (u8data : Bytes) :
    udpChecksumField view intf
        (udpTransmit view nextId intf destIP viaIP srcPort destPort u8data).1 =
      some (BitVec.ofNat 16 (result (udpSum intf.ipAddr destIP srcPort destPort u8data))) := by
  obtain ⟨a, b, c, d, e, f, -, -, -, sent⟩ := udpTransmit_layout documented nextId intf
    destIP viaIP srcPort destPort u8data
  rw [sent]
  obtain ⟨small, -⟩ := Checksum.result_spec (udpSum intf.ipAddr destIP srcPort destPort u8data)
  generalize result (udpSum intf.ipAddr destIP srcPort destPort u8data) = ck at small
  generalize header : ip4Header [a, b] [c, d] PROTOCOL_UDP
    (result (ip4Sum [a, b] [c, d] PROTOCOL_UDP intf.ipAddr destIP)) intf.ipAddr destIP = ipHeader
  have size : ipHeader.length = minHeaderLength := by
    rw [← header]
    exact length_ip4Header _ _ rfl rfl _ _ _ _
  have place : intf.bufferDataOffset + ethernetLength + minHeaderLength + 6 =
      (blank intf ++ ipHeader ++ (uint16BE srcPort.toNat ++ uint16BE destPort.toNat ++
        [e, f])).length := by
    rw [List.length_append, List.length_append, length_blank, size]
    rfl
  have value : (UInt8.ofNat (ck / 2 ^ 8)).toBitVec ++ (UInt8.ofNat ck).toBitVec =
      BitVec.ofNat 16 ck := by
    have word := U8View.uint16BE_append (BitVec.ofNat 16 ck)
    rwa [BitVec.toNat_ofNat, Nat.mod_eq_of_lt small] at word
  unfold udpChecksumField udpHeader
  dsimp only
  have reads := documented.getUint16BE (blank intf ++ ipHeader ++ (uint16BE srcPort.toNat ++
    uint16BE destPort.toNat ++ [e, f])) [] (UInt8.ofNat (ck / 2 ^ 8)) (UInt8.ofNat ck)
  rw [List.append_nil, value, ← place, List.append_assoc (blank intf ++ ipHeader)] at reads
  exact reads

/-- **When the checksum of a datagram is not zero.** The field of a datagram of any length is
different from the value for no checksum exactly if the sum of the pseudo header, the header
and the data, as a number of 32 bits, is zero or no multiple of `2 ^ 16 - 1`. -/
theorem udp_checksum_ne_zero_iff (view : U8View) (documented : view.BigEndian) (nextId : Nat)
    (intf : Interface) (destIP : IP4Address) (viaIP : Option IP4Address)
    (srcPort destPort : BitVec 16) (u8data : Bytes) :
    udpChecksumField view intf
        (udpTransmit view nextId intf destIP viaIP srcPort destPort u8data).1 ≠ some 0 ↔
      ¬ (0 < udpSum intf.ipAddr destIP srcPort destPort u8data % 2 ^ 32 ∧
        udpSum intf.ipAddr destIP srcPort destPort u8data % 2 ^ 32 % 65535 = 0) := by
  obtain ⟨small, -, -, zero⟩ :=
    Checksum.result_spec (udpSum intf.ipAddr destIP srcPort destPort u8data)
  rw [udpChecksumField_eq documented, ← zero, ne_eq, Option.some_inj, ← BitVec.toNat_inj,
    BitVec.toNat_ofNat, Nat.mod_eq_of_lt small]
  rfl

theorem udp_checksum_ne_zero_iff_host :
    U8View.byteByByte.BigEndian ∧
      (udpChecksumField .byteByByte host
          (udpTransmit .byteByByte 1 host ⟨10, 0, 0, 2⟩ none 5000 53 [1, 2, 3]).1 ≠ some 0 ↔
        ¬ (0 < udpSum host.ipAddr ⟨10, 0, 0, 2⟩ 5000 53 [1, 2, 3] % 2 ^ 32 ∧
          udpSum host.ipAddr ⟨10, 0, 0, 2⟩ 5000 53 [1, 2, 3] % 2 ^ 32 % 65535 = 0)) :=
  ⟨U8View.byteByByte_bigEndian, udp_checksum_ne_zero_iff .byteByByte
    U8View.byteByByte_bigEndian 1 host ⟨10, 0, 0, 2⟩ none 5000 53 [1, 2, 3]⟩

/-- Two bytes of data that make up for the rest of the sum leave the field zero. -/
theorem udp_checksum_zero : ∃ u8data : Bytes,
    result (udpSum host.ipAddr ⟨10, 0, 0, 2⟩ 5000 53 u8data) = 0 ∧
      udpChecksumField .byteByByte host
        (udpTransmit .byteByByte 1 host ⟨10, 0, 0, 2⟩ none 5000 53 u8data).1 = some 0 :=
  ⟨[216, 26], by decide +kernel, by decide +kernel⟩

end JsOS.Net.Transmit
