import JsOS.Net.Host

/-! # Loopback

What the loopback interface transmits it receives later, as one buffer. The headers are written by
one set of functions and read by another, at offsets that each computes for itself; a datagram or a
segment comes out as it was put in (`loopback_round_trip`).
-/

namespace JsOS.Net

open Arp (macBytes ipBytes)
open Tcp (Bytes Segment)
open Transmit (Sent blank ip4Header udpHeader tcpHeader udpTransmit tcpTransmit dataBytes)
open U8View (uint16BE uint32BE)

/-! ## The Ethernet header -/

/-- The bytes of an Ethernet header. -/
def ethernetHeader (destMAC srcMAC : MACAddress) (etherType : Nat) : Bytes :=
  macBytes destMAC ++ macBytes srcMAC ++ uint16BE etherType

/-- The Ethernet header is written into the blank array before the IPv4 header. -/
theorem ethernetWrite_blank {view : U8View} (documented : view.BigEndian) (intf : Arp.Interface)
    (rest : Bytes) (destMAC srcMAC : MACAddress) {etherType : Nat} (small : etherType < 2 ^ 16) :
    Arp.ethernetWrite view (blank intf ++ rest) intf.bufferDataOffset destMAC srcMAC etherType =
      List.replicate intf.bufferDataOffset 0 ++ ethernetHeader destMAC srcMAC etherType ++ rest := by
  have fresh : blank intf ++ rest =
      List.replicate intf.bufferDataOffset 0 ++ List.replicate 14 0 ++ rest := by
    rw [List.replicate_append_replicate]
    rfl
  have front : (List.replicate intf.bufferDataOffset (0 : UInt8)).length =
      intf.bufferDataOffset := List.length_replicate
  generalize List.replicate intf.bufferDataOffset (0 : UInt8) = before at fresh front ⊢
  have first := Buffer.store_window before (List.replicate 14 0) rest 0 (macBytes destMAC)
    (by simp)
  have second := Buffer.store_window before (macBytes destMAC ++ List.replicate 8 0) rest 6
    (macBytes srcMAC) (by simp)
  have third := @U8View.BigEndian.setUint16BE_over view documented
    (before ++ (macBytes destMAC ++ macBytes srcMAC)) [0, 0] rest (before.length + 12) etherType
    (by simp) rfl small
  rw [Nat.add_zero] at first
  unfold Arp.ethernetWrite
  dsimp only
  rw [fresh, ← front, first]
  change view.setUint16BE (Buffer.store (before ++ (macBytes destMAC ++ List.replicate 8 0) ++ rest)
    (before.length + 6) (macBytes srcMAC)) (before.length + 12) etherType = _
  rw [second]
  have written : before ++ Buffer.store (macBytes destMAC ++ List.replicate 8 0) 6
      (macBytes srcMAC) ++ rest = before ++ (macBytes destMAC ++ macBytes srcMAC) ++ [0, 0] ++
        rest := by
    simp only [List.append_assoc]
    rfl
  rw [written, third]
  simp only [ethernetHeader, List.append_assoc]

/-! ## Reading what is written -/

section Reading

variable {view : U8View} (documented : view.BigEndian) (front rest : Bytes)

theorem getElem?_behind (index : Nat) : (front ++ rest)[front.length + index]? = rest[index]? := by
  rw [List.getElem?_append_right (Nat.le_add_right _ _), Nat.add_sub_cancel_left]

/-- A number of two bytes, read back by shifting. -/
theorem shiftedPair_behind {index : Nat} (value : BitVec 16)
    (high : rest[index]? = some (.ofNat (value.toNat / 2 ^ 8)))
    (low : rest[index + 1]? = some (.ofNat value.toNat)) :
    shiftedPair (front ++ rest) (front.length + index) = value.toNat := by
  have below := value.isLt
  unfold shiftedPair
  rw [Nat.add_assoc, getElem?_behind, getElem?_behind, high, low]
  change value.toNat / 2 ^ 8 % 2 ^ 8 * 2 ^ 8 + value.toNat % 2 ^ 8 = value.toNat
  omega

include documented in
theorem getUint16BE_behind {index : Nat} (value : BitVec 16)
    (high : rest[index]? = some (.ofNat (value.toNat / 2 ^ 8)))
    (low : rest[index + 1]? = some (.ofNat value.toNat)) :
    view.getUint16BE (front ++ rest) (front.length + index) = some value := by
  rw [documented.getUint16BE_at ((getElem?_behind front rest index).trans high)
    ((getElem?_behind front rest (index + 1)).trans low), U8View.uint16BE_append]

include documented in
theorem getUint32BE_behind {index : Nat} (value : BitVec 32)
    (first : rest[index]? = some (.ofNat (value.toNat / 2 ^ 24)))
    (second : rest[index + 1]? = some (.ofNat (value.toNat / 2 ^ 16)))
    (third : rest[index + 2]? = some (.ofNat (value.toNat / 2 ^ 8)))
    (fourth : rest[index + 3]? = some (.ofNat value.toNat)) :
    view.getUint32BE (front ++ rest) (front.length + index) = some value := by
  rw [documented.getUint32BE_at ((getElem?_behind front rest index).trans first)
    ((getElem?_behind front rest (index + 1)).trans second)
    ((getElem?_behind front rest (index + 2)).trans third)
    ((getElem?_behind front rest (index + 3)).trans fourth), U8View.uint32BE_append]

include documented in
/-- **An IPv4 header that was written is read back**, and the packet is the only one of its
datagram. -/
theorem receive_written (fragments : Ip4.Fragments) (now : Nat) (a b c d : UInt8)
    (protocolId : UInt8) (checksumField : Nat) (srcIP destIP : IP4Address) :
    Ip4.receive view fragments now
        (front ++ (ip4Header [a, b] [c, d] protocolId checksumField srcIP destIP ++ rest))
        front.length =
      (fragments, .ok (some ⟨srcIP, destIP, some protocolId,
        front ++ (ip4Header [a, b] [c, d] protocolId checksumField srcIP destIP ++ rest),
        front.length + 20⟩)) := by
  generalize written : ip4Header [a, b] [c, d] protocolId checksumField srcIP destIP ++ rest = packet
  have fragmentData : Ip4.getFragmentationData view (front ++ packet) front.length = some 0 :=
    getUint16BE_behind documented front packet 0 (written ▸ rfl) (written ▸ rfl)
  have source : Ip4.getSrcIP (front ++ packet) front.length = srcIP := by
    unfold Ip4.getSrcIP Arp.ipAt
    simp only [Nat.add_assoc, Arp.byteAt_append, ← written]
    rfl
  have destination : Ip4.getDestIP (front ++ packet) front.length = destIP := by
    unfold Ip4.getDestIP Arp.ipAt
    simp only [Nat.add_assoc, Arp.byteAt_append, ← written]
    rfl
  have protocol : Ip4.getProtocolId (front ++ packet) front.length = some protocolId := by
    unfold Ip4.getProtocolId
    rw [getElem?_behind, ← written]
    rfl
  have length : Ip4.getHeaderLength (front ++ packet) front.length = 20 := by
    have first : Arp.byteAt (front ++ packet) front.length = 0x45 := by
      have shifted := Arp.byteAt_append front packet 0
      rw [Nat.add_zero] at shifted
      rw [shifted, ← written]
      rfl
    rw [Ip4.getHeaderLength, first]
    rfl
  unfold Ip4.receive
  rw [fragmentData]
  dsimp only
  rw [if_pos (by decide), Ip4.handleReceive, source, destination, protocol, length]

end Reading

/-! ## Back in the sockets -/

/-- What the loopback interface receives of what it transmits. -/
def loopback (u8headers : Bytes) : Option Bytes → Bytes
  | some u8data => u8headers ++ u8data
  | none => u8headers

theorem loopback_eq (u8headers : Bytes) (u8data : Option Bytes) :
    loopback u8headers u8data = u8headers ++ dataBytes u8data := by
  cases u8data with
  | none => exact (List.append_nil _).symm
  | some u8data => rfl

namespace Host

/-- The interface is the loopback interface. -/
structure IsLoopback (host : Host) : Prop where
  arp : host.arp = false
  ontransmit : host.ontransmit = true

/-- What is sent is transmitted as one array of headers with the data. When the interface receives
it later, the host is left as given. -/
def Loops (view : U8View) (now : Nat) (host : Host) (sent : Sent) (later after : Host) : Prop :=
  ∃ u8headers,
    host.sendIP4 view sent =
        { host with transmitted := host.transmitted ++ [(u8headers, sent.u8data)] } ∧
      later.receive view now (loopback u8headers sent.u8data) = (after, false)

variable {view : U8View} (documented : view.BigEndian) {now : Nat} {host later after : Host}

theorem IsLoopback.targetMAC (loop : host.IsLoopback) (viaIP : IP4Address) :
    ∃ mac, host.targetMAC viaIP = some mac := by
  unfold Host.targetMAC
  rw [loop.arp]
  split
  · exact ⟨_, rfl⟩
  · exact ⟨_, rfl⟩

include documented in
/-- A packet loops if the protocol in it is received as it should be behind any front. -/
theorem IsLoopback.loops (loop : host.IsLoopback)
    (same : later.intf.bufferDataOffset = host.intf.bufferDataOffset) {viaIP destIP : IP4Address}
    {a b c d protocolId : UInt8} {checksumField : Nat} {header : Bytes} {u8data : Option Bytes}
    (received : ∀ front : Bytes, later.ip4receive view now ⟨host.intf.ipAddr, destIP,
      some protocolId, front ++ (ip4Header [a, b] [c, d] protocolId checksumField host.intf.ipAddr
        destIP ++ (header ++ dataBytes u8data)), front.length + 20⟩ = (after, false)) :
    Loops view now host ⟨viaIP, blank host.intf ++ ip4Header [a, b] [c, d] protocolId checksumField
      host.intf.ipAddr destIP ++ header, u8data⟩ later after := by
  obtain ⟨mac, target⟩ := loop.targetMAC viaIP
  generalize packet : ip4Header [a, b] [c, d] protocolId checksumField host.intf.ipAddr destIP =
    ip4 at received
  have fields := fun front rest => receive_written documented front rest later.fragments now a b c d
    protocolId checksumField host.intf.ipAddr destIP
  rw [packet] at fields
  have size : (List.replicate host.intf.bufferDataOffset 0 ++
      (macBytes mac ++ macBytes host.intf.macAddr)).length =
        later.intf.bufferDataOffset + 12 := by
    simp [same]
  have whole : List.replicate host.intf.bufferDataOffset 0 ++
      ethernetHeader mac host.intf.macAddr 0x0800 ++ (ip4 ++ header) =
        List.replicate host.intf.bufferDataOffset 0 ++ (macBytes mac ++ macBytes host.intf.macAddr) ++
          (uint16BE 0x0800 ++ (ip4 ++ header)) := by
    simp only [ethernetHeader, List.append_assoc]
  generalize List.replicate host.intf.bufferDataOffset 0 ++
    (macBytes mac ++ macBytes host.intf.macAddr) = link at size whole
  refine ⟨link ++ (uint16BE 0x0800 ++ (ip4 ++ header)), ?_, ?_⟩
  · unfold Host.sendIP4
    dsimp only
    rw [target]
    dsimp only
    rw [List.append_assoc, ethernetWrite_blank documented _ _ _ _ (by decide), whole, Host.hand,
      if_pos loop.ontransmit]
  · have buffer : loopback (link ++ (uint16BE 0x0800 ++ (ip4 ++ header))) u8data =
        link ++ (uint16BE 0x0800 ++ (ip4 ++ (header ++ dataBytes u8data))) := by
      rw [loopback_eq]
      simp only [List.append_assoc]
    have etherType : getEtherType (link ++ (uint16BE 0x0800 ++ (ip4 ++
        (header ++ dataBytes u8data)))) later.intf.bufferDataOffset = 0x0800 := by
      unfold getEtherType
      rw [← size]
      exact @shiftedPair_behind link (uint16BE 0x0800 ++ (ip4 ++ (header ++ dataBytes u8data))) 0
        0x0800 rfl rfl
    have split : link ++ (uint16BE 0x0800 ++ (ip4 ++ (header ++ dataBytes u8data))) =
        link ++ uint16BE 0x0800 ++ (ip4 ++ (header ++ dataBytes u8data)) :=
      (List.append_assoc _ _ _).symm
    have place : later.intf.bufferDataOffset + Transmit.ethernetLength =
        (link ++ uint16BE 0x0800).length := by
      rw [List.length_append, size]
      rfl
    rw [buffer]
    unfold Host.receive
    rw [etherType]
    dsimp only
    rw [if_pos rfl, split, place]
    unfold Host.receiveIP4
    rw [fields]
    exact received _

/-- A UDP datagram is received behind its headers. -/
theorem udpReceive_written (srcIP : IP4Address) (front ip4 : Bytes) (size : ip4.length = 20)
    (srcPort destPort : BitVec 16) (e f : UInt8) (checksumField : Nat) (u8data : Bytes)
    {socket : Udp.SocketId} (bound : later.udp.lookupReceive destPort.toNat = some socket)
    (listens : later.onmessage socket = true) :
    later.udpReceive srcIP (front ++ (ip4 ++
      (udpHeader srcPort destPort [e, f] checksumField ++ u8data))) (front.length + 20) =
        { later with messages := later.messages ++ [⟨socket, srcIP, srcPort.toNat, u8data⟩] } := by
  generalize written : udpHeader srcPort destPort [e, f] checksumField ++ u8data = datagram
  have place : front.length + 20 = (front ++ ip4).length := by rw [List.length_append, size]
  have source : Udp.getSrcPort (front ++ (ip4 ++ datagram)) (front.length + 20) =
      srcPort.toNat := by
    rw [place, ← List.append_assoc]
    exact @shiftedPair_behind (front ++ ip4) datagram 0 srcPort (written ▸ rfl) (written ▸ rfl)
  have destination : Udp.getDestPort (front ++ (ip4 ++ datagram)) (front.length + 20) =
      destPort.toNat := by
    rw [place, ← List.append_assoc]
    exact shiftedPair_behind (front ++ ip4) datagram destPort (written ▸ rfl) (written ▸ rfl)
  have data : (front ++ (ip4 ++ datagram)).drop (front.length + 20 + Transmit.udpHeaderLength) =
      u8data := by
    have behind : front.length + 20 + Transmit.udpHeaderLength =
        (front ++ (ip4 ++ udpHeader srcPort destPort [e, f] checksumField)).length := by
      simp [udpHeader, size, Transmit.udpHeaderLength]
    rw [behind, ← written]
    simp only [← List.append_assoc]
    exact List.drop_left
  unfold udpReceive
  rw [destination, bound]
  dsimp only
  rw [if_pos listens, source, data]

include documented in
/-- A TCP segment is received with the fields and the data that it was given. -/
theorem tcpReceive_written (srcIP : IP4Address) (front ip4 : Bytes) (size : ip4.length = 20)
    (srcPort destPort : BitVec 16) (seqNumber ackNumber : BitVec 32) (flags : UInt8)
    (windowSize : BitVec 16) (checksumField : Nat) (u8data : Bytes) :
    later.tcpReceive view now srcIP (front ++ (ip4 ++ (tcpHeader srcPort destPort seqNumber ackNumber
      flags windowSize checksumField ++ u8data))) (front.length + 20) =
        ({ later with
          tcp := later.tcp.receive (later.setting now) ⟨later.self, srcIP, srcPort, destPort,
            .ofData flags.toBitVec seqNumber ackNumber windowSize u8data⟩ }, false) := by
  generalize written : tcpHeader srcPort destPort seqNumber ackNumber flags windowSize
    checksumField ++ u8data = segment
  have place : front.length + 20 = (front ++ ip4).length := by rw [List.length_append, size]
  have reading : front ++ (ip4 ++ segment) = front ++ ip4 ++ segment :=
    (List.append_assoc _ _ _).symm
  have behind : (front ++ ip4).length + 20 = (front ++ (ip4 ++ tcpHeader srcPort destPort seqNumber
      ackNumber flags windowSize checksumField)).length := by
    simp [tcpHeader, size]
  have data : (front ++ ip4 ++ segment).drop ((front ++ ip4).length + 20) = u8data := by
    rw [behind, ← written]
    simp only [← List.append_assoc]
    exact List.drop_left
  have length : (front ++ ip4 ++ segment).length = (front ++ ip4).length + 20 + u8data.length := by
    rw [behind, ← List.length_append, ← written]
    simp only [List.append_assoc]
  rw [reading, place]
  generalize front ++ ip4 = before at data length ⊢
  have source : Tcp.getSrcPort view (before ++ segment) before.length = some srcPort :=
    @getUint16BE_behind view documented before segment 0 srcPort (written ▸ rfl) (written ▸ rfl)
  have destination : Tcp.getDestPort view (before ++ segment) before.length = some destPort :=
    getUint16BE_behind documented before segment destPort (written ▸ rfl) (written ▸ rfl)
  have seq : Tcp.getSeqNumber view (before ++ segment) before.length = some seqNumber :=
    getUint32BE_behind documented before segment seqNumber (written ▸ rfl) (written ▸ rfl)
      (written ▸ rfl) (written ▸ rfl)
  have ack : Tcp.getAckNumber view (before ++ segment) before.length = some ackNumber :=
    getUint32BE_behind documented before segment ackNumber (written ▸ rfl) (written ▸ rfl)
      (written ▸ rfl) (written ▸ rfl)
  have window : Tcp.getWindowSize view (before ++ segment) before.length = some windowSize :=
    getUint16BE_behind documented before segment windowSize (written ▸ rfl) (written ▸ rfl)
  have flags' : Tcp.getFlags (before ++ segment) before.length = flags.toBitVec := by
    unfold Tcp.getFlags
    rw [Arp.byteAt_append, ← written]
    rfl
  have offset : Tcp.getDataOffset (before ++ segment) before.length = 20 := by
    have words : Arp.byteAt segment 12 = 0x50 := written ▸ rfl
    rw [Tcp.getDataOffset, Arp.byteAt_append, words]
    rfl
  have read : Tcp.readSegment view (before ++ segment) before.length =
      some (.ofData flags.toBitVec seqNumber ackNumber windowSize u8data) := by
    unfold Tcp.readSegment
    rw [seq, ack, window]
    dsimp only
    congr 1
    unfold Segment.ofData
    simp only [flags', offset, data, length, Segment.mk.injEq, true_and, and_true]
    omega
  unfold tcpReceive
  rw [source, destination, read]

/-- **What goes through the loopback interface comes out as it was put in.** A datagram reaches the
socket of its destination port with the data, the port and the address of the sender; and of a
segment `_receive` gets the fields and the data that `tcpTransmit` was given. -/
theorem loopback_round_trip (view : U8View) (documented : view.BigEndian) (now : Nat)
    (host later : Host) (loop : host.IsLoopback)
    (same : later.intf.bufferDataOffset = host.intf.bufferDataOffset) (destIP : IP4Address)
    (viaIP : Option IP4Address) (srcPort destPort : BitVec 16) :
    (∀ (u8data : Bytes) (socket : Udp.SocketId),
      later.udp.lookupReceive destPort.toNat = some socket → later.onmessage socket = true →
      Loops view now host
        (udpTransmit view host.nextId host.intf destIP viaIP srcPort destPort u8data).1 later
        { later with
          messages := later.messages ++ [⟨socket, host.intf.ipAddr, srcPort.toNat, u8data⟩] }) ∧
    ∀ (seqNumber ackNumber : BitVec 32) (flags : UInt8) (windowSize : BitVec 16)
      (u8data : Option Bytes),
      Loops view now host
        (tcpTransmit view host.nextId host.intf destIP viaIP srcPort destPort seqNumber ackNumber
          flags windowSize u8data).1 later
        { later with
          tcp := later.tcp.receive (later.setting now) ⟨later.self, host.intf.ipAddr, srcPort,
            destPort, .ofData flags.toBitVec seqNumber ackNumber windowSize
              (dataBytes u8data)⟩ } := by
  constructor
  · intro u8data socket bound listens
    obtain ⟨a, b, c, d, e, f, -, -, -, layout⟩ := Transmit.udpTransmit_layout documented host.nextId
      host.intf destIP viaIP srcPort destPort u8data
    rw [layout]
    refine loop.loops documented same fun front => ?_
    have received := udpReceive_written host.intf.ipAddr front (ip4Header [a, b] [c, d]
      Transmit.PROTOCOL_UDP (Checksum.result (Transmit.ip4Sum [a, b] [c, d] Transmit.PROTOCOL_UDP
        host.intf.ipAddr destIP)) host.intf.ipAddr destIP) rfl srcPort destPort e f
      (Checksum.result (Transmit.udpSum host.intf.ipAddr destIP srcPort destPort u8data)) u8data
      bound listens
    exact congrArg (·, false) received
  · intro seqNumber ackNumber flags windowSize u8data
    obtain ⟨a, b, c, d, -, -, layout⟩ := Transmit.tcpTransmit_layout documented host.nextId
      host.intf destIP viaIP srcPort destPort seqNumber ackNumber flags windowSize u8data
    rw [layout]
    refine loop.loops documented same fun front => ?_
    exact tcpReceive_written documented host.intf.ipAddr front _ rfl srcPort destPort seqNumber
      ackNumber flags windowSize _ _

/-- The loopback interface of a system with one UDP socket, bound to port 53. -/
def oneSocket : Host where
  self := 0
  intf := ⟨.ZERO, ⟨127, 0, 0, 1⟩, 0, ∅⟩
  arp := false
  ontransmit := true
  fragments := ∅
  transmitted := []
  table := []
  nextId := 1
  tcp := {}
  udp := { sockets := [⟨none, 53, false⟩], ports := { allocated := 1, map := some (AList.singleton 53 0) } }
  onmessage := fun _ => true
  messages := []
  pings := {}

theorem loopback_round_trip_oneSocket :
    Loops .byteByByte 0 oneSocket
        (udpTransmit .byteByByte 1 oneSocket.intf ⟨127, 0, 0, 1⟩ none 40000 53 [1, 2, 3]).1 oneSocket
        { oneSocket with messages := [⟨0, ⟨127, 0, 0, 1⟩, 40000, [1, 2, 3]⟩] } ∧
      Loops .byteByByte 0 oneSocket
        (tcpTransmit .byteByByte 1 oneSocket.intf ⟨127, 0, 0, 1⟩ none 40000 53 0xffffffff 0x80000000
          0x02 8192 none).1 oneSocket
        { oneSocket with
          tcp := oneSocket.tcp.receive (oneSocket.setting 0) ⟨0, ⟨127, 0, 0, 1⟩, 40000, 53,
            .ofData 0x02 0xffffffff 0x80000000 8192 []⟩ } := by
  obtain ⟨datagram, segment⟩ := loopback_round_trip .byteByByte U8View.byteByByte_bigEndian 0
    oneSocket oneSocket ⟨rfl, rfl⟩ rfl ⟨127, 0, 0, 1⟩ none 40000 53
  exact ⟨datagram [1, 2, 3] 0 (by decide) rfl, segment 0xffffffff 0x80000000 0x02 8192 none⟩

end Host

end JsOS.Net
