import JsOS.Net.Host
import JsOS.Net.Ip4.FragmentStore
import JsOS.Net.Tcp.Insertion

/-! # Bytes behind a packet

An Ethernet frame may be longer than the packet in it, as a short packet is padded. The total length
in the header of the packet is not read: a datagram, a segment, a message and a fragment all reach up
to the end of the buffer. So it makes no difference what stands behind a packet exactly if the stack
takes none of the data of the packet (`padding_unseen_iff`).
-/

namespace JsOS.Net

open Tcp (Bytes Segment SocketId ReceiveItem)

/-! ## Reading in front of more bytes -/

section Reading

variable {u8 : Bytes} (trailing : Bytes)

theorem byteAt_inside {index : Nat} (inside : index < u8.length) :
    Arp.byteAt (u8 ++ trailing) index = Arp.byteAt u8 index := by
  rw [Arp.byteAt, List.getElem?_append_left inside, Arp.byteAt]

theorem shiftedPair_inside {offset : Nat} (inside : offset + 1 < u8.length) :
    shiftedPair (u8 ++ trailing) offset = shiftedPair u8 offset := by
  unfold shiftedPair
  rw [List.getElem?_append_left inside, List.getElem?_append_left (by omega)]

variable {view : U8View} (documented : view.BigEndian)

include documented in
/-- Two bytes inside a buffer are read the same, whatever stands behind it. -/
theorem getUint16BE_inside {offset : Nat} (inside : offset + 1 < u8.length) :
    ∃ value, ∀ trailing, view.getUint16BE (u8 ++ trailing) offset = some value := by
  have first := List.getElem?_eq_getElem (l := u8) (i := offset) (by omega)
  have second := List.getElem?_eq_getElem inside
  exact ⟨_, fun trailing => documented.getUint16BE_at
    ((List.getElem?_append_left (by omega)).trans first)
    ((List.getElem?_append_left inside).trans second)⟩

include documented in
theorem getUint32BE_inside {offset : Nat} (inside : offset + 3 < u8.length) :
    ∃ value, ∀ trailing, view.getUint32BE (u8 ++ trailing) offset = some value := by
  have first := List.getElem?_eq_getElem (l := u8) (i := offset) (by omega)
  have second := List.getElem?_eq_getElem (l := u8) (i := offset + 1) (by omega)
  have third := List.getElem?_eq_getElem (l := u8) (i := offset + 2) (by omega)
  have fourth := List.getElem?_eq_getElem inside
  exact ⟨_, fun trailing => documented.getUint32BE_at
    ((List.getElem?_append_left (by omega)).trans first)
    ((List.getElem?_append_left (by omega)).trans second)
    ((List.getElem?_append_left (by omega)).trans third)
    ((List.getElem?_append_left inside).trans fourth)⟩

end Reading

namespace Ip4

namespace Frame

/-- The frame with more bytes behind it. -/
def padded (frame : Frame) (trailing : Bytes) : Frame where
  u8 := frame.u8 ++ trailing
  headerOffset := frame.headerOffset
  header_le := by
    rw [List.length_append]
    exact Nat.le_add_right_of_le frame.header_le

@[simp] theorem padded_nil (frame : Frame) : frame.padded [] = frame := by
  cases frame
  simp only [padded, List.append_nil]

/-- The packet is the only one of its datagram. -/
def isWhole (frame : Frame) : Bool := Ip4.isWhole frame.getFragmentationData

/-- What `ip4receive` is called with for a packet that is the only one of its datagram. -/
def payload (frame : Frame) : Payload := (Fragments.handleReceive frame).payload

section Header

variable (frame : Frame) (trailing : Bytes)

@[simp] theorem headerOffset_padded : (frame.padded trailing).headerOffset = frame.headerOffset := rfl

@[simp] theorem byteAt_padded (index : Fin 20) :
    (frame.padded trailing).byteAt index = frame.byteAt index := by
  have header := frame.header_le
  have inside : frame.headerOffset + index < frame.u8.length := by omega
  unfold byteAt padded
  congr 1
  exact List.getElem_append_left inside

@[simp] theorem uint16At_padded (index next : Fin 20) :
    (frame.padded trailing).uint16At index next = frame.uint16At index next := by
  rw [uint16At, byteAt_padded, byteAt_padded, uint16At]

@[simp] theorem getSrcIP_padded : (frame.padded trailing).getSrcIP = frame.getSrcIP := by
  simp [getSrcIP]

@[simp] theorem getDestIP_padded : (frame.padded trailing).getDestIP = frame.getDestIP := by
  simp [getDestIP]

@[simp] theorem getProtocolId_padded :
    (frame.padded trailing).getProtocolId = frame.getProtocolId := by
  simp [getProtocolId]

@[simp] theorem nextOffset_padded : (frame.padded trailing).nextOffset = frame.nextOffset := by
  simp [nextOffset, getHeaderLength]

@[simp] theorem getIdentification_padded :
    (frame.padded trailing).getIdentification = frame.getIdentification := by
  simp [getIdentification]

@[simp] theorem getFragmentationData_padded :
    (frame.padded trailing).getFragmentationData = frame.getFragmentationData := by
  simp [getFragmentationData]

@[simp] theorem isWhole_padded : (frame.padded trailing).isWhole = frame.isWhole := by
  simp [isWhole]

theorem payload_padded : (frame.padded trailing).payload =
    { frame.payload with u8 := frame.u8 ++ trailing } := by
  simp only [payload, Fragments.handleReceive, Delivery.payload, getSrcIP_padded, getDestIP_padded,
    getProtocolId_padded, nextOffset_padded]
  rfl

end Header

end Frame

namespace Fragments

section Extent

variable (fragments : Fragments) (now : Nat) (arrival : Arrival)

/-- The portion of a fragment that is stored, with the end of the datagram if it announces one. -/
def extent : Option (Portion × Option Int) :=
  if arrival.fragmentLength ≤ 0 ∨ 0xffff < arrival.fragmentEnd then none
  else
    (fragments.queueOf now arrival).bind fun queue =>
      (arrival.portion.trim queue.fragments).map fun new =>
        (new, if arrival.isMoreFragments then none else some arrival.fragmentEnd)

/-- The loop that cuts a fragment finds it contained in the stored ones, however much longer it is
made. -/
def Overlooks : Prop :=
  ∀ queue, fragments.queueOf now arrival = some queue → ∀ longer : Nat,
    0 < arrival.fragmentLength + longer → arrival.fragmentEnd + longer ≤ 0xffff →
      Portion.trim ⟨arrival.fragmentOffset, arrival.fragmentEnd + longer, arrival.frame.nextOffset⟩
        queue.fragments = none

variable {fragments now arrival}

/-- Nothing is stored if there is no portion. -/
theorem addFragment_of_extent (none_ : fragments.extent now arrival = none) :
    fragments.addFragment now arrival = (fragments, .ok none) := by
  unfold extent at none_
  cases found : fragments.queueOf now arrival with
  | none => exact addFragment_of_none found
  | some queue =>
      rw [addFragment_of_some found]
      unfold addToQueue
      split at none_
      · next outside =>
          rcases outside with empty | long
          · have empty' : arrival.piece.fragmentLength ≤ 0 := empty
            rw [if_pos empty']
            rfl
          · have long' : 0xffff < arrival.piece.fragmentEnd := long
            rw [if_pos long', ite_self]
            rfl
      · next inside =>
          rw [found, Option.bind_some, Option.map_eq_none_iff] at none_
          have contained : arrival.piece.portion.trim queue.fragments = none := none_
          rw [contained, ite_self, ite_self]
          rfl

end Extent

section Padded

variable {fragments : Fragments} {now : Nat} (frame : Frame) (trailing : Bytes)

theorem fragmentLength_padded : (arrival (frame.padded trailing)).fragmentLength =
    (arrival frame).fragmentLength + trailing.length := by
  have length : (frame.padded trailing).u8.length = frame.u8.length + trailing.length :=
    List.length_append
  simp only [Arrival.fragmentLength, arrival, length, Frame.nextOffset_padded]
  omega

theorem fragmentEnd_padded : (arrival (frame.padded trailing)).fragmentEnd =
    (arrival frame).fragmentEnd + trailing.length := by
  have offset : (arrival (frame.padded trailing)).fragmentOffset =
      (arrival frame).fragmentOffset := by
    simp only [arrival, Frame.getFragmentationData_padded]
  rw [Arrival.fragmentEnd, fragmentLength_padded, offset, Arrival.fragmentEnd]
  omega

theorem portion_padded : (arrival (frame.padded trailing)).portion =
    ⟨(arrival frame).fragmentOffset, (arrival frame).fragmentEnd + trailing.length,
      frame.nextOffset⟩ := by
  rw [Arrival.portion, fragmentEnd_padded]
  simp only [arrival, Frame.getFragmentationData_padded, Frame.nextOffset_padded]

theorem queueOf_padded : fragments.queueOf now (arrival (frame.padded trailing)) =
    fragments.queueOf now (arrival frame) := by
  have hash : (arrival (frame.padded trailing)).hash = (arrival frame).hash := by
    simp only [Arrival.hash, arrival, Frame.getSrcIP_padded, Frame.getDestIP_padded,
      Frame.getIdentification_padded, Frame.getProtocolId_padded]
  rw [queueOf, hash, queueOf]

/-- A fragment that is overlooked is not stored, whatever stands behind it. -/
theorem Overlooks.extent_padded (overlooks : fragments.Overlooks now (arrival frame)) :
    fragments.extent now (arrival (frame.padded trailing)) = none := by
  unfold extent
  rw [fragmentLength_padded, fragmentEnd_padded, portion_padded, queueOf_padded]
  split
  · rfl
  · next inside =>
      cases found : fragments.queueOf now (arrival frame) with
      | none => rfl
      | some queue =>
          have contained := overlooks queue found trailing.length (by omega) (by omega)
          rw [Option.bind_some, Option.map_eq_none_iff]
          exact contained

/-- **What stands behind a fragment is stored** unless the fragment is overlooked. -/
theorem extent_padded_iff (fits : frame.nextOffset ≤ frame.u8.length) :
    (∀ trailing, fragments.extent now (arrival (frame.padded trailing)) =
        fragments.extent now (arrival frame)) ↔ fragments.Overlooks now (arrival frame) := by
  constructor
  · intro same
    -- a datagram has no room for so many bytes
    have nothing : fragments.extent now (arrival frame) = none := by
      rw [← same (List.replicate 0x10000 0), extent, fragmentEnd_padded, List.length_replicate]
      refine if_pos (.inr ?_)
      have nonneg : 0 ≤ (arrival frame).fragmentLength := by
        simp only [Arrival.fragmentLength, arrival]
        omega
      unfold Arrival.fragmentEnd
      omega
    intro queue found longer nonempty small
    have none_ := (same (List.replicate longer 0)).trans nothing
    unfold extent at none_
    rw [fragmentLength_padded, fragmentEnd_padded, portion_padded, queueOf_padded, found,
      List.length_replicate, if_neg (by omega), Option.bind_some, Option.map_eq_none_iff] at none_
    exact none_
  · intro overlooks trailing
    have plain := overlooks.extent_padded frame []
    rw [Frame.padded_nil] at plain
    rw [overlooks.extent_padded frame trailing, plain]

end Padded

end Fragments

end Ip4

namespace Host

/-! ## What is delivered -/

section Delivered

variable (view : U8View) (now : Nat) (host : Host)

/-- The packet that the TCP sockets get with a payload. -/
def packetOf (payload : Ip4.Payload) : Option Tcp.Packet :=
  match Tcp.getSrcPort view payload.u8 payload.nextOffset,
    Tcp.getDestPort view payload.u8 payload.nextOffset,
    Tcp.readSegment view payload.u8 payload.nextOffset with
  | some srcPort, some destPort, some segment =>
      some ⟨host.self, payload.srcIP, srcPort, destPort, segment⟩
  | _, _, _ => none

/-- The bytes that a payload brings a TCP socket, and how far they advance it. -/
def insertedBy (payload : Ip4.Payload) : List (SocketId × ReceiveItem) :=
  if payload.protocolId = some Transmit.PROTOCOL_TCP then
    match host.packetOf view payload with
    | some packet => host.tcp.inserted packet
    | none => []
  else []

/-- The bytes that a frame brings a TCP socket. -/
def inserted (frame : Ip4.Frame) : List (SocketId × ReceiveItem) :=
  match (host.fragments.receive now frame).2 with
  | .ok (some delivery) => host.insertedBy view delivery.payload
  | _ => []

/-- The portion of a fragment that is stored. -/
def extent (frame : Ip4.Frame) : Option (Ip4.Portion × Option Int) :=
  if frame.isWhole then none else host.fragments.extent now (Ip4.Fragments.arrival frame)

/-- **Two frames deliver the same**: the UDP payload to the socket, the TCP bytes and how far they
advance the sequence, the reply to an ICMP request and what is reported of one, and the extent of a
fragment. -/
structure SameDelivery (first second : Ip4.Frame) : Prop where
  messages : (host.receive view now second.u8).1.messages =
    (host.receive view now first.u8).1.messages
  inserted : host.inserted view now second = host.inserted view now first
  transmitted : (host.receive view now second.u8).1.transmitted =
    (host.receive view now first.u8).1.transmitted
  replies : (host.receive view now second.u8).1.pings.replies =
    (host.receive view now first.u8).1.pings.replies
  extent : host.extent now second = host.extent now first

/-! ## What is overlooked -/

/-- A reply to a request from the address is transmitted: the request is answered, and the MAC
address of the next hop is known. -/
def transmitsReply (srcIP : IP4Address) : Bool :=
  host.answers srcIP && host.ontransmit &&
    (Route.lookup host.table srcIP none).any fun routingEntry =>
      (host.targetMAC (routingEntry.gateway.getD srcIP)).isSome

/-- A reply is for a registered ping, and its data may be the beginning of the data of this ping. -/
def Expects (u8 : Bytes) (headerOffset : Nat) : Prop :=
  ∃ pingId id ping, Icmp.getEchoRequestIdentifier view u8 headerOffset = some pingId ∧
    host.pings.listeners.lookup pingId = some id ∧ host.pings.pings[id]? = some ping ∧
    u8.drop (headerOffset + Icmp.headerLength) <+: ping.data

/-- The stack takes none of the data of a packet: no reply to a request is transmitted, no ping waits
for a reply that begins like this, no end of a connection is announced and the window of the
connection is closed or its state takes no data, no socket of the port has a callback. -/
structure OverlooksPayload (payload : Ip4.Payload) : Prop where
  request : payload.protocolId = some Transmit.PROTOCOL_ICMP →
    Icmp.getType payload.u8 payload.nextOffset = some Icmp.ICMP_TYPE_ECHO_REQUEST →
      host.transmitsReply payload.srcIP = false
  reply : payload.protocolId = some Transmit.PROTOCOL_ICMP →
    Icmp.getType payload.u8 payload.nextOffset = some Icmp.ICMP_TYPE_ECHO_REPLY →
      ¬host.Expects view payload.u8 payload.nextOffset
  segment : payload.protocolId = some Transmit.PROTOCOL_TCP → ∀ packet id s,
    host.packetOf view payload = some packet → host.tcp.receiver packet = some id →
      host.tcp.sockets[id]? = some s → s.state ≠ .listen →
        packet.segment.hasFIN = false ∧ (s.state.takesData → s.receiveWindowSize = 0)
  datagram : payload.protocolId = some Transmit.PROTOCOL_UDP → ∀ socket,
    host.udp.lookupReceive (Udp.getDestPort payload.u8 payload.nextOffset) = some socket →
      host.onmessage socket = false

/-- The stack takes none of the data of a frame. -/
def Overlooks (frame : Ip4.Frame) : Prop :=
  if frame.isWhole then host.OverlooksPayload view frame.payload
  else host.fragments.Overlooks now (Ip4.Fragments.arrival frame)

/-- **A valid IPv4 packet that fills an Ethernet frame.** Its header has at least five words, its
total length is that of the frame, and the header of its protocol is complete unless it is a
fragment. -/
structure Carries (frame : Ip4.Frame) : Prop where
  place : frame.headerOffset = host.intf.bufferDataOffset + Transmit.ethernetLength
  etherType : getEtherType frame.u8 host.intf.bufferDataOffset = 0x0800
  version : frame.byteAt 0 >>> 4 = 4
  headerLength : 20 ≤ frame.getHeaderLength
  totalLength : frame.headerOffset + frame.totalLength = frame.u8.length
  fits : frame.nextOffset ≤ frame.u8.length
  icmp : frame.isWhole → frame.payload.protocolId = some Transmit.PROTOCOL_ICMP →
    frame.nextOffset + Icmp.headerLength ≤ frame.u8.length
  tcp : frame.isWhole → frame.payload.protocolId = some Transmit.PROTOCOL_TCP →
    Transmit.tcpHeaderLength ≤ Tcp.getDataOffset frame.u8 frame.nextOffset ∧
      frame.nextOffset + Tcp.getDataOffset frame.u8 frame.nextOffset ≤ frame.u8.length
  udp : frame.isWhole → frame.payload.protocolId = some Transmit.PROTOCOL_UDP →
    frame.nextOffset + Transmit.udpHeaderLength ≤ frame.u8.length

end Delivered

/-! ## Receiving a frame -/

section Receiving

variable {view : U8View} (documented : view.BigEndian) {now : Nat} {host : Host} {frame : Ip4.Frame}
  (carries : host.Carries frame) (trailing : Bytes)

include carries in
theorem Carries.etherType_padded :
    getEtherType (frame.padded trailing).u8 host.intf.bufferDataOffset = 0x0800 := by
  have header := frame.header_le
  rw [carries.place, Transmit.ethernetLength] at header
  rw [← carries.etherType]
  exact shiftedPair_inside trailing (by omega)

include documented carries in
/-- A frame goes to `ip4`. -/
theorem Carries.receive_padded : host.receive view now (frame.padded trailing).u8 =
    match host.fragments.receive now (frame.padded trailing) with
    | (fragments, .error _) => ({ host with fragments }, true)
    | (fragments, .ok none) => ({ host with fragments }, false)
    | (fragments, .ok (some delivery)) =>
        { host with fragments }.ip4receive view now delivery.payload := by
  have received := Ip4.receive_frame documented host.fragments now (frame.padded trailing)
  rw [Ip4.Frame.headerOffset_padded, carries.place] at received
  unfold Host.receive
  rw [carries.etherType_padded]
  dsimp only
  rw [if_pos rfl, receiveIP4, received]
  obtain ⟨fragments, outcome⟩ := host.fragments.receive now (frame.padded trailing)
  cases outcome with
  | error error => rfl
  | ok delivery =>
      cases delivery with
      | none => rfl
      | some delivery => rfl

include documented carries in
/-- A packet that is the only one of its datagram goes to its protocol. -/
theorem Carries.receive_whole (whole : frame.isWhole) :
    host.receive view now (frame.padded trailing).u8 =
      host.ip4receive view now { frame.payload with u8 := frame.u8 ++ trailing } := by
  have whole' : (!(Ip4.Fragments.arrival (frame.padded trailing)).isMoreFragments &&
      (Ip4.Fragments.arrival (frame.padded trailing)).fragmentOffset = 0) = true :=
    (frame.isWhole_padded trailing).trans whole
  rw [carries.receive_padded documented, Ip4.Fragments.receive, if_pos whole',
    ← frame.payload_padded]
  rfl

theorem inserted_whole (whole : frame.isWhole) :
    host.inserted view now (frame.padded trailing) =
      host.insertedBy view { frame.payload with u8 := frame.u8 ++ trailing } := by
  have whole' : (!(Ip4.Fragments.arrival (frame.padded trailing)).isMoreFragments &&
      (Ip4.Fragments.arrival (frame.padded trailing)).fragmentOffset = 0) = true :=
    (frame.isWhole_padded trailing).trans whole
  rw [inserted, Ip4.Fragments.receive, if_pos whole', ← frame.payload_padded]
  rfl

include documented carries in
/-- A fragment that is overlooked leaves the host as it is. -/
theorem Carries.receive_fragment (part : frame.isWhole = false)
    (overlooks : host.fragments.Overlooks now (Ip4.Fragments.arrival frame)) :
    host.receive view now (frame.padded trailing).u8 = (host, false) ∧
      host.inserted view now (frame.padded trailing) = [] := by
  have part' : ¬(!(Ip4.Fragments.arrival (frame.padded trailing)).isMoreFragments &&
      (Ip4.Fragments.arrival (frame.padded trailing)).fragmentOffset = 0) = true :=
    Bool.not_eq_true _ ▸ (frame.isWhole_padded trailing).trans part
  have nothing : host.fragments.receive now (frame.padded trailing) = (host.fragments, .ok none) := by
    rw [Ip4.Fragments.receive, if_neg part']
    exact Ip4.Fragments.addFragment_of_extent (overlooks.extent_padded frame trailing)
  rw [carries.receive_padded documented, inserted, nothing]
  exact ⟨rfl, rfl⟩

end Receiving

/-! ## UDP -/

section Udp

variable {host : Host} {srcIP : IP4Address} {u8 : Bytes} {headerOffset : Nat}
  (complete : headerOffset + Transmit.udpHeaderLength ≤ u8.length)

include complete in
theorem getDestPort_padded (trailing : Bytes) :
    Udp.getDestPort (u8 ++ trailing) headerOffset = Udp.getDestPort u8 headerOffset := by
  unfold Transmit.udpHeaderLength at complete
  exact shiftedPair_inside trailing (by omega)

include complete in
/-- A datagram is overlooked if there is no callback for it. -/
theorem udpReceive_padded (silent : ∀ socket,
      host.udp.lookupReceive (Udp.getDestPort u8 headerOffset) = some socket →
        host.onmessage socket = false) (trailing : Bytes) :
    host.udpReceive srcIP (u8 ++ trailing) headerOffset = host := by
  unfold udpReceive
  rw [getDestPort_padded complete]
  cases bound : host.udp.lookupReceive (Udp.getDestPort u8 headerOffset) with
  | none => rfl
  | some socket =>
      dsimp only
      rw [silent socket bound]
      rfl

include complete in
/-- A callback gets one byte more if there is one more. -/
theorem silent_of_udpReceive
    (same : (host.udpReceive srcIP (u8 ++ [0]) headerOffset).messages =
      (host.udpReceive srcIP u8 headerOffset).messages) (socket : Udp.SocketId)
    (bound : host.udp.lookupReceive (Udp.getDestPort u8 headerOffset) = some socket) :
    host.onmessage socket = false := by
  unfold udpReceive at same
  rw [getDestPort_padded complete, bound] at same
  dsimp only at same
  cases listens : host.onmessage socket with
  | false => rfl
  | true =>
      rw [listens, if_pos rfl, if_pos rfl] at same
      have message := List.append_cancel_left same
      have data := congrArg List.length (Message.mk.inj (List.cons.inj message).1).2.2.2
      rw [List.length_drop, List.length_drop, List.length_append, List.length_singleton] at data
      omega

end Udp

/-! ## ICMP -/

section Icmp

variable {view : U8View} (documented : view.BigEndian) {host : Host} {srcIP : IP4Address} {u8 : Bytes}
  {headerOffset : Nat} (complete : headerOffset + Icmp.headerLength ≤ u8.length)

include complete in
theorem getType_padded (trailing : Bytes) :
    Icmp.getType (u8 ++ trailing) headerOffset = Icmp.getType u8 headerOffset := by
  unfold Icmp.headerLength at complete
  exact List.getElem?_append_left (by omega)

include complete in
theorem data_padded (trailing : Bytes) :
    (u8 ++ trailing).drop (headerOffset + Icmp.headerLength) =
      u8.drop (headerOffset + Icmp.headerLength) ++ trailing :=
  List.drop_append_of_le_length complete

include documented complete in
/-- The identifier and the sequence number of an echo are those of the packet. -/
theorem echo_padded : ∃ id seq, ∀ trailing,
    Icmp.getEchoRequestIdentifier view (u8 ++ trailing) headerOffset = some id ∧
      Icmp.getEchoRequestSequence view (u8 ++ trailing) headerOffset = some seq := by
  unfold Icmp.headerLength at complete
  obtain ⟨id, identifier⟩ := @getUint16BE_inside u8 view documented (headerOffset + 4) (by omega)
  obtain ⟨seq, sequence⟩ := @getUint16BE_inside u8 view documented (headerOffset + 6) (by omega)
  exact ⟨id, seq, fun trailing => ⟨identifier trailing, sequence trailing⟩⟩

/-- A packet whose next hop is known is transmitted with its data. -/
theorem transmitted_sendIP4 (host : Host) (sent : Transmit.Sent) {mac : MACAddress}
    (target : host.targetMAC sent.viaIP = some mac) (on : host.ontransmit = true) :
    ∃ u8headers, (host.sendIP4 view sent).transmitted =
      host.transmitted ++ [(u8headers, sent.u8data)] := by
  unfold sendIP4
  rw [target]
  dsimp only
  rw [hand, if_pos on]
  exact ⟨_, rfl⟩

/-- A reply is transmitted with its data. -/
theorem transmitted_icmpTransmit {mac : MACAddress} (reply : Icmp.Transmit Tcp.Interface)
    (target : host.targetMAC (reply.viaIP.getD reply.destIP) = some mac)
    (on : host.ontransmit = true) : ∃ u8headers,
    (host.icmpTransmit view reply).transmitted =
      host.transmitted ++ [(u8headers, some reply.u8data)] :=
  transmitted_sendIP4 { host with nextId := host.nextId + 1 }
    (Transmit.icmpTransmit view host.nextId host.intf reply.destIP reply.viaIP reply.type reply.code
      reply.headerValue reply.u8data).1 target on

/-- The data of a packet that is not transmitted makes no difference. -/
theorem sendIP4_congr (host : Host) {first second : Transmit.Sent}
    (same : second.viaIP = first.viaIP)
    (off : host.ontransmit = true → host.targetMAC first.viaIP = none) :
    host.sendIP4 view second = host.sendIP4 view first := by
  unfold sendIP4
  rw [same]
  cases target : host.targetMAC first.viaIP with
  | none => rfl
  | some mac =>
      have silent : ¬host.ontransmit = true := fun on => nomatch (off on).symm.trans target
      dsimp only
      rw [hand, if_neg silent, hand, if_neg silent]

include documented complete in
/-- What becomes of a request, whatever stands behind it. -/
theorem handleEchoRequest_padded : ∃ headerValue, ∀ trailing,
    Icmp.handleEchoRequest view host.table host.self srcIP (u8 ++ trailing) headerOffset =
      if srcIP.isBroadcast || srcIP.isAny then none
      else
        (Route.lookup host.table srcIP none).map fun routingEntry =>
          ⟨host.self, srcIP, routingEntry.gateway, Icmp.ICMP_TYPE_ECHO_REPLY, 0, headerValue,
            u8.drop (headerOffset + Icmp.headerLength) ++ trailing⟩ := by
  obtain ⟨id, seq, reads⟩ := echo_padded documented complete
  refine ⟨Icmp.headerValueEcho id seq, fun trailing => ?_⟩
  unfold Icmp.handleEchoRequest
  rw [(reads trailing).1, (reads trailing).2, data_padded complete]
  cases Route.lookup host.table srcIP none with
  | none => rfl
  | some routingEntry => rfl

include documented complete in
theorem readsEcho_padded (trailing : Bytes) :
    readsEcho view (u8 ++ trailing) headerOffset = true := by
  obtain ⟨id, seq, reads⟩ := echo_padded documented complete
  rw [readsEcho, (reads trailing).1, (reads trailing).2]
  rfl

include documented complete in
/-- A request to which no reply is transmitted is taken the same, whatever stands behind it. -/
theorem request_padded (type : Icmp.getType u8 headerOffset = some Icmp.ICMP_TYPE_ECHO_REQUEST)
    (quiet : host.transmitsReply srcIP = false) (trailing : Bytes) :
    host.icmpReceive view srcIP (u8 ++ trailing) headerOffset =
      host.icmpReceive view srcIP u8 headerOffset := by
  obtain ⟨headerValue, requests⟩ := @handleEchoRequest_padded view documented host srcIP u8
    headerOffset complete
  have plain := requests []
  have echo := readsEcho_padded documented complete []
  rw [List.append_nil] at plain echo
  unfold icmpReceive
  rw [getType_padded complete, if_pos type, if_pos type, requests trailing, plain,
    readsEcho_padded documented complete, echo]
  cases improper : srcIP.isBroadcast || srcIP.isAny with
  | true => rfl
  | false =>
      cases route : Route.lookup host.table srcIP none with
      | none => rfl
      | some routingEntry =>
          have off : host.ontransmit = true →
              host.targetMAC (routingEntry.gateway.getD srcIP) = none := by
            intro on
            rw [Bool.or_eq_false_iff] at improper
            unfold transmitsReply answers at quiet
            rw [improper.1, improper.2, route, on] at quiet
            exact Option.isSome_eq_false_iff.mp quiet |> Option.isNone_iff_eq_none.mp
          dsimp only [Bool.false_eq_true, ↓reduceIte, Option.map_some]
          refine congrArg (·, false) ?_
          exact sendIP4_congr { host with nextId := host.nextId + 1 } rfl off

include documented complete in
/-- A reply that is transmitted has one byte more if the request has. -/
theorem quiet_of_request
    (type : Icmp.getType u8 headerOffset = some Icmp.ICMP_TYPE_ECHO_REQUEST)
    (same : (host.icmpReceive view srcIP (u8 ++ [0]) headerOffset).1.transmitted =
      (host.icmpReceive view srcIP u8 headerOffset).1.transmitted) :
    host.transmitsReply srcIP = false := by
  obtain ⟨headerValue, requests⟩ := @handleEchoRequest_padded view documented host srcIP u8
    headerOffset complete
  have plain := requests []
  rw [List.append_nil, List.append_nil] at plain
  unfold icmpReceive at same
  rw [getType_padded complete, if_pos type, if_pos type, requests [0], plain] at same
  by_contra told
  rw [Bool.not_eq_false] at told
  unfold transmitsReply answers at told
  simp only [Bool.and_eq_true, Bool.not_eq_true', Option.any_eq_true,
    Option.isSome_iff_exists] at told
  obtain ⟨⟨⟨⟨single, known⟩, -⟩, on⟩, routingEntry, route, mac, target⟩ := told
  rw [single, known, route, Bool.or_self, if_neg Bool.false_ne_true, if_neg Bool.false_ne_true,
    Option.map_some, Option.map_some] at same
  dsimp only at same
  obtain ⟨longer, transmitted⟩ := @transmitted_icmpTransmit view host _
    ⟨host.self, srcIP, routingEntry.gateway, Icmp.ICMP_TYPE_ECHO_REPLY, 0, headerValue,
      u8.drop (headerOffset + Icmp.headerLength) ++ [0]⟩ target on
  obtain ⟨shorter, transmitted'⟩ := @transmitted_icmpTransmit view host _
    ⟨host.self, srcIP, routingEntry.gateway, Icmp.ICMP_TYPE_ECHO_REPLY, 0, headerValue,
      u8.drop (headerOffset + Icmp.headerLength)⟩ target on
  rw [transmitted, transmitted'] at same
  have sent := (List.cons.inj (List.append_cancel_left same)).1
  have data := congrArg List.length (Option.some.inj (Prod.mk.inj sent).2)
  rw [List.length_append, List.length_singleton] at data
  exact Nat.succ_ne_self _ data

/-- A ping takes a reply with its data only. -/
theorem accepts_iff {ping : Icmp.Ping} {dataOffset : Nat} (inside : dataOffset ≤ u8.length) :
    ping.accepts u8 dataOffset = true ↔ u8.drop dataOffset = ping.data := by
  have size : (u8.drop dataOffset).length = u8.length - dataOffset := List.length_drop
  unfold Icmp.Ping.accepts
  rw [Bool.and_eq_true, decide_eq_true_iff, List.all_eq_true]
  constructor
  · rintro ⟨length, bytes⟩
    refine List.ext_getElem? fun i => ?_
    rcases Nat.lt_or_ge i ping.data.length with within | beyond
    · have byte := of_decide_eq_true (bytes i (List.mem_range.mpr within))
      rw [List.getElem?_drop, byte]
    · rw [List.getElem?_eq_none (by omega), List.getElem?_eq_none beyond]
  · intro data
    rw [data] at size
    refine ⟨by omega, fun i _ => ?_⟩
    rw [decide_eq_true_iff, ← data, List.getElem?_drop]

include documented complete in
/-- What a reply is for, whatever stands behind it. -/
theorem handleEchoReply_padded (pings : Icmp.Pings Tcp.Interface) : ∃ pingId seq,
    Icmp.getEchoRequestIdentifier view u8 headerOffset = some pingId ∧ ∀ trailing,
      pings.handleEchoReply view srcIP (u8 ++ trailing) headerOffset =
        match pings.listeners.lookup pingId with
        | none => pings
        | some id =>
            if pings.pings[id]?.any fun ping =>
                ping.data = u8.drop (headerOffset + Icmp.headerLength) ++ trailing then
              { pings with replies := pings.replies ++ [⟨id, srcIP, seq⟩] }
            else pings := by
  obtain ⟨pingId, seq, reads⟩ := echo_padded documented complete
  have plain := (reads []).1
  rw [List.append_nil] at plain
  refine ⟨pingId, seq, plain, fun trailing => ?_⟩
  have accepts (ping : Icmp.Ping) :
      ping.accepts (u8 ++ trailing) (headerOffset + Icmp.headerLength) =
        decide (ping.data = u8.drop (headerOffset + Icmp.headerLength) ++ trailing) := by
    have inside : headerOffset + Icmp.headerLength ≤ (u8 ++ trailing).length := by
      rw [List.length_append]
      omega
    rw [Bool.eq_iff_iff, accepts_iff inside, decide_eq_true_iff, data_padded complete, eq_comm]
  unfold Icmp.Pings.handleEchoReply
  rw [(reads trailing).1, (reads trailing).2]
  dsimp only
  cases pings.listeners.lookup pingId with
  | none => rfl
  | some id => simp only [accepts]

include documented complete in
/-- A reply that no ping expects is not reported, whatever stands behind it. -/
theorem unexpected_padded {pings : Icmp.Pings Tcp.Interface} (same : host.pings = pings)
    (unexpected : ¬host.Expects view u8 headerOffset) (trailing : Bytes) :
    pings.handleEchoReply view srcIP (u8 ++ trailing) headerOffset = pings := by
  subst same
  obtain ⟨pingId, seq, identifier, handles⟩ :=
    @handleEchoReply_padded view documented srcIP u8 headerOffset complete host.pings
  rw [handles trailing]
  cases listener : host.pings.listeners.lookup pingId with
  | none => rfl
  | some id =>
      refine if_neg fun accepted => unexpected ?_
      obtain ⟨ping, present, data⟩ := (Option.any_eq_true ..).mp accepted
      exact ⟨pingId, id, ping, identifier, listener, present, trailing,
        (of_decide_eq_true data).symm⟩

include documented complete in
/-- A reply that is expected is reported with the right bytes behind it, and not with one more. -/
theorem unexpected_of_replies
    (same : ∀ trailing,
      (host.pings.handleEchoReply view srcIP (u8 ++ trailing) headerOffset).replies =
        (host.pings.handleEchoReply view srcIP u8 headerOffset).replies) :
    ¬host.Expects view u8 headerOffset := by
  rintro ⟨pingId', id, ping, identifier', listener, present, rest, data⟩
  obtain ⟨pingId, seq, identifier, handles⟩ :=
    @handleEchoReply_padded view documented srcIP u8 headerOffset complete host.pings
  obtain rfl := Option.some.inj (identifier.symm.trans identifier')
  have reported := handles rest
  have unreported := handles (rest ++ [0])
  rw [listener] at reported unreported
  dsimp only at reported unreported
  have matching : (host.pings.pings[id]?.any fun ping =>
      ping.data = u8.drop (headerOffset + Icmp.headerLength) ++ rest) = true := by
    rw [present, data]
    exact decide_eq_true rfl
  have different : ¬(host.pings.pings[id]?.any fun ping =>
      ping.data = u8.drop (headerOffset + Icmp.headerLength) ++ (rest ++ [0])) = true := by
    rw [present, ← List.append_assoc, data]
    intro longer
    exact List.cons_ne_nil 0 [] (List.self_eq_append_right.mp (of_decide_eq_true longer))
  rw [if_pos matching] at reported
  rw [if_neg different] at unreported
  have replies := (same rest).trans (same (rest ++ [0])).symm
  rw [reported, unreported] at replies
  exact List.cons_ne_nil _ [] (List.append_right_eq_self.mp replies)

include documented complete in
/-- What `icmp.receive` does with a reply, whatever stands behind it. -/
theorem icmpReceive_reply (type : Icmp.getType u8 headerOffset = some Icmp.ICMP_TYPE_ECHO_REPLY)
    (trailing : Bytes) : host.icmpReceive view srcIP (u8 ++ trailing) headerOffset =
      ({ host with
        pings := host.pings.handleEchoReply view srcIP (u8 ++ trailing) headerOffset }, false) := by
  have type' := (getType_padded complete trailing).trans type
  have other : ¬Icmp.getType (u8 ++ trailing) headerOffset = some Icmp.ICMP_TYPE_ECHO_REQUEST := by
    rw [type']
    decide
  unfold icmpReceive
  rw [if_neg other, if_pos type', Icmp.Pings.receive, if_pos type',
    readsEcho_padded documented complete]
  rfl

include documented complete in
/-- A message is taken the same, whatever stands behind it, if it is no request with a reply that is
transmitted and no reply that a ping expects. -/
theorem icmpReceive_padded
    (request : Icmp.getType u8 headerOffset = some Icmp.ICMP_TYPE_ECHO_REQUEST →
      host.transmitsReply srcIP = false)
    (reply : Icmp.getType u8 headerOffset = some Icmp.ICMP_TYPE_ECHO_REPLY →
      ¬host.Expects view u8 headerOffset) (trailing : Bytes) :
    host.icmpReceive view srcIP (u8 ++ trailing) headerOffset =
      host.icmpReceive view srcIP u8 headerOffset := by
  by_cases isRequest : Icmp.getType u8 headerOffset = some Icmp.ICMP_TYPE_ECHO_REQUEST
  · exact request_padded documented complete isRequest (request isRequest) trailing
  by_cases isReply : Icmp.getType u8 headerOffset = some Icmp.ICMP_TYPE_ECHO_REPLY
  · have plain := @icmpReceive_reply view documented host srcIP u8 headerOffset complete isReply []
    have unmoved := @unexpected_padded view documented host srcIP u8 headerOffset complete
      host.pings rfl (reply isReply)
    rw [unmoved, List.append_nil] at plain
    rw [icmpReceive_reply documented complete isReply, unmoved, plain]
  · unfold icmpReceive
    rw [getType_padded complete, if_neg isRequest, if_neg isRequest, if_neg isReply, if_neg isReply]

end Icmp

/-! ## TCP -/

end Host

namespace Tcp

/-- A segment says nothing but its header if there is no end behind its data and the socket takes no
data. -/
theorem TCPSocket.inserted_padded_iff {s : TCPSocket} (quiet : s.state ≠ .listen) {first : Segment}
    (nonneg : 0 ≤ first.dataLength) {longer : Bytes → Segment}
    (same : ∀ trailing, first.SameHeader (longer trailing))
    (length : ∀ trailing, (longer trailing).dataLength = first.dataLength + trailing.length) :
    (∀ trailing, s.inserted (longer trailing) = s.inserted first) ↔
      first.hasFIN = false ∧ (s.state.takesData → s.receiveWindowSize = 0) := by
  have longerIff (trailing : Bytes) (some_ : 0 < trailing.length) :=
    inserted_longer_iff (same trailing) quiet some_ (length trailing)
  constructor
  · intro unchanged
    constructor
    · have one := ((longerIff [0] Nat.one_pos).mp (unchanged [0])).2
      cases fin : first.hasFIN with
      | false => rfl
      | true => exact absurd (one fin) (by decide)
    · intro takes
      by_contra isOpen
      -- so many bytes that the last one is the next in the window
      let gap := (s.receiveWindowEdge - seqInc first.seqNumber first.dataLength).toNat
      have size : (List.replicate (gap + 1) (0 : UInt8)).length = gap + 1 := List.length_replicate
      have refused := (((longerIff (List.replicate (gap + 1) 0) (by omega)).mp
        (unchanged _)).1 takes).2
      have last : seqInc (longer (List.replicate (gap + 1) 0)).seqNumber
          ((longer (List.replicate (gap + 1) 0)).dataLength - 1) = s.receiveWindowEdge := by
        have reach : first.dataLength + (gap + 1 : Nat) - 1 = first.dataLength + gap := by omega
        rw [(same _).seqNumber, length, size, reach, ← seqInc_seqInc, seqInc_natCast,
          BitVec.ofNat_toNat, BitVec.setWidth_eq]
        ring
      unfold TCPSocket.acceptsData TCPSocket.receiveWindowIsWithin at refused
      rw [last, length, size, if_neg isOpen] at refused
      have positive : first.dataLength + (gap + 1 : Nat) > 0 := by omega
      rw [decide_eq_true positive, Bool.true_and] at refused
      dsimp only at refused
      split at refused
      · next below => simp [below] at refused
      · simp at refused
  · rintro ⟨more, closed⟩ trailing
    refine (inserted_eq_iff (same trailing) quiet).mpr ⟨?_, ?_⟩
    · unfold insertedData
      cases takes : s.state.takesData with
      | false => rfl
      | true =>
          have refused (segment : Segment) : s.acceptsData segment = false := by
            rw [acceptsData, receiveWindowIsWithin, if_pos (closed takes), Bool.and_false]
          rw [refused, refused]
          rfl
    · rw [insertedEnd, hasFIN_congr (same trailing), insertedEnd, more]
      rfl

/-- Two packets with one destination insert the same if their segments do. -/
theorem Stack.inserted_eq_iff {stack : Stack} {intf : Interface} {srcIP : IP4Address}
    {srcPort destPort : BitVec 16} {first second : Segment} :
    stack.inserted ⟨intf, srcIP, srcPort, destPort, second⟩ =
        stack.inserted ⟨intf, srcIP, srcPort, destPort, first⟩ ↔
      ∀ id s, stack.receiver ⟨intf, srcIP, srcPort, destPort, first⟩ = some id →
        stack.sockets[id]? = some s → s.inserted second = s.inserted first := by
  constructor
  · intro equal id s goes present
    have goes' : stack.receiver ⟨intf, srcIP, srcPort, destPort, second⟩ = some id := goes
    exact inserted_of_receiver goes goes' present equal
  · intro equal
    have receiver : stack.receiver ⟨intf, srcIP, srcPort, destPort, second⟩ =
        stack.receiver ⟨intf, srcIP, srcPort, destPort, first⟩ := rfl
    unfold inserted
    rw [receiver]
    cases goes : stack.receiver ⟨intf, srcIP, srcPort, destPort, first⟩ with
    | none => rfl
    | some id =>
        dsimp only
        cases present : stack.sockets[id]? with
        | none => rfl
        | some s =>
            dsimp only
            rw [equal id s goes present]

end Tcp

namespace Host

section Tcp

variable {view : U8View} (documented : view.BigEndian) {now : Nat} {host : Host}
  {payload : Ip4.Payload}
  (header : Transmit.tcpHeaderLength ≤ Tcp.getDataOffset payload.u8 payload.nextOffset)
  (fits : payload.nextOffset + Tcp.getDataOffset payload.u8 payload.nextOffset ≤ payload.u8.length)

include documented header fits in
/-- What stands behind a segment is more of its data. -/
theorem packetOf_padded : ∃ srcPort destPort segment,
    host.packetOf view payload = some ⟨host.self, payload.srcIP, srcPort, destPort, segment⟩ ∧
      0 ≤ segment.dataLength ∧ ∀ trailing, ∃ longer,
        host.packetOf view { payload with u8 := payload.u8 ++ trailing } =
            some ⟨host.self, payload.srcIP, srcPort, destPort, longer⟩ ∧
          segment.SameHeader longer ∧ longer.dataLength = segment.dataLength + trailing.length := by
  unfold Transmit.tcpHeaderLength at header
  have room : payload.nextOffset + 20 ≤ payload.u8.length := by omega
  obtain ⟨srcPort, source⟩ :=
    @getUint16BE_inside payload.u8 view documented payload.nextOffset (by omega)
  obtain ⟨destPort, destination⟩ :=
    @getUint16BE_inside payload.u8 view documented (payload.nextOffset + 2) (by omega)
  obtain ⟨seqNumber, seq⟩ :=
    @getUint32BE_inside payload.u8 view documented (payload.nextOffset + 4) (by omega)
  obtain ⟨ackNumber, ack⟩ :=
    @getUint32BE_inside payload.u8 view documented (payload.nextOffset + 8) (by omega)
  obtain ⟨windowSize, window⟩ :=
    @getUint16BE_inside payload.u8 view documented (payload.nextOffset + 14) (by omega)
  have dataOffset (trailing : Bytes) :
      Tcp.getDataOffset (payload.u8 ++ trailing) payload.nextOffset =
        Tcp.getDataOffset payload.u8 payload.nextOffset := by
    rw [Tcp.getDataOffset, byteAt_inside trailing (by omega), Tcp.getDataOffset]
  have flags (trailing : Bytes) : Tcp.getFlags (payload.u8 ++ trailing) payload.nextOffset =
      Tcp.getFlags payload.u8 payload.nextOffset := by
    rw [Tcp.getFlags, byteAt_inside trailing (by omega), Tcp.getFlags]
  have reads (trailing : Bytes) : ∃ segment,
      host.packetOf view { payload with u8 := payload.u8 ++ trailing } =
          some ⟨host.self, payload.srcIP, srcPort, destPort, segment⟩ ∧
        segment.flags = Tcp.getFlags payload.u8 payload.nextOffset ∧
        segment.seqNumber = seqNumber ∧ segment.ackNumber = ackNumber ∧
        segment.windowSize = windowSize ∧
        segment.dataLength = (payload.u8 ++ trailing).length -
          ((payload.nextOffset + Tcp.getDataOffset payload.u8 payload.nextOffset : Nat) : Int) := by
    unfold packetOf Tcp.readSegment Tcp.getSrcPort Tcp.getDestPort Tcp.getSeqNumber
      Tcp.getAckNumber Tcp.getWindowSize
    rw [source trailing, destination trailing, seq trailing, ack trailing, window trailing]
    exact ⟨_, rfl, flags trailing, rfl, rfl, rfl, by dsimp only; rw [dataOffset trailing]⟩
  obtain ⟨segment, plain, flags', seq', ack', window', length⟩ := reads []
  rw [List.append_nil] at plain length
  refine ⟨srcPort, destPort, segment, plain, by omega, fun trailing => ?_⟩
  obtain ⟨longer, padded, flags'', seq'', ack'', window'', length'⟩ := reads trailing
  refine ⟨longer, padded, ⟨flags''.trans flags'.symm, seq''.trans seq'.symm, ack''.trans ack'.symm,
    window''.trans window'.symm⟩, ?_⟩
  rw [length', length, List.length_append]
  omega

/-- A segment that can be read goes to the sockets. -/
theorem tcpReceive_of_packetOf {packet : Tcp.Packet}
    (reads : host.packetOf view payload = some packet) :
    host.tcpReceive view now payload.srcIP payload.u8 payload.nextOffset =
      ({ host with tcp := host.tcp.receive (host.setting now) packet }, false) := by
  unfold packetOf at reads
  split at reads
  · next source destination read =>
      cases reads
      unfold tcpReceive
      rw [source, destination, read]
  · cases reads

include documented header fits in
/-- **What stands behind a segment is inserted** unless nothing of the segment is. -/
theorem segment_padded_iff (protocol : payload.protocolId = some Transmit.PROTOCOL_TCP) :
    (∀ trailing, host.insertedBy view { payload with u8 := payload.u8 ++ trailing } =
        host.insertedBy view payload) ↔
      ∀ packet id s, host.packetOf view payload = some packet →
        host.tcp.receiver packet = some id → host.tcp.sockets[id]? = some s → s.state ≠ .listen →
          packet.segment.hasFIN = false ∧ (s.state.takesData → s.receiveWindowSize = 0) := by
  obtain ⟨srcPort, destPort, segment, plain, nonneg, padded⟩ :=
    @packetOf_padded view documented host payload header fits
  choose longer reads same length using padded
  have inserts (trailing : Bytes) :
      host.insertedBy view { payload with u8 := payload.u8 ++ trailing } =
          host.insertedBy view payload ↔
        ∀ id s, host.tcp.receiver ⟨host.self, payload.srcIP, srcPort, destPort, segment⟩ = some id →
          host.tcp.sockets[id]? = some s → s.inserted (longer trailing) = s.inserted segment := by
    rw [insertedBy, if_pos protocol, insertedBy, if_pos protocol, reads trailing, plain]
    exact Tcp.Stack.inserted_eq_iff
  constructor
  · intro unchanged packet id s read goes present quiet
    obtain rfl := Option.some.inj (plain.symm.trans read)
    exact (Tcp.TCPSocket.inserted_padded_iff quiet nonneg same length).mp fun trailing =>
      (inserts trailing).mp (unchanged trailing) id s goes present
  · intro overlooked trailing
    refine (inserts trailing).mpr fun id s goes present => ?_
    by_cases listening : s.state = .listen
    · rw [Tcp.TCPSocket.inserted, if_pos listening, Tcp.TCPSocket.inserted, if_pos listening]
    · have nothing := overlooked _ id s plain goes present listening
      exact (Tcp.TCPSocket.inserted_padded_iff listening nonneg same length).mpr nothing trailing

include documented header fits in
/-- Segments that insert the same are taken the same. -/
theorem tcpReceive_padded (protocol : payload.protocolId = some Transmit.PROTOCOL_TCP)
    (trailing : Bytes)
    (unchanged : host.insertedBy view { payload with u8 := payload.u8 ++ trailing } =
      host.insertedBy view payload) :
    host.tcpReceive view now payload.srcIP (payload.u8 ++ trailing) payload.nextOffset =
      host.tcpReceive view now payload.srcIP payload.u8 payload.nextOffset := by
  obtain ⟨srcPort, destPort, segment, plain, -, padded⟩ :=
    @packetOf_padded view documented host payload header fits
  obtain ⟨longer, reads, same, -⟩ := padded trailing
  rw [insertedBy, if_pos protocol, insertedBy, if_pos protocol, reads, plain] at unchanged
  have receives := @tcpReceive_of_packetOf view now host
    { payload with u8 := payload.u8 ++ trailing } _ reads
  dsimp only at receives
  rw [receives, tcpReceive_of_packetOf plain,
    Tcp.Stack.receive_congr (host.setting now) same unchanged]

end Tcp

/-! ## All protocols -/

section Packet

variable {view : U8View} (documented : view.BigEndian) {now : Nat} {host : Host} {frame : Ip4.Frame}
  (carries : host.Carries frame)

include documented carries in
/-- A packet that is overlooked is taken the same, whatever stands behind it. -/
theorem Carries.ip4receive_padded (whole : frame.isWhole)
    (overlooks : host.OverlooksPayload view frame.payload) (trailing : Bytes) :
    host.ip4receive view now { frame.payload with u8 := frame.u8 ++ trailing } =
        host.ip4receive view now frame.payload ∧
      host.insertedBy view { frame.payload with u8 := frame.u8 ++ trailing } =
        host.insertedBy view frame.payload := by
  have inserted : host.insertedBy view { frame.payload with u8 := frame.u8 ++ trailing } =
      host.insertedBy view frame.payload := by
    by_cases tcp : frame.payload.protocolId = some Transmit.PROTOCOL_TCP
    · obtain ⟨header, fits⟩ := carries.tcp whole tcp
      exact (segment_padded_iff documented header fits tcp).mpr (overlooks.segment tcp) trailing
    · rw [insertedBy, if_neg tcp, insertedBy, if_neg tcp]
  refine ⟨?_, inserted⟩
  unfold ip4receive
  dsimp only
  by_cases icmp : frame.payload.protocolId = some Transmit.PROTOCOL_ICMP
  · rw [if_pos icmp, if_pos icmp]
    exact icmpReceive_padded documented (carries.icmp whole icmp) (overlooks.request icmp)
      (overlooks.reply icmp) trailing
  rw [if_neg icmp, if_neg icmp]
  by_cases tcp : frame.payload.protocolId = some Transmit.PROTOCOL_TCP
  · obtain ⟨header, fits⟩ := carries.tcp whole tcp
    rw [if_pos tcp, if_pos tcp]
    exact tcpReceive_padded documented header fits tcp trailing inserted
  rw [if_neg tcp, if_neg tcp]
  by_cases udp : frame.payload.protocolId = some Transmit.PROTOCOL_UDP
  · have unheard (trailing : Bytes) := @udpReceive_padded host frame.getSrcIP frame.u8
      frame.nextOffset (carries.udp whole udp) (overlooks.datagram udp) trailing
    have plain := unheard []
    rw [List.append_nil] at plain
    rw [if_pos udp, if_pos udp]
    exact congrArg (·, false) ((unheard trailing).trans plain.symm)
  · rw [if_neg udp, if_neg udp]

include documented carries in
/-- **A frame that is overlooked** leaves the host in the same state, whatever stands behind it. -/
theorem Carries.receive_overlooked (overlooks : host.Overlooks view now frame) (trailing : Bytes) :
    host.receive view now (frame.padded trailing).u8 = host.receive view now frame.u8 ∧
      host.inserted view now (frame.padded trailing) = host.inserted view now frame ∧
      host.extent now (frame.padded trailing) = host.extent now frame := by
  unfold Overlooks at overlooks
  unfold extent
  rw [frame.isWhole_padded]
  cases whole : frame.isWhole with
  | true =>
      rw [whole, if_pos rfl] at overlooks
      obtain ⟨received, inserted⟩ :=
        @Carries.ip4receive_padded view documented now host frame carries whole overlooks trailing
      have plain := @Carries.receive_whole view documented now host frame carries [] whole
      have plain' := @inserted_whole view now host frame [] whole
      rw [frame.padded_nil, List.append_nil] at plain plain'
      rw [carries.receive_whole documented trailing whole, inserted_whole trailing whole, received,
        inserted, plain, plain']
      exact ⟨rfl, rfl, rfl⟩
  | false =>
      rw [whole, if_neg Bool.false_ne_true] at overlooks
      obtain ⟨received, inserted⟩ := carries.receive_fragment documented trailing whole overlooks
      obtain ⟨plain, plain'⟩ := carries.receive_fragment documented [] whole overlooks
      rw [frame.padded_nil] at plain plain'
      rw [received, plain, inserted, plain', if_neg Bool.false_ne_true, if_neg Bool.false_ne_true,
        overlooks.extent_padded frame trailing]
      have nothing := overlooks.extent_padded frame []
      rw [frame.padded_nil] at nothing
      exact ⟨rfl, rfl, nothing.symm⟩

include documented carries in
/-- A packet whose data makes no difference is overlooked. -/
theorem Carries.overlooksPayload (whole : frame.isWhole)
    (same : ∀ trailing, host.SameDelivery view now frame (frame.padded trailing)) :
    host.OverlooksPayload view frame.payload := by
  have received (trailing : Bytes) :=
    @Carries.receive_whole view documented now host frame carries trailing whole
  have plain := received []
  rw [frame.padded_nil, List.append_nil] at plain
  constructor
  · intro icmp isRequest
    have transmitted := (same [0]).transmitted
    rw [received, plain, ip4receive, if_pos icmp, ip4receive, if_pos icmp] at transmitted
    exact quiet_of_request documented (carries.icmp whole icmp) isRequest transmitted
  · intro icmp isReply
    have complete := carries.icmp whole icmp
    have reply (trailing : Bytes) := @icmpReceive_reply view documented host frame.getSrcIP frame.u8
      frame.nextOffset complete isReply trailing
    have reply' := reply []
    rw [List.append_nil] at reply'
    refine @unexpected_of_replies view documented host frame.getSrcIP frame.u8 frame.nextOffset
      complete fun trailing => ?_
    have replies := (same trailing).replies
    rw [received, plain, ip4receive, if_pos icmp, ip4receive, if_pos icmp] at replies
    have replies' : (host.icmpReceive view frame.getSrcIP (frame.u8 ++ trailing)
        frame.nextOffset).1.pings.replies =
          (host.icmpReceive view frame.getSrcIP frame.u8 frame.nextOffset).1.pings.replies := replies
    rw [reply trailing, reply'] at replies'
    exact replies'
  · intro tcp
    obtain ⟨header, fits⟩ := carries.tcp whole tcp
    refine (segment_padded_iff documented header fits tcp).mp fun trailing => ?_
    have inserted := (same trailing).inserted
    have plain' := @inserted_whole view now host frame [] whole
    rw [frame.padded_nil, List.append_nil] at plain'
    rw [inserted_whole trailing whole, plain'] at inserted
    exact inserted
  · intro udp
    have messages := (same [0]).messages
    have other : ¬frame.payload.protocolId = some Transmit.PROTOCOL_ICMP := by
      rw [udp]
      decide
    have other' : ¬frame.payload.protocolId = some Transmit.PROTOCOL_TCP := by
      rw [udp]
      decide
    rw [received, plain, ip4receive, if_neg other, if_neg other', if_pos udp, ip4receive,
      if_neg other, if_neg other', if_pos udp] at messages
    exact silent_of_udpReceive (carries.udp whole udp) messages

end Packet

/-- **Bytes behind a packet make no difference exactly if the packet is overlooked.** For every valid
packet, what is delivered is the same whatever number of bytes of whatever content follow it, if and
only if the stack takes none of the data of the packet. -/
theorem padding_unseen_iff (view : U8View) (documented : view.BigEndian) (now : Nat) (host : Host)
    (frame : Ip4.Frame) (carries : host.Carries frame) :
    (∀ trailing, host.SameDelivery view now frame (frame.padded trailing)) ↔
      host.Overlooks view now frame := by
  constructor
  · intro same
    unfold Overlooks
    cases whole : frame.isWhole with
    | true => exact carries.overlooksPayload documented whole same
    | false =>
        refine (Ip4.Fragments.extent_padded_iff frame carries.fits).mp fun trailing => ?_
        have extents := (same trailing).extent
        unfold extent at extents
        rw [frame.isWhole_padded, whole, if_neg Bool.false_ne_true,
          if_neg Bool.false_ne_true] at extents
        exact extents
  · intro overlooks trailing
    obtain ⟨received, inserted, extents⟩ := carries.receive_overlooked documented overlooks trailing
    exact
      { messages := by rw [received]
        inserted
        transmitted := by rw [received]
        replies := by rw [received]
        extent := extents }

/-- A host of a local network with one UDP socket, bound to port 53. -/
def nameServer (listens : Bool) : Host where
  self := 0
  intf := ⟨⟨2, 0, 0, 0, 0, 1⟩, ⟨10, 0, 0, 1⟩, 0, ∅⟩
  arp := true
  ontransmit := true
  fragments := ∅
  transmitted := []
  table := []
  nextId := 1
  tcp := {}
  udp := { sockets := [⟨none, 53, false⟩], ports := { allocated := 1, map := some (AList.singleton 53 0) } }
  onmessage := fun _ => listens
  messages := []
  pings := {}

/-- A datagram with three bytes for port 53, with the headers that it has on an Ethernet. -/
def threeBytes : Ip4.Frame where
  u8 := [2, 0, 0, 0, 0, 1, 2, 0, 0, 0, 0, 2, 0x08, 0x00,
    0x45, 0, 0, 31, 0, 1, 0, 0, 64, 0x11, 0x66, 0xcb, 10, 0, 0, 2, 10, 0, 0, 1,
    0x9c, 0x40, 0, 53, 0, 11, 0, 0, 1, 2, 3]
  headerOffset := 14
  header_le := by decide

theorem carries_threeBytes (listens : Bool) : (nameServer listens).Carries threeBytes where
  place := rfl
  etherType := rfl
  version := by decide
  headerLength := by decide
  totalLength := by decide
  fits := by decide
  icmp := by decide
  tcp := by decide
  udp := by decide

/-- Without a callback the datagram is overlooked. -/
theorem padding_unseen_iff_silent :
    (nameServer false).Carries threeBytes ∧ ∀ trailing,
      (nameServer false).SameDelivery .byteByByte 0 threeBytes (threeBytes.padded trailing) := by
  refine ⟨carries_threeBytes false, ?_⟩
  refine (padding_unseen_iff .byteByByte U8View.byteByByte_bigEndian 0 (nameServer false) threeBytes
    (carries_threeBytes false)).mpr ?_
  refine (if_pos (by decide)).mpr ?_
  exact
    { request := fun icmp => absurd icmp (by decide)
      reply := fun icmp => absurd icmp (by decide)
      segment := fun tcp => absurd tcp (by decide)
      datagram := fun _ _ _ => rfl }

/-- The callback gets the padding of a frame of the least size as data, although the checksum of the
header is right. -/
theorem padding_delivered : (nameServer true).Carries threeBytes ∧
    Checksum.checksum threeBytes.u8 14 20 0 = 0 ∧
    ¬(nameServer true).SameDelivery .byteByByte 0 threeBytes
      (threeBytes.padded (List.replicate 15 0)) := by
  refine ⟨carries_threeBytes true, by decide, fun same => ?_⟩
  exact absurd same.messages (by decide)

end Host

end JsOS.Net
