import JsOS.Net.Host
import JsOS.Net.Ip4.Taking
import JsOS.Net.Tcp.Ignoring

/-! # Malformed headers

A received buffer may end anywhere, and the lengths in its headers may be any. Nothing compares them
with one another or with the buffer but `addFragment`, which asks for a byte behind the header. So a
packet with a malformed header is taken as any other; it changes nothing exactly if the stack would
make nothing of it anyway, and the buffer is long enough for what is read through `u8-view`
(`headers_inert_iff`).
-/

namespace JsOS.Net

open Tcp (Bytes)
open Transmit (PROTOCOL_ICMP PROTOCOL_TCP PROTOCOL_UDP ethernetLength)

namespace Ip4

/-- The IPv4 header is shorter than its fields, or longer than the frame. -/
def MalformedHeader (u8 : Bytes) (headerOffset : Nat) : Prop :=
  getHeaderLength u8 headerOffset < 20 ∨
    u8.length < headerOffset + getHeaderLength u8 headerOffset

/-- The header of the protocol does not fit in the packet, or ends before its fields do. -/
inductive Payload.Malformed (payload : Payload) : Prop where
  | icmp (isICMP : payload.protocolId = some PROTOCOL_ICMP)
      (cut : payload.u8.length < payload.nextOffset + Icmp.headerLength)
  | tcp (isTCP : payload.protocolId = some PROTOCOL_TCP)
      (wrong : Tcp.getDataOffset payload.u8 payload.nextOffset < Transmit.tcpHeaderLength ∨
        payload.u8.length <
          payload.nextOffset + Tcp.getDataOffset payload.u8 payload.nextOffset)
  | udp (isUDP : payload.protocolId = some PROTOCOL_UDP)
      (cut : payload.u8.length < payload.nextOffset + Transmit.udpHeaderLength)

end Ip4

namespace Host

section Statement

variable (view : U8View) (now : Nat) (host : Host)

/-- No socket, connection or ping has changed its state, and nothing has been transmitted or
delivered. -/
structure Inert (after : Host) : Prop where
  tcp : after.tcp = host.tcp
  udp : after.udp = host.udp
  pings : after.pings = host.pings
  transmitted : after.transmitted = host.transmitted
  messages : after.messages = host.messages

/-- No fragment queue has changed its state. -/
def SameQueues (after : Host) : Prop :=
  ∀ hash, after.fragments.lookup hash = host.fragments.lookup hash

/-- The packet in the frame is no fragment. -/
def Unfragmented (u8 : Bytes) (headerOffset : Nat) : Prop :=
  ∃ fragmentData, Ip4.getFragmentationData view u8 headerOffset = some fragmentData ∧
    Ip4.isWhole fragmentData = true

/-- **Malformed headers are inert.** Receiving the frame does not throw. If its IPv4 header is
malformed, nothing changes. Neither does it if the packet that is handed to its protocol has a
malformed header, but for the queue of the fragments that this packet has been made of. -/
structure HeadersInert (u8 : Bytes) : Prop where
  returns : (host.receive view now u8).2 = false
  header : getEtherType u8 host.intf.bufferDataOffset = 0x0800 →
    Ip4.MalformedHeader u8 (host.intf.bufferDataOffset + ethernetLength) →
      host.Inert (host.receive view now u8).1 ∧ host.SameQueues (host.receive view now u8).1
  payload : getEtherType u8 host.intf.bufferDataOffset = 0x0800 →
    ∀ payload : Ip4.Payload,
      (Ip4.receive view host.fragments now u8
        (host.intf.bufferDataOffset + ethernetLength)).2 = .ok (some payload) →
      payload.Malformed → host.Inert (host.receive view now u8).1 ∧
        (Unfragmented view u8 (host.intf.bufferDataOffset + ethernetLength) →
          host.SameQueues (host.receive view now u8).1)

/-! ## What is read and what is ignored -/

/-- **The stack can read what it looks at** in a packet: the identifier and the sequence number of
an echo reply and of a request that is answered, the ports of a segment, and the other fields of a
segment for which there is a socket. -/
structure Reads (payload : Ip4.Payload) : Prop where
  request : payload.protocolId = some PROTOCOL_ICMP →
    Icmp.getType payload.u8 payload.nextOffset = some Icmp.ICMP_TYPE_ECHO_REQUEST →
      host.answers payload.srcIP = true → readsEcho view payload.u8 payload.nextOffset = true
  reply : payload.protocolId = some PROTOCOL_ICMP →
    Icmp.getType payload.u8 payload.nextOffset = some Icmp.ICMP_TYPE_ECHO_REPLY →
      readsEcho view payload.u8 payload.nextOffset = true
  ports : payload.protocolId = some PROTOCOL_TCP → ∃ srcPort destPort,
    Tcp.getSrcPort view payload.u8 payload.nextOffset = some srcPort ∧
      Tcp.getDestPort view payload.u8 payload.nextOffset = some destPort ∧
      (host.tcp.destination ⟨host.self, payload.srcIP, srcPort, destPort, Tcp.unread⟩ ≠ none →
        Tcp.readSegment view payload.u8 payload.nextOffset ≠ none)

/-- The reply has the identifier and the data of a ping that listens. -/
def AwaitsReply (u8 : Bytes) (headerOffset : Nat) : Prop :=
  ∃ pingId id, Icmp.getEchoRequestIdentifier view u8 headerOffset = some pingId ∧
    host.pings.listeners.lookup pingId = some id ∧
    (host.pings.pings[id]?.any fun ping =>
      ping.accepts u8 (headerOffset + Icmp.headerLength)) = true

/-- **The stack makes nothing of a packet**: a request is not answered or nothing can be
transmitted, no ping waits for the reply, the TCP sockets ignore the segment, and there is no
callback for the datagram. -/
structure IgnoresPayload (payload : Ip4.Payload) : Prop where
  request : payload.protocolId = some PROTOCOL_ICMP →
    Icmp.getType payload.u8 payload.nextOffset = some Icmp.ICMP_TYPE_ECHO_REQUEST →
      host.answers payload.srcIP = true → host.ontransmit = false
  reply : payload.protocolId = some PROTOCOL_ICMP →
    Icmp.getType payload.u8 payload.nextOffset = some Icmp.ICMP_TYPE_ECHO_REPLY →
      ¬host.AwaitsReply view payload.u8 payload.nextOffset
  segment : payload.protocolId = some PROTOCOL_TCP → ∀ srcPort destPort segment,
    Tcp.getSrcPort view payload.u8 payload.nextOffset = some srcPort →
      Tcp.getDestPort view payload.u8 payload.nextOffset = some destPort →
      Tcp.readSegment view payload.u8 payload.nextOffset = some segment →
        host.tcp.Ignores ⟨host.self, payload.srcIP, srcPort, destPort, segment⟩
  datagram : payload.protocolId = some PROTOCOL_UDP → ∀ socket,
    host.udp.lookupReceive (Udp.getDestPort payload.u8 payload.nextOffset) = some socket →
      host.onmessage socket = false

/-- A packet is read without an exception, and ignored if one of its headers is malformed. -/
def Withstands (malformed : Prop) (payload : Ip4.Payload) : Prop :=
  host.Reads view payload ∧ (malformed ∨ payload.Malformed → host.IgnoresPayload view payload)

/-- A fragment with a malformed header is not stored or nothing new, and any other completes a
datagram only if no fragment is beyond its end, and one that is withstood. -/
def WithstandsFragment (u8 : Bytes) (headerOffset : Nat) (piece : Ip4.Piece) : Prop :=
  (Ip4.MalformedHeader u8 headerOffset → host.fragments.Repeats now piece) ∧
    ∀ full, host.fragments.Completes now piece full → full.Fits ∧
      ∀ u8asm, full.assemble = .ok u8asm →
        host.Withstands view False (Ip4.reassembled u8 headerOffset u8asm)

/-- A packet in a frame is withstood, as a whole datagram or as a part of one. -/
def WithstandsIP4 (u8 : Bytes) (headerOffset : Nat) : Prop :=
  ∃ fragmentData, Ip4.getFragmentationData view u8 headerOffset = some fragmentData ∧
    if Ip4.isWhole fragmentData then
      host.Withstands view (Ip4.MalformedHeader u8 headerOffset)
        (Ip4.handleReceive u8 headerOffset)
    else ∃ packetId, Ip4.getIdentification view u8 headerOffset = some packetId ∧
      host.WithstandsFragment view now u8 headerOffset
        (Ip4.pieceOf u8 headerOffset (Ip4.fragmentationDataOffset fragmentData)
          (Ip4.fragmentationDataIsMoreFragments fragmentData) packetId)

/-- **A frame is withstood** if its ARP operation can be read, or its packet is withstood. -/
structure WithstandsFrame (u8 : Bytes) : Prop where
  arp : getEtherType u8 host.intf.bufferDataOffset = 0x0806 → host.arp = true →
    Arp.getOperation view u8 (host.intf.bufferDataOffset + ethernetLength) ≠ none
  ip4 : getEtherType u8 host.intf.bufferDataOffset = 0x0800 →
    host.WithstandsIP4 view now u8 (host.intf.bufferDataOffset + ethernetLength)

end Statement

variable {view : U8View} {now : Nat} {host : Host} {srcIP : IP4Address} {u8 : Bytes}
  {headerOffset : Nat}

theorem Inert.refl (host : Host) : host.Inert host := ⟨rfl, rfl, rfl, rfl, rfl⟩

/-! ## ICMP -/

/-- Whatever is transmitted, it is seen if there is someone to transmit it. -/
theorem inert_icmpTransmit_iff (reply : Icmp.Transmit Tcp.Interface) :
    host.Inert (host.icmpTransmit view reply) ↔ host.ontransmit = false := by
  have hands : ∃ nextId u8headers u8data, host.icmpTransmit view reply =
      { host with nextId }.hand u8headers u8data := by
    unfold icmpTransmit sendIP4
    dsimp only
    split
    · exact ⟨_, _, _, rfl⟩
    · exact ⟨_, _, _, rfl⟩
  obtain ⟨nextId, u8headers, u8data, handed⟩ := hands
  rw [handed, hand]
  cases on : host.ontransmit with
  | false => exact iff_of_true ⟨rfl, rfl, rfl, rfl, rfl⟩ rfl
  | true =>
      refine iff_of_false (fun inert => ?_) nofun
      exact List.cons_ne_nil _ [] (List.append_right_eq_self.mp inert.transmitted)

/-- A request is answered if there is a route for the answer and the request can be read. -/
theorem handleEchoRequest_eq_none_iff :
    Icmp.handleEchoRequest view host.table host.self srcIP u8 headerOffset = none ↔
      (host.answers srcIP && readsEcho view u8 headerOffset) = false := by
  unfold Icmp.handleEchoRequest answers readsEcho
  cases single : srcIP.isBroadcast with
  | true => exact iff_of_true rfl rfl
  | false =>
      cases known : srcIP.isAny with
      | true => exact iff_of_true rfl rfl
      | false =>
          cases Route.lookup host.table srcIP none with
          | none => exact iff_of_true rfl rfl
          | some routingEntry =>
              cases Icmp.getEchoRequestIdentifier view u8 headerOffset with
              | none => exact iff_of_true rfl rfl
              | some id =>
                  cases Icmp.getEchoRequestSequence view u8 headerOffset with
                  | none => exact iff_of_true rfl rfl
                  | some seq => exact iff_of_false nofun nofun

/-- What becomes of a request. -/
theorem icmpReceive_request
    (type : Icmp.getType u8 headerOffset = some Icmp.ICMP_TYPE_ECHO_REQUEST) :
    ((host.icmpReceive view srcIP u8 headerOffset).2 = false ↔
        (host.answers srcIP = true → readsEcho view u8 headerOffset = true)) ∧
      ((host.answers srcIP = true → readsEcho view u8 headerOffset = true) →
        (host.Inert (host.icmpReceive view srcIP u8 headerOffset).1 ↔
          (host.answers srcIP = true → host.ontransmit = false))) := by
  have silent := @handleEchoRequest_eq_none_iff view host srcIP u8 headerOffset
  unfold icmpReceive
  rw [if_pos type]
  cases request : Icmp.handleEchoRequest view host.table host.self srcIP u8 headerOffset with
  | none =>
      have unanswered := silent.mp request
      dsimp only
      cases answers : host.answers srcIP with
      | false => exact ⟨iff_of_true rfl nofun, fun _ => iff_of_true (.refl host) nofun⟩
      | true =>
          rw [answers, Bool.true_and] at unanswered
          rw [unanswered]
          exact ⟨iff_of_false nofun fun reads => (nomatch reads rfl),
            fun reads => (nomatch reads rfl)⟩
  | some reply =>
      have answered : (host.answers srcIP && readsEcho view u8 headerOffset) = true := by
        rw [← Bool.not_eq_false, ← silent, request]
        exact Option.some_ne_none reply
      rw [Bool.and_eq_true] at answered
      dsimp only
      rw [inert_icmpTransmit_iff, answered.1, answered.2]
      exact ⟨iff_of_true rfl fun _ => rfl, fun _ => ⟨fun off _ => off, fun off => off rfl⟩⟩

/-- What becomes of a reply that can be read. -/
theorem inert_reply_iff (type : Icmp.getType u8 headerOffset = some Icmp.ICMP_TYPE_ECHO_REPLY)
    (reads : readsEcho view u8 headerOffset = true) :
    host.pings.receive view srcIP u8 headerOffset = host.pings ↔
      ¬host.AwaitsReply view u8 headerOffset := by
  unfold readsEcho at reads
  rw [Bool.and_eq_true] at reads
  obtain ⟨pingId, identifier⟩ := Option.isSome_iff_exists.mp reads.1
  obtain ⟨seq, sequence⟩ := Option.isSome_iff_exists.mp reads.2
  unfold Icmp.Pings.receive Icmp.Pings.handleEchoReply AwaitsReply
  rw [if_pos type, identifier, sequence]
  dsimp only
  cases listener : host.pings.listeners.lookup pingId with
  | none =>
      refine iff_of_true rfl ?_
      rintro ⟨_, id, ⟨⟩, found, -⟩
      rw [listener] at found
      cases found
  | some id =>
      dsimp only
      split
      · next accepts =>
          refine iff_of_false (fun same => ?_) fun silent =>
            silent ⟨pingId, id, rfl, listener, accepts⟩
          have replies := congrArg Icmp.Pings.replies same
          exact List.cons_ne_nil _ [] (List.append_right_eq_self.mp replies)
      · next rejects =>
          refine iff_of_true rfl ?_
          rintro ⟨_, other, ⟨⟩, found, accepts⟩
          rw [listener] at found
          cases found
          exact rejects accepts

/-- What becomes of a reply. -/
theorem icmpReceive_of_reply
    (type : Icmp.getType u8 headerOffset = some Icmp.ICMP_TYPE_ECHO_REPLY) :
    host.icmpReceive view srcIP u8 headerOffset =
      ({ host with pings := host.pings.receive view srcIP u8 headerOffset },
        !readsEcho view u8 headerOffset) := by
  have other : ¬Icmp.getType u8 headerOffset = some Icmp.ICMP_TYPE_ECHO_REQUEST := by
    rw [type]
    decide
  unfold icmpReceive
  rw [if_neg other, if_pos type]

/-! ## TCP and UDP -/

/-- What becomes of a segment whose ports are read. -/
theorem tcpReceive_of_ports {srcPort destPort : BitVec 16}
    (source : Tcp.getSrcPort view u8 headerOffset = some srcPort)
    (dest : Tcp.getDestPort view u8 headerOffset = some destPort) :
    host.tcpReceive view now srcIP u8 headerOffset =
      match Tcp.readSegment view u8 headerOffset with
      | some segment =>
          ({ host with
            tcp := host.tcp.receive (host.setting now)
              ⟨host.self, srcIP, srcPort, destPort, segment⟩ }, false)
      | none =>
          match host.tcp.destination ⟨host.self, srcIP, srcPort, destPort, Tcp.unread⟩ with
          | none => (host, false)
          | some id =>
              ({ host with tcp := host.tcp.modify id fun s => s.bindInterface host.self },
                true) := by
  unfold tcpReceive
  generalize Tcp.getSrcPort view u8 headerOffset = first at source ⊢
  generalize Tcp.getDestPort view u8 headerOffset = second at dest ⊢
  cases source
  cases dest
  rfl

/-- A callback is seen. -/
theorem inert_udpReceive_iff : host.Inert (host.udpReceive srcIP u8 headerOffset) ↔
    ∀ socket, host.udp.lookupReceive (Udp.getDestPort u8 headerOffset) = some socket →
      host.onmessage socket = false := by
  unfold udpReceive
  cases bound : host.udp.lookupReceive (Udp.getDestPort u8 headerOffset) with
  | none => exact iff_of_true (.refl host) nofun
  | some socket =>
      dsimp only
      cases listens : host.onmessage socket with
      | false =>
          refine iff_of_true (.refl host) ?_
          rintro _ ⟨⟩
          exact listens
      | true =>
          refine iff_of_false (fun inert => ?_) fun silent => ?_
          · exact List.cons_ne_nil _ [] (List.append_right_eq_self.mp inert.messages)
          · rw [silent socket rfl] at listens
            cases listens

/-- A segment is read without an exception if its ports can be read, and the rest of it can be or is
not looked at. -/
theorem tcpReceive_returns_iff : (host.tcpReceive view now srcIP u8 headerOffset).2 = false ↔
    ∃ srcPort destPort, Tcp.getSrcPort view u8 headerOffset = some srcPort ∧
      Tcp.getDestPort view u8 headerOffset = some destPort ∧
      (host.tcp.destination ⟨host.self, srcIP, srcPort, destPort, Tcp.unread⟩ ≠ none →
        Tcp.readSegment view u8 headerOffset ≠ none) := by
  cases source : Tcp.getSrcPort view u8 headerOffset with
  | none =>
      refine iff_of_false ?_ nofun
      rw [tcpReceive, source]
      exact Bool.false_ne_true.symm
  | some srcPort =>
      cases dest : Tcp.getDestPort view u8 headerOffset with
      | none =>
          refine iff_of_false ?_ nofun
          rw [tcpReceive, source, dest]
          exact Bool.false_ne_true.symm
      | some destPort =>
          rw [tcpReceive_of_ports source dest]
          cases read : Tcp.readSegment view u8 headerOffset with
          | some segment =>
              exact iff_of_true rfl ⟨srcPort, destPort, rfl, rfl, fun _ => Option.some_ne_none _⟩
          | none =>
              dsimp only
              cases goes : host.tcp.destination
                  ⟨host.self, srcIP, srcPort, destPort, Tcp.unread⟩ with
              | none =>
                  refine iff_of_true rfl ⟨srcPort, destPort, rfl, rfl, fun found => ?_⟩
                  exact absurd goes found
              | some id =>
                  refine iff_of_false Bool.false_ne_true.symm ?_
                  rintro ⟨_, _, ⟨⟩, ⟨⟩, reads⟩
                  exact reads (goes ▸ Option.some_ne_none id) rfl

/-- A segment that is read is ignored if the sockets ignore it. -/
theorem inert_tcpReceive_iff (returns : (host.tcpReceive view now srcIP u8 headerOffset).2 = false) :
    host.Inert (host.tcpReceive view now srcIP u8 headerOffset).1 ↔
      ∀ srcPort destPort segment, Tcp.getSrcPort view u8 headerOffset = some srcPort →
        Tcp.getDestPort view u8 headerOffset = some destPort →
        Tcp.readSegment view u8 headerOffset = some segment →
          host.tcp.Ignores ⟨host.self, srcIP, srcPort, destPort, segment⟩ := by
  obtain ⟨srcPort, destPort, source, dest, reads⟩ := tcpReceive_returns_iff.mp returns
  rw [tcpReceive_of_ports source dest, source, dest]
  cases read : Tcp.readSegment view u8 headerOffset with
  | some segment =>
      dsimp only
      constructor
      · rintro inert _ _ _ ⟨⟩ ⟨⟩ ⟨⟩
        exact (Tcp.Stack.receive_eq_self_iff _ _).mp inert.tcp
      · intro ignores
        have same := (Tcp.Stack.receive_eq_self_iff (host.setting now) _).mpr
          (ignores srcPort destPort segment rfl rfl rfl)
        exact ⟨same, rfl, rfl, rfl, rfl⟩
  | none =>
      have nowhere : host.tcp.destination
          ⟨host.self, srcIP, srcPort, destPort, Tcp.unread⟩ = none := by
        by_contra found
        exact reads found read
      dsimp only
      rw [nowhere]
      exact iff_of_true (.refl host) nofun

/-! ## A packet for its protocol -/

section Payload

variable {payload : Ip4.Payload}

/-- **A packet is received without an exception** exactly if what is looked at can be read. -/
theorem ip4receive_returns_iff :
    (host.ip4receive view now payload).2 = false ↔ host.Reads view payload := by
  unfold ip4receive
  by_cases icmp : payload.protocolId = some PROTOCOL_ICMP
  · have other : payload.protocolId ≠ some PROTOCOL_TCP := by
      rw [icmp]
      decide
    rw [if_pos icmp]
    by_cases isRequest :
        Icmp.getType payload.u8 payload.nextOffset = some Icmp.ICMP_TYPE_ECHO_REQUEST
    · rw [(icmpReceive_request isRequest).1]
      constructor
      · intro reads
        refine ⟨fun _ _ => reads, fun _ isReply => ?_, fun tcp => absurd tcp other⟩
        rw [isRequest] at isReply
        exact absurd isReply (by decide)
      · exact fun reads => reads.request icmp isRequest
    · by_cases isReply :
          Icmp.getType payload.u8 payload.nextOffset = some Icmp.ICMP_TYPE_ECHO_REPLY
      · rw [icmpReceive_of_reply isReply, Bool.not_eq_false']
        constructor
        · intro reads
          exact ⟨fun _ type => absurd type isRequest, fun _ _ => reads,
            fun tcp => absurd tcp other⟩
        · exact fun reads => reads.reply icmp isReply
      · unfold icmpReceive
        rw [if_neg isRequest, if_neg isReply]
        exact iff_of_true rfl ⟨fun _ type => absurd type isRequest,
          fun _ type => absurd type isReply, fun tcp => absurd tcp other⟩
  · rw [if_neg icmp]
    by_cases tcp : payload.protocolId = some PROTOCOL_TCP
    · rw [if_pos tcp, tcpReceive_returns_iff]
      constructor
      · intro ports
        exact ⟨fun type => absurd type icmp, fun type => absurd type icmp, fun _ => ports⟩
      · exact fun reads => reads.ports tcp
    · rw [if_neg tcp]
      refine iff_of_true ?_ ⟨fun type => absurd type icmp, fun type => absurd type icmp,
        fun type => absurd type tcp⟩
      split
      · rfl
      · rfl

/-- **A packet that is read changes nothing** exactly if the stack makes nothing of it. -/
theorem inert_ip4receive_iff (reads : host.Reads view payload) :
    host.Inert (host.ip4receive view now payload).1 ↔ host.IgnoresPayload view payload := by
  have returns := (@ip4receive_returns_iff view now host payload).mpr reads
  unfold ip4receive at returns ⊢
  by_cases icmp : payload.protocolId = some PROTOCOL_ICMP
  · have other : payload.protocolId ≠ some PROTOCOL_TCP := by
      rw [icmp]
      decide
    have other' : payload.protocolId ≠ some PROTOCOL_UDP := by
      rw [icmp]
      decide
    rw [if_pos icmp]
    by_cases isRequest :
        Icmp.getType payload.u8 payload.nextOffset = some Icmp.ICMP_TYPE_ECHO_REQUEST
    · rw [(icmpReceive_request isRequest).2 (reads.request icmp isRequest)]
      constructor
      · intro quiet
        refine ⟨fun _ _ => quiet, fun _ isReply => ?_, fun tcp => absurd tcp other,
          fun udp => absurd udp other'⟩
        rw [isRequest] at isReply
        exact absurd isReply (by decide)
      · exact fun ignores => ignores.request icmp isRequest
    · by_cases isReply :
          Icmp.getType payload.u8 payload.nextOffset = some Icmp.ICMP_TYPE_ECHO_REPLY
      · have silent := @inert_reply_iff view host payload.srcIP payload.u8 payload.nextOffset
          isReply (reads.reply icmp isReply)
        rw [icmpReceive_of_reply isReply]
        constructor
        · intro inert
          exact ⟨fun _ type => absurd type isRequest, fun _ _ => silent.mp inert.pings,
            fun tcp => absurd tcp other, fun udp => absurd udp other'⟩
        · intro ignores
          exact ⟨rfl, rfl, silent.mpr (ignores.reply icmp isReply), rfl, rfl⟩
      · unfold icmpReceive
        rw [if_neg isRequest, if_neg isReply]
        exact iff_of_true (.refl host) ⟨fun _ type => absurd type isRequest,
          fun _ type => absurd type isReply, fun tcp => absurd tcp other,
          fun udp => absurd udp other'⟩
  · rw [if_neg icmp] at returns ⊢
    by_cases tcp : payload.protocolId = some PROTOCOL_TCP
    · have other : payload.protocolId ≠ some PROTOCOL_UDP := by
        rw [tcp]
        decide
      rw [if_pos tcp] at returns ⊢
      rw [inert_tcpReceive_iff returns]
      constructor
      · intro ignores
        exact ⟨fun type => absurd type icmp, fun type => absurd type icmp, fun _ => ignores,
          fun udp => absurd udp other⟩
      · exact fun ignores => ignores.segment tcp
    · rw [if_neg tcp]
      by_cases udp : payload.protocolId = some PROTOCOL_UDP
      · rw [if_pos udp]
        have silent := @inert_udpReceive_iff host payload.srcIP payload.u8 payload.nextOffset
        constructor
        · intro inert
          exact ⟨fun type => absurd type icmp, fun type => absurd type icmp,
            fun type => absurd type tcp, fun _ => silent.mp inert⟩
        · exact fun ignores => silent.mpr (ignores.datagram udp)
      · rw [if_neg udp]
        exact iff_of_true (.refl host) ⟨fun type => absurd type icmp,
          fun type => absurd type icmp, fun type => absurd type tcp, fun type => absurd type udp⟩

/-- The protocols leave the fragment queues alone. -/
theorem fragments_ip4receive (view : U8View) (now : Nat) (host : Host) (payload : Ip4.Payload) :
    (host.ip4receive view now payload).1.fragments = host.fragments := by
  have hands (host : Host) (u8headers : Bytes) (u8data : Option Bytes) :
      (host.hand u8headers u8data).fragments = host.fragments := by
    unfold hand
    split <;> rfl
  unfold ip4receive
  split
  · unfold icmpReceive
    split
    · split
      · unfold icmpTransmit sendIP4
        dsimp only
        split
        · exact hands _ _ _
        · exact hands _ _ _
      · rfl
    · split <;> rfl
  · split
    · unfold tcpReceive
      split
      · split
        · rfl
        · split <;> rfl
      · rfl
    · split
      · unfold udpReceive
        dsimp only
        split
        · rfl
        · split <;> rfl
      · rfl

/-- What is read and what is ignored does not depend on the fragment queues. -/
theorem withstands_fragments (fragments : Ip4.Fragments) (malformed : Prop) :
    { host with fragments }.Withstands view malformed payload ↔
      host.Withstands view malformed payload := by
  refine and_congr ⟨fun reads => ?_, fun reads => ?_⟩ (imp_congr_right fun _ =>
    ⟨fun ignores => ?_, fun ignores => ?_⟩)
  · exact ⟨reads.request, reads.reply, reads.ports⟩
  · exact ⟨reads.request, reads.reply, reads.ports⟩
  · exact ⟨ignores.request, ignores.reply, ignores.segment, ignores.datagram⟩
  · exact ⟨ignores.request, ignores.reply, ignores.segment, ignores.datagram⟩

/-- **A packet is withstood**: it is received without an exception, and if a header is malformed it
changes nothing. -/
theorem withstands_iff (malformed : Prop) : host.Withstands view malformed payload ↔
    (host.ip4receive view now payload).2 = false ∧
      (malformed ∨ payload.Malformed → host.Inert (host.ip4receive view now payload).1) := by
  rw [Withstands, ip4receive_returns_iff]
  exact and_congr_right fun reads => imp_congr_right fun _ => (inert_ip4receive_iff reads).symm

end Payload

/-! ## A frame -/

/-- A packet that is no fragment. -/
theorem receiveIP4_of_whole {fragmentData : BitVec 16}
    (read : Ip4.getFragmentationData view u8 headerOffset = some fragmentData)
    (whole : Ip4.isWhole fragmentData = true) :
    Ip4.receive view host.fragments now u8 headerOffset =
        (host.fragments, .ok (some (Ip4.handleReceive u8 headerOffset))) ∧
      host.receiveIP4 view now u8 headerOffset =
        host.ip4receive view now (Ip4.handleReceive u8 headerOffset) := by
  have received : Ip4.receive view host.fragments now u8 headerOffset =
      (host.fragments, .ok (some (Ip4.handleReceive u8 headerOffset))) := by
    unfold Ip4.receive
    rw [read]
    exact if_pos whole
  refine ⟨received, ?_⟩
  unfold receiveIP4
  rw [received]

/-- A fragment. -/
theorem receive_of_fragment {fragmentData packetId : BitVec 16}
    (read : Ip4.getFragmentationData view u8 headerOffset = some fragmentData)
    (part : Ip4.isWhole fragmentData = false)
    (identification : Ip4.getIdentification view u8 headerOffset = some packetId) :
    Ip4.receive view host.fragments now u8 headerOffset =
      match host.fragments.addPiece now (Ip4.pieceOf u8 headerOffset
        (Ip4.fragmentationDataOffset fragmentData)
        (Ip4.fragmentationDataIsMoreFragments fragmentData) packetId) with
      | (fragments, .error _) => (fragments, .error .rangeError)
      | (fragments, .ok u8asm) =>
          (fragments, .ok (u8asm.map (Ip4.reassembled u8 headerOffset))) := by
  unfold Ip4.receive
  rw [read]
  dsimp only
  rw [part, if_neg Bool.false_ne_true]
  unfold Ip4.addFragment
  generalize Ip4.getIdentification view u8 headerOffset = found at identification ⊢
  cases identification
  rfl

/-- A fragment is withstood: receiving it does not throw, and with a malformed header it changes
nothing, neither with what it completes. -/
theorem withstandsFragment_iff {fragmentData packetId : BitVec 16}
    (read : Ip4.getFragmentationData view u8 headerOffset = some fragmentData)
    (part : Ip4.isWhole fragmentData = false)
    (identification : Ip4.getIdentification view u8 headerOffset = some packetId) :
    host.WithstandsFragment view now u8 headerOffset
        (Ip4.pieceOf u8 headerOffset (Ip4.fragmentationDataOffset fragmentData)
          (Ip4.fragmentationDataIsMoreFragments fragmentData) packetId) ↔
      (host.receiveIP4 view now u8 headerOffset).2 = false ∧
        (Ip4.MalformedHeader u8 headerOffset →
          host.Inert (host.receiveIP4 view now u8 headerOffset).1 ∧
            host.SameQueues (host.receiveIP4 view now u8 headerOffset).1) ∧
        ∀ payload : Ip4.Payload,
          (Ip4.receive view host.fragments now u8 headerOffset).2 = .ok (some payload) →
            payload.Malformed → host.Inert (host.receiveIP4 view now u8 headerOffset).1 := by
  have isPart : (Ip4.pieceOf u8 headerOffset (Ip4.fragmentationDataOffset fragmentData)
      (Ip4.fragmentationDataIsMoreFragments fragmentData) packetId).IsPart := by
    unfold Ip4.isWhole at part
    rw [Bool.and_eq_false_iff, Bool.not_eq_false', decide_eq_false_iff_not] at part
    exact part
  have received := @receive_of_fragment view now host u8 headerOffset fragmentData packetId read
    part identification
  generalize Ip4.pieceOf u8 headerOffset (Ip4.fragmentationDataOffset fragmentData)
    (Ip4.fragmentationDataIsMoreFragments fragmentData) packetId = piece at isPart received ⊢
  unfold receiveIP4 WithstandsFragment
  rw [received]
  have fits := @Ip4.Fragments.addPiece_ok_iff host.fragments now piece
  have hands := fun u8asm => @Ip4.Fragments.addPiece_eq_some_iff host.fragments now piece u8asm
  have repeats : host.fragments.Repeats now piece → _ := fun repeats => repeats.addPiece
  have same := fun result => @Ip4.Fragments.repeats_of_same host.fragments now piece isPart result
  generalize host.fragments.addPiece now piece = added at fits hands repeats same ⊢
  obtain ⟨fragments, outcome⟩ := added
  dsimp only at fits hands repeats same
  cases outcome with
  | error error =>
      dsimp only
      refine iff_of_false (fun withstands => ?_) fun withstands => nomatch withstands.1
      obtain ⟨result, absurd_⟩ := fits.mpr fun full completes => (withstands.2 full completes).1
      cases absurd_
  | ok u8asm =>
      have within := fits.mp ⟨u8asm, rfl⟩
      cases u8asm with
      | none =>
          dsimp only [Option.map_none]
          have open_ : ∀ full, ¬host.fragments.Completes now piece full := by
            intro full completes
            obtain ⟨u8asm, assembled⟩ := full.assemble_ok_iff.mpr (within full completes)
            cases (hands u8asm).mpr ⟨full, completes, assembled⟩
          constructor
          · intro withstands
            refine ⟨rfl, fun malformed => ⟨⟨rfl, rfl, rfl, rfl, rfl⟩, ?_⟩, nofun⟩
            exact (repeats (withstands.1 malformed)).2
          · rintro ⟨-, header, -⟩
            refine ⟨fun malformed => ?_, fun full completes => absurd completes (open_ full)⟩
            exact same none rfl ((header malformed).2 piece.hash)
      | some u8asm =>
          dsimp only [Option.map_some]
          obtain ⟨full, completes, assembled⟩ := (hands u8asm).mp rfl
          have handed := (@withstands_iff view now { host with fragments }
            (Ip4.reassembled u8 headerOffset u8asm) False).symm.trans
              (withstands_fragments fragments False)
          rw [false_or] at handed
          have queues := fragments_ip4receive view now { host with fragments }
            (Ip4.reassembled u8 headerOffset u8asm)
          have changes (inert : { host with fragments }.Inert ({ host with fragments }.ip4receive
              view now (Ip4.reassembled u8 headerOffset u8asm)).1) :
              host.Inert ({ host with fragments }.ip4receive view now
                (Ip4.reassembled u8 headerOffset u8asm)).1 :=
            ⟨inert.tcp, inert.udp, inert.pings, inert.transmitted, inert.messages⟩
          constructor
          · rintro ⟨header, completed⟩
            obtain ⟨returns, inert⟩ := handed.mpr ((completed full completes).2 u8asm assembled)
            refine ⟨returns, fun malformed => ?_, ?_⟩
            · cases (repeats (header malformed)).1
            · rintro _ ⟨⟩ malformed
              exact changes (inert malformed)
          · rintro ⟨returns, header, inert⟩
            refine ⟨fun malformed => ?_, fun other completes' => ⟨within other completes', ?_⟩⟩
            · have unchanged := (header malformed).2 piece.hash
              rw [queues] at unchanged
              exact same (some u8asm) rfl unchanged
            · intro u8asm' assembled'
              obtain ⟨⟩ := (hands u8asm').mpr ⟨other, completes', assembled'⟩
              refine handed.mp ⟨returns, fun malformed => ?_⟩
              have inert' := inert _ rfl malformed
              exact ⟨inert'.tcp, inert'.udp, inert'.pings, inert'.transmitted, inert'.messages⟩

/-- A packet in a frame is withstood. -/
theorem withstandsIP4_iff : host.WithstandsIP4 view now u8 headerOffset ↔
    (host.receiveIP4 view now u8 headerOffset).2 = false ∧
      (Ip4.MalformedHeader u8 headerOffset →
        host.Inert (host.receiveIP4 view now u8 headerOffset).1 ∧
          host.SameQueues (host.receiveIP4 view now u8 headerOffset).1) ∧
      ∀ payload : Ip4.Payload,
        (Ip4.receive view host.fragments now u8 headerOffset).2 = .ok (some payload) →
          payload.Malformed → host.Inert (host.receiveIP4 view now u8 headerOffset).1 ∧
            (Unfragmented view u8 headerOffset →
              host.SameQueues (host.receiveIP4 view now u8 headerOffset).1) := by
  unfold WithstandsIP4
  cases read : Ip4.getFragmentationData view u8 headerOffset with
  | none =>
      refine iff_of_false nofun fun withstands => ?_
      have returns := withstands.1
      unfold receiveIP4 Ip4.receive at returns
      rw [read] at returns
      cases returns
  | some fragmentData =>
      cases whole : Ip4.isWhole fragmentData with
      | true =>
          obtain ⟨handed, received⟩ := @receiveIP4_of_whole view now host u8 headerOffset
            fragmentData read whole
          have queues : host.SameQueues
              (host.ip4receive view now (Ip4.handleReceive u8 headerOffset)).1 := by
            intro hash
            rw [fragments_ip4receive]
          have withstands := @withstands_iff view now host (Ip4.handleReceive u8 headerOffset)
            (Ip4.MalformedHeader u8 headerOffset)
          rw [handed, received]
          constructor
          · rintro ⟨_, ⟨⟩, kept⟩
            rw [whole, if_pos rfl, withstands] at kept
            refine ⟨kept.1, fun malformed => ⟨kept.2 (.inl malformed), queues⟩, ?_⟩
            rintro _ ⟨⟩ malformed
            exact ⟨kept.2 (.inr malformed), fun _ => queues⟩
          · rintro ⟨returns, header, payload⟩
            refine ⟨fragmentData, rfl, ?_⟩
            rw [whole, if_pos rfl, withstands]
            refine ⟨returns, ?_⟩
            rintro (malformed | malformed)
            · exact (header malformed).1
            · exact (payload _ rfl malformed).1
      | false =>
          have fragmented : ¬Unfragmented view u8 headerOffset := by
            rintro ⟨_, read', whole'⟩
            rw [read] at read'
            cases read'
            rw [whole] at whole'
            cases whole'
          cases identification : Ip4.getIdentification view u8 headerOffset with
          | none =>
              refine iff_of_false ?_ fun withstands => ?_
              · rintro ⟨_, ⟨⟩, kept⟩
                rw [whole, if_neg Bool.false_ne_true] at kept
                obtain ⟨_, ⟨⟩, -⟩ := kept
              · have returns := withstands.1
                unfold receiveIP4 Ip4.receive at returns
                rw [read] at returns
                dsimp only at returns
                rw [whole, if_neg Bool.false_ne_true, Ip4.addFragment, identification] at returns
                cases returns
          | some packetId =>
              have withstands := @withstandsFragment_iff view now host u8 headerOffset fragmentData
                packetId read whole identification
              constructor
              · rintro ⟨_, ⟨⟩, kept⟩
                rw [whole, if_neg Bool.false_ne_true] at kept
                obtain ⟨_, ⟨⟩, kept⟩ := kept
                obtain ⟨returns, header, payload⟩ := withstands.mp kept
                exact ⟨returns, header, fun other handed malformed =>
                  ⟨payload other handed malformed, fun absurd_ => absurd absurd_ fragmented⟩⟩
              · rintro ⟨returns, header, payload⟩
                refine ⟨fragmentData, rfl, ?_⟩
                rw [whole, if_neg Bool.false_ne_true]
                refine ⟨packetId, rfl, withstands.mpr ⟨returns, header, ?_⟩⟩
                exact fun other handed malformed => (payload other handed malformed).1

end Host

end JsOS.Net
