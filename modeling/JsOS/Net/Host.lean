import JsOS.Net.Icmp.Ping
import JsOS.Net.Ip4.Receive
import JsOS.Net.NextHop
import JsOS.Net.Tcp.Stack
import JsOS.Net.Transmit

/-! # Receiving a frame

`Interface.receive` down to the sockets: the type of the frame, the IPv4 packet or the fragments
that complete one, and the protocol in it. Every protocol finds its header at an offset that it is
given, and takes what follows up to the end of the buffer; no checksum is looked at. A host is one
interface with what all of them share. Callbacks of owners are recorded where they are called or
scheduled.
-/

namespace JsOS.Net

open Arp (byteAt)
open Tcp (Bytes Segment SocketId)
open Transmit (ethernetLength)

/-! ## Headers -/

/-- `(u8[offset] << 8) + u8[offset + 1] >>> 0`. Past the end the sum is not a number, which the
shift makes zero. -/
def shiftedPair (u8 : Bytes) (offset : Nat) : Nat :=
  match u8[offset]?, u8[offset + 1]? with
  | some high, some low => high.toNat * 2 ^ 8 + low.toNat
  | _, _ => 0

/-- `getEtherType`. -/
def getEtherType (u8 : Bytes) (headerOffset : Nat) : Nat := shiftedPair u8 (headerOffset + 12)

namespace Udp

def getSrcPort (u8 : Bytes) (headerOffset : Nat) : Nat := shiftedPair u8 headerOffset

def getDestPort (u8 : Bytes) (headerOffset : Nat) : Nat := shiftedPair u8 (headerOffset + 2)

end Udp

namespace Tcp

section Header

variable (view : U8View) (u8 : Bytes) (headerOffset : Nat)

def getSrcPort : Option (BitVec 16) := view.getUint16BE u8 headerOffset

def getDestPort : Option (BitVec 16) := view.getUint16BE u8 (headerOffset + 2)

def getSeqNumber : Option (BitVec 32) := view.getUint32BE u8 (headerOffset + 4)

def getAckNumber : Option (BitVec 32) := view.getUint32BE u8 (headerOffset + 8)

/-- `(u8[headerOffset + 12] >>> 4) * 4`. -/
def getDataOffset : Nat := (byteAt u8 (headerOffset + 12)).toNat / 2 ^ 4 * 4

/-- `getFlags`; flags that are `undefined` are not set. -/
def getFlags : BitVec 8 := (byteAt u8 (headerOffset + 13)).toBitVec

def getWindowSize : Option (BitVec 16) := view.getUint16BE u8 (headerOffset + 14)

/-- What `_receive` reads, unless it throws. -/
def readSegment : Option Segment :=
  let dataOffset := headerOffset + getDataOffset u8 headerOffset
  match getSeqNumber view u8 headerOffset, getAckNumber view u8 headerOffset,
    getWindowSize view u8 headerOffset with
  | some seqNumber, some ackNumber, some windowSize =>
      some
        { flags := getFlags u8 headerOffset
          seqNumber
          ackNumber
          windowSize
          dataLength := u8.length - dataOffset
          data := u8.drop dataOffset
          data_length := by
            rw [List.length_drop]
            omega }
  | _, _, _ => none

end Header

/-- No segment: a socket is found before the segment is read. -/
def unread : Segment := .ofData 0 0 0 0 []

end Tcp

/-! ## The host -/

/-- A call of `onmessage` of a socket, scheduled by `setImmediate`. -/
structure Message where
  socket : Udp.SocketId
  srcIP : IP4Address
  srcPort : Nat
  u8data : Bytes
  deriving DecidableEq, Repr

/-- An interface, by identity and with what is set on it, and what all interfaces share: the
sockets of TCP and UDP, the pings, and the routing table. The calls of `ontransmit` and the
messages are those so far. -/
structure Host where
  self : Tcp.Interface
  intf : Arp.Interface
  arp : Bool
  ontransmit : Bool
  fragments : Ip4.Fragments
  transmitted : List (Bytes × Option Bytes)
  table : Route.Table Tcp.Interface
  nextId : Nat
  tcp : Tcp.Stack
  udp : Udp.Sockets Tcp.Interface
  onmessage : Udp.SocketId → Bool
  messages : List Message
  pings : Icmp.Pings Tcp.Interface

namespace Host

variable (view : U8View) (now : Nat) (host : Host)

/-- What a method of a TCP socket reads from the system. -/
def setting : Tcp.Setting := ⟨now, routing host.table⟩

/-! ## Transmitting -/

/-- `ontransmit`, if it is set. -/
def hand (u8headers : Bytes) (u8data : Option Bytes) : Host :=
  if host.ontransmit then { host with transmitted := host.transmitted ++ [(u8headers, u8data)] }
  else host

/-- `sendRaw`. -/
def sendRaw (u8 : Bytes) : Host := host.hand u8 none

/-- The MAC address of the next hop, if it is known. -/
def targetMAC (viaIP : IP4Address) : Option MACAddress :=
  if viaIP.isBroadcast then some .BROADCAST
  else if host.arp then host.intf.get viaIP
  else some .ZERO

/-- `sendIP4`. -/
def sendIP4 (sent : Transmit.Sent) : Host :=
  match host.targetMAC sent.viaIP with
  | none => host.sendRaw (host.intf.request view sent.viaIP)
  | some targetMAC =>
      host.hand (Arp.ethernetWrite view sent.u8headers host.intf.bufferDataOffset targetMAC
        host.intf.macAddr 0x0800) sent.u8data

/-- `icmpTransmit`. -/
def icmpTransmit (reply : Icmp.Transmit Tcp.Interface) : Host :=
  let (sent, nextId) := Transmit.icmpTransmit view host.nextId host.intf reply.destIP reply.viaIP
    reply.type reply.code reply.headerValue reply.u8data
  { host with nextId }.sendIP4 view sent

/-! ## Receiving -/

/-- The host afterwards, and whether an exception has got out. -/
abbrev Result := Host × Bool

/-- `udp.receive`. -/
def udpReceive (srcIP : IP4Address) (u8 : Bytes) (headerOffset : Nat) : Host :=
  match host.udp.lookupReceive (Udp.getDestPort u8 headerOffset) with
  | none => host
  | some socket =>
      if host.onmessage socket then
        { host with
          messages := host.messages ++ [⟨socket, srcIP, Udp.getSrcPort u8 headerOffset,
            u8.drop (headerOffset + Transmit.udpHeaderLength)⟩] }
      else host

/-- `tcp.receive`. If the segment cannot be read, the interface of the socket is set before. -/
def tcpReceive (srcIP : IP4Address) (u8 : Bytes) (headerOffset : Nat) : Result :=
  match Tcp.getSrcPort view u8 headerOffset, Tcp.getDestPort view u8 headerOffset with
  | some srcPort, some destPort =>
      match Tcp.readSegment view u8 headerOffset with
      | some segment =>
          ({ host with
            tcp := host.tcp.receive (host.setting now)
              ⟨host.self, srcIP, srcPort, destPort, segment⟩ }, false)
      | none =>
          match host.tcp.destination ⟨host.self, srcIP, srcPort, destPort, Tcp.unread⟩ with
          | none => (host, false)
          | some id =>
              ({ host with tcp := host.tcp.modify id fun s => s.bindInterface host.self }, true)
  | _, _ => (host, true)

/-- The identifier and the sequence number of an echo can be read. -/
def readsEcho (u8 : Bytes) (headerOffset : Nat) : Bool :=
  (Icmp.getEchoRequestIdentifier view u8 headerOffset).isSome &&
    (Icmp.getEchoRequestSequence view u8 headerOffset).isSome

/-- A request from this address is answered: it is a proper address, and there is a route to it. -/
def answers (srcIP : IP4Address) : Bool :=
  !srcIP.isBroadcast && !srcIP.isAny && (Route.lookup host.table srcIP none).isSome

/-- `icmp.receive`. -/
def icmpReceive (srcIP : IP4Address) (u8 : Bytes) (headerOffset : Nat) : Result :=
  if Icmp.getType u8 headerOffset = some Icmp.ICMP_TYPE_ECHO_REQUEST then
    match Icmp.handleEchoRequest view host.table host.self srcIP u8 headerOffset with
    | some reply => (host.icmpTransmit view reply, false)
    | none => (host, host.answers srcIP && !readsEcho view u8 headerOffset)
  else if Icmp.getType u8 headerOffset = some Icmp.ICMP_TYPE_ECHO_REPLY then
    ({ host with pings := host.pings.receive view srcIP u8 headerOffset },
      !readsEcho view u8 headerOffset)
  else (host, false)

/-- `ip4receive`. -/
def ip4receive (payload : Ip4.Payload) : Result :=
  if payload.protocolId = some Transmit.PROTOCOL_ICMP then
    host.icmpReceive view payload.srcIP payload.u8 payload.nextOffset
  else if payload.protocolId = some Transmit.PROTOCOL_TCP then
    host.tcpReceive view now payload.srcIP payload.u8 payload.nextOffset
  else if payload.protocolId = some Transmit.PROTOCOL_UDP then
    (host.udpReceive payload.srcIP payload.u8 payload.nextOffset, false)
  else (host, false)

/-- `ip4.receive`. -/
def receiveIP4 (u8 : Bytes) (headerOffset : Nat) : Result :=
  let (fragments, outcome) := Ip4.receive view host.fragments now u8 headerOffset
  let host := { host with fragments }
  match outcome with
  | .error _ => (host, true)
  | .ok none => (host, false)
  | .ok (some payload) => host.ip4receive view now payload

/-- `receive` of the `ARPResolver`. -/
def arpReceive (u8 : Bytes) (headerOffset : Nat) : Result :=
  let (intf, frames) := host.intf.receive view u8 headerOffset
  (frames.foldl sendRaw { host with intf }, (Arp.getOperation view u8 headerOffset).isNone)

/-- `Interface.receive`. -/
def receive (u8 : Bytes) : Result :=
  let etherType := getEtherType u8 host.intf.bufferDataOffset
  let nextOffset := host.intf.bufferDataOffset + ethernetLength
  if etherType = 0x0800 then host.receiveIP4 view now u8 nextOffset
  else if etherType = 0x0806 then
    if host.arp then host.arpReceive view u8 nextOffset else (host, false)
  else (host, false)

end Host

end JsOS.Net
