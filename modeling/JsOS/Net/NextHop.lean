import JsOS.Net.Icmp.Echo
import JsOS.Net.Tcp.Socket
import JsOS.Net.Udp.Socket

/-! # Next hops

A packet leaves on an interface towards a next hop, which has to be reachable there.
`TCPSocket` looks for a route among the entries of its interface. `UDPSocket.send` and
`handleEchoRequest` look among the entries of all interfaces and then send on an interface
that is given. The two agree exactly if the best route of all interfaces leads to the same
next hop as the best route of the one that is given (`next_hop_agrees_iff`).
-/

namespace JsOS.Net

open Tcp (Bytes Interface RoutingEntry TCPSocket)
open Udp (UDPSocket)

/-- `viaIP || destIP`, where the packet goes first. -/
def nextHop (viaIP : Option IP4Address) (destIP : IP4Address) : IP4Address := viaIP.getD destIP

/-- `route.lookup`, with what a `TCPSocket` reads of an entry. -/
def routing (table : Route.Table Interface) (destIP : IP4Address) (intf : Option Interface) :
    Option RoutingEntry :=
  (Route.lookup table destIP intf).map fun entry => ⟨entry.gateway, entry.intf⟩

/-- `_configure` of a socket with the interface settles on that interface and the next hop. -/
def TcpSettles (table : Route.Table Interface) (intf : Interface) (destIP hop : IP4Address) :
    Prop :=
  ∀ (env : Tcp.Env) (s : TCPSocket), env.route = routing table → s.intf = some intf →
    s.destIP = some destIP → s.port ≠ 0 →
    (s.configure env).1 = true ∧ (s.configure env).2.intf = some intf ∧
      nextHop (s.configure env).2.viaIP destIP = hop

/-- A datagram to the address from a socket bound to the interface leaves as a segment of a
`TCPSocket` would. -/
def UdpAgrees (table : Route.Table Interface) (intf : Interface) (destIP : IP4Address) : Prop :=
  ∀ (id : Udp.SocketId) (s : UDPSocket Interface) (ports : Udp.Ports) (port : Nat)
    (u8 : Option Bytes), s.intf = some intf →
    ∀ sentOn dest viaIP srcPort destPort data,
      (s.send table (some destIP) port u8 id ports).2 =
        .udpTransmit sentOn dest viaIP srcPort destPort data →
      sentOn = some intf ∧ TcpSettles table intf destIP (nextHop viaIP dest)

/-- A reply to an echo request of the address that the interface received leaves as a
segment of a `TCPSocket` would. -/
def IcmpAgrees (view : U8View) (table : Route.Table Interface) (intf : Interface)
    (srcIP : IP4Address) : Prop :=
  ∀ (u8 : Bytes) (headerOffset : Nat) (reply : Icmp.Transmit Interface),
    Icmp.handleEchoRequest view table intf srcIP u8 headerOffset = some reply →
    reply.intf = intf ∧ TcpSettles table intf srcIP (nextHop reply.viaIP reply.destIP)

/-- The longest match of the whole table and the longest match among the entries of the
interface lead to the same next hop. -/
def SameHop (table : Route.Table Interface) (intf : Interface) (destIP : IP4Address) : Prop :=
  ∀ entry, Route.Longest table destIP none entry →
    ∃ own, Route.Longest table destIP (some intf) own ∧
      nextHop own.gateway destIP = nextHop entry.gateway destIP

/-- `_configure` takes the longest match among the entries of the interface. -/
theorem tcpSettles_iff {table : Route.Table Interface} {intf : Interface}
    {destIP hop : IP4Address} (single : destIP.isBroadcast = false) :
    TcpSettles table intf destIP hop ↔
      ∃ own, Route.Longest table destIP (some intf) own ∧ nextHop own.gateway destIP = hop := by
  constructor
  · intro settles
    obtain ⟨configured, -, hops⟩ := settles ⟨0, routing table, 0⟩
      { intf := some intf, destIP := some destIP, port := 1 } rfl rfl rfl Nat.one_ne_zero
    unfold TCPSocket.configure routing at configured hops
    cases found : Route.lookup table destIP (some intf) with
    | none => simp [single, found] at configured
    | some own =>
        simp only [single, found] at hops
        exact ⟨own, (Route.lookup_eq_some_iff ..).mp found, hops⟩
  · rintro ⟨own, longest, hops⟩ env s route bound dest port
    have found := (Route.lookup_eq_some_iff ..).mpr longest
    unfold TCPSocket.configure
    rw [dest, route, bound]
    simp only [routing, single, found, port]
    exact ⟨rfl, rfl, hops⟩

/-- Some call of `send` on a bound socket transmits whenever there is a route. -/
theorem send_transmits {table : Route.Table Interface} {destIP : IP4Address}
    (single : destIP.isBroadcast = false) {entry : Route.Entry Interface}
    (longest : Route.Longest table destIP none entry) (intf : Interface) (u8 : Bytes) :
    ((⟨some intf, 1, false⟩ : UDPSocket Interface).send table (some destIP) 1 (some u8) 0 {}).2 =
      .udpTransmit (some intf) destIP entry.gateway 1 1 u8 := by
  have found := (Route.lookup_eq_some_iff ..).mpr longest
  unfold UDPSocket.send UDPSocket.route
  simp only [single, found]
  rfl

/-- What `send` of a bound socket transmits goes to the gateway of the longest match of the
whole table. -/
theorem send_eq_transmit {table : Route.Table Interface} {destIP : IP4Address}
    (single : destIP.isBroadcast = false) {id : Udp.SocketId} {s : UDPSocket Interface}
    {ports : Udp.Ports} {port : Nat} {u8 : Option Bytes} {intf : Interface}
    (bound : s.intf = some intf) {sentOn : Option Interface} {dest : IP4Address}
    {viaIP : Option IP4Address} {srcPort destPort : Nat} {data : Bytes}
    (sent : (s.send table (some destIP) port u8 id ports).2 =
      .udpTransmit sentOn dest viaIP srcPort destPort data) :
    sentOn = some intf ∧ dest = destIP ∧
      ∃ entry, Route.Longest table destIP none entry ∧ viaIP = entry.gateway := by
  have route : s.route table destIP =
      (Route.lookup table destIP none).map fun entry => (some intf, entry.gateway) := by
    unfold UDPSocket.route
    rw [single, bound]
    rfl
  unfold UDPSocket.send at sent
  dsimp only at sent
  rw [route] at sent
  split at sent
  · cases u8 with
    | none => cases sent
    | some u8 =>
        cases found : Route.lookup table destIP none with
        | none =>
            rw [found] at sent
            cases sent
        | some entry =>
            rw [found] at sent
            dsimp only [Option.map] at sent
            split at sent
            · cases sent
            · cases sent
              exact ⟨rfl, rfl, entry, (Route.lookup_eq_some_iff ..).mp found, rfl⟩
  · cases sent

/-- **Next hop and interface agree exactly if the routes do.** A socket bound to an
interface sends to a destination as a `TCPSocket` on that interface exactly if the longest
match of the whole table leads to the next hop of the interface's own longest match; echo
replies do so too, and also when there are none because the source is unspecified. -/
theorem next_hop_agrees_iff (view : U8View) (documented : view.BigEndian)
    (table : Route.Table Interface) (intf : Interface) (destIP : IP4Address)
    (single : destIP.isBroadcast = false) :
    (UdpAgrees table intf destIP ↔ SameHop table intf destIP) ∧
      (IcmpAgrees view table intf destIP ↔ destIP.isAny = true ∨ SameHop table intf destIP) := by
  refine ⟨⟨?_, ?_⟩, ⟨?_, ?_⟩⟩
  · intro agrees entry longest
    obtain ⟨-, settles⟩ := agrees 0 _ {} 1 (some []) rfl _ _ _ _ _ _
      (send_transmits single longest intf [])
    exact (tcpSettles_iff single).mp settles
  · intro same id s ports port u8 bound sentOn dest viaIP srcPort destPort data sent
    obtain ⟨rfl, rfl, entry, longest, rfl⟩ := send_eq_transmit single bound sent
    exact ⟨rfl, (tcpSettles_iff single).mpr (same entry longest)⟩
  · intro agrees
    cases unspecified : destIP.isAny with
    | true => exact .inl rfl
    | false =>
        refine .inr fun entry longest => ?_
        obtain ⟨-, settles⟩ := agrees _ _ _ (Icmp.handleEchoRequest_isSome documented intf single
          unspecified longest [] [] 8 0 0 0 0 0 0 0)
        exact (tcpSettles_iff single).mp settles
  · intro same u8 headerOffset reply sent
    obtain ⟨known, rfl, rfl, entry, longest, via⟩ := Icmp.handleEchoRequest_eq_some sent
    rcases same with unspecified | same
    · rw [known] at unspecified
      cases unspecified
    · rw [via]
      exact ⟨rfl, (tcpSettles_iff single).mpr (same entry longest)⟩

/-- A subnet on interface 0, and a default route through a gateway on interface 1. -/
def twoInterfaces : Route.Table Interface :=
  [⟨⟨10, 0, 0, 0⟩, ⟨255, 0, 0, 0⟩, none, 0⟩, ⟨.ANY, .ANY, some ⟨192, 168, 0, 1⟩, 1⟩]

theorem next_hop_agrees_iff_subnet :
    (IP4Address.isBroadcast ⟨10, 0, 0, 5⟩ = false) ∧
      (UdpAgrees twoInterfaces 0 ⟨10, 0, 0, 5⟩ ↔ SameHop twoInterfaces 0 ⟨10, 0, 0, 5⟩) ∧
      (IcmpAgrees .byteByByte twoInterfaces 0 ⟨10, 0, 0, 5⟩ ↔
        IP4Address.isAny ⟨10, 0, 0, 5⟩ = true ∨ SameHop twoInterfaces 0 ⟨10, 0, 0, 5⟩) :=
  ⟨rfl, next_hop_agrees_iff .byteByByte U8View.byteByByte_bigEndian twoInterfaces 0
    ⟨10, 0, 0, 5⟩ rfl⟩

/-- On interface 1 a datagram and a reply for the subnet go to the address itself, where a
segment goes to the gateway. -/
theorem subnet_bypasses_gateway : ∃ destIP : IP4Address, destIP.isBroadcast = false ∧
    ¬ UdpAgrees twoInterfaces 1 destIP ∧ ¬ IcmpAgrees .byteByByte twoInterfaces 1 destIP := by
  have single : IP4Address.isBroadcast ⟨10, 0, 0, 5⟩ = false := rfl
  have differs (settles : TcpSettles twoInterfaces 1 ⟨10, 0, 0, 5⟩ ⟨10, 0, 0, 5⟩) : False := by
    obtain ⟨-, -, hops⟩ := settles ⟨0, routing twoInterfaces, 0⟩
      { intf := some 1, destIP := some ⟨10, 0, 0, 5⟩, port := 1 } rfl rfl rfl Nat.one_ne_zero
    revert hops
    decide +kernel
  have found : Route.lookup twoInterfaces ⟨10, 0, 0, 5⟩ none =
      some ⟨⟨10, 0, 0, 0⟩, ⟨255, 0, 0, 0⟩, none, 0⟩ := by decide +kernel
  refine ⟨⟨10, 0, 0, 5⟩, single, fun agrees => ?_, fun agrees => ?_⟩
  · exact differs (agrees 0 ⟨some 1, 1, false⟩ {} 1 (some []) rfl _ _ _ _ _ _
      (send_transmits single ((Route.lookup_eq_some_iff ..).mp found) 1 [])).2
  · exact differs (agrees [8, 0, 0, 0, 0, 1, 0, 1] 0 ⟨1, ⟨10, 0, 0, 5⟩, none, 0, 0, 0x10001, []⟩
      (by decide +kernel)).2

end JsOS.Net
