import JsOS.Library.Run
import JsOS.Net.Route
import JsOS.Service.DhcpPacket

/-! # The DHCP client

`dhcpConfigure` binds a socket to port 68 of an interface, sends a DISCOVER, and handles
the messages that arrive there: the first OFFER is answered with a REQUEST, and an ACK
configures the interface. The states REQUEST_SENT and ACK_RECEIVED are one number, and the
branch for an ACK looks neither at the state nor at the transaction id.

`u8view.getUint32BE` is a parameter; there is no result when it throws.
-/

namespace JsOS.Service.DhcpClient

open Net (IP4Address MACAddress)
open DhcpPacket

def STATE_IDLE : Nat := 0
def STATE_DISCOVER_SENT : Nat := 1
def STATE_REQUEST_SENT : Nat := 2
def STATE_ACK_RECEIVED : Nat := 2

/-- What the client is told by an ACK. -/
structure Config where
  ip : IP4Address
  mask : IP4Address
  routers : List IP4Address
  dns : List IP4Address
  deriving DecidableEq, Repr

/-- The steps of the configuration of the interface that have been carried out. -/
inductive Effect where
  | configure (ip mask : IP4Address)
  | addSubnet (subnet mask : IP4Address)
  | addDefault (gateway : IP4Address)
  | setNetworkEnabled
  deriving DecidableEq, Repr

/-- The client with its interface, the routing table and what it has done so far. The
packets sent are kept with their types. -/
structure Client (Interface : Type) where
  intf : Interface
  macAddress : MACAddress
  clientState : Nat := STATE_IDLE
  ipAddr : IP4Address := .ANY
  netmask : IP4Address := .ANY
  isNetworkEnabled : Bool := false
  table : Net.Route.Table Interface := []
  sent : List (PacketType × Bytes) := []
  effects : List Effect := []

/-! ## Packets -/

/-- `sendPacket`. The socket is bound to the interface and to a port, and the address is the
broadcast address, so `send` transmits. -/
def Client.sendPacket {Interface : Type} (type : PacketType)
    (serverIP yourIP : Option IP4Address) (client : Client Interface) : Client Interface :=
  let opt55 : SentOption := ⟨55, [1, 3, 6]⟩
  let bytes (ip : IP4Address) : Bytes := [⟨ip.a⟩, ⟨ip.b⟩, ⟨ip.c⟩, ⟨ip.d⟩]
  let options :=
    match serverIP, yourIP with
    | some serverIP, some yourIP =>
        [opt55, ⟨OPTION_SERVER_ID, bytes serverIP⟩, ⟨50, bytes yourIP⟩]
    | _, _ => [opt55]
  { client with sent := client.sent ++ [(type, create type client.macAddress options)] }

/-- `optionToIP`, for the bytes of an option. -/
def bytesToIP (option : List (Option UInt8)) : IP4Address :=
  toIP option[0]?.join option[1]?.join option[2]?.join option[3]?.join

/-- `optionToIP`. -/
def optionToIP (options : List DhcpOption) (id : UInt8) : IP4Address :=
  (find options id 4).elim .ANY bytesToIP

/-- `optionToIPsArray`. -/
def optionToIPsArray (options : List DhcpOption) (id : UInt8) : List IP4Address :=
  (findAll options id 4).map bytesToIP

/-! ## The callback for the interface -/

section Client

variable {Interface : Type}

namespace Client

/-- The calls of the callback, in order; the first that throws ends it. -/
def configure (config : Config) (client : Client Interface) : Client Interface :=
  let client := { client with
    ipAddr := config.ip
    netmask := config.mask
    effects := client.effects ++ [.configure config.ip config.mask] }
  let subnet := config.ip.and config.mask
  match Net.Route.addSubnet subnet config.mask .null client.intf client.table with
  | none => client
  | some table =>
      let client := { client with
        table, effects := client.effects ++ [.addSubnet subnet config.mask] }
      match config.routers with
      | [] => client  -- `addDefault(undefined)` throws
      | router :: _ =>
          match Net.Route.addDefault (.address router) client.intf client.table with
          | none => client
          | some table =>
              { client with
                table
                isNetworkEnabled := true
                effects := client.effects ++ [.addDefault router, .setNetworkEnabled] }

/-! ## Messages -/

/-- `handleOffer`. -/
def handleOffer (serverIP yourIP : IP4Address) (options : List DhcpOption)
    (client : Client Interface) : Client Interface :=
  let serverId := optionToIP options OPTION_SERVER_ID
  let serverId := if serverId.isAny then serverIP else serverId
  { client.sendPacket .REQUEST (some serverId) (some yourIP) with
    clientState := STATE_REQUEST_SENT }

/-- `handleAck`. -/
def handleAck (yourIP : IP4Address) (options : List DhcpOption) (client : Client Interface) :
    Client Interface :=
  configure
    { ip := yourIP
      mask := optionToIP options OPTION_SUBNET_MASK
      routers := optionToIPsArray options OPTION_ROUTER
      dns := optionToIPsArray options OPTION_DOMAIN }
    { client with clientState := STATE_ACK_RECEIVED }

end Client

/-- A message that arrives at port 68, and the address it comes from. -/
structure Message where
  serverIP : IP4Address
  u8 : Bytes
  deriving DecidableEq, Repr

variable (getUint32BE : Bytes → Nat → Option (BitVec 32))

/-- `checkPacket`. -/
def checkPacket (u8 : Bytes) : Bool :=
  u8[0]? = some OPERATION_RESPONSE && getUint32BE u8 OPTIONS_OFFSET = some magicCookie

/-- The message type that `parseMessage` finds; `none` when it returns or throws before. -/
def messageType (u8 : Bytes) : Option UInt8 :=
  if checkPacket getUint32BE u8 then
    (find (getOptions u8) OPTION_MESSAGE_TYPE 1).bind fun bytes => bytes[0]?.join
  else none

/-- `getRequestId`. -/
def getRequestId (u8 : Bytes) : Option (BitVec 32) := getUint32BE u8 4

namespace Client

/-- `parseMessage`. -/
def parseMessage (client : Client Interface) (message : Message) : Client Interface :=
  let u8 := message.u8
  let type := messageType getUint32BE u8
  if client.clientState = STATE_DISCOVER_SENT ∧ type = some PacketType.OFFER.byte then
    client.handleOffer message.serverIP (getYourIP u8) (getOptions u8)
  else if type = some PacketType.ACK.byte then client.handleAck (getYourIP u8) (getOptions u8)
  else client

/-- `dhcpConfigure`, when the port is free. -/
def dhcpConfigure (intf : Interface) (macAddress : MACAddress) : Client Interface :=
  { Client.sendPacket .DISCOVER none none { intf, macAddress } with
    clientState := STATE_DISCOVER_SENT }

/-! ## Safety -/

/-- The client has sent its REQUEST. -/
def Requested (client : Client Interface) : Prop :=
  ∃ u8, (PacketType.REQUEST, u8) ∈ client.sent

/-- What the message made the client do to its interface. -/
def newEffects (client : Client Interface) (message : Message) : List Effect :=
  (client.parseMessage getUint32BE message).effects.drop client.effects.length

/-- A message configures the interface only if it is the first one to do so since the
DISCOVER, an ACK that comes after the REQUEST and carries the transaction id of the client;
and then it does all four steps. -/
def SafeStep (client : Client Interface) (message : Message) : Prop :=
  client.newEffects getUint32BE message = [] ∨
    client.effects = [] ∧ messageType getUint32BE message.u8 = some PacketType.ACK.byte ∧
      client.Requested ∧ getRequestId getUint32BE message.u8 = some requestId ∧
      ∃ ip mask subnet gateway, client.newEffects getUint32BE message =
        [.configure ip mask, .addSubnet subnet mask, .addDefault gateway, .setNetworkEnabled]

/-- An ACK is only received as the answer to the REQUEST, once and with the transaction id of
the client, and names a router. -/
def AwaitedACK (client : Client Interface) (message : Message) : Prop :=
  messageType getUint32BE message.u8 = some PacketType.ACK.byte →
    client.Requested ∧ client.effects = [] ∧
      getRequestId getUint32BE message.u8 = some requestId ∧
      find (getOptions message.u8) OPTION_ROUTER 4 ≠ none

variable {getUint32BE}

/-- The effects of an ACK: two steps of the configuration, and the other two if a router is
named. -/
theorem handleAck_effects (yourIP : IP4Address) (options : List DhcpOption)
    (client : Client Interface) :
    (client.handleAck yourIP options).effects = client.effects ++
      ([.configure yourIP (optionToIP options OPTION_SUBNET_MASK),
        .addSubnet (yourIP.and (optionToIP options OPTION_SUBNET_MASK))
          (optionToIP options OPTION_SUBNET_MASK)] ++
        (find options OPTION_ROUTER 4).elim [] fun router =>
          [.addDefault (bytesToIP router), .setNetworkEnabled]) := by
  unfold handleAck configure Net.Route.addSubnet Net.Route.addDefault Net.Route.Entry.new
    optionToIPsArray
  rw [find_eq_head?]
  dsimp only [Option.map_some]
  cases findAll options OPTION_ROUTER 4 with
  | nil => exact List.append_assoc _ _ _
  | cons router routers =>
      change (client.effects ++ [_] ++ [_]) ++ [_, _] = _
      rw [List.append_assoc, List.append_assoc]
      rfl

/-- What a message does to the effects: an ACK adds its own, whatever came before it, and
nothing else adds any. -/
theorem newEffects_eq (client : Client Interface) (message : Message) :
    client.newEffects getUint32BE message =
      if messageType getUint32BE message.u8 = some PacketType.ACK.byte then
        [.configure (getYourIP message.u8) (optionToIP (getOptions message.u8) OPTION_SUBNET_MASK),
          .addSubnet ((getYourIP message.u8).and
            (optionToIP (getOptions message.u8) OPTION_SUBNET_MASK))
            (optionToIP (getOptions message.u8) OPTION_SUBNET_MASK)] ++
          (find (getOptions message.u8) OPTION_ROUTER 4).elim [] fun router =>
            [.addDefault (bytesToIP router), .setNetworkEnabled]
      else [] := by
  have unchanged : client.effects.drop client.effects.length = [] := List.drop_length
  unfold newEffects parseMessage
  dsimp only
  split
  · next offer =>
      rw [if_neg]
      · exact unchanged
      · rw [offer.2]
        decide
  · split
    · rw [handleAck_effects, List.drop_left]
    · exact unchanged

/-- **A step is safe exactly if its message is no ACK or the awaited one.** -/
theorem safeStep_iff (client : Client Interface) (message : Message) :
    client.SafeStep getUint32BE message ↔ client.AwaitedACK getUint32BE message := by
  unfold SafeStep AwaitedACK
  rw [newEffects_eq]
  by_cases ack : messageType getUint32BE message.u8 = some PacketType.ACK.byte
  · rw [if_pos ack]
    cases router : find (getOptions message.u8) OPTION_ROUTER 4 with
    | none =>
        constructor
        · rintro (none | ⟨-, -, -, -, ip, mask, subnet, gateway, all⟩)
          · cases none
          · cases all
        · exact fun awaited => absurd rfl (awaited ack).2.2.2
    | some router =>
        constructor
        · rintro (none | ⟨first, -, requested, id, -⟩)
          · cases none
          · exact fun _ => ⟨requested, first, id, Option.some_ne_none _⟩
        · intro awaited
          obtain ⟨requested, first, id, -⟩ := awaited ack
          exact .inr ⟨first, ack, requested, id, _, _, _, _, rfl⟩
  · rw [if_neg ack]
    exact iff_of_true (.inl rfl) fun isAck => absurd isAck ack

/-! ## Runs -/

/-- What the client has sent: its DISCOVER and, once it has left that state, at most one
REQUEST. -/
structure Started (client : Client Interface) : Prop where
  discover : ∃ u8, client.sent = [(.DISCOVER, u8)] ∨
    client.clientState = STATE_REQUEST_SENT ∧ ∃ more, client.sent = [(.DISCOVER, u8), (.REQUEST, more)]

theorem started_dhcpConfigure (intf : Interface) (macAddress : MACAddress) :
    (dhcpConfigure intf macAddress).Started := ⟨_, .inl rfl⟩

theorem handleAck_sent (yourIP : IP4Address) (options : List DhcpOption)
    (client : Client Interface) : (client.handleAck yourIP options).sent = client.sent ∧
      (client.handleAck yourIP options).clientState = STATE_ACK_RECEIVED := by
  unfold handleAck configure Net.Route.addSubnet Net.Route.addDefault Net.Route.Entry.new
  dsimp only [Option.map_some]
  split <;> exact ⟨rfl, rfl⟩

theorem Started.parseMessage {client : Client Interface} (started : client.Started)
    (message : Message) : (client.parseMessage getUint32BE message).Started := by
  obtain ⟨u8, sent⟩ := started
  unfold Client.parseMessage
  dsimp only
  split
  · next offer =>
      rcases sent with first | ⟨requested, -⟩
      · unfold handleOffer sendPacket
        dsimp only
        rw [first]
        exact ⟨u8, .inr ⟨rfl, _, rfl⟩⟩
      · exact absurd (offer.1.symm.trans requested) (by decide)
  · split
    · obtain ⟨same, state⟩ := handleAck_sent (getYourIP message.u8) (getOptions message.u8) client
      refine ⟨u8, ?_⟩
      rw [same, state]
      exact sent.imp_right fun requested => ⟨rfl, requested.2⟩
    · exact ⟨u8, sent⟩

/-- **At most one REQUEST follows the DISCOVER**, whatever is received. -/
theorem started (intf : Interface) (macAddress : MACAddress) (messages : List Message) :
    (Transition.run (parseMessage getUint32BE) (dhcpConfigure intf macAddress) messages).Started :=
  Transition.run_invariant_of_keeps Started (fun _ message started => started.parseMessage message)
    (started_dhcpConfigure intf macAddress) messages

variable (getUint32BE)

/-- **The client is safe exactly as long as every ACK is the awaited one.** -/
theorem dhcp_safe_exact (intf : Interface) (macAddress : MACAddress) (messages : List Message) :
    Transition.Along (parseMessage getUint32BE) (SafeStep getUint32BE)
        (dhcpConfigure intf macAddress) messages ↔
      Transition.Along (parseMessage getUint32BE) (AwaitedACK getUint32BE)
        (dhcpConfigure intf macAddress) messages := by
  constructor
  · exact Transition.Along.mono fun client message => (client.safeStep_iff message).mp
  · exact Transition.Along.mono fun client message => (client.safeStep_iff message).mpr

/-- An ACK with the transaction id of another client, and without a router. -/
def foreignACK : Message where
  serverIP := ⟨10, 0, 0, 1⟩
  u8 := [2, 1, 6, 0, 0xde, 0xad, 0xbe, 0xef] ++ List.replicate 8 0 ++ [10, 0, 0, 5] ++
    List.replicate 216 0 ++ uint32BE magicCookie ++ [53, 1, 5, 1, 4, 255, 255, 255, 0, 255]

/-- `u8view.getUint32BE`, with no result past the end of the buffer. -/
def readUint32BE (u8 : Bytes) (offset : Nat) : Option (BitVec 32) :=
  match u8.drop offset with
  | a :: b :: c :: d :: _ => some (a.toBitVec ++ b.toBitVec ++ c.toBitVec ++ d.toBitVec)
  | _ => none

/-- Right after the DISCOVER such an ACK carries out half of the configuration. -/
theorem foreign_ack_configures : ∃ messages : List Message,
    (Transition.run (parseMessage readUint32BE) (dhcpConfigure 0 .ZERO) messages).effects =
      [.configure ⟨10, 0, 0, 5⟩ ⟨255, 255, 255, 0⟩, .addSubnet ⟨10, 0, 0, 0⟩ ⟨255, 255, 255, 0⟩] ∧
    ¬ Transition.Along (parseMessage readUint32BE) (SafeStep readUint32BE)
      (dhcpConfigure 0 .ZERO) messages := by
  refine ⟨[foreignACK], by decide +kernel, ?_⟩
  rintro ⟨none | ⟨-, -, ⟨u8, sent⟩, -⟩, -⟩
  · revert none
    decide +kernel
  · cases List.mem_singleton.mp sent

end Client

end Client

end JsOS.Service.DhcpClient
