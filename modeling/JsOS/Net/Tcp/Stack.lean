import JsOS.Net.Tcp.Step

/-! # The TCP stack

All sockets of the system with what they share: the port allocator and the timer's
set of connections. A socket object is identified by its position in the list of all
sockets made so far. Owners open connections, listen for them and call the methods of
their sockets; the interface hands packets to `tcp.receive`, which finds the socket
through the allocator and, for a listening socket, through its map of connections.

A socket object is opened or set to listen once, when it is made. `_destroy` is
carried out when the method that calls it returns; no method reads the timer's set or
a map of connections after such a call.
-/

namespace JsOS.Net.Tcp

/-- What is read from outside the stack: the clock and the routing table. -/
structure Setting where
  now : Nat
  route : IP4Address → Option Interface → Option RoutingEntry

/-- What `tcp.receive` gets from the interface and reads from the header. -/
structure Packet where
  intf : Interface
  srcIP : IP4Address
  srcPort : BitVec 16
  destPort : BitVec 16
  segment : Segment

/-- The key of the packet's source in a map of connections. -/
def Packet.hash (packet : Packet) : Nat := connHash packet.srcIP packet.srcPort.toNat

/-- A new socket with the callbacks. -/
def Handlers.socket (handlers : Handlers) : TCPSocket where
  onopen := handlers.onopen
  onend := handlers.onend
  ondata := handlers.ondata
  onclose := handlers.onclose
  ondrain := handlers.ondrain

namespace TCPSocket

/-- `_connections.get(hash)`. -/
def connection (s : TCPSocket) (hash : Nat) : Option SocketId :=
  s.connections.bind fun connections => connections.lookup hash

/-- `_connections.set(hash, id)`. -/
def enterConnection (s : TCPSocket) (hash : Nat) (id : SocketId) : TCPSocket :=
  { s with connections := s.connections.map fun connections => connections.insert hash id }

/-- `_connections.delete(hash)`. -/
def deleteConnection (s : TCPSocket) (hash : Nat) : TCPSocket :=
  { s with connections := s.connections.map fun connections => connections.erase hash }

/-- Assign `_intf` if it is not set. -/
def bindInterface (s : TCPSocket) (intf : Interface) : TCPSocket :=
  { s with intf := some (s.intf.getD intf) }

/-- `_configure` gets to the allocation of a port. -/
def asksPort (env : Env) (s : TCPSocket) : Bool :=
  s.port = 0 && s.destIP.any fun destIP => !destIP.isBroadcast && (env.route destIP s.intf).isSome

/-- The fields `_receive` sets on a new connection before it sends its SYN. -/
def accepting (serverId : SocketId) (server : TCPSocket) (srcIP : IP4Address) (srcPort : Nat)
    (segment : Segment) (fresh : TCPSocket) : TCPSocket :=
  { fresh with
    serverSocket := some serverId
    intf := server.intf
    viaIP := server.viaIP
    receiveWindowEdge := seqInc segment.seqNumber 1
    state := .synReceived
    destIP := some srcIP
    destPort := srcPort
    port := server.port }

theorem accept_eq (env : Env) (serverId : SocketId) (server : TCPSocket) (srcIP : IP4Address)
    (srcPort : Nat) (segment : Segment) (fresh : TCPSocket) :
    accept env serverId server srcIP srcPort segment fresh =
      (accepting serverId server srcIP srcPort segment fresh).sendSYN env true := rfl

/-- The fields `open` sets before it sends its SYN. -/
def opening (ip : IP4Address) (port : Nat) (fresh : TCPSocket) : TCPSocket :=
  { fresh with destPort := port, destIP := some ip, state := .synSent }

/-- The fields `_listen` sets. -/
def listening (port : Nat) (onconnect : Handlers) (fresh : TCPSocket) : TCPSocket :=
  { fresh with port, state := .listen, connections := some ∅, onconnect }

end TCPSocket

/-- All sockets, `ports`, and the set of connections of `tcp-timer`. -/
structure Stack where
  sockets : List TCPSocket := []
  ports : PortAllocator SocketId := {}
  timer : List SocketId := []

namespace Stack

/-- What a method of the socket reads from the system. -/
def env (stack : Stack) (setting : Setting) (id : SocketId) : Env :=
  ⟨setting.now, setting.route, (stack.ports.allocEphemeral id).1⟩

/-- The allocator after `_configure` of the socket. -/
def configured (stack : Stack) (setting : Setting) (id : SocketId) (s : TCPSocket) :
    PortAllocator SocketId :=
  if s.asksPort (stack.env setting id) then (stack.ports.allocEphemeral id).2 else stack.ports

/-- Store a socket. -/
def put (stack : Stack) (id : SocketId) (s : TCPSocket) : Stack :=
  { stack with sockets := stack.sockets.set id s }

/-- Change the map of connections, the interface or the like of a socket. -/
def modify (stack : Stack) (id : SocketId) (change : TCPSocket → TCPSocket) : Stack :=
  { stack with sockets := stack.sockets.modify id change }

/-- What `_destroy` does outside the socket: it leaves the timer and its server's map. -/
def unregister (stack : Stack) (id : SocketId) (s : TCPSocket) : Stack :=
  let stack := { stack with timer := stack.timer.filter fun other => other ≠ id }
  match s.serverSocket, s.destIP with
  | some server, some ip => stack.modify server fun v => v.deleteConnection (connHash ip s.destPort)
  | _, _ => stack

/-- Store a socket after a method and do what the method did outside of it. -/
def settle (stack : Stack) (id : SocketId) (s t : TCPSocket) : Stack :=
  if .destroy ∈ t.events.drop s.events.length then (stack.put id t).unregister id t
  else stack.put id t

/-! ## Calls of the owners -/

/-- `new TCPSocket()` and `open`; nothing changes when it throws. -/
def connect (stack : Stack) (setting : Setting) (handlers : Handlers) (ip : IP4Address)
    (port : Nat) : Stack :=
  let id := stack.sockets.length
  match handlers.socket.openSocket (stack.env setting id) ip port with
  | .error _ => stack
  | .ok s =>
      { sockets := stack.sockets ++ [s]
        ports := stack.configured setting id (handlers.socket.opening ip port)
        timer := stack.timer ++ [id] }

/-- `new TCPSocket()` and `_listen`. -/
def listen (stack : Stack) (handlers onconnect : Handlers) (port : Nat) :
    Except SocketError Stack :=
  let id := stack.sockets.length
  if port = 0 then
    let (port, ports) := stack.ports.allocEphemeral id
    .ok { stack with sockets := stack.sockets ++ [handlers.socket.listening port onconnect], ports }
  else
    match stack.ports.allocPort port id with
    | none => .error .E_INVALID_PORT
    | some (false, _) => .error .E_ADDRESS_IN_USE
    | some (true, ports) =>
        .ok { stack with
          sockets := stack.sockets ++ [handlers.socket.listening port onconnect], ports }

/-- A step of a socket, with what it does outside of it. -/
def stepSocket (stack : Stack) (setting : Setting) (id : SocketId) (op : Op) : Stack :=
  match stack.sockets[id]? with
  | none => stack
  | some s => stack.settle id s (s.step ⟨stack.env setting id, op⟩)

/-- `close`. For a listening socket without a port the assertion in `ports.free` throws
after `_state` is assigned. -/
def close (stack : Stack) (setting : Setting) (id : SocketId) : Stack :=
  match stack.sockets[id]? with
  | none => stack
  | some s =>
      if s.state = .listen then
        match stack.ports.free s.port with
        | none => stack.put id (s.setState .closed)
        | some ports => { stack.stepSocket setting id .close with ports }
      else stack.stepSocket setting id .close

/-- The timer calls `_timerTick` of a socket in its set. -/
def timerTick (stack : Stack) (setting : Setting) (id : SocketId) : Stack :=
  match stack.sockets[id]? with
  | none => stack
  | some s =>
      if id ∈ stack.timer then
        if s.state = .synSent ∨ s.state = .synReceived then
          { stack.stepSocket setting id .timerTick with ports := stack.configured setting id s }
        else stack.stepSocket setting id .timerTick
      else stack

/-! ## Packets -/

/-- The socket is listening. -/
def isListening (stack : Stack) (id : SocketId) : Bool :=
  stack.sockets[id]?.any fun s => s.state = .listen

/-- The connection in the socket's map. -/
def connection (stack : Stack) (id : SocketId) (hash : Nat) : Option SocketId :=
  stack.sockets[id]?.bind fun s => s.connection hash

/-- `connectionSocket`. -/
def connectionSocket (stack : Stack) (id : SocketId) (packet : Packet) : SocketId :=
  (stack.connection id packet.hash).getD id

/-- The socket whose `_receive` gets the packet. -/
def destination (stack : Stack) (packet : Packet) : Option SocketId :=
  (stack.ports.lookup packet.destPort.toNat).map fun id =>
    if stack.isListening id then stack.connectionSocket id packet else id

/-- A listening socket makes a connection for a SYN. -/
def accept (stack : Stack) (setting : Setting) (serverId : SocketId) (server : TCPSocket)
    (packet : Packet) : Stack :=
  let id := stack.sockets.length
  let fresh := server.onconnect.socket
  let socket := TCPSocket.accept (stack.env setting id) serverId server packet.srcIP
    packet.srcPort.toNat packet.segment fresh
  let ports := stack.configured setting id (TCPSocket.accepting serverId server packet.srcIP
    packet.srcPort.toNat packet.segment fresh)
  let after : Stack := ⟨stack.sockets ++ [socket], ports, stack.timer ++ [id]⟩
  after.modify serverId fun v => v.enterConnection packet.hash id

/-- `_receive`. A connection in the map of a listening socket is never listening. -/
def receiveSocket (stack : Stack) (setting : Setting) (id : SocketId) (packet : Packet) : Stack :=
  match stack.sockets[id]? with
  | none => stack
  | some s =>
      if s.state = .listen then
        match s.connection packet.hash with
        | some connection => stack.stepSocket setting connection (.receive packet.segment)
        | none => if packet.segment.hasSYN then stack.accept setting id s packet else stack
      else stack.stepSocket setting id (.receive packet.segment)

/-- `tcp.receive`. -/
def receive (stack : Stack) (setting : Setting) (packet : Packet) : Stack :=
  match stack.destination packet with
  | none => stack
  | some id =>
      (stack.modify id fun s => s.bindInterface packet.intf).receiveSocket setting id packet

/-! ## Runs -/

/-- What happens to the stack. -/
inductive Action where
  | connect (handlers : Handlers) (ip : IP4Address) (port : Nat)
  | listen (handlers onconnect : Handlers) (port : Nat)
  | send (id : SocketId) (u8 : Bytes)
  | halfclose (id : SocketId)
  | close (id : SocketId)
  | timerTick (id : SocketId)
  | receive (packet : Packet)

/-- One step of the stack; a call that throws changes nothing. -/
def step (stack : Stack) (input : Setting × Action) : Stack :=
  let setting := input.1
  match input.2 with
  | .connect handlers ip port => stack.connect setting handlers ip port
  | .listen handlers onconnect port =>
      match stack.listen handlers onconnect port with
      | .ok after => after
      | .error _ => stack
  | .send id u8 => stack.stepSocket setting id (.send u8)
  | .halfclose id => stack.stepSocket setting id .halfclose
  | .close id => stack.close setting id
  | .timerTick id => stack.timerTick setting id
  | .receive packet => stack.receive setting packet

/-- The stack can come about from the start of the system. -/
def Reachable (stack : Stack) : Prop :=
  ∃ inputs, stack = Transition.run step {} inputs

end Stack

end JsOS.Net.Tcp
