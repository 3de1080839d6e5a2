import JsOS.Net.Tcp.Wired

/-! # Isolation of connections

Whether a connection can be disturbed by packets from elsewhere. A connection that a
listening socket accepted is found through the server's map under the key of its
endpoint, so other packets never get to it, and what its own packets do depends on
nothing that other packets change (`Stack.view`). A socket that was opened by its owner
is found by its port alone: `tcp.receive` hands it every packet for that port, whoever
sent it.
-/

namespace JsOS.Net.Tcp

/-- The protocol state of a connection: state, windows, queues and delivered data. -/
structure ProtocolState where
  state : State
  timeWaitTime : Nat
  transmitWindowEdge : Seq
  transmitWindowSize : Nat
  transmitPosition : Seq
  receiveWindowEdge : Seq
  receiveWindowSize : Nat
  queueTx : List (Option Bytes)
  transmitQueue : List TransmitItem
  receiveQueue : List ReceiveItem
  ackRequired : Bool
  bufferedAmount : Int
  delivered : Bytes
  deriving DecidableEq

/-- The protocol state of a socket. -/
def TCPSocket.protocolState (s : TCPSocket) : ProtocolState where
  state := s.state
  timeWaitTime := s.timeWaitTime
  transmitWindowEdge := s.transmitWindowEdge
  transmitWindowSize := s.transmitWindowSize
  transmitPosition := s.transmitPosition
  receiveWindowEdge := s.receiveWindowEdge
  receiveWindowSize := s.receiveWindowSize
  queueTx := s.queueTx
  transmitQueue := s.transmitQueue
  receiveQueue := s.receiveQueue
  ackRequired := s.ackRequired
  bufferedAmount := s.bufferedAmount
  delivered := s.delivered

/-- The packet comes from the endpoint the socket is connected to. -/
def Packet.isFromPeer (packet : Packet) (s : TCPSocket) : Bool :=
  s.destIP = some packet.srcIP && s.destPort = packet.srcPort.toNat

namespace Stack

/-- The stack after a sequence of packets. -/
def receiveAll (stack : Stack) (packets : List (Setting × Packet)) : Stack :=
  Transition.run (fun stack input => stack.receive input.1 input.2) stack packets

/-- The protocol state of the socket after any packets depends on those from its peer only. -/
def Isolated (stack : Stack) (id : SocketId) (s : TCPSocket) : Prop :=
  ∀ packets packets' : List (Setting × Packet),
    packets.filter (fun input => input.2.isFromPeer s) =
      packets'.filter (fun input => input.2.isFromPeer s) →
    ((stack.receiveAll packets).sockets[id]?).map TCPSocket.protocolState =
      ((stack.receiveAll packets').sockets[id]?).map TCPSocket.protocolState

/-! ## What concerns a connection -/

/-- The part of the stack that decides what happens to a connection of a server. -/
structure View where
  ports : PortAllocator SocketId
  socket : Option TCPSocket
  listening : Bool
  entered : Prop

/-- What concerns the connection of the server under the key. -/
def view (server : SocketId) (hash : Nat) (id : SocketId) (stack : Stack) : View where
  ports := stack.ports
  socket := stack.sockets[id]?
  listening := stack.isListening server
  entered := stack.connection server hash = some id

variable {server id : SocketId} {hash : Nat}

theorem view_ext {after : Stack} {view : View} (ports : after.ports = view.ports)
    (socket : after.sockets[id]? = view.socket)
    (listening : after.isListening server = view.listening)
    (entered : after.connection server hash = some id ↔ view.entered) :
    after.view server hash id = view := by
  unfold Stack.view
  rw [ports, socket, listening, propext entered]

theorem view_eq {stack after : Stack} (ports : after.ports = stack.ports)
    (socket : after.sockets[id]? = stack.sockets[id]?)
    (listening : after.isListening server = stack.isListening server)
    (entered : after.connection server hash = some id ↔ stack.connection server hash = some id) :
    after.view server hash id = stack.view server hash id :=
  view_ext ports socket listening entered

theorem isListening_modify (stack : Stack) (other : SocketId) (change : TCPSocket → TCPSocket)
    (state : ∀ s, (change s).state = s.state) (id : SocketId) :
    (stack.modify other change).isListening id = stack.isListening id := by
  unfold isListening
  rw [sockets_modify]
  split
  · rw [Option.any_map]
    simp only [state]
  · rfl

theorem connection_modify (stack : Stack) (other : SocketId) (change : TCPSocket → TCPSocket)
    (id : SocketId) (hash : Nat) :
    (stack.modify other change).connection id hash =
      if id = other then stack.sockets[id]?.bind fun s => (change s).connection hash
      else stack.connection id hash := by
  unfold connection
  rw [sockets_modify]
  split
  · rw [Option.bind_map]
    rfl
  · rfl

/-- An accepted connection has no map. -/
theorem IsConnection.unused {stack : Stack} (wired : stack.Wired)
    (is : stack.IsConnection server hash id) :
    ∃ s, stack.sockets[id]? = some s ∧ s.connections = none := by
  obtain ⟨s, present, parent, -⟩ := is
  exact ⟨s, present, ((wired.placed present).accepted parent).unused⟩

/-- Taking another connection out of its server's map. -/
theorem view_unregister {stack : Stack}
    (unused : ∃ s, stack.sockets[id]? = some s ∧ s.connections = none) (other : SocketId)
    {t : TCPSocket}
    (elsewhere : ∀ ip, t.serverSocket = some server → t.destIP = some ip →
      connHash ip t.destPort = hash → stack.connection server hash ≠ some id) :
    (stack.unregister other t).view server hash id = stack.view server hash id := by
  unfold unregister
  dsimp only
  split
  · next parent ip parentEq address =>
      refine view_eq rfl ?_ ?_ ?_
      · obtain ⟨s, present, empty⟩ := unused
        rw [sockets_modify]
        split
        · rw [present, Option.map_some, TCPSocket.deleteConnection, empty, Option.map_none, ← empty]
        · rfl
      · exact isListening_modify _ parent (fun v => v.deleteConnection (connHash ip t.destPort))
          (fun _ => rfl) server
      · rw [connection_modify]
        split
        · next same =>
            subst same
            change ((stack.sockets[server]?).bind fun s =>
              (s.deleteConnection (connHash ip t.destPort)).connection hash) = _ ↔ _
            simp only [TCPSocket.connection_deleteConnection]
            split
            · next key =>
                have absent := elsewhere ip parentEq address key.symm
                refine ⟨fun found => ?_, fun found => absurd found absent⟩
                rw [Option.bind_fun_none] at found
                cases found
            · exact Iff.rfl
        · exact Iff.rfl
  · exact view_eq rfl rfl rfl Iff.rfl

/-- A segment for another connection. -/
theorem view_stepSocket {stack : Stack} (wired : stack.Wired)
    (is : stack.IsConnection server hash id) {other : SocketId} (different : id ≠ other)
    {s : TCPSocket} (present : stack.sockets[other]? = some s) (quiet : s.state ≠ .listen)
    (elsewhere : ∀ ip, s.serverSocket = some server → s.destIP = some ip →
      connHash ip s.destPort = hash → stack.connection server hash ≠ some id)
    (setting : Setting) (segment : Segment) :
    (stack.stepSocket setting other (.receive segment)).view server hash id =
      stack.view server hash id := by
  rw [stepSocket_eq present]
  have wiring : (s.step ⟨stack.env setting other, .receive segment⟩).wiring = s.wiring :=
    TCPSocket.wiring_step Op.noConfusion s
  have follows := TCPSocket.step_follows ⟨stack.env setting other, .receive segment⟩ s
  generalize s.step ⟨stack.env setting other, .receive segment⟩ = t at wiring follows ⊢
  have silent : t.state ≠ .listen := by
    intro listening
    rw [listening] at follows
    exact quiet follows.eq_listen
  obtain ⟨parent, port, destIP, destPort, connections⟩ := Wiring.mk.inj wiring
  have sockets := sockets_put present t
  have socket : (stack.put other t).sockets[id]? = stack.sockets[id]? := by
    rw [sockets, if_neg different]
  have connection : (stack.put other t).connection server hash = stack.connection server hash := by
    unfold Stack.connection
    rw [sockets]
    split
    · next same =>
        rw [same, present]
        change t.connection hash = s.connection hash
        rw [TCPSocket.connection, TCPSocket.connection, connections]
    · rfl
  have listening : (stack.put other t).isListening server = stack.isListening server := by
    unfold isListening
    rw [sockets]
    split
    · next same =>
        rw [same, present, Option.any_some, Option.any_some, decide_eq_false silent,
          decide_eq_false quiet]
    · rfl
  have stored : (stack.put other t).view server hash id = stack.view server hash id :=
    view_eq rfl socket listening (by rw [connection])
  unfold settle
  split
  · refine (view_unregister ?_ other fun ip => ?_).trans stored
    · rw [socket]
      exact is.unused wired
    · rw [parent, destIP, destPort, connection]
      exact elsewhere ip
  · exact stored

/-- Among the sockets there were, accepting a connection changes the server's map. -/
theorem sockets_accept (stack : Stack) (setting : Setting) (serverId : SocketId)
    (s : TCPSocket) (packet : Packet) {other : SocketId} (below : other < stack.sockets.length) :
    (stack.accept setting serverId s packet).sockets[other]? =
      if other = serverId then
        stack.sockets[other]?.map fun v => v.enterConnection packet.hash stack.sockets.length
      else stack.sockets[other]? := by
  unfold accept
  rw [sockets_modify]
  dsimp only
  rw [List.getElem?_append_left below]

/-- A new connection of a listening socket. -/
theorem view_accept {stack : Stack} (wired : stack.Wired)
    (is : stack.IsConnection server hash id) {other : SocketId} {s : TCPSocket}
    (present : stack.sockets[other]? = some s) (bound : s.port ≠ 0)
    (client : s.serverSocket = none) {packet : Packet}
    (unknown : s.connection packet.hash = none) (setting : Setting) :
    (stack.accept setting other s packet).view server hash id = stack.view server hash id := by
  obtain ⟨u, stored, parent, -⟩ := is
  have below : id < stack.sockets.length := (List.getElem?_eq_some_iff.mp stored).1
  have different : id ≠ other := by
    rintro rfl
    rw [present] at stored
    cases stored
    rw [client] at parent
    cases parent
  have serverBelow : server < stack.sockets.length :=
    Nat.lt_trans ((wired.placed stored).accepted parent).older below
  refine view_eq (wired.accept setting present bound packet).2 ?_ ?_ ?_
  · rw [sockets_accept _ _ _ _ _ below, if_neg different]
  · unfold isListening
    rw [sockets_accept _ _ _ _ _ serverBelow]
    split
    · rw [Option.any_map]
      rfl
    · rfl
  · unfold connection
    rw [sockets_accept _ _ _ _ _ serverBelow]
    split
    · next same =>
        rw [same, present]
        change (s.enterConnection packet.hash stack.sockets.length).connection hash = some id ↔
          s.connection hash = some id
        constructor
        · intro found
          rcases TCPSocket.connection_enterConnection found with before | ⟨-, fresh⟩
          · exact before
          · exact absurd fresh (Nat.ne_of_lt below)
        · intro found
          have key : hash ≠ packet.hash := by
            rintro rfl
            rw [unknown] at found
            cases found
          rw [TCPSocket.connection_enterConnection_ne s key]
          exact found
    · exact Iff.rfl

/-- A packet that goes to another socket. -/
theorem view_receive_of_other {stack : Stack} (wired : stack.Wired)
    (is : stack.IsConnection server hash id) (setting : Setting) {packet : Packet}
    (goes : stack.destination packet ≠ some id) :
    (stack.receive setting packet).view server hash id = stack.view server hash id := by
  rcases wired.receive_cases setting packet with ⟨-, same⟩ | ⟨other, s, goes', present, result⟩
  · rw [same]
  have different : id ≠ other := by
    rintro rfl
    exact goes goes'
  have wired' := wired.bindInterface other packet.intf
  have present' := sockets_bindInterface present packet.intf
  have socket : (stack.modify other fun s => s.bindInterface packet.intf).sockets[id]? =
      stack.sockets[id]? := by
    rw [sockets_modify, if_neg different]
  have connection (id : SocketId) (hash : Nat) :
      (stack.modify other fun s => s.bindInterface packet.intf).connection id hash =
        stack.connection id hash := by
    rw [connection_modify]
    split <;> rfl
  have bound : (stack.modify other fun s => s.bindInterface packet.intf).view server hash id =
      stack.view server hash id :=
    view_eq rfl socket (isListening_modify _ other (fun s => s.bindInterface packet.intf)
      (fun _ => rfl) server) (by rw [connection])
  have is' : (stack.modify other fun s => s.bindInterface packet.intf).IsConnection server hash
      id := by
    unfold IsConnection
    rw [socket]
    exact is
  rcases result with ⟨quiet, -, takes⟩ | ⟨-, client, port, unknown, accepts⟩
  · rw [takes]
    refine (view_stepSocket wired' is' different present' quiet (fun ip parent address key => ?_)
      setting packet.segment).trans bound
    rw [connection]
    -- The socket got the packet as a connection of the same server, under its own key.
    rcases wired.destination goes' with ⟨found, -⟩ | ⟨owner, -, -, entry, t, present'', parent',
      ip', address', key'⟩
    · cases (wired.port_eq present found).2.symm.trans parent
    · cases present.symm.trans present''
      cases parent.symm.trans parent'
      cases address.symm.trans address'
      have same : hash = packet.hash := key.symm.trans key'
      rw [same, entry]
      exact fun same => different (Option.some.inj same).symm
  · rw [accepts]
    split
    · exact (view_accept wired' is' present' port client unknown setting).trans bound
    · exact bound

/-- When a packet goes to the connection. -/
theorem destination_iff {stack : Stack} (wired : stack.Wired)
    (is : stack.IsConnection server hash id) (packet : Packet) :
    stack.destination packet = some id ↔ packet.hash = hash ∧
      (stack.view server hash id).ports.lookup packet.destPort.toNat = some server ∧
      (stack.view server hash id).listening ∧ (stack.view server hash id).entered := by
  constructor
  · intro goes
    obtain ⟨s, present, parent, ip, address, key⟩ := is
    rcases wired.destination goes with ⟨found, -⟩ | ⟨owner, found, listening, entry, s', present',
      parent', ip', address', key'⟩
    · rw [(wired.port_eq present found).2] at parent
      cases parent
    · rw [present] at present'
      cases present'
      rw [parent] at parent'
      cases parent'
      rw [address] at address'
      cases address'
      have same : packet.hash = hash := key'.symm.trans key
      exact ⟨same, found, listening, same ▸ entry⟩
  · rintro ⟨same, found, listening, entry⟩
    change stack.ports.lookup _ = _ at found
    change stack.isListening server = true at listening
    change stack.connection server hash = some id at entry
    rw [destination, found, Option.map_some, if_pos listening, connectionSocket, same, entry]
    rfl

/-- What a segment of its own does to what concerns the connection. -/
def View.receive (setting : Setting) (packet : Packet) (view : View) : View :=
  match view.socket with
  | none => view
  | some s =>
      let t := (s.bindInterface packet.intf).receive setting.now packet.segment
      { view with
        socket := some t
        entered := view.entered ∧ .destroy ∉ t.events.drop s.events.length }

/-- A packet that goes to the connection. -/
theorem view_receive_of_own {stack : Stack} (wired : stack.Wired)
    (is : stack.IsConnection server hash id) (setting : Setting) {packet : Packet}
    (goes : stack.destination packet = some id) :
    (stack.receive setting packet).view server hash id =
      (stack.view server hash id).receive setting packet := by
  obtain ⟨s, present, parent, ip, address, key⟩ := is
  obtain ⟨older, quiet, unused, -, -⟩ := (wired.placed present).accepted parent
  have different : server ≠ id := Nat.ne_of_lt older
  rcases wired.receive_cases setting packet with ⟨nowhere, -⟩ | ⟨id', s', goes', present', result⟩
  · cases nowhere.symm.trans goes
  cases goes.symm.trans goes'
  cases present.symm.trans present'
  rcases result with ⟨-, -, takes⟩ | ⟨listening, -⟩
  · have bound := sockets_bindInterface present packet.intf
    rw [takes, stepSocket_eq bound]
    have wiring := TCPSocket.wiring_receive setting.now packet.segment (s.bindInterface packet.intf)
    change ((stack.modify id fun s => s.bindInterface packet.intf).settle id
      (s.bindInterface packet.intf) ((s.bindInterface packet.intf).receive setting.now
        packet.segment)).view server hash id = _
    rw [View.receive, show (stack.view server hash id).socket = some s from present]
    dsimp only
    generalize (s.bindInterface packet.intf).receive setting.now packet.segment = t at wiring ⊢
    obtain ⟨parentEq, -, addressEq, destPort, -⟩ := Wiring.mk.inj wiring
    have sockets := sockets_put bound t
    have listening : ((stack.modify id fun s => s.bindInterface packet.intf).put id t).isListening
        server = stack.isListening server := by
      rw [isListening, sockets, if_neg different]
      exact isListening_modify stack id (fun s => s.bindInterface packet.intf) (fun _ => rfl) server
    have connection : ((stack.modify id fun s => s.bindInterface packet.intf).put id t).connection
        server hash = stack.connection server hash := by
      rw [Stack.connection, sockets, if_neg different]
      change (stack.modify id fun s => s.bindInterface packet.intf).connection server hash = _
      rw [connection_modify, if_neg different]
    unfold settle
    split
    · next destroyed =>
        unfold unregister
        rw [show t.serverSocket = some server from parentEq.trans parent,
          show t.destIP = some ip from addressEq.trans address]
        dsimp only
        rw [show connHash ip t.destPort = hash from destPort ▸ key]
        refine view_ext rfl ?_ ?_ ?_
        · rw [sockets_modify, if_neg (Ne.symm different)]
          exact (sockets id).trans (if_pos rfl)
        · rw [isListening_modify _ server (fun v => v.deleteConnection hash) fun _ => rfl]
          exact listening
        · rw [connection_modify, if_pos rfl]
          simp only [TCPSocket.connection_deleteConnection, if_pos, Option.bind_fun_none]
          constructor
          · rintro ⟨⟩
          · exact fun kept => absurd destroyed kept.2
    · next kept =>
        refine view_ext rfl ((sockets id).trans (if_pos rfl)) listening ?_
        rw [connection]
        exact ⟨fun entered => ⟨entered, kept⟩, And.left⟩
  · exact absurd listening quiet

/-! ## Runs of packets -/

/-- A packet leaves the socket the connection of its server. -/
theorem IsConnection.receive {stack : Stack} (wired : stack.Wired)
    (is : stack.IsConnection server hash id) (setting : Setting) (packet : Packet) :
    (stack.receive setting packet).IsConnection server hash id := by
  by_cases goes : stack.destination packet = some id
  · have view := congrArg View.socket (view_receive_of_own wired is setting goes)
    obtain ⟨s, present, parent, ip, address, key⟩ := is
    rw [View.receive, show (stack.view server hash id).socket = some s from present] at view
    have wiring := TCPSocket.wiring_receive setting.now packet.segment (s.bindInterface packet.intf)
    obtain ⟨parentEq, -, addressEq, destPort, -⟩ := Wiring.mk.inj wiring
    exact ⟨_, view, parentEq.trans parent, ip, addressEq.trans address, destPort ▸ key⟩
  · have view : (stack.receive setting packet).sockets[id]? = stack.sockets[id]? :=
      congrArg View.socket (view_receive_of_other wired is setting goes)
    unfold IsConnection
    rw [view]
    exact is

/-- **A connection of a listening socket depends on the packets of its peer only.** -/
theorem view_receiveAll_filter {stack : Stack} (wired : stack.Wired) {s : TCPSocket}
    (present : stack.sockets[id]? = some s) (accepted : s.serverSocket = some server)
    {ip : IP4Address} (address : s.destIP = some ip)
    (packets : List (Setting × Packet)) :
    (stack.receiveAll packets).view server (connHash ip s.destPort) id =
      (stack.receiveAll (packets.filter fun input => input.2.isFromPeer s)).view server
        (connHash ip s.destPort) id := by
  have own (packet : Packet) : packet.isFromPeer s = true ↔
      packet.hash = connHash ip s.destPort := by
    rw [Packet.isFromPeer, Packet.hash, address, connHash_inj, Bool.and_eq_true,
      decide_eq_true_iff, decide_eq_true_iff, Option.some.injEq]
    exact and_congr eq_comm eq_comm
  have is : stack.IsConnection server (connHash ip s.destPort) id :=
    ⟨s, present, accepted, ip, address, rfl⟩
  refine Transition.view_run_eq_view_run_filter (Stack.view server (connHash ip s.destPort) id) _
    (fun stack => stack.Wired ∧ stack.IsConnection server (connHash ip s.destPort) id)
    ?_ ?_ ?_ ⟨wired, is⟩ ⟨wired, is⟩ rfl packets
  · rintro stack ⟨setting, packet⟩ ⟨wired, is⟩
    exact ⟨wired.receive setting packet, is.receive wired setting packet⟩
  · rintro stack ⟨setting, packet⟩ ⟨wired, is⟩ foreign
    refine view_receive_of_other wired is setting fun goes => ?_
    rw [(own packet).mpr ((destination_iff wired is packet).mp goes).1] at foreign
    cases foreign
  · rintro stack stack' ⟨setting, packet⟩ ⟨wired, is⟩ ⟨wired', is'⟩ - same
    have routes := (destination_iff wired is packet).trans
      (same ▸ (destination_iff wired' is' packet).symm)
    by_cases goes : stack.destination packet = some id
    · rw [view_receive_of_own wired is setting goes,
        view_receive_of_own wired' is' setting (routes.mp goes), same]
    · rw [view_receive_of_other wired is setting goes,
        view_receive_of_other wired' is' setting fun goes' => goes (routes.mpr goes'), same]

theorem isolated_of_accepted {stack : Stack} (wired : stack.Wired) {s : TCPSocket}
    (present : stack.sockets[id]? = some s) (accepted : s.serverSocket ≠ none) :
    stack.Isolated id s := by
  obtain ⟨server, parent⟩ := Option.ne_none_iff_exists'.mp accepted
  obtain ⟨ip, address⟩ := Option.ne_none_iff_exists'.mp
    ((wired.placed present).accepted parent).addressed
  intro packets packets' same
  have first := view_receiveAll_filter wired present parent address packets
  have second := view_receiveAll_filter wired present parent address packets'
  rw [same, ← second] at first
  exact congrArg (Option.map TCPSocket.protocolState) (congrArg View.socket first)

/-! ## Sockets that are found by their port -/

theorem sockets_settle_of_client {stack : Stack} {id : SocketId} {s t : TCPSocket}
    (client : t.serverSocket = none) :
    (stack.settle id s t).sockets = (stack.put id t).sockets := by
  unfold settle unregister
  rw [client]
  split <;> rfl

/-- A FIN ends an established connection. -/
theorem receive_fin_state (now : Nat) {segment : Segment} (fin : segment.hasFIN) {s : TCPSocket}
    (established : s.state = .established) : (s.receive now segment).state ≠ .established := by
  have data : s.receiveSwitch now segment = s.receiveData now segment := by
    rw [TCPSocket.receiveSwitch, established]
  unfold TCPSocket.receive
  rw [if_neg (by rw [established]; exact State.noConfusion), data, if_pos fin]
  rcases TCPSocket.receiveFIN_state now segment (s.receiveData now segment) with after | closed
  · rw [after]
    rcases TCPSocket.receiveData_state now segment s with same | closed
    · rw [same, established]
      exact State.noConfusion
    · rw [closed]
      exact State.noConfusion
  · rw [closed]
    exact State.noConfusion

/-- A FIN from another endpoint than the peer's. -/
def strayFIN (s : TCPSocket) : Packet where
  intf := 0
  srcIP := ⟨0, 0, 0, 0⟩
  srcPort := if s.destPort = 0 then 1 else 0
  destPort := BitVec.ofNat 16 s.port
  segment := .ofData flagFIN 0 0 0 []

theorem strayFIN_foreign (s : TCPSocket) : (strayFIN s).isFromPeer s = false := by
  rw [Packet.isFromPeer, Bool.and_eq_false_iff]
  refine .inr (decide_eq_false fun same => ?_)
  unfold strayFIN at same
  dsimp only at same
  split at same
  · next zero =>
      rw [zero] at same
      cases same
  · next nonzero => exact nonzero same

/-- A socket registered under its port takes the FIN. -/
theorem receive_strayFIN {stack : Stack} (wired : stack.Wired) {s : TCPSocket}
    (present : stack.sockets[id]? = some s) (established : s.state = .established)
    (client : s.serverSocket = none) (found : stack.ports.lookup s.port = some id)
    (setting : Setting) :
    ∃ t, (stack.receive setting (strayFIN s)).sockets[id]? = some t ∧ t.state ≠ .established := by
  have quiet : s.state ≠ .listen := by
    rw [established]
    exact State.noConfusion
  have port : (strayFIN s).destPort.toNat = s.port := by
    have below := ((isPort_iff s.port).mp (wired.ports.isPort_of_lookup found)).2
    exact (BitVec.toNat_ofNat s.port 16).trans (Nat.mod_eq_of_lt below)
  have goes : stack.destination (strayFIN s) = some id := by
    rw [destination, port, found, Option.map_some, if_neg]
    rw [isListening_iff present]
    exact quiet
  rcases wired.receive_cases setting (strayFIN s) with ⟨nowhere, -⟩ | ⟨id', s', goes', present', result⟩
  · cases nowhere.symm.trans goes
  cases goes.symm.trans goes'
  cases present.symm.trans present'
  rcases result with ⟨-, -, takes⟩ | ⟨listening, -⟩
  · have bound := sockets_bindInterface present (strayFIN s).intf
    refine ⟨(s.bindInterface (strayFIN s).intf).receive setting.now (strayFIN s).segment, ?_,
      receive_fin_state setting.now (show (Segment.ofData flagFIN 0 0 0 []).hasFIN by decide)
        established⟩
    rw [takes, stepSocket_eq bound, sockets_settle_of_client]
    · exact (sockets_put bound _ id).trans (if_pos rfl)
    · have wiring := TCPSocket.wiring_receive setting.now (strayFIN s).segment
        (s.bindInterface (strayFIN s).intf)
      exact (Wiring.mk.inj wiring).1.trans client
  · exact absurd listening quiet

/-- **Connections are isolated exactly when they were accepted.** A client connection is
found by its port, so that any host can end it. -/
theorem isolated_iff_accepted {stack : Stack} (reachable : stack.Reachable) {id : SocketId}
    {s : TCPSocket} (present : stack.sockets[id]? = some s)
    (established : s.state = .established) :
    stack.Isolated id s ↔ s.serverSocket ≠ none := by
  have wired := reachable.wired
  refine ⟨fun isolated client => ?_, isolated_of_accepted wired present⟩
  have found : stack.ports.lookup s.port = some id := by
    rcases (wired.placed present).owned client with state | state | ⟨state, -⟩ | found
    · cases state.symm.trans established
    · cases state.symm.trans established
    · cases state.symm.trans established
    · exact found
  let setting : Setting := ⟨0, fun _ _ => none⟩
  obtain ⟨t, stored, ended⟩ := receive_strayFIN wired present established client found setting
  have same := isolated [(setting, strayFIN s)] [] (by
    rw [List.filter_cons_of_neg (by rw [strayFIN_foreign]; exact Bool.false_ne_true)])
  change ((stack.receive setting (strayFIN s)).sockets[id]?).map TCPSocket.protocolState =
    (stack.sockets[id]?).map TCPSocket.protocolState at same
  rw [stored, present] at same
  exact ended ((congrArg ProtocolState.state (Option.some.inj same)).trans established)

/-- A routing table with one interface for every address. -/
def lan (now : Nat) : Setting := ⟨now, fun _ _ => some ⟨none, 0⟩⟩

/-- A server on port 80 with a connection from port 5000 of 10.0.0.2. -/
def serving : Stack :=
  Transition.run step {}
    [(lan 0, .listen {} ⟨true, true, true, true, none⟩ 80),
      (lan 1, .receive ⟨0, ⟨10, 0, 0, 2⟩, 5000, 80, .ofData flagSYN 999 0 8192 []⟩),
      (lan 2, .receive ⟨0, ⟨10, 0, 0, 2⟩, 5000, 80, .ofData flagACK 1000 20000 8192 []⟩)]

theorem isolated_serving :
    ∃ s, serving.sockets[1]? = some s ∧ s.state = .established ∧ serving.Isolated 1 s := by
  have present : serving.sockets[1]? = some (serving.sockets[1]?.get (by decide)) :=
    (Option.some_get _).symm
  have established : (serving.sockets[1]?.get (by decide)).state = .established := by decide
  exact ⟨_, present, established,
    (isolated_iff_accepted ⟨_, rfl⟩ present established).mpr (by decide)⟩

/-- A client connected to port 80 of 10.0.0.2. -/
def browsing : Stack :=
  Transition.run step {}
    [(lan 0, .connect ⟨true, true, true, true, none⟩ ⟨10, 0, 0, 2⟩ 80),
      (lan 1, .receive ⟨0, ⟨10, 0, 0, 2⟩, 80, 49152,
        .ofData (flagSYN ||| flagACK) 4999 20000 8192 []⟩)]

/-- A FIN from 10.0.0.9 moves the client to CLOSE_WAIT. -/
theorem browsing_disturbed :
    browsing.Reachable ∧ ∃ s, browsing.sockets[0]? = some s ∧ s.state = .established ∧
      ((browsing.receive (lan 2) ⟨0, ⟨10, 0, 0, 9⟩, 1234, 49152,
        .ofData flagFIN 5000 20000 8192 []⟩).sockets[0]?).map TCPSocket.state = some .closeWait ∧
      ¬ browsing.Isolated 0 s := by
  refine ⟨⟨_, rfl⟩, browsing.sockets[0]?.get (by decide), (Option.some_get _).symm, by decide,
    by decide, fun isolated => ?_⟩
  have same := isolated [(lan 2, ⟨0, ⟨10, 0, 0, 9⟩, 1234, 49152,
    .ofData flagFIN 5000 20000 8192 []⟩)] [] rfl
  revert same
  decide

end Stack

end JsOS.Net.Tcp
