import JsOS.Net.Tcp.Wired

/-! # What a step of the stack can do

A step of a wired stack makes a socket, or lets one socket take one step, or gives a
socket its interface, or does nothing (`Moves`). Invariants of the stack are case
analyses over these.
-/

namespace JsOS.Net.Tcp

namespace Stack

/-- The allocator after a tick of the socket. -/
def ticked (stack : Stack) (setting : Setting) (id : SocketId) (s : TCPSocket) :
    PortAllocator SocketId :=
  if s.state = .synSent ∨ s.state = .synReceived then stack.configured setting id s
  else stack.ports

/-- The stack with a socket moved by one operation. -/
def moved (stack : Stack) (setting : Setting) (id : SocketId) (s : TCPSocket) (op : Op) : Stack :=
  stack.settle id s (s.step ⟨stack.env setting id, op⟩)

/-- How a packet gets to a socket that does not listen: under its port, or through the map
of the server that accepted it. -/
def Reaches (stack : Stack) (packet : Packet) (id : SocketId) (s : TCPSocket) : Prop :=
  (s.serverSocket = none ∧ stack.ports.lookup s.port = some id) ∨
    ∃ server, s.serverSocket = some server ∧ stack.connection server packet.hash = some id

/-- The stacks one action can lead to. -/
inductive Moves (stack : Stack) (setting : Setting) : Action → Stack → Prop where
  | idle (action : Action) : Moves stack setting action stack
  | connect (handlers : Handlers) (ip : IP4Address) (port : Nat) :
      Moves stack setting (.connect handlers ip port)
        ⟨stack.sockets ++ [(handlers.socket.opening ip port).sendSYN
            (stack.env setting stack.sockets.length) false],
          stack.configured setting stack.sockets.length (handlers.socket.opening ip port),
          stack.timer ++ [stack.sockets.length]⟩
  | listen (handlers onconnect : Handlers) (asked : Nat) {port : Nat}
      {ports : PortAllocator SocketId} (valid : ports.Valid)
      (assigns : stack.ports.Assigns stack.sockets.length port ports) :
      Moves stack setting (.listen handlers onconnect asked)
        ⟨stack.sockets ++ [handlers.socket.listening port onconnect], ports, stack.timer⟩
  | call {id : SocketId} {s : TCPSocket} (action : Action) (op : Op)
      (present : stack.sockets[id]? = some s)
      (called : (∃ u8, op = .send u8) ∨ op = .halfclose ∨ op = .close)
      (bound : s.state = .listen → op ≠ .close) :
      Moves stack setting action (stack.moved setting id s op)
  | closeUnbound {id : SocketId} {s : TCPSocket} (present : stack.sockets[id]? = some s)
      (listening : s.state = .listen) (unbound : s.port = 0) :
      Moves stack setting (.close id) (stack.put id (s.setState .closed))
  | closeBound {id : SocketId} {s : TCPSocket} {ports : PortAllocator SocketId}
      (present : stack.sockets[id]? = some s) (listening : s.state = .listen)
      (found : stack.ports.lookup s.port = some id) (frees : stack.ports.Frees s.port ports) :
      Moves stack setting (.close id) { stack.moved setting id s .close with ports }
  | tick {id : SocketId} {s : TCPSocket} (present : stack.sockets[id]? = some s)
      (timed : id ∈ stack.timer) :
      Moves stack setting (.timerTick id)
        { stack.moved setting id s .timerTick with ports := stack.ticked setting id s }
  | ignore (packet : Packet) (id : SocketId) :
      Moves stack setting (.receive packet) (stack.modify id fun s => s.bindInterface packet.intf)
  | accept (packet : Packet) {id : SocketId} {s : TCPSocket}
      (present : stack.sockets[id]? = some s) (listening : s.state = .listen)
      (bound : s.port ≠ 0) (unknown : s.connection packet.hash = none) :
      Moves stack setting (.receive packet)
        ((stack.modify id fun s => s.bindInterface packet.intf).accept setting id
          (s.bindInterface packet.intf) packet)
  | receive (packet : Packet) {id : SocketId} {s : TCPSocket}
      (present : stack.sockets[id]? = some s) (goes : stack.destination packet = some id)
      (quiet : s.state ≠ .listen) (reached : stack.Reaches packet id s) :
      Moves stack setting (.receive packet)
        ((stack.modify id fun s => s.bindInterface packet.intf).moved setting id
          (s.bindInterface packet.intf) (.receive packet.segment))

variable {stack : Stack} {setting : Setting}

theorem stepSocket_eq_moved {id : SocketId} {s : TCPSocket}
    (present : stack.sockets[id]? = some s) (op : Op) :
    stack.stepSocket setting id op = stack.moved setting id s op :=
  stepSocket_eq present setting op

/-- A call of a method of a socket. -/
theorem moves_call (action : Action) {id : SocketId} {op : Op}
    (called : (∃ u8, op = .send u8) ∨ op = .halfclose ∨ op = .close)
    (bound : ∀ s, stack.sockets[id]? = some s → s.state = .listen → op ≠ .close) :
    Moves stack setting action (stack.stepSocket setting id op) := by
  cases present : stack.sockets[id]? with
  | none =>
      rw [stepSocket, present]
      exact .idle action
  | some s =>
      rw [stepSocket_eq_moved present]
      exact .call action op present called (bound s present)

theorem moves_connect (handlers : Handlers) (ip : IP4Address) (port : Nat) :
    Moves stack setting (.connect handlers ip port) (stack.connect setting handlers ip port) := by
  unfold Stack.connect TCPSocket.openSocket
  dsimp only
  by_cases valid : isPort port
  · rw [if_pos valid]
    exact .connect handlers ip port
  · rw [if_neg valid]
    exact .idle _

theorem Wired.moves_listen (wired : stack.Wired) {handlers onconnect : Handlers} {port : Nat}
    {after : Stack} (listens : stack.listen handlers onconnect port = .ok after) :
    Moves stack setting (.listen handlers onconnect port) after := by
  unfold Stack.listen at listens
  dsimp only at listens
  split at listens
  · cases listens
    obtain ⟨valid, assigns⟩ := wired.ports.allocEphemeral stack.sockets.length
    exact .listen handlers onconnect port valid assigns
  · split at listens
    · cases listens
    · cases listens
    · next allocates =>
        cases listens
        obtain ⟨valid, assigns⟩ := wired.ports.allocPort allocates
        exact .listen handlers onconnect port valid assigns

theorem Wired.moves_close (wired : stack.Wired) (id : SocketId) :
    Moves stack setting (.close id) (stack.close setting id) := by
  unfold Stack.close
  cases present : stack.sockets[id]? with
  | none => exact .idle _
  | some s =>
      dsimp only
      split
      · next listening =>
          obtain ⟨-, registered⟩ := wired.of_listening present listening
          cases frees : stack.ports.free s.port with
          | none =>
              refine .closeUnbound present listening (registered.resolve_right fun found => ?_)
              have isPort := wired.ports.isPort_of_lookup found
              unfold PortAllocator.free at frees
              rw [if_pos isPort] at frees
              dsimp only at frees
              split at frees
              · cases frees
              · split at frees <;> cases frees
          | some ports =>
              rw [stepSocket_eq_moved present]
              refine .closeBound present listening (registered.resolve_left fun zero => ?_)
                (wired.ports.free frees)
              rw [zero] at frees
              cases frees
      · next quiet =>
          refine moves_call _ (.inr (.inr rfl)) fun t stored listening => ?_
          rw [present] at stored
          cases stored
          exact absurd listening quiet

theorem moves_timerTick (id : SocketId) :
    Moves stack setting (.timerTick id) (stack.timerTick setting id) := by
  unfold Stack.timerTick
  cases present : stack.sockets[id]? with
  | none => exact .idle _
  | some s =>
      dsimp only
      split
      · next timed =>
          have tick : Moves stack setting (.timerTick id) _ := .tick present timed
          unfold ticked at tick
          rw [stepSocket_eq_moved present]
          split
          · next connecting =>
              rw [if_pos connecting] at tick
              exact tick
          · next settled =>
              rw [if_neg settled, ← settle_ports stack id s
                (s.step ⟨stack.env setting id, .timerTick⟩)] at tick
              exact tick
      · exact .idle _

/-- Where a packet goes that is not for a listening socket. -/
theorem Wired.reaches (wired : stack.Wired) {packet : Packet} {id : SocketId} {s : TCPSocket}
    (goes : stack.destination packet = some id) (present : stack.sockets[id]? = some s) :
    stack.Reaches packet id s := by
  rcases wired.destination goes with ⟨found, -⟩ | ⟨server, -, -, entry, t, stored, parent, -⟩
  · obtain ⟨port, client⟩ := wired.port_eq present found
    exact .inl ⟨client, port ▸ found⟩
  · rw [present] at stored
    cases stored
    exact .inr ⟨server, parent, entry⟩

theorem Wired.moves_receive (wired : stack.Wired) (packet : Packet) :
    Moves stack setting (.receive packet) (stack.receive setting packet) := by
  rcases wired.receive_cases setting packet with ⟨-, same⟩ | ⟨id, s, goes, present,
    ⟨quiet, -, takes⟩ | ⟨listening, -, bound, unknown, accepts⟩⟩
  · rw [same]
    exact .idle _
  · rw [takes, stepSocket_eq_moved (sockets_bindInterface present packet.intf)]
    exact .receive packet present goes quiet (wired.reaches goes present)
  · rw [accepts]
    split
    · exact .accept packet present listening bound unknown
    · exact .ignore packet id

/-- **Every step is one of the moves.** -/
theorem Wired.moves (wired : stack.Wired) (action : Action) :
    Moves stack setting action (stack.step (setting, action)) := by
  cases action with
  | connect handlers ip port => exact moves_connect handlers ip port
  | listen handlers onconnect port =>
      unfold Stack.step
      dsimp only
      split
      · next listens => exact wired.moves_listen listens
      · exact .idle _
  | send id u8 => exact moves_call _ (.inl ⟨u8, rfl⟩) fun _ _ _ => Op.noConfusion
  | halfclose id => exact moves_call _ (.inr (.inl rfl)) fun _ _ _ => Op.noConfusion
  | close id => exact wired.moves_close id
  | timerTick id => exact moves_timerTick id
  | receive packet => exact wired.moves_receive packet

/-! ## The sockets after a move -/

/-- The same socket up to its interface and the entries in its map of connections. -/
def Alike (u v : TCPSocket) : Prop :=
  ∃ intf connections, u = { v with intf, connections } ∧ (connections = none ↔ v.connections = none)

theorem Alike.refl (s : TCPSocket) : Alike s s :=
  ⟨s.intf, s.connections, rfl, Iff.rfl⟩

theorem alike_bindInterface (s : TCPSocket) (intf : Interface) : Alike (s.bindInterface intf) s :=
  ⟨some (s.intf.getD intf), s.connections, rfl, Iff.rfl⟩

theorem alike_deleteConnection (s : TCPSocket) (hash : Nat) : Alike (s.deleteConnection hash) s :=
  ⟨s.intf, _, rfl, Option.map_eq_none_iff⟩

theorem alike_enterConnection (s : TCPSocket) (hash : Nat) (id : SocketId) :
    Alike (s.enterConnection hash id) s :=
  ⟨s.intf, _, rfl, Option.map_eq_none_iff⟩

/-- A change that keeps every socket alike. -/
theorem alike_modify {change : TCPSocket → TCPSocket} (alike : ∀ s, Alike (change s) s)
    {id other : SocketId} {u : TCPSocket}
    (stored : (stack.modify id change).sockets[other]? = some u) :
    ∃ v, stack.sockets[other]? = some v ∧ Alike u v := by
  rw [sockets_modify] at stored
  split at stored
  · obtain ⟨v, present, rfl⟩ := Option.map_eq_some_iff.mp stored
    exact ⟨v, present, alike v⟩
  · exact ⟨u, stored, Alike.refl u⟩

/-- `_destroy` only takes an entry out of a map. -/
theorem alike_unregister {id other : SocketId} {s u : TCPSocket}
    (stored : (stack.unregister id s).sockets[other]? = some u) :
    ∃ v, stack.sockets[other]? = some v ∧ Alike u v := by
  unfold unregister at stored
  dsimp only at stored
  split at stored
  · exact @alike_modify { stack with timer := _ } _
      (fun v => alike_deleteConnection v _) _ _ _ stored
  · exact ⟨u, stored, Alike.refl u⟩

/-- After a method of a socket, that socket is as the method leaves it and the others are
as before. -/
theorem alike_settle {id other : SocketId} {s t u : TCPSocket}
    (present : stack.sockets[id]? = some s)
    (stored : (stack.settle id s t).sockets[other]? = some u) :
    ∃ v, Alike u v ∧ (other = id ∧ v = t ∨ other ≠ id ∧ stack.sockets[other]? = some v) := by
  have put {v : TCPSocket} (stored : (stack.put id t).sockets[other]? = some v) :
      other = id ∧ v = t ∨ other ≠ id ∧ stack.sockets[other]? = some v := by
    rw [sockets_put present] at stored
    split at stored
    · next same =>
        cases stored
        exact .inl ⟨same, rfl⟩
    · next different => exact .inr ⟨different, stored⟩
  unfold settle at stored
  split at stored
  · obtain ⟨v, stored, alike⟩ := alike_unregister stored
    exact ⟨v, alike, put stored⟩
  · exact ⟨u, Alike.refl u, put stored⟩

/-- A new socket is the last one. -/
theorem sockets_append {t u : TCPSocket} {other : SocketId}
    (stored : (stack.sockets ++ [t])[other]? = some u) :
    stack.sockets[other]? = some u ∧ other ≠ stack.sockets.length ∨
      other = stack.sockets.length ∧ u = t := by
  rw [List.getElem?_append] at stored
  split at stored
  · next below => exact .inl ⟨stored, Nat.ne_of_lt below⟩
  · next beyond =>
      obtain ⟨position, value⟩ := List.getElem?_eq_some_iff.mp stored
      have last : other - stack.sockets.length = 0 := Nat.lt_one_iff.mp position
      exact .inr ⟨Nat.le_antisymm (Nat.sub_eq_zero_iff_le.mp last) (Nat.le_of_not_lt beyond),
        by rw [← value, List.getElem_singleton]⟩

/-! ## Every socket stays -/

/-- The same socket at a later moment. -/
structure Later (s t : TCPSocket) : Prop where
  serverSocket : t.serverSocket = s.serverSocket
  destIP : t.destIP = s.destIP
  destPort : t.destPort = s.destPort
  unused : t.connections = none ↔ s.connections = none
  port : s.port ≠ 0 → t.port = s.port
  closed : s.state = .closed → t.state = .closed

theorem Later.refl (s : TCPSocket) : Later s s :=
  ⟨rfl, rfl, rfl, Iff.rfl, fun _ => rfl, id⟩

theorem Later.trans {s t u : TCPSocket} (first : Later s t) (second : Later t u) : Later s u where
  serverSocket := second.serverSocket.trans first.serverSocket
  destIP := second.destIP.trans first.destIP
  destPort := second.destPort.trans first.destPort
  unused := second.unused.trans first.unused
  port bound := by
    have kept := first.port bound
    exact (second.port (kept ▸ bound)).trans kept
  closed closed := second.closed (first.closed closed)

theorem Alike.later {u v : TCPSocket} (alike : Alike u v) : Later v u := by
  obtain ⟨intf, connections, rfl, unused⟩ := alike
  exact ⟨rfl, rfl, rfl, unused, fun _ => rfl, id⟩

/-- A step keeps the wiring; a tick may give the socket its first port. -/
theorem wiring_any_step (s : TCPSocket) (input : Input) :
    ∃ port, (s.step input).wiring = s.wiringAt port ∧ (s.port ≠ 0 → port = s.port) := by
  by_cases timed : input.op = .timerTick
  · have ticks : s.step input = s.timerTick input.env := by
      rw [TCPSocket.step, timed]
    have wiring := TCPSocket.wiring_timerTick input.env s
    rw [← ticks] at wiring
    split at wiring
    · refine ⟨_, wiring, fun bound => ?_⟩
      rw [TCPSocket.portAfter, if_neg]
      simp [TCPSocket.asksPort, bound]
    · exact ⟨s.port, wiring, fun _ => rfl⟩
  · exact ⟨s.port, TCPSocket.wiring_step timed s, fun _ => rfl⟩

theorem connections_step (s : TCPSocket) (input : Input) :
    (s.step input).connections = s.connections := by
  obtain ⟨port, wiring, -⟩ := wiring_any_step s input
  exact (Wiring.mk.inj wiring).2.2.2.2

theorem later_step (s : TCPSocket) (input : Input) : Later s (s.step input) := by
  have follows := TCPSocket.step_follows input s
  obtain ⟨port, wiring, kept⟩ := wiring_any_step s input
  obtain ⟨server, portEq, destIP, destPort, connections⟩ := Wiring.mk.inj wiring
  refine ⟨server, destIP, destPort, by rw [connections]; rfl,
    fun bound => portEq.trans (kept bound), fun closed => ?_⟩
  rw [closed] at follows
  exact follows.of_closed

theorem present_modify {change : TCPSocket → TCPSocket} (alike : ∀ s, Alike (change s) s)
    (id : SocketId) {other : SocketId} {u : TCPSocket}
    (present : stack.sockets[other]? = some u) :
    ∃ v, (stack.modify id change).sockets[other]? = some v ∧ Later u v := by
  rw [sockets_modify, present]
  split
  · exact ⟨change u, rfl, (alike u).later⟩
  · exact ⟨u, rfl, Later.refl u⟩

theorem present_settle {id other : SocketId} {s t u : TCPSocket}
    (present : stack.sockets[id]? = some s) (stored : stack.sockets[other]? = some u)
    (later : Later s t) : ∃ v, (stack.settle id s t).sockets[other]? = some v ∧ Later u v := by
  have put : ∃ v, (stack.put id t).sockets[other]? = some v ∧ Later u v := by
    rw [sockets_put present]
    split
    · next same =>
        rw [same, present] at stored
        cases stored
        exact ⟨t, rfl, later⟩
    · exact ⟨u, stored, Later.refl u⟩
  obtain ⟨v, stored, later⟩ := put
  unfold settle
  split
  · unfold unregister
    dsimp only
    split
    · obtain ⟨w, stored, later'⟩ := @present_modify { stack.put id t with timer := _ } _
        (fun v => alike_deleteConnection v _) _ _ _ stored
      exact ⟨w, stored, later.trans later'⟩
    · exact ⟨v, stored, later⟩
  · exact ⟨v, stored, later⟩

theorem present_moved {id other : SocketId} {s u : TCPSocket}
    (present : stack.sockets[id]? = some s) (stored : stack.sockets[other]? = some u) (op : Op) :
    ∃ v, (stack.moved setting id s op).sockets[other]? = some v ∧ Later u v :=
  present_settle present stored (later_step s _)

theorem present_append {t u : TCPSocket} {other : SocketId}
    (present : stack.sockets[other]? = some u) : (stack.sockets ++ [t])[other]? = some u :=
  List.getElem?_append_left (List.getElem?_eq_some_iff.mp present).1 ▸ present

/-- **No move loses a socket**, changes whom it belongs to or reopens it. -/
theorem Moves.later {action : Action} {after : Stack} (moves : Moves stack setting action after)
    {other : SocketId} {u : TCPSocket} (present : stack.sockets[other]? = some u) :
    ∃ v, after.sockets[other]? = some v ∧ Later u v := by
  cases moves with
  | idle => exact ⟨u, present, Later.refl u⟩
  | connect => exact ⟨u, present_append present, Later.refl u⟩
  | listen => exact ⟨u, present_append present, Later.refl u⟩
  | call _ op stored => exact present_moved stored present op
  | closeUnbound stored =>
      rw [sockets_put stored]
      split
      · next same =>
          rw [same, stored] at present
          cases present
          exact ⟨_, rfl, ⟨rfl, rfl, rfl, Iff.rfl, fun _ => rfl, fun _ => rfl⟩⟩
      · exact ⟨u, present, Later.refl u⟩
  | closeBound stored => exact present_moved stored present .close
  | tick stored => exact present_moved stored present .timerTick
  | ignore packet id => exact present_modify (fun s => alike_bindInterface s _) id present
  | accept packet stored =>
      obtain ⟨v, bound, later⟩ :=
        present_modify (fun s => alike_bindInterface s packet.intf) _ present
      obtain ⟨w, entered, later'⟩ := @present_modify ⟨_ ++ [_], _, _⟩ _
        (fun s => alike_enterConnection s packet.hash _) _ _ _ (present_append bound)
      exact ⟨w, entered, later.trans later'⟩
  | receive packet stored =>
      obtain ⟨v, bound, later⟩ :=
        present_modify (fun s => alike_bindInterface s packet.intf) _ present
      obtain ⟨w, taken, later'⟩ := @present_moved _ setting _ _ _ _
        (sockets_bindInterface stored packet.intf) bound (.receive packet.segment)
      exact ⟨w, taken, later.trans later'⟩

/-- A socket is still there after any run. -/
theorem Wired.later (wired : stack.Wired) (inputs : List (Setting × Action)) {id : SocketId}
    {s : TCPSocket} (present : stack.sockets[id]? = some s) :
    ∃ t, (Transition.run Stack.step stack inputs).sockets[id]? = some t ∧ Later s t := by
  induction inputs generalizing stack s with
  | nil => exact ⟨s, present, Later.refl s⟩
  | cons input inputs ih =>
      obtain ⟨t, stored, later⟩ := (@Wired.moves stack input.1 wired input.2).later present
      obtain ⟨u, final, later'⟩ := ih (wired.step input) stored
      exact ⟨u, final, later.trans later'⟩

end Stack

end JsOS.Net.Tcp
