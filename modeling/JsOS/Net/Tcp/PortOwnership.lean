import JsOS.Net.Tcp.Isolation
import JsOS.Net.Tcp.Moves

/-! # Who owns the allocated ports

A socket gets its port from the allocator when it is opened or set to listen. `close` of
a listening socket gives the port back; nothing else does. So the allocated ports are
those of the sockets that are not CLOSED (`PortsOwned`) as long as no client that has a
port gets to CLOSED, and no longer.
-/

namespace JsOS.Net.Tcp

namespace Stack

/-- The socket is a client or a listening socket that is not CLOSED, and has a port. -/
def HoldsPort (stack : Stack) (id : SocketId) (port : Nat) : Prop :=
  ∃ s, stack.sockets[id]? = some s ∧ s.serverSocket = none ∧ s.state ≠ .closed ∧ s.port = port ∧
    port ≠ 0

/-- The allocated ports are exactly the ports of the clients and listening sockets that are
not CLOSED, and each looks up to its owner. -/
structure PortsOwned (stack : Stack) : Prop where
  allocated : ∀ port, (stack.ports.lookup port).isSome ↔ ∃ id, stack.HoldsPort id port
  owner : ∀ id port, stack.HoldsPort id port → stack.ports.lookup port = some id

/-- A client socket: it was neither accepted nor set to listen. -/
def IsClient (s : TCPSocket) : Prop := s.serverSocket = none ∧ s.connections = none

/-- No client that has a port is CLOSED. -/
def NoClosedClient (stack : Stack) : Prop :=
  ∀ (id : SocketId) (s : TCPSocket), stack.sockets[id]? = some s → IsClient s →
    s.state = .closed → s.port = 0

/-! ## What every socket keeps -/

/-- What the allocator holds for a socket. A client keeps its port for good; a socket that
was set to listen has no port left once it is CLOSED. -/
structure Owns (ports : PortAllocator SocketId) (id : SocketId) (s : TCPSocket) : Prop where
  client : IsClient s → s.port ≠ 0 → ports.lookup s.port = some id
  listener : s.connections ≠ none →
    s.state = .listen ∨ s.state = .closed ∧ ∀ port, ports.lookup port ≠ some id
  listening : s.state = .listen → s.connections ≠ none

/-- The allocator holds for each socket what it should. -/
def Owning (stack : Stack) : Prop :=
  ∀ (id : SocketId) (s : TCPSocket), stack.sockets[id]? = some s → Owns stack.ports id s

variable {stack : Stack} {setting : Setting}

theorem Owns.of_lookup {before after : PortAllocator SocketId} {id : SocketId} {s : TCPSocket}
    (owns : Owns before id s)
    (same : ∀ port, after.lookup port = some id ↔ before.lookup port = some id) :
    Owns after id s where
  client client bound := (same s.port).mpr (owns.client client bound)
  listener map := (owns.listener map).imp_right fun closed =>
    ⟨closed.1, fun port found => closed.2 port ((same port).mp found)⟩
  listening := owns.listening

theorem Owns.alike {ports : PortAllocator SocketId} {id : SocketId} {u v : TCPSocket}
    (owns : Owns ports id v) (alike : Alike u v) : Owns ports id u := by
  obtain ⟨intf, connections, rfl, unused⟩ := alike
  refine ⟨fun client => owns.client ⟨client.1, unused.mp client.2⟩, fun map => ?_,
    fun listening none => owns.listening listening (unused.mp none)⟩
  exact owns.listener fun none => map (unused.mpr none)

/-- One socket steps and the allocator changes for this socket alone. -/
theorem Owning.moved (owning : stack.Owning) {id : SocketId} {s : TCPSocket}
    (present : stack.sockets[id]? = some s) (op : Op) {ports : PortAllocator SocketId}
    (others : ∀ other owner, owner ≠ id →
      (ports.lookup other = some owner ↔ stack.ports.lookup other = some owner))
    (own : Owns ports id (s.step ⟨stack.env setting id, op⟩)) :
    Owning { stack.moved setting id s op with ports } := by
  intro other u stored
  obtain ⟨v, alike, ⟨rfl, rfl⟩ | ⟨different, before⟩⟩ := alike_settle present stored
  · exact own.alike alike
  · exact ((owning other v before).of_lookup fun port => others port other different).alike alike

/-- One socket steps and the allocator stays. -/
theorem Owning.moved_same (owning : stack.Owning) {id : SocketId} {s : TCPSocket}
    (present : stack.sockets[id]? = some s) (op : Op)
    (own : Owns stack.ports id (s.step ⟨stack.env setting id, op⟩)) :
    Owning (stack.moved setting id s op) := by
  have moved := owning.moved present op (fun _ _ _ => Iff.rfl) own
  rw [← settle_ports stack id s (s.step ⟨stack.env setting id, op⟩)] at moved
  exact moved

theorem Owning.bindInterface (owning : stack.Owning) (id : SocketId) (intf : Interface) :
    (stack.modify id fun s => s.bindInterface intf).Owning := by
  intro other u stored
  obtain ⟨v, before, alike⟩ := alike_modify (fun s => alike_bindInterface s intf) stored
  exact (owning other v before).alike alike

/-- A new socket comes and the allocator changes for this socket alone. -/
theorem Owning.append (owning : stack.Owning) {t : TCPSocket} {ports : PortAllocator SocketId}
    (timer : List SocketId)
    (others : ∀ other owner, owner ≠ stack.sockets.length →
      (ports.lookup other = some owner ↔ stack.ports.lookup other = some owner))
    (own : Owns ports stack.sockets.length t) : Owning ⟨stack.sockets ++ [t], ports, timer⟩ := by
  intro other u stored
  rcases sockets_append stored with ⟨before, different⟩ | ⟨rfl, rfl⟩
  · exact (owning other u before).of_lookup fun port => others port other different
  · exact own

/-! ## Every step keeps it -/

/-- A method other than `close` does not change a listening socket. -/
theorem step_of_listen {s : TCPSocket} (listening : s.state = .listen) {input : Input}
    (open_ : input.op ≠ .close) : s.step input = s := by
  obtain ⟨env, op⟩ := input
  cases op with
  | send u8 => simp [TCPSocket.step, TCPSocket.send, TCPSocket.canSend, listening,
      TCPSocket.orUnchanged, Except.map]
  | halfclose => simp [TCPSocket.step, TCPSocket.halfclose, listening, TCPSocket.orUnchanged]
  | close => exact absurd rfl open_
  | receive segment => exact if_pos listening
  | timerTick => simp [TCPSocket.step, TCPSocket.timerTick, listening]

/-- A step of a socket that keeps its wiring, other than `close` of a listening socket. -/
theorem Owns.step {ports : PortAllocator SocketId} {id : SocketId} {s : TCPSocket}
    (owns : Owns ports id s) {input : Input} (open_ : s.state = .listen → input.op ≠ .close)
    (wiring : (s.step input).wiring = s.wiring) : Owns ports id (s.step input) := by
  by_cases listens : s.state = .listen
  · rw [step_of_listen listens (open_ listens)]
    exact owns
  · obtain ⟨server, port, -, -, connections⟩ := Wiring.mk.inj wiring
    have follows := TCPSocket.step_follows input s
    refine ⟨fun client bound => ?_, fun map => ?_, fun listening => ?_⟩
    · rw [port] at bound ⊢
      exact owns.client ⟨server ▸ client.1, connections ▸ client.2⟩ bound
    · rcases owns.listener (connections ▸ map) with listening | ⟨closed, unregistered⟩
      · exact absurd listening listens
      · rw [closed] at follows
        exact .inr ⟨follows.of_closed, unregistered⟩
    · rw [listening] at follows
      exact absurd follows.eq_listen listens

/-- A closed listening socket with no registered port. -/
theorem Owns.of_closed {ports : PortAllocator SocketId} {id : SocketId} {t : TCPSocket}
    (closed : t.state = .closed) (map : t.connections ≠ none)
    (unregistered : ∀ port, ports.lookup port ≠ some id) : Owns ports id t :=
  ⟨fun client => absurd client.2 map, fun _ => .inr ⟨closed, unregistered⟩,
    fun listening => by rw [closed] at listening; cases listening⟩

/-- A client that the allocator may just have given its port. -/
theorem Owns.of_configured (wired : stack.Wired) {id : SocketId} {s t : TCPSocket}
    (fresh : s.port = 0)
    (wiring : t.wiring = s.wiringAt (s.portAfter (stack.env setting id)))
    (plain : s.connections = none) (quiet : t.state ≠ .listen) :
    Owns (stack.configured setting id s) id t := by
  obtain ⟨-, port, -, -, connections⟩ := Wiring.mk.inj wiring
  refine ⟨fun _ bound => ?_, fun map => absurd (connections.trans plain) map,
    fun listening => absurd listening quiet⟩
  rw [port] at bound ⊢
  obtain ⟨-, ⟨-, same⟩ | ⟨-, assigns⟩⟩ := wired.configured setting id s
  · exact absurd (same.trans fresh) bound
  · cases assigns with
    | none zero => exact absurd zero bound
    | port isPort free changed =>
        rw [changed]
        exact if_pos rfl

/-- What `_configure` of a socket does to the other sockets' ports. -/
theorem Wired.configured_other (wired : stack.Wired) (id : SocketId) (s : TCPSocket)
    (other : Nat) (owner : SocketId) (different : owner ≠ id) :
    (stack.configured setting id s).lookup other = some owner ↔
      stack.ports.lookup other = some owner := by
  obtain ⟨-, ⟨same, -⟩ | ⟨-, assigns⟩⟩ := wired.configured setting id s
  · rw [same]
  · exact assigns.lookup_other different other

theorem Owning.tick (owning : stack.Owning) (wired : stack.Wired) {id : SocketId} {s : TCPSocket}
    (present : stack.sockets[id]? = some s) :
    Owning { stack.moved setting id s .timerTick with ports := stack.ticked setting id s } := by
  have owns := owning id s present
  have wiring : (s.step ⟨stack.env setting id, .timerTick⟩).wiring = _ :=
    TCPSocket.wiring_timerTick (stack.env setting id) s
  have untimed : s.state = .listen → Op.timerTick ≠ .close := fun _ => Op.noConfusion
  by_cases connecting : s.state = .synSent ∨ s.state = .synReceived
  · rw [if_pos connecting] at wiring
    rw [ticked, if_pos connecting]
    refine owning.moved present _ (wired.configured_other id s) ?_
    obtain ⟨-, ⟨same, port⟩ | ⟨fresh, -⟩⟩ := wired.configured setting id s
    · rw [same]
      rw [port] at wiring
      exact owns.step untimed wiring
    · have quiet : s.state ≠ .listen := by
        intro listening
        rw [listening] at connecting
        exact connecting.elim State.noConfusion State.noConfusion
      have plain : s.connections = none := by
        by_contra map
        rcases owns.listener map with listening | ⟨closed, -⟩
        · exact quiet listening
        · rw [closed] at connecting
          exact connecting.elim State.noConfusion State.noConfusion
      refine Owns.of_configured wired fresh wiring plain fun listening => ?_
      have follows := TCPSocket.step_follows ⟨stack.env setting id, .timerTick⟩ s
      rw [listening] at follows
      exact quiet follows.eq_listen
  · rw [if_neg connecting] at wiring
    rw [ticked, if_neg connecting]
    exact owning.moved present _ (fun _ _ _ => Iff.rfl) (owns.step untimed wiring)

theorem Owning.closeBound (owning : stack.Owning) (wired : stack.Wired) {id : SocketId}
    {s : TCPSocket} (present : stack.sockets[id]? = some s) (listening : s.state = .listen)
    (found : stack.ports.lookup s.port = some id) {ports : PortAllocator SocketId}
    (frees : stack.ports.Frees s.port ports) :
    Owning { stack.moved setting id s .close with ports } := by
  have wiring : (s.step ⟨stack.env setting id, .close⟩).wiring = s.wiring :=
    TCPSocket.wiring_step Op.noConfusion s
  obtain ⟨-, -, -, -, connections⟩ := Wiring.mk.inj wiring
  refine owning.moved present _ (fun other owner different => ?_) ?_
  · rw [frees.lookup]
    split
    · next same =>
        rw [same, found]
        exact ⟨fun none => (by cases none),
          fun same => (different (Option.some.inj same).symm).elim⟩
    · exact Iff.rfl
  · refine Owns.of_closed ?_ ?_ fun port registered => ?_
    · simp only [TCPSocket.step, TCPSocket.close, if_pos listening, TCPSocket.orUnchanged,
        TCPSocket.emitIf_state]
      rfl
    · rw [connections]
      exact (owning id s present).listening listening
    · rw [frees.lookup] at registered
      split at registered
      · cases registered
      · next different => exact different (wired.port_eq present registered).1.symm

theorem Owning.accept (owning : stack.Owning) (wired : stack.Wired) {serverId : SocketId}
    {server : TCPSocket} (present : stack.sockets[serverId]? = some server)
    (bound : server.port ≠ 0) (packet : Packet) :
    (stack.accept setting serverId server packet).Owning := by
  have ports := (wired.accept setting present bound packet).2
  intro other u stored
  rw [ports]
  obtain ⟨v, before, alike⟩ := alike_modify
    (fun s => alike_enterConnection s packet.hash stack.sockets.length) stored
  refine Owns.alike ?_ alike
  rcases sockets_append before with ⟨older, -⟩ | ⟨rfl, rfl⟩
  · exact owning other v older
  · have wiring := TCPSocket.wiring_sendSYN (stack.env setting stack.sockets.length) true
      (TCPSocket.accepting serverId server packet.srcIP packet.srcPort.toNat packet.segment
        server.onconnect.socket)
    obtain ⟨-, -, -, state⟩ := TCPSocket.sendSYN_frame (stack.env setting stack.sockets.length)
      true (s := TCPSocket.accepting serverId server packet.srcIP packet.srcPort.toNat
        packet.segment server.onconnect.socket) rfl
    obtain ⟨parent, -, -, -, connections⟩ := Wiring.mk.inj wiring
    rw [← TCPSocket.accept_eq] at parent connections state
    refine ⟨fun client => ?_, fun map => absurd connections map, fun listening => ?_⟩
    · have none := client.1
      rw [parent] at none
      cases none
    · rw [state] at listening
      cases listening

/-- **Every step keeps what the allocator holds for the sockets.** -/
theorem Owning.step (owning : stack.Owning) (wired : stack.Wired) (input : Setting × Action) :
    (stack.step input).Owning := by
  obtain ⟨setting, action⟩ := input
  have moves := @Wired.moves stack setting wired action
  generalize stack.step (setting, action) = after at moves ⊢
  cases moves with
  | idle => exact owning
  | connect handlers ip port =>
      refine owning.append _ (wired.configured_other _ _) ?_
      refine Owns.of_configured wired rfl (TCPSocket.wiring_sendSYN _ false _) rfl ?_
      obtain ⟨-, -, -, state⟩ := TCPSocket.sendSYN_frame (stack.env setting stack.sockets.length)
        false (s := handlers.socket.opening ip port) rfl
      rw [state]
      exact State.noConfusion
  | listen handlers onconnect asked valid assigns =>
      refine owning.append _ (fun other owner different => assigns.lookup_other different other) ?_
      exact ⟨fun client => (Option.some_ne_none _ client.2).elim, fun _ => .inl rfl,
        fun _ => Option.some_ne_none _⟩
  | call _ op present called bound =>
      refine owning.moved_same present op ?_
      refine (owning _ _ present).step bound (TCPSocket.wiring_step ?_ _)
      rcases called with ⟨u8, rfl⟩ | rfl | rfl <;> exact Op.noConfusion
  | @closeUnbound id s present listening unbound =>
      intro other u stored
      rw [sockets_put present] at stored
      split at stored
      · next same =>
          cases stored
          subst same
          refine Owns.of_closed rfl ((owning other s present).listening listening)
            fun port registered => ?_
          exact ne_zero_of_lookup wired registered
            ((wired.port_eq present registered).1.symm.trans unbound)
      · exact owning other u stored
  | closeBound present listening found frees =>
      exact owning.closeBound wired present listening found frees
  | tick present => exact owning.tick wired present
  | ignore packet id => exact owning.bindInterface id packet.intf
  | accept packet present listening bound =>
      exact (owning.bindInterface _ packet.intf).accept (wired.bindInterface _ packet.intf)
        (sockets_bindInterface present packet.intf) bound packet
  | @receive packet id s present goes quiet =>
      have stored := sockets_bindInterface present packet.intf
      have binds := owning.bindInterface id packet.intf
      have owns := binds id _ stored
      exact binds.moved_same stored _ (owns.step (fun listening => absurd listening quiet)
        (TCPSocket.wiring_step Op.noConfusion _))

theorem owning_new : Owning {} := by
  intro id s present
  cases present

theorem Reachable.owning {stack : Stack} (reachable : stack.Reachable) : stack.Owning := by
  obtain ⟨inputs, rfl⟩ := reachable
  exact (Transition.run_invariant_of_keeps (fun stack : Stack => stack.Wired ∧ stack.Owning)
    (fun _ input holds => ⟨holds.1.step input, holds.2.step holds.1 input⟩)
    ⟨wired_new, owning_new⟩ inputs).2

/-! ## When the allocated ports are the owned ones -/

theorem Owning.owner (owning : stack.Owning) (wired : stack.Wired) {id : SocketId} {port : Nat}
    (holds : stack.HoldsPort id port) : stack.ports.lookup port = some id := by
  obtain ⟨s, present, client, alive, rfl, bound⟩ := holds
  by_cases plain : s.connections = none
  · exact (owning id s present).client ⟨client, plain⟩ bound
  · rcases (owning id s present).listener plain with listening | ⟨closed, -⟩
    · exact (wired.of_listening present listening).2.resolve_left bound
    · exact absurd closed alive

theorem Owning.holds (owning : stack.Owning) (wired : stack.Wired)
    (open_ : stack.NoClosedClient) {id : SocketId} {port : Nat}
    (found : stack.ports.lookup port = some id) : stack.HoldsPort id port := by
  obtain ⟨s, present, portEq, client⟩ := wired.registered found
  have bound := ne_zero_of_lookup wired found
  refine ⟨s, present, client, fun closed => ?_, portEq, bound⟩
  by_cases plain : s.connections = none
  · exact bound (portEq.symm.trans (open_ id s present ⟨client, plain⟩ closed))
  · rcases (owning id s present).listener plain with listening | ⟨-, unregistered⟩
    · rw [closed] at listening
      cases listening
    · exact unregistered port found

/-- A CLOSED client keeps its port allocated, so the port has no owner. -/
theorem Owning.noClosedClient (owning : stack.Owning) (owned : stack.PortsOwned) :
    stack.NoClosedClient := by
  intro id s present client closed
  by_contra bound
  have found := (owning id s present).client client bound
  obtain ⟨owner, holds⟩ := (owned.allocated s.port).mp (Option.isSome_of_eq_some found)
  have same := (owned.owner owner s.port holds).symm.trans found
  cases same
  obtain ⟨t, stored, -, alive, -⟩ := holds
  rw [present] at stored
  cases stored
  exact alive closed

/-- A client opens a connection, the peer ends it, the client closes it and the peer
acknowledges that. -/
def visit : List (Setting × Action) :=
  [(lan 0, .connect ⟨true, true, true, true, none⟩ ⟨10, 0, 0, 2⟩ 80),
    (lan 1, .receive ⟨0, ⟨10, 0, 0, 2⟩, 80, 49152,
      .ofData (flagSYN ||| flagACK) 4999 20000 8192 []⟩),
    (lan 2, .receive ⟨0, ⟨10, 0, 0, 2⟩, 80, 49152,
      .ofData (flagACK ||| flagFIN) 5000 20000 8192 []⟩),
    (lan 3, .close 0),
    (lan 4, .receive ⟨0, ⟨10, 0, 0, 2⟩, 80, 49152, .ofData flagACK 5001 20001 8192 []⟩)]

/-- A port that a CLOSED client holds stays allocated to it in every run that follows. -/
theorem closed_client_keeps_port (reachable : stack.Reachable) {id : SocketId} {s : TCPSocket}
    (present : stack.sockets[id]? = some s) (client : IsClient s) (closed : s.state = .closed)
    (bound : s.port ≠ 0) (inputs : List (Setting × Action)) :
    (Transition.run step stack inputs).ports.lookup s.port = some id ∧
      ¬ (Transition.run step stack inputs).PortsOwned := by
  obtain ⟨t, stored, later⟩ := reachable.wired.later inputs present
  obtain ⟨past, rfl⟩ := reachable
  have after : (Transition.run step {} (past ++ inputs)).Reachable := ⟨_, rfl⟩
  rw [Transition.run_append] at after
  have port := later.port bound
  have still : IsClient t := ⟨later.serverSocket.trans client.1, later.unused.mpr client.2⟩
  have found := (after.owning id t stored).client still (port ▸ bound)
  refine ⟨port ▸ found, fun owned => ?_⟩
  exact bound (port ▸ after.owning.noClosedClient owned id t stored still (later.closed closed))

end Stack

end JsOS.Net.Tcp
