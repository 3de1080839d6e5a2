import JsOS.Net.Tcp.Destroyed
import JsOS.Net.Tcp.Isolation
import JsOS.Net.Tcp.PortOwnership

/-! # Where connections are registered

A connection is in the set of the timer from the moment it is made until it is
destroyed, and an accepted one is in its server's map for as long. Together with the
state this is an invariant of the stack (`Enrolling`) as long as no segment brings back
a connection that it resets (`Spares`).
-/

namespace JsOS.Net.Tcp

namespace Stack

/-- **The registration invariant.** A connection that has been destroyed is CLOSED, the
timer has exactly the connections that are not CLOSED, and an accepted one is in its
server's map exactly while it is not CLOSED. -/
structure Registered (stack : Stack) : Prop where
  destroyed : ∀ (id : SocketId) (s : TCPSocket), stack.sockets[id]? = some s → s.destIP ≠ none →
    .destroy ∈ s.events → s.state = .closed
  timed : ∀ id : SocketId, id ∈ stack.timer ↔
    ∃ s, stack.sockets[id]? = some s ∧ s.destIP ≠ none ∧ s.state ≠ .closed
  entered : ∀ (id : SocketId) (s : TCPSocket) (server : SocketId) (ip : IP4Address),
    stack.sockets[id]? = some s → s.serverSocket = some server → s.destIP = some ip →
    (stack.connection server (connHash ip s.destPort) = some id ↔ s.state ≠ .closed)

/-- The connection that gets the packet is not brought back by it. -/
def Spares (stack : Stack) (input : Setting × Action) : Prop :=
  ∀ (packet : Packet) (id : SocketId) (s : TCPSocket), input.2 = .receive packet →
    stack.destination packet = some id → stack.sockets[id]? = some s → ¬ s.Revives packet.segment

/-! ## The invariant -/

/-- A connection is registered until it is destroyed, and then CLOSED. -/
structure Enrolled (stack : Stack) (id : SocketId) (s : TCPSocket) : Prop where
  destroyed : .destroy ∈ s.events ↔ s.state = .closed
  timed : id ∈ stack.timer ↔ s.state ≠ .closed
  entered : ∀ (server : SocketId) (ip : IP4Address), s.serverSocket = some server →
    s.destIP = some ip →
    (stack.connection server (connHash ip s.destPort) = some id ↔ s.state ≠ .closed)

/-- Every connection is enrolled, and nothing else is in the timer's set. -/
structure Enrolling (stack : Stack) : Prop where
  quiet : ∀ (id : SocketId) (s : TCPSocket), stack.sockets[id]? = some s → s.Unladen
  unconnected : ∀ (id : SocketId) (s : TCPSocket), stack.sockets[id]? = some s →
    s.state = .listen → s.destIP = none
  known : ∀ id ∈ stack.timer, ∃ s, stack.sockets[id]? = some s ∧ s.destIP ≠ none
  enrolled : ∀ (id : SocketId) (s : TCPSocket), stack.sockets[id]? = some s → s.destIP ≠ none →
    Enrolled stack id s

variable {stack : Stack} {setting : Setting}

theorem Enrolling.registered (enrolling : stack.Enrolling) : stack.Registered where
  destroyed id s present connected := (enrolling.enrolled id s present connected).destroyed.mp
  timed id := by
    constructor
    · intro timed
      obtain ⟨s, present, connected⟩ := enrolling.known id timed
      exact ⟨s, present, connected, (enrolling.enrolled id s present connected).timed.mp timed⟩
    · rintro ⟨s, present, connected, alive⟩
      exact (enrolling.enrolled id s present connected).timed.mpr alive
  entered id s server ip present parent address := by
    have connected : s.destIP ≠ none := address ▸ Option.some_ne_none ip
    exact (enrolling.enrolled id s present connected).entered server ip parent address

/-! ### What a move does to the timer and the maps -/

theorem mem_timer_settle {id other : SocketId} {s t : TCPSocket} :
    other ∈ (stack.settle id s t).timer ↔
      other ∈ stack.timer ∧ ¬ (.destroy ∈ t.events.drop s.events.length ∧ other = id) := by
  have filtered : other ∈ (stack.timer.filter fun each => each ≠ id) ↔
      other ∈ stack.timer ∧ other ≠ id := by
    rw [List.mem_filter, decide_eq_true_iff]
  unfold settle
  split
  · next destroyed =>
      rw [and_iff_right destroyed, ← filtered]
      unfold unregister
      dsimp only
      split <;> rfl
  · next kept => exact ⟨fun member => ⟨member, fun gone => kept gone.1⟩, And.left⟩

theorem connection_put {id : SocketId} {s t : TCPSocket} (present : stack.sockets[id]? = some s)
    (map : t.connections = s.connections) (server : SocketId) (hash : Nat) :
    (stack.put id t).connection server hash = stack.connection server hash := by
  unfold Stack.connection
  rw [sockets_put present]
  split
  · next same =>
      rw [same, present]
      change t.connection hash = s.connection hash
      rw [TCPSocket.connection, TCPSocket.connection, map]
  · rfl

/-- The socket has been destroyed and its entry is under this key. -/
def Leaves (s t : TCPSocket) (server : SocketId) (hash : Nat) : Prop :=
  .destroy ∈ t.events.drop s.events.length ∧ t.serverSocket = some server ∧
    ∃ ip, t.destIP = some ip ∧ connHash ip t.destPort = hash

/-- An entry is taken out exactly if the socket leaves it. -/
theorem connection_settle {id : SocketId} {s t : TCPSocket}
    (present : stack.sockets[id]? = some s) (map : t.connections = s.connections)
    (server : SocketId) (hash : Nat) :
    (Leaves s t server hash → (stack.settle id s t).connection server hash = none) ∧
      (¬ Leaves s t server hash →
        (stack.settle id s t).connection server hash = stack.connection server hash) := by
  have put := connection_put present map server hash
  unfold settle
  by_cases destroyed : .destroy ∈ t.events.drop s.events.length
  · rw [if_pos destroyed]
    unfold unregister
    dsimp only
    cases parent : t.serverSocket with
    | none =>
        refine ⟨fun leaves => ?_, fun _ => put⟩
        rw [Leaves, parent] at leaves
        cases leaves.2.1
    | some owner =>
        cases address : t.destIP with
        | none =>
            refine ⟨fun leaves => ?_, fun _ => put⟩
            obtain ⟨-, -, ip, known, -⟩ := leaves
            rw [address] at known
            cases known
        | some ip =>
            dsimp only
            rw [connection_modify]
            by_cases same : server = owner
            · rw [if_pos same]
              simp only [TCPSocket.connection_deleteConnection]
              by_cases key : hash = connHash ip t.destPort
              · refine ⟨fun _ => ?_, fun stays => ?_⟩
                · simp only [if_pos key]
                  exact Option.bind_fun_none _
                · refine absurd ⟨destroyed, ?_, ip, address, key.symm⟩ stays
                  rw [parent, same]
              · refine ⟨fun leaves => ?_, fun _ => ?_⟩
                · obtain ⟨-, -, ip', address', key'⟩ := leaves
                  rw [address] at address'
                  cases address'
                  exact absurd key'.symm key
                · simp only [if_neg key]
                  exact put
            · rw [if_neg same]
              refine ⟨fun leaves => ?_, fun _ => put⟩
              have found := leaves.2.1
              rw [parent] at found
              cases found
              exact absurd rfl same
  · rw [if_neg destroyed]
    exact ⟨fun leaves => absurd leaves.1 destroyed, fun _ => put⟩

theorem connection_append {t : TCPSocket} (quiet : ∀ hash, t.connection hash = none)
    (ports : PortAllocator SocketId) (timer : List SocketId) (server : SocketId) (hash : Nat) :
    connection ⟨stack.sockets ++ [t], ports, timer⟩ server hash = stack.connection server hash := by
  unfold Stack.connection
  dsimp only
  rw [List.getElem?_append]
  split
  · rfl
  · next beyond =>
      rw [List.getElem?_eq_none (Nat.le_of_not_lt beyond)]
      cases last : [t][server - stack.sockets.length]? with
      | none => rfl
      | some u =>
          have member := List.mem_of_getElem? last
          rw [List.mem_singleton] at member
          subst member
          exact quiet hash

/-- Being enrolled looks at the timer, the map and fields that changes of the map and the
interface keep. -/
theorem Enrolled.alike {after : Stack} {id : SocketId} {u v : TCPSocket}
    (enrolled : Enrolled after id v) (alike : Alike u v) : Enrolled after id u := by
  obtain ⟨intf, connections, rfl, -⟩ := alike
  exact ⟨enrolled.destroyed, enrolled.timed, enrolled.entered⟩

/-- A socket that the change does not concern. -/
theorem Enrolled.of_same {after : Stack} {id : SocketId} {s : TCPSocket}
    (enrolled : Enrolled stack id s) (timer : id ∈ after.timer ↔ id ∈ stack.timer)
    (connection : ∀ (server : SocketId) (ip : IP4Address), s.serverSocket = some server →
      s.destIP = some ip → (after.connection server (connHash ip s.destPort) = some id ↔
        stack.connection server (connHash ip s.destPort) = some id)) : Enrolled after id s where
  destroyed := enrolled.destroyed
  timed := timer.trans enrolled.timed
  entered server ip parent address :=
    (connection server ip parent address).trans (enrolled.entered server ip parent address)

/-! ### Moves of one socket -/

/-- The socket that moves. -/
theorem Enrolled.moved {id : SocketId} {s t : TCPSocket} (enrolled : Enrolled stack id s)
    (present : stack.sockets[id]? = some s) (tracked : TCPSocket.Tracked s t)
    (map : t.connections = s.connections) (parents : t.serverSocket = s.serverSocket)
    (addresses : t.destIP = s.destIP) (ports : t.destPort = s.destPort) :
    Enrolled (stack.settle id s t) id t := by
  obtain ⟨more, events, closed⟩ := tracked
  have drop : t.events.drop s.events.length = more := by rw [events, List.drop_left]
  have alive : t.state ≠ .closed ↔ s.state ≠ .closed ∧ .destroy ∉ more := by
    rw [ne_eq, closed, not_or]
  refine ⟨?_, ?_, fun server ip parent address => ?_⟩
  · rw [events, List.mem_append, enrolled.destroyed, closed]
  · rw [mem_timer_settle, drop, enrolled.timed, alive, and_iff_left rfl]
  · have before := enrolled.entered server ip (parents ▸ parent) (addresses ▸ address)
    obtain ⟨leaves, stays⟩ := connection_settle present map server (connHash ip t.destPort)
    by_cases destroyed : .destroy ∈ more
    · rw [leaves ⟨drop ▸ destroyed, parent, ip, address, rfl⟩]
      refine ⟨fun none => (by cases none), fun open_ => ?_⟩
      exact absurd destroyed (alive.mp open_).2
    · rw [stays fun gone => destroyed (drop ▸ gone.1), ports, before, alive,
        and_iff_left destroyed]

/-- A socket keeps its place while another one moves. An entry it has under the same key as
the one taken out would have been the other's. -/
theorem Enrolled.beside {id other : SocketId} {s t v : TCPSocket}
    (enrolled : Enrolled stack other v) (different : other ≠ id)
    (present : stack.sockets[id]? = some s) (map : t.connections = s.connections)
    (own : ∀ server hash, Leaves s t server hash → stack.connection server hash = some id) :
    Enrolled (stack.settle id s t) other v := by
  refine ⟨enrolled.destroyed, ?_, fun server ip parent address => ?_⟩
  · rw [mem_timer_settle, and_iff_left fun gone => different gone.2]
    exact enrolled.timed
  · have before := enrolled.entered server ip parent address
    obtain ⟨leaves, stays⟩ := connection_settle present map server (connHash ip v.destPort)
    by_cases gone : Leaves s t server (connHash ip v.destPort)
    · have closed : ¬ v.state ≠ .closed := by
        rw [← before, own _ _ gone]
        exact fun same => different (Option.some.inj same).symm
      rw [leaves gone]
      exact ⟨fun none => (by cases none), fun open_ => absurd open_ closed⟩
    · rw [stays gone]
      exact before

/-- One socket moves. It has been in its server's map if the move destroys it. -/
theorem Enrolling.moved (enrolling : stack.Enrolling) {id : SocketId} {s : TCPSocket}
    (present : stack.sockets[id]? = some s) (op : Op) (ports : PortAllocator SocketId)
    (tracked : TCPSocket.Tracked s (s.step ⟨stack.env setting id, op⟩))
    (alive : s.serverSocket ≠ none →
      .destroy ∈ (s.step ⟨stack.env setting id, op⟩).events.drop s.events.length →
      s.state ≠ .closed) :
    Enrolling { stack.moved setting id s op with ports } := by
  have later := later_step s ⟨stack.env setting id, op⟩
  have follows := TCPSocket.step_follows ⟨stack.env setting id, op⟩ s
  have quiet := (enrolling.quiet id s present).step ⟨stack.env setting id, op⟩
  have map : (s.step ⟨stack.env setting id, op⟩).connections = s.connections :=
    connections_step s _
  unfold Stack.moved
  generalize s.step ⟨stack.env setting id, op⟩ = t at tracked alive later follows quiet map ⊢
  have own (server : SocketId) (hash : Nat) (gone : Leaves s t server hash) :
      stack.connection server hash = some id := by
    obtain ⟨destroyed, parent, ip, address, rfl⟩ := gone
    rw [later.serverSocket] at parent
    rw [later.destIP] at address
    have connected : s.destIP ≠ none := address ▸ Option.some_ne_none ip
    rw [later.destPort, (enrolling.enrolled id s present connected).entered server ip parent address]
    exact alive (parent ▸ Option.some_ne_none server) destroyed
  have cases_ {other : SocketId} {u : TCPSocket}
      (stored : (stack.settle id s t).sockets[other]? = some u) :
      ∃ v, Alike u v ∧ (other = id ∧ v = t ∨ other ≠ id ∧ stack.sockets[other]? = some v) :=
    alike_settle present stored
  refine ⟨fun other u stored => ?_, fun other u stored listening => ?_, fun other timed => ?_,
    fun other u stored connected => ?_⟩
  · obtain ⟨v, ⟨intf, connections, rfl, -⟩, ⟨rfl, rfl⟩ | ⟨-, before⟩⟩ := cases_ stored
    · exact quiet
    · exact enrolling.quiet other v before
  · obtain ⟨v, ⟨intf, connections, rfl, -⟩, ⟨rfl, rfl⟩ | ⟨-, before⟩⟩ := cases_ stored
    · rw [show v.state = .listen from listening] at follows
      exact later.destIP.trans (enrolling.unconnected other s present follows.eq_listen)
    · exact enrolling.unconnected other v before listening
  · obtain ⟨v, before, connected⟩ := enrolling.known other (mem_timer_settle.mp timed).1
    obtain ⟨w, stored, later'⟩ := present_settle present before later
    exact ⟨w, stored, later'.destIP ▸ connected⟩
  · obtain ⟨v, alike, ⟨rfl, rfl⟩ | ⟨different, before⟩⟩ := cases_ stored
    · have known : s.destIP ≠ none := by
        obtain ⟨intf, connections, rfl, -⟩ := alike
        exact later.destIP ▸ connected
      have enrolled := (enrolling.enrolled other s present known).moved present tracked map
        later.serverSocket later.destIP later.destPort
      refine Enrolled.alike ?_ alike
      exact enrolled.of_same Iff.rfl fun _ _ _ _ => Iff.rfl
    · have known : v.destIP ≠ none := by
        obtain ⟨intf, connections, rfl, -⟩ := alike
        exact connected
      have enrolled := (enrolling.enrolled other v before known).beside different present map own
      refine Enrolled.alike ?_ alike
      exact enrolled.of_same Iff.rfl fun _ _ _ _ => Iff.rfl

theorem Enrolling.bindInterface (enrolling : stack.Enrolling) (id : SocketId) (intf : Interface) :
    (stack.modify id fun s => s.bindInterface intf).Enrolling := by
  have before {other : SocketId} {u : TCPSocket}
      (stored : (stack.modify id fun s => s.bindInterface intf).sockets[other]? = some u) :=
    alike_modify (fun s => alike_bindInterface s intf) stored
  refine ⟨fun other u stored => ?_, fun other u stored listening => ?_, fun other timed => ?_,
    fun other u stored connected => ?_⟩
  · obtain ⟨v, before, intf, connections, rfl, -⟩ := before stored
    exact enrolling.quiet other v before
  · obtain ⟨v, before, intf, connections, rfl, -⟩ := before stored
    exact enrolling.unconnected other v before listening
  · obtain ⟨v, before, connected⟩ := enrolling.known other timed
    obtain ⟨w, stored, later⟩ := present_modify (fun s => alike_bindInterface s intf) id before
    exact ⟨w, stored, later.destIP ▸ connected⟩
  · obtain ⟨v, before, alike⟩ := before stored
    have known : v.destIP ≠ none := by
      obtain ⟨intf, connections, rfl, -⟩ := alike
      exact connected
    refine Enrolled.alike ?_ alike
    refine (enrolling.enrolled other v before known).of_same Iff.rfl fun server ip _ _ => ?_
    rw [connection_modify]
    split
    · rw [Stack.connection]
      rfl
    · rfl

/-! ### New sockets -/

/-- A socket that has just sent its SYN. -/
theorem TCPSocket.fresh_sendSYN (env : Env) (isAck : Bool) {s : TCPSocket}
    (connecting : s.AwaitsSYN) (events : s.events = []) (idle : s.transmitQueue = []) :
    .destroy ∉ (s.sendSYN env isAck).events ∧ (s.sendSYN env isAck).state = s.state := by
  obtain ⟨-, -, -, state⟩ := TCPSocket.sendSYN_frame env isAck idle
  obtain ⟨more, after, closed⟩ := TCPSocket.Tracked.sendSYN env isAck s
  refine ⟨fun destroyed => ?_, state⟩
  rw [after, events, List.nil_append] at destroyed
  have gone := closed.mpr (.inr destroyed)
  rw [state] at gone
  exact connecting.alive gone

/-- A new socket that the others and the maps do not know yet. -/
theorem Enrolling.append (enrolling : stack.Enrolling) {t : TCPSocket}
    {ports : PortAllocator SocketId} {timer : List SocketId} (quiet : t.Unladen)
    (unconnected : t.state = .listen → t.destIP = none) (empty : ∀ hash, t.connection hash = none)
    (timed : ∀ other, other ∈ timer ↔
      other ∈ stack.timer ∨ other = stack.sockets.length ∧ t.destIP ≠ none)
    (own : t.destIP ≠ none → t.serverSocket = none ∧ .destroy ∉ t.events ∧ t.state ≠ .closed) :
    Enrolling ⟨stack.sockets ++ [t], ports, timer⟩ := by
  refine ⟨fun other u stored => ?_, fun other u stored => ?_, fun other member => ?_,
    fun other u stored connected => ?_⟩
  · rcases sockets_append stored with ⟨before, -⟩ | ⟨-, rfl⟩
    · exact enrolling.quiet other u before
    · exact quiet
  · rcases sockets_append stored with ⟨before, -⟩ | ⟨-, rfl⟩
    · exact enrolling.unconnected other u before
    · exact unconnected
  · rcases (timed other).mp member with before | ⟨rfl, connected⟩
    · obtain ⟨s, present, connected⟩ := enrolling.known other before
      exact ⟨s, present_append present, connected⟩
    · exact ⟨t, List.getElem?_concat_length, connected⟩
  · rcases sockets_append stored with ⟨before, different⟩ | ⟨rfl, rfl⟩
    · refine (enrolling.enrolled other u before connected).of_same ?_ fun server ip _ _ => ?_
      · exact (timed other).trans (or_iff_left fun new => different new.1)
      · rw [connection_append empty]
    · obtain ⟨client, kept, alive⟩ := own connected
      refine ⟨iff_of_false kept alive, iff_of_true ((timed _).mpr (.inr ⟨rfl, connected⟩)) alive,
        fun server ip parent => ?_⟩
      rw [client] at parent
      cases parent

theorem Enrolling.connect (enrolling : stack.Enrolling)
    (handlers : Handlers) (ip : IP4Address) (port : Nat) (ports : PortAllocator SocketId) :
    Enrolling ⟨stack.sockets ++ [(handlers.socket.opening ip port).sendSYN
        (stack.env setting stack.sockets.length) false], ports,
      stack.timer ++ [stack.sockets.length]⟩ := by
  have wiring := TCPSocket.wiring_sendSYN (stack.env setting stack.sockets.length) false
    (handlers.socket.opening ip port)
  obtain ⟨kept, state⟩ := TCPSocket.fresh_sendSYN (stack.env setting stack.sockets.length) false
    (s := handlers.socket.opening ip port) (.inl rfl) rfl rfl
  have quiet := TCPSocket.Unladen.sendSYN (stack.env setting stack.sockets.length) false
    (s := handlers.socket.opening ip port) rfl rfl rfl
  generalize (handlers.socket.opening ip port).sendSYN
    (stack.env setting stack.sockets.length) false = t at wiring kept state quiet ⊢
  obtain ⟨server, -, destIP, -, connections⟩ := Wiring.mk.inj wiring
  have connected : t.destIP ≠ none := destIP ▸ Option.some_ne_none ip
  refine enrolling.append quiet (fun listening => ?_) (fun hash => ?_) (fun other => ?_)
    fun _ => ⟨server, kept, ?_⟩
  · rw [state] at listening
    cases listening
  · rw [TCPSocket.connection, connections]
    rfl
  · rw [List.mem_append, List.mem_singleton, and_iff_left connected]
  · rw [state]
    exact State.noConfusion

theorem Enrolling.listen (enrolling : stack.Enrolling)
    (handlers onconnect : Handlers) (port : Nat) (ports : PortAllocator SocketId) :
    Enrolling ⟨stack.sockets ++ [handlers.socket.listening port onconnect], ports,
      stack.timer⟩ := by
  have unconnected : (handlers.socket.listening port onconnect).destIP = none := rfl
  refine enrolling.append (fun connecting => ?_) (fun _ => unconnected) (fun hash => rfl)
    (fun other => ?_) fun connected => absurd unconnected connected
  · rcases connecting with state | state <;> cases state
  · rw [or_iff_left fun new => new.2 unconnected]

theorem connection_enter {id serverId : SocketId} {server : TCPSocket}
    (present : stack.sockets[serverId]? = some server) (map : server.connections ≠ none)
    (entered : Nat) :
    (stack.modify serverId fun v => v.enterConnection entered id).connection serverId entered =
      some id := by
  obtain ⟨connections, some⟩ := Option.ne_none_iff_exists'.mp map
  rw [connection_modify, if_pos rfl, present]
  change (server.enterConnection entered id).connection entered = _
  rw [TCPSocket.connection, TCPSocket.enterConnection, some]
  exact AList.lookup_insert connections

theorem connection_enter_ne {id serverId other : SocketId} {hash entered : Nat}
    (different : ¬ (other = serverId ∧ hash = entered)) :
    (stack.modify serverId fun v => v.enterConnection entered id).connection other hash =
      stack.connection other hash := by
  rw [connection_modify]
  split
  · next same =>
      have key : hash ≠ entered := fun key => different ⟨same, key⟩
      simp only [TCPSocket.connection_enterConnection_ne _ key]
      rw [Stack.connection]
  · rfl

/-- A listening socket makes a connection and enters it in its map. -/
theorem Enrolling.accept (enrolling : stack.Enrolling) {serverId : SocketId} {server : TCPSocket}
    (present : stack.sockets[serverId]? = some server) (map : server.connections ≠ none)
    (packet : Packet) (unknown : server.connection packet.hash = none) :
    (stack.accept setting serverId server packet).Enrolling := by
  unfold Stack.accept
  dsimp only
  rw [TCPSocket.accept_eq]
  generalize opened : TCPSocket.accepting serverId server packet.srcIP packet.srcPort.toNat
    packet.segment server.onconnect.socket = fresh
  have wiring := TCPSocket.wiring_sendSYN (stack.env setting stack.sockets.length) true fresh
  obtain ⟨kept, state⟩ := TCPSocket.fresh_sendSYN (stack.env setting stack.sockets.length) true
    (s := fresh) (.inr (by rw [← opened]; rfl)) (by rw [← opened]; rfl) (by rw [← opened]; rfl)
  have quiet := TCPSocket.Unladen.sendSYN (stack.env setting stack.sockets.length) true
    (s := fresh) (by rw [← opened]; rfl) (by rw [← opened]; rfl) (by rw [← opened]; rfl)
  generalize fresh.sendSYN (stack.env setting stack.sockets.length) true = t
    at wiring kept state quiet ⊢
  obtain ⟨parent, -, destIP, destPort, connections⟩ := Wiring.mk.inj wiring
  rw [← opened] at parent destIP destPort connections state
  have alive : t.state ≠ .closed := by
    rw [state]
    exact State.noConfusion
  have quietMap (hash : Nat) : t.connection hash = none := by
    rw [TCPSocket.connection, connections]
    rfl
  generalize stack.configured setting stack.sockets.length fresh = ports
  have owner : (stack.sockets ++ [t])[serverId]? = some server := present_append present
  have connection (other : SocketId) (hash : Nat) :
      connection ⟨stack.sockets ++ [t], ports, stack.timer ++ [stack.sockets.length]⟩ other hash =
        stack.connection other hash := connection_append quietMap _ _ other hash
  have before {other : SocketId} {u : TCPSocket} (stored : (modify ⟨stack.sockets ++ [t], ports,
      stack.timer ++ [stack.sockets.length]⟩ serverId fun v =>
        v.enterConnection packet.hash stack.sockets.length).sockets[other]? = some u) :
      ∃ v, Alike u v ∧ (stack.sockets[other]? = some v ∧ other ≠ stack.sockets.length ∨
        other = stack.sockets.length ∧ v = t) := by
    obtain ⟨v, stored, alike⟩ := alike_modify
      (fun s => alike_enterConnection s packet.hash stack.sockets.length) stored
    exact ⟨v, alike, sockets_append stored⟩
  refine ⟨fun other u stored => ?_, fun other u stored listening => ?_, fun other timed => ?_,
    fun other u stored connected => ?_⟩
  · obtain ⟨v, ⟨intf, map, rfl, -⟩, ⟨before, -⟩ | ⟨-, rfl⟩⟩ := before stored
    · exact enrolling.quiet other v before
    · exact quiet
  · obtain ⟨v, ⟨intf, map, rfl, -⟩, ⟨before, -⟩ | ⟨-, rfl⟩⟩ := before stored
    · exact enrolling.unconnected other v before listening
    · rw [show v.state = .listen from listening] at state
      cases state
  · have appended : ∃ s, (stack.sockets ++ [t])[other]? = some s ∧ s.destIP ≠ none := by
      rcases List.mem_append.mp timed with old | new
      · obtain ⟨s, present, connected⟩ := enrolling.known other old
        exact ⟨s, present_append present, connected⟩
      · rw [List.mem_singleton.mp new]
        exact ⟨t, List.getElem?_concat_length, destIP ▸ Option.some_ne_none _⟩
    obtain ⟨s, present, connected⟩ := appended
    obtain ⟨w, stored, later⟩ := @present_modify
      ⟨stack.sockets ++ [t], ports, stack.timer ++ [stack.sockets.length]⟩ _
      (fun s => alike_enterConnection s packet.hash stack.sockets.length) serverId _ _ present
    exact ⟨w, stored, later.destIP ▸ connected⟩
  · obtain ⟨v, alike, ⟨before, different⟩ | ⟨rfl, rfl⟩⟩ := before stored
    · have known : v.destIP ≠ none := by
        obtain ⟨intf, map, rfl, -⟩ := alike
        exact connected
      have enrolled := enrolling.enrolled other v before known
      refine Enrolled.alike ?_ alike
      refine enrolled.of_same ?_ fun parentId ip parent' address => ?_
      · change other ∈ stack.timer ++ [stack.sockets.length] ↔ _
        rw [List.mem_append, List.mem_singleton, or_iff_left different]
      · by_cases key : parentId = serverId ∧ connHash ip v.destPort = packet.hash
        · -- the entry was free, so that no other connection had it
          obtain ⟨rfl, key⟩ := key
          rw [key, connection_enter owner map, connection_eq present, unknown]
          refine ⟨fun same => absurd (Option.some.inj same).symm different, fun none => ?_⟩
          cases none
        · rw [connection_enter_ne key, connection]
    · refine Enrolled.alike ?_ alike
      refine ⟨iff_of_false kept alive, iff_of_true ?_ alive, fun parentId ip parent' address => ?_⟩
      · exact List.mem_append_right _ (List.mem_singleton_self _)
      · rw [parent] at parent'
        rw [destIP] at address
        cases parent'
        cases address
        refine iff_of_true ?_ alive
        rw [destPort]
        exact connection_enter owner map packet.hash

/-! ### Every step keeps it -/

/-- A closed socket ignores its owner. -/
theorem step_of_closed {s : TCPSocket} (closed : s.state = .closed) {input : Input}
    (called : (∃ u8, input.op = .send u8) ∨ input.op = .halfclose ∨ input.op = .close) :
    s.step input = s := by
  obtain ⟨env, op⟩ := input
  rcases called with ⟨u8, same⟩ | same | same
  · change op = _ at same
    subst same
    simp [TCPSocket.step, TCPSocket.send, TCPSocket.canSend, closed, TCPSocket.orUnchanged,
      Except.map]
  · change op = _ at same
    subst same
    simp [TCPSocket.step, TCPSocket.halfclose, closed, TCPSocket.orUnchanged]
  · change op = _ at same
    subst same
    simp [TCPSocket.step, TCPSocket.close, TCPSocket.halfclose, closed, TCPSocket.orUnchanged]

/-- **Every step that spares the connections it resets keeps them registered.** -/
theorem Enrolling.step (enrolling : stack.Enrolling) (wired : stack.Wired)
    (owning : stack.Owning) {input : Setting × Action} (spares : stack.Spares input) :
    (stack.step input).Enrolling := by
  obtain ⟨setting, action⟩ := input
  have moves := @Wired.moves stack setting wired action
  have tracked {id : SocketId} {s : TCPSocket} (present : stack.sockets[id]? = some s) {op : Op}
      (own : ∀ segment, op ≠ .receive segment) :
      TCPSocket.Tracked s (s.step ⟨stack.env setting id, op⟩) :=
    TCPSocket.Tracked.step (enrolling.quiet id s present) fun segment receives =>
      absurd receives (own segment)
  generalize stack.step (setting, action) = after at moves ⊢
  cases moves with
  | idle => exact enrolling
  | connect handlers ip port => exact enrolling.connect handlers ip port _
  | listen handlers onconnect asked => exact enrolling.listen handlers onconnect _ _
  | @call id s _ op present called bound =>
      have moved := enrolling.moved present op stack.ports (tracked present ?_) ?_
      · unfold Stack.moved at moved ⊢
        rw [← settle_ports stack id s (s.step ⟨stack.env setting id, op⟩)] at moved
        exact moved
      · rcases called with ⟨u8, rfl⟩ | rfl | rfl <;> exact fun segment => Op.noConfusion
      · intro _ destroyed closed
        rw [step_of_closed closed called, List.drop_length] at destroyed
        exact List.not_mem_nil destroyed
  | @closeUnbound id s present listening unbound =>
      have unconnected := enrolling.unconnected id s present listening
      refine ⟨fun other u stored => ?_, fun other u stored listens => ?_, fun other timed => ?_,
        fun other u stored connected => ?_⟩
      · rw [sockets_put present] at stored
        split at stored
        · cases stored
          intro connecting
          rcases connecting with state | state <;> cases state
        · exact enrolling.quiet other u stored
      · rw [sockets_put present] at stored
        split at stored
        · cases stored
          cases listens
        · exact enrolling.unconnected other u stored listens
      · obtain ⟨v, before, connected⟩ := enrolling.known other timed
        refine ⟨v, ?_, connected⟩
        rw [sockets_put present, if_neg]
        · exact before
        · rintro rfl
          rw [present] at before
          cases before
          exact connected unconnected
      · rw [sockets_put present] at stored
        split at stored
        · cases stored
          exact absurd unconnected connected
        · refine (enrolling.enrolled other u stored connected).of_same Iff.rfl fun _ _ _ _ => ?_
          rw [connection_put (t := s.setState .closed) present rfl]
  | @closeBound id s ports present listening =>
      refine enrolling.moved present .close ports (tracked present fun _ => Op.noConfusion)
        fun _ _ closed => ?_
      rw [listening] at closed
      cases closed
  | @tick id s present timed =>
      refine enrolling.moved present .timerTick _ (tracked present fun _ => Op.noConfusion)
        fun _ _ => ?_
      obtain ⟨v, stored, connected⟩ := enrolling.known id timed
      rw [present] at stored
      cases stored
      exact (enrolling.enrolled id s present connected).timed.mp timed
  | ignore packet id => exact enrolling.bindInterface id packet.intf
  | @accept packet id s present listening bound unknown =>
      exact (enrolling.bindInterface id packet.intf).accept
        (sockets_bindInterface present packet.intf) ((owning id s present).listening listening) packet
        unknown
  | @receive packet id s present goes quiet reached =>
      have stored := sockets_bindInterface present packet.intf
      have binds := enrolling.bindInterface id packet.intf
      have moved := @Enrolling.moved _ setting binds _ _ stored (.receive packet.segment) stack.ports
        (TCPSocket.Tracked.step (binds.quiet id _ stored) fun segment receives => ?_) ?_
      · unfold Stack.moved at moved ⊢
        have ports := settle_ports (stack.modify id fun s => s.bindInterface packet.intf) id
          (s.bindInterface packet.intf) ((s.bindInterface packet.intf).step
            ⟨(stack.modify id fun s => s.bindInterface packet.intf).env setting id,
              .receive packet.segment⟩)
        change _ = stack.ports at ports
        rw [← ports] at moved
        exact moved
      · cases receives
        exact spares packet id s rfl goes present
      · intro accepted _
        rcases reached with ⟨client, -⟩ | ⟨server, parent, entry⟩
        · exact absurd client accepted
        · obtain ⟨t, present', -, ip, address, key⟩ := wired.entered entry
          rw [present] at present'
          cases present'
          have connected : s.destIP ≠ none := address ▸ Option.some_ne_none ip
          rw [← key] at entry
          exact ((enrolling.enrolled id s present connected).entered server ip parent address).mp
            entry

theorem enrolling_new : Enrolling {} where
  quiet id s present := by cases present
  unconnected id s present := by cases present
  known id timed := absurd timed List.not_mem_nil
  enrolled id s present := by cases present

/-- A run that spares the connections it resets. -/
theorem run_enrolling {inputs : List (Setting × Action)}
    (spares : Transition.Along step Spares {} inputs) :
    (Transition.run step {} inputs).Enrolling := by
  have run := Transition.run_invariant
    (fun stack : Stack => stack.Wired ∧ stack.Owning ∧ stack.Enrolling)
    (fun _ input holds spared => ⟨holds.1.step input, holds.2.1.step holds.1 input,
      holds.2.2.step holds.1 holds.2.1 spared⟩) ⟨wired_new, owning_new, enrolling_new⟩ spares
  exact run.2.2

/-- A client that opens a connection and gets it. -/
def opening : List (Setting × Action) :=
  [(lan 0, .connect ⟨true, true, true, true, none⟩ ⟨10, 0, 0, 2⟩ 80),
    (lan 1, .receive ⟨0, ⟨10, 0, 0, 2⟩, 80, 49152,
      .ofData (flagSYN ||| flagACK) 4999 20000 8192 []⟩)]

/-- A client whose SYN is sent eight times, and then gets an acknowledgement of something
else. -/
def reviving : List (Setting × Action) :=
  (lan 0, .connect ⟨true, true, true, true, none⟩ ⟨10, 0, 0, 2⟩ 80) ::
    [2001, 4001, 6001, 8001, 10001, 12001, 14001].map (fun now => (lan now, .timerTick 0)) ++
    [(lan 14002, .receive ⟨0, ⟨10, 0, 0, 2⟩, 80, 49152, .ofData flagACK 4999 5 8192 []⟩)]

end Stack

end JsOS.Net.Tcp
