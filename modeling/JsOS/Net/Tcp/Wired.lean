import JsOS.Net.Tcp.Stack

/-! # How the sockets of the stack are connected

The methods of a socket do not change to which endpoint, port and server it belongs
(`wiring`). Over the whole stack this keeps the allocator, the maps of connections and
the sockets in agreement (`Wired`), in every stack that can come about.
-/

namespace JsOS.Net.Tcp

/-- The fields of a socket that other parts of the stack refer to. -/
structure Wiring where
  serverSocket : Option SocketId
  port : Nat
  destIP : Option IP4Address
  destPort : Nat
  connections : Option (AList fun _ : Nat => SocketId)

namespace TCPSocket

/-- The wiring of a socket. -/
def wiring (s : TCPSocket) : Wiring :=
  ⟨s.serverSocket, s.port, s.destIP, s.destPort, s.connections⟩

/-! ## Methods keep the wiring -/

@[simp] theorem wiring_emitIf (s : TCPSocket) (callback : Bool) (event : Event) :
    (s.emitIf callback event).wiring = s.wiring := by
  cases callback <;> rfl

@[simp] theorem wiring_sendTransmitQueue (now : Nat) (s : TCPSocket) :
    (s.sendTransmitQueue now).wiring = s.wiring := by
  by_cases below : s.BelowLimit
  · obtain ⟨packets, -, after⟩ := sendTransmitQueue_of_below now below
    rw [after]
    rfl
  · obtain ⟨packets, ack, -, after⟩ := sendTransmitQueue_of_limit now below
    rw [after]
    rfl

@[simp] theorem wiring_fillTransmitQueue (now : Nat) (s : TCPSocket) :
    (s.fillTransmitQueue now).wiring = s.wiring := by
  have stable : FillStable now fun s t => t.wiring = s.wiring :=
    ⟨fun _ => rfl, fun first second => second.trans first, fun _ _ _ => rfl, fun _ _ _ _ => rfl,
      fun _ => rfl, fun _ _ => rfl, fun _ _ _ => rfl, fun _ _ => rfl, wiring_sendTransmitQueue now⟩
  exact stable.fillTransmitQueue s

theorem wiring_receive (now : Nat) (segment : Segment) (s : TCPSocket) :
    (s.receive now segment).wiring = s.wiring := by
  have stable : ReceiveStable now fun s t => t.wiring = s.wiring :=
    { refl := fun _ => rfl
      trans := fun first second => second.trans first
      pushData := fun _ _ _ => rfl
      pushPart := fun _ _ _ _ => rfl
      pushFIN := fun _ => rfl
      shift := fun _ _ => rfl
      enqueue := fun _ _ _ => rfl
      ondrain := fun _ _ => rfl
      send := wiring_sendTransmitQueue now
      acknowledge := fun _ _ _ => rfl
      window := fun _ _ => rfl
      emit := fun _ _ => rfl
      receiveQueue := fun _ _ => rfl
      slide := fun _ _ => rfl
      requireACK := fun _ => rfl
      setState := fun _ _ => rfl
      enterTimeWait := fun _ => rfl
      destroy := fun _ => rfl }
  exact stable.receive segment s

theorem wiring_refilled (input : Input) (s : TCPSocket) : (s.refilled input).wiring = s.wiring := by
  have ended {t : TCPSocket} (ends : s.ending? = some t) : t.wiring = s.wiring := by
    unfold ending? at ends
    split at ends
    · cases ends
      rfl
    · cases ends
      rfl
    · cases ends
  have filled {t : TCPSocket} (fills : s.filling input.op = some t) : t.wiring = s.wiring := by
    unfold filling at fills
    split at fills
    · obtain ⟨-, ⟨⟩⟩ := Option.ite_none_right_eq_some.mp fills
      rfl
    · exact ended fills
    · exact ended fills
    · obtain ⟨-, ⟨⟩⟩ := Option.ite_none_right_eq_some.mp fills
      rfl
    · cases fills
  unfold refilled
  cases fills : s.filling input.op with
  | some t =>
      dsimp only [Option.map_some, Option.getD_some]
      rw [wiring_fillTransmitQueue]
      exact filled fills
  | none =>
      dsimp only [Option.map_none, Option.getD_none]
      unfold unfilled
      split
      · split <;> rfl
      · rfl

/-- A step other than the timer's keeps the wiring. -/
theorem wiring_step {input : Input} (untimed : input.op ≠ .timerTick) (s : TCPSocket) :
    (s.step input).wiring = s.wiring := by
  rcases step_eq input s with call | ⟨segment, -, -, receives⟩ | ⟨timed, -⟩ | ⟨-, -, closes⟩
  · rw [call]
    exact wiring_refilled input s
  · rw [receives]
    exact wiring_receive _ segment s
  · exact absurd timed untimed
  · rw [closes, wiring_emitIf]
    rfl

/-! ## The port of a connection that is opened -/

/-- The port after `_configure`. -/
def portAfter (env : Env) (s : TCPSocket) : Nat :=
  if s.asksPort env then env.ephemeralPort else s.port

/-- The wiring with another port. -/
def wiringAt (s : TCPSocket) (port : Nat) : Wiring := { s.wiring with port }

theorem wiring_configure (env : Env) (s : TCPSocket) :
    (s.configure env).2.wiring = s.wiringAt (s.portAfter env) := by
  unfold configure portAfter asksPort
  cases destIP : s.destIP with
  | none =>
      rw [Option.any_none, Bool.and_false, if_neg Bool.false_ne_true]
      rfl
  | some ip =>
      rw [Option.any_some]
      dsimp only
      split
      · next broadcast =>
          rw [broadcast, Bool.not_true, Bool.false_and, Bool.and_false, if_neg Bool.false_ne_true]
          rfl
      · next unicast =>
          rw [Bool.not_eq_true] at unicast
          cases env.route ip s.intf with
          | none =>
              rw [Option.isSome_none, Bool.and_false, Bool.and_false, if_neg Bool.false_ne_true]
              rfl
          | some entry =>
              rw [unicast, Option.isSome_some, Bool.not_false, Bool.true_and, Bool.and_true]
              by_cases zero : s.port = 0
              · rw [if_pos (decide_eq_true zero)]
                dsimp only
                split
                · next none =>
                    rw [none.2, ← zero]
                    rfl
                · simp [wiring, wiringAt, zero, destIP]
              · rw [if_neg (by simpa using zero)]
                dsimp only
                rw [if_neg fun none => zero none.1]
                simp [wiring, wiringAt, zero, destIP]

theorem wiring_sendConfigured (env : Env) (s : TCPSocket) :
    (s.sendConfigured env).wiring = s.wiringAt (s.portAfter env) := by
  rw [← wiring_configure, sendConfigured]
  split
  · exact wiring_sendTransmitQueue env.now _
  · rfl

theorem wiring_sendSYN (env : Env) (isAck : Bool) (s : TCPSocket) :
    (s.sendSYN env isAck).wiring = s.wiringAt (s.portAfter env) := by
  rw [sendSYN_eq]
  exact wiring_sendConfigured env _

theorem wiring_timerTick (env : Env) (s : TCPSocket) :
    (s.timerTick env).wiring =
      if s.state = .synSent ∨ s.state = .synReceived then s.wiringAt (s.portAfter env)
      else s.wiring := by
  rcases timerTick_cases env s with ⟨state, ticks⟩ | ⟨state, ticks⟩ | ⟨state, ticks⟩ |
    ⟨notSent, notReceived, ticks⟩
  · rw [ticks, if_neg (by simp [state])]
    rfl
  · rw [ticks, if_pos state]
    exact wiring_sendConfigured env s
  · rw [ticks, if_neg (by rcases state with state | state <;> simp [state])]
    exact wiring_sendTransmitQueue env.now s
  · rw [ticks, if_neg (not_or.mpr ⟨notSent, notReceived⟩)]

/-! ## Maps of connections -/

theorem connection_deleteConnection (s : TCPSocket) (deleted hash : Nat) :
    (s.deleteConnection deleted).connection hash =
      if hash = deleted then none else s.connection hash := by
  unfold connection deleteConnection
  cases s.connections with
  | none => exact (ite_self _).symm
  | some connections =>
      change (connections.erase deleted).lookup hash = _
      split
      · next same =>
          subst same
          exact AList.lookup_erase hash connections
      · next different => exact AList.lookup_erase_ne different

theorem connection_enterConnection {s : TCPSocket} {hash entered : Nat} {id found : SocketId}
    (lookup : (s.enterConnection entered id).connection hash = some found) :
    s.connection hash = some found ∨ (hash = entered ∧ found = id) := by
  unfold connection enterConnection at lookup
  unfold connection
  cases connections : s.connections with
  | none =>
      rw [connections] at lookup
      cases lookup
  | some map =>
      rw [connections] at lookup
      change (map.insert entered id).lookup hash = _ at lookup
      by_cases same : hash = entered
      · subst same
        rw [AList.lookup_insert] at lookup
        exact .inr ⟨rfl, (Option.some.inj lookup).symm⟩
      · rw [AList.lookup_insert_ne same] at lookup
        exact .inl lookup

theorem connection_enterConnection_ne (s : TCPSocket) {hash entered : Nat} {id : SocketId}
    (different : hash ≠ entered) :
    (s.enterConnection entered id).connection hash = s.connection hash := by
  unfold connection enterConnection
  cases s.connections with
  | none => rfl
  | some map => exact AList.lookup_insert_ne different

/-! ## States that only a segment leaves -/

theorem Follows.eq_listen {ends : Prop} {before : State} (follows : Follows ends before .listen) :
    before = .listen := by
  cases follows
  rfl

theorem Follows.of_closed {ends : Prop} {after : State} (follows : Follows ends .closed after) :
    after = .closed := by
  cases follows <;> rfl

theorem Follows.of_listen {ends : Prop} {after : State} (follows : Follows ends .listen after) :
    after = .listen ∨ after = .closed := by
  cases follows
  · exact .inl rfl
  · exact .inr rfl

theorem step_of_synSent {input : Input} {s : TCPSocket} (state : s.state = .synSent)
    (own : ∀ segment, input.op ≠ .receive segment) :
    (s.step input).state = .synSent ∨ (s.step input).state = .closed := by
  obtain ⟨env, op⟩ := input
  cases op with
  | receive segment => exact absurd rfl (own segment)
  | timerTick => exact state ▸ timerTick_state env s
  | send u8 =>
      refine .inl ?_
      simp [step, send, canSend, state, orUnchanged, Except.map]
  | halfclose =>
      refine .inl ?_
      simp [step, halfclose, state, orUnchanged]
  | close =>
      refine .inl ?_
      simp [step, close, halfclose, state, orUnchanged]

end TCPSocket

namespace Stack

/-! ## The invariant -/

/-- A connection that was accepted is younger than its server, knows its peer, has the
server's port and no connections of its own. -/
structure Accepted (server id : SocketId) (s : TCPSocket) : Prop where
  older : server < id
  quiet : s.state ≠ .listen
  unused : s.connections = none
  bound : s.port ≠ 0
  addressed : s.destIP ≠ none

/-- How a socket relates to the rest of the stack. A socket that was not accepted and has
got beyond its SYN is registered under its port, and so is one that listens on a port. -/
structure Placed (ports : PortAllocator SocketId) (id : SocketId) (s : TCPSocket) : Prop where
  accepted : ∀ {server}, s.serverSocket = some server → Accepted server id s
  owned : s.serverSocket = none → s.state = .closed ∨ s.state = .synSent ∨
    (s.state = .listen ∧ s.port = 0) ∨ ports.lookup s.port = some id

/-- The socket is the connection of the server with the endpoint of this key. -/
def IsConnection (stack : Stack) (server : SocketId) (hash : Nat) (id : SocketId) : Prop :=
  ∃ s, stack.sockets[id]? = some s ∧ s.serverSocket = some server ∧
    ∃ ip, s.destIP = some ip ∧ connHash ip s.destPort = hash

/-- The allocator, the maps of connections and the sockets agree. -/
structure Wired (stack : Stack) : Prop where
  ports : stack.ports.Valid
  registered : ∀ {port id}, stack.ports.lookup port = some id →
    ∃ s, stack.sockets[id]? = some s ∧ s.port = port ∧ s.serverSocket = none
  entered : ∀ {server hash id}, stack.connection server hash = some id →
    stack.IsConnection server hash id
  placed : ∀ {id s}, stack.sockets[id]? = some s → Placed stack.ports id s

theorem wired_new : Wired {} where
  ports := PortAllocator.valid_new
  registered := by
    intro port id found
    cases found' : PortAllocator.isEphemeralRange port <;>
      simp [PortAllocator.lookup, PortAllocator.mapped, PortAllocator.slot] at found
  entered := by
    intro server hash id found
    cases found
  placed := by
    intro id s present
    cases present

/-! ### Changing a socket -/

theorem connection_eq {stack : Stack} {id : SocketId} {s : TCPSocket}
    (present : stack.sockets[id]? = some s) (hash : Nat) :
    stack.connection id hash = s.connection hash := by
  rw [connection, present]
  rfl

theorem sockets_put {stack : Stack} {id : SocketId} {s : TCPSocket}
    (present : stack.sockets[id]? = some s) (t : TCPSocket) (other : SocketId) :
    (stack.put id t).sockets[other]? = if other = id then some t else stack.sockets[other]? := by
  obtain ⟨below, -⟩ := List.getElem?_eq_some_iff.mp present
  change (stack.sockets.set id t)[other]? = _
  rw [List.getElem?_set]
  split
  · next same => rw [if_pos same.symm]
  · next different => rw [if_neg (Ne.symm different)]

theorem sockets_modify (stack : Stack) (id : SocketId) (change : TCPSocket → TCPSocket)
    (other : SocketId) :
    (stack.modify id change).sockets[other]? =
      if other = id then stack.sockets[other]?.map change else stack.sockets[other]? := by
  change (stack.sockets.modify id change)[other]? = _
  by_cases same : other = id
  · subst same
    simp
  · simp [same, Ne.symm same]

/-- Storing a socket with the same wiring, up to its port, together with the allocator. -/
theorem Wired.replace {stack : Stack} (wired : stack.Wired) {id : SocketId} {s t : TCPSocket}
    (present : stack.sockets[id]? = some s) {port : Nat} (wiring : t.wiring = s.wiringAt port)
    {ports : PortAllocator SocketId} (valid : ports.Valid)
    (others : ∀ other owner, owner ≠ id →
      (ports.lookup other = some owner ↔ stack.ports.lookup other = some owner))
    (own : ∀ other, ports.lookup other = some id → other = port ∧ s.serverSocket = none)
    (placed : Placed ports id t) : Wired { stack.put id t with ports } := by
  obtain ⟨server, portEq, destIP, destPort, connections⟩ := Wiring.mk.inj wiring
  have sockets := sockets_put present t
  refine ⟨valid, fun {other owner} found => ?_, fun {parent hash connection} found => ?_,
    fun {other u} stored => ?_⟩
  · change ∃ u, (stack.put id t).sockets[owner]? = some u ∧ _
    rw [sockets]
    split
    · next same =>
        subst same
        obtain ⟨rfl, client⟩ := own other found
        exact ⟨t, rfl, portEq, server.trans client⟩
    · next different => exact wired.registered ((others other owner different).mp found)
  · have before : stack.connection parent hash = some connection := by
      rw [← found]
      change _ = ((stack.put id t).sockets[parent]?).bind fun u => u.connection hash
      rw [sockets]
      split
      · next same =>
          subst same
          rw [connection_eq present]
          change s.connection hash = t.connection hash
          rw [TCPSocket.connection, TCPSocket.connection, connections]
          rfl
      · rfl
    obtain ⟨u, stored, parentEq, ip, address, key⟩ := wired.entered before
    change ∃ v, (stack.put id t).sockets[connection]? = some v ∧ _
    rw [sockets]
    split
    · next same =>
        subst same
        rw [present] at stored
        cases stored
        exact ⟨t, rfl, server.trans parentEq, ip, destIP.trans address, destPort ▸ key⟩
    · exact ⟨u, stored, parentEq, ip, address, key⟩
  · change (stack.put id t).sockets[other]? = some u at stored
    rw [sockets] at stored
    split at stored
    · next same =>
        cases stored
        exact same ▸ placed
    · next different =>
        obtain ⟨accepted, owned⟩ := wired.placed stored
        refine ⟨accepted, fun client => ?_⟩
        rcases owned client with closed | sent | free | found
        · exact .inl closed
        · exact .inr (.inl sent)
        · exact .inr (.inr (.inl free))
        · exact .inr (.inr (.inr ((others _ _ different).mpr found)))

/-- A change to a socket that other parts of the stack do not see, apart from entries in
its map. -/
theorem Wired.modify {stack : Stack} (wired : stack.Wired) (id : SocketId)
    {change : TCPSocket → TCPSocket}
    (server : ∀ s, (change s).serverSocket = s.serverSocket)
    (port : ∀ s, (change s).port = s.port) (destIP : ∀ s, (change s).destIP = s.destIP)
    (destPort : ∀ s, (change s).destPort = s.destPort) (state : ∀ s, (change s).state = s.state)
    (connections : ∀ s, s.connections = none → (change s).connections = none)
    (entries : ∀ s hash connection, stack.sockets[id]? = some s →
      (change s).connection hash = some connection →
      s.connection hash = some connection ∨ stack.IsConnection id hash connection) :
    (stack.modify id change).Wired := by
  have sockets := sockets_modify stack id change
  have seen (P : TCPSocket → Prop) (same : ∀ s, P s → P (change s)) {other : SocketId}
      (present : ∃ s, stack.sockets[other]? = some s ∧ P s) :
      ∃ s, (stack.modify id change).sockets[other]? = some s ∧ P s := by
    obtain ⟨s, present, holds⟩ := present
    rw [sockets, present]
    split
    · exact ⟨change s, rfl, same s holds⟩
    · exact ⟨s, rfl, holds⟩
  have connects {parent : SocketId} {hash : Nat} {connection : SocketId}
      (is : stack.IsConnection parent hash connection) :
      (stack.modify id change).IsConnection parent hash connection := by
    refine seen (fun s => s.serverSocket = some parent ∧ ∃ ip, s.destIP = some ip ∧
      connHash ip s.destPort = hash) (fun s holds => ?_) is
    rw [server, destIP, destPort]
    exact holds
  refine ⟨wired.ports, fun {other owner} found => ?_, fun {parent hash connection} found => ?_,
    fun {other u} stored => ?_⟩
  · refine seen (fun s => s.port = other ∧ s.serverSocket = none) (fun s holds => ?_)
      (wired.registered found)
    rw [port, server]
    exact holds
  · change ((stack.modify id change).sockets[parent]?).bind (fun u => u.connection hash) = _ at found
    rw [sockets] at found
    split at found
    · next same =>
        subst same
        cases present : stack.sockets[parent]? with
        | none =>
            rw [present] at found
            cases found
        | some s =>
            rw [present] at found
            rcases entries s hash connection present found with before | is
            · exact connects (wired.entered ((connection_eq present hash).trans before))
            · exact connects is
    · exact connects (wired.entered found)
  · rw [sockets] at stored
    split at stored
    · cases present : stack.sockets[other]? with
      | none =>
          rw [present] at stored
          cases stored
      | some s =>
          rw [present] at stored
          cases stored
          obtain ⟨accepted, owned⟩ := wired.placed present
          refine ⟨fun parent => ?_, fun client => ?_⟩
          · rw [server] at parent
            obtain ⟨older, quiet, unused, bound, addressed⟩ := accepted parent
            exact ⟨older, by rwa [state], connections s unused, by rwa [port], by rwa [destIP]⟩
          · rw [server] at client
            rw [state, port]
            exact owned client
    · exact wired.placed stored

/-- A new socket, together with the allocator. -/
theorem Wired.append {stack : Stack} (wired : stack.Wired) {t : TCPSocket}
    {ports : PortAllocator SocketId} (timer : List SocketId) (valid : ports.Valid)
    (others : ∀ other owner, owner ≠ stack.sockets.length →
      (ports.lookup other = some owner ↔ stack.ports.lookup other = some owner))
    (own : ∀ other, ports.lookup other = some stack.sockets.length →
      t.port = other ∧ t.serverSocket = none)
    (quiet : ∀ hash, t.connection hash = none) (placed : Placed ports stack.sockets.length t) :
    Wired ⟨stack.sockets ++ [t], ports, timer⟩ := by
  have older {id : SocketId} {s : TCPSocket} (present : stack.sockets[id]? = some s) :
      (stack.sockets ++ [t])[id]? = some s :=
    List.getElem?_append_left (List.getElem?_eq_some_iff.mp present).1 ▸ present
  have cases_ {id : SocketId} {s : TCPSocket} (present : (stack.sockets ++ [t])[id]? = some s) :
      stack.sockets[id]? = some s ∨ (id = stack.sockets.length ∧ s = t) := by
    rw [List.getElem?_append] at present
    split at present
    · exact .inl present
    · next beyond =>
        obtain ⟨position, value⟩ := List.getElem?_eq_some_iff.mp present
        have last : id - stack.sockets.length = 0 := Nat.lt_one_iff.mp position
        exact .inr ⟨Nat.le_antisymm (Nat.sub_eq_zero_iff_le.mp last) (Nat.le_of_not_lt beyond),
          by rw [← value, List.getElem_singleton]⟩
  refine ⟨valid, fun {other owner} found => ?_, fun {parent hash connection} found => ?_,
    fun {other u} stored => ?_⟩
  · by_cases fresh : owner = stack.sockets.length
    · subst fresh
      obtain ⟨port, client⟩ := own other found
      exact ⟨t, List.getElem?_concat_length, port, client⟩
    · obtain ⟨s, present, holds⟩ := wired.registered ((others other owner fresh).mp found)
      exact ⟨s, older present, holds⟩
  · obtain ⟨v, stored, entry⟩ := Option.bind_eq_some_iff.mp found
    rcases cases_ stored with present | ⟨-, rfl⟩
    · obtain ⟨s, connected, holds⟩ := wired.entered ((connection_eq present hash).trans entry)
      exact ⟨s, older connected, holds⟩
    · rw [quiet] at entry
      cases entry
  · rcases cases_ stored with present | ⟨rfl, rfl⟩
    · obtain ⟨accepted, owned⟩ := wired.placed present
      refine ⟨accepted, fun client => ?_⟩
      rcases owned client with closed | sent | free | found
      · exact .inl closed
      · exact .inr (.inl sent)
      · exact .inr (.inr (.inl free))
      · have below := (List.getElem?_eq_some_iff.mp present).1
        exact .inr (.inr (.inr ((others _ _ (by omega)).mpr found)))
    · exact placed

/-! ### Steps of a socket -/

theorem Wired.timed {stack : Stack} (wired : stack.Wired) (timer : List SocketId) :
    Wired { stack with timer } :=
  ⟨wired.ports, wired.registered, wired.entered, wired.placed⟩

theorem Wired.unregister {stack : Stack} (wired : stack.Wired) (id : SocketId) (s : TCPSocket) :
    (stack.unregister id s).Wired := by
  unfold Stack.unregister
  dsimp only
  split
  · refine (wired.timed _).modify _ (fun _ => rfl) (fun _ => rfl) (fun _ => rfl) (fun _ => rfl)
      (fun _ => rfl) (fun v unused => ?_) (fun v hash connection _ found => .inl ?_)
    · rw [TCPSocket.deleteConnection, unused]
      rfl
    · rw [TCPSocket.connection_deleteConnection] at found
      split at found
      · cases found
      · exact found
  · exact wired.timed _

theorem unregister_ports (stack : Stack) (id : SocketId) (s : TCPSocket)
    (ports : PortAllocator SocketId) :
    { stack.unregister id s with ports } = { stack with ports }.unregister id s := by
  unfold unregister
  dsimp only
  split <;> rfl

theorem Wired.settle {stack : Stack} {id : SocketId} {s t : TCPSocket}
    {ports : PortAllocator SocketId} (stored : Wired { stack.put id t with ports }) :
    Wired { stack.settle id s t with ports } := by
  unfold Stack.settle
  split
  · rw [unregister_ports]
    exact stored.unregister id t
  · exact stored

/-- A step of a socket keeps its place. Only a socket that packets can reach gets beyond
its SYN. -/
theorem Placed.step {before after : PortAllocator SocketId} {id : SocketId} {s : TCPSocket}
    (placed : Placed before id s) (input : Input) {port : Nat}
    (wiring : (s.step input).wiring = s.wiringAt port) (kept : s.port ≠ 0 → port = s.port)
    (listens : s.state = .listen → port = s.port)
    (remains : before.lookup s.port = some id → (s.step input).state = .closed ∨
      after.lookup port = some id)
    (reached : ∀ segment, input.op = .receive segment → before.lookup s.port = some id ∨
      s.serverSocket ≠ none) : Placed after id (s.step input) := by
  obtain ⟨server, portEq, destIP, -, connections⟩ := Wiring.mk.inj wiring
  have follows := TCPSocket.step_follows input s
  refine ⟨fun {parent} accepted => ?_, fun client => ?_⟩
  · obtain ⟨older, quiet, unused, bound, addressed⟩ :=
      placed.accepted (server.symm.trans accepted)
    refine ⟨older, fun listening => ?_, connections.trans unused, ?_, ?_⟩
    · rw [listening] at follows
      exact quiet follows.eq_listen
    · rw [portEq, kept bound]
      exact bound
    · rw [destIP]
      exact addressed
  · have client : s.serverSocket = none := server.symm.trans client
    have registered (found : before.lookup s.port = some id) :
        (s.step input).state = .closed ∨ (s.step input).state = .synSent ∨
          ((s.step input).state = .listen ∧ (s.step input).port = 0) ∨
          after.lookup (s.step input).port = some id := by
      rw [portEq]
      exact (remains found).imp_right fun found => .inr (.inr found)
    rcases placed.owned client with closed | sent | ⟨listening, zero⟩ | found
    · rw [closed] at follows
      exact .inl follows.of_closed
    · by_cases receives : ∃ segment, input.op = .receive segment
      · obtain ⟨segment, receives⟩ := receives
        exact registered ((reached segment receives).resolve_right fun some => some client)
      · rw [not_exists] at receives
        rcases TCPSocket.step_of_synSent sent receives with sent | closed
        · exact .inr (.inl sent)
        · exact .inl closed
    · rw [listening] at follows
      rcases follows.of_listen with listening' | closed
      · exact .inr (.inr (.inl ⟨listening', portEq.trans ((listens listening).trans zero)⟩))
      · exact .inl closed
    · exact registered found

theorem ne_zero_of_lookup {stack : Stack} (wired : stack.Wired) {port : Nat} {id : SocketId}
    (found : stack.ports.lookup port = some id) : port ≠ 0 :=
  Nat.pos_iff_ne_zero.mp ((isPort_iff port).mp (wired.ports.isPort_of_lookup found)).1

/-- The registered socket has this port. -/
theorem Wired.port_eq {stack : Stack} (wired : stack.Wired) {port : Nat} {id : SocketId}
    {s : TCPSocket} (present : stack.sockets[id]? = some s)
    (found : stack.ports.lookup port = some id) : s.port = port ∧ s.serverSocket = none := by
  obtain ⟨t, stored, holds⟩ := wired.registered found
  rw [present] at stored
  cases stored
  exact holds

theorem settle_ports (stack : Stack) (id : SocketId) (s t : TCPSocket) :
    (stack.settle id s t).ports = stack.ports := by
  unfold settle unregister
  dsimp only
  split
  · split <;> rfl
  · rfl

theorem stepSocket_eq {stack : Stack} {id : SocketId} {s : TCPSocket}
    (present : stack.sockets[id]? = some s) (setting : Setting) (op : Op) :
    stack.stepSocket setting id op = stack.settle id s (s.step ⟨stack.env setting id, op⟩) := by
  rw [stepSocket, present]

/-- A step of a socket, together with the allocator. -/
theorem Wired.stepped {stack : Stack} (wired : stack.Wired) {setting : Setting} {id : SocketId}
    {s : TCPSocket} (present : stack.sockets[id]? = some s) {op : Op} {port : Nat}
    (wiring : (s.step ⟨stack.env setting id, op⟩).wiring = s.wiringAt port)
    {ports : PortAllocator SocketId} (valid : ports.Valid)
    (others : ∀ other owner, owner ≠ id →
      (ports.lookup other = some owner ↔ stack.ports.lookup other = some owner))
    (own : ∀ other, ports.lookup other = some id → other = port ∧ s.serverSocket = none)
    (placed : Placed ports id (s.step ⟨stack.env setting id, op⟩)) :
    Wired { stack.stepSocket setting id op with ports } := by
  rw [stepSocket_eq present]
  exact (wired.replace present wiring valid others own placed).settle

/-- A step of a socket that keeps its wiring. -/
theorem Wired.stepSocket {stack : Stack} (wired : stack.Wired) {setting : Setting}
    {id : SocketId} {op : Op}
    (wiring : ∀ s : TCPSocket, stack.sockets[id]? = some s →
      (s.step ⟨stack.env setting id, op⟩).wiring = s.wiring)
    (reached : ∀ segment s, op = .receive segment → stack.sockets[id]? = some s →
      stack.ports.lookup s.port = some id ∨ s.serverSocket ≠ none) :
    (stack.stepSocket setting id op).Wired := by
  cases present : stack.sockets[id]? with
  | none =>
      rw [Stack.stepSocket, present]
      exact wired
  | some s =>
      have stepped : Wired { stack.stepSocket setting id op with ports := stack.ports } := by
        refine wired.stepped present (wiring s present) wired.ports (fun _ _ _ => Iff.rfl)
          (fun other found => ?_) ?_
        · obtain ⟨port, client⟩ := wired.port_eq present found
          exact ⟨port.symm, client⟩
        · exact (wired.placed present).step _ (wiring s present) (fun _ => rfl) (fun _ => rfl) .inr
            fun segment receives => reached segment s receives present
      rw [stepSocket_eq present] at stepped ⊢
      rw [← settle_ports stack id s (s.step ⟨stack.env setting id, op⟩)] at stepped
      exact stepped

/-- A listening socket was not accepted, and it is registered if it has a port. -/
theorem Wired.of_listening {stack : Stack} (wired : stack.Wired) {id : SocketId} {s : TCPSocket}
    (present : stack.sockets[id]? = some s) (listening : s.state = .listen) :
    s.serverSocket = none ∧ (s.port = 0 ∨ stack.ports.lookup s.port = some id) := by
  obtain ⟨accepted, owned⟩ := wired.placed present
  have client : s.serverSocket = none := by
    by_contra some
    obtain ⟨server, parent⟩ := Option.ne_none_iff_exists'.mp some
    exact (accepted parent).quiet listening
  rcases owned client with closed | sent | ⟨-, zero⟩ | found
  · rw [closed] at listening
    cases listening
  · rw [sent] at listening
    cases listening
  · exact ⟨client, .inl zero⟩
  · exact ⟨client, .inr found⟩

theorem Wired.close {stack : Stack} (wired : stack.Wired) (setting : Setting) (id : SocketId) :
    (stack.close setting id).Wired := by
  unfold Stack.close
  cases present : stack.sockets[id]? with
  | none => exact wired
  | some s =>
      dsimp only
      split
      · next listening =>
          obtain ⟨client, registered⟩ := wired.of_listening present listening
          cases frees : stack.ports.free s.port with
          | none =>
              have wiring : (s.setState .closed).wiring = s.wiringAt s.port := rfl
              refine wired.replace present wiring wired.ports (fun _ _ _ => Iff.rfl)
                (fun other found => ⟨(wired.port_eq present found).1.symm, client⟩)
                ⟨fun accepted => ?_, fun _ => .inl rfl⟩
              rw [show (s.setState .closed).serverSocket = none from client] at accepted
              cases accepted
          | some ports =>
              have freed := wired.ports.free frees
              have found : stack.ports.lookup s.port = some id := by
                refine registered.resolve_left fun zero => ?_
                rw [zero] at frees
                cases frees
              have wiring : (s.step ⟨stack.env setting id, .close⟩).wiring = s.wiringAt s.port :=
                TCPSocket.wiring_step Op.noConfusion s
              have closed : (s.step ⟨stack.env setting id, .close⟩).state = .closed := by
                simp only [TCPSocket.step, TCPSocket.close, if_pos listening, TCPSocket.orUnchanged,
                  TCPSocket.emitIf_state]
                rfl
              refine wired.stepped present wiring freed.valid (fun other owner different => ?_)
                (fun other found' => ?_) ?_
              · rw [freed.lookup]
                split
                · next same =>
                    rw [same, found]
                    exact ⟨(nomatch ·), fun same => (different (Option.some.inj same).symm).elim⟩
                · exact Iff.rfl
              · rw [freed.lookup] at found'
                split at found'
                · cases found'
                · exact ⟨(wired.port_eq present found').1.symm, client⟩
              · exact (wired.placed present).step _ wiring (fun _ => rfl) (fun _ => rfl)
                  (fun _ => .inl closed) fun _ receives => Op.noConfusion receives
      · exact wired.stepSocket (fun s _ => TCPSocket.wiring_step Op.noConfusion s)
          fun _ _ receives => Op.noConfusion receives

/-- What `_configure` does to the allocator. -/
theorem Wired.configured {stack : Stack} (wired : stack.Wired) (setting : Setting) (id : SocketId)
    (s : TCPSocket) :
    (stack.configured setting id s).Valid ∧
      ((stack.configured setting id s = stack.ports ∧
        s.portAfter (stack.env setting id) = s.port) ∨
      (s.port = 0 ∧ stack.ports.Assigns id (s.portAfter (stack.env setting id))
        (stack.configured setting id s))) := by
  unfold Stack.configured TCPSocket.portAfter
  split
  · next asks =>
      have allocated := wired.ports.allocEphemeral id
      refine ⟨allocated.1, .inr ⟨?_, allocated.2⟩⟩
      rw [TCPSocket.asksPort, Bool.and_eq_true] at asks
      exact of_decide_eq_true asks.1
  · exact ⟨wired.ports, .inl ⟨rfl, rfl⟩⟩

theorem Wired.timerTick {stack : Stack} (wired : stack.Wired) (setting : Setting)
    (id : SocketId) : (stack.timerTick setting id).Wired := by
  unfold Stack.timerTick
  cases present : stack.sockets[id]? with
  | none => exact wired
  | some s =>
      dsimp only
      have placed := wired.placed present
      have wiring : (s.step ⟨stack.env setting id, .timerTick⟩).wiring = _ :=
        TCPSocket.wiring_timerTick (stack.env setting id) s
      split
      · split
        · next connecting =>
            rw [if_pos connecting] at wiring
            obtain ⟨valid, result⟩ := wired.configured setting id s
            rcases result with ⟨same, port⟩ | ⟨zero, assigns⟩
            · rw [port] at wiring
              rw [same]
              refine wired.stepped present wiring wired.ports (fun _ _ _ => Iff.rfl)
                (fun other found => ?_) ?_
              · obtain ⟨port, client⟩ := wired.port_eq present found
                exact ⟨port.symm, client⟩
              · exact placed.step _ wiring (fun _ => rfl) (fun _ => rfl) .inr
                  fun _ receives => Op.noConfusion receives
            · have unregistered {other : Nat} : stack.ports.lookup other ≠ some id := fun found =>
                ne_zero_of_lookup wired found ((wired.port_eq present found).1.symm.trans zero)
              have client : s.serverSocket = none := by
                by_contra some
                obtain ⟨server, parent⟩ := Option.ne_none_iff_exists'.mp some
                exact (placed.accepted parent).bound zero
              refine wired.stepped present wiring valid
                (fun other owner different => assigns.lookup_other different other)
                (fun other found => ⟨(assigns.lookup_own found).resolve_right unregistered, client⟩)
                (placed.step _ wiring (fun bound => absurd zero bound) (fun listening => ?_)
                  (fun found => absurd found unregistered) fun _ receives => Op.noConfusion receives)
              rw [listening] at connecting
              exact connecting.elim State.noConfusion State.noConfusion
        · next settled =>
            rw [if_neg settled] at wiring
            refine wired.stepSocket (fun t stored => ?_) fun _ _ receives => Op.noConfusion receives
            rw [present] at stored
            cases stored
            exact wiring
      · exact wired

/-! ### New sockets -/

theorem Wired.not_lookup_length {stack : Stack} (wired : stack.Wired) (port : Nat) :
    stack.ports.lookup port ≠ some stack.sockets.length := by
  intro found
  obtain ⟨s, present, -⟩ := wired.registered found
  exact Nat.lt_irrefl _ (List.getElem?_eq_some_iff.mp present).1

/-- A new socket that the allocator may have given a port. -/
theorem Wired.assigned {stack : Stack} (wired : stack.Wired) {t : TCPSocket}
    {ports : PortAllocator SocketId} (timer : List SocketId) (valid : ports.Valid) {port : Nat}
    (assigns : stack.ports.Assigns stack.sockets.length port ports) (holds : t.port = port)
    (client : t.serverSocket = none) (quiet : ∀ hash, t.connection hash = none)
    (placed : Placed ports stack.sockets.length t) :
    Wired ⟨stack.sockets ++ [t], ports, timer⟩ := by
  refine wired.append timer valid (fun other owner different => assigns.lookup_other different other)
    (fun other found => ⟨?_, client⟩) quiet placed
  rcases assigns.lookup_own found with same | before
  · exact holds.trans same.symm
  · exact absurd before (wired.not_lookup_length other)

/-- A new socket the allocator does not hear of. -/
theorem Wired.unassigned {stack : Stack} (wired : stack.Wired) {t : TCPSocket}
    (timer : List SocketId) (quiet : ∀ hash, t.connection hash = none)
    (placed : Placed stack.ports stack.sockets.length t) :
    Wired ⟨stack.sockets ++ [t], stack.ports, timer⟩ :=
  wired.append timer wired.ports (fun _ _ _ => Iff.rfl)
    (fun other found => absurd found (wired.not_lookup_length other)) quiet placed

theorem Wired.connect {stack : Stack} (wired : stack.Wired) (setting : Setting)
    (handlers : Handlers) (ip : IP4Address) (port : Nat) :
    (stack.connect setting handlers ip port).Wired := by
  unfold Stack.connect TCPSocket.openSocket
  dsimp only
  by_cases isPort : isPort port
  · rw [if_pos isPort]
    dsimp only
    have wiring := TCPSocket.wiring_sendSYN (stack.env setting stack.sockets.length) false
      (handlers.socket.opening ip port)
    have state : ((handlers.socket.opening ip port).sendSYN
        (stack.env setting stack.sockets.length) false).state = .synSent := by
      obtain ⟨-, -, -, state⟩ := TCPSocket.sendSYN_frame (stack.env setting stack.sockets.length)
        false (s := handlers.socket.opening ip port) rfl
      exact state
    change Wired ⟨stack.sockets ++ [(handlers.socket.opening ip port).sendSYN
      (stack.env setting stack.sockets.length) false], _, _⟩
    generalize (handlers.socket.opening ip port).sendSYN
      (stack.env setting stack.sockets.length) false = t at wiring state ⊢
    obtain ⟨server, portEq, -, -, connections⟩ := Wiring.mk.inj wiring
    have quiet (hash : Nat) : t.connection hash = none := by
      rw [TCPSocket.connection, connections]
      rfl
    have placed {ports : PortAllocator SocketId} : Placed ports stack.sockets.length t := by
      refine ⟨fun accepted => ?_, fun _ => .inr (.inl state)⟩
      rw [server] at accepted
      cases accepted
    obtain ⟨valid, result⟩ := wired.configured setting stack.sockets.length
      (handlers.socket.opening ip port)
    rcases result with ⟨same, -⟩ | ⟨-, assigns⟩
    · rw [same]
      exact wired.unassigned _ quiet placed
    · exact wired.assigned _ valid assigns portEq server quiet placed
  · rw [if_neg isPort]
    exact wired

theorem Wired.listen {stack after : Stack} (wired : stack.Wired) {handlers onconnect : Handlers}
    {port : Nat} (listens : stack.listen handlers onconnect port = .ok after) : after.Wired := by
  have listening {port : Nat} {ports : PortAllocator SocketId} (valid : ports.Valid)
      (assigns : stack.ports.Assigns stack.sockets.length port ports) :
      Wired { stack with
        sockets := stack.sockets ++ [handlers.socket.listening port onconnect], ports } := by
    refine wired.assigned _ valid assigns rfl rfl (fun hash => rfl)
      ⟨fun accepted => (nomatch accepted), fun _ => .inr (.inr ?_)⟩
    cases assigns with
    | none zero => exact .inl ⟨rfl, zero⟩
    | port isPort free changed =>
        refine .inr ?_
        rw [changed]
        exact if_pos rfl
  unfold Stack.listen at listens
  dsimp only at listens
  split at listens
  · cases listens
    obtain ⟨valid, assigns⟩ := wired.ports.allocEphemeral stack.sockets.length
    exact listening valid assigns
  · split at listens
    · cases listens
    · cases listens
    · next allocates =>
        cases listens
        obtain ⟨valid, assigns⟩ := wired.ports.allocPort allocates
        exact listening valid assigns

/-- A server with a port accepts a connection. -/
theorem Wired.accept {stack : Stack} (wired : stack.Wired) (setting : Setting)
    {serverId : SocketId} {server : TCPSocket} (present : stack.sockets[serverId]? = some server)
    (bound : server.port ≠ 0) (packet : Packet) :
    (stack.accept setting serverId server packet).Wired ∧
      (stack.accept setting serverId server packet).ports = stack.ports := by
  unfold Stack.accept
  dsimp only
  generalize accepting : TCPSocket.accepting serverId server packet.srcIP packet.srcPort.toNat
    packet.segment server.onconnect.socket = fresh
  have bound' : fresh.port ≠ 0 := by
    rw [← accepting]
    exact bound
  obtain ⟨-, ⟨same, port⟩ | ⟨zero, -⟩⟩ := wired.configured setting stack.sockets.length fresh
  · have wiring := TCPSocket.wiring_sendSYN (stack.env setting stack.sockets.length) true fresh
    have state : (fresh.sendSYN (stack.env setting stack.sockets.length) true).state =
        .synReceived := by
      obtain ⟨-, -, -, state⟩ := TCPSocket.sendSYN_frame
        (stack.env setting stack.sockets.length) true (s := fresh) (by rw [← accepting]; rfl)
      rw [state, ← accepting]
      rfl
    rw [TCPSocket.accept_eq, accepting, same]
    generalize fresh.sendSYN (stack.env setting stack.sockets.length) true = t at wiring state ⊢
    rw [port] at wiring
    obtain ⟨serverEq, portEq, destIP, destPort, connections⟩ := Wiring.mk.inj wiring
    rw [← accepting] at serverEq destIP destPort connections
    refine ⟨?_, rfl⟩
    have appended : Wired ⟨stack.sockets ++ [t], stack.ports,
        stack.timer ++ [stack.sockets.length]⟩ := by
      refine wired.unassigned _ (fun hash => ?_) ⟨fun {parent} accepted => ?_, fun client => ?_⟩
      · rw [TCPSocket.connection, connections]
        rfl
      · rw [serverEq] at accepted
        cases accepted
        refine ⟨(List.getElem?_eq_some_iff.mp present).1, ?_, connections, portEq ▸ bound', ?_⟩
        · rw [state]
          exact State.noConfusion
        · rw [destIP]
          exact Option.some_ne_none _
      · rw [serverEq] at client
        cases client
    refine appended.modify serverId (fun _ => rfl) (fun _ => rfl) (fun _ => rfl) (fun _ => rfl)
      (fun _ => rfl) (fun v unused => ?_) (fun v hash connection _ found => ?_)
    · rw [TCPSocket.enterConnection, unused]
      rfl
    · rcases TCPSocket.connection_enterConnection found with before | ⟨rfl, rfl⟩
      · exact .inl before
      · refine .inr ⟨t, List.getElem?_concat_length, serverEq, packet.srcIP, destIP, ?_⟩
        rw [destPort]
        rfl
  · exact absurd zero bound'

/-! ### Packets -/

theorem Wired.bindInterface {stack : Stack} (wired : stack.Wired) (id : SocketId)
    (intf : Interface) : (stack.modify id fun s => s.bindInterface intf).Wired :=
  wired.modify id (fun _ => rfl) (fun _ => rfl) (fun _ => rfl) (fun _ => rfl) (fun _ => rfl)
    (fun _ unused => unused) (fun _ _ _ _ found => .inl found)

theorem sockets_bindInterface {stack : Stack} {id : SocketId} {s : TCPSocket}
    (present : stack.sockets[id]? = some s) (intf : Interface) :
    (stack.modify id fun s => s.bindInterface intf).sockets[id]? = some (s.bindInterface intf) := by
  rw [sockets_modify, if_pos rfl, present]
  rfl

theorem isListening_iff {stack : Stack} {id : SocketId} {s : TCPSocket}
    (present : stack.sockets[id]? = some s) : stack.isListening id ↔ s.state = .listen := by
  rw [isListening, present, Option.any_some, decide_eq_true_iff]

/-- A packet goes to the socket registered under its port, or to the connection a
listening socket there has with its source. -/
theorem Wired.destination {stack : Stack} (wired : stack.Wired) {packet : Packet} {id : SocketId}
    (goes : stack.destination packet = some id) :
    (stack.ports.lookup packet.destPort.toNat = some id ∧
      (stack.isListening id → stack.connection id packet.hash = none)) ∨
    ∃ server, stack.ports.lookup packet.destPort.toNat = some server ∧
      stack.isListening server ∧ stack.connection server packet.hash = some id ∧
      stack.IsConnection server packet.hash id := by
  obtain ⟨owner, found, result⟩ := Option.map_eq_some_iff.mp goes
  split at result
  · next listening =>
      unfold connectionSocket at result
      cases entry : stack.connection owner packet.hash with
      | none =>
          rw [entry] at result
          cases result
          exact .inl ⟨found, fun _ => entry⟩
      | some connection =>
          rw [entry] at result
          cases result
          exact .inr ⟨owner, found, listening, entry, wired.entered entry⟩
  · next quiet =>
      cases result
      exact .inl ⟨found, fun listening => absurd listening quiet⟩

/-- A connection does not listen and takes the segment itself. -/
theorem receiveSocket_of_not_listening {stack : Stack} {id : SocketId} {s : TCPSocket}
    (present : stack.sockets[id]? = some s) (quiet : s.state ≠ .listen) (setting : Setting)
    (packet : Packet) :
    stack.receiveSocket setting id packet =
      stack.stepSocket setting id (.receive packet.segment) := by
  rw [receiveSocket, present]
  exact if_neg quiet

/-- A listening socket without a connection for the source accepts a SYN. -/
theorem receiveSocket_of_listening {stack : Stack} {id : SocketId} {s : TCPSocket}
    (present : stack.sockets[id]? = some s) (listening : s.state = .listen) {packet : Packet}
    (unknown : s.connection packet.hash = none) (setting : Setting) :
    stack.receiveSocket setting id packet =
      if packet.segment.hasSYN then stack.accept setting id s packet else stack := by
  rw [receiveSocket, present]
  dsimp only
  rw [if_pos listening, unknown]

/-- What `tcp.receive` comes to: the connection takes the segment, or a listening socket
makes a connection for a new source, or nothing happens. -/
theorem Wired.receive_cases {stack : Stack} (wired : stack.Wired) (setting : Setting)
    (packet : Packet) :
    (stack.destination packet = none ∧ stack.receive setting packet = stack) ∨
    ∃ id s, stack.destination packet = some id ∧ stack.sockets[id]? = some s ∧
      ((s.state ≠ .listen ∧ (stack.ports.lookup s.port = some id ∨ s.serverSocket ≠ none) ∧
        stack.receive setting packet = (stack.modify id fun s => s.bindInterface packet.intf).stepSocket
          setting id (.receive packet.segment)) ∨
      (s.state = .listen ∧ s.serverSocket = none ∧ s.port ≠ 0 ∧ s.connection packet.hash = none ∧
        stack.receive setting packet = if packet.segment.hasSYN then
          (stack.modify id fun s => s.bindInterface packet.intf).accept setting id
            (s.bindInterface packet.intf) packet
          else stack.modify id fun s => s.bindInterface packet.intf)) := by
  unfold Stack.receive
  cases goes : stack.destination packet with
  | none => exact .inl ⟨rfl, rfl⟩
  | some id =>
      dsimp only
      refine .inr ?_
      rcases wired.destination goes with ⟨found, unknown⟩ | ⟨server, -, -, -, s, present, parent, -⟩
      · obtain ⟨s, present, port, client⟩ := wired.registered found
        have bound := sockets_bindInterface present packet.intf
        refine ⟨id, s, rfl, present, ?_⟩
        by_cases listening : s.state = .listen
        · have entry := unknown ((isListening_iff present).mpr listening)
          rw [connection_eq present] at entry
          refine .inr ⟨listening, client, port ▸ ne_zero_of_lookup wired found, entry, ?_⟩
          exact receiveSocket_of_listening bound listening entry setting
        · refine .inl ⟨listening, .inl (port ▸ found), ?_⟩
          exact receiveSocket_of_not_listening bound listening setting packet
      · have bound := sockets_bindInterface present packet.intf
        have quiet := ((wired.placed present).accepted parent).quiet
        refine ⟨id, s, rfl, present, .inl ⟨quiet, .inr (parent ▸ Option.some_ne_none server), ?_⟩⟩
        exact receiveSocket_of_not_listening bound quiet setting packet

theorem Wired.receive {stack : Stack} (wired : stack.Wired) (setting : Setting)
    (packet : Packet) : (stack.receive setting packet).Wired := by
  rcases wired.receive_cases setting packet with ⟨-, same⟩ | ⟨id, s, -, present,
    ⟨-, reached, takes⟩ | ⟨-, -, port, -, accepts⟩⟩
  · rw [same]
    exact wired
  · rw [takes]
    refine (wired.bindInterface id packet.intf).stepSocket
      (fun t _ => TCPSocket.wiring_step Op.noConfusion t) fun segment t _ stored => ?_
    rw [sockets_bindInterface present] at stored
    cases stored
    exact reached
  · rw [accepts]
    have bound := wired.bindInterface id packet.intf
    split
    · exact (bound.accept setting (sockets_bindInterface present packet.intf) port packet).1
    · exact bound

/-- **Every step keeps the stack wired.** -/
theorem Wired.step {stack : Stack} (wired : stack.Wired) (input : Setting × Action) :
    (stack.step input).Wired := by
  obtain ⟨setting, action⟩ := input
  cases action with
  | connect handlers ip port => exact wired.connect setting handlers ip port
  | listen handlers onconnect port =>
      unfold Stack.step
      dsimp only
      split
      · next listens => exact wired.listen listens
      · exact wired
  | send id u8 =>
      exact wired.stepSocket (fun s _ => TCPSocket.wiring_step Op.noConfusion s)
        fun _ _ receives => Op.noConfusion receives
  | halfclose id =>
      exact wired.stepSocket (fun s _ => TCPSocket.wiring_step Op.noConfusion s)
        fun _ _ receives => Op.noConfusion receives
  | close id => exact wired.close setting id
  | timerTick id => exact wired.timerTick setting id
  | receive packet => exact wired.receive setting packet

theorem Reachable.wired {stack : Stack} (reachable : stack.Reachable) : stack.Wired := by
  obtain ⟨inputs, rfl⟩ := reachable
  exact Transition.run_invariant_of_keeps Wired (fun _ input wired => wired.step input) wired_new
    inputs

end Stack

end JsOS.Net.Tcp
