import JsOS.Library.Run
import JsOS.Net.PortAllocator
import JsOS.Net.Route

/-! # UDP sockets

The methods of `UDPSocket` and the allocator that all sockets share. A socket object is
identified by its position in the list of all sockets made so far. A port is written into
the socket that gets it and into the allocator; `close` frees the number in the socket,
which stays there.
-/

namespace JsOS.Net.Udp

/-- The errors thrown by socket methods. -/
inductive SocketError where
  | E_IPADDRESS_EXPECTED
  | E_INVALID_PORT
  | E_TYPEDARRAY_EXPECTED
  | E_NO_FREE_PORT
  | E_ADDRESS_IN_USE
  | E_INTERFACE_EXPECTED
  deriving DecidableEq, Repr

/-- How a call ends. `udpTransmit` is the call of that function with its arguments, which
throws when there is no interface. -/
inductive Outcome (Interface : Type) where
  | done
  | noRoute
  | throws (error : SocketError)
  | udpTransmit (intf : Option Interface) (destIP : IP4Address) (viaIP : Option IP4Address)
      (srcPort destPort : Nat) (u8 : List UInt8)

/-- A socket object, by its position in the list of all of them. -/
abbrev SocketId := Nat

/-- A `UDPSocket`. `closed` is not in the source: `close` has been called since `_port`
was assigned. -/
structure UDPSocket (Interface : Type) where
  intf : Option Interface := none
  port : Nat := 0
  closed : Bool := false
  deriving DecidableEq

/-- `ports`. -/
abbrev Ports := PortAllocator SocketId

namespace UDPSocket

variable {Interface : Type}

/-- The interface and the next hop for an address; `none` when there is no route to it. -/
def route [DecidableEq Interface] (table : Route.Table Interface) (ip : IP4Address) (s : UDPSocket Interface) :
    Option (Option Interface × Option IP4Address) :=
  if ip.isBroadcast then some (s.intf, some ip)
  else (Route.lookup table ip none).map fun entry => (some (s.intf.getD entry.intf), entry.gateway)

/-- Assign an ephemeral port if there is none yet. -/
def ensurePort (id : SocketId) (s : UDPSocket Interface) (ports : Ports) :
    UDPSocket Interface × Ports :=
  if s.port = 0 then
    ({ s with port := (ports.allocEphemeral id).1, closed := false }, (ports.allocEphemeral id).2)
  else (s, ports)

/-- `send`. The address is what `IP4Address.parse` makes of the argument, and the array is
there if it is a `Uint8Array`. -/
def send [DecidableEq Interface] (table : Route.Table Interface) (ip : Option IP4Address)
    (port : Nat) (u8 : Option (List UInt8)) (id : SocketId) (s : UDPSocket Interface) (ports : Ports) :
    (UDPSocket Interface × Ports) × Outcome Interface :=
  match ip with
  | none => ((s, ports), .throws .E_IPADDRESS_EXPECTED)
  | some ip =>
      if isPort port then
        match u8 with
        | none => ((s, ports), .throws .E_TYPEDARRAY_EXPECTED)
        | some u8 =>
            match s.route table ip with
            | none => ((s, ports), .noRoute)
            | some (intf, viaIP) =>
                let (s, ports) := s.ensurePort id ports
                if s.port = 0 then ((s, ports), .throws .E_NO_FREE_PORT)
                else ((s, ports), .udpTransmit intf ip viaIP s.port port u8)
      else ((s, ports), .throws .E_INVALID_PORT)

/-- `bind`. -/
def bind (port : Nat) (id : SocketId) (s : UDPSocket Interface) (ports : Ports) :
    (UDPSocket Interface × Ports) × Outcome Interface :=
  match ports.allocPort port id with
  | none => ((s, ports), .throws .E_INVALID_PORT)
  | some (false, ports) => ((s, ports), .throws .E_ADDRESS_IN_USE)
  | some (true, ports) => (({ s with port, closed := false }, ports), .done)

/-- `bindToInterface`. -/
def bindToInterface (intf : Option Interface) (port : Nat) (id : SocketId)
    (s : UDPSocket Interface) (ports : Ports) :
    (UDPSocket Interface × Ports) × Outcome Interface :=
  match intf with
  | none => ((s, ports), .throws .E_INTERFACE_EXPECTED)
  | some intf =>
      let s := { s with intf := some intf }
      if port = 0 then ((s, ports), .done) else s.bind port id ports

/-- `close`; the assertion of `ports.free` never fails, and would leave the ports alone. -/
def close (s : UDPSocket Interface) (ports : Ports) : UDPSocket Interface × Ports :=
  ({ s with closed := true }, if s.port = 0 then ports else (ports.free s.port).getD ports)

/-- The socket holds its port: it has one, and has not been closed since it got it. -/
def Holds (s : UDPSocket Interface) : Prop := s.port ≠ 0 ∧ s.closed = false

instance (s : UDPSocket Interface) : Decidable s.Holds :=
  inferInstanceAs (Decidable (s.port ≠ 0 ∧ s.closed = false))

/-! ## What a method does to the ports -/

/-- The method writes a port into the socket that the allocator gives it. -/
structure Acquires (id : SocketId) (ports : Ports) (t : UDPSocket Interface) (after : Ports) :
    Prop where
  holds : t.Holds
  free : ports.lookup t.port = none
  changed : ∀ other, after.lookup other =
    if other = t.port then some id else ports.lookup other

/-- `bind` takes a port if it is one and free, and otherwise throws. -/
theorem bind_cases {ports : Ports} (valid : ports.Valid) (port : Nat) (id : SocketId)
    (s : UDPSocket Interface) :
    ((s.bind port id ports).1 = (s, ports) ∧ ¬ (isPort port ∧ ports.lookup port = none)) ∨
    ((s.bind port id ports).1.2.Valid ∧ isPort port ∧ ports.lookup port = none ∧
      Acquires id ports (s.bind port id ports).1.1 (s.bind port id ports).1.2) := by
  unfold bind
  cases allocates : ports.allocPort port id with
  | none =>
      refine .inl ⟨rfl, fun free => ?_⟩
      rw [PortAllocator.allocPort, if_pos free.1] at allocates
      split at allocates <;> cases allocates
  | some result =>
      obtain ⟨success, after⟩ := result
      have outcome := allocates
      unfold PortAllocator.allocPort at outcome
      split at outcome
      · next isPort =>
          split at outcome
          · next taken =>
              cases outcome
              refine .inl ⟨rfl, fun free => ?_⟩
              rw [free.2] at taken
              cases taken
          · cases outcome
            obtain ⟨after, assigns⟩ := valid.allocPort allocates
            cases assigns with
            | none zero =>
                rw [zero] at isPort
                cases isPort
            | port _ free changed =>
                have positive := ((isPort_iff port).mp isPort).1
                exact .inr ⟨after, isPort, free, ⟨Nat.ne_of_gt positive, rfl⟩, free, changed⟩
      · cases outcome

/-- `send` takes an ephemeral port if the socket has none, and otherwise leaves the ports
alone. -/
theorem ensurePort_cases {ports : Ports} (valid : ports.Valid) (id : SocketId)
    (s : UDPSocket Interface) :
    (s.ensurePort id ports).2.Valid ∧
      (((s.ensurePort id ports).1.port = s.port ∧
        ((s.ensurePort id ports).1.Holds ↔ s.Holds) ∧
        ∀ port, (s.ensurePort id ports).2.lookup port = ports.lookup port) ∨
      (¬ s.Holds ∧ Acquires id ports (s.ensurePort id ports).1 (s.ensurePort id ports).2)) := by
  unfold ensurePort
  split
  · next unbound =>
      obtain ⟨after, assigns⟩ := valid.allocEphemeral id
      have empty : ¬ s.Holds := fun held => held.1 unbound
      refine ⟨after, ?_⟩
      cases assigns with
      | none zero same =>
          exact .inl ⟨zero.trans unbound.symm, iff_of_false (fun held => held.1 zero) empty, same⟩
      | port isPort free changed =>
          have positive := ((isPort_iff _).mp isPort).1
          exact .inr ⟨empty, ⟨Nat.ne_of_gt positive, rfl⟩, free, changed⟩
  · exact ⟨valid, .inl ⟨rfl, Iff.rfl, fun _ => rfl⟩⟩

/-- What `send` does to the socket and the ports is what assigning a port does, or nothing. -/
theorem send_cases [DecidableEq Interface] (table : Route.Table Interface)
    (ip : Option IP4Address) (port : Nat) (u8 : Option (List UInt8)) (id : SocketId) (s : UDPSocket Interface) (ports : Ports) :
    (s.send table ip port u8 id ports).1 = (s, ports) ∨
      (s.send table ip port u8 id ports).1 = s.ensurePort id ports := by
  unfold send
  split
  · exact .inl rfl
  · split
    · split
      · exact .inl rfl
      · split
        · exact .inl rfl
        · dsimp only
          split
          · exact .inr rfl
          · exact .inr rfl
    · exact .inl rfl

/-- `close` frees the number in the socket, which is no port if the socket has none. -/
theorem close_ports {ports : Ports} (valid : ports.Valid) (s : UDPSocket Interface) :
    (s.close ports).2.Valid ∧ ∀ other, (s.close ports).2.lookup other =
      if other = s.port then none else ports.lookup other := by
  -- A number that is no port is never allocated.
  have unallocated (invalid : ¬ isPort s.port) (other : Nat) :
      ports.lookup other = if other = s.port then none else ports.lookup other := by
    split
    · next own =>
        cases found : ports.lookup other with
        | none => rfl
        | some owner => exact absurd (own ▸ valid.isPort_of_lookup found) invalid
    · rfl
  unfold close
  dsimp only
  split
  · next unbound => exact ⟨valid, unallocated (by rw [unbound]; exact Bool.false_ne_true)⟩
  · cases frees : ports.free s.port with
    | none =>
        refine ⟨valid, unallocated fun isPort => ?_⟩
        rw [PortAllocator.free, if_pos isPort] at frees
        dsimp only at frees
        split at frees
        · cases frees
        · split at frees <;> cases frees
    | some after => exact ⟨(valid.free frees).valid, (valid.free frees).lookup⟩

end UDPSocket

/-! ## All sockets -/

/-- All sockets, with `ports`. -/
structure Sockets (Interface : Type) where
  sockets : List (UDPSocket Interface) := []
  ports : Ports := {}

/-- What the owners of sockets do. -/
inductive Action (Interface : Type) where
  | create
  | send (table : Route.Table Interface) (id : SocketId) (ip : Option IP4Address) (port : Nat)
      (u8 : Option (List UInt8))
  | bind (id : SocketId) (port : Nat)
  | bindToInterface (id : SocketId) (intf : Option Interface) (port : Nat)
  | close (id : SocketId)

namespace Sockets

variable {Interface : Type}

/-- `UDPSocket.lookupReceive`. -/
def lookupReceive (st : Sockets Interface) (destPort : Nat) : Option SocketId :=
  st.ports.lookup destPort

/-- Call a method of a socket. -/
def call (st : Sockets Interface) (id : SocketId)
    (method : UDPSocket Interface → Ports → UDPSocket Interface × Ports) : Sockets Interface :=
  match st.sockets[id]? with
  | none => st
  | some s =>
      let (s, ports) := method s st.ports
      ⟨st.sockets.set id s, ports⟩

/-- One call of a method. -/
def step [DecidableEq Interface] (st : Sockets Interface) :
    Action Interface → Sockets Interface
  | .create => { st with sockets := st.sockets ++ [{}] }
  | .send table id ip port u8 =>
      st.call id fun s ports => (s.send table ip port u8 id ports).1
  | .bind id port => st.call id fun s ports => (s.bind port id ports).1
  | .bindToInterface id intf port =>
      st.call id fun s ports => (s.bindToInterface intf port id ports).1
  | .close id => st.call id UDPSocket.close

/-- The socket holds the port. -/
def Holds (st : Sockets Interface) (id : SocketId) (port : Nat) : Prop :=
  ∃ s, st.sockets[id]? = some s ∧ s.Holds ∧ s.port = port

/-- Every socket that holds a port gets what is received for it, and every allocated port
belongs to exactly one socket that holds it. -/
structure Owned (st : Sockets Interface) : Prop where
  holder : ∀ id port, st.Holds id port → st.lookupReceive port = some id
  owner : ∀ port, (st.lookupReceive port).isSome → ∃! id, st.Holds id port

/-- The call takes a port from where it belongs: a socket that holds a port is bound to
another one that is free, or a socket that does not hold its port any more is closed while
the port is allocated. -/
def Displaces (st : Sockets Interface) : Action Interface → Prop
  | .create => False
  | .send _ _ _ _ _ => False
  | .bind id port =>
      ∃ s, st.sockets[id]? = some s ∧ s.Holds ∧ isPort port ∧ st.lookupReceive port = none
  | .bindToInterface id intf port =>
      ∃ s, st.sockets[id]? = some s ∧ intf.isSome ∧ s.Holds ∧ isPort port ∧
        st.lookupReceive port = none
  | .close id =>
      ∃ s, st.sockets[id]? = some s ∧ ¬ s.Holds ∧ s.port ≠ 0 ∧
        (st.lookupReceive s.port).isSome

/-! ## Ownership step by step -/

/-- Ownership says that the allocator knows exactly what the sockets hold. -/
theorem owned_iff {st : Sockets Interface} :
    st.Owned ↔ ∀ id port, st.Holds id port ↔ st.lookupReceive port = some id := by
  constructor
  · rintro ⟨holder, owner⟩ id port
    refine ⟨holder id port, fun found => ?_⟩
    obtain ⟨other, holds, -⟩ := owner port (Option.isSome_of_eq_some found)
    have same := (holder other port holds).symm.trans found
    rwa [Option.some.inj same] at holds
  · intro knows
    refine ⟨fun id port => (knows id port).mp, fun port allocated => ?_⟩
    obtain ⟨id, found⟩ := Option.isSome_iff_exists.mp allocated
    refine ⟨id, (knows id port).mpr found, fun other holds => ?_⟩
    exact Option.some.inj (((knows other port).mp holds).symm.trans found)

/-- What the sockets hold after one of them has changed. -/
theorem holds_set {st : Sockets Interface} {id : SocketId} {s t : UDPSocket Interface}
    {ports : Ports} (present : st.sockets[id]? = some s) (other : SocketId) (port : Nat) :
    Holds ⟨st.sockets.set id t, ports⟩ other port ↔
      if other = id then t.Holds ∧ t.port = port else st.Holds other port := by
  obtain ⟨below, -⟩ := List.getElem?_eq_some_iff.mp present
  unfold Holds
  dsimp only
  split
  · next same =>
      rw [same, List.getElem?_set_self below]
      constructor
      · rintro ⟨u, stored, holds⟩
        cases stored
        exact holds
      · intro holds
        exact ⟨t, rfl, holds⟩
  · next different => rw [List.getElem?_set_ne (Ne.symm different)]

/-- A call that changes neither what the socket holds nor the answers of the allocator. -/
theorem Owned.keep {st : Sockets Interface} (owned : st.Owned) {id : SocketId}
    {s t : UDPSocket Interface} (present : st.sockets[id]? = some s) (holds : t.Holds ↔ s.Holds)
    (port : t.port = s.port) {ports : Ports}
    (same : ∀ port, ports.lookup port = st.ports.lookup port) :
    Owned ⟨st.sockets.set id t, ports⟩ := by
  rw [owned_iff] at owned ⊢
  intro other number
  rw [holds_set present]
  change _ ↔ ports.lookup number = some other
  rw [same, ← lookupReceive, ← owned]
  split
  · next here =>
      rw [holds, port, here]
      constructor
      · intro own
        exact ⟨s, present, own⟩
      · rintro ⟨u, stored, own⟩
        rw [present] at stored
        cases stored
        exact own
  · exact Iff.rfl

/-- A socket that is assigned a free port, and holds it then, must not hold another one. -/
theorem Owned.acquire {st : Sockets Interface} (owned : st.Owned) {id : SocketId}
    {s t : UDPSocket Interface} (present : st.sockets[id]? = some s) (holds : t.Holds)
    {ports : Ports} (free : st.ports.lookup t.port = none)
    (changed : ∀ other, ports.lookup other =
      if other = t.port then some id else st.ports.lookup other) :
    Owned ⟨st.sockets.set id t, ports⟩ ↔ ¬ s.Holds := by
  rw [owned_iff] at owned ⊢
  have before (held : s.Holds) : st.ports.lookup s.port = some id :=
    (owned id s.port).mp ⟨s, present, held, rfl⟩
  constructor
  · intro after held
    have different : s.port ≠ t.port := by
      intro same
      rw [← same, before held] at free
      cases free
    have found := (changed s.port).trans ((if_neg different).trans (before held))
    have still := (after id s.port).mpr found
    rw [holds_set present, if_pos rfl] at still
    exact different still.2.symm
  · intro empty other number
    rw [holds_set present]
    change _ ↔ ports.lookup number = some other
    rw [changed]
    by_cases own : number = t.port
    · rw [if_pos own]
      by_cases here : other = id
      · rw [if_pos here, here]
        exact iff_of_true ⟨holds, own.symm⟩ rfl
      · rw [if_neg here, owned, lookupReceive, own, free]
        exact iff_of_false (Option.some_ne_none _).symm fun same => here (Option.some.inj same).symm
    · rw [if_neg own]
      by_cases here : other = id
      · rw [if_pos here, here, ← lookupReceive, ← owned]
        refine iff_of_false (fun held => own held.2.symm) ?_
        rintro ⟨u, stored, held, -⟩
        rw [present] at stored
        cases stored
        exact empty held
      · rw [if_neg here]
        exact owned other number

/-- Closing frees the number in the socket, so it must be the socket's own port or free. -/
theorem Owned.release {st : Sockets Interface} (owned : st.Owned) {id : SocketId}
    {s t : UDPSocket Interface} (present : st.sockets[id]? = some s) (closed : ¬ t.Holds)
    {ports : Ports} (changed : ∀ other, ports.lookup other =
      if other = s.port then none else st.ports.lookup other) :
    Owned ⟨st.sockets.set id t, ports⟩ ↔ s.Holds ∨ st.ports.lookup s.port = none := by
  rw [owned_iff] at owned ⊢
  constructor
  · intro after
    by_cases held : s.Holds
    · exact .inl held
    · refine .inr ?_
      by_contra taken
      obtain ⟨other, found⟩ := Option.ne_none_iff_exists'.mp taken
      have holds := (owned other s.port).mpr found
      have different : other ≠ id := by
        rintro rfl
        obtain ⟨u, stored, own, -⟩ := holds
        rw [present] at stored
        cases stored
        exact held own
      have still := (after other s.port).mp ((holds_set present other s.port).mpr (by
        rw [if_neg different]
        exact holds))
      change ports.lookup s.port = some other at still
      rw [changed, if_pos rfl] at still
      cases still
  · intro own other number
    rw [holds_set present]
    change _ ↔ ports.lookup number = some other
    rw [changed]
    by_cases freed : number = s.port
    · rw [if_pos freed]
      refine iff_of_false (fun holds => ?_) (Option.some_ne_none _).symm
      split at holds
      · exact closed holds.1
      · next different =>
          have found := (owned other number).mp holds
          rw [freed, lookupReceive] at found
          rcases own with held | free
          · have mine := (owned id s.port).mp ⟨s, present, held, rfl⟩
            exact different (Option.some.inj (found.symm.trans mine))
          · rw [free] at found
            cases found
    · rw [if_neg freed]
      by_cases here : other = id
      · rw [if_pos here, here, ← lookupReceive, ← owned]
        refine iff_of_false (fun held => closed held.1) ?_
        rintro ⟨u, stored, -, port⟩
        rw [present] at stored
        cases stored
        exact freed port.symm
      · rw [if_neg here]
        exact owned other number

/-- A call keeps the ports owned exactly if it does so on a socket that exists. -/
theorem Owned.call {st : Sockets Interface} (owned : st.Owned) (valid : st.ports.Valid)
    (id : SocketId) {method : UDPSocket Interface → Ports → UDPSocket Interface × Ports}
    {displaces : UDPSocket Interface → Prop}
    (each : ∀ s, st.sockets[id]? = some s → (method s st.ports).2.Valid ∧
      (Owned ⟨st.sockets.set id (method s st.ports).1, (method s st.ports).2⟩ ↔ ¬ displaces s)) :
    (st.call id method).ports.Valid ∧
      ((st.call id method).Owned ↔ ¬ ∃ s, st.sockets[id]? = some s ∧ displaces s) := by
  unfold Sockets.call
  cases present : st.sockets[id]? with
  | none =>
      refine ⟨valid, iff_of_true owned ?_⟩
      rintro ⟨s, stored, -⟩
      cases stored
  | some s =>
      obtain ⟨after, keeps⟩ := each s present
      refine ⟨after, keeps.trans (not_congr ⟨fun displaced => ⟨s, rfl, displaced⟩, ?_⟩)⟩
      rintro ⟨t, same, displaced⟩
      cases same
      exact displaced

theorem Owned.create {st : Sockets Interface} (owned : st.Owned) :
    Owned { st with sockets := st.sockets ++ [{}] } := by
  rw [owned_iff] at owned ⊢
  intro id port
  refine Iff.trans ?_ (owned id port)
  unfold Holds
  dsimp only
  rw [List.getElem?_append]
  split
  · exact Iff.rfl
  · next beyond =>
      rw [List.getElem?_eq_none (Nat.le_of_not_lt beyond)]
      constructor
      · rintro ⟨s, stored, holds, -⟩
        rw [List.getElem?_singleton] at stored
        obtain ⟨-, same⟩ := Option.ite_none_right_eq_some.mp stored
        cases same
        exact absurd rfl holds.1
      · rintro ⟨s, stored, -⟩
        cases stored

theorem Owned.bind {st : Sockets Interface} (owned : st.Owned) (valid : st.ports.Valid)
    {id : SocketId} {s t : UDPSocket Interface} (present : st.sockets[id]? = some s)
    (holds : t.Holds ↔ s.Holds) (same : t.port = s.port) (port : Nat) :
    (t.bind port id st.ports).1.2.Valid ∧
      (Owned ⟨st.sockets.set id (t.bind port id st.ports).1.1, (t.bind port id st.ports).1.2⟩ ↔
        ¬ (s.Holds ∧ isPort port ∧ st.lookupReceive port = none)) := by
  rcases t.bind_cases valid port id with ⟨unchanged, refused⟩ |
    ⟨after, isPort, free, acquires⟩
  · rw [unchanged]
    exact ⟨valid, iff_of_true (owned.keep present holds same fun _ => rfl)
      fun displaces => refused displaces.2⟩
  · refine ⟨after, (owned.acquire present acquires.holds acquires.free acquires.changed).trans ?_⟩
    exact not_congr (and_iff_left ⟨isPort, free⟩).symm

theorem Owned.bindToInterface {st : Sockets Interface} (owned : st.Owned)
    (valid : st.ports.Valid) {id : SocketId} {s : UDPSocket Interface}
    (present : st.sockets[id]? = some s) (intf : Option Interface) (port : Nat) :
    (s.bindToInterface intf port id st.ports).1.2.Valid ∧
      (Owned ⟨st.sockets.set id (s.bindToInterface intf port id st.ports).1.1,
        (s.bindToInterface intf port id st.ports).1.2⟩ ↔
        ¬ (intf.isSome ∧ s.Holds ∧ isPort port ∧ st.lookupReceive port = none)) := by
  unfold UDPSocket.bindToInterface
  cases intf with
  | none =>
      exact ⟨valid, iff_of_true (owned.keep present Iff.rfl rfl fun _ => rfl)
        fun displaces => Bool.false_ne_true displaces.1⟩
  | some intf =>
      have given : (some intf).isSome = true := rfl
      rw [and_iff_right given]
      dsimp only
      have own : ({ s with intf := some intf } : UDPSocket Interface).Holds ↔ s.Holds := Iff.rfl
      split
      · next unbound =>
          refine ⟨valid, iff_of_true (owned.keep present own rfl fun _ => rfl) fun displaces => ?_⟩
          rw [unbound] at displaces
          exact Bool.false_ne_true displaces.2.1
      · exact owned.bind valid present own rfl port

theorem Owned.close {st : Sockets Interface} (owned : st.Owned) (valid : st.ports.Valid)
    {id : SocketId} {s : UDPSocket Interface} (present : st.sockets[id]? = some s) :
    (s.close st.ports).2.Valid ∧
      (Owned ⟨st.sockets.set id (s.close st.ports).1, (s.close st.ports).2⟩ ↔
        ¬ (¬ s.Holds ∧ s.port ≠ 0 ∧ (st.lookupReceive s.port).isSome)) := by
  obtain ⟨after, changed⟩ := s.close_ports valid
  have closed : ¬ (s.close st.ports).1.Holds := fun held => Bool.noConfusion held.2
  refine ⟨after, (owned.release present closed changed).trans ?_⟩
  constructor
  · rintro own ⟨empty, -, allocated⟩
    rcases own with held | free
    · exact empty held
    · rw [lookupReceive, free] at allocated
      cases allocated
  · intro spared
    by_contra neither
    rw [not_or] at neither
    have allocated := Option.isSome_iff_ne_none.mpr neither.2
    obtain ⟨owner, found⟩ := Option.isSome_iff_exists.mp allocated
    have positive := ((isPort_iff _).mp (valid.isPort_of_lookup found)).1
    exact spared ⟨neither.1, Nat.ne_of_gt positive, allocated⟩

theorem owned_new : Owned ({} : Sockets Interface) := by
  rw [owned_iff]
  intro id port
  refine iff_of_false ?_ ?_
  · rintro ⟨s, present, -⟩
    cases present
  · rw [lookupReceive, PortAllocator.lookup_new]
    exact (Option.some_ne_none id).symm

variable [DecidableEq Interface]

theorem Owned.send {st : Sockets Interface} (owned : st.Owned) (valid : st.ports.Valid)
    {id : SocketId} {s : UDPSocket Interface} (present : st.sockets[id]? = some s)
    (table : Route.Table Interface) (ip : Option IP4Address) (port : Nat)
    (u8 : Option (List UInt8)) :
    (s.send table ip port u8 id st.ports).1.2.Valid ∧
      Owned ⟨st.sockets.set id (s.send table ip port u8 id st.ports).1.1,
        (s.send table ip port u8 id st.ports).1.2⟩ := by
  rcases s.send_cases table ip port u8 id st.ports with same | assigns
  · rw [same]
    exact ⟨valid, owned.keep present Iff.rfl rfl fun _ => rfl⟩
  · rw [assigns]
    obtain ⟨after, ⟨port, holds, same⟩ | ⟨empty, acquires⟩⟩ := s.ensurePort_cases valid id
    · exact ⟨after, owned.keep present holds port same⟩
    · refine ⟨after, ?_⟩
      exact (owned.acquire present acquires.holds acquires.free acquires.changed).mpr empty

/-- **A step keeps the ports owned exactly if it displaces none.** -/
theorem Owned.step_iff {st : Sockets Interface} (owned : st.Owned) (valid : st.ports.Valid)
    (action : Action Interface) :
    (st.step action).ports.Valid ∧ ((st.step action).Owned ↔ ¬ st.Displaces action) := by
  cases action with
  | create => exact ⟨valid, iff_of_true owned.create not_false⟩
  | send table id ip port u8 =>
      obtain ⟨after, keeps⟩ := @Owned.call _ _ owned valid id
        (fun s ports => (s.send table ip port u8 id ports).1) (fun _ => False) fun s present => ⟨(owned.send valid present table ip port u8).1,
          iff_of_true (owned.send valid present table ip port u8).2 not_false⟩
      refine ⟨after, keeps.trans (not_congr ⟨?_, False.elim⟩)⟩
      rintro ⟨s, -, impossible⟩
      exact impossible
  | bind id port => exact owned.call valid id fun s present => owned.bind valid present Iff.rfl rfl port
  | bindToInterface id intf port =>
      exact owned.call valid id fun s present => owned.bindToInterface valid present intf port
  | close id => exact owned.call valid id fun s present => owned.close valid present

/-! ## Runs -/

/-- **Ports stay owned exactly as long as no call displaces one.** The ports are owned in
every state of a run exactly if no step of it binds a socket that holds a port to another
free one, or closes a socket again while its old port is allocated. -/
theorem ports_owned_exact (actions : List (Action Interface)) :
    (∀ past future, actions = past ++ future → (Transition.run step {} past).Owned) ↔
      Transition.Along step (fun (st : Sockets Interface) action => ¬ st.Displaces action) {}
        actions :=
  Transition.forall_reached_iff_of_step (fun st : Sockets Interface => st.ports.Valid)
    (fun _ action valid owned => owned.step_iff valid action) PortAllocator.valid_new owned_new

/-- A socket closed twice takes the port of the socket that was bound to it in between. -/
theorem closing_twice_takes_port : ∃ actions : List (Action Nat),
    (Transition.run step {} actions).Holds 1 80 ∧
      (Transition.run step {} actions).lookupReceive 80 = none ∧
      ¬ (Transition.run step {} actions).Owned := by
  let actions : List (Action Nat) :=
    [.create, .create, .bind 0 80, .close 0, .bind 1 80, .close 0]
  have holds : (Transition.run step {} actions).Holds 1 80 :=
    ⟨⟨none, 80, false⟩, by decide +kernel, by decide +kernel, rfl⟩
  have freed : (Transition.run step {} actions).lookupReceive 80 = none := by decide +kernel
  refine ⟨actions, holds, freed, fun owned => ?_⟩
  have found := owned.holder 1 80 holds
  rw [freed] at found
  cases found

end Sockets

end JsOS.Net.Udp
