import JsOS.Net.Tcp.Delivery
import JsOS.Net.Tcp.Wired

/-! # What a segment inserts

The data of a segment matters to a socket only through what `_receive` inserts into the receive
queue: the data in the states that accept it, if its last byte is in the window, and the end behind
the data. Segments that agree on the other fields and insert the same leave a socket, and the whole
stack, in the same state (`receive_congr`).
-/

namespace JsOS.Net.Tcp

/-- `_receive` accepts data in the state. -/
def State.takesData : State → Bool
  | .established | .finWait1 | .finWait2 => true
  | _ => false

/-- The segments agree on all header fields that `_receive` reads. -/
structure Segment.SameHeader (first second : Segment) : Prop where
  flags : second.flags = first.flags
  seqNumber : second.seqNumber = first.seqNumber
  ackNumber : second.ackNumber = first.ackNumber
  windowSize : second.windowSize = first.windowSize

namespace TCPSocket

/-- The data of a segment as an item of the receive queue, if it is inserted. -/
def insertedData (s : TCPSocket) (segment : Segment) : List ReceiveItem :=
  if s.state.takesData && s.acceptsData segment then
    [⟨segment.seqNumber, segment.dataLength.toNat, some segment.data⟩]
  else []

/-- The end behind the data as an item of the receive queue, if it is inserted. -/
def insertedEnd (segment : Segment) : List ReceiveItem :=
  if segment.hasFIN then [⟨seqInc segment.seqNumber segment.dataLength, 1, none⟩] else []

/-- What `_receive` inserts into the receive queue. -/
def inserted (s : TCPSocket) (segment : Segment) : List ReceiveItem :=
  if s.state = .listen then [] else s.insertedData segment ++ insertedEnd segment

variable {s : TCPSocket} {first second : Segment}

theorem hasFIN_congr (same : first.SameHeader second) : second.hasFIN = first.hasFIN := by
  rw [Segment.hasFIN, same.flags, Segment.hasFIN]

theorem hasACK_congr (same : first.SameHeader second) : second.hasACK = first.hasACK := by
  rw [Segment.hasACK, same.flags, Segment.hasACK]

theorem hasSYN_congr (same : first.SameHeader second) : second.hasSYN = first.hasSYN := by
  rw [Segment.hasSYN, same.flags, Segment.hasSYN]

/-- What is inserted is the data and the end. -/
theorem inserted_eq_iff (same : first.SameHeader second) (quiet : s.state ≠ .listen) :
    s.inserted second = s.inserted first ↔
      s.insertedData second = s.insertedData first ∧ insertedEnd second = insertedEnd first := by
  have ends : (insertedEnd second).length = (insertedEnd first).length := by
    unfold insertedEnd
    rw [hasFIN_congr same]
    split <;> rfl
  unfold inserted
  rw [if_neg quiet, if_neg quiet]
  refine ⟨fun equal => List.append_inj' equal ends, fun equal => ?_⟩
  rw [equal.1, equal.2]

/-- The data path of `_receive` inserts the data. -/
theorem receiveData_congr (now : Nat) (same : first.SameHeader second)
    (data : s.acceptsData second = s.acceptsData first)
    (equal : s.acceptsData first → second.dataLength.toNat = first.dataLength.toNat ∧
      second.data = first.data) : s.receiveData now second = s.receiveData now first := by
  unfold receiveData
  dsimp only
  rw [same.ackNumber, same.windowSize, same.seqNumber, acceptsData_acceptACK,
    acceptsData_acceptACK, data]
  cases accepts : s.acceptsData first with
  | false => rfl
  | true =>
      obtain ⟨length, bytes⟩ := equal accepts
      rw [length, bytes]

/-- **What a segment inserts decides** how a socket takes it. -/
theorem receive_congr (now : Nat) (same : first.SameHeader second)
    (equal : s.inserted second = s.inserted first) : s.receive now second = s.receive now first := by
  unfold receive
  by_cases listening : s.state = .listen
  · rw [if_pos listening, if_pos listening]
  rw [if_neg listening, if_neg listening]
  obtain ⟨data, ends⟩ := (inserted_eq_iff same listening).mp equal
  have taken (takes : s.state.takesData) : s.acceptsData second = s.acceptsData first ∧
      (s.acceptsData first → second.dataLength.toNat = first.dataLength.toNat ∧
        second.data = first.data) := by
    unfold insertedData at data
    rw [takes, Bool.true_and, Bool.true_and] at data
    cases accepts : s.acceptsData first with
    | false =>
        cases accepts' : s.acceptsData second with
        | false => exact ⟨rfl, fun absurd => nomatch absurd⟩
        | true => simp [accepts, accepts'] at data
    | true =>
        cases accepts' : s.acceptsData second with
        | false => simp [accepts, accepts'] at data
        | true =>
            simp only [accepts, accepts', if_true, List.cons.injEq, ReceiveItem.mk.injEq,
              Option.some.injEq, and_true] at data
            exact ⟨rfl, fun _ => data.2⟩
  have switch : s.receiveSwitch now second = s.receiveSwitch now first := by
    unfold receiveSwitch
    cases state : s.state with
    | synSent => simp only [same.ackNumber, same.windowSize, same.flags, same.seqNumber]
    | synReceived => simp only [same.ackNumber, same.windowSize, hasACK_congr same]
    | lastAck => simp only [same.ackNumber, same.windowSize]
    | finWait1 =>
        obtain ⟨accepts, bytes⟩ := taken (by rw [state]; rfl)
        dsimp only
        rw [same.ackNumber, same.windowSize]
        have unmoved (segment : Segment) : TCPSocket.acceptsData
            (if (s.acceptACK now first.ackNumber first.windowSize.toNat).transmitPosition =
                first.ackNumber then
              (s.acceptACK now first.ackNumber first.windowSize.toNat).setState .finWait2
            else s.acceptACK now first.ackNumber first.windowSize.toNat) segment =
              s.acceptsData segment := by
          rw [← acceptsData_acceptACK now first.ackNumber first.windowSize.toNat s segment]
          split <;> rfl
        refine receiveData_congr now same ?_ ?_
        · rw [unmoved, unmoved, accepts]
        · rw [unmoved]
          exact bytes
    | finWait2 | established =>
        obtain ⟨accepts, bytes⟩ := taken (by rw [state]; rfl)
        exact receiveData_congr now same accepts bytes
    | closed | listen | closeWait | closing | timeWait => rfl
  rw [switch, hasFIN_congr same]
  cases fin : first.hasFIN with
  | false => rfl
  | true =>
      have place : seqInc second.seqNumber second.dataLength =
          seqInc first.seqNumber first.dataLength := by
        unfold insertedEnd at ends
        rw [hasFIN_congr same, fin, if_pos rfl, if_pos rfl] at ends
        simp only [List.cons.injEq, ReceiveItem.mk.injEq, and_true] at ends
        exact ends
      simp only [receiveFIN, place]

/-- A FIN behind more data is inserted at the same place only if the numbers come around. -/
theorem insertedEnd_eq_iff (same : first.SameHeader second) {more : Nat}
    (longer : second.dataLength = first.dataLength + more) :
    insertedEnd second = insertedEnd first ↔ (first.hasFIN → 2 ^ 32 ∣ more) := by
  unfold insertedEnd
  rw [hasFIN_congr same]
  cases fin : first.hasFIN with
  | false => simp
  | true =>
      have place : seqInc second.seqNumber second.dataLength =
          seqInc first.seqNumber first.dataLength + BitVec.ofNat 32 more := by
        rw [same.seqNumber, longer, ← seqInc_seqInc, seqInc_natCast]
      simp only [if_true, List.cons.injEq, ReceiveItem.mk.injEq, and_true, place, true_imp_iff]
      rw [add_eq_left, ← BitVec.toNat_inj, BitVec.toNat_ofNat, Nat.dvd_iff_mod_eq_zero]
      rfl

/-- **More data is inserted differently** unless neither segment has data that is accepted, and the
end is not set or comes around. -/
theorem inserted_longer_iff (same : first.SameHeader second) (quiet : s.state ≠ .listen) {more : Nat}
    (some_ : 0 < more) (longer : second.dataLength = first.dataLength + more) :
    s.inserted second = s.inserted first ↔
      (s.state.takesData → s.acceptsData first = false ∧ s.acceptsData second = false) ∧
        (first.hasFIN → 2 ^ 32 ∣ more) := by
  rw [inserted_eq_iff same quiet, insertedEnd_eq_iff same longer]
  refine and_congr_left fun _ => ?_
  unfold insertedData
  cases takes : s.state.takesData with
  | false => simp
  | true =>
      cases accepts : s.acceptsData first with
      | false =>
          cases accepts' : s.acceptsData second with
          | false => simp
          | true => simp
      | true =>
          cases accepts' : s.acceptsData second with
          | false => simp
          | true =>
              have positive : 0 < first.dataLength := by
                unfold acceptsData at accepts
                rw [Bool.and_eq_true, decide_eq_true_eq] at accepts
                exact accepts.1
              simp only [Bool.and_self, if_true, List.cons.injEq, ReceiveItem.mk.injEq, longer]
              refine iff_of_false (fun equal => ?_) (by simp)
              omega

end TCPSocket

/-! ## The stack -/

namespace Stack

/-- The connection whose `_receive` takes the segment of the packet. -/
def receiver (stack : Stack) (packet : Packet) : Option SocketId :=
  (stack.destination packet).bind fun id =>
    stack.sockets[id]?.bind fun s =>
      if s.state = .listen then s.connection packet.hash else some id

/-- What the packet inserts into the receive queue of a connection. -/
def inserted (stack : Stack) (packet : Packet) : List (SocketId × ReceiveItem) :=
  match stack.receiver packet with
  | none => []
  | some id =>
      match stack.sockets[id]? with
      | none => []
      | some s => (s.inserted packet.segment).map fun item => (id, item)

variable {stack : Stack}

/-- A step of a socket that takes segments inserting the same. -/
theorem stepSocket_congr (setting : Setting) (id : SocketId) {first second : Segment}
    (same : first.SameHeader second)
    (equal : ∀ s, stack.sockets[id]? = some s → s.inserted second = s.inserted first) :
    stack.stepSocket setting id (.receive second) =
      stack.stepSocket setting id (.receive first) := by
  unfold stepSocket
  cases present : stack.sockets[id]? with
  | none => rfl
  | some s =>
      have steps := TCPSocket.receive_congr setting.now same (equal s present)
      change stack.settle id s (s.receive setting.now second) =
        stack.settle id s (s.receive setting.now first)
      rw [steps]

/-- A connection is made for a SYN without its data. -/
theorem accept_congr (setting : Setting) (id : SocketId) (server : TCPSocket)
    {first second : Packet} (same : first.segment.SameHeader second.segment)
    (source : second.srcIP = first.srcIP) (port : second.srcPort = first.srcPort) :
    stack.accept setting id server second = stack.accept setting id server first := by
  have key : second.hash = first.hash := by rw [Packet.hash, source, port, Packet.hash]
  unfold accept TCPSocket.accept TCPSocket.accepting
  rw [same.seqNumber, source, port, key]

/-- What the packets insert, they insert into the same connection. -/
theorem inserted_of_receiver {first second : Packet} {id : SocketId} {s : TCPSocket}
    (goes : stack.receiver first = some id) (goes' : stack.receiver second = some id)
    (present : stack.sockets[id]? = some s)
    (equal : stack.inserted second = stack.inserted first) :
    s.inserted second.segment = s.inserted first.segment := by
  unfold inserted at equal
  rw [goes, goes'] at equal
  dsimp only at equal
  rw [present] at equal
  exact List.map_injective_iff.mpr (fun _ _ same => (Prod.mk.inj same).2) equal

/-- **What a packet inserts decides** how the stack takes it. -/
theorem receive_congr (setting : Setting) {intf : Interface} {srcIP : IP4Address}
    {srcPort destPort : BitVec 16} {first second : Segment} (same : first.SameHeader second)
    (equal : stack.inserted ⟨intf, srcIP, srcPort, destPort, second⟩ =
      stack.inserted ⟨intf, srcIP, srcPort, destPort, first⟩) :
    stack.receive setting ⟨intf, srcIP, srcPort, destPort, second⟩ =
      stack.receive setting ⟨intf, srcIP, srcPort, destPort, first⟩ := by
  generalize packet : (⟨intf, srcIP, srcPort, destPort, first⟩ : Packet) = plain at equal ⊢
  generalize packet' : (⟨intf, srcIP, srcPort, destPort, second⟩ : Packet) = longer at equal ⊢
  have destination : stack.destination longer = stack.destination plain := by
    rw [← packet, ← packet']
    rfl
  have receiver : stack.receiver longer = stack.receiver plain := by
    rw [← packet, ← packet']
    rfl
  have key : longer.hash = plain.hash := by
    rw [← packet, ← packet']
    rfl
  have bound : longer.intf = plain.intf := by rw [← packet, ← packet']
  have header : plain.segment.SameHeader longer.segment := by
    rw [← packet, ← packet']
    exact same
  -- the connection that takes the segment inserts the same, also after its interface is set
  have steps (id target : SocketId) (goes : stack.receiver plain = some target) :
      (stack.modify id fun s => s.bindInterface plain.intf).stepSocket setting target
          (.receive longer.segment) =
        (stack.modify id fun s => s.bindInterface plain.intf).stepSocket setting target
          (.receive plain.segment) := by
    refine stepSocket_congr setting target header fun t present => ?_
    rw [sockets_modify] at present
    split at present
    · obtain ⟨s, old, rfl⟩ := Option.map_eq_some_iff.mp present
      have inserts := inserted_of_receiver goes (receiver.trans goes) old equal
      exact inserts
    · exact inserted_of_receiver goes (receiver.trans goes) present equal
  unfold receive
  rw [destination]
  cases goes : stack.destination plain with
  | none => rfl
  | some id =>
      dsimp only
      rw [bound]
      unfold receiveSocket
      cases present : stack.sockets[id]? with
      | none => rw [sockets_modify, if_pos rfl, present, Option.map_none]
      | some s =>
          rw [sockets_bindInterface present]
          dsimp only
          by_cases listening : s.state = .listen
          · have listening' : (s.bindInterface plain.intf).state = .listen := listening
            rw [if_pos listening', if_pos listening', key]
            cases entry : s.connection plain.hash with
            | none =>
                have entry' : (s.bindInterface plain.intf).connection plain.hash = none := entry
                rw [entry']
                dsimp only
                rw [TCPSocket.hasSYN_congr header, accept_congr setting id _ header
                  (by rw [← packet, ← packet']) (by rw [← packet, ← packet'])]
            | some target =>
                have entry' : (s.bindInterface plain.intf).connection plain.hash = some target :=
                  entry
                rw [entry']
                refine steps id target ?_
                unfold Stack.receiver
                rw [goes, Option.bind_some, present, Option.bind_some, if_pos listening, entry]
          · have quiet : (s.bindInterface plain.intf).state ≠ .listen := listening
            rw [if_neg quiet, if_neg quiet]
            refine steps id id ?_
            unfold Stack.receiver
            rw [goes, Option.bind_some, present, Option.bind_some, if_neg listening]

end Stack

end JsOS.Net.Tcp
