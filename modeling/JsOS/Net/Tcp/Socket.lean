import JsOS.Net.Ip4Address
import JsOS.Net.PortAllocator
import JsOS.Net.Tcp.Segment

/-! # The TCP socket

A `TCPSocket` object with its fields and methods. A method is a function from
the socket before the call to the socket after it; methods that read the clock
take the time, methods that look up a route or allocate a port take what these
return (`Env`). Everything a method does outside its socket is appended to the
socket's list of events in the order it happens: packets handed to the
interface, callbacks scheduled by `setImmediate` (which run in the order they
were scheduled), synchronous callbacks, and the removal of the socket from the
timer and from its server. One kind of event is a history variable and has no
effect of its own: every item pushed to `_transmitQueue` is recorded.

The interface hands a packet to the network asynchronously, so no method is
entered again while `_transmit` runs. A callback that calls back into the socket
is modelled for `ondrain`, which is called in the middle of a loop.
-/

namespace JsOS.Net.Tcp

/-- `tcp-socket-state`. -/
inductive State where
  | closed
  | listen
  | synSent
  | synReceived
  | established
  | finWait1
  | finWait2
  | closeWait
  | closing
  | lastAck
  | timeWait
  deriving DecidableEq, Repr

/-- An item `[retransmits, timeAdded, seq, len, u8, flags]` of `_transmitQueue`. -/
structure TransmitItem where
  retransmits : Nat
  timeAdded : Nat
  seq : Seq
  len : Int
  u8 : Option Bytes
  flags : BitVec 8
  deriving DecidableEq, Repr

/-- An item is sent at once and again after two more seconds each time. -/
def TransmitItem.due (now : Nat) (item : TransmitItem) : Bool :=
  item.retransmits = 0 || now > item.timeAdded + item.retransmits * 2000

/-- An item `[seq, len, u8]` of `_receiveQueue`. -/
structure ReceiveItem where
  seq : Seq
  len : Nat
  u8 : Option Bytes
  deriving DecidableEq, Repr

/-- What a socket does outside itself, and the items it queues. -/
inductive Event where
  /-- History: an item was pushed to `_transmitQueue` while the transmit window
  had this edge and size. -/
  | push (item : TransmitItem) (windowEdge : Seq) (windowSize : Nat)
  /-- `_transmit(seq, ack, flags, window, u8)`. -/
  | transmit (seq ack : Seq) (flags : BitVec 8) (window : Nat) (u8 : Option Bytes)
  /-- `setImmediate(() => this.ondata(u8))`. -/
  | ondata (u8 : Bytes)
  /-- `setImmediate(() => this.onend())`. -/
  | onend
  /-- `setImmediate(() => this.onclose())`. -/
  | onclose
  /-- `this.onopen()`. -/
  | onopen
  /-- `_destroy`: removed from the timer and from the server's connections. -/
  | destroy
  /-- `ports.free(port)`. -/
  | freePort (port : Nat)
  deriving DecidableEq, Repr

/-- A network interface, by identity. -/
abbrev Interface := Nat

/-- A socket object, by identity. -/
abbrev SocketId := Nat

/-- The callbacks an owner sets on a socket: whether each is set, and for `ondrain` the
arrays that its successive calls pass to `send`. -/
structure Handlers where
  onopen : Bool := false
  onend : Bool := false
  ondata : Bool := false
  onclose : Bool := false
  ondrain : Option (List (List Bytes)) := none
  deriving DecidableEq, Repr

/-- A `TCPSocket`. The callbacks are modelled as in `Handlers`; `_onconnect` by the
callbacks it sets on a new connection. -/
structure TCPSocket where
  serverSocket : Option SocketId := none
  intf : Option Interface := none
  port : Nat := 0
  viaIP : Option IP4Address := none
  destPort : Nat := 0
  destIP : Option IP4Address := none
  state : State := .closed
  timeWaitTime : Nat := 0
  transmitWindowEdge : Seq := 19999
  transmitWindowSize : Nat := 0
  transmitPosition : Seq := 19999
  receiveWindowEdge : Seq := 0
  receiveWindowSize : Nat := 8192
  queueTx : List (Option Bytes) := []
  transmitQueue : List TransmitItem := []
  receiveQueue : List ReceiveItem := []
  connections : Option (AList fun _ : Nat => SocketId) := none
  ackRequired : Bool := false
  onopen : Bool := false
  onend : Bool := false
  ondata : Bool := false
  onclose : Bool := false
  ondrain : Option (List (List Bytes)) := none
  onconnect : Handlers := {}
  bufferedAmount : Int := 0
  events : List Event := []
  deriving DecidableEq

/-- An entry of the routing table. -/
structure RoutingEntry where
  gateway : Option IP4Address
  intf : Interface
  deriving DecidableEq, Repr

/-- What a method reads from the rest of the system: the clock in milliseconds,
the routing table, and the port `ports.allocEphemeral` returns, `0` when there is
none. -/
structure Env where
  now : Nat
  route : IP4Address → Option Interface → Option RoutingEntry
  ephemeralPort : Nat

/-- The errors thrown by socket methods. -/
inductive SocketError where
  | E_INVALID_PORT
  | E_ADDRESS_IN_USE
  | E_CANNOT_CLOSE
  | notConnected (state : State)
  deriving DecidableEq, Repr

/-- `MSL_TIME`, in milliseconds. -/
def mslTime : Nat := 15000

/-- `bufferedLimitHint`. -/
def bufferedLimitHint : Int := 64 * 1024

/-- The largest data length of a segment. -/
def maxSegmentSize : Int := 536

namespace TCPSocket

/-- Record an event. -/
def emit (s : TCPSocket) (event : Event) : TCPSocket :=
  { s with events := s.events ++ [event] }

/-- Call or schedule a callback if it is set. -/
def emitIf (s : TCPSocket) (callback : Bool) (event : Event) : TCPSocket :=
  if callback then s.emit event else s

/-- Assign `_state`. -/
def setState (s : TCPSocket) (state : State) : TCPSocket :=
  { s with state }

/-- Assign `_ackRequired = true`. -/
def requireACK (s : TCPSocket) : TCPSocket :=
  { s with ackRequired := true }

/-- `_destroy`. -/
def destroy (s : TCPSocket) : TCPSocket :=
  { s.emit .destroy with transmitQueue := [], receiveQueue := [], queueTx := [] }

/-- `_transmit`. -/
def transmit (s : TCPSocket) (seq ack : Seq) (flags : BitVec 8) (window : Nat)
    (u8 : Option Bytes) : TCPSocket :=
  s.emit (.transmit seq ack flags window u8)

/-- `_configure`; the flag is its result. -/
def configure (env : Env) (s : TCPSocket) : Bool × TCPSocket :=
  match s.destIP with
  | none => (false, s)
  | some destIP =>
      if destIP.isBroadcast then (false, s)
      else
        match env.route destIP s.intf with
        | none => (false, s)
        | some entry =>
            if s.port = 0 ∧ env.ephemeralPort = 0 then (false, s)
            else
              (true, { s with
                port := if s.port = 0 then env.ephemeralPort else s.port
                intf := some (s.intf.getD entry.intf)
                viaIP := entry.gateway })

/-- `_transmitQueue.push(item)`. -/
def pushTransmit (s : TCPSocket) (item : TransmitItem) : TCPSocket :=
  { s.emit (.push item s.transmitWindowEdge s.transmitWindowSize) with
    transmitQueue := s.transmitQueue ++ [item] }

/-- `_incTransmitPosition`. -/
def incTransmitPosition (s : TCPSocket) : TCPSocket :=
  { s with transmitPosition := seqInc s.transmitPosition 1 }

/-- `_receiveWindowSlideTo`. -/
def receiveWindowSlideTo (s : TCPSocket) (seq : Seq) : TCPSocket :=
  { s with receiveWindowEdge := seq }

/-- `_receiveWindowSlideInc`. -/
def receiveWindowSlideInc (s : TCPSocket) : TCPSocket :=
  { s with receiveWindowEdge := seqInc s.receiveWindowEdge 1 }

/-- `_resetConnection`. -/
def resetConnection (s : TCPSocket) : TCPSocket :=
  (s.setState .closed).destroy

/-! ## Sending what is queued -/

/-- The loop of `_sendTransmitQueue`. The flag is set when the loop stops at an
item that has been sent eight times; the list holds the items as the loop leaves
them. -/
def sendLoop (now : Nat) : List TransmitItem → TCPSocket → Bool × List TransmitItem × TCPSocket
  | [], s => (false, [], s)
  | item :: items, s =>
      if item.retransmits > 7 then (true, item :: items, s)
      else if item.due now then
        let sent := { s with ackRequired := false }.transmit item.seq s.receiveWindowEdge item.flags
          s.receiveWindowSize item.u8
        let (reset, rest, s) := sendLoop now items sent
        (reset, { item with retransmits := item.retransmits + 1 } :: rest, s)
      else
        let (reset, rest, s) := sendLoop now items s
        (reset, item :: rest, s)

/-- `_sendTransmitQueue`. -/
def sendTransmitQueue (now : Nat) (s : TCPSocket) : TCPSocket :=
  let (reset, items, s) := sendLoop now s.transmitQueue s
  if reset then s.resetConnection
  else
    let s := { s with transmitQueue := items }
    if s.ackRequired then
      { s with ackRequired := false }.transmit s.transmitPosition s.receiveWindowEdge flagACK
        s.receiveWindowSize none
    else s

/-- `_sendSYN`. -/
def sendSYN (env : Env) (isAck : Bool) (s : TCPSocket) : TCPSocket :=
  let flags := if isAck then flagSYN ||| flagACK else flagSYN
  let s := (s.pushTransmit ⟨0, env.now, s.transmitPosition, 1, none, flags⟩).incTransmitPosition
  match s.configure env with
  | (false, s) => s
  | (true, s) => s.sendTransmitQueue env.now

/-- `open`, with the address already parsed. -/
def openSocket (env : Env) (ip : IP4Address) (port : Nat) (s : TCPSocket) :
    Except SocketError TCPSocket :=
  if isPort port then
    .ok ({ s with destPort := port, destIP := some ip, state := .synSent }.sendSYN env false)
  else .error .E_INVALID_PORT

/-! ## Filling the transmit queue -/

/-- The right edge of the peer's window. -/
def rightEdge (s : TCPSocket) : Seq := seqInc s.transmitWindowEdge s.transmitWindowSize

/-- The signed space left in the peer's window. -/
def spaceLeft (s : TCPSocket) : Int := seqOffset s.rightEdge s.transmitPosition

/-- `_allocTransmitPosition`; the number is its result. -/
def allocTransmitPosition (s : TCPSocket) (length : Int) : Int × TCPSocket :=
  let spaceReserved := min (min s.spaceLeft length) maxSegmentSize
  (spaceReserved, { s with transmitPosition := seqInc s.transmitPosition spaceReserved })

/-- The item `_fillTransmitQueue` pushes for data. -/
def dataItem (now : Nat) (position : Seq) (reserved : Int) (u8 : Bytes) : TransmitItem :=
  ⟨0, now, position, reserved, some u8, flagACK ||| flagPSH⟩

/-- The item `_fillTransmitQueue` pushes for the end of the data. -/
def finItem (now : Nat) (position : Seq) : TransmitItem :=
  ⟨0, now, position, 1, none, flagACK ||| flagFIN⟩

/-- The loop of `_fillTransmitQueue`: `count` indices from `i` on are left below
the length read before the loop. The number is `remove`. An index past the end of
the array reads `undefined`, which takes the branch of `null`. -/
def fillLoop (now : Nat) (ondrain : TCPSocket → TCPSocket) :
    (count i remove : Nat) → TCPSocket → Nat × TCPSocket
  | 0, _, remove, s => (remove, s)
  | count + 1, i, remove, s =>
      let position := s.transmitPosition
      match s.queueTx[i]?.join with
      | some buf =>
          let length : Int := buf.length
          let (reserved, s) := s.allocTransmitPosition length
          if reserved = 0 then (remove, s)
          else if length = reserved then
            let s := s.pushTransmit (dataItem now position reserved buf)
            let s := { s with bufferedAmount := s.bufferedAmount - reserved }
            let s := if s.bufferedAmount = 0 then ondrain s else s
            fillLoop now ondrain count (i + 1) (remove + 1) s
          else
            let s := s.pushTransmit (dataItem now position reserved (subarray buf 0 reserved))
            (remove, { s with
              queueTx := s.queueTx.set i (some (subarrayFrom buf reserved))
              bufferedAmount := s.bufferedAmount - reserved })
      | none =>
          let s := s.incTransmitPosition.pushTransmit (finItem now position)
          fillLoop now ondrain count (i + 1) (remove + 1) s

/-- The body of `_fillTransmitQueue` around what a call of `ondrain` does. -/
def fillBody (now : Nat) (ondrain : TCPSocket → TCPSocket) (s : TCPSocket) : TCPSocket :=
  let (remove, s) := s.fillLoop now ondrain s.queueTx.length 0 0
  { s with queueTx := s.queueTx.drop remove }.sendTransmitQueue now

/-- Whether `send` accepts data. -/
def canSend (s : TCPSocket) : Bool :=
  s.state = .established || s.state = .closeWait

/-- `send` up to its call of `_fillTransmitQueue`. -/
def enqueue (s : TCPSocket) (u8 : Bytes) : TCPSocket :=
  { s with bufferedAmount := s.bufferedAmount + u8.length, queueTx := s.queueTx ++ [some u8] }

/-- A call of `ondrain`: it sends the next group of arrays. A `send` that throws
is caught by the callback. -/
def callOndrain (fill : TCPSocket → TCPSocket) (s : TCPSocket) : TCPSocket :=
  match s.ondrain with
  | some (sends :: later) =>
      sends.foldl (fun s u8 => if s.canSend then fill (s.enqueue u8) else s)
        { s with ondrain := some later }
  | _ => s

/-- `_fillTransmitQueue` with at most `depth` calls of `ondrain` nested in it. -/
def fillNested (now : Nat) : (depth : Nat) → TCPSocket → TCPSocket
  | 0 => fillBody now id
  | depth + 1 => fillBody now (callOndrain (fillNested now depth))

/-- `_fillTransmitQueue`. Every call of `ondrain` that sends uses up one group of
arrays, so their number bounds the nesting. -/
def fillTransmitQueue (now : Nat) (s : TCPSocket) : TCPSocket :=
  fillNested now (s.ondrain.elim 0 List.length) s

/-- `send`, with its result. -/
def send (now : Nat) (u8 : Bytes) (s : TCPSocket) : Except SocketError (Bool × TCPSocket) :=
  if s.canSend then
    let s := (s.enqueue u8).fillTransmitQueue now
    .ok (s.bufferedAmount < bufferedLimitHint, s)
  else .error (.notConnected s.state)

/-- Assign `_state` and queue the end of the data. -/
def queueEnd (s : TCPSocket) (state : State) : TCPSocket :=
  { s with state, queueTx := s.queueTx ++ [none] }

/-- `halfclose`: close the socket for writes but keep receiving new data. -/
def halfclose (now : Nat) (s : TCPSocket) : Except SocketError TCPSocket :=
  match s.state with
  | .established => .ok ((s.queueEnd .finWait1).fillTransmitQueue now)
  | .closeWait => .ok ((s.queueEnd .lastAck).fillTransmitQueue now)
  | _ => .error .E_CANNOT_CLOSE

/-- `close`: a listening socket frees its port; any other socket repeats the
body of `halfclose`. -/
def close (now : Nat) (s : TCPSocket) : Except SocketError TCPSocket :=
  if s.state = .listen then
    let s := ((s.setState .closed).emit (.freePort s.port)).destroy
    .ok (s.emitIf s.onclose .onclose)
  else s.halfclose now

/-- `_timerTick`. -/
def timerTick (env : Env) (s : TCPSocket) : TCPSocket :=
  match s.state with
  | .timeWait =>
      if env.now > s.timeWaitTime + 2 * mslTime then (s.setState .closed).destroy else s
  | .synSent | .synReceived =>
      match s.configure env with
      | (false, s) => s
      | (true, s) => s.sendTransmitQueue env.now
  | .established | .finWait1 => s.sendTransmitQueue env.now
  | _ => s

end TCPSocket

end JsOS.Net.Tcp
