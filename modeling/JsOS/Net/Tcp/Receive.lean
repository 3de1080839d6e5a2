import JsOS.Library.Run
import JsOS.Net.Tcp.Socket

/-! # Receiving segments

The receiving methods of a `TCPSocket`: the reordering queue, the acceptance of
acknowledgements, and `_receive` with its state transitions. A connection is
driven by calls of its owner, by segments and by the timer (`Op`); `step` is what
one of these does to the socket, and a call that throws changes nothing.
-/

namespace JsOS.Net.Tcp

namespace TCPSocket

/-- `_receiveWindowIsWithin`. -/
def receiveWindowIsWithin (s : TCPSocket) (seq edge : Seq) : Bool :=
  if s.receiveWindowSize = 0 then false
  else
    let leftEdge := edge
    let rightEdge := seqInc edge s.receiveWindowSize
    if leftEdge < rightEdge then leftEdge ≤ seq && seq < rightEdge
    else leftEdge ≤ seq || seq < rightEdge

/-- Schedule `ondata` if there is a buffer and the callback is set. -/
def emitData (s : TCPSocket) (u8 : Option Bytes) : TCPSocket :=
  match u8 with
  | some u8 => if s.ondata then s.emit (.ondata u8) else s
  | none => s

/-! ## The reordering queue -/

/-- What the inner loop of `_processReceiveQueue` does with an item: `none` keeps
it, otherwise the item as it is removed and the new `lastAck`. An item that starts
before `lastAck` is trimmed to its new bytes, or emptied if it has none. -/
def takeItem (s : TCPSocket) (lastAck : Seq) (item : ReceiveItem) : Option (ReceiveItem × Seq) :=
  if item.len = 0 then none
  else if lastAck = item.seq then some (item, seqInc lastAck item.len)
  else if !s.receiveWindowIsWithin item.seq lastAck then
    let diff := (lastAck - item.seq).toNat
    if diff < item.len then
      some (⟨seqInc item.seq diff, item.len - diff, item.u8.map (subarrayFrom · diff)⟩,
        seqInc lastAck (item.len - diff : Nat))
    else some ({ item with u8 := none }, lastAck)
  else none

/-- Exchange two elements of an array. -/
def swapItems (queue : List ReceiveItem) (i j : Nat) : List ReceiveItem :=
  match queue[i]?, queue[j]? with
  | some first, some second => (queue.set i second).set j first
  | _, _ => queue

/-- The inner loop of `_processReceiveQueue` over the `count` items from `i` on:
the first item that is removed is swapped behind the items that stay. -/
def innerLoop (s : TCPSocket) (queueLength removed : Nat) (lastAck : Seq)
    (queue : List ReceiveItem) : (count i : Nat) → Option (List ReceiveItem × Seq)
  | 0, _ => none
  | count + 1, i =>
      match queue[i]? with
      | none => none
      | some item =>
          match s.takeItem lastAck item with
          | none => innerLoop s queueLength removed lastAck queue count (i + 1)
          | some (item, lastAck) =>
              let queue := queue.set i item
              let last := queueLength - (removed + 1)
              some (if i < last then swapItems queue i last else queue, lastAck)

/-- The outer loop of `_processReceiveQueue`: each round removes one item. -/
def outerLoop (s : TCPSocket) (queueLength : Nat) :
    (count removed : Nat) → Seq → List ReceiveItem → Nat × Seq × List ReceiveItem
  | 0, removed, lastAck, queue => (removed, lastAck, queue)
  | count + 1, removed, lastAck, queue =>
      match s.innerLoop queueLength removed lastAck queue (queueLength - removed) 0 with
      | none => (removed, lastAck, queue)
      | some (queue, lastAck) => outerLoop s queueLength count (removed + 1) lastAck queue

/-- Pop the removed items from the end of the queue and emit their data. -/
def popItems : (removed : Nat) → TCPSocket → TCPSocket
  | 0, s => s
  | removed + 1, s =>
      match s.receiveQueue.getLast? with
      | none => popItems removed s
      | some item =>
          popItems removed ({ s with receiveQueue := s.receiveQueue.dropLast }.emitData item.u8)

/-- `_processReceiveQueue`. -/
def processReceiveQueue (now : Nat) (s : TCPSocket) : TCPSocket :=
  let queueLength := s.receiveQueue.length
  let (removed, lastAck, queue) :=
    s.outerLoop queueLength queueLength 0 s.receiveWindowEdge s.receiveQueue
  let s := { s with receiveQueue := queue }
  if removed > 0 then
    ((s.popItems removed).receiveWindowSlideTo lastAck).requireACK.sendTransmitQueue now
  else s

/-- `_insertReceiveQueue`. -/
def insertReceiveQueue (now : Nat) (s : TCPSocket) (item : ReceiveItem) : TCPSocket :=
  if item.seq = s.receiveWindowEdge then
    -- Fast path for ordered data
    let s := (s.emitData item.u8).receiveWindowSlideTo (seqInc item.seq item.len)
    let s := s.requireACK.sendTransmitQueue now
    if s.receiveQueue.length = 0 then s else s.processReceiveQueue now
  else { s with receiveQueue := s.receiveQueue ++ [item] }.processReceiveQueue now

/-! ## Acknowledgements -/

/-- `_isTransmittedUnacked`. -/
def isTransmittedUnacked (s : TCPSocket) (seq : Seq) : Bool :=
  let leftEdge := s.transmitWindowEdge
  let rightEdge := s.transmitPosition
  if leftEdge = rightEdge then false
  else if leftEdge < rightEdge then leftEdge < seq && seq ≤ rightEdge
  else leftEdge < seq || seq ≤ rightEdge

/-- `_cleanupTransmitQueue`: drop the items before the first one whose end is
still unacknowledged. -/
def cleanupTransmitQueue (s : TCPSocket) : TCPSocket :=
  { s with
    transmitQueue :=
      s.transmitQueue.dropWhile fun item => !s.isTransmittedUnacked (seqInc item.seq item.len) }

/-- `_acceptACK`. -/
def acceptACK (now : Nat) (ackNumber : Seq) (windowSize : Nat) (s : TCPSocket) : TCPSocket :=
  let s := { s with transmitWindowSize := windowSize }
  if s.transmitWindowEdge ≠ ackNumber ∧ s.isTransmittedUnacked ackNumber then
    ({ s with transmitWindowEdge := ackNumber }.cleanupTransmitQueue).fillTransmitQueue now
  else s

/-! ## Segments -/

/-- The window test of `_receive`: the segment carries data and its last byte lies
in the receive window. -/
def acceptsData (s : TCPSocket) (segment : Segment) : Bool :=
  segment.dataLength > 0 &&
    s.receiveWindowIsWithin (seqInc segment.seqNumber (segment.dataLength - 1)) s.receiveWindowEdge

/-- `_receive` in the states that accept data. -/
def receiveData (now : Nat) (segment : Segment) (s : TCPSocket) : TCPSocket :=
  let s := s.acceptACK now segment.ackNumber segment.windowSize.toNat
  if s.acceptsData segment then
    s.insertReceiveQueue now ⟨segment.seqNumber, segment.dataLength.toNat, some segment.data⟩
  else s

/-- The `switch` of `_receive` for a connection. -/
def receiveSwitch (now : Nat) (segment : Segment) (s : TCPSocket) : TCPSocket :=
  match s.state with
  | .synSent =>
      let s := s.acceptACK now segment.ackNumber segment.windowSize.toNat
      if segment.flags &&& (flagSYN ||| flagACK) ≠ 0 then
        let s := (s.receiveWindowSlideTo segment.seqNumber).receiveWindowSlideInc
        let s := s.requireACK.sendTransmitQueue now
        let s := s.setState .established
        s.emitIf s.onopen .onopen
      else s
  | .synReceived =>
      let s := s.acceptACK now segment.ackNumber segment.windowSize.toNat
      if segment.hasACK then
        let s := s.setState .established
        s.emitIf s.onopen .onopen
      else s
  | .lastAck =>
      let s := s.acceptACK now segment.ackNumber segment.windowSize.toNat
      if s.transmitPosition = segment.ackNumber then
        let s := s.setState .closed
        (s.emitIf s.onclose .onclose).destroy
      else s
  | .finWait1 =>
      let s := s.acceptACK now segment.ackNumber segment.windowSize.toNat
      let s := if s.transmitPosition = segment.ackNumber then s.setState .finWait2 else s
      s.receiveData now segment
  | .finWait2 | .established => s.receiveData now segment
  | _ => s

/-- Assign `_state` and `_timeWaitTime` on entering TIME_WAIT. -/
def enterTimeWait (s : TCPSocket) (now : Nat) : TCPSocket :=
  { s with state := .timeWait, timeWaitTime := now }

/-- The changes of state after a FIN. -/
def changeOnFIN (now : Nat) (s : TCPSocket) : TCPSocket :=
  let s :=
    if s.state = .finWait2 then
      let s := (s.enterTimeWait now).emitIf s.onend .onend
      s.emitIf s.onclose .onclose
    else s
  if s.state = .established then (s.setState .closeWait).emitIf s.onend .onend else s

/-- The end of `_receive` for a segment with the FIN flag. -/
def receiveFIN (now : Nat) (segment : Segment) (s : TCPSocket) : TCPSocket :=
  (s.insertReceiveQueue now ⟨seqInc segment.seqNumber segment.dataLength, 1, none⟩).changeOnFIN now

/-- `_receive` on a connection. A listening socket hands segments to its
connections and is not changed itself. -/
def receive (now : Nat) (segment : Segment) (s : TCPSocket) : TCPSocket :=
  if s.state = .listen then s
  else
    let s := s.receiveSwitch now segment
    if segment.hasFIN then s.receiveFIN now segment else s

/-- The socket `_receive` makes for a SYN at a listening socket, before it is
entered in the server's map. -/
def accept (env : Env) (serverId : SocketId) (server : TCPSocket) (srcIP : IP4Address)
    (srcPort : Nat) (segment : Segment) (fresh : TCPSocket) : TCPSocket :=
  { fresh with
    serverSocket := some serverId
    intf := server.intf
    viaIP := server.viaIP
    receiveWindowEdge := seqInc segment.seqNumber 1
    state := .synReceived
    destIP := some srcIP
    destPort := srcPort
    port := server.port }.sendSYN env true

end TCPSocket

/-! ## Runs of a connection -/

/-- What happens to a connection. -/
inductive Op where
  | send (u8 : Bytes)
  | halfclose
  | close
  | receive (segment : Segment)
  | timerTick

/-- One step of a connection: an operation and what it reads from the system. -/
structure Input where
  env : Env
  op : Op

namespace TCPSocket

/-- The socket after a call that may throw. -/
def orUnchanged (s : TCPSocket) (result : Except SocketError TCPSocket) : TCPSocket :=
  match result with
  | .ok s => s
  | .error _ => s

/-- One step of a connection. -/
def step (s : TCPSocket) (input : Input) : TCPSocket :=
  match input.op with
  | .send u8 => s.orUnchanged ((s.send input.env.now u8).map Prod.snd)
  | .halfclose => s.orUnchanged (s.halfclose input.env.now)
  | .close => s.orUnchanged (s.close input.env.now)
  | .receive segment => s.receive input.env.now segment
  | .timerTick => s.timerTick input.env

end TCPSocket

end JsOS.Net.Tcp
