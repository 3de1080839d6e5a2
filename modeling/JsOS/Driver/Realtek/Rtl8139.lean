import JsOS.Library.Run
import Mathlib.Data.BitVec

/-! # The RTL8139 driver

The card writes each frame that it receives into a ring, behind a header with its status and size,
and moves its write pointer on. The driver reads one frame for each interrupt status that it sees,
where the write pointer stood when it last looked, and looks again. For sending, it takes the four
transmit buffers in turn, and the card reads each some time after it was given.
-/

namespace JsOS.Driver.Realtek

abbrev Bytes := List UInt8

def RX_BUFFER_SIZE : Nat := 8192 + 16

def FULL_RX_BUFFER_SIZE : Nat := RX_BUFFER_SIZE + 1500

/-- The interrupt status register: a frame was received, a frame was sent. -/
structure Isr where
  rok : Bool := false
  tok : Bool := false
  deriving DecidableEq, Repr

/-- Where `onIRQ` is: it is not running, at the top of its loop, about to acknowledge the status,
at the check for a frame, about to set the read pointer in `onreceive` (and to compare it with the
size of the ring), and at the check for a sent frame. -/
inductive OnIRQ where
  | idle
  | looping
  | acknowledging (isr : Isr)
  | receiving (isr : Isr)
  | resetting (isr : Isr) (compares : Bool)
  | transmitted (isr : Isr)
  deriving DecidableEq, Repr

/-- The card and the driver. The frames that arrived, with their places in the ring, and the calls
of `ontransmit` whose frames the card has not finished with, are kept for what is said about
them. -/
structure RTL8139 where
  rxBuffer : Nat → UInt8
  cbr : Nat
  isr : Isr := {}
  recvPointer : Nat
  iter : Nat := 3
  txBuffers : Nat → Bytes := fun _ => []
  sizes : Nat → Nat := fun _ => 0
  onIRQ : OnIRQ := .idle
  bindings_ : List Nat := [0]
  arrived : List (Nat × Bytes) := []
  received : List Bytes := []
  calls : Nat := 0
  owed : Nat → List Nat := fun _ => []

/-- What happens: the card receives a frame and moves its write pointer, it finishes with a
transmit buffer, a frame is to be sent, `onIRQ` is called, and `onIRQ` goes on. -/
inductive Move where
  | arrive (frame : Bytes) (next : Nat)
  | finish (slot : Nat)
  | transmit (u8header : Bytes) (u8data : Option Bytes)
  | irq
  | run
  deriving DecidableEq, Repr

namespace RTL8139

/-- The driver after `init`, which has bound `onIRQ`. -/
def init (rxBuffer : Nat → UInt8) (cbr : Nat) : RTL8139 := { rxBuffer, cbr, recvPointer := cbr }

/-! ## The card -/

/-- A frame in the ring: its status, with the bit for a good frame, its size and its bytes. -/
def framed (frame : Bytes) : Bytes :=
  [1, 0, UInt8.ofNat frame.length, UInt8.ofNat (frame.length / 256)] ++ frame

/-- The card receives a frame. -/
def arrive (card : RTL8139) (frame : Bytes) (next : Nat) : RTL8139 :=
  { card with
    rxBuffer := fun place =>
      if card.cbr ≤ place then (framed frame).getD (place - card.cbr) (card.rxBuffer place)
      else card.rxBuffer place
    cbr := next
    isr := { card.isr with rok := true }
    arrived := card.arrived ++ [(card.cbr, frame)] }

/-- The card finishes with a transmit buffer. -/
def finish (card : RTL8139) (slot : Nat) : RTL8139 :=
  { card with
    isr := { card.isr with tok := true }
    owed := fun other => if other = slot then (card.owed slot).tail else card.owed other }

/-! ## Sending -/

/-- `nextIter`. -/
def nextIter (driver : RTL8139) : Nat := if driver.iter + 1 ≥ 4 then 0 else driver.iter + 1

/-- `ontransmit`: the frame is put into the next buffer, and its size into the card's register. -/
def ontransmit (driver : RTL8139) (u8header : Bytes) (u8data : Option Bytes) : RTL8139 :=
  let iter := driver.nextIter
  let size := u8header.length + (u8data.getD []).length
  { driver with
    iter
    txBuffers := fun slot =>
      if slot = iter then u8header ++ u8data.getD [] else driver.txBuffers slot
    sizes := fun slot => if slot = iter then size % 0x1000 else driver.sizes slot
    calls := driver.calls + 1
    owed := fun slot =>
      if slot = iter then driver.owed slot ++ [driver.calls] else driver.owed slot }

/-! ## Receiving -/

/-- `readUInt16LE` of the receive buffer. -/
def readUInt16LE (driver : RTL8139) (offset : Nat) : Nat :=
  (driver.rxBuffer offset).toNat + 256 * (driver.rxBuffer (offset + 1)).toNat

/-- The copy of a slice of the receive buffer; what lies past its end is 0. -/
def slice (driver : RTL8139) (begin_ size : Nat) : Bytes :=
  (List.range size).map fun i =>
    if begin_ + i < FULL_RX_BUFFER_SIZE then driver.rxBuffer (begin_ + i) else 0

/-- `resetReceivePointer`. -/
def resetReceivePointer (driver : RTL8139) : RTL8139 := { driver with recvPointer := driver.cbr }

/-- `onreceive`, until it sets the read pointer: a frame is passed to `intf.receive`. -/
def onreceive (driver : RTL8139) (isr : Isr) : RTL8139 :=
  if driver.readUInt16LE driver.recvPointer % 2 = 0 then
    { driver with onIRQ := .resetting isr false }
  else
    let size := driver.readUInt16LE (driver.recvPointer + 2)
    let buf := driver.slice (driver.recvPointer + 4) size
    { driver with received := driver.received ++ [buf], onIRQ := .resetting isr true }

/-- `IrqDispatcher::Bind`. -/
def bind (driver : RTL8139) : RTL8139 :=
  { driver with bindings_ := driver.bindings_ ++ [driver.bindings_.length] }

/-- `onIRQ` goes on until it next meets the card. -/
def run (driver : RTL8139) : RTL8139 :=
  match driver.onIRQ with
  | .idle => driver
  | .looping =>
      if driver.isr = {} then { driver with onIRQ := .idle }
      else { driver with onIRQ := .acknowledging driver.isr }
  | .acknowledging isr =>
      { driver.bind with
        isr := ⟨driver.isr.rok && !isr.rok, driver.isr.tok && !isr.tok⟩
        onIRQ := .receiving isr }
  | .receiving isr =>
      if isr.rok then driver.onreceive isr else { driver with onIRQ := .transmitted isr }
  | .resetting isr compares =>
      let reset := driver.resetReceivePointer
      let recvPointer :=
        if compares && reset.recvPointer ≥ RX_BUFFER_SIZE then 0 else reset.recvPointer
      { reset with recvPointer, onIRQ := .transmitted isr }
  | .transmitted isr =>
      if isr.tok then { driver.resetReceivePointer with onIRQ := .looping }
      else { driver with onIRQ := .looping }

def step (driver : RTL8139) : Move → RTL8139
  | .arrive frame next => driver.arrive frame next
  | .finish slot => driver.finish slot
  | .transmit u8header u8data => driver.ontransmit u8header u8data
  | .irq => if driver.onIRQ = .idle then { driver with onIRQ := .looping } else driver
  | .run => driver.run

/-! ## What is meant -/

/-- **Frames are received in order.** Those passed on are the first that arrived, and all of them
when the handler is done and no status is left. -/
structure InOrder (driver : RTL8139) : Prop where
  first : driver.received <+: driver.arrived.map Prod.snd
  all : driver.onIRQ = .idle → driver.isr.rok = false →
    driver.received = driver.arrived.map Prod.snd

/-- **No transmit buffer is overwritten** before the card has finished with it. -/
def Apart (driver : RTL8139) : Prop := ∀ slot, (driver.owed slot).length ≤ 1

/-- **One handler** is bound. -/
def OneHandler (driver : RTL8139) : Prop := driver.bindings_.length = 1

/-- The frames that arrived and are not passed on. -/
def waiting (driver : RTL8139) : List (Nat × Bytes) :=
  driver.arrived.drop driver.received.length

/-- The move lets frames be received: a frame has room where the card writes it, beside the next
one that waits; and no frame waits when the driver sets its read pointer. -/
def Timely (driver : RTL8139) : Move → Prop
  | .arrive frame next =>
      frame.length < 2 ^ 16 ∧ driver.cbr + 4 + frame.length ≤ FULL_RX_BUFFER_SIZE ∧
        next < RX_BUFFER_SIZE ∧
        ∀ held ∈ driver.waiting.head?, held.1 + 4 + held.2.length ≤ driver.cbr ∨
          driver.cbr + 4 + frame.length ≤ held.1
  | .run => ((∃ isr compares, driver.onIRQ = .resetting isr compares) ∨
      ∃ isr, driver.onIRQ = .transmitted isr ∧ isr.tok = true) → driver.waiting = []
  | _ => True

/-- When a frame is to be sent, the card has finished with that of the fourth call before. -/
def Spaced (driver : RTL8139) : Move → Prop
  | .transmit _ _ => ∀ slot, ∀ call ∈ driver.owed slot, call + 4 ≠ driver.calls
  | _ => True

/-- The handler does not acknowledge a status. -/
def Quiet (driver : RTL8139) : Move → Prop
  | .run => ∀ isr, driver.onIRQ ≠ .acknowledging isr
  | _ => True

end RTL8139

end JsOS.Driver.Realtek
