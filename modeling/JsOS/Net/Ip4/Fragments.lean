import Mathlib.Data.List.AList
import JsOS.Library.Run
import JsOS.Net.Ip4.Header

/-! # Reassembly of fragments

`ip4-fragments`: an interface keeps one queue for every datagram of which fragments have
arrived. A fragment is cut to the portion that no stored fragment covers at its ends,
replaces the stored fragments that lie inside this portion, and is stored with the
buffer it came in. A datagram is complete when the stored lengths add up to the end
announced by a last fragment.

Numbers are integers, so that a negative length would show. A queue is shared by
reference with the map of the interface: after it is changed, it is changed in the map
also when `addFragment` returns early or throws.
-/

namespace JsOS.Net.Ip4

open Tcp (Bytes subarray)

/-- `FRAGMENT_QUEUE_MAX_AGE_MS`. -/
def FRAGMENT_QUEUE_MAX_AGE_MS : Nat := 30000

/-- `FRAGMENT_QUEUE_MAX_COUNT`. -/
def FRAGMENT_QUEUE_MAX_COUNT : Nat := 100

/-- `value << 16`, a signed 32-bit number. -/
def shiftLeft16 (value : Nat) : Int := (BitVec.ofNat 32 value <<< 16).toInt

/-- `fragmentHash`, under the names of its own parameters. -/
def fragmentHash (srcIP destIP : IP4Address) (protocolId packetId : Nat) : String :=
  toString srcIP.toInteger.toNat ++ "-" ++ toString destIP.toInteger.toNat ++ "-" ++
    toString (packetId + shiftLeft16 protocolId)

/-- A stored fragment: its offset in the datagram, its length, where its data begins in the
buffer, and the buffer. -/
structure Fragment where
  offset : Int
  length : Int
  nextOffset : Int
  u8 : Bytes
  deriving DecidableEq, Repr

/-- `fragBegin + fragment[1]`. -/
def Fragment.fragEnd (fragment : Fragment) : Int := fragment.offset + fragment.length

/-! ## Cutting the new fragment -/

/-- The portion of a new fragment that is left to store. -/
structure Portion where
  newOffset : Int
  newEnd : Int
  newNextOffset : Int
  deriving DecidableEq, Repr

namespace Portion

/-- One round of the loop that cuts the new fragment; `none` is its early return. -/
def trimStep (new : Portion) : Option Fragment → Option Portion
  | none => some new
  | some fragment =>
      let fragBegin := fragment.offset
      let fragEnd := fragment.fragEnd
      let overlapOffset := fragBegin ≤ new.newOffset && new.newOffset ≤ fragEnd
      let overlapEnd := fragBegin ≤ new.newEnd && new.newEnd ≤ fragEnd
      if overlapOffset && overlapEnd then none
      else
        let new :=
          if overlapOffset && new.newOffset < fragEnd then
            { new with
              newOffset := fragEnd
              newNextOffset := new.newNextOffset + (fragEnd - new.newOffset) }
          else new
        some (if overlapEnd && fragBegin < new.newEnd then { new with newEnd := fragBegin } else new)

/-- The loop over the stored fragments. -/
def trim (new : Portion) (fragments : List (Option Fragment)) : Option Portion :=
  fragments.foldlM trimStep new

/-- The stored fragment is fully contained within the new one. -/
def contains (new : Portion) (fragment : Fragment) : Bool :=
  new.newOffset ≤ fragment.offset && fragment.offset ≤ new.newEnd &&
    new.newOffset ≤ fragment.fragEnd && fragment.fragEnd ≤ new.newEnd

/-- The portion as a fragment to store. -/
def fragment (new : Portion) (u8 : Bytes) : Fragment :=
  ⟨new.newOffset, new.newEnd - new.newOffset, new.newNextOffset, u8⟩

end Portion

/-! ## Queues -/

/-- The variables of the loop that removes stored fragments. -/
structure Removal where
  fragments : List (Option Fragment)
  receivedLength : Int
  removedIndex : Option Nat

/-- One round of the loop that removes stored fragments inside the new one. -/
def Removal.removeAt (new : Portion) (removal : Removal) (i : Nat) : Removal :=
  match removal.fragments[i]? with
  | some (some fragment) =>
      if new.contains fragment then
        ⟨removal.fragments.set i none, removal.receivedLength - fragment.length, some i⟩
      else removal
  | _ => removal

/-- The queue of one datagram. -/
structure Queue where
  receivedLength : Int := 0
  totalLength : Int := 0
  createdAt : Nat
  fragments : List (Option Fragment) := []
  deriving DecidableEq, Repr

/-- A `RangeError` thrown by the typed array. -/
inductive RangeError where
  | rangeError
  deriving DecidableEq, Repr

/-- `u8asm.set(bytes, offset)`. -/
def setBytes (u8asm bytes : Bytes) (offset : Int) : Except RangeError Bytes :=
  if offset < 0 ∨ u8asm.length < offset + bytes.length then .error .rangeError
  else .ok (u8asm.take offset.toNat ++ bytes ++ u8asm.drop (offset.toNat + bytes.length))

namespace Queue

/-- The loop that removes stored fragments inside the new one. -/
def removeContained (queue : Queue) (new : Portion) : Removal :=
  (List.range queue.fragments.length).foldl (Removal.removeAt new)
    ⟨queue.fragments, queue.receivedLength, none⟩

/-- Store the portion in place of the fragments it contains. -/
def store (queue : Queue) (new : Portion) (u8 : Bytes) : Queue :=
  let removal := queue.removeContained new
  let newFragment := new.fragment u8
  { queue with
    receivedLength := removal.receivedLength + newFragment.length
    fragments :=
      match removal.removedIndex with
      | some i => removal.fragments.set i (some newFragment)
      | none => removal.fragments ++ [some newFragment] }

/-- One round of the loop that assembles the datagram. -/
def assembleStep (u8asm : Bytes) : Option Fragment → Except RangeError Bytes
  | none => .ok u8asm
  | some item =>
      setBytes u8asm (subarray item.u8 item.nextOffset (item.nextOffset + item.length)) item.offset

/-- The datagram of a complete queue. `totalLength` is never negative. -/
def assemble (queue : Queue) : Except RangeError Bytes :=
  queue.fragments.foldlM assembleStep (List.replicate queue.totalLength.toNat 0)

end Queue

/-! ## The map of an interface -/

/-- What `addFragment` works with when it has read the header: the key of the datagram, where
the fragment belongs in it, and where its data begins in the buffer. -/
structure Piece where
  hash : String
  fragmentOffset : Nat
  isMoreFragments : Bool
  nextOffset : Nat
  u8 : Bytes

namespace Piece

/-- `u8.length - nextOffset`. -/
def fragmentLength (piece : Piece) : Int := piece.u8.length - piece.nextOffset

/-- `fragmentOffset + fragmentLength`. -/
def fragmentEnd (piece : Piece) : Int := piece.fragmentOffset + piece.fragmentLength

/-- The new fragment before it is cut. -/
def portion (piece : Piece) : Portion := ⟨piece.fragmentOffset, piece.fragmentEnd, piece.nextOffset⟩

end Piece

/-- A call of `addFragment` for a header that is complete: the buffer with the header, and what
`receive` read from it. -/
structure Arrival where
  frame : Frame
  fragmentOffset : Nat
  isMoreFragments : Bool
  deriving DecidableEq, Repr

namespace Arrival

/-- The key of the datagram; the call passes the identification as `protocolId` and the
protocol as `packetId`. -/
def hash (arrival : Arrival) : String :=
  fragmentHash arrival.frame.getSrcIP arrival.frame.getDestIP
    arrival.frame.getIdentification.toNat arrival.frame.getProtocolId.toNat

/-- `u8.length - nextOffset`. -/
def fragmentLength (arrival : Arrival) : Int := arrival.frame.u8.length - arrival.frame.nextOffset

/-- `fragmentOffset + fragmentLength`. -/
def fragmentEnd (arrival : Arrival) : Int := arrival.fragmentOffset + arrival.fragmentLength

/-- The new fragment before it is cut. -/
def portion (arrival : Arrival) : Portion :=
  ⟨arrival.fragmentOffset, arrival.fragmentEnd, arrival.frame.nextOffset⟩

/-- What `addFragment` works with. -/
def piece (arrival : Arrival) : Piece :=
  ⟨arrival.hash, arrival.fragmentOffset, arrival.isMoreFragments, arrival.frame.nextOffset,
    arrival.frame.u8⟩

end Arrival

/-- A call of `ip4receive`. -/
structure Delivery where
  srcIP : IP4Address
  destIP : IP4Address
  protocolId : BitVec 8
  u8 : Bytes
  nextOffset : Nat
  deriving DecidableEq, Repr

/-- `intf.fragments`. -/
abbrev Fragments := AList fun _ : String => Queue

/-- What a call does: the datagram it hands to `ip4receive`, if any, or the exception. -/
abbrev Outcome := Except RangeError (Option Delivery)

namespace Fragments

/-- `intf.fragments.size`. -/
def size (fragments : Fragments) : Nat := fragments.keys.length

/-- The end of `addFragment`: a complete datagram is assembled. -/
def complete (fragments : Fragments) (piece : Piece) (queue : Queue) :
    Fragments × Except RangeError (Option Bytes) :=
  if queue.totalLength = queue.receivedLength then
    match queue.assemble with
    | .error error => (fragments, .error error)
    | .ok u8asm => (fragments.erase piece.hash, .ok (some u8asm))
  else (fragments, .ok none)

/-- `addFragment` after the portion is stored: the check of a last fragment, and assembly. -/
def finish (fragments : Fragments) (piece : Piece) (firstFragment : Bool) (queue : Queue) :
    Fragments × Except RangeError (Option Bytes) :=
  if !piece.isMoreFragments && piece.fragmentEnd < queue.totalLength then
    (if firstFragment then fragments else fragments.insert piece.hash queue, .ok none)
  else
    let queue :=
      if piece.isMoreFragments then queue else { queue with totalLength := piece.fragmentEnd }
    complete (fragments.insert piece.hash queue) piece queue

/-- `addFragment` with the queue of the datagram. -/
def addToQueue (fragments : Fragments) (piece : Piece) (firstFragment : Bool) (queue : Queue) :
    Fragments × Except RangeError (Option Bytes) :=
  if piece.fragmentLength ≤ 0 then (fragments, .ok none)
  else if 0xffff < piece.fragmentEnd then (fragments, .ok none)
  else
    match piece.portion.trim queue.fragments with
    | none => (fragments, .ok none)
    | some new => fragments.finish piece firstFragment (queue.store new piece.u8)

/-- `addFragment` when the header is read, with the datagram that it assembles. -/
def addPiece (fragments : Fragments) (now : Nat) (piece : Piece) :
    Fragments × Except RangeError (Option Bytes) :=
  match fragments.lookup piece.hash with
  | some queue => fragments.addToQueue piece false queue
  | none =>
      if FRAGMENT_QUEUE_MAX_COUNT ≤ fragments.size then (fragments, .ok none)
      else fragments.addToQueue piece true { createdAt := now }

/-- The delivery of a datagram. -/
def delivery (arrival : Arrival) (u8asm : Bytes) : Delivery :=
  ⟨arrival.frame.getSrcIP, arrival.frame.getDestIP, arrival.frame.getProtocolId, u8asm, 0⟩

/-- An assembled datagram is delivered. -/
def deliver (arrival : Arrival) (result : Fragments × Except RangeError (Option Bytes)) :
    Fragments × Outcome :=
  (result.1, result.2.map fun u8asm => u8asm.map (delivery arrival))

/-- `addFragment` for a complete header. -/
def addFragment (fragments : Fragments) (now : Nat) (arrival : Arrival) : Fragments × Outcome :=
  deliver arrival (fragments.addPiece now arrival.piece)

/-- One round of the loop in `tick`. -/
def dropExpired (now : Nat) (fragments : Fragments) (pair : Sigma fun _ : String => Queue) :
    Fragments :=
  if pair.2.createdAt + FRAGMENT_QUEUE_MAX_AGE_MS ≤ now then fragments.erase pair.1 else fragments

/-- `tick`. -/
def tick (fragments : Fragments) (now : Nat) : Fragments :=
  fragments.entries.foldl (dropExpired now) fragments

/-- `handleReceive`. -/
def handleReceive (frame : Frame) : Delivery :=
  ⟨frame.getSrcIP, frame.getDestIP, frame.getProtocolId, frame.u8, frame.nextOffset⟩

/-- What `receive` reads from the header for `addFragment`. -/
def arrival (frame : Frame) : Arrival :=
  ⟨frame, fragmentationDataOffset frame.getFragmentationData,
    fragmentationDataIsMoreFragments frame.getFragmentationData⟩

/-- `receive` for a complete header. -/
def receive (fragments : Fragments) (now : Nat) (frame : Frame) : Fragments × Outcome :=
  if !(arrival frame).isMoreFragments && (arrival frame).fragmentOffset = 0 then
    (fragments, .ok (some (handleReceive frame)))
  else fragments.addFragment now (arrival frame)

/-! ## Runs -/

/-- What happens to the map of an interface, and when. -/
inductive Event where
  | arrive (now : Nat) (arrival : Arrival)
  | tick (now : Nat)

/-- One step of the map. -/
def step (fragments : Fragments) : Event → Fragments
  | .arrive now arrival => (fragments.addFragment now arrival).1
  | .tick now => fragments.tick now

/-- The map after a list of events on a new interface. -/
def after (events : List Event) : Fragments := Transition.run step ∅ events

end Fragments

end JsOS.Net.Ip4
