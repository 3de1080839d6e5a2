import JsOS.Net.Arp
import JsOS.Net.Ip4.Fragments

/-! # Received IPv4 packets

`ip4` with the readers of `ip4-header` for any buffer, also one that is too short for the header: a
byte past its end is `undefined`. Numbers of two bytes are read through `u8-view`. For a complete
header this is what is said of frames (`receive_frame`).
-/

namespace JsOS.Net.Ip4

open Arp (byteAt ipAt)
open Tcp (Bytes)

/-! ## Headers -/

section Header

variable (view : U8View) (u8 : Bytes) (headerOffset : Nat)

def getSrcIP : IP4Address := ipAt u8 (headerOffset + 12)

def getDestIP : IP4Address := ipAt u8 (headerOffset + 16)

def getProtocolId : Option UInt8 := u8[headerOffset + 9]?

/-- `(u8[headerOffset] & 0xf) << 2`. -/
def getHeaderLength : Nat := ((byteAt u8 headerOffset).toBitVec &&& 0xf).toNat * 4

def getFragmentationData : Option (BitVec 16) := view.getUint16BE u8 (headerOffset + 6)

def getIdentification : Option (BitVec 16) := view.getUint16BE u8 (headerOffset + 4)

end Header

/-- The key of a datagram. If there is no protocol, the number at its end is not one. -/
def keyOf (srcIP destIP : IP4Address) (packetId : BitVec 16) : Option UInt8 → String
  | some protocolId => fragmentHash srcIP destIP packetId.toNat protocolId.toNat
  | none => toString srcIP.toInteger.toNat ++ "-" ++ toString destIP.toInteger.toNat ++ "-NaN"

/-! ## Receiving -/

/-- A call of `ip4receive`. -/
structure Payload where
  srcIP : IP4Address
  destIP : IP4Address
  protocolId : Option UInt8
  u8 : Bytes
  nextOffset : Nat
  deriving DecidableEq, Repr

/-- What can be thrown: whatever `u8-view` throws past the end of a buffer, and the error of a
typed array. -/
inductive Thrown where
  | u8View
  | rangeError
  deriving DecidableEq, Repr

/-- `handleReceive`. -/
def handleReceive (u8 : Bytes) (headerOffset : Nat) : Payload where
  srcIP := getSrcIP u8 headerOffset
  destIP := getDestIP u8 headerOffset
  protocolId := getProtocolId u8 headerOffset
  u8 := u8
  nextOffset := headerOffset + getHeaderLength u8 headerOffset

/-- What `addFragment` works with. -/
def pieceOf (u8 : Bytes) (headerOffset fragmentOffset : Nat) (isMoreFragments : Bool)
    (packetId : BitVec 16) : Piece where
  hash := keyOf (getSrcIP u8 headerOffset) (getDestIP u8 headerOffset) packetId
    (getProtocolId u8 headerOffset)
  fragmentOffset := fragmentOffset
  isMoreFragments := isMoreFragments
  nextOffset := headerOffset + getHeaderLength u8 headerOffset
  u8 := u8

/-- An assembled datagram is handed on with what stands in the header of the last fragment. -/
def reassembled (u8 : Bytes) (headerOffset : Nat) (u8asm : Bytes) : Payload where
  srcIP := getSrcIP u8 headerOffset
  destIP := getDestIP u8 headerOffset
  protocolId := getProtocolId u8 headerOffset
  u8 := u8asm
  nextOffset := 0

/-- `addFragment`. -/
def addFragment (view : U8View) (fragments : Fragments) (now : Nat) (u8 : Bytes)
    (headerOffset fragmentOffset : Nat) (isMoreFragments : Bool) :
    Fragments × Except Thrown (Option Payload) :=
  match getIdentification view u8 headerOffset with
  | none => (fragments, .error .u8View)
  | some packetId =>
      match fragments.addPiece now
        (pieceOf u8 headerOffset fragmentOffset isMoreFragments packetId) with
      | (fragments, .error _) => (fragments, .error .rangeError)
      | (fragments, .ok u8asm) => (fragments, .ok (u8asm.map (reassembled u8 headerOffset)))

/-- Whether a packet is the only one of its datagram. -/
def isWhole (fragmentData : BitVec 16) : Bool :=
  !fragmentationDataIsMoreFragments fragmentData && fragmentationDataOffset fragmentData = 0

/-- `receive`. -/
def receive (view : U8View) (fragments : Fragments) (now : Nat) (u8 : Bytes) (headerOffset : Nat) :
    Fragments × Except Thrown (Option Payload) :=
  match getFragmentationData view u8 headerOffset with
  | none => (fragments, .error .u8View)
  | some fragmentData =>
      if isWhole fragmentData then (fragments, .ok (some (handleReceive u8 headerOffset)))
      else
        addFragment view fragments now u8 headerOffset (fragmentationDataOffset fragmentData)
          (fragmentationDataIsMoreFragments fragmentData)

/-! ## Complete headers -/

namespace Frame

variable (frame : Frame)

theorem getElem?_byteAt (index : Fin 20) :
    frame.u8[frame.headerOffset + index]? = some ⟨frame.byteAt index⟩ := by
  have inside := frame.header_le
  rw [List.getElem?_eq_getElem (by omega)]
  rfl

theorem byteAt_eq (index : Fin 20) :
    (Arp.byteAt frame.u8 (frame.headerOffset + index)).toBitVec = frame.byteAt index := by
  rw [Arp.byteAt, frame.getElem?_byteAt index]
  rfl

/-- Two bytes of the header, read through `u8-view`. -/
theorem getUint16BE_eq {view : U8View} (documented : view.BigEndian) (index next : Fin 20)
    (follows : next.val = index + 1) :
    view.getUint16BE frame.u8 (frame.headerOffset + index) = some (frame.uint16At index next) := by
  refine documented.getUint16BE_at (frame.getElem?_byteAt index) ?_
  rw [Nat.add_assoc, ← follows]
  exact frame.getElem?_byteAt next

theorem getSrcIP_eq : Ip4.getSrcIP frame.u8 frame.headerOffset = frame.getSrcIP := by
  unfold Ip4.getSrcIP ipAt Frame.getSrcIP
  rw [← frame.byteAt_eq 12, ← frame.byteAt_eq 13, ← frame.byteAt_eq 14, ← frame.byteAt_eq 15]
  rfl

theorem getDestIP_eq : Ip4.getDestIP frame.u8 frame.headerOffset = frame.getDestIP := by
  unfold Ip4.getDestIP ipAt Frame.getDestIP
  rw [← frame.byteAt_eq 16, ← frame.byteAt_eq 17, ← frame.byteAt_eq 18, ← frame.byteAt_eq 19]
  rfl

theorem getProtocolId_eq :
    Ip4.getProtocolId frame.u8 frame.headerOffset = some ⟨frame.getProtocolId⟩ :=
  frame.getElem?_byteAt 9

theorem getHeaderLength_eq :
    Ip4.getHeaderLength frame.u8 frame.headerOffset = frame.getHeaderLength := by
  unfold Ip4.getHeaderLength Frame.getHeaderLength
  rw [← frame.byteAt_eq 0]
  rfl

end Frame

/-- The arguments of `ip4receive`. -/
def Delivery.payload (delivery : Delivery) : Payload :=
  ⟨delivery.srcIP, delivery.destIP, some ⟨delivery.protocolId⟩, delivery.u8, delivery.nextOffset⟩

/-- What the outcome for a frame is for its buffer. -/
def ofOutcome : Outcome → Except Thrown (Option Payload)
  | .error _ => .error .rangeError
  | .ok delivery => .ok (delivery.map Delivery.payload)

/-- **A buffer with a complete header** is received as the frame that it is. -/
theorem receive_frame {view : U8View} (documented : view.BigEndian) (fragments : Fragments)
    (now : Nat) (frame : Frame) :
    receive view fragments now frame.u8 frame.headerOffset =
      ((fragments.receive now frame).1, ofOutcome (fragments.receive now frame).2) := by
  have data : getFragmentationData view frame.u8 frame.headerOffset =
      some frame.getFragmentationData := frame.getUint16BE_eq documented 6 7 rfl
  have identification : getIdentification view frame.u8 frame.headerOffset =
      some frame.getIdentification := frame.getUint16BE_eq documented 4 5 rfl
  unfold receive Fragments.receive
  rw [data]
  dsimp only
  by_cases whole : isWhole frame.getFragmentationData
  · have whole' : (!(Fragments.arrival frame).isMoreFragments &&
        (Fragments.arrival frame).fragmentOffset = 0) = true := whole
    rw [if_pos whole, if_pos whole']
    simp only [ofOutcome, Option.map_some, handleReceive, Fragments.handleReceive,
      Delivery.payload, frame.getSrcIP_eq, frame.getDestIP_eq, frame.getProtocolId_eq,
      frame.getHeaderLength_eq, Frame.nextOffset]
  · have whole' : ¬(!(Fragments.arrival frame).isMoreFragments &&
        (Fragments.arrival frame).fragmentOffset = 0) = true := whole
    have piece : pieceOf frame.u8 frame.headerOffset
        (fragmentationDataOffset frame.getFragmentationData)
        (fragmentationDataIsMoreFragments frame.getFragmentationData) frame.getIdentification =
          (Fragments.arrival frame).piece := by
      simp only [pieceOf, keyOf, frame.getSrcIP_eq, frame.getDestIP_eq, frame.getProtocolId_eq,
        frame.getHeaderLength_eq]
      rfl
    rw [if_neg whole, if_neg whole']
    unfold addFragment Fragments.addFragment Fragments.deliver
    rw [identification]
    dsimp only
    rw [piece]
    obtain ⟨fragments, result⟩ := fragments.addPiece now (Fragments.arrival frame).piece
    cases result with
    | error error => rfl
    | ok u8asm =>
        cases u8asm with
        | none => rfl
        | some u8asm =>
            simp only [Except.map, Option.map_some, ofOutcome, Delivery.payload, reassembled,
              Fragments.delivery, frame.getSrcIP_eq, frame.getDestIP_eq, frame.getProtocolId_eq]
            rfl

end JsOS.Net.Ip4
