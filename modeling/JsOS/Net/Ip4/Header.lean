import JsOS.Net.Ip4Address
import JsOS.Net.Tcp.Segment

/-! # IPv4 headers in received buffers

`ip4-header` reads the fields of a header at an offset of the received buffer. All
fields it reads lie in the first twenty bytes. The length of the header is one of the
fields, so that the payload may begin inside these bytes or past the end of the buffer.
-/

namespace JsOS.Net.Ip4

open Tcp (Bytes)

/-- A received buffer that holds the fixed part of an IPv4 header at `headerOffset`. -/
structure Frame where
  u8 : Bytes
  headerOffset : Nat
  header_le : headerOffset + 20 ≤ u8.length
  deriving DecidableEq, Repr

namespace Frame

/-- `u8[headerOffset + index]` for a byte of the fixed part. -/
def byteAt (frame : Frame) (index : Fin 20) : BitVec 8 :=
  (frame.u8.get ⟨frame.headerOffset + index, by
    have := frame.header_le
    omega⟩).toBitVec

/-- `u8view.getUint16BE(u8, headerOffset + index)`. -/
def uint16At (frame : Frame) (index next : Fin 20) : BitVec 16 :=
  frame.byteAt index ++ frame.byteAt next

def getSrcIP (frame : Frame) : IP4Address :=
  ⟨frame.byteAt 12, frame.byteAt 13, frame.byteAt 14, frame.byteAt 15⟩

def getDestIP (frame : Frame) : IP4Address :=
  ⟨frame.byteAt 16, frame.byteAt 17, frame.byteAt 18, frame.byteAt 19⟩

def getProtocolId (frame : Frame) : BitVec 8 := frame.byteAt 9

/-- `(u8[headerOffset] & 0xf) << 2`. -/
def getHeaderLength (frame : Frame) : Nat := (frame.byteAt 0 &&& 0xf).toNat * 4

/-- The total length of the packet, which no function of the source reads. -/
def totalLength (frame : Frame) : Nat := (frame.uint16At 2 3).toNat

def getIdentification (frame : Frame) : BitVec 16 := frame.uint16At 4 5

def getFragmentationData (frame : Frame) : BitVec 16 := frame.uint16At 6 7

/-- `headerOffset + headerLength`. -/
def nextOffset (frame : Frame) : Nat := frame.headerOffset + frame.getHeaderLength

end Frame

/-- `value >>> 13 & 0x1`. -/
def fragmentationDataIsMoreFragments (value : BitVec 16) : Bool := value >>> 13 &&& 1 ≠ 0

/-- `(value & 0x1fff) * 8`. -/
def fragmentationDataOffset (value : BitVec 16) : Nat := (value &&& 0x1fff).toNat * 8

end JsOS.Net.Ip4
