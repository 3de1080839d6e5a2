import JsOS.Net.Route
import JsOS.Net.U8View

/-! # ICMP echo requests

`icmp-header`, and the reply to an echo request in `icmp`. A request is answered on the
interface that received it, with the data it carries.
-/

namespace JsOS.Net.Icmp

open Tcp (Bytes)

/-! ## Headers -/

/-- `headerLength`. -/
def headerLength : Nat := 8

/-- `ICMP_TYPE_ECHO_REPLY`. -/
def ICMP_TYPE_ECHO_REPLY : UInt8 := 0

/-- `ICMP_TYPE_ECHO_REQUEST`. -/
def ICMP_TYPE_ECHO_REQUEST : UInt8 := 8

/-- `getType`; a byte past the end of the buffer is `undefined`. -/
def getType (u8 : Bytes) (headerOffset : Nat) : Option UInt8 := u8[headerOffset]?

def getEchoRequestIdentifier (view : U8View) (u8 : Bytes) (headerOffset : Nat) :
    Option (BitVec 16) :=
  view.getUint16BE u8 (headerOffset + 4)

def getEchoRequestSequence (view : U8View) (u8 : Bytes) (headerOffset : Nat) :
    Option (BitVec 16) :=
  view.getUint16BE u8 (headerOffset + 6)

/-- `headerValueEcho`. -/
def headerValueEcho (id seq : BitVec 16) : BitVec 32 := id ++ seq

/-! ## Replies -/

/-- A call of `icmpTransmit` with its arguments. -/
structure Transmit (Interface : Type) where
  intf : Interface
  destIP : IP4Address
  viaIP : Option IP4Address
  type : UInt8
  code : UInt8
  headerValue : BitVec 32
  u8data : Bytes
  deriving DecidableEq

variable {Interface : Type} [DecidableEq Interface]

/-- `handleEchoRequest`: the packet it transmits, if any. -/
def handleEchoRequest (view : U8View) (table : Route.Table Interface) (intf : Interface)
    (srcIP : IP4Address) (u8 : Bytes) (headerOffset : Nat) : Option (Transmit Interface) :=
  if srcIP.isBroadcast || srcIP.isAny then none
  else
    match Route.lookup table srcIP none with
    | none => none
    | some routingEntry =>
        match getEchoRequestIdentifier view u8 headerOffset,
          getEchoRequestSequence view u8 headerOffset with
        | some id, some seq =>
            some ⟨intf, srcIP, routingEntry.gateway, ICMP_TYPE_ECHO_REPLY, 0,
              headerValueEcho id seq, u8.drop (headerOffset + headerLength)⟩
        | _, _ => none

/-- A reply goes out on the receiving interface to the gateway of the entry found for the
source among those of all interfaces. -/
theorem handleEchoRequest_eq_some {view : U8View} {table : Route.Table Interface}
    {intf : Interface} {srcIP : IP4Address} {u8 : Bytes} {headerOffset : Nat}
    {reply : Transmit Interface}
    (sent : handleEchoRequest view table intf srcIP u8 headerOffset = some reply) :
    srcIP.isAny = false ∧ reply.intf = intf ∧ reply.destIP = srcIP ∧
      ∃ entry, Route.Longest table srcIP none entry ∧ reply.viaIP = entry.gateway := by
  unfold handleEchoRequest at sent
  split at sent
  · cases sent
  · next proper =>
      rw [Bool.or_eq_true, not_or, Bool.not_eq_true, Bool.not_eq_true] at proper
      cases found : Route.lookup table srcIP none with
      | none =>
          rw [found] at sent
          cases sent
      | some entry =>
          rw [found] at sent
          dsimp only at sent
          split at sent
          · cases sent
            exact ⟨proper.2, rfl, rfl, entry, (Route.lookup_eq_some_iff ..).mp found, rfl⟩
          · cases sent

/-- **Every request is answered** whose source is a proper address with a route to it. -/
theorem handleEchoRequest_isSome {view : U8View} (documented : view.BigEndian)
    {table : Route.Table Interface} (intf : Interface) {srcIP : IP4Address}
    (single : srcIP.isBroadcast = false) (known : srcIP.isAny = false)
    {entry : Route.Entry Interface} (longest : Route.Longest table srcIP none entry)
    (front back : Bytes) (a b c d e f g h : UInt8) :
    handleEchoRequest view table intf srcIP (front ++ [a, b, c, d, e, f, g, h] ++ back)
      front.length = some ⟨intf, srcIP, entry.gateway, ICMP_TYPE_ECHO_REPLY, 0,
        headerValueEcho (e.toBitVec ++ f.toBitVec) (g.toBitVec ++ h.toBitVec), back⟩ := by
  have identifier := documented.getUint16BE (front ++ [a, b, c, d]) ([g, h] ++ back) e f
  have sequence := documented.getUint16BE (front ++ [a, b, c, d, e, f]) back g h
  have data : (front ++ [a, b, c, d, e, f, g, h] ++ back).drop (front.length + headerLength) =
      back := by
    have whole : front.length + headerLength = (front ++ [a, b, c, d, e, f, g, h]).length := by
      rw [List.length_append]
      rfl
    rw [whole, List.drop_left]
  rw [List.length_append] at identifier sequence
  simp only [List.append_assoc, List.cons_append, List.nil_append] at identifier sequence data ⊢
  unfold handleEchoRequest getEchoRequestIdentifier getEchoRequestSequence
  rw [single, known, (Route.lookup_eq_some_iff ..).mpr longest]
  dsimp only [Bool.or_false, Bool.false_eq_true, ↓reduceIte]
  rw [show front.length + 4 = front.length + [a, b, c, d].length from rfl, identifier,
    show front.length + 6 = front.length + [a, b, c, d, e, f].length from rfl, sequence, data]
  rfl

end JsOS.Net.Icmp
