import JsOS.Net.Ethernet
import JsOS.Net.U8View
import Mathlib.Data.List.AList

/-! # ARP

`arp-header`, `arp-transmit` and `ARPResolver`: an interface asks for the MAC address of an
IP address with a broadcast frame, the interface with that address replies, and the reply
goes into the table of the one that asked. A reply is built from what the resolver passes
on, which is the address asked for where the address of the asker belongs
(`exchange_iff`).
-/

namespace JsOS.Net.Arp

open Tcp (Bytes)

/-- `hash` of an address, its first part least significant. -/
def hash (ip : IP4Address) : BitVec 32 :=
  ip.a.setWidth 32 ||| ip.b.setWidth 32 <<< 8 ||| ip.c.setWidth 32 <<< 16 |||
    ip.d.setWidth 32 <<< 24

/-- Different addresses have different hashes. -/
theorem hash_injective : Function.Injective hash := by
  have swap (a b c d : BitVec 32) : a ||| b ||| c ||| d = d ||| c ||| b ||| a := by
    rw [BitVec.or_comm (a ||| b ||| c), BitVec.or_comm (a ||| b), BitVec.or_comm a,
      ← BitVec.or_assoc, ← BitVec.or_assoc]
  have reversed (ip : IP4Address) : hash ip = IP4Address.toInteger ⟨ip.d, ip.c, ip.b, ip.a⟩ :=
    swap _ _ _ _
  intro first second same
  rw [reversed, reversed] at same
  have parts := IP4Address.toInteger_injective same
  cases first
  cases second
  cases parts
  rfl

/-! ## Headers -/

/-- The size of an Ethernet header. -/
def ethernetHeaderLength : Nat := 14

/-- `headerLength`. -/
def headerLength : Nat := 28

/-- `HARDWARE_TYPE_ETHERNET`. -/
def HARDWARE_TYPE_ETHERNET : Nat := 1

/-- `PROTOCOL_IP4`. -/
def PROTOCOL_IP4 : Nat := 0x0800

/-- `ETHERTYPE_ARP`. -/
def ETHERTYPE_ARP : Nat := 0x0806

/-- `OPERATION_REQEUST`. -/
def OPERATION_REQEUST : BitVec 16 := 1

/-- `OPERATION_REPLY`. -/
def OPERATION_REPLY : BitVec 16 := 2

/-- `u8[index]` as a part of an address; `undefined`, past the end, becomes 0 there. -/
def byteAt (u8 : Bytes) (index : Nat) : UInt8 := (u8[index]?).getD 0

def macAt (u8 : Bytes) (offset : Nat) : MACAddress :=
  ⟨byteAt u8 offset, byteAt u8 (offset + 1), byteAt u8 (offset + 2), byteAt u8 (offset + 3),
    byteAt u8 (offset + 4), byteAt u8 (offset + 5)⟩

def ipAt (u8 : Bytes) (offset : Nat) : IP4Address :=
  ⟨(byteAt u8 offset).toBitVec, (byteAt u8 (offset + 1)).toBitVec,
    (byteAt u8 (offset + 2)).toBitVec, (byteAt u8 (offset + 3)).toBitVec⟩

def getSrcMAC (u8 : Bytes) (headerOffset : Nat) : MACAddress := macAt u8 (headerOffset + 8)

def getSrcIP (u8 : Bytes) (headerOffset : Nat) : IP4Address := ipAt u8 (headerOffset + 14)

def getTargetMAC (u8 : Bytes) (headerOffset : Nat) : MACAddress := macAt u8 (headerOffset + 18)

def getTargetIP (u8 : Bytes) (headerOffset : Nat) : IP4Address := ipAt u8 (headerOffset + 24)

def getOperation (view : U8View) (u8 : Bytes) (headerOffset : Nat) : Option (BitVec 16) :=
  view.getUint16BE u8 (headerOffset + 6)

/-- The bytes of a MAC address. -/
def macBytes (mac : MACAddress) : Bytes := [mac.a, mac.b, mac.c, mac.d, mac.e, mac.f]

@[simp] theorem length_macBytes (mac : MACAddress) : (macBytes mac).length = 6 := rfl

/-- The bytes of an IP address. -/
def ipBytes (ip : IP4Address) : Bytes := [⟨ip.a⟩, ⟨ip.b⟩, ⟨ip.c⟩, ⟨ip.d⟩]

@[simp] theorem length_ipBytes (ip : IP4Address) : (ipBytes ip).length = 4 := rfl

/-- `ethernet.write`. -/
def ethernetWrite (view : U8View) (u8 : Bytes) (headerOffset : Nat) (destMAC srcMAC : MACAddress)
    (etherType : Nat) : Bytes :=
  let u8 := Buffer.store u8 headerOffset (macBytes destMAC)
  let u8 := Buffer.store u8 (headerOffset + 6) (macBytes srcMAC)
  view.setUint16BE u8 (headerOffset + 12) etherType

/-- `arpHeader.write`. -/
def write (view : U8View) (u8 : Bytes) (headerOffset : Nat) (operation : BitVec 16)
    (srcMAC : MACAddress) (srcIP : IP4Address) (targetMAC : MACAddress) (targetIP : IP4Address) :
    Bytes :=
  let u8 := view.setUint16BE u8 headerOffset HARDWARE_TYPE_ETHERNET
  let u8 := view.setUint16BE u8 (headerOffset + 2) PROTOCOL_IP4
  let u8 := Buffer.store u8 (headerOffset + 4) [6, 4]
  let u8 := view.setUint16BE u8 (headerOffset + 6) operation.toNat
  let u8 := Buffer.store u8 (headerOffset + 8) (macBytes srcMAC)
  let u8 := Buffer.store u8 (headerOffset + 14) (ipBytes srcIP)
  let u8 := Buffer.store u8 (headerOffset + 18) (macBytes targetMAC)
  Buffer.store u8 (headerOffset + 24) (ipBytes targetIP)

/-! ## The resolver -/

/-- What `ARPResolver` uses of its interface, with its `table`. -/
structure Interface where
  macAddr : MACAddress
  ipAddr : IP4Address
  bufferDataOffset : Nat
  table : AList fun _ : BitVec 32 => MACAddress

/-- `arpTransmit`: the array that goes to `sendRaw`. -/
def arpTransmit (view : U8View) (intf : Interface) (operation : BitVec 16) (srcMAC : MACAddress)
    (srcIP : IP4Address) (targetMAC : MACAddress) (targetIP : IP4Address) : Bytes :=
  let ethOffset := intf.bufferDataOffset
  let arpOffset := ethOffset + ethernetHeaderLength
  let len := arpOffset + headerLength
  let u8 := List.replicate len 0
  let u8 := ethernetWrite view u8 ethOffset .BROADCAST intf.macAddr ETHERTYPE_ARP
  write view u8 arpOffset operation srcMAC srcIP targetMAC targetIP

namespace Interface

/-- `request`. -/
def request (view : U8View) (intf : Interface) (targetIP : IP4Address) : Bytes :=
  arpTransmit view intf OPERATION_REQEUST intf.macAddr intf.ipAddr .ZERO targetIP

/-- `reply`. -/
def reply (view : U8View) (intf : Interface) (targetMAC : MACAddress) (targetIP : IP4Address) :
    Bytes :=
  arpTransmit view intf OPERATION_REPLY intf.macAddr intf.ipAddr targetMAC targetIP

/-- `get`. -/
def get (intf : Interface) (ip : IP4Address) : Option MACAddress := intf.table.lookup (hash ip)

/-- `receive`, with the frames it transmits. It does nothing if the packet is too short to
have an operation. -/
def receive (view : U8View) (intf : Interface) (u8 : Bytes) (headerOffset : Nat) :
    Interface × List Bytes :=
  match getOperation view u8 headerOffset with
  | none => (intf, [])
  | some operation =>
      let srcMAC := getSrcMAC u8 headerOffset
      let srcIP := getSrcIP u8 headerOffset
      let targetIP := getTargetIP u8 headerOffset
      let selfIP := intf.ipAddr
      if operation = OPERATION_REQEUST then
        if selfIP ≠ .ANY ∧ selfIP = targetIP then (intf, [intf.reply view srcMAC targetIP])
        else (intf, [])
      else if operation = OPERATION_REPLY then
        ({ intf with table := intf.table.insert (hash srcIP) srcMAC }, [])
      else (intf, [])

end Interface

/-! ## The frames -/

/-- What a frame holds from the Ethernet header on. -/
def frameBytes (srcEthernet : MACAddress) (operation : BitVec 16) (srcMAC : MACAddress)
    (srcIP : IP4Address) (targetMAC : MACAddress) (targetIP : IP4Address) : Bytes :=
  macBytes .BROADCAST ++ macBytes srcEthernet ++ U8View.uint16BE ETHERTYPE_ARP ++
    (U8View.uint16BE HARDWARE_TYPE_ETHERNET ++ U8View.uint16BE PROTOCOL_IP4 ++ [6, 4] ++
      U8View.uint16BE operation.toNat ++ macBytes srcMAC ++ ipBytes srcIP ++ macBytes targetMAC ++
      ipBytes targetIP)

/-- **The layout of a transmitted frame.** -/
theorem arpTransmit_eq {view : U8View} (documented : view.BigEndian) (intf : Interface)
    (operation : BitVec 16) (srcMAC : MACAddress) (srcIP : IP4Address) (targetMAC : MACAddress)
    (targetIP : IP4Address) :
    arpTransmit view intf operation srcMAC srcIP targetMAC targetIP =
      List.replicate intf.bufferDataOffset 0 ++
        frameBytes intf.macAddr operation srcMAC srcIP targetMAC targetIP := by
  have fresh : List.replicate (intf.bufferDataOffset + 14 + headerLength) (0 : UInt8) =
      List.replicate intf.bufferDataOffset 0 ++ List.replicate 42 0 := by
    rw [List.replicate_append_replicate]
    rfl
  unfold arpTransmit ethernetWrite write ethernetHeaderLength
  dsimp only
  rw [fresh, Buffer.store_fill 0 _ 36 (by simp) (by rfl), Buffer.store_fill 0 _ 30 (by simp) (by rfl),
    documented.setUint16BE_fill _ 28 (by simp) (by rfl) (by decide),
    documented.setUint16BE_fill _ 26 (by simp) (by rfl) (by decide),
    documented.setUint16BE_fill _ 24 (by simp) (by rfl) (by decide),
    Buffer.store_fill 0 _ 22 (by simp) (by rfl),
    documented.setUint16BE_fill _ 20 (by simp) (by rfl) operation.isLt,
    Buffer.store_fill 0 _ 14 (by simp) (by rfl), Buffer.store_fill 0 _ 10 (by simp) (by rfl),
    Buffer.store_fill 0 _ 4 (by simp) (by rfl), Buffer.store_fill 0 _ 0 (by simp) (by rfl)]
  simp only [frameBytes, List.replicate_zero, List.append_nil, List.append_assoc]

/-! ## Reading a frame -/

section Reading

variable (front padding : Bytes) (srcEthernet : MACAddress) (operation : BitVec 16)
  (srcMAC : MACAddress) (srcIP : IP4Address) (targetMAC : MACAddress) (targetIP : IP4Address)

theorem byteAt_append (rest : Bytes) (index : Nat) :
    byteAt (front ++ rest) (front.length + index) = byteAt rest index := by
  unfold byteAt
  rw [List.getElem?_append_right (Nat.le_add_right _ _), Nat.add_sub_cancel_left]

/-- A frame as it stands in a buffer, with what surrounds it there. -/
def received : Bytes :=
  front ++ (frameBytes srcEthernet operation srcMAC srcIP targetMAC targetIP ++ padding)

/-- **Every field is read as it was written**, wherever the frame stands. -/
theorem fields_received {view : U8View} (documented : view.BigEndian) :
    getOperation view (received front padding srcEthernet operation srcMAC srcIP targetMAC targetIP)
        (front.length + 14) = some operation ∧
      getSrcMAC (received front padding srcEthernet operation srcMAC srcIP targetMAC targetIP)
        (front.length + 14) = srcMAC ∧
      getSrcIP (received front padding srcEthernet operation srcMAC srcIP targetMAC targetIP)
        (front.length + 14) = srcIP ∧
      getTargetMAC (received front padding srcEthernet operation srcMAC srcIP targetMAC targetIP)
        (front.length + 14) = targetMAC ∧
      getTargetIP (received front padding srcEthernet operation srcMAC srcIP targetMAC targetIP)
        (front.length + 14) = targetIP := by
  unfold getSrcMAC getSrcIP getTargetMAC getTargetIP macAt ipAt received
  refine ⟨?_, ?_, ?_, ?_, ?_⟩
  · have at20 (index : Nat) : (front ++ (frameBytes srcEthernet operation srcMAC srcIP targetMAC
        targetIP ++ padding))[front.length + 14 + index]? = (frameBytes srcEthernet operation
          srcMAC srcIP targetMAC targetIP ++ padding)[14 + index]? := by
      rw [Nat.add_assoc, List.getElem?_append_right (Nat.le_add_right _ _),
        Nat.add_sub_cancel_left]
    unfold getOperation
    rw [documented.getUint16BE_at ((at20 6).trans rfl) ((at20 7).trans rfl)]
    exact congrArg some (U8View.uint16BE_append operation)
  · simp only [Nat.add_assoc, byteAt_append]
    rfl
  · simp only [Nat.add_assoc, byteAt_append]
    rfl
  · simp only [Nat.add_assoc, byteAt_append]
    rfl
  · simp only [Nat.add_assoc, byteAt_append]
    rfl

end Reading

/-! ## The exchange -/

/-- A frame that one interface transmits, as it stands in a buffer of another one. -/
def Arrives (sender : Interface) (frame : Bytes) (receiver : Interface) (u8 : Bytes) : Prop :=
  ∃ front padding, front.length = receiver.bufferDataOffset ∧
    u8 = front ++ (frame.drop sender.bufferDataOffset ++ padding)

/-- The first interface asks for the address of the second, which sends one reply. It is
from the second interface, for the MAC address of the first and the IP address given.
After that the first interface knows the MAC address of the second, and of any other
address what it knew before. Nothing is sent when it asks for another address. -/
def Exchange (view : U8View) (first second : Interface) (replyTarget : IP4Address) : Prop :=
  (∀ u8, Arrives first (first.request view second.ipAddr) second u8 →
    ∃ reply, second.receive view u8 (second.bufferDataOffset + ethernetHeaderLength) =
        (second, [reply]) ∧
      ∀ back, Arrives second reply first back →
        getOperation view back (first.bufferDataOffset + ethernetHeaderLength) =
            some OPERATION_REPLY ∧
          getSrcMAC back (first.bufferDataOffset + ethernetHeaderLength) = second.macAddr ∧
          getSrcIP back (first.bufferDataOffset + ethernetHeaderLength) = second.ipAddr ∧
          getTargetMAC back (first.bufferDataOffset + ethernetHeaderLength) = first.macAddr ∧
          getTargetIP back (first.bufferDataOffset + ethernetHeaderLength) = replyTarget ∧
          ∃ after, first.receive view back (first.bufferDataOffset + ethernetHeaderLength) =
              (after, []) ∧
            after.get second.ipAddr = some second.macAddr ∧
            ∀ ip, ip ≠ second.ipAddr → after.get ip = first.get ip) ∧
  ∀ targetIP, targetIP ≠ second.ipAddr →
    ∀ u8, Arrives first (first.request view targetIP) second u8 →
      second.receive view u8 (second.bufferDataOffset + ethernetHeaderLength) = (second, [])

section Exchange

variable {view : U8View} (documented : view.BigEndian) {sender receiver : Interface} {u8 : Bytes}

include documented in
/-- What arrives is a frame in a buffer. -/
theorem Arrives.received {operation : BitVec 16} {srcMAC : MACAddress} {srcIP : IP4Address}
    {targetMAC : MACAddress} {targetIP : IP4Address}
    (arrives : Arrives sender
      (arpTransmit view sender operation srcMAC srcIP targetMAC targetIP) receiver u8) :
    ∃ front padding, front.length = receiver.bufferDataOffset ∧
      u8 = received front padding sender.macAddr operation srcMAC srcIP targetMAC targetIP := by
  obtain ⟨front, padding, offset, rfl⟩ := arrives
  refine ⟨front, padding, offset, ?_⟩
  rw [arpTransmit_eq documented, List.drop_left' List.length_replicate]
  rfl

include documented in
/-- **A request is answered by the interface with the address**, and by no other. -/
theorem receive_request (known : receiver.ipAddr ≠ .ANY) (targetIP : IP4Address)
    (arrives : Arrives sender (sender.request view targetIP) receiver u8) :
    receiver.receive view u8 (receiver.bufferDataOffset + ethernetHeaderLength) =
      if receiver.ipAddr = targetIP then
        (receiver, [receiver.reply view sender.macAddr receiver.ipAddr])
      else (receiver, []) := by
  obtain ⟨front, padding, offset, rfl⟩ := Arrives.received documented arrives
  obtain ⟨operation, srcMAC, srcIP, targetMAC, target⟩ := fields_received front padding
    sender.macAddr OPERATION_REQEUST sender.macAddr sender.ipAddr .ZERO targetIP documented
  unfold Interface.receive ethernetHeaderLength
  rw [← offset, operation]
  dsimp only
  rw [if_pos rfl, srcMAC, target]
  by_cases own : receiver.ipAddr = targetIP
  · rw [if_pos ⟨known, own⟩, if_pos own, own]
  · rw [if_neg fun both => own both.2, if_neg own]

include documented in
/-- **A reply goes into the table** under the address of its sender. -/
theorem receive_reply {targetMAC : MACAddress} {targetIP : IP4Address}
    (arrives : Arrives sender (sender.reply view targetMAC targetIP) receiver u8) :
    receiver.receive view u8 (receiver.bufferDataOffset + ethernetHeaderLength) =
      ({ receiver with table := receiver.table.insert (hash sender.ipAddr) sender.macAddr }, []) := by
  obtain ⟨front, padding, offset, rfl⟩ := Arrives.received documented arrives
  obtain ⟨operation, srcMAC, srcIP, -, -⟩ := fields_received front padding
    sender.macAddr OPERATION_REPLY sender.macAddr sender.ipAddr targetMAC targetIP documented
  unfold Interface.receive ethernetHeaderLength
  rw [← offset, operation]
  dsimp only
  rw [if_neg (by decide), if_pos rfl, srcMAC, srcIP]

include documented in
/-- The exchange takes place with the address that was asked for as the target of the reply. -/
theorem exchange_target {first second : Interface} (known : second.ipAddr ≠ .ANY)
    (target : IP4Address) : Exchange view first second target ↔ target = second.ipAddr := by
  have answered (u8 : Bytes) (arrives : Arrives first (first.request view second.ipAddr) second u8) :=
    (receive_request documented known second.ipAddr arrives).trans (if_pos rfl)
  constructor
  · rintro ⟨replies, -⟩
    obtain ⟨front, size⟩ : ∃ front : Bytes, front.length = second.bufferDataOffset :=
      ⟨List.replicate _ 0, List.length_replicate⟩
    have arrives : Arrives first (first.request view second.ipAddr) second _ :=
      ⟨front, [], size, rfl⟩
    obtain ⟨reply, sent, fields⟩ := replies _ arrives
    rw [answered _ arrives] at sent
    obtain rfl : second.reply view first.macAddr second.ipAddr = reply :=
      List.head_eq_of_cons_eq (congrArg Prod.snd sent)
    obtain ⟨back, backSize⟩ : ∃ front : Bytes, front.length = first.bufferDataOffset :=
      ⟨List.replicate _ 0, List.length_replicate⟩
    have returns : Arrives second (second.reply view first.macAddr second.ipAddr) first _ :=
      ⟨back, [], backSize, rfl⟩
    obtain ⟨-, -, -, -, targetIP, -⟩ := fields _ returns
    obtain ⟨around, padding, offset, same⟩ := Arrives.received documented returns
    rw [← targetIP, same, ← offset]
    exact (fields_received around padding second.macAddr OPERATION_REPLY second.macAddr
      second.ipAddr first.macAddr second.ipAddr documented).2.2.2.2
  · rintro rfl
    refine ⟨fun u8 arrives => ⟨_, answered u8 arrives, fun back returns => ?_⟩,
      fun targetIP other u8 arrives => ?_⟩
    · have learned := receive_reply documented returns
      obtain ⟨around, padding, offset, same⟩ := Arrives.received documented returns
      have fields := fields_received around padding second.macAddr OPERATION_REPLY second.macAddr
        second.ipAddr first.macAddr second.ipAddr documented
      rw [← same, offset] at fields
      refine ⟨fields.1, fields.2.1, fields.2.2.1, fields.2.2.2.1, fields.2.2.2.2, _, learned,
        AList.lookup_insert _, fun ip other => ?_⟩
      exact AList.lookup_insert_ne fun clash => other (hash_injective clash)
    · rw [receive_request documented known targetIP arrives, if_neg (Ne.symm other)]

/-- **The reply names the wrong target.** Of two interfaces with addresses, one asks for the
MAC address of the other and learns it from a single reply, but the reply names the one that
asked as its target exactly if the two have the same IP address. -/
theorem exchange_iff (view : U8View) (documented : view.BigEndian) (first second : Interface)
    (known : first.ipAddr ≠ .ANY ∧ second.ipAddr ≠ .ANY) :
    (Exchange view first second first.ipAddr ↔ first.ipAddr = second.ipAddr) ∧
      Exchange view first second second.ipAddr :=
  ⟨exchange_target documented known.2 _, (exchange_target documented known.2 _).mpr rfl⟩

/-- Two interfaces of one network. -/
def twoHosts : Interface × Interface :=
  (⟨⟨2, 0, 0, 0, 0, 1⟩, ⟨10, 0, 0, 1⟩, 0, ∅⟩, ⟨⟨2, 0, 0, 0, 0, 2⟩, ⟨10, 0, 0, 2⟩, 12, ∅⟩)

theorem exchange_iff_twoHosts :
    (twoHosts.1.ipAddr ≠ .ANY ∧ twoHosts.2.ipAddr ≠ .ANY) ∧
      (Exchange .byteByByte twoHosts.1 twoHosts.2 twoHosts.1.ipAddr ↔
        twoHosts.1.ipAddr = twoHosts.2.ipAddr) ∧
      Exchange .byteByByte twoHosts.1 twoHosts.2 twoHosts.2.ipAddr :=
  ⟨by decide, exchange_iff .byteByByte U8View.byteByByte_bigEndian twoHosts.1 twoHosts.2
    (by decide)⟩

/-- The reply to 10.0.0.1 names 10.0.0.2 as its target. -/
theorem reply_names_sender : ∃ reply : Bytes,
    (twoHosts.2.receive .byteByByte
        (List.replicate 12 0 ++ twoHosts.1.request .byteByByte twoHosts.2.ipAddr) 26).2 = [reply] ∧
      getTargetMAC reply 26 = twoHosts.1.macAddr ∧
      getTargetIP reply 26 = twoHosts.2.ipAddr ∧ twoHosts.1.ipAddr ≠ twoHosts.2.ipAddr ∧
      ¬ Exchange .byteByByte twoHosts.1 twoHosts.2 twoHosts.1.ipAddr := by
  refine ⟨twoHosts.2.reply .byteByByte twoHosts.1.macAddr twoHosts.2.ipAddr, by decide +kernel,
    by decide +kernel, by decide +kernel, by decide, fun exchange => ?_⟩
  have same := (exchange_target U8View.byteByByte_bigEndian (by decide) _).mp exchange
  revert same
  decide

end Exchange

end JsOS.Net.Arp
