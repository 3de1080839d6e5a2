import JsOS.Net.Ethernet

/-! # DHCP packets

`dhcp-packet` and `dhcp-options`: the packets that the client sends, and the fields and
options it reads from those it receives. A byte past the end of a buffer is `undefined`:
no number is equal to it, and as a part of an address it is 0.
-/

namespace JsOS.Service.DhcpPacket

open Net (IP4Address MACAddress)

abbrev Bytes := List UInt8

/-- `packetType`, as the byte in the option for the message type. -/
inductive PacketType where
  | DISCOVER
  | OFFER
  | REQUEST
  | DECLINE
  | ACK
  | NAK
  | RELEASE
  | INFORM
  deriving DecidableEq, Repr

def PacketType.byte : PacketType → UInt8
  | .DISCOVER => 1
  | .OFFER => 2
  | .REQUEST => 3
  | .DECLINE => 4
  | .ACK => 5
  | .NAK => 6
  | .RELEASE => 7
  | .INFORM => 8

/-- `OPERATION_REQUEST`. -/
def OPERATION_REQUEST : UInt8 := 1

/-- `OPERATION_RESPONSE`. -/
def OPERATION_RESPONSE : UInt8 := 2

/-- `OPTIONS_OFFSET`. -/
def OPTIONS_OFFSET : Nat := 28 + 16 + 192

/-- `magicCookie`. -/
def magicCookie : BitVec 32 := 0x63825363

/-- The transaction id that `create` writes. -/
def requestId : BitVec 32 := 0x112233

/-! ## Packets to send -/

/-- An option of a packet to send. -/
structure SentOption where
  id : UInt8
  bytes : Bytes
  deriving DecidableEq, Repr

/-- The bytes that `setUint32BE` writes. -/
def uint32BE (value : BitVec 32) : Bytes :=
  [⟨value.extractLsb' 24 8⟩, ⟨value.extractLsb' 16 8⟩, ⟨value.extractLsb' 8 8⟩,
    ⟨value.extractLsb' 0 8⟩]

/-- The bytes of an option: its id, its length and its contents. -/
def SentOption.encode (option : SentOption) : Bytes :=
  option.id :: .ofNat option.bytes.length :: option.bytes

/-- `create`. -/
def create (type : PacketType) (srcMAC : MACAddress) (options : List SentOption) : Bytes :=
  [OPERATION_REQUEST, 1, 6, 0] ++ uint32BE requestId ++
    -- seconds, flags and four addresses, all zero
    List.replicate 20 0 ++
    [srcMAC.a, srcMAC.b, srcMAC.c, srcMAC.d, srcMAC.e, srcMAC.f] ++ List.replicate 202 0 ++
    uint32BE magicCookie ++ [53, 1, type.byte] ++ options.flatMap SentOption.encode ++ [255]

/-! ## Received packets -/

/-- An option of a received packet; a byte past the end of the buffer is `none`. -/
structure DhcpOption where
  id : UInt8
  bytes : List (Option UInt8)
  deriving DecidableEq, Repr

/-- The address in four bytes. -/
def toIP (a b c d : Option UInt8) : IP4Address :=
  ⟨(a.getD 0).toBitVec, (b.getD 0).toBitVec, (c.getD 0).toBitVec, (d.getD 0).toBitVec⟩

def getYourIP (u8 : Bytes) : IP4Address := toIP u8[16]? u8[17]? u8[18]? u8[19]?

/-- The `for` loop of `getOptions` from index `i` on. A padding option skips three bytes. -/
def optionsFrom (u8 : Bytes) (fuel i : Nat) : List DhcpOption :=
  match fuel with
  | 0 => []
  | fuel + 1 =>
      match u8[i]? with
      | none => []
      | some optId =>
          let optLen := (u8[i + 1]?.getD 0).toNat
          if optId = 0xff then []
          else if optId = 0x00 then optionsFrom u8 fuel (i + 3)
          else
            ⟨optId, (List.range optLen).map fun j => u8[i + 2 + j]?⟩ ::
              optionsFrom u8 fuel (i + 2 + optLen)

/-- `getOptions`. Every round of its loop moves on, so the length of the buffer bounds the
rounds. -/
def getOptions (u8 : Bytes) : List DhcpOption := optionsFrom u8 u8.length (OPTIONS_OFFSET + 4)

/-- The bound on the rounds plays no part: once it reaches the end, more rounds add nothing. -/
theorem optionsFrom_enough (u8 : Bytes) {fuel more i : Nat} (enough : u8.length ≤ i + fuel)
    (larger : fuel ≤ more) : optionsFrom u8 more i = optionsFrom u8 fuel i := by
  induction fuel generalizing more i with
  | zero =>
      cases more with
      | zero => rfl
      | succ more =>
          unfold optionsFrom
          rw [List.getElem?_eq_none (by omega)]
  | succ fuel ih =>
      cases more with
      | zero => exact absurd larger (Nat.not_succ_le_zero fuel)
      | succ more =>
          unfold optionsFrom
          cases u8[i]? with
          | none => rfl
          | some optId =>
              dsimp only
              split
              · rfl
              · split
                · exact ih (by omega) (by omega)
                · exact congrArg _ (ih (by omega) (by omega))

/-! ## Options -/

def OPTION_SUBNET_MASK : UInt8 := 1
def OPTION_ROUTER : UInt8 := 3
def OPTION_DOMAIN : UInt8 := 6
def OPTION_MESSAGE_TYPE : UInt8 := 53
def OPTION_SERVER_ID : UInt8 := 54

/-- `findAll`. -/
def findAll (options : List DhcpOption) (id : UInt8) (minLength : Nat) :
    List (List (Option UInt8)) :=
  (options.filter fun option => option.id = id && minLength ≤ option.bytes.length).map
    DhcpOption.bytes

/-- `find`. -/
def find (options : List DhcpOption) (id : UInt8) (minLength : Nat) :
    Option (List (Option UInt8)) :=
  (options.find? fun option => option.id = id && minLength ≤ option.bytes.length).map
    DhcpOption.bytes

/-- `find` gives the first of what `findAll` gives. -/
theorem find_eq_head? (options : List DhcpOption) (id : UInt8) (minLength : Nat) :
    find options id minLength = (findAll options id minLength).head? := by
  rw [find, findAll, List.head?_map, List.head?_filter]

end JsOS.Service.DhcpPacket
