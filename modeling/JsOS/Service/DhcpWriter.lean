import JsOS.Service.DhcpOptions
import JsOS.Net.U8View

/-! # Writing a DHCP packet

`create` allocates the packet by a size that it computes beforehand and fills it from the
front. The fields in front of the options stand at fixed places; behind the magic cookie an
offset moves with every byte that is written. A byte that is written past the end of the
buffer would be lost; none is, and none is left over (`DhcpWriter.create_eq`).
-/

namespace JsOS.Service.DhcpWriter

open Net (MACAddress U8View)
open DhcpPacket (Bytes SentOption AreaOption Reads OPERATION_REQUEST OPTIONS_OFFSET magicCookie
  getOptions getOptions_eq_iff reads_encode_append)

/-- `optionsLength`: the magic cookie, the message type, the end byte, and for every option its
id, its length and its contents. -/
def optionsLength (options : List SentOption) : Nat :=
  options.foldl (fun length option => length + (option.bytes.length + 2)) 8

/-- The fields that `create` writes in front of the options. -/
def writeHeader (view : U8View) (srcMAC : MACAddress) (u8 : Bytes) : Bytes :=
  let u8 := Buffer.store u8 0 [OPERATION_REQUEST, 1, 6, 0]
  let u8 := view.setUint32BE u8 4 0x112233 -- random id
  let u8 := view.setUint16BE u8 8 0 -- secs
  let u8 := view.setUint16BE u8 10 0 -- flags
  let u8 := view.setUint32BE u8 12 0 -- client ip
  let u8 := view.setUint32BE u8 16 0 -- your ip
  let u8 := view.setUint32BE u8 20 0 -- server ip
  let u8 := view.setUint32BE u8 24 0 -- gateway ip
  let u8 := Buffer.store u8 28 [srcMAC.a, srcMAC.b, srcMAC.c, srcMAC.d, srcMAC.e, srcMAC.f]
  view.setUint32BE u8 OPTIONS_OFFSET magicCookie.toNat

/-- The buffer and the offset at which the next byte of an option is written. -/
structure Filling where
  u8 : Bytes
  optionsOffset : Nat

/-- `u8[optionsOffset++] = byte`. -/
def Filling.put (filling : Filling) (byte : UInt8) : Filling :=
  ⟨filling.u8.set filling.optionsOffset byte, filling.optionsOffset + 1⟩

/-- The round of the loop for one option. -/
def Filling.putOption (filling : Filling) (option : SentOption) : Filling :=
  option.bytes.foldl Filling.put ((filling.put option.id).put (.ofNat option.bytes.length))

/-- Everything that `create` writes in front of the end byte. -/
def fill (view : U8View) (type : UInt8) (srcMAC : MACAddress) (options : List SentOption) :
    Filling :=
  let u8 := List.replicate (OPTIONS_OFFSET + optionsLength options) 0
  let filling : Filling := ⟨writeHeader view srcMAC u8, OPTIONS_OFFSET + 4⟩
  options.foldl Filling.putOption (((filling.put 53).put 1).put type)

/-- `create`, for any byte as the type of the message. -/
def create (view : U8View) (type : UInt8) (srcMAC : MACAddress) (options : List SentOption) :
    Bytes :=
  let filling := fill view type srcMAC options
  filling.u8.set filling.optionsOffset 255

/-- `isValidMagicCookie`; without a result where the view throws. -/
def isValidMagicCookie (view : U8View) (u8 : Bytes) : Option Bool :=
  (view.getUint32BE u8 OPTIONS_OFFSET).map fun cookie => magicCookie == cookie

/-! ## The bytes that are written -/

/-- The fields that are not zero at the front of a packet, with the zero ones between them. -/
def fields (srcMAC : MACAddress) : Bytes :=
  [OPERATION_REQUEST, 1, 6, 0] ++ U8View.uint32BE 0x112233 ++ U8View.uint16BE 0 ++
    U8View.uint16BE 0 ++ U8View.uint32BE 0 ++ U8View.uint32BE 0 ++ U8View.uint32BE 0 ++
    U8View.uint32BE 0 ++ [srcMAC.a, srcMAC.b, srcMAC.c, srcMAC.d, srcMAC.e, srcMAC.f]

/-- What stands in front of the options: the fields, the zeros up to the magic cookie, and it. -/
def front (srcMAC : MACAddress) : Bytes :=
  fields srcMAC ++ List.replicate 202 0 ++ U8View.uint32BE magicCookie.toNat

theorem length_front (srcMAC : MACAddress) : (front srcMAC).length = OPTIONS_OFFSET + 4 := by
  rw [front, List.length_append, List.length_append, List.length_replicate]
  rfl

/-- The header fills the front of a packet up to the options. -/
theorem writeHeader_replicate {view : U8View} (documented : view.BigEndian) (srcMAC : MACAddress)
    (left : Nat) :
    writeHeader view srcMAC (List.replicate (OPTIONS_OFFSET + 4 + left) 0) =
      front srcMAC ++ List.replicate left 0 := by
  have fresh : List.replicate (OPTIONS_OFFSET + 4 + left) (0 : UInt8) =
      [] ++ List.replicate (4 + (4 + (2 + (2 + (4 + (4 + (4 + (4 + (6 + (206 + left)))))))))) 0 := by
    rw [List.nil_append]
    refine congrArg (List.replicate · 0) ?_
    change 240 + left = _
    omega
  have gap (filled : Bytes) : filled ++ List.replicate (206 + left) 0 =
      filled ++ List.replicate 202 0 ++ List.replicate (4 + left) 0 := by
    rw [List.append_assoc, List.replicate_append_replicate, ← Nat.add_assoc]
  unfold writeHeader
  dsimp only
  rw [fresh, Buffer.store_fill 0 _ _ (by rfl) (by rfl),
    documented.setUint32BE_fill _ _ (by rfl) (by rfl) (by decide),
    documented.setUint16BE_fill _ _ (by rfl) (by rfl) (by decide),
    documented.setUint16BE_fill _ _ (by rfl) (by rfl) (by decide),
    documented.setUint32BE_fill _ _ (by rfl) (by rfl) (by decide),
    documented.setUint32BE_fill _ _ (by rfl) (by rfl) (by decide),
    documented.setUint32BE_fill _ _ (by rfl) (by rfl) (by decide),
    documented.setUint32BE_fill _ _ (by rfl) (by rfl) (by decide),
    Buffer.store_fill 0 _ _ (by rfl) (by rfl), gap,
    documented.setUint32BE_fill _ left (by
      rw [List.length_append, List.length_replicate]
      rfl) (by rfl) (by decide)]
  rfl

/-- A buffer that is filled up to the offset. -/
def filledUpTo (filled : Bytes) (left : Nat) : Filling :=
  ⟨filled ++ List.replicate left 0, filled.length⟩

theorem put_filledUpTo (filled : Bytes) (byte : UInt8) (left : Nat) :
    (filledUpTo filled (1 + left)).put byte = filledUpTo (filled ++ [byte]) left := by
  have written := @Buffer.store_fill _ filled _ (1 + left) 0 [byte] left rfl rfl
  exact congrArg₂ Filling.mk written (by rw [List.length_append]; rfl)

theorem foldl_put_filledUpTo (filled bytes : Bytes) (left : Nat) :
    bytes.foldl Filling.put (filledUpTo filled (bytes.length + left)) =
      filledUpTo (filled ++ bytes) left := by
  induction bytes generalizing filled with
  | nil => rw [List.append_nil, List.length_nil, Nat.zero_add]; rfl
  | cons byte bytes ih =>
      have room : (byte :: bytes).length + left = 1 + (bytes.length + left) := by
        rw [List.length_cons]
        omega
      rw [room, List.foldl_cons, put_filledUpTo, ih, List.append_assoc]
      rfl

/-- The round for an option writes its encoding. -/
theorem putOption_filledUpTo (filled : Bytes) (option : SentOption) (left : Nat) :
    (filledUpTo filled (option.encode.length + left)).putOption option =
      filledUpTo (filled ++ option.encode) left := by
  exact foldl_put_filledUpTo filled option.encode left

theorem foldl_putOption_filledUpTo (filled : Bytes) (options : List SentOption) (left : Nat) :
    options.foldl Filling.putOption
        (filledUpTo filled ((options.flatMap SentOption.encode).length + left)) =
      filledUpTo (filled ++ options.flatMap SentOption.encode) left := by
  induction options generalizing filled with
  | nil => rw [List.flatMap_nil, List.append_nil, List.length_nil, Nat.zero_add]; rfl
  | cons option options ih =>
      rw [List.flatMap_cons, List.length_append, Nat.add_assoc, List.foldl_cons,
        putOption_filledUpTo, ih, List.append_assoc]

/-- The size that is computed beforehand is the size of what is written. -/
theorem optionsLength_eq (options : List SentOption) :
    optionsLength options = 4 + (3 + ((options.flatMap SentOption.encode).length + 1)) := by
  have general (length : Nat) :
      options.foldl (fun length option => length + (option.bytes.length + 2)) length =
        length + (options.flatMap SentOption.encode).length := by
    induction options generalizing length with
    | nil => rfl
    | cons option options ih =>
        rw [List.foldl_cons, ih, List.flatMap_cons, List.length_append, SentOption.encode,
          List.length_cons, List.length_cons]
        omega
  rw [optionsLength, general]
  omega

/-- **What is filled** when the end byte is due: everything but the last byte. -/
theorem fill_eq {view : U8View} (documented : view.BigEndian) (type : UInt8)
    (srcMAC : MACAddress) (options : List SentOption) :
    fill view type srcMAC options =
      filledUpTo (front srcMAC ++ [53, 1, type] ++ options.flatMap SentOption.encode) 1 := by
  have header := writeHeader_replicate documented srcMAC
    (3 + ((options.flatMap SentOption.encode).length + 1))
  have start : (⟨writeHeader view srcMAC
      (List.replicate (OPTIONS_OFFSET + optionsLength options) 0), OPTIONS_OFFSET + 4⟩ : Filling) =
      filledUpTo (front srcMAC) (3 + ((options.flatMap SentOption.encode).length + 1)) := by
    rw [optionsLength_eq, ← Nat.add_assoc, header, ← length_front srcMAC]
    rfl
  have message := foldl_put_filledUpTo (front srcMAC) [53, 1, type]
    ((options.flatMap SentOption.encode).length + 1)
  unfold fill
  dsimp only
  rw [start]
  exact (congrArg (options.foldl Filling.putOption) message).trans
    (foldl_putOption_filledUpTo _ options 1)

/-- **The bytes of a packet.** -/
theorem create_eq {view : U8View} (documented : view.BigEndian) (type : UInt8)
    (srcMAC : MACAddress) (options : List SentOption) :
    create view type srcMAC options =
      front srcMAC ++ [53, 1, type] ++ options.flatMap SentOption.encode ++ [255] := by
  unfold create
  dsimp only
  rw [fill_eq documented]
  have last := @Buffer.store_fill _
    (front srcMAC ++ [53, 1, type] ++ options.flatMap SentOption.encode) _ 1 (0 : UInt8) [255] 0
    rfl rfl
  exact last.trans (List.append_nil _)

/-- For the types that the package names these are the bytes that the client sends. -/
theorem create_packetType {view : U8View} (documented : view.BigEndian)
    (type : DhcpPacket.PacketType) (srcMAC : MACAddress) (options : List SentOption) :
    create view type.byte srcMAC options = DhcpPacket.create type srcMAC options :=
  create_eq documented type.byte srcMAC options

/-! ## Reading it back -/

/-- Options in front of an end byte are read as they are. -/
theorem reads_options {options : List SentOption}
    (ids : ∀ option ∈ options, option.id ≠ 0 ∧ option.id ≠ 255)
    (lengths : ∀ option ∈ options, option.bytes.length ≤ 255) :
    Reads (options.flatMap SentOption.encode ++ [255]) (options.map SentOption.received) := by
  induction options with
  | nil => exact .ended []
  | cons option options ih =>
      rw [List.forall_mem_cons] at ids lengths
      rw [List.flatMap_cons, List.append_assoc]
      exact (reads_encode_append ⟨option, ids.1.1, ids.1.2, lengths.1⟩).mpr
        ⟨_, rfl, ih ids.2 lengths.2⟩

/-- **The round trip of the options.** The reader finds the type of the message and then the
options that the packet was made with, behind a valid magic cookie, and the end byte is
written to the last byte of the buffer. -/
theorem getOptions_create {view : U8View} (documented : view.BigEndian) (type : UInt8)
    (srcMAC : MACAddress) {options : List SentOption}
    (ids : ∀ option ∈ options, option.id ≠ 0 ∧ option.id ≠ 255)
    (lengths : ∀ option ∈ options, option.bytes.length ≤ 255) :
    getOptions (create view type srcMAC options) =
        ((⟨53, [type]⟩ : SentOption) :: options).map SentOption.received ∧
      isValidMagicCookie view (create view type srcMAC options) = some true ∧
      (create view type srcMAC options).length = OPTIONS_OFFSET + optionsLength options ∧
      (fill view type srcMAC options).optionsOffset + 1 =
        OPTIONS_OFFSET + optionsLength options := by
  have bytes := create_eq documented type srcMAC options
  have offset : (fill view type srcMAC options).optionsOffset + 1 =
      OPTIONS_OFFSET + optionsLength options := by
    rw [fill_eq documented, optionsLength_eq]
    change (front srcMAC ++ [53, 1, type] ++ options.flatMap SentOption.encode).length + 1 = _
    rw [List.length_append, List.length_append, length_front, List.length_cons, List.length_cons,
      List.length_cons, List.length_nil]
    omega
  refine ⟨?_, ?_, ?_, offset⟩
  · have message : (53 : UInt8) ≠ 0 ∧ (53 : UInt8) ≠ 255 := by decide
    have all := @reads_options (⟨53, [type]⟩ :: options) (List.forall_mem_cons.mpr ⟨message, ids⟩)
      (List.forall_mem_cons.mpr ⟨Nat.le_add_left 1 254, lengths⟩)
    rw [bytes, List.append_assoc, List.append_assoc]
    exact (getOptions_eq_iff (length_front srcMAC)).mpr all
  · have cookie := documented.getUint32BE (fields srcMAC ++ List.replicate 202 0)
      ([53, 1, type] ++ options.flatMap SentOption.encode ++ [255]) 0x63 0x82 0x53 0x63
    have place : (fields srcMAC ++ List.replicate 202 (0 : UInt8)).length = OPTIONS_OFFSET := by
      rw [List.length_append, List.length_replicate]
      rfl
    rw [place] at cookie
    have same : create view type srcMAC options =
        fields srcMAC ++ List.replicate 202 0 ++ [0x63, 0x82, 0x53, 0x63] ++
          ([53, 1, type] ++ options.flatMap SentOption.encode ++ [255]) := by
      rw [bytes, front]
      simp only [List.append_assoc]
      rfl
    rw [isValidMagicCookie, same, cookie]
    rfl
  · rw [← offset, fill_eq documented, bytes, List.length_append]
    rfl

/-- The options of a request, one of them empty. -/
def requested : List SentOption := [⟨50, [10, 0, 0, 7]⟩, ⟨12, []⟩, ⟨55, [1, 3, 6]⟩]

theorem getOptions_create_requested :
    getOptions (create .byteByByte 3 .ZERO requested) =
        ((⟨53, [3]⟩ : SentOption) :: requested).map SentOption.received ∧
      isValidMagicCookie .byteByByte (create .byteByByte 3 .ZERO requested) = some true ∧
      (create .byteByByte 3 .ZERO requested).length = OPTIONS_OFFSET + optionsLength requested ∧
      (fill .byteByByte 3 .ZERO requested).optionsOffset + 1 =
        OPTIONS_OFFSET + optionsLength requested :=
  getOptions_create U8View.byteByByte_bigEndian 3 .ZERO (by decide) (by decide)

end JsOS.Service.DhcpWriter
