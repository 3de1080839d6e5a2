import JsOS.Kernel.Transport.Serialize

/-! # Unpacking a transferred value

The receiving side of a transfer. Reading past the end of the stream, an unknown tag, and a
constructor that yields nothing end the reading. The engine's part is its constructors and
property setters, which do what their names say.
-/

namespace Transport

open Framing

/-- What the receiving engine computes: strings from UTF-8, and the string that a value
other than a string converts to. -/
structure Engine where
  newFromUtf8 : Bytes → Option JsString
  toString : Value Contents → JsString

namespace Engine

/-- `ToString`. -/
def stringOf (engine : Engine) : Value Contents → JsString
  | .leaf (.string string) => string
  | value => engine.toString value

/-- The key under which a property setter stores. -/
def toPropertyKey (engine : Engine) : Value Contents → Key
  | .leaf (.int32 value) =>
      if below : value.toNat < 2 ^ 31 then .index value (by omega)
      else .ofString (engine.toString (.leaf (.int32 value)))
  | .leaf (.uint32 value) =>
      if below : value.toNat < 2 ^ 32 - 1 then .index value below
      else .ofString (engine.toString (.leaf (.uint32 value)))
  | value => .ofString (engine.stringOf value)

/-- A number or string made from a key denotes that key. -/
@[simp]
theorem toPropertyKey_toLeaf (engine : Engine) (key : Key) :
    engine.toPropertyKey (.leaf key.toLeaf) = key := by
  cases key with
  | name string named =>
      change Key.ofString string = _
      exact Key.ofString_name named
  | index number below =>
      rw [Key.toLeaf]
      by_cases small : number.toNat < 2 ^ 31
      · rw [if_pos small]
        exact dif_pos small
      · rw [if_neg small]
        exact dif_pos below

end Engine

/-- `Set` on an object: replace the property's value, or add the property at the end. The
key `__proto__` sets the prototype instead. -/
def setProperty (properties : List (Key × Value Contents)) (key : Key) (value : Value Contents) :
    List (Key × Value Contents) :=
  if key = .ofString .proto then properties
  else if key ∈ properties.map Prod.fst then
    properties.map fun property => if property.1 = key then (key, value) else property
  else properties ++ [(key, value)]

def readType : Reader Tag := do
  let code ← readWord 8
  StateT.lift (Tag.ofCode code)

/-- The units in a buffer of two-byte characters. -/
def twoByteUnits : Bytes → List (BitVec 16)
  | low :: high :: bytes => BitVec.ofNat 16 (ofLittleEndian [low, high]) :: twoByteUnits bytes
  | _ => []

/-- `NewFromTwoByte`: no string is made above the maximal length. -/
def newFromTwoByte (bytes : Bytes) (length : BitVec 32) : Option JsString :=
  if short : length.toNat ≤ kMaxLength then
    some ⟨(twoByteUnits bytes).take length.toNat, (List.length_take_le _ _).trans short⟩
  else none

/-- `TYPEDARRAY_READ`, and the view made from an element count: the byte length shifted. -/
def typedArrayRead (kind : ViewKind) (shift : ℕ) : Reader (Value Contents) := do
  let buf ← readWord 64
  let len ← readWord 64
  let byteOffset ← readWord 64
  let byteLength ← readWord 64
  pure (.leaf (.view (View.new kind ⟨buf, len⟩ byteOffset (byteLength >>> shift))))

/-- One turn of the loop through an object's properties. -/
def unpackEntry (unpackPart : Reader (Value Contents)) :
    Reader (Value Contents × Value Contents) := do
  let key ← unpackPart
  let value ← unpackPart
  pure (key, value)

/-- Store what one turn read. -/
def setEntry (engine : Engine) (properties : List (Key × Value Contents))
    (entry : Value Contents × Value Contents) : List (Key × Value Contents) :=
  setProperty properties (engine.toPropertyKey entry.1) entry.2

/-- The body of `UnpackValue` at a tag, which reads the parts of the value. -/
def unpackTagged (engine : Engine) (unpackPart : Reader (Value Contents)) :
    Tag → Reader (Value Contents)
  | .undefined => pure (.leaf .undefined)
  | .function => pure (.leaf .undefined)
  | .nul => pure (.leaf .null)
  | .stringUtf8 => do
    let len ← readWord 32
    let buffer ← readBytes (len + 1).toNat
    let string ← StateT.lift (engine.newFromUtf8 (buffer.take len.toNat))
    pure (.leaf (.string string))
  | .string16 => do
    let len ← readWord 32
    let buffer ← readBytes ((len + 1) * 2).toNat
    let string ← StateT.lift (newFromTwoByte buffer len)
    pure (.leaf (.string string))
  | .int32 => do
    let value ← readWord 32
    pure (.leaf (.int32 value))
  | .uint32 => do
    let value ← readWord 32
    pure (.leaf (.uint32 value))
  | .double => do
    let value ← readWord 64
    pure (.leaf (.double value))
  | .boolTrue => pure (.leaf (.boolean true))
  | .boolFalse => pure (.leaf (.boolean false))
  | .arrayBuffer => do
    let buf ← readWord 64
    let len ← readWord 64
    pure (.leaf (.arrayBuffer ⟨buf, len⟩))
  | .typedArrayUint8 => typedArrayRead .uint8 0
  | .typedArrayUint8Clamped => typedArrayRead .uint8Clamped 0
  | .typedArrayUint16 => typedArrayRead .uint16 1
  | .typedArrayUint32 => typedArrayRead .uint32 2
  | .typedArrayInt8 => typedArrayRead .int8 0
  | .typedArrayInt16 => typedArrayRead .int16 1
  | .typedArrayInt32 => typedArrayRead .int32 2
  | .typedArrayDataView => typedArrayRead .dataView 0
  | .emptyArray => pure (.array [])
  | .array => do
    let len ← readWord 32
    let elements ← readMany unpackPart len.toNat
    pure (.array elements)
  | .hashmap => do
    let len ← readWord 32
    let entries ← readMany (unpackEntry unpackPart) len.toNat
    pure (.object (entries.foldl (setEntry engine) []))
  | .nativeObject => do
    let baseptr ← readWord 64
    if baseptr = 0 then failure else pure (.leaf (.native baseptr))
  | .errorObj => do
    let value ← unpackPart
    pure (.leaf (.error (some (engine.stringOf value))))

/-- `UnpackValue`, to a bound on the depth of its calls. -/
def unpackValue (engine : Engine) : ℕ → Reader (Value Contents)
  | 0 => failure
  | depth + 1 => do
    let tag ← readType
    unpackTagged engine (unpackValue engine depth) tag

/-- `Unpack`: every call takes a tag, so the stream's length bounds the depth of the calls. -/
def unpack (engine : Engine) (stream : Bytes) : Option (Value Contents) :=
  ((unpackValue engine stream.length).run stream).map Prod.fst

end Transport
