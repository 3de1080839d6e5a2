import JsOS.Library.Framing
import JsOS.Kernel.Transport.Value
import Mathlib.Logic.Function.Basic

/-! # Serializing a value for another thread

The sending side of a transfer. The serializer walks a value and appends to a byte stream.
On its way it takes the contents of array buffers, which neuters them in the sender, and
exports functions, each of which takes a reference on the sending thread. An error ends the
walk where it stands.
-/

namespace Transport

open Framing

/-! ## The stream's tags -/

/-- The tags of a stream. -/
inductive Tag where
  | undefined
  | nul
  | string16
  | stringUtf8
  | int32
  | uint32
  | double
  | boolTrue
  | boolFalse
  | arrayBuffer
  | typedArrayUint8
  | typedArrayUint8Clamped
  | typedArrayUint16
  | typedArrayUint32
  | typedArrayInt8
  | typedArrayInt16
  | typedArrayInt32
  | typedArrayDataView
  | array
  | emptyArray
  | hashmap
  | function
  | nativeObject
  | errorObj
deriving DecidableEq

/-- The tags in the order of their codes. -/
def Tag.all : List Tag :=
  [.undefined, .nul, .string16, .stringUtf8, .int32, .uint32, .double, .boolTrue, .boolFalse,
    .arrayBuffer, .typedArrayUint8, .typedArrayUint8Clamped, .typedArrayUint16, .typedArrayUint32,
    .typedArrayInt8, .typedArrayInt16, .typedArrayInt32, .typedArrayDataView, .array, .emptyArray,
    .hashmap, .function, .nativeObject, .errorObj]

def Tag.code (tag : Tag) : BitVec 8 :=
  BitVec.ofNat 8 (all.idxOf tag)

def Tag.ofCode (code : BitVec 8) : Option Tag :=
  all[code.toNat]?

@[simp]
theorem Tag.ofCode_code (tag : Tag) : Tag.ofCode tag.code = some tag := by
  cases tag <;> rfl

/-- The tag of a view; none for the floating-point arrays. -/
def ViewKind.tag : ViewKind → Option Tag
  | .uint8 => some .typedArrayUint8
  | .uint16 => some .typedArrayUint16
  | .uint32 => some .typedArrayUint32
  | .dataView => some .typedArrayDataView
  | .int8 => some .typedArrayInt8
  | .int16 => some .typedArrayInt16
  | .int32 => some .typedArrayInt32
  | .uint8Clamped => some .typedArrayUint8Clamped
  | .float32 => none
  | .float64 => none

/-! ## The sending thread -/

structure FunctionExportData where
  fn : ℕ
  exportId : ℕ
deriving DecidableEq

/-- What a transfer touches of the sending thread: the contents of its array buffers, its
export table, and its reference count. Allocating the external function for the entry at an
index of the table yields `newExternalFunction index`. -/
structure Thread where
  buffers : ℕ → Contents
  exports : List FunctionExportData
  exportId : ℕ
  refCount : ℕ
  newExternalFunction : ℕ → BitVec 64

namespace Thread

/-- `AddExport`: take a reference, and add the function to the export table. -/
def addExport (thread : Thread) (fn : ℕ) : Thread :=
  { thread with
    refCount := thread.refCount + 1
    exportId := thread.exportId + 1
    exports := thread.exports ++ [⟨fn, thread.exportId + 1⟩] }

/-- The external function that `AddExport` returns. -/
def addedExport (thread : Thread) : BitVec 64 :=
  thread.newExternalFunction thread.exports.length

/-- `Neuter`: the buffer gives up its contents. -/
def neuter (thread : Thread) (buffer : ℕ) : Thread :=
  { thread with buffers := Function.update thread.buffers buffer ⟨0, 0⟩ }

/-- `ByteLength() == 0`: the buffer is empty, or was transferred before. -/
def IsEmpty (thread : Thread) (buffer : ℕ) : Prop :=
  (thread.buffers buffer).byteLength = 0

instance (thread : Thread) (buffer : ℕ) : Decidable (thread.IsEmpty buffer) :=
  inferInstanceAs (Decidable ((thread.buffers buffer).byteLength = 0))

theorem isEmpty_neuter (thread : Thread) (buffer : ℕ) :
    (thread.neuter buffer).IsEmpty buffer := by
  change (Function.update thread.buffers buffer _ buffer).byteLength = 0
  rw [Function.update_self]

theorem buffers_neuter_of_ne {thread : Thread} {buffer other : ℕ}
    (different : other ≠ buffer) :
    (thread.neuter buffer).buffers other = thread.buffers other :=
  Function.update_of_ne different _ _

end Thread

/-! ## The serializer -/

inductive SerializeError where
  | none
  | maxStack
  | invalidType
  | emptyBuffer
  | typedArrayView
  | notClonable
deriving DecidableEq

def kMaxStackSize : ℕ := 128

/-- A transfer under way: the exporting thread, and the stream written so far. -/
structure TransportData where
  exporter : Thread
  stream : Bytes

namespace TransportData

def appendValue {width : ℕ} (data : TransportData) (value : BitVec width) : TransportData :=
  { data with stream := data.stream ++ wordBytes value }

def appendType (data : TransportData) (tag : Tag) : TransportData :=
  data.appendValue tag.code

/-- The room for the units and a terminator; `Write` fills the units and leaves the zeros
that growing the stream put at the end. -/
def appendUnits (data : TransportData) (units : List (BitVec 16)) : TransportData :=
  { data with stream := data.stream ++ (units.flatMap wordBytes ++ wordBytes (0 : BitVec 16)) }

def appendString (data : TransportData) (string : JsString) : TransportData :=
  ((data.appendType .string16).appendValue (BitVec.ofNat 32 string.units.length)).appendUnits
    string.units

def neuter (data : TransportData) (buffer : ℕ) : TransportData :=
  { data with exporter := data.exporter.neuter buffer }

def addExport (data : TransportData) (fn : ℕ) : TransportData :=
  { data with exporter := data.exporter.addExport fn }

def clear (data : TransportData) : TransportData :=
  { data with stream := [] }

/-- Deserialize to undefined. -/
def setUndefined (data : TransportData) : TransportData :=
  data.clear.appendType .undefined

end TransportData

/-- The text of an error whose message is no string. -/
def noErrorMessage : JsString :=
  ⟨"<no error message>".toList.map fun letter => BitVec.ofNat 16 letter.toNat, by decide⟩

/-- `SerializeValue` on an array buffer: its tag is written before its length is tested. -/
def serializeArrayBuffer (buffer : ℕ) (data : TransportData) : SerializeError × TransportData :=
  if data.exporter.IsEmpty buffer then (.emptyBuffer, data.appendType .arrayBuffer)
  else
    let contents := data.exporter.buffers buffer
    (.none, (((data.appendType .arrayBuffer).appendValue contents.data).appendValue
      contents.byteLength).neuter buffer)

/-- `SerializeValue` on a view: its buffer is tested first, then its kind. -/
def serializeView (view : View ℕ) (data : TransportData) : SerializeError × TransportData :=
  if data.exporter.IsEmpty view.buffer then (.emptyBuffer, data)
  else
    match view.kind.tag with
    | none => (.typedArrayView, data)
    | some tag =>
        let contents := data.exporter.buffers view.buffer
        (.none, (((((data.appendType tag).appendValue contents.data).appendValue
          contents.byteLength).appendValue view.byteOffset).appendValue
          view.byteLength).neuter view.buffer)

/-- `SerializeValue` on a wrapped native object, given the address of its clone. -/
def serializeNative (clone : BitVec 64) (data : TransportData) : SerializeError × TransportData :=
  if clone ≠ 0 then (.none, (data.appendType .nativeObject).appendValue clone)
  else (.notClonable, data)

/-- `SerializeValue` on a value without parts. -/
def serializeLeaf (leaf : Leaf ℕ) (data : TransportData) : SerializeError × TransportData :=
  match leaf with
  | .undefined => (.none, data.appendType .undefined)
  | .null => (.none, data.appendType .nul)
  | .boolean value => (.none, data.appendType (if value then .boolTrue else .boolFalse))
  | .arrayBuffer buffer => serializeArrayBuffer buffer data
  | .view view => serializeView view data
  | .int32 value => (.none, (data.appendType .int32).appendValue value)
  | .uint32 value => (.none, (data.appendType .uint32).appendValue value)
  | .double value => (.none, (data.appendType .double).appendValue value)
  | .string value => (.none, data.appendString value)
  | .function fn =>
      (.none, ((data.addExport fn).appendType .function).appendValue data.exporter.addedExport)
  | .error message =>
      (.none, (data.appendType .errorObj).appendString (message.getD noErrorMessage))
  | .external efn => (.none, (data.appendType .function).appendValue efn)
  | .native clone => serializeNative clone data
  | .symbol => (.invalidType, data)

/-- Go on to the next step unless the last one failed. -/
def SerializeError.andThen (result : SerializeError × TransportData)
    (next : TransportData → SerializeError × TransportData) : SerializeError × TransportData :=
  if result.1 = .none then next result.2 else result

/-- `SerializeValue` on a property's key, which is a string or a number. -/
def serializeKey (key : Key) (stackLevel : ℕ) (data : TransportData) :
    SerializeError × TransportData :=
  if kMaxStackSize < stackLevel then (.maxStack, data) else serializeLeaf key.toLeaf data

mutual

/-- `SerializeValue`. -/
def serializeValue (value : Value ℕ) (stackLevel : ℕ) (data : TransportData) :
    SerializeError × TransportData :=
  if kMaxStackSize < stackLevel then (.maxStack, data)
  else
    match value with
    | .leaf leaf => serializeLeaf leaf data
    | .array elements =>
        serializeElements elements (stackLevel + 1)
          ((data.appendType .array).appendValue (BitVec.ofNat 32 elements.length))
    | .object properties =>
        serializeProperties properties (stackLevel + 1)
          ((data.appendType .hashmap).appendValue (BitVec.ofNat 32 properties.length))

/-- The loop through an array's elements, or through the arguments of a call. -/
def serializeElements (elements : List (Value ℕ)) (stackLevel : ℕ) (data : TransportData) :
    SerializeError × TransportData :=
  match elements with
  | [] => (.none, data)
  | element :: elements =>
      SerializeError.andThen (serializeValue element stackLevel data)
        (serializeElements elements stackLevel)

/-- The loop through an object's own properties: each key, then its value. -/
def serializeProperties (properties : List (Key × Value ℕ)) (stackLevel : ℕ)
    (data : TransportData) : SerializeError × TransportData :=
  match properties with
  | [] => (.none, data)
  | (key, value) :: properties =>
      SerializeError.andThen (serializeKey key stackLevel data) fun data =>
        SerializeError.andThen (serializeValue value stackLevel data)
          (serializeProperties properties stackLevel)

end

/-- How a transfer ends: an error resets the stream. -/
def settle (result : SerializeError × TransportData) : SerializeError × TransportData :=
  if result.1 = .none then result else (result.1, result.2.setUndefined)

theorem settle_of_none {result : SerializeError × TransportData} (done : (settle result).1 = .none) :
    result.1 = .none ∧ settle result = result := by
  unfold settle at done ⊢
  by_cases taken : result.1 = .none
  · exact ⟨taken, if_pos taken⟩
  · rw [if_neg taken] at done
    exact absurd done taken

theorem settle_of_ne_none {result : SerializeError × TransportData}
    (failed : (settle result).1 ≠ .none) : settle result = (result.1, result.2.setUndefined) := by
  unfold settle at failed ⊢
  by_cases taken : result.1 = .none
  · rw [if_pos taken] at failed
    exact absurd taken failed
  · exact if_neg taken

/-- `MoveValue`. -/
def moveValue (value : Value ℕ) (data : TransportData) : SerializeError × TransportData :=
  settle (serializeValue value 1 data.clear)

/-- The array header for a call's arguments. -/
def argsHeader (args : List (Value ℕ)) (data : TransportData) : TransportData :=
  (data.clear.appendType .array).appendValue (BitVec.ofNat 32 args.length)

/-- `MoveArgs`. -/
def moveArgs (args : List (Value ℕ)) (data : TransportData) : SerializeError × TransportData :=
  if args.length = 0 then (.none, data.clear.appendType .emptyArray)
  else settle (serializeElements args 1 (argsHeader args data))

end Transport
