import JsOS.Kernel.Transport.Unpack

/-! # What the receiver should get

The receiver's copy of a value: array buffers carry the contents that the sender gave up,
errors their message, and functions are undefined. Each leaf other than a function is framed
by the bytes that the serializer appends for it.
-/

namespace Transport

open Framing

/-! ## Copies -/

/-- A view over the contents of its buffer. -/
def View.received (heap : ℕ → Contents) (view : View ℕ) : View Contents where
  kind := view.kind
  buffer := heap view.buffer
  byteOffset := view.byteOffset
  byteLength := view.byteLength
  whole := view.whole

/-- The receiver's copy of a leaf. -/
def Leaf.received (heap : ℕ → Contents) : Leaf ℕ → Leaf Contents
  | .undefined => .undefined
  | .null => .null
  | .boolean value => .boolean value
  | .int32 value => .int32 value
  | .uint32 value => .uint32 value
  | .double value => .double value
  | .string value => .string value
  | .arrayBuffer buffer => .arrayBuffer (heap buffer)
  | .view shown => .view (shown.received heap)
  | .function _ => .undefined
  | .error message => .error (some (message.getD noErrorMessage))
  | .external _ => .undefined
  | .native clone => .native clone
  | .symbol => .symbol

mutual

/-- The receiver's copy of a value. -/
def Value.received (heap : ℕ → Contents) : Value ℕ → Value Contents
  | .leaf own => .leaf (own.received heap)
  | .array elements => .array (elementsReceived heap elements)
  | .object properties => .object (propertiesReceived heap properties)

def elementsReceived (heap : ℕ → Contents) : List (Value ℕ) → List (Value Contents)
  | [] => []
  | element :: elements => element.received heap :: elementsReceived heap elements

def propertiesReceived (heap : ℕ → Contents) :
    List (Key × Value ℕ) → List (Key × Value Contents)
  | [] => []
  | (key, value) :: properties =>
      (key, value.received heap) :: propertiesReceived heap properties

end

/-- The keys of a copy are the keys of the object. -/
theorem propertiesReceived_keys (heap : ℕ → Contents) (properties : List (Key × Value ℕ)) :
    (propertiesReceived heap properties).map Prod.fst = properties.map Prod.fst := by
  induction properties with
  | nil => rfl
  | cons property properties ih => rw [propertiesReceived, List.map_cons, List.map_cons, ih]

theorem elementsReceived_length (heap : ℕ → Contents) (elements : List (Value ℕ)) :
    (elementsReceived heap elements).length = elements.length := by
  induction elements with
  | nil => rfl
  | cons element elements ih => rw [elementsReceived, List.length_cons, List.length_cons, ih]

/-! ## Frames of values -/

variable {engine : Engine}

/-- Bytes frame a value for `UnpackValue`. -/
def Frames (engine : Engine) (bytes : Bytes) (value : Value Contents) : Prop :=
  ∀ depth, bytes.length ≤ depth → Reads (unpackValue engine depth) bytes value

theorem reads_readType (tag : Tag) : Reads readType (wordBytes tag.code) tag :=
  (reads_readWord rfl tag.code).bind_nil (reads_lift tag.ofCode_code)

/-- A tag and what its case reads frame a value together. -/
theorem frames_tagged {tag : Tag} {bytes : Bytes} {value : Value Contents}
    (body : ∀ depth, bytes.length ≤ depth →
      Reads (unpackTagged engine (unpackValue engine depth) tag) bytes value) :
    Frames engine (wordBytes tag.code ++ bytes) value := by
  intro depth enough
  rw [List.length_append, length_wordBytes] at enough
  cases depth with
  | zero => omega
  | succ depth => exact (reads_readType tag).bind (body depth (by omega))

/-! ## Strings -/

/-- What `AppendString` writes. -/
def stringBytes (string : JsString) : Bytes :=
  wordBytes Tag.string16.code ++ (wordBytes (BitVec.ofNat 32 string.units.length) ++
    (string.units.flatMap wordBytes ++ wordBytes (0 : BitVec 16)))

theorem stream_appendString (data : TransportData) (string : JsString) :
    (data.appendString string).stream = data.stream ++ stringBytes string := by
  simp only [TransportData.appendString, TransportData.appendType, TransportData.appendValue,
    TransportData.appendUnits, stringBytes, List.append_assoc]

theorem length_unitsBytes (units : List (BitVec 16)) :
    (units.flatMap wordBytes).length = units.length * 2 := by
  induction units with
  | nil => rfl
  | cons unit units ih =>
      rw [List.flatMap_cons, List.length_append, length_wordBytes, ih, List.length_cons]
      omega

/-- Two-byte units are read back from the front of a buffer. -/
theorem twoByteUnits_append (units : List (BitVec 16)) (bytes : Bytes) :
    twoByteUnits (units.flatMap wordBytes ++ bytes) = units ++ twoByteUnits bytes := by
  induction units with
  | nil => rfl
  | cons unit units ih =>
      rw [List.flatMap_cons, List.append_assoc]
      change BitVec.ofNat 16 (ofLittleEndian (wordBytes unit)) ::
        twoByteUnits (units.flatMap wordBytes ++ bytes) = _
      rw [ofNat_ofLittleEndian_wordBytes rfl, ih, List.cons_append]

/-- **Strings are framed.** -/
theorem frames_string (string : JsString) :
    Frames engine (stringBytes string) (.leaf (.string string)) := by
  have short : string.units.length ≤ 268435440 := string.length_le
  have length : (BitVec.ofNat 32 string.units.length).toNat = string.units.length := by
    rw [BitVec.toNat_ofNat, Nat.mod_eq_of_lt (by omega)]
  have room : ((BitVec.ofNat 32 string.units.length + 1) * 2).toNat =
      (string.units.flatMap wordBytes ++ wordBytes (0 : BitVec 16)).length := by
    rw [List.length_append, length_unitsBytes, length_wordBytes, BitVec.toNat_mul,
      BitVec.toNat_add, length]
    have one : (1 : BitVec 32).toNat = 1 := rfl
    have two : (2 : BitVec 32).toNat = 2 := rfl
    rw [one, two]
    omega
  have made : newFromTwoByte (string.units.flatMap wordBytes ++ wordBytes (0 : BitVec 16))
      (BitVec.ofNat 32 string.units.length) = some string := by
    unfold newFromTwoByte
    have fits : (BitVec.ofNat 32 string.units.length).toNat ≤ kMaxLength := by
      rw [length]
      exact short
    rw [dif_pos fits]
    apply congrArg some
    apply JsString.ext
    change (twoByteUnits _).take _ = string.units
    rw [twoByteUnits_append, length, List.take_left]
  apply frames_tagged
  intro depth _
  apply (reads_readWord rfl (BitVec.ofNat 32 string.units.length)).bind
  rw [room]
  apply (reads_readBytes (string.units.flatMap wordBytes ++ wordBytes (0 : BitVec 16))).bind_nil
  exact (reads_lift made).bind_pure fun string => Value.leaf (Leaf.string string)

/-! ## Views -/

/-- What a view reads from is its buffer's contents and its own place in it. -/
def viewBytes (contents : Contents) (view : View ℕ) : Bytes :=
  wordBytes contents.data ++ (wordBytes contents.byteLength ++
    (wordBytes view.byteOffset ++ wordBytes view.byteLength))

/-- The case of a view's tag shifts the byte length by the logarithm of the element size. -/
theorem unpackTagged_view (engine : Engine) {kind : ViewKind} {tag : Tag}
    (named : kind.tag = some tag) (unpackPart : Reader (Value Contents)) :
    ∃ shift, kind.elementSize = 2 ^ shift ∧
      unpackTagged engine unpackPart tag = typedArrayRead kind shift := by
  cases kind with
  | uint8 => exact ⟨0, rfl, by cases named; rfl⟩
  | uint8Clamped => exact ⟨0, rfl, by cases named; rfl⟩
  | uint16 => exact ⟨1, rfl, by cases named; rfl⟩
  | uint32 => exact ⟨2, rfl, by cases named; rfl⟩
  | int8 => exact ⟨0, rfl, by cases named; rfl⟩
  | int16 => exact ⟨1, rfl, by cases named; rfl⟩
  | int32 => exact ⟨2, rfl, by cases named; rfl⟩
  | dataView => exact ⟨0, rfl, by cases named; rfl⟩
  | float32 => cases named
  | float64 => cases named

/-- **Element counts and byte counts.** The constructor given the shifted byte length makes
the view that was sent. -/
theorem View.new_shifted {heap : ℕ → Contents} {view : View ℕ} {shift : ℕ}
    (size : view.kind.elementSize = 2 ^ shift) :
    View.new view.kind (heap view.buffer) view.byteOffset (view.byteLength >>> shift) =
      view.received heap := by
  have bytes : BitVec.ofNat 64 ((view.byteLength >>> shift).toNat * view.kind.elementSize) =
      view.byteLength := by
    have whole := view.whole
    rw [size] at whole
    rw [size, BitVec.toNat_ushiftRight, Nat.shiftRight_eq_div_pow, Nat.div_mul_cancel whole,
      BitVec.ofNat_toNat, BitVec.setWidth_eq]
  unfold View.new View.received
  rw [View.mk.injEq]
  exact ⟨rfl, rfl, rfl, bytes⟩

/-- **Views are framed.** -/
theorem frames_view {heap : ℕ → Contents} {view : View ℕ} {tag : Tag}
    (named : view.kind.tag = some tag) :
    Frames engine (wordBytes tag.code ++ viewBytes (heap view.buffer) view)
      (.leaf (.view (view.received heap))) := by
  apply frames_tagged
  intro depth _
  obtain ⟨shift, size, body⟩ := unpackTagged_view engine named (unpackValue engine depth)
  rw [body, ← View.new_shifted size]
  apply (reads_readWord rfl (heap view.buffer).data).bind
  apply (reads_readWord rfl (heap view.buffer).byteLength).bind
  apply (reads_readWord rfl view.byteOffset).bind
  exact (reads_readWord rfl view.byteLength).bind_pure fun byteLength =>
    Value.leaf (Leaf.view (View.new view.kind (heap view.buffer) view.byteOffset
      (byteLength >>> shift)))

/-! ## Leaves -/

/-- The bytes that a step of the serializer appends frame a value. -/
def Framed (engine : Engine) (before after : TransportData) (value : Value Contents) : Prop :=
  ∃ bytes, after.stream = before.stream ++ bytes ∧ Frames engine bytes value

/-- The buffers of the sender that are not yet neutered still hold what they held. -/
def Agrees (heap : ℕ → Contents) (thread : Thread) : Prop :=
  ∀ buffer, ¬thread.IsEmpty buffer → thread.buffers buffer = heap buffer

/-- A tag alone, whose case reads nothing. -/
theorem framed_tag {data : TransportData} {tag : Tag} {value : Value Contents}
    (body : ∀ depth, unpackTagged engine (unpackValue engine depth) tag = pure value) :
    Framed engine data (data.appendType tag) value := by
  refine ⟨wordBytes tag.code, rfl, ?_⟩
  have framed : Frames engine (wordBytes tag.code ++ []) value := by
    apply frames_tagged
    intro depth _
    rw [body]
    exact reads_pure value
  rwa [List.append_nil] at framed

/-- A tag and one word, whose case reads the word. -/
theorem framed_word {data : TransportData} {tag : Tag} {width : ℕ} {word : BitVec width}
    (function : BitVec width → Value Contents) (whole : width % 8 = 0)
    (body : ∀ depth, unpackTagged engine (unpackValue engine depth) tag =
      readWord width >>= fun word => pure (function word)) :
    Framed engine data ((data.appendType tag).appendValue word) (function word) := by
  refine ⟨wordBytes tag.code ++ wordBytes word, List.append_assoc _ _ _, ?_⟩
  apply frames_tagged
  intro depth _
  rw [body]
  exact (reads_readWord whole word).bind_pure function

theorem framed_arrayBuffer {heap : ℕ → Contents} {data : TransportData} {buffer : ℕ}
    (agrees : Agrees heap data.exporter)
    (done : (serializeArrayBuffer buffer data).1 = .none) :
    Framed engine data (serializeArrayBuffer buffer data).2
      (.leaf (.arrayBuffer (heap buffer))) := by
  unfold serializeArrayBuffer at done ⊢
  by_cases empty : data.exporter.IsEmpty buffer
  · rw [if_pos empty] at done
    cases done
  · rw [if_neg empty, ← agrees buffer empty]
    refine ⟨wordBytes Tag.arrayBuffer.code ++ (wordBytes (data.exporter.buffers buffer).data ++
      wordBytes (data.exporter.buffers buffer).byteLength), ?_, ?_⟩
    · simp only [TransportData.neuter, TransportData.appendValue, TransportData.appendType,
        List.append_assoc]
    · apply frames_tagged
      intro depth _
      apply (reads_readWord rfl (data.exporter.buffers buffer).data).bind
      exact (reads_readWord rfl (data.exporter.buffers buffer).byteLength).bind_pure fun len =>
        Value.leaf (Leaf.arrayBuffer (Contents.mk (data.exporter.buffers buffer).data len))

theorem framed_view {heap : ℕ → Contents} {data : TransportData} {view : View ℕ}
    (agrees : Agrees heap data.exporter) (done : (serializeView view data).1 = .none) :
    Framed engine data (serializeView view data).2 (.leaf (.view (view.received heap))) := by
  unfold serializeView at done ⊢
  by_cases empty : data.exporter.IsEmpty view.buffer
  · rw [if_pos empty] at done
    cases done
  · rw [if_neg empty] at done ⊢
    cases named : view.kind.tag with
    | none =>
        rw [named] at done
        cases done
    | some tag =>
        refine ⟨wordBytes tag.code ++ viewBytes (heap view.buffer) view, ?_, frames_view named⟩
        rw [← agrees view.buffer empty]
        simp only [TransportData.neuter, TransportData.appendValue, TransportData.appendType,
          List.append_assoc, viewBytes]

theorem framed_native {data : TransportData} {clone : BitVec 64}
    (done : (serializeNative clone data).1 = .none) :
    Framed engine data (serializeNative clone data).2 (.leaf (.native clone)) := by
  unfold serializeNative at done ⊢
  by_cases cloned : clone ≠ 0
  · rw [if_pos cloned]
    refine ⟨wordBytes Tag.nativeObject.code ++ wordBytes clone, List.append_assoc _ _ _, ?_⟩
    apply frames_tagged
    intro depth _
    apply (reads_readWord rfl clone).bind_nil
    rw [if_neg cloned]
    exact reads_pure _
  · rw [if_neg cloned] at done
    cases done

theorem framed_error (data : TransportData) (string : JsString) :
    Framed engine data ((data.appendType .errorObj).appendString string)
      (.leaf (.error (some string))) := by
  refine ⟨wordBytes Tag.errorObj.code ++ stringBytes string, ?_, ?_⟩
  · rw [stream_appendString]
    exact List.append_assoc _ _ _
  · apply frames_tagged
    intro depth enough
    exact (frames_string string depth enough).bind_pure fun value =>
      Value.leaf (Leaf.error (some (engine.stringOf value)))

/-- **Leaves other than functions are framed.** -/
theorem framed_leaf {heap : ℕ → Contents} {leaf : Leaf ℕ} {data : TransportData}
    (agrees : Agrees heap data.exporter) (done : (serializeLeaf leaf data).1 = .none)
    (plain : ¬leaf.IsFunction) :
    Framed engine data (serializeLeaf leaf data).2 (.leaf (leaf.received heap)) := by
  cases leaf with
  | undefined => exact framed_tag fun _ => rfl
  | null => exact framed_tag fun _ => rfl
  | boolean value =>
      cases value with
      | true => exact framed_tag fun _ => rfl
      | false => exact framed_tag fun _ => rfl
  | int32 value => exact framed_word (fun word => .leaf (.int32 word)) rfl fun _ => rfl
  | uint32 value => exact framed_word (fun word => .leaf (.uint32 word)) rfl fun _ => rfl
  | double value => exact framed_word (fun word => .leaf (.double word)) rfl fun _ => rfl
  | string value => exact ⟨stringBytes value, stream_appendString data value, frames_string value⟩
  | arrayBuffer buffer => exact framed_arrayBuffer agrees done
  | view shown => exact framed_view agrees done
  | function fn => exact absurd trivial plain
  | error message => exact framed_error data (message.getD noErrorMessage)
  | external efn => exact absurd trivial plain
  | native clone => exact framed_native done
  | symbol => cases done

/-- A key's leaf is no function, and is received as it is. -/
theorem Key.toLeaf_plain (key : Key) (heap : ℕ → Contents) :
    ¬(key.toLeaf : Leaf ℕ).IsFunction ∧ (key.toLeaf : Leaf ℕ).received heap = key.toLeaf := by
  cases key with
  | name string named => exact ⟨fun function => function, rfl⟩
  | index number below =>
      rw [Key.toLeaf, Key.toLeaf]
      by_cases small : number.toNat < 2 ^ 31
      · rw [if_pos small, if_pos small]
        exact ⟨fun function => function, rfl⟩
      · rw [if_neg small, if_neg small]
        exact ⟨fun function => function, rfl⟩

/-- **Functions are out of step.** The reader leaves a function's pointer unread. -/
theorem not_framed_function {data : TransportData} {efn : BitVec 64} {value : Value Contents} :
    ¬Framed engine data ((data.appendType .function).appendValue efn) value := by
  rintro ⟨bytes, stream, framed⟩
  have written : data.stream ++ (wordBytes Tag.function.code ++ wordBytes efn) =
      data.stream ++ bytes := by
    rw [← stream]
    exact (List.append_assoc _ _ _).symm
  have same := List.append_cancel_left written
  have read := framed (bytes.length + 1) (Nat.le_add_right _ _) []
  have early : Reads (unpackValue engine (bytes.length + 1)) (wordBytes Tag.function.code)
      (.leaf .undefined) :=
    (reads_readType .function).bind_nil (reads_pure _)
  rw [← same, List.append_assoc] at read
  have unread := congrArg List.length (early.unique read).2
  rw [List.append_nil, length_wordBytes] at unread
  cases unread

end Transport
