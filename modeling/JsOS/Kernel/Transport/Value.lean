import Mathlib.Data.BitVec

/-! # Values a transfer carries

The script values that the serializer tells apart, as finite trees. What has no parts is a
leaf; arrays and objects hold further values. A tree names array buffers by a parameter, so
that the sender's values refer to buffer objects of its heap and the receiver's values carry
the contents they were given.
-/

namespace Transport

/-! ## Strings and property keys -/

/-- The length above which the engine makes no string. -/
def kMaxLength : ℕ := 2 ^ 28 - 16

/-- A string of UTF-16 units. -/
@[ext]
structure JsString where
  units : List (BitVec 16)
  length_le : units.length ≤ kMaxLength
deriving DecidableEq

/-- The string `__proto__`. Setting it as a property stores nothing in the object. -/
def JsString.proto : JsString :=
  ⟨[95, 95, 112, 114, 111, 116, 111, 95, 95], by decide⟩

/-- The number that decimal digits spell. -/
def numeral (units : List (BitVec 16)) : ℕ :=
  units.foldl (fun number digit => number * 10 + (digit.toNat - 48)) 0

/-- The array index a string spells: canonical decimal digits below `2 ^ 32 - 1`. -/
def JsString.arrayIndex (string : JsString) : Option (BitVec 32) :=
  if string.units ≠ [] ∧ (∀ digit ∈ string.units, 48 ≤ digit.toNat ∧ digit.toNat ≤ 57) ∧
      (string.units.length = 1 ∨ string.units.head? ≠ some 48) ∧
      numeral string.units < 2 ^ 32 - 1 then
    some (BitVec.ofNat 32 (numeral string.units))
  else none

theorem JsString.arrayIndex_lt {string : JsString} {index : BitVec 32}
    (spelled : string.arrayIndex = some index) : index.toNat < 2 ^ 32 - 1 := by
  unfold JsString.arrayIndex at spelled
  split at spelled
  · rename_i canonical
    obtain ⟨-, -, -, below⟩ := canonical
    have same := Option.some.inj spelled
    rw [← same, BitVec.toNat_ofNat, Nat.mod_eq_of_lt (by omega)]
    exact below
  · cases spelled

/-- `__proto__` spells no array index. -/
theorem JsString.proto_named : JsString.proto.arrayIndex = none := by
  unfold JsString.arrayIndex
  apply if_neg
  intro canonical
  have digit := canonical.2.1 95 List.mem_cons_self
  exact absurd digit.2 (by decide)

/-- An own property's key: an array index, or a name that spells none. -/
inductive Key where
  | name (string : JsString) (named : string.arrayIndex = none)
  | index (number : BitVec 32) (below : number.toNat < 2 ^ 32 - 1)
deriving DecidableEq

/-- The key that a string denotes. -/
def Key.ofString (string : JsString) : Key :=
  match spelled : string.arrayIndex with
  | some number => .index number (JsString.arrayIndex_lt spelled)
  | none => .name string spelled

/-- A name denotes itself. -/
theorem Key.ofString_name {string : JsString} (named : string.arrayIndex = none) :
    Key.ofString string = .name string named := by
  unfold Key.ofString
  split
  · rename_i index spelled
    rw [named] at spelled
    cases spelled
  · rfl

theorem Key.index_ne_proto (number : BitVec 32) (below : number.toNat < 2 ^ 32 - 1) :
    Key.index number below ≠ Key.ofString .proto := by
  rw [Key.ofString_name JsString.proto_named]
  exact Key.noConfusion

/-! ## Array buffers and views -/

/-- What an array buffer holds: an address and a length. A neutered buffer has length zero. -/
structure Contents where
  data : BitVec 64
  byteLength : BitVec 64
deriving DecidableEq

/-- The views of an array buffer. -/
inductive ViewKind where
  | uint8
  | uint8Clamped
  | uint16
  | uint32
  | int8
  | int16
  | int32
  | dataView
  | float32
  | float64
deriving DecidableEq

/-- Bytes in one element of a view. -/
def ViewKind.elementSize : ViewKind → ℕ
  | .uint8 => 1
  | .uint8Clamped => 1
  | .uint16 => 2
  | .uint32 => 4
  | .int8 => 1
  | .int16 => 2
  | .int32 => 4
  | .dataView => 1
  | .float32 => 4
  | .float64 => 8

theorem ViewKind.elementSize_dvd (kind : ViewKind) : kind.elementSize ∣ 2 ^ 64 := by
  cases kind <;> decide

/-- A view of a buffer, which covers whole elements. -/
structure View (β : Type) where
  kind : ViewKind
  buffer : β
  byteOffset : BitVec 64
  byteLength : BitVec 64
  whole : kind.elementSize ∣ byteLength.toNat
deriving DecidableEq

/-- The view that a typed array's constructor makes from an element count. -/
def View.new {β : Type} (kind : ViewKind) (buffer : β) (byteOffset length : BitVec 64) :
    View β where
  kind := kind
  buffer := buffer
  byteOffset := byteOffset
  byteLength := BitVec.ofNat 64 (length.toNat * kind.elementSize)
  whole := by
    rw [BitVec.toNat_ofNat, Nat.dvd_mod_iff kind.elementSize_dvd]
    exact Nat.dvd_mul_left _ _

/-! ## Values -/

/-- A value without parts. Numbers are told apart as the engine classifies them: an `int32`,
else a `uint32`, else a double, given by its bits. An error is known by its message, when
that is a string. A wrapped native object is known by the address that its `Clone` yields,
zero when it has none. -/
inductive Leaf (β : Type) where
  | undefined
  | null
  | boolean (value : Bool)
  | int32 (value : BitVec 32)
  | uint32 (value : BitVec 32)
  | double (value : BitVec 64)
  | string (value : JsString)
  | arrayBuffer (buffer : β)
  | view (view : View β)
  | function (fn : ℕ)
  | error (message : Option JsString)
  | external (efn : BitVec 64)
  | native (clone : BitVec 64)
  | symbol
deriving DecidableEq

/-- A script value. An object's properties stand in their own order. -/
inductive Value (β : Type) where
  | leaf (leaf : Leaf β)
  | array (elements : List (Value β))
  | object (properties : List (Key × Value β))

variable {β : Type}

/-- **Induction on values.** Leaves, and containers of values already covered. -/
theorem Value.induct {motive : Value β → Prop} (leaf : ∀ leaf, motive (.leaf leaf))
    (array : ∀ elements, (∀ element ∈ elements, motive element) → motive (.array elements))
    (object : ∀ properties, (∀ property ∈ properties, motive property.2) →
      motive (.object properties))
    (value : Value β) : motive value := by
  induction size : sizeOf value using Nat.strong_induction_on generalizing value with
  | _ bound ih =>
      cases value with
      | leaf own => exact leaf own
      | array elements =>
          apply array elements
          intro element member
          have smaller := List.sizeOf_lt_of_mem member
          apply ih (sizeOf element) _ element rfl
          rw [← size, Value.array.sizeOf_spec]
          omega
      | object properties =>
          apply object properties
          intro property member
          have smaller := List.sizeOf_lt_of_mem member
          have part : sizeOf property.2 < sizeOf property := by
            rw [Prod.mk.sizeOf_spec property.1 property.2]
            omega
          apply ih (sizeOf property.2) _ property.2 rfl
          rw [← size, Value.object.sizeOf_spec]
          omega

/-- The value that reads as a key: an index is a number, `int32` when it fits. -/
def Key.toLeaf : Key → Leaf β
  | .name string _ => .string string
  | .index number _ => if number.toNat < 2 ^ 31 then .int32 number else .uint32 number

mutual

/-- A property of the value and of all its parts. -/
def Value.Everywhere (holds : Value β → Prop) : Value β → Prop
  | .leaf own => holds (.leaf own)
  | .array elements => holds (.array elements) ∧ elementsEverywhere holds elements
  | .object properties => holds (.object properties) ∧ propertiesEverywhere holds properties

def elementsEverywhere (holds : Value β → Prop) : List (Value β) → Prop
  | [] => True
  | element :: elements => element.Everywhere holds ∧ elementsEverywhere holds elements

def propertiesEverywhere (holds : Value β → Prop) : List (Key × Value β) → Prop
  | [] => True
  | (_, value) :: properties => value.Everywhere holds ∧ propertiesEverywhere holds properties

end

theorem elementsEverywhere_iff {holds : Value β → Prop} {elements : List (Value β)} :
    elementsEverywhere holds elements ↔ ∀ element ∈ elements, element.Everywhere holds := by
  induction elements with
  | nil => simp [elementsEverywhere]
  | cons element elements ih => rw [elementsEverywhere, ih, List.forall_mem_cons]

theorem propertiesEverywhere_iff {holds : Value β → Prop} {properties : List (Key × Value β)} :
    propertiesEverywhere holds properties ↔
      ∀ property ∈ properties, property.2.Everywhere holds := by
  induction properties with
  | nil => simp [propertiesEverywhere]
  | cons property properties ih => rw [propertiesEverywhere, ih, List.forall_mem_cons]

@[simp]
theorem Value.everywhere_leaf {holds : Value β → Prop} {own : Leaf β} :
    (Value.leaf own).Everywhere holds ↔ holds (.leaf own) := by
  rw [Value.Everywhere]

@[simp]
theorem Value.everywhere_array {holds : Value β → Prop} {elements : List (Value β)} :
    (Value.array elements).Everywhere holds ↔
      holds (.array elements) ∧ ∀ element ∈ elements, element.Everywhere holds := by
  rw [Value.Everywhere, elementsEverywhere_iff]

@[simp]
theorem Value.everywhere_object {holds : Value β → Prop} {properties : List (Key × Value β)} :
    (Value.object properties).Everywhere holds ↔
      holds (.object properties) ∧ ∀ property ∈ properties, property.2.Everywhere holds := by
  rw [Value.Everywhere, propertiesEverywhere_iff]

/-- What the engine guarantees of a container: a length below `2 ^ 32`, and distinct keys. -/
def Value.Sized : Value β → Prop
  | .leaf _ => True
  | .array elements => elements.length < 2 ^ 32
  | .object properties => properties.length < 2 ^ 32 ∧ (properties.map Prod.fst).Nodup

/-- A value as the engine holds it. -/
def Value.WellFormed (value : Value β) : Prop :=
  value.Everywhere Value.Sized

/-- A script function, or a wrapped external one. -/
def Leaf.IsFunction : Leaf β → Prop
  | .function _ => True
  | .external _ => True
  | _ => False

def Value.NotFunction : Value β → Prop
  | .leaf own => ¬own.IsFunction
  | .array _ => True
  | .object _ => True

/-- No function occurs in the value. -/
def Value.FunctionFree (value : Value β) : Prop :=
  value.Everywhere Value.NotFunction

def Value.NoProtoKey : Value β → Prop
  | .leaf _ => True
  | .array _ => True
  | .object properties => ∀ property ∈ properties, property.1 ≠ Key.ofString .proto

/-- No object in the value has a property `__proto__` of its own. -/
def Value.ProtoFree (value : Value β) : Prop :=
  value.Everywhere Value.NoProtoKey

mutual

/-- Levels of nesting, the value's own included. -/
def Value.depth : Value β → ℕ
  | .leaf _ => 1
  | .array elements => elementsDepth elements + 1
  | .object properties => propertiesDepth properties + 1

def elementsDepth : List (Value β) → ℕ
  | [] => 0
  | element :: elements => max element.depth (elementsDepth elements)

/-- A key is one level deep. -/
def propertiesDepth : List (Key × Value β) → ℕ
  | [] => 0
  | (_, value) :: properties => max (max 1 value.depth) (propertiesDepth properties)

end

mutual

/-- The leaves that stand in a value, in order; keys are not among them. -/
def Value.leaves : Value β → List (Leaf β)
  | .leaf own => [own]
  | .array elements => elementsLeaves elements
  | .object properties => propertiesLeaves properties

def elementsLeaves : List (Value β) → List (Leaf β)
  | [] => []
  | element :: elements => element.leaves ++ elementsLeaves elements

def propertiesLeaves : List (Key × Value β) → List (Leaf β)
  | [] => []
  | (_, value) :: properties => value.leaves ++ propertiesLeaves properties

end

/-- The buffer that a leaf hands over. -/
def Leaf.buffer? : Leaf β → Option β
  | .arrayBuffer buffer => some buffer
  | .view shown => some shown.buffer
  | _ => none

/-- The buffers in a value, in order. -/
def Value.buffers (value : Value β) : List β :=
  value.leaves.filterMap Leaf.buffer?

end Transport
