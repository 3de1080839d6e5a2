import JsOS.Kernel.Transport.Serialize

/-! # The order in which a value is serialized

A value's parts, in the order in which the serializer meets them: leaves, keys, and what is
nested too deep to be looked at. What a transfer does to the sending thread, and whether it
fails, depends on this list alone: the parts act one after another until one offends.
-/

namespace Transport

/-! ## What a part does -/

/-- What the serializer meets. -/
inductive Part where
  | tooDeep
  | leaf (leaf : Leaf ℕ)
deriving DecidableEq

/-- The error that a leaf meets in a thread. -/
def Leaf.refusal (thread : Thread) : Leaf ℕ → SerializeError
  | .arrayBuffer buffer => if thread.IsEmpty buffer then .emptyBuffer else .none
  | .view shown =>
      if thread.IsEmpty shown.buffer then .emptyBuffer
      else if shown.kind.tag = none then .typedArrayView else .none
  | .native clone => if clone ≠ 0 then .none else .notClonable
  | .symbol => .invalidType
  | _ => .none

/-- What a leaf without error does to the sending thread. -/
def Leaf.effect (thread : Thread) : Leaf ℕ → Thread
  | .arrayBuffer buffer => thread.neuter buffer
  | .view shown => thread.neuter shown.buffer
  | .function fn => thread.addExport fn
  | _ => thread

def Part.refusal (thread : Thread) : Part → SerializeError
  | .tooDeep => .maxStack
  | .leaf own => own.refusal thread

def Part.effect (thread : Thread) : Part → Thread
  | .tooDeep => thread
  | .leaf own => own.effect thread

/-- A part that the serializer refuses. -/
def Part.Offends (thread : Thread) (part : Part) : Prop :=
  part.refusal thread ≠ .none

/-- A leaf that changes the sending thread: a buffer or view, or a function. -/
def Leaf.Acts : Leaf ℕ → Prop
  | .arrayBuffer _ => True
  | .view _ => True
  | .function _ => True
  | _ => False

/-- A part that the serializer takes, changing the sending thread. -/
def Part.TakesEffect (thread : Thread) : Part → Prop
  | .tooDeep => False
  | .leaf own => own.refusal thread = .none ∧ own.Acts

/-- The parts act in order until one offends. -/
def runParts : List Part → Thread → SerializeError × Thread
  | [], thread => (.none, thread)
  | part :: parts, thread =>
      if part.refusal thread = .none then runParts parts (part.effect thread)
      else (part.refusal thread, thread)

theorem runParts_taken {part : Part} {thread : Thread} (taken : part.refusal thread = .none) :
    runParts [part] thread = (.none, part.effect thread) := by
  rw [runParts, if_pos taken]
  rfl

theorem runParts_refused {part : Part} {thread : Thread} {error : SerializeError}
    (refused : part.refusal thread = error) (some : error ≠ .none) :
    runParts [part] thread = (error, thread) := by
  rw [runParts, refused, if_neg some]

/-- Running parts one list after another. -/
theorem runParts_append (first second : List Part) (thread : Thread) :
    runParts (first ++ second) thread =
      if (runParts first thread).1 = .none then runParts second (runParts first thread).2
      else runParts first thread := by
  induction first generalizing thread with
  | nil => rfl
  | cons part first ih =>
      rw [List.cons_append, runParts, runParts]
      by_cases taken : part.refusal thread = .none
      · rw [if_pos taken, if_pos taken, ih]
      · rw [if_neg taken, if_neg taken, if_neg taken]

/-! ## The parts of a value -/

/-- What the serializer meets at a key. -/
def Key.part (key : Key) (stackLevel : ℕ) : Part :=
  if kMaxStackSize < stackLevel then .tooDeep else .leaf key.toLeaf

mutual

/-- The parts of a value that stands at a level. -/
def Value.parts (value : Value ℕ) (stackLevel : ℕ) : List Part :=
  if kMaxStackSize < stackLevel then [.tooDeep]
  else
    match value with
    | .leaf own => [.leaf own]
    | .array elements => elementsParts elements (stackLevel + 1)
    | .object properties => propertiesParts properties (stackLevel + 1)

def elementsParts (elements : List (Value ℕ)) (stackLevel : ℕ) : List Part :=
  match elements with
  | [] => []
  | element :: elements => element.parts stackLevel ++ elementsParts elements stackLevel

def propertiesParts (properties : List (Key × Value ℕ)) (stackLevel : ℕ) : List Part :=
  match properties with
  | [] => []
  | (key, value) :: properties =>
      key.part stackLevel :: (value.parts stackLevel ++ propertiesParts properties stackLevel)

end

/-! ## The serializer runs the parts -/

/-- What of a serializer's result concerns the sending thread. -/
def outcome (result : SerializeError × TransportData) : SerializeError × Thread :=
  (result.1, result.2.exporter)

theorem outcome_serializeLeaf (leaf : Leaf ℕ) (data : TransportData) :
    outcome (serializeLeaf leaf data) = runParts [.leaf leaf] data.exporter := by
  cases leaf with
  | arrayBuffer buffer =>
      change outcome (serializeArrayBuffer buffer data) = _
      unfold serializeArrayBuffer
      by_cases empty : data.exporter.IsEmpty buffer
      · have refused : (Part.leaf (.arrayBuffer buffer)).refusal data.exporter = .emptyBuffer :=
          if_pos empty
        rw [if_pos empty, runParts_refused refused (by decide)]
        rfl
      · have taken : (Part.leaf (.arrayBuffer buffer)).refusal data.exporter = .none :=
          if_neg empty
        rw [if_neg empty, runParts_taken taken]
        rfl
  | view shown =>
      change outcome (serializeView shown data) = _
      unfold serializeView
      by_cases empty : data.exporter.IsEmpty shown.buffer
      · have refused : (Part.leaf (.view shown)).refusal data.exporter = .emptyBuffer :=
          if_pos empty
        rw [if_pos empty, runParts_refused refused (by decide)]
        rfl
      · rw [if_neg empty]
        cases tag : shown.kind.tag with
        | none =>
            have refused : (Part.leaf (.view shown)).refusal data.exporter = .typedArrayView :=
              (if_neg empty).trans (if_pos tag)
            rw [runParts_refused refused (by decide)]
            rfl
        | some code =>
            have named : shown.kind.tag ≠ none := by
              rw [tag]
              exact Option.some_ne_none code
            have taken : (Part.leaf (.view shown)).refusal data.exporter = .none :=
              (if_neg empty).trans (if_neg named)
            rw [runParts_taken taken]
            rfl
  | native clone =>
      change outcome (serializeNative clone data) = _
      unfold serializeNative
      by_cases cloned : clone ≠ 0
      · have taken : (Part.leaf (.native clone)).refusal data.exporter = .none := if_pos cloned
        rw [if_pos cloned, runParts_taken taken]
        rfl
      · have refused : (Part.leaf (.native clone)).refusal data.exporter = .notClonable :=
          if_neg cloned
        rw [if_neg cloned, runParts_refused refused (by decide)]
        rfl
  | symbol => rfl
  | _ => rfl

/-- Going on after a step runs the parts of both. -/
theorem outcome_andThen {first second : List Part} {result : SerializeError × TransportData}
    {next : TransportData → SerializeError × TransportData} {thread : Thread}
    (ran : outcome result = runParts first thread)
    (runs : ∀ data, outcome (next data) = runParts second data.exporter) :
    outcome (SerializeError.andThen result next) = runParts (first ++ second) thread := by
  rw [runParts_append, ← ran]
  unfold SerializeError.andThen
  by_cases taken : result.1 = .none
  · have also : (outcome result).1 = .none := taken
    rw [if_pos taken, if_pos also]
    exact runs result.2
  · have also : ¬(outcome result).1 = .none := taken
    rw [if_neg taken, if_neg also]

theorem outcome_serializeKey (key : Key) (stackLevel : ℕ) (data : TransportData) :
    outcome (serializeKey key stackLevel data) =
      runParts [key.part stackLevel] data.exporter := by
  unfold serializeKey Key.part
  by_cases deep : kMaxStackSize < stackLevel
  · rw [if_pos deep, if_pos deep]
    rfl
  · rw [if_neg deep, if_neg deep]
    exact outcome_serializeLeaf key.toLeaf data

/-- The elements of an array run their parts, when each does. -/
theorem outcome_serializeElements {elements : List (Value ℕ)}
    (each : ∀ element ∈ elements, ∀ stackLevel data,
      outcome (serializeValue element stackLevel data) =
        runParts (element.parts stackLevel) data.exporter)
    (stackLevel : ℕ) (data : TransportData) :
    outcome (serializeElements elements stackLevel data) =
      runParts (elementsParts elements stackLevel) data.exporter := by
  induction elements generalizing data with
  | nil =>
      rw [serializeElements, elementsParts]
      rfl
  | cons element elements ih =>
      rw [serializeElements, elementsParts]
      apply outcome_andThen (each element List.mem_cons_self stackLevel data)
      intro next
      exact ih (fun later member => each later (List.mem_cons_of_mem _ member)) next

/-- The properties of an object run their parts, when each value does. -/
theorem outcome_serializeProperties {properties : List (Key × Value ℕ)}
    (each : ∀ property ∈ properties, ∀ stackLevel data,
      outcome (serializeValue property.2 stackLevel data) =
        runParts (property.2.parts stackLevel) data.exporter)
    (stackLevel : ℕ) (data : TransportData) :
    outcome (serializeProperties properties stackLevel data) =
      runParts (propertiesParts properties stackLevel) data.exporter := by
  induction properties generalizing data with
  | nil =>
      rw [serializeProperties, propertiesParts]
      rfl
  | cons property properties ih =>
      rw [serializeProperties, propertiesParts, ← List.singleton_append]
      apply outcome_andThen (outcome_serializeKey property.1 stackLevel data)
      intro next
      apply outcome_andThen (each property List.mem_cons_self stackLevel next)
      intro last
      exact ih (fun later member => each later (List.mem_cons_of_mem _ member)) last

/-- **The serializer runs the parts.** Its error, and what it does to the sending thread,
are those of the value's parts taken in order. -/
theorem outcome_serializeValue (value : Value ℕ) (stackLevel : ℕ) (data : TransportData) :
    outcome (serializeValue value stackLevel data) =
      runParts (value.parts stackLevel) data.exporter := by
  induction value using Value.induct generalizing stackLevel data with
  | leaf own =>
      rw [serializeValue, Value.parts]
      by_cases deep : kMaxStackSize < stackLevel
      · rw [if_pos deep, if_pos deep]
        rfl
      · rw [if_neg deep, if_neg deep]
        exact outcome_serializeLeaf own data
  | array elements ih =>
      rw [serializeValue, Value.parts]
      by_cases deep : kMaxStackSize < stackLevel
      · rw [if_pos deep, if_pos deep]
        rfl
      · rw [if_neg deep, if_neg deep]
        exact outcome_serializeElements ih (stackLevel + 1) _
  | object properties ih =>
      rw [serializeValue, Value.parts]
      by_cases deep : kMaxStackSize < stackLevel
      · rw [if_pos deep, if_pos deep]
        rfl
      · rw [if_neg deep, if_neg deep]
        exact outcome_serializeProperties ih (stackLevel + 1) _

/-! ## The buffers of the parts -/

/-- The buffer that a part hands over. -/
def Part.buffer? : Part → Option ℕ
  | .tooDeep => none
  | .leaf own => own.buffer?

/-- A buffer that a taken part hands over was not empty, and is then. -/
theorem Part.takes_buffer {part : Part} {thread : Thread} {buffer : ℕ}
    (taken : part.refusal thread = .none) (handed : part.buffer? = some buffer) :
    ¬thread.IsEmpty buffer ∧ (part.effect thread).IsEmpty buffer := by
  cases part with
  | tooDeep => cases handed
  | leaf own =>
      cases own with
      | arrayBuffer held =>
          cases handed
          refine ⟨fun empty => ?_, thread.isEmpty_neuter buffer⟩
          have refused : (Part.leaf (.arrayBuffer buffer)).refusal thread = .emptyBuffer :=
            if_pos empty
          rw [refused] at taken
          cases taken
      | view shown =>
          have held : shown.buffer = buffer := Option.some.inj handed
          rw [← held]
          refine ⟨fun empty => ?_, thread.isEmpty_neuter shown.buffer⟩
          have refused : (Part.leaf (.view shown)).refusal thread = .emptyBuffer := if_pos empty
          rw [refused] at taken
          cases taken
      | _ => cases handed

theorem Key.buffer?_part (key : Key) (stackLevel : ℕ) : (key.part stackLevel).buffer? = none := by
  unfold Key.part
  split
  · rfl
  · cases key with
    | name string named => rfl
    | index number below =>
        rw [Key.toLeaf]
        by_cases small : number.toNat < 2 ^ 31
        · rw [if_pos small]
          rfl
        · rw [if_neg small]
          rfl

/-- The buffers that a value's parts hand over stand in the value, in order. -/
theorem Value.parts_buffers_sublist (value : Value ℕ) (stackLevel : ℕ) :
    ((value.parts stackLevel).filterMap Part.buffer?).Sublist value.buffers := by
  unfold Value.buffers
  induction value using Value.induct generalizing stackLevel with
  | leaf own =>
      rw [Value.parts, Value.leaves]
      split
      · exact List.nil_sublist _
      · exact List.Sublist.refl _
  | array elements ih =>
      rw [Value.parts, Value.leaves]
      split
      · exact List.nil_sublist _
      · induction elements with
        | nil =>
            rw [elementsParts]
            exact List.nil_sublist _
        | cons element elements later =>
            rw [elementsParts, elementsLeaves, List.filterMap_append, List.filterMap_append]
            apply List.Sublist.append (ih element List.mem_cons_self (stackLevel + 1))
            exact later fun other member => ih other (List.mem_cons_of_mem _ member)
  | object properties ih =>
      rw [Value.parts, Value.leaves]
      split
      · exact List.nil_sublist _
      · induction properties with
        | nil =>
            rw [propertiesParts]
            exact List.nil_sublist _
        | cons property properties later =>
            rw [propertiesParts, propertiesLeaves, List.filterMap_cons,
              Key.buffer?_part, List.filterMap_append, List.filterMap_append]
            apply List.Sublist.append (ih property List.mem_cons_self (stackLevel + 1))
            exact later fun other member => ih other (List.mem_cons_of_mem _ member)

/-- What the serializer meets in the arguments of a call. -/
theorem elementsParts_buffers_sublist (args : List (Value ℕ)) :
    ((elementsParts args 1).filterMap Part.buffer?).Sublist (Value.array args).buffers := by
  have whole := (Value.array args).parts_buffers_sublist 0
  rwa [Value.parts, if_neg (by decide)] at whole

end Transport
