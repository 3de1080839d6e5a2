import JsOS.Kernel.Transport.Parts
import JsOS.Kernel.Transport.Received

/-! # The stream keeps in step

A value is in step when each value in it is read back from exactly the bytes that the
serializer wrote for it, whatever follows, as the receiver's copy of it. Values without
functions are in step, and come back whole; a function never is, because the serializer
writes a pointer that the reader does not take.
-/

namespace Transport

open Framing

variable {engine : Engine} {heap : ℕ → Contents}

mutual

/-- Each value in the value is framed by what the serializer wrote for it. -/
def InStep (engine : Engine) (heap : ℕ → Contents) (value : Value ℕ) (stackLevel : ℕ)
    (data : TransportData) : Prop :=
  Framed engine data (serializeValue value stackLevel data).2 (value.received heap) ∧
    match value with
    | .leaf _ => True
    | .array elements =>
        ElementsInStep engine heap elements (stackLevel + 1)
          ((data.appendType .array).appendValue (BitVec.ofNat 32 elements.length))
    | .object properties =>
        PropertiesInStep engine heap properties (stackLevel + 1)
          ((data.appendType .hashmap).appendValue (BitVec.ofNat 32 properties.length))

/-- Each element is in step where it is serialized. -/
def ElementsInStep (engine : Engine) (heap : ℕ → Contents) (elements : List (Value ℕ))
    (stackLevel : ℕ) (data : TransportData) : Prop :=
  match elements with
  | [] => True
  | element :: elements =>
      InStep engine heap element stackLevel data ∧
        ElementsInStep engine heap elements stackLevel (serializeValue element stackLevel data).2

/-- Each key and each property's value is in step where it is serialized. -/
def PropertiesInStep (engine : Engine) (heap : ℕ → Contents) (properties : List (Key × Value ℕ))
    (stackLevel : ℕ) (data : TransportData) : Prop :=
  match properties with
  | [] => True
  | (key, value) :: properties =>
      Framed engine data (serializeKey key stackLevel data).2 (.leaf key.toLeaf) ∧
        InStep engine heap value stackLevel (serializeKey key stackLevel data).2 ∧
        PropertiesInStep engine heap properties stackLevel
          (serializeValue value stackLevel (serializeKey key stackLevel data).2).2

end

/-! ## Steps that succeed -/

theorem andThen_eq_none {result : SerializeError × TransportData}
    {next : TransportData → SerializeError × TransportData}
    (done : (SerializeError.andThen result next).1 = .none) :
    result.1 = .none ∧ SerializeError.andThen result next = next result.2 := by
  unfold SerializeError.andThen at done ⊢
  by_cases taken : result.1 = .none
  · exact ⟨taken, if_pos taken⟩
  · rw [if_neg taken] at done
    exact absurd done taken

/-- A value that the serializer takes stands at a level that it looks at. -/
theorem shallow_of_none {value : Value ℕ} {stackLevel : ℕ} {data : TransportData}
    (done : (serializeValue value stackLevel data).1 = .none) : ¬kMaxStackSize < stackLevel := by
  intro deep
  rw [serializeValue.eq_def, if_pos deep] at done
  cases done

theorem serializeKey_of_shallow {key : Key} {stackLevel : ℕ} {data : TransportData}
    (done : (serializeKey key stackLevel data).1 = .none) :
    serializeKey key stackLevel data = serializeLeaf key.toLeaf data := by
  unfold serializeKey at done ⊢
  by_cases deep : kMaxStackSize < stackLevel
  · rw [if_pos deep] at done
    cases done
  · exact if_neg deep

theorem InStep.framed {value : Value ℕ} {stackLevel : ℕ} {data : TransportData}
    (inStep : InStep engine heap value stackLevel data) :
    Framed engine data (serializeValue value stackLevel data).2 (value.received heap) := by
  rw [InStep.eq_def] at inStep
  exact inStep.1

/-- A part leaves alone the contents of the buffers that it does not neuter. -/
theorem Agrees.effect {thread : Thread} (agrees : Agrees heap thread) (part : Part) :
    Agrees heap (part.effect thread) := by
  have neutered (buffer : ℕ) : Agrees heap (thread.neuter buffer) := by
    intro other full
    have different : other ≠ buffer := by
      intro same
      rw [same] at full
      exact full (thread.isEmpty_neuter buffer)
    have kept : (thread.neuter buffer).buffers other = thread.buffers other :=
      Thread.buffers_neuter_of_ne different
    rw [kept]
    apply agrees
    unfold Thread.IsEmpty at full ⊢
    rwa [kept] at full
  cases part with
  | tooDeep => exact agrees
  | leaf own =>
      cases own with
      | arrayBuffer buffer => exact neutered buffer
      | view shown => exact neutered shown.buffer
      | _ => exact agrees

theorem Agrees.runParts {thread : Thread} (agrees : Agrees heap thread) (parts : List Part) :
    Agrees heap (runParts parts thread).2 := by
  induction parts generalizing thread with
  | nil => exact agrees
  | cons part parts ih =>
      rw [Transport.runParts]
      by_cases taken : part.refusal thread = .none
      · rw [if_pos taken]
        exact ih (agrees.effect part)
      · rw [if_neg taken]
        exact agrees

theorem Agrees.serializeValue {data : TransportData} (agrees : Agrees heap data.exporter)
    (value : Value ℕ) (stackLevel : ℕ) :
    Agrees heap (serializeValue value stackLevel data).2.exporter := by
  have ran := congrArg Prod.snd (outcome_serializeValue value stackLevel data)
  change (Transport.serializeValue value stackLevel data).2.exporter = _ at ran
  rw [ran]
  exact agrees.runParts _

theorem Agrees.serializeKey {data : TransportData} (agrees : Agrees heap data.exporter)
    (key : Key) (stackLevel : ℕ) :
    Agrees heap (serializeKey key stackLevel data).2.exporter := by
  have ran := congrArg Prod.snd (outcome_serializeKey key stackLevel data)
  change (Transport.serializeKey key stackLevel data).2.exporter = _ at ran
  rw [ran]
  exact agrees.runParts _

/-! ## Arrays -/

/-- The frames of elements in step, one after another. -/
theorem elements_frames {elements : List (Value ℕ)} {stackLevel : ℕ} {data : TransportData}
    (inStep : ElementsInStep engine heap elements stackLevel data)
    (done : (serializeElements elements stackLevel data).1 = .none) :
    ∃ frames : List (Bytes × Value Contents),
      frames.map Prod.snd = elementsReceived heap elements ∧
      (serializeElements elements stackLevel data).2.stream =
        data.stream ++ (frames.map Prod.fst).flatten ∧
      ∀ frame ∈ frames, Frames engine frame.1 frame.2 := by
  induction elements generalizing data with
  | nil =>
      refine ⟨[], rfl, ?_, fun frame member => absurd member List.not_mem_nil⟩
      rw [serializeElements]
      exact (List.append_nil _).symm
  | cons element elements ih =>
      rw [ElementsInStep] at inStep
      rw [serializeElements] at done ⊢
      obtain ⟨-, next⟩ := andThen_eq_none done
      rw [next] at done ⊢
      obtain ⟨bytes, stream, framed⟩ := inStep.1.framed
      obtain ⟨frames, values, streams, each⟩ := ih inStep.2 done
      refine ⟨(bytes, element.received heap) :: frames, ?_, ?_, ?_⟩
      · rw [List.map_cons, values, elementsReceived]
      · rw [streams, stream, List.map_cons, List.flatten_cons, List.append_assoc]
      · exact List.forall_mem_cons.mpr ⟨framed, each⟩

/-- **Arrays of elements in step are framed.** -/
theorem framed_array {elements : List (Value ℕ)} {stackLevel : ℕ} {data : TransportData}
    (sized : elements.length < 2 ^ 32)
    (inStep : ElementsInStep engine heap elements stackLevel
      ((data.appendType .array).appendValue (BitVec.ofNat 32 elements.length)))
    (done : (serializeElements elements stackLevel
      ((data.appendType .array).appendValue (BitVec.ofNat 32 elements.length))).1 = .none) :
    Framed engine data (serializeElements elements stackLevel
      ((data.appendType .array).appendValue (BitVec.ofNat 32 elements.length))).2
      (.array (elementsReceived heap elements)) := by
  obtain ⟨frames, values, stream, each⟩ := elements_frames inStep done
  refine ⟨wordBytes Tag.array.code ++ (wordBytes (BitVec.ofNat 32 elements.length) ++
    (frames.map Prod.fst).flatten), ?_, ?_⟩
  · rw [stream]
    simp only [TransportData.appendType, TransportData.appendValue, List.append_assoc]
  · apply frames_tagged
    intro depth enough
    rw [List.length_append] at enough
    have count : (BitVec.ofNat 32 elements.length).toNat = frames.length := by
      have lengths := congrArg List.length values
      rw [List.length_map, elementsReceived_length] at lengths
      rw [BitVec.toNat_ofNat, Nat.mod_eq_of_lt sized, lengths]
    have inside (frame : Bytes × Value Contents) (member : frame ∈ frames) :
        Reads (unpackValue engine depth) frame.1 frame.2 :=
      each frame member depth
        ((length_frame_le member).trans ((Nat.le_add_left _ _).trans enough))
    apply (reads_readWord rfl (BitVec.ofNat 32 elements.length)).bind
    rw [count, ← values]
    exact (reads_many inside).bind_pure Value.array

/-! ## Objects -/

/-- Bytes frame a key and a value for one turn of the object loop. -/
def FramesEntry (engine : Engine) (bytes : Bytes) (entry : Value Contents × Value Contents) :
    Prop :=
  ∀ depth, bytes.length ≤ depth → Reads (unpackEntry (unpackValue engine depth)) bytes entry

/-- One turn of the object loop reads a key's frame and a value's. -/
theorem framesEntry_append {key value : Value Contents} {first second : Bytes}
    (framesKey : Frames engine first key) (framesValue : Frames engine second value) :
    FramesEntry engine (first ++ second) (key, value) := by
  intro depth enough
  rw [List.length_append] at enough
  have readsKey := framesKey depth ((Nat.le_add_right _ _).trans enough)
  have readsValue := framesValue depth ((Nat.le_add_left _ _).trans enough)
  exact readsKey.bind (readsValue.bind_pure fun value => (key, value))

/-- What the object loop reads for a property. -/
def entryOf (property : Key × Value Contents) : Value Contents × Value Contents :=
  (.leaf property.1.toLeaf, property.2)

/-- The frames of properties in step, one after another. -/
theorem properties_frames {properties : List (Key × Value ℕ)} {stackLevel : ℕ}
    {data : TransportData} (inStep : PropertiesInStep engine heap properties stackLevel data)
    (done : (serializeProperties properties stackLevel data).1 = .none) :
    ∃ frames : List (Bytes × (Value Contents × Value Contents)),
      frames.map Prod.snd = (propertiesReceived heap properties).map entryOf ∧
      (serializeProperties properties stackLevel data).2.stream =
        data.stream ++ (frames.map Prod.fst).flatten ∧
      ∀ frame ∈ frames, FramesEntry engine frame.1 frame.2 := by
  induction properties generalizing data with
  | nil =>
      refine ⟨[], rfl, ?_, fun frame member => absurd member List.not_mem_nil⟩
      rw [serializeProperties]
      exact (List.append_nil _).symm
  | cons property properties ih =>
      rw [PropertiesInStep] at inStep
      rw [serializeProperties] at done ⊢
      obtain ⟨-, next⟩ := andThen_eq_none done
      rw [next] at done ⊢
      obtain ⟨-, last⟩ := andThen_eq_none done
      rw [last] at done ⊢
      obtain ⟨framedKey, framedValue, later⟩ := inStep
      obtain ⟨keyBytes, keyStream, readsKey⟩ := framedKey
      obtain ⟨bytes, stream, reads⟩ := framedValue.framed
      obtain ⟨frames, values, streams, each⟩ := ih later done
      refine ⟨(keyBytes ++ bytes, entryOf (property.1, property.2.received heap)) :: frames,
        ?_, ?_, ?_⟩
      · rw [List.map_cons, values, propertiesReceived, List.map_cons]
      · rw [streams, stream, keyStream, List.map_cons, List.flatten_cons]
        simp only [List.append_assoc]
      · exact List.forall_mem_cons.mpr ⟨framesEntry_append readsKey reads, each⟩

/-- A property other than `__proto__`. -/
def IsStored (property : Key × Value Contents) : Prop :=
  property.1 ≠ Key.ofString .proto

instance (property : Key × Value Contents) : Decidable (IsStored property) :=
  inferInstanceAs (Decidable (property.1 ≠ Key.ofString .proto))

/-- Setting properties under distinct keys stores all but `__proto__`, in order. -/
theorem foldl_setEntry (engine : Engine) {properties stored : List (Key × Value Contents)}
    (distinct : (properties.map Prod.fst).Nodup)
    (fresh : ∀ property ∈ properties, property.1 ∉ stored.map Prod.fst) :
    (properties.map entryOf).foldl (setEntry engine) stored =
      stored ++ properties.filter fun property => decide (IsStored property) := by
  induction properties generalizing stored with
  | nil => exact (List.append_nil _).symm
  | cons property properties ih =>
      rw [List.map_cons, List.nodup_cons] at distinct
      have absent := fresh property List.mem_cons_self
      have later (other : Key × Value Contents) (member : other ∈ properties) :=
        fresh other (List.mem_cons_of_mem _ member)
      have step : setEntry engine stored (entryOf property) =
          setProperty stored property.1 property.2 := by
        unfold setEntry entryOf
        rw [Engine.toPropertyKey_toLeaf]
      rw [List.map_cons, List.foldl_cons, step, List.filter_cons]
      unfold setProperty
      by_cases proto : property.1 = Key.ofString .proto
      · have dropped : ¬IsStored property := fun kept => kept proto
        rw [if_pos proto, decide_eq_false dropped]
        exact ih distinct.2 later
      · have kept : IsStored property := proto
        rw [if_neg proto, if_neg absent, decide_eq_true kept, if_pos rfl, ih distinct.2]
        · rw [List.append_assoc]
          rfl
        · intro other member
          rw [List.map_append, List.mem_append]
          rintro (old | own)
          · exact later other member old
          · have same : other.1 = property.1 := List.mem_singleton.mp own
            rw [← same] at distinct
            exact distinct.1 (List.mem_map_of_mem member)

/-- **Objects of properties in step are framed**, but for their `__proto__`. -/
theorem framed_object {properties : List (Key × Value ℕ)} {stackLevel : ℕ} {data : TransportData}
    (sized : (Value.object properties).Sized)
    (inStep : PropertiesInStep engine heap properties stackLevel
      ((data.appendType .hashmap).appendValue (BitVec.ofNat 32 properties.length)))
    (done : (serializeProperties properties stackLevel
      ((data.appendType .hashmap).appendValue (BitVec.ofNat 32 properties.length))).1 = .none) :
    Framed engine data (serializeProperties properties stackLevel
      ((data.appendType .hashmap).appendValue (BitVec.ofNat 32 properties.length))).2
      (.object ((propertiesReceived heap properties).filter fun property =>
        decide (IsStored property))) := by
  obtain ⟨frames, values, stream, each⟩ := properties_frames inStep done
  refine ⟨wordBytes Tag.hashmap.code ++ (wordBytes (BitVec.ofNat 32 properties.length) ++
    (frames.map Prod.fst).flatten), ?_, ?_⟩
  · rw [stream]
    simp only [TransportData.appendType, TransportData.appendValue, List.append_assoc]
  · have keys := propertiesReceived_keys heap properties
    have distinct : ((propertiesReceived heap properties).map Prod.fst).Nodup := by
      rw [keys]
      exact sized.2
    have fresh : ∀ property ∈ propertiesReceived heap properties,
        property.1 ∉ ([] : List (Key × Value Contents)).map Prod.fst :=
      fun _ _ => List.not_mem_nil
    have stored := foldl_setEntry engine distinct fresh
    rw [List.nil_append, ← values] at stored
    rw [← stored]
    apply frames_tagged
    intro depth enough
    rw [List.length_append] at enough
    have count : (BitVec.ofNat 32 properties.length).toNat = frames.length := by
      have lengths := congrArg List.length values
      have sizes := congrArg List.length keys
      rw [List.length_map, List.length_map] at lengths sizes
      rw [BitVec.toNat_ofNat, Nat.mod_eq_of_lt sized.1, lengths, sizes]
    have inside (frame : Bytes × (Value Contents × Value Contents)) (member : frame ∈ frames) :
        Reads (unpackEntry (unpackValue engine depth)) frame.1 frame.2 :=
      each frame member depth
        ((length_frame_le member).trans ((Nat.le_add_left _ _).trans enough))
    apply (reads_readWord rfl (BitVec.ofNat 32 properties.length)).bind
    rw [count]
    exact (reads_many inside).bind_pure fun entries =>
      Value.object (entries.foldl (setEntry engine) [])

/-! ## What is in step -/

/-- The bytes that a step appended are determined, and so is the value that they frame. -/
theorem Framed.unique {before after : TransportData} {first second : Value Contents}
    (one : Framed engine before after first) (other : Framed engine before after second) :
    first = second := by
  obtain ⟨bytes, stream, framed⟩ := one
  obtain ⟨also, streams, framedAlso⟩ := other
  have same : bytes = also := List.append_cancel_left (stream.symm.trans streams)
  rw [← same] at framedAlso
  have read := framed bytes.length (le_refl _) []
  exact ((framedAlso bytes.length (le_refl _)).unique read).1

/-- A value comes back whole when no function and no `__proto__` occurs in it. -/
def Value.Plain (value : Value ℕ) : Prop :=
  value.FunctionFree ∧ value.ProtoFree

theorem Value.plain_leaf_iff {own : Leaf ℕ} : (Value.leaf own).Plain ↔ ¬own.IsFunction := by
  unfold Value.Plain Value.FunctionFree Value.ProtoFree
  rw [Value.everywhere_leaf, Value.everywhere_leaf]
  exact and_iff_left trivial

theorem Value.plain_array_iff {elements : List (Value ℕ)} :
    (Value.array elements).Plain ↔ ∀ element ∈ elements, element.Plain := by
  unfold Value.Plain Value.FunctionFree Value.ProtoFree
  rw [Value.everywhere_array, Value.everywhere_array]
  constructor
  · rintro ⟨⟨-, functions⟩, -, protos⟩ element member
    exact ⟨functions element member, protos element member⟩
  · intro plain
    exact ⟨⟨trivial, fun element member => (plain element member).1⟩, trivial,
      fun element member => (plain element member).2⟩

theorem Value.plain_object_iff {properties : List (Key × Value ℕ)} :
    (Value.object properties).Plain ↔
      (∀ property ∈ properties, property.2.Plain) ∧ (Value.object properties).NoProtoKey := by
  unfold Value.Plain Value.FunctionFree Value.ProtoFree
  rw [Value.everywhere_object, Value.everywhere_object]
  constructor
  · rintro ⟨⟨-, functions⟩, own, protos⟩
    exact ⟨fun property member => ⟨functions property member, protos property member⟩, own⟩
  · rintro ⟨plain, own⟩
    exact ⟨⟨trivial, fun property member => (plain property member).1⟩, own,
      fun property member => (plain property member).2⟩

/-- Leaves in step are those that are no functions. -/
theorem leaf_inStep_iff {leaf : Leaf ℕ} {stackLevel : ℕ} {data : TransportData}
    (agrees : Agrees heap data.exporter)
    (done : (serializeValue (.leaf leaf) stackLevel data).1 = .none) :
    InStep engine heap (.leaf leaf) stackLevel data ↔ ¬leaf.IsFunction := by
  rw [InStep, Value.received]
  have shallow := shallow_of_none done
  rw [serializeValue, if_neg shallow] at done ⊢
  constructor
  · rintro ⟨framed, -⟩ function
    cases leaf with
    | function fn =>
        have written : Framed engine (data.addExport fn)
            (((data.addExport fn).appendType .function).appendValue data.exporter.addedExport)
            (.leaf .undefined) := framed
        exact not_framed_function written
    | external efn => exact not_framed_function framed
    | _ => exact function
  · intro plain
    exact ⟨framed_leaf agrees done plain, trivial⟩

/-- A list of elements is in step exactly when its elements are plain, when that is so of
each. -/
theorem elements_inStep_iff {elements : List (Value ℕ)} {stackLevel : ℕ} {data : TransportData}
    (each : ∀ element ∈ elements, ∀ data, Agrees heap data.exporter →
      (serializeValue element stackLevel data).1 = .none →
      (InStep engine heap element stackLevel data ↔ element.Plain))
    (agrees : Agrees heap data.exporter)
    (done : (serializeElements elements stackLevel data).1 = .none) :
    ElementsInStep engine heap elements stackLevel data ↔
      ∀ element ∈ elements, element.Plain := by
  induction elements generalizing data with
  | nil =>
      rw [ElementsInStep]
      exact iff_of_true trivial fun element member => absurd member List.not_mem_nil
  | cons element elements ih =>
      rw [serializeElements] at done
      obtain ⟨head, next⟩ := andThen_eq_none done
      rw [next] at done
      rw [ElementsInStep, List.forall_mem_cons,
        each element List.mem_cons_self data agrees head,
        ih (fun later member => each later (List.mem_cons_of_mem _ member))
          (agrees.serializeValue element stackLevel) done]

/-- A list of properties is in step exactly when its values are plain, when that is so of
each. -/
theorem properties_inStep_iff {properties : List (Key × Value ℕ)} {stackLevel : ℕ}
    {data : TransportData}
    (each : ∀ property ∈ properties, ∀ data, Agrees heap data.exporter →
      (serializeValue property.2 stackLevel data).1 = .none →
      (InStep engine heap property.2 stackLevel data ↔ property.2.Plain))
    (agrees : Agrees heap data.exporter)
    (done : (serializeProperties properties stackLevel data).1 = .none) :
    PropertiesInStep engine heap properties stackLevel data ↔
      ∀ property ∈ properties, property.2.Plain := by
  induction properties generalizing data with
  | nil =>
      rw [PropertiesInStep]
      exact iff_of_true trivial fun property member => absurd member List.not_mem_nil
  | cons property properties ih =>
      rw [serializeProperties] at done
      obtain ⟨keyed, next⟩ := andThen_eq_none done
      rw [next] at done
      obtain ⟨valued, last⟩ := andThen_eq_none done
      rw [last] at done
      have agreesKey := agrees.serializeKey property.1 stackLevel
      have framedKey : Framed engine data (serializeKey property.1 stackLevel data).2
          (.leaf property.1.toLeaf) := by
        have plain := property.1.toLeaf_plain heap
        have leaf := serializeKey_of_shallow keyed
        rw [leaf] at keyed ⊢
        rw [← plain.2]
        exact framed_leaf agrees keyed plain.1
      rw [PropertiesInStep, List.forall_mem_cons,
        each property List.mem_cons_self _ agreesKey valued,
        ih (fun later member => each later (List.mem_cons_of_mem _ member))
          (agreesKey.serializeValue property.2 stackLevel) done]
      exact and_iff_right framedKey

/-- All properties of a copy are stored when none of them is `__proto__`. -/
theorem stored_eq_self_iff (heap : ℕ → Contents) {properties : List (Key × Value ℕ)} :
    (propertiesReceived heap properties).filter (fun property => decide (IsStored property)) =
        propertiesReceived heap properties ↔
      (Value.object properties).NoProtoKey := by
  have absent {β : Type} (list : List (Key × Value β)) :
      (∀ property ∈ list, property.1 ≠ Key.ofString .proto) ↔
        Key.ofString .proto ∉ list.map Prod.fst := by
    rw [List.mem_map]
    constructor
    · rintro kept ⟨property, member, proto⟩
      exact kept property member proto
    · intro kept property member proto
      exact kept ⟨property, member, proto⟩
  have every : (∀ property ∈ propertiesReceived heap properties,
      decide (IsStored property) = true) ↔
        ∀ property ∈ propertiesReceived heap properties, property.1 ≠ Key.ofString .proto :=
    forall₂_congr fun _ _ => decide_eq_true_iff
  rw [List.filter_eq_self, every, absent, propertiesReceived_keys, ← absent]
  exact Iff.rfl

/-- **What is in step.** A value that the serializer takes is in step exactly when no
function and no property `__proto__` occurs in it. -/
theorem inStep_iff_plain {value : Value ℕ} {stackLevel : ℕ} {data : TransportData}
    (wellFormed : value.WellFormed) (agrees : Agrees heap data.exporter)
    (done : (serializeValue value stackLevel data).1 = .none) :
    InStep engine heap value stackLevel data ↔ value.Plain := by
  unfold Value.WellFormed at wellFormed
  induction value using Value.induct generalizing stackLevel data with
  | leaf own =>
      rw [Value.plain_leaf_iff]
      exact leaf_inStep_iff agrees done
  | array elements ih =>
      rw [Value.everywhere_array] at wellFormed
      have shallow := shallow_of_none done
      rw [InStep, Value.plain_array_iff, Value.received]
      rw [serializeValue, if_neg shallow] at done ⊢
      have header : Agrees heap ((data.appendType .array).appendValue
          (BitVec.ofNat 32 elements.length)).exporter := agrees
      rw [← elements_inStep_iff (fun element member data agrees done =>
        ih element member (wellFormed.2 element member) agrees done) header done]
      exact and_iff_right_of_imp fun inStep => framed_array wellFormed.1 inStep done
  | object properties ih =>
      rw [Value.everywhere_object] at wellFormed
      have shallow := shallow_of_none done
      rw [InStep, Value.plain_object_iff, Value.received]
      rw [serializeValue, if_neg shallow] at done ⊢
      have header : Agrees heap ((data.appendType .hashmap).appendValue
          (BitVec.ofNat 32 properties.length)).exporter := agrees
      rw [← properties_inStep_iff (fun property member data agrees done =>
        ih property member (wellFormed.2 property member) agrees done) header done, and_comm]
      apply and_congr_right
      intro inStep
      have stored := framed_object wellFormed.1 inStep done
      rw [← stored_eq_self_iff heap]
      constructor
      · intro whole
        exact Value.object.inj (stored.unique whole)
      · intro all
        rwa [all] at stored

/-! ## What is transferred -/

/-- A leaf that a transfer carries over: no function, no wrapped native object, no symbol,
and of the views those with a tag. -/
def Leaf.Transferable : Leaf ℕ → Prop
  | .view shown => shown.kind.tag ≠ none
  | .function _ => False
  | .external _ => False
  | .native _ => False
  | .symbol => False
  | _ => True

def Value.LeafTransferable : Value ℕ → Prop
  | .leaf own => own.Transferable
  | .array _ => True
  | .object _ => True

/-- A value made of such leaves. -/
def Value.Transferable (value : Value ℕ) : Prop :=
  value.Everywhere Value.LeafTransferable

theorem Leaf.Transferable.plain {leaf : Leaf ℕ} (transferable : leaf.Transferable) :
    ¬leaf.IsFunction := by
  cases leaf with
  | function fn => exact transferable.elim
  | external efn => exact transferable.elim
  | _ => exact fun function => function

theorem Key.toLeaf_transferable (key : Key) : (key.toLeaf : Leaf ℕ).Transferable := by
  cases key with
  | name string named => trivial
  | index number below =>
      rw [Key.toLeaf]
      by_cases small : number.toNat < 2 ^ 31
      · rw [if_pos small]
        trivial
      · rw [if_neg small]
        trivial

/-- A part that a transfer carries over. -/
def Part.Transferable : Part → Prop
  | .tooDeep => False
  | .leaf own => own.Transferable

theorem Key.part_transferable {key : Key} {stackLevel : ℕ} (shallow : stackLevel ≤ kMaxStackSize) :
    (key.part stackLevel).Transferable := by
  unfold Key.part
  rw [if_neg (Nat.not_lt.mpr shallow)]
  exact key.toLeaf_transferable

theorem Value.depth_pos (value : Value ℕ) : 0 < value.depth := by
  cases value with
  | leaf own =>
      rw [Value.depth]
      exact Nat.one_pos
  | array elements =>
      rw [Value.depth]
      exact Nat.succ_pos _
  | object properties =>
      rw [Value.depth]
      exact Nat.succ_pos _

/-- A transferable value has only transferable parts, when it is not nested too deep. -/
theorem Value.Transferable.parts {value : Value ℕ} {stackLevel : ℕ}
    (transferable : value.Transferable) (nested : stackLevel + value.depth ≤ kMaxStackSize + 1) :
    ∀ part ∈ value.parts stackLevel, part.Transferable := by
  unfold Value.Transferable at transferable
  have shallow : ¬kMaxStackSize < stackLevel := by
    have positive := value.depth_pos
    omega
  induction value using Value.induct generalizing stackLevel with
  | leaf own =>
      rw [Value.parts, if_neg shallow]
      exact List.forall_mem_singleton.mpr (Value.everywhere_leaf.mp transferable)
  | array elements ih =>
      rw [Value.parts, if_neg shallow]
      rw [Value.depth] at nested
      have leaves := (Value.everywhere_array.mp transferable).2
      clear transferable
      induction elements with
      | nil =>
          rw [elementsParts]
          exact fun part member => absurd member List.not_mem_nil
      | cons element elements later =>
          rw [elementsDepth] at nested
          have positive := element.depth_pos
          rw [elementsParts, List.forall_mem_append]
          refine ⟨?_, ?_⟩
          · exact ih element List.mem_cons_self (leaves element List.mem_cons_self) (by omega)
              (by omega)
          · exact later (fun other member => ih other (List.mem_cons_of_mem _ member)) (by omega)
              fun other member => leaves other (List.mem_cons_of_mem _ member)
  | object properties ih =>
      rw [Value.parts, if_neg shallow]
      rw [Value.depth] at nested
      have leaves := (Value.everywhere_object.mp transferable).2
      clear transferable
      induction properties with
      | nil =>
          rw [propertiesParts]
          exact fun part member => absurd member List.not_mem_nil
      | cons property properties later =>
          rw [propertiesDepth] at nested
          have positive := property.2.depth_pos
          rw [propertiesParts, List.forall_mem_cons, List.forall_mem_append]
          refine ⟨Key.part_transferable (by omega), ?_, ?_⟩
          · exact ih property List.mem_cons_self (leaves property List.mem_cons_self) (by omega)
              (by omega)
          · exact later (fun other member => ih other (List.mem_cons_of_mem _ member)) (by omega)
              fun other member => leaves other (List.mem_cons_of_mem _ member)

/-- A transferable part is taken when its buffer, if it has one, is not empty. -/
theorem Part.Transferable.taken {part : Part} {thread : Thread} (transferable : part.Transferable)
    (full : ∀ buffer, part.buffer? = some buffer → ¬thread.IsEmpty buffer) :
    part.refusal thread = .none := by
  cases part with
  | tooDeep => exact transferable.elim
  | leaf own =>
      cases own with
      | arrayBuffer buffer => exact if_neg (full buffer rfl)
      | view shown => exact (if_neg (full shown.buffer rfl)).trans (if_neg transferable)
      | native clone => exact transferable.elim
      | symbol => exact transferable.elim
      | _ => rfl

/-- A part neuters no buffer but its own. -/
theorem Part.effect_isEmpty {part : Part} {thread : Thread} {buffer : ℕ}
    (other : part.buffer? ≠ some buffer) (full : ¬thread.IsEmpty buffer) :
    ¬(part.effect thread).IsEmpty buffer := by
  have neutered {held : ℕ} (different : some held ≠ some buffer) :
      ¬(thread.neuter held).IsEmpty buffer := by
    unfold Thread.IsEmpty
    rw [Thread.buffers_neuter_of_ne fun same => different (congrArg some same).symm]
    exact full
  cases part with
  | tooDeep => exact full
  | leaf own =>
      cases own with
      | arrayBuffer held => exact neutered other
      | view shown => exact neutered other
      | _ => exact full

/-- **Transferable parts are all taken**, when their buffers are distinct and none is empty. -/
theorem runParts_transferable {parts : List Part} {thread : Thread}
    (transferable : ∀ part ∈ parts, part.Transferable)
    (distinct : (parts.filterMap Part.buffer?).Nodup)
    (full : ∀ buffer ∈ parts.filterMap Part.buffer?, ¬thread.IsEmpty buffer) :
    (runParts parts thread).1 = .none := by
  induction parts generalizing thread with
  | nil => rfl
  | cons part parts ih =>
      have own (buffer : ℕ) (handed : part.buffer? = some buffer) : ¬thread.IsEmpty buffer :=
        full buffer (List.mem_filterMap.mpr ⟨part, List.mem_cons_self, handed⟩)
      have taken := (transferable part List.mem_cons_self).taken own
      have rest (later : Part) (member : later ∈ parts) :=
        transferable later (List.mem_cons_of_mem _ member)
      rw [Transport.runParts, if_pos taken]
      cases handed : part.buffer? with
      | none =>
          rw [List.filterMap_cons_none handed] at distinct full
          apply ih rest distinct
          intro buffer member
          apply Part.effect_isEmpty _ (full buffer member)
          rw [handed]
          exact (Option.some_ne_none buffer).symm
      | some held =>
          rw [List.filterMap_cons_some handed] at distinct full
          apply ih rest (List.nodup_cons.mp distinct).2
          intro buffer member
          apply Part.effect_isEmpty _ (full buffer (List.mem_cons_of_mem _ member))
          rw [handed]
          intro same
          rw [Option.some.inj same] at distinct
          exact (List.nodup_cons.mp distinct).1 member

/-! ## Whole transfers -/

/-- A transferable value is accepted. -/
theorem moveValue_eq_none {value : Value ℕ} {data : TransportData}
    (transferable : value.Transferable) (nested : value.depth ≤ kMaxStackSize)
    (distinct : value.buffers.Nodup)
    (full : ∀ buffer ∈ value.buffers, ¬data.exporter.IsEmpty buffer) :
    (serializeValue value 1 data.clear).1 = .none := by
  have ran := congrArg Prod.fst (outcome_serializeValue value 1 data.clear)
  have within := value.parts_buffers_sublist 1
  exact ran.trans (runParts_transferable (transferable.parts (by omega)) (distinct.sublist within)
    fun buffer member => full buffer (within.mem member))

/-- Transferable leaves are no functions. -/
theorem Value.Transferable.functionFree {value : Value ℕ} (transferable : value.Transferable) :
    value.FunctionFree := by
  unfold Value.Transferable at transferable
  unfold Value.FunctionFree
  induction value using Value.induct with
  | leaf own =>
      rw [Value.everywhere_leaf] at transferable ⊢
      exact Leaf.Transferable.plain transferable
  | array elements ih =>
      rw [Value.everywhere_array] at transferable ⊢
      exact ⟨trivial, fun element member => ih element member (transferable.2 element member)⟩
  | object properties ih =>
      rw [Value.everywhere_object] at transferable ⊢
      exact ⟨trivial, fun property member => ih property member (transferable.2 property member)⟩

/-- The buffers of a thread agree with themselves. -/
theorem agrees_refl (thread : Thread) : Agrees thread.buffers thread :=
  fun _ _ => rfl

/-- **The round trip.** A value without functions, nested at most 128 levels deep over
distinct full buffers, is accepted, and reading the stream yields the receiver's copy and
stops exactly at the stream's end. -/
theorem transfer_round_trip (engine : Engine) {value : Value ℕ} {data : TransportData}
    (wellFormed : value.WellFormed) (transferable : value.Transferable)
    (protoFree : value.ProtoFree) (nested : value.depth ≤ kMaxStackSize)
    (distinct : value.buffers.Nodup)
    (full : ∀ buffer ∈ value.buffers, ¬data.exporter.IsEmpty buffer) :
    (moveValue value data).1 = .none ∧
      (unpackValue engine (moveValue value data).2.stream.length).run
          (moveValue value data).2.stream =
        some (value.received data.exporter.buffers, []) ∧
      unpack engine (moveValue value data).2.stream =
        some (value.received data.exporter.buffers) := by
  have done := moveValue_eq_none transferable nested distinct full
  have moved : moveValue value data = serializeValue value 1 data.clear := if_pos done
  have inStep : InStep engine data.exporter.buffers value 1 data.clear :=
    (inStep_iff_plain wellFormed (agrees_refl data.clear.exporter) done).mpr
      ⟨transferable.functionFree, protoFree⟩
  obtain ⟨bytes, stream, framed⟩ := inStep.framed
  have whole : (moveValue value data).2.stream = bytes := by
    rw [moved, stream]
    rfl
  have read := framed bytes.length (le_refl _) []
  rw [List.append_nil] at read
  rw [whole]
  refine ⟨(congrArg Prod.fst moved).trans done, read, ?_⟩
  unfold unpack
  rw [read]
  rfl

/-- A thread whose buffers hold eight bytes each, and which allocates at 4096. -/
def fullThread : Thread where
  buffers := fun _ => ⟨8192, 8⟩
  exports := []
  exportId := 0
  refCount := 0
  newExternalFunction := fun _ => 4096

/-- An engine that makes no string from UTF-8, and converts every value to no text. -/
def bareEngine : Engine where
  newFromUtf8 := fun _ => none
  toString := fun _ => ⟨[], Nat.zero_le _⟩

/-- An array of a buffer, and of an object with a view of two bytes of another buffer. -/
def buffersValue : Value ℕ :=
  .array [.leaf (.arrayBuffer 0),
    .object [(.index 7 (by decide), .leaf (.view ⟨.uint16, 1, 4, 2, by decide⟩))]]

/-- The two buffers arrive under the same addresses, and the view in its place. -/
theorem buffersValue_round_trip :
    (moveValue buffersValue ⟨fullThread, []⟩).1 = .none ∧
      (unpackValue bareEngine (moveValue buffersValue ⟨fullThread, []⟩).2.stream.length).run
          (moveValue buffersValue ⟨fullThread, []⟩).2.stream =
        some (buffersValue.received fullThread.buffers, []) ∧
      unpack bareEngine (moveValue buffersValue ⟨fullThread, []⟩).2.stream =
        some (buffersValue.received fullThread.buffers) := by
  have wellFormed : buffersValue.WellFormed := by
    simp [buffersValue, Value.WellFormed, Value.Sized]
  have transferable : buffersValue.Transferable := by
    have tagged : ViewKind.uint16.tag ≠ none := Option.some_ne_none _
    unfold buffersValue Value.Transferable
    rw [Value.everywhere_array, List.forall_mem_cons, List.forall_mem_singleton,
      Value.everywhere_leaf, Value.everywhere_object, List.forall_mem_singleton,
      Value.everywhere_leaf]
    exact ⟨trivial, trivial, trivial, tagged⟩
  have protoFree : buffersValue.ProtoFree := by
    unfold buffersValue Value.ProtoFree
    rw [Value.everywhere_array, List.forall_mem_cons, List.forall_mem_singleton,
      Value.everywhere_leaf, Value.everywhere_object, List.forall_mem_singleton,
      Value.everywhere_leaf]
    exact ⟨trivial, trivial, List.forall_mem_singleton.mpr (Key.index_ne_proto _ _), trivial⟩
  have full : ∀ buffer ∈ buffersValue.buffers, ¬fullThread.IsEmpty buffer := by
    intro buffer _ empty
    have none : (8 : BitVec 64) = 0 := empty
    exact absurd none (by decide)
  have nested : buffersValue.depth ≤ kMaxStackSize := by
    simp [buffersValue, Value.depth, elementsDepth, propertiesDepth, kMaxStackSize]
  have distinct : buffersValue.buffers.Nodup := by
    simp [buffersValue, Value.buffers, Value.leaves, elementsLeaves, propertiesLeaves,
      Leaf.buffer?]
  exact transfer_round_trip bareEngine wellFormed transferable protoFree nested distinct full

/-- The arguments of a call are in step: each of them, and the array that they make. -/
def ArgsInStep (engine : Engine) (args : List (Value ℕ)) (data : TransportData) : Prop :=
  Framed engine data.clear (moveArgs args data).2
      (.array (elementsReceived data.exporter.buffers args)) ∧
    ElementsInStep engine data.exporter.buffers args 1 (argsHeader args data)

/-- **Functions put the stream out of step.** A value or argument list that a transfer
accepts is in step exactly when no function, no wrapped external function and no property
`__proto__` occurs in it. -/
theorem transfer_inStep_iff (engine : Engine) (data : TransportData) :
    (∀ value, value.WellFormed → (moveValue value data).1 = .none →
      (InStep engine data.exporter.buffers value 1 data.clear ↔
        value.FunctionFree ∧ value.ProtoFree)) ∧
    (∀ args, (Value.array args).WellFormed → (moveArgs args data).1 = .none →
      (ArgsInStep engine args data ↔
        ∀ arg ∈ args, arg.FunctionFree ∧ arg.ProtoFree)) := by
  constructor
  · intro value wellFormed moved
    have done := (settle_of_none moved).1
    exact inStep_iff_plain wellFormed (agrees_refl data.clear.exporter) done
  · intro args wellFormed moved
    unfold ArgsInStep
    unfold moveArgs at moved ⊢
    by_cases none : args.length = 0
    · rw [if_pos none]
      rw [List.length_eq_zero_iff.mp none, ElementsInStep]
      apply iff_of_true ⟨framed_tag fun _ => rfl, trivial⟩
      exact fun arg member => absurd member List.not_mem_nil
    · rw [if_neg none] at moved ⊢
      obtain ⟨done, settled⟩ := settle_of_none moved
      unfold Value.WellFormed at wellFormed
      rw [Value.everywhere_array] at wellFormed
      have header : Agrees data.exporter.buffers (argsHeader args data).exporter :=
        agrees_refl data.exporter
      rw [settled, elements_inStep_iff (fun arg member data agrees done =>
        inStep_iff_plain (wellFormed.2 arg member) agrees done) header done]
      apply and_iff_right_of_imp
      intro plain
      have inStep : ElementsInStep engine data.exporter.buffers args 1 (argsHeader args data) :=
        (elements_inStep_iff (fun arg member data agrees done =>
          inStep_iff_plain (wellFormed.2 arg member) agrees done) header done).mpr plain
      exact framed_array wellFormed.1 inStep done

/-- An array of a function and a number. -/
def functionThenNumber : Value ℕ :=
  .array [.leaf (.function 0), .leaf (.int32 5)]

theorem functionThenNumber_wellFormed : functionThenNumber.WellFormed := by
  simp [functionThenNumber, Value.WellFormed, Value.Sized]

/-- A number alone is in step, as a value and as the argument of a call. -/
theorem number_inStep :
    InStep bareEngine fullThread.buffers (.leaf (.int32 5)) 1 ⟨fullThread, []⟩ ∧
      ArgsInStep bareEngine [.leaf (.int32 5)] ⟨fullThread, []⟩ := by
  have wellFormed : (Value.leaf (.int32 5) : Value ℕ).WellFormed := by
    simp [Value.WellFormed, Value.Sized]
  have wellFormedArgs : (Value.array [.leaf (.int32 5)] : Value ℕ).WellFormed := by
    simp [Value.WellFormed, Value.Sized]
  have plain : (Value.leaf (.int32 5) : Value ℕ).Plain :=
    Value.plain_leaf_iff.mpr fun function => function
  exact ⟨((transfer_inStep_iff bareEngine ⟨fullThread, []⟩).1 (.leaf (.int32 5)) wellFormed
      rfl).mpr plain,
    ((transfer_inStep_iff bareEngine ⟨fullThread, []⟩).2 [.leaf (.int32 5)] wellFormedArgs
      rfl).mpr (List.forall_mem_singleton.mpr plain)⟩

/-- The number behind the function is lost: the reader takes the first byte of the function's
pointer for it, the undefined tag. -/
theorem number_lost :
    (moveValue functionThenNumber ⟨fullThread, []⟩).1 = .none ∧
      unpack bareEngine (moveValue functionThenNumber ⟨fullThread, []⟩).2.stream =
        some (.array [.leaf .undefined, .leaf .undefined]) ∧
      ¬InStep bareEngine fullThread.buffers functionThenNumber 1 ⟨fullThread, []⟩ := by
  refine ⟨rfl, rfl, fun inStep => ?_⟩
  have plain := (inStep_iff_plain functionThenNumber_wellFormed (agrees_refl fullThread) rfl).mp
    inStep
  exact Value.plain_leaf_iff.mp (Value.plain_array_iff.mp plain _ List.mem_cons_self) trivial

end Transport
