import JsOS.Kernel.Transport.Parts

/-! # Failed transfers

A transfer that fails resets the stream and nothing else: buffers taken on the way stay
neutered, with the stream that held their contents gone, and exported functions stay in the
table with a reference taken for each. The sending thread is intact exactly when no part
took effect before the part that offended.
-/

namespace Transport

open Framing

/-! ## Effects last -/

/-- What never comes back: exports, and the contents of array buffers. -/
structure Thread.Spends (before after : Thread) : Prop where
  exports : before.exports.length ≤ after.exports.length
  empty : ∀ buffer, before.IsEmpty buffer → after.IsEmpty buffer

theorem Thread.Spends.refl (thread : Thread) : thread.Spends thread :=
  ⟨le_refl _, fun _ empty => empty⟩

theorem Thread.Spends.trans {first second third : Thread} (former : first.Spends second)
    (latter : second.Spends third) : first.Spends third :=
  ⟨former.exports.trans latter.exports, fun buffer empty =>
    latter.empty buffer (former.empty buffer empty)⟩

theorem Thread.spends_neuter (thread : Thread) (buffer : ℕ) :
    thread.Spends (thread.neuter buffer) := by
  refine ⟨le_refl _, fun other empty => ?_⟩
  by_cases same : other = buffer
  · rw [same]
    exact thread.isEmpty_neuter buffer
  · unfold Thread.IsEmpty
    rw [Thread.buffers_neuter_of_ne same]
    exact empty

theorem Thread.spends_addExport (thread : Thread) (fn : ℕ) :
    thread.Spends (thread.addExport fn) := by
  refine ⟨?_, fun _ empty => empty⟩
  change thread.exports.length ≤ (thread.exports ++ [_]).length
  rw [List.length_append]
  exact Nat.le_add_right _ _

theorem Part.spends_effect (part : Part) (thread : Thread) : thread.Spends (part.effect thread) := by
  cases part with
  | tooDeep => exact .refl thread
  | leaf own =>
      cases own with
      | arrayBuffer buffer => exact thread.spends_neuter buffer
      | view shown => exact thread.spends_neuter shown.buffer
      | function fn => exact thread.spends_addExport fn
      | _ => exact .refl thread

/-- Running parts only spends. -/
theorem runParts_spends (parts : List Part) (thread : Thread) :
    thread.Spends (runParts parts thread).2 := by
  induction parts generalizing thread with
  | nil => exact .refl thread
  | cons part parts ih =>
      rw [runParts]
      by_cases taken : part.refusal thread = .none
      · rw [if_pos taken]
        exact (part.spends_effect thread).trans (ih (part.effect thread))
      · rw [if_neg taken]
        exact .refl thread

/-! ## The part that offends first -/

/-- The sending thread is as before: the given buffers, the export table and the reference
count. -/
structure Thread.Intact (reachable : List ℕ) (before after : Thread) : Prop where
  buffers : ∀ buffer ∈ reachable, after.buffers buffer = before.buffers buffer
  exports : after.exports = before.exports
  refCount : after.refCount = before.refCount

/-- Every part that takes effect stands after one that offends. -/
def Shielded (thread : Thread) (parts : List Part) : Prop :=
  ∀ before part after, parts = before ++ part :: after → part.TakesEffect thread →
    ∃ offender ∈ before, offender.Offends thread

theorem shielded_cons_iff {thread : Thread} {part : Part} {parts : List Part} :
    Shielded thread (part :: parts) ↔
      ¬part.TakesEffect thread ∧ (part.Offends thread ∨ Shielded thread parts) := by
  constructor
  · intro shielded
    have idle : ¬part.TakesEffect thread := by
      intro acts
      obtain ⟨offender, member, -⟩ := shielded [] part parts rfl acts
      exact List.not_mem_nil member
    refine ⟨idle, or_iff_not_imp_left.mpr fun taken => ?_⟩
    intro before acting after split acts
    obtain ⟨offender, member, offends⟩ :=
      shielded (part :: before) acting after (congrArg (part :: ·) split) acts
    rcases List.mem_cons.mp member with same | earlier
    · rw [same] at offends
      exact absurd offends taken
    · exact ⟨offender, earlier, offends⟩
  · rintro ⟨idle, rest⟩ before acting after split acts
    cases before with
    | nil =>
        have same : part = acting := (List.cons.inj split).1
        rw [← same] at acts
        exact absurd acts idle
    | cons first before =>
        have same : part = first := (List.cons.inj split).1
        rcases rest with offends | shielded
        · exact ⟨first, List.mem_cons_self, same ▸ offends⟩
        · obtain ⟨offender, member, offends⟩ :=
            shielded before acting after (List.cons.inj split).2 acts
          exact ⟨offender, List.mem_cons_of_mem _ member, offends⟩

theorem Part.TakesEffect.taken {part : Part} {thread : Thread} (acts : part.TakesEffect thread) :
    part.refusal thread = .none := by
  cases part with
  | tooDeep => exact acts.elim
  | leaf own => exact acts.1

/-- A part taken without effect leaves the thread alone. -/
theorem Part.effect_of_idle {part : Part} {thread : Thread} (taken : part.refusal thread = .none)
    (idle : ¬part.TakesEffect thread) : part.effect thread = thread := by
  cases part with
  | tooDeep => rfl
  | leaf own =>
      cases own with
      | arrayBuffer buffer => exact absurd ⟨taken, trivial⟩ idle
      | view shown => exact absurd ⟨taken, trivial⟩ idle
      | function fn => exact absurd ⟨taken, trivial⟩ idle
      | _ => rfl

/-- Parts behind an offender change nothing. -/
theorem runParts_of_shielded {parts : List Part} {thread : Thread}
    (shielded : Shielded thread parts) : (runParts parts thread).2 = thread := by
  induction parts with
  | nil => rfl
  | cons part parts ih =>
      obtain ⟨idle, rest⟩ := shielded_cons_iff.mp shielded
      rw [runParts]
      by_cases taken : part.refusal thread = .none
      · rw [if_pos taken, Part.effect_of_idle taken idle]
        exact ih (rest.resolve_left (not_not.mpr taken))
      · rw [if_neg taken]

/-- What acts hands over a buffer, or adds an export. -/
theorem Part.acts_cases {part : Part} {thread : Thread} (acts : part.TakesEffect thread) :
    (∃ buffer, part.buffer? = some buffer) ∨
      thread.exports.length < (part.effect thread).exports.length := by
  cases part with
  | tooDeep => exact acts.elim
  | leaf own =>
      cases own with
      | arrayBuffer buffer => exact .inl ⟨buffer, rfl⟩
      | view shown => exact .inl ⟨shown.buffer, rfl⟩
      | function fn =>
          apply Or.inr
          change thread.exports.length < (thread.exports ++ [_]).length
          rw [List.length_append]
          exact Nat.lt_add_one _
      | _ => exact acts.2.elim

/-- **Effects are not undone.** A thread that the parts leave intact met no part that takes
effect before one that offends. -/
theorem shielded_of_intact {parts : List Part} {thread : Thread}
    (intact : thread.Intact (parts.filterMap Part.buffer?) (runParts parts thread).2) :
    Shielded thread parts := by
  induction parts with
  | nil =>
      intro before part after split
      exact absurd split.symm (List.append_ne_nil_of_right_ne_nil before (List.cons_ne_nil _ _))
  | cons part parts ih =>
      rw [shielded_cons_iff]
      by_cases taken : part.refusal thread = .none
      · rw [runParts, if_pos taken] at intact
        have spent := runParts_spends parts (part.effect thread)
        have idle : ¬part.TakesEffect thread := by
          intro acts
          rcases Part.acts_cases acts with ⟨buffer, handed⟩ | added
          · obtain ⟨full, emptied⟩ := Part.takes_buffer taken handed
            have member : buffer ∈ (part :: parts).filterMap Part.buffer? :=
              List.mem_filterMap.mpr ⟨part, List.mem_cons_self, handed⟩
            have still := spent.empty buffer emptied
            unfold Thread.IsEmpty at still
            rw [intact.buffers buffer member] at still
            exact full still
          · have more := added.trans_le spent.exports
            rw [intact.exports] at more
            exact lt_irrefl _ more
        refine ⟨idle, .inr (ih ?_)⟩
        rw [Part.effect_of_idle taken idle] at intact
        refine ⟨fun buffer member => intact.buffers buffer ?_, intact.exports, intact.refCount⟩
        obtain ⟨holder, later, handed⟩ := List.mem_filterMap.mp member
        exact List.mem_filterMap.mpr ⟨holder, List.mem_cons_of_mem _ later, handed⟩
      · exact ⟨fun acts => taken acts.taken, .inl taken⟩

/-! ## Transfers -/

/-- Running parts leaves the thread intact exactly when they are shielded. -/
theorem runParts_intact_iff {parts : List Part} {thread : Thread} {reachable : List ℕ}
    (within : (parts.filterMap Part.buffer?).Sublist reachable) :
    thread.Intact reachable (runParts parts thread).2 ↔ Shielded thread parts := by
  constructor
  · intro intact
    exact shielded_of_intact ⟨fun buffer member => intact.buffers buffer (within.mem member),
      intact.exports, intact.refCount⟩
  · intro shielded
    rw [runParts_of_shielded shielded]
    exact ⟨fun _ _ => rfl, rfl, rfl⟩

/-- What a failed `MoveValue` leaves. -/
theorem moveValue_failed {value : Value ℕ} {data : TransportData}
    (failed : (moveValue value data).1 ≠ .none) :
    (moveValue value data).2.stream = wordBytes Tag.undefined.code ∧
      (moveValue value data).2.exporter = (runParts (value.parts 1) data.exporter).2 := by
  have ran := outcome_serializeValue value 1 data.clear
  unfold moveValue at failed ⊢
  rw [settle_of_ne_none failed]
  exact ⟨rfl, congrArg Prod.snd ran⟩

/-- What a failed `MoveArgs` leaves. -/
theorem moveArgs_failed {args : List (Value ℕ)} {data : TransportData}
    (failed : (moveArgs args data).1 ≠ .none) :
    (moveArgs args data).2.stream = wordBytes Tag.undefined.code ∧
      (moveArgs args data).2.exporter = (runParts (elementsParts args 1) data.exporter).2 := by
  unfold moveArgs at failed ⊢
  by_cases none : args.length = 0
  · rw [if_pos none] at failed
    exact absurd rfl failed
  · rw [if_neg none] at failed ⊢
    have each (element : Value ℕ) (_ : element ∈ args) := outcome_serializeValue element
    have ran := outcome_serializeElements each 1 (argsHeader args data)
    rw [settle_of_ne_none failed]
    exact ⟨rfl, congrArg Prod.snd ran⟩

/-- **Failed transfers.** A value or argument list whose transfer fails leaves the stream
with the undefined tag alone, and it leaves the sending thread intact exactly when each of
its array buffers, views and functions that the serializer would take stands, in the order of
serialization, after a part that it refuses. -/
theorem failed_transfer_intact_iff (data : TransportData) :
    (∀ value, (moveValue value data).1 ≠ .none →
      ((moveValue value data).2.stream = wordBytes Tag.undefined.code ∧
        data.exporter.Intact value.buffers (moveValue value data).2.exporter ↔
          Shielded data.exporter (value.parts 1))) ∧
    (∀ args, (moveArgs args data).1 ≠ .none →
      ((moveArgs args data).2.stream = wordBytes Tag.undefined.code ∧
        data.exporter.Intact (Value.array args).buffers (moveArgs args data).2.exporter ↔
          Shielded data.exporter (elementsParts args 1))) := by
  constructor
  · intro value failed
    obtain ⟨stream, exporter⟩ := moveValue_failed failed
    rw [exporter, runParts_intact_iff (value.parts_buffers_sublist 1)]
    exact and_iff_right stream
  · intro args failed
    obtain ⟨stream, exporter⟩ := moveArgs_failed failed
    rw [exporter, runParts_intact_iff (elementsParts_buffers_sublist args)]
    exact and_iff_right stream

/-- A thread with one buffer of eight bytes. -/
def oneBuffer : Thread where
  buffers := fun _ => ⟨4096, 8⟩
  exports := []
  exportId := 0
  refCount := 0
  newExternalFunction := fun _ => 4096

/-- A symbol and a buffer. -/
def symbolThenBuffer : List (Value ℕ) :=
  [.leaf .symbol, .leaf (.arrayBuffer 0)]

/-- A part that follows the first offender is shielded by it. -/
theorem symbolThenBuffer_shielded : Shielded oneBuffer (elementsParts symbolThenBuffer 1) := by
  have refused : (Part.leaf .symbol).Offends oneBuffer := by
    intro taken
    cases taken
  change Shielded oneBuffer [.leaf .symbol, .leaf (.arrayBuffer 0)]
  exact shielded_cons_iff.mpr ⟨fun acts => acts.2, .inl refused⟩

/-- Behind the symbol, the buffer is kept, as an element and as an argument. -/
theorem buffer_kept :
    ((moveValue (.array symbolThenBuffer) ⟨oneBuffer, []⟩).2.stream =
        wordBytes Tag.undefined.code ∧
      oneBuffer.Intact (Value.array symbolThenBuffer).buffers
        (moveValue (.array symbolThenBuffer) ⟨oneBuffer, []⟩).2.exporter) ∧
    ((moveArgs symbolThenBuffer ⟨oneBuffer, []⟩).2.stream = wordBytes Tag.undefined.code ∧
      oneBuffer.Intact (Value.array symbolThenBuffer).buffers
        (moveArgs symbolThenBuffer ⟨oneBuffer, []⟩).2.exporter) :=
  ⟨((failed_transfer_intact_iff ⟨oneBuffer, []⟩).1 (.array symbolThenBuffer)
      (fun taken => by cases taken)).mpr symbolThenBuffer_shielded,
    ((failed_transfer_intact_iff ⟨oneBuffer, []⟩).2 symbolThenBuffer
      (fun taken => by cases taken)).mpr symbolThenBuffer_shielded⟩

/-- An array of a buffer and a symbol. -/
def bufferThenSymbol : Value ℕ :=
  .array [.leaf (.arrayBuffer 0), .leaf .symbol]

/-- The transfer fails at the symbol, and the buffer before it stays neutered. -/
theorem buffer_lost :
    (moveValue bufferThenSymbol ⟨oneBuffer, []⟩).1 = .invalidType ∧
      ¬((moveValue bufferThenSymbol ⟨oneBuffer, []⟩).2.stream = wordBytes Tag.undefined.code ∧
        oneBuffer.Intact bufferThenSymbol.buffers
          (moveValue bufferThenSymbol ⟨oneBuffer, []⟩).2.exporter) := by
  refine ⟨rfl, fun kept => ?_⟩
  have same := kept.2.buffers 0 List.mem_cons_self
  have emptied : (moveValue bufferThenSymbol ⟨oneBuffer, []⟩).2.exporter.buffers 0 = ⟨0, 0⟩ := rfl
  rw [emptied] at same
  have shorter := congrArg Contents.byteLength same
  cases shorter

end Transport
