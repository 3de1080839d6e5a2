import JsOS.Net.Ip4.FragmentStore

/-! # Assembling a datagram

The fragments of a queue are copied into a new array one after the other. As they share
no byte, the array shows in the end what each fragment shows for its places, in whatever
order they are stored. The copying throws exactly when a fragment reaches beyond the end
of the array.
-/

namespace JsOS.Net.Ip4

open Tcp (Bytes subarray relativeIndex)
open Tiling

theorem setBytes_eq_ok_iff {u8asm bytes result : Bytes} {offset : Int} :
    setBytes u8asm bytes offset = .ok result ↔
      0 ≤ offset ∧ offset + bytes.length ≤ u8asm.length ∧
        result = u8asm.take offset.toNat ++ bytes ++ u8asm.drop (offset.toNat + bytes.length) := by
  unfold setBytes
  split
  · next outside =>
      constructor
      · intro thrown
        cases thrown
      · intro inside
        omega
  · next inside =>
      rw [not_or] at inside
      constructor
      · intro same
        cases same
        exact ⟨by omega, by omega, rfl⟩
      · rintro ⟨-, -, rfl⟩
        rfl

/-- Copying bytes changes their places and no others. -/
theorem setBytes_getElem? {u8asm bytes result : Bytes} {offset : Int}
    (copied : setBytes u8asm bytes offset = .ok result) (index : Nat) :
    result[index]? =
      if offset ≤ index ∧ index < offset + bytes.length then bytes[index - offset.toNat]?
      else u8asm[index]? := by
  obtain ⟨nonneg, fits, rfl⟩ := setBytes_eq_ok_iff.mp copied
  have prefixLength : (u8asm.take offset.toNat).length = offset.toNat := by
    rw [List.length_take]
    omega
  rw [List.append_assoc, List.getElem?_append, prefixLength]
  split
  · rw [if_neg (by omega), List.getElem?_take_of_lt (by omega)]
  · rw [List.getElem?_append]
    split
    · rw [if_pos (by omega)]
    · rw [if_neg (by omega), List.getElem?_drop]
      congr 1
      omega

theorem setBytes_length {u8asm bytes result : Bytes} {offset : Int}
    (copied : setBytes u8asm bytes offset = .ok result) : result.length = u8asm.length := by
  obtain ⟨nonneg, fits, rfl⟩ := setBytes_eq_ok_iff.mp copied
  simp only [List.length_append, List.length_take, List.length_drop]
  omega

namespace Fragment

/-- The bytes of a fragment in its buffer. -/
def data (fragment : Fragment) : Bytes :=
  subarray fragment.u8 fragment.nextOffset (fragment.nextOffset + fragment.length)

/-- The bytes of the fragment lie within its buffer. -/
def Buffered (fragment : Fragment) : Prop :=
  0 < fragment.length ∧ 0 ≤ fragment.nextOffset ∧
    fragment.nextOffset + fragment.length ≤ fragment.u8.length

theorem data_eq {fragment : Fragment} (buffered : fragment.Buffered) :
    fragment.data =
      (fragment.u8.take (fragment.nextOffset + fragment.length).toNat).drop
        fragment.nextOffset.toNat := by
  obtain ⟨nonempty, begins, ends⟩ := buffered
  have inside {position : ℤ} (nonneg : 0 ≤ position) (below : position ≤ fragment.u8.length) :
      relativeIndex fragment.u8.length position = position.toNat := by
    rw [relativeIndex, if_neg (by omega), min_eq_left (by omega)]
  rw [data, subarray, inside begins (by omega), inside (by omega) ends]

theorem data_length {fragment : Fragment} (buffered : fragment.Buffered) :
    (fragment.data.length : ℤ) = fragment.length := by
  rw [data_eq buffered, List.length_drop, List.length_take]
  obtain ⟨nonempty, begins, ends⟩ := buffered
  omega

theorem data_getElem? {fragment : Fragment} (buffered : fragment.Buffered) {place : ℤ}
    (inside : place ∈ fragment.span) :
    fragment.data[(place - fragment.offset).toNat]? = fragment.byteAt place := by
  rw [data_eq buffered, List.getElem?_drop, byteAt]
  obtain ⟨nonempty, begins, ends⟩ := buffered
  rw [mem_span, fragEnd] at inside
  rw [List.getElem?_take_of_lt (by omega)]
  congr 1
  omega

end Fragment

theorem foldlM_assembleStep_cons_ok_iff {u8asm result : Bytes} {fragment : Fragment}
    {fragments : List (Option Fragment)} :
    (some fragment :: fragments).foldlM Queue.assembleStep u8asm = .ok result ↔
      ∃ next, setBytes u8asm fragment.data fragment.offset = .ok next ∧
        fragments.foldlM Queue.assembleStep next = .ok result := by
  have round : (some fragment :: fragments).foldlM Queue.assembleStep u8asm =
      setBytes u8asm fragment.data fragment.offset >>= fun next =>
        fragments.foldlM Queue.assembleStep next := rfl
  rw [round]
  cases setBytes u8asm fragment.data fragment.offset with
  | error error =>
      constructor
      · rintro ⟨⟩
      · rintro ⟨next, ⟨⟩, -⟩
  | ok next =>
      constructor
      · intro runs
        exact ⟨next, rfl, runs⟩
      · rintro ⟨other, same, runs⟩
        cases same
        exact runs

/-- The loop that assembles runs to its end exactly when all fragments fit in the array. -/
theorem foldlM_assembleStep_ok_iff {u8asm : Bytes} {fragments : List (Option Fragment)}
    (buffered : ∀ fragment ∈ fragments.reduceOption, fragment.Buffered)
    (begins : ∀ fragment ∈ fragments.reduceOption, 0 ≤ fragment.offset) :
    (∃ result, fragments.foldlM Queue.assembleStep u8asm = .ok result) ↔
      ∀ fragment ∈ fragments.reduceOption, fragment.fragEnd ≤ u8asm.length := by
  induction fragments generalizing u8asm with
  | nil =>
      refine ⟨?_, fun _ => ⟨u8asm, rfl⟩⟩
      rintro - fragment ⟨⟩
  | cons slot fragments ih =>
      cases slot with
      | none => exact ih buffered begins
      | some fragment =>
          rw [List.reduceOption_cons_of_some, List.forall_mem_cons] at buffered begins ⊢
          have length := Fragment.data_length buffered.1
          constructor
          · rintro ⟨result, runs⟩
            obtain ⟨next, copied, continues⟩ := foldlM_assembleStep_cons_ok_iff.mp runs
            have rest := (ih buffered.2 begins.2).mp ⟨result, continues⟩
            rw [setBytes_length copied] at rest
            have fits := (setBytes_eq_ok_iff.mp copied).2.1
            refine ⟨?_, rest⟩
            rw [Fragment.fragEnd]
            omega
          · rintro ⟨fits, rest⟩
            rw [Fragment.fragEnd, ← length] at fits
            have copied := setBytes_eq_ok_iff.mpr ⟨begins.1, fits, rfl⟩
            rw [← setBytes_length copied] at rest
            obtain ⟨result, runs⟩ := (ih buffered.2 begins.2).mpr rest
            exact ⟨result, foldlM_assembleStep_cons_ok_iff.mpr ⟨_, copied, runs⟩⟩

/-- The assembled array shows what the fragments show, and what it held elsewhere. -/
theorem foldlM_assembleStep_getElem? {u8asm result : Bytes} {fragments : List (Option Fragment)}
    (buffered : ∀ fragment ∈ fragments.reduceOption, fragment.Buffered)
    (apart : Apart Fragment.span fragments.reduceOption)
    (runs : fragments.foldlM Queue.assembleStep u8asm = .ok result) :
    result.length = u8asm.length ∧
      (∀ fragment ∈ fragments.reduceOption, ∀ index : Nat, (index : ℤ) ∈ fragment.span →
        result[index]? = fragment.byteAt index) ∧
      ∀ index : Nat, (index : ℤ) ∉ covered Fragment.span fragments.reduceOption →
        result[index]? = u8asm[index]? := by
  induction fragments generalizing u8asm with
  | nil =>
      cases runs
      refine ⟨rfl, ?_, fun _ _ => rfl⟩
      rintro fragment ⟨⟩
  | cons slot fragments ih =>
      cases slot with
      | none => exact ih buffered apart runs
      | some fragment =>
          rw [List.reduceOption_cons_of_some] at buffered apart ⊢
          rw [List.forall_mem_cons] at buffered ⊢
          obtain ⟨apartHead, apartRest⟩ := List.pairwise_cons.mp apart
          obtain ⟨next, copied, continues⟩ := foldlM_assembleStep_cons_ok_iff.mp runs
          obtain ⟨sameLength, shown, elsewhere⟩ := ih buffered.2 apartRest continues
          have dataLength := Fragment.data_length buffered.1
          have own (index : Nat) :
              (index : ℤ) ∈ fragment.span ↔
                fragment.offset ≤ index ∧ index < fragment.offset + fragment.data.length := by
            rw [Fragment.mem_span, Fragment.fragEnd, dataLength]
          refine ⟨sameLength.trans (setBytes_length copied), ⟨?_, shown⟩, ?_⟩
          · intro index inside
            have notLater : (index : ℤ) ∉ covered Fragment.span fragments.reduceOption :=
              Finset.disjoint_left.mp (disjoint_covered apartHead) inside
            have begins := (setBytes_eq_ok_iff.mp copied).1
            rw [elsewhere index notLater, setBytes_getElem? copied, if_pos ((own index).mp inside),
              ← Fragment.data_getElem? buffered.1 inside]
            congr 1
            omega
          · intro index outside
            rw [covered_cons, Finset.mem_union, not_or] at outside
            rw [elsewhere index outside.2, setBytes_getElem? copied,
              if_neg (mt (own index).mpr outside.1)]

namespace Queue

variable {arrivals : List Arrival} {queue : Queue}

theorem Valid.isBuffered (valid : queue.Valid arrivals) :
    ∀ fragment ∈ queue.items, fragment.Buffered := by
  intro fragment member
  exact ⟨valid.nonempty fragment member, valid.buffered fragment member⟩

/-- Assembling succeeds exactly when no stored fragment reaches beyond the announced end. -/
theorem Valid.assemble_ok_iff (valid : queue.Valid arrivals) (nonneg : 0 ≤ queue.totalLength) :
    (∃ u8asm, queue.assemble = .ok u8asm) ↔
      ∀ fragment ∈ queue.items, fragment.fragEnd ≤ queue.totalLength := by
  have length : ((List.replicate queue.totalLength.toNat (0 : UInt8)).length : ℤ) =
      queue.totalLength := by
    rw [List.length_replicate, Int.toNat_of_nonneg nonneg]
  have runs := @foldlM_assembleStep_ok_iff (List.replicate queue.totalLength.toNat 0)
    queue.fragments valid.isBuffered fun fragment member => (valid.inside fragment member).1
  rw [length] at runs
  exact runs

/-- An assembled datagram has the announced length and shows what the fragments show. -/
theorem Valid.assembled (valid : queue.Valid arrivals) {u8asm : Bytes}
    (assembled : queue.assemble = .ok u8asm) :
    u8asm.length = queue.totalLength.toNat ∧
      ∀ fragment ∈ queue.items, ∀ index : Nat, (index : ℤ) ∈ fragment.span →
        u8asm[index]? = fragment.byteAt index := by
  have result := foldlM_assembleStep_getElem? valid.isBuffered valid.apart assembled
  rw [List.length_replicate] at result
  exact ⟨result.1, result.2.1⟩

/-- Stored fragments count as many bytes as the places they cover. -/
theorem Valid.receivedLength_eq (valid : queue.Valid arrivals) :
    queue.receivedLength = (covered Fragment.span queue.items).card := by
  rw [valid.counted, card_covered_eq_lengths valid.nonempty valid.apart]

/-- **Storing covers what the fragment carries.** -/
theorem Valid.covered_store (valid : queue.Valid arrivals) {arrival : Arrival} {cut : Portion}
    (nonempty : 0 < arrival.fragmentLength)
    (trimmed : arrival.portion.trim queue.fragments = some cut) :
    covered Fragment.span (queue.store cut arrival.frame.u8).items =
      arrival.span ∪ covered Fragment.span queue.items := by
  obtain ⟨isCut, -, places⟩ := valid.trim nonempty trimmed
  have part : cut.span ⊆ arrival.span := interval_subset isCut.offset_le isCut.end_le
  rw [covered_perm (queue.items_store cut arrival.frame.u8).1, covered_cons, Portion.span_fragment]
  apply Finset.Subset.antisymm
  · apply Finset.union_subset (part.trans Finset.subset_union_left)
    intro place member
    obtain ⟨fragment, kept, inside⟩ := mem_covered.mp member
    exact Finset.mem_union_right _ (mem_covered.mpr ⟨fragment, List.mem_of_mem_filter kept, inside⟩)
  · have old : covered Fragment.span queue.items ⊆ cut.span ∪
        covered Fragment.span (queue.items.filter fun fragment => !cut.contains fragment) := by
      intro place member
      obtain ⟨fragment, stored, inside⟩ := mem_covered.mp member
      cases contained : cut.contains fragment with
      | true => exact Finset.mem_union_left _ (Portion.span_subset_of_contains contained inside)
      | false =>
          apply Finset.mem_union_right
          exact mem_covered.mpr ⟨fragment, List.mem_filter.mpr ⟨stored, by simp [contained]⟩, inside⟩
    apply Finset.union_subset _ old
    intro place inside
    rcases Finset.mem_union.mp (places inside) with left | right
    · exact Finset.mem_union_left _ left
    · exact old right

end Queue

end JsOS.Net.Ip4
