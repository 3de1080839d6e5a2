import Mathlib.Data.List.ReduceOption
import JsOS.Library.Tiling
import JsOS.Net.Ip4.Fragments

/-! # What storing a fragment does to a queue

The loop that cuts a new fragment looks at the stored fragments in list order and moves
either end of the new one. As the stored fragments share no byte, an end that was moved
to the border of one of them never cuts another in two: every stored fragment ends up
either apart from the portion that is left or inside it. The loop that removes fragments
then leaves exactly those apart from the portion, in some order.
-/

namespace JsOS.Net.Ip4

open Tcp (Bytes)
open Tiling

/-- The places of the datagram a stored fragment holds. -/
def Fragment.span (fragment : Fragment) : Finset ℤ := interval fragment.offset fragment.fragEnd

/-- The places of the datagram a portion holds. -/
def Portion.span (new : Portion) : Finset ℤ := interval new.newOffset new.newEnd

theorem Fragment.mem_span {fragment : Fragment} {place : ℤ} :
    place ∈ fragment.span ↔ fragment.offset ≤ place ∧ place < fragment.fragEnd :=
  mem_interval

theorem Portion.mem_span {new : Portion} {place : ℤ} :
    place ∈ new.span ↔ new.newOffset ≤ place ∧ place < new.newEnd :=
  mem_interval

@[simp] theorem Portion.span_fragment (new : Portion) (u8 : Bytes) :
    (new.fragment u8).span = new.span := by
  rw [Fragment.span, Portion.span, Fragment.fragEnd, Portion.fragment]
  congr 1
  ring

/-- Fragments that share no place lie one after the other. -/
theorem Fragment.disjoint_span_iff {first second : Fragment} (nonempty : 0 < first.length)
    (nonempty' : 0 < second.length) :
    Disjoint first.span second.span ↔
      first.fragEnd ≤ second.offset ∨ second.fragEnd ≤ first.offset := by
  rw [Finset.disjoint_left]
  simp only [mem_span, Fragment.fragEnd]
  constructor
  · intro apart
    by_contra overlap
    have place := apart (a := max first.offset second.offset)
    omega
  · intro order place inside inside'
    omega

namespace Portion

/-! ## Cutting -/

/-- A fragment lies apart from a portion or inside it. -/
def Clear (new : Portion) (fragment : Fragment) : Prop :=
  fragment.fragEnd ≤ new.newOffset ∨ new.newEnd ≤ fragment.offset ∨
    new.newOffset ≤ fragment.offset ∧ fragment.fragEnd ≤ new.newEnd

/-- A portion of a portion: it is not empty, and its data begins where it should. -/
structure Cut (new cut : Portion) : Prop where
  offset_le : new.newOffset ≤ cut.newOffset
  nonempty : cut.newOffset < cut.newEnd
  end_le : cut.newEnd ≤ new.newEnd
  aligned : cut.newNextOffset - cut.newOffset = new.newNextOffset - new.newOffset

theorem Cut.refl {new : Portion} (nonempty : new.newOffset < new.newEnd) : new.Cut new :=
  ⟨le_rfl, nonempty, le_rfl, rfl⟩

theorem Cut.trans {new cut last : Portion} (first : new.Cut cut) (second : cut.Cut last) :
    new.Cut last :=
  ⟨first.offset_le.trans second.offset_le, second.nonempty, second.end_le.trans first.end_le,
    second.aligned.trans first.aligned⟩

/-- What one round of the loop can do: stop at a fragment that holds the whole portion, move
one of its ends to the border of a fragment, or leave it. -/
theorem trimStep_cases {new : Portion} {fragment : Fragment}
    (nonempty : new.newOffset < new.newEnd) (stored : 0 < fragment.length) :
    (new.trimStep (some fragment) = none ∧
      fragment.offset ≤ new.newOffset ∧ new.newEnd ≤ fragment.fragEnd) ∨
    ∃ cut, new.trimStep (some fragment) = some cut ∧
      ((fragment.offset ≤ new.newOffset ∧ new.newOffset < fragment.fragEnd ∧
          fragment.fragEnd < new.newEnd ∧
          cut = ⟨fragment.fragEnd, new.newEnd,
            new.newNextOffset + (fragment.fragEnd - new.newOffset)⟩) ∨
        (new.newOffset < fragment.offset ∧ fragment.offset < new.newEnd ∧
          new.newEnd ≤ fragment.fragEnd ∧
          cut = ⟨new.newOffset, fragment.offset, new.newNextOffset⟩) ∨
        (cut = new ∧ new.Clear fragment)) := by
  have order : fragment.offset < fragment.fragEnd := by
    unfold Fragment.fragEnd
    omega
  simp only [trimStep, Clear]
  grind

theorem trimStep_some {new cut : Portion} {fragment : Fragment}
    (nonempty : new.newOffset < new.newEnd) (stored : 0 < fragment.length)
    (kept : new.trimStep (some fragment) = some cut) :
    new.Cut cut ∧ cut.Clear fragment ∧ new.span ⊆ cut.span ∪ fragment.span := by
  rcases trimStep_cases nonempty stored with ⟨stopped, -⟩ | ⟨result, trimmed, change⟩
  · cases stopped.symm.trans kept
  · cases trimmed.symm.trans kept
    have places {place : ℤ} : place ∈ new.span → place ∈ cut.span ∨ place ∈ fragment.span := by
      rw [mem_span, mem_span, Fragment.mem_span]
      rcases change with ⟨_, _, _, rfl⟩ | ⟨_, _, _, rfl⟩ | ⟨rfl, _⟩
      · dsimp only
        omega
      · dsimp only
        omega
      · exact .inl
    refine ⟨?_, ?_, fun place inside => Finset.mem_union.mpr (places inside)⟩
    · rcases change with ⟨_, below, above, rfl⟩ | ⟨after, _, before, rfl⟩ | ⟨rfl, _⟩
      · exact ⟨below.le, above, le_rfl, by ring⟩
      · exact ⟨le_rfl, after, by dsimp only; omega, rfl⟩
      · exact .refl nonempty
    · unfold Clear
      rcases change with ⟨_, _, _, rfl⟩ | ⟨_, _, _, rfl⟩ | ⟨rfl, clear⟩
      · exact .inl le_rfl
      · exact .inr (.inl le_rfl)
      · exact clear

/-- A fragment that is clear of the portion stays so when the portion is cut at another. -/
theorem Clear.trimStep {new cut : Portion} {fragment other : Fragment}
    (nonempty : new.newOffset < new.newEnd) (stored : 0 < fragment.length)
    (stored' : 0 < other.length) (apart : Disjoint fragment.span other.span)
    (clear : new.Clear fragment) (kept : new.trimStep (some other) = some cut) :
    cut.Clear fragment := by
  have order : fragment.offset < fragment.fragEnd := by
    unfold Fragment.fragEnd
    omega
  rw [Fragment.disjoint_span_iff stored stored'] at apart
  unfold Clear at clear ⊢
  rcases trimStep_cases nonempty stored' with ⟨stopped, -⟩ | ⟨result, trimmed, change⟩
  · cases stopped.symm.trans kept
  · cases trimmed.symm.trans kept
    rcases change with ⟨_, _, _, rfl⟩ | ⟨_, _, _, rfl⟩ | ⟨rfl, _⟩
    · dsimp only
      omega
    · dsimp only
      omega
    · exact clear

theorem trimStep_none {new : Portion} {fragment : Fragment}
    (nonempty : new.newOffset < new.newEnd) (stored : 0 < fragment.length)
    (stopped : new.trimStep (some fragment) = none) : new.span ⊆ fragment.span := by
  rcases trimStep_cases nonempty stored with ⟨-, after, before⟩ | ⟨cut, trimmed, -⟩
  · exact interval_subset after before
  · cases stopped.symm.trans trimmed

@[simp] theorem trim_nil (new : Portion) : new.trim [] = some new := rfl

@[simp] theorem trim_none_cons (new : Portion) (fragments : List (Option Fragment)) :
    new.trim (none :: fragments) = new.trim fragments := rfl

theorem trim_some_cons (new : Portion) (fragment : Fragment)
    (fragments : List (Option Fragment)) :
    new.trim (some fragment :: fragments) =
      (new.trimStep (some fragment)).bind fun cut => cut.trim fragments := rfl

/-- When the loop returns early, every byte of the new fragment is already stored. -/
theorem trim_eq_none {new : Portion} {fragments : List (Option Fragment)}
    (nonempty : new.newOffset < new.newEnd)
    (stored : ∀ fragment ∈ fragments.reduceOption, 0 < fragment.length)
    (stopped : new.trim fragments = none) :
    new.span ⊆ covered Fragment.span fragments.reduceOption := by
  induction fragments generalizing new with
  | nil => cases stopped
  | cons slot fragments ih =>
      cases slot with
      | none => exact ih nonempty stored stopped
      | some fragment =>
          rw [List.reduceOption_cons_of_some] at stored ⊢
          rw [List.forall_mem_cons] at stored
          rw [trim_some_cons] at stopped
          cases head : new.trimStep (some fragment) with
          | none =>
              exact (trimStep_none nonempty stored.1 head).trans Finset.subset_union_left
          | some cut =>
              rw [head] at stopped
              obtain ⟨isCut, -, places⟩ := trimStep_some nonempty stored.1 head
              have rest := ih isCut.nonempty stored.2 stopped
              intro place inside
              rcases Finset.mem_union.mp (places inside) with left | right
              · exact Finset.mem_union_right _ (rest left)
              · exact Finset.mem_union_left _ right

/-- A fragment that is clear of the portion stays so through the rest of the loop. -/
theorem Clear.trim {new cut : Portion} {fragment : Fragment}
    {fragments : List (Option Fragment)} (nonempty : new.newOffset < new.newEnd)
    (stored : 0 < fragment.length)
    (others : ∀ other ∈ fragments.reduceOption, 0 < other.length)
    (apart : ∀ other ∈ fragments.reduceOption, Disjoint fragment.span other.span)
    (clear : new.Clear fragment) (kept : new.trim fragments = some cut) :
    cut.Clear fragment := by
  induction fragments generalizing new with
  | nil =>
      cases kept
      exact clear
  | cons slot fragments ih =>
      cases slot with
      | none => exact ih nonempty others apart clear kept
      | some other =>
          rw [List.reduceOption_cons_of_some, List.forall_mem_cons] at others apart
          rw [trim_some_cons] at kept
          obtain ⟨next, first, rest⟩ := Option.bind_eq_some_iff.mp kept
          have isCut := (trimStep_some nonempty others.1 first).1
          apply ih isCut.nonempty others.2 apart.2 _ rest
          exact clear.trimStep nonempty stored others.1 apart.1 first

/-- **The portion that is left.** It is a part of the new fragment, every stored fragment
lies apart from it or inside it, and only bytes that are already stored are cut off. -/
theorem trim_eq_some {new cut : Portion} {fragments : List (Option Fragment)}
    (nonempty : new.newOffset < new.newEnd)
    (stored : ∀ fragment ∈ fragments.reduceOption, 0 < fragment.length)
    (apart : Apart Fragment.span fragments.reduceOption)
    (kept : new.trim fragments = some cut) :
    new.Cut cut ∧ (∀ fragment ∈ fragments.reduceOption, cut.Clear fragment) ∧
      new.span ⊆ cut.span ∪ covered Fragment.span fragments.reduceOption := by
  induction fragments generalizing new with
  | nil =>
      cases kept
      refine ⟨.refl nonempty, ?_, Finset.subset_union_left⟩
      rintro fragment ⟨⟩
  | cons slot fragments ih =>
      cases slot with
      | none => exact ih nonempty stored apart kept
      | some fragment =>
          rw [List.reduceOption_cons_of_some] at stored apart ⊢
          rw [List.forall_mem_cons] at stored ⊢
          obtain ⟨apartHead, apartRest⟩ := List.pairwise_cons.mp apart
          rw [trim_some_cons] at kept
          obtain ⟨next, first, rest⟩ := Option.bind_eq_some_iff.mp kept
          obtain ⟨isCut, clear, places⟩ := trimStep_some nonempty stored.1 first
          obtain ⟨isCut', clearRest, places'⟩ := ih isCut.nonempty stored.2 apartRest rest
          refine ⟨isCut.trans isCut', ⟨?_, clearRest⟩, ?_⟩
          · exact clear.trim isCut.nonempty stored.1 stored.2 apartHead rest
          · intro place inside
            rw [covered_cons, Finset.union_left_comm]
            rcases Finset.mem_union.mp (places inside) with left | right
            · exact Finset.mem_union_right _ (places' left)
            · exact Finset.mem_union_left _ right

/-- A fragment that lies apart from the portion or inside it is removed exactly when it
shares a place with it. -/
theorem Clear.contains_eq_false_iff {new : Portion} {fragment : Fragment}
    (clear : new.Clear fragment) (nonempty : new.newOffset < new.newEnd)
    (stored : 0 < fragment.length) :
    new.contains fragment = false ↔ Disjoint new.span fragment.span := by
  have order : fragment.offset < fragment.fragEnd := by
    unfold Fragment.fragEnd
    omega
  rw [Finset.disjoint_left]
  simp only [mem_span, Fragment.mem_span]
  unfold Clear at clear
  have contains_iff : new.contains fragment = true ↔
      new.newOffset ≤ fragment.offset ∧ fragment.offset ≤ new.newEnd ∧
        new.newOffset ≤ fragment.fragEnd ∧ fragment.fragEnd ≤ new.newEnd := by
    simp [Portion.contains, and_assoc]
  rw [← Bool.not_eq_true, contains_iff]
  constructor
  · intro kept place inside inside'
    omega
  · intro apart inside
    have place := apart (a := fragment.offset)
    omega

/-- A fragment that is removed lies inside the portion. -/
theorem span_subset_of_contains {new : Portion} {fragment : Fragment}
    (contained : new.contains fragment = true) : fragment.span ⊆ new.span := by
  simp only [contains, Bool.and_eq_true, decide_eq_true_eq] at contained
  exact interval_subset contained.1.1.1 contained.2

/-- What the loop that removes fragments leaves in a slot. -/
def keep (new : Portion) : Option Fragment → Option Fragment
  | none => none
  | some fragment => if new.contains fragment then none else some fragment

theorem reduceOption_map_keep (new : Portion) (fragments : List (Option Fragment)) :
    (fragments.map new.keep).reduceOption =
      fragments.reduceOption.filter fun fragment => !new.contains fragment := by
  induction fragments with
  | nil => rfl
  | cons slot fragments ih =>
      cases slot with
      | none => simpa [keep] using ih
      | some fragment =>
          cases contained : new.contains fragment with
          | true => simpa [keep, contained] using ih
          | false => simpa [keep, contained] using ih

end Portion

/-! ## Removing -/

/-- The lengths of all fragments together. -/
def lengths (fragments : List Fragment) : Int := (fragments.map Fragment.length).sum

@[simp] theorem lengths_cons (fragment : Fragment) (fragments : List Fragment) :
    lengths (fragment :: fragments) = fragment.length + lengths fragments := by
  simp [lengths]

theorem lengths_perm {fragments fragments' : List Fragment} (perm : fragments.Perm fragments') :
    lengths fragments = lengths fragments' :=
  (perm.map _).sum_eq

/-- The fragments to remove and those to keep make up all lengths. -/
theorem lengths_filter_add (fragments : List Fragment) (remove : Fragment → Bool) :
    lengths (fragments.filter remove) + lengths (fragments.filter fun fragment => !remove fragment) =
      lengths fragments := by
  induction fragments with
  | nil => rfl
  | cons fragment fragments ih =>
      cases removed : remove fragment <;> simp [removed] <;> omega

/-- The lengths of fragments that share no place count the places they cover. -/
theorem card_covered_eq_lengths {fragments : List Fragment}
    (stored : ∀ fragment ∈ fragments, 0 < fragment.length) (apart : Apart Fragment.span fragments) :
    ((covered Fragment.span fragments).card : ℤ) = lengths fragments := by
  rw [apart.card_covered]
  clear apart
  induction fragments with
  | nil => rfl
  | cons fragment fragments ih =>
      obtain ⟨positive, rest⟩ := List.forall_mem_cons.mp stored
      rw [size_cons, lengths_cons, Nat.cast_add, ih rest, Fragment.span, card_interval,
        Fragment.fragEnd]
      omega

/-- The loop that removes fragments visits every slot once and empties those whose fragment
lies inside the portion; the index it remembers is that of an emptied slot. -/
theorem foldl_removeAt (new : Portion) (before slots : List (Option Fragment)) (received : Int)
    (index : Option Nat) :
    ∃ index', (List.range' before.length slots.length).foldl (Removal.removeAt new)
        ⟨before ++ slots, received, index⟩ =
      ⟨before ++ slots.map new.keep,
        received - lengths (slots.reduceOption.filter new.contains), index'⟩ ∧
      (index' = index ∨ ∃ i, index' = some i ∧ (before ++ slots.map new.keep)[i]? = some none) := by
  induction slots generalizing before received index with
  | nil => exact ⟨index, by simp [lengths], .inl rfl⟩
  | cons slot slots ih =>
      rw [List.length_cons, List.range'_succ, List.foldl_cons]
      cases slot with
      | none =>
          have round : Removal.removeAt new ⟨before ++ none :: slots, received, index⟩ before.length =
              ⟨(before ++ [none]) ++ slots, received, index⟩ := by
            simp [Removal.removeAt]
          obtain ⟨index', loop, found⟩ := ih (before ++ [none]) received index
          rw [round]
          refine ⟨index', ?_, ?_⟩
          · simpa [Portion.keep] using loop
          · simpa [Portion.keep] using found
      | some fragment =>
          cases contained : new.contains fragment with
          | false =>
              have round : Removal.removeAt new ⟨before ++ some fragment :: slots, received, index⟩
                  before.length = ⟨(before ++ [some fragment]) ++ slots, received, index⟩ := by
                simp [Removal.removeAt, contained]
              obtain ⟨index', loop, found⟩ := ih (before ++ [some fragment]) received index
              rw [round]
              refine ⟨index', ?_, ?_⟩
              · simpa [Portion.keep, contained] using loop
              · simpa [Portion.keep, contained] using found
          | true =>
              have round : Removal.removeAt new ⟨before ++ some fragment :: slots, received, index⟩
                  before.length =
                  ⟨(before ++ [none]) ++ slots, received - fragment.length,
                    some before.length⟩ := by
                simp [Removal.removeAt, contained]
              obtain ⟨index', loop, found⟩ :=
                ih (before ++ [none]) (received - fragment.length) (some before.length)
              rw [round]
              refine ⟨index', ?_, .inr ?_⟩
              · simpa [Portion.keep, contained, sub_sub] using loop
              · rcases found with rfl | ⟨i, rfl, empty⟩
                · exact ⟨before.length, rfl, by simp [Portion.keep, contained]⟩
                · exact ⟨i, rfl, by simpa [Portion.keep, contained] using empty⟩

/-- Filling an empty slot adds the fragment. -/
theorem reduceOption_set_perm {slots : List (Option Fragment)} {i : Nat} (fragment : Fragment)
    (empty : slots[i]? = some none) :
    (slots.set i (some fragment)).reduceOption.Perm (fragment :: slots.reduceOption) := by
  induction slots generalizing i with
  | nil => cases empty
  | cons slot slots ih =>
      cases i with
      | zero =>
          cases empty
          exact .refl _
      | succ i =>
          cases slot with
          | none => exact ih empty
          | some other =>
              have rest := ih empty
              exact (rest.cons other).trans (.swap fragment other _)

namespace Queue

/-- The fragments stored in a queue. -/
def items (queue : Queue) : List Fragment := queue.fragments.reduceOption

/-- **Storing a portion.** The portion takes the place of the fragments inside it, and the
count of received bytes follows. -/
theorem items_store (queue : Queue) (new : Portion) (u8 : Bytes) :
    (queue.store new u8).items.Perm
        (new.fragment u8 :: queue.items.filter fun fragment => !new.contains fragment) ∧
      (queue.store new u8).receivedLength =
        queue.receivedLength - lengths (queue.items.filter new.contains) +
          (new.newEnd - new.newOffset) := by
  obtain ⟨index, loop, found⟩ :=
    foldl_removeAt new [] queue.fragments queue.receivedLength none
  simp only [List.nil_append, List.length_nil, ← List.range_eq_range'] at loop found
  have removal : queue.removeContained new = ⟨queue.fragments.map new.keep, _, index⟩ := loop
  have kept := new.reduceOption_map_keep queue.fragments
  simp only [items, store, removal]
  refine ⟨?_, rfl⟩
  rcases found with rfl | ⟨i, rfl, empty⟩
  · dsimp only
    rw [List.reduceOption_append, kept]
    exact List.perm_append_comm
  · dsimp only
    rw [← kept]
    exact reduceOption_set_perm _ empty

end Queue

end JsOS.Net.Ip4
