import Mathlib.Data.Finset.Card
import Mathlib.Data.Finset.Range
import Mathlib.Data.Finset.Union

/-! # Pieces that cover a region

Pieces of any kind are collected in a list, and each takes a finite set of places. The
places covered by the pieces do not depend on their order. When no two pieces share a
place, the number of places covered is the sum of the sizes of the pieces, so that a
region of the same size is covered as soon as no piece sticks out of it.
-/

namespace Tiling

variable {Piece Place : Type*} (span : Piece → Finset Place)

/-- The places covered by some piece. -/
def covered [DecidableEq Place] (pieces : List Piece) : Finset Place :=
  pieces.foldr (fun piece places => span piece ∪ places) ∅

/-- No two pieces share a place. -/
def Apart (pieces : List Piece) : Prop :=
  pieces.Pairwise fun first second => Disjoint (span first) (span second)

/-- The sizes of all pieces together. -/
def size (pieces : List Piece) : Nat :=
  pieces.foldr (fun piece total => (span piece).card + total) 0

variable {span} {pieces pieces' : List Piece}

@[simp] theorem size_cons (piece : Piece) :
    size span (piece :: pieces) = (span piece).card + size span pieces := rfl

theorem Apart.perm (apart : Apart span pieces) (perm : pieces.Perm pieces') :
    Apart span pieces' :=
  perm.pairwise apart fun disjoint => disjoint.symm

theorem Apart.filter (apart : Apart span pieces) (keep : Piece → Bool) :
    Apart span (pieces.filter keep) :=
  List.Pairwise.sublist List.filter_sublist apart

theorem Apart.cons {piece : Piece} (apart : Apart span pieces)
    (clear : ∀ other ∈ pieces, Disjoint (span piece) (span other)) : Apart span (piece :: pieces) :=
  List.pairwise_cons.mpr ⟨clear, apart⟩

variable [DecidableEq Place]

@[simp] theorem covered_nil : covered span [] = ∅ := rfl

@[simp] theorem covered_cons (piece : Piece) :
    covered span (piece :: pieces) = span piece ∪ covered span pieces := rfl

theorem mem_covered {place : Place} :
    place ∈ covered span pieces ↔ ∃ piece ∈ pieces, place ∈ span piece := by
  induction pieces with
  | nil => simp
  | cons piece pieces ih => simp [ih]

theorem covered_perm (perm : pieces.Perm pieces') : covered span pieces = covered span pieces' := by
  ext place
  simp only [mem_covered, perm.mem_iff]

/-- A piece apart from all others shares no place with what they cover. -/
theorem disjoint_covered {places : Finset Place}
    (clear : ∀ other ∈ pieces, Disjoint places (span other)) :
    Disjoint places (covered span pieces) := by
  rw [Finset.disjoint_left]
  intro place inside member
  obtain ⟨other, isOther, inOther⟩ := mem_covered.mp member
  exact Finset.disjoint_left.mp (clear other isOther) inside inOther

/-- Pieces that share no place cover as many places as their sizes add up to. -/
theorem Apart.card_covered (apart : Apart span pieces) :
    (covered span pieces).card = size span pieces := by
  induction pieces with
  | nil => rfl
  | cons piece pieces ih =>
      obtain ⟨clear, rest⟩ := List.pairwise_cons.mp apart
      rw [covered_cons, Finset.card_union_of_disjoint (disjoint_covered clear), ih rest, size_cons]

/-- **Counting is enough.** Pieces that share no place and stay inside a region cover
it exactly when their sizes add up to its size. -/
theorem Apart.covered_eq_iff {region : Finset Place} (apart : Apart span pieces)
    (inside : covered span pieces ⊆ region) :
    covered span pieces = region ↔ size span pieces = region.card := by
  rw [← apart.card_covered]
  constructor
  · intro same
    rw [same]
  · intro same
    exact Finset.eq_of_subset_of_card_le inside same.ge

/-! ## Stretches of integers -/

/-- The integers from `first` up to, but not including, `last`. -/
def interval (first last : ℤ) : Finset ℤ :=
  (Finset.range (last - first).toNat).map
    ⟨fun index : ℕ => first + index, fun _ _ same => Int.ofNat_inj.mp (add_left_cancel same)⟩

theorem mem_interval {first last place : ℤ} :
    place ∈ interval first last ↔ first ≤ place ∧ place < last := by
  simp only [interval, Finset.mem_map, Finset.mem_range]
  constructor
  · rintro ⟨index, below, rfl⟩
    show first ≤ first + index ∧ first + index < last
    omega
  · rintro ⟨begins, ends⟩
    refine ⟨(place - first).toNat, by omega, ?_⟩
    show first + ((place - first).toNat : ℤ) = place
    omega

@[simp] theorem card_interval (first last : ℤ) :
    (interval first last).card = (last - first).toNat := by
  rw [interval, Finset.card_map, Finset.card_range]

theorem interval_subset {first last first' last' : ℤ} (begins : first' ≤ first)
    (ends : last ≤ last') : interval first last ⊆ interval first' last' := by
  intro place inside
  rw [mem_interval] at inside ⊢
  omega

end Tiling
