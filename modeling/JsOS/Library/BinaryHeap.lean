import Mathlib.Data.List.Perm.Basic
import Mathlib.Order.Lattice

/-! # Binary heaps

A list is read as a binary tree: the element at a position has its children at twice the
position and one or two more. It is a heap if no element's key is below its parent's. An
element is pushed at the end and moves up, and the first one is popped by moving the last one
down from its place; both move a hole through the tree, in which the element is put in the end.
-/

namespace BinaryHeap

variable {Item Key : Type*} [LinearOrder Key]

/-- The position of the parent. -/
def parent (position : ℕ) : ℕ := (position - 1) / 2

/-- Move a hole up until the item fits, and put it there. -/
def siftUp (key : Item → Key) (heap : List Item) (hole : ℕ) (item : Item) : List Item :=
  if hole = 0 then heap.set hole item
  else
    match heap[parent hole]? with
    | none => heap.set hole item
    | some above =>
        if key item < key above then siftUp key (heap.set hole above) (parent hole) item
        else heap.set hole item
termination_by hole
decreasing_by
  unfold parent
  omega

/-- The child with the lower key, the left one of equals, with its position. -/
def leastChild (key : Item → Key) (heap : List Item) (hole : ℕ) : Option (ℕ × Item) :=
  heap[2 * hole + 1]?.map fun left =>
    match heap[2 * hole + 2]? with
    | none => (2 * hole + 1, left)
    | some right =>
        if key right < key left then (2 * hole + 2, right) else (2 * hole + 1, left)

/-- Move a hole down until the item fits, and put it there; `rounds` bounds the way. -/
def siftDown (key : Item → Key) (rounds : ℕ) (heap : List Item) (hole : ℕ) (item : Item) :
    List Item :=
  match rounds with
  | 0 => heap.set hole item
  | rounds + 1 =>
      match leastChild key heap hole with
      | none => heap.set hole item
      | some (child, least) =>
          if key item < key least then heap.set hole item
          else siftDown key rounds (heap.set hole least) child item

/-- Push an item. -/
def push (key : Item → Key) (heap : List Item) (item : Item) : List Item :=
  siftUp key (heap ++ [item]) heap.length item

/-- Pop the first item. -/
def pop (key : Item → Key) : List Item → List Item
  | [] => []
  | _ :: rest =>
      match rest.getLast? with
      | none => []
      | some last => siftDown key rest.length (last :: rest.dropLast) 0 last

/-- No item's key is below its parent's. -/
def Ordered (key : Item → Key) (heap : List Item) : Prop :=
  ∀ position above item, heap[parent position]? = some above → heap[position]? = some item →
    key above ≤ key item

/-- A heap but for one position, whose item does not count. -/
structure Hole (key : Item → Key) (heap : List Item) (hole : ℕ) : Prop where
  rest : ∀ position above item, position ≠ hole → parent position ≠ hole →
    heap[parent position]? = some above → heap[position]? = some item → key above ≤ key item
  around : ∀ position above item, hole ≠ 0 → position ≠ hole → parent position = hole →
    heap[parent hole]? = some above → heap[position]? = some item → key above ≤ key item

variable {key : Item → Key} {heap : List Item} {hole : ℕ} {item : Item}

theorem parent_lt (positive : hole ≠ 0) : parent hole < hole := by
  unfold parent
  omega

theorem parent_eq_self : parent hole = hole ↔ hole = 0 := by
  unfold parent
  omega

theorem parent_left (hole : ℕ) : parent (2 * hole + 1) = hole := by
  unfold parent
  omega

theorem parent_right (hole : ℕ) : parent (2 * hole + 2) = hole := by
  unfold parent
  omega

theorem eq_child_of_parent {position : ℕ} (below : parent position = hole)
    (apart : position ≠ hole) : position = 2 * hole + 1 ∨ position = 2 * hole + 2 := by
  unfold parent at below
  omega

/-- What stands at a position after an item was put somewhere. -/
theorem getElem?_put {position : ℕ} {value : Item} (found : (heap.set hole item)[position]? = some value) :
    (position = hole ∧ value = item) ∨ position ≠ hole ∧ heap[position]? = some value := by
  rw [List.getElem?_set] at found
  by_cases same : hole = position
  · rw [if_pos same] at found
    by_cases inside : hole < heap.length
    · rw [if_pos inside] at found
      exact .inl ⟨same.symm, (Option.some.inj found).symm⟩
    · rw [if_neg inside] at found
      cases found
  · rw [if_neg same] at found
    exact .inr ⟨fun back => same back.symm, found⟩

/-! ## Moving a hole -/

/-- **Filling a hole** with an item between its parent and its children. -/
theorem Hole.fill (holed : Hole key heap hole)
    (above : ∀ parentItem, hole ≠ 0 → heap[parent hole]? = some parentItem →
      key parentItem ≤ key item)
    (below : ∀ position child, position ≠ hole → parent position = hole →
      heap[position]? = some child → key item ≤ key child) : Ordered key (heap.set hole item) := by
  intro position first second foundFirst foundSecond
  rcases getElem?_put foundFirst with ⟨here, rfl⟩ | ⟨apartFirst, heldFirst⟩
  · rcases getElem?_put foundSecond with ⟨also, rfl⟩ | ⟨apart, foundSecond⟩
    · exact le_rfl
    · exact below position second apart here foundSecond
  · rcases getElem?_put foundSecond with ⟨here, rfl⟩ | ⟨apart, foundSecond⟩
    · subst here
      have positive : position ≠ 0 := fun zero => apartFirst (parent_eq_self.mpr zero)
      exact above first positive heldFirst
    · exact holed.rest position first second apart apartFirst heldFirst foundSecond

/-- **A hole moves up** when its parent comes down, and all below the new hole is at or above
that parent. -/
theorem Hole.up (holed : Hole key heap hole) (positive : hole ≠ 0) {above : Item}
    (found : heap[parent hole]? = some above) :
    Hole key (heap.set hole above) (parent hole) ∧
      ∀ position child, position ≠ parent hole → parent position = parent hole →
        (heap.set hole above)[position]? = some child → key above ≤ key child := by
  have lower := parent_lt positive
  refine ⟨⟨fun position first second apart outside foundFirst foundSecond => ?_,
    fun position first second inner apart here foundFirst foundSecond => ?_⟩,
    fun position child apart here foundChild => ?_⟩
  · rcases getElem?_put foundFirst with ⟨also, rfl⟩ | ⟨other, heldFirst⟩
    · rcases getElem?_put foundSecond with ⟨-, rfl⟩ | ⟨different, foundSecond⟩
      · exact le_rfl
      · exact holed.around position first second positive different also found foundSecond
    · rcases getElem?_put foundSecond with ⟨also, rfl⟩ | ⟨different, foundSecond⟩
      · subst also
        exact absurd rfl outside
      · exact holed.rest position first second different other heldFirst foundSecond
  · have outer : parent (parent hole) ≠ hole := by
      have upper := parent_lt inner
      omega
    have grand : key first ≤ key above := by
      rcases getElem?_put foundFirst with ⟨also, -⟩ | ⟨-, foundFirst⟩
      · exact absurd also outer
      · exact holed.rest (parent hole) first above (Nat.ne_of_lt lower) outer foundFirst found
    rcases getElem?_put foundSecond with ⟨-, rfl⟩ | ⟨different, foundSecond⟩
    · exact grand
    · have below := holed.rest position above second different
        (here ▸ Nat.ne_of_lt lower) (here.symm ▸ found) foundSecond
      exact grand.trans below
  · rcases getElem?_put foundChild with ⟨-, rfl⟩ | ⟨different, foundChild⟩
    · exact le_rfl
    · exact holed.rest position above child different (here ▸ Nat.ne_of_lt lower)
        (here.symm ▸ found) foundChild

/-- The least child is a child, and no other one is below it. -/
theorem leastChild_spec {child : ℕ} {least : Item}
    (found : leastChild key heap hole = some (child, least)) :
    heap[child]? = some least ∧ parent child = hole ∧ hole < child ∧
      ∀ position other, position ≠ hole → parent position = hole →
        heap[position]? = some other → key least ≤ key other := by
  obtain ⟨left, foundLeft, chosen⟩ := Option.map_eq_some_iff.mp found
  have only (position : ℕ) (other : Item) (apart : position ≠ hole)
      (below : parent position = hole) (foundOther : heap[position]? = some other) :
      other = left ∨ heap[2 * hole + 2]? = some other := by
    rcases eq_child_of_parent below apart with rfl | rfl
    · exact .inl (Option.some.inj (foundOther.symm.trans foundLeft))
    · exact .inr foundOther
  cases foundRight : heap[2 * hole + 2]? with
  | none =>
      rw [foundRight] at chosen
      obtain ⟨rfl, rfl⟩ := Prod.mk.inj chosen
      refine ⟨foundLeft, parent_left hole, by omega, fun position other apart below foundOther => ?_⟩
      rcases only position other apart below foundOther with rfl | right
      · exact le_rfl
      · rw [foundRight] at right
        cases right
  | some right =>
      rw [foundRight] at chosen
      dsimp only at chosen
      by_cases lower : key right < key left
      · rw [if_pos lower] at chosen
        obtain ⟨rfl, rfl⟩ := Prod.mk.inj chosen
        refine ⟨foundRight, parent_right hole, by omega,
          fun position other apart below foundOther => ?_⟩
        rcases only position other apart below foundOther with rfl | same
        · exact le_of_lt lower
        · rw [Option.some.inj (foundRight.symm.trans same)]
      · rw [if_neg lower] at chosen
        obtain ⟨rfl, rfl⟩ := Prod.mk.inj chosen
        refine ⟨foundLeft, parent_left hole, by omega,
          fun position other apart below foundOther => ?_⟩
        rcases only position other apart below foundOther with rfl | same
        · exact le_rfl
        · rw [← Option.some.inj (foundRight.symm.trans same)]
          exact not_lt.mp lower

theorem leastChild_eq_none (none : leastChild key heap hole = none) {position : ℕ}
    (apart : position ≠ hole) (below : parent position = hole) : heap[position]? = Option.none := by
  have left : heap[2 * hole + 1]? = Option.none := Option.map_eq_none_iff.mp none
  have short := List.getElem?_eq_none_iff.mp left
  rcases eq_child_of_parent below apart with rfl | rfl
  · exact left
  · exact List.getElem?_eq_none (Nat.le_succ_of_le short)

/-- **A hole moves down** when its least child comes up. -/
theorem Hole.down (holed : Hole key heap hole) {child : ℕ} {least : Item}
    (found : leastChild key heap hole = some (child, least)) :
    Hole key (heap.set hole least) child := by
  obtain ⟨foundChild, under, lower, smallest⟩ := leastChild_spec found
  refine ⟨fun position first second apart outside foundFirst foundSecond => ?_,
    fun position first second inner apart here foundFirst foundSecond => ?_⟩
  · rcases getElem?_put foundFirst with ⟨also, rfl⟩ | ⟨other, heldFirst⟩
    · rcases getElem?_put foundSecond with ⟨-, rfl⟩ | ⟨different, foundSecond⟩
      · exact le_rfl
      · exact smallest position second different also foundSecond
    · rcases getElem?_put foundSecond with ⟨also, rfl⟩ | ⟨different, foundSecond⟩
      · subst also
        have positive : position ≠ 0 := fun zero => other (parent_eq_self.mpr zero)
        exact holed.around child first second positive (Nat.ne_of_gt lower) under heldFirst
          foundChild
      · exact holed.rest position first second different other heldFirst foundSecond
  · have first_eq : first = least := by
      rcases getElem?_put foundFirst with ⟨-, same⟩ | ⟨other, -⟩
      · exact same
      · exact absurd under other
    subst first_eq
    have further : position ≠ hole := by
      have above : position ≠ 0 := by
        intro zero
        subst zero
        have zero_child : child = 0 := here.symm
        omega
      have way := parent_lt above
      omega
    rcases getElem?_put foundSecond with ⟨also, -⟩ | ⟨-, foundSecond⟩
    · exact absurd also further
    · exact holed.rest position first second further (here ▸ Nat.ne_of_gt lower)
        (here.symm ▸ foundChild) foundSecond

/-! ## Sifting -/

/-- **An item that moves up leaves a heap.** -/
theorem Hole.siftUp (holed : Hole key heap hole)
    (below : ∀ position child, position ≠ hole → parent position = hole →
      heap[position]? = some child → key item ≤ key child) :
    Ordered key (siftUp key heap hole item) := by
  induction heap, hole using siftUp.induct key item with
  | case1 heap =>
      rw [BinaryHeap.siftUp, if_pos rfl]
      exact holed.fill (fun above positive => absurd rfl positive) below
  | case2 heap hole positive none =>
      rw [BinaryHeap.siftUp, if_neg positive, none]
      refine holed.fill (fun above _ found => ?_) below
      rw [none] at found
      cases found
  | case3 heap hole positive above found lower ih =>
      rw [BinaryHeap.siftUp, if_neg positive, found]
      dsimp only
      rw [if_pos lower]
      obtain ⟨moved, children⟩ := holed.up positive found
      exact ih moved fun position child apart under held =>
        (le_of_lt lower).trans (children position child apart under held)
  | case4 heap hole positive above found higher =>
      rw [BinaryHeap.siftUp, if_neg positive, found]
      dsimp only
      rw [if_neg higher]
      refine holed.fill (fun other _ same => ?_) below
      rw [← Option.some.inj (found.symm.trans same)]
      exact not_lt.mp higher

/-- **An item that moves down leaves a heap**, given rounds to the end of the list. -/
theorem Hole.siftDown {rounds : ℕ} (holed : Hole key heap hole)
    (above : ∀ parentItem, hole ≠ 0 → heap[parent hole]? = some parentItem →
      key parentItem ≤ key item)
    (enough : heap.length ≤ hole + rounds) :
    Ordered key (siftDown key rounds heap hole item) := by
  induction rounds generalizing heap hole with
  | zero =>
      refine holed.fill above fun position child apart under held => ?_
      have inside := (List.getElem?_eq_some_iff.mp held).1
      rcases eq_child_of_parent under apart with rfl | rfl <;> omega
  | succ rounds ih =>
      rw [BinaryHeap.siftDown]
      cases found : leastChild key heap hole with
      | none =>
          refine holed.fill above fun position child apart under held => ?_
          rw [leastChild_eq_none found apart under] at held
          cases held
      | some chosen =>
          obtain ⟨child, least⟩ := chosen
          obtain ⟨-, under, lower, smallest⟩ := leastChild_spec found
          dsimp only
          by_cases fits : key item < key least
          · rw [if_pos fits]
            exact holed.fill above fun position other apart here held =>
              (le_of_lt fits).trans (smallest position other apart here held)
          · rw [if_neg fits]
            refine ih (holed.down found) (fun parentItem _ held => ?_) ?_
            · rw [under] at held
              rcases getElem?_put held with ⟨-, rfl⟩ | ⟨apart, -⟩
              · exact not_lt.mp fits
              · exact absurd rfl apart
            · rw [List.length_set]
              omega

/-- Moving an item into a hole and filling the place it leaves. -/
theorem perm_move {other : ℕ} {moved : Item} (inside : hole < heap.length)
    (apart : other ≠ hole) (found : heap[other]? = some moved) :
    ((heap.set hole moved).set other item).Perm (heap.set hole item) := by
  obtain ⟨insideOther, value⟩ := List.getElem?_eq_some_iff.mp found
  have first : hole < (heap.set hole item).length := by rwa [List.length_set]
  have second : other < (heap.set hole item).length := by rwa [List.length_set]
  have swapped := List.set_set_perm first second
  rw [List.getElem_set_self, List.getElem_set_ne (Ne.symm apart), value, List.set_set] at swapped
  exact swapped

/-- Sifting only moves items. -/
theorem perm_siftUp (inside : hole < heap.length) :
    (siftUp key heap hole item).Perm (heap.set hole item) := by
  induction heap, hole using siftUp.induct key item with
  | case1 heap =>
      rw [siftUp, if_pos rfl]
  | case2 heap hole positive none =>
      rw [siftUp, if_neg positive, none]
  | case3 heap hole positive above found lower ih =>
      rw [siftUp, if_neg positive, found]
      dsimp only
      rw [if_pos lower]
      have upper := parent_lt positive
      refine (ih ?_).trans (perm_move inside (Nat.ne_of_lt upper) found)
      rw [List.length_set]
      exact Nat.lt_trans upper inside
  | case4 heap hole positive above found higher =>
      rw [siftUp, if_neg positive, found]
      dsimp only
      rw [if_neg higher]

theorem perm_siftDown {rounds : ℕ} (inside : hole < heap.length) :
    (siftDown key rounds heap hole item).Perm (heap.set hole item) := by
  induction rounds generalizing heap hole with
  | zero => exact List.Perm.refl _
  | succ rounds ih =>
      rw [siftDown]
      cases found : leastChild key heap hole with
      | none => exact List.Perm.refl _
      | some chosen =>
          obtain ⟨child, least⟩ := chosen
          obtain ⟨held, -, lower, -⟩ := leastChild_spec found
          dsimp only
          by_cases fits : key item < key least
          · rw [if_pos fits]
          · rw [if_neg fits]
            have insideChild := (List.getElem?_eq_some_iff.mp held).1
            refine (ih ?_).trans (perm_move inside (Nat.ne_of_gt lower) held)
            rwa [List.length_set]

/-! ## Pushing and popping -/

/-- **A push adds the item** and keeps the heap. -/
theorem Ordered.push (ordered : Ordered key heap) (item : Item) :
    Ordered key (push key heap item) ∧ (push key heap item).Perm (item :: heap) := by
  have inside : heap.length < (heap ++ [item]).length := by
    rw [List.length_append]
    exact Nat.lt_succ_self _
  have old {position : ℕ} {value : Item} (apart : position ≠ heap.length)
      (found : (heap ++ [item])[position]? = some value) : heap[position]? = some value := by
    have within := (List.getElem?_eq_some_iff.mp found).1
    rw [List.length_append, List.length_singleton] at within
    rwa [List.getElem?_append_left (by omega)] at found
  have last {position : ℕ} {value : Item} (apart : position ≠ heap.length)
      (under : parent position = heap.length)
      (found : (heap ++ [item])[position]? = some value) : False := by
    have within := (List.getElem?_eq_some_iff.mp (old apart found)).1
    rcases eq_child_of_parent under apart with rfl | rfl <;> omega
  have holed : Hole key (heap ++ [item]) heap.length :=
    ⟨fun position first second apart outside foundFirst foundSecond =>
      ordered position first second (old outside foundFirst) (old apart foundSecond),
      fun position _ _ _ apart under _ foundSecond => (last apart under foundSecond).elim⟩
  refine ⟨holed.siftUp fun position child apart under found => (last apart under found).elim, ?_⟩
  refine (perm_siftUp inside).trans ?_
  rw [List.set_append_right _ _ (Nat.le_refl _), Nat.sub_self, List.set_cons_zero]
  exact List.perm_append_singleton item heap

/-- **The first item of a heap is a least one.** -/
theorem Ordered.top_le (ordered : Ordered key heap) {top : Item} (first : heap[0]? = some top)
    {position : ℕ} (found : heap[position]? = some item) : key top ≤ key item := by
  induction position using Nat.strongRecOn generalizing item with
  | ind position ih =>
      by_cases zero : position = 0
      · subst zero
        rw [Option.some.inj (first.symm.trans found)]
      · have upper := parent_lt zero
        have inside := Nat.lt_trans upper (List.getElem?_eq_some_iff.mp found).1
        have above := List.getElem?_eq_getElem inside
        exact (ih (parent position) upper above).trans (ordered position _ item above found)

theorem Ordered.top_le_of_mem {top : Item} {rest : List Item} (ordered : Ordered key (top :: rest))
    (member : item ∈ top :: rest) : key top ≤ key item := by
  obtain ⟨position, inside, value⟩ := List.mem_iff_getElem.mp member
  exact ordered.top_le rfl (List.getElem?_eq_some_iff.mpr ⟨inside, value⟩)

/-- **A pop takes the first item** and keeps the heap. -/
theorem Ordered.pop {top : Item} {rest : List Item} (ordered : Ordered key (top :: rest)) :
    Ordered key (pop key (top :: rest)) ∧ (pop key (top :: rest)).Perm rest := by
  rw [BinaryHeap.pop]
  cases found : rest.getLast? with
  | none =>
      have empty : rest = [] := List.getLast?_eq_none_iff.mp found
      refine ⟨fun position above item _ held => ?_, ?_⟩
      · cases held
      · rw [empty]
  | some last =>
      dsimp only
      have split : rest = rest.dropLast ++ [last] := by
        rw [List.getLast?_eq_some_iff] at found
        obtain ⟨front, rfl⟩ := found
        rw [List.dropLast_concat]
      have inner {position : ℕ} {value : Item} (apart : position ≠ 0)
          (held : (last :: rest.dropLast)[position]? = some value) :
          (top :: rest)[position]? = some value := by
        obtain ⟨position, rfl⟩ := Nat.exists_eq_succ_of_ne_zero apart
        rw [Nat.succ_eq_add_one, List.getElem?_cons_succ] at held ⊢
        have within := (List.getElem?_eq_some_iff.mp held).1
        rw [split, List.getElem?_append_left within]
        exact held
      have holed : Hole key (last :: rest.dropLast) 0 :=
        ⟨fun position first second apart outside foundFirst foundSecond =>
          ordered position first second (inner outside foundFirst) (inner apart foundSecond),
          fun _ _ _ positive => absurd rfl positive⟩
      have positive : 0 < rest.length := by
        rw [split, List.length_append]
        exact Nat.succ_pos _
      refine ⟨holed.siftDown (fun _ positive => absurd rfl positive) ?_, ?_⟩
      · apply Nat.le_of_eq
        rw [List.length_cons, List.length_dropLast, Nat.sub_add_cancel positive, Nat.zero_add]
      · refine (perm_siftDown (Nat.succ_pos _)).trans ?_
        rw [List.set_cons_zero]
        refine (List.perm_append_singleton last rest.dropLast).symm.trans ?_
        rw [← split]

theorem ordered_nil : Ordered key ([] : List Item) := fun _ _ _ _ held => by cases held

end BinaryHeap
