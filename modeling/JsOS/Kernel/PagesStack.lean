import Mathlib.Data.List.Range

/-! # The stack of free pages

A `PagesStack` grows downwards in a fixed area of memory. Its lowest word is never
written: a push when the stack is full is dropped. The first word pushed is a guard, 0,
which is no page, and which a pop hands out when there is no page above it; after that
the stack is empty for good, until something is pushed.
-/

namespace JsOS.Kernel

/-- A `PagesStack`. Its pointers count words from `location_overflow_` on. -/
structure PagesStack where
  memory : Nat → Nat
  location : Nat
  currentLocation : Nat

namespace PagesStack

/-- `push`. -/
def push (stack : PagesStack) (pageid : Nat) : PagesStack :=
  if stack.currentLocation = 0 then stack
  else
    { stack with
      memory := fun word => if word = stack.currentLocation then pageid else stack.memory word
      currentLocation := stack.currentLocation - 1 }

/-- `pop`; the result is 0 when there is nothing to pop. -/
def pop (stack : PagesStack) : Nat × PagesStack :=
  if stack.currentLocation = stack.location then (0, stack)
  else
    (stack.memory (stack.currentLocation + 1),
      { stack with currentLocation := stack.currentLocation + 1 })

/-- The constructor, for an area of `size` bytes that holds anything. -/
def new (memory : Nat → Nat) (size : Nat) : PagesStack :=
  push ⟨memory, size / 8 - 1, size / 8 - 1⟩ 0

/-! ## The words on the stack -/

/-- The words between the two pointers, the last one pushed first. -/
def words (stack : PagesStack) : List Nat :=
  (List.range' (stack.currentLocation + 1) (stack.location - stack.currentLocation)).map stack.memory

/-- The pages on the stack: all words but the guard. -/
def pages (stack : PagesStack) : List Nat := stack.words.filter fun word => word ≠ 0

theorem words_push {stack : PagesStack} (inside : stack.currentLocation ≤ stack.location)
    (room : stack.currentLocation ≠ 0) (pageid : Nat) :
    (stack.push pageid).words = pageid :: stack.words := by
  have length : stack.location - (stack.currentLocation - 1) =
      (stack.location - stack.currentLocation) + 1 := by omega
  unfold push
  rw [if_neg room]
  unfold words
  dsimp only
  rw [Nat.sub_add_cancel (Nat.pos_of_ne_zero room), length, List.range'_succ, List.map_cons,
    if_pos rfl]
  congr 1
  refine List.map_congr_left fun word member => ?_
  obtain ⟨above, -⟩ := List.mem_range'_1.mp member
  exact if_neg (Nat.ne_of_gt above)

/-- A pop takes the first word, if there is one. -/
theorem pop_cases {stack : PagesStack} (inside : stack.currentLocation ≤ stack.location) :
    (stack.words = [] ∧ stack.pop = (0, stack)) ∨
    ∃ word rest, stack.words = word :: rest ∧ stack.pop.1 = word ∧ stack.pop.2.words = rest ∧
      stack.pop.2.location = stack.location ∧
      stack.pop.2.currentLocation ≤ stack.location := by
  unfold pop
  split
  · next empty =>
      refine .inl ⟨?_, rfl⟩
      rw [words, empty, Nat.sub_self]
      rfl
  · next some =>
      have length : stack.location - stack.currentLocation =
          (stack.location - (stack.currentLocation + 1)) + 1 := by omega
      refine .inr ⟨_, _, ?_, rfl, rfl, rfl, Nat.lt_of_le_of_ne inside some⟩
      rw [words, length, List.range'_succ, List.map_cons]
      rfl

/-! ## The pages on the stack -/

/-- The stack has room for `room` more pages at least, and only its last word may be the
guard. -/
structure Holds (stack : PagesStack) (pages : List Nat) (room : Nat) : Prop where
  inside : stack.currentLocation ≤ stack.location
  words : stack.words = pages ∨ stack.words = pages ++ [0]
  nonzero : 0 ∉ pages
  room : pages.length + room < stack.location

variable {stack : PagesStack} {held : List Nat} {room : Nat}

theorem Holds.pages_eq (holds : stack.Holds held room) : stack.pages = held := by
  have all : held.filter (fun word => word ≠ 0) = held := by
    refine List.filter_eq_self.mpr fun word member => decide_eq_true ?_
    rintro rfl
    exact holds.nonzero member
  unfold pages
  rcases holds.words with same | guarded
  · rw [same, all]
  · rw [guarded, List.filter_append, all]
    exact List.append_nil _

theorem length_words (stack : PagesStack) :
    stack.words.length = stack.location - stack.currentLocation := by
  rw [words, List.length_map, List.length_range']

theorem holds_new (memory : Nat → Nat) {size : Nat} (large : 8 * (room + 2) ≤ size) :
    (new memory size).Holds [] room := by
  have positive : size / 8 - 1 ≠ 0 := by omega
  have start : (⟨memory, size / 8 - 1, size / 8 - 1⟩ : PagesStack).words = [] := by
    rw [words, Nat.sub_self]
    rfl
  have pushed := @words_push ⟨memory, size / 8 - 1, size / 8 - 1⟩ (Nat.le_refl _) positive 0
  unfold new
  refine ⟨?_, .inr (pushed.trans (by rw [start]; rfl)), List.not_mem_nil, ?_⟩
  · rw [push, if_neg positive]
    exact Nat.sub_le _ _
  · rw [push, if_neg positive]
    change 0 + room < size / 8 - 1
    omega

/-- A push with room to spare is not dropped. -/
theorem Holds.push (holds : stack.Holds held (room + 1)) {pageid : Nat} (nonzero : pageid ≠ 0) :
    (stack.push pageid).Holds (pageid :: held) room := by
  have space := holds.room
  have length := stack.length_words
  have below : stack.words.length ≤ held.length + 1 := by
    rcases holds.words with same | guarded
    · rw [same]
      exact Nat.le_succ _
    · rw [guarded, List.length_append]
      exact Nat.le_refl _
  have free : stack.currentLocation ≠ 0 := by omega
  have pushed := words_push holds.inside free pageid
  have location : (stack.push pageid).location = stack.location := by
    rw [PagesStack.push, if_neg free]
  refine ⟨?_, ?_, ?_, ?_⟩
  · rw [location, PagesStack.push, if_neg free]
    exact (Nat.sub_le _ _).trans holds.inside
  · rw [pushed]
    exact holds.words.imp (congrArg _) (congrArg _)
  · exact List.not_mem_cons_of_ne_of_not_mem (Ne.symm nonzero) holds.nonzero
  · rw [location, List.length_cons]
    omega

/-- **A pop hands out the page pushed last**, or 0 when there is none. -/
theorem Holds.pop (holds : stack.Holds held room) :
    (held = [] ∧ stack.pop.1 = 0 ∧ stack.pop.2.Holds [] room) ∨
    ∃ page rest, held = page :: rest ∧ stack.pop.1 = page ∧ stack.pop.2.Holds rest (room + 1) := by
  have space := holds.room
  have nonzero := holds.nonzero
  rcases pop_cases holds.inside with ⟨empty, pops⟩ |
    ⟨word, rest, words, pops, left, location, inside⟩
  · have none : held = [] := by
      rcases holds.words with same | guarded
      · exact same.symm.trans empty
      · rw [guarded] at empty
        exact absurd empty (List.append_ne_nil_of_right_ne_nil _ (List.cons_ne_nil _ _))
    subst none
    rw [pops]
    exact .inl ⟨rfl, rfl, holds⟩
  · rcases held with _ | ⟨page, others⟩
    · refine .inl ⟨rfl, ?_, ?_, ?_, List.not_mem_nil, ?_⟩
      · rcases holds.words with same | guarded
        · rw [words] at same
          cases same
        · rw [words] at guarded
          rw [pops]
          exact (List.cons.inj guarded).1
      · rw [location]
        exact inside
      · rcases holds.words with same | guarded
        · rw [words] at same
          cases same
        · rw [words] at guarded
          exact .inl (left.trans (List.cons.inj guarded).2)
      · rw [location]
        exact space
    · refine .inr ⟨page, others, rfl, ?_, ?_, ?_, ?_, ?_⟩
      · rw [pops]
        rcases holds.words with same | guarded
        · exact (List.cons.inj (words.symm.trans same)).1
        · exact (List.cons.inj (words.symm.trans guarded)).1
      · rw [location]
        exact inside
      · rw [left]
        rcases holds.words with same | guarded
        · exact .inl (List.cons.inj (words.symm.trans same)).2
        · exact .inr (List.cons.inj (words.symm.trans guarded)).2
      · exact fun member => nonzero (List.mem_cons_of_mem _ member)
      · rw [location]
        rw [List.length_cons] at space
        omega

end PagesStack

end JsOS.Kernel
