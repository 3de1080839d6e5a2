import Mathlib.Data.List.Induction
import Mathlib.Data.List.Infix

/-! # Radix tables in memory

A radix table translates a path of indices and a last index. Its tables lie in one memory of
words: on the way down a word links to the table of the next level, and in a table of the
last level it holds a leaf. The tables are well shaped when no table is reached on two paths.
Then writing one word changes what lies behind that word and nothing else: grafting an empty
table where there was no link leaves every translation alone, and putting a leaf changes the
one translation it is for.
-/

namespace Radix

variable {Table Index Word Leaf : Type*}

/-- How a word is read: as a link to a table, or as a leaf. -/
structure Format (Table Word Leaf : Type*) where
  link : Word → Option Table
  leaf : Word → Option Leaf

/-- The table reached from another one on a path. -/
def descend (format : Format Table Word Leaf) (memory : Table → Index → Word) :
    Table → List Index → Option Table
  | table, [] => some table
  | table, index :: path =>
      (format.link (memory table index)).bind fun next => descend format memory next path

/-- What is stored under a path and a last index. -/
def lookup (format : Format Table Word Leaf) (memory : Table → Index → Word) (root : Table)
    (path : List Index) (index : Index) : Option Leaf :=
  (descend format memory root path).bind fun table => format.leaf (memory table index)

/-- The memory after a write of one word. -/
def write [DecidableEq Table] [DecidableEq Index] (memory : Table → Index → Word) (table : Table)
    (index : Index) (word : Word) : Table → Index → Word :=
  fun other slot => if other = table ∧ slot = index then word else memory other slot

/-- No table is reached on two paths down to a depth. -/
def Shaped (format : Format Table Word Leaf) (memory : Table → Index → Word) (root : Table)
    (depth : ℕ) : Prop :=
  ∀ first second table, first.length ≤ depth → second.length ≤ depth →
    descend format memory root first = some table →
    descend format memory root second = some table → first = second

/-- A table that no path down to a depth reaches. -/
def Unreached (format : Format Table Word Leaf) (memory : Table → Index → Word) (root : Table)
    (depth : ℕ) (table : Table) : Prop :=
  ∀ path, path.length ≤ depth → descend format memory root path ≠ some table

variable {format : Format Table Word Leaf} {memory : Table → Index → Word} {root : Table}
  {depth : ℕ}

theorem descend_append (table : Table) (first second : List Index) :
    descend format memory table (first ++ second) =
      (descend format memory table first).bind fun next =>
        descend format memory next second := by
  induction first generalizing table with
  | nil => rfl
  | cons index first ih =>
      rw [List.cons_append, descend, descend]
      cases format.link (memory table index) with
      | none => rfl
      | some next => exact ih next

theorem descend_concat (table : Table) (path : List Index) (index : Index) :
    descend format memory table (path ++ [index]) =
      (descend format memory table path).bind fun next => format.link (memory next index) := by
  rw [descend_append]
  apply congrArg
  funext next
  rw [descend]
  cases format.link (memory next index) with
  | none => rfl
  | some last => rfl

/-- Nothing depends on the contents of a table that is not reached. -/
theorem descend_congr {other : Table → Index → Word} {spare : Table}
    (unreached : Unreached format memory root depth spare)
    (same : ∀ table, table ≠ spare → other table = memory table) {path : List Index}
    (within : path.length ≤ depth) :
    descend format other root path = descend format memory root path := by
  induction path using List.reverseRecOn with
  | nil => rfl
  | append_singleton path index ih =>
      rw [List.length_append] at within
      have short : path.length ≤ depth := (Nat.le_add_right _ _).trans within
      rw [descend_concat, descend_concat, ih short]
      cases found : descend format memory root path with
      | none => rfl
      | some next =>
          have reached : next ≠ spare := by
            intro unused
            rw [unused] at found
            exact unreached path short found
          rw [Option.bind_some, Option.bind_some, same next reached]

theorem lookup_congr {other : Table → Index → Word} {spare : Table}
    (unreached : Unreached format memory root depth spare)
    (same : ∀ table, table ≠ spare → other table = memory table) {path : List Index}
    (within : path.length ≤ depth) (index : Index) :
    lookup format other root path index = lookup format memory root path index := by
  unfold lookup
  rw [descend_congr unreached same within]
  cases found : descend format memory root path with
  | none => rfl
  | some next =>
      have reached : next ≠ spare := by
        intro unused
        rw [unused] at found
        exact unreached path within found
      rw [Option.bind_some, Option.bind_some, same next reached]

theorem Shaped.congr {other : Table → Index → Word} {spare : Table}
    (shaped : Shaped format memory root depth)
    (unreached : Unreached format memory root depth spare)
    (same : ∀ table, table ≠ spare → other table = memory table) :
    Shaped format other root depth := by
  intro first second table shortFirst shortSecond
  rw [descend_congr unreached same shortFirst, descend_congr unreached same shortSecond]
  exact shaped first second table shortFirst shortSecond

/-! ## Trees -/

/-- The tables reached down to a depth form a tree, and are among those in use. -/
structure Tree (format : Format Table Word Leaf) (memory : Table → Index → Word) (root : Table)
    (depth : ℕ) (used : Table → Prop) : Prop where
  shaped : Shaped format memory root depth
  used : ∀ path table, path.length ≤ depth → descend format memory root path = some table →
    used table

variable {used : Table → Prop}

theorem Tree.unreached (tree : Tree format memory root depth used) {fresh : Table}
    (unused : ¬used fresh) : Unreached format memory root depth fresh :=
  fun path within found => unused (tree.used path fresh within found)

/-- A table not in use may be changed at will. -/
theorem Tree.congr (tree : Tree format memory root depth used)
    {other : Table → Index → Word} {spare : Table} (unused : ¬used spare)
    (same : ∀ table, table ≠ spare → other table = memory table) :
    Tree format other root depth used := by
  have unreached := tree.unreached unused
  refine ⟨tree.shaped.congr unreached same, fun path table within found => ?_⟩
  rw [descend_congr unreached same within] at found
  exact tree.used path table within found

section Write

variable [DecidableEq Table] [DecidableEq Index] {path : List Index} {table : Table}
  {index : Index} {word : Word}

theorem write_same : write memory table index word table index = word :=
  if_pos ⟨rfl, rfl⟩

theorem write_of_ne {other : Table} {slot : Index} (different : other = table → slot ≠ index) :
    write memory table index word other slot = memory other slot :=
  if_neg fun same => different same.1 same.2

/-- **Frame of a write.** A path that does not lead through the word written is unchanged. -/
theorem descend_write (shaped : Shaped format memory root depth) (short : path.length ≤ depth)
    (reached : descend format memory root path = some table) {other : List Index}
    (within : other.length ≤ depth) (outside : ¬path ++ [index] <+: other) :
    descend format (write memory table index word) root other =
      descend format memory root other := by
  induction other using List.reverseRecOn with
  | nil => rfl
  | append_singleton other slot ih =>
      rw [List.length_append] at within
      have before := ih ((Nat.le_add_right _ _).trans within) fun leads =>
        outside (leads.trans (List.prefix_append other [slot]))
      rw [descend_concat, descend_concat, before]
      cases found : descend format memory root other with
      | none => rfl
      | some next =>
          have untouched : next = table → slot ≠ index := by
            intro same
            rw [same] at found
            have paths := shaped other path table ((Nat.le_add_right _ _).trans within) short found
              reached
            intro slots
            rw [paths, slots] at outside
            exact outside (List.prefix_refl _)
          rw [Option.bind_some, Option.bind_some, write_of_ne untouched]

/-! ## Leaves -/

/-- A write in a table of the last level changes no table's place. -/
theorem descend_put (shaped : Shaped format memory root depth) (last : path.length = depth)
    (reached : descend format memory root path = some table) {other : List Index}
    (within : other.length ≤ depth) :
    descend format (write memory table index word) root other =
      descend format memory root other := by
  apply descend_write shaped (le_of_eq last) reached within
  intro leads
  have longer := leads.length_le
  rw [List.length_append, List.length_singleton] at longer
  omega

theorem Shaped.put (shaped : Shaped format memory root depth) (last : path.length = depth)
    (reached : descend format memory root path = some table) :
    Shaped format (write memory table index word) root depth := by
  intro first second other shortFirst shortSecond
  rw [descend_put shaped last reached shortFirst, descend_put shaped last reached shortSecond]
  exact shaped first second other shortFirst shortSecond

/-- **Putting a leaf changes one translation.** -/
theorem lookup_put (shaped : Shaped format memory root depth)
    (last : path.length = depth) (reached : descend format memory root path = some table)
    {other : List Index} (level : other.length = depth) (slot : Index) :
    lookup format (write memory table index word) root other slot =
      if other = path ∧ slot = index then format.leaf word
      else lookup format memory root other slot := by
  unfold lookup
  rw [descend_put shaped last reached (le_of_eq level)]
  by_cases here : other = path ∧ slot = index
  · rw [if_pos here, here.1, here.2, reached, Option.bind_some, write_same]
  · rw [if_neg here]
    cases found : descend format memory root other with
    | none => rfl
    | some next =>
        have untouched : next = table → slot ≠ index := by
          intro same slots
          rw [same] at found
          exact here ⟨shaped other path table (le_of_eq level) (le_of_eq last) found reached, slots⟩
        rw [Option.bind_some, Option.bind_some, write_of_ne untouched]

/-! ## Links -/

/-- A table with nothing in it. -/
structure Blank (format : Format Table Word Leaf) (memory : Table → Index → Word)
    (table : Table) : Prop where
  link : ∀ slot, format.link (memory table slot) = none
  leaf : ∀ slot, format.leaf (memory table slot) = none

/-- **Grafting a blank table** adds one path. -/
theorem descend_graft (shaped : Shaped format memory root depth)
    (inner : path.length < depth) (reached : descend format memory root path = some table)
    (absent : format.link (memory table index) = none) {fresh : Table}
    (unreached : Unreached format memory root depth fresh) (blank : Blank format memory fresh)
    (linked : format.link word = some fresh) {other : List Index} (within : other.length ≤ depth) :
    descend format (write memory table index word) root other =
      if other = path ++ [index] then some fresh else descend format memory root other := by
  have apart : fresh ≠ table := by
    intro same
    rw [← same] at reached
    exact unreached path (le_of_lt inner) reached
  have arrives : descend format (write memory table index word) root (path ++ [index]) =
      some fresh := by
    have above : descend format (write memory table index word) root path = some table := by
      rw [descend_write shaped (le_of_lt inner) reached (le_of_lt inner), reached]
      intro leads
      have longer := leads.length_le
      rw [List.length_append, List.length_singleton] at longer
      omega
    rw [descend_concat, above, Option.bind_some, write_same, linked]
  have nothing : descend format memory root (path ++ [index]) = none := by
    rw [descend_concat, reached, Option.bind_some, absent]
  by_cases leads : path ++ [index] <+: other
  · obtain ⟨rest, rfl⟩ := leads
    cases rest with
    | nil => rw [List.append_nil, if_pos rfl, arrives]
    | cons slot rest =>
        have longer : path ++ [index] ++ slot :: rest ≠ path ++ [index] := by
          intro same
          have lengths := congrArg List.length same
          rw [List.length_append, List.length_cons] at lengths
          omega
        rw [if_neg longer, descend_append root (path ++ [index]) (slot :: rest), arrives,
          descend_append root (path ++ [index]) (slot :: rest), nothing, Option.bind_some,
          descend, write_of_ne fun same => absurd same apart, blank.link]
        rfl
  · have elsewhere : other ≠ path ++ [index] := by
      intro same
      rw [same] at leads
      exact leads (List.prefix_refl _)
    rw [if_neg elsewhere]
    exact descend_write shaped (le_of_lt inner) reached within leads

theorem Shaped.graft (shaped : Shaped format memory root depth)
    (inner : path.length < depth) (reached : descend format memory root path = some table)
    (absent : format.link (memory table index) = none) {fresh : Table}
    (unreached : Unreached format memory root depth fresh) (blank : Blank format memory fresh)
    (linked : format.link word = some fresh) :
    Shaped format (write memory table index word) root depth := by
  intro first second other shortFirst shortSecond
  rw [descend_graft shaped inner reached absent unreached blank linked shortFirst,
    descend_graft shaped inner reached absent unreached blank linked shortSecond]
  by_cases one : first = path ++ [index]
  · rw [if_pos one]
    intro found
    by_cases two : second = path ++ [index]
    · exact fun _ => one.trans two.symm
    · rw [if_neg two, ← found]
      exact fun reachedFresh => absurd reachedFresh (unreached second shortSecond)
  · rw [if_neg one]
    intro found
    by_cases two : second = path ++ [index]
    · rw [if_pos two]
      intro same
      rw [← same] at found
      exact absurd found (unreached first shortFirst)
    · rw [if_neg two]
      exact shaped first second other shortFirst shortSecond found

/-- Grafting a blank table leaves every translation alone. -/
theorem lookup_graft (shaped : Shaped format memory root depth)
    (inner : path.length < depth) (reached : descend format memory root path = some table)
    (absent : format.link (memory table index) = none) {fresh : Table}
    (unreached : Unreached format memory root depth fresh) (blank : Blank format memory fresh)
    (linked : format.link word = some fresh) {other : List Index} (level : other.length = depth)
    (slot : Index) :
    lookup format (write memory table index word) root other slot =
      lookup format memory root other slot := by
  have apart : fresh ≠ table := by
    intro same
    rw [← same] at reached
    exact unreached path (le_of_lt inner) reached
  unfold lookup
  rw [descend_graft shaped inner reached absent unreached blank linked (le_of_eq level)]
  by_cases here : other = path ++ [index]
  · have nothing : descend format memory root other = none := by
      rw [here, descend_concat, reached, Option.bind_some, absent]
    rw [if_pos here, nothing, Option.bind_some, write_of_ne fun same => absurd same apart,
      blank.leaf]
    rfl
  · rw [if_neg here]
    cases found : descend format memory root other with
    | none => rfl
    | some next =>
        have untouched : next = table → slot ≠ index := by
          intro same
          rw [same] at found
          have paths := shaped other path table (le_of_eq level) (le_of_lt inner) found reached
          rw [paths] at level
          omega
        rw [Option.bind_some, Option.bind_some, write_of_ne untouched]

/-! ## Writes to a tree -/

theorem Tree.put (tree : Tree format memory root depth used) (last : path.length = depth)
    (reached : descend format memory root path = some table) :
    Tree format (write memory table index word) root depth used := by
  refine ⟨tree.shaped.put last reached, fun other next within found => ?_⟩
  rw [descend_put tree.shaped last reached within] at found
  exact tree.used other next within found

theorem Tree.graft (tree : Tree format memory root depth used) (inner : path.length < depth)
    (reached : descend format memory root path = some table)
    (absent : format.link (memory table index) = none) {fresh : Table} (unused : ¬used fresh)
    (blank : Blank format memory fresh) (linked : format.link word = some fresh) :
    Tree format (write memory table index word) root depth fun table =>
      used table ∨ table = fresh := by
  have unreached := tree.unreached unused
  refine ⟨tree.shaped.graft inner reached absent unreached blank linked,
    fun other next within found => ?_⟩
  rw [descend_graft tree.shaped inner reached absent unreached blank linked within] at found
  by_cases here : other = path ++ [index]
  · rw [if_pos here] at found
    exact .inr (Option.some.inj found).symm
  · rw [if_neg here] at found
    exact .inl (tree.used other next within found)

/-- Writes to different tables commute. -/
theorem write_comm {other : Table} {slot : Index} {last : Word} (different : other ≠ table) :
    write (write memory other slot last) table index word =
      write (write memory table index word) other slot last := by
  funext place position
  unfold write
  by_cases first : place = table ∧ position = index
  · have elsewhere : ¬(place = other ∧ position = slot) := by
      intro second
      exact different (second.1.symm.trans first.1)
    rw [if_pos first, if_neg elsewhere, if_pos first]
  · rw [if_neg first, if_neg first]

end Write

end Radix
