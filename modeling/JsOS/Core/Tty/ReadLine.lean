import JsOS.Core.Tty.Editing

/-! # Editing a line

A key moves the cursor in the text, or changes the text at the cursor and prints what is behind it
again, and the cells follow (`Editing`). Drawing the cursor or removing it changes no character.

The text is edited as one expects except for the left key behind the second character, which goes to
the start, and for a key without a character, which moves the cursor on. The screen shows the text
unless a recalled line has an escape symbol, or what is behind the text is not blank when the text
grows at a place before its end (`refines_exact`).
-/

namespace JsOS.Core.Tty

open Transition

/-- The bytes a text is shown as. -/
def bytes (text : Text) : List UInt8 := text.map UInt16.toUInt8

@[simp] theorem bytes_nil : bytes [] = [] := rfl

@[simp] theorem bytes_cons (unit : UInt16) (text : Text) :
    bytes (unit :: text) = unit.toUInt8 :: bytes text := rfl

@[simp] theorem bytes_append (first second : Text) :
    bytes (first ++ second) = bytes first ++ bytes second := List.map_append

@[simp] theorem length_bytes (text : Text) : (bytes text).length = text.length := List.length_map _

/-! ## Slices -/

theorem sliceTo_length (left right : Text) : sliceTo (left ++ right) left.length = left := by
  unfold sliceTo sliceIndex
  rw [if_neg (by omega), List.length_append, Int.toNat_natCast, Nat.min_eq_left (by omega),
    List.take_left]

theorem sliceFrom_length (left right : Text) : sliceFrom (left ++ right) left.length = right := by
  unfold sliceFrom sliceIndex
  rw [if_neg (by omega), List.length_append, Int.toNat_natCast, Nat.min_eq_left (by omega),
    List.drop_left]

theorem sliceTo_last (left : Text) (unit : UInt16) : sliceTo (left ++ [unit]) (-1) = left := by
  have index : sliceIndex (left ++ [unit]).length (-1) = left.length := by
    unfold sliceIndex
    rw [if_pos (by decide), List.length_append, List.length_singleton]
    omega
  rw [sliceTo, index, List.take_left]

namespace LineEditor

/-! ## Drawing the cursor -/

/-- `drawCursor` and `removeCursor` print the character under the cursor again. -/
def paint (color : Fin 16) (editor : LineEditor) : LineEditor :=
  (editor.call (.print editor.cursorText 1 (some WHITE) (some color))).moveOffset (-1)

theorem drawCursor_eq (editor : LineEditor) : editor.drawCursor = editor.paint LIGHTGREEN := rfl

theorem removeCursor_eq (editor : LineEditor) : editor.removeCursor = editor.paint BLACK := rfl

section Fields

variable (editor : LineEditor) (text : Text) (num : Int) (color : Fin 16)

@[simp] theorem print_inputText : (editor.print text).inputText = editor.inputText := rfl

@[simp] theorem print_inputPosition : (editor.print text).inputPosition = editor.inputPosition := rfl

@[simp] theorem moveOffset_inputText : (editor.moveOffset num).inputText = editor.inputText := rfl

@[simp] theorem moveOffset_inputPosition :
    (editor.moveOffset num).inputPosition = editor.inputPosition := rfl

@[simp] theorem moveOffset_scrolled : (editor.moveOffset num).scrolled = editor.scrolled :=
  Bool.or_false _

@[simp] theorem moveOffset_printer :
    (editor.moveOffset num).printer = editor.printer.moveOffset num := rfl

@[simp] theorem advance_printer : (editor.advance num).printer = editor.printer := rfl

@[simp] theorem setText_printer : (editor.setText text).printer = editor.printer := rfl

@[simp] theorem setText_inputText : (editor.setText text).inputText = text := rfl

@[simp] theorem setText_inputPosition :
    (editor.setText text).inputPosition = editor.inputPosition := rfl

@[simp] theorem setText_scrolled : (editor.setText text).scrolled = editor.scrolled := rfl

@[simp] theorem advance_inputText : (editor.advance num).inputText = editor.inputText := rfl

@[simp] theorem advance_inputPosition :
    (editor.advance num).inputPosition = editor.inputPosition + num := rfl

@[simp] theorem advance_scrolled : (editor.advance num).scrolled = editor.scrolled := rfl

@[simp] theorem paint_inputText : (editor.paint color).inputText = editor.inputText := rfl

@[simp] theorem paint_inputPosition : (editor.paint color).inputPosition = editor.inputPosition := rfl

@[simp] theorem printAll_inputText : (editor.printAll text).inputText = editor.inputText := by
  induction text generalizing editor with
  | nil => rfl
  | cons item items ih => exact ih (editor.print [item])

@[simp] theorem printAll_inputPosition :
    (editor.printAll text).inputPosition = editor.inputPosition := by
  induction text generalizing editor with
  | nil => rfl
  | cons item items ih => exact ih (editor.print [item])

end Fields

variable {start : Nat} {editor : LineEditor} {left right : Text} {rest : List UInt8}
  {before after : List UInt8} {cell : UInt8} {unit : UInt16}

/-- What has scrolled stays so. -/
theorem scrolled_call (operation : Operation) (scrolled : editor.scrolled = true) :
    (editor.call operation).scrolled = true := by
  change (editor.scrolled || _) = true
  rw [scrolled, Bool.true_or]

theorem scrolled_paint (color : Fin 16) (scrolled : editor.scrolled = true) :
    (editor.paint color).scrolled = true := by
  unfold paint
  rw [moveOffset_scrolled]
  exact scrolled_call _ scrolled

theorem scrolled_printAll (items : Text) (scrolled : editor.scrolled = true) :
    (editor.printAll items).scrolled = true := by
  induction items generalizing editor with
  | nil => exact scrolled
  | cons item items ih => exact ih (scrolled_call _ scrolled)

/-- The character under the cursor. -/
theorem cursorText_eq (text : editor.inputText = left ++ right)
    (position : editor.inputPosition = left.length) :
    editor.cursorText = [right.headD 0x20] := by
  unfold cursorText
  rw [text, position]
  cases right with
  | nil =>
      rw [if_neg (by simp)]
      rfl
  | cons unit right =>
      rw [if_pos (by simp), if_neg (by omega), Int.toNat_natCast,
        List.getElem?_append_right (Nat.le_refl _), Nat.sub_self]
      rfl

/-- A print of a plain character overwrites the cell. -/
theorem stands_print (stands : Stands start (before ++ cell :: after) before.length editor.printer)
    (plain : Plain unit) :
    Stands start (before ++ unit.toUInt8 :: after) (before.length + 1) (editor.print [unit]).printer ∧
      (editor.print [unit]).scrolled = editor.scrolled := by
  obtain ⟨printed, still⟩ := stands.print plain none none
  refine ⟨printed, ?_⟩
  change (editor.scrolled || editor.printer.scrolls _) = _
  rw [still, Bool.or_false]

/-- Prints overwrite as many cells. -/
theorem stands_printAll {items : Text} {old : List UInt8} (plain : ∀ unit ∈ items, Plain unit)
    (length : old.length = items.length)
    (stands : Stands start (before ++ old ++ after) before.length editor.printer) :
    Stands start (before ++ bytes items ++ after) (before.length + items.length)
        (editor.printAll items).printer ∧
      (editor.printAll items).scrolled = editor.scrolled := by
  induction items generalizing editor before old with
  | nil =>
      obtain rfl := List.length_eq_zero_iff.mp length
      exact ⟨stands, rfl⟩
  | cons item items ih =>
      cases old with
      | nil => cases length
      | cons cell old =>
          rw [List.append_assoc, List.cons_append] at stands
          obtain ⟨printed, still⟩ := stands_print stands (plain item List.mem_cons_self)
          have next : Stands start (before ++ [item.toUInt8] ++ old ++ after)
              (before ++ [item.toUInt8]).length (editor.print [item]).printer := by
            rw [List.length_append, List.length_singleton]
            simpa using printed
          obtain ⟨all, quiet⟩ := ih (fun unit member => plain unit (List.mem_cons_of_mem _ member))
            (Nat.succ.inj length) next
          rw [printAll_cons]
          refine ⟨?_, quiet.trans still⟩
          rw [List.length_append, List.length_singleton] at all
          rw [List.length_cons, Nat.add_comm items.length 1, ← Nat.add_assoc]
          simpa using all

theorem printAll_append (editor : LineEditor) (first second : Text) :
    editor.printAll (first ++ second) = (editor.printAll first).printAll second := List.foldl_append

/-- Prints do not scroll where there are as many cells. -/
theorem prints {items : Text} {old : List UInt8} (length : old.length = items.length)
    (shows : editor.scrolled = false → (∀ unit ∈ items, Plain unit) ∧
      Stands start (before ++ old ++ after) before.length editor.printer) :
    (editor.printAll items).scrolled = editor.scrolled ∧
      (editor.scrolled = false → Stands start (before ++ bytes items ++ after)
        (before.length + items.length) (editor.printAll items).printer) := by
  cases scrolled : editor.scrolled with
  | true => exact ⟨scrolled_printAll items scrolled, fun quiet => Bool.noConfusion quiet⟩
  | false =>
      obtain ⟨plain, stands⟩ := shows scrolled
      obtain ⟨printed, still⟩ := stands_printAll plain length stands
      exact ⟨still.trans scrolled, fun _ => printed⟩

/-- Painting the cursor overwrites the cell under it. -/
theorem stands_paint (color : Fin 16) (cursor : editor.cursorText = [unit]) (plain : Plain unit)
    (stands : Stands start (before ++ cell :: after) before.length editor.printer) :
    Stands start (before ++ unit.toUInt8 :: after) before.length (editor.paint color).printer ∧
      (editor.paint color).scrolled = editor.scrolled := by
  obtain ⟨printed, still⟩ := stands.print plain (some WHITE) (some color)
  unfold paint
  rw [cursor, moveOffset_scrolled]
  constructor
  · refine printed.moveOffset (by omega) ?_
    rw [List.length_append, List.length_cons]
    omega
  · change (editor.scrolled || editor.printer.scrolls _) = _
    rw [still, Bool.or_false]

/-- Behind the last cell painting the cursor scrolls. -/
theorem scrolled_paint_behind (color : Fin 16) (cursor : editor.cursorText = [unit])
    (plain : Plain unit) (stands : Stands start before before.length editor.printer) :
    (editor.paint color).scrolled = true := by
  unfold paint
  rw [cursor, moveOffset_scrolled]
  change (editor.scrolled || editor.printer.scrolls _) = _
  rw [stands.print_behind plain, Bool.or_true]

/-! ## The invariant -/

/-- The text is `left` before the cursor and `right` behind it, and unless the screen has scrolled
it is shown with a blank behind it, before other cells. -/
structure Editing (start : Nat) (left right : Text) (rest : List UInt8) (editor : LineEditor) :
    Prop where
  text : editor.inputText = left ++ right
  position : editor.inputPosition = left.length
  sound : editor.Sound
  shows : editor.scrolled = false → (∀ unit ∈ left ++ right, Plain unit) ∧
    Stands start (bytes (left ++ right) ++ 0x20 :: rest) left.length editor.printer

theorem plain_headD (plain : ∀ unit ∈ left ++ right, Plain unit) : Plain (right.headD 0x20) := by
  cases right with
  | nil => exact plain_blank
  | cons unit right => exact plain unit (by simp)

/-- The cell under the cursor. -/
theorem exists_cell (left right : Text) (rest : List UInt8) :
    ∃ after, bytes (left ++ right) ++ 0x20 :: rest =
      bytes left ++ (right.headD 0x20).toUInt8 :: after := by
  cases right with
  | nil => exact ⟨rest, by simp⟩
  | cons unit right => exact ⟨bytes right ++ 0x20 :: rest, by simp⟩

/-- Painting the cursor completes the line, if only the cell under it is still to be printed. -/
theorem editing_paint {origin : LineEditor} (color : Fin 16) (cell : UInt8) (after : List UInt8)
    (still : editor.scrolled = origin.scrolled) (text : editor.inputText = left ++ right)
    (position : editor.inputPosition = left.length)
    (sound : editor.Sound)
    (stands : editor.scrolled = false → (∀ unit ∈ left ++ right, Plain unit) ∧
      Stands start (bytes left ++ cell :: after) left.length editor.printer)
    (completes : bytes left ++ (right.headD 0x20).toUInt8 :: after =
      bytes (left ++ right) ++ 0x20 :: rest) :
    Editing start left right rest (editor.paint color) ∧
      (editor.paint color).scrolled = origin.scrolled := by
  rw [← still]
  have painted : (editor.paint color).Sound := (sound.printed _ _ _).moveOffset _
  cases scrolled : editor.scrolled with
  | true =>
      have still := scrolled_paint color scrolled
      refine ⟨⟨text, position, painted, fun quiet => ?_⟩, still⟩
      rw [still] at quiet
      cases quiet
  | false =>
      obtain ⟨plain, stands⟩ := stands scrolled
      rw [← length_bytes left] at stands
      obtain ⟨shown, quiet⟩ :=
        stands_paint color (cursorText_eq text position) (plain_headD plain) stands
      refine ⟨⟨text, position, painted, fun _ => ⟨plain, ?_⟩⟩, quiet.trans scrolled⟩
      rw [← completes, ← length_bytes left]
      exact shown

namespace Editing

variable (editing : Editing start left right rest editor)

include editing

theorem length_right : (editor.inputText.length : Int) = left.length + right.length := by
  rw [editing.text, List.length_append]
  exact Int.natCast_add _ _

/-- Drawing the cursor, or removing it, changes no character. -/
theorem paint (color : Fin 16) :
    Editing start left right rest (editor.paint color) ∧
      (editor.paint color).scrolled = editor.scrolled := by
  obtain ⟨after, split⟩ := exists_cell left right rest
  refine editing_paint color (right.headD 0x20).toUInt8 after rfl editing.text editing.position
    editing.sound (fun quiet => ?_) split.symm
  rw [← split]
  exact editing.shows quiet

theorem drawCursor : Editing start left right rest editor.drawCursor ∧
    editor.drawCursor.scrolled = editor.scrolled := editing.paint LIGHTGREEN

theorem removeCursor : Editing start left right rest editor.removeCursor ∧
    editor.removeCursor.scrolled = editor.scrolled := editing.paint BLACK

/-! ## Moving the cursor -/

/-- The cursor moves in the text. -/
theorem moves {left' right' : Text} {num : Int} (same : left' ++ right' = left ++ right)
    (length : (left.length : Int) + num = left'.length) :
    Editing start left' right' rest ((editor.removeCursor.advance num).moveOffset num).drawCursor ∧
      ((editor.removeCursor.advance num).moveOffset num).drawCursor.scrolled = editor.scrolled := by
  obtain ⟨removed, quiet⟩ := editing.removeCursor
  have moved : Editing start left' right' rest
      ((editor.removeCursor.advance num).moveOffset num) := by
    refine ⟨?_, ?_, (removed.sound.advance num).moveOffset num, fun still => ?_⟩
    · rw [moveOffset_inputText, advance_inputText, removed.text, same]
    · rw [moveOffset_inputPosition, advance_inputPosition, removed.position, length]
    · rw [moveOffset_scrolled, advance_scrolled] at still
      obtain ⟨plain, stands⟩ := removed.shows still
      rw [same]
      refine ⟨plain, stands.moveOffset length ?_⟩
      rw [← same, List.length_append, length_bytes, List.length_append, List.length_cons]
      omega
  obtain ⟨drawn, quiet'⟩ := moved.drawCursor
  refine ⟨drawn, quiet'.trans ?_⟩
  rw [moveOffset_scrolled, advance_scrolled, quiet]

/-- `moveCursorLeft` to a place in the text. -/
theorem moveCursorLeft {num : Int} {target : Nat} (inside : target ≤ left.length)
    (distance : (if (left.length : Int) - 3 < 0 then (left.length : Int) else num) =
      left.length - target) :
    Editing start (left.take target) (left.drop target ++ right) rest (editor.moveCursorLeft num) ∧
      (editor.moveCursorLeft num).scrolled = editor.scrolled := by
  unfold LineEditor.moveCursorLeft
  rw [editing.position, distance]
  refine editing.moves ?_ ?_
  · rw [← List.append_assoc, List.take_append_drop]
  · rw [List.length_take]
    omega

/-- `moveCursorRight` goes to the end of the text at most. -/
theorem moveCursorRight (num : Nat) :
    Editing start (left ++ right.take num) (right.drop num) rest (editor.moveCursorRight num) ∧
      (editor.moveCursorRight num).scrolled = editor.scrolled := by
  unfold LineEditor.moveCursorRight
  refine editing.moves ?_ ?_
  · rw [List.append_assoc, List.take_append_drop]
  · rw [editing.position, editing.length_right, List.length_append, List.length_take]
    split <;> omega

theorem moveCursorStart : Editing start [] (left ++ right) rest editor.moveCursorStart ∧
    editor.moveCursorStart.scrolled = editor.scrolled := by
  obtain ⟨removed, quiet⟩ := editing.removeCursor
  unfold LineEditor.moveCursorStart
  dsimp only
  split
  · obtain ⟨moved, quiet'⟩ := removed.moveCursorLeft (Nat.zero_le _)
      (show (if _ then _ else editor.removeCursor.inputPosition) = _ by
        rw [removed.position, ite_self, Int.natCast_zero, Int.sub_zero])
    obtain ⟨drawn, quiet''⟩ := moved.drawCursor
    exact ⟨drawn, quiet''.trans (quiet'.trans quiet)⟩
  · next start_ =>
      rw [removed.position] at start_
      have none_ : left = [] := List.length_eq_zero_iff.mp (by omega)
      obtain ⟨drawn, quiet'⟩ := removed.drawCursor
      rw [none_] at drawn ⊢
      exact ⟨drawn, quiet'.trans quiet⟩

theorem moveCursorEnd : Editing start (left ++ right) [] rest editor.moveCursorEnd ∧
    editor.moveCursorEnd.scrolled = editor.scrolled := by
  obtain ⟨removed, quiet⟩ := editing.removeCursor
  unfold LineEditor.moveCursorEnd
  dsimp only
  split
  · obtain ⟨moved, quiet'⟩ := removed.moveCursorRight editor.removeCursor.inputText.length
    obtain ⟨drawn, quiet''⟩ := moved.drawCursor
    have all : right.length ≤ editor.removeCursor.inputText.length := by
      rw [removed.text]
      simp
    rw [List.take_of_length_le all, List.drop_of_length_le all] at drawn
    exact ⟨drawn, quiet''.trans (quiet'.trans quiet)⟩
  · next end_ =>
      rw [removed.position, removed.length_right] at end_
      have none_ : right = [] := List.length_eq_zero_iff.mp (by omega)
      obtain ⟨drawn, quiet'⟩ := removed.drawCursor
      rw [none_] at drawn ⊢
      rw [List.append_nil]
      exact ⟨drawn, quiet'.trans quiet⟩

end Editing

/-! ## Removing a character -/

namespace Editing

/-- The last character goes, and its cell gets blank. -/
theorem removeChar_last (editing : Editing start (left ++ [unit]) [] rest editor) :
    Editing start left [] (0x20 :: rest) editor.removeChar ∧
      editor.removeChar.scrolled = editor.scrolled := by
  obtain ⟨removed, quiet⟩ := editing.removeCursor
  have length : (left ++ [unit]).length = left.length + 1 := by simp
  have cut : sliceTo editor.removeCursor.inputText (-1) = left := by
    rw [removed.text, List.append_nil, sliceTo_last]
  unfold LineEditor.removeChar
  rw [editing.position, if_pos (by omega)]
  dsimp only
  rw [if_pos (by rw [removed.position, removed.text, List.append_nil]), cut, drawCursor_eq]
  refine editing_paint LIGHTGREEN unit.toUInt8 (0x20 :: rest) ?_ ?_ ?_ ?_ (fun still => ?_) ?_
  · rw [advance_scrolled, moveOffset_scrolled, setText_scrolled, quiet]
  · rw [advance_inputText, moveOffset_inputText, setText_inputText, List.append_nil]
  · rw [advance_inputPosition, moveOffset_inputPosition, setText_inputPosition, removed.position,
      length]
    omega
  · exact ((removed.sound.setText _).moveOffset _).advance _
  · rw [advance_scrolled, moveOffset_scrolled, setText_scrolled] at still
    obtain ⟨plain, stands⟩ := removed.shows still
    rw [List.append_nil] at plain
    rw [List.append_nil]
    refine ⟨fun other member => plain other (List.mem_append_left _ member), ?_⟩
    rw [List.append_nil, bytes_append, List.append_assoc] at stands
    exact stands.moveOffset (by omega) (by simp)
  · simp

/-- A character before others goes, and the others are printed again, with a blank. -/
theorem removeChar_inside {next : UInt16}
    (editing : Editing start (left ++ [unit]) (next :: right) rest editor) :
    Editing start left (next :: right) (0x20 :: rest) editor.removeChar ∧
      editor.removeChar.scrolled = editor.scrolled := by
  obtain ⟨removed, quiet⟩ := editing.removeCursor
  have length : (left ++ [unit]).length = left.length + 1 := by simp
  have after : sliceFrom editor.removeCursor.inputText editor.removeCursor.inputPosition =
      next :: right := by
    rw [removed.text, removed.position, sliceFrom_length]
  have before : sliceTo editor.removeCursor.inputText (editor.removeCursor.inputPosition - 1) =
      left := by
    rw [removed.text, removed.position, length, List.append_assoc,
      show ((left.length + 1 : Nat) : Int) - 1 = left.length by omega, sliceTo_length]
  have inner : ¬ editor.removeCursor.inputPosition ≥ editor.removeCursor.inputText.length := by
    rw [removed.position, removed.length_right, List.length_cons]
    omega
  unfold LineEditor.removeChar
  rw [editing.position, if_pos (by omega)]
  dsimp only
  rw [if_neg inner, after, before, drawCursor_eq]
  generalize back : (editor.removeCursor.setText (left ++ next :: right)).moveOffset (-1) = start_
  have still : start_.scrolled = editor.scrolled := by
    rw [← back, moveOffset_scrolled, setText_scrolled, quiet]
  have text : start_.inputText = left ++ next :: right := by
    rw [← back, moveOffset_inputText, setText_inputText]
  have position : start_.inputPosition = left.length + 1 := by
    rw [← back, moveOffset_inputPosition, setText_inputPosition, removed.position, length,
      Int.natCast_add, Int.natCast_one]
  have sound : start_.Sound := by
    rw [← back]
    exact (removed.sound.setText _).moveOffset _
  have shows : start_.scrolled = false → (∀ other ∈ left ++ next :: right, Plain other) ∧
      Stands start (bytes left ++ bytes (unit :: next :: right) ++ 0x20 :: rest) (bytes left).length
        start_.printer := by
    intro quiet'
    obtain ⟨plain, stands⟩ := removed.shows (quiet.trans (still.symm.trans quiet'))
    refine ⟨fun other member => plain other ?_, ?_⟩
    · simp only [List.mem_append] at member ⊢
      tauto
    rw [← back]
    rw [List.append_assoc, bytes_append] at stands
    exact stands.moveOffset (by simp) (by simp)
  have reprinted : (start_.printAll (next :: right)).print [0x20] =
      start_.printAll (next :: right ++ [0x20]) :=
    (printAll_append start_ (next :: right) [0x20]).symm
  rw [reprinted]
  obtain ⟨quiet', printed⟩ := @prints start start_ (bytes left) (0x20 :: rest)
    (next :: right ++ [0x20]) (bytes (unit :: next :: right)) (by simp) fun quiet' => by
      obtain ⟨plain, stands⟩ := shows quiet'
      refine ⟨fun other member => ?_, stands⟩
      rcases List.mem_append.mp member with member | member
      · exact plain other (List.mem_append_right _ member)
      · rw [List.mem_singleton.mp member]
        exact plain_blank
  refine editing_paint LIGHTGREEN next.toUInt8 (bytes right ++ 0x20 :: 0x20 :: rest) ?_ ?_ ?_ ?_
    (fun same => ?_) ?_
  · rw [advance_scrolled, moveOffset_scrolled, quiet', still]
  · rw [advance_inputText, moveOffset_inputText, printAll_inputText, text]
  · rw [advance_inputPosition, moveOffset_inputPosition, printAll_inputPosition, position]
    omega
  · exact ((sound.printAll _).moveOffset _).advance _
  · rw [advance_scrolled, moveOffset_scrolled, quiet'] at same
    refine ⟨(shows same).1, ?_⟩
    have moved : Stands start _ left.length ((start_.printAll (next :: right ++ [0x20])).printer.moveOffset
        (-((next :: right).length : Int) - 1)) :=
      (printed same).moveOffset (by simp only [length_bytes, List.length_append]; simp; omega) (by simp)
    simpa using moved
  · simp

/-- **Backspace.** The character before the cursor goes, and a blank is left behind the text. -/
theorem removeChar (editing : Editing start (left ++ [unit]) right rest editor) :
    Editing start left right (0x20 :: rest) editor.removeChar ∧
      editor.removeChar.scrolled = editor.scrolled := by
  cases right with
  | nil => exact editing.removeChar_last
  | cons next right => exact editing.removeChar_inside

/-- **Delete.** The character at the cursor goes. -/
theorem removeCharRight (editing : Editing start left right rest editor) :
    (∃ rest', Editing start left (right.drop 1) rest' editor.removeCharRight) ∧
      editor.removeCharRight.scrolled = editor.scrolled := by
  unfold LineEditor.removeCharRight
  rw [editing.position, editing.length_right]
  cases right with
  | nil =>
      rw [if_neg (by simp)]
      exact ⟨⟨rest, editing⟩, rfl⟩
  | cons next right =>
      rw [if_pos (by rw [List.length_cons]; omega)]
      obtain ⟨removed, quiet⟩ := editing.removeCursor
      obtain ⟨moved, quiet'⟩ := removed.moveCursorRight 1
      obtain ⟨erased, quiet''⟩ := removeChar moved
      obtain ⟨drawn, quiet'''⟩ := erased.drawCursor
      exact ⟨⟨_, drawn⟩, quiet'''.trans (quiet''.trans (quiet'.trans quiet))⟩

/-! ## Inserting a character -/

/-- A character is added to the text. -/
theorem putChar_last (editing : Editing start left [] rest editor) (plain : Plain unit) :
    ∃ rest', Editing start (left ++ [unit]) [] rest' (editor.putChar [unit]) := by
  obtain ⟨removed, quiet⟩ := editing.removeCursor
  have text : editor.removeCursor.inputText = left := by rw [removed.text, List.append_nil]
  have length : (left ++ [unit]).length = left.length + 1 := by simp
  have sound := editing.sound.putChar [unit]
  unfold LineEditor.putChar at sound ⊢
  dsimp only at sound ⊢
  rw [if_pos (by rw [removed.position, text]), text, drawCursor_eq] at sound ⊢
  have printed := @prints start (editor.removeCursor.setText (left ++ [unit])) (bytes left) rest
    [unit] [0x20] rfl fun still => by
      obtain ⟨-, stands⟩ := removed.shows still
      rw [List.append_nil] at stands
      refine ⟨fun other member => List.mem_singleton.mp member ▸ plain, ?_⟩
      simpa using stands
  change (LineEditor.print _ [unit]).scrolled = _ ∧
    (_ → Stands start _ _ (LineEditor.print _ [unit]).printer) at printed
  obtain ⟨same, printed⟩ := printed
  have position : (((editor.removeCursor.setText (left ++ [unit])).print [unit]).advance
      1).inputPosition = (left ++ [unit]).length := by
    rw [advance_inputPosition, print_inputPosition, setText_inputPosition, removed.position, length]
    omega
  have shows : (((editor.removeCursor.setText (left ++ [unit])).print [unit]).advance 1).scrolled =
      false → (∀ other ∈ left ++ [unit], Plain other) ∧
        Stands start (bytes (left ++ [unit]) ++ rest) (left ++ [unit]).length
          (((editor.removeCursor.setText (left ++ [unit])).print [unit]).advance 1).printer := by
    intro still
    rw [advance_scrolled, same, setText_scrolled] at still
    obtain ⟨others, -⟩ := removed.shows still
    refine ⟨fun other member => ?_, ?_⟩
    · rcases List.mem_append.mp member with member | member
      · exact others other (List.mem_append_left _ member)
      · exact List.mem_singleton.mp member ▸ plain
    · simpa using printed still
  cases rest with
  | nil =>
      have scrolled : ((((editor.removeCursor.setText (left ++ [unit])).print [unit]).advance 1).paint
          LIGHTGREEN).scrolled = true := by
        cases still : (((editor.removeCursor.setText (left ++ [unit])).print [unit]).advance 1).scrolled with
        | true => exact scrolled_paint LIGHTGREEN still
        | false =>
            obtain ⟨-, stands⟩ := shows still
            rw [List.append_nil, ← length_bytes] at stands
            exact scrolled_paint_behind LIGHTGREEN
              (cursorText_eq (by simp : _ = (left ++ [unit]) ++ []) position) plain_blank stands
      refine ⟨[], ⟨by simp, position, sound, fun quiet' => ?_⟩⟩
      rw [scrolled] at quiet'
      cases quiet'
  | cons cell rest =>
      refine ⟨rest, (editing_paint LIGHTGREEN cell rest rfl ?_ position ?_ (fun still => ?_) ?_).1⟩
      · simp
      · exact ((removed.sound.setText _).print _).advance _
      · rw [List.append_nil]
        exact shows still
      · simp

/-- A character is inserted, and what is behind the text moves into the blank. -/
theorem putChar_inside {next : UInt16} (editing : Editing start left (next :: right) rest editor)
    (plain : Plain unit) :
    (editor.putChar [unit]).inputText = left ++ unit :: next :: right ∧
      (editor.putChar [unit]).inputPosition = left.length + 1 ∧
      (editor.putChar [unit]).scrolled = editor.scrolled ∧
      (editor.scrolled = false → (∀ other ∈ left ++ unit :: next :: right, Plain other) ∧
        Stands start (bytes (left ++ unit :: next :: right) ++ rest) (left.length + 1)
          (editor.putChar [unit]).printer) := by
  obtain ⟨removed, quiet⟩ := editing.removeCursor
  have after : sliceFrom editor.removeCursor.inputText editor.removeCursor.inputPosition =
      next :: right := by
    rw [removed.text, removed.position, sliceFrom_length]
  have before : sliceTo editor.removeCursor.inputText editor.removeCursor.inputPosition = left := by
    rw [removed.text, removed.position, sliceTo_length]
  have inner : ¬ editor.removeCursor.inputPosition ≥ editor.removeCursor.inputText.length := by
    rw [removed.position, removed.length_right, List.length_cons]
    omega
  have joined : left ++ [unit] ++ next :: right = left ++ unit :: next :: right := by simp
  unfold LineEditor.putChar
  dsimp only
  rw [if_neg inner, after, before, drawCursor_eq, joined, ← printAll_cons]
  obtain ⟨same, printed⟩ := @prints start
    (editor.removeCursor.setText (left ++ unit :: next :: right)) (bytes left) rest
    (unit :: next :: right) (bytes (next :: right) ++ [0x20]) (by simp) fun still => by
      obtain ⟨others, stands⟩ := removed.shows still
      refine ⟨fun other member => ?_, by simpa using stands⟩
      rcases List.mem_cons.mp member with rfl | member
      · exact plain
      · exact others other (List.mem_append_right _ member)
  generalize reprinted : (editor.removeCursor.setText (left ++ unit :: next :: right)).printAll
    (unit :: next :: right) = finish at same printed
  have text : finish.inputText = left ++ unit :: next :: right := by
    rw [← reprinted, printAll_inputText, setText_inputText]
  have position : finish.inputPosition = left.length := by
    rw [← reprinted, printAll_inputPosition, setText_inputPosition, removed.position]
  have still : ((finish.moveOffset (-((next :: right).length : Int))).advance 1).scrolled =
      editor.scrolled := by
    rw [advance_scrolled, moveOffset_scrolled, same, setText_scrolled, quiet]
  have cursor : ((finish.moveOffset (-((next :: right).length : Int))).advance 1).cursorText =
      [next] := by
    refine @cursorText_eq _ (left ++ [unit]) (next :: right) ?_ ?_
    · rw [advance_inputText, moveOffset_inputText, text, joined]
    · rw [advance_inputPosition, moveOffset_inputPosition, position]
      simp
  refine ⟨text, ?_, ?_⟩
  · rw [paint_inputPosition, advance_inputPosition, moveOffset_inputPosition, position]
  · cases scrolled : editor.scrolled with
    | true => exact ⟨scrolled_paint _ (still.trans scrolled), fun quiet' => Bool.noConfusion quiet'⟩
    | false =>
        have start_ := quiet.trans scrolled
        obtain ⟨others, -⟩ := removed.shows start_
        have moved : Stands start (bytes (left ++ [unit]) ++ next.toUInt8 :: (bytes right ++ rest))
            (bytes (left ++ [unit])).length
            (finish.printer.moveOffset (-((next :: right).length : Int))) := by
          have line : bytes (left ++ [unit]) ++ next.toUInt8 :: (bytes right ++ rest) =
              bytes left ++ bytes (unit :: next :: right) ++ rest := by simp
          rw [line]
          exact (printed start_).moveOffset (by simp; omega) (by simp)
        obtain ⟨drawn, quiet'⟩ := stands_paint LIGHTGREEN cursor
          (others next (List.mem_append_right _ List.mem_cons_self)) moved
        refine ⟨quiet'.trans (still.trans scrolled), fun _ => ⟨fun other member => ?_, ?_⟩⟩
        · simp only [List.mem_append, List.mem_cons] at member others
          rcases member with member | rfl | member
          · exact others other (.inl member)
          · exact plain
          · exact others other (.inr member)
        · simpa using drawn

/-! ## Replacing the text -/

/-- The loop removes the text from its end on. -/
theorem clearLoop {editor : LineEditor} (editing : Editing start left [] rest editor) :
    (∃ rest', Editing start [] [] rest' (clearLoop left.length editor)) ∧
      (LineEditor.clearLoop left.length editor).scrolled = editor.scrolled := by
  induction left using List.reverseRecOn generalizing editor rest with
  | nil => exact ⟨⟨rest, editing⟩, rfl⟩
  | append_singleton left unit ih =>
      obtain ⟨removed, quiet⟩ := removeChar editing
      obtain ⟨cleared, quiet'⟩ := ih removed
      rw [List.length_append, List.length_singleton, LineEditor.clearLoop,
        if_pos (by rw [editing.position, List.length_append, List.length_singleton]; omega)]
      exact ⟨cleared, quiet'.trans quiet⟩

theorem clearInputBox (editing : Editing start left right rest editor) :
    (∃ rest', Editing start [] [] rest' editor.clearInputBox) ∧
      editor.clearInputBox.scrolled = editor.scrolled := by
  have ended : ∃ t, (if editor.inputPosition < editor.inputText.length then
      editor.moveCursorRight editor.inputText.length else editor) = t ∧
      Editing start (left ++ right) [] rest t ∧ t.scrolled = editor.scrolled := by
    split
    · obtain ⟨moved, quiet⟩ := editing.moveCursorRight editor.inputText.length
      have all : right.length ≤ editor.inputText.length := by
        rw [editing.text]
        simp
      rw [List.take_of_length_le all, List.drop_of_length_le all] at moved
      exact ⟨_, rfl, moved, quiet⟩
    · next end_ =>
        rw [editing.position, editing.length_right] at end_
        have none_ : right = [] := List.length_eq_zero_iff.mp (by omega)
        rw [none_, List.append_nil]
        rw [none_] at editing
        exact ⟨_, rfl, editing, rfl⟩
  obtain ⟨t, equal, moved, quiet⟩ := ended
  obtain ⟨cleared, quiet'⟩ := moved.clearLoop
  unfold LineEditor.clearInputBox
  dsimp only
  rw [equal, moved.position, Int.toNat_natCast]
  exact ⟨cleared, quiet'.trans quiet⟩

end Editing

/-! The characters of a line are printed one by one; those that are not shown take no cell. -/

theorem foldl_append_inputText (text : Text) (editor : LineEditor) :
    (text.foldl append editor).inputText = editor.inputText ++ text ∧
      (text.foldl append editor).inputPosition = editor.inputPosition + text.length := by
  induction text generalizing editor with
  | nil => simp
  | cons unit text ih =>
      obtain ⟨content, position⟩ := ih (editor.append unit)
      rw [List.foldl_cons, content, position]
      constructor
      · simp [append]
      · simp only [append, advance_inputPosition, print_inputPosition, setText_inputPosition,
          List.length_cons]
        omega

theorem scrolled_foldl_append (text : Text) (scrolled : editor.scrolled = true) :
    (text.foldl append editor).scrolled = true := by
  induction text generalizing editor with
  | nil => exact scrolled
  | cons unit text ih => exact ih (scrolled_call _ scrolled)

/-- What is shown of a line overwrites as many cells, or scrolls. -/
theorem stands_append (text : Text) (line : 0x0A ∉ text)
    (stands : Stands start (before ++ after) before.length editor.printer) :
    ((visible text).length ≤ after.length →
      Stands start (before ++ bytes (visible text) ++ after.drop (visible text).length)
          (before.length + (visible text).length) (text.foldl append editor).printer ∧
        (text.foldl append editor).scrolled = editor.scrolled) ∧
    (after.length < (visible text).length → (text.foldl append editor).scrolled = true) := by
  induction text generalizing editor before after with
  | nil =>
      refine ⟨fun _ => ?_, fun none_ => absurd none_ (Nat.not_lt_zero _)⟩
      simpa [visible] using stands
  | cons unit text ih =>
      have later : 0x0A ∉ text := fun member => line (List.mem_cons_of_mem _ member)
      rw [List.foldl_cons]
      by_cases escape : unit = 0x1B
      · have hidden : visible (unit :: text) = visible text := by simp [visible, escape]
        have same : Stands start (before ++ after) before.length (editor.append unit).printer := by
          rw [escape]
          exact stands.print_escape none none
        have quiet : (editor.append unit).scrolled = editor.scrolled := by
          rw [escape]
          exact Bool.or_false _
        obtain ⟨fits, beyond⟩ := ih later same
        rw [hidden, ← quiet]
        exact ⟨fits, beyond⟩
      · have plain : Plain unit := ⟨fun newline => line (newline ▸ List.mem_cons_self), escape⟩
        have shown : visible (unit :: text) = unit :: visible text := by simp [visible, escape]
        rw [shown]
        cases after with
        | nil =>
            rw [List.append_nil] at stands
            have scrolled : (editor.append unit).scrolled = true := by
              change (editor.scrolled || editor.printer.scrolls _) = true
              rw [stands.print_behind plain, Bool.or_true]
            refine ⟨fun none_ => absurd none_ (Nat.not_succ_le_zero _), fun _ => ?_⟩
            exact scrolled_foldl_append text scrolled
        | cons cell after =>
            obtain ⟨printed, quiet⟩ := stands_print stands plain
            have next : Stands start ((before ++ [unit.toUInt8]) ++ after)
                (before ++ [unit.toUInt8]).length (editor.append unit).printer := by
              rw [List.length_append, List.length_singleton, List.append_assoc]
              exact printed
            have quiet : (editor.append unit).scrolled = editor.scrolled := quiet
            obtain ⟨fits, beyond⟩ := ih later next
            rw [← quiet]
            refine ⟨fun small => ?_, fun large => beyond (Nat.lt_of_succ_lt_succ large)⟩
            obtain ⟨stands', quiet'⟩ := fits (Nat.le_of_succ_le_succ small)
            refine ⟨?_, quiet'⟩
            rw [List.length_append, List.length_singleton, Nat.add_assoc, Nat.add_comm 1] at stands'
            simpa using stands'

/-- **A recalled line** replaces the text, with the cursor behind it. If what is shown of it fits the
screen with a blank, it is shown. -/
theorem Editing.setInputBox (editing : Editing start left right rest editor) {text : Text}
    (line : 0x0A ∉ text) :
    ((editor.setInputBox text).inputText = text ∧
      (editor.setInputBox text).inputPosition = text.length) ∧
    (editor.scrolled = true ∨ w * h ≤ start + (visible text).length →
      (editor.setInputBox text).scrolled = true) ∧
    (editor.scrolled = false → start + (visible text).length < w * h →
      (editor.setInputBox text).scrolled = false ∧
      ∃ rest', Stands start (bytes (visible text) ++ 0x20 :: rest') (visible text).length
        (editor.setInputBox text).printer) := by
  obtain ⟨removed, quiet⟩ := editing.removeCursor
  obtain ⟨⟨rest', cleared⟩, quiet'⟩ := removed.clearInputBox
  have quiet := quiet'.trans quiet
  obtain ⟨content, position⟩ := foldl_append_inputText text editor.removeCursor.clearInputBox
  rw [cleared.text, List.nil_append, List.nil_append] at content
  rw [cleared.position, List.length_nil, Int.natCast_zero, Int.zero_add] at position
  have cursor : (text.foldl append editor.removeCursor.clearInputBox).cursorText = [0x20] :=
    @cursorText_eq _ text [] (by rw [content, List.append_nil]) position
  unfold LineEditor.setInputBox
  rw [drawCursor_eq]
  refine ⟨⟨content, position⟩, ?_, fun start_ fits => ?_⟩
  · intro gone
    cases scrolled : editor.scrolled with
    | true => exact scrolled_paint _ (scrolled_foldl_append text (quiet.trans scrolled))
    | false =>
        have large := gone.resolve_left (by rw [scrolled]; exact Bool.false_ne_true)
        obtain ⟨-, stands⟩ := cleared.shows (quiet.trans scrolled)
        have size := stands.length_cells
        obtain ⟨fit, beyond⟩ := stands_append text line (show Stands start ([] ++ 0x20 :: rest')
          ([] : List UInt8).length _ from stands)
        rw [List.append_nil, bytes_nil, List.nil_append, List.length_cons] at size
        by_cases full : (visible text).length ≤ (0x20 :: rest').length
        · obtain ⟨shown, -⟩ := fit full
          rw [List.nil_append, List.length_nil, Nat.zero_add, List.drop_of_length_le
            (by rw [List.length_cons]; omega), List.append_nil, ← length_bytes] at shown
          exact scrolled_paint_behind _ cursor plain_blank shown
        · exact scrolled_paint _ (beyond (Nat.lt_of_not_le full))
  · obtain ⟨-, stands⟩ := cleared.shows (quiet.trans start_)
    have size := stands.length_cells
    obtain ⟨fit, -⟩ := stands_append text line (show Stands start ([] ++ 0x20 :: rest')
      ([] : List UInt8).length _ from stands)
    rw [List.append_nil, bytes_nil, List.nil_append, List.length_cons] at size
    obtain ⟨shown, still⟩ := fit (by rw [List.length_cons]; omega)
    rw [List.nil_append, List.length_nil, Nat.zero_add] at shown
    have inside : (visible text).length < ((0x20 : UInt8) :: rest').length := by
      rw [List.length_cons]
      omega
    obtain ⟨cell, after, split⟩ : ∃ cell after,
        ((0x20 : UInt8) :: rest').drop (visible text).length = cell :: after :=
      ⟨_, _, List.drop_eq_getElem_cons inside⟩
    rw [split, ← length_bytes] at shown
    obtain ⟨drawn, still'⟩ := stands_paint LIGHTGREEN cursor plain_blank shown
    rw [length_bytes] at drawn
    exact ⟨still'.trans (still.trans (quiet.trans start_)), _, drawn⟩

/-! ## One key -/

/-- The text and the cursor in it. -/
def bufferAt (left right : Text) : TextBuffer := ⟨left ++ right, left.length, by simp⟩

namespace Editing

theorem holds (editing : Editing start left right rest editor) :
    editor.Holds (bufferAt left right) := ⟨editing.text, editing.position⟩

theorem displays (editing : Editing start left right rest editor) (quiet : editor.scrolled = false) :
    editor.Displays start := by
  obtain ⟨-, stands⟩ := editing.shows quiet
  refine ⟨⟨rest, ?_⟩, ?_⟩
  · rw [stands.cells, editing.text]
    simp [bytes]
  · rw [stands.position, editing.position]
    exact Int.natCast_add _ _

theorem recalling (editing : Editing start left right rest editor) (position : Nat) :
    Editing start left right rest { editor with historyPosition := position } :=
  ⟨editing.text, editing.position, editing.sound.recalling position, editing.shows⟩

theorem line_lines (editing : Editing start left right rest editor) (position : Nat) :
    0x0A ∉ editor.line position := by
  unfold LineEditor.line
  cases found : editor.history[position]? with
  | none => simp
  | some line => exact editing.sound.lines line (List.mem_of_getElem? found)

end Editing

/-- The editor after a key holds the text that the key makes, split at the cursor. -/
def Follows (start : Nat) (left right : Text) (editor : LineEditor) (key : Key) : Prop :=
  ∃ left' right' rest', Editing start left' right' rest' (editor.addinput key) ∧
    ((bufferAt left right).edit (editor.recalled key) key).text = left' ++ right' ∧
    ((bufferAt left right).edit (editor.recalled key) key).cursor = left'.length

namespace Follows

variable {key : Key}

theorem refines (editing : Editing start left right rest editor)
    (follows : Follows start left right editor key) : Refines start editor key := by
  obtain ⟨left', right', rest', after, text, cursor⟩ := follows
  refine ⟨⟨bufferAt left right, editing.holds, ?_, ?_⟩, after.sound.returns, after.displays⟩
  · rw [text, after.text]
  · rw [cursor, after.position]

end Follows

namespace Editing

/-- The left key goes back by one, unless it is pressed behind the second character. -/
theorem follows_left (editing : Editing start left right rest editor) (elsewhere : left.length ≠ 2) :
    Follows start left right editor .kpleft := by
  have distance : (if (left.length : Int) - 3 < 0 then (left.length : Int) else 1) =
      left.length - ((left.length - 1 : Nat) : Int) := by
    split <;> omega
  refine ⟨_, _, rest, (editing.moveCursorLeft (Nat.sub_le _ _) distance).1, ?_, ?_⟩
  · rw [← List.append_assoc, List.take_append_drop]
    rfl
  · rw [List.length_take, Nat.min_eq_left (Nat.sub_le _ _)]
    rfl

theorem follows_right (editing : Editing start left right rest editor) :
    Follows start left right editor .kpright := by
  refine ⟨_, _, rest, (editing.moveCursorRight 1).1, ?_, ?_⟩
  · rw [List.append_assoc, List.take_append_drop]
    rfl
  · change min (left.length + 1) (left ++ right).length = _
    rw [List.length_append, List.length_append, List.length_take]
    omega

theorem follows_home (editing : Editing start left right rest editor) :
    Follows start left right editor .kphome :=
  ⟨_, _, rest, editing.moveCursorStart.1, rfl, rfl⟩

theorem follows_end (editing : Editing start left right rest editor) :
    Follows start left right editor .kpend :=
  ⟨_, _, rest, editing.moveCursorEnd.1, (List.append_nil _).symm, rfl⟩

theorem follows_backspace (editing : Editing start left right rest editor) :
    Follows start left right editor .backspace := by
  rcases List.eq_nil_or_concat left with rfl | ⟨before, unit, rfl⟩
  · have same : editor.addinput .backspace = editor := by
      change editor.removeChar = editor
      unfold LineEditor.removeChar
      rw [editing.position, if_neg (by simp)]
    refine ⟨[], right, rest, ?_, rfl, rfl⟩
    rw [same]
    exact editing
  · rw [List.concat_eq_append] at editing ⊢
    have cursor : (before ++ [unit]).length - 1 = before.length := by simp
    refine ⟨before, right, 0x20 :: rest, editing.removeChar.1, ?_, cursor⟩
    change ((before ++ [unit]) ++ right).take ((before ++ [unit]).length - 1) ++
      ((before ++ [unit]) ++ right).drop (before ++ [unit]).length = _
    rw [cursor, List.drop_left, List.append_assoc, List.take_left]

theorem follows_delete (editing : Editing start left right rest editor) :
    Follows start left right editor .kpdel := by
  obtain ⟨rest', after⟩ := editing.removeCharRight.1
  refine ⟨left, right.drop 1, rest', after, ?_, rfl⟩
  change (left ++ right).take left.length ++ (left ++ right).drop (left.length + 1) = _
  rw [List.take_left, ← List.drop_drop, List.drop_left]

theorem edit_character (editor : LineEditor) (left right : Text) (unit : UInt16) :
    ((bufferAt left right).edit (editor.recalled (.character [unit])) (.character [unit])).text =
        left ++ unit :: right ∧
      ((bufferAt left right).edit (editor.recalled (.character [unit])) (.character [unit])).cursor =
        left.length + 1 := by
  refine ⟨?_, rfl⟩
  change (left ++ right).take left.length ++ [unit] ++ (left ++ right).drop left.length = _
  rw [List.take_left, List.drop_left, List.append_assoc, List.singleton_append]

/-- What is behind the blank, seen from the start of the input. -/
theorem behind_blank (editing : Editing start left right rest editor)
    (quiet : editor.scrolled = false) :
    (editor.printer.shownFrom start)[editor.inputText.length + 1]? = rest.head? := by
  obtain ⟨-, stands⟩ := editing.shows quiet
  rw [stands.cells, editing.text, List.getElem?_append_right (by simp), length_bytes,
    Nat.add_sub_cancel_left, List.getElem?_cons_succ, List.head?_eq_getElem?]

theorem follows_character (editing : Editing start left right rest editor) {unit : UInt16}
    (plain : Plain unit) (blank : editor.scrolled = false →
      editor.inputPosition < editor.inputText.length →
        (editor.printer.shownFrom start)[editor.inputText.length + 1]? = some 0x20) :
    Follows start left right editor (.character [unit]) := by
  obtain ⟨text, cursor⟩ := edit_character editor left right unit
  cases right with
  | nil =>
      obtain ⟨rest', after⟩ := editing.putChar_last plain
      exact ⟨left ++ [unit], [], rest', after, by rw [text, List.append_nil], by rw [cursor]; simp⟩
  | cons next right =>
      obtain ⟨content, position, still, shows⟩ := editing.putChar_inside plain
      have joined : left ++ unit :: next :: right = (left ++ [unit]) ++ next :: right := by simp
      refine ⟨left ++ [unit], next :: right, rest.tail, ⟨?_, ?_, editing.sound.putChar _, ?_⟩, ?_, ?_⟩
      · rw [← joined]
        exact content
      · change (editor.putChar [unit]).inputPosition = _
        rw [position]
        simp
      · intro quiet
        have quiet := still.symm.trans quiet
        have inside : editor.inputPosition < editor.inputText.length := by
          rw [editing.position, editing.length_right, List.length_cons]
          omega
        have head := blank quiet inside
        rw [editing.behind_blank quiet] at head
        obtain ⟨plain', stands⟩ := shows quiet
        have split : rest = 0x20 :: rest.tail := (List.cons_head?_tail head).symm
        rw [← joined, ← split, List.length_append, List.length_singleton]
        exact ⟨plain', stands⟩
      · rw [text, joined]
      · rw [cursor]
        simp

end Editing

/-! ## Recalling a line -/

theorem visible_eq {text : Text} (shown : 0x1B ∉ text) : visible text = text := by
  unfold visible
  rw [List.filter_eq_self]
  intro unit member
  refine decide_eq_true fun escape => shown ?_
  rw [← escape]
  exact member

/-- An escape symbol makes what is shown shorter. -/
theorem not_mem_of_length_visible {text : Text} (same : (visible text).length = text.length) :
    0x1B ∉ text := by
  intro member
  have all := List.length_filter_eq_length_iff.mp same 0x1B member
  simp at all

theorem recalled_kpup (editor : LineEditor) : editor.recalled .kpup =
    if editor.historyPosition > 0 then some (editor.line (editor.historyPosition - 1)) else none := rfl

theorem recalled_kpdown (editor : LineEditor) : editor.recalled .kpdown =
    if editor.historyPosition < editor.history.length then
      some (editor.line (editor.historyPosition + 1)) else none := rfl

theorem plain_of_printable (printable : 0x20 ≤ unit.toNat ∧ unit.toNat < 0x7F) : Plain unit := by
  refine ⟨fun newline => ?_, fun escape => ?_⟩
  · rw [newline] at printable
    exact absurd printable.1 (by decide)
  · rw [escape] at printable
    exact absurd printable.1 (by decide)

theorem typed_character (printable : 0x20 ≤ unit.toNat ∧ unit.toNat < 0x7F) :
    Typed (.character [unit]) := by
  refine ⟨Nat.le_refl _, fun other member => ?_⟩
  rw [List.mem_singleton.mp member]
  exact printable

/-- A key of the history that recalls a line assigns it. -/
theorem addinput_recalled {key : Key} {text : Text} (recalls : editor.recalled key = some text) :
    ∃ position, text = editor.line position ∧ (key = .kpup ∨ key = .kpdown) ∧
      editor.addinput key = { editor with historyPosition := position }.setInputBox text := by
  cases key with
  | kpup =>
      rw [recalled_kpup] at recalls
      split at recalls
      · next earlier =>
          cases recalls
          refine ⟨_, rfl, .inl rfl, ?_⟩
          change editor.previous = _
          unfold previous
          rw [if_pos earlier]
      · cases recalls
  | kpdown =>
      rw [recalled_kpdown] at recalls
      split at recalls
      · next later =>
          cases recalls
          refine ⟨_, rfl, .inr rfl, ?_⟩
          change editor.next = _
          unfold next
          rw [if_pos later]
      · cases recalls
  | kpleft | kpright | kphome | kpend | character | backspace | kpdel => cases recalls

/-- At the end of the history nothing happens. -/
theorem addinput_of_recalled_none {key : Key} (history : key = .kpup ∨ key = .kpdown)
    (nothing : editor.recalled key = none) : editor.addinput key = editor := by
  rcases history with rfl | rfl
  · rw [recalled_kpup] at nothing
    split at nothing
    · cases nothing
    · next first =>
        change editor.previous = editor
        unfold previous
        rw [if_neg first]
  · rw [recalled_kpdown] at nothing
    split at nothing
    · cases nothing
    · next last =>
        change editor.next = editor
        unfold next
        rw [if_neg last]

theorem edit_history (buffer : TextBuffer) {recalled : Option Text} {key : Key}
    (history : key = .kpup ∨ key = .kpdown) :
    buffer.edit recalled key = recalled.elim buffer fun text => ⟨text, text.length, Nat.le_refl _⟩ := by
  rcases history with rfl | rfl <;> rfl

namespace Editing

theorem follows_history (editing : Editing start left right rest editor) {key : Key}
    (history : key = .kpup ∨ key = .kpdown)
    (shown : ∀ text, editor.recalled key = some text → editor.scrolled = false →
      start + (visible text).length < w * h → 0x1B ∉ text) :
    Follows start left right editor key := by
  unfold Follows
  rw [edit_history _ history]
  cases recalls : editor.recalled key with
  | none =>
      refine ⟨left, right, rest, ?_, rfl, rfl⟩
      rw [addinput_of_recalled_none history recalls]
      exact editing
  | some text =>
      obtain ⟨position, equal, -, after⟩ := addinput_recalled recalls
      have line : 0x0A ∉ text := equal ▸ editing.line_lines position
      obtain ⟨⟨content, cursor⟩, gone, fits⟩ := (editing.recalling position).setInputBox line
      have sound := (editing.recalling position).sound.setInputBox text
      rw [← after] at content cursor gone fits sound
      have content' : (editor.addinput key).inputText = text ++ [] := by
        rw [content, List.append_nil]
      by_cases room : editor.scrolled = false ∧ start + (visible text).length < w * h
      · obtain ⟨quiet, small⟩ := room
        obtain ⟨-, rest', stands⟩ := fits quiet small
        have escape := shown text recalls quiet small
        rw [visible_eq escape] at stands
        refine ⟨text, [], rest', ⟨content', cursor, sound, fun _ => ⟨fun unit member => ?_, ?_⟩⟩,
          (List.append_nil _).symm, rfl⟩
        · rw [List.append_nil] at member
          exact ⟨fun newline => line (newline ▸ member), fun hidden => escape (hidden ▸ member)⟩
        · rw [List.append_nil]
          exact stands
      · have scrolled := gone (by
          rw [not_and_or, Bool.not_eq_false, Nat.not_lt] at room
          exact room)
        refine ⟨text, [], [], ⟨content', cursor, sound, fun quiet => ?_⟩, (List.append_nil _).symm, rfl⟩
        rw [scrolled] at quiet
        cases quiet

/-- **A regular key** edits the text. -/
theorem follows (editing : Editing start left right rest editor) {key : Key} (typed : Typed key)
    (regular : Regular start editor key) : Follows start left right editor key := by
  obtain ⟨elsewhere, inserts, shown⟩ := regular
  cases key with
  | kpleft =>
      refine editing.follows_left fun second => elsewhere rfl ?_
      rw [editing.position, second]
      rfl
  | kpright => exact editing.follows_right
  | kpup => exact editing.follows_history (.inl rfl) shown
  | kpdown => exact editing.follows_history (.inr rfl) shown
  | kphome => exact editing.follows_home
  | kpend => exact editing.follows_end
  | character character =>
      obtain ⟨nonempty, blank⟩ := inserts character rfl
      obtain ⟨short, printable⟩ := typed
      obtain ⟨unit, rfl⟩ : ∃ unit, character = [unit] := by
        refine List.length_eq_one_iff.mp (Nat.le_antisymm short ?_)
        exact List.length_pos_iff.mpr nonempty
      exact editing.follows_character (plain_of_printable (printable unit List.mem_cons_self)) blank
  | backspace => exact editing.follows_backspace
  | kpdel => exact editing.follows_delete

end Editing

/-! ## The gaps -/

theorem putChar_inputPosition (char : Text) (editor : LineEditor) :
    (editor.putChar char).inputPosition = editor.inputPosition + 1 := by
  unfold putChar
  dsimp only
  rw [drawCursor_eq, paint_inputPosition, advance_inputPosition]
  split
  · rfl
  · rw [moveOffset_inputPosition, printAll_inputPosition]
    rfl

/-- Behind the second character the left key goes to the start. -/
theorem kpleft_inputPosition (second : editor.inputPosition = 2) :
    (editor.addinput .kpleft).inputPosition = 0 := by
  change ((editor.removeCursor.advance _).moveOffset _).drawCursor.inputPosition = 0
  rw [drawCursor_eq, paint_inputPosition, moveOffset_inputPosition, advance_inputPosition,
    removeCursor_eq, paint_inputPosition, second]
  rfl

/-- **One key** edits the text exactly if it does not meet a gap. -/
theorem Editing.refines_iff (editing : Editing start left right rest editor) {key : Key}
    (typed : Typed key) : Refines start editor key ↔ Regular start editor key := by
  refine ⟨fun refines => ?_, fun regular => (editing.follows typed regular).refines editing⟩
  obtain ⟨⟨buffer, ⟨before, at_⟩, -, moved⟩, -, displays⟩ := refines
  refine ⟨?_, ?_, ?_⟩
  · rintro rfl second
    rw [kpleft_inputPosition second] at moved
    change (0 : Int) = ((buffer.cursor - 1 : Nat) : Int) at moved
    omega
  · rintro character rfl
    have further : (editor.addinput (.character character)).inputPosition =
        editor.inputPosition + 1 := putChar_inputPosition character editor
    rw [further, at_] at moved
    change (buffer.cursor : Int) + 1 = ((buffer.cursor + character.length : Nat) : Int) at moved
    have length : character.length = 1 := by omega
    refine ⟨List.length_pos_iff.mp (by omega), fun quiet inside => ?_⟩
    obtain ⟨unit, rfl⟩ := List.length_eq_one_iff.mp length
    cases right with
    | nil =>
        rw [editing.position, editing.length_right, List.length_nil] at inside
        omega
    | cons next right =>
        have plain := plain_of_printable (typed.2 unit List.mem_cons_self)
        obtain ⟨content, -, still, shows⟩ := editing.putChar_inside plain
        obtain ⟨-, stands⟩ := shows quiet
        obtain ⟨later, cells⟩ := (displays (still.trans quiet)).cells
        change bytes (editor.putChar [unit]).inputText ++ [0x20] ++ later = _ at cells
        rw [content, show (editor.addinput (.character [unit])).printer.shownFrom start = _ from
          stands.cells, List.append_assoc] at cells
        rw [editing.behind_blank quiet, ← List.append_cancel_left cells]
        rfl
  · intro text recalls quiet small
    obtain ⟨position, equal, -, after⟩ := addinput_recalled recalls
    have line : 0x0A ∉ text := equal ▸ editing.line_lines position
    obtain ⟨⟨-, cursor⟩, -, fits⟩ := (editing.recalling position).setInputBox line
    rw [← after] at cursor fits
    obtain ⟨still, rest', stands⟩ := fits quiet small
    have shown := (displays still).position
    rw [stands.position, cursor] at shown
    exact not_mem_of_length_visible (by omega)

/-! ## Whole inputs -/

/-- A line of ASCII characters. -/
def AsciiLine (line : Text) : Prop := ∀ unit ∈ line, unit.toNat < 0x80 ∧ unit ≠ 0x0A

/-- The first cursor is drawn where there is room, and the position stays on it. -/
theorem readLine_printer {printer : Printer} (inScreen : printer.InScreen) (history : List Text)
    (historyPosition : Nat) :
    (readLine printer history historyPosition).printer =
      ⟨printer.room.drawn 0x20 (getColor WHITE LIGHTGREEN),
        printer.room.drawn 0x20 (getColor WHITE LIGHTGREEN), printer.room.posCurrent⟩ := by
  obtain ⟨low, high⟩ := inScreen.room
  have printed := Printer.operate_unit inScreen plain_blank (some WHITE) (some LIGHTGREEN)
  change ((printer.operate (.print [0x20] 1 (some WHITE) (some LIGHTGREEN))).1).moveOffset (-1) = _
  rw [printed]
  unfold Printer.moveOffset
  have back : printer.room.posCurrent + 1 + Printer.toInt32 (-1) = printer.room.posCurrent := by
    rw [show Printer.toInt32 (-1) = -1 from rfl]
    omega
  dsimp only
  rw [back, if_neg (by omega), if_neg (by omega)]
  rfl

/-- The input starts with no text, at the position of the printer. -/
theorem editing_readLine {printer : Printer} (inScreen : printer.InScreen) {history : List Text}
    (lines : ∀ line ∈ history, AsciiLine line) (historyPosition : Nat) :
    ∃ rest, Editing (readLine printer history historyPosition).printer.posCurrent.toNat [] [] rest
      (readLine printer history historyPosition) := by
  obtain ⟨low, high⟩ := inScreen.room
  have drawn := readLine_printer inScreen history historyPosition
  generalize equal : readLine printer history historyPosition = editor at drawn ⊢
  have position : editor.printer.posCurrent = printer.room.posCurrent := by rw [drawn]
  have at_ : (editor.printer.posCurrent.toNat : Int) = printer.room.posCurrent := by
    rw [position]
    exact Int.toNat_of_nonneg low
  generalize editor.printer.posCurrent.toNat = start at at_ ⊢
  have fresh : editor.printer.shown = editor.printer.buffer := by rw [drawn]
  have returns : editor.threw = false := by
    have printed := Printer.operate_unit inScreen plain_blank (some WHITE) (some LIGHTGREEN)
    subst equal
    change (false || (printer.operate (.print [0x20] 1 (some WHITE) (some LIGHTGREEN))).2.isSome ||
      false) = false
    rw [printed]
    rfl
  -- the blank under the cursor
  have inside : 0 < (editor.printer.shownFrom start).length := by
    rw [Printer.length_shownFrom]
    omega
  have under : (editor.printer.shownFrom start)[0] = 0x20 := by
    have shown : editor.printer.shown =
        printer.room.drawn 0x20 (getColor WHITE LIGHTGREEN) := by rw [drawn]
    have here : ((start + 0 : Nat) : Int) = printer.room.posCurrent := by omega
    simp only [Printer.getElem_shownFrom, shown, Printer.drawn]
    rw [if_pos here]
    rfl
  obtain ⟨cell, rest, cells⟩ := List.exists_cons_of_length_pos inside
  have blank : cell = 0x20 := by
    rw [← under]
    simp only [cells, List.getElem_cons_zero]
  refine ⟨rest, ?_, ?_, ⟨?_, fresh, returns, ?_⟩, fun _ => ⟨?_, fresh, ?_, ?_, ?_⟩⟩
  · exact equal ▸ rfl
  · exact equal ▸ rfl
  · unfold Printer.InScreen
    omega
  · intro line member newline
    rw [← equal] at member
    exact (lines line member 0x0A newline).2 rfl
  · intro unit member
    exact absurd member List.not_mem_nil
  · rw [cells, blank]
    rfl
  · rw [position]
    exact at_.symm
  · change start + 0 ≤ w * h
    omega

/-- **Editing a line.** The input starts with no text. In an input of any keys with any history of
lines every key edits the text, and its effect is shown as long as nothing scrolls, exactly if no
key meets a gap. -/
theorem refines_exact {printer : Printer} (inScreen : printer.InScreen) {history : List Text}
    (lines : ∀ line ∈ history, AsciiLine line) (historyPosition : Nat) {keys : List Key}
    (typed : ∀ key ∈ keys, Typed key) :
    let editor := readLine printer history historyPosition
    let start := editor.printer.posCurrent.toNat
    (editor.Holds TextBuffer.empty ∧ editor.Displays start) ∧
      (Along addinput (Refines start) editor keys ↔ Along addinput (Regular start) editor keys) := by
  intro editor start
  obtain ⟨rest, editing⟩ := editing_readLine inScreen lines historyPosition
  refine ⟨⟨editing.holds, editing.displays rfl⟩, ?_⟩
  refine Along.iff_of_invariant
    (fun editor => ∃ left right rest, Editing start left right rest editor)
    (fun editor key typed invariant => ?_) (fun editor key typed invariant regular => ?_)
    (Along.of_inputs typed) ⟨[], [], rest, editing⟩
  · obtain ⟨left, right, rest, editing⟩ := invariant
    exact editing.refines_iff typed
  · obtain ⟨left, right, rest, editing⟩ := invariant
    obtain ⟨left', right', rest', after, -⟩ := editing.follows typed regular
    exact ⟨left', right', rest', after⟩

theorem refines_exact_recalled :
    let editor := readLine .start [[0x6C, 0x73]] 1
    let keys : List Key := [.character [0x61], .kpleft, .character [0x62], .kpdel, .kpup]
    (editor.Holds TextBuffer.empty ∧ editor.Displays 0) ∧ Along addinput (Refines 0) editor keys := by
  intro editor keys
  have lines : ∀ line ∈ ([[0x6C, 0x73]] : List Text), AsciiLine line := by
    intro line member
    rw [List.mem_singleton.mp member]
    intro unit member
    simp only [List.mem_cons, List.not_mem_nil, or_false] at member
    rcases member with rfl | rfl
    · decide
    · decide
  have typed : ∀ key ∈ keys, Typed key := by
    intro key member
    simp only [keys, List.mem_cons, List.not_mem_nil, or_false] at member
    rcases member with rfl | rfl | rfl | rfl | rfl
    · exact typed_character ⟨by decide, by decide⟩
    · trivial
    · exact typed_character ⟨by decide, by decide⟩
    · trivial
    · trivial
  have regular : Along addinput (Regular 0) editor keys := by
    refine ⟨⟨fun left => (nomatch left), ?_, fun _ recalls => (nomatch recalls)⟩,
      ⟨fun _ => ?_, fun _ inserts => (nomatch inserts), fun _ recalls => (nomatch recalls)⟩,
      ⟨fun left => (nomatch left), ?_, fun _ recalls => (nomatch recalls)⟩,
      ⟨fun left => (nomatch left), fun _ inserts => (nomatch inserts),
        fun _ recalls => (nomatch recalls)⟩,
      ⟨fun left => (nomatch left), fun _ inserts => (nomatch inserts), ?_⟩, trivial⟩
    · intro character typed
      cases typed
      refine ⟨List.cons_ne_nil _ _, fun _ before => ?_⟩
      exact absurd before (by decide)
    · decide +kernel
    · intro character typed
      cases typed
      refine ⟨List.cons_ne_nil _ _, fun _ _ => ?_⟩
      decide +kernel
    · intro text recalls _ _
      have recalled : ((((editor.addinput (.character [0x61])).addinput .kpleft).addinput
          (.character [0x62])).addinput .kpdel).recalled .kpup = some [0x6C, 0x73] := by
        decide +kernel
      rw [recalled] at recalls
      cases recalls
      decide
  have position : editor.printer.posCurrent.toNat = 0 := by decide +kernel
  have whole := refines_exact Printer.inScreen_start lines 1 typed
  dsimp only at whole
  rw [show readLine .start [[0x6C, 0x73]] 1 = editor from rfl, position] at whole
  exact ⟨whole.1, whole.2.mpr regular⟩

/-- With two characters typed the left key goes back by both. -/
theorem refines_left_twice : ¬ ∀ printer : Printer, printer.InScreen → ∀ history : List Text,
    (∀ line ∈ history, AsciiLine line) → ∀ historyPosition : Nat, ∀ keys : List Key,
    (∀ key ∈ keys, Typed key) →
    Along addinput (Refines (readLine printer history historyPosition).printer.posCurrent.toNat)
      (readLine printer history historyPosition) keys := by
  intro claimed
  have typed : ∀ key ∈ [Key.character [0x61], .character [0x62], .kpleft], Typed key := by
    intro key member
    simp only [List.mem_cons, List.not_mem_nil, or_false] at member
    rcases member with rfl | rfl | rfl
    · exact typed_character ⟨by decide, by decide⟩
    · exact typed_character ⟨by decide, by decide⟩
    · trivial
  obtain ⟨-, -, left, -⟩ :=
    claimed _ Printer.inScreen_start [] (fun line member => absurd member List.not_mem_nil) 0 _ typed
  generalize at_ : ((readLine Printer.start [] 0).addinput (.character [0x61])).addinput
    (.character [0x62]) = editor at left
  have second : editor.inputPosition = 2 := by
    subst at_
    change (putChar [0x62] (putChar [0x61] _)).inputPosition = 2
    rw [putChar_inputPosition, putChar_inputPosition]
    rfl
  obtain ⟨buffer, ⟨-, before⟩, -, moved⟩ := left.edits
  rw [kpleft_inputPosition second] at moved
  rw [second] at before
  change (0 : Int) = ((buffer.cursor - 1 : Nat) : Int) at moved
  omega

end LineEditor

end JsOS.Core.Tty
