import JsOS.Core.Tty.LineEditor

/-! # The printer under the editor

Every print of the editor is that of a single character, so that the cells from the start of the
input on change one at a time (`Stands`). Whatever the editor prints, the position stays in the
screen and nothing is thrown (`Sound`).
-/

namespace JsOS.Core.Tty

/-! ## Printing a character -/

/-- The character takes one cell. -/
def Plain (unit : UInt16) : Prop := unit ≠ 0x0A ∧ unit ≠ 0x1B

instance (unit : UInt16) : Decidable (Plain unit) := inferInstanceAs (Decidable (_ ∧ _))

theorem plain_blank : Plain 0x20 := by decide

theorem null_ne_escape : (0 : UInt16) ≠ 0x1B := by decide

namespace Printer

/-- The printer with room for a character. -/
def room (printer : Printer) : Printer :=
  if printer.posCurrent ≥ (w * h : Int) then printer.scrollUp else printer

/-- The buffer with a character at a place. -/
def drawn (printer : Printer) (unit : UInt16) (color : UInt8) : VGABuffer := fun place =>
  if (place.val : Int) = printer.posCurrent then ⟨unit.toUInt8, color⟩ else printer.buffer place

variable {printer : Printer} {unit : UInt16}

theorem inScreen_start : start.InScreen :=
  ⟨Int.le_refl 0, Int.mul_nonneg (Int.natCast_nonneg w) (Int.natCast_nonneg h)⟩

theorem InScreen.room (inScreen : printer.InScreen) :
    0 ≤ printer.room.posCurrent ∧ printer.room.posCurrent < (w * h : Int) := by
  obtain ⟨low, high⟩ := inScreen
  unfold Printer.room
  split
  · next full =>
      change 0 ≤ printer.posCurrent - w ∧ printer.posCurrent - w < (w * h : Int)
      simp only [w, h] at high full ⊢
      omega
  · next free => exact ⟨low, not_le.mp free⟩

/-- **A plain character** takes the next cell. -/
theorem operate_unit (inScreen : printer.InScreen) (plain : Plain unit) (fg bg : Option (Fin 16)) :
    printer.operate (.print [unit] 1 fg bg) =
      (⟨printer.room.drawn unit (getColor (fg.getD WHITE) (bg.getD BLACK)),
        printer.room.drawn unit (getColor (fg.getD WHITE) (bg.getD BLACK)),
        printer.room.posCurrent + 1⟩, none) := by
  obtain ⟨low, high⟩ := inScreen.room
  have round : printLoop printer [unit] 1 (fg.getD WHITE) (bg.getD BLACK) =
      put ⟨printer, fg.getD WHITE, bg.getD BLACK, none⟩ unit := by
    change printSymbol ⟨printer, fg.getD WHITE, bg.getD BLACK, none⟩ (0, unit) = _
    unfold printSymbol
    rw [if_neg (by simp), useControls_plain plain.2 null_ne_escape]
  have draws : setCharOffset printer.room.buffer printer.room.posCurrent unit (fg.getD WHITE)
      (bg.getD BLACK) =
        .ok (printer.room.drawn unit (getColor (fg.getD WHITE) (bg.getD BLACK))) := by
    rw [setCharOffset, if_neg (by omega)]
    rfl
  have placed : put ⟨printer, fg.getD WHITE, bg.getD BLACK, none⟩ unit =
      ⟨⟨printer.room.drawn unit (getColor (fg.getD WHITE) (bg.getD BLACK)), printer.room.shown,
        printer.room.posCurrent + 1⟩, fg.getD WHITE, bg.getD BLACK, none⟩ := by
    unfold put
    have room : (if printer.posCurrent ≥ (w * h : Int) then printer.scrollUp else printer) =
        printer.room := rfl
    rw [if_neg plain.1]
    dsimp only
    rw [room, draws]
  change print printer [unit] 1 (fg.getD WHITE) (bg.getD BLACK) = _
  unfold print
  rw [round, placed]
  rfl

theorem scrolls_unit (plain : Plain unit) (fg bg : Option (Fin 16)) :
    printer.scrolls (.print [unit] 1 fg bg) = decide (printer.posCurrent ≥ (w * h : Int)) := by
  change (Printing.scrolls ⟨printer, fg.getD WHITE, bg.getD BLACK, none⟩ (0, unit) || false) = _
  rw [Bool.or_false, Printing.scrolls, useControls_plain plain.2 null_ne_escape, if_neg plain.1]
  rfl

/-! ## The cells from the start on -/

theorem length_shownFrom (printer : Printer) (start : Nat) :
    (printer.shownFrom start).length = w * h - start := by
  rw [shownFrom, List.length_drop, List.length_ofFn]

theorem getElem_shownFrom (printer : Printer) (start : Nat) {offset : Nat}
    (inside : offset < (printer.shownFrom start).length) :
    (printer.shownFrom start)[offset] =
      (printer.shown ⟨start + offset, by
        rw [length_shownFrom] at inside
        omega⟩).char := by
  simp only [shownFrom, List.getElem_drop, List.getElem_ofFn]

end Printer

/-- The position is some cells behind the start, and the cells from there on are these. -/
structure Stands (start : Nat) (cells : List UInt8) (offset : Nat) (printer : Printer) : Prop where
  fresh : printer.shown = printer.buffer
  cells : printer.shownFrom start = cells
  position : printer.posCurrent = ((start + offset : Nat) : Int)
  inside : start + offset ≤ w * h

namespace Stands

variable {start : Nat} {before after : List UInt8} {cell : UInt8} {printer : Printer} {unit : UInt16}

theorem inScreen {cells : List UInt8} {offset : Nat} (stands : Stands start cells offset printer) :
    printer.InScreen := by
  have inside := stands.inside
  unfold Printer.InScreen
  rw [stands.position]
  exact ⟨Int.natCast_nonneg _, by exact_mod_cast inside⟩

theorem length_cells {cells : List UInt8} {offset : Nat}
    (stands : Stands start cells offset printer) : cells.length = w * h - start := by
  rw [← stands.cells, Printer.length_shownFrom]

/-- A plain character overwrites the cell. -/
theorem print (stands : Stands start (before ++ cell :: after) before.length printer)
    (plain : Plain unit) (fg bg : Option (Fin 16)) :
    Stands start (before ++ unit.toUInt8 :: after) (before.length + 1)
        (printer.step (.print [unit] 1 fg bg)) ∧
      printer.scrolls (.print [unit] 1 fg bg) = false := by
  have size := stands.length_cells
  rw [List.length_append, List.length_cons] at size
  have free : ¬ printer.posCurrent ≥ (w * h : Int) := by
    rw [stands.position]
    simp only [w, h] at size ⊢
    omega
  have same : printer.room = printer := if_neg free
  have result : printer.step (.print [unit] 1 fg bg) =
      ⟨printer.drawn unit (getColor (fg.getD WHITE) (bg.getD BLACK)),
        printer.drawn unit (getColor (fg.getD WHITE) (bg.getD BLACK)), printer.posCurrent + 1⟩ := by
    rw [Printer.step, Printer.operate_unit stands.inScreen plain, same]
  generalize drawn : printer.drawn unit (getColor (fg.getD WHITE) (bg.getD BLACK)) = buffer at result
  have chars (place : Fin (w * h)) : (buffer place).char =
      if (place.val : Int) = printer.posCurrent then unit.toUInt8 else (printer.buffer place).char := by
    rw [← drawn, Printer.drawn]
    split <;> rfl
  rw [result]
  refine ⟨⟨rfl, ?_, ?_, by simp only [w, h] at size ⊢; omega⟩, ?_⟩
  · have overwritten : before ++ unit.toUInt8 :: after =
        (printer.shownFrom start).set before.length unit.toUInt8 := by
      rw [stands.cells, List.set_append, if_neg (Nat.lt_irrefl _), Nat.sub_self, List.set_cons_zero]
    rw [overwritten]
    apply List.ext_getElem
    · rw [List.length_set, Printer.length_shownFrom, Printer.length_shownFrom]
    · intro offset inside inside'
      have old : offset < (printer.shownFrom start).length := by
        rwa [List.length_set] at inside'
      rw [Printer.getElem_shownFrom _ start inside, List.getElem_set,
        Printer.getElem_shownFrom printer start old, chars, stands.position, stands.fresh]
      by_cases here : before.length = offset
      · rw [if_pos (by rw [here]), if_pos here]
      · have elsewhere : ¬ ((start + offset : Nat) : Int) = ((start + before.length : Nat) : Int) := by
          omega
        rw [if_neg elsewhere, if_neg here]
  · change printer.posCurrent + 1 = _
    rw [stands.position]
    omega
  · rw [Printer.scrolls_unit plain, decide_eq_false free]

/-- Behind the last cell a plain character scrolls the screen. -/
theorem print_behind (stands : Stands start before before.length printer) (plain : Plain unit)
    (fg bg : Option (Fin 16)) : printer.scrolls (.print [unit] 1 fg bg) = true := by
  have size := stands.length_cells
  have inside := stands.inside
  rw [Printer.scrolls_unit plain, decide_eq_true_eq, stands.position]
  simp only [w, h] at size inside ⊢
  omega

/-- An escape symbol changes nothing. -/
theorem print_escape {cells : List UInt8} {offset : Nat}
    (stands : Stands start cells offset printer) (fg bg : Option (Fin 16)) :
    Stands start cells offset (printer.step (.print [0x1B] 1 fg bg)) := by
  have same : printer.step (.print [0x1B] 1 fg bg) = printer := by
    have fresh := stands.fresh
    obtain ⟨buffer, shown, posCurrent⟩ := printer
    change shown = buffer at fresh
    rw [← fresh]
    rfl
  rw [same]
  exact stands

/-- The position moves within the cells. -/
theorem moveOffset {cells : List UInt8} {offset target : Nat} {num : Int}
    (stands : Stands start cells offset printer) (moves : (offset : Int) + num = target)
    (inside : target < cells.length) : Stands start cells target (printer.moveOffset num) := by
  have size := stands.length_cells
  have small := stands.inside
  have exact_ : Printer.toInt32 num = num := by
    refine Int.bmod_eq_of_le ?_ ?_
    · simp only [w, h] at size small ⊢
      omega
    · simp only [w, h] at size small ⊢
      omega
  have position : printer.posCurrent + num = ((start + target : Nat) : Int) := by
    rw [stands.position]
    omega
  refine ⟨stands.fresh, stands.cells, ?_, by simp only [w, h] at size ⊢; omega⟩
  unfold Printer.moveOffset
  dsimp only
  rw [exact_, position, if_neg (by omega), if_neg (by simp only [w, h] at size ⊢; omega)]

end Stands

/-! ## What every key leaves alone -/

namespace LineEditor

/-- The printer's position is in the screen, all that was printed is shown, nothing has thrown, and
the history consists of lines. -/
structure Sound (editor : LineEditor) : Prop where
  inScreen : editor.printer.InScreen
  fresh : editor.printer.shown = editor.printer.buffer
  returns : editor.threw = false
  lines : ∀ line ∈ editor.history, 0x0A ∉ line

variable {editor : LineEditor}

@[simp] theorem printAll_nil (editor : LineEditor) : editor.printAll [] = editor := rfl

@[simp] theorem printAll_cons (editor : LineEditor) (item : UInt16) (items : Text) :
    editor.printAll (item :: items) = (editor.print [item]).printAll items := rfl

/-- A print shows what it has printed. -/
theorem fresh_print {printer : Printer} {text : Text} {repeat_ : Nat} {fg bg : Option (Fin 16)}
    (returns : (printer.operate (.print text repeat_ fg bg)).2 = none) :
    (printer.step (.print text repeat_ fg bg)).shown =
      (printer.step (.print text repeat_ fg bg)).buffer := by
  change (Printer.print _ _ _ _ _).2 = none at returns
  change (Printer.print _ _ _ _ _).1.shown = (Printer.print _ _ _ _ _).1.buffer
  unfold Printer.print at returns ⊢
  dsimp only at returns ⊢
  split at returns
  · cases returns
  · rfl

namespace Sound

theorem printed (sound : editor.Sound) (text : Text) (fg bg : Option (Fin 16)) :
    (editor.call (.print text 1 fg bg)).Sound := by
  have proper := Printer.proper_print sound.inScreen text 1 fg bg
  refine ⟨proper.inScreen, fresh_print proper.returns, ?_, sound.lines⟩
  change (editor.threw || (editor.printer.operate _).2.isSome) = false
  rw [sound.returns, proper.returns]
  rfl

theorem print (sound : editor.Sound) (text : Text) : (editor.print text).Sound :=
  sound.printed text none none

theorem moveOffset (sound : editor.Sound) (offset : Int) : (editor.moveOffset offset).Sound := by
  refine ⟨Printer.inScreen_moveOffset _ _, sound.fresh, ?_, sound.lines⟩
  change (editor.threw || false) = false
  rw [sound.returns]
  rfl

theorem setText (sound : editor.Sound) (text : Text) : (editor.setText text).Sound :=
  ⟨sound.inScreen, sound.fresh, sound.returns, sound.lines⟩

theorem advance (sound : editor.Sound) (num : Int) : (editor.advance num).Sound :=
  ⟨sound.inScreen, sound.fresh, sound.returns, sound.lines⟩

theorem recalling (sound : editor.Sound) (position : Nat) :
    ({ editor with historyPosition := position } : LineEditor).Sound :=
  ⟨sound.inScreen, sound.fresh, sound.returns, sound.lines⟩

theorem printAll (sound : editor.Sound) (items : Text) : (editor.printAll items).Sound := by
  induction items generalizing editor with
  | nil => exact sound
  | cons item items ih => exact ih (sound.print [item])

theorem drawCursor (sound : editor.Sound) : editor.drawCursor.Sound :=
  (sound.printed _ _ _).moveOffset _

theorem removeCursor (sound : editor.Sound) : editor.removeCursor.Sound :=
  (sound.printed _ _ _).moveOffset _

theorem putChar (sound : editor.Sound) (char : Text) : (editor.putChar char).Sound := by
  have started := sound.removeCursor
  unfold LineEditor.putChar
  dsimp only
  split
  · exact (((started.setText _).print char).advance 1).drawCursor
  · exact ((((started.setText _).print char).printAll _).moveOffset _ |>.advance 1).drawCursor

theorem removeChar (sound : editor.Sound) : editor.removeChar.Sound := by
  have started := sound.removeCursor
  unfold LineEditor.removeChar
  split
  · dsimp only
    split
    · exact (((started.setText _).moveOffset _).advance _).drawCursor
    · exact ((((started.setText _).moveOffset _).printAll _).print _ |>.moveOffset _
        |>.advance _).drawCursor
  · exact sound

theorem moveCursorLeft (sound : editor.Sound) (num : Int) : (editor.moveCursorLeft num).Sound :=
  ((sound.removeCursor.advance _).moveOffset _).drawCursor

theorem moveCursorRight (sound : editor.Sound) (num : Int) : (editor.moveCursorRight num).Sound :=
  ((sound.removeCursor.advance _).moveOffset _).drawCursor

theorem removeCharRight (sound : editor.Sound) : editor.removeCharRight.Sound := by
  unfold LineEditor.removeCharRight
  split
  · exact (sound.removeCursor.moveCursorRight 1).removeChar.drawCursor
  · exact sound

theorem moveCursorStart (sound : editor.Sound) : editor.moveCursorStart.Sound := by
  unfold LineEditor.moveCursorStart
  dsimp only
  split
  · exact (sound.removeCursor.moveCursorLeft _).drawCursor
  · exact sound.removeCursor.drawCursor

theorem moveCursorEnd (sound : editor.Sound) : editor.moveCursorEnd.Sound := by
  unfold LineEditor.moveCursorEnd
  dsimp only
  split
  · exact (sound.removeCursor.moveCursorRight _).drawCursor
  · exact sound.removeCursor.drawCursor

theorem clearLoop (sound : editor.Sound) (count : Nat) : (clearLoop count editor).Sound := by
  induction count generalizing editor with
  | zero => exact sound
  | succ count ih =>
      unfold LineEditor.clearLoop
      split
      · exact ih sound.removeChar
      · exact sound

theorem clearInputBox (sound : editor.Sound) : editor.clearInputBox.Sound := by
  unfold LineEditor.clearInputBox
  dsimp only
  split
  · exact (sound.moveCursorRight _).clearLoop _
  · exact sound.clearLoop _

theorem append (sound : editor.Sound) (char : UInt16) : (editor.append char).Sound :=
  ((sound.setText _).print [char]).advance 1

theorem foldl_append (sound : editor.Sound) (text : Text) : (text.foldl LineEditor.append editor).Sound := by
  induction text generalizing editor with
  | nil => exact sound
  | cons char text ih => exact ih (sound.append char)

theorem setInputBox (sound : editor.Sound) (text : Text) : (editor.setInputBox text).Sound :=
  (sound.removeCursor.clearInputBox.foldl_append text).drawCursor

/-- **Every key** leaves the position in the screen, and throws nothing. -/
theorem addinput (sound : editor.Sound) (key : Key) : (editor.addinput key).Sound := by
  cases key with
  | kpleft => exact sound.moveCursorLeft 1
  | kpright => exact sound.moveCursorRight 1
  | kpup =>
      change editor.previous.Sound
      unfold previous
      split
      · exact (sound.recalling _).setInputBox _
      · exact sound
  | kpdown =>
      change editor.next.Sound
      unfold next
      split
      · exact (sound.recalling _).setInputBox _
      · exact sound
  | kphome => exact sound.moveCursorStart
  | kpend => exact sound.moveCursorEnd
  | character character => exact sound.putChar character
  | backspace => exact sound.removeChar
  | kpdel => exact sound.removeCharRight

end Sound

end LineEditor

end JsOS.Core.Tty
