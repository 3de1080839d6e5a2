import JsOS.Core.Tty.Cursor

/-! # The line editor

`LineEditor` keeps the text of a line and the position of its cursor in it, and writes to the
printer whatever a key changes. The history of lines is shared by all editors (`persistence.Editor`).
The keys are those of `readLine` that edit: enter ends the reading, and the keys for paging scroll
the screen, which the editor has no part in. Messages to the log go to none of its levels.

What is meant by editing is a text with a cursor (`TextBuffer`).
-/

namespace JsOS.Core.Tty

/-- A string: its UTF-16 units. -/
abbrev Text := List UInt16

/-- How `slice` reads an index: negative indices count from the end, and every index is clamped to
the text. -/
def sliceIndex (length : Nat) (index : Int) : Nat :=
  if index < 0 then (length + index).toNat else min index.toNat length

/-- `text.slice(0, last)`. -/
def sliceTo (text : Text) (last : Int) : Text := text.take (sliceIndex text.length last)

/-- `text.slice(first)`. -/
def sliceFrom (text : Text) (first : Int) : Text := text.drop (sliceIndex text.length first)

/-- `color.LIGHTGREEN`. -/
def LIGHTGREEN : Fin 16 := ⟨10, by decide⟩

/-! ## Scrolling -/

/-- Whether a round of the inner loop of `print` scrolls. -/
def Printing.scrolls (printing : Printing) (symbols : UInt16 × UInt16) : Bool :=
  printing.thrown.isNone &&
    (Printer.useControls symbols.2 symbols.1 printing.fg printing.bg).isNone &&
    decide ((if symbols.2 = 0x0A then
      printing.printer.posCurrent - (Int.tmod printing.printer.posCurrent w - w)
    else printing.printer.posCurrent) ≥ (w * h : Int))

/-- Whether one of the rounds scrolls. -/
def Printing.anyScrolls : Printing → List (UInt16 × UInt16) → Bool
  | _, [] => false
  | printing, symbols :: later =>
      printing.scrolls symbols || anyScrolls (Printer.printSymbol printing symbols) later

/-- Whether an operation scrolls the screen. -/
def Printer.scrolls (printer : Printer) : Operation → Bool
  | .print text repeat_ fg bg =>
      Printing.anyScrolls ⟨printer, fg.getD WHITE, bg.getD BLACK, none⟩
        (List.replicate repeat_ (withPrevious text)).flatten
  | .scrollUp | .scrollDown => true
  | _ => false

/-! ## The editor -/

/-- A `LineEditor`, the history that it reads and the printer that it writes to. Two fields record
what has happened: whether the screen has scrolled since the start of the input, and whether a print
has thrown. -/
structure LineEditor where
  inputText : Text
  inputPosition : Int
  history : List Text
  historyPosition : Nat
  printer : Printer
  scrolled : Bool
  threw : Bool

namespace LineEditor

/-- A call of the printer. -/
def call (editor : LineEditor) (operation : Operation) : LineEditor :=
  { editor with
    printer := editor.printer.step operation
    scrolled := editor.scrolled || editor.printer.scrolls operation
    threw := editor.threw || (editor.printer.operate operation).2.isSome }

/-- `printer.print(text)`. -/
def print (editor : LineEditor) (text : Text) : LineEditor := editor.call (.print text 1 none none)

/-- `printer.moveOffset(offset)`. -/
def moveOffset (editor : LineEditor) (offset : Int) : LineEditor := editor.call (.moveOffset offset)

/-- Print each item on its own. -/
def printAll (editor : LineEditor) (items : Text) : LineEditor :=
  items.foldl (fun editor item => editor.print [item]) editor

/-- Assign `inputText`. -/
def setText (editor : LineEditor) (text : Text) : LineEditor := { editor with inputText := text }

/-- Add to `inputPosition`. -/
def advance (editor : LineEditor) (num : Int) : LineEditor :=
  { editor with inputPosition := editor.inputPosition + num }

/-- The character under the cursor, a blank behind the text. An index before the text reads
`undefined`, which prints nothing. -/
def cursorText (editor : LineEditor) : Text :=
  if editor.inputPosition < editor.inputText.length then
    if editor.inputPosition < 0 then [] else editor.inputText[editor.inputPosition.toNat]?.toList
  else [0x20]

/-- `drawCursor`. -/
def drawCursor (editor : LineEditor) : LineEditor :=
  (editor.call (.print editor.cursorText 1 (some WHITE) (some LIGHTGREEN))).moveOffset (-1)

/-- `removeCursor`. -/
def removeCursor (editor : LineEditor) : LineEditor :=
  (editor.call (.print editor.cursorText 1 (some WHITE) (some BLACK))).moveOffset (-1)

/-- `putChar`. -/
def putChar (char : Text) (editor : LineEditor) : LineEditor :=
  let editor := editor.removeCursor
  let editor :=
    if editor.inputPosition ≥ editor.inputText.length then
      (editor.setText (editor.inputText ++ char)).print char
    else
      let rightSide := sliceFrom editor.inputText editor.inputPosition
      let text := sliceTo editor.inputText editor.inputPosition ++ char ++ rightSide
      (((editor.setText text).print char).printAll rightSide).moveOffset (-rightSide.length)
  (editor.advance 1).drawCursor

/-- `removeChar`. -/
def removeChar (editor : LineEditor) : LineEditor :=
  if editor.inputPosition > 0 then
    let editor := editor.removeCursor
    let editor :=
      if editor.inputPosition ≥ editor.inputText.length then
        (editor.setText (sliceTo editor.inputText (-1))).moveOffset (-1)
      else
        let rightSide := sliceFrom editor.inputText editor.inputPosition
        let text := sliceTo editor.inputText (editor.inputPosition - 1) ++ rightSide
        ((((editor.setText text).moveOffset (-1)).printAll rightSide).print [0x20]).moveOffset
          (-rightSide.length - 1)
    (editor.advance (-1)).drawCursor
  else editor

/-- `moveCursorLeft`. -/
def moveCursorLeft (num : Int) (editor : LineEditor) : LineEditor :=
  let num := if editor.inputPosition - 3 < 0 then editor.inputPosition else num
  ((editor.removeCursor.advance (-num)).moveOffset (-num)).drawCursor

/-- `moveCursorRight`. -/
def moveCursorRight (num : Int) (editor : LineEditor) : LineEditor :=
  let num :=
    if editor.inputPosition + num ≥ editor.inputText.length then
      editor.inputText.length - editor.inputPosition
    else num
  ((editor.removeCursor.advance num).moveOffset num).drawCursor

/-- `removeCharRight`. -/
def removeCharRight (editor : LineEditor) : LineEditor :=
  if editor.inputPosition < editor.inputText.length then
    (editor.removeCursor.moveCursorRight 1).removeChar.drawCursor
  else editor

/-- `moveCursorStart`. -/
def moveCursorStart (editor : LineEditor) : LineEditor :=
  let editor := editor.removeCursor
  (if editor.inputPosition > 0 then editor.moveCursorLeft editor.inputPosition
    else editor).drawCursor

/-- `moveCursorEnd`. -/
def moveCursorEnd (editor : LineEditor) : LineEditor :=
  let editor := editor.removeCursor
  (if editor.inputPosition < editor.inputText.length then
    editor.moveCursorRight editor.inputText.length else editor).drawCursor

/-- The loop of `clearInputBox`. Every round takes one from the position, so that it has as many
rounds as the position says. -/
def clearLoop : (count : Nat) → LineEditor → LineEditor
  | 0, editor => editor
  | count + 1, editor =>
      if editor.inputPosition > 0 then clearLoop count editor.removeChar else editor

/-- `clearInputBox`. -/
def clearInputBox (editor : LineEditor) : LineEditor :=
  let editor :=
    if editor.inputPosition < editor.inputText.length then
      editor.moveCursorRight editor.inputText.length
    else editor
  clearLoop editor.inputPosition.toNat editor

/-- A round of the loop of `setInputBox`. -/
def append (editor : LineEditor) (char : UInt16) : LineEditor :=
  ((editor.setText (editor.inputText ++ [char])).print [char]).advance 1

/-- `setInputBox`. -/
def setInputBox (text : Text) (editor : LineEditor) : LineEditor :=
  (text.foldl append editor.removeCursor.clearInputBox).drawCursor

/-- A line of the history; there is an empty one behind the last. -/
def line (editor : LineEditor) (position : Nat) : Text := editor.history[position]?.getD []

/-- `previous`. -/
def previous (editor : LineEditor) : LineEditor :=
  if editor.historyPosition > 0 then
    { editor with historyPosition := editor.historyPosition - 1 }.setInputBox
      (editor.line (editor.historyPosition - 1))
  else editor

/-- `next`. -/
def next (editor : LineEditor) : LineEditor :=
  if editor.historyPosition < editor.history.length then
    { editor with historyPosition := editor.historyPosition + 1 }.setInputBox
      (editor.line (editor.historyPosition + 1))
  else editor

end LineEditor

/-! ## Keys -/

/-- The keys that edit. The driver calls every other key a character, also one that has no
character; then it is the empty string. -/
inductive Key where
  | kpleft
  | kpright
  | kpup
  | kpdown
  | kphome
  | kpend
  | character (character : Text)
  | backspace
  | kpdel
  deriving DecidableEq, Repr

namespace LineEditor

/-- `addinput`. -/
def addinput (editor : LineEditor) : Key → LineEditor
  | .kpleft => editor.moveCursorLeft 1
  | .kpright => editor.moveCursorRight 1
  | .kpup => editor.previous
  | .kpdown => editor.next
  | .kphome => editor.moveCursorStart
  | .kpend => editor.moveCursorEnd
  | .character character => editor.putChar character
  | .backspace => editor.removeChar
  | .kpdel => editor.removeCharRight

/-- `readLine`: a new editor draws its cursor, and the input starts there. -/
def readLine (printer : Printer) (history : List Text) (historyPosition : Nat) : LineEditor :=
  { (drawCursor ⟨[], 0, history, historyPosition, printer, false, false⟩) with scrolled := false }

end LineEditor

/-! ## What is meant -/

/-- A text and a cursor in it. -/
structure TextBuffer where
  text : Text
  cursor : Nat
  inside : cursor ≤ text.length

namespace TextBuffer

/-- No text. -/
def empty : TextBuffer := ⟨[], 0, Nat.le_refl _⟩

/-- What a key does to the text; a key of the history gives the line that it recalls. -/
def edit (buffer : TextBuffer) (recalled : Option Text) : Key → TextBuffer
  | .character character =>
      ⟨buffer.text.take buffer.cursor ++ character ++ buffer.text.drop buffer.cursor,
        buffer.cursor + character.length, by
          have inside := buffer.inside
          simp only [List.length_append, List.length_take, List.length_drop]
          omega⟩
  | .backspace =>
      ⟨buffer.text.take (buffer.cursor - 1) ++ buffer.text.drop buffer.cursor, buffer.cursor - 1, by
          have inside := buffer.inside
          simp only [List.length_append, List.length_take, List.length_drop]
          omega⟩
  | .kpdel =>
      ⟨buffer.text.take buffer.cursor ++ buffer.text.drop (buffer.cursor + 1), buffer.cursor, by
          have inside := buffer.inside
          simp only [List.length_append, List.length_take, List.length_drop]
          omega⟩
  | .kpleft => ⟨buffer.text, buffer.cursor - 1, (Nat.sub_le _ _).trans buffer.inside⟩
  | .kpright => ⟨buffer.text, min (buffer.cursor + 1) buffer.text.length, Nat.min_le_right _ _⟩
  | .kphome => ⟨buffer.text, 0, Nat.zero_le _⟩
  | .kpend => ⟨buffer.text, buffer.text.length, Nat.le_refl _⟩
  | .kpup | .kpdown => recalled.elim buffer fun text => ⟨text, text.length, Nat.le_refl _⟩

end TextBuffer

namespace LineEditor

/-- The line that a key recalls from the history, if there is one in its direction. -/
def recalled (editor : LineEditor) : Key → Option Text
  | .kpup =>
      if editor.historyPosition > 0 then some (editor.line (editor.historyPosition - 1)) else none
  | .kpdown =>
      if editor.historyPosition < editor.history.length then
        some (editor.line (editor.historyPosition + 1))
      else none
  | _ => none

/-- The editor has the text and the cursor of the buffer. -/
def Holds (editor : LineEditor) (buffer : TextBuffer) : Prop :=
  editor.inputText = buffer.text ∧ editor.inputPosition = buffer.cursor

end LineEditor

/-- The characters shown from a place on. -/
def Printer.shownFrom (printer : Printer) (start : Nat) : List UInt8 :=
  (List.ofFn fun place => (printer.shown place).char).drop start

namespace LineEditor

/-- From the start of the input on, the screen shows the text and a blank behind it, and the
printer's position is that of the cursor. -/
structure Displays (start : Nat) (editor : LineEditor) : Prop where
  cells : editor.inputText.map UInt16.toUInt8 ++ [0x20] <+: editor.printer.shownFrom start
  position : editor.printer.posCurrent = start + editor.inputPosition

/-- **A key edits the text**: the editor holds a text with a cursor before, and what the key makes of
it after; nothing is thrown; and as long as nothing has scrolled the screen shows it. -/
structure Refines (start : Nat) (editor : LineEditor) (key : Key) : Prop where
  edits : ∃ buffer, editor.Holds buffer ∧
    (editor.addinput key).Holds (buffer.edit (editor.recalled key) key)
  returns : (editor.addinput key).threw = false
  displays : (editor.addinput key).scrolled = false → (editor.addinput key).Displays start

/-- What the driver passes as the character of a key: at most one, which can be printed. -/
def Typed : Key → Prop
  | .character character =>
      character.length ≤ 1 ∧ ∀ unit ∈ character, 0x20 ≤ unit.toNat ∧ unit.toNat < 0x7F
  | _ => True

/-- The line without its escape symbols, which are not shown. -/
def visible (text : Text) : Text := text.filter fun unit => unit ≠ 0x1B

/-- **The key does not meet a gap.** The left key is not pressed behind the second character, a key
has a character, a character that is inserted before others has a blank two places behind the text
to move the text into, and a recalled line that fits the screen has no escape symbol. -/
def Regular (start : Nat) (editor : LineEditor) (key : Key) : Prop :=
  (key = .kpleft → editor.inputPosition ≠ 2) ∧
  (∀ character, key = .character character → character ≠ [] ∧
    (editor.scrolled = false → editor.inputPosition < editor.inputText.length →
      (editor.printer.shownFrom start)[editor.inputText.length + 1]? = some 0x20)) ∧
  (∀ text, editor.recalled key = some text → editor.scrolled = false →
    start + (visible text).length < w * h → 0x1B ∉ text)

end LineEditor

end JsOS.Core.Tty
