import JsOS.Library.Run
import Mathlib.Data.BitVec
import Mathlib.Logic.Function.Basic

/-! # The printer

The text screen of 25 lines of 80 cells, and the printer that writes to it. Its position is one
integer: a cell of the screen, or the one behind the last, where the next character makes the screen
scroll. What is meant by printing is a page without end, of which the screen shows a part.
-/

namespace JsOS.Core.Tty

/-! ## The screen -/

/-- `WIDTH`. -/
def w : Nat := 80

/-- `HEIGHT`. -/
def h : Nat := 25

/-- A cell: the byte of a character, and that of its colors. -/
structure Cell where
  char : UInt8
  color : UInt8
  deriving DecidableEq, Repr

/-- `getColor`. -/
def getColor (fg bg : Fin 16) : UInt8 := UInt8.ofNat (bg.val * 16 + fg.val)

/-- `color.BLACK`. -/
def BLACK : Fin 16 := 0

/-- `color.WHITE`. -/
def WHITE : Fin 16 := 15

/-- A cell without a character. -/
def blank (bg : Fin 16) : Cell := ⟨0x20, getColor bg bg⟩

/-- The cells of a `VGABuffer`. -/
abbrev VGABuffer := Fin (w * h) → Cell

/-- `setCharOffset`; outside the screen it throws. A character is written as the low byte of its
code. -/
def setCharOffset (b : VGABuffer) (offset : Int) (char : UInt16) (fg bg : Fin 16) :
    Except String VGABuffer :=
  if offset < 0 ∨ offset ≥ (w * h : Int) then .error "vga error: offset is out of bounds"
  else .ok fun place =>
    if (place.val : Int) = offset then ⟨char.toUInt8, getColor fg bg⟩ else b place

/-- `VGABuffer.scrollUp`. -/
def VGABuffer.scrollUp (b : VGABuffer) (bg : Fin 16) : VGABuffer := fun place =>
  if below : place.val + w < w * h then b ⟨place.val + w, below⟩ else blank bg

/-- `VGABuffer.clear`. -/
def VGABuffer.clear (bg : Fin 16) : VGABuffer := fun _ => blank bg

/-! ## The printer -/

/-- The buffer, what is shown of it, and the position. -/
structure Printer where
  buffer : VGABuffer
  shown : VGABuffer
  posCurrent : Int

/-- What a print has come to: its colors change with control symbols, and it may have thrown. -/
structure Printing where
  printer : Printer
  fg : Fin 16
  bg : Fin 16
  thrown : Option String

namespace Printer

/-- The constructor clears the screen. -/
def start : Printer := ⟨VGABuffer.clear BLACK, VGABuffer.clear BLACK, 0⟩

/-- `refresh`. -/
def refresh (printer : Printer) : Printer := { printer with shown := printer.buffer }

/-- `scrollUp`. -/
def scrollUp (printer : Printer) : Printer :=
  { printer with
    buffer := VGABuffer.scrollUp printer.buffer BLACK
    posCurrent := printer.posCurrent - w }

/-- `scrollDown`. The buffer's own is not implemented. -/
def scrollDown (printer : Printer) : Printer :=
  { printer with posCurrent := printer.posCurrent - w }

/-- `clear`. -/
def clear (printer : Printer) (color : Fin 16) : Printer :=
  refresh { printer with buffer := VGABuffer.clear color, posCurrent := 0 }

/-- `useControls`: the colors after a control symbol, which is the escape symbol or the one that
follows it. -/
def useControls (symbol prevsymbol : UInt16) (fg bg : Fin 16) : Option (Fin 16 × Fin 16) :=
  if foreground : symbol.toNat < 0x10 ∧ prevsymbol = 0x1B then some (⟨symbol.toNat, foreground.1⟩, bg)
  else if background : symbol.toNat - 0x10 < 0x10 ∧ 0x10 ≤ symbol.toNat ∧ prevsymbol = 0x1B then
    some (fg, ⟨symbol.toNat - 0x10, background.1⟩)
  else if symbol = 0x1B then some (fg, bg)
  else none

/-- A character that is not a control symbol. -/
def put (printing : Printing) (c : UInt16) : Printing :=
  let printer := printing.printer
  if c = 0x0A then
    let moved := { printer with
      posCurrent := printer.posCurrent - (Int.tmod printer.posCurrent w - w) }
    { printing with printer := if moved.posCurrent ≥ (w * h : Int) then moved.scrollUp else moved }
  else
    let room := if printer.posCurrent ≥ (w * h : Int) then printer.scrollUp else printer
    match setCharOffset room.buffer room.posCurrent c printing.fg printing.bg with
    | .ok buffer =>
        { printing with printer := { room with buffer, posCurrent := room.posCurrent + 1 } }
    | .error message =>
        { printing with
          printer := { room with posCurrent := room.posCurrent + 1 }
          thrown := some message }

/-- A round of the inner loop of `print`, with the symbol before. -/
def printSymbol (printing : Printing) (symbols : UInt16 × UInt16) : Printing :=
  if printing.thrown.isSome then printing
  else
    match useControls symbols.2 symbols.1 printing.fg printing.bg with
    | some (fg, bg) => { printing with fg, bg }
    | none => put printing symbols.2

/-- The symbols of a text, each with the one before. -/
def withPrevious (text : List UInt16) : List (UInt16 × UInt16) := (0 :: text).zip text

/-- The loops of `print`. -/
def printLoop (printer : Printer) (text : List UInt16) (repeat_ : Nat) (fg bg : Fin 16) :
    Printing :=
  (List.replicate repeat_ (withPrevious text)).flatten.foldl printSymbol ⟨printer, fg, bg, none⟩

/-- `print`. Without an error the screen is refreshed. -/
def print (printer : Printer) (text : List UInt16) (repeat_ : Nat) (fg bg : Fin 16) :
    Printer × Option String :=
  let printing := printLoop printer text repeat_ fg bg
  match printing.thrown with
  | some message => (printing.printer, some message)
  | none => (printing.printer.refresh, none)

/-- A number as a signed 32-bit integer: `| 0`. -/
def toInt32 (number : Int) : Int := Int.bmod number (2 ^ 32)

/-- `moveOffset`. -/
def moveOffset (printer : Printer) (offsetOpt : Int) : Printer :=
  let newPos := printer.posCurrent + toInt32 offsetOpt
  let newPos := if newPos < 0 then 0 else newPos
  { printer with posCurrent := if newPos ≥ (w * h : Int) then (w * h : Int) - 1 else newPos }

/-- `moveTo`. -/
def moveTo (printer : Printer) (xOpt yOpt : Int) : Printer :=
  let x := if xOpt < 0 then 0 else xOpt
  let x := if x ≥ (w : Int) then (w : Int) - 1 else x
  let y := if yOpt < 0 then 0 else yOpt
  let y := if y ≥ (h : Int) then (h : Int) - 1 else y
  { printer with posCurrent := y * w + x }

end Printer

/-- The operations; the keys for paging scroll. -/
inductive Operation where
  | print (text : List UInt16) (repeat_ : Nat) (fg bg : Option (Fin 16))
  | moveOffset (offset : Int)
  | moveTo (x y : Int)
  | clear (color : Fin 16)
  | scrollUp
  | scrollDown
  deriving DecidableEq, Repr

namespace Printer

/-- The effect of an operation, and the error that it throws. -/
def operate (printer : Printer) : Operation → Printer × Option String
  | .print text repeat_ fg bg => printer.print text repeat_ (fg.getD WHITE) (bg.getD BLACK)
  | .moveOffset offset => (printer.moveOffset offset, none)
  | .moveTo x y => (printer.moveTo x y, none)
  | .clear color => (printer.clear color, none)
  | .scrollUp => (printer.scrollUp, none)
  | .scrollDown => (printer.scrollDown, none)

def step (printer : Printer) (operation : Operation) : Printer := (printer.operate operation).1

end Printer

/-! ## What is meant -/

/-- A page without end, the place on it where the next character goes, and the lines at its top that
are no longer shown. -/
structure Layout where
  page : Nat → Cell
  next : Nat
  top : Nat

namespace Layout

/-- The layout of what is shown: below the screen the page is blank. -/
def ofScreen (b : VGABuffer) (position : Nat) : Layout where
  page := fun place => if inside : place < w * h then b ⟨place, inside⟩ else blank BLACK
  next := position
  top := 0

/-- The page scrolls by a line if the next place is below what is shown. -/
def scroll (layout : Layout) : Layout :=
  if layout.next ≥ w * (layout.top + h) then { layout with top := layout.top + 1 } else layout

/-- A character is put at the next place, which must be shown; a newline goes on to the next
line. -/
def put (fg bg : Fin 16) (layout : Layout) (c : UInt16) : Layout :=
  if c = 0x0A then scroll { layout with next := w * (layout.next / w + 1) }
  else
    let room := layout.scroll
    { room with
      page := Function.update room.page room.next ⟨c.toUInt8, getColor fg bg⟩
      next := room.next + 1 }

/-- What the screen shows of the page. -/
def screen (layout : Layout) : VGABuffer := fun place => layout.page (w * layout.top + place.val)

end Layout

namespace Printer

/-- The position is in the screen or right behind it. -/
def InScreen (printer : Printer) : Prop := 0 ≤ printer.posCurrent ∧ printer.posCurrent ≤ (w * h : Int)

/-- A print of a text without control symbols lays out its characters from the position on. -/
def LaysOut (printer : Printer) : Operation → Prop
  | .print text repeat_ fg bg => 0x1B ∉ text → ∀ position : Nat, printer.posCurrent = position →
      let layout := (List.replicate repeat_ text).flatten.foldl
        (Layout.put (fg.getD WHITE) (bg.getD BLACK)) (.ofScreen printer.buffer position)
      (printer.step (.print text repeat_ fg bg)).shown = layout.screen ∧
        (printer.step (.print text repeat_ fg bg)).buffer = layout.screen ∧
        (printer.step (.print text repeat_ fg bg)).posCurrent = layout.next - w * layout.top
  | _ => True

/-- **An operation is proper**: it leaves the position in the screen, does not throw, and lays out
what is printed. -/
structure Proper (printer : Printer) (operation : Operation) : Prop where
  inScreen : (printer.step operation).InScreen
  returns : (printer.operate operation).2 = none
  laysOut : printer.LaysOut operation

/-- The keys for paging are pressed only where there is a line above the position. -/
def Below (printer : Printer) : Operation → Prop
  | .scrollUp => (w : Int) ≤ printer.posCurrent
  | .scrollDown => (w : Int) ≤ printer.posCurrent
  | _ => True

end Printer

end JsOS.Core.Tty
