import Mathlib.Data.List.Basic
import Mathlib.Data.Nat.Notation

/-! # The PS/2 keyboard

The interrupt handler reads a byte of scancode set 1. A prefix byte is to mark the next one as an
extended code, of the upper half of the key table. But the handler ends by clearing the mark in
each round, also in that of the prefix, so that no code is ever extended (`events_exact_iff`).
-/

namespace JsOS.Driver.Ps2.Keyboard

/-- The types of key events: `character`, and the names of the control keys. -/
inductive Key where
  | character | escape | backspace | tab | enter | leftctrl | leftshift | rightshift | leftalt
  | capslock | f1 | f2 | f3 | f4 | f5 | f6 | f7 | f8 | f9 | f10 | numlock | scrllock | kphome
  | kpup | kppageup | kpleft | kp5 | kpright | kpend | kpdown | kppagedown | kpinsert | kpdel
  | sysreq | f11 | f12 | rightctrl | kpslash | prntscrn | rightalt | home | up | pageup | left
  | right | endKey | down | pagedown | insert | del | leftsup | rightsup | menu
  deriving DecidableEq, Repr

/-- `controlKeys`, by code. The codes that are not listed are 0. -/
def controlKeys (code : ℕ) : Option Key :=
  match code with
  | 0x01 => some .escape
  | 0x0e => some .backspace
  | 0x0f => some .tab
  | 0x1c => some .enter
  | 0x1d => some .leftctrl
  | 0x2a => some .leftshift
  | 0x36 => some .rightshift
  | 0x38 => some .leftalt
  | 0x3a => some .capslock
  | 0x3b => some .f1
  | 0x3c => some .f2
  | 0x3d => some .f3
  | 0x3e => some .f4
  | 0x3f => some .f5
  | 0x40 => some .f6
  | 0x41 => some .f7
  | 0x42 => some .f8
  | 0x43 => some .f9
  | 0x44 => some .f10
  | 0x45 => some .numlock
  | 0x46 => some .scrllock
  | 0x47 => some .kphome
  | 0x48 => some .kpup
  | 0x49 => some .kppageup
  | 0x4b => some .kpleft
  | 0x4c => some .kp5
  | 0x4d => some .kpright
  | 0x4f => some .kpend
  | 0x50 => some .kpdown
  | 0x51 => some .kppagedown
  | 0x52 => some .kpinsert
  | 0x53 => some .kpdel
  | 0x54 => some .sysreq
  | 0x57 => some .f11
  | 0x58 => some .f12
  | 0x9c => some .enter
  | 0x9d => some .rightctrl
  | 0xb5 => some .kpslash
  | 0xb7 => some .prntscrn
  | 0xb8 => some .rightalt
  | 0xc7 => some .home
  | 0xc8 => some .up
  | 0xc9 => some .pageup
  | 0xcb => some .left
  | 0xcd => some .right
  | 0xcf => some .endKey
  | 0xd0 => some .down
  | 0xd1 => some .pagedown
  | 0xd2 => some .insert
  | 0xd3 => some .del
  | 0xdb => some .leftsup
  | 0xdc => some .rightsup
  | 0xdd => some .menu
  | _ => none

/-- The characters of the keys, by code. -/
def keymapNormal : List String :=
  ["", "", "1", "2", "3", "4", "5", "6", "7", "8", "9", "0", "-", "=", "", "\t",
    "q", "w", "e", "r", "t", "y", "u", "i", "o", "p", "[", "]", "\n", "", "a", "s",
    "d", "f", "g", "h", "j", "k", "l", ";", "'", "`", "", "\\", "z", "x", "c", "v",
    "b", "n", "m", ",", ".", "/", "", "", "", " ", "", "", "", "", "", "",
    "", "", "", "", "", "", "", "", "", "", "", "", "", "", "", "",
    "", "", "", "", "", "", "", "", ""]

def keymapShift : List String :=
  ["", "", "!", "@", "#", "$", "%", "^", "&", "*", "(", ")", "_", "+", "", "\t",
    "Q", "W", "E", "R", "T", "Y", "U", "I", "O", "P", "\x7b", "\x7d", "\n", "", "A", "S",
    "D", "F", "G", "H", "J", "K", "L", ":", "\"", "~", "", "|", "Z", "X", "C", "V",
    "B", "N", "M", "<", ">", "?", "", "", "", " ", "", "", "", "", "", "",
    "", "", "", "", "", "", "", "", "", "", "", "", "", "", "", "",
    "", "", "", "", "", "", "", "", ""]

def keymapCaps : List String :=
  ["", "", "1", "2", "3", "4", "5", "6", "7", "8", "9", "0", "-", "=", "", "\t",
    "Q", "W", "E", "R", "T", "Y", "U", "I", "O", "P", "[", "]", "\n", "", "A", "S",
    "D", "F", "G", "H", "J", "K", "L", ";", "'", "`", "", "\\", "Z", "X", "C", "V",
    "B", "N", "M", ",", ".", "/", "", "", "", " ", "", "", "", "", "", "",
    "", "", "", "", "", "", "", "", "", "", "", "", "", "", "", "",
    "", "", "", "", "", "", "", "", ""]

/-- `statuses`. The entry `cmd` is never read or written. -/
structure Statuses where
  leftshift : Bool := false
  rightshift : Bool := false
  leftctrl : Bool := false
  rightctrl : Bool := false
  leftalt : Bool := false
  rightalt : Bool := false
  capslock : Bool := false
  numlock : Bool := false
  scrllock : Bool := false
  deriving DecidableEq, Repr

/-- `keyinfo`, with the signal that it is dispatched to: `onKeydown` if pressed, else `onKeyup`. -/
structure KeyEvent where
  character : String
  type : Key
  alt : Bool
  shift : Bool
  ctrl : Bool
  pressed : Bool
  deriving DecidableEq, Repr

namespace Statuses

/-- The `switch` over the control keys. -/
def update (statuses : Statuses) (cmd : Key) (isPressed : Bool) : Statuses :=
  match cmd with
  | .leftalt => { statuses with leftalt := isPressed }
  | .rightalt => { statuses with rightalt := isPressed }
  | .leftctrl => { statuses with leftctrl := isPressed }
  | .rightctrl => { statuses with rightctrl := isPressed }
  | .leftshift => { statuses with leftshift := isPressed }
  | .rightshift => { statuses with rightshift := isPressed }
  | .capslock => if isPressed then { statuses with capslock := !statuses.capslock } else statuses
  | .numlock => if isPressed then { statuses with numlock := !statuses.numlock } else statuses
  | .scrllock => if isPressed then { statuses with scrllock := !statuses.scrllock } else statuses
  | _ => statuses

/-- The character of a code without a control key. The tables are shorter than 128, and past their
end it is empty. -/
def character (statuses : Statuses) (code : ℕ) : String :=
  if statuses.leftshift || statuses.rightshift then keymapShift.getD code ""
  else if statuses.capslock then keymapCaps.getD code ""
  else keymapNormal.getD code ""

/-- `keyinfo` for the statuses. -/
def keyinfo (statuses : Statuses) (character : String) (type : Key) (isPressed : Bool) : KeyEvent where
  character
  type
  alt := statuses.leftalt || statuses.rightalt
  shift := statuses.leftshift || statuses.rightshift
  ctrl := statuses.leftctrl || statuses.rightctrl
  pressed := isPressed

end Statuses

/-- `keyEvent`: the statuses afterwards, and what is dispatched. -/
def keyEvent (statuses : Statuses) (codeOpt : ℕ) (isPressed : Bool) : Statuses × KeyEvent :=
  let code := codeOpt % 0x80
  let cmd :=
    match controlKeys codeOpt with
    | some cmd => some cmd
    | none => controlKeys code
  match cmd with
  | none => (statuses, statuses.keyinfo (statuses.character code) .character isPressed)
  | some cmd =>
      let updated := statuses.update cmd isPressed
      (updated, updated.keyinfo "" cmd isPressed)

/-- The driver: the mark that the handler keeps, and the statuses. -/
structure Handler where
  escaped : Bool := false
  statuses : Statuses := {}
  deriving DecidableEq, Repr

/-- The interrupt handler, for the byte that it reads: the driver afterwards, and what is
dispatched. The mark is cleared at the end of every round. -/
def Handler.irq (driver : Handler) (code : UInt8) : Handler × Option KeyEvent :=
  if code = 0xe0 then
    let marked := { driver with escaped := true }
    ({ marked with escaped := false }, none)
  else
    let number := code.toNat
    let (statuses, event) :=
      if 0x80 ≤ number then
        if driver.escaped then keyEvent driver.statuses number false
        else keyEvent driver.statuses (number % 0x80) false
      else if driver.escaped then keyEvent driver.statuses (number + 0x80) true
      else keyEvent driver.statuses number true
    ({ statuses, escaped := false }, some event)

/-- The events of a stream of bytes, one interrupt for each. -/
def Handler.events (driver : Handler) : List UInt8 → List KeyEvent
  | [] => []
  | code :: later => (driver.irq code).2.toList ++ (driver.irq code).1.events later

/-! ## What is to be dispatched -/

/-- A key that was pressed or released. -/
structure Stroke where
  key : Key
  pressed : Bool
  deriving DecidableEq, Repr

/-- The key is held after some strokes, the last one first: its last stroke was a press. -/
def held : List Stroke → Key → Bool
  | [], _ => false
  | stroke :: earlier, key => if stroke.key = key then stroke.pressed else held earlier key

/-- The key was pressed an odd number of times. -/
def toggled : List Stroke → Key → Bool
  | [], _ => false
  | stroke :: earlier, key =>
      if stroke = ⟨key, true⟩ then !toggled earlier key else toggled earlier key

/-- One of two keys is held. -/
def eitherHeld (history : List Stroke) (first second : Key) : Bool :=
  held history first || held history second

/-- The key of a code; an extended one is looked up in the upper half first. -/
def keyOf (extended : Bool) (code : ℕ) : Key :=
  (((if extended then controlKeys (code + 0x80) else none).or (controlKeys code))).getD .character

/-- **The event of the last stroke.** -/
def strokeEvent (stroke : Stroke) (earlier : List Stroke) (code : ℕ) : KeyEvent :=
  let history := stroke :: earlier
  { character :=
      if stroke.key ≠ .character then ""
      else if eitherHeld history .leftshift .rightshift then keymapShift.getD code ""
      else if toggled history .capslock then keymapCaps.getD code ""
      else keymapNormal.getD code ""
    type := stroke.key
    alt := eitherHeld history .leftalt .rightalt
    shift := eitherHeld history .leftshift .rightshift
    ctrl := eitherHeld history .leftctrl .rightctrl
    pressed := stroke.pressed }

/-- The stroke of a byte: bit 7 distinguishes release from press. -/
def strokeOf (extended : Bool) (byte : UInt8) : Stroke :=
  ⟨keyOf extended (byte.toNat % 0x80), decide (byte.toNat < 0x80)⟩

/-- **The decoder that is meant**, after some strokes: 0xe0 marks the next byte as extended. -/
def reference (extended : Bool) (history : List Stroke) : List UInt8 → List KeyEvent
  | [] => []
  | byte :: later =>
      if byte = 0xe0 then reference true history later
      else
        let stroke := strokeOf extended byte
        strokeEvent stroke history (byte.toNat % 0x80) ::
          reference false (stroke :: history) later

/-- The byte stands for the same key as an extended code and as a plain one. -/
def SameKey (byte : UInt8) : Prop :=
  keyOf true (byte.toNat % 0x80) = keyOf false (byte.toNat % 0x80)

/-! ## The statuses are those of the strokes -/

/-- The statuses after some strokes. -/
def statusesAfter (history : List Stroke) : Statuses where
  leftshift := held history .leftshift
  rightshift := held history .rightshift
  leftctrl := held history .leftctrl
  rightctrl := held history .rightctrl
  leftalt := held history .leftalt
  rightalt := held history .rightalt
  capslock := toggled history .capslock
  numlock := toggled history .numlock
  scrllock := toggled history .scrllock

/-- **One stroke**: the switch sets the status of its key. -/
theorem update_statusesAfter (history : List Stroke) (key : Key) (pressed : Bool) :
    (statusesAfter history).update key pressed = statusesAfter (⟨key, pressed⟩ :: history) := by
  cases pressed <;> cases key <;> rfl

theorem controlKeys_ne_character (code : ℕ) : controlKeys code ≠ some .character := by
  unfold controlKeys
  split <;> decide

/-- **A plain code** gives the event of its stroke. -/
theorem keyEvent_plain (history : List Stroke) {code : ℕ} (plain : code < 0x80) (pressed : Bool) :
    keyEvent (statusesAfter history) code pressed =
      (statusesAfter (⟨keyOf false code, pressed⟩ :: history),
        strokeEvent ⟨keyOf false code, pressed⟩ history code) := by
  have key : keyOf false code = (controlKeys code).getD .character := rfl
  rw [← update_statusesAfter, keyEvent, Nat.mod_eq_of_lt plain, key]
  cases entry : controlKeys code with
  | none => rfl
  | some cmd =>
      have named : cmd ≠ .character := by
        rintro rfl
        exact controlKeys_ne_character code entry
      dsimp only [Option.getD_some]
      rw [update_statusesAfter]
      refine congrArg (Prod.mk _) ?_
      rw [strokeEvent, if_pos named]
      rfl

/-! ## The handler against the decoder -/

/-- The handler without a mark, after some strokes. -/
def handlerAfter (history : List Stroke) : Handler := ⟨false, statusesAfter history⟩

/-- The mark of a prefix does not stay. -/
theorem irq_prefix (history : List Stroke) :
    (handlerAfter history).irq 0xe0 = (handlerAfter history, none) := rfl

/-- **One interrupt**: any other byte is taken for a plain code. -/
theorem irq_code (history : List Stroke) {byte : UInt8} (other : byte ≠ 0xe0) :
    (handlerAfter history).irq byte =
      (handlerAfter (strokeOf false byte :: history),
        some (strokeEvent (strokeOf false byte) history (byte.toNat % 0x80))) := by
  have small : byte.toNat % 0x80 < 0x80 := Nat.mod_lt _ (by decide)
  rw [Handler.irq, if_neg other, handlerAfter]
  dsimp only
  by_cases released : 0x80 ≤ byte.toNat
  · have stroke : strokeOf false byte = ⟨keyOf false (byte.toNat % 0x80), false⟩ := by
      rw [strokeOf, decide_eq_false (Nat.not_lt.mpr released)]
    rw [if_pos released, if_neg Bool.false_ne_true, keyEvent_plain history small, stroke]
    rfl
  · have pressed := Nat.lt_of_not_le released
    have stroke : strokeOf false byte = ⟨keyOf false byte.toNat, true⟩ := by
      rw [strokeOf, decide_eq_true pressed, Nat.mod_eq_of_lt pressed]
    rw [if_neg released, if_neg Bool.false_ne_true, keyEvent_plain history pressed, stroke,
      Nat.mod_eq_of_lt pressed]
    rfl

/-- In the stream no byte behind a prefix means another key than without it. -/
def Unextended : Bool → List UInt8 → Prop
  | _, [] => True
  | extended, byte :: later =>
      if byte = 0xe0 then Unextended true later
      else (extended = true → SameKey byte) ∧ Unextended false later

theorem type_strokeEvent (stroke : Stroke) (earlier : List Stroke) (code : ℕ) :
    (strokeEvent stroke earlier code).type = stroke.key := rfl

/-- **The handler and the decoder from the same strokes on.** -/
theorem events_eq_reference_iff (history : List Stroke) (extended : Bool) (stream : List UInt8) :
    (handlerAfter history).events stream = reference extended history stream ↔
      Unextended extended stream := by
  induction stream generalizing history extended with
  | nil => exact iff_of_true rfl trivial
  | cons byte later ih =>
      rw [Handler.events, reference, Unextended]
      by_cases isPrefix : byte = 0xe0
      · rw [if_pos isPrefix, if_pos isPrefix, isPrefix, irq_prefix]
        exact ih history true
      · rw [if_neg isPrefix, if_neg isPrefix, irq_code history isPrefix]
        dsimp only [Option.toList_some, List.singleton_append]
        by_cases same : extended = true → SameKey byte
        · have stroke : strokeOf extended byte = strokeOf false byte := by
            cases extended with
            | false => rfl
            | true =>
                rw [strokeOf, strokeOf]
                exact congrArg (Stroke.mk · _) (same rfl)
          rw [stroke, and_iff_right same, List.cons_inj_right, ih]
        · -- the types of the first events differ
          refine iff_of_false (fun equal => same fun isExtended => ?_) fun both => same both.1
          have types := congrArg KeyEvent.type (List.cons.inj equal).1
          rw [type_strokeEvent, type_strokeEvent, isExtended] at types
          exact types.symm

/-- A byte that follows a prefix in the stream. -/
def Follows (stream : List UInt8) (byte : UInt8) : Prop := [0xe0, byte] <:+: stream

theorem follows_cons {first byte : UInt8} {stream : List UInt8} :
    Follows (first :: stream) byte ↔
      first = 0xe0 ∧ stream.head? = some byte ∨ Follows stream byte := by
  rw [Follows, List.infix_cons_iff, List.cons_prefix_cons]
  refine or_congr (and_congr eq_comm ?_) Iff.rfl
  cases stream with
  | nil =>
      refine iff_of_false (fun whole => ?_) (Option.some_ne_none byte).symm
      exact absurd whole.length_le (Nat.not_succ_le_zero 0)
  | cons second later =>
      rw [List.cons_prefix_cons, and_iff_left (List.nil_prefix), List.head?_cons,
        Option.some.injEq, eq_comm]

theorem unextended_iff (stream : List UInt8) (extended : Bool) :
    Unextended extended stream ↔
      ∀ byte ≠ 0xe0, extended = true ∧ stream.head? = some byte ∨ Follows stream byte →
        SameKey byte := by
  induction stream generalizing extended with
  | nil =>
      refine iff_of_true trivial fun byte _ follows => ?_
      rcases follows with ⟨-, none⟩ | whole
      · cases none
      · exact absurd whole.length_le (Nat.not_succ_le_zero 1)
  | cons first later ih =>
      rw [Unextended, List.head?_cons]
      simp only [follows_cons, Option.some.injEq]
      by_cases isPrefix : first = 0xe0
      · rw [if_pos isPrefix, ih true]
        refine forall₂_congr fun byte other => imp_congr_left ?_
        have notFirst : ¬(extended = true ∧ first = byte) :=
          fun both => other (both.2.symm.trans isPrefix)
        rw [or_iff_right notFirst]
        exact or_congr (and_congr_left' (iff_of_true rfl isPrefix)) Iff.rfl
      · rw [if_neg isPrefix, ih false]
        constructor
        · rintro ⟨same, rest⟩ byte other (⟨marked, rfl⟩ | ⟨marked, -⟩ | follows)
          · exact same marked
          · exact absurd marked isPrefix
          · exact rest byte other (.inr follows)
        · intro all
          refine ⟨fun marked => all first isPrefix (.inl ⟨marked, rfl⟩), ?_⟩
          rintro byte other (⟨absurd_, -⟩ | follows)
          · cases absurd_
          · exact all byte other (.inr (.inr follows))

/-- **The keyboard is decoded as it is meant exactly for the streams in which no prefix makes a
difference**: no byte directly behind one stands for another key as an extended code than as a
plain one. -/
theorem events_exact_iff (stream : List UInt8) :
    Handler.events {} stream = reference false [] stream ↔
      ∀ byte ≠ 0xe0, Follows stream byte → SameKey byte := by
  refine (events_eq_reference_iff [] false stream).trans ((unextended_iff stream false).trans ?_)
  refine forall₂_congr fun byte other => imp_congr_left ?_
  exact or_iff_right fun both => Bool.false_ne_true both.1

/-- The right control key is taken for the left one. -/
theorem rightctrl_not_exact :
    (Handler.events {} [0xe0, 0x1d]).map KeyEvent.type = [.leftctrl] ∧
      (reference false [] [0xe0, 0x1d]).map KeyEvent.type = [.rightctrl] ∧
      Handler.events {} [0xe0, 0x1d] ≠ reference false [] [0xe0, 0x1d] := by
  have handled : (Handler.events {} [0xe0, 0x1d]).map KeyEvent.type = [.leftctrl] := by decide
  have meant : (reference false [] [0xe0, 0x1d]).map KeyEvent.type = [.rightctrl] := by decide
  refine ⟨handled, meant, fun same => ?_⟩
  rw [same, meant] at handled
  exact absurd handled (by decide)

end JsOS.Driver.Ps2.Keyboard
