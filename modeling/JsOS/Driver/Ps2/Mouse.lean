import Mathlib.Data.BitVec

/-! # The PS/2 mouse

Three interrupts bring the bytes of a packet, and `processPacket` compares its buttons with those
recorded. One chain of alternatives does this for all three buttons, so that a packet changes one
of them at most. The movement is nine bits, but only the lower eight are asked for zero
(`reportsEach_iff`).
-/

namespace JsOS.Driver.Ps2.Mouse

/-- `flags`: the recorded buttons. -/
structure Buttons where
  middle : Bool := false
  right : Bool := false
  left : Bool := false
  deriving DecidableEq, Repr

/-- What is dispatched, through `setImmediate`, which keeps the order. The buttons are 0 for the
left one, 1 for the middle one and 2 for the right one. -/
inductive MouseEvent where
  | mousedown (button : Fin 3)
  | mouseup (button : Fin 3)
  | mousemove (x y : ℤ)
  deriving DecidableEq, Repr

/-- `splitByte`: the bits, the highest first. -/
def splitByte (byte : UInt8) : List Bool := [7, 6, 5, 4, 3, 2, 1, 0].map byte.toNat.testBit

/-- `info`. The overflow bits are not looked at. -/
structure Info where
  ySign : Bool
  xSign : Bool
  alwaysOne : Bool
  buttons : Buttons
  xOffset : UInt8
  yOffset : UInt8
  deriving DecidableEq

/-- The three bytes of a packet. -/
structure Packet where
  status : UInt8
  xOffset : UInt8
  yOffset : UInt8
  deriving DecidableEq, Repr

def Packet.bytes (packet : Packet) : List UInt8 := [packet.status, packet.xOffset, packet.yOffset]

/-- The fields of a packet. -/
def Packet.info (packet : Packet) : Info :=
  let split := splitByte packet.status
  { ySign := split.getD 2 false
    xSign := split.getD 3 false
    alwaysOne := split.getD 4 false
    buttons :=
      { middle := split.getD 5 false
        right := split.getD 6 false
        left := split.getD 7 false }
    xOffset := packet.xOffset
    yOffset := packet.yOffset }

/-- The chain of alternatives over the buttons. -/
def changeButtons (flags buttons : Buttons) : Buttons × List MouseEvent :=
  if flags.middle && !buttons.middle then ({ flags with middle := false }, [.mouseup 1])
  else if !flags.middle && buttons.middle then ({ flags with middle := true }, [.mousedown 1])
  else if flags.right && !buttons.right then ({ flags with right := false }, [.mouseup 2])
  else if !flags.right && buttons.right then ({ flags with right := true }, [.mousedown 2])
  else if flags.left && !buttons.left then ({ flags with left := false }, [.mouseup 0])
  else if !flags.left && buttons.left then ({ flags with left := true }, [.mousedown 0])
  else (flags, [])

/-- `sign ? offset | 0xffffff00 : offset`. -/
def extend (sign : Bool) (offset : UInt8) : ℤ :=
  if sign then (BitVec.ofNat 32 offset.toNat ||| 0xffffff00).toInt else offset.toNat

/-- The move that is dispatched. -/
def moveEvents (info : Info) : List MouseEvent :=
  if info.xOffset ≠ 0 ∨ info.yOffset ≠ 0 then
    [.mousemove (extend info.xSign info.xOffset) (extend info.ySign info.yOffset)]
  else []

/-- `processPacket`. -/
def processPacket (flags : Buttons) (packet : Packet) : Buttons × List MouseEvent :=
  let info := packet.info
  if !info.alwaysOne then (flags, [])
  else
    let changed := changeButtons flags info.buttons
    (changed.1, changed.2 ++ moveEvents info)

/-- The driver: the bytes of the packet so far, of which `cycle` is the number, and the flags. -/
structure Handler where
  packet : List UInt8 := []
  flags : Buttons := {}
  deriving DecidableEq, Repr

/-- The interrupt handler, for the byte that it reads. With the third byte the packet is
processed. -/
def Handler.irq (driver : Handler) (byte : UInt8) : Handler × List MouseEvent :=
  match driver.packet with
  | [] => ({ driver with packet := [byte] }, [])
  | [first] => ({ driver with packet := [first, byte] }, [])
  | first :: second :: _ =>
      let (flags, events) := processPacket driver.flags ⟨first, second, byte⟩
      ({ packet := [], flags }, events)

/-- The handler after some bytes, and what was dispatched. -/
def Handler.run (driver : Handler) : List UInt8 → Handler × List MouseEvent
  | [] => (driver, [])
  | byte :: later =>
      let rest := (driver.irq byte).1.run later
      (rest.1, (driver.irq byte).2 ++ rest.2)

/-! ## What is to be reported -/

/-- The button with a number is down. -/
def Buttons.isDown (buttons : Buttons) (button : Fin 3) : Bool :=
  match button with
  | 0 => buttons.left
  | 1 => buttons.middle
  | 2 => buttons.right

/-- The signed number of nine bits. -/
def signed (sign : Bool) (offset : UInt8) : ℤ := offset.toNat - if sign then 256 else 0

/-- The moves among some events. -/
def movesOf (events : List MouseEvent) : List (ℤ × ℤ) :=
  events.filterMap fun event =>
    match event with
    | .mousemove x y => some (x, y)
    | _ => none

/-- **A packet is reported**: the flags are its buttons, each button that changed has one event and
the others have none, and the movement is dispatched if there is one. -/
structure Reported (before : Buttons) (info : Info) (after : Buttons) (events : List MouseEvent) :
    Prop where
  flags : after = info.buttons
  downs : ∀ button, events.count (.mousedown button) =
    if !before.isDown button && info.buttons.isDown button then 1 else 0
  ups : ∀ button, events.count (.mouseup button) =
    if before.isDown button && !info.buttons.isDown button then 1 else 0
  moves : movesOf events =
    if signed info.xSign info.xOffset ≠ 0 ∨ signed info.ySign info.yOffset ≠ 0 then
      [(signed info.xSign info.xOffset, signed info.ySign info.yOffset)]
    else []

/-- Each of some packets is reported. -/
def ReportsEach (driver : Handler) : List Packet → Prop
  | [] => True
  | packet :: later =>
      Reported driver.flags packet.info (driver.run packet.bytes).1.flags
          (driver.run packet.bytes).2 ∧
        ReportsEach (driver.run packet.bytes).1 later

/-- At most one button changes. -/
def OneChange (before after : Buttons) : Prop :=
  (before.middle != after.middle).toNat + (before.right != after.right).toNat +
    (before.left != after.left).toNat ≤ 1

instance (before after : Buttons) : Decidable (OneChange before after) :=
  inferInstanceAs (Decidable (_ ≤ _))

/-- A movement by 256, with nothing in the offsets. -/
def OnlySigns (info : Info) : Prop :=
  info.xOffset = 0 ∧ info.yOffset = 0 ∧ (info.xSign = true ∨ info.ySign = true)

/-- In each packet at most one button differs from the packet before, and the movement is not in
the signs alone. -/
def EachClear (before : Buttons) : List Packet → Prop
  | [] => True
  | packet :: later =>
      (OneChange before packet.info.buttons ∧ ¬OnlySigns packet.info) ∧
        EachClear packet.info.buttons later

/-! ## One packet -/

/-- **The chain over the buttons** brings the flags to those of the packet exactly if at most one
button changes. -/
theorem changeButtons_flags_iff (flags buttons : Buttons) :
    (changeButtons flags buttons).1 = buttons ↔ OneChange flags buttons := by
  obtain ⟨middle, right, left⟩ := flags
  obtain ⟨middle', right', left'⟩ := buttons
  revert middle right left middle' right' left'
  decide

/-- Its events are then those of the changes. -/
theorem changeButtons_events {flags buttons : Buttons} (one : OneChange flags buttons)
    (button : Fin 3) :
    ((changeButtons flags buttons).2.count (.mousedown button) =
        if !flags.isDown button && buttons.isDown button then 1 else 0) ∧
      (changeButtons flags buttons).2.count (.mouseup button) =
        if flags.isDown button && !buttons.isDown button then 1 else 0 := by
  obtain ⟨middle, right, left⟩ := flags
  obtain ⟨middle', right', left'⟩ := buttons
  revert button middle right left middle' right' left'
  decide

theorem movesOf_changeButtons (flags buttons : Buttons) :
    movesOf (changeButtons flags buttons).2 = [] := by
  obtain ⟨middle, right, left⟩ := flags
  obtain ⟨middle', right', left'⟩ := buttons
  revert middle right left middle' right' left'
  decide

theorem extend_eq (sign : Bool) (offset : UInt8) : extend sign offset = signed sign offset := by
  cases sign with
  | false => exact (Int.sub_zero _).symm
  | true =>
      have all : ∀ number < 256,
          (BitVec.ofNat 32 number ||| 0xffffff00).toInt = (number : ℤ) - 256 := by
        decide +kernel
      exact all offset.toNat offset.toNat_lt

theorem signed_eq_zero_iff (sign : Bool) (offset : UInt8) :
    signed sign offset = 0 ↔ offset = 0 ∧ sign = false := by
  have small := offset.toNat_lt
  have zero : offset = 0 ↔ offset.toNat = 0 := UInt8.toNat_inj.symm
  rw [zero, signed]
  cases sign with
  | false =>
      rw [if_neg Bool.false_ne_true, and_iff_left rfl]
      omega
  | true =>
      rw [if_pos rfl]
      exact iff_of_false (by omega) fun both => Bool.false_ne_true both.2.symm

/-- The offsets are both zero. -/
theorem movesOf_moveEvents (info : Info) :
    movesOf (moveEvents info) =
      if info.xOffset ≠ 0 ∨ info.yOffset ≠ 0 then
        [(signed info.xSign info.xOffset, signed info.ySign info.yOffset)]
      else [] := by
  rw [moveEvents, extend_eq, extend_eq]
  by_cases moved : info.xOffset ≠ 0 ∨ info.yOffset ≠ 0
  · rw [if_pos moved, if_pos moved]
    rfl
  · rw [if_neg moved, if_neg moved]
    rfl

theorem movesOf_append (first second : List MouseEvent) :
    movesOf (first ++ second) = movesOf first ++ movesOf second :=
  List.filterMap_append

/-- A move is no event of a button. -/
theorem count_moveEvents (info : Info) (button : Fin 3) :
    (moveEvents info).count (.mousedown button) = 0 ∧
      (moveEvents info).count (.mouseup button) = 0 := by
  unfold moveEvents
  split
  · exact ⟨rfl, rfl⟩
  · exact ⟨rfl, rfl⟩

/-- **A packet is reported exactly if one button changes at most**, and its movement is not in the
signs alone. -/
theorem reported_iff (flags : Buttons) (info : Info) :
    Reported flags info (changeButtons flags info.buttons).1
        ((changeButtons flags info.buttons).2 ++ moveEvents info) ↔
      OneChange flags info.buttons ∧ ¬OnlySigns info := by
  have moves : movesOf ((changeButtons flags info.buttons).2 ++ moveEvents info) =
      if info.xOffset ≠ 0 ∨ info.yOffset ≠ 0 then
        [(signed info.xSign info.xOffset, signed info.ySign info.yOffset)]
      else [] := by
    rw [movesOf_append, movesOf_changeButtons, movesOf_moveEvents, List.nil_append]
  constructor
  · intro reported
    refine ⟨(changeButtons_flags_iff _ _).mp reported.flags, fun ⟨x, y, sign⟩ => ?_⟩
    have dispatched := moves.symm.trans reported.moves
    rw [if_neg (by simp [x, y]), if_pos] at dispatched
    · cases dispatched
    · rw [ne_eq, ne_eq, signed_eq_zero_iff, signed_eq_zero_iff]
      rcases sign with sign | sign
      · exact .inl fun both => Bool.false_ne_true (both.2.symm.trans sign)
      · exact .inr fun both => Bool.false_ne_true (both.2.symm.trans sign)
  · rintro ⟨one, visible⟩
    refine ⟨(changeButtons_flags_iff _ _).mpr one, fun button => ?_, fun button => ?_, ?_⟩
    · rw [List.count_append, (count_moveEvents info button).1, Nat.add_zero]
      exact (changeButtons_events one button).1
    · rw [List.count_append, (count_moveEvents info button).2, Nat.add_zero]
      exact (changeButtons_events one button).2
    · rw [moves]
      refine if_congr ?_ rfl rfl
      rw [ne_eq, ne_eq, ne_eq, ne_eq, signed_eq_zero_iff, signed_eq_zero_iff]
      refine ⟨fun offset => ?_, fun moved => ?_⟩
      · exact offset.imp (fun other both => other both.1) fun other both => other both.1
      · by_contra still
        obtain ⟨x, y⟩ := not_or.mp still
        refine visible ⟨not_not.mp x, not_not.mp y, ?_⟩
        rcases moved with moved | moved
        · exact .inl (by_contra fun sign => moved ⟨not_not.mp x, Bool.eq_false_iff.mpr sign⟩)
        · exact .inr (by_contra fun sign => moved ⟨not_not.mp y, Bool.eq_false_iff.mpr sign⟩)

/-! ## A stream of packets -/

/-- **The bytes of a packet** are assembled and processed. -/
theorem run_bytes {driver : Handler} (between : driver.packet = []) (packet : Packet) :
    driver.run packet.bytes =
      ({ packet := [], flags := (processPacket driver.flags packet).1 },
        (processPacket driver.flags packet).2) := by
  obtain ⟨_, flags⟩ := driver
  subst between
  change _ = (_, (processPacket flags packet).2)
  rw [← List.append_nil (processPacket flags packet).2]
  rfl

theorem processPacket_of_sync (flags : Buttons) {packet : Packet}
    (sync : packet.info.alwaysOne = true) :
    processPacket flags packet =
      ((changeButtons flags packet.info.buttons).1,
        (changeButtons flags packet.info.buttons).2 ++ moveEvents packet.info) := by
  rw [processPacket]
  dsimp only
  rw [sync]
  rfl

/-- **The packets of a stream are all reported exactly if each of them is clear.** -/
theorem reportsEach_iff {driver : Handler} (between : driver.packet = []) {packets : List Packet}
    (sync : ∀ packet ∈ packets, packet.info.alwaysOne = true) :
    ReportsEach driver packets ↔ EachClear driver.flags packets := by
  induction packets generalizing driver with
  | nil => exact Iff.rfl
  | cons packet later ih =>
      obtain ⟨first, rest⟩ := List.forall_mem_cons.mp sync
      rw [ReportsEach, EachClear, run_bytes between, processPacket_of_sync _ first, reported_iff]
      refine and_congr_right fun clear => ?_
      have flags := (changeButtons_flags_iff driver.flags packet.info.buttons).mpr clear.1
      rw [@ih ⟨[], _⟩ rfl rest, flags]

/-- **Every sequence of packets is reported exactly if each of its packets is clear**: it changes
one button at most against the packet before, and its movement is not in the signs alone. -/
theorem packets_reported_iff {packets : List Packet}
    (sync : ∀ packet ∈ packets, packet.info.alwaysOne = true) :
    ReportsEach {} packets ↔ EachClear {} packets :=
  reportsEach_iff rfl sync

theorem packets_reported_iff_click :
    ReportsEach {} [⟨0x09, 0, 0⟩, ⟨0x08, 1, 0⟩] ↔ EachClear {} [⟨0x09, 0, 0⟩, ⟨0x08, 1, 0⟩] :=
  packets_reported_iff (by decide)

/-- Of two buttons that go down at once only one is reported. -/
theorem twoButtons_not_reported :
    (Handler.run {} [0x0b, 0, 0]).2 = [.mousedown 2] ∧ ¬ReportsEach {} [⟨0x0b, 0, 0⟩] := by
  refine ⟨by decide, fun reports => ?_⟩
  have down := reports.1.downs 0
  exact absurd down (by decide)

end JsOS.Driver.Ps2.Mouse
