import JsOS.Driver.Realtek.Rtl8139
import Mathlib.Data.List.GetD

/-! # Frame transfer

Every status that is acknowledged binds the handler once more. A transmit buffer is overwritten
unless the card has finished with it by the fourth call after. Frames are received in order as
long as none waits when the driver sets its read pointer to the card's write pointer: a second
frame that arrives before is passed over.
-/

namespace JsOS.Driver.Realtek

namespace RTL8139

/-! ## Handlers -/

theorem bindings_onreceive (driver : RTL8139) (isr : Isr) :
    (driver.onreceive isr).bindings_ = driver.bindings_ := by
  unfold onreceive
  split <;> rfl

/-- The bindings grow by one when a status is acknowledged, and stay otherwise. -/
theorem oneHandler_step {driver : RTL8139} (one : driver.OneHandler) (move : Move) :
    (driver.step move).OneHandler ↔ driver.Quiet move := by
  cases move with
  | arrive frame next => exact iff_of_true one trivial
  | finish slot => exact iff_of_true one trivial
  | transmit u8header u8data => exact iff_of_true one trivial
  | irq =>
    refine iff_of_true ?_ trivial
    unfold step
    dsimp only
    split
    · exact one
    · exact one
  | run =>
    change driver.run.OneHandler ↔ ∀ isr, driver.onIRQ ≠ .acknowledging isr
    unfold run
    cases at_ : driver.onIRQ with
    | idle => exact iff_of_true one fun isr => by simp
    | looping =>
      refine iff_of_true ?_ fun isr => by simp
      dsimp only
      split
      · exact one
      · exact one
    | acknowledging isr =>
      refine iff_of_false ?_ fun quiet => quiet isr rfl
      change (driver.bindings_ ++ [driver.bindings_.length]).length ≠ 1
      have before : driver.bindings_.length = 1 := one
      rw [List.length_append, before]
      decide
    | receiving isr =>
      refine iff_of_true ?_ fun isr' => by simp
      dsimp only
      split
      · rw [OneHandler, bindings_onreceive]
        exact one
      · exact one
    | resetting isr compares => exact iff_of_true one fun isr' => by simp
    | transmitted isr =>
      refine iff_of_true ?_ fun isr' => by simp
      dsimp only
      split
      · exact one
      · exact one

/-! ## Transmit buffers -/

/-- The calls whose frames are not finished with were made, each took the buffer of its turn, and
the last one of a buffer is among the last four calls. -/
structure Turns (driver : RTL8139) : Prop where
  iter : driver.nextIter = driver.calls % 4
  made : ∀ slot, ∀ call ∈ driver.owed slot, call < driver.calls ∧ call % 4 = slot
  last : ∀ slot, ∀ call ∈ (driver.owed slot).getLast?, driver.calls ≤ call + 4

theorem Turns.init (rxBuffer : Nat → UInt8) (cbr : Nat) : (init rxBuffer cbr).Turns where
  iter := rfl
  made := by
    intro slot call among
    cases among
  last := by
    intro slot call among
    cases among

/-- A move that leaves the transmit buffers alone. -/
theorem Turns.of_eq {driver driver' : RTL8139} (turns : driver.Turns)
    (iter : driver'.iter = driver.iter) (calls : driver'.calls = driver.calls)
    (owed : driver'.owed = driver.owed) : driver'.Turns := by
  constructor
  · rw [nextIter, iter, calls]
    exact turns.iter
  · rw [owed, calls]
    exact turns.made
  · rw [owed, calls]
    exact turns.last

theorem run_transmit (driver : RTL8139) : driver.run.iter = driver.iter ∧
    driver.run.calls = driver.calls ∧ driver.run.owed = driver.owed := by
  unfold run
  cases driver.onIRQ with
  | idle => exact ⟨rfl, rfl, rfl⟩
  | looping =>
    dsimp only
    split <;> exact ⟨rfl, rfl, rfl⟩
  | acknowledging isr => exact ⟨rfl, rfl, rfl⟩
  | receiving isr =>
    dsimp only
    split
    · unfold onreceive
      split <;> exact ⟨rfl, rfl, rfl⟩
    · exact ⟨rfl, rfl, rfl⟩
  | resetting isr compares => exact ⟨rfl, rfl, rfl⟩
  | transmitted isr =>
    dsimp only
    split <;> exact ⟨rfl, rfl, rfl⟩

/-- A call takes the buffer of its turn: none is overwritten exactly if the card has finished with
the frame of the fourth call before. -/
theorem turns_ontransmit {driver : RTL8139} (turns : driver.Turns) (apart : driver.Apart)
    (u8header : Bytes) (u8data : Option Bytes) :
    (driver.ontransmit u8header u8data).Turns ∧
      ((driver.ontransmit u8header u8data).Apart ↔
        ∀ slot, ∀ call ∈ driver.owed slot, call + 4 ≠ driver.calls) := by
  have taken (slot : Nat) : (driver.ontransmit u8header u8data).owed slot =
      if slot = driver.calls % 4 then driver.owed slot ++ [driver.calls]
      else driver.owed slot := by
    rw [← turns.iter]
    rfl
  have recent {slot call : Nat} (among : call ∈ driver.owed slot) :
      driver.calls ≤ call + 4 := by
    apply turns.last slot call
    obtain ⟨other, only⟩ := List.length_eq_one_iff.mp
      (Nat.le_antisymm (apart slot) (List.length_pos_of_mem among))
    rw [only, List.mem_singleton] at among
    rw [only, among]
    rfl
  constructor
  · constructor
    · change (if driver.nextIter + 1 ≥ 4 then 0 else driver.nextIter + 1) = (driver.calls + 1) % 4
      rw [turns.iter]
      split <;> omega
    · intro slot call among
      change call < driver.calls + 1 ∧ call % 4 = slot
      rw [taken] at among
      split at among
      · rename_i turn
        rw [List.mem_append, List.mem_singleton] at among
        rcases among with earlier | rfl
        · obtain ⟨before, place⟩ := turns.made slot call earlier
          exact ⟨by omega, place⟩
        · exact ⟨by omega, turn.symm⟩
      · obtain ⟨before, place⟩ := turns.made slot call among
        exact ⟨by omega, place⟩
    · intro slot call last
      change driver.calls + 1 ≤ call + 4
      rw [taken] at last
      split at last
      · rw [List.getLast?_concat, Option.mem_some] at last
        omega
      · rename_i other
        have among := List.mem_of_mem_getLast? last
        obtain ⟨_, place⟩ := turns.made slot call among
        have near := turns.last slot call last
        omega
  · constructor
    · intro apart' slot call among again
      obtain ⟨_, place⟩ := turns.made slot call among
      have turn : slot = driver.calls % 4 := by omega
      have one := apart' slot
      rw [taken, if_pos turn, List.length_append, List.length_singleton] at one
      have held := List.length_pos_of_mem among
      omega
    · intro spaced slot
      rw [taken]
      split
      · rename_i turn
        have free : driver.owed slot = [] := by
          apply List.eq_nil_iff_forall_not_mem.mpr
          intro call among
          obtain ⟨before, place⟩ := turns.made slot call among
          have near := recent among
          have differs := spaced slot call among
          omega
        rw [free]
        exact le_rfl
      · exact apart slot

theorem turns_finish {driver : RTL8139} (turns : driver.Turns) (apart : driver.Apart)
    (slot : Nat) : (driver.finish slot).Turns ∧ (driver.finish slot).Apart := by
  have finished (other : Nat) : (driver.finish slot).owed other =
      if other = slot then [] else driver.owed other := by
    change (if other = slot then (driver.owed slot).tail else driver.owed other) = _
    split
    · have one := apart slot
      rw [← List.length_eq_zero_iff, List.length_tail]
      omega
    · rfl
  refine ⟨⟨turns.iter, ?_, ?_⟩, ?_⟩
  · intro other call among
    rw [finished] at among
    split at among
    · cases among
    · exact turns.made other call among
  · intro other call last
    rw [finished] at last
    split at last
    · cases last
    · exact turns.last other call last
  · intro other
    rw [finished]
    split
    · exact Nat.zero_le 1
    · exact apart other

theorem turns_step (driver : RTL8139) (move : Move) (turns : driver.Turns)
    (apart : driver.Apart) :
    (driver.step move).Turns ∧ ((driver.step move).Apart ↔ driver.Spaced move) := by
  cases move with
  | arrive frame next => exact ⟨turns.of_eq rfl rfl rfl, iff_of_true apart trivial⟩
  | finish slot =>
    obtain ⟨turns', apart'⟩ := turns_finish turns apart slot
    exact ⟨turns', iff_of_true apart' trivial⟩
  | transmit u8header u8data => exact turns_ontransmit turns apart u8header u8data
  | irq =>
    unfold step
    dsimp only
    split
    · exact ⟨turns.of_eq rfl rfl rfl, iff_of_true apart trivial⟩
    · exact ⟨turns, iff_of_true apart trivial⟩
  | run =>
    obtain ⟨iter, calls, owed⟩ := run_transmit driver
    refine ⟨turns.of_eq iter calls owed, iff_of_true ?_ trivial⟩
    change driver.run.Apart
    rw [Apart, owed]
    exact apart

/-! ## The receive ring -/

/-- The frame is in the ring. -/
structure Holds (rxBuffer : Nat → UInt8) (held : Nat × Bytes) : Prop where
  small : held.2.length < 2 ^ 16
  inside : held.1 + 4 + held.2.length ≤ FULL_RX_BUFFER_SIZE
  bytes : ∀ i < 4 + held.2.length, rxBuffer (held.1 + i) = (framed held.2).getD i 0

theorem length_framed (frame : Bytes) : (framed frame).length = 4 + frame.length := by
  rw [framed, List.length_append]
  rfl

/-- A frame that is in the ring stays there if another is written beside it. -/
theorem Holds.arrive {driver : RTL8139} {held : Nat × Bytes}
    (holds : Holds driver.rxBuffer held) {frame : Bytes} (next : Nat)
    (beside : held.1 + 4 + held.2.length ≤ driver.cbr ∨
      driver.cbr + 4 + frame.length ≤ held.1) :
    Holds (driver.arrive frame next).rxBuffer held where
  small := holds.small
  inside := holds.inside
  bytes := by
    intro i below
    rw [← holds.bytes i below]
    change (if driver.cbr ≤ held.1 + i then _ else _) = _
    split
    · rw [List.getD_eq_default]
      rw [length_framed]
      omega
    · rfl

/-- The frame that arrives is in the ring. -/
theorem holds_arrived {driver : RTL8139} {frame : Bytes} (next : Nat)
    (small : frame.length < 2 ^ 16)
    (inside : driver.cbr + 4 + frame.length ≤ FULL_RX_BUFFER_SIZE) :
    Holds (driver.arrive frame next).rxBuffer (driver.cbr, frame) where
  small := small
  inside := inside
  bytes := by
    intro i below
    change (if driver.cbr ≤ driver.cbr + i then _ else _) = _
    have there : i < (framed frame).length := by
      rw [length_framed]
      exact below
    rw [if_pos (Nat.le_add_right _ _), Nat.add_sub_cancel_left, List.getD_eq_getElem _ _ there,
      List.getD_eq_getElem _ _ there]

/-- The driver reads the frame at its read pointer. -/
theorem onreceive_eq {driver : RTL8139} {held : Nat × Bytes}
    (holds : Holds driver.rxBuffer held) (at_ : driver.recvPointer = held.1) (isr : Isr) :
    driver.onreceive isr =
      { driver with received := driver.received ++ [held.2], onIRQ := .resetting isr true } := by
  have byte (i : Nat) (below : i < 4) :
      driver.rxBuffer (held.1 + i) = (framed held.2).getD i 0 := holds.bytes i (by omega)
  have status : driver.readUInt16LE held.1 = 1 := by
    rw [readUInt16LE, ← Nat.add_zero held.1, byte 0 (by decide), Nat.add_assoc,
      byte (0 + 1) (by decide)]
    rfl
  have size : driver.readUInt16LE (held.1 + 2) = held.2.length := by
    have low : (framed held.2).getD 2 0 = UInt8.ofNat held.2.length := rfl
    have high : (framed held.2).getD 3 0 = UInt8.ofNat (held.2.length / 256) := rfl
    have small := holds.small
    rw [readUInt16LE, byte 2 (by decide), Nat.add_assoc, byte (2 + 1) (by decide), low, high,
      UInt8.toNat_ofNat', UInt8.toNat_ofNat']
    omega
  have buf : driver.slice (held.1 + 4) held.2.length = held.2 := by
    apply List.ext_getElem
    · rw [slice, List.length_map, List.length_range]
    · intro i below below'
      have inside := holds.inside
      simp only [slice, List.getElem_map, List.getElem_range]
      rw [if_pos (by omega), Nat.add_assoc, holds.bytes (4 + i) (by omega), framed,
        List.getD_append_right _ _ _ _ (by simp), List.getD_eq_getElem _ _ (by simp; omega)]
      simp
  unfold onreceive
  rw [at_, status, if_neg (by decide)]
  dsimp only
  rw [size, buf]

/-! ## What the handler has to do -/

/-- The frames that the status and the handler announce, of `waiting` that wait. -/
def Due (rok : Bool) (waiting : Nat) : OnIRQ → Prop
  | .idle => rok = true ↔ 0 < waiting
  | .looping => rok = true ↔ 0 < waiting
  | .acknowledging isr => (isr.rok = true → rok = true) ∧ (rok = true ↔ 0 < waiting)
  | .receiving isr => isr.rok.toNat + rok.toNat ≤ waiting ∧
      (0 < waiting → rok = true ∨ isr.rok = true)
  | .resetting _ _ => rok = true → 0 < waiting
  | .transmitted _ => rok = true ↔ 0 < waiting

theorem Due.arrive {rok : Bool} {waiting : Nat} {onIRQ : OnIRQ} (due : Due rok waiting onIRQ) :
    Due true (waiting + 1) onIRQ := by
  cases onIRQ with
  | idle => simp [Due]
  | looping => simp [Due]
  | acknowledging isr => simp [Due]
  | receiving isr =>
    obtain ⟨enough, _⟩ := due
    refine ⟨?_, fun _ => Or.inl rfl⟩
    rw [Bool.toNat_true]
    omega
  | resetting isr compares => simp [Due]
  | transmitted isr => simp [Due]

/-- Where the read pointer belongs: at the next frame that waits, or at the write pointer. -/
def place (driver : RTL8139) : Nat := (driver.waiting.head?.map Prod.fst).getD driver.cbr

/-- The driver has not yet to set its read pointer. -/
def Pointing (driver : RTL8139) : Prop :=
  ∀ isr compares, driver.onIRQ ≠ .resetting isr compares

/-- **The frames are tracked.** -/
structure Tracked (driver : RTL8139) : Prop where
  order : driver.received ++ driver.waiting.map Prod.snd = driver.arrived.map Prod.snd
  inside : driver.cbr < RX_BUFFER_SIZE
  holds : driver.Pointing → ∀ held ∈ driver.waiting.head?, Holds driver.rxBuffer held
  placed : driver.Pointing → driver.recvPointer = driver.place
  due : Due driver.isr.rok driver.waiting.length driver.onIRQ

variable {driver : RTL8139}

theorem Tracked.init (rxBuffer : Nat → UInt8) {cbr : Nat} (inside : cbr < RX_BUFFER_SIZE) :
    (init rxBuffer cbr).Tracked where
  order := rfl
  inside := inside
  holds := by
    intro _ held among
    cases among
  placed := fun _ => rfl
  due := by simp [Due, RTL8139.init, waiting]

theorem Tracked.inOrder (tracked : driver.Tracked) : driver.InOrder where
  first := ⟨_, tracked.order⟩
  all := by
    intro idle none
    have due := tracked.due
    rw [idle, none] at due
    have empty : driver.waiting = [] := by
      apply List.eq_nil_of_length_eq_zero
      by_contra some
      exact absurd (due.mpr (by omega)) (by decide)
    have order := tracked.order
    rw [empty] at order
    rw [← order]
    exact (List.append_nil _).symm

theorem Tracked.length_le (tracked : driver.Tracked) :
    driver.received.length ≤ driver.arrived.length := by
  have lengths := congrArg List.length tracked.order
  rw [List.length_append, List.length_map, List.length_map] at lengths
  omega

/-- A frame arrives. -/
theorem Tracked.arrive (tracked : driver.Tracked) {frame : Bytes} {next : Nat}
    (timely : driver.Timely (.arrive frame next)) : (driver.arrive frame next).Tracked := by
  obtain ⟨small, inside, nextInside, beside⟩ := timely
  have waits : (driver.arrive frame next).waiting = driver.waiting ++ [(driver.cbr, frame)] :=
    List.drop_append_of_le_length tracked.length_le
  constructor
  · rw [waits, List.map_append, ← List.append_assoc]
    change (driver.received ++ driver.waiting.map Prod.snd) ++ _ = (driver.arrived ++ _).map _
    rw [tracked.order, List.map_append]
  · exact nextInside
  · intro pointing held first
    rw [waits] at first
    cases before : driver.waiting with
    | nil =>
      rw [before] at first
      cases first
      exact holds_arrived next small inside
    | cons head rest =>
      rw [before] at first
      have headed : held ∈ driver.waiting.head? := by
        rw [before]
        exact first
      exact (tracked.holds pointing held headed).arrive next (beside held headed)
  · intro pointing
    have placed := tracked.placed pointing
    change driver.recvPointer = _
    rw [placed, place, place, waits]
    cases driver.waiting with
    | nil => rfl
    | cons head rest => rfl
  · rw [waits, List.length_append]
    exact tracked.due.arrive

/-- A move that concerns neither the ring nor the frames. -/
theorem Tracked.of_eq {driver' : RTL8139} (tracked : driver.Tracked)
    (rxBuffer : driver'.rxBuffer = driver.rxBuffer) (cbr : driver'.cbr = driver.cbr)
    (arrived : driver'.arrived = driver.arrived) (received : driver'.received = driver.received)
    (pointing : driver'.Pointing → driver.waiting = [] ∨ driver.Pointing)
    (placed : driver'.Pointing → driver'.recvPointer = driver.place)
    (due : Due driver'.isr.rok driver.waiting.length driver'.onIRQ) : driver'.Tracked := by
  have waits : driver'.waiting = driver.waiting := by
    rw [waiting, waiting, arrived, received]
  constructor
  · rw [waits, received, arrived]
    exact tracked.order
  · rw [cbr]
    exact tracked.inside
  · intro pointing' held first
    rw [waits] at first
    rw [rxBuffer]
    rcases pointing pointing' with empty | before
    · rw [empty] at first
      cases first
    · exact tracked.holds before held first
  · intro pointing'
    rw [place, waits, cbr]
    exact placed pointing'
  · rw [waits]
    exact due

/-- The frame at the read pointer is passed on. -/
theorem Tracked.onreceive (tracked : driver.Tracked) {isr : Isr} (saw : isr.rok = true)
    (at_ : driver.onIRQ = .receiving isr) : (driver.onreceive isr).Tracked := by
  have pointing : driver.Pointing := by
    intro isr' compares is
    rw [at_] at is
    cases is
  have due := tracked.due
  rw [at_] at due
  obtain ⟨enough, _⟩ := due
  rw [saw, Bool.toNat_true] at enough
  obtain ⟨held, rest, waits⟩ : ∃ held rest, driver.waiting = held :: rest :=
    List.exists_cons_of_length_pos (by omega)
  have pointer : driver.recvPointer = held.1 := by
    rw [tracked.placed pointing, place, waits]
    rfl
  rw [onreceive_eq (tracked.holds pointing held (by rw [waits]; rfl)) pointer]
  have left : driver.arrived.drop (driver.received ++ [held.2]).length = rest := by
    rw [List.length_append, List.length_singleton, ← List.drop_drop]
    change driver.waiting.drop 1 = rest
    rw [waits]
    rfl
  have unset {done : RTL8139} (resetting : done.onIRQ = .resetting isr true) : ¬done.Pointing :=
    fun pointing' => pointing' isr true resetting
  constructor
  · change driver.received ++ [held.2] ++ (List.drop _ _).map Prod.snd = _
    rw [left]
    have order := tracked.order
    rw [waits, List.map_cons] at order
    rw [List.append_assoc]
    exact order
  · exact tracked.inside
  · intro pointing'
    exact absurd pointing' (unset rfl)
  · intro pointing'
    exact absurd pointing' (unset rfl)
  · change driver.isr.rok = true → 0 < (List.drop _ _).length
    rw [left]
    intro rok
    rw [rok, Bool.toNat_true, waits, List.length_cons] at enough
    omega

/-- The handler goes on. -/
theorem Tracked.run (tracked : driver.Tracked) (timely : driver.Timely .run) :
    driver.run.Tracked := by
  have due := tracked.due
  unfold RTL8139.run
  cases at_ : driver.onIRQ with
  | idle => exact tracked
  | looping =>
    rw [at_] at due
    have pointing : driver.Pointing := by simp [Pointing, at_]
    have placed := tracked.placed pointing
    dsimp only
    split
    · exact tracked.of_eq rfl rfl rfl rfl (fun _ => Or.inr pointing) (fun _ => placed) due
    · exact tracked.of_eq rfl rfl rfl rfl (fun _ => Or.inr pointing) (fun _ => placed) ⟨id, due⟩
  | acknowledging isr =>
    rw [at_] at due
    obtain ⟨seen, announces⟩ := due
    have pointing : driver.Pointing := by simp [Pointing, at_]
    have placed := tracked.placed pointing
    refine tracked.of_eq rfl rfl rfl rfl (fun _ => Or.inr pointing) (fun _ => placed) ?_
    change _ + _ ≤ driver.waiting.length ∧ _
    dsimp only
    cases saw : isr.rok with
    | true =>
      have frame := announces.mp (seen saw)
      refine ⟨?_, fun _ => Or.inr rfl⟩
      simp only [Bool.toNat_true, Bool.not_true, Bool.and_false, Bool.toNat_false]
      omega
    | false =>
      rw [Bool.not_false, Bool.and_true, Bool.toNat_false, Nat.zero_add]
      refine ⟨?_, fun frame => Or.inl (announces.mpr frame)⟩
      cases rok : driver.isr.rok with
      | true => exact announces.mp rok
      | false => exact Nat.zero_le _
  | receiving isr =>
    dsimp only
    split
    · rename_i saw
      exact tracked.onreceive saw at_
    · rename_i unseen
      rw [at_] at due
      obtain ⟨enough, announced⟩ := due
      have pointing : driver.Pointing := by simp [Pointing, at_]
      have placed := tracked.placed pointing
      refine tracked.of_eq rfl rfl rfl rfl (fun _ => Or.inr pointing) (fun _ => placed) ?_
      constructor
      · intro rok
        dsimp only at rok
        rw [rok, Bool.toNat_true] at enough
        omega
      · intro frame
        exact (announced frame).resolve_right unseen
  | resetting isr compares =>
    have empty := timely (Or.inl ⟨isr, compares, at_⟩)
    rw [at_] at due
    have inside := tracked.inside
    refine tracked.of_eq rfl rfl rfl rfl (fun _ => Or.inl empty) (fun _ => ?_) ?_
    · change (if compares && driver.cbr ≥ RX_BUFFER_SIZE then 0 else driver.cbr) = driver.place
      rw [if_neg, place, empty]
      · rfl
      · rw [Bool.and_eq_true, decide_eq_true_iff]
        rintro ⟨_, beyond⟩
        omega
    · refine ⟨due, ?_⟩
      rw [empty]
      intro frame
      cases frame
  | transmitted isr =>
    rw [at_] at due
    have pointing : driver.Pointing := by simp [Pointing, at_]
    have placed := tracked.placed pointing
    dsimp only
    split
    · rename_i saw
      have empty := timely (Or.inr ⟨isr, at_, saw⟩)
      refine tracked.of_eq rfl rfl rfl rfl (fun _ => Or.inl empty) (fun _ => ?_) due
      rw [place, empty]
      rfl
    · exact tracked.of_eq rfl rfl rfl rfl (fun _ => Or.inr pointing) (fun _ => placed) due

theorem Tracked.step (tracked : driver.Tracked) {move : Move} (timely : driver.Timely move) :
    (driver.step move).Tracked := by
  cases move with
  | arrive frame next => exact tracked.arrive timely
  | finish slot =>
    exact tracked.of_eq rfl rfl rfl rfl Or.inr tracked.placed tracked.due
  | transmit u8header u8data =>
    exact tracked.of_eq rfl rfl rfl rfl Or.inr tracked.placed tracked.due
  | irq =>
    unfold RTL8139.step
    dsimp only
    split
    · rename_i idle
      have due := tracked.due
      rw [idle] at due
      have pointing : driver.Pointing := by simp [Pointing, idle]
      exact tracked.of_eq rfl rfl rfl rfl (fun _ => Or.inr pointing)
        (fun _ => tracked.placed pointing) due
    · exact tracked
  | run => exact tracked.run timely

/-! ## Runs -/

/-- **Frame transfer.** In a run from the start, one handler stays bound exactly if no status is
acknowledged; no transmit buffer is overwritten exactly if the card has finished with each by the
fourth call after; and frames are received in order if all moves are timely. -/
theorem frames_transferred (rxBuffer : Nat → UInt8) {cbr : Nat} (inside : cbr < RX_BUFFER_SIZE)
    (moves : List Move) :
    ((∀ past future, moves = past ++ future →
        (Transition.run RTL8139.step (RTL8139.init rxBuffer cbr) past).OneHandler) ↔
      Transition.Along RTL8139.step Quiet (RTL8139.init rxBuffer cbr) moves) ∧
    ((∀ past future, moves = past ++ future →
        (Transition.run RTL8139.step (RTL8139.init rxBuffer cbr) past).Apart) ↔
      Transition.Along RTL8139.step Spaced (RTL8139.init rxBuffer cbr) moves) ∧
    (Transition.Along RTL8139.step Timely (RTL8139.init rxBuffer cbr) moves →
      ∀ past future, moves = past ++ future →
        (Transition.run RTL8139.step (RTL8139.init rxBuffer cbr) past).InOrder) := by
  refine ⟨?_, ?_, ?_⟩
  · have keeps (state : RTL8139) (move : Move) (_ : True) (one : state.OneHandler) :
        True ∧ ((state.step move).OneHandler ↔ state.Quiet move) :=
      ⟨trivial, oneHandler_step one move⟩
    have one : (RTL8139.init rxBuffer cbr).OneHandler := rfl
    exact Transition.forall_reached_iff_of_step (fun _ => True) keeps trivial one
  · exact Transition.forall_reached_iff_of_step Turns turns_step (Turns.init rxBuffer cbr)
      (fun slot => Nat.zero_le 1)
  · intro timely past future split
    rw [split, Transition.along_append] at timely
    have tracked := Transition.run_invariant Tracked (fun _ _ before meets => before.step meets)
      (Tracked.init rxBuffer inside) timely.1
    exact tracked.inOrder

/-- One frame arrives and is handled. -/
theorem frames_transferred_one :
    ((∀ past future, [.arrive [1, 2] 8, .irq, .run] = past ++ future →
        (Transition.run RTL8139.step (RTL8139.init (fun _ => 0) 0) past).OneHandler) ↔
      Transition.Along RTL8139.step Quiet (RTL8139.init (fun _ => 0) 0)
        [.arrive [1, 2] 8, .irq, .run]) ∧
    ((∀ past future, [.arrive [1, 2] 8, .irq, .run] = past ++ future →
        (Transition.run RTL8139.step (RTL8139.init (fun _ => 0) 0) past).Apart) ↔
      Transition.Along RTL8139.step Spaced (RTL8139.init (fun _ => 0) 0)
        [.arrive [1, 2] 8, .irq, .run]) ∧
    (Transition.Along RTL8139.step Timely (RTL8139.init (fun _ => 0) 0)
        [.arrive [1, 2] 8, .irq, .run] →
      ∀ past future, [.arrive [1, 2] 8, .irq, .run] = past ++ future →
        (Transition.run RTL8139.step (RTL8139.init (fun _ => 0) 0) past).InOrder) :=
  frames_transferred (fun _ => 0) (by decide) [.arrive [1, 2] 8, .irq, .run]

/-- Two frames arrive before the handler runs. -/
def twoFrames : List Move :=
  [.arrive [1, 2] 8, .arrive [3, 4] 16, .irq, .run, .run, .run, .run, .run, .run]

/-- Of two frames the second is passed over, and two handlers are bound; a fifth frame to be sent
overwrites the first. -/
theorem twoFrames_not_inOrder :
    ¬(Transition.run RTL8139.step (RTL8139.init (fun _ => 0) 0) twoFrames).InOrder ∧
      ¬(Transition.run RTL8139.step (RTL8139.init (fun _ => 0) 0) twoFrames).OneHandler ∧
      ¬(Transition.run RTL8139.step (RTL8139.init (fun _ => 0) 0)
        (List.replicate 5 (.transmit [1] none))).Apart := by
  refine ⟨fun inOrder => ?_, ?_, fun apart => ?_⟩
  · have lost := inOrder.all (by decide +kernel) (by decide +kernel)
    exact absurd lost (by decide +kernel)
  · unfold OneHandler
    decide +kernel
  · exact absurd (apart 0) (by decide +kernel)

end RTL8139

end JsOS.Driver.Realtek
