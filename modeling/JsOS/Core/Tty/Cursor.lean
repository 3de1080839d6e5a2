import JsOS.Core.Tty.Printer

/-! # The position of the printer

As long as the position is in the screen or right behind it, the screen shows a part of the page
that is meant (`Shows`): printing keeps this, and so do the operations that set the position within
the screen. The keys for paging take a line off the position without a look at it, so that it may
come before the screen, where the next print throws (`proper_iff_below`).
-/

namespace JsOS.Core.Tty

/-- The printer's buffer and position are those of a layout. -/
structure Aligned (layout : Layout) (printer : Printer) : Prop where
  buffer : printer.buffer = layout.screen
  position : printer.posCurrent = layout.next - w * layout.top
  above : w * layout.top ≤ layout.next
  clean : ∀ place, w * (layout.top + h) ≤ place → layout.page place = blank BLACK

/-- **The printer shows a layout**: besides, its next place is on the screen or right behind it. -/
structure Shows (layout : Layout) (printer : Printer) : Prop extends Aligned layout printer where
  below : layout.next ≤ w * (layout.top + h)

theorem Shows.inScreen {layout : Layout} {printer : Printer} (shows_ : Shows layout printer) :
    printer.InScreen := by
  obtain ⟨⟨_, position, above, _⟩, below⟩ := shows_
  unfold Printer.InScreen
  rw [position]
  simp only [w, h] at above below ⊢
  omega

theorem Layout.page_ofScreen (b : VGABuffer) (position : Nat) (place : Fin (w * h)) :
    (ofScreen b position).page place.val = b place := dif_pos place.isLt

/-- What is on the screen is a layout of it. -/
theorem shows_ofScreen {printer : Printer} {position : Nat} (at_ : printer.posCurrent = position)
    (inScreen : printer.InScreen) : Shows (.ofScreen printer.buffer position) printer where
  buffer := by
    funext place
    change printer.buffer place =
      (Layout.ofScreen printer.buffer position).page (w * 0 + place.val)
    rw [Nat.mul_zero, Nat.zero_add, Layout.page_ofScreen]
  position := by
    rw [at_]
    exact (Int.sub_zero _).symm
  above := Nat.zero_le _
  clean := by
    intro place below
    change (if _ : place < w * h then _ else _) = _
    rw [dif_neg]
    change w * (0 + h) ≤ place at below
    rw [Nat.zero_add] at below
    exact Nat.not_lt.mpr below
  below := by
    have low := inScreen.2
    rw [at_] at low
    change position ≤ w * (0 + h)
    rw [Nat.zero_add]
    exact_mod_cast low

/-! ## Scrolling -/

/-- The printer scrolls just when the layout does. -/
theorem Aligned.scroll {layout : Layout} {printer : Printer} (aligned : Aligned layout printer) :
    Aligned layout.scroll
      (if printer.posCurrent ≥ (w * h : Int) then printer.scrollUp else printer) := by
  have position := aligned.position
  have above := aligned.above
  by_cases full : layout.next ≥ w * (layout.top + h)
  · have behind : printer.posCurrent ≥ (w * h : Int) := by
      rw [position]
      simp only [w, h] at full ⊢
      omega
    rw [if_pos behind, Layout.scroll, if_pos full]
    constructor
    · funext place
      change (if below : place.val + w < w * h then printer.buffer ⟨place.val + w, below⟩
        else blank BLACK) = layout.page (w * (layout.top + 1) + place.val)
      split
      · rw [aligned.buffer]
        change layout.page (w * layout.top + (place.val + w)) = _
        congr 1
        simp only [w]
        omega
      · rename_i beyond
        rw [aligned.clean]
        simp only [w, h] at beyond ⊢
        omega
    · change printer.posCurrent - w = (layout.next : Int) - w * ((layout.top + 1 : Nat) : Int)
      rw [position]
      simp only [w]
      omega
    · change w * (layout.top + 1) ≤ layout.next
      simp only [w, h] at full ⊢
      omega
    · intro place below
      apply aligned.clean
      change w * (layout.top + 1 + h) ≤ place at below
      simp only [w, h] at below ⊢
      omega
  · have within : ¬printer.posCurrent ≥ (w * h : Int) := by
      rw [position]
      simp only [w, h] at full ⊢
      omega
    rw [if_neg within, Layout.scroll, if_neg full]
    exact aligned

/-- After scrolling the next place is on the screen, if it was right behind it at most. -/
theorem Layout.next_scroll_lt {layout : Layout}
    (below : layout.next ≤ w * (layout.top + h)) :
    layout.scroll.next < w * (layout.scroll.top + h) := by
  unfold scroll
  split
  · dsimp only
    simp only [w, h] at below ⊢
    omega
  · rename_i within
    exact Nat.lt_of_not_le within

theorem Layout.next_scroll_le {layout : Layout}
    (below : layout.next ≤ w * (layout.top + h) + w) :
    layout.scroll.next ≤ w * (layout.scroll.top + h) := by
  unfold scroll
  split
  · dsimp only
    simp only [w, h] at below ⊢
    omega
  · rename_i within
    exact Nat.le_of_not_le within

/-! ## Printing -/

/-- A newline moves to the start of the next line. -/
theorem newline_eq {layout : Layout} {printer : Printer} (aligned : Aligned layout printer) :
    printer.posCurrent - (Int.tmod printer.posCurrent w - w) =
      ((w * (layout.next / w + 1) : Nat) : Int) - w * layout.top := by
  have above := aligned.above
  have natural : printer.posCurrent = ((layout.next - w * layout.top : Nat) : Int) := by
    rw [aligned.position]
    simp only [w] at above ⊢
    omega
  rw [natural, ← Int.ofNat_tmod]
  simp only [w] at above ⊢
  omega

/-- A character that is put keeps showing the layout, and does not throw. -/
theorem shows_put {layout : Layout} {printing : Printing}
    (shows_ : Shows layout printing.printer) (c : UInt16) :
    Shows (layout.put printing.fg printing.bg c) (Printer.put printing c).printer ∧
      (Printer.put printing c).thrown = printing.thrown ∧
      (Printer.put printing c).fg = printing.fg ∧ (Printer.put printing c).bg = printing.bg := by
  have aligned := shows_.toAligned
  have below := shows_.below
  unfold Printer.put Layout.put
  by_cases newline : c = 0x0A
  · rw [if_pos newline, if_pos newline]
    refine ⟨⟨?_, ?_⟩, rfl, rfl, rfl⟩
    · have moved : Aligned { layout with next := w * (layout.next / w + 1) }
          { printing.printer with
            posCurrent := printing.printer.posCurrent -
              (Int.tmod printing.printer.posCurrent w - w) } := by
        refine ⟨aligned.buffer, newline_eq aligned, ?_, aligned.clean⟩
        have above := aligned.above
        change w * layout.top ≤ w * (layout.next / w + 1)
        simp only [w] at above ⊢
        omega
      exact moved.scroll
    · apply Layout.next_scroll_le
      change w * (layout.next / w + 1) ≤ w * (layout.top + h) + w
      simp only [w, h] at below ⊢
      omega
  · rw [if_neg newline, if_neg newline]
    have room := aligned.scroll
    have inside := Layout.next_scroll_lt below
    dsimp only
    generalize (if printing.printer.posCurrent ≥ (w * h : Int) then printing.printer.scrollUp
      else printing.printer) = printer at room
    generalize layout.scroll = scrolled at room inside
    have position := room.position
    have above := room.above
    have onScreen : ¬(printer.posCurrent < 0 ∨ printer.posCurrent ≥ (w * h : Int)) := by
      rw [position]
      simp only [w, h] at above inside ⊢
      omega
    rw [setCharOffset, if_neg onScreen]
    refine ⟨⟨⟨?_, ?_, ?_, ?_⟩, ?_⟩, rfl, rfl, rfl⟩
    · funext place
      change (if (place.val : Int) = printer.posCurrent then _ else printer.buffer place) =
        Function.update scrolled.page scrolled.next _ (w * scrolled.top + place.val)
      by_cases here : (place.val : Int) = printer.posCurrent
      · have next : w * scrolled.top + place.val = scrolled.next := by
          rw [position] at here
          simp only [w] at here above ⊢
          omega
        rw [if_pos here, next, Function.update_self]
      · have other : w * scrolled.top + place.val ≠ scrolled.next := by
          intro next
          apply here
          rw [position, ← next]
          simp only [w]
          omega
        rw [if_neg here, Function.update_of_ne other, room.buffer]
        rfl
    · change printer.posCurrent + 1 = ((scrolled.next + 1 : Nat) : Int) - w * scrolled.top
      rw [position]
      omega
    · exact Nat.le_succ_of_le above
    · intro place beyond
      change Function.update scrolled.page scrolled.next _ place = _
      rw [Function.update_of_ne, room.clean place beyond]
      exact Nat.ne_of_gt (Nat.lt_of_lt_of_le inside beyond)
    · exact inside

namespace Printer

/-- A symbol without an escape symbol before it is put, unless it is one. -/
theorem useControls_plain {symbol prevsymbol : UInt16} (plain : symbol ≠ 0x1B)
    (plain' : prevsymbol ≠ 0x1B) (fg bg : Fin 16) : useControls symbol prevsymbol fg bg = none := by
  unfold useControls
  rw [dif_neg fun both => plain' both.2, dif_neg fun both => plain' both.2.2, if_neg plain]

/-- Any symbols leave the printer showing some layout, and do not throw. -/
theorem shows_symbols (symbols : List (UInt16 × UInt16)) {printing : Printing} {layout : Layout}
    (shows_ : Shows layout printing.printer) (calm : printing.thrown = none) :
    (symbols.foldl printSymbol printing).thrown = none ∧
      ∃ layout', Shows layout' (symbols.foldl printSymbol printing).printer := by
  induction symbols generalizing printing layout with
  | nil => exact ⟨calm, layout, shows_⟩
  | cons symbol symbols kept =>
    rw [List.foldl_cons]
    have next : (printSymbol printing symbol).thrown = none ∧
        ∃ layout', Shows layout' (printSymbol printing symbol).printer := by
      unfold printSymbol
      rw [calm, if_neg (by decide)]
      cases useControls symbol.2 symbol.1 printing.fg printing.bg with
      | some colors => exact ⟨rfl, layout, shows_⟩
      | none =>
        obtain ⟨shown, returned, _⟩ := shows_put shows_ symbol.2
        exact ⟨returned.trans calm, _, shown⟩
    obtain ⟨returned, layout', shown⟩ := next
    exact kept shown returned

/-- Plain symbols are laid out. -/
theorem shows_plain (symbols : List (UInt16 × UInt16)) {printing : Printing} {layout : Layout}
    (shows_ : Shows layout printing.printer) (calm : printing.thrown = none)
    (plain : ∀ symbol ∈ symbols, symbol.1 ≠ 0x1B ∧ symbol.2 ≠ 0x1B) :
    Shows ((symbols.map Prod.snd).foldl (Layout.put printing.fg printing.bg) layout)
      (symbols.foldl printSymbol printing).printer := by
  induction symbols generalizing printing layout with
  | nil => exact shows_
  | cons symbol symbols kept =>
    obtain ⟨before, here⟩ := plain symbol List.mem_cons_self
    have next : printSymbol printing symbol = put printing symbol.2 := by
      unfold printSymbol
      rw [calm, if_neg (by decide), useControls_plain here before]
    obtain ⟨shown, returned, fg, bg⟩ := shows_put shows_ symbol.2
    rw [List.foldl_cons, List.map_cons, List.foldl_cons, next, ← fg, ← bg]
    rw [fg, bg]
    have later := kept shown (returned.trans calm) fun other among =>
      plain other (List.mem_cons_of_mem _ among)
    rw [fg, bg] at later
    exact later

theorem map_snd_withPrevious (text : List UInt16) : (withPrevious text).map Prod.snd = text := by
  rw [withPrevious, List.map_snd_zip]
  rw [List.length_cons]
  exact Nat.le_succ _

theorem plain_withPrevious {text : List UInt16} (plain : 0x1B ∉ text) :
    ∀ symbol ∈ withPrevious text, symbol.1 ≠ 0x1B ∧ symbol.2 ≠ 0x1B := by
  intro symbol among
  obtain ⟨before, here⟩ := List.of_mem_zip (show (symbol.1, symbol.2) ∈ _ from among)
  constructor
  · intro escape
    rw [escape, List.mem_cons] at before
    rcases before with zero | earlier
    · cases zero
    · exact plain earlier
  · intro escape
    rw [escape] at here
    exact plain here

/-! ## Operations -/

theorem exists_position {printer : Printer} (inScreen : printer.InScreen) :
    ∃ position : Nat, printer.posCurrent = position :=
  Int.eq_ofNat_of_zero_le inScreen.1

/-- **A print is proper.** -/
theorem proper_print {printer : Printer} (inScreen : printer.InScreen) (text : List UInt16)
    (repeat_ : Nat) (fg bg : Option (Fin 16)) :
    printer.Proper (.print text repeat_ fg bg) := by
  obtain ⟨position, at_⟩ := exists_position inScreen
  have before := shows_ofScreen at_ inScreen
  obtain ⟨returned, layout, shown⟩ := @shows_symbols
    (List.replicate repeat_ (withPrevious text)).flatten
    ⟨printer, fg.getD WHITE, bg.getD BLACK, none⟩ _ before rfl
  have printed : printer.print text repeat_ (fg.getD WHITE) (bg.getD BLACK) =
      ((printer.printLoop text repeat_ (fg.getD WHITE) (bg.getD BLACK)).printer.refresh, none) := by
    have calm : (printer.printLoop text repeat_ (fg.getD WHITE) (bg.getD BLACK)).thrown = none :=
      returned
    unfold print
    dsimp only
    rw [calm]
  have result : printer.step (.print text repeat_ fg bg) =
      (printer.printLoop text repeat_ (fg.getD WHITE) (bg.getD BLACK)).printer.refresh :=
    congrArg Prod.fst printed
  constructor
  · rw [result]
    exact shown.inScreen
  · exact congrArg Prod.snd printed
  · intro plain position' at_'
    have same : position' = position := by
      rw [at_] at at_'
      exact (Int.ofNat.inj at_').symm
    have all : ∀ symbol ∈ (List.replicate repeat_ (withPrevious text)).flatten,
        symbol.1 ≠ 0x1B ∧ symbol.2 ≠ 0x1B := by
      intro symbol among
      obtain ⟨copy, copied, there⟩ := List.mem_flatten.mp among
      rw [List.eq_of_mem_replicate copied] at there
      exact plain_withPrevious plain symbol there
    have laidOut := @shows_plain _ ⟨printer, fg.getD WHITE, bg.getD BLACK, none⟩ _ before rfl all
    rw [List.map_flatten, List.map_replicate, map_snd_withPrevious] at laidOut
    rw [same]
    dsimp only
    rw [result]
    exact ⟨laidOut.buffer, laidOut.buffer, laidOut.position⟩

theorem inScreen_moveOffset (printer : Printer) (offset : Int) :
    (printer.moveOffset offset).InScreen := by
  unfold moveOffset InScreen
  simp only [w, h]
  split <;> split <;> omega

theorem inScreen_moveTo (printer : Printer) (x y : Int) : (printer.moveTo x y).InScreen := by
  unfold moveTo InScreen
  simp only [w, h]
  split <;> split <;> split <;> split <;> omega

/-- A line less leaves the position in the screen exactly if there is one. -/
theorem inScreen_sub_iff {printer printer' : Printer} (inScreen : printer.InScreen)
    (line : printer'.posCurrent = printer.posCurrent - w) :
    printer'.InScreen ↔ (w : Int) ≤ printer.posCurrent := by
  obtain ⟨_, low⟩ := inScreen
  unfold InScreen
  rw [line]
  simp only [w, h] at low ⊢
  omega

/-- An operation is proper exactly if it is no paging key in the first line. -/
theorem proper_iff {printer : Printer} (inScreen : printer.InScreen) (operation : Operation) :
    printer.Proper operation ↔ printer.Below operation := by
  cases operation with
  | print text repeat_ fg bg => exact iff_of_true (proper_print inScreen text repeat_ fg bg) trivial
  | moveOffset offset =>
    exact iff_of_true ⟨inScreen_moveOffset printer offset, rfl, trivial⟩ trivial
  | moveTo x y => exact iff_of_true ⟨inScreen_moveTo printer x y, rfl, trivial⟩ trivial
  | clear color =>
    have corner : (printer.clear color).InScreen :=
      ⟨show (0 : Int) ≤ 0 by decide, show (0 : Int) ≤ w * h by decide⟩
    exact iff_of_true ⟨corner, rfl, trivial⟩ trivial
  | scrollUp =>
    have exact_ := inScreen_sub_iff inScreen (show printer.scrollUp.posCurrent = _ from rfl)
    exact ⟨fun proper => exact_.mp proper.inScreen, fun below => ⟨exact_.mpr below, rfl, trivial⟩⟩
  | scrollDown =>
    have exact_ := inScreen_sub_iff inScreen (show printer.scrollDown.posCurrent = _ from rfl)
    exact ⟨fun proper => exact_.mp proper.inScreen, fun below => ⟨exact_.mpr below, rfl, trivial⟩⟩

/-- **The position.** In a run from the start all operations are proper if and only if the paging
keys are pressed only where there is a line above the position. -/
theorem proper_iff_below (operations : List Operation) :
    Transition.Along step Proper start operations ↔
      Transition.Along step Below start operations := by
  have always : Transition.Along step (fun _ _ => True) start operations :=
    @Transition.Along.of_inputs _ _ step (fun _ => True) start operations fun _ _ => trivial
  have first : start.InScreen := ⟨by decide, by decide⟩
  exact Transition.Along.iff_of_invariant InScreen
    (fun _ operation _ inScreen => proper_iff inScreen operation)
    (fun _ operation _ inScreen below => ((proper_iff inScreen operation).mpr below).inScreen)
    always first

/-- A paging key in the first line puts the position before the screen, and the next print
throws. -/
theorem pageUp_not_proper :
    (step start .scrollUp).posCurrent = -80 ∧
      (operate (step start .scrollUp) (.print [0x61] 1 none none)).2 =
        some "vga error: offset is out of bounds" ∧
      ¬Transition.Along step Proper start [.scrollUp, .print [0x61] 1 none none] := by
  refine ⟨by decide, by decide +kernel, fun proper => ?_⟩
  exact absurd proper.1.inScreen.1 (by decide)

end Printer

end JsOS.Core.Tty
