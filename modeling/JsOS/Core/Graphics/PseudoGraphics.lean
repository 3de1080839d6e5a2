import JsOS.Core.Tty.Printer
import Mathlib.Algebra.Order.Floor.Ring
import Mathlib.Data.Int.Interval
import Mathlib.Data.Rat.Floor

/-! # Pseudo-graphics

Lines and circles on the text screen. A line is drawn along the columns from its first end to its
second, at the height that the quotient of the differences gives; a circle by eight plots for each
step of a loop, and a disc by eight lines from the centre. Coordinates are exact. The loop of a line
does nothing when the second end lies to the left, and when it lies above or below, the quotient is
not a number: so nothing is ever plotted but in the columns right of the first end.
-/

namespace JsOS.Core.Graphics

open Tty (Printer Cell getColor setCharOffset w h)

/-! ## Plots -/

/-- `screenWidth`. -/
def screenWidth : Int := 80

/-- `screenHeight`. -/
def screenHeight : Int := 25

/-- `limit`. -/
def limit (variable_ min max : ℚ) : ℚ :=
  if variable_ > max then max else if variable_ < min then min else variable_

/-- A call of `drawPlot`. There is no `y` if it is not a number. -/
structure Plot where
  x : Int
  y : Option ℚ
  deriving DecidableEq

/-- `_plot`. -/
def plotSymbol : UInt16 := 219

/-- `drawPlot`. At a position that is not a number the printer sets no cell of the screen. -/
def drawPlot (fg bg : Fin 16) (printer : Printer) (plot : Plot) : Printer :=
  let x := ⌊limit plot.x 0 screenWidth⌋
  let printed :=
    match plot.y with
    | some y => ((printer.moveTo x ⌊limit y 0 screenHeight⌋).print [plotSymbol] 1 fg bg).1
    | none => printer.refresh
  printed.moveTo screenWidth screenHeight

/-- A quotient. Where a line divides by zero, it divides zero. -/
def quotient (dividend divisor : ℚ) : Option ℚ :=
  if divisor = 0 then none else some (dividend / divisor)

/-- `drawLine`: its plots. -/
def drawLine (x1 y1 x2 y2 : Int) : List Plot :=
  let dx := x2 - x1
  let dy := y2 - y1
  (List.range (x2 + 1 - x1).toNat).map fun i : Nat =>
    let x := x1 + i
    ⟨x, (quotient (dy * (x - x1) : Int) dx).map fun rise => y1 + rise⟩

/-- The variables of the loop of `drawArc` and `fillArc`. -/
structure Arc where
  x : Int
  y : Int
  dx : Int
  dy : Int
  err : Int
  deriving DecidableEq

namespace Arc

/-- Where the loop starts. -/
def start (radius : Int) : Arc := ⟨radius - 1, 0, 1, 1, 1 - radius * 2⟩

/-- The end of a round. -/
def next (radius : Int) (arc : Arc) : Arc :=
  let arc :=
    if arc.err ≤ 0 then { arc with y := arc.y + 1, err := arc.err + arc.dy, dy := arc.dy + 2 }
    else arc
  if arc.err > 0 then
    { arc with x := arc.x - 1, dx := arc.dx + 2, err := arc.err + (arc.dx + 2 - radius * 2) }
  else arc

/-- In every round the point moves down or to the left. -/
theorem next_bounds (radius : Int) (arc : Arc) :
    (arc.next radius).x ≤ arc.x ∧ arc.y ≤ (arc.next radius).y ∧
      (arc.next radius).x - (arc.next radius).y < arc.x - arc.y := by
  unfold next
  dsimp only
  split
  · split
    · dsimp only
      omega
    · dsimp only
      omega
  · next right =>
      rw [if_pos (by omega)]
      dsimp only
      omega

/-- The loop, with what it draws in a round. -/
def loop {α : Type} (draw : Int → Int → List α) (radius : Int) (arc : Arc) : List α :=
  if arc.x ≥ arc.y then draw arc.x arc.y ++ loop draw radius (arc.next radius) else []
termination_by (arc.x - arc.y + 1).toNat
decreasing_by
  have less := next_bounds radius arc
  omega

end Arc

/-- The eight points of a round, in the order of `drawArc`. -/
def octants (x0 y0 x y : Int) : List (Int × Int) :=
  [(x0 + x, y0 + y), (x0 + y, y0 + x), (x0 - y, y0 + x), (x0 - x, y0 + y),
    (x0 - x, y0 - y), (x0 - y, y0 - x), (x0 + y, y0 - x), (x0 + x, y0 - y)]

/-- `drawArc`. -/
def drawArc (x0 y0 radius : Int) : List Plot :=
  (Arc.start radius).loop
    (fun x y => (octants x0 y0 x y).map fun point => ⟨point.1, some point.2⟩) radius

/-- `fillArc`. -/
def fillArc (x0 y0 radius : Int) : List Plot :=
  (Arc.start radius).loop
    (fun x y => (octants x0 y0 x y).flatMap fun point => drawLine x0 y0 point.1 point.2) radius

/-! ## Cells -/

/-- A coordinate after `drawPlot` and `moveTo` have limited it. -/
def limited (size : Int) (coordinate : ℚ) : Int :=
  if ⌊limit coordinate 0 size⌋ ≥ size then size - 1 else ⌊limit coordinate 0 size⌋

/-- The cell that a plot sets. -/
def Plot.cell (plot : Plot) : Option (Int × Int) :=
  plot.y.map fun y => (limited screenWidth plot.x, limited screenHeight y)

/-- The cell is one of those that are plotted. -/
def Plots (plots : List Plot) (cell : Int × Int) : Prop := ∃ plot ∈ plots, plot.cell = some cell

/-- The column and the line of a place on the screen. -/
def cellAt (place : Fin (w * h)) : Int × Int :=
  ((place.val % w : Nat), (place.val / w : Nat))

/-- What a plot writes. -/
def plotted (fg bg : Fin 16) : Cell := ⟨plotSymbol.toUInt8, getColor fg bg⟩

theorem limit_bounds {size : Int} (nonneg : 0 ≤ size) (coordinate : ℚ) :
    0 ≤ ⌊limit coordinate 0 size⌋ ∧ ⌊limit coordinate 0 size⌋ ≤ size := by
  have nonneg' : (0 : ℚ) ≤ size := by exact_mod_cast nonneg
  unfold limit
  split
  · rw [Int.floor_intCast]
    exact ⟨nonneg, le_rfl⟩
  · next small =>
      split
      · rw [Int.floor_zero]
        exact ⟨le_rfl, nonneg⟩
      · next large =>
          refine ⟨Int.floor_nonneg.mpr (not_lt.mp large), ?_⟩
          exact Int.cast_le.mp ((Int.floor_le coordinate).trans (not_lt.mp small))

/-- The effect of printing the symbol of a plot inside the screen. -/
theorem print_plotSymbol (fg bg : Fin 16) (printer : Printer) (inside : 0 ≤ printer.posCurrent)
    (before : printer.posCurrent < (w * h : Int)) (place : Fin (w * h)) :
    (printer.print [plotSymbol] 1 fg bg).1.buffer place =
      if (place.val : Int) = printer.posCurrent then plotted fg bg else printer.buffer place := by
  have room : ¬printer.posCurrent ≥ (w * h : Int) := by omega
  have outside : ¬(printer.posCurrent < 0 ∨ printer.posCurrent ≥ (w * h : Int)) := by omega
  have symbol : Printer.useControls plotSymbol 0 fg bg = none := rfl
  have one : (List.replicate 1 (Printer.withPrevious [plotSymbol])).flatten =
      [(0, plotSymbol)] := rfl
  unfold Printer.print Printer.printLoop
  rw [one, List.foldl_cons, List.foldl_nil]
  unfold Printer.printSymbol
  rw [if_neg (by simp)]
  dsimp only
  rw [symbol]
  dsimp only
  unfold Printer.put
  rw [if_neg (by decide)]
  dsimp only
  rw [if_neg room]
  unfold setCharOffset
  rw [if_neg outside]
  rfl

theorem limited_bounds {size : Int} (positive : 0 < size) (coordinate : ℚ) :
    0 ≤ limited size coordinate ∧ limited size coordinate < size := by
  have bounds := limit_bounds positive.le coordinate
  unfold limited
  split
  · exact ⟨by omega, by omega⟩
  · next below => exact ⟨bounds.1, by omega⟩

/-- `moveTo`, to limited coordinates. -/
theorem posCurrent_moveTo (printer : Printer) (x y : ℚ) :
    (printer.moveTo ⌊limit x 0 screenWidth⌋ ⌊limit y 0 screenHeight⌋).posCurrent =
      limited screenHeight y * w + limited screenWidth x := by
  have xBounds := @limit_bounds screenWidth (by decide) x
  have yBounds := @limit_bounds screenHeight (by decide) y
  unfold Printer.moveTo
  dsimp only
  rw [if_neg (not_lt.mpr xBounds.1), if_neg (not_lt.mpr yBounds.1)]
  rfl

/-- A cell of the screen is at one position. -/
theorem cellAt_eq (place : Fin (w * h)) {column row : Int} (columnNonneg : 0 ≤ column)
    (columnLt : column < screenWidth) :
    cellAt place = (column, row) ↔ (place.val : Int) = row * w + column := by
  obtain ⟨position, inside⟩ := place
  have width : w = 80 := rfl
  have target : screenWidth = 80 := rfl
  unfold cellAt
  rw [Prod.mk.injEq]
  dsimp only
  rw [width]
  constructor
  · intro coordinates
    omega
  · intro positionEq
    exact ⟨by omega, by omega⟩

/-- **A plot sets one cell of the screen**, or none. -/
theorem buffer_drawPlot (fg bg : Fin 16) (printer : Printer) (plot : Plot)
    (place : Fin (w * h)) :
    (drawPlot fg bg printer plot).buffer place =
      if plot.cell = some (cellAt place) then plotted fg bg else printer.buffer place := by
  unfold drawPlot Plot.cell
  cases plot.y with
  | none =>
      rw [Option.map_none, if_neg (by simp)]
      rfl
  | some y =>
      have columns := @limited_bounds screenWidth (by decide) plot.x
      have rows := @limited_bounds screenHeight (by decide) y
      have position := posCurrent_moveTo printer plot.x y
      have width : (w : Int) = 80 := rfl
      have size : (w * h : Int) = 2000 := rfl
      rw [width] at position
      have target : screenWidth = 80 ∧ screenHeight = 25 := ⟨rfl, rfl⟩
      have placed := @cellAt_eq place _ (limited screenHeight y) columns.1 columns.2
      have printed := print_plotSymbol fg bg
        (printer.moveTo ⌊limit plot.x 0 screenWidth⌋ ⌊limit y 0 screenHeight⌋)
        (by omega) (by omega) place
      rw [position, ← width] at printed
      dsimp only [Printer.moveTo] at printed ⊢
      rw [printed, Option.map_some, if_congr (Option.some_inj.trans (eq_comm.trans placed)) rfl rfl]

/-- **Plots one after another** set the cells that are plotted, and no others. -/
theorem buffer_drawPlots (fg bg : Fin 16) (plots : List Plot) (printer : Printer)
    (place : Fin (w * h)) :
    (plots.foldl (drawPlot fg bg) printer).buffer place =
      if ∃ plot ∈ plots, plot.cell = some (cellAt place) then plotted fg bg
      else printer.buffer place := by
  induction plots generalizing printer with
  | nil => simp
  | cons plot rest inductionHypothesis =>
      rw [List.foldl_cons, inductionHypothesis, buffer_drawPlot]
      by_cases later : ∃ plot ∈ rest, plot.cell = some (cellAt place)
      · rw [if_pos later, if_pos]
        exact List.exists_mem_cons_of_exists later
      · have only : (∃ other ∈ plot :: rest, other.cell = some (cellAt place)) ↔
            plot.cell = some (cellAt place) := by
          simp only [List.mem_cons, exists_eq_or_imp]
          exact or_iff_left later
        rw [if_neg later, if_congr only rfl rfl]

/-! ## Lines -/

/-- An integer place on the screen. -/
structure OnScreen (x y : Int) : Prop where
  xNonneg : 0 ≤ x
  xLt : x < screenWidth
  yNonneg : 0 ≤ y
  yLt : y < screenHeight

/-- A line plots both of its ends. -/
def Ends (x1 y1 x2 y2 : Int) : Prop :=
  Plots (drawLine x1 y1 x2 y2) (x1, y1) ∧ Plots (drawLine x1 y1 x2 y2) (x2, y2)

/-- A line plots a cell in every column from one end to the other. -/
def Columns (x1 y1 x2 y2 : Int) : Prop :=
  ∀ x, min x1 x2 ≤ x → x ≤ max x1 x2 → ∃ y, Plots (drawLine x1 y1 x2 y2) (x, y)

/-- A line plots a cell in every row from one end to the other. -/
def Rows (x1 y1 x2 y2 : Int) : Prop :=
  ∀ y, min y1 y2 ≤ y → y ≤ max y1 y2 → ∃ x, Plots (drawLine x1 y1 x2 y2) (x, y)

/-- A line plots the same cells from its other end. -/
def Swapped (x1 y1 x2 y2 : Int) : Prop :=
  ∀ cell, Plots (drawLine x1 y1 x2 y2) cell ↔ Plots (drawLine x2 y2 x1 y1) cell

/-- What is meant by a line. -/
structure LineRight (x1 y1 x2 y2 : Int) : Prop where
  ends : Ends x1 y1 x2 y2
  columns : Columns x1 y1 x2 y2
  rows : Rows x1 y1 x2 y2
  swapped : Swapped x1 y1 x2 y2

theorem limited_of_inside {size : Int} {coordinate : ℚ} (nonneg : 0 ≤ ⌊coordinate⌋)
    (below : ⌊coordinate⌋ < size) : limited size coordinate = ⌊coordinate⌋ := by
  have small : ¬coordinate > size := by
    have next := Int.lt_floor_add_one coordinate
    have atMost : ((⌊coordinate⌋ + 1 : Int) : ℚ) ≤ size := Int.cast_le.mpr below
    rw [Int.cast_add, Int.cast_one] at atMost
    exact not_lt.mpr (next.le.trans atMost)
  have large : ¬coordinate < 0 := not_lt.mpr (Int.floor_nonneg.mp nonneg)
  unfold limited limit
  rw [if_neg small, if_neg large, if_neg (not_le.mpr below)]

/-- No cell is plotted by a line that does not go to the right. -/
theorem plots_drawLine_of_le {x1 y1 x2 y2 : Int} (left : x2 ≤ x1) (cell : Int × Int) :
    ¬Plots (drawLine x1 y1 x2 y2) cell := by
  rintro ⟨plot, member, plotCell⟩
  obtain ⟨i, before, rfl⟩ := List.mem_map.mp member
  have level : x2 = x1 := by
    have := List.mem_range.mp before
    omega
  subst x2
  simp [Plot.cell, quotient] at plotCell

/-- The rise over a part of a line stays between its ends. -/
theorem rise_bounds {dx dy i : Int} (nonneg : 0 ≤ i) (atMost : i ≤ dx) (positive : 0 < dx) :
    min 0 dy ≤ dy * i / dx ∧ dy * i / dx ≤ max 0 dy := by
  rcases le_total 0 dy with up | down
  · rw [min_eq_left up, max_eq_right up]
    refine ⟨Int.ediv_nonneg (mul_nonneg up nonneg) positive.le, ?_⟩
    exact Int.ediv_le_of_le_mul positive (mul_le_mul_of_nonneg_left atMost up)
  · rw [min_eq_right down, max_eq_left down]
    constructor
    · rw [Int.le_ediv_iff_mul_le positive]
      exact mul_le_mul_of_nonpos_left atMost down
    · apply Int.ediv_le_of_le_mul positive
      rw [zero_mul]
      exact mul_nonpos_of_nonpos_of_nonneg down nonneg

theorem floor_quotient {dx : Int} (positive : 0 < dx) (y1 n : Int) :
    ⌊(y1 : ℚ) + (n : ℚ) / (dx : ℚ)⌋ = y1 + n / dx := by
  obtain ⟨size, rfl⟩ := Int.eq_ofNat_of_zero_le positive.le
  rw [Int.floor_intCast_add, Int.cast_natCast, Rat.floor_intCast_div_natCast]

/-- The cell in a column of a line. -/
theorem cell_drawLine {x1 y1 x2 y2 : Int} (first : OnScreen x1 y1) (second : OnScreen x2 y2)
    (right : x1 < x2) {x : Int} (fromFirst : x1 ≤ x) (toSecond : x ≤ x2) :
    Plot.cell ⟨x, (quotient ((y2 - y1) * (x - x1) : Int) (x2 - x1 : Int)).map
      fun rise => y1 + rise⟩ = some (x, y1 + (y2 - y1) * (x - x1) / (x2 - x1)) := by
  have divisor : ((x2 - x1 : Int) : ℚ) ≠ 0 := Int.cast_ne_zero.mpr (by omega)
  have rise := @rise_bounds (x2 - x1) (y2 - y1) (x - x1) (by omega) (by omega) (by omega)
  have floor := floor_quotient (show 0 < x2 - x1 by omega) y1 ((y2 - y1) * (x - x1))
  obtain ⟨xNonneg, xLt, yNonneg, yLt⟩ := first
  obtain ⟨xNonneg', xLt', yNonneg', yLt'⟩ := second
  have column : limited screenWidth (x : ℚ) = x := by
    rw [limited_of_inside (by rw [Int.floor_intCast]; omega) (by rw [Int.floor_intCast]; omega),
      Int.floor_intCast]
  have row := @limited_of_inside screenHeight
    (y1 + (((y2 - y1) * (x - x1) : Int) : ℚ) / ((x2 - x1 : Int) : ℚ))
    (by rw [floor]; omega) (by rw [floor]; omega)
  unfold Plot.cell quotient
  rw [if_neg divisor, Option.map_some, Option.map_some, column, row, floor]

/-- **The cells of a line to the right**: one in every column, at the quotient's floor. -/
theorem plots_drawLine {x1 y1 x2 y2 : Int} (first : OnScreen x1 y1) (second : OnScreen x2 y2)
    (right : x1 < x2) (x y : Int) :
    Plots (drawLine x1 y1 x2 y2) (x, y) ↔
      x1 ≤ x ∧ x ≤ x2 ∧ y = y1 + (y2 - y1) * (x - x1) / (x2 - x1) := by
  constructor
  · rintro ⟨plot, member, plotCell⟩
    obtain ⟨i, before, rfl⟩ := List.mem_map.mp member
    have last := List.mem_range.mp before
    have placed := (cell_drawLine first second right (x := x1 + i) (by omega)
      (by omega)).symm.trans plotCell
    rw [Option.some.injEq, Prod.mk.injEq] at placed
    obtain ⟨rfl, rfl⟩ := placed
    exact ⟨by omega, by omega, rfl⟩
  · rintro ⟨fromFirst, toSecond, rfl⟩
    refine ⟨_, List.mem_map.mpr ⟨(x - x1).toNat, List.mem_range.mpr (by omega), rfl⟩, ?_⟩
    have column : x1 + ((x - x1).toNat : Int) = x := by omega
    rw [column]
    exact cell_drawLine first second right fromFirst toSecond

/-- A line to the right has both of its ends. -/
theorem ends_drawLine {x1 y1 x2 y2 : Int} (first : OnScreen x1 y1) (second : OnScreen x2 y2)
    (right : x1 < x2) : Ends x1 y1 x2 y2 := by
  constructor
  · rw [plots_drawLine first second right]
    refine ⟨le_rfl, right.le, ?_⟩
    rw [sub_self, mul_zero, Int.zero_ediv, add_zero]
  · rw [plots_drawLine first second right]
    refine ⟨right.le, le_rfl, ?_⟩
    rw [Int.mul_ediv_cancel _ (by omega), add_sub_cancel]

/-- A slope of at most one takes every row between the ends. -/
theorem exists_rise {dx dy a : Int} (positive : 0 < dx) (flat : |dy| ≤ dx)
    (lower : min 0 dy ≤ a) (upper : a ≤ max 0 dy) :
    ∃ i, 0 ≤ i ∧ i ≤ dx ∧ a = dy * i / dx := by
  have rises (i : Int) (low : a * dx ≤ dy * i) (high : dy * i < a * dx + dx) :
      a = dy * i / dx := by
    apply le_antisymm (Int.le_ediv_of_mul_le positive low)
    apply Int.lt_add_one_iff.mp
    apply Int.ediv_lt_of_lt_mul positive
    rw [add_mul, one_mul]
    exact high
  obtain ⟨above, below⟩ := abs_le.mp flat
  rcases lt_trichotomy dy 0 with down | rfl | up
  · -- going down, the last column before the line leaves the row
    rw [min_eq_right down.le] at lower
    rw [max_eq_left down.le] at upper
    have last := Int.ediv_mul_le (-a * dx) (show -dy ≠ 0 by omega)
    have beyond := Int.lt_ediv_add_one_mul_self (-a * dx) (show 0 < -dy by omega)
    refine ⟨-a * dx / -dy, ?_, ?_, rises _ (by linarith) (by linarith)⟩
    · exact Int.ediv_nonneg (mul_nonneg (by omega) positive.le) (by omega)
    · apply Int.ediv_le_of_le_mul (by omega)
      rw [mul_comm]
      exact mul_le_mul_of_nonneg_left (by omega) positive.le
  · rw [min_self] at lower
    rw [max_self] at upper
    exact ⟨0, le_rfl, positive.le, by rw [mul_zero, Int.zero_ediv]; omega⟩
  · -- going up, the first column in which the line has reached the row
    rw [min_eq_left up.le] at lower
    rw [max_eq_right up.le] at upper
    have first := Int.ediv_mul_le (-a * dx) up.ne'
    have before := Int.lt_ediv_add_one_mul_self (-a * dx) up
    refine ⟨-(-a * dx / dy), ?_, ?_, rises _ (by linarith) (by linarith)⟩
    · rw [neg_nonneg]
      apply Int.ediv_le_of_le_mul up
      rw [zero_mul]
      exact mul_nonpos_of_nonpos_of_nonneg (by omega) positive.le
    · rw [neg_le]
      apply Int.le_ediv_of_mul_le up
      rw [neg_mul, neg_mul, neg_le_neg_iff, mul_comm]
      exact mul_le_mul_of_nonneg_left upper positive.le

/-- A steeper line misses a row: it has fewer columns than rows. -/
theorem exists_missed {dx dy : Int} (positive : 0 < dx) (steep : dx < |dy|) :
    ∃ a, min 0 dy ≤ a ∧ a ≤ max 0 dy ∧ ∀ i, 0 ≤ i → i ≤ dx → a ≠ dy * i / dx := by
  by_contra reached
  push Not at reached
  have onto : Set.SurjOn (fun i => dy * i / dx) (Finset.Icc 0 dx : Finset Int)
      (Finset.Icc (min 0 dy) (max 0 dy) : Finset Int) := by
    intro a between
    rw [Finset.coe_Icc] at between
    obtain ⟨i, nonneg, atMost, rise⟩ := reached a between.1 between.2
    refine ⟨i, ?_, rise.symm⟩
    rw [Finset.coe_Icc]
    exact ⟨nonneg, atMost⟩
  have fewer := Finset.card_le_card_of_surjOn _ onto
  rw [Int.card_Icc, Int.card_Icc] at fewer
  rcases le_total 0 dy with up | down
  · rw [abs_of_nonneg up] at steep
    rw [min_eq_left up, max_eq_right up] at fewer
    omega
  · rw [abs_of_nonpos down] at steep
    rw [min_eq_right down, max_eq_left down] at fewer
    omega

section Clauses

variable {x1 y1 x2 y2 : Int} (first : OnScreen x1 y1) (second : OnScreen x2 y2)

include first second

theorem ends_iff : Ends x1 y1 x2 y2 ↔ x1 < x2 := by
  constructor
  · intro ends
    by_contra left
    exact plots_drawLine_of_le (not_lt.mp left) _ ends.1
  · exact ends_drawLine first second

theorem columns_iff : Columns x1 y1 x2 y2 ↔ x1 < x2 := by
  constructor
  · intro columns
    obtain ⟨y, plots⟩ := columns x1 (min_le_left _ _) (le_max_left _ _)
    by_contra left
    exact plots_drawLine_of_le (not_lt.mp left) _ plots
  · intro right x fromFirst toSecond
    rw [min_eq_left right.le] at fromFirst
    rw [max_eq_right right.le] at toSecond
    exact ⟨_, (plots_drawLine first second right x _).mpr ⟨fromFirst, toSecond, rfl⟩⟩

theorem rows_iff : Rows x1 y1 x2 y2 ↔ x1 < x2 ∧ |y2 - y1| ≤ x2 - x1 := by
  constructor
  · intro rows
    have right : x1 < x2 := by
      obtain ⟨x, plots⟩ := rows y1 (min_le_left _ _) (le_max_left _ _)
      by_contra left
      exact plots_drawLine_of_le (not_lt.mp left) _ plots
    refine ⟨right, ?_⟩
    by_contra steep
    obtain ⟨a, lower, upper, missed⟩ := exists_missed (show 0 < x2 - x1 by omega) (not_le.mp steep)
    obtain ⟨x, plots⟩ := rows (y1 + a) (by omega) (by omega)
    rw [plots_drawLine first second right] at plots
    obtain ⟨fromFirst, toSecond, row⟩ := plots
    exact missed (x - x1) (by omega) (by omega) (by omega)
  · rintro ⟨right, flat⟩ y lower upper
    obtain ⟨i, nonneg, atMost, rise⟩ := @exists_rise (x2 - x1) (y2 - y1) (y - y1) (by omega) flat
      (by omega) (by omega)
    refine ⟨x1 + i, ?_⟩
    rw [plots_drawLine first second right, add_sub_cancel_left]
    exact ⟨by omega, by omega, by omega⟩

theorem swapped_iff : Swapped x1 y1 x2 y2 ↔ x1 = x2 := by
  constructor
  · intro swapped
    rcases lt_trichotomy x1 x2 with right | level | left
    · have plots := (swapped _).mp (ends_drawLine first second right).1
      exact absurd plots (plots_drawLine_of_le right.le _)
    · exact level
    · have plots := (swapped _).mpr (ends_drawLine second first left).1
      exact absurd plots (plots_drawLine_of_le left.le _)
  · rintro rfl cell
    exact iff_of_false (plots_drawLine_of_le le_rfl cell) (plots_drawLine_of_le le_rfl cell)

/-- **No line is right**: one to the right is not the same from its other end, and any other plots
nothing. -/
theorem not_lineRight : ¬LineRight x1 y1 x2 y2 := by
  intro right
  have ends := (ends_iff first second).mp right.ends
  have swapped := (swapped_iff first second).mp right.swapped
  omega

end Clauses

/-! ## Discs -/

/-- The points of a circle, in the order in which they are plotted. -/
def circle (x0 y0 radius : Int) : List (Int × Int) :=
  (Arc.start radius).loop (octants x0 y0) radius

theorem Arc.loop_flatMap {α β : Type} (draw : Int → Int → List α) (each : α → List β)
    (radius : Int) (arc : Arc) :
    arc.loop (fun x y => (draw x y).flatMap each) radius =
      (arc.loop draw radius).flatMap each := by
  induction arc using Arc.loop.induct radius with
  | case1 arc continues inductionHypothesis =>
      rw [Arc.loop, if_pos continues, inductionHypothesis]
      nth_rewrite 2 [Arc.loop]
      rw [if_pos continues, List.flatMap_append]
  | case2 arc ends =>
      rw [Arc.loop, if_neg ends, Arc.loop, if_neg ends, List.flatMap_nil]

/-- A circle plots its points. -/
theorem drawArc_eq (x0 y0 radius : Int) :
    drawArc x0 y0 radius =
      (circle x0 y0 radius).flatMap fun point => [⟨point.1, some point.2⟩] := by
  unfold drawArc circle
  rw [← Arc.loop_flatMap]
  simp only [← List.map_eq_flatMap]

/-- A disc draws a line from its centre to each point of the circle. -/
theorem fillArc_eq (x0 y0 radius : Int) :
    fillArc x0 y0 radius =
      (circle x0 y0 radius).flatMap fun point => drawLine x0 y0 point.1 point.2 :=
  Arc.loop_flatMap (octants x0 y0) _ radius _

/-- A circle lies inside the screen. -/
def CircleInside (x0 y0 radius : Int) : Prop :=
  ∀ plot ∈ drawArc x0 y0 radius, ∀ y : Int, plot.y = some (y : ℚ) → OnScreen plot.x y

/-- A disc plots every cell that its circle plots. -/
def Filled (x0 y0 radius : Int) : Prop :=
  ∀ cell, Plots (drawArc x0 y0 radius) cell → Plots (fillArc x0 y0 radius) cell

/-- What a loop draws, it draws in a round with `0 ≤ y ≤ x`, and with no greater `x` than at its
start. -/
theorem Arc.mem_loop {α : Type} (draw : Int → Int → List α) (radius : Int) (arc : Arc)
    (nonneg : 0 ≤ arc.y) {drawn : α} (member : drawn ∈ arc.loop draw radius) :
    ∃ x y, 0 ≤ y ∧ y ≤ x ∧ x ≤ arc.x ∧ drawn ∈ draw x y := by
  induction arc using Arc.loop.induct radius with
  | case1 arc continues inductionHypothesis =>
      obtain ⟨xLe, yLe, -⟩ := arc.next_bounds radius
      rw [Arc.loop, if_pos continues, List.mem_append] at member
      rcases member with now | later
      · exact ⟨arc.x, arc.y, nonneg, continues, le_rfl, now⟩
      · obtain ⟨x, y, yNonneg, below, xLe', drawn⟩ := inductionHypothesis (by omega) later
        exact ⟨x, y, yNonneg, below, by omega, drawn⟩
  | case2 arc ends =>
      rw [Arc.loop, if_neg ends] at member
      exact absurd member List.not_mem_nil

/-- A circle stays within its radius. -/
theorem circle_bounds {x0 y0 radius : Int} {point : Int × Int}
    (member : point ∈ circle x0 y0 radius) :
    |point.1 - x0| ≤ radius - 1 ∧ |point.2 - y0| ≤ radius - 1 := by
  obtain ⟨x, y, nonneg, below, atMost, drawn⟩ := Arc.mem_loop _ _ _ le_rfl member
  have atMost : x ≤ radius - 1 := atMost
  rw [abs_le, abs_le]
  simp only [octants, List.mem_cons, List.not_mem_nil, or_false] at drawn
  rcases drawn with rfl | rfl | rfl | rfl | rfl | rfl | rfl | rfl <;>
    exact ⟨⟨by dsimp only; omega, by dsimp only; omega⟩,
      by dsimp only; omega, by dsimp only; omega⟩

/-- The first round of a circle: its points beside the centre. -/
theorem circle_first {x0 y0 radius : Int} (positive : 0 < radius) :
    (x0 + (radius - 1), y0) ∈ circle x0 y0 radius ∧
      (x0 - (radius - 1), y0) ∈ circle x0 y0 radius := by
  have continues : (Arc.start radius).x ≥ (Arc.start radius).y := Int.sub_nonneg_of_le positive
  unfold circle
  rw [Arc.loop, if_pos continues]
  simp [Arc.start, octants]

theorem circle_nil {x0 y0 radius : Int} (nonpos : radius ≤ 0) : circle x0 y0 radius = [] := by
  have ends : ¬(Arc.start radius).x ≥ (Arc.start radius).y := by
    dsimp only [Arc.start]
    omega
  unfold circle
  rw [Arc.loop, if_neg ends]

theorem onScreen_of_circleInside {x0 y0 radius : Int} (inside : CircleInside x0 y0 radius)
    {point : Int × Int} (member : point ∈ circle x0 y0 radius) : OnScreen point.1 point.2 := by
  refine inside ⟨point.1, some point.2⟩ ?_ point.2 rfl
  rw [drawArc_eq, List.mem_flatMap]
  exact ⟨point, member, List.mem_singleton_self _⟩

/-- A circle lies inside the screen if the square around it does. -/
theorem circleInside_of_square {x0 y0 radius : Int} (left : radius - 1 ≤ x0)
    (right : x0 + (radius - 1) < screenWidth) (top : radius - 1 ≤ y0)
    (bottom : y0 + (radius - 1) < screenHeight) : CircleInside x0 y0 radius := by
  intro plot member y yEq
  rw [drawArc_eq, List.mem_flatMap] at member
  obtain ⟨point, onCircle, same⟩ := member
  obtain rfl := List.mem_singleton.mp same
  obtain rfl := Int.cast_injective (Option.some_injective _ yEq)
  have bounds := circle_bounds onCircle
  rw [abs_le, abs_le] at bounds
  obtain ⟨⟨xLower, xUpper⟩, yLower, yUpper⟩ := bounds
  exact ⟨by dsimp only; omega, by dsimp only; omega, by omega, by omega⟩

/-- A disc plots cells to the right of its centre only, from the centre on. -/
theorem right_of_plots_fillArc {x0 y0 radius : Int} (inside : CircleInside x0 y0 radius)
    {x y : Int} (plots : Plots (fillArc x0 y0 radius) (x, y)) : x0 ≤ x ∧ 1 < radius := by
  obtain ⟨plot, member, cell⟩ := plots
  rw [fillArc_eq, List.mem_flatMap] at member
  obtain ⟨point, onCircle, inLine⟩ := member
  have plots : Plots (drawLine x0 y0 point.1 point.2) (x, y) := ⟨plot, inLine, cell⟩
  have right : x0 < point.1 := by
    by_contra left
    exact plots_drawLine_of_le (not_lt.mp left) _ plots
  have bounds := (abs_le.mp (circle_bounds onCircle).1).2
  have positive : 0 < radius := by omega
  have centre : OnScreen x0 y0 := by
    obtain ⟨rightFirst, leftFirst⟩ := @circle_first x0 y0 radius positive
    obtain ⟨-, rightLt, yNonneg, yLt⟩ := onScreen_of_circleInside inside rightFirst
    obtain ⟨leftNonneg, -, -, -⟩ := onScreen_of_circleInside inside leftFirst
    exact ⟨by omega, by omega, yNonneg, yLt⟩
  rw [plots_drawLine centre (onScreen_of_circleInside inside onCircle) right] at plots
  exact ⟨plots.1, by omega⟩

/-- **A disc has the cells of its circle** only if the circle is empty: on its left there is a cell
that no line plots. -/
theorem filled_iff {x0 y0 radius : Int} (inside : CircleInside x0 y0 radius) :
    Filled x0 y0 radius ↔ radius ≤ 0 := by
  constructor
  · intro filled
    by_contra positive
    have leftmost := (@circle_first x0 y0 radius (not_le.mp positive)).2
    obtain ⟨xNonneg, xLt, yNonneg, yLt⟩ := onScreen_of_circleInside inside leftmost
    have plots : Plots (drawArc x0 y0 radius) (x0 - (radius - 1), y0) := by
      refine ⟨⟨x0 - (radius - 1), some (y0 : ℚ)⟩, ?_, ?_⟩
      · rw [drawArc_eq, List.mem_flatMap]
        exact ⟨_, leftmost, List.mem_singleton_self _⟩
      · dsimp only [Plot.cell]
        rw [Option.map_some, limited_of_inside, limited_of_inside, Int.floor_intCast,
          Int.floor_intCast]
        all_goals rw [Int.floor_intCast]; assumption
    have right := right_of_plots_fillArc inside (filled _ plots)
    omega
  · intro nonpos cell plots
    obtain ⟨plot, member, -⟩ := plots
    rw [drawArc_eq, circle_nil nonpos, List.flatMap_nil] at member
    exact absurd member List.not_mem_nil

/-- **Lines and discs**: a line has its ends and its columns exactly if it goes to the right, its
rows exactly if it is not steep either, and the same cells from its other end exactly if it plots
nothing. So no line is right, and no disc with a point on its circle is filled. -/
theorem lines_and_discs {x1 y1 x2 y2 x0 y0 radius : Int} (first : OnScreen x1 y1)
    (second : OnScreen x2 y2) (inside : CircleInside x0 y0 radius) :
    (Ends x1 y1 x2 y2 ↔ x1 < x2) ∧ (Columns x1 y1 x2 y2 ↔ x1 < x2) ∧
      (Rows x1 y1 x2 y2 ↔ x1 < x2 ∧ |y2 - y1| ≤ x2 - x1) ∧
      (Swapped x1 y1 x2 y2 ↔ x1 = x2) ∧ ¬LineRight x1 y1 x2 y2 ∧
      (Filled x0 y0 radius ↔ radius ≤ 0) :=
  ⟨ends_iff first second, columns_iff first second, rows_iff first second,
    swapped_iff first second, not_lineRight first second, filled_iff inside⟩

/-- A line to the left, and a disc of nine columns. -/
theorem lines_and_discs_left :
    ¬LineRight 3 0 0 0 ∧ ¬Filled 40 12 5 := by
  have exact_ := @lines_and_discs 3 0 0 0 40 12 5 ⟨by decide, by decide, by decide, by decide⟩
    ⟨by decide, by decide, by decide, by decide⟩
    (circleInside_of_square (by decide) (by decide) (by decide) (by decide))
  obtain ⟨-, -, -, -, notRight, filled⟩ := exact_
  exact ⟨notRight, fun isFilled => absurd (filled.mp isFilled) (by decide)⟩

/-- The line from the last column of the first row to its first column plots nothing. -/
theorem drawLine_leftward :
    OnScreen 79 0 ∧ OnScreen 0 0 ∧ drawLine 79 0 0 0 = [] ∧ ¬LineRight 79 0 0 0 := by
  refine ⟨⟨by decide, by decide, by decide, by decide⟩,
    ⟨by decide, by decide, by decide, by decide⟩, rfl, ?_⟩
  intro right
  obtain ⟨plot, member, -⟩ := right.ends.1
  exact absurd member List.not_mem_nil

end JsOS.Core.Graphics
