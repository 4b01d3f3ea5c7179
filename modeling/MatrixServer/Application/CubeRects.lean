import MatrixServer.Application.CubeLines

/-!
Rectangles on a face.
The calls of `drawRect2D` lay the sides of a rectangle over its columns, all but the last of
which are filled before, so that what shows is the border and between it the filling.
-/

namespace MatrixServer
namespace CubeApplication
open InkLayers RasterLine

theorem through_line2D {x0 y0 x1 y1 : Int} (p : Int × Int) : Through (line2D x0 y0 x1 y1) p ↔
    ∃ i ≤ length2D x0 y0 x1 y1, x0 + along (length2D x0 y0 x1 y1) (x1 - x0) i = p.1 ∧
      y0 + along (length2D x0 y0 x1 y1) (y1 - y0) i = p.2 := by
  constructor
  · intro hthrough
    obtain ⟨point, hpoint, hp⟩ := hthrough
    obtain ⟨i, hi, haxes⟩ := mem_line.mp hpoint
    exact ⟨i, hi, (haxes 0).trans (hp 0), (haxes 1).trans (hp 1)⟩
  · intro hpassed
    obtain ⟨i, hi, hx, hy⟩ := hpassed
    refine ⟨pointAt (length2D x0 y0 x1 y1) ![x0, y0] ![x1, y1] i, ?_,
      Fin.forall_fin_two.mpr ⟨hx, hy⟩⟩
    exact mem_line.mpr ⟨i, hi, fun axis => rfl⟩

/-- An axis with the most to go passes every value between its ends. -/
theorem exists_passed {a b : Int} {M : Nat} (h : (b - a).natAbs = M) (value : Int) :
    (∃ i ≤ M, a + along M (b - a) i = value) ↔ Spans a b value := by
  have hpassed := exists_along h (value - a)
  have hspan : Spans a b value ↔ min 0 (b - a) ≤ value - a ∧ value - a ≤ max 0 (b - a) := by
    simp only [Spans]
    omega
  rw [hspan, ← hpassed]
  refine exists_congr fun i => and_congr_right fun _ => ?_
  omega

theorem through_vertical (x y0 y1 : Int) (p : Int × Int) :
    Through (line2D x y0 x y1) p ↔ p.1 = x ∧ Spans y0 y1 p.2 := by
  have hlength : (y1 - y0).natAbs = length2D x y0 x y1 := by
    simp only [length2D]
    omega
  rw [through_line2D, ← exists_passed hlength]
  simp only [Int.sub_self, along_still, Int.add_zero, and_left_comm, exists_and_left]
  exact and_congr_left fun _ => eq_comm

theorem through_horizontal (x0 x1 y : Int) (p : Int × Int) :
    Through (line2D x0 y x1 y) p ↔ p.2 = y ∧ Spans x0 x1 p.1 := by
  have hlength : (x1 - x0).natAbs = length2D x0 y x1 y := by
    simp only [length2D]
    omega
  rw [through_line2D, ← exists_passed hlength]
  simp only [Int.sub_self, along_still, Int.add_zero, ← and_assoc, exists_and_right]
  exact and_comm.trans (and_congr_left fun _ => eq_comm)

section
variable {s : ScreenNumber} {fuel : Nat} (unset : Vector3i) (hs : s ≠ .anyScreen)
include hs

theorem draws_vertical (x : Int) {y0 y1 : Int} (hfuel : (y1 - y0).natAbs < fuel) (col : Color) :
    Draws (fun screens => drawLine2D fuel unset screens s x y0 x y1 col) s
      (ink col fun p => p.1 = x ∧ Spans y0 y1 p.2) := by
  rw [← ink_congr col (through_vertical x y0 y1)]
  exact draws_line2D unset hs (by simp only [length2D]; omega) col

theorem draws_horizontal {x0 x1 : Int} (y : Int) (hfuel : (x1 - x0).natAbs < fuel) (col : Color) :
    Draws (fun screens => drawLine2D fuel unset screens s x0 y x1 y col) s
      (ink col fun p => p.2 = y ∧ Spans x0 x1 p.1) := by
  rw [← ink_congr col (through_horizontal x0 x1 y)]
  exact draws_line2D unset hs (by simp only [length2D]; omega) col

theorem draws_columns (x0 : Int) {y0 y1 : Int} (hfuel : (y1 - y0).natAbs < fuel)
    (count : Nat) (fillColor : Color) :
    Draws (fun screens => fillColumns fuel unset screens s x0 y0 y1 count fillColor) s
      (ink fillColor fun p => (x0 ≤ p.1 ∧ p.1 < x0 + count) ∧ Spans y0 y1 p.2) := by
  induction count with
  | zero =>
      rw [ink_nowhere fillColor fun p hp => by omega]
      exact draws_nothing s
  | succ count ih =>
      have hboth := ih.andThen (draws_vertical unset hs (x0 + count) hfuel fillColor)
      have hpoints : ∀ p : Int × Int, ((p.1 = x0 + count ∧ Spans y0 y1 p.2) ∨
          (x0 ≤ p.1 ∧ p.1 < x0 + count) ∧ Spans y0 y1 p.2) ↔
          (x0 ≤ p.1 ∧ p.1 < x0 + (count + 1 : Nat)) ∧ Spans y0 y1 p.2 := by
        intro p
        rw [← or_and_right]
        exact and_congr_left fun _ => by omega
      rw [overlay_ink, ink_congr fillColor hpoints] at hboth
      have hlast : (fun screens => fillColumns fuel unset screens s x0 y0 y1 (count + 1) fillColor)
          = fun screens => (fillColumns fuel unset screens s x0 y0 y1 count fillColor).bind
            fun screens => drawLine2D fuel unset screens s (x0 + count) y0 (x0 + count) y1
              fillColor := by
        funext screens
        rw [fillColumns, List.range_succ, List.foldlM_append]
        simp only [List.foldlM_cons, List.foldlM_nil, bind_pure]
        rfl
      rw [hlast]
      exact hboth

/-- The sides of the rectangle are drawn over its columns. -/
theorem draws_rect2D {x0 y0 x1 y1 : Int} (hx : x0 ≤ x1) (hfuel : length2D x0 y0 x1 y1 < fuel)
    (col : Color) (filled : Bool) (fillColor : Color) :
    Draws (fun screens => drawRect2D fuel unset screens s x0 y0 x1 y1 col filled fillColor) s
      (Rect.layer ⟨x0, y0, x1, y1⟩ col (if filled then some fillColor else none)) := by
  have hwidth : (x1 - x0).natAbs < fuel := Nat.lt_of_le_of_lt (Nat.le_max_left _ _) hfuel
  have hheight : (y1 - y0).natAbs < fuel := Nat.lt_of_le_of_lt (Nat.le_max_right _ _) hfuel
  have hwidth' : (x0 - x1).natAbs < fuel := by rw [← Int.natAbs_neg, Int.neg_sub]; exact hwidth
  have hheight' : (y0 - y1).natAbs < fuel := by rw [← Int.natAbs_neg, Int.neg_sub]; exact hheight
  have hleft := draws_vertical unset hs x0 hheight col
  have htop := draws_horizontal unset hs y0 hwidth col
  have hbottom := draws_horizontal unset hs y1 hwidth' col
  have hright := draws_vertical unset hs x1 hheight' col
  have hsides := hleft.andThen (htop.andThen (hbottom.andThen hright))
  rw [overlay_ink, overlay_ink, overlay_ink,
    ← ink_congr col (Rect.border_iff ⟨x0, y0, x1, y1⟩)] at hsides
  cases filled with
  | false =>
      rw [← Rect.layer_empty] at hsides
      exact hsides
  | true =>
      have hfill := draws_columns unset hs x0 hheight (x1 - x0).toNat fillColor
      have hcolumns : ∀ p : Int × Int,
          ((x0 ≤ p.1 ∧ p.1 < x0 + (x1 - x0).toNat) ∧ Spans y0 y1 p.2) ↔
          (x0 ≤ p.1 ∧ p.1 < x1) ∧ Spans y0 y1 p.2 := by
        intro p
        exact and_congr_left fun _ => by omega
      rw [ink_congr fillColor hcolumns] at hfill
      have hall := hfill.andThen hsides
      rw [Rect.border_over_columns ⟨x0, y0, x1, y1⟩ hx] at hall
      exact hall

end

end CubeApplication
open InkLayers

/-- `drawRect2D` draws the rectangle: its border in one colour, what lies strictly inside in
another one or not at all, and nothing else on this face or another one. -/
theorem drawRect2D_exact (unset : Vector3i) (screens : List Screen) (h : SixPanels screens)
    (s : ScreenNumber) (hs : s ≠ .anyScreen) (x0 y0 x1 y1 : Int) (hx : x0 ≤ x1) (col : Color)
    (filled : Bool) (fillColor : Color) (fuel : Nat)
    (hfuel : CubeApplication.length2D x0 y0 x1 y1 < fuel) :
    ∃ screens', CubeApplication.drawRect2D fuel unset screens s x0 y0 x1 y1 col filled fillColor =
        some screens' ∧
      SixPanels screens' ∧
      (∀ x y, CubeApplication.OnPanel x y → shownAt screens' s.index x y =
        if Rect.Border ⟨x0, y0, x1, y1⟩ (x, y) then some col
        else if filled = true ∧ Rect.Interior ⟨x0, y0, x1, y1⟩ (x, y) then some fillColor
        else shownAt screens s.index x y) ∧
      ∀ index x y, index < 6 → index ≠ s.index → CubeApplication.OnPanel x y →
        shownAt screens' index x y = shownAt screens index x y := by
  obtain ⟨screens', hdraw, hlaid⟩ :=
    CubeApplication.draws_rect2D unset hs hx hfuel col filled fillColor screens h
  refine ⟨screens', hdraw, hlaid.panels, ?_, ?_⟩
  · intro x y hon
    rw [hlaid.shown s.index x y (CubeApplication.index_lt hs) hon, if_pos rfl, Rect.layer]
    by_cases hborder : Rect.Border ⟨x0, y0, x1, y1⟩ (x, y)
    · rw [if_pos hborder, if_pos hborder, Option.some_or]
    · cases filled with
      | false => simp [hborder]
      | true =>
          simp only [hborder, if_false, true_and, if_true]
          split <;> rfl
  · intro index x y hindex hother hon
    rw [hlaid.shown index x y hindex hon, if_neg hother]

/-- A rectangle that reaches over the upper left corner of the front panel. -/
theorem drawRect2D_over_corner :
    ∃ screens', CubeApplication.drawRect2D 9 ![0, 0, 0] blackPanels .front (-3) 5 4 (-2)
        ⟨255, 0, 0⟩ true ⟨0, 255, 0⟩ = some screens' ∧
      shownAt screens' 0 0 5 = some ⟨255, 0, 0⟩ ∧ shownAt screens' 0 3 0 = some ⟨0, 255, 0⟩ := by
  obtain ⟨screens', hdraw, -, hface, -⟩ := drawRect2D_exact ![0, 0, 0] blackPanels
    sixPanels_blackPanels .front (by decide) (-3) 5 4 (-2) (by decide) ⟨255, 0, 0⟩ true
    ⟨0, 255, 0⟩ 9 (by decide)
  exact ⟨screens', hdraw, hface 0 5 (by decide), hface 3 0 (by decide)⟩

end MatrixServer
