import MatrixServer.Application.CubeRects

/-!
Rectangles given by their centre.
`drawRectCentered2D` puts the bottom edge `w / 2` below the centre, where `h / 2` is meant. The
rectangle drawn and the one asked for differ in the rows from the higher bottom edge to the
lower one, and nowhere else.
-/

namespace MatrixServer
namespace CubeApplication
open InkLayers

/-- The rectangle around a centre, reaching `a` to its sides and `b` up and down. -/
def centredLayer (x0 y0 a b : Int) (col fillColor : Color) : Layer (Int × Int) Color :=
  fun p =>
    if (p.1 - x0).natAbs ≤ a ∧ (p.2 - y0).natAbs ≤ b then
      some (if (p.1 - x0).natAbs = a ∨ (p.2 - y0).natAbs = b then col else fillColor)
    else none

/-- On any screens and with any colours, the picture is the rectangle around the centre. -/
def CentredPicture (fuel : Nat) (unset : Vector3i) (s : ScreenNumber) (x0 y0 w h : Int) : Prop :=
  ∀ col fillColor, Draws
    (fun screens => drawRectCentered2D fuel unset screens s x0 y0 w h col true fillColor) s
    (centredLayer x0 y0 (w / 2) (h / 2) col fillColor)

/-- The sizes have the same half, or all rows in which the pictures differ lie beside the panel:
the columns of the rectangle do, the rows do, or the first of these rows is the panel's last one
and shows no inside. -/
def HeightUnseen (x0 y0 a b : Int) : Prop :=
  a = b ∨ x0 + a < 0 ∨ 63 < x0 - a ∨ y0 + max a b < 0 ∨ 63 < y0 + min a b ∨
    (y0 + min a b = 63 ∧ (a = 0 ∨ b = 0 ∨ x0 + a ≤ 0 ∨ 63 ≤ x0 - a))

instance (x0 y0 a b : Int) : Decidable (HeightUnseen x0 y0 a b) :=
  inferInstanceAs (Decidable (_ ∨ _ ∨ _ ∨ _ ∨ _ ∨ _))

/-- Where two rectangles of one width differ that start in one row and end in two. -/
def Differ (x0 y0 x1 bottom bottom' : Int) (p : Int × Int) : Prop :=
  (x0 ≤ p.1 ∧ p.1 ≤ x1 ∧ bottom < p.2 ∧ p.2 ≤ bottom') ∨
    (p.2 = bottom ∧ y0 < bottom ∧ x0 < p.1 ∧ p.1 < x1)

section
variable {x0 y0 x1 bottom bottom' : Int} (hx : x0 ≤ x1) (hy : y0 ≤ bottom)
    (hbottom : bottom < bottom') (p : Int × Int)
include hx hy hbottom

theorem layer_agrees (hsame : ¬ Differ x0 y0 x1 bottom bottom' p) (col fillColor : Color) :
    Rect.layer ⟨x0, y0, x1, bottom⟩ col (some fillColor) p =
      Rect.layer ⟨x0, y0, x1, bottom'⟩ col (some fillColor) p := by
  have hborder : Rect.Border ⟨x0, y0, x1, bottom⟩ p ↔ Rect.Border ⟨x0, y0, x1, bottom'⟩ p := by
    simp only [Differ, Rect.Border, Rect.Covers, Spans] at hsame ⊢
    omega
  have hinside : Rect.Interior ⟨x0, y0, x1, bottom⟩ p ↔
      Rect.Interior ⟨x0, y0, x1, bottom'⟩ p := by
    simp only [Differ, Rect.Interior] at hsame ⊢
    omega
  simp only [Rect.layer, hborder, hinside]

theorem layer_differs (hdiffer : Differ x0 y0 x1 bottom bottom' p) {col fillColor : Color}
    (hcolours : col ≠ fillColor) :
    Rect.layer ⟨x0, y0, x1, bottom⟩ col (some fillColor) p ≠
      Rect.layer ⟨x0, y0, x1, bottom'⟩ col (some fillColor) p := by
  cases hdiffer with
  | inl hbelow =>
      have hnone : ¬ Rect.Border ⟨x0, y0, x1, bottom⟩ p ∧
          ¬ Rect.Interior ⟨x0, y0, x1, bottom⟩ p := by
        simp only [Rect.Border, Rect.Covers, Rect.Interior, Spans]
        omega
      have hsome : Rect.Border ⟨x0, y0, x1, bottom'⟩ p ∨
          Rect.Interior ⟨x0, y0, x1, bottom'⟩ p := by
        simp only [Rect.Border, Rect.Covers, Rect.Interior, Spans]
        omega
      rw [Rect.layer, if_neg hnone.1, if_neg hnone.2, Rect.layer]
      split
      · exact (Option.some_ne_none col).symm
      · rename_i hborder
        rw [if_pos (hsome.resolve_left hborder)]
        exact (Option.some_ne_none fillColor).symm
  | inr hrow =>
      have hedge : Rect.Border ⟨x0, y0, x1, bottom⟩ p := by
        simp only [Rect.Border, Rect.Covers, Spans]
        omega
      have hinside : ¬ Rect.Border ⟨x0, y0, x1, bottom'⟩ p ∧
          Rect.Interior ⟨x0, y0, x1, bottom'⟩ p := by
        simp only [Rect.Border, Rect.Covers, Rect.Interior, Spans]
        omega
      rw [Rect.layer, if_pos hedge, Rect.layer, if_neg hinside.1, if_pos hinside.2]
      intro hsame
      exact hcolours (Option.some.inj hsame)

end

theorem centredLayer_eq (x0 y0 : Int) {a b : Int} (ha : 0 ≤ a) (hb : 0 ≤ b)
    (col fillColor : Color) :
    centredLayer x0 y0 a b col fillColor =
      Rect.layer ⟨x0 - a, y0 - b, x0 + a, y0 + b⟩ col (some fillColor) := by
  funext p
  rw [centredLayer]
  split
  · rename_i hcovers
    have hborder : ((p.1 - x0).natAbs = a ∨ (p.2 - y0).natAbs = b) ↔
        Rect.Border ⟨x0 - a, y0 - b, x0 + a, y0 + b⟩ p := by
      simp only [Rect.Border, Rect.Covers, Spans]
      omega
    have hinside : ¬ Rect.Border ⟨x0 - a, y0 - b, x0 + a, y0 + b⟩ p →
        Rect.Interior ⟨x0 - a, y0 - b, x0 + a, y0 + b⟩ p := by
      simp only [Rect.Border, Rect.Covers, Rect.Interior, Spans]
      omega
    rw [Rect.layer]
    split
    · rename_i hedge
      rw [if_pos (hborder.mp hedge)]
    · rename_i hedge
      rw [if_neg (hborder.not.mp hedge), if_pos (hinside (hborder.not.mp hedge))]
  · rename_i hbeside
    have hnone : ¬ Rect.Border ⟨x0 - a, y0 - b, x0 + a, y0 + b⟩ p ∧
        ¬ Rect.Interior ⟨x0 - a, y0 - b, x0 + a, y0 + b⟩ p := by
      simp only [Rect.Border, Rect.Covers, Rect.Interior, Spans]
      omega
    rw [Rect.layer, if_neg hnone.1, if_neg hnone.2]

/-- The rows in which the rectangle drawn and the one asked for differ show on the panel. -/
theorem exists_differ_of_seen {x0 y0 a b : Int} (ha : 0 ≤ a) (hb : 0 ≤ b)
    (hseen : ¬ HeightUnseen x0 y0 a b) : ∃ x y, OnPanel x y ∧
      Differ (x0 - a) (y0 - b) (x0 + a) (y0 + min a b) (y0 + max a b) (x, y) := by
  simp only [HeightUnseen] at hseen
  simp only [OnPanel, CUBESIZE, Differ]
  cases Int.lt_or_le (y0 + min a b) 63 with
  | inl hrow =>
      refine ⟨max (x0 - a) 0, max (y0 + min a b + 1) 0, ?_, .inl ?_⟩
      all_goals omega
  | inr hrow =>
      refine ⟨max (x0 - a + 1) 0, 63, ?_, .inr ?_⟩
      all_goals omega

theorem not_differ_of_unseen {x0 y0 a b : Int} (hne : a ≠ b) (hunseen : HeightUnseen x0 y0 a b)
    {x y : Int} (hon : OnPanel x y) :
    ¬ Differ (x0 - a) (y0 - b) (x0 + a) (y0 + min a b) (y0 + max a b) (x, y) := by
  simp only [HeightUnseen] at hunseen
  simp only [OnPanel, CUBESIZE] at hon
  simp only [Differ]
  omega

/-- An ink that is not the picture's colour shows where it was drawn. -/
theorem eq_of_or_black {drawn drawn' : Option Color} (h : drawn ≠ some .black)
    (h' : drawn' ≠ some .black) (hsame : drawn.or (some .black) = drawn'.or (some .black)) :
    drawn = drawn' := by
  cases drawn with
  | none =>
      cases drawn' with
      | none => rfl
      | some colour => exact absurd hsame.symm h'
  | some colour =>
      cases drawn' with
      | none => exact absurd hsame h
      | some colour' => exact hsame

theorem layer_ne {col fillColor colour : Color} (hcol : col ≠ colour) (hfill : fillColor ≠ colour)
    (r : Rect) (p : Int × Int) : r.layer col (some fillColor) p ≠ some colour := by
  rw [Rect.layer]
  split
  · exact fun h => hcol (Option.some.inj h)
  · split
    · exact fun h => hfill (Option.some.inj h)
    · exact (Option.some_ne_none colour).symm

/-- The bottom edge drawn and the one asked for, the higher one first. -/
theorem bottoms_cases (y0 : Int) {a b : Int} (h : a ≠ b) :
    (y0 + min a b = y0 + a ∧ y0 + max a b = y0 + b ∧ y0 + a < y0 + b) ∨
      (y0 + min a b = y0 + b ∧ y0 + max a b = y0 + a ∧ y0 + b < y0 + a) := by
  omega

section
variable {x0 y0 a b : Int} (ha : 0 ≤ a) (hb : 0 ≤ b) (hne : a ≠ b) (p : Int × Int)
include ha hb hne

theorem centred_agrees
    (hsame : ¬ Differ (x0 - a) (y0 - b) (x0 + a) (y0 + min a b) (y0 + max a b) p)
    (col fillColor : Color) :
    Rect.layer ⟨x0 - a, y0 - b, x0 + a, y0 + a⟩ col (some fillColor) p =
      Rect.layer ⟨x0 - a, y0 - b, x0 + a, y0 + b⟩ col (some fillColor) p := by
  obtain ⟨hmin, hmax, hlt⟩ | ⟨hmin, hmax, hlt⟩ := bottoms_cases y0 hne
  · rw [hmin, hmax] at hsame
    exact layer_agrees (by omega) (by omega) hlt p hsame col fillColor
  · rw [hmin, hmax] at hsame
    exact (layer_agrees (by omega) (by omega) hlt p hsame col fillColor).symm

theorem centred_differs
    (hdiffer : Differ (x0 - a) (y0 - b) (x0 + a) (y0 + min a b) (y0 + max a b) p)
    {col fillColor : Color} (hcolours : col ≠ fillColor) :
    Rect.layer ⟨x0 - a, y0 - b, x0 + a, y0 + a⟩ col (some fillColor) p ≠
      Rect.layer ⟨x0 - a, y0 - b, x0 + a, y0 + b⟩ col (some fillColor) p := by
  obtain ⟨hmin, hmax, hlt⟩ | ⟨hmin, hmax, hlt⟩ := bottoms_cases y0 hne
  · rw [hmin, hmax] at hdiffer
    exact layer_differs (by omega) (by omega) hlt p hdiffer hcolours
  · rw [hmin, hmax] at hdiffer
    exact (layer_differs (by omega) (by omega) hlt p hdiffer hcolours).symm

end

/-- The rectangle that is drawn. -/
theorem draws_rectCentered2D (unset : Vector3i) {s : ScreenNumber} (hs : s ≠ .anyScreen)
    (x0 y0 : Int) {w h : Int} (hw : 0 ≤ w) (hh : 0 ≤ h) {fuel : Nat}
    (hfuel : (w + h).toNat < fuel) (col fillColor : Color) :
    Draws (fun screens => drawRectCentered2D fuel unset screens s x0 y0 w h col true fillColor) s
      (Rect.layer ⟨x0 - w / 2, y0 - h / 2, x0 + w / 2, y0 + w / 2⟩ col (some fillColor)) := by
  have hlength : length2D (x0 - w / 2) (y0 - h / 2) (x0 + w / 2) (y0 + w / 2) < fuel := by
    simp only [length2D]
    omega
  have hrect := draws_rect2D unset hs (by omega) hlength col true fillColor
  simp only [drawRectCentered2D, Int.tdiv_eq_ediv_of_nonneg hw, Int.tdiv_eq_ediv_of_nonneg hh]
  exact hrect

end CubeApplication

/-- `drawRectCentered2D` draws the rectangle around its centre exactly when the halves of the
sizes are the same or the rows that go wrong do not show on the panel. -/
theorem drawRectCentered2D_centred_iff (unset : Vector3i) (s : ScreenNumber)
    (hs : s ≠ .anyScreen) (x0 y0 w h : Int) (hw : 0 ≤ w) (hh : 0 ≤ h) (fuel : Nat)
    (hfuel : (w + h).toNat < fuel) :
    CubeApplication.CentredPicture fuel unset s x0 y0 w h ↔
      CubeApplication.HeightUnseen x0 y0 (w / 2) (h / 2) := by
  have ha : 0 ≤ w / 2 := Int.ediv_nonneg hw (by decide)
  have hb : 0 ≤ h / 2 := Int.ediv_nonneg hh (by decide)
  have hdraws := CubeApplication.draws_rectCentered2D unset hs x0 y0 hw hh hfuel
  have hcentred := CubeApplication.centredLayer_eq x0 y0 ha hb
  constructor
  · intro hpicture
    by_contra hseen
    have hne : w / 2 ≠ h / 2 := fun hsame => hseen (.inl hsame)
    obtain ⟨x, y, hon, hdiffer⟩ := CubeApplication.exists_differ_of_seen ha hb hseen
    have hpixel := (hdraws ⟨255, 0, 0⟩ ⟨0, 255, 0⟩).agree (hpicture _ _) hs hon
    rw [hcentred] at hpixel
    have hsame := CubeApplication.eq_of_or_black
      (CubeApplication.layer_ne (by decide) (by decide) _ _)
      (CubeApplication.layer_ne (by decide) (by decide) _ _) hpixel
    exact CubeApplication.centred_differs ha hb hne (x, y) hdiffer (by decide) hsame
  · intro hunseen col fillColor
    rw [hcentred]
    refine (hdraws col fillColor).congr fun x y hon => ?_
    by_cases hne : w / 2 = h / 2
    · rw [hne]
    · exact CubeApplication.centred_agrees ha hb hne (x, y)
        (CubeApplication.not_differ_of_unseen hne hunseen hon) col fillColor

theorem centred_picture_of_equal_halves :
    CubeApplication.CentredPicture 30 ![0, 0, 0] .top 60 10 11 10 :=
  (drawRectCentered2D_centred_iff ![0, 0, 0] .top (by decide) 60 10 11 10 (by decide) (by decide)
    30 (by decide)).mpr (by decide)

/-- Ten wide and twenty high: the bottom edge is drawn five below the centre and not ten. -/
theorem tall_rect_cut_off :
    (∃ screens', CubeApplication.drawRectCentered2D 40 ![0, 0, 0] blackPanels .front 32 32 10 20
        ⟨255, 0, 0⟩ true ⟨0, 255, 0⟩ = some screens' ∧
      shownAt screens' 0 32 42 = some .black) ∧
    CubeApplication.centredLayer 32 32 5 10 ⟨255, 0, 0⟩ ⟨0, 255, 0⟩ (32, 42) =
      some ⟨255, 0, 0⟩ ∧
    ¬ CubeApplication.CentredPicture 40 ![0, 0, 0] .front 32 32 10 20 := by
  have hdraws := CubeApplication.draws_rectCentered2D ![0, 0, 0]
    (by decide : ScreenNumber.front ≠ .anyScreen) 32 32 (by decide : (0 : Int) ≤ 10)
    (by decide : (0 : Int) ≤ 20) (by decide : ((10 : Int) + 20).toNat < 40) ⟨255, 0, 0⟩
    ⟨0, 255, 0⟩
  refine ⟨?_, by decide, ?_⟩
  · obtain ⟨screens', hdraw, hlaid⟩ := hdraws blackPanels sixPanels_blackPanels
    have hpixel := hlaid.shown 0 32 42 (by decide) (by decide)
    rw [CubeApplication.shownAt_blackPanels (by decide)] at hpixel
    exact ⟨screens', hdraw, hpixel⟩
  · intro hpicture
    have hpixel := hdraws.agree (hpicture _ _) (by decide) (by decide :
      CubeApplication.OnPanel 32 42)
    exact absurd hpixel (by decide)

end MatrixServer
