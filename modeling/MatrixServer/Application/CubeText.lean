import MatrixServer.Application.CubeDrawing
import MatrixServer.Foundation.FlowLayout

/-!
Text on a face.
The cells of the characters are set like items on a page, so that they never overlap. What is
drawn is one ink at the set pixels of the glyphs; therefore every cell shows its glyph, as far
as the panel reaches.
-/

namespace MatrixServer
namespace CubeApplication
open InkLayers FlowLayout CharacterBitmaps

/-- The page of a face; `left` is where the lines after the first one begin. -/
def textPage (left : Int) : Page where
  advance := fontWidth
  lineHeight := fontHeight
  indent := left
  limit := CUBESIZE - fontWidth
  bottom := CUBESIZE - fontHeight
  advance_pos := of_decide_eq_true rfl
  lineHeight_pos := of_decide_eq_true rfl

@[simp] theorem textPage_bottom (left : Int) : (textPage left).bottom = CUBESIZE - fontHeight := rfl

/-- The character of that place in the text is drawn, in that cell. -/
structure Cell (left : Int) (start : Int × Int) (text : List Char) (i : Nat) (character : Char)
    (corner : Int × Int) : Prop where
  character : text[i]? = some character
  corner : corner = (textPage left).place start i
  room : i = 0 ∨ ((textPage left).place start i).2 ≤ (textPage left).bottom

/-- The glyph has this pixel set. -/
def SetIn (bitmap : Bitmap1bpp) (u v : Int) : Prop :=
  ∃ pos ∈ bitmap, ∀ axis, pos axis = ![u, v] axis

/-- A drawn character has this pixel of the plane set. -/
def Inked (left : Int) (start : Int × Int) (text : List Char) (p : Int × Int) : Prop :=
  ∃ i character corner, Cell left start text i character corner ∧
    SetIn (getBitmapFromChar character) (p.1 - corner.1) (p.2 - corner.2)

/-- The points drawn for a list of cells. -/
def glyphPoints (cells : List ((Int × Int) × Char)) : List Vector2i :=
  cells.flatMap fun cell =>
    (getBitmapFromChar cell.2).map fun pos axis => ![cell.1.1, cell.1.2] axis + pos axis

theorem plot_append (screens : List Screen) (points more : List Vector3i) (col : Color) :
    plot screens (points ++ more) col =
      (plot screens points col).bind fun screens => plot screens more col :=
  List.foldlM_append

/-- `posIterator` moves as the cursor of the page does. -/
theorem next_textPage (left x y : Int) : (textPage left).next (x, y) =
    (if x + fontWidth > CUBESIZE - fontWidth then left else x + fontWidth,
      if x + fontWidth > CUBESIZE - fontWidth then y + fontHeight else y) := by
  rw [Page.next]
  by_cases hwraps : x + fontWidth > CUBESIZE - fontWidth
  · rw [if_pos hwraps, if_pos hwraps]
    exact if_pos hwraps
  · rw [if_neg hwraps, if_neg hwraps]
    exact if_neg hwraps

theorem drawCharacters_eq (unset : Vector3i) (s : ScreenNumber) (left : Int) (col : Color)
    (screens : List Screen) (x y : Int) (text : List Char) :
    drawCharacters unset s left col screens x y text =
      plot screens ((glyphPoints ((textPage left).flow (x, y) text)).map (getPointOnScreen unset s))
        col := by
  induction text generalizing screens x y with
  | nil => rfl
  | cons character text ih =>
      rw [drawCharacters, drawBitmap1bpp, Page.flow, glyphPoints, List.flatMap_cons,
        List.map_append, plot_append, List.map_map, next_textPage, textPage_bottom]
      apply congrArg
      funext screens'
      by_cases hfull : (if x + fontWidth > CUBESIZE - fontWidth then y + fontHeight else y) >
          CUBESIZE - fontHeight
      · simp only [if_pos hfull]
        rfl
      · simp only [if_neg hfull]
        exact ih _ _ _

/-- A set pixel of a glyph, seen from the corner of its cell. -/
theorem shifted_iff (pos : Vector2i) (corner p : Int × Int) :
    (∀ axis, ![corner.1, corner.2] axis + pos axis = ![p.1, p.2] axis) ↔
      ∀ axis, pos axis = ![p.1 - corner.1, p.2 - corner.2] axis := by
  have hshift : ∀ a b c : Int, a + b = c ↔ b = c - a := by omega
  rw [Fin.forall_fin_two, Fin.forall_fin_two]
  exact and_congr (hshift _ _ _) (hshift _ _ _)

theorem through_glyphPoints (left : Int) (start : Int × Int) (text : List Char) (p : Int × Int) :
    Through (glyphPoints ((textPage left).flow start text)) p ↔ Inked left start text p := by
  simp only [Through, glyphPoints, List.mem_flatMap, List.mem_map, Inked]
  constructor
  · intro h
    obtain ⟨point, ⟨cell, hcell, pos, hpos, rfl⟩, hp⟩ := h
    obtain ⟨i, hitem, hplace, hroom⟩ := ((textPage left).mem_flow start text cell).mp hcell
    exact ⟨i, cell.2, cell.1, ⟨hitem, hplace, hroom⟩, pos, hpos, (shifted_iff pos cell.1 p).mp hp⟩
  · intro h
    obtain ⟨i, character, corner, hcell, pos, hpos, hp⟩ := h
    refine ⟨_, ⟨(corner, character), ?_, pos, hpos, rfl⟩, (shifted_iff pos corner p).mpr hp⟩
    exact ((textPage left).mem_flow start text _).mpr
      ⟨i, hcell.character, hcell.corner, hcell.room⟩

/-- What `drawText` makes of the panels: the set pixels of the drawn characters have the colour. -/
theorem drawText_lays (unset : Vector3i) {screens : List Screen} (h : SixPanels screens)
    {s : ScreenNumber} (hs : s ≠ .anyScreen) (topLeftPoint : Vector2i) (col : Color)
    (text : List Char) :
    ∃ screens', drawText unset screens s topLeftPoint col text = some screens' ∧
      SixPanels screens' ∧
      ∀ index x y, index < 6 → OnPanel x y →
        (index = s.index ∧ Inked (topLeftPoint 0) (textStart topLeftPoint text) text (x, y) →
          shownAt screens' index x y = some col) ∧
        (¬(index = s.index ∧ Inked (topLeftPoint 0) (textStart topLeftPoint text) text (x, y)) →
          shownAt screens' index x y = shownAt screens index x y) := by
  have hdraws := draws_plot unset hs
    (glyphPoints ((textPage (topLeftPoint 0)).flow (textStart topLeftPoint text) text)) col
  obtain ⟨screens', hplot, hpanels, hshown⟩ := hdraws screens h
  refine ⟨screens', ?_, hpanels, ?_⟩
  · rw [drawText, drawCharacters_eq]
    exact hplot
  · intro index x y hindex hon
    rw [hshown index x y hindex hon, ← through_glyphPoints, ink]
    constructor
    · intro hdrawn
      rw [if_pos hdrawn.1, if_pos hdrawn.2, Option.some_or]
    · intro hnot
      by_cases hface : index = s.index
      · rw [if_pos hface, if_neg fun hthrough => hnot ⟨hface, hthrough⟩, Option.none_or]
      · rw [if_neg hface]

/-- The point lies in the cell with this upper left corner. -/
def InCell (corner p : Int × Int) : Prop :=
  (corner.1 ≤ p.1 ∧ p.1 < corner.1 + fontWidth) ∧ corner.2 ≤ p.2 ∧ p.2 < corner.2 + fontHeight

instance (corner p : Int × Int) : Decidable (InCell corner p) :=
  inferInstanceAs (Decidable (_ ∧ _))

theorem SetIn.inCell {character : Char} {corner p : Int × Int}
    (h : SetIn (getBitmapFromChar character) (p.1 - corner.1) (p.2 - corner.2)) :
    InCell corner p := by
  obtain ⟨pos, hpos, hp⟩ := h
  have hfits := glyph_fits character pos hpos
  have hu : pos 0 = p.1 - corner.1 := hp 0
  have hv : pos 1 = p.2 - corner.2 := hp 1
  rw [hu, hv] at hfits
  simp only [InCell]
  omega

section
variable {left : Int} {start : Int × Int} {text : List Char} {i j : Nat} {character other : Char}
  {corner corner' p : Int × Int}

/-- The cells of two characters have no point in common. -/
theorem Cell.same (h : Cell left start text i character corner)
    (h' : Cell left start text j other corner') (hp : InCell corner p) (hp' : InCell corner' p) :
    i = j := by
  have hapart : ∀ {m n : Nat} {a b : Int × Int}, a = (textPage left).place start m →
      b = (textPage left).place start n → InCell a p → InCell b p → ¬m < n := by
    intro m n a b ha hb hin hin' hlt
    have hcells := (textPage left).apart start hlt
    rw [← ha, ← hb] at hcells
    have hheight : (textPage left).lineHeight = fontHeight := rfl
    have hwidth : (textPage left).advance = fontWidth := rfl
    rw [hheight, hwidth] at hcells
    simp only [InCell] at hin hin'
    omega
  have hforth := hapart h.corner h'.corner hp hp'
  have hback := hapart h'.corner h.corner hp' hp
  omega

/-- Inside a cell only its own glyph is drawn. -/
theorem Cell.inked_iff (h : Cell left start text i character corner) (hp : InCell corner p) :
    Inked left start text p ↔ SetIn (getBitmapFromChar character) (p.1 - corner.1)
      (p.2 - corner.2) := by
  constructor
  · intro hinked
    obtain ⟨j, other, corner', hcell, hset⟩ := hinked
    cases h.same hcell hp hset.inCell
    have hcorner : corner = corner' := h.corner.trans hcell.corner.symm
    have hcharacter : character = other :=
      Option.some.inj (h.character.symm.trans hcell.character)
    rw [hcorner, hcharacter]
    exact hset
  · intro hset
    exact ⟨i, character, corner, h, hset⟩

end

end CubeApplication
open CharacterBitmaps

/-- In whatever text, and wherever it begins, the cell of each character drawn shows exactly its
glyph, as far as the panel reaches; beside the cells nothing is drawn, and nothing on another
face. -/
theorem drawText_legible (unset : Vector3i) (screens : List Screen) (h : SixPanels screens)
    (s : ScreenNumber) (hs : s ≠ .anyScreen) (topLeftPoint : Vector2i) (col : Color)
    (text : List Char) :
    ∃ screens', CubeApplication.drawText unset screens s topLeftPoint col text = some screens' ∧
      SixPanels screens' ∧
      (∀ i character corner x y,
        CubeApplication.Cell (topLeftPoint 0) (CubeApplication.textStart topLeftPoint text) text i
          character corner →
        CubeApplication.InCell corner (x, y) → CubeApplication.OnPanel x y →
        (CubeApplication.SetIn (getBitmapFromChar character) (x - corner.1) (y - corner.2) →
          shownAt screens' s.index x y = some col) ∧
        (¬CubeApplication.SetIn (getBitmapFromChar character) (x - corner.1) (y - corner.2) →
          shownAt screens' s.index x y = shownAt screens s.index x y)) ∧
      ∀ index x y, index < 6 → CubeApplication.OnPanel x y →
        (index = s.index → ∀ i character corner,
          CubeApplication.Cell (topLeftPoint 0) (CubeApplication.textStart topLeftPoint text) text
            i character corner → ¬CubeApplication.InCell corner (x, y)) →
        shownAt screens' index x y = shownAt screens index x y := by
  obtain ⟨screens', hdraw, hpanels, hshown⟩ :=
    CubeApplication.drawText_lays unset h hs topLeftPoint col text
  have hface := CubeApplication.index_lt hs
  refine ⟨screens', hdraw, hpanels, ?_, ?_⟩
  · intro i character corner x y hcell hin hon
    obtain ⟨hdrawn, hkept⟩ := hshown s.index x y hface hon
    rw [hcell.inked_iff hin] at hdrawn hkept
    exact ⟨fun hset => hdrawn ⟨rfl, hset⟩, fun hclear => hkept fun hboth => hclear hboth.2⟩
  · intro index x y hindex hon hbeside
    apply (hshown index x y hindex hon).2
    intro hboth
    obtain ⟨i, character, corner, hcell, hset⟩ := hboth.2
    exact hbeside hboth.1 i character corner hcell hset.inCell

/-- The letter A in the upper left corner of the front panel. -/
theorem drawText_letter :
    ∃ screens', CubeApplication.drawText ![0, 0, 0] blackPanels .front ![0, 0] ⟨255, 0, 0⟩ ['A'] =
        some screens' ∧
      shownAt screens' 0 1 0 = some ⟨255, 0, 0⟩ ∧ shownAt screens' 0 0 0 = some .black := by
  obtain ⟨screens', hdraw, -, hcells, -⟩ := drawText_legible ![0, 0, 0] blackPanels
    sixPanels_blackPanels .front (by decide) ![0, 0] ⟨255, 0, 0⟩ ['A']
  have hcell : CubeApplication.Cell 0 (0, 0) ['A'] 0 'A' (0, 0) := ⟨rfl, by decide, .inl rfl⟩
  have hclear : ¬CubeApplication.SetIn (getBitmapFromChar 'A') (0 - 0) (0 - 0) := by
    unfold CubeApplication.SetIn
    decide
  refine ⟨screens', hdraw, ?_, ?_⟩
  · exact (hcells 0 'A' (0, 0) 1 0 hcell (by decide) (by decide)).1
      ⟨![1, 0], List.mem_cons_self, fun _ => rfl⟩
  · rw [← CubeApplication.shownAt_blackPanels (u := 0) (v := 0) (Nat.zero_lt_succ 5)]
    exact (hcells 0 'A' (0, 0) 0 0 hcell (by decide) (by decide)).2 hclear

namespace CubeApplication
open FlowLayout

/-- The cell lies on the panel as a whole. -/
def OnFace (corner : Int × Int) : Prop :=
  (0 ≤ corner.1 ∧ corner.1 + fontWidth ≤ CUBESIZE) ∧ 0 ≤ corner.2 ∧
    corner.2 + fontHeight ≤ CUBESIZE

/-- How many characters go on a line and how many lines on the panel, from a point on. -/
def columns (x : Int) : Nat := ((CUBESIZE - fontWidth - x) / fontWidth + 1).toNat

def rows (y : Int) : Nat := ((CUBESIZE - fontHeight - y) / fontHeight + 1).toNat

theorem perLine_textPage (left : Int) {x : Int} (hx : x ≤ CUBESIZE - fontWidth) :
    (textPage left).perLine x = columns x := by
  simp only [Page.perLine, columns, textPage, CUBESIZE, fontWidth] at hx ⊢
  omega

/-- A text that begins on the panel and whose lines begin in one column. -/
theorem cell_iff {x y : Int} (hx : 0 ≤ x ∧ x ≤ CUBESIZE - fontWidth)
    (hy : 0 ≤ y ∧ y ≤ CUBESIZE - fontHeight) (text : List Char) (i : Nat) (character : Char)
    (corner : Int × Int) :
    Cell x (x, y) text i character corner ↔ text[i]? = some character ∧
      corner = (x + fontWidth * (i % columns x : Nat), y + fontHeight * (i / columns x : Nat)) ∧
      i / columns x < rows y := by
  have hplace := (textPage x).place_of_indent (x, y) i rfl
  have hrow := (textPage x).row_le_iff (x, y) i rfl
  rw [perLine_textPage x hx.2] at hplace hrow
  have hrows : (i / columns x : Nat) < (CUBESIZE - fontHeight - y) / fontHeight + 1 ↔
      i / columns x < rows y := by
    generalize i / columns x = line
    simp only [rows, CUBESIZE, fontHeight]
    omega
  constructor
  · intro h
    refine ⟨h.character, h.corner.trans hplace, ?_⟩
    cases h.room with
    | inl hfirst =>
        rw [hfirst, Nat.zero_div]
        simp only [rows, CUBESIZE, fontHeight] at hy ⊢
        omega
    | inr hroom => exact hrows.mp (hrow.mp hroom)
  · intro h
    exact ⟨h.1, h.2.1.trans hplace.symm, .inr (hrow.mpr (hrows.mpr h.2.2))⟩

/-- Its cells lie on the panel. -/
theorem onFace_of_cell {x y : Int} (hx : 0 ≤ x ∧ x ≤ CUBESIZE - fontWidth)
    (hy : 0 ≤ y ∧ y ≤ CUBESIZE - fontHeight) {text : List Char} {i : Nat} {character : Char}
    {corner : Int × Int} (h : Cell x (x, y) text i character corner) : OnFace corner := by
  obtain ⟨-, hcorner, hrow⟩ := (cell_iff hx hy text i character corner).mp h
  have hleft := (textPage x).le_column x i
  have hright := (textPage x).column_le x i hx.2 hx.2
  have hcolumn : (textPage x).column x i = corner.1 := by
    rw [h.corner]
    rfl
  have hline : corner.2 = y + fontHeight * (i / columns x : Nat) := congrArg Prod.snd hcorner
  rw [hcolumn] at hleft hright
  generalize i / columns x = line at hline hrow
  simp only [OnFace, textPage, rows, CUBESIZE, fontWidth, fontHeight] at *
  omega

/-- A text that goes on one line, wherever the others would begin. -/
theorem cell_of_line {x y : Int} (hx : x ≤ CUBESIZE - fontWidth) (hy : y ≤ CUBESIZE - fontHeight)
    {text : List Char} (hlength : text.length ≤ columns x) (left : Int) (i : Nat)
    (character : Char) (corner : Int × Int) :
    Cell left (x, y) text i character corner ↔
      text[i]? = some character ∧ corner = (x + fontWidth * i, y) := by
  have hplace : text[i]? = some character →
      (textPage left).place (x, y) i = (x + fontWidth * i, y) := by
    intro hitem
    have hlt := (List.getElem?_eq_some_iff.mp hitem).1
    rw [← perLine_textPage left hx] at hlength
    rw [← (textPage left).iterate_next]
    exact (textPage left).iterate_within x y (Nat.lt_of_lt_of_le hlt hlength)
  constructor
  · intro h
    exact ⟨h.character, h.corner.trans (hplace h.character)⟩
  · intro h
    refine ⟨h.1, h.2.trans (hplace h.1).symm, .inr ?_⟩
    rw [hplace h.1]
    exact hy

end CubeApplication
open CubeApplication

/-- Where the characters of a text go. `drawText` sets the set pixels of the glyphs in the cells of
the text and no others. A text that begins on the panel fills its lines from there and
is cut off below, every cell lying on the panel; one of at most sixteen characters that is centred
or flush right goes on one line, with equal margins or none to the right. -/
theorem text_placement (text : List Char) (y : Int)
    (hy : 0 ≤ y ∧ y ≤ CUBESIZE - fontHeight) (i : Nat) (character : Char) (corner : Int × Int) :
    (∀ x, 0 ≤ x → x ≤ CUBESIZE - fontWidth →
      (Cell x (textStart ![x, y] text) text i character corner ↔
        text[i]? = some character ∧ i < columns x * rows y ∧
          corner =
            (x + fontWidth * (i % columns x : Nat), y + fontHeight * (i / columns x : Nat))) ∧
      (Cell x (textStart ![x, y] text) text i character corner → OnFace corner)) ∧
    (text.length ≤ 16 → ∀ align ∈ [centered, right], ∃ margin : Int,
      (align = centered → 2 * margin + fontWidth * text.length = CUBESIZE) ∧
      (align = right → margin + fontWidth * text.length = CUBESIZE) ∧
      (Cell align (textStart ![align, y] text) text i character corner ↔
        text[i]? = some character ∧ corner = (margin + fontWidth * i, y)) ∧
      (Cell align (textStart ![align, y] text) text i character corner → OnFace corner)) ∧
    ∀ unset screens s col (topLeftPoint : Vector2i), SixPanels screens → s ≠ .anyScreen →
      ∃ screens', drawText unset screens s topLeftPoint col text = some screens' ∧
        ∀ index u v, index < 6 → OnPanel u v →
          (index = s.index ∧ Inked (topLeftPoint 0) (textStart topLeftPoint text) text (u, v) →
            shownAt screens' index u v = some col) ∧
          (¬(index = s.index ∧ Inked (topLeftPoint 0) (textStart topLeftPoint text) text (u, v)) →
            shownAt screens' index u v = shownAt screens index u v) := by
  refine ⟨?_, ?_, ?_⟩
  · intro x hx hx'
    have hstart : textStart ![x, y] text = (x, y) := by
      simp [textStart, centered, right]
      omega
    have hcolumns : 0 < columns x := by
      simp only [columns, CUBESIZE, fontWidth] at hx' ⊢
      omega
    rw [hstart]
    refine ⟨?_, onFace_of_cell ⟨hx, hx'⟩ hy⟩
    rw [cell_iff ⟨hx, hx'⟩ hy, Nat.div_lt_iff_lt_mul hcolumns, Nat.mul_comm]
    exact and_congr_right fun _ => and_comm
  · intro hlength align halign
    have hline : ∀ margin : Int, 0 ≤ margin → margin ≤ CUBESIZE - fontWidth →
        text.length ≤ columns margin → margin + fontWidth * text.length ≤ CUBESIZE →
        textStart ![align, y] text = (margin, y) →
        (Cell align (textStart ![align, y] text) text i character corner ↔
          text[i]? = some character ∧ corner = (margin + fontWidth * i, y)) ∧
        (Cell align (textStart ![align, y] text) text i character corner → OnFace corner) := by
      intro margin hfrom hto hroom hend hstart
      rw [hstart, cell_of_line hto hy.2 hroom]
      refine ⟨Iff.rfl, ?_⟩
      intro hcell
      have hlt := (List.getElem?_eq_some_iff.mp hcell.1).1
      rw [hcell.2]
      simp only [OnFace, CUBESIZE, fontWidth, fontHeight] at *
      omega
    cases List.mem_pair.mp halign with
    | inl hcentered =>
        subst hcentered
        refine ⟨32 - 2 * text.length, ?_, ?_, hline _ ?_ ?_ ?_ ?_ ?_⟩
        · intro _
          simp only [CUBESIZE, fontWidth]
          omega
        · intro habsurd
          exact absurd habsurd (by decide)
        · omega
        · simp only [CUBESIZE, fontWidth]
          omega
        · simp only [columns, CUBESIZE, fontWidth]
          omega
        · simp only [CUBESIZE, fontWidth]
          omega
        · have hhalf : ((64 : Int) - text.length * 4).tdiv 2 = 32 - 2 * text.length := by
            have heven : (64 : Int) - text.length * 4 = 2 * (32 - 2 * text.length) := by omega
            rw [heven, Int.mul_tdiv_cancel_left _ (by decide)]
          have hrow : y ≠ -1 := by omega
          simp [textStart, centered, right, getStringWidth, CUBESIZE, fontWidth, hhalf, hrow]
    | inr hright =>
        subst hright
        refine ⟨64 - 4 * text.length, ?_, ?_, ?_⟩
        · intro habsurd
          exact absurd habsurd (by decide)
        · intro _
          simp only [CUBESIZE, fontWidth]
          omega
        · cases text with
          | nil =>
              have hnone : ∀ start, ¬Cell right start [] i character corner := by
                intro start hcell
                cases hcell.character
              exact ⟨⟨fun hcell => absurd hcell (hnone _), fun hpair => by cases hpair.1⟩,
                fun hcell => absurd hcell (hnone _)⟩
          | cons first text =>
              rw [List.length_cons] at hlength
              refine hline _ ?_ ?_ ?_ ?_ ?_
              · rw [List.length_cons]
                omega
              · simp only [List.length_cons, CUBESIZE, fontWidth]
                omega
              · simp only [List.length_cons, columns, CUBESIZE, fontWidth]
                omega
              · simp only [List.length_cons, CUBESIZE, fontWidth]
                omega
              · have hrow : y ≠ -1 := by omega
                simp [textStart, centered, right, getStringWidth, CUBESIZE, fontWidth, hrow]
                omega
  · intro unset screens s col topLeftPoint h hs
    obtain ⟨screens', hdraw, -, hshown⟩ := drawText_lays unset h hs topLeftPoint col text
    exact ⟨screens', hdraw, hshown⟩

theorem text_placement_wrapped :
    Cell 56 (textStart ![56, 0] ['A', 'B', 'C']) ['A', 'B', 'C'] 2 'C' (56, 6) ∧
      OnFace (56, 6) := by
  have hplaced := (text_placement ['A', 'B', 'C'] 0 (by decide) 2 'C' (56, 6)).1 56 (by decide)
    (by decide)
  have hcell := hplaced.1.mpr ⟨rfl, by decide, by decide⟩
  exact ⟨hcell, hplaced.2 hcell⟩

end MatrixServer
