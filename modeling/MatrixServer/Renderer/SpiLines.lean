import MatrixServer.Renderer.PanelPixels

/-!
The lines that FPGARendererRPISPI.cpp sends, in the layout of two rows of panels.
A line of twice the panels' number is a 16-bit word for each column of three panels. What
the render loop stores in a line is listed as the screen and the pixel it takes and the
place in the payload it puts it.
-/

namespace MatrixServer
open PixelGrid

namespace FPGARendererRPISPI

def bitDepthInBytes : Int := 2

/-- What `init` computes from the screens; it throws when there are none. -/
structure Layout where
  screenWidth : Int
  screenHeight : Int
  screenCount : Int
  bytesPerScreen : Int
  bytesPerLine : Int
  lineCount : Int
  deriving DecidableEq

def init (initScreens : List Screen) : Option Layout :=
  initScreens.head?.map fun first =>
    let bytesPerScreen := first.width * bitDepthInBytes
    { screenWidth := first.width
      screenHeight := first.height
      screenCount := initScreens.length
      bytesPerScreen
      bytesPerLine := bytesPerScreen * initScreens.length / 2
      lineCount := first.height * 2 }

/-- `!(y <= 63 && getOffsetY() != 0) && !(y > 63 && getOffsetY() != 1)` -/
def inLine (y : Int) (screen : Screen) : Bool :=
  !(decide (y ≤ 63) && decide (screen.offsetY ≠ 0)) &&
    !(decide (y > 63) && decide (screen.offsetY ≠ 1))

/-- A store `*pixelP = ...`: the position in `screens` and the index into `screenData` of the
pixel, and the offset in the payload. -/
structure PixelWrite where
  screen : Nat
  source : Int
  offset : Int
  deriving DecidableEq

/-- The stores of the loop over the screens in line `y`. -/
def lineWrites (layout : Layout) (screens : List Screen) (y : Int) : List PixelWrite :=
  screens.zipIdx.flatMap fun entry =>
    let screen := entry.1
    if inLine y screen then
      (List.range screen.width.toNat).map fun x : Nat =>
        { screen := entry.2
          source := dataIndex layout.screenWidth layout.screenHeight screen.rotation x
            (y % layout.screenHeight)
          offset := screen.offsetX * layout.bytesPerScreen + x * bitDepthInBytes }
    else []

end FPGARendererRPISPI

/-- Six square screens in two rows of three. -/
structure TwoRows (screens : List Screen) (n : Int) : Prop where
  square : ∀ s ∈ screens, s.Square n
  cells : (screens.map fun s => (s.offsetX, s.offsetY)).Perm
    [(0, 0), (1, 0), (2, 0), (0, 1), (1, 1), (2, 1)]

/-- Each pixel goes to one place of one line, and each place of each line gets a pixel. -/
structure TransmitsOnce (layout : FPGARendererRPISPI.Layout) (screens : List Screen) : Prop where
  pixels : ∀ {index : Nat} {s : Screen}, screens[index]? = some s →
    ∀ source ∈ PixelGrid.cells s.screenData.length, ∃! place : Int × Int,
      place.1 ∈ PixelGrid.cells layout.lineCount ∧
        { screen := index, source, offset := place.2 } ∈
          FPGARendererRPISPI.lineWrites layout screens place.1
  fresh : ∀ y ∈ PixelGrid.cells layout.lineCount,
    ∀ slot ∈ PixelGrid.cells (layout.bytesPerLine / 2),
      ∃ write ∈ FPGARendererRPISPI.lineWrites layout screens y, write.offset = 2 * slot

namespace FPGARendererRPISPI

theorem mem_lineWrites {layout : Layout} {screens : List Screen} {y : Int} {write : PixelWrite} :
    write ∈ lineWrites layout screens y ↔ ∃ s, screens[write.screen]? = some s ∧
      inLine y s = true ∧ ∃ x ∈ cells s.width,
        write.source = dataIndex layout.screenWidth layout.screenHeight s.rotation x
          (y % layout.screenHeight) ∧
        write.offset = s.offsetX * layout.bytesPerScreen + x * bitDepthInBytes := by
  simp only [lineWrites, List.mem_flatMap]
  constructor
  · rintro ⟨entry, hentry, hwrite⟩
    split at hwrite
    · rename_i hline
      obtain ⟨x, hx, rfl⟩ := List.mem_map.mp hwrite
      rw [List.mem_range] at hx
      exact ⟨entry.1, List.mem_zipIdx_iff_getElem?.mp hentry, hline, x,
        ⟨Int.natCast_nonneg _, by omega⟩, rfl, rfl⟩
    · exact absurd hwrite List.not_mem_nil
  · rintro ⟨s, hs, hline, x, hx, hsource, hoffset⟩
    refine ⟨(s, write.screen), List.mem_zipIdx_iff_getElem?.mpr hs, ?_⟩
    rw [if_pos hline]
    refine List.mem_map.mpr ⟨x.toNat, ?_, ?_⟩
    · have hlow := hx.1
      have hhigh : x < s.width := hx.2
      exact List.mem_range.mpr (by simp only []; omega)
    · rw [Int.toNat_of_nonneg hx.1, ← hsource, ← hoffset]

theorem inLine_iff {y : Int} {s : Screen} (h : s.offsetY = 0 ∨ s.offsetY = 1) :
    inLine y s = true ↔ (s.offsetY = 0 ↔ y ≤ 63) := by
  simp only [inLine, Bool.and_eq_true, Bool.not_eq_true', Bool.and_eq_false_iff,
    decide_eq_false_iff_not]
  omega

/-- What `init` computes, in the size of the first screen and the number of screens. -/
theorem init_eq {screens : List Screen} {layout : Layout} (hinit : init screens = some layout) :
    ∃ first, screens.head? = some first ∧ layout.screenWidth = first.width ∧
      layout.screenHeight = first.height ∧ layout.bytesPerScreen = 2 * first.width ∧
      layout.bytesPerLine = screens.length * first.width ∧
      layout.lineCount = 2 * first.height := by
  obtain ⟨first, hfirst, rfl⟩ := Option.map_eq_some_iff.mp hinit
  refine ⟨first, hfirst, rfl, rfl, Int.mul_comm _ _, ?_, Int.mul_comm _ _⟩
  simp only [bitDepthInBytes]
  rw [Int.mul_assoc, Int.mul_left_comm, Int.mul_ediv_cancel_left _ (by decide), Int.mul_comm]

end FPGARendererRPISPI

namespace TwoRows
variable {screens : List Screen} {n : Int}

theorem cell_mem (h : TwoRows screens n) {s : Screen} (hs : s ∈ screens) :
    (s.offsetX = 0 ∨ s.offsetX = 1 ∨ s.offsetX = 2) ∧ (s.offsetY = 0 ∨ s.offsetY = 1) := by
  have hcell := h.cells.subset (List.mem_map_of_mem hs)
  simp only [List.mem_cons, Prod.mk.injEq, List.not_mem_nil, or_false] at hcell
  omega

theorem exists_at (h : TwoRows screens n) (column row : Int)
    (hcolumn : column = 0 ∨ column = 1 ∨ column = 2) (hrow : row = 0 ∨ row = 1) :
    ∃ (index : Nat) (s : Screen), screens[index]? = some s ∧ s.offsetX = column ∧
      s.offsetY = row := by
  have hcell : (column, row) ∈ screens.map fun s : Screen => (s.offsetX, s.offsetY) := by
    refine h.cells.symm.subset ?_
    simp only [List.mem_cons, Prod.mk.injEq, List.not_mem_nil, or_false]
    omega
  obtain ⟨s, hs, hat⟩ := List.mem_map.mp hcell
  obtain ⟨index, hindex⟩ := List.getElem?_of_mem hs
  exact ⟨index, s, hindex, congrArg Prod.fst hat, congrArg Prod.snd hat⟩

theorem init_eq (h : TwoRows screens n) {layout : FPGARendererRPISPI.Layout}
    (hinit : FPGARendererRPISPI.init screens = some layout) :
    layout.screenWidth = n ∧ layout.screenHeight = n ∧ layout.bytesPerScreen = 2 * n ∧
      layout.bytesPerLine = 6 * n ∧ layout.lineCount = 2 * n := by
  obtain ⟨first, hfirst, hwidth, hheight, hpanel, hline, hlines⟩ :=
    FPGARendererRPISPI.init_eq hinit
  have hsquare := h.square first (List.mem_of_head? hfirst)
  have hlength := h.cells.length_eq
  rw [List.length_map] at hlength
  have hcount : (screens.length : Int) = 6 := congrArg Int.ofNat hlength
  rw [hsquare.width] at hwidth hpanel hline
  rw [hsquare.height] at hheight hlines
  rw [hcount] at hline
  exact ⟨hwidth, hheight, hpanel, hline, hlines⟩

/-- Where a store takes its pixel from and where it puts it, in lines of `n` wide panels. -/
theorem mem_lineWrites_iff (h : TwoRows screens n) {layout : FPGARendererRPISPI.Layout}
    (hinit : FPGARendererRPISPI.init screens = some layout) {index : Nat} {s : Screen}
    (hs : screens[index]? = some s) {y source offset : Int} :
    { screen := index, source, offset } ∈ FPGARendererRPISPI.lineWrites layout screens y ↔
      (s.offsetY = 0 ↔ y ≤ 63) ∧ ∃ x ∈ PixelGrid.cells n,
        source = FPGARendererRPISPI.dataIndex n n s.rotation x (y % n) ∧
        offset = 2 * (s.offsetX * n + x) := by
  obtain ⟨hwidth, hheight, hbytes, -, -⟩ := h.init_eq hinit
  have hmem := List.mem_of_getElem? hs
  have hsquare := h.square s hmem
  have hline := FPGARendererRPISPI.inLine_iff (y := y) (h.cell_mem hmem).2
  have hplace : ∀ x, s.offsetX * (2 * n) + x * FPGARendererRPISPI.bitDepthInBytes =
      2 * (s.offsetX * n + x) := fun x => by
    rw [FPGARendererRPISPI.bitDepthInBytes, Int.mul_left_comm]
    omega
  rw [FPGARendererRPISPI.mem_lineWrites, hwidth, hheight, hbytes]
  constructor
  · rintro ⟨s', hs', hin, x, hx, hsource, hoffset⟩
    obtain rfl : s = s' := Option.some.inj (hs.symm.trans hs')
    exact ⟨hline.mp hin, x, hsquare.width ▸ hx, hsource, hoffset.trans (hplace x)⟩
  · rintro ⟨hin, x, hx, hsource, hoffset⟩
    exact ⟨s, hs, hline.mpr hin, x, hsquare.width.symm ▸ hx, hsource,
      hoffset.trans (hplace x).symm⟩

/-- The line of a panel that is sent in line `y`. -/
theorem emod_cases {y n : Int} (hy : y ∈ PixelGrid.cells (2 * n)) :
    y < n ∧ y % n = y ∨ n ≤ y ∧ y % n = y - n := by
  obtain ⟨hlow, hhigh⟩ := hy
  cases Int.lt_or_le y n with
  | inl hlt => exact .inl ⟨hlt, Int.emod_eq_of_lt hlow hlt⟩
  | inr hle =>
      refine .inr ⟨hle, ?_⟩
      rw [← Int.sub_emod_right, Int.emod_eq_of_lt (by omega) (by omega)]

/-- Each line of each panel is sent in some line of its row. -/
theorem exists_line (h : TwoRows screens n) {layout : FPGARendererRPISPI.Layout}
    (hinit : FPGARendererRPISPI.init screens = some layout)
    (htransmits : TransmitsOnce layout screens) {index : Nat} {s : Screen}
    (hs : screens[index]? = some s) (yPos : Int) (hline : yPos ∈ PixelGrid.cells n) :
    ∃ y ∈ PixelGrid.cells (2 * n), (s.offsetY = 0 ↔ y ≤ 63) ∧ y % n = yPos := by
  have hsquare := h.square s (List.mem_of_getElem? hs)
  have hpos : 0 < n := Int.lt_of_le_of_lt hline.1 hline.2
  have hbij := FPGARendererRPISPI.bijOn_dataIndex hpos s.rotation
  have hfirst : ((0 : Int), yPos) ∈ rect n n := ⟨Int.le_refl _, hpos, hline.1, hline.2⟩
  obtain ⟨place, ⟨hy, hwrite⟩, -⟩ := htransmits.pixels hs
    (FPGARendererRPISPI.dataIndex n n s.rotation 0 yPos) (by
      rw [hsquare.length]
      exact hbij.mapsTo hfirst)
  rw [(h.init_eq hinit).2.2.2.2] at hy
  obtain ⟨hin, x, hx, hsource, -⟩ := (h.mem_lineWrites_iff hinit hs).mp hwrite
  have hsent : (x, place.1 % n) ∈ rect n n :=
    ⟨hx.1, hx.2, Int.emod_nonneg _ (by omega), Int.emod_lt_of_pos _ hpos⟩
  have hsame := hbij.injOn hfirst hsent hsource
  exact ⟨place.1, hy, hin, (congrArg Prod.snd hsame).symm⟩

theorem side_of_transmitsOnce (h : TwoRows screens n) (hn : 1 ≤ n)
    {layout : FPGARendererRPISPI.Layout} (hinit : FPGARendererRPISPI.init screens = some layout)
    (htransmits : TransmitsOnce layout screens) : n = 64 := by
  obtain ⟨upper, s, hs, -, hrow⟩ := h.exists_at 0 0 (.inl rfl) (.inl rfl)
  obtain ⟨lower, s', hs', -, hrow'⟩ := h.exists_at 0 1 (.inl rfl) (.inr rfl)
  obtain ⟨y, hy, hin, hlast⟩ := h.exists_line hinit htransmits hs (n - 1)
    ⟨by omega, by omega⟩
  obtain ⟨y', hy', hin', hfirst⟩ := h.exists_line hinit htransmits hs' 0
    ⟨by omega, by omega⟩
  have hcases := emod_cases hy
  have hcases' := emod_cases hy'
  have hbounds := hy.2
  have hbounds' := hy'.2
  omega

/-- Panels of 64 lines fit the constant that tells the rows apart. -/
theorem transmitsOnce_of_side (h : TwoRows screens 64) {layout : FPGARendererRPISPI.Layout}
    (hinit : FPGARendererRPISPI.init screens = some layout) : TransmitsOnce layout screens := by
  obtain ⟨-, -, -, hbytes, hlines⟩ := h.init_eq hinit
  constructor
  · intro index s hs source hsource
    have hmem := List.mem_of_getElem? hs
    have hrow := (h.cell_mem hmem).2
    rw [(h.square s hmem).length] at hsource
    have hbij := FPGARendererRPISPI.bijOn_dataIndex (n := 64) (by decide) s.rotation
    obtain ⟨p, hp, hfound⟩ := hbij.surjOn hsource
    obtain ⟨hleft, hwidth, htop, hheight⟩ := id hp
    have hline : (s.offsetY * 64 + p.2) % 64 = p.2 := by omega
    refine ⟨(s.offsetY * 64 + p.2, 2 * (s.offsetX * 64 + p.1)), ⟨?_, ?_⟩, ?_⟩
    · rw [hlines]
      exact ⟨by simp only []; omega, by simp only []; omega⟩
    · rw [h.mem_lineWrites_iff hinit hs, hline]
      exact ⟨by omega, p.1, ⟨hleft, hwidth⟩, hfound.symm, rfl⟩
    · rintro ⟨y, offset⟩ ⟨hy, hwrite⟩
      rw [hlines] at hy
      obtain ⟨hin, x, hx, hfrom, hoffset⟩ := (h.mem_lineWrites_iff hinit hs).mp hwrite
      have hsent : (x, y % 64) ∈ rect 64 64 := ⟨hx.1, hx.2, by omega, by omega⟩
      have hsame := hbij.injOn hp hsent (hfound.trans hfrom)
      have hcolumn : p.1 = x := congrArg Prod.fst hsame
      have hyPos : p.2 = y % 64 := congrArg Prod.snd hsame
      have hlow : 0 ≤ y := hy.1
      have hhigh : y < 2 * 64 := hy.2
      exact Prod.ext (by simp only []; omega) (by rw [hcolumn]; exact hoffset)
  · intro y hy slot hslot
    rw [hlines] at hy
    rw [hbytes] at hslot
    have hlow := hslot.1
    have hhigh := hslot.2
    obtain ⟨index, s, hs, hcolumn, hrow⟩ := h.exists_at (slot / 64)
      (if y ≤ 63 then 0 else 1) (by omega) (by split <;> omega)
    refine ⟨_, (h.mem_lineWrites_iff hinit hs).mpr ⟨?_, slot % 64, ⟨?_, ?_⟩, rfl, rfl⟩, ?_⟩
    · rw [hrow]
      split <;> omega
    · omega
    · omega
    · simp only [hcolumn]
      omega

end TwoRows

/-- In two rows of square panels each pixel goes to one place of one line, and no place of a
line is left over, just when the panels have 64 lines. -/
theorem two_rows_transmit_once_iff (n : Int) (hn : 1 ≤ n) (screens : List Screen)
    (h : TwoRows screens n) (layout : FPGARendererRPISPI.Layout)
    (hinit : FPGARendererRPISPI.init screens = some layout) :
    TransmitsOnce layout screens ↔ n = 64 := by
  constructor
  · exact h.side_of_transmitsOnce hn hinit
  · rintro rfl
    exact h.transmitsOnce_of_side hinit

/-- Six black panels of side `n`, the first row before the second. -/
def blackRows (n : Nat) : List Screen :=
  [(0, 0), (1, 0), (2, 0), (0, 1), (1, 1), (2, 1)].map fun cell => {
    screenId := 0
    width := n
    height := n
    screenDataSize := n * n
    screenData := List.replicate (n * n) .black
    offsetX := cell.1
    offsetY := cell.2 }

theorem twoRows_blackRows (n : Nat) : TwoRows (blackRows n) n := by
  refine ⟨fun s hs => ?_, List.Perm.refl _⟩
  obtain ⟨cell, -, rfl⟩ := List.mem_map.mp hs
  refine ⟨⟨Int.mul_nonneg (Int.natCast_nonneg n) (Int.natCast_nonneg n), rfl, ?_⟩, rfl, rfl⟩
  rw [List.length_replicate, ← Int.natCast_mul, Int.toNat_natCast]

theorem sixty_four_lines_transmit_once :
    ∃ layout, FPGARendererRPISPI.init (blackRows 64) = some layout ∧
      TransmitsOnce layout (blackRows 64) :=
  ⟨_, rfl, (two_rows_transmit_once_iff 64 (by decide) _ (twoRows_blackRows 64) _ rfl).mpr rfl⟩

/-- Panels of 32 lines: the lower row is never sent. -/
theorem thirty_two_lines_not_transmitted :
    ∃ layout, FPGARendererRPISPI.init (blackRows 32) = some layout ∧
      ¬ TransmitsOnce layout (blackRows 32) := by
  refine ⟨_, rfl, fun htransmits => ?_⟩
  have hside := (twoRows_blackRows 32).side_of_transmitsOnce (by decide) rfl htransmits
  exact absurd hside (by decide)

end MatrixServer
