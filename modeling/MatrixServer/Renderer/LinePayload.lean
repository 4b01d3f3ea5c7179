import MatrixServer.Renderer.LineWords

/-!
Where in a line the pixels of FPGARendererFTDI.cpp and FPGARendererRPISPI.cpp go.
The payload has room for as many panels as there are screens, or for half of them in two rows,
while `offsetX` is whatever the configuration says. Offsets are from the start of the payload:
what is before it are command bytes, and behind it the buffer ends after 128 bytes.
-/

namespace MatrixServer
open PixelGrid

/-- All stores of `FPGARendererFTDI::render` are in the payload. -/
def FPGARendererFTDI.InsidePayload (screens : List Screen) : Prop :=
  ∀ layout, FPGARendererFTDI.layout screens = some layout →
    ∀ y ∈ cells layout.screenHeight, ∀ store ∈ FPGARendererFTDI.lineStores layout screens y,
      0 ≤ store.offset ∧ store.offset + 2 ≤ layout.llen

/-- All stores of `FPGARendererRPISPI::render` are in the payload. -/
def FPGARendererRPISPI.InsidePayload (screens : List Screen) : Prop :=
  ∀ layout, FPGARendererRPISPI.init screens = some layout →
    ∀ y ∈ cells layout.lineCount, ∀ write ∈ FPGARendererRPISPI.lineWrites layout screens y,
      0 ≤ write.offset ∧ write.offset + 2 ≤ layout.bytesPerLine

/-- The words of a panel are in a payload when the last one is, and none is before it. -/
theorem panel_inside_iff {w : Int} (hw : 1 ≤ w) (column bytes : Int) :
    (∀ x ∈ cells w, 0 ≤ 2 * number w (column, x) ∧ 2 * number w (column, x) + 2 ≤ bytes) ↔
      0 ≤ column ∧ 2 * ((column + 1) * w) ≤ bytes := by
  constructor
  · intro h
    obtain ⟨hfirst, -⟩ := h 0 ⟨Int.le_refl _, by omega⟩
    obtain ⟨-, hlast⟩ := h (w - 1) ⟨by omega, by omega⟩
    simp only [number, Int.zero_add] at hfirst hlast
    refine ⟨Int.not_lt.mp fun hneg => ?_, ?_⟩
    · have := Int.mul_neg_of_neg_of_pos hneg (by omega : 0 < w)
      omega
    · rw [Int.add_mul]
      omega
  · rintro ⟨hcolumn, hbytes⟩ x hx
    have hcell : (column, x) ∈ rect (column + 1) w := ⟨hcolumn, by simp only []; omega, hx.1, hx.2⟩
    have hlow := number_nonneg hcell
    have hhigh := number_lt hcell
    omega

theorem mul_le_mul_iff {w : Int} (hw : 1 ≤ w) (a b : Int) : a * w ≤ b * w ↔ a ≤ b :=
  Int.mul_le_mul_right (by omega)

namespace FPGARendererFTDI

theorem insidePayload_iff {screens : List Screen} {w h : Int}
    (hsize : ∀ s ∈ screens, s.width = w ∧ s.height = h) :
    InsidePayload screens ↔
      (1 ≤ w → 1 ≤ h → ∀ s ∈ screens, 0 ≤ s.offsetX ∧ s.offsetX < screens.length) := by
  have hslot : ∀ s : Screen, 1 ≤ w → (0 ≤ s.offsetX ∧ s.offsetX < screens.length ↔
      ∀ x ∈ cells w, 0 ≤ 2 * number w (s.offsetX, x) ∧
        2 * number w (s.offsetX, x) + 2 ≤ 2 * (screens.length * w)) := by
    intro s hw
    rw [panel_inside_iff hw]
    have hcount := mul_le_mul_iff hw (s.offsetX + 1) screens.length
    omega
  constructor
  · intro hinside hw hh s hs
    refine (hslot s hw).mpr fun x hx => ?_
    obtain ⟨layout, hlayout⟩ : ∃ layout, FPGARendererFTDI.layout screens = some layout := by
      cases screens with
      | nil => exact absurd hs List.not_mem_nil
      | cons first screens => exact ⟨_, rfl⟩
    obtain ⟨hwidth, hheight, hbytes⟩ := layout_eq hsize hlayout
    have hstore := hinside layout hlayout 0 ⟨Int.le_refl _, by omega⟩ _
      (mem_lineStores.mpr ⟨s, hs, x, (hsize s hs).1.symm ▸ hx, rfl⟩)
    rw [pixelOffset_eq hlayout, hwidth, hbytes] at hstore
    exact hstore
  · intro hslots layout hlayout y hy store hstore
    obtain ⟨s, hs, x, hx, rfl⟩ := mem_lineStores.mp hstore
    obtain ⟨hwidth, hheight, hbytes⟩ := layout_eq hsize hlayout
    rw [(hsize s hs).1] at hx
    rw [hheight] at hy
    have hw : 1 ≤ w := Int.lt_of_le_of_lt hx.1 hx.2
    have hh : 1 ≤ h := Int.lt_of_le_of_lt hy.1 hy.2
    rw [pixelOffset_eq hlayout, hwidth, hbytes]
    exact (hslot s hw).mp (hslots hw hh s hs) x hx

end FPGARendererFTDI

namespace FPGARendererRPISPI

theorem init_sizes {screens : List Screen} {w h : Int}
    (hsize : ∀ s ∈ screens, s.width = w ∧ s.height = h) {layout : Layout}
    (hinit : init screens = some layout) :
    layout.bytesPerScreen = 2 * w ∧ layout.bytesPerLine = screens.length * w ∧
      layout.lineCount = 2 * h := by
  obtain ⟨first, hfirst, -, -, hpanel, hline, hlines⟩ := init_eq hinit
  obtain ⟨rfl, rfl⟩ := hsize first (List.mem_of_head? hfirst)
  exact ⟨hpanel, hline, hlines⟩

/-- A panel is sent in some line. -/
def Shown (h offsetY : Int) : Prop := offsetY = 0 ∨ offsetY = 1 ∧ 33 ≤ h

theorem shown_iff {h : Int} (hh : 1 ≤ h) (s : Screen) :
    Shown h s.offsetY ↔ ∃ y ∈ cells (2 * h), inLine y s = true := by
  simp only [Shown, inLine, Bool.and_eq_true, Bool.not_eq_true', Bool.and_eq_false_iff,
    decide_eq_false_iff_not]
  constructor
  · rintro (hrow | ⟨hrow, hlines⟩)
    · exact ⟨0, ⟨by omega, by omega⟩, by omega⟩
    · exact ⟨64, ⟨by omega, by omega⟩, by omega⟩
  · rintro ⟨y, ⟨hlow, hhigh⟩, hline⟩
    omega

theorem insidePayload_iff {screens : List Screen} {w h : Int}
    (hsize : ∀ s ∈ screens, s.width = w ∧ s.height = h) :
    InsidePayload screens ↔ (1 ≤ w → 1 ≤ h → ∀ s ∈ screens, Shown h s.offsetY →
      0 ≤ s.offsetX ∧ 2 * (s.offsetX + 1) ≤ screens.length) := by
  have hslot : ∀ s : Screen, 1 ≤ w → (0 ≤ s.offsetX ∧ 2 * (s.offsetX + 1) ≤ screens.length ↔
      ∀ x ∈ cells w, 0 ≤ 2 * number w (s.offsetX, x) ∧
        2 * number w (s.offsetX, x) + 2 ≤ screens.length * w) := by
    intro s hw
    rw [panel_inside_iff hw, ← Int.mul_assoc, mul_le_mul_iff hw]
  have hplace : ∀ (s : Screen) (x : Int), s.offsetX * (2 * w) + x * bitDepthInBytes =
      2 * number w (s.offsetX, x) := by
    intro s x
    simp only [bitDepthInBytes, number, Int.mul_left_comm s.offsetX]
    omega
  constructor
  · intro hinside hw hh s hs hshown
    refine (hslot s hw).mpr fun x hx => ?_
    obtain ⟨layout, hinit⟩ : ∃ layout, init screens = some layout := by
      cases screens with
      | nil => exact absurd hs List.not_mem_nil
      | cons first screens => exact ⟨_, rfl⟩
    obtain ⟨hpanel, hbytes, hlines⟩ := init_sizes hsize hinit
    obtain ⟨y, hy, hline⟩ := (shown_iff hh s).mp hshown
    obtain ⟨index, hindex⟩ := List.getElem?_of_mem hs
    have hwrite := hinside layout hinit y (hlines.symm ▸ hy) ⟨index, _, _⟩
      (mem_lineWrites.mpr ⟨s, hindex, hline, x, (hsize s hs).1.symm ▸ hx, rfl, rfl⟩)
    simp only [hpanel, hplace, hbytes] at hwrite
    exact hwrite
  · intro hslots layout hinit y hy write hwrite
    obtain ⟨s, hindex, hline, x, hx, -, hoffset⟩ := mem_lineWrites.mp hwrite
    obtain ⟨hpanel, hbytes, hlines⟩ := init_sizes hsize hinit
    have hs := List.mem_of_getElem? hindex
    rw [(hsize s hs).1] at hx
    rw [hlines] at hy
    have hw : 1 ≤ w := Int.lt_of_le_of_lt hx.1 hx.2
    have hh : 1 ≤ h := by
      obtain ⟨hlow, hhigh⟩ := hy
      omega
    rw [hoffset, hpanel, hplace, hbytes]
    exact (hslot s hw).mp (hslots hw hh s hs ((shown_iff hh s).mpr ⟨y, hy, hline⟩)) x hx

end FPGARendererRPISPI

/-- What holds of all panels' offsets holds of all the offsets in the configuration. -/
theorem forall_offsets {serverConfig : ServerConfig} {screens : List Screen}
    (hcreated : createScreensFromConfig serverConfig = some screens) (P : Int × Int → Prop) :
    (∀ s ∈ screens, P (s.offsetX, s.offsetY)) ↔
      ∀ info ∈ serverConfig.screenInfo, P (info.offsetX, info.offsetY) := by
  have hoffsets : screens.map (fun s => (s.offsetX, s.offsetY)) =
      serverConfig.screenInfo.map fun info => (info.offsetX, info.offsetY) :=
    createScreensFromConfig_map hcreated fun _ _ hs => Prod.ext hs.offsetX hs.offsetY
  have hmap := List.forall_mem_map (P := P) (f := fun s : Screen => (s.offsetX, s.offsetY))
    (l := screens)
  rw [hoffsets, List.forall_mem_map] at hmap
  exact hmap.symm

/-- All pixels go into the payload just when the configured columns are there: as many as there
are screens, or half as many for the panels that two rows send. -/
theorem pixel_writes_inside_iff (serverConfig : ServerConfig) (screens : List Screen) (w h : Int)
    (hcreated : createScreensFromConfig serverConfig = some screens)
    (hsize : ∀ s ∈ screens, s.width = w ∧ s.height = h) :
    (FPGARendererFTDI.InsidePayload screens ↔ (1 ≤ w → 1 ≤ h →
      ∀ info ∈ serverConfig.screenInfo,
        0 ≤ info.offsetX ∧ info.offsetX < serverConfig.screenInfo.length)) ∧
    (FPGARendererRPISPI.InsidePayload screens ↔ (1 ≤ w → 1 ≤ h →
      ∀ info ∈ serverConfig.screenInfo, FPGARendererRPISPI.Shown h info.offsetY →
        0 ≤ info.offsetX ∧ 2 * (info.offsetX + 1) ≤ serverConfig.screenInfo.length)) := by
  have hcount := (createScreensFromConfig_configured hcreated).length_eq
  rw [FPGARendererFTDI.insidePayload_iff hsize, FPGARendererRPISPI.insidePayload_iff hsize, hcount]
  constructor
  · exact imp_congr_right fun _ => imp_congr_right fun _ =>
      forall_offsets hcreated fun p => 0 ≤ p.1 ∧ p.1 < serverConfig.screenInfo.length
  · exact imp_congr_right fun _ => imp_congr_right fun _ =>
      forall_offsets hcreated fun p => FPGARendererRPISPI.Shown h p.2 →
        0 ≤ p.1 ∧ 2 * (p.1 + 1) ≤ serverConfig.screenInfo.length

/-- Six panels of 64 by 64 pixels side by side, as for a canvas. -/
def panelsInRow : ServerConfig :=
  { screenInfo := [0, 1, 2, 3, 4, 5].map fun column =>
      { width := 64, height := 64, offsetX := column } }

theorem created_panelsInRow : ∃ screens, createScreensFromConfig panelsInRow = some screens ∧
    ∀ s ∈ screens, s.width = 64 ∧ s.height = 64 := by
  obtain ⟨screens, hcreated⟩ : ∃ screens, createScreensFromConfig panelsInRow = some screens :=
    ⟨_, rfl⟩
  refine ⟨screens, hcreated, ?_⟩
  have hsides := createScreensFromConfig_map (f := fun s => (s.width, s.height))
    (g := fun info => (info.width, info.height)) hcreated ?_
  · have hall : ∀ p ∈ screens.map fun s => (s.width, s.height), p = (64, 64) := by
      rw [hsides]
      decide
    exact fun s hs => Prod.ext_iff.mp (List.forall_mem_map.mp hall s hs)
  · intro s info hs
    have hlayout := hs.layout
    simp only [Screen.layout, ScreenInfo.layout, Prod.mk.injEq] at hlayout
    exact Prod.ext hlayout.2.1 hlayout.2.2

theorem row_inside_one_line : ∃ screens, createScreensFromConfig panelsInRow = some screens ∧
    FPGARendererFTDI.InsidePayload screens := by
  obtain ⟨screens, hcreated, hsize⟩ := created_panelsInRow
  refine ⟨screens, hcreated,
    (pixel_writes_inside_iff panelsInRow screens 64 64 hcreated hsize).1.mpr ?_⟩
  decide

/-- The same panels sent in two rows: the payload ends after the third. -/
theorem row_overruns_two_rows : ∃ screens, createScreensFromConfig panelsInRow = some screens ∧
    (∀ s ∈ screens, s.width = 64 ∧ s.height = 64) ∧
    ¬ FPGARendererRPISPI.InsidePayload screens := by
  obtain ⟨screens, hcreated, hsize⟩ := created_panelsInRow
  refine ⟨screens, hcreated, hsize, fun hinside => ?_⟩
  have hslots := (FPGARendererRPISPI.insidePayload_iff hsize).mp hinside (by decide) (by decide)
  have hcount := (createScreensFromConfig_configured hcreated).length_eq
  rw [hcount] at hslots
  have hall := (forall_offsets hcreated fun p => FPGARendererRPISPI.Shown 64 p.2 →
    0 ≤ p.1 ∧ 2 * (p.1 + 1) ≤ panelsInRow.screenInfo.length).mp hslots
  exact absurd (hall { width := 64, height := 64, offsetX := 5 } (by decide) (.inl rfl)).2
    (by decide)

end MatrixServer
