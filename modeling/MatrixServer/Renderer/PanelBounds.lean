import MatrixServer.Renderer.SpiLines

/-!
The places of `screenData` that FPGARendererRPISPI.cpp and RGBMatrixRenderer.cpp read when the
screens are not square.
Their index expressions use one side of the screen where the columns are as long as the other,
which changes nothing on a square screen and leads out of the data, or to another pixel, on
every other one.
-/

namespace MatrixServer
open PixelGrid

/-- What `render` reads are pixels, and an upright panel or one that stands on its head shows
the pixels where `FPGARendererFTDI` shows them. -/
structure FPGARendererRPISPI.ReadsPixels (layout : FPGARendererRPISPI.Layout)
    (screens : List Screen) (w h : Int) : Prop where
  inside : ∀ y ∈ cells layout.lineCount,
    ∀ write ∈ FPGARendererRPISPI.lineWrites layout screens y, write.source ∈ cells (w * h)
  upright : ∀ y ∈ cells layout.lineCount, ∀ s ∈ screens,
    FPGARendererRPISPI.inLine y s = true → s.rotation = .rot0 ∨ s.rotation = .rot180 →
    ∀ x ∈ cells s.width, FPGARendererRPISPI.dataIndex layout.screenWidth layout.screenHeight
      s.rotation x (y % layout.screenHeight) = s.getArrayIndex
        (FPGARendererFTDI.source w h s.rotation x (y % h)).1
        (FPGARendererFTDI.source w h s.rotation x (y % h)).2

/-- The same for the calls of `SetPixel`, where a panel starts at its place of the canvas. -/
structure RGBMatrixRenderer.ReadsPixels (screens : List Screen) (w h : Int) : Prop where
  inside : ∀ s ∈ screens, ∀ call ∈ RGBMatrixRenderer.setPixelCalls s, call.2 ∈ cells (w * h)
  upright : ∀ s ∈ screens, s.rotation = .rot0 ∨ s.rotation = .rot180 →
    ∀ call ∈ RGBMatrixRenderer.setPixelCalls s, call.2 = s.getArrayIndex
      (FPGARendererFTDI.source w h s.rotation (call.1.1 - w * s.offsetX)
        (call.1.2 - h * s.offsetY)).1
      (FPGARendererFTDI.source w h s.rotation (call.1.1 - w * s.offsetX)
        (call.1.2 - h * s.offsetY)).2

/-- A configuration of one screen. -/
def singleScreen (w h : Int) (rotation : Rotation) : ServerConfig :=
  { screenInfo := [{ width := w, height := h, screenRotation := rotation }] }

theorem created_singleScreen {w h : Int} (hw : 1 ≤ w) (hh : 1 ≤ h) (rotation : Rotation) :
    ∃ s, createScreensFromConfig (singleScreen w h rotation) = some [s] ∧
      s.width = w ∧ s.height = h ∧ s.rotation = rotation ∧ s.offsetX = 0 ∧ s.offsetY = 0 := by
  have hpixels : 0 ≤ w * h := Int.mul_nonneg (by omega) (by omega)
  refine ⟨{
    screenId := 0
    width := w
    height := h
    screenDataSize := w * h
    screenData := List.replicate (w * h).toNat .black
    rotation }, ?_, rfl, rfl, rfl, rfl, rfl⟩
  simp only [createScreensFromConfig, singleScreen, List.mapM_cons, List.mapM_nil, Screen.new,
    if_pos hpixels]
  rfl

namespace FPGARendererRPISPI
variable {w h : Int}

/-- The first and the last line of a panel that `render` sends, in the lines up to 63 for the
upper row and in those behind for the lower one. -/
def shownLines (h offsetY : Int) : Option (Int × Int) :=
  if offsetY = 0 then some (0, min (h - 1) 63)
  else if offsetY = 1 ∧ 32 < h then some (max (64 - h) 0, h - 1)
  else none

/-- What the lines shown of a panel ask for: on a quarter turn the columns must not be longer than
the screen is wide, as far as they are shown, and on its head a panel must be square. -/
def Fitting (w h : Int) (s : Screen) : Prop :=
  ∀ lines ∈ shownLines h s.offsetY, match s.rotation with
    | .rot0 => True
    | .rot90 => (h - 1 - lines.1) * h ≤ w * (h - 1)
    | .rot180 => w = h ∨ h = 1
    | .rot270 => lines.2 * h ≤ w * (h - 1)

theorem shownLines_spec (hh : 1 ≤ h) {offsetY : Int} {lines : Int × Int}
    (hlines : lines ∈ shownLines h offsetY) :
    0 ≤ lines.1 ∧ lines.1 ≤ lines.2 ∧ lines.2 < h := by
  simp only [shownLines, Option.mem_def] at hlines
  split_ifs at hlines
  all_goals
    cases hlines
    simp only []
    omega

/-- Some line carries this line of the panel. -/
theorem sent_iff (hh : 1 ≤ h) (s : Screen) (line : Int) :
    (∃ y ∈ cells (2 * h), inLine y s = true ∧ y % h = line) ↔
      ∃ lines ∈ shownLines h s.offsetY, lines.1 ≤ line ∧ line ≤ lines.2 := by
  simp only [inLine, Bool.and_eq_true, Bool.not_eq_true', Bool.and_eq_false_iff,
    decide_eq_false_iff_not, shownLines, Option.mem_def]
  constructor
  · rintro ⟨y, hy, hin, rfl⟩
    have hcases := TwoRows.emod_cases hy
    obtain ⟨hlow, hhigh⟩ := hy
    by_cases hupper : s.offsetY = 0
    · rw [if_pos hupper]
      exact ⟨_, rfl, by simp only []; omega, by simp only []; omega⟩
    · rw [if_neg hupper, if_pos (by omega)]
      exact ⟨_, rfl, by simp only []; omega, by simp only []; omega⟩
  · rintro ⟨lines, hlines, hfirst, hlast⟩
    split_ifs at hlines with hupper hlower
    · cases hlines
      simp only [] at hfirst hlast
      exact ⟨line, ⟨hfirst, by omega⟩, by omega, Int.emod_eq_of_lt hfirst (by omega)⟩
    · cases hlines
      simp only [] at hfirst hlast
      by_cases hbehind : 64 ≤ line
      · exact ⟨line, ⟨by omega, by omega⟩, by omega, Int.emod_eq_of_lt (by omega) (by omega)⟩
      · refine ⟨line + h, ⟨by omega, by omega⟩, by omega, ?_⟩
        rw [Int.add_emod_right, Int.emod_eq_of_lt (by omega) (by omega)]

/-- What is read for one line of a panel. -/
def ReadsLine (w h : Int) (rotation : Rotation) (line : Int) : Prop :=
  (∀ x ∈ cells w, dataIndex w h rotation x line ∈ cells (w * h)) ∧
    (rotation = .rot0 ∨ rotation = .rot180 → ∀ x ∈ cells w,
      dataIndex w h rotation x line = number h (FPGARendererFTDI.source w h rotation x line))

theorem readsPixels_iff {screens : List Screen} (hsize : ∀ s ∈ screens, s.width = w ∧ s.height = h)
    {layout : Layout} (hinit : init screens = some layout) :
    ReadsPixels layout screens w h ↔ ∀ s ∈ screens, ∀ line,
      (∃ y ∈ cells (2 * h), inLine y s = true ∧ y % h = line) → ReadsLine w h s.rotation line := by
  obtain ⟨first, hfirst, hwidth, hheight, -, -, hcount⟩ := init_eq hinit
  obtain ⟨hfirstWidth, hfirstHeight⟩ := hsize first (List.mem_of_head? hfirst)
  rw [hfirstWidth] at hwidth
  rw [hfirstHeight] at hheight hcount
  constructor
  · rintro ⟨hinside, hupright⟩ s hs line ⟨y, hy, hin, rfl⟩
    obtain ⟨index, hindex⟩ := List.getElem?_of_mem hs
    rw [hcount] at hinside hupright
    rw [hwidth, hheight] at hupright
    constructor
    · intro x hx
      refine hinside y hy
        { screen := index, source := dataIndex w h s.rotation x (y % h), offset := _ }
        (mem_lineWrites.mpr ⟨s, hindex, hin, x, ?_, ?_, rfl⟩)
      · rw [(hsize s hs).1]
        exact hx
      · rw [hwidth, hheight]
    · intro hrotation x hx
      rw [hupright y hy s hs hin hrotation x (by rw [(hsize s hs).1]; exact hx),
        Screen.getArrayIndex_eq, (hsize s hs).2]
  · intro hlines
    constructor
    · intro y hy write hwrite
      rw [hcount] at hy
      obtain ⟨s, hs, hin, x, hx, hsource, -⟩ := mem_lineWrites.mp hwrite
      have hmem := List.mem_of_getElem? hs
      rw [(hsize s hmem).1] at hx
      rw [hsource, hwidth, hheight]
      exact (hlines s hmem _ ⟨y, hy, hin, rfl⟩).1 x hx
    · intro y hy s hs hin hrotation x hx
      rw [hcount] at hy
      rw [(hsize s hs).1] at hx
      rw [hwidth, hheight, Screen.getArrayIndex_eq, (hsize s hs).2]
      exact (hlines s hs _ ⟨y, hy, hin, rfl⟩).2 hrotation x hx

theorem readsLine_rot0 {line : Int} (hline : line ∈ cells h) : ReadsLine w h .rot0 line := by
  refine ⟨?_, fun _ _ _ => rfl⟩
  intro x hx
  have hp : (x, line) ∈ rect w h := ⟨hx.1, hx.2, hline.1, hline.2⟩
  exact ⟨number_nonneg hp, number_lt hp⟩

/-- On a quarter turn the last column of the line is read behind all others. -/
theorem readsLine_rot90 (hw : 1 ≤ w) {line : Int} (hline : line ∈ cells h) :
    ReadsLine w h .rot90 line ↔ (h - 1 - line) * h ≤ w * (h - 1) := by
  obtain ⟨hlow, hhigh⟩ := hline
  have hcolumn : 0 ≤ (h - 1 - line) * h := Int.mul_nonneg (by omega) (by omega)
  simp only [ReadsLine, dataIndex, cells, Set.mem_ofPred_eq, Int.mul_sub, Int.mul_one]
  constructor
  · intro hreads
    have hlast := (hreads.1 (w - 1) ⟨by omega, by omega⟩).2
    omega
  · intro hroom
    exact ⟨fun x hx => by omega, fun hrotation => by simp at hrotation⟩

theorem readsLine_rot270 (hw : 1 ≤ w) {line : Int} (hline : line ∈ cells h) :
    ReadsLine w h .rot270 line ↔ line * h ≤ w * (h - 1) := by
  obtain ⟨hlow, hhigh⟩ := hline
  have hcolumn : 0 ≤ line * h := Int.mul_nonneg hlow (by omega)
  simp only [ReadsLine, dataIndex, cells, Set.mem_ofPred_eq, Int.mul_sub, Int.mul_one]
  constructor
  · intro hreads
    have hfirst := (hreads.1 0 ⟨Int.le_refl _, by omega⟩).2
    omega
  · intro hroom
    exact ⟨fun x hx => by omega, fun hrotation => by simp at hrotation⟩

/-- A panel that stands on its head has its pixels where they belong when it is square or has one
line. -/
theorem readsLine_rot180 (hw : 1 ≤ w) {line : Int} (hline : line ∈ cells h) :
    ReadsLine w h .rot180 line ↔ w = h ∨ h = 1 := by
  constructor
  · intro hreads
    have hcorner := hreads.2 (.inr rfl) 0 ⟨Int.le_refl _, by omega⟩
    simp only [dataIndex, FPGARendererFTDI.source, number, Int.sub_zero] at hcorner
    have hproduct : (w - h) * (1 - h) = 0 := by
      simp only [Int.sub_mul, Int.mul_sub, Int.mul_one, Int.one_mul] at hcorner ⊢
      omega
    cases Int.mul_eq_zero.mp hproduct with
    | inl hsides => exact .inl (by omega)
    | inr hone => exact .inr (by omega)
  · intro hsides
    have hsame : ∀ x, dataIndex w h .rot180 x line =
        number h (FPGARendererFTDI.source w h .rot180 x line) := by
      intro x
      simp only [dataIndex, FPGARendererFTDI.source, number]
      cases hsides with
      | inl hsquare => rw [hsquare]
      | inr hone =>
          rw [hone]
          omega
    refine ⟨?_, fun _ x _ => hsame x⟩
    intro x hx
    obtain ⟨hlow, hhigh⟩ := hline
    have hp : FPGARendererFTDI.source w h .rot180 x line ∈ rect w h := by
      simp only [FPGARendererFTDI.source]
      exact ⟨by have := hx.2; simp only []; omega, by have := hx.1; simp only []; omega,
        by simp only []; omega, by simp only []; omega⟩
    rw [hsame]
    exact ⟨number_nonneg hp, number_lt hp⟩

/-- The line furthest from the end of its columns decides. -/
theorem fitting_iff (hw : 1 ≤ w) (hh : 1 ≤ h) (s : Screen) : Fitting w h s ↔
    ∀ line, (∃ lines ∈ shownLines h s.offsetY, lines.1 ≤ line ∧ line ≤ lines.2) →
      ReadsLine w h s.rotation line := by
  have hline : ∀ lines ∈ shownLines h s.offsetY, ∀ line, lines.1 ≤ line → line ≤ lines.2 →
      line ∈ cells h := by
    intro lines hlines line hfirst hlast
    have hshown := shownLines_spec hh hlines
    exact ⟨by omega, by omega⟩
  have hends : ∀ lines ∈ shownLines h s.offsetY, lines.1 ≤ lines.2 := fun lines hlines =>
    (shownLines_spec hh hlines).2.1
  simp only [Fitting]
  cases s.rotation with
  | rot0 =>
      refine ⟨?_, fun _ _ _ => trivial⟩
      rintro - line ⟨lines, hlines, hfirst, hlast⟩
      exact readsLine_rot0 (hline lines hlines line hfirst hlast)
  | rot90 =>
      constructor
      · rintro hfits line ⟨lines, hlines, hfirst, hlast⟩
        rw [readsLine_rot90 hw (hline lines hlines line hfirst hlast)]
        exact Int.le_trans (Int.mul_le_mul_of_nonneg_right (by omega) (by omega))
          (hfits lines hlines)
      · intro hreads lines hlines
        have hend := hends lines hlines
        exact (readsLine_rot90 hw (hline lines hlines _ (Int.le_refl _) hend)).mp
          (hreads lines.1 ⟨lines, hlines, Int.le_refl _, hend⟩)
  | rot180 =>
      constructor
      · rintro hfits line ⟨lines, hlines, hfirst, hlast⟩
        exact (readsLine_rot180 hw (hline lines hlines line hfirst hlast)).mpr (hfits lines hlines)
      · intro hreads lines hlines
        have hend := hends lines hlines
        exact (readsLine_rot180 hw (hline lines hlines _ (Int.le_refl _) hend)).mp
          (hreads lines.1 ⟨lines, hlines, Int.le_refl _, hend⟩)
  | rot270 =>
      constructor
      · rintro hfits line ⟨lines, hlines, hfirst, hlast⟩
        rw [readsLine_rot270 hw (hline lines hlines line hfirst hlast)]
        exact Int.le_trans (Int.mul_le_mul_of_nonneg_right hlast (by omega)) (hfits lines hlines)
      · intro hreads lines hlines
        have hend := hends lines hlines
        exact (readsLine_rot270 hw (hline lines hlines _ hend (Int.le_refl _))).mp
          (hreads lines.2 ⟨lines, hlines, hend, Int.le_refl _⟩)

end FPGARendererRPISPI

namespace RGBMatrixRenderer

/-- What the renderer asks for: the columns of a panel that is not on its side are as long as the
screen is wide, or there is only one. -/
def Fitting (w h : Int) (s : Screen) : Prop :=
  s.rotation = .rot0 ∨ s.rotation = .rot180 → w = h ∨ w = 1

theorem mem_setPixelCalls {s : Screen} {call : (Int × Int) × Int} :
    call ∈ setPixelCalls s ↔
      ∃ p ∈ rect s.width s.height, call = (position s p, dataIndex s p) := by
  simp only [setPixelCalls, List.mem_map, mem_scan, eq_comm]

/-- The place of an upright panel and of one on its head, from the start of the panel. -/
theorem source_position {s : Screen} (h : s.rotation = .rot0 ∨ s.rotation = .rot180)
    (p : Int × Int) : FPGARendererFTDI.source s.width s.height s.rotation
      ((position s p).1 - s.width * s.offsetX) ((position s p).2 - s.height * s.offsetY) = p := by
  cases h with
  | inl hrotation =>
      simp only [FPGARendererFTDI.source, position, hrotation]
      exact Prod.ext (by simp only []; omega) (by simp only []; omega)
  | inr hrotation =>
      simp only [FPGARendererFTDI.source, position, hrotation]
      exact Prod.ext (by simp only []; omega) (by simp only []; omega)

/-- The pixels are numbered in columns of the width when a panel is not on its side, and in rows
when it is. -/
theorem dataIndex_eq (s : Screen) (p : Int × Int) : dataIndex s p =
    if s.rotation = .rot0 ∨ s.rotation = .rot180 then number s.width p
    else number s.width p.swap := by
  cases hrotation : s.rotation with
  | rot0 | rot90 | rot180 | rot270 => simp [dataIndex, hrotation, number]

/-- The last column of an upright panel gives a screen of more than one column away. -/
theorem number_agrees_iff {w h : Int} (hw : 1 ≤ w) (hh : 1 ≤ h) :
    (∀ p ∈ rect w h, number w p = number h p) ↔ w = h ∨ w = 1 := by
  constructor
  · intro hsame
    have hlast := hsame (w - 1, 0)
      ⟨by simp only []; omega, by simp only []; omega, Int.le_refl _, by simp only []; omega⟩
    simp only [number, Int.zero_add] at hlast
    have hproduct : (w - 1) * (w - h) = 0 := by rw [Int.mul_sub, hlast, Int.sub_self]
    cases Int.mul_eq_zero.mp hproduct with
    | inl hone => exact .inr (by omega)
    | inr hsides => exact .inl (by omega)
  · intro hsides p hp
    cases hsides with
    | inl hsquare => rw [hsquare]
    | inr hone =>
        obtain ⟨hx, hwidth, -, -⟩ := hp
        have hfirst : p.1 = 0 := by omega
        simp only [number, hfirst, Int.zero_mul]

theorem readsPixels_iff {w h : Int} (hw : 1 ≤ w) (hh : 1 ≤ h) {screens : List Screen}
    (hsize : ∀ s ∈ screens, s.width = w ∧ s.height = h) :
    ReadsPixels screens w h ↔ ∀ s ∈ screens, Fitting w h s := by
  have hplace : ∀ s ∈ screens, s.rotation = .rot0 ∨ s.rotation = .rot180 → ∀ p,
      FPGARendererFTDI.source w h s.rotation ((position s p).1 - w * s.offsetX)
        ((position s p).2 - h * s.offsetY) = p := by
    intro s hs hrotation p
    have hsource := source_position hrotation p
    rw [(hsize s hs).1, (hsize s hs).2] at hsource
    exact hsource
  constructor
  · intro hreads s hs hrotation
    rw [← number_agrees_iff hw hh]
    intro p hp
    have hcall : (position s p, dataIndex s p) ∈ setPixelCalls s := by
      refine mem_setPixelCalls.mpr ⟨p, ?_, rfl⟩
      rw [(hsize s hs).1, (hsize s hs).2]
      exact hp
    have hsame := hreads.upright s hs hrotation _ hcall
    simp only [hplace s hs hrotation p, Screen.getArrayIndex_eq, dataIndex_eq, if_pos hrotation,
      (hsize s hs).1, (hsize s hs).2] at hsame
    exact hsame
  · intro hfits
    have hcolumns : ∀ s ∈ screens, s.rotation = .rot0 ∨ s.rotation = .rot180 →
        ∀ p ∈ rect w h, dataIndex s p = number h p := by
      intro s hs hrotation p hp
      rw [dataIndex_eq, if_pos hrotation, (hsize s hs).1]
      exact (number_agrees_iff hw hh).mpr (hfits s hs hrotation) p hp
    constructor
    · intro s hs call hcall
      obtain ⟨p, hp, rfl⟩ := mem_setPixelCalls.mp hcall
      rw [(hsize s hs).1, (hsize s hs).2] at hp
      by_cases hrotation : s.rotation = .rot0 ∨ s.rotation = .rot180
      · simp only [hcolumns s hs hrotation p hp]
        exact ⟨number_nonneg hp, number_lt hp⟩
      · have hturned : p.swap ∈ rect h w := ⟨hp.2.2.1, hp.2.2.2, hp.1, hp.2.1⟩
        simp only [dataIndex_eq, if_neg hrotation, (hsize s hs).1]
        rw [Int.mul_comm w h]
        exact ⟨number_nonneg hturned, number_lt hturned⟩
    · intro s hs hrotation call hcall
      obtain ⟨p, hp, rfl⟩ := mem_setPixelCalls.mp hcall
      rw [(hsize s hs).1, (hsize s hs).2] at hp
      simp only [hplace s hs hrotation p, Screen.getArrayIndex_eq, (hsize s hs).2,
        hcolumns s hs hrotation p hp]

end RGBMatrixRenderer

/-- From screens of a size both renderers read only pixels, and the right ones, just when each
screen, turned as it is, fits the index they compute. -/
theorem pixels_read_iff (w h : Int) (hw : 1 ≤ w) (hh : 1 ≤ h) (serverConfig : ServerConfig)
    (screens : List Screen) (hcreated : createScreensFromConfig serverConfig = some screens)
    (hsize : ∀ s ∈ screens, s.width = w ∧ s.height = h) :
    (∀ s ∈ screens, (s.screenData.length : Int) = w * h) ∧
    ((∀ layout, FPGARendererRPISPI.init screens = some layout →
      FPGARendererRPISPI.ReadsPixels layout screens w h) ↔
        ∀ s ∈ screens, FPGARendererRPISPI.Fitting w h s) ∧
    (RGBMatrixRenderer.ReadsPixels screens w h ↔
      ∀ s ∈ screens, RGBMatrixRenderer.Fitting w h s) := by
  refine ⟨?_, ?_, RGBMatrixRenderer.readsPixels_iff hw hh hsize⟩
  · intro s hs
    have hfull := (createScreensFromConfig_layouts hcreated).2 s hs
    rw [hfull.length, hfull.size, Int.toNat_of_nonneg hfull.nonneg, (hsize s hs).1, (hsize s hs).2]
  · cases hscreens : screens with
    | nil => simp [FPGARendererRPISPI.init]
    | cons first rest =>
        obtain ⟨layout, hinit⟩ :
            ∃ layout, FPGARendererRPISPI.init (first :: rest) = some layout := ⟨_, rfl⟩
        rw [hscreens] at hsize
        simp only [hinit, Option.some.injEq, forall_eq', FPGARendererRPISPI.fitting_iff hw hh,
          FPGARendererRPISPI.readsPixels_iff hsize hinit, FPGARendererRPISPI.sent_iff hh]

/-- A panel of 64 by 32 pixels on its side. -/
theorem wide_panel_read : ∃ (s : Screen) (layout : FPGARendererRPISPI.Layout),
    createScreensFromConfig (singleScreen 64 32 .rot90) = some [s] ∧
      FPGARendererRPISPI.init [s] = some layout ∧
      FPGARendererRPISPI.ReadsPixels layout [s] 64 32 ∧
      RGBMatrixRenderer.ReadsPixels [s] 64 32 := by
  obtain ⟨s, hcreated, hwidth, hheight, hrotation, -, hrow⟩ :=
    created_singleScreen (w := 64) (h := 32) (by decide) (by decide) .rot90
  have hsize : ∀ s' ∈ [s], s'.width = 64 ∧ s'.height = 32 := by
    intro s' hs'
    cases List.mem_singleton.mp hs'
    exact ⟨hwidth, hheight⟩
  obtain ⟨-, hrpi, hrgb⟩ := pixels_read_iff 64 32 (by decide) (by decide) _ _ hcreated hsize
  obtain ⟨layout, hinit⟩ : ∃ layout, FPGARendererRPISPI.init [s] = some layout := ⟨_, rfl⟩
  refine ⟨s, layout, hcreated, hinit, hrpi.mpr ?_ layout hinit, hrgb.mpr ?_⟩
  · intro s' hs' lines hlines
    cases List.mem_singleton.mp hs'
    rw [hrow] at hlines
    cases hlines
    rw [hrotation]
    decide
  · intro s' hs' hupright
    cases List.mem_singleton.mp hs'
    simp [hrotation] at hupright

/-- A panel of 64 by 32 pixels, and one of 32 by 64 that is turned: reading ends far behind the
2048 pixels. -/
theorem oblong_panels_read_outside :
    (∃ s : Screen, createScreensFromConfig (singleScreen 64 32 .rot0) = some [s] ∧
      ((63, 31), 4063) ∈ RGBMatrixRenderer.setPixelCalls s ∧
      ¬ RGBMatrixRenderer.ReadsPixels [s] 64 32) ∧
    ∃ (s : Screen) (layout : FPGARendererRPISPI.Layout),
      createScreensFromConfig (singleScreen 32 64 .rot90) = some [s] ∧
      FPGARendererRPISPI.init [s] = some layout ∧
      { screen := 0, source := 4063, offset := 62 } ∈
        FPGARendererRPISPI.lineWrites layout [s] 0 ∧
      ¬ FPGARendererRPISPI.ReadsPixels layout [s] 32 64 := by
  constructor
  · obtain ⟨s, hcreated, hwidth, hheight, hrotation, hcolumn, hrow⟩ :=
      created_singleScreen (w := 64) (h := 32) (by decide) (by decide) .rot0
    have hcall : ((63, 31), 4063) ∈ RGBMatrixRenderer.setPixelCalls s := by
      refine RGBMatrixRenderer.mem_setPixelCalls.mpr ⟨(63, 31), ?_, ?_⟩
      · rw [hwidth, hheight]
        exact ⟨by decide, by decide, by decide, by decide⟩
      · simp [RGBMatrixRenderer.position, RGBMatrixRenderer.dataIndex, hrotation, hwidth, hheight,
          hcolumn, hrow]
    refine ⟨s, hcreated, hcall, fun hreads => ?_⟩
    have hinside := (hreads.inside s (List.mem_singleton.mpr rfl) _ hcall).2
    exact absurd hinside (by decide)
  · obtain ⟨s, hcreated, hwidth, hheight, hrotation, hcolumn, hrow⟩ :=
      created_singleScreen (w := 32) (h := 64) (by decide) (by decide) .rot90
    obtain ⟨layout, hinit⟩ : ∃ layout, FPGARendererRPISPI.init [s] = some layout := ⟨_, rfl⟩
    have hwrite : { screen := 0, source := 4063, offset := 62 } ∈
        FPGARendererRPISPI.lineWrites layout [s] 0 := by
      cases hinit
      refine FPGARendererRPISPI.mem_lineWrites.mpr ⟨s, rfl, ?_, 31, ?_, ?_, ?_⟩
      · simp [FPGARendererRPISPI.inLine, hrow]
      · rw [hwidth]
        exact ⟨by decide, by decide⟩
      · simp [FPGARendererRPISPI.dataIndex, hrotation, hheight]
      · simp [hcolumn, FPGARendererRPISPI.bitDepthInBytes]
    refine ⟨s, layout, hcreated, hinit, hwrite, fun hreads => ?_⟩
    have hline : (0 : Int) ∈ cells layout.lineCount := by
      cases hinit
      exact ⟨Int.le_refl _, by simp only [hheight]; decide⟩
    exact absurd (hreads.inside 0 hline _ hwrite).2 (by decide)

end MatrixServer
