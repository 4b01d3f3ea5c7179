import MatrixServer.Renderer.PanelOutput

/-!
Which pixel of a square screen a panel shows where.
Each renderer turns the panel with mirrors and an exchange of the axes and then numbers the
pixels, so each shows every pixel once; the FPGA renderers do it in the same way.
-/

namespace MatrixServer
open PixelGrid

/-- A square screen of `n` by `n` pixels. -/
structure Screen.Square (s : Screen) (n : Int) : Prop where
  full : s.Full
  width : s.width = n
  height : s.height = n

theorem Screen.Square.length {s : Screen} {n : Int} (h : s.Square n) :
    (s.screenData.length : Int) = n * n := by
  rw [h.full.length, h.full.size, Int.toNat_of_nonneg h.full.nonneg, h.width, h.height]

theorem FPGARendererFTDI.bijOn_source (n : Int) (rotation : Rotation) :
    Set.BijOn (fun p => FPGARendererFTDI.source n n rotation p.1 p.2) (rect n n) (rect n n) := by
  have hcolumns := bijOn_mirrorColumns n n
  have hrows := bijOn_mirrorRows n n
  have hswap := bijOn_swap n n
  cases rotation with
  | rot0 => exact Set.bijOn_id _
  | rot90 => exact (hswap.comp hrows).congr fun _ _ => rfl
  | rot180 => exact (hcolumns.comp hrows).congr fun _ _ => rfl
  | rot270 => exact (hswap.comp hcolumns).congr fun _ _ => rfl

/-- Both FPGA renderers take the pixel from the same place. -/
theorem FPGARendererRPISPI.dataIndex_eq (n : Int) (rotation : Rotation) (x y : Int) :
    FPGARendererRPISPI.dataIndex n n rotation x y =
      number n (FPGARendererFTDI.source n n rotation x y) := by
  cases rotation with
  | rot0 | rot90 | rot180 | rot270 => rfl

theorem FPGARendererRPISPI.bijOn_dataIndex {n : Int} (hn : 0 < n) (rotation : Rotation) :
    Set.BijOn (fun p => FPGARendererRPISPI.dataIndex n n rotation p.1 p.2) (rect n n)
      (cells (n * n)) :=
  ((bijOn_number n hn).comp (FPGARendererFTDI.bijOn_source n rotation)).congr fun p _ =>
    (FPGARendererRPISPI.dataIndex_eq n rotation p.1 p.2).symm

theorem RGBMatrixRenderer.bijOn_position {s : Screen} {n : Int} (h : s.Square n) :
    Set.BijOn (RGBMatrixRenderer.position s) (rect n n)
      (rectAt (n * s.offsetX) (n * s.offsetY) n n) := by
  have hmove := bijOn_moveTo (n * s.offsetX) (n * s.offsetY) n n
  have hcolumns := bijOn_mirrorColumns n n
  have hrows := bijOn_mirrorRows n n
  have hturned : ∀ f, Set.BijOn f (rect n n) (rect n n) →
      (∀ p, RGBMatrixRenderer.position s p = moveTo (n * s.offsetX) (n * s.offsetY) (f p)) →
      Set.BijOn (RGBMatrixRenderer.position s) (rect n n)
        (rectAt (n * s.offsetX) (n * s.offsetY) n n) :=
    fun f hf heq => (hmove.comp hf).congr fun p _ => (heq p).symm
  cases hrotation : s.rotation with
  | rot0 =>
      apply hturned id (Set.bijOn_id _)
      intro p
      simp only [RGBMatrixRenderer.position, hrotation, h.width, h.height, moveTo, id]
  | rot90 =>
      apply hturned _ hcolumns
      intro p
      simp only [RGBMatrixRenderer.position, hrotation, h.width, h.height, moveTo, mirrorColumns,
        Prod.mk.injEq, and_true]
      omega
  | rot180 =>
      apply hturned _ (hcolumns.comp hrows)
      intro p
      simp only [RGBMatrixRenderer.position, hrotation, h.width, h.height, moveTo, mirrorColumns,
        mirrorRows, Function.comp_apply, Prod.mk.injEq]
      omega
  | rot270 =>
      apply hturned _ hrows
      intro p
      simp only [RGBMatrixRenderer.position, hrotation, h.width, h.height, moveTo, mirrorRows,
        Prod.mk.injEq, true_and]
      omega

theorem RGBMatrixRenderer.bijOn_dataIndex {s : Screen} {n : Int} (h : s.Square n) (hn : 0 < n) :
    Set.BijOn (RGBMatrixRenderer.dataIndex s) (rect n n) (cells (n * n)) := by
  have hnumber := bijOn_number n hn
  cases hrotation : s.rotation with
  | rot0 | rot180 =>
      apply hnumber.congr
      intro p _
      simp only [RGBMatrixRenderer.dataIndex, hrotation, h.width, number]
  | rot90 | rot270 =>
      apply (hnumber.comp (bijOn_swap n n)).congr
      intro p _
      simp only [RGBMatrixRenderer.dataIndex, hrotation, h.width, number, Function.comp_apply,
        Prod.fst_swap, Prod.snd_swap]

theorem Screen.Square.contains_iff {s : Screen} {n : Int} (h : s.Square n) (p : Int × Int) :
    s.Contains p.1 p.2 ↔ p ∈ rect n n := by
  rw [Screen.contains_iff, h.width, h.height]

theorem dataIndex_eq_getArrayIndex {s : Screen} {n : Int} (h : s.Square n) (x y : Int) :
    FPGARendererRPISPI.dataIndex n n s.rotation x y = s.getArrayIndex
      (FPGARendererFTDI.source n n s.rotation x y).1
      (FPGARendererFTDI.source n n s.rotation x y).2 := by
  rw [FPGARendererRPISPI.dataIndex_eq, Screen.getArrayIndex_eq, h.height]

/-- Both FPGA renderers find a pixel for each column of each line, and the same one. -/
theorem fpga_pixels_agree {s : Screen} {n : Int} (h : s.Square n) {x y : Int}
    (hp : (x, y) ∈ rect n n) :
    ∃ col, FPGARendererRPISPI.pixel n n s x y = some col ∧
      FPGARendererFTDI.pixel n n s x y = some col := by
  have hsource : FPGARendererFTDI.source n n s.rotation x y ∈ rect n n :=
    (FPGARendererFTDI.bijOn_source n s.rotation).mapsTo hp
  have hin := (h.contains_iff _).mpr hsource
  obtain ⟨col, hcol⟩ : ∃ col, s.screenData[(s.getArrayIndex
      (FPGARendererFTDI.source n n s.rotation x y).1
      (FPGARendererFTDI.source n n s.rotation x y).2).toNat]? = some col :=
    ⟨_, List.getElem?_eq_getElem (h.full.index_lt_length hin)⟩
  refine ⟨col, ?_, ?_⟩
  · rw [FPGARendererRPISPI.pixel, dataIndex_eq_getArrayIndex h, Screen.dataAt,
      if_pos hin.index_nonneg, hcol]
  · simp only [FPGARendererFTDI.pixel, Screen.getPixel, if_pos hin, hcol]

theorem FPGARendererFTDI.bijOn_index {s : Screen} {n : Int} (h : s.Square n) (hn : 0 < n) :
    Set.BijOn (fun p => s.getArrayIndex (FPGARendererFTDI.source n n s.rotation p.1 p.2).1
      (FPGARendererFTDI.source n n s.rotation p.1 p.2).2) (rect n n) (cells (n * n)) :=
  ((bijOn_number n hn).comp (FPGARendererFTDI.bijOn_source n s.rotation)).congr fun _ _ => by
    rw [Function.comp_apply, Screen.getArrayIndex_eq, h.height]

/-- The canvas is set once at each place of the panel, to a pixel that goes with the place. -/
theorem setPixelCalls_matching {s : Screen} {n : Int} (h : s.Square n) (hn : 0 < n) :
    ∃ shown, Set.BijOn shown (rectAt (n * s.offsetX) (n * s.offsetY) n n) (cells (n * n)) ∧
      (∀ call ∈ RGBMatrixRenderer.setPixelCalls s, call.2 = shown call.1) ∧
      ((RGBMatrixRenderer.setPixelCalls s).map Prod.fst).Nodup ∧
      ∀ p, p ∈ (RGBMatrixRenderer.setPixelCalls s).map Prod.fst ↔
        p ∈ rectAt (n * s.offsetX) (n * s.offsetY) n n := by
  have hposition := RGBMatrixRenderer.bijOn_position h
  obtain ⟨shown, hshown, hmatch⟩ :=
    exists_matching hposition (RGBMatrixRenderer.bijOn_dataIndex h hn)
  have hscan := scan_map hposition
  have hplaces : (RGBMatrixRenderer.setPixelCalls s).map Prod.fst =
      (scan n n).map (RGBMatrixRenderer.position s) := by
    rw [RGBMatrixRenderer.setPixelCalls, List.map_map, h.width, h.height]
    rfl
  refine ⟨shown, hshown, fun call hcall => ?_, ?_, ?_⟩
  · rw [RGBMatrixRenderer.setPixelCalls, h.width, h.height] at hcall
    obtain ⟨p, hp, rfl⟩ := List.mem_map.mp hcall
    exact (hmatch p (mem_scan.mp hp)).symm
  · rw [hplaces]
    exact hscan.1
  · rw [hplaces]
    exact hscan.2

/-- On a square screen both FPGA renderers fetch the same pixel for each place, and each of
the three renderers shows every pixel of the screen at one place of its panel. -/
theorem renderers_show_each_pixel_once (n : Int) (hn : 1 ≤ n) (s : Screen) (h : s.Square n) :
    (s.screenData.length : Int) = n * n ∧
    (∀ x y, (x, y) ∈ rect n n →
      FPGARendererRPISPI.dataIndex n n s.rotation x y = s.getArrayIndex
        (FPGARendererFTDI.source n n s.rotation x y).1
        (FPGARendererFTDI.source n n s.rotation x y).2 ∧
      ∃ col, FPGARendererRPISPI.pixel n n s x y = some col ∧
        FPGARendererFTDI.pixel n n s x y = some col) ∧
    Set.BijOn (fun p => s.getArrayIndex (FPGARendererFTDI.source n n s.rotation p.1 p.2).1
      (FPGARendererFTDI.source n n s.rotation p.1 p.2).2) (rect n n) (cells (n * n)) ∧
    Set.BijOn (fun p => FPGARendererRPISPI.dataIndex n n s.rotation p.1 p.2) (rect n n)
      (cells (n * n)) ∧
    ∃ shown, Set.BijOn shown (rectAt (n * s.offsetX) (n * s.offsetY) n n) (cells (n * n)) ∧
      (∀ call ∈ RGBMatrixRenderer.setPixelCalls s, call.2 = shown call.1) ∧
      ((RGBMatrixRenderer.setPixelCalls s).map Prod.fst).Nodup ∧
      ∀ p, p ∈ (RGBMatrixRenderer.setPixelCalls s).map Prod.fst ↔
        p ∈ rectAt (n * s.offsetX) (n * s.offsetY) n n := by
  have hpos : 0 < n := by omega
  exact ⟨h.length, fun x y hp => ⟨dataIndex_eq_getArrayIndex h x y, fpga_pixels_agree h hp⟩,
    FPGARendererFTDI.bijOn_index h hpos, FPGARendererRPISPI.bijOn_dataIndex hpos s.rotation,
    setPixelCalls_matching h hpos⟩

theorem small_screen_square (rotation : Rotation) : Screen.Square
    { screenId := 0, width := 2, height := 2, screenDataSize := 4,
      screenData := List.replicate 4 .black, rotation } 2 :=
  ⟨⟨(by decide : (0 : Int) ≤ 2 * 2), rfl, rfl⟩, rfl, rfl⟩

theorem turned_pixels_shown_once :
    Set.BijOn (fun p => FPGARendererRPISPI.dataIndex 2 2 .rot90 p.1 p.2) (rect 2 2)
      (cells (2 * 2)) :=
  (renderers_show_each_pixel_once 2 (by decide) _ (small_screen_square .rot90)).2.2.2.1

end MatrixServer
