import MatrixServer.Renderer.LineWords
import MatrixServer.Renderer.Renderer

/-!
Where the pixels of six panels go in what FPGARendererFTDI.cpp and FPGARendererRPISPI.cpp send.
A panel has a slot, its place in the lines and among the rows of panels. Turning a panel moves
a pixel inside its slot, so the slot and the rotation of a panel alone tell the line and the
word of the line that carry a pixel, and every word of every slot carries one.
-/

namespace MatrixServer
open PixelGrid

/-- The column and the line of a turned panel of side `n` that show a pixel. -/
def Rotation.placeOf (rotation : Rotation) (n : Int) (p : Int × Int) : Int × Int :=
  match rotation with
  | .rot0 => p
  | .rot90 => (p.2, n - 1 - p.1)
  | .rot180 => (n - 1 - p.1, n - 1 - p.2)
  | .rot270 => (n - 1 - p.2, p.1)

theorem Rotation.source_placeOf (rotation : Rotation) (n : Int) (p : Int × Int) :
    FPGARendererFTDI.source n n rotation (rotation.placeOf n p).1 (rotation.placeOf n p).2 = p := by
  cases rotation with
  | rot0 => rfl
  | rot90 | rot180 | rot270 =>
      simp only [FPGARendererFTDI.source, placeOf, Int.sub_sub_self]

theorem Rotation.placeOf_source (rotation : Rotation) (n : Int) (q : Int × Int) :
    rotation.placeOf n (FPGARendererFTDI.source n n rotation q.1 q.2) = q := by
  cases rotation with
  | rot0 => rfl
  | rot90 | rot180 | rot270 =>
      simp only [FPGARendererFTDI.source, placeOf, Int.sub_sub_self]

theorem Rotation.placeOf_mem (rotation : Rotation) {n : Int} {p : Int × Int} (hp : p ∈ rect n n) :
    rotation.placeOf n p ∈ rect n n := by
  obtain ⟨hx, hwidth, hy, hheight⟩ := hp
  cases rotation with
  | rot0 => exact ⟨hx, hwidth, hy, hheight⟩
  | rot90 | rot180 | rot270 =>
      refine ⟨?_, ?_, ?_, ?_⟩ <;> simp only [placeOf] <;> omega

theorem Screen.Square.exists_pixel {s : Screen} {n : Int} (h : s.Square n) {p : Int × Int}
    (hp : p ∈ rect n n) : ∃ c, s.getPixel p.1 p.2 = some c := by
  obtain ⟨c, -, hc⟩ := fpga_pixels_agree h (x := (s.rotation.placeOf n p).1)
    (y := (s.rotation.placeOf n p).2) (s.rotation.placeOf_mem hp)
  rw [FPGARendererFTDI.pixel, Rotation.source_placeOf] at hc
  exact ⟨c, hc⟩

theorem Screen.getPixel_congr {s client : Screen} (hwidth : s.width = client.width)
    (hheight : s.height = client.height) (hdata : s.screenData = client.screenData) (x y : Int) :
    s.getPixel x y = client.getPixel x y := by
  have hin : s.Contains x y ↔ client.Contains x y := by
    rw [Contains, Contains, hwidth, hheight]
  simp only [getPixel, hin, getArrayIndex, hheight, hdata]

/-- The line and the offset in its payload that carry a pixel of a panel of side 64, of a panel
in the slot. -/
def panelWire (rotation : Rotation) (slot p : Int × Int) : Int × Int :=
  (64 * slot.2 + (rotation.placeOf 64 p).2, 2 * (64 * slot.1 + (rotation.placeOf 64 p).1))

theorem panelWire_slot (rotation : Rotation) (slot : Int × Int) {p : Int × Int}
    (hp : p ∈ rect 64 64) : (panelWire rotation slot p).2 / 2 / 64 = slot.1 ∧
      (panelWire rotation slot p).1 / 64 = slot.2 := by
  obtain ⟨hx, hwidth, hy, hheight⟩ := rotation.placeOf_mem hp
  simp only [panelWire]
  omega

theorem panelWire_inj {rotation : Rotation} {slot p q : Int × Int}
    (heq : panelWire rotation slot p = panelWire rotation slot q) : p = q := by
  simp only [panelWire, Prod.mk.injEq] at heq
  have hplace : rotation.placeOf 64 p = rotation.placeOf 64 q :=
    Prod.ext (by omega) (by omega)
  calc p = _ := (rotation.source_placeOf 64 p).symm
    _ = _ := by rw [hplace]
    _ = q := rotation.source_placeOf 64 q

theorem exists_panelWire (rotation : Rotation) (line word : Int) :
    ∃ p ∈ rect 64 64, panelWire rotation (word / 64, line / 64) p = (line, 2 * word) := by
  have hplace : (word % 64, line % 64) ∈ rect 64 64 :=
    ⟨by simp only []; omega, by simp only []; omega, by simp only []; omega, by simp only []; omega⟩
  refine ⟨FPGARendererFTDI.source 64 64 rotation (word % 64) (line % 64),
    (FPGARendererFTDI.bijOn_source 64 rotation).mapsTo hplace, ?_⟩
  have hsource := rotation.placeOf_source 64 (word % 64, line % 64)
  simp only [panelWire, hsource]
  exact Prod.ext (by simp only []; omega) (by simp only []; omega)

/-- The slot of a panel; one renderer does not read `offsetY`. -/
def RendererKind.slotOf (kind : RendererKind) (offsetX offsetY : Int) : Int × Int :=
  match kind with
  | .fpgaFTDI => (offsetX, 0)
  | _ => (offsetX, offsetY)

/-- The slots of the lines that an FPGA renderer sends for six panels. -/
def RendererKind.slots : RendererKind → List (Int × Int)
  | .fpgaFTDI => [(0, 0), (1, 0), (2, 0), (3, 0), (4, 0), (5, 0)]
  | .fpgaRPISPI => [(0, 0), (1, 0), (2, 0), (0, 1), (1, 1), (2, 1)]
  | _ => []

namespace Renderer

/-- The word that an FPGA renderer sends at an offset of a line's payload. -/
def sentWord (dimmed : Color → Color) (r : Renderer) (line offset : Int) : Option UInt16 :=
  match r.kind with
  | .fpgaFTDI => (FPGARendererFTDI.layout r.screens).bind fun layout =>
      lineWord (FPGARendererFTDI.lineStores layout r.screens line) offset
  | .fpgaRPISPI => (FPGARendererRPISPI.init r.screens).bind fun layout =>
      lineWord (FPGARendererRPISPI.lineStores r.globalBrightness dimmed layout r.screens line)
        offset
  | _ => none

/-- What a renderer makes of a colour; only one of the FPGA renderers dims. -/
def wordOf (dimmed : Color → Color) (r : Renderer) (c : Color) : UInt16 :=
  match r.kind with
  | .fpgaRPISPI => FPGARendererRPISPI.word (if r.globalBrightness < 100 then dimmed c else c)
  | _ => FPGARendererFTDI.word c

def slotOf (r : Renderer) (s : Screen) : Int × Int := r.kind.slotOf s.offsetX s.offsetY

/-- Six panels of side 64, each in a slot of its own. -/
structure Panels (r : Renderer) : Prop where
  square : ∀ s ∈ r.screens, s.Square 64
  slots : (r.screens.map r.slotOf).Perm r.kind.slots

theorem Panels.of_same {r r' : Renderer} (h : r.Panels) (hkind : r'.kind = r.kind)
    (hscreens : r'.screens = r.screens) : r'.Panels := by
  have hslot : r'.slotOf = r.slotOf := by
    funext s
    rw [slotOf, slotOf, hkind]
  refine ⟨?_, ?_⟩
  · rw [hscreens]
    exact h.square
  · rw [hscreens, hslot, hkind]
    exact h.slots

/-- What a renderer makes of a colour depends on its kind and its brightness. -/
theorem wordOf_of_same {r r' : Renderer} (hkind : r'.kind = r.kind)
    (hbrightness : r'.globalBrightness = r.globalBrightness) (dimmed : Color → Color) :
    r'.wordOf dimmed = r.wordOf dimmed := by
  funext c
  rw [wordOf, wordOf, hkind, hbrightness]

variable {r : Renderer}

theorem Panels.slot_mem (h : r.Panels) {s : Screen} (hs : s ∈ r.screens) :
    r.slotOf s ∈ r.kind.slots := h.slots.subset (List.mem_map_of_mem hs)

theorem Panels.size (h : r.Panels) : ∀ s ∈ r.screens, s.width = 64 ∧ s.height = 64 :=
  fun s hs => ⟨(h.square s hs).width, (h.square s hs).height⟩

theorem Panels.length (h : r.Panels) : r.screens.length = r.kind.slots.length := by
  rw [← h.slots.length_eq, List.length_map]

theorem Panels.distinct (h : r.Panels) : (r.screens.map r.slotOf).Nodup := by
  apply h.slots.nodup_iff.mpr
  cases r.kind with
  | fpgaFTDI | fpgaRPISPI => decide
  | rgbMatrix | webSocketSimulator _ => exact List.nodup_nil

theorem Panels.ftdi_slots (h : r.Panels) (hkind : r.kind = .fpgaFTDI) :
    FPGARendererFTDI.Slots r.screens 64 64 := by
  refine ⟨h.size, ?_, ?_⟩
  · intro s hs
    have hslot := h.slot_mem hs
    have hlength := h.length
    simp only [slotOf, hkind, RendererKind.slotOf, RendererKind.slots, List.mem_cons,
      Prod.mk.injEq, List.not_mem_nil, or_false] at hslot
    rw [hlength, hkind]
    exact ⟨by omega, by simp only [RendererKind.slots, List.length_cons, List.length_nil]; omega⟩
  · have hdistinct := h.distinct
    have hslot : r.slotOf = (fun offsetX => (offsetX, 0)) ∘ Screen.offsetX := by
      funext s
      simp only [slotOf, hkind, RendererKind.slotOf, Function.comp_apply]
    rw [hslot, ← List.map_map] at hdistinct
    exact hdistinct.of_map _

theorem Panels.rpispi_slots (h : r.Panels) (hkind : r.kind = .fpgaRPISPI) :
    FPGARendererRPISPI.Slots r.screens 64 64 := by
  refine ⟨h.size, ?_, ?_⟩
  · intro s hs
    have hslot := h.slot_mem hs
    have hlength := h.length
    simp only [slotOf, hkind, RendererKind.slotOf, RendererKind.slots, List.mem_cons,
      Prod.mk.injEq, List.not_mem_nil, or_false] at hslot
    rw [hlength, hkind]
    refine ⟨⟨by omega, ?_⟩, by omega⟩
    simp only [RendererKind.slots, List.length_cons, List.length_nil]
    omega
  · have hdistinct := h.distinct
    have hslot : r.slotOf = fun s => (s.offsetX, s.offsetY) := by
      funext s
      simp only [slotOf, hkind, RendererKind.slotOf]
    rwa [hslot] at hdistinct

/-- A pixel's wire carries the pixel. -/
theorem Panels.sentWord_ftdi (h : r.Panels) (hkind : r.kind = .fpgaFTDI)
    (dimmed : Color → Color) {s : Screen} (hs : s ∈ r.screens) {p : Int × Int}
    (hp : p ∈ rect 64 64) :
    r.sentWord dimmed (panelWire s.rotation (r.slotOf s) p).1
        (panelWire s.rotation (r.slotOf s) p).2 =
      (s.getPixel p.1 p.2).map FPGARendererFTDI.word := by
  have hplace := s.rotation.placeOf_mem hp
  obtain ⟨layout, hlayout⟩ : ∃ layout, FPGARendererFTDI.layout r.screens = some layout := by
    cases hscreens : r.screens with
    | nil => simp [hscreens] at hs
    | cons first screens => exact ⟨_, rfl⟩
  obtain ⟨hwidth, hheight, -⟩ := FPGARendererFTDI.layout_eq h.size hlayout
  have hword := FPGARendererFTDI.lineWord_eq (h.ftdi_slots hkind) hlayout hs
    (x := (s.rotation.placeOf 64 p).1) ⟨hplace.1, hplace.2.1⟩ (s.rotation.placeOf 64 p).2
  have hoffset : (panelWire s.rotation (r.slotOf s) p).2 =
      FPGARendererFTDI.pixelOffset layout s (s.rotation.placeOf 64 p).1 := by
    rw [FPGARendererFTDI.pixelOffset_eq hlayout, hwidth]
    simp only [panelWire, slotOf, hkind, RendererKind.slotOf, number]
    omega
  have hline : (panelWire s.rotation (r.slotOf s) p).1 = (s.rotation.placeOf 64 p).2 := by
    simp only [panelWire, slotOf, hkind, RendererKind.slotOf]
    omega
  simp only [sentWord, hkind, hlayout, Option.bind_some]
  rw [hline, hoffset, hword, hwidth, hheight, FPGARendererFTDI.pixel]
  simp only [Rotation.source_placeOf]

theorem Panels.sentWord_rpispi (h : r.Panels) (hkind : r.kind = .fpgaRPISPI)
    (dimmed : Color → Color) {s : Screen} (hs : s ∈ r.screens) {p : Int × Int}
    (hp : p ∈ rect 64 64) :
    r.sentWord dimmed (panelWire s.rotation (r.slotOf s) p).1
        (panelWire s.rotation (r.slotOf s) p).2 =
      (s.getPixel p.1 p.2).map fun c =>
        FPGARendererRPISPI.word (if r.globalBrightness < 100 then dimmed c else c) := by
  have hplace := s.rotation.placeOf_mem hp
  obtain ⟨hleft, hright, htop, hbottom⟩ := id hplace
  obtain ⟨layout, hinit⟩ : ∃ layout, FPGARendererRPISPI.init r.screens = some layout := by
    cases hscreens : r.screens with
    | nil => simp [hscreens] at hs
    | cons first screens => exact ⟨_, rfl⟩
  have hslots := h.rpispi_slots hkind
  obtain ⟨first, hfirst, hwidth, hheight, hbytes, -, -⟩ := FPGARendererRPISPI.init_eq hinit
  rw [(h.size first (List.mem_of_head? hfirst)).1] at hwidth hbytes
  rw [(h.size first (List.mem_of_head? hfirst)).2] at hheight
  have hrow := (hslots.valid s hs).2
  have hinLine : FPGARendererRPISPI.inLine (64 * s.offsetY + (s.rotation.placeOf 64 p).2) s =
      true := (FPGARendererRPISPI.inLine_iff hrow).mpr (by omega)
  have hword := FPGARendererRPISPI.lineWord_eq hslots hinit r.globalBrightness dimmed hs hinLine
    (x := (s.rotation.placeOf 64 p).1) ⟨hleft, hright⟩
  have hoffset : (panelWire s.rotation (r.slotOf s) p).2 =
      FPGARendererRPISPI.pixelOffset layout s (s.rotation.placeOf 64 p).1 := by
    simp only [panelWire, slotOf, hkind, RendererKind.slotOf, FPGARendererRPISPI.pixelOffset,
      hbytes, FPGARendererRPISPI.bitDepthInBytes]
    omega
  have hline : (panelWire s.rotation (r.slotOf s) p).1 =
      64 * s.offsetY + (s.rotation.placeOf 64 p).2 := by
    simp only [panelWire, slotOf, hkind, RendererKind.slotOf]
  have hyPos : (64 * s.offsetY + (s.rotation.placeOf 64 p).2) % 64 =
      (s.rotation.placeOf 64 p).2 := by omega
  obtain ⟨col, hcol, hcol'⟩ := fpga_pixels_agree (h.square s hs)
    (x := (s.rotation.placeOf 64 p).1) (y := (s.rotation.placeOf 64 p).2) hplace
  have hsource : s.getPixel p.1 p.2 = some col := by
    simpa only [FPGARendererFTDI.pixel, Rotation.source_placeOf] using hcol'
  simp only [sentWord, hkind, hinit, Option.bind_some]
  rw [hline, hoffset, hword, hwidth, hheight, hyPos, hcol, hsource]

theorem Panels.sentWord_eq (h : r.Panels) (hkind : r.kind = .fpgaFTDI ∨ r.kind = .fpgaRPISPI)
    (dimmed : Color → Color) {s : Screen} (hs : s ∈ r.screens) {p : Int × Int}
    (hp : p ∈ rect 64 64) :
    r.sentWord dimmed (panelWire s.rotation (r.slotOf s) p).1
        (panelWire s.rotation (r.slotOf s) p).2 =
      (s.getPixel p.1 p.2).map (r.wordOf dimmed) := by
  cases hkind with
  | inl hftdi =>
      rw [h.sentWord_ftdi hftdi dimmed hs hp]
      congr 1
      funext c
      simp only [wordOf, hftdi]
  | inr hrpispi =>
      rw [h.sentWord_rpispi hrpispi dimmed hs hp]
      congr 1
      funext c
      simp only [wordOf, hrpispi]

end Renderer

/-- The wire of a pixel of a configured panel. -/
def RendererKind.wire (kind : RendererKind) (info : ScreenInfo) (p : Int × Int) : Int × Int :=
  panelWire info.screenRotation (kind.slotOf info.offsetX info.offsetY) p

/-- Six panels of side 64, each in a slot of its own of what the renderer sends. -/
structure ServerConfig.FillsSlots (serverConfig : ServerConfig) (kind : RendererKind) : Prop where
  size : ∀ info ∈ serverConfig.screenInfo, info.width = 64 ∧ info.height = 64
  slots : (serverConfig.screenInfo.map fun info => kind.slotOf info.offsetX info.offsetY).Perm
    kind.slots

/-- A wire is that of a pixel of the panel that is configured at a place. -/
def RendererKind.Carries (kind : RendererKind) (serverConfig : ServerConfig)
    (wire : Int × Int) (pixel : Nat × Int × Int) : Prop :=
  ∃ info, serverConfig.screenInfo[pixel.1]? = some info ∧ pixel.2 ∈ rect 64 64 ∧
    kind.wire info pixel.2 = wire

/-- Every word of every slot carries one pixel. -/
theorem ServerConfig.FillsSlots.existsUnique_carries {serverConfig : ServerConfig}
    {kind : RendererKind} (h : serverConfig.FillsSlots kind) (line word : Int)
    (hslot : (word / 64, line / 64) ∈ kind.slots) :
    ∃! pixel, kind.Carries serverConfig (line, 2 * word) pixel := by
  have hdistinct : (serverConfig.screenInfo.map fun info =>
      kind.slotOf info.offsetX info.offsetY).Nodup := by
    apply h.slots.nodup_iff.mpr
    cases kind with
    | fpgaFTDI | fpgaRPISPI => decide
    | rgbMatrix | webSocketSimulator _ => exact List.nodup_nil
  obtain ⟨info, hinfo, hat⟩ := List.mem_map.mp (h.slots.symm.subset hslot)
  obtain ⟨place, hplace⟩ := List.mem_iff_getElem?.mp hinfo
  obtain ⟨p, hp, hwire⟩ := exists_panelWire info.screenRotation line word
  refine ⟨(place, p), ⟨info, hplace, hp, ?_⟩, ?_⟩
  · rw [RendererKind.wire, hat, hwire]
  · rintro ⟨place', p'⟩ ⟨info', hplace', hp', hwire'⟩
    have hsame : kind.slotOf info'.offsetX info'.offsetY =
        kind.slotOf info.offsetX info.offsetY := by
      obtain ⟨hcolumn, hrow⟩ := panelWire_slot info'.screenRotation
        (kind.slotOf info'.offsetX info'.offsetY) hp'
      rw [RendererKind.wire] at hwire'
      rw [hwire'] at hcolumn hrow
      rw [hat]
      exact Prod.ext (by simp only [] at hcolumn ⊢; omega) (by simp only [] at hrow ⊢; omega)
    have hindex : place' = place := by
      have hlt : place' < (serverConfig.screenInfo.map fun info =>
          kind.slotOf info.offsetX info.offsetY).length := by
        rw [List.length_map]
        exact (List.getElem?_eq_some_iff.mp hplace').1
      refine (List.getElem?_inj hlt hdistinct).mp ?_
      rw [List.getElem?_map, List.getElem?_map, hplace, hplace', Option.map_some,
        Option.map_some, hsame]
    subst hindex
    obtain rfl := Option.some.inj (hplace'.symm.trans hplace)
    rw [RendererKind.wire, hat, ← hwire] at hwire'
    exact Prod.ext rfl (panelWire_inj hwire')

end MatrixServer
