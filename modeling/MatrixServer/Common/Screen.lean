import MatrixServer.Common.Message
import Mathlib.Data.List.Forall2

/-!
Screens and colours of common/Screen.cpp and common/Color.cpp.
A `Color *` is read as the colours found from that address on. Behind the last
byte of a frame's data lies memory the frame does not own; what is read there is
an argument of the functions that may read it.
-/

namespace MatrixServer

structure Color where
  r : UInt8
  g : UInt8
  b : UInt8
  deriving DecidableEq, Repr

namespace Color

def black : Color := ⟨0, 0, 0⟩

/-- `sizeof(Color)`: three byte members and no padding. -/
def size : Nat := 3

/-- The byte at an offset from the start of `data`, or what lies behind it. -/
def byteAt (data : Bytes) (beyond : Nat → UInt8) (offset : Nat) : UInt8 :=
  if h : offset < data.length then data[offset] else beyond (offset - data.length)

/-- `((Color *) data)[index]` -/
def pointedTo (data : Bytes) (beyond : Nat → UInt8) (index : Nat) : Color :=
  ⟨byteAt data beyond (3 * index), byteAt data beyond (3 * index + 1),
    byteAt data beyond (3 * index + 2)⟩

def bytes (c : Color) : Bytes := [c.r, c.g, c.b]

theorem byteAt_append (front data : Bytes) (beyond : Nat → UInt8) (offset : Nat) :
    byteAt (front ++ data) beyond (front.length + offset) = byteAt data beyond offset := by
  simp only [byteAt, List.length_append, Nat.add_lt_add_iff_left, Nat.add_sub_add_left]
  split
  · rw [List.getElem_append_right (Nat.le_add_right _ _)]
    simp only [Nat.add_sub_cancel_left]
  · rfl

/-- Colours written as bytes are read back. -/
theorem pointedTo_flatMap_bytes (colors : List Color) (beyond : Nat → UInt8) {index : Nat}
    (h : index < colors.length) :
    pointedTo (colors.flatMap bytes) beyond index = colors[index] := by
  induction colors generalizing index with
  | nil => exact absurd h (Nat.not_lt_zero _)
  | cons c colors ih =>
      cases index with
      | zero => rfl
      | succ index =>
          have hbyte : ∀ offset, byteAt (bytes c ++ colors.flatMap bytes) beyond (3 + offset) =
              byteAt (colors.flatMap bytes) beyond offset :=
            byteAt_append (bytes c) _ beyond
          rw [List.getElem_cons_succ, ← ih (Nat.lt_of_succ_lt_succ h), List.flatMap_cons]
          simp only [pointedTo, ← hbyte]
          congr 2 <;> omega

end Color

/-- What a configuration says about a screen and a client's screen keeps of it. -/
def ScreenInfo.layout (info : ScreenInfo) : Int × Int × Int :=
  (info.screenID, info.width, info.height)

/-- The pixels of a configured screen. -/
def ScreenInfo.pixels (info : ScreenInfo) : Int := info.width * info.height

/-- The sides of every screen have a product that is an `int`, as which the constructor of `Screen`
computes it; beyond that its behaviour is undefined. -/
def ServerConfig.IntSizes (serverConfig : ServerConfig) : Prop :=
  ∀ info ∈ serverConfig.screenInfo, -0x80000000 ≤ info.pixels ∧ info.pixels < 0x80000000

instance (serverConfig : ServerConfig) : Decidable serverConfig.IntSizes :=
  inferInstanceAs (Decidable (∀ info ∈ _, _ ∧ _))

structure Screen where
  screenId : Int
  width : Int
  height : Int
  screenDataSize : Int
  screenData : List Color
  rotation : Rotation := .rot0
  offsetX : Int := 0
  offsetY : Int := 0
  deriving DecidableEq

namespace Screen

/-- The constructor; `screenData.resize` throws when the product is negative. -/
def new (setWidth setHeight setScreenId : Int) : Option Screen :=
  if 0 ≤ setWidth * setHeight then
    some {
      screenId := setScreenId
      width := setWidth
      height := setHeight
      screenDataSize := setWidth * setHeight
      screenData := List.replicate (setWidth * setHeight).toNat .black }
  else none

/-- `setScreenData(Color *data)`: `assign(data, data + screenDataSize)` -/
def setScreenData (s : Screen) (data : Nat → Color) : Screen :=
  { s with screenData := (List.range s.screenDataSize.toNat).map data }

def layout (s : Screen) : Int × Int × Int := (s.screenId, s.width, s.height)

/-- Setting some pixels, whichever way: their number stays. -/
def draw (s : Screen) (pixels : Nat → Color) : Screen :=
  { s with screenData := (List.range s.screenData.length).map pixels }

/-- The bytes `renderToScreens` and the renderers take from `getScreenData().data()`. -/
def frameData (s : Screen) : Bytes := s.screenData.flatMap Color.bytes

@[simp] theorem setScreenData_size (s : Screen) (data : Nat → Color) :
    (s.setScreenData data).screenDataSize = s.screenDataSize := rfl

/-- The pixels are as many as the sides of the screen say. -/
structure Full (s : Screen) : Prop where
  nonneg : 0 ≤ s.width * s.height
  size : s.screenDataSize = s.width * s.height
  length : s.screenData.length = s.screenDataSize.toNat

instance (s : Screen) : Decidable s.Full :=
  decidable_of_iff (0 ≤ s.width * s.height ∧ s.screenDataSize = s.width * s.height ∧
      s.screenData.length = s.screenDataSize.toNat)
    ⟨fun h => ⟨h.1, h.2.1, h.2.2⟩, fun h => ⟨h.nonneg, h.size, h.length⟩⟩

theorem Full.draw {s : Screen} (h : s.Full) (pixels : Nat → Color) : (s.draw pixels).Full :=
  ⟨h.nonneg, h.size, by simp [Screen.draw, h.length]⟩

theorem Full.setScreenData {s : Screen} (h : s.Full) (data : Nat → Color) :
    (s.setScreenData data).Full :=
  ⟨h.nonneg, h.size, by simp [Screen.setScreenData]⟩

theorem Full.size_of_layout {s : Screen} (h : s.Full) {info : ScreenInfo}
    (hlayout : s.layout = info.layout) : s.screenDataSize = info.pixels := by
  simp only [layout, ScreenInfo.layout, Prod.mk.injEq] at hlayout
  rw [h.size, hlayout.2.1, hlayout.2.2, ScreenInfo.pixels]

theorem new_full {w h id : Int} {s : Screen} (hs : new w h id = some s) :
    s.Full ∧ s.screenId = id ∧ s.width = w ∧ s.height = h := by
  simp only [new] at hs
  split at hs
  · rename_i hnonneg
    cases hs
    exact ⟨⟨hnonneg, rfl, List.length_replicate⟩, rfl, rfl, rfl⟩
  · cases hs

/-- A screen that takes a frame's data of its own size holds the frame's pixels. -/
theorem setScreenData_frameData (s : Screen) {client : Screen} (hfull : client.Full)
    (hsize : s.screenDataSize = client.screenDataSize) (beyond : Nat → UInt8) :
    (s.setScreenData (Color.pointedTo client.frameData beyond)).screenData = client.screenData := by
  apply List.ext_getElem
  · simp [setScreenData, hsize, hfull.length]
  · intro index _ hindex
    simp [setScreenData, frameData, Color.pointedTo_flatMap_bytes _ beyond hindex]

end Screen

/-- `ServerSetup::createScreensFromConfig`; the warnings it logs are left out. -/
def createScreensFromConfig (serverConfig : ServerConfig) : Option (List Screen) :=
  serverConfig.screenInfo.mapM fun screenInfo =>
    (Screen.new screenInfo.width screenInfo.height screenInfo.screenID).map fun screen =>
      { screen with
        offsetX := screenInfo.offsetX
        offsetY := screenInfo.offsetY
        rotation := screenInfo.screenRotation }

/-- A screen that is built as the configuration says. -/
structure Screen.Configured (s : Screen) (info : ScreenInfo) : Prop where
  full : s.Full
  layout : s.layout = info.layout
  offsetX : s.offsetX = info.offsetX
  offsetY : s.offsetY = info.offsetY

theorem createScreensFromConfig_configured {serverConfig : ServerConfig} {screens : List Screen}
    (h : createScreensFromConfig serverConfig = some screens) :
    List.Forall₂ Screen.Configured screens serverConfig.screenInfo := by
  simp only [createScreensFromConfig] at h
  generalize serverConfig.screenInfo = infos at h
  induction infos generalizing screens with
  | nil =>
      cases h
      exact .nil
  | cons info infos ih =>
      simp only [List.mapM_cons, Option.bind_eq_bind, Option.bind_eq_some_iff,
        Option.map_eq_some_iff, Option.pure_def, Option.some.injEq] at h
      obtain ⟨_, ⟨screen, hnew, rfl⟩, rest, hrest, rfl⟩ := h
      obtain ⟨hfull, hid, hwidth, hheight⟩ := Screen.new_full hnew
      refine .cons ⟨⟨hfull.nonneg, hfull.size, hfull.length⟩, ?_, rfl, rfl⟩ (ih hrest)
      simp [Screen.layout, ScreenInfo.layout, hid, hwidth, hheight]

/-- What a configured screen shares with its configuration, all screens share in order. -/
theorem createScreensFromConfig_map {serverConfig : ServerConfig} {screens : List Screen}
    (h : createScreensFromConfig serverConfig = some screens) {α : Type} {f : Screen → α}
    {g : ScreenInfo → α} (hfg : ∀ s info, s.Configured info → f s = g info) :
    screens.map f = serverConfig.screenInfo.map g := by
  rw [← List.forall₂_eq_eq_eq, List.forall₂_map_left_iff, List.forall₂_map_right_iff]
  exact (createScreensFromConfig_configured h).imp hfg

/-- The screens have the configured sizes, in the configured order. -/
theorem createScreensFromConfig_sizes {serverConfig : ServerConfig} {screens : List Screen}
    (h : createScreensFromConfig serverConfig = some screens) :
    screens.map Screen.screenDataSize = serverConfig.screenInfo.map ScreenInfo.pixels :=
  createScreensFromConfig_map h fun _ _ hs => hs.full.size_of_layout hs.layout

theorem createScreensFromConfig_layouts {serverConfig : ServerConfig} {screens : List Screen}
    (h : createScreensFromConfig serverConfig = some screens) :
    screens.map Screen.layout = serverConfig.screenInfo.map ScreenInfo.layout ∧
      ∀ s ∈ screens, s.Full := by
  refine ⟨createScreensFromConfig_map h fun _ _ hs => hs.layout, ?_⟩
  exact ((List.forall₂_and_left _ _).mp ((createScreensFromConfig_configured h).imp
    fun _ _ hs => ⟨hs.full, hs⟩)).1

end MatrixServer
