import MatrixServer.Foundation.OrderedGroups
import MatrixServer.Renderer.PanelWires
import Mathlib.Data.List.Perm.Subperm
import Mathlib.Data.Prod.Lex

/-!
The configuration the server starts with, server/ServerSetup.cpp.
The default configuration mounts the panels of a cube for each hardware. A configuration that
is loaded is looked through for panels that share an offset or lack a layout.
-/

namespace MatrixServer
open PixelGrid

inductive ScreenOrientation where
  | defaultScreenOrientation | front | right | back | left | top | bottom | anyScreen
  deriving DecidableEq, Repr

/-- An entry of the configuration with the fields that only the setup reads or writes. -/
structure OrientedScreenInfo extends ScreenInfo where
  available : Bool := false
  screenOrientation : ScreenOrientation := .defaultScreenOrientation
  deriving DecidableEq

inductive ConnectionType where
  | defaultConnectionType | tcp | udp
  deriving DecidableEq, Repr

structure Connection where
  serverAddress : String := ""
  serverPort : String := ""
  connectionType : ConnectionType := .defaultConnectionType
  deriving DecidableEq

inductive AssemblyType where
  | defaultAssemblyType | flat | cube
  deriving DecidableEq, Repr

/-- `ServerConfig` with the fields that the server's own start reads or writes. -/
structure SetupConfig where
  screenInfo : List OrientedScreenInfo := []
  assemblyType : AssemblyType := .defaultAssemblyType
  globalScreenBrightness : Int := 0
  serverConnection : Option Connection := none
  serverName : String := ""
  simulatorAddress : String := ""
  simulatorPort : String := ""
  tickIntervalMs : Int := 0
  pixelStreamingEnabled : Bool := false
  deriving DecidableEq

/-- What the rest of the program reads of the configuration. -/
def SetupConfig.serverConfig (config : SetupConfig) : ServerConfig :=
  { screenInfo := config.screenInfo.map OrientedScreenInfo.toScreenInfo
    globalScreenBrightness := config.globalScreenBrightness }

namespace ServerSetup

inductive HardwareType where
  | simulator | fpgaFTDI | fpgaRPISPI | rgbMatrix
  deriving DecidableEq, Repr

/-- The offsets and the rotation of the nested switches in `setScreenDefaults`. -/
def screenDefaults : HardwareType → ScreenOrientation → Int × Int × Rotation
  | .fpgaFTDI, .front => (4, 0, .rot180)
  | .fpgaFTDI, .right => (3, 0, .rot180)
  | .fpgaFTDI, .back => (1, 0, .rot90)
  | .fpgaFTDI, .left => (5, 0, .rot180)
  | .fpgaFTDI, .top => (0, 0, .rot270)
  | .fpgaFTDI, .bottom => (2, 0, .rot270)
  | .fpgaRPISPI, .front => (1, 1, .rot0)
  | .fpgaRPISPI, .right => (2, 1, .rot0)
  | .fpgaRPISPI, .back => (1, 0, .rot90)
  | .fpgaRPISPI, .left => (0, 1, .rot0)
  | .fpgaRPISPI, .top => (0, 0, .rot270)
  | .fpgaRPISPI, .bottom => (2, 0, .rot270)
  | .rgbMatrix, .front => (0, 0, .rot270)
  | .rgbMatrix, .right => (1, 0, .rot180)
  | .rgbMatrix, .back => (2, 0, .rot270)
  | .rgbMatrix, .left => (3, 0, .rot180)
  | .rgbMatrix, .top => (4, 0, .rot90)
  | .rgbMatrix, .bottom => (5, 0, .rot0)
  | _, _ => (0, 0, .rot0)

def setScreenDefaults (si : OrientedScreenInfo) (orient : ScreenOrientation)
    (hwType : HardwareType) : OrientedScreenInfo :=
  { si with
    screenOrientation := orient
    offsetX := (screenDefaults hwType orient).1
    offsetY := (screenDefaults hwType orient).2.1
    screenRotation := (screenDefaults hwType orient).2.2 }

def orientations : List ScreenOrientation := [.front, .right, .back, .left, .top, .bottom]

/-- `serverConfig` is cleared first, so what it was does not matter. -/
def createDefaultCubeConfig (hwType : HardwareType) : SetupConfig where
  globalScreenBrightness := 100
  serverName := "matrixserver"
  serverConnection := some
    { serverAddress := "127.0.0.1", serverPort := "2017", connectionType := .tcp }
  assemblyType := .cube
  screenInfo := orientations.mapIdx fun i orient =>
    setScreenDefaults { screenID := i, available := true, height := 64, width := 64 } orient hwType
  simulatorAddress := "127.0.0.1"
  simulatorPort := "1337"
  tickIntervalMs := if hwType = .fpgaRPISPI then 100 else 1000
  pixelStreamingEnabled := hwType = .simulator

/-- A warning that is logged. -/
inductive Warning where
  | layoutMissing (screenID : Int) (screenOrientation : ScreenOrientation)
  | sharedOffset (ids : List Int) (offset : Int × Int)
  deriving DecidableEq

/-- The key of `offsetUsers`; pairs are ordered by their first component first. -/
def offset (si : OrientedScreenInfo) : Int ×ₗ Int := toLex (si.offsetX, si.offsetY)

def offsetUsers (config : SetupConfig) : List ((Int ×ₗ Int) × List Int) :=
  OrderedMap.collect offset (fun si => si.screenID) config.screenInfo

def missingLayouts (config : SetupConfig) : List Warning :=
  if config.screenInfo.any fun si => si.screenOrientation ≠ .defaultScreenOrientation then
    config.screenInfo.filterMap fun si =>
      let layoutIsAllZero := si.offsetX = 0 ∧ si.offsetY = 0 ∧ si.screenRotation = .rot0
      let orientationImpliesNonZeroLayout :=
        si.screenOrientation ≠ .defaultScreenOrientation ∧ si.screenOrientation ≠ .front
      if layoutIsAllZero ∧ orientationImpliesNonZeroLayout then
        some (.layoutMissing si.screenID si.screenOrientation)
      else none
  else []

def sharedOffsets (config : SetupConfig) : List Warning :=
  (offsetUsers config).filterMap fun entry =>
    if entry.2.length > 1 then some (.sharedOffset entry.2 (ofLex entry.1)) else none

def warnIfConfigSuspicious (config : SetupConfig) : List Warning :=
  missingLayouts config ++ sharedOffsets config

/-- The ids of the panels at an offset, in the order of the configuration. -/
def usersOf (config : SetupConfig) (place : Int × Int) : List Int :=
  OrderedMap.valuesAt offset (fun si => si.screenID) config.screenInfo (toLex place)

theorem sharedOffset_mem_iff (config : SetupConfig) (ids : List Int) (place : Int × Int) :
    .sharedOffset ids place ∈ warnIfConfigSuspicious config ↔
      1 < ids.length ∧ ids = usersOf config place := by
  have hmissing : .sharedOffset ids place ∉ missingLayouts config := by
    simp only [missingLayouts]
    split
    · simp
    · exact List.not_mem_nil
  simp only [warnIfConfigSuspicious, List.mem_append, hmissing, false_or, sharedOffsets,
    List.mem_filterMap]
  constructor
  · rintro ⟨entry, hentry, hwarned⟩
    split at hwarned
    · rename_i hlength
      cases hwarned
      exact ⟨hlength, (OrderedMap.mem_collect.mp hentry).1⟩
    · cases hwarned
  · rintro ⟨hlength, rfl⟩
    refine ⟨(toLex place, usersOf config place), OrderedMap.mem_collect.mpr ⟨rfl, ?_⟩, ?_⟩
    · intro hnone
      simp [hnone] at hlength
    · rw [if_pos hlength]
      rfl

/-- There is no such warning when no two panels have the same offsets. -/
theorem no_sharedOffset_iff (config : SetupConfig) :
    (∀ ids place, .sharedOffset ids place ∉ warnIfConfigSuspicious config) ↔
      (config.screenInfo.map fun si => (si.offsetX, si.offsetY)).Nodup := by
  have husers : ∀ place, (usersOf config place).length =
      (config.screenInfo.map fun si => (si.offsetX, si.offsetY)).count place := by
    intro place
    rw [usersOf, OrderedMap.valuesAt, List.length_map, List.count, List.countP_map,
      List.countP_eq_length_filter]
    congr 2
    funext si
    rw [Bool.eq_iff_iff]
    simp [offset]
  rw [List.nodup_iff_count_le_one]
  constructor
  · intro hnone place
    by_contra hmany
    refine hnone (usersOf config place) place ((sharedOffset_mem_iff _ _ _).mpr ⟨?_, rfl⟩)
    rw [husers]
    omega
  · intro hone ids place hwarned
    obtain ⟨hlength, rfl⟩ := (sharedOffset_mem_iff _ _ _).mp hwarned
    have hle := hone place
    rw [husers] at hlength
    omega

/-- Six panels of side 64 whose offsets are slots of what a renderer sends. -/
structure InSlots (config : SetupConfig) (kind : RendererKind) : Prop where
  count : config.screenInfo.length = 6
  size : ∀ si ∈ config.screenInfo, si.width = 64 ∧ si.height = 64
  slots : ∀ si ∈ config.screenInfo, (si.offsetX, si.offsetY) ∈ kind.slots

variable {config : SetupConfig} {kind : RendererKind}

theorem InSlots.slotOf (h : InSlots config kind) {si : OrientedScreenInfo}
    (hsi : si ∈ config.screenInfo) :
    kind.slotOf si.offsetX si.offsetY = (si.offsetX, si.offsetY) := by
  have hslot := h.slots si hsi
  cases kind with
  | fpgaFTDI =>
      simp only [RendererKind.slots, List.mem_cons, Prod.mk.injEq, List.not_mem_nil,
        or_false] at hslot
      exact Prod.ext rfl (by simp only [RendererKind.slotOf]; omega)
  | fpgaRPISPI | rgbMatrix | webSocketSimulator _ => rfl

theorem InSlots.fillsSlots (h : InSlots config kind)
    (hkind : kind = .fpgaFTDI ∨ kind = .fpgaRPISPI)
    (hdistinct : (config.screenInfo.map fun si => (si.offsetX, si.offsetY)).Nodup) :
    config.serverConfig.FillsSlots kind := by
  have hsame : (config.serverConfig.screenInfo.map fun info =>
      kind.slotOf info.offsetX info.offsetY) =
        config.screenInfo.map fun si => (si.offsetX, si.offsetY) := by
    rw [SetupConfig.serverConfig, List.map_map]
    exact List.map_congr_left fun si hsi => h.slotOf hsi
  constructor
  · intro info hinfo
    obtain ⟨si, hsi, rfl⟩ := List.mem_map.mp hinfo
    exact h.size si hsi
  · rw [hsame]
    refine (hdistinct.subperm ?_).perm_of_length_le ?_
    · intro place hplace
      obtain ⟨si, hsi, rfl⟩ := List.mem_map.mp hplace
      exact h.slots si hsi
    · rw [List.length_map, h.count]
      cases hkind with
      | inl hftdi => rw [hftdi]; exact Nat.le_refl 6
      | inr hrpispi => rw [hrpispi]; exact Nat.le_refl 6

/-- Two panels at one offset have a wire in common. -/
theorem InSlots.distinct (h : InSlots config kind)
    (honce : ∀ line word, (word / 64, line / 64) ∈ kind.slots →
      ∃! pixel, kind.Carries config.serverConfig (line, 2 * word) pixel) :
    (config.screenInfo.map fun si => (si.offsetX, si.offsetY)).Nodup := by
  refine List.nodup_iff_getElem?_ne_getElem?.mpr ?_
  intro i j hij hj hsame
  rw [List.length_map] at hj
  have hi : i < config.screenInfo.length := Nat.lt_trans hij hj
  rw [List.getElem?_map, List.getElem?_map, List.getElem?_eq_getElem hi,
    List.getElem?_eq_getElem hj, Option.map_some, Option.map_some, Option.some.injEq] at hsame
  have hcarries : ∀ (place : Nat) (hplace : place < config.screenInfo.length),
      (config.screenInfo[place].offsetX, config.screenInfo[place].offsetY) =
        (config.screenInfo[i].offsetX, config.screenInfo[i].offsetY) →
      ∃ p, kind.Carries config.serverConfig
        (64 * config.screenInfo[i].offsetY, 2 * (64 * config.screenInfo[i].offsetX))
        (place, p) := by
    intro place hplace hat
    obtain ⟨p, hp, hwire⟩ := exists_panelWire config.screenInfo[place].screenRotation
      (64 * config.screenInfo[i].offsetY) (64 * config.screenInfo[i].offsetX)
    refine ⟨p, config.screenInfo[place].toScreenInfo, ?_, hp, ?_⟩
    · simp [SetupConfig.serverConfig, hplace]
    · rw [RendererKind.wire, h.slotOf (List.getElem_mem hplace), hat, ← hwire]
      congr 1
      exact Prod.ext (by simp only []; omega) (by simp only []; omega)
  obtain ⟨p, hp⟩ := hcarries i hi rfl
  obtain ⟨q, hq⟩ := hcarries j hj hsame.symm
  have hslot := h.slots config.screenInfo[i] (List.getElem_mem hi)
  have hone := honce (64 * config.screenInfo[i].offsetY) (64 * config.screenInfo[i].offsetX) (by
    rw [Int.mul_ediv_cancel_left _ (by decide), Int.mul_ediv_cancel_left _ (by decide)]
    exact hslot)
  have heq := congrArg Prod.fst (hone.unique hp hq)
  simp only [] at heq
  omega

/-- The renderer that the hardware's backend creates; the simulator sends no lines. -/
def HardwareType.rendererKind : HardwareType → RendererKind
  | .simulator => .webSocketSimulator true
  | .fpgaFTDI => .fpgaFTDI
  | .fpgaRPISPI => .fpgaRPISPI
  | .rgbMatrix => .rgbMatrix

/-- The default panels are in the slots of the renderer they are for. -/
theorem createDefaultCubeConfig_inSlots (hwType : HardwareType)
    (h : hwType = .fpgaFTDI ∨ hwType = .fpgaRPISPI) :
    InSlots (createDefaultCubeConfig hwType) hwType.rendererKind := by
  cases h with
  | inl hftdi =>
      subst hftdi
      exact ⟨rfl, by decide, by decide⟩
  | inr hrpispi =>
      subst hrpispi
      exact ⟨rfl, by decide, by decide⟩

theorem createDefaultCubeConfig_idsArePlaces (hwType : HardwareType) (place : Nat)
    (info : ScreenInfo)
    (h : (createDefaultCubeConfig hwType).serverConfig.screenInfo[place]? = some info) :
    info.screenID = place := by
  simp only [SetupConfig.serverConfig, createDefaultCubeConfig, List.getElem?_map,
    List.getElem?_mapIdx, Option.map_map] at h
  obtain ⟨orient, -, rfl⟩ := Option.map_eq_some_iff.mp h
  rfl

/-- No default configuration but the simulator's is warned about. -/
theorem createDefaultCubeConfig_not_suspicious (hwType : HardwareType)
    (h : hwType ≠ .simulator) : warnIfConfigSuspicious (createDefaultCubeConfig hwType) = [] := by
  cases hwType with
  | simulator => exact absurd rfl h
  | fpgaFTDI | fpgaRPISPI | rgbMatrix => decide

end ServerSetup
open ServerSetup

/-- A warning names exactly the panels that share an offset. For six panels in slots of an FPGA
renderer there is none just when every word the renderer sends carries one pixel. -/
theorem shared_offsets_warned (config : SetupConfig) :
    (∀ ids place, .sharedOffset ids place ∈ warnIfConfigSuspicious config ↔
      1 < ids.length ∧ ids = usersOf config place) ∧
    ∀ kind, kind = .fpgaFTDI ∨ kind = .fpgaRPISPI → InSlots config kind →
      ((∀ ids place, .sharedOffset ids place ∉ warnIfConfigSuspicious config) ↔
        ∀ line word, (word / 64, line / 64) ∈ kind.slots →
          ∃! pixel, kind.Carries config.serverConfig (line, 2 * word) pixel) := by
  refine ⟨sharedOffset_mem_iff config, ?_⟩
  intro kind hkind h
  rw [no_sharedOffset_iff]
  constructor
  · intro hdistinct
    exact (h.fillsSlots hkind hdistinct).existsUnique_carries
  · exact h.distinct

/-- The default configuration for the panels behind the SPI bus. -/
theorem shared_offsets_warned_default :
    warnIfConfigSuspicious (createDefaultCubeConfig .fpgaRPISPI) = [] ∧
      ∀ line word, (word / 64, line / 64) ∈ RendererKind.fpgaRPISPI.slots →
        ∃! pixel, RendererKind.fpgaRPISPI.Carries
          (createDefaultCubeConfig .fpgaRPISPI).serverConfig (line, 2 * word) pixel := by
  have hclean := createDefaultCubeConfig_not_suspicious .fpgaRPISPI (by decide)
  have hwarned := shared_offsets_warned (createDefaultCubeConfig .fpgaRPISPI)
  refine ⟨hclean, (hwarned.2 .fpgaRPISPI (.inr rfl)
    (createDefaultCubeConfig_inSlots .fpgaRPISPI (.inr rfl))).mp fun ids place => ?_⟩
  rw [hclean]
  exact List.not_mem_nil

end MatrixServer
