import MatrixServer.Protocol.WireFrames
import MatrixServer.Application.CubeRandomPoints

/-!
Voxels of the virtual cube on the wires.
Every word that an FPGA renderer sends for a cube belongs to one voxel of the cube's surface, and
drawing a point changes the word of the voxel that the point is moved to and no other one.
-/

namespace MatrixServer
open TransitionRuns PixelGrid CubeApplication

namespace CubeApplication

/-- Two voxels of the cube that are drawn on one pixel are the same. -/
theorem StoresInto.voxel_eq {pos pos' : Vector3i} {index : Nat} {u v : Int} (hin : InCube pos)
    (hin' : InCube pos') (h : StoresInto pos index u v) (h' : StoresInto pos' index u v) :
    pos = pos' := by
  have hclaim := ((storesInto_iff _ _ _ _).mp h).1
  have hclaim' := ((storesInto_iff _ _ _ _).mp h').1
  rw [← readClaim_of_inCube hin] at hclaim
  rw [← readClaim_of_inCube hin'] at hclaim'
  have haxes : pos 0 = pos' 0 ∧ pos 1 = pos' 1 ∧ pos 2 = pos' 2 := by
    have hcase := claimCase hclaim
    have hcase' := claimCase hclaim'
    generalize hpixel : some (index, u, v) = pixel at hcase
    generalize hpixel' : some (index, u, v) = pixel' at hcase'
    cases hcase with
    | front | right | back | left | top | bottom =>
        cases hcase' with
        | front | right | back | left | top | bottom =>
            simp only [Option.some.injEq, Prod.mk.injEq] at hpixel hpixel'
            omega
        | inner => cases hpixel'
    | inner => cases hpixel
  have hall : ∀ axis, pos axis = pos' axis :=
    (Fin.forall_fin_succ.trans (and_congr_right fun _ => Fin.forall_fin_two)).mpr haxes
  exact funext hall

theorem exists_face {index : Nat} (h : index < 6) :
    ∃ s : ScreenNumber, s ≠ .anyScreen ∧ s.index = index := by
  refine ⟨ScreenNumber.ofNumber index, ofNumber_ne h, ?_⟩
  have hcases : index = 0 ∨ index = 1 ∨ index = 2 ∨ index = 3 ∨ index = 4 ∨ index = 5 := by omega
  rcases hcases with rfl | rfl | rfl | rfl | rfl | rfl <;> rfl

/-- A pixel of a panel has one voxel of the cube. -/
theorem existsUnique_voxel {index : Nat} (hindex : index < 6) {u v : Int} (hon : OnPanel u v) :
    ∃! pos, InCube pos ∧ StoresInto pos index u v := by
  obtain ⟨s, hs, rfl⟩ := exists_face hindex
  have hstores := storesInto_getPointOnScreen ![0, 0, 0] hs hon
  have hin : InCube (getPointOnScreen ![0, 0, 0] s ![u, v]) := by
    simp only [OnPanel, CUBESIZE] at hon
    rw [inCube_iff]
    cases s with
    | anyScreen => exact absurd rfl hs
    | front | right | back | left | top | bottom =>
        simp only [getPointOnScreen, Matrix.cons_val, VIRTUALCUBEMAXINDEX]
        omega
  refine ⟨_, ⟨hin, hstores⟩, ?_⟩
  rintro pos ⟨hin', hstores'⟩
  exact hstores'.voxel_eq hin' hin hstores

/-- Drawing keeps what the server knows a screen by. -/
theorem setPixel3D_layouts {screens screens' : List Screen} (h : SixPanels screens)
    {pos : Vector3i} {col : Color} (hset : setPixel3D screens pos col none false = some screens') :
    screens'.map Screen.layout = screens.map Screen.layout := by
  rw [setPixel3D_eq] at hset
  cases hclaim : claimedBy (clamp (pos 0)) (clamp (pos 1)) (clamp (pos 2)) with
  | none =>
      rw [hclaim] at hset
      cases hset
      rfl
  | some claim =>
      rw [hclaim, Option.elim_some, setScreenPixel_eq h (index_lt_of_claimedBy hclaim)] at hset
      cases hset
      split
      · apply List.ext_getElem?
        intro place
        rw [List.getElem?_map, List.getElem?_map, List.getElem?_modify, Option.map_eq_map,
          Option.map_map]
        congr 1
        funext s
        simp only [Function.comp_apply]
        split <;> rfl
      · rfl

end CubeApplication

/-- The word at a wire shows the pixel that drawing a point sets. -/
def RendererKind.CarriesVoxel (kind : RendererKind) (serverConfig : ServerConfig)
    (wire : Int × Int) (pos : Vector3i) : Prop :=
  ∃ index u v, StoresInto pos index u v ∧ kind.Carries serverConfig wire (index, u, v)

section
variable {serverConfig : ServerConfig} {kind : RendererKind}

theorem ServerConfig.FillsSlots.length (h : serverConfig.FillsSlots kind)
    (hkind : kind = .fpgaFTDI ∨ kind = .fpgaRPISPI) : serverConfig.screenInfo.length = 6 := by
  have hlength := h.slots.length_eq
  rw [List.length_map] at hlength
  rw [hlength]
  cases hkind with
  | inl hftdi => rw [hftdi]; rfl
  | inr hrpispi => rw [hrpispi]; rfl

theorem onPanel_iff (p : Int × Int) : OnPanel p.1 p.2 ↔ p ∈ rect 64 64 :=
  ⟨fun ⟨hx, hwidth, hy, hheight⟩ => ⟨hx, hwidth, hy, hheight⟩,
    fun ⟨hx, hwidth, hy, hheight⟩ => ⟨hx, hwidth, hy, hheight⟩⟩

/-- Every word of every slot belongs to one voxel. -/
theorem ServerConfig.FillsSlots.existsUnique_voxel (h : serverConfig.FillsSlots kind)
    (hkind : kind = .fpgaFTDI ∨ kind = .fpgaRPISPI) {line word : Int}
    (hslot : (word / 64, line / 64) ∈ kind.slots) :
    ∃! pos, InCube pos ∧ kind.CarriesVoxel serverConfig (line, 2 * word) pos := by
  obtain ⟨⟨index, u, v⟩, hcarries, hunique⟩ := h.existsUnique_carries line word hslot
  obtain ⟨info, hinfo, hpixel, -⟩ := id hcarries
  have hindex : index < 6 := by
    have hlt := (List.getElem?_eq_some_iff.mp hinfo).1
    rwa [h.length hkind] at hlt
  obtain ⟨pos, ⟨hin, hstores⟩, hone⟩ :=
    CubeApplication.existsUnique_voxel hindex ((onPanel_iff _).mpr hpixel)
  refine ⟨pos, ⟨hin, index, u, v, hstores, hcarries⟩, ?_⟩
  rintro pos' ⟨hin', index', u', v', hstores', hcarries'⟩
  cases hunique _ hcarries'
  exact hone pos' ⟨hin', hstores'⟩

variable {a : MatrixApplication}

/-- An application draws on six panels when the configuration has six for the renderer. -/
theorem MatrixApplication.ScreensInv.sixPanels (ha : a.ScreensInv)
    (hconfig : a.serverConfig = serverConfig) (hkind : kind = .fpgaFTDI ∨ kind = .fpgaRPISPI)
    (hfills : serverConfig.FillsSlots kind) : SixPanels a.screens := by
  have hmatch : a.screens.map Screen.layout = serverConfig.screenInfo.map ScreenInfo.layout := by
    rw [ha.matching, hconfig]
  have hsize : ∀ s ∈ a.screens, s.width = 64 ∧ s.height = 64 := by
    intro s hs
    obtain ⟨place, hplace⟩ := List.mem_iff_getElem?.mp hs
    obtain ⟨info, hinfo, hlayout⟩ := exists_at_of_map_eq hmatch hplace
    obtain ⟨hwidth, hheight⟩ := hfills.size info (List.mem_of_getElem? hinfo)
    simp only [Screen.layout, ScreenInfo.layout, Prod.mk.injEq] at hlayout
    exact ⟨hlayout.2.1.trans hwidth, hlayout.2.2.trans hheight⟩
  refine ⟨?_, ha.full, fun s hs => (hsize s hs).1, fun s hs => (hsize s hs).2⟩
  have hlength := congrArg List.length hmatch
  rw [List.length_map, List.length_map] at hlength
  rw [hlength, hfills.length hkind]

/-- The word at a wire is that of the pixel it carries. -/
theorem sentWord_carried {kinds : List RendererKind} {s : Server}
    (hs : s.Displays serverConfig kinds) (hmounted : s.Mounted serverConfig) (ha : a.ScreensInv)
    (hconfig : a.serverConfig = serverConfig) (htop : s.isTopApp a.appId = true)
    (hplaces : serverConfig.IdsArePlaces) (beyond : Nat → UInt8) {index : Nat} {r : Renderer}
    (hr : s.renderers[index]? = some r)
    (hkind : r.kind = .fpgaFTDI ∨ r.kind = .fpgaRPISPI) (hfills : serverConfig.FillsSlots r.kind)
    (dimmed : Color → Color) {wire : Int × Int} {place : Nat} {u v : Int}
    (hcarries : r.kind.Carries serverConfig wire (place, u, v)) :
    ∃ col, shownAt a.screens place u v = some col ∧
      (Server.rendered serverConfig a.renderToScreens.2 beyond r).sentWord dimmed wire.1 wire.2 =
        some (r.wordOf dimmed col) := by
  obtain ⟨info, hinfo, hpixel, rfl⟩ := hcarries
  have hmatch : a.screens.map Screen.layout = serverConfig.screenInfo.map ScreenInfo.layout := by
    rw [ha.matching, hconfig]
  obtain ⟨client, hclient, -⟩ := exists_at_of_map_eq hmatch.symm hinfo
  obtain ⟨col, hcol, hword⟩ := sentWord_frame hs hmounted ha hconfig htop hplaces beyond hr hkind
    hfills dimmed hinfo hclient hpixel
  refine ⟨col, ?_, hword⟩
  rw [shownAt, hclient, Option.bind_some]
  exact hcol

end

/-- Each word that an FPGA renderer sends belongs to one voxel of the cube. When an application
draws a point before it sends its frame, the word of the voxel the point is moved to shows the
colour when the frame is rendered, and all other words are those of the frame without the point. -/
theorem voxel_on_the_wire {serverConfig : ServerConfig} {kinds : List RendererKind}
    {screens : List Screen} (hscreens : createScreensFromConfig serverConfig = some screens)
    (hplaces : serverConfig.IdsArePlaces) {index : Nat} {kind : RendererKind}
    (hindex : kinds[index]? = some kind) (hkind : kind = .fpgaFTDI ∨ kind = .fpgaRPISPI)
    (hfills : serverConfig.FillsSlots kind) {st : Server × Trace}
    (h : (serverRuns (initialServer serverConfig kinds screens)).Reachable st)
    {params : AnimationParams} {appName : String} {a : MatrixApplication}
    (ha : (clientRuns params appName).ReachableUnder
      (fun a e => MatrixApplication.TellsDistinct e ∧ a.FirstTold e) a)
    (hconfig : a.serverConfig = serverConfig) (htop : st.1.isTopApp a.appId = true)
    (connection : ConnectionId) (rand : Nat) (beyond : Nat → UInt8) (dimmed : Color → Color)
    (pos : Vector3i) (col : Color) :
    ∃ screens' before, setPixel3D a.screens pos col none false = some screens' ∧
      st.1.renderers[index]? = some before ∧
      .render index ∈ (st.1.handleRequest connection
        { a with screens := screens' }.renderToScreens.2 rand beyond).2 ∧
      ∀ line word, (word / 64, line / 64) ∈ kind.slots →
        (∃! voxel, InCube voxel ∧ kind.CarriesVoxel serverConfig (line, 2 * word) voxel) ∧
        (kind.CarriesVoxel serverConfig (line, 2 * word) pos →
          (Server.rendered serverConfig { a with screens := screens' }.renderToScreens.2 beyond
            before).sentWord dimmed line (2 * word) = some (before.wordOf dimmed col)) ∧
        (¬kind.CarriesVoxel serverConfig (line, 2 * word) pos →
          (Server.rendered serverConfig { a with screens := screens' }.renderToScreens.2 beyond
              before).sentWord dimmed line (2 * word) =
            (Server.rendered serverConfig a.renderToScreens.2 beyond before).sentWord dimmed line
              (2 * word)) := by
  obtain ⟨hdisplays, hmounted⟩ := displays_of_reachable hscreens h
  have hinv := MatrixApplication.screensInv_of_reachable ha
  have hpanels := hinv.sixPanels hconfig hkind hfills
  obtain ⟨screens', hset, -, hshown⟩ := setPixel3D_shown hpanels pos col
  have hlayouts := setPixel3D_layouts hpanels hset
  have hinv' : MatrixApplication.ScreensInv { a with screens := screens' } := by
    refine ⟨?_, hlayouts.trans hinv.matching, hinv.distinct⟩
    obtain ⟨drawn, hdrawn, hfull, -⟩ := setPixel3D_shown hpanels pos col
    cases hdrawn.symm.trans hset
    exact hfull.full
  obtain ⟨before, hbefore, hbeforeKind⟩ := exists_at_of_map_eq (g := Renderer.kind)
    ((List.map_id kinds).trans hdisplays.kinds.symm) hindex
  subst hbeforeKind
  refine ⟨screens', before, hset, hbefore,
    Server.render_mem connection _ beyond rand rfl htop hbefore, ?_⟩
  intro line word hslot
  obtain ⟨⟨place, u, v⟩, hcarries, hunique⟩ := hfills.existsUnique_carries line word hslot
  obtain ⟨info, hinfo, hpixel, -⟩ := id hcarries
  have hplace : place < 6 := by
    have hlt := (List.getElem?_eq_some_iff.mp hinfo).1
    rwa [hfills.length hkind] at hlt
  have hon := (onPanel_iff (u, v)).mpr hpixel
  obtain ⟨old, hold, hword⟩ := sentWord_carried hdisplays hmounted hinv hconfig htop hplaces
    beyond hbefore hkind hfills dimmed hcarries
  obtain ⟨new, hnew, hword'⟩ := sentWord_carried hdisplays hmounted hinv' hconfig htop hplaces
    beyond hbefore hkind hfills dimmed hcarries
  have hpixels := hshown place u v hplace hon
  have hvoxel : before.kind.CarriesVoxel serverConfig (line, 2 * word) pos ↔
      writeClaim (pos 0) (pos 1) (pos 2) = some (place, u, v) := by
    constructor
    · rintro ⟨index', u', v', hstores, hcarries'⟩
      cases hunique _ hcarries'
      exact ((storesInto_iff _ _ _ _).mp hstores).1
    · intro hclaim
      exact ⟨place, u, v, (storesInto_iff _ _ _ _).mpr ⟨hclaim, hon⟩, hcarries⟩
  refine ⟨hfills.existsUnique_voxel hkind hslot, ?_, ?_⟩
  · intro hdrawn
    rw [if_pos (hvoxel.mp hdrawn)] at hpixels
    obtain rfl := Option.some.inj (hnew.symm.trans hpixels)
    exact hword'
  · intro hother
    rw [if_neg fun hclaim => hother (hvoxel.mpr hclaim)] at hpixels
    obtain rfl := Option.some.inj (hnew.symm.trans (hpixels.trans hold))
    rw [hword', hword]

/-- A red point on the front of the default cube. -/
theorem voxel_on_the_wire_front : ∃ (a : MatrixApplication) (screens' : List Screen)
    (before : Renderer), setPixel3D a.screens ![30, 0, 20] ⟨255, 0, 0⟩ none false = some screens' ∧
      (Server.rendered defaultCube { a with screens := screens' }.renderToScreens.2 (fun _ => 0)
        before).sentWord id 83 (2 * 93) = some (before.wordOf id ⟨255, 0, 0⟩) := by
  obtain ⟨screens, st, a, hscreens, hreach, hclient, hconfig, htop⟩ := exists_defaultCube_run
  have hindex : [RendererKind.fpgaRPISPI][0]? = some .fpgaRPISPI := rfl
  obtain ⟨screens', before, hset, -, -, hwords⟩ := voxel_on_the_wire hscreens
    defaultCube_idsArePlaces hindex (.inr rfl) defaultCube_fillsSlots hreach hclient hconfig htop 1
    0 (fun _ => 0) id ![30, 0, 20] ⟨255, 0, 0⟩
  refine ⟨a, screens', before, hset, (hwords 83 93 (by decide)).2.1 ?_⟩
  have hstores := (storesInto_iff ![30, 0, 20] 0 29 19).mpr (by decide)
  exact ⟨0, 29, 19, hstores, _, rfl, (onPanel_iff (29, 19)).mp (by decide), rfl⟩

end MatrixServer
