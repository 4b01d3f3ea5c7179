import MatrixServer.Protocol.AnnouncedScreens
import MatrixServer.Server.ServerSetup

/-!
From what an application draws to the words that an FPGA renderer sends.
The screens of the renderers keep the rotation and the offsets of the configuration, and the
frames of the app on top put its pixels on them; so each pixel the app has drawn is the word
at the wire that the configuration gives the pixel, until another frame is shown.
-/

namespace MatrixServer
open TransitionRuns PixelGrid

/-- How a panel is mounted. -/
def Screen.mount (s : Screen) : Rotation × Int × Int := (s.rotation, s.offsetX, s.offsetY)

def ScreenInfo.mount (info : ScreenInfo) : Rotation × Int × Int :=
  (info.screenRotation, info.offsetX, info.offsetY)

theorem createScreensFromConfig_mounts {serverConfig : ServerConfig} {screens : List Screen}
    (h : createScreensFromConfig serverConfig = some screens) :
    screens.map Screen.mount = serverConfig.screenInfo.map ScreenInfo.mount := by
  simp only [createScreensFromConfig] at h
  generalize serverConfig.screenInfo = infos at h
  induction infos generalizing screens with
  | nil =>
      cases h
      rfl
  | cons info infos ih =>
      simp only [List.mapM_cons, Option.bind_eq_bind, Option.bind_eq_some_iff,
        Option.map_eq_some_iff, Option.pure_def, Option.some.injEq] at h
      obtain ⟨_, ⟨screen, -, rfl⟩, rest, hrest, rfl⟩ := h
      rw [List.map_cons, List.map_cons, ih hrest]
      rfl

namespace Server

theorem showFrame_mounts (serverConfig : ServerConfig) (connection : ConnectionId)
    (message : MatrixServerMessage) (beyond : Nat → UInt8) (index : Nat) (r : Renderer) :
    (showFrame serverConfig connection message beyond index r).1.screens.map Screen.mount =
      r.screens.map Screen.mount := by
  apply List.ext_getElem?
  intro screenId
  rw [List.getElem?_map, List.getElem?_map, showFrame_screen]
  cases KeyedWrites.lastFor ScreenData.screenID (screenId : Int) message.screenData with
  | none => rfl
  | some entry =>
      simp only [Option.elim_some, shownBy]
      split
      · rw [Option.map_map]
        rfl
      · rfl

/-- The panels of every renderer are mounted as the configuration says. -/
def Mounted (serverConfig : ServerConfig) (s : Server) : Prop :=
  ∀ r ∈ s.renderers, r.screens.map Screen.mount = serverConfig.screenInfo.map ScreenInfo.mount

theorem Mounted.call {serverConfig : ServerConfig} {s : Server} (h : s.Mounted serverConfig)
    (c : ServerCall) : (s.call c).1.Mounted serverConfig := by
  by_cases hshows : ∃ message, s.ShowsFrame c message
  · obtain ⟨message, connection, rand, beyond, rfl, htype, htop⟩ := hshows
    intro r' hr'
    obtain ⟨index, hget⟩ := List.mem_iff_getElem?.mp hr'
    rw [call_showsFrame connection message beyond rand htype htop] at hget
    obtain ⟨r, hr, rfl⟩ := Option.map_eq_some_iff.mp hget
    exact (showFrame_mounts _ _ _ _ index r).trans (h r (List.mem_of_getElem? hr))
  · have hsame := call_renderers fun message hframe => hshows ⟨message, hframe⟩
    rw [Mounted, hsame]
    exact h

/-- Panels of a size and in slots that suit a renderer, built from the configuration. -/
theorem Displays.panels {serverConfig : ServerConfig} {kinds : List RendererKind} {s : Server}
    (h : s.Displays serverConfig kinds) (hmounted : s.Mounted serverConfig) {r : Renderer}
    (hr : r ∈ s.renderers) (hfills : serverConfig.FillsSlots r.kind) : r.Panels := by
  constructor
  · intro screen hscreen
    obtain ⟨place, hplace⟩ := List.mem_iff_getElem?.mp hscreen
    obtain ⟨info, hinfo, hlayout⟩ := exists_at_of_map_eq (h.layouts r hr) hplace
    obtain ⟨hwidth, hheight⟩ := hfills.size info (List.mem_of_getElem? hinfo)
    simp only [Screen.layout, ScreenInfo.layout, Prod.mk.injEq] at hlayout
    exact ⟨h.full r hr screen hscreen, hlayout.2.1.trans hwidth, hlayout.2.2.trans hheight⟩
  · have hslots := congrArg (List.map fun mount : Rotation × Int × Int =>
      r.kind.slotOf mount.2.1 mount.2.2) (hmounted r hr)
    simp only [List.map_map] at hslots
    exact (List.Perm.of_eq hslots).trans hfills.slots

/-- Between two frames the renderers stay as they are. -/
theorem renderers_until_frame {s : Server} {later : Server × Trace}
    (h : (serverRuns s).ReachableUnder
      (fun st c => ∀ message, ¬st.1.ShowsFrame c message) later) :
    later.1.renderers = s.renderers := by
  refine h.invariant (fun st => st.1.renderers = s.renderers) rfl ?_
  intro st c st' hsame hshows hstep
  cases hstep
  exact (call_renderers hshows).trans hsame

end Server

/-- The frame of an application on top, drawn on the screens it was told, is what a renderer sends
when it renders the frame, at the brightness it had before. -/
theorem sentWord_frame {serverConfig : ServerConfig} {kinds : List RendererKind} {s : Server}
    (hs : s.Displays serverConfig kinds) (hmounted : s.Mounted serverConfig)
    {a : MatrixApplication} (ha : a.ScreensInv) (hconfig : a.serverConfig = serverConfig)
    (htop : s.isTopApp a.appId = true) (hplaces : serverConfig.IdsArePlaces)
    (beyond : Nat → UInt8) {index : Nat} {r : Renderer} (hr : s.renderers[index]? = some r)
    (hkind : r.kind = .fpgaFTDI ∨ r.kind = .fpgaRPISPI) (hfills : serverConfig.FillsSlots r.kind)
    (dimmed : Color → Color) {place : Nat} {info : ScreenInfo} {client : Screen}
    (hinfo : serverConfig.screenInfo[place]? = some info)
    (hclient : a.screens[place]? = some client) {p : Int × Int} (hp : p ∈ rect 64 64) :
    ∃ col, client.getPixel p.1 p.2 = some col ∧
      (Server.rendered serverConfig a.renderToScreens.2 beyond r).sentWord dimmed
          (r.kind.wire info p).1 (r.kind.wire info p).2 = some (r.wordOf dimmed col) := by
  have hafter := hs.call (.handleRequest 0 a.renderToScreens.2 0 beyond)
  have hmounted' := hmounted.call (.handleRequest 0 a.renderToScreens.2 0 beyond)
  have hshown := handleRequest_frame htop 0 0 beyond index
  rw [hr, Option.map_some, hs.config] at hshown
  generalize hframe : (Server.showFrame serverConfig 0 a.renderToScreens.2 beyond index r).1 = r'
    at hshown
  have hr' := List.mem_of_getElem? hshown
  have hkind' : r'.kind = r.kind := by rw [← hframe, Server.showFrame_kind]
  have hscreens' : (Server.rendered serverConfig a.renderToScreens.2 beyond r).screens =
      r'.screens := by rw [← hframe, Server.showFrame_screens]
  have hrendered : (Server.rendered serverConfig a.renderToScreens.2 beyond r).kind = r.kind :=
    Server.rendered_kind _ _ _ _
  have hpanels := (hafter.panels hmounted' hr' (hkind' ▸ hfills)).of_same
    (hrendered.trans hkind'.symm) hscreens'
  have hshows := showsAnnounced_of_idsArePlaces 0 0 beyond hs ha hconfig htop hplaces
  have hstores : r'.kind.storesPixels = true := by
    rw [hkind']
    cases hkind with
    | inl hftdi => rw [hftdi]; rfl
    | inr hrpispi => rw [hrpispi]; rfl
  obtain ⟨screen, hscreen, hlayout⟩ := exists_at_of_map_eq (hafter.layouts r' hr').symm hinfo
  obtain ⟨screen', hscreen', hmount⟩ := exists_at_of_map_eq (hmounted' r' hr').symm hinfo
  obtain rfl := Option.some.inj (hscreen.symm.trans hscreen')
  have hmatch : a.screens.map Screen.layout = serverConfig.screenInfo.map ScreenInfo.layout := by
    rw [ha.matching, hconfig]
  obtain ⟨info', hinfo', hlayout'⟩ := exists_at_of_map_eq hmatch hclient
  obtain rfl := Option.some.inj (hinfo.symm.trans hinfo')
  have hsame : screen.layout = client.layout := hlayout.symm.trans hlayout'.symm
  simp only [Screen.layout, Prod.mk.injEq] at hsame
  have hmem := List.mem_of_getElem? hscreen
  have hdata := hshows.2 r' hr' hstores screen hmem client (List.mem_of_getElem? hclient) hsame.1
  have hpixel := Screen.getPixel_congr hsame.2.1 hsame.2.2 hdata p.1 p.2
  have hmem' : screen ∈ (Server.rendered serverConfig a.renderToScreens.2 beyond r).screens := by
    rw [hscreens']
    exact hmem
  have hword := hpanels.sentWord_eq (hrendered ▸ hkind) dimmed hmem' hp
  simp only [Screen.mount, ScreenInfo.mount, Prod.mk.injEq] at hmount
  rw [Renderer.slotOf, hrendered, ← hmount.1, ← hmount.2.1, ← hmount.2.2, hpixel,
    Renderer.wordOf_of_same hrendered (Server.rendered_brightness _ _ _ _)] at hword
  obtain ⟨col, hcol⟩ := (hpanels.square screen hmem').exists_pixel hp
  rw [hpixel] at hcol
  refine ⟨col, hcol, ?_⟩
  rw [RendererKind.wire, hword, hcol, Option.map_some]

theorem displays_of_reachable {serverConfig : ServerConfig} {kinds : List RendererKind}
    {screens : List Screen} (hscreens : createScreensFromConfig serverConfig = some screens)
    {st : Server × Trace}
    (h : (serverRuns (initialServer serverConfig kinds screens)).Reachable st) :
    st.1.Displays serverConfig kinds ∧ st.1.Mounted serverConfig := by
  refine h.invariant (fun st => st.1.Displays serverConfig kinds ∧ st.1.Mounted serverConfig)
    ⟨initialServer_displays kinds hscreens, ?_⟩ ?_
  · intro r hr
    obtain ⟨_, -, rfl⟩ := List.mem_map.mp hr
    exact createScreensFromConfig_mounts hscreens
  · intro st c st' hst _ hstep
    cases hstep
    exact ⟨hst.1.call c, hst.2.call c⟩

/-- What an application that was told the server's screens has drawn is what an FPGA renderer
sends when the server handles the frame: each pixel's colour, at the brightness the renderer has
before the frame, is the word at the wire that the configuration gives the pixel. The renderer
holds these pixels until another frame is shown. -/
theorem frames_on_the_wire {serverConfig : ServerConfig} {kinds : List RendererKind}
    {screens : List Screen} (hscreens : createScreensFromConfig serverConfig = some screens)
    (hplaces : serverConfig.IdsArePlaces) {index : Nat} {kind : RendererKind}
    (hindex : kinds[index]? = some kind) (hkind : kind = .fpgaFTDI ∨ kind = .fpgaRPISPI)
    (hfills : serverConfig.FillsSlots kind) {st : Server × Trace}
    (h : (serverRuns (initialServer serverConfig kinds screens)).Reachable st)
    {params : AnimationParams} {appName : String} {a : MatrixApplication}
    (ha : (clientRuns params appName).ReachableUnder
      (fun a e => MatrixApplication.TellsDistinct e ∧ a.FirstTold e) a)
    (hconfig : a.serverConfig = serverConfig) (htop : st.1.isTopApp a.appId = true)
    (connection : ConnectionId) (rand : Nat) (beyond : Nat → UInt8) {later : Server × Trace}
    (hlater : (serverRuns
        (st.1.handleRequest connection a.renderToScreens.2 rand beyond).1).ReachableUnder
      (fun st c => ∀ message, ¬st.1.ShowsFrame c message) later) (dimmed : Color → Color) :
    ∃ before r, st.1.renderers[index]? = some before ∧ later.1.renderers[index]? = some r ∧
      .render index ∈ (st.1.handleRequest connection a.renderToScreens.2 rand beyond).2 ∧
      r.screens = (Server.rendered serverConfig a.renderToScreens.2 beyond before).screens ∧
      ∀ (place : Nat) (info : ScreenInfo) (client : Screen),
        serverConfig.screenInfo[place]? = some info → a.screens[place]? = some client →
        ∀ p ∈ rect 64 64,
          ∃ col, client.getPixel p.1 p.2 = some col ∧
            (Server.rendered serverConfig a.renderToScreens.2 beyond before).sentWord dimmed
                (kind.wire info p).1 (kind.wire info p).2 =
              some (before.wordOf dimmed col) := by
  obtain ⟨hdisplays, hmounted⟩ := displays_of_reachable hscreens h
  obtain ⟨before, hbefore, hbeforeKind⟩ := exists_at_of_map_eq (g := Renderer.kind)
    ((List.map_id kinds).trans hdisplays.kinds.symm) hindex
  subst hbeforeKind
  have hshown := handleRequest_frame htop connection rand beyond index
  rw [hbefore, Option.map_some, hdisplays.config] at hshown
  rw [Server.renderers_until_frame hlater]
  refine ⟨before, _, hbefore, hshown, ?_, Server.showFrame_screens _ _ _ _ index before, ?_⟩
  · exact Server.render_mem connection a.renderToScreens.2 beyond rand rfl htop hbefore
  · intro place info client hinfo hclient p hp
    exact sentWord_frame hdisplays hmounted (MatrixApplication.screensInv_of_reachable ha) hconfig
      htop hplaces beyond hbefore hkind hfills dimmed hinfo hclient hp

open ServerSetup

/-- The configuration of the panels behind the SPI bus, as the rest of the program reads it. -/
def defaultCube : ServerConfig := (createDefaultCubeConfig .fpgaRPISPI).serverConfig

theorem defaultCube_idsArePlaces : defaultCube.IdsArePlaces := by
  intro place info hinfo
  have hid := createDefaultCubeConfig_idsArePlaces .fpgaRPISPI place info hinfo
  have hlt := (List.getElem?_eq_some_iff.mp hinfo).1
  refine ⟨?_, ?_, fun _ => hid⟩ <;> omega

theorem defaultCube_fillsSlots : defaultCube.FillsSlots .fpgaRPISPI :=
  (createDefaultCubeConfig_inSlots .fpgaRPISPI (.inr rfl)).fillsSlots (.inr rfl) (by decide)

/-- An application on top of a server that shows the default cube, told its screens. -/
theorem exists_defaultCube_run : ∃ (screens : List Screen) (st : Server × Trace)
    (a : MatrixApplication), createScreensFromConfig defaultCube = some screens ∧
      (serverRuns (initialServer defaultCube [.fpgaRPISPI] screens)).Reachable st ∧
      (clientRuns {} "app").ReachableUnder
        (fun a e => MatrixApplication.TellsDistinct e ∧ a.FirstTold e) a ∧
      a.serverConfig = defaultCube ∧ st.1.isTopApp a.appId = true := by
  obtain ⟨screens, hscreens⟩ : ∃ screens, createScreensFromConfig defaultCube = some screens :=
    ⟨_, rfl⟩
  have hreach : (serverRuns (initialServer defaultCube [.fpgaRPISPI] screens)).Reachable _ :=
    .of_replay [.handleRequest 1 { messageType := .registerApp } 7 fun _ => 0] rfl
  have hdistinct : MatrixApplication.TellsDistinct (.handleRequest
      { messageType := .getServerInfo, serverConfig := some defaultCube }) := by
    intro config hconfig
    cases hconfig
    decide
  have hfirst : ∀ a : MatrixApplication, a.screens = [] → a.FirstTold (.handleRequest
      { messageType := .getServerInfo, serverConfig := some defaultCube }) := by
    intro a hempty config hconfig
    cases hconfig
    exact ⟨hempty, by decide⟩
  have hclient : (clientRuns {} "app").ReachableUnder
      (fun a e => MatrixApplication.TellsDistinct e ∧ a.FirstTold e) _ :=
    .step (.step (.step .initial ⟨registered_distinct, fun _ hconfig => by cases hconfig⟩ rfl)
      ⟨hdistinct, hfirst _ rfl⟩ rfl) (e := .draw redFirst)
      ⟨fun _ hconfig => (by cases hconfig), fun _ hconfig => (by cases hconfig)⟩ rfl
  exact ⟨screens, _, _, hscreens, hreach, hclient, rfl, rfl⟩

theorem frames_on_the_wire_default : ∃ (s : Server) (a : MatrixApplication) (before : Renderer),
    s.renderers[0]? = some before ∧
      ∀ client ∈ a.screens[0]?, ∀ p ∈ rect 64 64, ∃ col, client.getPixel p.1 p.2 = some col ∧
        (Server.rendered defaultCube a.renderToScreens.2 (fun _ => 0) before).sentWord id
          (64 + p.2) (2 * (64 + p.1)) = some (before.wordOf id col) := by
  obtain ⟨screens, st, a, hscreens, hreach, hclient, hconfig, htop⟩ := exists_defaultCube_run
  have hindex : [RendererKind.fpgaRPISPI][0]? = some .fpgaRPISPI := rfl
  obtain ⟨before, r, hbefore, -, -, -, hwires⟩ := frames_on_the_wire hscreens
    defaultCube_idsArePlaces hindex (.inr rfl) defaultCube_fillsSlots hreach hclient hconfig htop 1
    0 (fun _ => 0) .initial id
  refine ⟨st.1, a, before, hbefore, ?_⟩
  intro client hget p hp
  exact hwires 0 _ client rfl hget p hp

end MatrixServer
