import MatrixServer.Protocol.ShownFrames

/-!
What the renderers show of an application that took over the server's configuration.
The frame names screens by id, and the server and the renderers take ids as
places in their lists. Every drawing reaches the screen announced for it exactly
when each id is the place of its configuration entry.
-/

namespace MatrixServer
open TransitionRuns KeyedWrites

/-- Every entry of the frame is taken, and every storing renderer's screen holds the client's
screen of the same id. -/
def ShowsAnnounced (s : Server) (a : MatrixApplication) (connection : ConnectionId) (rand : Nat)
    (beyond : Nat → UInt8) : Prop :=
  (∀ entry ∈ a.renderToScreens.2.screenData,
      0 ≤ entry.screenID ∧ entry.screenID < s.serverConfig.screenInfo.length) ∧
    ∀ r ∈ (s.handleRequest connection a.renderToScreens.2 rand beyond).1.renderers,
      r.kind.storesPixels = true → ∀ screen ∈ r.screens, ∀ client ∈ a.screens,
        screen.screenId = client.screenId → screen.screenData = client.screenData

/-- The ids of a configuration are its places, up to screens without pixels. -/
def ServerConfig.IdsArePlaces (serverConfig : ServerConfig) : Prop :=
  ∀ (place : Nat) (info : ScreenInfo), serverConfig.screenInfo[place]? = some info →
    0 ≤ info.screenID ∧ info.screenID < serverConfig.screenInfo.length ∧
      (0 < info.pixels → info.screenID = place)

/-- Lists with equal images, place by place. -/
theorem exists_at_of_map_eq {α β γ : Type} {f : α → γ} {g : β → γ} {l : List α} {l' : List β}
    (h : l.map f = l'.map g) {place : Nat} {x : α} (hx : l[place]? = some x) :
    ∃ y, l'[place]? = some y ∧ f x = g y := by
  have hplace := congrArg (fun images => images[place]?) h
  simp only [List.getElem?_map, hx, Option.map_some] at hplace
  obtain ⟨y, hy, hxy⟩ := Option.map_eq_some_iff.mp hplace.symm
  exact ⟨y, hy, hxy.symm⟩

section Announced

variable {serverConfig : ServerConfig} {kinds : List RendererKind} {s : Server}
  {a : MatrixApplication} (connection : ConnectionId) (rand : Nat) (beyond : Nat → UInt8)

/-- Places of screens with equal ids are equal. -/
theorem place_unique (hdistinct : (serverConfig.screenInfo.map ScreenInfo.screenID).Nodup)
    {place other : Nat} {info info' : ScreenInfo}
    (hinfo : serverConfig.screenInfo[place]? = some info)
    (hinfo' : serverConfig.screenInfo[other]? = some info')
    (hid : info.screenID = info'.screenID) : place = other := by
  have hlt : place < (serverConfig.screenInfo.map ScreenInfo.screenID).length := by
    rw [List.length_map]
    exact (List.getElem?_eq_some_iff.mp hinfo).1
  refine (List.getElem?_inj hlt hdistinct).mp ?_
  rw [List.getElem?_map, List.getElem?_map, hinfo, hinfo', Option.map_some, Option.map_some, hid]

theorem showsAnnounced_of_idsArePlaces (hs : s.Displays serverConfig kinds) (ha : a.ScreensInv)
    (hconfig : a.serverConfig = serverConfig) (htop : s.isTopApp a.appId = true)
    (hplaces : serverConfig.IdsArePlaces) : ShowsAnnounced s a connection rand beyond := by
  have hmatch : a.screens.map Screen.layout = serverConfig.screenInfo.map ScreenInfo.layout := by
    rw [ha.matching, hconfig]
  constructor
  · intro entry hentry
    obtain ⟨client, hclient, rfl⟩ := List.mem_map.mp hentry
    obtain ⟨place, hget⟩ := List.mem_iff_getElem?.mp hclient
    obtain ⟨info, hinfo, hlayout⟩ := exists_at_of_map_eq hmatch hget
    have hid : client.screenId = info.screenID := congrArg Prod.fst hlayout
    rw [hs.config]
    simp only [hid]
    exact ⟨(hplaces place info hinfo).1, (hplaces place info hinfo).2.1⟩
  · intro r' hr' hstores screen hscreen client hclient hid
    have hafter := hs.call (.handleRequest connection a.renderToScreens.2 rand beyond)
    obtain ⟨index, hindex⟩ := List.mem_iff_getElem?.mp hr'
    obtain ⟨place, hplace⟩ := List.mem_iff_getElem?.mp hscreen
    obtain ⟨other, hother⟩ := List.mem_iff_getElem?.mp hclient
    obtain ⟨info, hinfo, hlayout⟩ := exists_at_of_map_eq (hafter.layouts r' hr') hplace
    obtain ⟨info', hinfo', hlayout'⟩ := exists_at_of_map_eq hmatch hother
    have hsame : info.screenID = info'.screenID :=
      (congrArg Prod.fst hlayout).symm.trans (hid.trans (congrArg Prod.fst hlayout'))
    have hdistinct := ha.distinct
    rw [hconfig] at hdistinct
    obtain rfl := place_unique hdistinct hinfo hinfo' hsame
    obtain rfl := Option.some.inj (hinfo.symm.trans hinfo')
    have hfull := hafter.full r' hr' screen hscreen
    have hsize := hfull.size_of_layout hlayout
    have hsize' := (ha.full client hclient).size_of_layout hlayout'
    by_cases hpixels : 0 < info.pixels
    · have hid' : client.screenId = place :=
        (congrArg Prod.fst hlayout').trans ((hplaces place info hinfo).2.2 hpixels)
      have hlt : place < s.serverConfig.screenInfo.length := by
        rw [hs.config]
        exact (List.getElem?_eq_some_iff.mp hinfo).1
      have hlast := lastFor_of_nodup Screen.screenId ha.ids_nodup hclient
      rw [handleRequest_frame htop] at hindex
      obtain ⟨r, -, rfl⟩ := Option.map_eq_some_iff.mp hindex
      rw [Server.showFrame_kind] at hstores
      rw [hid'] at hlast
      rw [showFrame_client _ a connection beyond index hstores hlt, hlast, Option.elim_some]
        at hplace
      obtain ⟨old, -, rfl⟩ := Option.map_eq_some_iff.mp hplace
      exact old.setScreenData_frameData (ha.full client hclient) (hsize.trans hsize'.symm) beyond
    · have hnone : ∀ s : Screen, s.Full → s.screenDataSize = info.pixels → s.screenData = [] := by
        intro s hs hpixels'
        apply List.eq_nil_of_length_eq_zero
        rw [hs.length, hpixels']
        omega
      rw [hnone screen hfull hsize, hnone client (ha.full client hclient) hsize']

/-- Drawings that differ on one screen only give the same last screen for every other id. -/
theorem lastFor_draw_other (ha : a.ScreensInv) {place : Nat} {id : Int}
    (hother : ∀ screen ∈ a.screens[place]?, screen.screenId ≠ id)
    {pixels pixels' : Nat → Nat → Color} (hsame : ∀ i, i ≠ place → pixels i = pixels' i)
    {client : Screen} (hlast : lastFor Screen.screenId id (a.draw pixels).screens = some client) :
    lastFor Screen.screenId id (a.draw pixels').screens = some client := by
  obtain ⟨hmem, rfl⟩ := mem_of_lastFor _ hlast
  obtain ⟨index, hget⟩ := List.mem_iff_getElem?.mp hmem
  simp only [MatrixApplication.draw, List.getElem?_mapIdx] at hget
  obtain ⟨screen, hscreen, rfl⟩ := Option.map_eq_some_iff.mp hget
  have hne : index ≠ place := by
    rintro rfl
    exact hother screen hscreen rfl
  refine lastFor_of_nodup _ (ha.draw pixels').ids_nodup (List.mem_iff_getElem?.mpr ⟨index, ?_⟩)
  rw [hsame index hne]
  simp [MatrixApplication.draw, hscreen]

theorem lastFor_draw_congr (ha : a.ScreensInv) {place : Nat} {id : Int}
    (hother : ∀ screen ∈ a.screens[place]?, screen.screenId ≠ id)
    {pixels pixels' : Nat → Nat → Color} (hsame : ∀ i, i ≠ place → pixels i = pixels' i) :
    lastFor Screen.screenId id (a.draw pixels).screens =
      lastFor Screen.screenId id (a.draw pixels').screens := by
  cases hlast : lastFor Screen.screenId id (a.draw pixels).screens with
  | some client => exact (lastFor_draw_other ha hother hsame hlast).symm
  | none =>
      cases hlast' : lastFor Screen.screenId id (a.draw pixels').screens with
      | none => rfl
      | some client =>
          have hsome := lastFor_draw_other ha hother (fun i hi => (hsame i hi).symm) hlast'
          rw [hlast] at hsome
          cases hsome

/-- All pixels of the screen at one place have one colour, the other screens are black. -/
def paintOne (place : Nat) (color : Color) : Nat → Nat → Color :=
  fun index _ => if index = place then color else .black

theorem draw_paintOne {place : Nat} {screen : Screen} (hget : a.screens[place]? = some screen)
    (color : Color) : ∃ client ∈ (a.draw (paintOne place color)).screens,
      client.screenId = screen.screenId ∧
        client.screenData = List.replicate screen.screenData.length color := by
  refine ⟨screen.draw (paintOne place color place), ?_, rfl, ?_⟩
  · refine List.mem_iff_getElem?.mpr ⟨place, ?_⟩
    simp [MatrixApplication.draw, hget]
  · have hconst : paintOne place color place = fun _ => color := by
      funext
      exact if_pos rfl
    simp [Screen.draw, hconst]

/-- When every drawing is shown, a screen painted in one colour fills the panel in its place. -/
theorem shown_paintOne (hs : s.Displays serverConfig kinds) (htop : s.isTopApp a.appId = true)
    {place : Nat} {screen : Screen} {info : ScreenInfo} (hscreen : a.screens[place]? = some screen)
    (hinfo : serverConfig.screenInfo[place]? = some info) (hlayout : info.layout = screen.layout)
    {index : Nat} {r : Renderer} (hindex : s.renderers[index]? = some r)
    (hstores : r.kind.storesPixels = true)
    (hall : ∀ pixels, ShowsAnnounced s (a.draw pixels) connection rand beyond) (color : Color) :
    ∃ shown, (Server.showFrame s.serverConfig connection
        (a.draw (paintOne place color)).renderToScreens.2 beyond index r).1.screens[place]? =
      some shown ∧ shown.screenData = List.replicate screen.screenData.length color := by
  have hafter := handleRequest_frame (a := a.draw (paintOne place color)) htop connection rand
    beyond index
  rw [hindex, Option.map_some] at hafter
  have hmem := List.mem_of_getElem? hafter
  have hlayouts := (hs.call (.handleRequest connection
    (a.draw (paintOne place color)).renderToScreens.2 rand beyond)).layouts _ hmem
  obtain ⟨shown, hget, hshown⟩ := exists_at_of_map_eq hlayouts.symm hinfo
  obtain ⟨client, hclient, hclientId, hdata⟩ := draw_paintOne hscreen color
  have hid : info.screenID = screen.screenId := congrArg Prod.fst hlayout
  have hshownId : info.screenID = shown.screenId := congrArg Prod.fst hshown
  refine ⟨shown, hget, ?_⟩
  rw [← hdata]
  refine (hall (paintOne place color)).2 _ hmem ?_ shown (List.mem_of_getElem? hget) client
    hclient ?_
  · rwa [Server.showFrame_kind]
  · rw [hclientId, ← hid, hshownId]

theorem idsArePlaces_of_showsAnnounced (hs : s.Displays serverConfig kinds) (ha : a.ScreensInv)
    (hconfig : a.serverConfig = serverConfig) (htop : s.isTopApp a.appId = true)
    (hstores : ∃ kind ∈ kinds, kind.storesPixels = true)
    (hall : ∀ pixels, ShowsAnnounced s (a.draw pixels) connection rand beyond) :
    serverConfig.IdsArePlaces := by
  have hmatch : a.screens.map Screen.layout = serverConfig.screenInfo.map ScreenInfo.layout := by
    rw [ha.matching, hconfig]
  intro place info hinfo
  obtain ⟨screen, hscreen, hlayout⟩ := exists_at_of_map_eq hmatch.symm hinfo
  have hid : info.screenID = screen.screenId := congrArg Prod.fst hlayout
  have hlt : place < s.serverConfig.screenInfo.length := by
    rw [hs.config]
    exact (List.getElem?_eq_some_iff.mp hinfo).1
  have hrange : 0 ≤ info.screenID ∧ info.screenID < serverConfig.screenInfo.length := by
    obtain ⟨client, hclient, hclientId, -⟩ := draw_paintOne hscreen .black
    have hentry := (hall (paintOne place .black)).1 _ (List.mem_map_of_mem hclient)
    rw [← hs.config]
    simpa only [hclientId, ← hid] using hentry
  refine ⟨hrange.1, hrange.2, fun hpixels => ?_⟩
  by_contra hmoved
  obtain ⟨kind, hkind, hstores⟩ := hstores
  rw [← hs.kinds] at hkind
  obtain ⟨r, hr, rfl⟩ := List.mem_map.mp hkind
  obtain ⟨index, hindex⟩ := List.mem_iff_getElem?.mp hr
  have hshown := shown_paintOne connection rand beyond hs htop hscreen hinfo hlayout hindex hstores
    hall
  have hother : ∀ screen ∈ a.screens[place]?, screen.screenId ≠ (place : Int) := by
    intro other hmem
    cases hscreen.symm.trans hmem
    rwa [← hid]
  have hagree : ∀ i, i ≠ place → paintOne place ⟨255, 0, 0⟩ i = paintOne place .black i := by
    intro i hi
    funext
    simp only [paintOne, if_neg hi]
  have hsame := lastFor_draw_congr ha hother hagree
  obtain ⟨red, hred, hreds⟩ := hshown ⟨255, 0, 0⟩
  obtain ⟨black, hblack, hblacks⟩ := hshown .black
  rw [showFrame_client _ _ connection beyond index hstores hlt] at hred hblack
  rw [hsame, hblack] at hred
  cases hred
  rw [hreds] at hblacks
  have hfull := ha.full screen (List.mem_of_getElem? hscreen)
  have hlength : 0 < screen.screenData.length := by
    rw [hfull.length, hfull.size_of_layout hlayout.symm]
    omega
  have hcolor := List.replicate_inj.mp hblacks
  obtain ⟨-, hzero | hcolors⟩ := hcolor
  · omega
  · exact absurd hcolors (by decide)

end Announced

theorem initialServer_displays {serverConfig : ServerConfig} (kinds : List RendererKind)
    {screens : List Screen} (h : createScreensFromConfig serverConfig = some screens) :
    (initialServer serverConfig kinds screens).Displays serverConfig kinds := by
  obtain ⟨hlayouts, hfull⟩ := createScreensFromConfig_layouts h
  refine ⟨rfl, ?_, fun r hr => ?_, fun r hr => ?_⟩
  · simp [initialServer, Server.start, Function.comp_def]
  all_goals
    obtain ⟨kind, -, rfl⟩ := List.mem_map.mp hr
  · exact hlayouts
  · exact hfull

/-- For ids that occur once: all drawings of an application that was told the server's screens
reach the screens with the announced ids, with no entry left out, if and only if the ids are the
places of the configuration's entries. -/
theorem frames_reach_announced_iff_idsArePlaces (serverConfig : ServerConfig)
    (hdistinct : (serverConfig.screenInfo.map ScreenInfo.screenID).Nodup)
    (kinds : List RendererKind) (hstores : ∃ kind ∈ kinds, kind.storesPixels = true)
    (screens : List Screen) (hscreens : createScreensFromConfig serverConfig = some screens)
    (st : Server × Trace)
    (h : (serverRuns (initialServer serverConfig kinds screens)).Reachable st)
    (a : MatrixApplication) (hempty : a.screens = []) (htop : st.1.isTopApp a.appId = true)
    (connection : ConnectionId) (rand : Nat) (beyond : Nat → UInt8) :
    (∀ pixels, ShowsAnnounced st.1
        ((a.handleRequest
          { messageType := .getServerInfo, serverConfig := some serverConfig }).1.draw pixels)
        connection rand beyond) ↔ serverConfig.IdsArePlaces := by
  have hdisplays : st.1.Displays serverConfig kinds := by
    refine h.invariant (fun st => st.1.Displays serverConfig kinds)
      (initialServer_displays kinds hscreens) ?_
    intro st c st' hdisplays _ hstep
    cases hstep
    exact hdisplays.call c
  have hnonneg : ∀ info ∈ serverConfig.screenInfo, 0 ≤ info.pixels := by
    intro info hinfo
    obtain ⟨hlayouts, hfull⟩ := createScreensFromConfig_layouts hscreens
    obtain ⟨place, hget⟩ := List.mem_iff_getElem?.mp hinfo
    obtain ⟨screen, hscreen, hlayout⟩ := exists_at_of_map_eq hlayouts.symm hget
    have hscreenFull := hfull screen (List.mem_of_getElem? hscreen)
    rw [← hscreenFull.size_of_layout hlayout.symm, hscreenFull.size]
    exact hscreenFull.nonneg
  have hinv := MatrixApplication.ScreensInv.of_told hempty hdistinct hnonneg
  have hconfig := a.setServerConfig_config serverConfig
  have happ : st.1.isTopApp (a.setServerConfig serverConfig).1.appId = true := by
    rwa [a.setServerConfig_appId serverConfig]
  constructor
  · exact idsArePlaces_of_showsAnnounced connection rand beyond hdisplays hinv hconfig happ hstores
  · intro hplaces pixels
    exact showsAnnounced_of_idsArePlaces connection rand beyond hdisplays (hinv.draw pixels)
      hconfig happ hplaces

/-- An application that knows its id and asks for the server's screens. -/
def startedApp (serverConfig : ServerConfig) : MatrixApplication :=
  (({ appId := 7 } : MatrixApplication).handleRequest
    { messageType := .getServerInfo, serverConfig := some serverConfig }).1

theorem frames_reach_one_screen :
    ShowsAnnounced oneAppServer ((startedApp onePixelConfig).draw redFirst) 1 0 fun _ => 0 := by
  refine (frames_reach_announced_iff_idsArePlaces onePixelConfig (by decide)
    [.webSocketSimulator true] ⟨_, List.mem_singleton_self _, rfl⟩
    ((createScreensFromConfig onePixelConfig).getD []) rfl
    (oneAppServer, [.generatedAppId 7,
      .send 1 { messageType := .registerApp, appID := 7, status := .success }])
    (.of_replay [.handleRequest 1 { messageType := .registerApp } 7 fun _ => 0] rfl)
    { appId := 7 } rfl rfl 1 0 fun _ => 0).mpr ?_ redFirst
  intro place info hinfo
  cases place with
  | zero =>
      cases hinfo
      decide
  | succ place => cases hinfo

/-- Two screens of one pixel whose ids are each other's places. -/
def swappedConfig : ServerConfig where
  screenInfo :=
    [{ screenID := 1, width := 1, height := 1 }, { screenID := 0, width := 1, height := 1 }]

def swappedServer : Server :=
  ((initialServer swappedConfig [.webSocketSimulator true]
    ((createScreensFromConfig swappedConfig).getD [])).handleRequest 1
      { messageType := .registerApp } 7 fun _ => 0).1

theorem swapped_ids_swap_screens :
    (swappedConfig.screenInfo.map ScreenInfo.screenID).Nodup ∧
      ¬ShowsAnnounced swappedServer ((startedApp swappedConfig).draw redFirst) 1 0 fun _ => 0 := by
  refine ⟨by decide, fun hshows => ?_⟩
  have hdata := hshows.2
    ((swappedServer.handleRequest 1 ((startedApp swappedConfig).draw redFirst).renderToScreens.2 0
      fun _ => 0).1.renderers.getLast (by decide)) (List.getLast_mem _) rfl
    { screenId := 1, width := 1, height := 1, screenDataSize := 1, screenData := [.black] }
    (by decide)
    { screenId := 1, width := 1, height := 1, screenDataSize := 1, screenData := [⟨255, 0, 0⟩] }
    (by decide) rfl
  exact absurd hdata (by decide)

end MatrixServer
