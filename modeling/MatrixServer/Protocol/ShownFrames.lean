import MatrixServer.Application.ClientScreens
import MatrixServer.Server.Display
import MatrixServer.Server.FramePayload

/-!
From what an application draws to what the renderers show.
The application draws by place in its own list of screens, and its frame names
them by id; the last entry of an id is shown. While an id occurs once, that is
what was drawn on its screen.
-/

namespace MatrixServer
open TransitionRuns KeyedWrites

/-- What the frame of an application leaves on the screens of a storing renderer. -/
theorem showFrame_client (serverConfig : ServerConfig) (a : MatrixApplication)
    (connection : ConnectionId) (beyond : Nat → UInt8) (index : Nat) {r : Renderer}
    (hstores : r.kind.storesPixels = true) {screenId : Nat}
    (hlt : screenId < serverConfig.screenInfo.length) :
    (Server.showFrame serverConfig connection a.renderToScreens.2 beyond index
        r).1.screens[screenId]? =
      (lastFor Screen.screenId (screenId : Int) a.screens).elim r.screens[screenId]? fun client =>
        r.screens[screenId]?.map (·.setScreenData (Color.pointedTo client.frameData beyond)) := by
  have hlast : lastFor ScreenData.screenID (screenId : Int) a.renderToScreens.2.screenData =
      (lastFor Screen.screenId (screenId : Int) a.screens).map _ :=
    lastFor_map ScreenData.screenID _ _ a.screens
  rw [Server.showFrame_screen, hlast]
  cases lastFor Screen.screenId (screenId : Int) a.screens with
  | none => rfl
  | some client => simp [Server.shownBy, hstores, hlt]

/-- The renderers after a frame of the application on top. -/
theorem handleRequest_frame {s : Server} {a : MatrixApplication} (htop : s.isTopApp a.appId = true)
    (connection : ConnectionId) (rand : Nat) (beyond : Nat → UInt8) (index : Nat) :
    (s.handleRequest connection a.renderToScreens.2 rand beyond).1.renderers[index]? =
      s.renderers[index]?.map fun r =>
        (Server.showFrame s.serverConfig connection a.renderToScreens.2 beyond index r).1 :=
  Server.call_showsFrame connection a.renderToScreens.2 beyond rand rfl htop index

/-- Whichever server shows a frame of the application, the screen at the place that a client's
screen has for id shows that screen's pixels, if the sizes agree. -/
def MatrixApplication.DisplaysOwnScreens (a : MatrixApplication) : Prop :=
  ∀ (s : Server) (connection : ConnectionId) (rand : Nat) (beyond : Nat → UInt8) (index : Nat)
    (r : Renderer), s.isTopApp a.appId = true → s.renderers[index]? = some r →
    r.kind.storesPixels = true → ∀ client ∈ a.screens, ∀ screenId : Nat,
    client.screenId = screenId → screenId < s.serverConfig.screenInfo.length →
    ∀ screen ∈ r.screens[screenId]?, screen.screenDataSize = client.screenDataSize →
      (s.handleRequest connection a.renderToScreens.2 rand beyond).1.shown index screenId =
        some client.screenData

theorem MatrixApplication.ScreensInv.displaysOwnScreens {a : MatrixApplication}
    (h : a.ScreensInv) : a.DisplaysOwnScreens := by
  intro s connection rand beyond index r htop hr hstores client hclient screenId hid hlt screen
    hscreen hsize
  have hlast := lastFor_of_nodup Screen.screenId h.ids_nodup hclient
  rw [hid] at hlast
  rw [Server.shown, handleRequest_frame htop, hr, Option.map_some, Option.bind_some,
    showFrame_client _ a connection beyond index hstores hlt, hlast, Option.elim_some, hscreen,
    Option.map_some, Option.map_some,
    screen.setScreenData_frameData (h.full client hclient) hsize]

/-- An application that is told its screens once names each of them once in its frames and
draws on what the server displays for it; being told again ends this. -/
theorem screens_match_until_told_again (params : AnimationParams) (appName : String)
    (a : MatrixApplication)
    (h : (clientRuns params appName).ReachableUnder
      (fun a e => MatrixApplication.TellsDistinct e ∧ MatrixApplication.TellsIntSizes e ∧
        a.FirstTold e) a) :
    a.MatchesConfig ∧ (a.renderToScreens.2.screenData.map ScreenData.screenID).Nodup ∧
      a.DisplaysOwnScreens ∧
      ∀ e a', MatrixApplication.TellsDistinct e → MatrixApplication.TellsIntSizes e →
        (clientRuns params appName).step a e = some a' → (a'.MatchesConfig ↔ a.FirstTold e) := by
  have hinv := MatrixApplication.screensInv_of_reachable
    (h.mono fun _ _ hguard => ⟨hguard.1, hguard.2.2⟩)
  refine ⟨hinv.matching, ?_, hinv.displaysOwnScreens,
    fun e a' _ _ hstep => MatrixApplication.matchesConfig_step hinv hstep⟩
  have hids := hinv.ids_nodup
  simpa [MatrixApplication.renderToScreens, Function.comp_def] using hids

def registered : ClientEvent :=
  .handleRequest { messageType := .registerApp, status := .success, appID := 7 }

def toldOnePixel : ClientEvent :=
  .handleRequest { messageType := .getServerInfo, serverConfig := some onePixelConfig }

theorem toldOnePixel_distinct : MatrixApplication.TellsDistinct toldOnePixel := by
  intro config hconfig
  cases hconfig
  decide

theorem registered_distinct : MatrixApplication.TellsDistinct registered :=
  fun _ hconfig => by cases hconfig

theorem screens_match_after_first_reply :
    ∃ a, (clientRuns {} "app").ReachableUnder
        (fun a e => MatrixApplication.TellsDistinct e ∧ MatrixApplication.TellsIntSizes e ∧
          a.FirstTold e) a ∧
      a.screens.length = 1 ∧ a.MatchesConfig ∧ a.DisplaysOwnScreens := by
  have hfirst : MatrixApplication.FirstTold { appName := "app" } toldOnePixel := by
    intro config hconfig
    cases hconfig
    exact ⟨rfl, by decide⟩
  have hsizes : MatrixApplication.TellsIntSizes toldOnePixel := by
    intro config hconfig
    cases hconfig
    decide
  have hreach : (clientRuns {} "app").ReachableUnder
      (fun a e => MatrixApplication.TellsDistinct e ∧ MatrixApplication.TellsIntSizes e ∧
        a.FirstTold e) _ :=
    .step .initial ⟨toldOnePixel_distinct, hsizes, hfirst⟩ rfl
  have hmatch := screens_match_until_told_again _ _ _ hreach
  exact ⟨_, hreach, rfl, hmatch.1, hmatch.2.2.1⟩

/-- Every pixel of the first screen is red, the others stay black. -/
def redFirst : Nat → Nat → Color := fun index _ => if index = 0 then ⟨255, 0, 0⟩ else .black

def oneAppServer : Server :=
  (onePixelServer.handleRequest 1 { messageType := .registerApp } 7 fun _ => 0).1

/-- An application that reconnects is told the same configuration again. -/
theorem second_reply_blackens_display :
    ∃ a, (clientRuns {} "app").ReachableUnder (fun _ e => MatrixApplication.TellsDistinct e) a ∧
      ¬a.MatchesConfig ∧
      a.renderToScreens.2.screenData.map ScreenData.screenID = [0, 0] ∧
      a.screens.head?.map Screen.screenData = some [⟨255, 0, 0⟩] ∧
      (oneAppServer.handleRequest 1 a.renderToScreens.2 0 fun _ => 0).1.shown 0 0 =
        some [.black] := by
  refine ⟨_, .step (.step (.step (.step .initial registered_distinct rfl) toldOnePixel_distinct
    rfl) toldOnePixel_distinct rfl) (e := .draw redFirst) (fun _ h => by cases h) rfl, ?_⟩
  decide

end MatrixServer
