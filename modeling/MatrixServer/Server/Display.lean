import MatrixServer.Foundation.KeyedWrites
import MatrixServer.Server.ServerCalls

/-!
What the renderers show, and who changes it.
A screen takes the data of the last entry that names its index, on the renderers
that store pixels. Apart from a frame of the top app no call touches a renderer.
Renderers that share their screens show what the storing one among them stores.
-/

namespace MatrixServer
open TransitionRuns KeyedWrites

namespace Server

variable (serverConfig : ServerConfig) (connection : ConnectionId)
  (message : MatrixServerMessage) (beyond : Nat → UInt8)

theorem storeEntry_keeps (acc : Renderer × List Effect) (entry : ScreenData) :
    (storeEntry serverConfig beyond acc entry).1.kind = acc.1.kind ∧
      (storeEntry serverConfig beyond acc entry).1.globalBrightness = acc.1.globalBrightness := by
  simp only [storeEntry]
  split <;> exact ⟨rfl, rfl⟩

theorem storeEntries_keeps (acc : Renderer × List Effect) (entries : List ScreenData) :
    (entries.foldl (storeEntry serverConfig beyond) acc).1.kind = acc.1.kind ∧
      (entries.foldl (storeEntry serverConfig beyond) acc).1.globalBrightness =
        acc.1.globalBrightness := by
  induction entries generalizing acc with
  | nil => exact ⟨rfl, rfl⟩
  | cons entry entries ih =>
      obtain ⟨hkind, hbrightness⟩ := storeEntry_keeps serverConfig beyond acc entry
      obtain ⟨hkinds, hrest⟩ := ih (storeEntry serverConfig beyond acc entry)
      exact ⟨hkinds.trans hkind, hrest.trans hbrightness⟩

/-- What an entry for its index makes of a screen. -/
def shownBy (kind : RendererKind) (index : Nat) (entry : ScreenData) (screen : Option Screen) :
    Option Screen :=
  if kind.storesPixels ∧ index < serverConfig.screenInfo.length then
    screen.map fun s => s.setScreenData (Color.pointedTo entry.frameData beyond)
  else screen

theorem storeEntry_screen (acc : Renderer × List Effect) (entry : ScreenData) (index : Nat) :
    (storeEntry serverConfig beyond acc entry).1.screens[index]? =
      if entry.screenID = index then
        shownBy serverConfig beyond acc.1.kind index entry acc.1.screens[index]?
      else acc.1.screens[index]? := by
  simp only [storeEntry, shownBy]
  split
  · rename_i hout
    split
    · rename_i hindex
      rw [if_neg]
      omega
    · rfl
  · rename_i hin
    rw [Renderer.setScreenData_screen]
    have hindex : entry.screenID.toNat = index ↔ entry.screenID = index := by omega
    by_cases hid : entry.screenID = index
    · have hlt : index < serverConfig.screenInfo.length := by omega
      simp [hid, hlt]
    · simp [hindex, hid]

/-- A screen shows the last entry for its index, if there is one. -/
theorem showFrame_screen (index : Nat) (r : Renderer) (screenId : Nat) :
    (showFrame serverConfig connection message beyond index r).1.screens[screenId]? =
      (lastFor ScreenData.screenID (screenId : Int) message.screenData).elim r.screens[screenId]?
        fun entry => shownBy serverConfig beyond r.kind screenId entry r.screens[screenId]? := by
  have hfold := foldl_view ScreenData.screenID (storeEntry serverConfig beyond)
    (fun acc => acc.1.screens[screenId]?) (shownBy serverConfig beyond r.kind screenId)
    (fun acc => acc.1.kind = r.kind) (k := (screenId : Int))
    (fun acc entry hkind => (storeEntry_keeps serverConfig beyond acc entry).1.trans hkind)
    (fun acc entry hkind hid => by rw [storeEntry_screen, if_pos hid, hkind])
    (fun acc entry _ hid => by rw [storeEntry_screen, if_neg hid])
    (fun entry entry' screen => by
      simp only [shownBy]
      split
      · rw [Option.map_map]
        rfl
      · rfl)
    message.screenData (s := (r, [])) rfl
  rw [← hfold]
  simp only [showFrame]
  cases message.serverConfig <;> rfl

theorem showFrame_kind (index : Nat) (r : Renderer) :
    (showFrame serverConfig connection message beyond index r).1.kind = r.kind := by
  simp only [showFrame]
  cases message.serverConfig <;>
    exact (storeEntries_keeps serverConfig beyond (r, []) message.screenData).1

theorem showFrame_layouts (index : Nat) (r : Renderer) :
    (showFrame serverConfig connection message beyond index r).1.screens.map Screen.layout =
      r.screens.map Screen.layout := by
  apply List.ext_getElem?
  intro screenId
  rw [List.getElem?_map, List.getElem?_map, showFrame_screen]
  cases lastFor ScreenData.screenID (screenId : Int) message.screenData with
  | none => rfl
  | some entry =>
      simp only [Option.elim_some, shownBy]
      split
      · rw [Option.map_map]
        rfl
      · rfl

theorem showFrame_full {index : Nat} {r : Renderer} (h : ∀ screen ∈ r.screens, screen.Full) :
    ∀ screen ∈ (showFrame serverConfig connection message beyond index r).1.screens,
      screen.Full := by
  intro screen hscreen
  obtain ⟨screenId, hget⟩ := List.mem_iff_getElem?.mp hscreen
  rw [showFrame_screen] at hget
  cases hlast : lastFor ScreenData.screenID (screenId : Int) message.screenData with
  | none =>
      rw [hlast] at hget
      exact h _ (List.mem_of_getElem? hget)
  | some entry =>
      simp only [hlast, Option.elim_some, shownBy] at hget
      split at hget
      · obtain ⟨old, hold, rfl⟩ := Option.map_eq_some_iff.mp hget
        exact (h _ (List.mem_of_getElem? hold)).setScreenData _
      · exact h _ (List.mem_of_getElem? hget)

theorem showFrame_brightness (index : Nat) (r : Renderer) (h : message.serverConfig = none) :
    (showFrame serverConfig connection message beyond index r).1.globalBrightness =
      r.globalBrightness := by
  simp only [showFrame, h]
  exact (storeEntries_keeps serverConfig beyond (r, []) message.screenData).2

/-- A renderer when `setScreenFrame` calls its `render()`: the frame is stored, and the brightness
that comes with it is not yet set. -/
def rendered (r : Renderer) : Renderer :=
  (message.screenData.foldl (storeEntry serverConfig beyond) (r, [])).1

theorem rendered_kind (r : Renderer) : (rendered serverConfig message beyond r).kind = r.kind :=
  (storeEntries_keeps serverConfig beyond (r, []) message.screenData).1

theorem rendered_brightness (r : Renderer) :
    (rendered serverConfig message beyond r).globalBrightness = r.globalBrightness :=
  (storeEntries_keeps serverConfig beyond (r, []) message.screenData).2

theorem showFrame_screens (index : Nat) (r : Renderer) :
    (showFrame serverConfig connection message beyond index r).1.screens =
      (rendered serverConfig message beyond r).screens := by
  simp only [showFrame, rendered]
  cases message.serverConfig <;> rfl

/-- What a screen of a renderer shows. -/
def shown (s : Server) (index screenId : Nat) : Option (List Color) :=
  (s.renderers[index]?.bind fun r => r.screens[screenId]?).map Screen.screenData

/-- The call handles a frame of the app that is on top. -/
def ShowsFrame (s : Server) (c : ServerCall) (message : MatrixServerMessage) : Prop :=
  ∃ connection rand beyond, c = .handleRequest connection message rand beyond ∧
    message.messageType = .setScreenFrame ∧ s.isTopApp message.appID = true

theorem setScreenFrame_rejected {s : Server} (h : s.isTopApp message.appID = false) :
    s.setScreenFrame connection message beyond =
      (s, [.send connection { messageType := .appPause, appID := message.appID }]) := by
  simp only [setScreenFrame, h]
  rfl

theorem registerApp_renderers (s : Server) (rand : Nat) :
    (s.registerApp connection message rand).1.renderers = s.renderers := by
  simp only [registerApp]
  split <;> rfl

/-- A call that shows no frame leaves every renderer as it is. -/
theorem call_renderers {s : Server} {c : ServerCall}
    (h : ∀ message, ¬s.ShowsFrame c message) : (s.call c).1.renderers = s.renderers := by
  cases c with
  | newConnection connection | clientMessage renderer message => rfl
  | tick input => exact (tick_processCallsOnly s input).renderers
  | handleRequest connection message rand beyond =>
      simp only [call, handleRequest]
      cases htype : message.messageType with
      | setScreenFrame =>
          have hnot : s.isTopApp message.appID = false :=
            Bool.eq_false_iff.mpr fun htop =>
              h message ⟨connection, rand, beyond, rfl, htype, htop⟩
          simp only [setScreenFrame_rejected connection message beyond hnot]
      | registerApp => exact registerApp_renderers connection message s rand
      | _ => rfl

/-- What a frame of the top app leaves of a renderer. -/
theorem call_showsFrame (rand : Nat) {s : Server} (htype : message.messageType = .setScreenFrame)
    (htop : s.isTopApp message.appID = true) (index : Nat) :
    (s.call (.handleRequest connection message rand beyond)).1.renderers[index]? =
      s.renderers[index]?.map fun r =>
        (showFrame s.serverConfig connection message beyond index r).1 := by
  simp only [call, handleRequest, htype, setScreenFrame, htop, if_true, List.getElem?_map,
    List.getElem?_mapIdx, Option.map_map]
  rfl

/-- The frame of the top app is rendered by every renderer. -/
theorem render_mem (rand : Nat) {s : Server} (htype : message.messageType = .setScreenFrame)
    (htop : s.isTopApp message.appID = true) {index : Nat} {r : Renderer}
    (hr : s.renderers[index]? = some r) :
    .render index ∈ (s.handleRequest connection message rand beyond).2 := by
  simp only [handleRequest, htype, setScreenFrame, htop, if_true, List.mem_flatMap]
  refine ⟨showFrame s.serverConfig connection message beyond index r, ?_, ?_⟩
  · rw [List.mem_mapIdx]
    obtain ⟨hlt, hget⟩ := List.getElem?_eq_some_iff.mp hr
    exact ⟨index, hlt, by rw [hget]⟩
  · simp [showFrame]

/-- Renderers of these kinds, all with the screens of the configuration. -/
structure Displays (serverConfig : ServerConfig) (kinds : List RendererKind) (s : Server) :
    Prop where
  config : s.serverConfig = serverConfig
  kinds : s.renderers.map Renderer.kind = kinds
  layouts : ∀ r ∈ s.renderers,
    r.screens.map Screen.layout = serverConfig.screenInfo.map ScreenInfo.layout
  full : ∀ r ∈ s.renderers, ∀ screen ∈ r.screens, screen.Full

theorem Displays.call {serverConfig : ServerConfig} {kinds : List RendererKind} {s : Server}
    (h : s.Displays serverConfig kinds) (c : ServerCall) :
    (s.call c).1.Displays serverConfig kinds := by
  by_cases hshows : ∃ message, s.ShowsFrame c message
  · obtain ⟨message, connection, rand, beyond, rfl, htype, htop⟩ := hshows
    have hrenderers : ∀ index,
        (s.call (.handleRequest connection message rand beyond)).1.renderers[index]? = _ :=
      call_showsFrame connection message beyond rand htype htop
    refine ⟨(s.call_shapes _).1.trans h.config, ?_, fun r' hr' => ?_, fun r' hr' => ?_⟩
    · rw [← h.kinds]
      apply List.ext_getElem?
      intro index
      rw [List.getElem?_map, List.getElem?_map, hrenderers, Option.map_map]
      congr 1
      funext r
      exact showFrame_kind _ _ _ _ index r
    all_goals
      obtain ⟨index, hget⟩ := List.mem_iff_getElem?.mp hr'
      rw [hrenderers] at hget
      obtain ⟨r, hr, rfl⟩ := Option.map_eq_some_iff.mp hget
      have hmem := List.mem_of_getElem? hr
    · exact (showFrame_layouts _ _ _ _ index r).trans (h.layouts r hmem)
    · exact showFrame_full _ _ _ _ (h.full r hmem)
  · have hsame := call_renderers fun message hframe => hshows ⟨message, hframe⟩
    refine ⟨(s.call_shapes c).1.trans h.config, ?_, ?_, ?_⟩ <;> rw [hsame]
    · exact h.kinds
    · exact h.layouts
    · exact h.full

/-- How a call may change one renderer. -/
theorem call_renderer {s : Server} {c : ServerCall} {index : Nat} {r r' : Renderer}
    (hr : s.renderers[index]? = some r) (hr' : (s.call c).1.renderers[index]? = some r') :
    (∀ k : Nat, r'.screens[k]? ≠ r.screens[k]? → ∃ message, s.ShowsFrame c message ∧
        ∃ entry ∈ message.screenData, entry.screenID = k) ∧
      (r'.globalBrightness ≠ r.globalBrightness → ∃ message, s.ShowsFrame c message ∧
        message.serverConfig.isSome = true) := by
  by_cases hshows : ∃ message, s.ShowsFrame c message
  · obtain ⟨message, hshows⟩ := hshows
    have hframe := hshows
    obtain ⟨connection, rand, beyond, rfl, htype, htop⟩ := hframe
    rw [call_showsFrame connection message beyond rand htype htop, hr, Option.map_some,
      Option.some.injEq] at hr'
    subst hr'
    refine ⟨fun k hchanged => ⟨message, hshows, ?_⟩, fun hchanged => ⟨message, hshows, ?_⟩⟩
    · rw [showFrame_screen] at hchanged
      cases hlast : lastFor ScreenData.screenID (k : Int) message.screenData with
      | none =>
          rw [hlast] at hchanged
          exact absurd rfl hchanged
      | some entry => exact ⟨entry, mem_of_lastFor _ hlast⟩
    · cases hconfig : message.serverConfig with
      | none => exact absurd (showFrame_brightness _ _ _ _ _ _ hconfig) hchanged
      | some config => rfl
  · rw [call_renderers fun message h => hshows ⟨message, h⟩, hr, Option.some.injEq] at hr'
    subst hr'
    exact ⟨fun _ hchanged => absurd rfl hchanged, fun hchanged => absurd rfl hchanged⟩

end Server

/-- In any state a call changes a screen or a brightness only by a frame of the app on top, the
screens only where the frame has an entry for their index and the brightness only if it carries
a configuration; runs without such frames leave the renderers as they started. -/
theorem only_top_app_changes_display (s : Server) :
    (∀ (c : ServerCall) (index : Nat) (r r' : Renderer), s.renderers[index]? = some r →
      (s.call c).1.renderers[index]? = some r' →
      (∀ k : Nat, r'.screens[k]? ≠ r.screens[k]? → ∃ message, s.ShowsFrame c message ∧
        ∃ entry ∈ message.screenData, entry.screenID = k) ∧
      (r'.globalBrightness ≠ r.globalBrightness → ∃ message, s.ShowsFrame c message ∧
        message.serverConfig.isSome = true)) ∧
    (∀ c, (s.call c).1.renderers.length = s.renderers.length) ∧
    (∀ connection message rand beyond, message.messageType = .setScreenFrame →
      s.isTopApp message.appID = false →
      s.call (.handleRequest connection message rand beyond) =
        (s, [.send connection { messageType := .appPause, appID := message.appID }])) ∧
    (∀ st, (serverRuns s).ReachableUnder (fun st c => ∀ message, ¬st.1.ShowsFrame c message) st →
      st.1.renderers = s.renderers) := by
  refine ⟨fun c index r r' hr hr' => Server.call_renderer hr hr', fun c => ?_, ?_, fun st h => ?_⟩
  · have hshapes := congrArg List.length (s.call_shapes c).2
    simpa using hshapes
  · intro connection message rand beyond htype hnot
    simp only [Server.call, Server.handleRequest, htype]
    exact Server.setScreenFrame_rejected connection message beyond hnot
  · refine h.invariant (fun st => st.1.renderers = s.renderers) rfl ?_
    intro st c st' hsame hshows hstep
    cases hstep
    exact (Server.call_renderers hshows).trans hsame

end MatrixServer
