import MatrixServer.Application.MatrixApplication
import MatrixServer.Foundation.TransitionRuns

/-!
The screens an application draws on.
`handleRequest` appends a screen for each entry of the configuration it is given
and never removes one. So the list is the configuration's exactly when it was
empty before: an application that is told the configuration again, after a
reconnect, draws on the screens of the old reply in front of the new ones.
-/

namespace MatrixServer
open TransitionRuns

namespace MatrixApplication

/-- One turn of `loop`: every screen is drawn on. -/
def draw (a : MatrixApplication) (pixels : Nat → Nat → Color) : MatrixApplication :=
  { a with screens := a.screens.mapIdx fun index screen => screen.draw (pixels index) }

@[simp] theorem draw_layouts (a : MatrixApplication) (pixels : Nat → Nat → Color) :
    (a.draw pixels).screens.map Screen.layout = a.screens.map Screen.layout := by
  apply List.ext_getElem?
  intro index
  simp only [draw, List.getElem?_map, List.getElem?_mapIdx, Option.map_map]
  rfl

/-- What the loop over the configuration's entries appends. -/
theorem pushScreens_spec (screens : List Screen) (infos : List ScreenInfo) :
    ∃ built, (pushScreens screens infos).1 = screens ++ built ∧ (∀ s ∈ built, s.Full) ∧
      ((pushScreens screens infos).2 = true ↔ ∀ info ∈ infos, 0 ≤ info.pixels) ∧
      ((pushScreens screens infos).2 = true →
        built.map Screen.layout = infos.map ScreenInfo.layout) := by
  induction infos generalizing screens with
  | nil =>
      exact ⟨[], (List.append_nil _).symm, fun _ h => False.elim (List.not_mem_nil h),
        by simp [pushScreens], fun _ => rfl⟩
  | cons info infos ih =>
      simp only [pushScreens]
      split
      · rename_i hnone
        have hnegative : ¬0 ≤ info.pixels := fun hnonneg => by
          simp [Screen.new, ScreenInfo.pixels] at hnone hnonneg
          omega
        refine ⟨[], (List.append_nil _).symm, fun _ h => False.elim (List.not_mem_nil h), ?_,
          fun h => by cases h⟩
        simp [hnegative]
      · rename_i screen hnew
        obtain ⟨hfull, hid, hwidth, hheight⟩ := Screen.new_full hnew
        obtain ⟨built, hpushed, hbuilt, hdone, hlayout⟩ := ih (screens ++ [screen])
        have hpixels : 0 ≤ info.pixels := by
          rw [ScreenInfo.pixels, ← hwidth, ← hheight]
          exact hfull.nonneg
        refine ⟨screen :: built, by simp [hpushed], ?_, by simp [hdone, hpixels], fun hall => ?_⟩
        · intro s hs
          cases List.mem_cons.mp hs with
          | inl hfirst => exact hfirst ▸ hfull
          | inr hrest => exact hbuilt s hrest
        · rw [List.map_cons, List.map_cons, hlayout hall]
          simp [Screen.layout, ScreenInfo.layout, hid, hwidth, hheight]

theorem setServerConfig_screens (a : MatrixApplication) (config : ServerConfig) :
    (a.setServerConfig config).1.screens = (pushScreens a.screens config.screenInfo).1 := by
  simp only [setServerConfig]
  split <;> rfl

theorem setServerConfig_config (a : MatrixApplication) (config : ServerConfig) :
    (a.setServerConfig config).1.serverConfig = config := by
  simp only [setServerConfig]
  split <;> rfl

theorem setServerConfig_appId (a : MatrixApplication) (config : ServerConfig) :
    (a.setServerConfig config).1.appId = a.appId := by
  simp only [setServerConfig]
  split <;> rfl

/-- The list comes to match the configuration exactly when it was empty and every screen
could be built. -/
theorem setServerConfig_matches (a : MatrixApplication) (config : ServerConfig)
    (hfull : ∀ s ∈ a.screens, s.Full) :
    (a.setServerConfig config).1.screens.map Screen.layout =
        config.screenInfo.map ScreenInfo.layout ↔
      a.screens = [] ∧ ∀ info ∈ config.screenInfo, 0 ≤ info.pixels := by
  obtain ⟨built, hpushed, hbuilt, hdone, hlayout⟩ := pushScreens_spec a.screens config.screenInfo
  have hscreens : (a.setServerConfig config).1.screens = a.screens ++ built :=
    (a.setServerConfig_screens config).trans hpushed
  rw [hscreens]
  constructor
  · intro hmatch
    have hnonneg : ∀ info ∈ config.screenInfo, 0 ≤ info.pixels := by
      intro info hinfo
      have hmem : info.layout ∈ (a.screens ++ built).map Screen.layout := by
        rw [hmatch]
        exact List.mem_map_of_mem hinfo
      obtain ⟨s, hs, heq⟩ := List.mem_map.mp hmem
      have hs : s.Full := (List.mem_append.mp hs).elim (hfull s) (hbuilt s)
      simp only [Screen.layout, ScreenInfo.layout, Prod.mk.injEq] at heq
      rw [ScreenInfo.pixels, ← heq.2.1, ← heq.2.2]
      exact hs.nonneg
    refine ⟨?_, hnonneg⟩
    rw [List.map_append, ← hlayout (hdone.mpr hnonneg)] at hmatch
    exact List.map_eq_nil_iff.mp (List.append_left_eq_self.mp hmatch)
  · rintro ⟨hempty, hnonneg⟩
    rw [hempty, List.nil_append]
    exact hlayout (hdone.mpr hnonneg)

end MatrixApplication

inductive ClientEvent where
  | handleRequest (message : MatrixServerMessage)
  | draw (pixels : Nat → Nat → Color)
  | renderToScreens
  | setBrightness (brightness : Int)

/-- The configuration that a `getServerInfo` reply brings. -/
def ClientEvent.told : ClientEvent → Option ServerConfig
  | .handleRequest message =>
      if message.messageType = .getServerInfo then some (message.serverConfig.getD {}) else none
  | _ => none

def clientRuns (params : AnimationParams) (appName : String) :
    TransitionSystem MatrixApplication ClientEvent where
  initial := { params, appName }
  step
    | a, .handleRequest message => some (a.handleRequest message).1
    | a, .draw pixels => some (a.draw pixels)
    | a, .renderToScreens => some a.renderToScreens.1
    | a, .setBrightness brightness => some (a.setBrightness brightness)

namespace MatrixApplication

/-- One screen for each entry of the latest configuration, in its order. -/
def MatchesConfig (a : MatrixApplication) : Prop :=
  a.screens.map Screen.layout = a.serverConfig.screenInfo.map ScreenInfo.layout

instance (a : MatrixApplication) : Decidable a.MatchesConfig :=
  inferInstanceAs (Decidable (_ = _))

/-- The reply's screen ids are pairwise distinct. -/
def TellsDistinct (e : ClientEvent) : Prop :=
  ∀ config ∈ e.told, (config.screenInfo.map ScreenInfo.screenID).Nodup

/-- The sizes of the reply's screens are in the range of the constructor's `int` product. -/
def TellsIntSizes (e : ClientEvent) : Prop := ∀ config ∈ e.told, config.IntSizes

/-- A configuration comes while there are no screens yet, and none of its screens has a
negative size. -/
def FirstTold (a : MatrixApplication) (e : ClientEvent) : Prop :=
  ∀ config ∈ e.told, a.screens = [] ∧ ∀ info ∈ config.screenInfo, 0 ≤ info.pixels

structure ScreensInv (a : MatrixApplication) : Prop where
  full : ∀ s ∈ a.screens, s.Full
  matching : a.MatchesConfig
  distinct : (a.serverConfig.screenInfo.map ScreenInfo.screenID).Nodup

/-- Only a `getServerInfo` reply changes the screens and the configuration. -/
theorem handleRequest_screens (a : MatrixApplication) {message : MatrixServerMessage}
    (h : message.messageType ≠ .getServerInfo) :
    (a.handleRequest message).1.screens = a.screens ∧
      (a.handleRequest message).1.serverConfig = a.serverConfig := by
  simp only [handleRequest]
  cases htype : message.messageType with
  | getServerInfo => exact absurd htype h
  | registerApp =>
      simp only [register]
      split <;> exact ⟨rfl, rfl⟩
  | appPause =>
      simp only [pause]
      split <;> exact ⟨rfl, rfl⟩
  | appResume =>
      simp only [resume]
      split <;> exact ⟨rfl, rfl⟩
  | audioDataMessage => cases message.audioData <;> exact ⟨rfl, rfl⟩
  | setAppParam => cases message.appParamUpdate <;> exact ⟨rfl, rfl⟩
  | _ => exact ⟨rfl, rfl⟩

theorem setServerConfig_full {a : MatrixApplication} (h : ∀ s ∈ a.screens, s.Full)
    (config : ServerConfig) : ∀ s ∈ (a.setServerConfig config).1.screens, s.Full := by
  obtain ⟨built, hpushed, hbuilt, -, -⟩ := pushScreens_spec a.screens config.screenInfo
  have hscreens : (a.setServerConfig config).1.screens = a.screens ++ built :=
    (a.setServerConfig_screens config).trans hpushed
  intro s hs
  rw [hscreens] at hs
  exact (List.mem_append.mp hs).elim (h s) (hbuilt s)

theorem draw_full {a : MatrixApplication} (h : ∀ s ∈ a.screens, s.Full)
    (pixels : Nat → Nat → Color) : ∀ s ∈ (a.draw pixels).screens, s.Full := by
  intro s hs
  obtain ⟨index, hlt, rfl⟩ := List.mem_mapIdx.mp hs
  exact (h _ (List.getElem_mem hlt)).draw _

theorem ScreensInv.draw {a : MatrixApplication} (h : a.ScreensInv)
    (pixels : Nat → Nat → Color) : (a.draw pixels).ScreensInv :=
  ⟨draw_full h.full pixels, (a.draw_layouts pixels).trans h.matching, h.distinct⟩

/-- An application without screens that is told a configuration it can build. -/
theorem ScreensInv.of_told {a : MatrixApplication} (hempty : a.screens = [])
    {config : ServerConfig} (hdistinct : (config.screenInfo.map ScreenInfo.screenID).Nodup)
    (hnonneg : ∀ info ∈ config.screenInfo, 0 ≤ info.pixels) :
    (a.setServerConfig config).1.ScreensInv := by
  have hfull : ∀ s ∈ a.screens, s.Full := by
    rw [hempty]
    exact fun _ hs => False.elim (List.not_mem_nil hs)
  refine ⟨setServerConfig_full hfull config, ?_, ?_⟩
  · rw [MatchesConfig, setServerConfig_config]
    exact (setServerConfig_matches a config hfull).mpr ⟨hempty, hnonneg⟩
  · rwa [setServerConfig_config]

/-- What an event that brings no configuration keeps. -/
theorem step_untold {params : AnimationParams} {appName : String} {a a' : MatrixApplication}
    {e : ClientEvent} (h : a.ScreensInv) (htold : e.told = none)
    (hstep : (clientRuns params appName).step a e = some a') : a'.ScreensInv := by
  cases e with
  | handleRequest message =>
      cases hstep
      have hother : message.messageType ≠ .getServerInfo := fun htype => by
        simp [ClientEvent.told, htype] at htold
      obtain ⟨hscreens, hconfig⟩ := a.handleRequest_screens hother
      refine ⟨?_, ?_, ?_⟩
      · rw [hscreens]
        exact h.full
      · rw [MatchesConfig, hscreens, hconfig]
        exact h.matching
      · rw [hconfig]
        exact h.distinct
  | draw pixels =>
      cases hstep
      exact h.draw pixels
  | renderToScreens | setBrightness brightness =>
      cases hstep
      exact ⟨h.full, h.matching, h.distinct⟩

theorem step_told {params : AnimationParams} {appName : String} {a a' : MatrixApplication}
    {e : ClientEvent} {config : ServerConfig} (htold : e.told = some config)
    (hstep : (clientRuns params appName).step a e = some a') :
    a' = (a.setServerConfig config).1 := by
  cases e with
  | handleRequest message =>
      simp only [ClientEvent.told] at htold
      split at htold
      · rename_i htype
        cases htold
        cases hstep
        simp only [handleRequest, htype]
      · cases htold
  | draw _ | renderToScreens | setBrightness _ => cases htold

/-- A step keeps the screens those of the latest configuration exactly when it brings none
or the first one. -/
theorem matchesConfig_step {params : AnimationParams} {appName : String}
    {a a' : MatrixApplication} {e : ClientEvent} (h : a.ScreensInv)
    (hstep : (clientRuns params appName).step a e = some a') :
    a'.MatchesConfig ↔ a.FirstTold e := by
  cases htold : e.told with
  | none =>
      have hkept := (step_untold h htold hstep).matching
      exact iff_of_true hkept fun config hconfig => (by rw [htold] at hconfig; cases hconfig)
  | some config =>
      rw [step_told htold hstep, MatchesConfig, setServerConfig_config,
        setServerConfig_matches a config h.full]
      simp [FirstTold, htold]

theorem ScreensInv.step {params : AnimationParams} {appName : String} {a a' : MatrixApplication}
    {e : ClientEvent} (h : a.ScreensInv) (hdistinct : TellsDistinct e) (hfirst : a.FirstTold e)
    (hstep : (clientRuns params appName).step a e = some a') : a'.ScreensInv := by
  have hmatch := (matchesConfig_step h hstep).mpr hfirst
  cases htold : e.told with
  | none => exact step_untold h htold hstep
  | some config =>
      have heq := step_told htold hstep
      refine ⟨?_, hmatch, ?_⟩
      · rw [heq]
        exact setServerConfig_full h.full config
      · rw [heq, setServerConfig_config]
        exact hdistinct config htold

theorem screensInv_start (params : AnimationParams) (appName : String) :
    ScreensInv { params, appName } :=
  ⟨fun _ hs => False.elim (List.not_mem_nil hs), rfl, List.nodup_nil⟩

theorem screensInv_of_reachable {params : AnimationParams} {appName : String}
    {a : MatrixApplication} (h : (clientRuns params appName).ReachableUnder
      (fun a e => TellsDistinct e ∧ a.FirstTold e) a) : a.ScreensInv :=
  h.invariant ScreensInv (screensInv_start params appName)
    fun _ _ _ hinv hguard hstep => hinv.step hguard.1 hguard.2 hstep

/-- Screens that match a configuration without repeated ids have distinct ids. -/
theorem ScreensInv.ids_nodup {a : MatrixApplication} (h : a.ScreensInv) :
    (a.screens.map Screen.screenId).Nodup := by
  have hids := congrArg (List.map Prod.fst) h.matching
  simp only [List.map_map] at hids
  have hdistinct := h.distinct
  rw [show ScreenInfo.screenID = Prod.fst ∘ ScreenInfo.layout from rfl, ← hids] at hdistinct
  exact hdistinct

end MatrixApplication
end MatrixServer
