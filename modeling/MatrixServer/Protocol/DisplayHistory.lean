import MatrixServer.Protocol.FrameTokens
import MatrixServer.Protocol.PicturesShown

/-!
What the display shows over a whole run of the server and its applications.
It is the picture that was drawn for the last frame shown, whole and by one application; the
frames of an application come in the order in which it drew them, none twice, and with one
renderer an application is never more than one frame ahead of the display.
-/

namespace MatrixServer
open TransitionRuns PictureBoard

instance (before : List Screen) (outcome : LoopOutcome) : Decidable (outcome.DrawsOn before) :=
  inferInstanceAs (Decidable (_ ∧ _))

instance (st : System) : ∀ e, Decidable (st.DrawsOnScreens e)
  | .main i outcome _ => inferInstanceAs (Decidable
      ((st.clients i).mainThread = some .drawing → outcome.DrawsOn (st.clients i).app.screens))
  | .start _ | .receive _ | .join _ | .accept _ | .serve _ _ _ | .clientMessage _ _ | .tick _ =>
      inferInstanceAs (Decidable True)

theorem lastBrightness_mem (kind : RendererKind) (b : Board ConnectionId Picture) :
    lastBrightness kind b = 100 ∨ kind.accepts (lastBrightness kind b) = true := by
  simp only [lastBrightness]
  cases hlast : ((b.shown.filterMap fun entry => entry.2.brightness).filter
      kind.accepts).getLast? with
  | none => exact .inl rfl
  | some brightness => exact .inr (List.mem_filter.mp (List.mem_of_getLast? hlast)).2

section
variable {serverConfig : ServerConfig} {kinds : List RendererKind} {screens : List Screen}
  {params : ConnectionId → AnimationParams} {appNames : ConnectionId → String} {st : System}
  {actions : List (Action ConnectionId Picture)}

/-- Every run is a run of the board on which applications post what they draw: the storing
renderers show the picture on view, all renderers are lit as the pictures put up say, and the
hardware never leaves its range. -/
theorem display_shows_drawn (hscreens : createScreensFromConfig serverConfig = some screens)
    (hdistinct : (serverConfig.screenInfo.map ScreenInfo.screenID).Nodup)
    (hplaces : serverConfig.IdsArePlaces)
    (h : (displayRuns serverConfig kinds screens params appNames).Means System.DrawsOnScreens
      System.boardActions st actions) :
    ∃ b, (boardRuns ConnectionId Picture).replay .empty actions = some b ∧
      (∀ r ∈ st.server.renderers, r.kind.storesPixels = true →
        r.screens.map Screen.screenData =
          (b.onView.elim screens Picture.screens).map Screen.screenData) ∧
      (∀ r ∈ st.server.renderers, r.globalBrightness = lastBrightness r.kind b ∧
        ((∀ streamPixels, r.kind ≠ .webSocketSimulator streamPixels) →
          0 ≤ r.globalBrightness ∧ r.globalBrightness ≤ 100)) ∧
      ∀ i, List.Forall₂ Picture.FrameIs (b.queued i)
        ((st.toServer i).filter MatrixServerMessage.isFrame) := by
  obtain ⟨b, hreplay, hdepicts⟩ := exists_depicted hscreens hdistinct hplaces h
  refine ⟨b, hreplay, hdepicts.pixels, fun r hr => ?_, hdepicts.queues⟩
  refine ⟨hdepicts.brightness r hr, fun hhardware => ?_⟩
  rw [hdepicts.brightness r hr]
  cases lastBrightness_mem r.kind b with
  | inl hfull => omega
  | inr haccepts =>
      cases hkind : r.kind with
      | webSocketSimulator streamPixels => exact absurd hkind (hhardware streamPixels)
      | fpgaFTDI | fpgaRPISPI | rgbMatrix =>
          rw [hkind] at haccepts
          exact of_decide_eq_true haccepts

/-- Of what an application has drawn, the frames taken by the server are the first ones, the
others are on their way, and what was shown is a selection of those taken, in their order. -/
theorem frames_in_order (hscreens : createScreensFromConfig serverConfig = some screens)
    (hdistinct : (serverConfig.screenInfo.map ScreenInfo.screenID).Nodup)
    (hplaces : serverConfig.IdsArePlaces)
    (h : (displayRuns serverConfig kinds screens params appNames).Means System.DrawsOnScreens
      System.boardActions st actions) (i : ConnectionId) :
    ∃ b, (boardRuns ConnectionId Picture).replay .empty actions = some b ∧
      (b.shownOf i).Sublist ((postedBy i actions).take (takenOf i actions)) ∧
      List.Forall₂ Picture.FrameIs ((postedBy i actions).drop (takenOf i actions))
        ((st.toServer i).filter MatrixServerMessage.isFrame) ∧
      (kinds.length = 1 → (postedBy i actions).length ≤ takenOf i actions + 1) := by
  obtain ⟨b, hreplay, hdepicts⟩ := exists_depicted hscreens hdistinct hplaces h
  obtain ⟨hqueue, hshown⟩ := accounts i hreplay
  have hdrop : (postedBy i actions).drop (takenOf i actions) = b.queued i :=
    List.append_cancel_left ((List.take_append_drop _ _).trans hqueue)
  have hqueues := hdepicts.queues i
  rw [← hdrop] at hqueues
  refine ⟨b, hreplay, hshown, hqueues, fun hsole => ?_⟩
  have hpermits : st.PermitInv :=
    h.reachableUnder.reachable.invariant System.PermitInv
      (System.permitInv_initial serverConfig (by simpa [initialServer, Server.start] using hsole)
        params appNames)
      fun _ _ _ hst _ hstep => System.permitInv_step hst hstep
  have hle := hpermits.permits i
  have hlength := hqueues.length_eq
  rw [List.length_drop, ← List.countP_eq_length_filter] at hlength
  rw [System.permits] at hle
  omega

end

/-- An application registers, draws its one pixel red and gets its frame shown. -/
def redSchedule : List SystemEvent :=
  registerSchedule 0 7 ++
    List.replicate 3 (.main 0 (.returned true
      [{ screenId := 0, width := 1, height := 1, screenDataSize := 1,
         screenData := [⟨255, 0, 0⟩] }] (some 40)) true) ++
    [.serve 0 0 fun _ => 0]

def onePixelRuns : TransitionSystem System SystemEvent :=
  displayRuns onePixelConfig [.rgbMatrix] ((createScreensFromConfig onePixelConfig).getD [])
    (fun _ => .new) fun _ => "app"

theorem onePixel_idsArePlaces : onePixelConfig.IdsArePlaces := by
  intro place info hinfo
  cases place with
  | zero =>
      cases hinfo
      decide
  | succ place => cases hinfo

/-- What there is to see of a renderer. -/
def Renderer.look (r : Renderer) : RendererKind × List (List Color) × Int :=
  (r.kind, r.screens.map Screen.screenData, r.globalBrightness)

/-- A run to the red pixel on the display. -/
theorem exists_red_run : ∃ st actions,
    onePixelRuns.Means System.DrawsOnScreens System.boardActions st actions ∧
      st.server.renderers.map Renderer.look = [(.rgbMatrix, [[⟨255, 0, 0⟩]], 40)] := by
  obtain ⟨st, hreach, htest⟩ := TransitionSystem.ReachableUnder.of_test (M := onePixelRuns)
    System.DrawsOnScreens redSchedule
    (fun st => st.server.renderers.map Renderer.look = [(.rgbMatrix, [[⟨255, 0, 0⟩]], 40)])
    (by decide)
  have hmeans : ∃ actions,
      onePixelRuns.Means System.DrawsOnScreens System.boardActions st actions := hreach.means
  obtain ⟨actions, hmeans⟩ := hmeans
  exact ⟨st, actions, hmeans, of_decide_eq_true htest⟩

theorem display_shows_drawn_red : ∃ (actions : List (Action ConnectionId Picture))
    (b : Board ConnectionId Picture),
    (boardRuns ConnectionId Picture).replay .empty actions = some b ∧
      ∃ screens, (b.onView.elim screens Picture.screens).map Screen.screenData =
        [[⟨255, 0, 0⟩]] ∧ lastBrightness .rgbMatrix b = 40 := by
  obtain ⟨st, actions, hmeans, hlook⟩ := exists_red_run
  have hbuilt : createScreensFromConfig onePixelConfig =
      some ((createScreensFromConfig onePixelConfig).getD []) := rfl
  obtain ⟨b, hreplay, hpixels, hlit, -⟩ :=
    display_shows_drawn hbuilt (by decide) onePixel_idsArePlaces hmeans
  obtain ⟨r, hrenderers, hr⟩ := List.map_eq_singleton_iff.mp hlook
  have hmem : r ∈ st.server.renderers := by
    rw [hrenderers]
    exact List.mem_singleton_self r
  simp only [Renderer.look, Prod.mk.injEq] at hr
  obtain ⟨hkind, hdata, hbrightness⟩ := hr
  refine ⟨actions, b, hreplay, _, (hpixels r hmem (by rw [hkind]; rfl)).symm.trans hdata, ?_⟩
  rw [← hbrightness, (hlit r hmem).1, hkind]

theorem frames_in_order_red : ∃ (actions : List (Action ConnectionId Picture))
    (b : Board ConnectionId Picture),
    (boardRuns ConnectionId Picture).replay .empty actions = some b ∧
      (b.shownOf 0).Sublist ((postedBy 0 actions).take (takenOf 0 actions)) ∧
      (postedBy 0 actions).length ≤ takenOf 0 actions + 1 := by
  obtain ⟨st, actions, hmeans, -⟩ := exists_red_run
  have hbuilt : createScreensFromConfig onePixelConfig =
      some ((createScreensFromConfig onePixelConfig).getD []) := rfl
  obtain ⟨b, hreplay, hshown, -, hahead⟩ :=
    frames_in_order hbuilt (by decide) onePixel_idsArePlaces hmeans 0
  exact ⟨actions, b, hreplay, hshown, hahead rfl⟩

end MatrixServer
